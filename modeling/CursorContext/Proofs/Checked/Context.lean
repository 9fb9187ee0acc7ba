import CursorContext.Context
import CursorContext.Proofs.Checked.Arguments
import CursorContext.Proofs.Checked.Nesting
import CursorContext.Proofs.Checked.Symbols

/-!
The whole checked run, from a buffer to the context at its end. It never faults, so every index it
uses is that of a token, every frame it follows is there, and every loop moves on.
-/
namespace CursorContext

namespace Checked

variable {nesting : Nesting} {symbols : Symbols}

/-! ### Receivers -/

/-- The class created inside a pair of round brackets. -/
def createdInside (symbols : Symbols) (nesting : Nesting) (first last : Nat) :
    Except Fault (Option ClassRef) :=
  if first + 2 < last then do
    let creation ← tokenAt nesting (first + 1)
    let name ← tokenAt nesting (first + 2)
    return if creation.isKeyword ["new"] && name.kind == .identifier then symbols.resolve name.text
      else none
  else return none

theorem createdInside_eq (symbols : Symbols) {first last : Nat}
    (inside : last < nesting.tokens.size) :
    createdInside symbols nesting first last = .ok (symbols.createdInside nesting first last) := by
  unfold createdInside Symbols.createdInside
  split
  next room =>
    obtain ⟨creation, there, taken⟩ := tokenAt_lt (by omega : first + 1 < nesting.tokens.size)
    obtain ⟨name, next, named⟩ := tokenAt_lt (by omega : first + 2 < nesting.tokens.size)
    rw [taken, ok_bind, named, ok_bind, there, next]
    simp [room]
  next tight =>
    cases nesting.tokens[first + 1]? <;> cases nesting.tokens[first + 2]? <;> simp [tight]

/-- Whether the token at `index` is reached from the object itself. -/
def isOwnMember (nesting : Nesting) (index : Nat) : Except Fault Bool := do
  let operator ← tokenBefore nesting index 1
  let object ← tokenBefore nesting index 2
  return 2 ≤ index && operator.any (·.isOperator ["->", "?->"]) && object.any (·.text == "$this")

theorem isOwnMember_eq {index : Nat} (inside : index ≤ nesting.tokens.size) :
    isOwnMember nesting index = .ok (Symbols.isOwnMember nesting index) := by
  rw [isOwnMember, tokenBefore_eq inside (by omega), ok_bind, tokenBefore_eq inside (by omega)]
  unfold Symbols.isOwnMember Nesting.tokenBefore
  by_cases room : 2 ≤ index
  · simp [room, show 1 ≤ index by omega]
  · simp [room]

/-- The class of the expression that ends with `token`, when `operator` follows. -/
def baseType (symbols : Symbols) (nesting : Nesting) (index : Nat) (token : Token)
    (operator : String) : Except Fault (Option ClassRef) :=
  match token.kind with
  | .variable =>
    if token.text == "$this" then
      return symbols.currentClass.map fun definition =>
        { written := definition.name, fullName := definition.fullName }
    else return symbols.typeOf token.text
  | .identifier => do
    if operator == "::" then return symbols.resolve token.text
    else if ← isOwnMember nesting index then return symbols.typeOfProperty token.text
    else return none
  | _ => return none

theorem baseType_eq (symbols : Symbols) {index : Nat} (inside : index ≤ nesting.tokens.size)
    (token : Token) (operator : String) :
    baseType symbols nesting index token operator =
      .ok (symbols.baseType nesting index token operator) := by
  unfold baseType Symbols.baseType
  cases token.kind
  case «variable» =>
    dsimp only
    split <;> rfl
  case identifier =>
    dsimp only
    rw [isOwnMember_eq inside, ok_bind]
    split
    · rfl
    · split <;> rfl
  all_goals rfl

/-- The class of the expression that ends just before the token at `stop`, when `operator` follows. -/
def receiverType (symbols : Symbols) (nesting : Nesting) (stop : Nat) (operator : String) :
    Except Fault (Option ClassRef) :=
  match stop with
  | 0 => return none
  | last + 1 => do
    let token ← tokenAt nesting last
    if token.closing? == some .round then
      match nesting.closedAt last with
      | none => return none
      | some opener =>
        let frame ← frameOf nesting opener
        if frame.role == .group then createdInside symbols nesting frame.opener last
        else if !frame.isCall then return none
        else
          let head ← require .missing frame.callee
          if head < 1 then return none
          else
            let name ← tokenAt nesting head
            let before ← tokenAt nesting (head - 1)
            if !name.isName then return none
            else if before.isKeyword ["new"] then return symbols.resolve name.text
            else if before.isMemberOperator then
              if backwards : head - 1 < last + 1 then
                receiverType symbols nesting (head - 1) before.text
              else throw (.stuck last)
            else return none
    else baseType symbols nesting last token operator
termination_by stop
decreasing_by exact backwards

theorem receiverType_eq (linked : nesting.Linked) (formed : nesting.Formed) (symbols : Symbols)
    {stop : Nat} (inside : stop ≤ nesting.tokens.size) (operator : String) :
    receiverType symbols nesting stop operator =
      .ok (symbols.receiverType nesting stop operator) := by
  induction stop using Nat.strongRecOn generalizing operator with
  | ind stop ih =>
    cases stop with
    | zero =>
      rw [receiverType, Symbols.receiverType]
      rfl
    | succ last =>
      obtain ⟨token, there, taken⟩ := tokenAt_lt (by omega : last < nesting.tokens.size)
      rw [receiverType, Symbols.receiverType, taken, ok_bind, there]
      dsimp only
      split
      next closes =>
        have ending : nesting.frameEndingAt last = (nesting.closedAt last).bind nesting.frameAt := rfl
        rw [ending]
        cases closed : nesting.closedAt last with
        | none => rfl
        | some opener =>
          -- A closed frame opens before it ends, so the token before its opener is further back.
          obtain ⟨frame, -, -, found, ends, -⟩ := formed.closed closed
          have named := linked.opener found
          have before := (linked.bounds found ends).1
          rw [Option.bind_some, found]
          dsimp only
          rw [frameOf_eq found, ok_bind]
          split
          · exact createdInside_eq symbols (by omega)
          next plain =>
            cases call : frame.isCall with
            | false => simp [Frame.callee, call]
            | true =>
              have callee : frame.callee = some (opener - 1) := by simp [Frame.callee, call, named]
              rw [callee]
              simp only [Bool.not_true, Bool.false_eq_true, if_false, require_some, ok_bind]
              by_cases first : opener - 1 < 1
              · rw [if_pos first, dif_neg (by omega)]
                rfl
              · obtain ⟨name, second, named⟩ :=
                  tokenAt_lt (by omega : opener - 1 < nesting.tokens.size)
                obtain ⟨before, third, taken⟩ :=
                  tokenAt_lt (by omega : opener - 1 - 1 < nesting.tokens.size)
                rw [if_neg first, dif_pos (by omega), named, ok_bind, taken, ok_bind, second, third,
                  dif_pos (by omega), ih (opener - 1 - 1) (by omega) (by omega)]
                dsimp only
                split
                · rfl
                · split
                  · rfl
                  · split <;> rfl
      next other => exact baseType_eq symbols (by omega) token operator

/-! ### The context -/

/-- The function called with the name at `head`, and the class it is called on. -/
def calledFunction (nesting : Nesting) (symbols : Symbols) (head : Nat) :
    Except Fault (Option (String × Option ClassRef)) := do
  let token ← tokenAt nesting head
  let previous ← tokenBefore nesting head 1
  if !token.isName then return none
  else
    let name := Name.trimStart token.text
    match previous with
    | none => return some (name, none)
    | some before =>
      if before.isMemberOperator then
        return some (name, ← receiverType symbols nesting (head - 1) before.text)
      else if before.isKeyword ["new"] then
        return some ("__construct", symbols.resolve token.text)
      else return some (name, none)

theorem calledFunction_eq (linked : nesting.Linked) (formed : nesting.Formed) (symbols : Symbols)
    {head : Nat} (inside : head < nesting.tokens.size) :
    calledFunction nesting symbols head = .ok (calledFunction? nesting symbols head) := by
  obtain ⟨token, there, taken⟩ := tokenAt_lt inside
  have previous : (if head = 0 then none else nesting.tokens[head - 1]?) =
      nesting.tokenBefore head 1 := by
    cases head <;> simp [Nesting.tokenBefore]
  rw [calledFunction, taken, ok_bind, tokenBefore_eq (Nat.le_of_lt inside) (by omega), ok_bind]
  unfold calledFunction?
  rw [there, previous]
  dsimp only
  split
  · rfl
  · cases nesting.tokenBefore head 1 with
    | none => rfl
    | some before =>
      dsimp only
      rw [receiverType_eq linked formed symbols (by omega), ok_bind]
      split
      · rfl
      · split <;> rfl

/-- The context at the end of a buffer. -/
def contextOf (buffer : String) : Except Fault (Option Context) := do
  let tokens ← Token.scanned true buffer
  let nesting ← track (Token.logical tokens)
  let symbols ← symbolsFrom nesting {} 0
  match ← cursorCall nesting (Token.endsInComment tokens) with
  | none => return none
  | some frame =>
    let head ← require .missing frame.callee
    match ← calledFunction nesting symbols head with
    | none => return none
    | some (function, receiver) =>
      let arguments ← arguments nesting frame
      return some {
        function
        receiver
        aroundClass := symbols.currentClass.map (·.outline)
        aroundFunction := symbols.functionName
        slot := arguments.slot
        parameters := arguments.earlier }

theorem cursorCall_spec (linked : nesting.Linked) {inComment : Bool} {frame : Frame}
    (found : nesting.cursorCall inComment = some frame) :
    frame ∈ nesting.stack ∧ frame.callee = some (frame.opener - 1) ∧
      frame.opener - 1 < nesting.tokens.size := by
  unfold Nesting.cursorCall at found
  split at found
  · cases found
  · obtain ⟨decisive, call⟩ := Option.filter_eq_some_iff.mp found
    have held := List.mem_of_find?_eq_some decisive
    have bound := linked.lt_size (linked.frameAt_of_mem_stack held)
    exact ⟨held, by simp [Frame.callee, call], by omega⟩

/-- Every buffer has its context or none, and finding out which never faults. -/
theorem contextOf_eq_ofBuffer (buffer : String) :
    contextOf buffer = .ok (Context.ofBuffer buffer) := by
  have paired : ∀ token ∈ Token.logical (Token.scan buffer), token.Paired := by
    intro token member
    exact Token.paired_scanFrom _ _ _ _ token (List.mem_of_mem_filter member)
  rw [contextOf, Token.scanned_trivia, ok_bind, track_eq paired, ok_bind, Context.ofBuffer]
  have linked := Nesting.linked_ofTokens (Token.logical (Token.scan buffer))
  have formed := Nesting.formed_ofTokens (Token.logical (Token.scan buffer))
  have ends := endsInTop_ofTokens (Token.logical (Token.scan buffer))
  have written : ∀ token ∈ (Nesting.ofTokens (Token.logical (Token.scan buffer))).tokens,
      token.text ≠ "" := by
    intro token member
    rw [Nesting.tokens_ofTokens, List.mem_toArray] at member
    exact (Token.tiles_scan buffer).text_ne_empty token (List.mem_of_mem_filter member)
  -- From here on these four invariants are all that is known of the nesting.
  generalize Nesting.ofTokens (Token.logical (Token.scan buffer)) = nesting at *
  rw [symbolsFrom_start linked formed, ok_bind, cursorCall_eq linked formed ends written, ok_bind,
    Nesting.context?]
  generalize Symbols.ofNesting nesting = symbols
  cases found : nesting.cursorCall (Token.endsInComment (Token.scan buffer)) with
  | none => rfl
  | some frame =>
    obtain ⟨held, callee, inside⟩ := cursorCall_spec linked found
    simp only [callee, require_some, ok_bind, calledFunction_eq linked formed symbols inside,
      arguments_eq linked formed held]
    cases called : calledFunction? nesting symbols (frame.opener - 1) with
    | none => simp [callee, called]
    | some function => simp [callee, called]

end Checked

end CursorContext
