import CursorContext.Proofs.CallChain
import CursorContext.Proofs.ContextFields
import CursorContext.Proofs.Name

/-!
Calls on the class around the cursor. A chain of calls that begins with a word for this class, or for
its parent, is on that class as long as every bracket in it is taken for that of a call. A name that
is also the word of a control structure, or `array`, ends the way back to the beginning: what stands
before that name is not looked at.
-/
namespace CursorContext

/-! ### Calls in a row -/

/-- A call of a member among the tokens: its name, and where its brackets are. -/
structure ChainedCall where
  name : Token
  opener : Nat
  closer : Nat

/-- The name is no word after which a round bracket is not that of a call. -/
def ChainedCall.isPlain (call : ChainedCall) : Bool :=
  !("array" :: Role.controlWords).contains (Text.lower call.name.text)

namespace Nesting

/-- The call begins with the operator at `start`. -/
structure CallAt (nesting : Nesting) (start : Nat) (operator : Token) (call : ChainedCall) :
    Prop where
  leads : nesting.tokens[start]? = some operator
  member : operator.isMemberOperator = true
  naming : nesting.tokens[start + 1]? = some call.name
  named : call.name.kind = .identifier
  opener : call.opener = start + 2
  opens : nesting.tokens[call.opener]?.bind Token.opening? = some .round
  closes : (nesting.frameEndingAt call.closer).map (·.opener) = some call.opener

/-- Before `stop` there are calls in a row on the token at `base`, here with the last one first. What
stands in their brackets need not be balanced. -/
inductive CallsOn (nesting : Nesting) (base : Nat) : List ChainedCall → Nat → Prop
  | none : CallsOn nesting base [] (base + 1)
  | call {calls : List ChainedCall} {start : Nat} {operator : Token} {call : ChainedCall}
      (earlier : CallsOn nesting base calls start) (last : nesting.CallAt start operator call) :
      CallsOn nesting base (call :: calls) (call.closer + 1)

/-- The list of the frame belongs to a call on calls in a row, if there are any, on the token at
`base`. -/
def CalledOn (nesting : Nesting) (base : Nat) (calls : List ChainedCall) (frame : Frame) : Prop :=
  ∃ stop operator, nesting.CallsOn base calls stop ∧ nesting.tokens[stop]? = some operator ∧
    operator.isMemberOperator = true ∧ frame.opener = stop + 2

/-- The frame of a call, with the role that its name gives it. -/
theorem CallAt.exists_frame {nesting : Nesting} {start : Nat} {operator : Token} {call : ChainedCall}
    (at_ : nesting.CallAt start operator call) (linked : nesting.Linked) (formed : nesting.Formed) :
    ∃ frame closer, nesting.frameEndingAt call.closer = some frame ∧ frame.opener = start + 2 ∧
      start + 2 < call.closer ∧ nesting.tokens[call.closer]? = some closer ∧
      closer.closing? = some .round ∧
      frame.role = Role.afterWord (Text.lower call.name.text) Option.none := by
  obtain ⟨frame, ends, opener⟩ := Option.map_eq_some_iff.mp at_.closes
  obtain ⟨k, closes, found⟩ := Option.bind_eq_some_iff.mp ends
  obtain ⟨token, opening, opens⟩ := Option.bind_eq_some_iff.mp at_.opens
  -- The frame that ends with the call is the one that begins behind its name.
  have place : k = start + 2 := by rw [← linked.opener found, opener, at_.opener]
  subst place
  rw [at_.opener] at opening
  obtain ⟨same, closer, found', ended, placed, closing⟩ :=
    formed.closing_of_opening closes opening opens
  cases found.symm.trans found'
  exact ⟨frame, closer, ends, linked.opener found, (linked.bounds found ended).1, placed, closing,
    formed.role_member at_.leads at_.member at_.naming at_.named opening opens found⟩

end Nesting

namespace Symbols

variable {nesting : Nesting} {base : Nat} {calls : List ChainedCall}

/-! ### Back through a call -/

theorem receiverType_plain (symbols : Symbols) {start : Nat} {operator : Token} {call : ChainedCall}
    (at_ : nesting.CallAt start operator call) (linked : nesting.Linked) (formed : nesting.Formed)
    (plain : call.isPlain = true) (following : String) :
    symbols.receiverType nesting (call.closer + 1) following =
      symbols.receiverType nesting start operator.text := by
  obtain ⟨frame, closer, ends, opener, later, placed, closes, role⟩ := at_.exists_frame linked formed
  have isCall : frame.role = .call := by
    simp only [ChainedCall.isPlain, List.contains_cons, Bool.not_eq_true',
      Bool.or_eq_false_iff] at plain
    rw [role, Role.afterWord, plain.1, plain.2]
    rfl
  exact receiverType_call symbols placed closes ends isCall opener later.le at_.naming
    (by simp [Token.isName, at_.named]) at_.leads at_.member following

/-- What is found behind a bracket that is not taken for that of a call. -/
def hiddenType (symbols : Symbols) (nesting : Nesting) (call : ChainedCall) : Option ClassRef :=
  if Text.lower call.name.text = "array" then none
  else symbols.createdInside nesting call.opener call.closer

theorem receiverType_hidden (symbols : Symbols) {start : Nat} {operator : Token} {call : ChainedCall}
    (at_ : nesting.CallAt start operator call) (linked : nesting.Linked) (formed : nesting.Formed)
    (hidden : call.isPlain = false) (following : String) :
    symbols.receiverType nesting (call.closer + 1) following = symbols.hiddenType nesting call := by
  obtain ⟨frame, closer, ends, opener, -, placed, closes, role⟩ := at_.exists_frame linked formed
  rw [receiverType, hiddenType, at_.opener]
  -- A bracket after `array` has no callee, and one after the other words is taken for a group.
  by_cases array : Text.lower call.name.text = "array"
  · have role' : frame.role = .array := by simp [role, Role.afterWord, array]
    simp [placed, closes, ends, role', array, Frame.callee, Frame.isCall]
  · have control : Role.controlWords.contains (Text.lower call.name.text) = true := by
      simpa [ChainedCall.isPlain, array] using hidden
    have role' : frame.role = .group := by
      rw [role, Role.afterWord, if_neg (by simpa using array), if_pos control]
    simp [placed, closes, ends, role', array, opener]

/-! ### Back through calls in a row -/

/-- If all names are plain, the class of calls in a row is that of the token they begin with. -/
theorem receiverType_callsOn (symbols : Symbols) (linked : nesting.Linked) (formed : nesting.Formed)
    {stop : Nat} (chain : nesting.CallsOn base calls stop)
    (plain : ∀ call ∈ calls, call.isPlain = true) {token leading following : Token}
    (placed : nesting.tokens[base]? = some token) (word : token.closing? = none)
    (next : nesting.tokens[base + 1]? = some leading)
    (behind : nesting.tokens[stop]? = some following) :
    symbols.receiverType nesting stop following.text =
      symbols.baseType nesting base token leading.text := by
  -- On the calls from the last: each leads to its own operator, and the first one to `leading`.
  induction chain generalizing following with
  | none =>
    cases next.symm.trans behind
    exact receiverType_base symbols placed word leading.text
  | call earlier last ih =>
    rw [receiverType_plain symbols last linked formed (plain _ List.mem_cons_self)]
    exact ih (fun call member => plain call (List.mem_cons_of_mem _ member)) last.leads

/-- Otherwise the last name that is not plain decides, and what stands before it does not matter. -/
theorem receiverType_callsOn_hidden (symbols : Symbols) (linked : nesting.Linked)
    (formed : nesting.Formed) {near far : List ChainedCall} {call : ChainedCall} {stop : Nat}
    (chain : nesting.CallsOn base (near ++ call :: far) stop)
    (plain : ∀ other ∈ near, other.isPlain = true) (hidden : call.isPlain = false)
    (following : String) :
    symbols.receiverType nesting stop following = symbols.hiddenType nesting call := by
  -- On the plain calls behind it, from the last: the chain up to it is what is left of them.
  induction near generalizing stop following with
  | nil =>
    cases chain with
    | call earlier last => exact receiverType_hidden symbols last linked formed hidden following
  | cons other near ih =>
    cases chain with
    | call earlier last =>
      rw [receiverType_plain symbols last linked formed (plain _ List.mem_cons_self)]
      exact ih earlier (fun call member => plain call (List.mem_cons_of_mem _ member)) _

end Symbols

/-! ### Words for the class around -/

namespace Token

/-- The token stands for the class around it when `leading` follows. -/
def NamesOwnClass (token leading : Token) : Prop :=
  (token.kind = .variable ∧ token.text = "$this") ∨
    (token.kind = .identifier ∧ Text.lower token.text ∈ ["self", "static"] ∧ leading.text = "::")

/-- The token stands for the parent of the class around it when `leading` follows. -/
def NamesParentClass (token leading : Token) : Prop :=
  token.kind = .identifier ∧ Text.lower token.text = "parent" ∧ leading.text = "::"

variable {token leading : Token}

/-- The words are not written as full names. -/
theorem head?_of_lower (word : Text.lower token.text ∈ ["self", "static", "parent"]) :
    token.text.toList.head? ≠ some '\\' := by
  have absent : ∀ name ∈ ["self", "static", "parent"], '\\' ∉ name.toList := by decide
  intro first
  exact Text.lower_ne (by decide) (by decide) (List.mem_of_head? first) (absent _ word) rfl

theorem NamesOwnClass.fullName_baseType (own : token.NamesOwnClass leading) (symbols : Symbols)
    (nesting : Nesting) (index : Nat) :
    (symbols.baseType nesting index token leading.text).map (·.fullName) =
      symbols.currentClass.map (·.fullName) := by
  rcases own with ⟨kind, this⟩ | ⟨kind, word, static⟩
  · simp [Symbols.baseType, kind, this, Function.comp_def]
  · have begins := head?_of_lower (List.mem_append_left ["parent"] word)
    have own : Text.lower token.text = "self" ∨ Text.lower token.text = "static" := by
      simpa using word
    simp [Symbols.baseType, kind, static, Symbols.resolve, classRef, fullNameOf, begins, own,
      Function.comp_def]

theorem NamesParentClass.fullName_baseType (parent : token.NamesParentClass leading)
    (symbols : Symbols) (nesting : Nesting) (index : Nat) :
    (symbols.baseType nesting index token leading.text).map (·.fullName) =
      symbols.currentClass.bind (·.base) := by
  obtain ⟨kind, word, static⟩ := parent
  have begins : token.text.toList.head? ≠ some '\\' := head?_of_lower (by simp [word])
  simp [Symbols.baseType, kind, static, Symbols.resolve, classRef, fullNameOf, begins, word,
    Function.comp_def]

end Token

/-! ### The context -/

theorem receiver_of_calledFunction? {nesting : Nesting} {symbols : Symbols} {stop : Nat}
    {operator : Token} {function : String} {receiver : Option ClassRef}
    (leads : nesting.tokens[stop]? = some operator) (member : operator.isMemberOperator = true)
    (called : calledFunction? nesting symbols (stop + 1) = some (function, receiver)) :
    receiver = symbols.receiverType nesting stop operator.text := by
  unfold calledFunction? at called
  split at called
  · cases called
  · split at called
    · cases called
    · rw [if_neg (Nat.succ_ne_zero stop), Nat.add_sub_cancel, leads] at called
      simp only [member, if_true, Option.some.injEq, Prod.mk.injEq] at called
      exact called.2.symm

/-- What the context tells about the receiver of the call at the cursor, and about the class around
it. -/
theorem context_of_calledOn {buffer : String} {tokens : List Token} {context : Context}
    {frame : Frame} {base : Nat} {calls : List ChainedCall}
    (scanned : Token.logical (Token.scan buffer) = tokens)
    (found : Context.ofBuffer buffer = some context)
    (list : (Nesting.ofTokens tokens).cursorCall (Token.endsInComment (Token.scan buffer)) =
      some frame)
    (called : (Nesting.ofTokens tokens).CalledOn base calls frame) :
    let nesting := Nesting.ofTokens tokens
    let symbols := Symbols.ofNesting nesting
    context.classDefinition = symbols.currentClass.map (·.fullName) ∧
      context.classExtends = symbols.currentClass.bind (·.base) ∧
      ∃ stop operator, nesting.CallsOn base calls stop ∧ nesting.tokens[stop]? = some operator ∧
        context.receiver = symbols.receiverType nesting stop operator.text := by
  intro nesting symbols
  obtain ⟨stop, operator, chain, leads, member, opener⟩ := called
  have isCall : frame.role = .call :=
    ((Nesting.cursorCall_iff (Nesting.linked_ofTokens _) _ frame).mp list).2.2
  have callee : frame.callee = some (stop + 1) := by
    simp [Frame.callee, Frame.isCall, isCall, opener]
  simp only [Context.ofBuffer, Nesting.context?, scanned, list, callee, Option.bind_eq_bind,
    Option.bind_some, Option.bind_eq_some_iff] at found
  obtain ⟨⟨function, receiver⟩, named, built⟩ := found
  -- The operator in front of the name says that the receiver is looked for.
  have type := receiver_of_calledFunction? leads member named
  cases built
  refine ⟨?_, ?_, stop, operator, chain, leads, type⟩
  · simp [Context.classDefinition, ClassDef.outline, Function.comp_def, symbols, nesting]
  · simp [Context.classExtends, ClassDef.outline, Option.bind_map, symbols, nesting]

/-- A call on the class around it, through any number of calls in a row, is told to be on that class,
and one on the parent to be on the class it extends, if the names of these calls are plain. Where they
are not, the last of them decides: `array` hides what stands before it, and the word of a control
structure leaves only what is created in its brackets. -/
theorem own_class_through_calls {buffer : String} {tokens : List Token} {context : Context}
    {frame : Frame} {base : Nat} {calls : List ChainedCall} {token leading : Token}
    (scanned : Token.logical (Token.scan buffer) = tokens)
    (found : Context.ofBuffer buffer = some context)
    (list : (Nesting.ofTokens tokens).cursorCall (Token.endsInComment (Token.scan buffer)) =
      some frame)
    (called : (Nesting.ofTokens tokens).CalledOn base calls frame)
    (placed : tokens[base]? = some token) (next : tokens[base + 1]? = some leading) :
    ((∀ call ∈ calls, call.isPlain = true) →
      (token.NamesOwnClass leading → context.classFullName = context.classDefinition) ∧
      (token.NamesParentClass leading → context.classFullName = context.classExtends)) ∧
    ∀ near call far, calls = near ++ call :: far → (∀ other ∈ near, other.isPlain = true) →
      call.isPlain = false →
      context.receiver =
        (Symbols.ofNesting (.ofTokens tokens)).hiddenType (.ofTokens tokens) call := by
  have linked := Nesting.linked_ofTokens tokens
  have formed := Nesting.formed_ofTokens tokens
  obtain ⟨definition, extends_, stop, operator, chain, behind, receiver⟩ :=
    context_of_calledOn scanned found list called
  constructor
  · intro plain
    have read (word : token.closing? = none) :
        context.receiver = (Symbols.ofNesting (.ofTokens tokens)).baseType (.ofTokens tokens) base
          token leading.text := by
      rw [receiver]
      apply Symbols.receiverType_callsOn _ linked formed chain plain _ word _ behind
      · simpa [Nesting.tokens_ofTokens] using placed
      · simpa [Nesting.tokens_ofTokens] using next
    constructor
    · intro own
      have word : token.closing? = none := by
        rcases own with ⟨kind, -⟩ | ⟨kind, -⟩ <;> simp [Token.closing?, kind]
      rw [Context.classFullName, read word, own.fullName_baseType, definition]
    · intro parent
      have word : token.closing? = none := by simp [Token.closing?, parent.1]
      rw [Context.classFullName, read word, parent.fullName_baseType, extends_]
  · rintro near call far rfl plain hidden
    rw [receiver]
    exact Symbols.receiverType_callsOn_hidden _ linked formed chain plain hidden _

/-- Two calls on the class around, the first with an open bracket in its list; no call on the parent;
and a class created in the brackets after `match`. -/
theorem own_class_through_two_calls :
    (∃ context, Context.ofBuffer "class A\x7bSelf::a([)->b()->m(" = some context ∧
      context.classFullName = context.classDefinition ∧ context.classDefinition = some "A") ∧
    (∃ context, Context.ofBuffer "class A extends B\x7bparent::m(" = some context ∧
      context.classFullName = context.classExtends ∧ context.classExtends = some "B") ∧
    ∃ context, Context.ofBuffer "class A\x7b$this->match(new C)->m(" = some context ∧
      context.classDefinition = some "A" ∧ context.classFullName = some "C" := by
  let token (kind : Kind) (text : String) (start : Nat) : Token := { kind, text, start }
  let frame (opener offset block : Nat) : Frame :=
    { mark := '(', opener, offset, role := .call, outer := [block] }
  have found {buffer : String} {tokens : List Token} {context : Context}
      (scanned : Token.logical (Token.scan buffer) = tokens ∧
        Token.endsInComment (Token.scan buffer) = false)
      (there : (Nesting.ofTokens tokens).context? false = some context) :
      Context.ofBuffer buffer = some context := by
    simp only [Context.ofBuffer, scanned, there]
  refine ⟨?_, ?_, ?_⟩
  · let tokens := [token .keyword "class" 0, token .identifier "A" 6, token .opener "\x7b" 7,
      token .identifier "Self" 8, token .operator "::" 12, token .identifier "a" 14,
      token .opener "(" 15, token .opener "[" 16, token .closer ")" 17, token .operator "->" 18,
      token .identifier "b" 20, token .opener "(" 21, token .closer ")" 22, token .operator "->" 23,
      token .identifier "m" 25, token .opener "(" 26]
    have scanned : Token.logical (Token.scan "class A\x7bSelf::a([)->b()->m(") = tokens ∧
        Token.endsInComment (Token.scan "class A\x7bSelf::a([)->b()->m(") = false := by
      decide +kernel
    obtain ⟨context, there, definition⟩ : ∃ context,
        (Nesting.ofTokens tokens).context? false = some context ∧
          context.classDefinition = some "A" :=
      Option.map_eq_some_iff.mp (by decide +kernel)
    have first : (Nesting.ofTokens tokens).CallAt 4 (token .operator "::" 12)
        ⟨token .identifier "a" 14, 6, 8⟩ := by
      constructor <;> decide +kernel
    have second : (Nesting.ofTokens tokens).CallAt 9 (token .operator "->" 18)
        ⟨token .identifier "b" 20, 11, 12⟩ := by
      constructor <;> decide +kernel
    have list : (Nesting.ofTokens tokens).cursorCall false = some (frame 15 26 2) := by
      decide +kernel
    have called : (Nesting.ofTokens tokens).CalledOn 3 [⟨token .identifier "b" 20, 11, 12⟩,
        ⟨token .identifier "a" 14, 6, 8⟩] (frame 15 26 2) :=
      ⟨13, token .operator "->" 23, .call (.call .none first) second, by decide +kernel, by decide,
        rfl⟩
    have own := (own_class_through_calls scanned.1 (found scanned there) (scanned.2 ▸ list) called
      rfl rfl).1 (by decide)
    exact ⟨context, found scanned there, own.1 (.inr ⟨rfl, by decide, rfl⟩), definition⟩
  · let tokens := [token .keyword "class" 0, token .identifier "A" 6, token .keyword "extends" 8,
      token .identifier "B" 16, token .opener "\x7b" 17, token .identifier "parent" 18,
      token .operator "::" 24, token .identifier "m" 26, token .opener "(" 27]
    have scanned : Token.logical (Token.scan "class A extends B\x7bparent::m(") = tokens ∧
        Token.endsInComment (Token.scan "class A extends B\x7bparent::m(") = false := by
      decide +kernel
    obtain ⟨context, there, parent⟩ : ∃ context,
        (Nesting.ofTokens tokens).context? false = some context ∧ context.classExtends = some "B" :=
      Option.map_eq_some_iff.mp (by decide +kernel)
    have list : (Nesting.ofTokens tokens).cursorCall false = some (frame 8 27 4) := by decide +kernel
    have called : (Nesting.ofTokens tokens).CalledOn 5 [] (frame 8 27 4) :=
      ⟨6, token .operator "::" 24, .none, by decide +kernel, by decide, rfl⟩
    have own := (own_class_through_calls scanned.1 (found scanned there) (scanned.2 ▸ list) called
      rfl rfl).1 (by decide)
    exact ⟨context, found scanned there, own.2 ⟨rfl, by decide, rfl⟩, parent⟩
  · let tokens := [token .keyword "class" 0, token .identifier "A" 6, token .opener "\x7b" 7,
      token .variable "$this" 8, token .operator "->" 13, token .identifier "match" 15,
      token .opener "(" 20, token .keyword "new" 21, token .identifier "C" 25, token .closer ")" 26,
      token .operator "->" 27, token .identifier "m" 29, token .opener "(" 30]
    have scanned : Token.logical (Token.scan "class A\x7b$this->match(new C)->m(") = tokens ∧
        Token.endsInComment (Token.scan "class A\x7b$this->match(new C)->m(") = false := by
      decide +kernel
    obtain ⟨context, there, definition⟩ : ∃ context,
        (Nesting.ofTokens tokens).context? false = some context ∧
          context.classDefinition = some "A" :=
      Option.map_eq_some_iff.mp (by decide +kernel)
    have first : (Nesting.ofTokens tokens).CallAt 4 (token .operator "->" 13)
        ⟨token .identifier "match" 15, 6, 9⟩ := by
      constructor <;> decide +kernel
    have list : (Nesting.ofTokens tokens).cursorCall false = some (frame 12 30 2) := by
      decide +kernel
    have called : (Nesting.ofTokens tokens).CalledOn 3 [⟨token .identifier "match" 15, 6, 9⟩]
        (frame 12 30 2) :=
      ⟨10, token .operator "->" 27, .call .none first, by decide +kernel, by decide, rfl⟩
    have hidden := (own_class_through_calls scanned.1 (found scanned there) (scanned.2 ▸ list) called
      rfl rfl).2 [] _ [] rfl (by simp) (by decide)
    have created : ((Symbols.ofNesting (.ofTokens tokens)).hiddenType (.ofTokens tokens)
        ⟨token .identifier "match" 15, 6, 9⟩).map (·.fullName) = some "C" := by
      unfold Symbols.hiddenType
      decide +kernel
    refine ⟨context, found scanned there, definition, ?_⟩
    rw [Context.classFullName, hidden, created]

/-- Through a method with the name of a control structure, the class around is not found again. -/
theorem own_class_lost_after_match :
    ∃ context, Context.ofBuffer "class A \x7b function f() \x7b self::match()->m(" = some context ∧
      context.classFullName = none ∧ context.classDefinition = some "A" := by
  have told : (Context.ofBuffer "class A \x7b function f() \x7b self::match()->m(").map
      (fun context => (context.classFullName, context.classDefinition)) = some (none, some "A") := by
    decide +kernel
  obtain ⟨context, found, fields⟩ := Option.map_eq_some_iff.mp told
  obtain ⟨lost, around⟩ := Prod.mk.inj fields
  exact ⟨context, found, lost, around⟩

end CursorContext
