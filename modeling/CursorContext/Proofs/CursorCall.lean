import CursorContext.Context
import CursorContext.Proofs.Nesting.Extent
import CursorContext.Proofs.Nesting.Origin

/-!
Which call the cursor is in. Of the open frames only calls, blocks and parameter lists count, and of
those only the last one opened: if it is a call by name there is a context, and the name alone says
which function is called.
-/
namespace CursorContext

namespace Nesting

/-- The frame is the last opened of the open calls, blocks and parameter lists. -/
def Decides (nesting : Nesting) (frame : Frame) : Prop :=
  frame ∈ nesting.frames ∧ frame.closer = none ∧ frame.role ∈ [Role.call, .block, .params] ∧
    ∀ other ∈ nesting.frames, other.closer = none → other.role ∈ [Role.call, .block, .params] →
      other.opener ≤ frame.opener

theorem isDecisive_iff (frame : Frame) :
    isDecisive frame = true ↔ frame.role ∈ [Role.call, .block, .params] := by
  simp [isDecisive]

/-- In a list whose openers descend, the first match is the match opened last. -/
theorem find?_descending {stack : List Frame} (p : Frame → Bool)
    (descending : stack.Pairwise (fun frame other => other.opener < frame.opener)) (frame : Frame) :
    stack.find? p = some frame ↔
      frame ∈ stack ∧ p frame = true ∧ ∀ other ∈ stack, p other = true →
        other.opener ≤ frame.opener := by
  induction descending with
  | nil => simp
  | @cons first below lower _ ih =>
    by_cases here : p first = true
    · rw [List.find?_cons_of_pos here]
      constructor
      · rintro ⟨⟩
        refine ⟨List.mem_cons_self, here, ?_⟩
        intro other member _
        rcases List.mem_cons.mp member with rfl | under
        · exact Nat.le_refl _
        · exact Nat.le_of_lt (lower other under)
      · rintro ⟨member, -, greatest⟩
        rcases List.mem_cons.mp member with rfl | under
        · rfl
        · -- A match further down would have been opened before this one.
          have above := lower frame under
          have least := greatest first List.mem_cons_self here
          omega
    · rw [List.find?_cons_of_neg here, ih]
      constructor
      · rintro ⟨member, holds, greatest⟩
        refine ⟨List.mem_cons_of_mem _ member, holds, ?_⟩
        intro other among satisfies
        rcases List.mem_cons.mp among with rfl | under
        · exact absurd satisfies here
        · exact greatest other under satisfies
      · rintro ⟨member, holds, greatest⟩
        rcases List.mem_cons.mp member with rfl | under
        · exact absurd holds here
        · exact ⟨under, holds, fun other among => greatest other (List.mem_cons_of_mem _ among)⟩

theorem find?_isDecisive {nesting : Nesting} (linked : Linked nesting) (frame : Frame) :
    nesting.stack.find? isDecisive = some frame ↔ nesting.Decides frame := by
  have held (other : Frame) :
      other ∈ nesting.stack ↔ other ∈ nesting.frames ∧ other.closer = none := by
    rw [linked.mem_stack, linked.mem_frames]
  rw [find?_descending isDecisive linked.stacked.descending]
  simp only [held, isDecisive_iff, Decides, and_imp, and_assoc]

theorem cursorCall_iff {nesting : Nesting} (linked : Linked nesting) (inComment : Bool)
    (frame : Frame) :
    nesting.cursorCall inComment = some frame ↔
      inComment = false ∧ nesting.Decides frame ∧ frame.role = .call := by
  cases inComment with
  | true => simp [cursorCall]
  | false =>
    simp [cursorCall, Option.filter_eq_some_iff, find?_isDecisive linked, Frame.isCall]

end Nesting

/-- Whether the token at `head` is the class name of an object being created. -/
def isCreation (tokens : List Token) (head : Nat) : Bool :=
  0 < head && tokens[head - 1]?.any (·.isKeyword ["new"])

theorem not_isKeyword_of_isMemberOperator {token : Token} (member : token.isMemberOperator = true)
    (words : List String) : token.isKeyword words = false := by
  simp only [Token.isMemberOperator, Token.isOperator, Bool.and_eq_true, beq_iff_eq] at member
  simp [Token.isKeyword, member.1]

theorem calledFunction?_name (tokens : List Token) (symbols : Symbols) (head : Nat) :
    (calledFunction? (.ofTokens tokens) symbols head).map (·.1) =
      (tokens[head]?.filter (·.isName)).map fun name =>
        if isCreation tokens head then "__construct" else Name.trimStart name.text := by
  have placed (i : Nat) : (Nesting.ofTokens tokens).tokens[i]? = tokens[i]? := by
    simp [Nesting.tokens_ofTokens]
  simp only [calledFunction?, placed]
  cases tokens[head]? with
  | none => rfl
  | some token =>
    by_cases named : token.isName = true
    · by_cases first : head = 0
      · simp [named, first, isCreation]
      · have positive : 0 < head := Nat.pos_of_ne_zero first
        cases before : tokens[head - 1]? with
        | none => simp [named, first, isCreation, before]
        | some previous =>
          by_cases member : previous.isMemberOperator = true
          · simp [named, first, isCreation, before, member,
              not_isKeyword_of_isMemberOperator member]
          · by_cases creation : previous.isKeyword ["new"] = true
            · simp [named, first, positive, isCreation, before, member, creation]
            · simp [named, first, isCreation, before, member, creation]
    · simp [named]

theorem context?_function (nesting : Nesting) (inComment : Bool) :
    (nesting.context? inComment).map (·.function) =
      (nesting.cursorCall inComment).bind fun frame => frame.callee.bind fun head =>
        (calledFunction? nesting (.ofNesting nesting) head).map (·.1) := by
  unfold Nesting.context?
  cases nesting.cursorCall inComment with
  | none => rfl
  | some frame =>
    cases callee : frame.callee with
    | none => simp [callee]
    | some head =>
      cases called : calledFunction? nesting (.ofNesting nesting) head <;> simp [callee, called]

theorem context?_of_called {nesting : Nesting} {inComment : Bool} {frame : Frame} {head : Nat}
    {function : String} {receiver : Option ClassRef}
    (found : nesting.cursorCall inComment = some frame) (callee : frame.callee = some head)
    (called : calledFunction? nesting (.ofNesting nesting) head = some (function, receiver)) :
    ∃ context, nesting.context? inComment = some context ∧ context.function = function ∧
      context.receiver = receiver := by
  simp [Nesting.context?, found, callee, called]

/-- The name a call frame's bracket follows, if it follows one. -/
theorem called_name_iff {tokens : List Token} {frame : Frame}
    (member : frame ∈ (Nesting.ofTokens tokens).frames) (call : frame.role = .call)
    (symbols : Symbols) (function : String) :
    (frame.callee.bind fun head =>
        (calledFunction? (.ofTokens tokens) symbols head).map (·.1)) = some function ↔
      ∃ head name, frame.opener = head + 1 ∧ tokens[head]? = some name ∧ name.kind = .identifier ∧
        function = if isCreation tokens head then "__construct" else Name.trimStart name.text := by
  have found := ((Nesting.linked_ofTokens tokens).mem_frames frame).mp member
  obtain ⟨head, token, opener, placed, noKeyword⟩ :=
    (Nesting.formed_ofTokens tokens).before_call found call
  have placed' : tokens[head]? = some token := by
    simpa [Nesting.tokens_ofTokens] using placed
  have callee : frame.callee = some head := by simp [Frame.callee, Frame.isCall, call, opener]
  have named : token.isName = true ↔ token.kind = .identifier := by
    simp [Token.isName, noKeyword]
  simp only [callee, Option.bind_some, calledFunction?_name, placed', Option.map_eq_some_iff,
    Option.filter_eq_some_iff, Option.some.injEq, opener, Nat.add_right_cancel_iff]
  constructor
  · rintro ⟨name, ⟨rfl, isName⟩, rfl⟩
    exact ⟨head, token, rfl, placed', named.mp isName, rfl⟩
  · rintro ⟨_, name, rfl, there, identifier, rfl⟩
    rw [placed'] at there
    cases there
    exact ⟨token, ⟨rfl, named.mpr identifier⟩, rfl⟩

theorem function_ofBuffer_iff (buffer function : String) :
    (Context.ofBuffer buffer).map (·.function) = some function ↔
      Token.endsInComment (Token.scan buffer) = false ∧ ∃ frame head name,
        (Nesting.ofTokens (Token.logical (Token.scan buffer))).Decides frame ∧
        frame.role = .call ∧ frame.opener = head + 1 ∧
        (Token.logical (Token.scan buffer))[head]? = some name ∧ name.kind = .identifier ∧
        function = if isCreation (Token.logical (Token.scan buffer)) head then "__construct"
          else Name.trimStart name.text := by
  have linked := Nesting.linked_ofTokens (Token.logical (Token.scan buffer))
  rw [Context.ofBuffer, context?_function, Option.bind_eq_some_iff]
  constructor
  · rintro ⟨frame, found, called⟩
    obtain ⟨outside, decides, call⟩ := (Nesting.cursorCall_iff linked _ frame).mp found
    obtain ⟨head, name, opener, placed, identifier, equal⟩ :=
      (called_name_iff decides.1 call _ function).mp called
    exact ⟨outside, frame, head, name, decides, call, opener, placed, identifier, equal⟩
  · rintro ⟨outside, frame, head, name, decides, call, opener, placed, identifier, equal⟩
    exact ⟨frame, (Nesting.cursorCall_iff linked _ frame).mpr ⟨outside, decides, call⟩,
      (called_name_iff decides.1 call _ function).mpr
        ⟨head, name, opener, placed, identifier, equal⟩⟩

/-- There is a context exactly if the buffer does not end in an open comment and the open call,
block or parameter list opened last is a call whose bracket follows a plain word. The context is then
of the function with that name, or of the constructor if the word follows `new`. -/
theorem context_of_last_opened (buffer : String) :
    ((Context.ofBuffer buffer).isSome = true ↔
      Token.endsInComment (Token.scan buffer) = false ∧ ∃ frame head name,
        (Nesting.ofTokens (Token.logical (Token.scan buffer))).Decides frame ∧
        frame.role = .call ∧ frame.opener = head + 1 ∧
        (Token.logical (Token.scan buffer))[head]? = some name ∧ name.kind = .identifier) ∧
    ∀ context frame head name, Context.ofBuffer buffer = some context →
      (Nesting.ofTokens (Token.logical (Token.scan buffer))).Decides frame →
      frame.opener = head + 1 → (Token.logical (Token.scan buffer))[head]? = some name →
      context.function =
        if isCreation (Token.logical (Token.scan buffer)) head then "__construct"
        else Name.trimStart name.text := by
  constructor
  · constructor
    · intro isSome
      obtain ⟨context, found⟩ := Option.isSome_iff_exists.mp isSome
      have function : (Context.ofBuffer buffer).map (·.function) = some context.function := by
        simp [found]
      obtain ⟨outside, frame, head, name, decides, call, opener, placed, identifier, -⟩ :=
        (function_ofBuffer_iff buffer _).mp function
      exact ⟨outside, frame, head, name, decides, call, opener, placed, identifier⟩
    · rintro ⟨outside, frame, head, name, decides, call, opener, placed, identifier⟩
      have function := (function_ofBuffer_iff buffer _).mpr
        ⟨outside, frame, head, name, decides, call, opener, placed, identifier, rfl⟩
      obtain ⟨context, found, -⟩ := Option.map_eq_some_iff.mp function
      simp [found]
  · intro context frame head name found decides opener placed
    have function : (Context.ofBuffer buffer).map (·.function) = some context.function := by
      simp [found]
    obtain ⟨-, other, place, word, decides', -, opener', placed', -, equal⟩ :=
      (function_ofBuffer_iff buffer _).mp function
    -- Only one frame decides, so the name is the same one.
    have same : other.opener = frame.opener :=
      Nat.le_antisymm (decides.2.2.2 other decides'.1 decides'.2.1 decides'.2.2.1)
        (decides'.2.2.2 frame decides.1 decides.2.1 decides.2.2.1)
    have place' : place = head := by omega
    subst place'
    rw [placed] at placed'
    cases placed'
    exact equal

end CursorContext
