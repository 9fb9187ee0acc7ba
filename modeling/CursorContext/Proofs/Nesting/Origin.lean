import CursorContext.Proofs.Nesting.Linked

/-!
Where frames come from. A frame's mark and role are read off the token that opens it and the two
tokens before that one, and the token that ends a frame is a closing bracket of the same kind.
-/
namespace CursorContext.Nesting

/-! ### Tokens by index -/

theorem drop_tokens {nesting : Nesting} {index : Nat} {token : Token}
    (there : nesting.tokens[index]? = some token) :
    nesting.tokens.toList.drop index = token :: nesting.tokens.toList.drop (index + 1) := by
  obtain ⟨inside, rfl⟩ := Array.getElem?_eq_some_iff.mp there
  rw [List.drop_eq_getElem_cons (by simpa using inside)]
  rfl

theorem drop_tokens_nil {nesting : Nesting} {index : Nat} (beyond : nesting.tokens.size ≤ index) :
    nesting.tokens.toList.drop index = [] :=
  List.drop_eq_nil_of_le (by simpa using beyond)

theorem head?_drop_tokens (nesting : Nesting) (index : Nat) :
    (nesting.tokens.toList.drop index).head? = nesting.tokens[index]? := by
  rw [List.head?_drop, Array.getElem?_toList]

theorem getElem?_written {nesting : Nesting} {before text after : List Token}
    (written : nesting = .ofTokens (before ++ (text ++ after))) {i : Nat} (inside : i < text.length) :
    nesting.tokens[before.length + i]? = text[i]? := by
  rw [written, tokens_ofTokens, List.getElem?_toArray, List.getElem?_append_right (by omega),
    Nat.add_sub_cancel_left, List.getElem?_append_left inside]

/-- The token `back` places before `index`. -/
def tokenBefore (nesting : Nesting) (index back : Nat) : Option Token :=
  if back ≤ index then nesting.tokens[index - back]? else none

/-! ### Frames and the tokens that begin and end them -/

/-- What the tokens say about their frames. -/
structure Formed (nesting : Nesting) : Prop where
  frame : ∀ {i frame}, nesting.frameAt i = some frame → ∃ token bracket,
    nesting.tokens[i]? = some token ∧ token.opening? = some bracket ∧
    frame.mark = bracket.opening ∧ frame.offset = token.start ∧
    frame.role = .ofBracket bracket (nesting.tokenBefore i 1) (nesting.tokenBefore i 2)
  opened : ∀ {i token bracket}, nesting.tokens[i]? = some token → token.opening? = some bracket →
    ∃ frame, nesting.frameAt i = some frame
  closed : ∀ {i k}, nesting.closedAt i = some k → ∃ frame token bracket,
    nesting.frameAt k = some frame ∧ frame.closer = some i ∧ nesting.tokens[i]? = some token ∧
    token.closing? = some bracket ∧ frame.mark = bracket.opening

theorem formed_empty : Formed {} := by
  constructor <;> simp [frameAt, closedAt]

theorem tokenBefore_push {nesting next : Nesting} {token : Token}
    (added : next.tokens = nesting.tokens.push token) {index back : Nat}
    (old : index ≤ nesting.tokens.size) (positive : 0 < back) :
    next.tokenBefore index back = nesting.tokenBefore index back := by
  simp only [tokenBefore, added, Array.getElem?_push]
  split
  next within =>
    rw [if_neg (by omega)]
  · rfl

theorem newFrame_role (nesting : Nesting) (bracket : Bracket) (token : Token) :
    (nesting.newFrame bracket token).role =
      .ofBracket bracket (nesting.tokenBefore nesting.tokens.size 1)
        (nesting.tokenBefore nesting.tokens.size 2) := by
  have last : atSigned? nesting.tokens (-1) = nesting.tokenBefore nesting.tokens.size 1 := by
    rw [show (-1 : Int) = .negSucc 0 from rfl, atSigned?_negSucc]
    simp only [tokenBefore, Nat.sub_zero]
    congr 1
  have earlier : atSigned? nesting.tokens (-2) = nesting.tokenBefore nesting.tokens.size 2 := by
    rw [show (-2 : Int) = .negSucc 1 from rfl, atSigned?_negSucc]
    simp only [tokenBefore, Nat.sub_sub]
    congr 1
  simp [newFrame, last, earlier]

/-- Later tokens change nothing about a frame but its end. -/
theorem Extends.same_origin {nesting next : Nesting} {upper below : List Frame}
    {fresh : Option Frame} (step : Extends nesting next upper below fresh) (linked : Linked nesting)
    {i : Nat} {frame : Frame} (found : next.frameAt i = some frame)
    (old : i ≠ nesting.tokens.size) :
    ∃ before, nesting.frameAt i = some before ∧ frame.mark = before.mark ∧
      frame.offset = before.offset ∧ frame.role = before.role := by
  rcases step.old_frame linked found old with ⟨there, -⟩ | ⟨before, -, -, there, rfl⟩
  · exact ⟨frame, there, rfl, rfl, rfl⟩
  · exact ⟨before, there, rfl, rfl, rfl⟩

/-- A frame that is closed stays as it is. -/
theorem Extends.kept_closed {nesting next : Nesting} {upper below : List Frame}
    {fresh : Option Frame} (step : Extends nesting next upper below fresh) (linked : Linked nesting)
    {i close : Nat} {frame : Frame} (found : nesting.frameAt i = some frame)
    (closed : frame.closer = some close) : next.frameAt i = some frame := by
  have old := linked.lt_size found
  rw [step.frameAt, if_neg (by omega), if_neg]
  · exact found
  · intro among
    obtain ⟨other, member, named⟩ := List.mem_map.mp among
    obtain ⟨there, isOpen⟩ := linked.mem_stack.mp (step.held_upper member)
    rw [named, found] at there
    cases there
    simp [isOpen] at closed

/-- The frame that the added token opens. -/
theorem Step.frameAt_last {nesting next : Nesting} {token : Token} (step : Step nesting token next)
    (size : nesting.sites.size = nesting.tokens.size) :
    next.frameAt nesting.tokens.size =
      token.opening?.map fun bracket => nesting.newFrame bracket token := by
  have absent : nesting.frameAt nesting.tokens.size = none := by simp [frameAt, ← size]
  cases step with
  | enter bracket opens => simp [frameAt_enter _ _ _ _ size, opens]
  | shut bracket inner matching below opens closes split others same =>
    simp [frameAt_shut, absent, opens]
  | pass opens unmatched => simp [frameAt_pass, absent, opens]

theorem Formed.push {nesting : Nesting} (formed : Formed nesting) (linked : Linked nesting)
    (token : Token) : Formed (nesting.push token) := by
  have step := push_step nesting token
  have added := tokens_push nesting token
  generalize nesting.push token = next at step added
  obtain ⟨upper, below, fresh, extends_⟩ := step.extends linked
  have last := step.frameAt_last linked.size
  constructor
  · intro i frame found
    by_cases new : i = nesting.tokens.size
    · subst i
      rw [last] at found
      obtain ⟨bracket, opens, rfl⟩ := Option.map_eq_some_iff.mp found
      refine ⟨token, bracket, by simp [added], opens, rfl, rfl, ?_⟩
      rw [newFrame_role, tokenBefore_push added (Nat.le_refl _) (by omega),
        tokenBefore_push added (Nat.le_refl _) (by omega)]
    · obtain ⟨before, there, mark, offset, role⟩ := extends_.same_origin linked found new
      obtain ⟨opener, bracket, placed, opens, sameMark, sameOffset, sameRole⟩ := formed.frame there
      have old := linked.lt_size there
      refine ⟨opener, bracket, ?_, opens, mark.trans sameMark, offset.trans sameOffset, ?_⟩
      · rw [added, Array.getElem?_push, if_neg new]
        exact placed
      · rw [role, sameRole, tokenBefore_push added (by omega) (by omega),
          tokenBefore_push added (by omega) (by omega)]
  · intro i opener bracket placed opens
    rw [added, Array.getElem?_push] at placed
    split at placed
    next new =>
      cases placed
      rw [new, last, opens]
      exact ⟨_, rfl⟩
    next old =>
      obtain ⟨frame, there⟩ := formed.opened placed opens
      rw [extends_.frameAt, if_neg old, there]
      split
      · exact ⟨_, rfl⟩
      · exact ⟨_, rfl⟩
  · intro i k found
    -- Only a closing bracket that matches something is new here.
    have earlier : nesting.closedAt i = some k → ∃ frame token bracket,
        next.frameAt k = some frame ∧ frame.closer = some i ∧ next.tokens[i]? = some token ∧
        token.closing? = some bracket ∧ frame.mark = bracket.opening := by
      intro before
      obtain ⟨frame, closer, bracket, there, closed, placed, closes, same⟩ := formed.closed before
      have bound := (linked.bounds there closed).2
      refine ⟨frame, closer, bracket, extends_.kept_closed linked there closed, closed, ?_, closes,
        same⟩
      rw [added, Array.getElem?_push, if_neg (by omega)]
      exact placed
    cases step with
    | enter bracket opens => exact earlier (closedAt_enter nesting bracket token i ▸ found)
    | pass opens unmatched => exact earlier (closedAt_pass nesting token i ▸ found)
    | shut bracket inner matching below opens closes split others same =>
      rw [closedAt_shut _ _ _ _ _ _ linked.size] at found
      split at found
      next new =>
        cases found
        have held : matching ∈ nesting.stack := by simp [split]
        refine ⟨matching.closedBy nesting.tokens.size, token, bracket, ?_, ?_, ?_, closes, same⟩
        · rw [frameAt_shut, if_pos (by simp), linked.frameAt_of_mem_stack held]
          rfl
        · rw [new]
          rfl
        · simp [Nesting.shut, new]
      next old => exact earlier found

theorem formed_ofTokens (tokens : List Token) : Formed (ofTokens tokens) := by
  have both := ofTokens_induction (P := fun nesting => Linked nesting ∧ Formed nesting)
    ⟨linked_empty, formed_empty⟩
    (fun _ token ⟨linked, formed⟩ => ⟨linked.push token, formed.push linked token⟩) tokens
  exact both.2

/-- Only a closing bracket ends a frame. -/
def Ended (nesting : Nesting) : Prop :=
  ∀ i frame close, nesting.frameAt i = some frame → frame.closer = some close →
    ∃ token bracket, nesting.tokens[close]? = some token ∧ token.closing? = some bracket

theorem Ended.push {nesting : Nesting} (ended : Ended nesting) (linked : Linked nesting)
    (token : Token) : Ended (nesting.push token) := by
  have step := push_step nesting token
  have added := tokens_push nesting token
  generalize nesting.push token = next at step added
  intro i frame close found closed
  have earlier : nesting.frameAt i = some frame → ∃ token bracket,
      next.tokens[close]? = some token ∧ token.closing? = some bracket := by
    intro there
    obtain ⟨closer, bracket, placed, closes⟩ := ended i frame close there closed
    have bound := (linked.bounds there closed).2
    refine ⟨closer, bracket, ?_, closes⟩
    rw [added, Array.getElem?_push, if_neg (by omega)]
    exact placed
  cases step with
  | enter bracket opens =>
    rw [frameAt_enter _ _ _ _ linked.size] at found
    split at found
    · cases found
      simp [newFrame] at closed
    · exact earlier found
  | pass opens unmatched => exact earlier (frameAt_pass nesting token i ▸ found)
  | shut bracket inner matching below opens closes split others same =>
    rw [frameAt_shut] at found
    split at found
    · obtain ⟨before, -, rfl⟩ := Option.map_eq_some_iff.mp found
      cases closed
      exact ⟨token, bracket, by simp [Nesting.shut], closes⟩
    · exact earlier found

theorem ended_ofTokens (tokens : List Token) : Ended (ofTokens tokens) := by
  have both := ofTokens_induction (P := fun nesting => Linked nesting ∧ Ended nesting)
    ⟨linked_empty, fun i frame close found => by simp [frameAt] at found⟩
    (fun _ token ⟨linked, ended⟩ => ⟨linked.push token, ended.push linked token⟩) tokens
  exact both.2

/-! ### Consequences -/

/-- After an operator that leads to a member, the word in front of a bracket decides its role. -/
theorem ofRound_member {word operator : Token} (kind : word.kind = .identifier)
    (member : operator.isMemberOperator = true) :
    Role.ofRound (some word) (some operator) = Role.afterWord (Text.lower word.text) none := by
  have kind' : operator.kind = .operator := by
    simp only [Token.isMemberOperator, Token.isOperator, Bool.and_eq_true, beq_iff_eq] at member
    exact member.1
  simp [Role.ofRound, kind, Role.afterWord, Token.isKeyword, kind']

namespace Formed

variable {nesting : Nesting}

/-- A token that is no opening bracket begins no frame. -/
theorem frameAt_eq_none (formed : Formed nesting) {index : Nat} {token : Token}
    (there : nesting.tokens[index]? = some token) (kind : token.kind ≠ .opener) :
    nesting.frameAt index = none := by
  cases found : nesting.frameAt index with
  | none => rfl
  | some frame =>
    obtain ⟨opener, bracket, same, opens, -⟩ := formed.frame found
    rw [there] at same
    cases same
    simp [Token.opening?, kind] at opens

/-- The bracket of a call follows a token, and that token is no keyword. -/
theorem before_call (formed : Formed nesting) {i : Nat} {frame : Frame}
    (found : nesting.frameAt i = some frame) (call : frame.role = .call) :
    ∃ head token, i = head + 1 ∧ nesting.tokens[head]? = some token ∧ token.kind ≠ .keyword := by
  obtain ⟨opener, bracket, -, -, -, -, role⟩ := formed.frame found
  rw [call] at role
  cases bracket with
  | square => simp [Role.ofBracket] at role
  | curly => simp [Role.ofBracket] at role
  | round =>
    cases before : nesting.tokenBefore i 1 with
    | none => simp [Role.ofBracket, Role.ofRound, before] at role
    | some token =>
      simp only [tokenBefore] at before
      split at before
      next within =>
        refine ⟨i - 1, token, by omega, before, ?_⟩
        intro keyword
        simp only [Role.ofBracket, Role.ofRound, tokenBefore, if_pos within, before,
          keyword] at role
        split at role <;> cases role
      · cases before

/-- The role of the brackets behind the name of a member. -/
theorem role_member (formed : Formed nesting) {start : Nat} {operator name opener : Token}
    {frame : Frame} (leads : nesting.tokens[start]? = some operator)
    (member : operator.isMemberOperator = true) (naming : nesting.tokens[start + 1]? = some name)
    (named : name.kind = .identifier) (opening : nesting.tokens[start + 2]? = some opener)
    (opens : opener.opening? = some .round) (found : nesting.frameAt (start + 2) = some frame) :
    frame.role = Role.afterWord (Text.lower name.text) none := by
  obtain ⟨token, bracket, placed, opens', -, -, role⟩ := formed.frame found
  cases opening.symm.trans placed
  cases opens.symm.trans opens'
  simp only [tokenBefore, Nat.le_add_left, if_true, Role.ofBracket] at role
  rw [role, show start + 2 - 1 = start + 1 by omega, Nat.add_sub_cancel, naming, leads]
  exact ofRound_member named member

/-- A frame is ended by a bracket of the kind that begins it. -/
theorem closing_of_opening (formed : Formed nesting) {index k : Nat} {opener : Token}
    {bracket : Bracket} (closes : nesting.closedAt index = some k)
    (opening : nesting.tokens[k]? = some opener) (opens : opener.opening? = some bracket) :
    ∃ frame closer, nesting.frameAt k = some frame ∧ frame.closer = some index ∧
      nesting.tokens[index]? = some closer ∧ closer.closing? = some bracket := by
  obtain ⟨frame, closer, other, found, ended, placed, closing, mark⟩ := formed.closed closes
  obtain ⟨token, bracket', placed', opens', mark', -⟩ := formed.frame found
  cases opening.symm.trans placed'
  cases opens.symm.trans opens'
  have same : other = bracket := by
    have kinds := congrArg Bracket.ofOpening? (mark.symm.trans mark')
    simpa using kinds
  exact ⟨frame, closer, found, ended, placed, same ▸ closing⟩

end Formed

end CursorContext.Nesting
