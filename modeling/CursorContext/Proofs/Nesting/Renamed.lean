import CursorContext.Proofs.Nesting.Alike

/-!
Replacing the name of a member. The name stands between an operator that leads to a member and a
round bracket, so neither of its neighbours is a word. Brackets nest as before, and of all frames only
the one the bracket opens can get another role.
-/
namespace CursorContext

section Lists

variable {α : Type}

theorem takeWhile_set {p : α → Bool} {xs : List α} {place : Nat} {old new : α}
    (there : xs[place]? = some old) (same : p new = p old) :
    (xs.set place new).takeWhile p = (xs.takeWhile p).set place new := by
  induction xs generalizing place with
  | nil => simp
  | cons x rest ih =>
    cases place with
    | zero =>
      have first : x = old := by simpa using there
      subst first
      cases holds : p x <;> simp [same, holds]
    | succ place =>
      have later : rest[place]? = some old := by simpa using there
      cases holds : p x <;> simp [holds, ih later]

end Lists

namespace Nesting

/-- `other` is `nesting` with `twin` in place of `name`, the name of a member that follows the
operator at `index` and stands in front of a round bracket. -/
structure Renamed (nesting other : Nesting) (index : Nat) (name twin : Token) : Prop where
  alike : Alike Frame.bare nesting other
  tokens : other.tokens.toList = nesting.tokens.toList.set (index + 1) twin
  operator : nesting.tokens[index]?.any (·.isMemberOperator) = true
  placed : nesting.tokens[index + 1]? = some name
  old : name.kind = .identifier
  new : twin.kind = .identifier
  list : nesting.tokens[index + 2]?.any (·.opening? == some .round) = true

theorem renamed_ofTokens {tokens : List Token} {index : Nat} {operator name list twin : Token}
    (before : tokens[index]? = some operator) (member : operator.isMemberOperator = true)
    (placed : tokens[index + 1]? = some name) (old : name.kind = .identifier)
    (after : tokens[index + 2]? = some list) (calls : list.opening? = some .round)
    (new : twin.kind = .identifier) :
    Renamed (ofTokens tokens) (ofTokens (tokens.set (index + 1) twin)) index name twin := by
  have brackets : twin.brackets = name.brackets := by
    simp [Token.brackets, Token.opening?, Token.closing?, old, new]
  have same : tokens.map Token.brackets = (tokens.set (index + 1) twin).map Token.brackets := by
    apply List.ext_getElem?
    intro i
    simp only [List.getElem?_map, List.getElem?_set]
    split
    next here =>
      obtain ⟨inside, -⟩ := List.getElem?_eq_some_iff.mp placed
      rw [if_pos (by omega), ← here, placed]
      simp [brackets]
    · rfl
  refine ⟨alike_ofTokens same, ?_, ?_, ?_, old, new, ?_⟩
  · simp [tokens_ofTokens]
  · simp [tokens_ofTokens, before, member]
  · simpa [tokens_ofTokens] using placed
  · simp [tokens_ofTokens, after, calls]

namespace Renamed

variable {nesting other : Nesting} {index : Nat} {name twin : Token}

/-! ### The tokens -/

theorem size (renamed : Renamed nesting other index name twin) :
    other.tokens.size = nesting.tokens.size := renamed.alike.size.symm

/-- Only their text tells the two names apart. -/
theorem kind (renamed : Renamed nesting other index name twin) : twin.kind = name.kind :=
  renamed.new.trans renamed.old.symm

theorem isOperator (renamed : Renamed nesting other index name twin) (operators : List String) :
    twin.isOperator operators = name.isOperator operators := by
  have old : name.isOperator operators = false := by simp [Token.isOperator, renamed.old]
  have new : twin.isOperator operators = false := by simp [Token.isOperator, renamed.new]
  rw [old, new]

theorem isKeyword (renamed : Renamed nesting other index name twin) (words : List String) :
    twin.isKeyword words = name.isKeyword words := by
  have old : name.isKeyword words = false := by simp [Token.isKeyword, renamed.old]
  have new : twin.isKeyword words = false := by simp [Token.isKeyword, renamed.new]
  rw [old, new]

theorem opening? (renamed : Renamed nesting other index name twin) :
    twin.opening? = name.opening? := by
  simp [Token.opening?, renamed.old, renamed.new]

theorem getElem?_of_ne (renamed : Renamed nesting other index name twin) {i : Nat}
    (apart : i ≠ index + 1) : other.tokens[i]? = nesting.tokens[i]? := by
  rw [← Array.getElem?_toList, renamed.tokens, List.getElem?_set_ne (by omega),
    Array.getElem?_toList]

theorem placed_twin (renamed : Renamed nesting other index name twin) :
    other.tokens[index + 1]? = some twin := by
  obtain ⟨inside, -⟩ := Array.getElem?_eq_some_iff.mp renamed.placed
  rw [← Array.getElem?_toList, renamed.tokens, List.getElem?_set_self (by simpa using inside)]

theorem symm (renamed : Renamed nesting other index name twin) :
    Renamed other nesting index twin name := by
  refine ⟨renamed.alike.symm, ?_, ?_, renamed.placed_twin, renamed.new, renamed.old, ?_⟩
  · rw [renamed.tokens, List.set_set]
    apply List.ext_getElem?
    intro i
    have placed := renamed.placed
    rw [← Array.getElem?_toList] at placed
    obtain ⟨inside, -⟩ := List.getElem?_eq_some_iff.mp placed
    rw [List.getElem?_set]
    split
    next here => rw [← here, placed]
    next => rfl
  · rw [renamed.getElem?_of_ne (by omega)]
    exact renamed.operator
  · rw [renamed.getElem?_of_ne (by omega)]
    exact renamed.list

/-- A test that does not tell the two names apart has the same outcome everywhere. -/
theorem any_eq (renamed : Renamed nesting other index name twin) {p : Token → Bool}
    (blind : p twin = p name) (i : Nat) : other.tokens[i]?.any p = nesting.tokens[i]?.any p := by
  by_cases here : i = index + 1
  · rw [here, renamed.placed_twin, renamed.placed]
    exact blind
  · rw [renamed.getElem?_of_ne here]

theorem any_tokenBefore (renamed : Renamed nesting other index name twin) {p : Token → Bool}
    (blind : p twin = p name) (i back : Nat) :
    (other.tokenBefore i back).any p = (nesting.tokenBefore i back).any p := by
  simp only [tokenBefore]
  split
  · exact renamed.any_eq blind _
  · rfl

/-- Only the operator stands right in front of the name. -/
theorem next_ne (renamed : Renamed nesting other index name twin) {i : Nat} {here : Token}
    (placed : nesting.tokens[i]? = some here) (plain : here.isMemberOperator = false) :
    i + 1 ≠ index + 1 := by
  intro same
  have there : i = index := by omega
  have operator := renamed.operator
  rw [← there, placed] at operator
  simp [plain] at operator

theorem drop_eq (renamed : Renamed nesting other index name twin) {start : Nat}
    (after : index + 1 < start) :
    other.tokens.toList.drop start = nesting.tokens.toList.drop start := by
  rw [renamed.tokens, List.drop_set, if_pos after]

theorem drop_set (renamed : Renamed nesting other index name twin) {start : Nat}
    (upTo : start ≤ index + 1) :
    other.tokens.toList.drop start =
      (nesting.tokens.toList.drop start).set (index + 1 - start) twin := by
  rw [renamed.tokens, List.drop_set, if_neg (by omega)]

theorem takeWhile_drop (renamed : Renamed nesting other index name twin) {p : Token → Bool}
    (blind : p twin = p name) {start : Nat} (upTo : start ≤ index + 1) :
    (other.tokens.toList.drop start).takeWhile p =
      ((nesting.tokens.toList.drop start).takeWhile p).set (index + 1 - start) twin := by
  rw [renamed.drop_set upTo]
  refine takeWhile_set ?_ blind
  rw [List.getElem?_drop, Nat.add_sub_cancel' upTo, Array.getElem?_toList, renamed.placed]

theorem length_takeWhile (renamed : Renamed nesting other index name twin) {p : Token → Bool}
    (blind : p twin = p name) (start : Nat) :
    ((other.tokens.toList.drop start).takeWhile p).length =
      ((nesting.tokens.toList.drop start).takeWhile p).length := by
  by_cases after : index + 1 < start
  · rw [renamed.drop_eq after]
  · rw [renamed.takeWhile_drop blind (by omega), List.length_set]

/-- A run of tokens that does not reach the name stays as it is. -/
theorem takeWhile_eq (renamed : Renamed nesting other index name twin) {p : Token → Bool}
    (blind : p twin = p name) {start : Nat}
    (clear : index + 1 < start ∨
      start + ((nesting.tokens.toList.drop start).takeWhile p).length ≤ index + 1) :
    (other.tokens.toList.drop start).takeWhile p =
      (nesting.tokens.toList.drop start).takeWhile p := by
  rcases clear with after | before
  · rw [renamed.drop_eq after]
  · rw [renamed.takeWhile_drop blind (by omega), List.set_eq_of_length_le (by omega)]

theorem take_drop_eq (renamed : Renamed nesting other index name twin) {start count : Nat}
    (clear : index + 1 < start ∨ start + count ≤ index + 1) :
    (other.tokens.toList.drop start).take count = (nesting.tokens.toList.drop start).take count := by
  rcases clear with after | before
  · rw [renamed.drop_eq after]
  · rw [renamed.drop_set (by omega), List.take_set_of_le (by omega)]

/-! ### The frames -/

theorem endOf (renamed : Renamed nesting other index name twin) {frame twinFrame : Frame}
    (same : frame.bare = twinFrame.bare) : other.endOf twinFrame = nesting.endOf frame := by
  simp [Nesting.endOf, Frame.closer_of_bare same, renamed.size]

/-- What stands directly in a frame stays, unless the name does. -/
theorem directTokens (renamed : Renamed nesting other index name twin) {frame twinFrame : Frame}
    (same : frame.bare = twinFrame.bare)
    (apart : nesting.enclosing (index + 1) = some frame.opener → frame.opener < index + 1 →
      nesting.endOf frame ≤ index + 1) :
    other.directTokens twinFrame = nesting.directTokens frame := by
  simp only [Nesting.directTokens, renamed.endOf same, ← Frame.opener_of_bare same]
  apply List.filterMap_congr
  intro i member
  rw [← renamed.alike.enclosing]
  split
  next inside =>
    obtain ⟨low, high⟩ := List.mem_range'_1.mp member
    apply renamed.getElem?_of_ne
    rintro rfl
    have bound := apart (by simpa using inside) (by omega)
    omega
  · rfl

/-- The frames that begin at an index look alike. -/
theorem frameAt_cases (renamed : Renamed nesting other index name twin) (i : Nat) :
    (nesting.frameAt i = none ∧ other.frameAt i = none) ∨
      ∃ frame twinFrame, nesting.frameAt i = some frame ∧ other.frameAt i = some twinFrame ∧
        frame.bare = twinFrame.bare := by
  have same := renamed.alike.frameAt i
  cases found : nesting.frameAt i with
  | none =>
    rw [found] at same
    exact .inl ⟨rfl, Option.map_eq_none_iff.mp same.symm⟩
  | some frame =>
    rw [found] at same
    obtain ⟨twinFrame, found', equal⟩ := Option.map_eq_some_iff.mp same.symm
    exact .inr ⟨frame, twinFrame, rfl, found', equal.symm⟩

theorem frameAt_mark_cases (renamed : Renamed nesting other index name twin) (i : Nat)
    (mark : Char) :
    ((nesting.frameAt i).filter (·.mark == mark) = none ∧
        (other.frameAt i).filter (·.mark == mark) = none) ∨
      ∃ frame twinFrame, (nesting.frameAt i).filter (·.mark == mark) = some frame ∧
        (other.frameAt i).filter (·.mark == mark) = some twinFrame ∧
        nesting.frameAt i = some frame ∧ frame.bare = twinFrame.bare := by
  rcases renamed.frameAt_cases i with ⟨none, none'⟩ | ⟨frame, twinFrame, found, found', same⟩
  · exact .inl ⟨by rw [none]; rfl, by rw [none']; rfl⟩
  · rw [found, found', Option.filter_some, Option.filter_some, ← Frame.mark_of_bare same]
    split
    · exact .inr ⟨frame, twinFrame, rfl, rfl, rfl, same⟩
    · exact .inl ⟨rfl, rfl⟩

/-! ### Roles -/

/-- The frame whose role depends on the name. -/
theorem role_call (renamed : Renamed nesting other index name twin) (formed : nesting.Formed) :
    ∃ frame, nesting.frameAt (index + 2) = some frame ∧
      frame.role = Role.afterWord (Text.lower name.text) none := by
  obtain ⟨list, after, calls⟩ := (Option.any_eq_true _ _).mp renamed.list
  obtain ⟨operator, before, member⟩ := (Option.any_eq_true _ _).mp renamed.operator
  have calls' : list.opening? = some .round := by simpa using calls
  obtain ⟨frame, found⟩ := formed.opened after calls'
  exact ⟨frame, found,
    formed.role_member before member renamed.placed renamed.old after calls' found⟩

/-- No other role depends on it. -/
theorem role_eq (renamed : Renamed nesting other index name twin) (formed : nesting.Formed)
    (formed' : other.Formed) {i : Nat} (apart : i ≠ index + 2) :
    (other.frameAt i).map (·.role) = (nesting.frameAt i).map (·.role) := by
  rcases renamed.frameAt_cases i with ⟨none, none'⟩ | ⟨frame, twinFrame, found, found', same⟩
  · rw [none, none']
  · rw [found, found', Option.map_some, Option.map_some]
    congr 1
    obtain ⟨token, bracket, placed, opens, -, -, role⟩ := formed.frame found
    obtain ⟨token', bracket', placed', opens', -, -, role'⟩ := formed'.frame found'
    have notName : i ≠ index + 1 := by
      rintro rfl
      rw [renamed.placed] at placed
      cases placed
      simp [Token.opening?, renamed.old] at opens
    rw [renamed.getElem?_of_ne notName, placed] at placed'
    cases placed'
    rw [opens] at opens'
    cases opens'
    have previous : other.tokenBefore i 1 = nesting.tokenBefore i 1 := by
      simp only [tokenBefore]
      split
      · exact renamed.getElem?_of_ne (by omega)
      · rfl
    rw [role, role', previous]
    by_cases far : i = index + 3
    · -- The bracket after the name is in front of this one, so the name itself is not looked at.
      obtain ⟨list, after, calls⟩ := (Option.any_eq_true _ _).mp renamed.list
      have kind : list.kind = .opener := by
        by_contra other
        simp [Token.opening?, other] at calls
      have before : nesting.tokenBefore i 1 = some list := by
        simpa [far, tokenBefore] using after
      rw [before]
      cases bracket <;> simp [Role.ofBracket, Role.ofRound, kind]
    · have earlier : other.tokenBefore i 2 = nesting.tokenBefore i 2 := by
        simp only [tokenBefore]
        split
        · exact renamed.getElem?_of_ne (by omega)
        · rfl
      rw [earlier]

end Renamed

end Nesting

end CursorContext
