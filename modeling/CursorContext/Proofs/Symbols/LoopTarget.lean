import CursorContext.Proofs.Symbols.LoopHeader
import CursorContext.Token.Scan

/-!
What a loop does to the variables it gives its values to. The variable directly behind `as` loses
the type it had. A variable behind it, or behind the mark of a reference, is not noticed and keeps
its type, and so does every other variable if nothing is bound in what the loop goes through.
-/
namespace CursorContext.Symbols

open Token

variable {nesting : Nesting} {symbols : Symbols}

/-! ### Types of variables -/

theorem typeOf_bind (symbols : Symbols) (name : String) (type : Option ClassRef) (other : String) :
    (symbols.bind name type).typeOf other =
      if name = other then type else symbols.typeOf other := by
  unfold Symbols.bind typeOf bindings
  cases held : symbols.scopes with
  | nil =>
    rw [Std.TreeMap.getElem?_insert]
    split <;> simp_all
  | cons scope outer =>
    simp only
    rw [Std.TreeMap.getElem?_insert]
    split <;> simp_all

theorem typeOf_of_same {next : Symbols} (scopes : next.scopes = symbols.scopes)
    (file : next.file = symbols.file) (name : String) : next.typeOf name = symbols.typeOf name := by
  simp only [typeOf, bindings, scopes, file]

/-! ### Reading single tokens -/

/-- Most tokens are read for nothing but what ends with them. -/
theorem passUpTo_plain (ended : nesting.Ended) {index : Nat} {here : Token}
    (reached : passUpTo nesting index = { symbols, resume := index })
    (placed : nesting.tokens[index]? = some here) (closes : here.closing? = none)
    (separates : here.isOperator [",", ";"] = false)
    (plain : here.kind ∉ [.keyword, .identifier, .variable]) :
    passUpTo nesting (index + 1) = { symbols, resume := index + 1 } := by
  have stays : symbols.leave nesting index here = symbols :=
    leave_eq_self ended placed closes separates
  simp only [List.mem_cons, List.not_mem_nil, or_false, not_or] at plain
  rw [passUpTo_of_reached reached placed]
  cases kind : here.kind <;> simp_all [read, readStatement]

/-- A variable outside of class bodies that nothing is assigned to is bound if it follows `as`. -/
theorem readVariable_unassigned {index : Nat} {here : Token}
    (placed : nesting.tokens[index]? = some here)
    (outside : symbols.inClassBody nesting index = false)
    (assigned : nesting.tokens[index + 1]?.any (·.isOperator ["="]) = false)
    (accessed : nesting.tokens[index + 1]?.any (·.isOperator ["->"]) = false) :
    readVariable nesting (nesting.placeAt index here) symbols =
      if (nesting.tokenBefore index 1).any (·.isKeyword ["as"]) then
        symbols.bind here.text none
      else symbols := by
  have property : assignedProperty? (nesting.placeAt index here).after = none := by
    rw [assignedProperty?_eq, Nesting.after_placeAt, Nesting.head?_drop_tokens, accessed]
    rfl
  unfold readVariable readLocal
  rw [Nesting.previousIs_placeAt placed, Nesting.previousIs_placeAt placed,
    Nesting.index_placeAt, outside, property, Nesting.nextIs_placeAt, assigned]
  -- What follows a member operator does not follow `as`.
  cases before : nesting.tokenBefore index 1 with
  | none => simp
  | some previous =>
    by_cases member : previous.isMemberOperator = true
    · have other : previous.isKeyword ["as"] = false := by
        have operator := (Bool.and_eq_true_iff.mp member).1
        simp [Token.isKeyword, eq_of_beq operator]
      simp [member, other]
    · simp [member]

/-- Between round brackets a variable is in no class body. -/
theorem passUpTo_variable (linked : nesting.Linked) (formed : nesting.Formed)
    (ended : nesting.Ended) {index : Nat} {here : Token}
    (reached : passUpTo nesting index = { symbols, resume := index })
    (placed : nesting.tokens[index]? = some here) (kind : here.kind = .variable) {f : Nat}
    {opener : Token} (opened : nesting.tokens[f]? = some opener)
    (opens : opener.opening? = some .round) (enclosed : nesting.enclosing index = some f)
    (assigned : nesting.tokens[index + 1]?.any (·.isOperator ["="]) = false)
    (accessed : nesting.tokens[index + 1]?.any (·.isOperator ["->"]) = false) :
    passUpTo nesting (index + 1) =
      { symbols :=
          if (nesting.tokenBefore index 1).any (·.isKeyword ["as"]) then
            symbols.bind here.text none
          else symbols
        resume := index + 1 } := by
  have stays : symbols.leave nesting index here = symbols :=
    leave_eq_self ended placed (by simp [Token.closing?, kind]) (by simp [Token.isOperator, kind])
  have outside : symbols.inClassBody nesting index = false := by
    obtain ⟨inside, -⟩ := Array.getElem?_eq_some_iff.mp placed
    have free := inClassBody_eq_false linked formed (Nat.le_of_lt inside) opened opens enclosed
    rwa [reached] at free
  have reads := readVariable_unassigned placed outside assigned accessed
  rw [passUpTo_of_reached reached placed]
  simp [read, readStatement, kind, stays, reads]

/-- No variable is assigned, follows `as`, or is caught in a text. -/
def Quiet (text : List Token) : Prop :=
  ∀ token ∈ text, token.isOperator ["="] = false ∧ token.isKeyword ["as"] = false ∧
    (token.kind = .identifier → Text.lower token.text ≠ "catch")

instance (text : List Token) : Decidable (Quiet text) :=
  inferInstanceAs (Decidable (∀ token ∈ text, _))

/-! ### Reading a header -/

namespace LoopHeader

variable (header : LoopHeader)

/-- The symbols once the first variable has been read. -/
def bound (symbols : Symbols) : Symbols :=
  (header.target.rebound.map (symbols.bind · none)).getD symbols

theorem rebinds_bound (symbols : Symbols) : Rebinds symbols (header.bound symbols) := by
  unfold bound
  cases header.target.rebound with
  | none => exact .of_same rfl rfl
  | some name => exact .bind symbols name none

theorem typeOf_bound (symbols : Symbols) (name : String) :
    (header.bound symbols).typeOf name =
      if header.target.rebound = some name then none else symbols.typeOf name := by
  unfold bound
  cases header.target.rebound with
  | none => simp
  | some other => simp [typeOf_bind]

/-- The first variable of the header at `start` is bound in the scope of an arrow function that ends
with the brackets of the header. -/
def InArrow (nesting : Nesting) (start : Nat) : Prop :=
  some (start + 1) ∈ (passUpTo nesting (start + header.front.length)).symbols.surroundings.scopes

section Reading

variable {header} {before after : List Token}
  (written : nesting = .ofTokens (before ++ (header.tokens ++ after)))

include written

theorem length_le : before.length + header.tokens.length ≤ nesting.tokens.size := by
  rw [written, Nesting.tokens_ofTokens]
  simp

theorem as_before_first :
    (nesting.tokenBefore (before.length + header.front.length) 1).any (·.isKeyword ["as"]) =
      header.target.marks.isEmpty := by
  have last : nesting.tokenBefore (before.length + header.front.length) 1 =
      (header.gives :: header.target.marks).getLast? := by
    have place : before.length + header.front.length - 1 =
        before.length + (header.front.length - 1) := by
      simp [front]
    have inside : header.front.length - 1 < header.tokens.length := by
      simp only [tokens_eq, List.length_append, List.length_cons]
      omega
    -- What stands in front of the variable ends with `as` and the marks.
    have split : header.front = (header.word :: header.opener :: header.iterated) ++
        header.gives :: header.target.marks := by
      simp [front, inFront]
    rw [Nesting.tokenBefore, if_pos (by simp [front]; omega), place,
      getElem?_tokens written inside, tokens_eq, List.getElem?_append_left (by simp [front]),
      ← List.getLast?_eq_getElem?, split, List.getLast?_append_of_ne_nil _ (by simp)]
  rw [last]
  cases marks : header.target.marks with
  | nil => simpa using header.as
  | cons mark more =>
    -- What stands between `as` and the variable is an operator.
    have among : ((mark :: more).getLast (by simp)) ∈ header.target.tokens := by
      apply header.target.mem_of_marks
      rw [marks]
      exact List.getLast_mem _
    rw [List.getLast?_cons_cons, List.getLast?_eq_some_getLast (by simp), Option.any_some,
      header.target.no_keyword among]
    rfl

theorem sign_behind_first {sign : String} (other : sign ∉ ["=>", "&"]) :
    nesting.tokens[before.length + header.front.length + 1]?.any (·.isOperator [sign]) = false := by
  rcases header.target.rest_cases with alone | ⟨rest, signed⟩
  · have closer := placed_closer written
    rw [alone, List.length_nil, Nat.add_zero] at closer
    simp [closer, Token.isOperator, kind_of_closing? header.closes]
  · obtain ⟨first, more, signs⟩ := List.exists_cons_of_ne_nil signed
    have next := placed_rest written (i := 0) (by simp [rest])
    have differs : first.isOperator [sign] = false :=
      isOperator_eq_false (header.target.operator_of_signs (by simp [signs])) (by simpa using other)
    rw [Nat.add_zero] at next
    simp [next, rest, signs, differs]

/-! Behind a key, the operators are passed over one by one, and then the value is. -/

section Keyed

variable (rest : header.target.rest = header.target.signs ++ [header.target.value])

include rest

theorem placed_sign {i : Nat} (inside : i < header.target.signs.length) :
    nesting.tokens[before.length + header.front.length + 1 + i]? =
      some header.target.signs[i] := by
  have within : i < header.target.rest.length := by
    rw [rest, List.length_append]
    omega
  rw [placed_rest written within, rest, List.getElem?_append_left inside,
    List.getElem?_eq_getElem inside]

theorem placed_value :
    nesting.tokens[before.length + header.front.length + 1 + header.target.signs.length]? =
      some header.target.value := by
  rw [placed_rest written (by simp [rest]), rest]
  simp

theorem enclosing_value :
    nesting.enclosing (before.length + header.front.length + 1 + header.target.signs.length) =
      some (before.length + 1) := by
  have part : header.inner = (header.inFront ++ header.target.first :: header.target.signs) ++
      header.target.value :: [] := by
    simp [inner_eq, rest]
  have first := header.target.first_kind
  have value := header.target.named
  have balanced : Balanced (header.inFront ++ header.target.first :: header.target.signs) := by
    apply header.balanced_inFront.append
    apply Balanced.plain (by simp [Token.opening?, first]) (by simp [Token.closing?, first])
    apply Balanced.of_plain
    intro token among
    have operator := header.target.operator_of_signs among
    exact ⟨opening?_of_isOperator operator, closing?_of_isOperator operator⟩
  have enclosed := enclosing_part written part balanced
    (by simp [Token.opening?, Token.closing?, value])
  have place := header.add_length_front before.length
  rw [List.length_append, List.length_cons] at enclosed
  have same : before.length + 2 + (header.inFront.length + (header.target.signs.length + 1)) =
      before.length + header.front.length + 1 + header.target.signs.length := by
    omega
  rwa [same] at enclosed

theorem passUpTo_signs
    (reached : passUpTo nesting (before.length + header.front.length + 1) =
      { symbols, resume := before.length + header.front.length + 1 })
    {i : Nat} (upTo : i ≤ header.target.signs.length) :
    passUpTo nesting (before.length + header.front.length + 1 + i) =
      { symbols, resume := before.length + header.front.length + 1 + i } := by
  have ended : nesting.Ended := written ▸ Nesting.ended_ofTokens _
  induction i with
  | zero => exact reached
  | succ i ih =>
    have inside : i < header.target.signs.length := by omega
    have operator := header.target.operator_of_signs (List.getElem_mem inside)
    have kind := eq_of_beq (Bool.and_eq_true_iff.mp operator).1
    exact passUpTo_plain ended (ih (by omega)) (placed_sign written rest inside)
      (closing?_of_isOperator operator) (isOperator_eq_false operator (by decide))
      (by simp [kind])

/-- The value does not follow `as`. -/
theorem as_before_value (signed : header.target.signs ≠ []) :
    (nesting.tokenBefore (before.length + header.front.length + 1 + header.target.signs.length)
      1).any (·.isKeyword ["as"]) = false := by
  have positive := List.length_pos_iff.mpr signed
  have inside : header.target.signs.length - 1 < header.target.signs.length := by omega
  have last := placed_sign written rest inside
  rw [← Nat.add_sub_assoc positive] at last
  have operator := header.target.operator_of_signs (List.getElem_mem inside)
  have kind := eq_of_beq (Bool.and_eq_true_iff.mp operator).1
  rw [Nesting.tokenBefore, if_pos (by omega), last, Option.any_some]
  simp [Token.isKeyword, kind]

end Keyed

/-- Nothing behind the first variable is bound. -/
theorem passUpTo_rest
    (reached : passUpTo nesting (before.length + header.front.length + 1) =
      { symbols, resume := before.length + header.front.length + 1 }) :
    passUpTo nesting (before.length + header.front.length + 1 + header.target.rest.length) =
      { symbols
        resume := before.length + header.front.length + 1 + header.target.rest.length } := by
  have linked : nesting.Linked := written ▸ Nesting.linked_ofTokens _
  have formed : nesting.Formed := written ▸ Nesting.formed_ofTokens _
  have ended : nesting.Ended := written ▸ Nesting.ended_ofTokens _
  rcases header.target.rest_cases with alone | ⟨rest, signed⟩
  · rw [alone]
    exact reached
  · have length : header.target.rest.length = header.target.signs.length + 1 := by simp [rest]
    have closer := placed_closer written
    have ends := kind_of_closing? header.closes
    rw [length, ← Nat.add_assoc] at closer ⊢
    rw [passUpTo_variable linked formed ended (passUpTo_signs written rest reached le_rfl)
      (placed_value written rest) header.target.named (placed_opener written) header.opens
      (enclosing_value written rest) (by simp [closer, Token.isOperator, ends])
      (by simp [closer, Token.isOperator, ends]), as_before_value written rest signed]
    rfl

/-- With the brackets of the header only scopes end that reach up to them. -/
theorem scopeEnds_closer (scope : Scope) :
    scopeEnds nesting (before.length + header.front.length + 1 + header.target.rest.length)
      header.closer scope = (scope.extent.frame? == some (before.length + 1)) := by
  obtain ⟨frame, found, closed, -⟩ := frame_brackets written
  have closes : nesting.closeOf (before.length + 1) =
      some (before.length + header.front.length + 1 + header.target.rest.length) := by
    rw [Nesting.closeOf, found, Option.bind_some, closed]
  have whole := Nesting.sealed_of_balanced (before ++ [header.word]) header.brackets.balanced
    (header.block :: after)
  rw [← written_brackets written, List.length_append, List.length_singleton] at whole
  have length : header.brackets.tokens.length =
      header.front.length + header.target.rest.length + 1 := by
    have front := header.add_length_front 0
    have inner := header.length_inner
    simp only [Bracketed.length_tokens, brackets]
    omega
  -- A closing bracket ends one frame only.
  have sole (f : Nat) : bodyEnds nesting
      (before.length + header.front.length + 1 + header.target.rest.length) f =
      (some f == some (before.length + 1)) := by
    by_cases same : f = before.length + 1
    · simp [bodyEnds, same, closes]
    · have other : nesting.closeOf f ≠
          some (before.length + header.front.length + 1 + header.target.rest.length) := fun ends =>
        same (whole.sole f _ _ ends closes (by omega) (by omega))
      simp [bodyEnds, other, same]
  have noSign : header.closer.isOperator [",", ";"] = false := by
    simp [Token.isOperator, kind_of_closing? header.closes]
  cases extent : scope.extent with
  | body frame => simp only [scopeEnds, extent, Extent.frame?, sole]
  | arrow container =>
    simp only [scopeEnds, extent, Extent.frame?, noSign, Bool.false_and, Bool.or_false]
    cases container with
    | none => rfl
    | some f => exact sole f

theorem placed_in_front {i : Nat} (inside : i < header.inFront.length) :
    nesting.tokens[before.length + 2 + i]? = header.inFront[i]? := by
  rw [Nat.add_assoc, getElem?_tokens written (by simp [tokens_eq, front]; omega), tokens_eq,
    List.getElem?_append_left (by simp [front]; omega), front, Nat.add_comm 2]
  rfl

/-- No place before the first variable binds one, if no place of what the loop goes through does. -/
theorem grows_in_front (quiet : Quiet header.iterated) {k : Nat} {here : Token}
    (begun : before.length + 2 ≤ k) (inside : k < before.length + 2 + header.inFront.length)
    (placed : nesting.tokens[k]? = some here) (symbols : Symbols) :
    Grows nesting k here (symbols.leave nesting k here)
      (readStatement nesting (nesting.placeAt k here) symbols) := by
  have linked : nesting.Linked := written ▸ Nesting.linked_ofTokens _
  have formed : nesting.Formed := written ▸ Nesting.formed_ofTokens _
  obtain ⟨i, rfl⟩ := Nat.exists_eq_add_of_le begun
  have bound : i < header.inFront.length := by omega
  have there := placed_in_front written bound
  rw [placed] at there
  -- A variable stands in what the loop goes through, and so does what is next to it, or `as` is.
  apply grows_readStatement linked formed
  · intro kind
    rcases List.mem_append.mp (List.mem_of_getElem? there.symm) with among | mark
    · exact (quiet here among).2.2 kind
    · exact absurd kind (header.kind_of_marks mark).1
  · intro kind
    have earlier := header.lt_of_variable there.symm kind
    have next := placed_in_front written (show i + 1 < header.inFront.length by
      simp [inFront]
      omega)
    rw [Nesting.nextIs_placeAt, Nat.add_assoc, next]
    rw [Option.any_eq_false]
    intro token follows
    rcases List.mem_append.mp (List.mem_of_getElem? follows) with among | mark
    · simp [(quiet token among).1]
    · simp [(header.kind_of_marks mark).2.2]
  · intro kind
    have earlier := header.lt_of_variable there.symm kind
    rw [Nesting.previousIs_placeAt placed, Nesting.tokenBefore, if_pos (by omega)]
    cases i with
    | zero =>
      have opener := kind_of_opening? header.opens
      simp [placed_opener written, Token.isKeyword, opener]
    | succ i =>
      have previous := placed_in_front written (show i < header.inFront.length by omega)
      have same : before.length + 2 + (i + 1) - 1 = before.length + 2 + i := by omega
      rw [same, previous, inFront, List.getElem?_append_left (by omega)]
      rw [Option.any_eq_false]
      intro token precedes
      simp [(quiet token (List.mem_of_getElem? precedes)).2.1]

variable (comes : comesTo nesting before.length = true)

include comes

/-- The frames that the scopes around the loop reach up to have begun before it. -/
theorem frame_lt {scope : Scope} (member : scope ∈ (passUpTo nesting before.length).symbols.scopes)
    {f : Nat} (named : scope.extent.frame? = some f) : f < before.length := by
  have linked : nesting.Linked := written ▸ Nesting.linked_ofTokens _
  have formed : nesting.Formed := written ▸ Nesting.formed_ofTokens _
  have inside := length_le written
  have begun := begun_passUpTo linked formed (show before.length ≤ _ by omega) f
    (List.mem_map.mpr ⟨scope, member, named⟩)
  exact Nat.lt_of_lt_of_le begun (of_decide_eq_true comes)

/-- They do not end between its brackets. -/
theorem stay_inside {text later : List Token} (part : header.inner = text ++ later)
    (balanced : Balanced text) (only : OnlyCaptures text) {k : Nat} {here : Token}
    (begun : before.length + 2 ≤ k) (inside : k < before.length + 2 + text.length) :
    Stay nesting [] (passUpTo nesting before.length).symbols k here := by
  have stretch := stretch_part written part balanced only
  intro held reach
  rw [List.map_eq_nil_iff.mp reach, List.nil_append]
  have stays : ∀ scope ∈ (passUpTo nesting before.length).symbols.scopes,
      scopeEnds nesting k here scope = false := by
    intro scope member
    have ends (f : Nat) (named : scope.extent.frame? = some f) : bodyEnds nesting k f = false := by
      by_contra closed
      have later := stretch.opens f k (by simpa [bodyEnds] using closed) begun inside
      have earlier := frame_lt written comes member named
      omega
    -- What stands between the brackets is in no frame from before them.
    have enclosed : nesting.enclosing k ≠ scope.extent.frame? := by
      intro same
      rcases stretch.inOrBelow k begun inside with direct | ⟨f, bound, deep⟩
      · have earlier := frame_lt written comes member (same.symm.trans direct)
        omega
      · have earlier := frame_lt written comes member (same.symm.trans deep)
        omega
    cases extent : scope.extent with
    | body frame => simp [scopeEnds, extent, ends frame (by rw [extent]; rfl)]
    | arrow container =>
      rw [extent] at enclosed
      have apart : (nesting.enclosing k == container) = false := beq_eq_false_iff_ne.mpr enclosed
      have frames : container.any (bodyEnds nesting k) = false := by
        cases container with
        | none => rfl
        | some f => exact ends f (by rw [extent]; rfl)
      simp [scopeEnds, extent, frames, apart]
  apply List.dropWhile_eq_self_iff.mpr
  intro _
  simp [stays]

variable (outside : (passUpTo nesting before.length).importing = false)

include outside

theorem passUpTo_opener : passUpTo nesting (before.length + 2) =
    { symbols := (passUpTo nesting before.length).symbols, resume := before.length + 2 } := by
  have linked : nesting.Linked := written ▸ Nesting.linked_ofTokens _
  have ended : nesting.Ended := written ▸ Nesting.ended_ofTokens _
  have inside := length_le written
  have reached := passUpTo_of_comesTo linked (by omega) comes outside
  have placed := placed_word written
  have isName := header.begins
  simp only [Token.isName, Bool.or_eq_true, beq_iff_eq] at isName
  have stays : (passUpTo nesting before.length).symbols.leave nesting before.length header.word =
      (passUpTo nesting before.length).symbols := by
    rcases isName with kind | kind <;>
      exact leave_eq_self ended placed (by simp [Token.closing?, kind])
        (by simp [Token.isOperator, kind])
  -- Whether it is a keyword or a plain word, nothing is read with it.
  have behind : passUpTo nesting (before.length + 1) =
      { symbols := (passUpTo nesting before.length).symbols, resume := before.length + 1 } := by
    rw [passUpTo_of_reached reached placed]
    rcases isName with kind | kind <;>
      simp [read, readStatement, readKeyword, kind, stays, header.loops]
  have opener := kind_of_opening? header.opens
  exact passUpTo_plain ended behind (placed_opener written) (closing?_of_opening? header.opens)
    (by simp [Token.isOperator, opener]) (by simp [opener])

variable (only : OnlyCaptures header.iterated)

include only

/-- The pass comes to the first variable, whatever stands before it. -/
theorem comesTo_first : comesTo nesting (before.length + header.front.length) = true ∧
    (passUpTo nesting (before.length + header.front.length)).importing = false := by
  have linked : nesting.Linked := written ▸ Nesting.linked_ofTokens _
  have formed : nesting.Formed := written ▸ Nesting.formed_ofTokens _
  have ended : nesting.Ended := written ▸ Nesting.ended_ofTokens _
  have start := passUpTo_opener written comes outside
  have begun : (passUpTo nesting (before.length + 2)).importing = false := by rw [start]
  have reached : comesTo nesting (before.length + 2) = true := by simp [comesTo, start]
  have whole : header.inner = header.inner ++ [] := (List.append_nil _).symm
  have stretch := stretch_part written whole header.balanced_inner (header.only_inner only)
  have place := header.add_length_front before.length
  have inside : header.inFront.length < header.inner.length := by simp [inner_eq]
  have kind := header.target.first_kind
  have direct := enclosing_part written header.inner_eq header.balanced_inFront
    (by simp [Token.opening?, Token.closing?, kind])
  have placed := placed_first written
  rw [place] at placed ⊢
  constructor
  · -- What begins between the brackets does not go past a variable directly in them.
    apply stretch.comesTo_variable linked formed ended _ begun reached (by omega) (by omega) placed
      kind direct
    rintro _ ⟨⟩
    omega
  · exact stretch.importing begun (by omega) (by omega)

/-- The first variable is bound if it follows `as`. -/
theorem passUpTo_first : passUpTo nesting (before.length + header.front.length + 1) =
    { symbols := header.bound (passUpTo nesting (before.length + header.front.length)).symbols
      resume := before.length + header.front.length + 1 } := by
  have linked : nesting.Linked := written ▸ Nesting.linked_ofTokens _
  have formed : nesting.Formed := written ▸ Nesting.formed_ofTokens _
  have ended : nesting.Ended := written ▸ Nesting.ended_ofTokens _
  have inside := length_le written
  have within : before.length + header.front.length ≤ nesting.tokens.size := by
    rw [tokens_eq] at inside
    simp only [List.length_append] at inside
    omega
  obtain ⟨comes', outside'⟩ := comesTo_first written comes outside only
  have reached := passUpTo_of_comesTo linked within comes' outside'
  have kind := header.target.first_kind
  have direct := enclosing_part written header.inner_eq header.balanced_inFront
    (by simp [Token.opening?, Token.closing?, kind])
  rw [← header.add_length_front] at direct
  rw [passUpTo_variable linked formed ended reached (placed_first written) kind
    (placed_opener written) header.opens direct (sign_behind_first written (by decide))
    (sign_behind_first written (by decide)), as_before_first written]
  cases marks : header.target.marks.isEmpty <;> simp [bound, LoopTarget.rebound, marks]

/-- Behind the header, what ends with its brackets has been left. -/
theorem symbols_behind : (passUpTo nesting (before.length + header.tokens.length)).symbols =
    (header.bound (passUpTo nesting (before.length + header.front.length)).symbols).leave nesting
      (before.length + header.front.length + 1 + header.target.rest.length) header.closer := by
  have ended : nesting.Ended := written ▸ Nesting.ended_ofTokens _
  have reached := passUpTo_rest written (passUpTo_first written comes outside only)
  have placed := placed_closer written
  have closer := kind_of_closing? header.closes
  -- At the closing bracket what ends with it is left, and nothing is read.
  have left := passUpTo_of_reached reached placed
  simp only [read, readStatement, Nesting.here_placeAt, Nesting.index_placeAt, closer] at left
  have block := kind_of_opening? header.blocks
  have behind := passUpTo_plain ended left (placed_block written)
    (closing?_of_opening? header.blocks) (by simp [Token.isOperator, block]) (by simp [block])
  have length : before.length + header.tokens.length =
      before.length + header.front.length + 1 + header.target.rest.length + 1 + 1 := by
    simp [tokens_eq]
    omega
  rw [length, behind]

/-- If nothing is bound in what the loop goes through, then at the first variable only scopes of
arrow functions that are open between the brackets lie above those around the loop. -/
theorem scopes_at_first (quiet : Quiet header.iterated) :
    ∃ fresh, (passUpTo nesting (before.length + header.front.length)).symbols.scopes =
        fresh ++ (passUpTo nesting before.length).symbols.scopes ∧
      (∀ scope ∈ fresh, scope.extent = .arrow (some (before.length + 1))) ∧
      (passUpTo nesting (before.length + header.front.length)).symbols.file =
        (passUpTo nesting before.length).symbols.file := by
  have linked : nesting.Linked := written ▸ Nesting.linked_ofTokens _
  have formed : nesting.Formed := written ▸ Nesting.formed_ofTokens _
  have ended : nesting.Ended := written ▸ Nesting.ended_ofTokens _
  have start := passUpTo_opener written comes outside
  have stretch := stretch_part written header.inner_eq header.balanced_inFront
    (header.only_inFront only)
  have place := header.add_length_front before.length
  rw [place]
  have comes' := (comesTo_first written comes outside only).1
  rw [place] at comes'
  -- Nothing from before the loop ends in this stretch, and nothing is bound in it.
  have entered : Entered nesting (some (before.length + 1)) (before.length + 2)
      (before.length + 2 + header.inFront.length) [] (passUpTo nesting before.length).symbols := by
    refine ⟨stretch, Nat.le_add_right _ _, by rw [start], by rw [start],
      ⟨[], rfl, by rw [start]; rfl⟩, comes', ?_, ?_⟩
    · intro k here begun inside _ _
      exact stay_inside written comes header.inner_eq header.balanced_inFront
        (header.only_inFront only) begun inside
    · intro _ k here symbols begun inside placed
      exact grows_in_front written quiet begun inside placed symbols
  obtain ⟨fresh, extents, chain⟩ := entered.chain linked formed ended entered.forward le_rfl
  have reached : (passUpTo nesting (before.length + 2 + header.inFront.length)).resume =
      before.length + 2 + header.inFront.length :=
    Nat.le_antisymm (of_decide_eq_true comes') (le_resume_passUpTo linked stretch.within)
  rw [reached] at chain
  refine ⟨fresh, chain.scopes, ?_, chain.file⟩
  intro scope member
  have among : scope.extent ∈ extents := by
    have held := List.mem_map_of_mem (f := Scope.extent) member
    rwa [chain.reach, List.append_nil] at held
  exact entered.extents_at_stop chain _ among

omit comes outside only in
/-- Between the brackets, directly in their frame, `fn` stands only in what the loop goes through. -/
theorem no_arrow_in_front (noArrow : ∀ token ∈ outermost header.iterated,
      token.isKeyword ["fn"] = false) {k : Nat} {token : Token} (begun : before.length + 2 ≤ k)
    (inside : k < before.length + 2 + header.inner.length)
    (direct : nesting.enclosing k = some (before.length + 1))
    (placed : nesting.tokens[k]? = some token) : token.isKeyword ["fn"] = false := by
  obtain ⟨frame, found, closed, tokens⟩ := frame_brackets written
  have linked : nesting.Linked := written ▸ Nesting.linked_ofTokens _
  have front := header.add_length_front before.length
  have length := header.length_inner
  have among : token ∈ nesting.directTokens frame := by
    rw [Nesting.directTokens_eq_directIn, Nesting.directIn, linked.opener found, Nesting.endOf,
      closed]
    refine List.mem_filterMap.mpr ⟨k, List.mem_range'_1.mpr ?_, by simp [direct, placed]⟩
    simp only [Option.getD_some]
    omega
  rw [tokens, inner, outermost_append header.balanced] at among
  rcases List.mem_append.mp among with own | later
  · exact noArrow token own
  · exact header.no_keyword (by decide) token (mem_of_mem_outermostFrom later)

omit outside only in
/-- Before the brackets, nothing reaches up to them. -/
theorem not_mem_scopes_opener :
    some (before.length + 1) ∉ (passUpTo nesting before.length).symbols.surroundings.scopes := by
  intro member
  obtain ⟨scope, among, named⟩ := List.mem_map.mp member
  have earlier := frame_lt written comes among named
  omega

/-- Without an arrow function directly between the brackets, the first variable is bound in the
scope around the loop. -/
theorem not_inArrow (noArrow : ∀ token ∈ outermost header.iterated,
      token.isKeyword ["fn"] = false) : ¬header.InArrow nesting before.length := by
  have linked : nesting.Linked := written ▸ Nesting.linked_ofTokens _
  have formed : nesting.Formed := written ▸ Nesting.formed_ofTokens _
  have ended : nesting.Ended := written ▸ Nesting.ended_ofTokens _
  have start := passUpTo_opener written comes outside
  have stretch := stretch_part written header.inner_eq header.balanced_inFront
    (header.only_inFront only)
  have place := header.add_length_front before.length
  have inner := header.length_inner
  rw [InArrow, place]
  apply stretch.not_mem_scopes linked formed ended (by omega) (by rw [start])
    (by rw [start]; exact not_mem_scopes_opener written comes) _ (by omega) le_rfl
  intro k token begun inside direct placed
  exact no_arrow_in_front written noArrow begun (by omega) direct placed

omit comes outside only in
/-- With the brackets of the header nothing is left, unless an arrow function reaches up to them. -/
theorem scopes_left (apart : ¬header.InArrow nesting before.length) :
    ((header.bound (passUpTo nesting (before.length + header.front.length)).symbols).leave nesting
        (before.length + header.front.length + 1 + header.target.rest.length)
        header.closer).scopes =
      (header.bound (passUpTo nesting (before.length + header.front.length)).symbols).scopes := by
  have frames := (header.rebinds_bound
    (passUpTo nesting (before.length + header.front.length)).symbols).frames
  apply List.dropWhile_eq_self_iff.mpr
  intro inside
  rw [scopeEnds_closer written, beq_iff_eq]
  intro reaches
  apply apart
  rw [InArrow, ← frames]
  exact List.mem_map.mpr ⟨_, List.getElem_mem inside, reaches⟩

/-- If an arrow function does, it is left with all that has been bound in it. -/
theorem left_with_arrow (quiet : Quiet header.iterated)
    (arrow : header.InArrow nesting before.length) :
    ((header.bound (passUpTo nesting (before.length + header.front.length)).symbols).leave nesting
        (before.length + header.front.length + 1 + header.target.rest.length)
        header.closer).scopes = (passUpTo nesting before.length).symbols.scopes ∧
      (header.bound (passUpTo nesting (before.length + header.front.length)).symbols).file =
        (passUpTo nesting before.length).symbols.file := by
  obtain ⟨fresh, scopes, extents, file⟩ := scopes_at_first written comes outside only quiet
  have older := not_mem_scopes_opener written comes
  have inside : fresh ≠ [] := by
    rintro rfl
    rw [InArrow, surroundings, scopes, List.nil_append] at arrow
    exact older arrow
  -- The variable is bound in the innermost of the arrow functions, and all of them end here.
  have rebinds := header.rebinds_bound
    (passUpTo nesting (before.length + header.front.length)).symbols
  obtain ⟨held, scopes', extents'⟩ := rebinds.append scopes inside
  constructor
  · have ends : ∀ scope ∈ held, scopeEnds nesting (before.length + header.front.length + 1 +
        header.target.rest.length) header.closer scope = true := by
      intro scope member
      obtain ⟨twin, among, same⟩ := List.mem_map.mp (extents' ▸ List.mem_map_of_mem member)
      rw [scopeEnds_closer written, ← same, extents twin among]
      simp [Extent.frame?]
    change (header.bound _).scopes.dropWhile _ = _
    rw [scopes', List.dropWhile_append_of_pos ends]
    apply List.dropWhile_eq_self_iff.mpr
    intro first
    rw [scopeEnds_closer written, beq_iff_eq]
    intro reaches
    exact older (List.mem_map.mpr ⟨_, List.getElem_mem first, reaches⟩)
  · rw [rebinds.file (by simp [scopes, inside]), file]

/-- If none does, the variables at the first of the header are those around the loop. -/
theorem at_first_apart (quiet : Quiet header.iterated)
    (apart : ¬header.InArrow nesting before.length) :
    (passUpTo nesting (before.length + header.front.length)).symbols.scopes =
        (passUpTo nesting before.length).symbols.scopes ∧
      (passUpTo nesting (before.length + header.front.length)).symbols.file =
        (passUpTo nesting before.length).symbols.file := by
  obtain ⟨fresh, scopes, extents, file⟩ := scopes_at_first written comes outside only quiet
  refine ⟨?_, file⟩
  cases fresh with
  | nil => exact scopes
  | cons scope rest =>
    refine absurd ?_ apart
    rw [InArrow, surroundings, scopes, List.cons_append, List.map_cons, extents scope (by simp)]
    exact List.mem_cons_self

end Reading

end LoopHeader

/-- A loop takes the type of the variable that directly follows `as`, unless the variable belongs to
an arrow function without brackets in what the loop goes through. It takes no other type: where
nothing is bound in what the loop goes through, all other variables are as before the loop, a value
behind a key and a value taken by reference among them. -/
theorem loop_rebinds_behind_as (header : LoopHeader) (before after : List Token)
    (written : nesting = .ofTokens (before ++ (header.tokens ++ after)))
    (comes : comesTo nesting before.length = true)
    (outside : (passUpTo nesting before.length).importing = false)
    (only : OnlyCaptures header.iterated) :
    ((∀ token ∈ outermost header.iterated, token.isKeyword ["fn"] = false) →
        ¬header.InArrow nesting before.length) ∧
      (∀ name, header.target.rebound = some name → ¬header.InArrow nesting before.length →
        (passUpTo nesting (before.length + header.tokens.length)).symbols.typeOf name = none) ∧
      (Quiet header.iterated → ∀ name,
        (header.target.rebound = some name → header.InArrow nesting before.length) →
        (passUpTo nesting (before.length + header.tokens.length)).symbols.typeOf name =
          (passUpTo nesting before.length).symbols.typeOf name) := by
  have behind := LoopHeader.symbols_behind written comes outside only
  rw [behind]
  refine ⟨LoopHeader.not_inArrow written comes outside only, ?_, ?_⟩
  · intro name rebound apart
    rw [typeOf_of_same (LoopHeader.scopes_left written apart) rfl, header.typeOf_bound,
      if_pos rebound]
  · intro quiet name behindAs
    -- What is bound in an arrow function is left with it; otherwise one variable is bound.
    by_cases arrow : header.InArrow nesting before.length
    · obtain ⟨scopes, file⟩ := LoopHeader.left_with_arrow written comes outside only quiet arrow
      exact typeOf_of_same scopes file name
    · obtain ⟨scopes, file⟩ := LoopHeader.at_first_apart written comes outside only quiet arrow
      rw [typeOf_of_same (LoopHeader.scopes_left written arrow) rfl, header.typeOf_bound,
        if_neg (fun rebound => arrow (behindAs rebound)), typeOf_of_same scopes file]

/-- A key loses its type and the value behind it does not. What an arrow function in front of `as`
is given keeps its type outside. -/
theorem loops_over_keys_and_arrows :
    let token (kind : Kind) (text : String) : Token := { kind, text, start := 0 }
    let made (name type : String) : List Token := [token .variable name, token .operator "=",
      token .keyword "new", token .identifier type, token .operator ";"]
    let before := made "$k" "Foo" ++ made "$v" "Bar"
    let type (name : String) : ClassRef := { written := name, fullName := name }
    ∃ keyed behindArrow : LoopHeader,
      keyed.tokens.map (·.text) = ["foreach", "(", "$a", "as", "$k", "=>", "$v", ")", "\x7b"] ∧
      behindArrow.tokens.map (·.text) =
        ["foreach", "(", "fn", "(", ")", "=>", "$a", "as", "$v", ")", "\x7b"] ∧
      let first := Nesting.ofTokens (before ++ (keyed.tokens ++ []))
      let second := Nesting.ofTokens (before ++ (behindArrow.tokens ++ []))
      (passUpTo first 10).symbols.typeOf "$k" = some (type "Foo") ∧
      (passUpTo first 19).symbols.typeOf "$k" = none ∧
      (passUpTo first 19).symbols.typeOf "$v" = some (type "Bar") ∧
      behindArrow.target.rebound = some "$v" ∧
      (passUpTo second 21).symbols.typeOf "$v" = some (type "Bar") := by
  intro token made before type
  let variable_ (name : String) := token .variable name
  let header (iterated : List Token) (target : LoopTarget) (balanced : Balanced iterated) :
      LoopHeader :=
    { word := token .keyword "foreach", opener := token .opener "(", iterated,
      gives := token .keyword "as", target, closer := token .closer ")",
      block := token .opener "\x7b", begins := by decide, loops := by decide, opens := by decide,
      balanced, as := by decide, closes := by decide, blocks := by decide }
  let pair : LoopTarget :=
    { key := some (variable_ "$k", token .operator "=>"), reference := none,
      value := variable_ "$v", keyed := by decide, refers := by decide, named := by decide }
  let single : LoopTarget :=
    { key := none, reference := none, value := variable_ "$v", keyed := by decide,
      refers := by decide, named := by decide }
  let keyed := header [variable_ "$a"] pair (.of_plain (by decide))
  let arrow := [token .keyword "fn", token .opener "(", token .closer ")", token .operator "=>",
    variable_ "$a"]
  let behindArrow := header arrow single
    (.plain (by decide) (by decide)
      (.pair (show _ = some Bracket.round by decide) .nil (by decide) (.of_plain (by decide))))
  have read := loop_rebinds_behind_as keyed before [] rfl (by decide +kernel) (by decide +kernel)
    (by decide)
  have read' := loop_rebinds_behind_as behindArrow before [] rfl (by decide +kernel)
    (by decide +kernel) (by decide)
  have open_ : behindArrow.InArrow (.ofTokens (before ++ (behindArrow.tokens ++ []))) 10 := by
    unfold LoopHeader.InArrow
    decide +kernel
  refine ⟨keyed, behindArrow, rfl, rfl, by decide +kernel, ?_, ?_, rfl, ?_⟩
  · exact read.2.1 "$k" rfl (read.1 (by decide))
  · have kept := read.2.2 (by decide) "$v" (fun same => absurd same (by decide))
    exact kept.trans (by decide +kernel)
  · have kept := read'.2.2 (by decide) "$v" (fun _ => open_)
    exact kept.trans (by decide +kernel)

/-- Behind the loop, the value that follows a key is still taken for what it was before. -/
theorem value_behind_key_kept :
    let nesting := Nesting.ofTokens (Token.logical (Token.scan
      "$v = new Foo(); foreach ($a as $k => $v) \x7b $v->m("))
    (ofNesting nesting).typeOf "$v" = some { written := "Foo", fullName := "Foo" } := by
  decide +kernel

end CursorContext.Symbols
