import CursorContext.Context
import CursorContext.Proofs.Symbols.Live

/-!
Whether what encloses the cursor is open. Everything that is reported is open exactly if the pass
passes over no end, and in an orderly source it passes over none. Where one bracket ends a parameter
list together with the body around it, reading the header as a whole passes over the end of that
body, and the class or function stays reported.
-/
namespace CursorContext.Symbols

variable {nesting : Nesting}

/-! ### Orderly sources -/

/-- Brackets are not crossed, and a name or an import is not cut short by a closing bracket. -/
structure Orderly (nesting : Nesting) : Prop where
  matched : ∀ i frame close, nesting.frameAt i = some frame → frame.closer = some close →
    nesting.closedAt close = some i
  renamed : ∀ i word token, nesting.tokenBefore i 1 = some word → word.isKeyword ["as"] = true →
    nesting.tokens[i]? = some token → token.closing? = none
  imported : ∀ i k word token, nesting.tokens[i]? = some word → word.isKeyword ["use"] = true →
    nesting.tokens[i + 1]?.any importsNoClass = true →
    (∀ j, i < j → j ≤ k → nesting.tokens[j]?.any (·.isOperator [";"]) = false) → i < k →
    nesting.tokens[k]? = some token → token.closing? = none

/-- Of what is passed over in an orderly source, nothing ends a frame that began before. -/
theorem Orderly.not_skips (orderly : Orderly nesting) (linked : nesting.Linked)
    (ended : nesting.Ended) {index f close : Nat} (older : f ≤ index) (after : index < close)
    (closes : nesting.closeOf f = some close) (importing : Bool) :
    ¬ Skips nesting importing index close := by
  obtain ⟨outer, there, closed⟩ := Nesting.closer_of_closeOf closes
  obtain ⟨token, bracket, placed, closing⟩ := ended f outer close there closed
  intro skips
  cases skips with
  | plain plain => simp [(plain token placed).1] at closing
  | renamed _ word renames => simp [orderly.renamed _ _ _ word renames placed] at closing
  | imported word imports _ skipped unfinished =>
    simp [orderly.imported _ _ _ _ word imports skipped unfinished after placed] at closing
  | @within start inner found begun inside ends =>
    -- The frame that is passed over ends with the one around it, so one bracket matches both.
    obtain ⟨earlier, bound, closes'⟩ := linked.closeOf_inside found (by omega) inside closes
    obtain ⟨frame, found', closed'⟩ := Nesting.closer_of_closeOf closes'
    rw [found] at found'
    cases found'
    have same : earlier = close := Nat.le_antisymm bound (ends earlier closed')
    subst same
    have one := orderly.matched f outer earlier there closed
    have other := orderly.matched start inner earlier found closed'
    rw [one] at other
    have equal : f = start := Option.some.inj other
    omega

theorem Orderly.passesNoEnd (orderly : Orderly nesting) (linked : nesting.Linked)
    (formed : nesting.Formed) (ended : nesting.Ended) : PassesNoEnd nesting := by
  rw [← all_open_iff linked formed ended]
  intro f member
  refine all_open_of_clear linked formed ended ?_ member
  intro index inside comes f older _ close closes after
  by_contra passed
  have placed := Array.getElem?_eq_getElem inside
  have anchored := anchored_passUpTo linked formed (Nat.le_of_lt inside)
  have read := reads_read linked formed anchored (passUpTo nesting index).importing placed
  rw [← passUpTo_read placed comes] at read
  have passable : Passable nesting (passUpTo nesting index).importing index (index + 1)
      (passUpTo nesting (index + 1)).resume := by
    rcases read with left | ⟨-, kept⟩
    · exact left.passable
    · exact kept.passable
  exact orderly.not_skips linked ended older after closes _
    (passable close after (by omega))

/-! ### What is reported -/

theorem mem_surroundings_of_currentClass {symbols : Symbols} {definition : ClassDef}
    (current : symbols.currentClass = some definition) :
    definition.body ∈ symbols.surroundings.classes := by
  obtain ⟨place, first, found⟩ := Option.bind_eq_some_iff.mp current
  refine List.mem_map.mpr ⟨place, List.mem_of_head? first, ?_⟩
  simp [found]

/-- What is reported as enclosing the end of a buffer (all classes and functions taken to be open,
and all scopes with the frames they end with) is open exactly if the pass comes to the end of
everything it has entered. Then the class, the function and the scopes of function bodies around the
end have not ended. In an orderly source the pass comes to all ends. -/
theorem enclosing_open_iff_no_end_passed (buffer : String) :
    let nesting : Nesting := .ofTokens (Token.logical (Token.scan buffer))
    let symbols := ofNesting nesting
    ((∀ f, some f ∈ symbols.surroundings.all → nesting.closeOf f = none) ↔ PassesNoEnd nesting) ∧
    (PassesNoEnd nesting →
      (∀ definition, symbols.currentClass = some definition → ∃ body frame,
        definition.body = some body ∧ nesting.frameAt body = some frame ∧ frame.closer = none) ∧
      (∀ name, symbols.functionName = some name → ∃ function ∈ symbols.openFunctions,
        function.name = name ∧
          ∃ frame, nesting.frameAt function.body = some frame ∧ frame.closer = none) ∧
      (∀ scope ∈ symbols.scopes, ∀ body, scope.extent = .body body →
        ∃ frame, nesting.frameAt body = some frame ∧ frame.closer = none)) ∧
    (Orderly nesting → PassesNoEnd nesting) := by
  intro nesting symbols
  have linked := Nesting.linked_ofTokens (Token.logical (Token.scan buffer))
  have formed := Nesting.formed_ofTokens (Token.logical (Token.scan buffer))
  have ended := Nesting.ended_ofTokens (Token.logical (Token.scan buffer))
  have anchored : Anchored nesting symbols := by
    have last := anchored_passUpTo linked formed (Nat.le_refl _)
    rwa [symbols_passUpTo_size] at last
  refine ⟨all_open_iff linked formed ended, ?_, fun orderly =>
    orderly.passesNoEnd linked formed ended⟩
  intro none
  have allOpen := (all_open_iff linked formed ended).mpr none
  have unfinished {f : Nat} {frame : Frame} (found : nesting.frameAt f = some frame)
      (member : some f ∈ symbols.surroundings.all) : frame.closer = Option.none := by
    have closes := allOpen f member
    rwa [Nesting.closeOf, found, Option.bind_some] at closes
  refine ⟨?_, ?_, ?_⟩
  · intro definition current
    obtain ⟨place, first, there⟩ := Option.bind_eq_some_iff.mp current
    obtain ⟨body, frame, named, found⟩ := anchored.classes place (List.mem_of_head? first)
    have framed : definition.body = some body := by simpa [there] using named
    refine ⟨body, frame, framed, found, unfinished found ?_⟩
    exact Surroundings.mem_all.mpr (.inl (framed ▸ mem_surroundings_of_currentClass current))
  · intro name reported
    obtain ⟨function, first, rfl⟩ := Option.map_eq_some_iff.mp reported
    have member := List.mem_of_head? first
    obtain ⟨frame, found⟩ := anchored.functions function member
    refine ⟨function, member, rfl, frame, found, unfinished found ?_⟩
    exact Surroundings.mem_all.mpr (.inr (.inl (List.mem_map.mpr ⟨function, member, rfl⟩)))
  · intro scope member body extent
    obtain ⟨frame, found⟩ := anchored.scopes scope.extent (List.mem_map.mpr ⟨scope, member, rfl⟩)
      body (by rw [extent]; rfl)
    refine ⟨frame, found, unfinished found ?_⟩
    refine Surroundings.mem_all.mpr (.inr (.inr (List.mem_map.mpr ⟨scope, member, ?_⟩)))
    rw [extent]
    rfl

/-- In an open function, the pass has come to all ends so far: those of the lists and of a block. -/
theorem no_end_passed_in_function :
    let nesting := Nesting.ofTokens (Token.logical (Token.scan
      "function f() \x7b if (1) \x7b \x7d g("))
    PassesNoEnd nesting ∧ (ofNesting nesting).functionName = some "f" := by
  intro nesting
  have checked : (ofNesting nesting).surroundings.all.all
      (fun frame => (frame.bind nesting.closeOf).isNone) = true := by decide +kernel
  refine ⟨(enclosing_open_iff_no_end_passed _).1.mp ?_, by decide +kernel⟩
  intro f member
  have unfinished := List.all_eq_true.mp checked (some f) member
  exact Option.isNone_iff_eq_none.mp unfinished

/-- One bracket ends an unfinished parameter list and the class around it. The pass goes on after the
list, so it does not come to the end of the class, which is reported although it has ended. -/
theorem closed_class_reported :
    let nesting := Nesting.ofTokens (Token.logical (Token.scan "class A \x7b function f( \x7d"))
    ((ofNesting nesting).currentClass.map (·.name) = some "A" ∧
      ((ofNesting nesting).currentClass.bind (·.body)).bind nesting.closeOf = some 6) ∧
      comesTo nesting 6 = false := by
  decide +kernel

end CursorContext.Symbols
