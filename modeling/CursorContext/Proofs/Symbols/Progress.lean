import CursorContext.Proofs.Nesting.Extent
import CursorContext.Proofs.Nesting.Origin
import CursorContext.Symbols

/-!
The pass over the tokens as a run from place to place. Whatever is read at a place, the pass goes on
after it, and the places up to there are left out.
-/
namespace CursorContext

namespace Place

theorem length_allFrom (index : Nat) (before tokens : List Token) :
    (allFrom index before tokens).length = tokens.length := by
  induction tokens generalizing index before with
  | nil => rfl
  | cons token rest ih => simp [allFrom, ih]

theorem getElem?_allFrom (start : Nat) (before tokens : List Token) (count : Nat) :
    (allFrom start before tokens)[count]? = tokens[count]?.map fun here =>
      { index := start + count
        before := (tokens.take count).reverse ++ before
        here
        after := tokens.drop (count + 1) } := by
  induction tokens generalizing start before count with
  | nil => simp [allFrom]
  | cons token rest ih =>
    cases count with
    | zero => simp [allFrom]
    | succ count =>
      rw [allFrom, List.getElem?_cons_succ, ih]
      simp [Nat.add_assoc, Nat.add_comm 1]

end Place

namespace Nesting

variable (nesting : Nesting)

/-- The place of the token `here`, which stands at `index`. -/
def placeAt (index : Nat) (here : Token) : Place :=
  { index
    before := (nesting.tokens.toList.take index).reverse
    here
    after := nesting.tokens.toList.drop (index + 1) }

@[simp] theorem index_placeAt (index : Nat) (here : Token) :
    (nesting.placeAt index here).index = index := rfl

@[simp] theorem here_placeAt (index : Nat) (here : Token) :
    (nesting.placeAt index here).here = here := rfl

@[simp] theorem after_placeAt (index : Nat) (here : Token) :
    (nesting.placeAt index here).after = nesting.tokens.toList.drop (index + 1) := rfl

/-- The places from `index` on. -/
def placesFrom (index : Nat) : List Place := (Place.all nesting.tokens.toList).drop index

variable {nesting}

theorem placesFrom_cons {index : Nat} {here : Token} (there : nesting.tokens[index]? = some here) :
    nesting.placesFrom index = nesting.placeAt index here :: nesting.placesFrom (index + 1) := by
  have found : (Place.all nesting.tokens.toList)[index]? = some (nesting.placeAt index here) := by
    simp [Place.all, Place.getElem?_allFrom, there, placeAt]
  obtain ⟨bound, same⟩ := List.getElem?_eq_some_iff.mp found
  rw [placesFrom, List.drop_eq_getElem_cons bound, same]
  rfl

theorem placesFrom_nil {index : Nat} (beyond : nesting.tokens.size ≤ index) :
    nesting.placesFrom index = [] :=
  List.drop_eq_nil_of_le (by simpa [Place.all, Place.length_allFrom] using beyond)

theorem previousIs_placeAt {index : Nat} {here : Token} (there : nesting.tokens[index]? = some here)
    (p : Token → Bool) :
    (nesting.placeAt index here).previousIs p = (nesting.tokenBefore index 1).any p := by
  cases index with
  | zero => rfl
  | succ index =>
    obtain ⟨bound, -⟩ := Array.getElem?_eq_some_iff.mp there
    have inside : index < nesting.tokens.size := by omega
    simp [Place.previousIs, placeAt, tokenBefore, List.take_add_one, inside]

theorem nextIs_placeAt (index : Nat) (here : Token) (p : Token → Bool) :
    (nesting.placeAt index here).nextIs p = nesting.tokens[index + 1]?.any p := by
  simp [Place.nextIs]

theorem ahead_placeAt {index later : Nat} (here : Token) (after : index < later) :
    (nesting.placeAt index here).ahead later = nesting.tokens.toList.drop later := by
  simp only [Place.ahead, after_placeAt, index_placeAt, List.drop_drop]
  congr 1
  omega

end Nesting

namespace Symbols

variable {nesting : Nesting}

/-! ### Every reading goes forward -/

theorem lt_resume_enterNamespace (place : Place) (symbols : Symbols) :
    place.index < (enterNamespace place symbols).resume := by
  unfold enterNamespace
  split
  · simp
  · split
    · simp
    · split <;> simp

theorem lt_resume_beginImport (place : Place) (symbols : Symbols) :
    place.index < (beginImport nesting place symbols).resume := by
  unfold beginImport
  split
  · simp
  · split
    · simp
      omega
    · simp

theorem lt_resume_readClass (place : Place) (symbols : Symbols) :
    place.index < (readClass place symbols).resume := by
  unfold readClass
  split
  · simp
  · split
    · simp
    · dsimp only
      split
      · simp
        omega
      · simp
        omega

theorem le_resume_enterFunction (place : Place) (symbols : Symbols) (header : FunctionHeader)
    (index : Nat) : index ≤ (enterFunction nesting place symbols header index).resume := by
  unfold enterFunction
  dsimp only
  split
  · simp
  · split
    · simp
      omega
    · split
      · simp
        omega
      · simp

theorem le_resume_readCaptures (linked : nesting.Linked) (place : Place) (symbols : Symbols)
    (header : FunctionHeader) (index : Nat) :
    index ≤ (readCaptures nesting place symbols header index).resume := by
  unfold readCaptures
  split
  · split
    · simp
    next frame found =>
      split
      · simp
      next close closed =>
        have inside := (linked.bounds found closed).1
        refine Nat.le_trans ?_ (le_resume_enterFunction place symbols _ (close + 1))
        omega
  · exact le_resume_enterFunction place symbols header index

/-- A function header stops at a place after the keyword where no list begins, inside a list that is
unfinished, or it goes on after the list. -/
theorem readFunction_cases (nesting : Nesting) (place : Place) (symbols : Symbols) :
    ∃ list, place.index < list ∧
      (readFunction nesting place symbols = { symbols, resume := list } ∨
        readFunction nesting place symbols = { symbols, resume := list + 1 } ∨
        ∃ frame close header, nesting.frameAt list = some frame ∧ frame.closer = some close ∧
          readFunction nesting place symbols =
            readCaptures nesting place symbols header (close + 1)) := by
  unfold readFunction
  extract_lets arrow first name list
  have here : place.index < first := by
    unfold first
    split <;> omega
  refine ⟨list, ?_, ?_⟩
  · unfold list
    split <;> omega
  · split
    · exact .inl rfl
    next frame found =>
      obtain ⟨there, -⟩ := Option.filter_eq_some_iff.mp found
      split
      · exact .inr (.inl rfl)
      next close closed => exact .inr (.inr ⟨frame, close, _, there, closed, rfl⟩)

theorem lt_resume_readFunction (linked : nesting.Linked) (place : Place) (symbols : Symbols) :
    place.index < (readFunction nesting place symbols).resume := by
  obtain ⟨list, after, stops | unfinished | ⟨frame, close, header, there, closed, further⟩⟩ :=
    readFunction_cases nesting place symbols
  · rw [stops]
    exact after
  · rw [unfinished]
    exact Nat.lt_succ_of_lt after
  · have inside := (linked.bounds there closed).1
    rw [further]
    refine Nat.lt_of_lt_of_le ?_ (le_resume_readCaptures linked place symbols _ (close + 1))
    omega

theorem lt_resume_importName (linked : nesting.Linked) (place : Place) (symbols : Symbols) :
    place.index < (importName nesting place symbols).resume := by
  unfold importName
  dsimp only
  split
  next group found =>
    obtain ⟨there, -⟩ := Option.filter_eq_some_iff.mp found
    have inside := linked.lt_endOf there
    dsimp only
    omega
  · dsimp only
    split <;> omega

theorem lt_resume_readKeyword (linked : nesting.Linked) (place : Place) (symbols : Symbols) :
    place.index < (readKeyword nesting place symbols).resume := by
  unfold readKeyword
  dsimp only
  split
  · exact lt_resume_enterNamespace place symbols
  · split
    · exact lt_resume_beginImport place symbols
    · split
      · exact lt_resume_readClass place symbols
      · split
        · exact lt_resume_readFunction linked place symbols
        · exact Nat.lt_succ_self _

theorem lt_resume_readStatement (linked : nesting.Linked) (place : Place) (symbols : Symbols) :
    place.index < (readStatement nesting place symbols).resume := by
  unfold readStatement
  dsimp only
  split
  · exact lt_resume_readKeyword linked place _
  · exact Nat.lt_succ_self _
  · exact Nat.lt_succ_self _
  · exact Nat.lt_succ_self _

theorem lt_resume_readImport (linked : nesting.Linked) (place : Place) (symbols : Symbols) :
    place.index < (readImport nesting place symbols).resume := by
  unfold readImport
  split
  · exact Nat.lt_succ_self _
  · split
    · exact lt_resume_importName linked place symbols
    · split
      · exact Nat.lt_succ_self _
      · exact lt_resume_readStatement linked place symbols

/-! ### The run -/

/-- What is read at a place that has not been dealt with. -/
def read (nesting : Nesting) (importing : Bool) (place : Place) (symbols : Symbols) : Pass :=
  if importing then readImport nesting place symbols else readStatement nesting place symbols

theorem lt_resume_read (linked : nesting.Linked) (importing : Bool) (place : Place)
    (symbols : Symbols) : place.index < (read nesting importing place symbols).resume := by
  unfold read
  split
  · exact lt_resume_readImport linked place symbols
  · exact lt_resume_readStatement linked place symbols

/-- A keyword is read in the same way inside an import. -/
theorem read_keyword {place : Place} (keyword : place.here.kind = .keyword) (importing : Bool)
    (symbols : Symbols) :
    read nesting importing place symbols = readStatement nesting place symbols := by
  cases importing with
  | false => rfl
  | true => simp [read, readImport, Token.isOperator, keyword]

/-- The symbols at the end, from where the pass is to go on. -/
def outcome (nesting : Nesting) (pass : Pass) : Symbols :=
  ((nesting.placesFrom pass.resume).foldl (visit nesting) pass).symbols

theorem ofNesting_eq_outcome (nesting : Nesting) : ofNesting nesting = outcome nesting {} := rfl

/-- Places before the one where the pass goes on make no difference. -/
theorem foldl_visit_placesFrom (pass : Pass) {index : Nat} (before : index ≤ pass.resume) :
    (nesting.placesFrom index).foldl (visit nesting) pass =
      (nesting.placesFrom pass.resume).foldl (visit nesting) pass := by
  -- The places between the two are passed over one by one.
  induction ahead : pass.resume - index generalizing index with
  | zero => rw [show index = pass.resume by omega]
  | succ ahead ih =>
    by_cases inside : index < nesting.tokens.size
    · rw [Nesting.placesFrom_cons (Array.getElem?_eq_getElem inside), List.foldl_cons]
      have skipped : visit nesting pass (nesting.placeAt index nesting.tokens[index]) = pass :=
        if_pos (show index < pass.resume by omega)
      rw [skipped, ih (by omega) (by omega)]
    · rw [Nesting.placesFrom_nil (by omega), Nesting.placesFrom_nil (by omega)]

theorem outcome_read (linked : nesting.Linked) (pass : Pass) {here : Token}
    (there : nesting.tokens[pass.resume]? = some here) :
    outcome nesting pass =
      outcome nesting
        (read nesting pass.importing (nesting.placeAt pass.resume here) pass.symbols) := by
  have forward : pass.resume + 1 ≤
      (read nesting pass.importing (nesting.placeAt pass.resume here) pass.symbols).resume :=
    lt_resume_read linked pass.importing (nesting.placeAt pass.resume here) pass.symbols
  have visited : visit nesting pass (nesting.placeAt pass.resume here) =
      read nesting pass.importing (nesting.placeAt pass.resume here) pass.symbols :=
    if_neg (Nat.lt_irrefl pass.resume)
  rw [outcome, Nesting.placesFrom_cons there, List.foldl_cons, visited, outcome,
    foldl_visit_placesFrom _ forward]

theorem outcome_beyond (pass : Pass) (beyond : nesting.tokens.size ≤ pass.resume) :
    outcome nesting pass = pass.symbols := by
  rw [outcome, Nesting.placesFrom_nil beyond]
  rfl

end Symbols

end CursorContext
