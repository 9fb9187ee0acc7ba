import CursorContext.Proofs.Symbols.Progress

/-!
What the symbols refer to. The classes, functions and scopes that are taken to be open all name
frames of the nesting: a class, its body, a function, its body, and a scope, where it ends. This
holds at first and is kept by everything that is read.
-/
namespace CursorContext

/-- The frame whose closing bracket ends a scope. -/
def Extent.frame? : Extent → Option Nat
  | .body frame => some frame
  | .arrow container => container

namespace Symbols

structure Anchored (nesting : Nesting) (symbols : Symbols) : Prop where
  classes : ∀ place ∈ symbols.openClasses, ∃ body frame,
    (symbols.classes.map (·.body))[place]? = some (some body) ∧ nesting.frameAt body = some frame
  functions : ∀ function ∈ symbols.openFunctions, ∃ frame,
    nesting.frameAt function.body = some frame
  scopes : ∀ extent ∈ symbols.scopes.map (·.extent), ∀ name, extent.frame? = some name →
    ∃ frame, nesting.frameAt name = some frame

variable {nesting : Nesting} {symbols : Symbols}

theorem anchored_empty (nesting : Nesting) : Anchored nesting {} := by
  constructor <;> simp

namespace Anchored

/-- Only what is open matters, and only where it is. -/
theorem of_same {next : Symbols} (anchored : Anchored nesting symbols)
    (openClasses : next.openClasses = symbols.openClasses)
    (bodies : next.classes.map (·.body) = symbols.classes.map (·.body))
    (functions : next.openFunctions = symbols.openFunctions)
    (extents : next.scopes.map (·.extent) = symbols.scopes.map (·.extent)) :
    Anchored nesting next := by
  constructor
  · rw [openClasses, bodies]
    exact anchored.classes
  · rw [functions]
    exact anchored.functions
  · rw [extents]
    exact anchored.scopes

theorem bind (anchored : Anchored nesting symbols) (name : String) (type : Option ClassRef) :
    Anchored nesting (symbols.bind name type) := by
  unfold Symbols.bind
  split
  · exact anchored.of_same rfl rfl rfl rfl
  next scope outer held => exact anchored.of_same rfl rfl rfl (by simp [held])

theorem setProperty (anchored : Anchored nesting symbols) (name : String) (type : Option ClassRef) :
    Anchored nesting (symbols.setProperty name type) := by
  unfold Symbols.setProperty
  split
  · exact anchored
  next place rest held =>
    refine anchored.of_same rfl ?_ rfl rfl
    refine Array.ext (by simp) ?_
    intro i _ _
    simp only [Array.getElem_map, Array.getElem_modify]
    split <;> rfl

theorem promote (anchored : Anchored nesting symbols) (header : FunctionHeader) :
    Anchored nesting (symbols.promote header) := by
  unfold Symbols.promote
  split
  · generalize header.parameters.filter (·.promoted) = promoted
    induction promoted generalizing symbols with
    | nil => exact anchored
    | cons parameter rest ih => exact ih (anchored.setProperty _ _)
  · exact anchored

theorem leave (anchored : Anchored nesting symbols) (index : Nat) (token : Token) :
    Anchored nesting (symbols.leave nesting index token) := by
  constructor
  · intro place member
    exact anchored.classes place ((List.dropWhile_sublist _).subset member)
  · intro function member
    exact anchored.functions function ((List.dropWhile_sublist _).subset member)
  · intro extent member
    exact anchored.scopes extent (((List.dropWhile_sublist _).map _).subset member)

theorem enterScope (anchored : Anchored nesting symbols) (bindings : Bindings) {extent : Extent}
    (ends : ∀ name, extent.frame? = some name → ∃ frame, nesting.frameAt name = some frame) :
    Anchored nesting (symbols.enterScope bindings extent) := by
  refine ⟨anchored.classes, anchored.functions, ?_⟩
  intro other member
  rcases List.mem_cons.mp member with rfl | outer
  · exact ends
  · exact anchored.scopes other outer

theorem declareClass (anchored : Anchored nesting symbols) (definition : ClassDef)
    {body : Option Nat}
    (framed : ∀ name, body = some name → ∃ frame, nesting.frameAt name = some frame) :
    Anchored nesting (symbols.declareClass definition body) := by
  -- Classes are only ever added at the end, so the places of the open ones stay what they were.
  have kept : ∀ place ∈ symbols.openClasses, ∃ body' frame,
      ((symbols.declareClass definition body).classes.map (·.body))[place]? = some (some body') ∧
        nesting.frameAt body' = some frame := by
    intro place member
    obtain ⟨name, frame, there, found⟩ := anchored.classes place member
    refine ⟨name, frame, ?_, found⟩
    obtain ⟨inside, -⟩ := Array.getElem?_eq_some_iff.mp there
    rw [Symbols.declareClass, Array.map_push, Array.getElem?_push_lt inside]
    exact (Array.getElem?_eq_getElem inside).symm.trans there
  refine ⟨?_, anchored.functions, anchored.scopes⟩
  intro place member
  cases body with
  | none => exact kept place member
  | some name =>
    rcases List.mem_cons.mp member with rfl | outer
    · obtain ⟨frame, found⟩ := framed name rfl
      exact ⟨name, frame, by simp [Symbols.declareClass, Array.getElem_push], found⟩
    · exact kept place outer

end Anchored

/-! ### Everything that is read keeps the symbols anchored -/

theorem Anchored.enterNamespace (anchored : Anchored nesting symbols) (place : Place) :
    Anchored nesting (Symbols.enterNamespace place symbols).symbols := by
  unfold Symbols.enterNamespace
  split
  · exact anchored
  · split
    · exact anchored.of_same rfl rfl rfl rfl
    · split
      · exact anchored.of_same rfl rfl rfl rfl
      · exact anchored

theorem Anchored.beginImport (anchored : Anchored nesting symbols) (place : Place) :
    Anchored nesting (Symbols.beginImport nesting place symbols).symbols := by
  unfold Symbols.beginImport
  split
  · exact anchored
  · split <;> exact anchored

theorem Anchored.importName (anchored : Anchored nesting symbols) (place : Place) :
    Anchored nesting (Symbols.importName nesting place symbols).symbols := by
  unfold Symbols.importName
  dsimp only
  split <;> exact anchored.of_same rfl rfl rfl rfl

theorem head?_dropWhile_drop (p : Token → Bool) (tokens : List Token) (index : Nat) :
    ((tokens.drop index).dropWhile p).head? =
      tokens[index + ((tokens.drop index).takeWhile p).length]? := by
  rw [← List.getElem?_drop]
  induction tokens.drop index with
  | nil => rfl
  | cons token rest ih => cases holds : p token <;> simp [holds, ih]

/-- A bracket found by looking ahead opens a frame. -/
theorem frameAt_of_ahead (formed : nesting.Formed) {p : Token → Bool} {index : Nat} {token : Token}
    {bracket : Bracket}
    (found : ((nesting.tokens.toList.drop index).dropWhile p).head? = some token)
    (opens : token.opening? = some bracket) :
    ∃ frame, nesting.frameAt
      (index + ((nesting.tokens.toList.drop index).takeWhile p).length) = some frame := by
  rw [head?_dropWhile_drop, Array.getElem?_toList] at found
  exact formed.opened found opens

theorem Anchored.readClass (formed : nesting.Formed) (anchored : Anchored nesting symbols)
    (index : Nat) (here : Token) :
    Anchored nesting (Symbols.readClass (nesting.placeAt index here) symbols).symbols := by
  unfold Symbols.readClass
  split
  · exact anchored
  next name rest after =>
    have rest_eq : rest = nesting.tokens.toList.drop (index + 2) := by
      have tail := congrArg List.tail after
      simpa using tail.symm
    split
    · exact anchored
    · dsimp only
      split
      next opens =>
        obtain ⟨token, found, opens⟩ := (Option.any_eq_true _ _).mp opens
        refine anchored.declareClass _ ?_
        rintro _ ⟨⟩
        rw [rest_eq] at found ⊢
        exact frameAt_of_ahead formed found (by simpa using opens)
      · exact anchored.declareClass _ (by simp)

theorem bodyExtent {start : Nat} (framed : ∃ frame, nesting.frameAt start = some frame) :
    ∀ name, (Extent.body start).frame? = some name → ∃ frame, nesting.frameAt name = some frame := by
  rintro name ⟨⟩
  exact framed

theorem Anchored.enterFunction (linked : nesting.Linked) (formed : nesting.Formed)
    (anchored : Anchored nesting symbols) {index : Nat} {here : Token} (header : FunctionHeader)
    {later : Nat} (after : index < later) :
    Anchored nesting
      (Symbols.enterFunction nesting (nesting.placeAt index here) symbols header later).symbols := by
  unfold Symbols.enterFunction
  rw [Nesting.ahead_placeAt here after]
  dsimp only
  split
  · exact anchored
  next token rest found =>
    have promoted := anchored.promote header
    split
    · -- An arrow function ends with the frame around its arrow.
      exact promoted.enterScope _ fun name around => linked.enclosing_frame around
    · split
      next opens =>
        have framed := frameAt_of_ahead formed (congrArg List.head? found) (by simpa using opens)
        have entered := promoted.enterScope (symbols.initialBindings header) (bodyExtent framed)
        refine ⟨entered.classes, ?_, entered.scopes⟩
        intro function member
        rcases List.mem_append.mp member with new | old
        · obtain ⟨name, -, rfl⟩ := List.mem_map.mp new
          exact framed
        · exact promoted.functions function old
      · exact promoted

theorem Anchored.readCaptures (linked : nesting.Linked) (formed : nesting.Formed)
    (anchored : Anchored nesting symbols) {index : Nat} {here : Token} (header : FunctionHeader)
    {later : Nat} (after : index < later) :
    Anchored nesting
      (Symbols.readCaptures nesting (nesting.placeAt index here) symbols header later).symbols := by
  unfold Symbols.readCaptures
  split
  · split
    · exact anchored
    next frame found =>
      split
      · exact anchored
      next close closed =>
        have inside := (linked.bounds found closed).1
        exact anchored.enterFunction linked formed _ (by omega)
  · exact anchored.enterFunction linked formed header after

theorem Anchored.readFunction (linked : nesting.Linked) (formed : nesting.Formed)
    (anchored : Anchored nesting symbols) (index : Nat) (here : Token) :
    Anchored nesting
      (Symbols.readFunction nesting (nesting.placeAt index here) symbols).symbols := by
  obtain ⟨list, after, stops | unfinished | ⟨frame, close, header, there, closed, further⟩⟩ :=
    readFunction_cases nesting (nesting.placeAt index here) symbols
  · rw [stops]
    exact anchored
  · rw [unfinished]
    exact anchored
  · have inside := (linked.bounds there closed).1
    rw [Nesting.index_placeAt] at after
    rw [further]
    exact anchored.readCaptures linked formed header (by omega)

theorem Anchored.readHandler (anchored : Anchored nesting symbols) (place : Place) :
    Anchored nesting (Symbols.readHandler nesting place symbols) := by
  unfold Symbols.readHandler
  split
  · exact anchored
  · dsimp only
    split
    · exact anchored
    · exact anchored.bind _ _

theorem Anchored.readVariable (anchored : Anchored nesting symbols) (place : Place) :
    Anchored nesting (Symbols.readVariable nesting place symbols) := by
  unfold Symbols.readVariable
  split
  · exact anchored
  · split
    · unfold declareProperty
      dsimp only
      split
      · exact anchored.setProperty _ _
      · exact anchored
    · split
      · exact anchored.setProperty _ _
      · unfold readLocal
        split
        · exact anchored.bind _ _
        · split
          · exact anchored.bind _ _
          · exact anchored

theorem Anchored.readKeyword (linked : nesting.Linked) (formed : nesting.Formed)
    (anchored : Anchored nesting symbols) (index : Nat) (here : Token) :
    Anchored nesting (Symbols.readKeyword nesting (nesting.placeAt index here) symbols).symbols := by
  unfold Symbols.readKeyword
  dsimp only
  split
  · exact anchored.enterNamespace _
  · split
    · exact anchored.beginImport _
    · split
      · exact anchored.readClass formed index here
      · split
        · exact anchored.readFunction linked formed index here
        · exact anchored

theorem Anchored.readStatement (linked : nesting.Linked) (formed : nesting.Formed)
    (anchored : Anchored nesting symbols) (index : Nat) (here : Token) :
    Anchored nesting
      (Symbols.readStatement nesting (nesting.placeAt index here) symbols).symbols := by
  have left := anchored.leave index here
  unfold Symbols.readStatement
  dsimp only
  split
  · exact left.readKeyword linked formed index here
  · dsimp only
    split
    · exact left.readHandler _
    · exact left
  · exact left.readVariable _
  · exact left

end Symbols

end CursorContext
