import CursorContext.Proofs.Symbols.Progress

/-!
The names in force are the namespace and the imports. Only the words for a namespace and for an import
change them; all other code reads them and leaves them as they are.
-/
namespace CursorContext.Symbols

variable {nesting : Nesting} {symbols : Symbols}

/-- The namespace and the imports. -/
def names (symbols : Symbols) : Option String × Imports := (symbols.space, symbols.imports)

@[simp] theorem names_bind (symbols : Symbols) (name : String) (type : Option ClassRef) :
    (symbols.bind name type).names = symbols.names := by
  unfold bind
  split <;> rfl

@[simp] theorem names_setProperty (symbols : Symbols) (name : String) (type : Option ClassRef) :
    (symbols.setProperty name type).names = symbols.names := by
  unfold setProperty
  split <;> rfl

@[simp] theorem names_promote (symbols : Symbols) (header : FunctionHeader) :
    (symbols.promote header).names = symbols.names := by
  unfold promote
  split
  · generalize header.parameters.filter (·.promoted) = promoted
    induction promoted generalizing symbols with
    | nil => rfl
    | cons parameter rest ih => rw [List.foldl_cons, ih, names_setProperty]
  · rfl

@[simp] theorem names_readVariable (place : Place) (symbols : Symbols) :
    (readVariable nesting place symbols).names = symbols.names := by
  unfold readVariable
  split
  · rfl
  · split
    · unfold declareProperty
      dsimp only
      split <;> simp
    · split
      · simp
      · unfold readLocal
        split
        · simp
        · split <;> simp

@[simp] theorem names_readHandler (place : Place) (symbols : Symbols) :
    (readHandler nesting place symbols).names = symbols.names := by
  unfold readHandler
  split
  · rfl
  · dsimp only
    split <;> simp

@[simp] theorem names_readClass (place : Place) (symbols : Symbols) :
    (readClass place symbols).symbols.names = symbols.names := by
  unfold readClass
  split
  · rfl
  · split
    · rfl
    · dsimp only
      split <;> rfl

@[simp] theorem names_enterFunction (place : Place) (symbols : Symbols) (header : FunctionHeader)
    (index : Nat) :
    (enterFunction nesting place symbols header index).symbols.names = symbols.names := by
  unfold enterFunction
  dsimp only
  split
  · rfl
  · split
    · exact names_promote symbols header
    · split <;> exact names_promote symbols header

@[simp] theorem names_readFunction (place : Place) (symbols : Symbols) :
    (readFunction nesting place symbols).symbols.names = symbols.names := by
  obtain ⟨list, -, stops | unfinished | ⟨frame, close, header, -, -, further⟩⟩ :=
    readFunction_cases nesting place symbols
  · rw [stops]
  · rw [unfinished]
  · rw [further]
    unfold readCaptures
    split
    · split
      · rfl
      · split
        · rfl
        · simp
    · simp

/-- Only two words change the names in force. -/
theorem names_readStatement {place : Place}
    (other : place.here.isKeyword ["namespace", "use"] = false) (symbols : Symbols) :
    (readStatement nesting place symbols).symbols.names = symbols.names := by
  have left : (symbols.leave nesting place.index place.here).names = symbols.names := rfl
  unfold readStatement
  dsimp only
  split
  next keyword =>
    have words : Text.lower place.here.text ≠ "namespace" ∧ Text.lower place.here.text ≠ "use" := by
      simpa [Token.isKeyword, keyword] using other
    unfold readKeyword
    simp only [words.1, words.2, beq_iff_eq, if_false]
    split
    · rw [names_readClass, left]
    · split
      · rw [names_readFunction, left]
      · exact left
  · split
    · rw [names_readHandler, left]
    · exact left
  · rw [names_readVariable, left]
  · exact left

end CursorContext.Symbols
