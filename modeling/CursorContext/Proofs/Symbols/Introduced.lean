import CursorContext.Proofs.Symbols.WrittenHeader

/-!
Where the types of variables come from. Each step of the pass binds a variable that stands at a place
of its own, enters a function with the variables of its parameter list, or hands on to a closure
what is bound outside. So a variable has a type only if it stands somewhere in the text as a
variable, in front of which there is no member operator, or in a list that declares it.
-/
namespace CursorContext

theorem mem_of_mem_divide {α : Type} {isSeparator : α → Bool} {xs piece : List α} {a : α}
    (among : piece ∈ divide isSeparator xs) (member : a ∈ piece) : a ∈ xs := by
  induction xs generalizing piece with
  | nil => simp_all [divide]
  | cons x rest ih =>
    rw [divide] at among
    split at among
    · rcases List.mem_cons.mp among with rfl | later
      · cases member
      · exact List.mem_cons_of_mem _ (ih later member)
    · -- The first piece goes on to the left, and there is a first piece.
      cases pieces : divide isSeparator rest with
      | nil => exact absurd pieces (divide_ne_nil isSeparator rest)
      | cons first later =>
        rw [pieces] at ih among
        rcases List.mem_cons.mp among with rfl | other
        · rcases List.mem_cons.mp member with rfl | inside
          · exact List.mem_cons_self
          · exact List.mem_cons_of_mem _ (ih List.mem_cons_self inside)
        · exact List.mem_cons_of_mem _ (ih (List.mem_cons_of_mem _ other) member)

namespace Symbols

variable {nesting : Nesting} {symbols : Symbols}

/-- The variables of all scopes, those outside of functions last. -/
def levels (symbols : Symbols) : List Bindings := symbols.scopes.map (·.bindings) ++ [symbols.file]

theorem bindings_mem_levels (symbols : Symbols) : symbols.bindings ∈ symbols.levels := by
  unfold bindings levels
  cases symbols.scopes <;> simp

/-- Every variable that has a type is introduced in the text. -/
def Traced (nesting : Nesting) (symbols : Symbols) : Prop :=
  ∀ level ∈ symbols.levels, ∀ (name : String) (type : ClassRef),
    level[name]? = some (some type) → Introduced nesting name

/-! ### What a parameter list declares -/

theorem mem_parameters {frame : Frame} {parameter : Parameter}
    (among : parameter ∈ symbols.parameters nesting frame) :
    ∃ token ∈ nesting.directTokens frame, token.kind = .variable ∧ token.text = parameter.name := by
  obtain ⟨piece, divided, declares⟩ := List.mem_filterMap.mp among
  obtain ⟨token, found, rfl⟩ := Option.map_eq_some_iff.mp declares
  have inside := mem_of_mem_divide divided (List.mem_of_find?_eq_some found)
  exact ⟨token, inside, by simpa using List.find?_some found, rfl⟩

namespace Traced

theorem introduced_of_typeOf (traced : Traced nesting symbols) {name : String} {type : ClassRef}
    (typed : symbols.typeOf name = some type) : Introduced nesting name :=
  traced _ (bindings_mem_levels symbols) name type (Option.join_eq_some_iff.mp typed)

theorem of_same (traced : Traced nesting symbols) {next : Symbols}
    (scopes : next.scopes = symbols.scopes) (file : next.file = symbols.file) :
    Traced nesting next := by
  rw [Traced, levels, scopes, file]
  exact traced

theorem leave (traced : Traced nesting symbols) (index : Nat) (here : Token) :
    Traced nesting (symbols.leave nesting index here) := by
  have fewer : (symbols.leave nesting index here).levels.Sublist symbols.levels :=
    ((List.dropWhile_sublist _).map _).append_right _
  exact fun level among => traced level (fewer.subset among)

/-- Binding a variable where it is introduced. -/
theorem bind (traced : Traced nesting symbols) {name : String}
    (introduced : Introduced nesting name) (type : Option ClassRef) :
    Traced nesting (symbols.bind name type) := by
  have inserted {level : Bindings} (old : level ∈ symbols.levels) {other : String}
      {held : ClassRef} (typed : (level.insert name type)[other]? = some (some held)) :
      Introduced nesting other := by
    rw [Std.TreeMap.getElem?_insert] at typed
    split at typed
    next same => exact Std.LawfulEqCmp.eq_of_compare same ▸ introduced
    · exact traced level old other held typed
  -- One level changes: that of the innermost scope, or without scopes that of the file.
  intro level among other held typed
  cases scopes : symbols.scopes with
  | nil =>
    have same : level = symbols.file.insert name type := by
      simpa [levels, Symbols.bind, scopes] using among
    subst same
    exact inserted (by simp [levels]) typed
  | cons scope outer =>
    have cases : level = scope.bindings.insert name type ∨ level ∈ symbols.levels := by
      simp only [levels, Symbols.bind, scopes, List.map_cons, List.cons_append, List.mem_cons]
        at among ⊢
      exact among.imp_right .inr
    rcases cases with rfl | old
    · exact inserted (by simp [levels, scopes]) typed
    · exact traced level old other held typed

/-- A function begins with variables that its list introduces, and with some that had their type
before. -/
theorem initial (traced : Traced nesting symbols) {index : Nat} {here : Token}
    (placed : nesting.tokens[index]? = some here)
    (word : here.isKeyword ["function", "fn"] = true) {bindings : Bindings}
    (initial : Initial nesting index here symbols bindings) {name : String} {type : ClassRef}
    (typed : bindings[name]? = some (some type)) : Introduced nesting name := by
  obtain ⟨frame, header, list, closed, parameters, rfl⟩ := initial
  rw [getElem?_initialBindings] at typed
  split at typed
  · -- A captured variable has the type it had outside.
    exact traced.introduced_of_typeOf (Option.some.inj typed)
  · obtain ⟨parameter, found, -⟩ := Option.map_eq_some_iff.mp typed
    have among := List.mem_of_find?_eq_some found
    rw [List.mem_reverse, parameters] at among
    obtain ⟨token, inside, kind, text⟩ := mem_parameters among
    obtain ⟨i, there, direct⟩ := Nesting.mem_directTokens inside
    have same : parameter.name = name := by simpa using List.find?_some found
    exact ⟨i, token, there, kind, text.trans same,
      .parameter ⟨index, here, frame, placed, word, list, closed, direct⟩⟩

theorem enter (traced : Traced nesting symbols) {next : Symbols} {scope : Scope}
    (scopes : next.scopes = scope :: symbols.scopes) (file : next.file = symbols.file)
    (fresh : ∀ (name : String) (type : ClassRef), scope.bindings[name]? = some (some type) →
      Introduced nesting name) : Traced nesting next := by
  rw [Traced, levels, scopes, file]
  intro level among
  rcases List.mem_cons.mp among with rfl | old
  · exact fresh
  · exact traced level old

/-! ### The run -/

theorem readStatement (linked : nesting.Linked) (formed : nesting.Formed)
    (traced : Traced nesting symbols) {index : Nat} {here : Token}
    (placed : nesting.tokens[index]? = some here) :
    Traced nesting
      (Symbols.readStatement nesting (nesting.placeAt index here) symbols).symbols := by
  -- Leaving scopes only forgets, and then at most one level is changed or added.
  have left := traced.leave index here
  cases rescopes_readStatement linked formed symbols placed with
  | binds binds =>
    cases binds with
    | same scopes file => exact left.of_same scopes file
    | bound introduced scopes file => exact (left.bind introduced _).of_same scopes file
  | grows grows =>
    cases grows with
    | same scopes file => exact left.of_same scopes file
    | body word initial _ _ _ scopes file =>
      exact left.enter scopes file fun _ _ => left.initial placed word initial
    | arrow word initial _ _ _ scopes file =>
      have function : here.isKeyword ["function", "fn"] = true := by
        simp only [Token.isKeyword, Bool.and_eq_true, List.contains_iff_mem] at word ⊢
        exact ⟨word.1, List.mem_cons_of_mem _ word.2⟩
      exact left.enter scopes file fun _ _ => left.initial placed function initial

theorem readImport (linked : nesting.Linked) (formed : nesting.Formed)
    (traced : Traced nesting symbols) {index : Nat} {here : Token}
    (placed : nesting.tokens[index]? = some here) :
    Traced nesting (Symbols.readImport nesting (nesting.placeAt index here) symbols).symbols := by
  unfold Symbols.readImport
  split
  · exact traced
  · split
    · unfold importName
      dsimp only
      split <;> exact traced.of_same rfl rfl
    · split
      · exact traced
      · exact traced.readStatement linked formed placed

end Traced

theorem traced_passUpTo (linked : nesting.Linked) (formed : nesting.Formed) {count : Nat}
    (inside : count ≤ nesting.tokens.size) : Traced nesting (passUpTo nesting count).symbols := by
  induction count with
  | zero =>
    intro level among name type typed
    have same : level = {} := by simpa [levels, passUpTo] using among
    simp [same] at typed
  | succ count ih =>
    have traced := ih (by omega)
    have placed := Array.getElem?_eq_getElem (show count < nesting.tokens.size by omega)
    cases comes : comesTo nesting count with
    | false => exact passUpTo_passed placed comes ▸ traced
    | true =>
      rw [passUpTo_read placed comes, read]
      split
      · exact traced.readImport linked formed placed
      · exact traced.readStatement linked formed placed

/-- Only a variable that is introduced in the text has a type at the end of it. -/
theorem introduced_of_typeOf (tokens : List Token) {name : String} {type : ClassRef}
    (typed : (ofNesting (.ofTokens tokens)).typeOf name = some type) :
    Introduced (.ofTokens tokens) name := by
  have traced := traced_passUpTo (Nesting.linked_ofTokens tokens) (Nesting.formed_ofTokens tokens)
    le_rfl
  rw [symbols_passUpTo_size] at traced
  exact traced.introduced_of_typeOf typed

end Symbols

end CursorContext
