import CursorContext.Proofs.Nesting.Balanced
import CursorContext.Proofs.Symbols.Anchored

/-!
What reading one place does to the classes, functions and scopes that are open. It leaves those that
end there and may enter one more, and then the pass goes on at a later place. The tokens it passes
over on the way close nothing, or they lie in a frame that was opened on the way too, with two
exceptions, both in import statements.
-/
namespace CursorContext

/-- The frames that what is open reaches up to, innermost first. -/
structure Surroundings where
  classes : List (Option Nat)
  functions : List (Option Nat)
  scopes : List (Option Nat)

namespace Surroundings

def all (around : Surroundings) : List (Option Nat) :=
  around.classes ++ around.functions ++ around.scopes

theorem mem_all {around : Surroundings} {frame : Option Nat} :
    frame ∈ around.all ↔
      frame ∈ around.classes ∨ frame ∈ around.functions ∨ frame ∈ around.scopes := by
  simp [all]

end Surroundings

namespace Symbols

def surroundings (symbols : Symbols) : Surroundings where
  classes := symbols.openClasses.map fun place => symbols.classes[place]?.bind (·.body)
  functions := symbols.openFunctions.map fun function => some function.body
  scopes := symbols.scopes.map (·.extent.frame?)

variable {nesting : Nesting} {symbols : Symbols} {importing : Bool}

/-- Only what is open matters, and only where it is. -/
theorem surroundings_of_same {next : Symbols} (openClasses : next.openClasses = symbols.openClasses)
    (bodies : next.classes.map (·.body) = symbols.classes.map (·.body))
    (functions : next.openFunctions = symbols.openFunctions)
    (extents : next.scopes.map (·.extent) = symbols.scopes.map (·.extent)) :
    next.surroundings = symbols.surroundings := by
  have body (place : Nat) :
      next.classes[place]?.bind (·.body) = symbols.classes[place]?.bind (·.body) := by
    have same := congrArg (·[place]?) bodies
    simp only [Array.getElem?_map] at same
    cases there : next.classes[place]? <;> cases here : symbols.classes[place]? <;>
      simp_all
  have scopes := congrArg (List.map Extent.frame?) extents
  simp only [List.map_map] at scopes
  simp only [surroundings, openClasses, functions, body]
  congr 1

@[simp] theorem surroundings_bind (symbols : Symbols) (name : String) (type : Option ClassRef) :
    (symbols.bind name type).surroundings = symbols.surroundings := by
  unfold Symbols.bind
  split
  · rfl
  next scope outer held => simp [surroundings, held]

@[simp] theorem surroundings_setProperty (symbols : Symbols) (name : String)
    (type : Option ClassRef) :
    (symbols.setProperty name type).surroundings = symbols.surroundings := by
  unfold Symbols.setProperty
  split
  · rfl
  next place rest held =>
    refine surroundings_of_same rfl ?_ rfl rfl
    refine Array.ext (by simp) ?_
    intro i _ _
    simp only [Array.getElem_map, Array.getElem_modify]
    split <;> rfl

@[simp] theorem surroundings_promote (symbols : Symbols) (header : FunctionHeader) :
    (symbols.promote header).surroundings = symbols.surroundings := by
  unfold Symbols.promote
  split
  · generalize header.parameters.filter (·.promoted) = promoted
    induction promoted generalizing symbols with
    | nil => rfl
    | cons parameter rest ih => rw [List.foldl_cons, ih, surroundings_setProperty]
  · rfl

@[simp] theorem surroundings_readVariable (place : Place) (symbols : Symbols) :
    (readVariable nesting place symbols).surroundings = symbols.surroundings := by
  unfold readVariable
  split
  · rfl
  · split
    · unfold declareProperty
      dsimp only
      split <;> simp
    · split
      · simp
      · unfold readLocal
        split
        · simp
        · split <;> simp

@[simp] theorem surroundings_readHandler (place : Place) (symbols : Symbols) :
    (readHandler nesting place symbols).surroundings = symbols.surroundings := by
  unfold readHandler
  split
  · rfl
  · dsimp only
    split <;> simp

/-! ### Tokens that are passed over -/

/-- The token closes nothing and is no variable. -/
def IsPlain (token : Token) : Prop := token.closing? = none ∧ token.kind ≠ .variable

/-- The tokens that reading the place at `index` may pass over, inside an import or not. -/
inductive Skips (nesting : Nesting) (importing : Bool) (index i : Nat) : Prop
  | plain (plain : ∀ token, nesting.tokens[i]? = some token → IsPlain token)
  | within {start : Nat} {frame : Frame} (found : nesting.frameAt start = some frame)
      (after : index < start) (inside : start < i)
      (ends : ∀ close, frame.closer = some close → i ≤ close)
  /-- In an import, whatever follows `as` is taken for a name. -/
  | renamed {word : Token} (inside : importing = true)
      (placed : nesting.tokenBefore i 1 = some word) (renames : word.isKeyword ["as"] = true)
  /-- An import of functions or constants is passed over up to its end. -/
  | imported {word : Token} (placed : nesting.tokens[index]? = some word)
      (imports : word.isKeyword ["use"] = true)
      (captures : nesting.tokens[index + 1]?.any (·.opening? == some .round) = false)
      (skipped : nesting.tokens[index + 1]?.any importsNoClass = true)
      (unfinished : ∀ k, index < k → k ≤ i → nesting.tokens[k]?.any (·.isOperator [";"]) = false)

theorem isPlain_of_isName {token : Token} (name : token.isName = true) : IsPlain token := by
  simp only [Token.isName, Bool.or_eq_true, beq_iff_eq] at name
  rcases name with kind | kind <;> simp [IsPlain, Token.closing?, kind]

theorem isPlain_of_isKeyword {token : Token} {words : List String}
    (keyword : token.isKeyword words = true) : IsPlain token := by
  simp only [Token.isKeyword, Bool.and_eq_true, beq_iff_eq] at keyword
  simp [IsPlain, Token.closing?, keyword.1]

theorem closing?_of_isKeyword {token : Token} {words : List String}
    (keyword : token.isKeyword words = true) : token.closing? = none :=
  (isPlain_of_isKeyword keyword).1

theorem isPlain_of_isOperator {token : Token} {operators : List String}
    (operator : token.isOperator operators = true) : IsPlain token := by
  simp only [Token.isOperator, Bool.and_eq_true, beq_iff_eq] at operator
  simp [IsPlain, Token.closing?, operator.1]

theorem isPlain_of_opening? {token : Token} {bracket : Bracket}
    (opens : token.opening? = some bracket) : IsPlain token := by
  simp [IsPlain, Token.closing?_of_opening? opens, Token.kind_of_opening? opens]

theorem isPlain_of_isReturnType (token : Token) (type : isReturnType token = true) :
    IsPlain token := by
  simp only [isReturnType, Bool.or_eq_true] at type
  rcases type with name | operator
  · exact isPlain_of_isName name
  · exact isPlain_of_isOperator operator

theorem isPlain_of_not_endsHeader (token : Token) (inside : (!endsHeader token) = true) :
    IsPlain token := by
  simp only [endsHeader, Bool.not_eq_true', Bool.or_eq_false_iff, beq_eq_false_iff_ne] at inside
  simp [IsPlain, Token.closing?, inside.1.2, inside.2]

/-- The tokens from `start` up to but not including `stop` may be passed over. -/
def Passable (nesting : Nesting) (importing : Bool) (index start stop : Nat) : Prop :=
  ∀ i, start ≤ i → i < stop → Skips nesting importing index i

namespace Passable

variable {index start middle stop : Nat}

theorem empty : Passable nesting importing index start start := by
  intro i first last
  omega

theorem append (front : Passable nesting importing index start middle)
    (back : Passable nesting importing index middle stop) :
    Passable nesting importing index start stop := by
  intro i first last
  by_cases before : i < middle
  · exact front i first before
  · exact back i (by omega) last

theorem of_token {token : Token} (placed : nesting.tokens[start]? = some token)
    (plain : IsPlain token) : Passable nesting importing index start (start + 1) := by
  intro i first last
  have same : i = start := by omega
  subst same
  refine .plain ?_
  intro other placed'
  rw [placed] at placed'
  cases placed'
  exact plain

theorem of_frame {frame : Frame} (formed : nesting.Formed)
    (found : nesting.frameAt start = some frame) (after : index < start)
    (ends : ∀ close, frame.closer = some close → stop ≤ close + 1) :
    Passable nesting importing index start stop := by
  intro i first last
  rcases Nat.eq_or_lt_of_le first with rfl | inside
  · obtain ⟨token, bracket, placed, opens, -⟩ := formed.frame found
    exact of_token placed (isPlain_of_opening? opens) start first (Nat.lt_succ_self start)
  · refine .within found after inside ?_
    intro close closed
    exact Nat.le_of_lt_succ (Nat.lt_of_lt_of_le last (ends close closed))

theorem whole_frame {frame : Frame} {close : Nat} (formed : nesting.Formed)
    (found : nesting.frameAt start = some frame) (closed : frame.closer = some close)
    (after : index < start) : Passable nesting importing index start (close + 1) := by
  refine of_frame formed found after ?_
  intro other closed'
  rw [closed] at closed'
  cases closed'
  exact Nat.le_refl _

theorem takeWhile (start : Nat) {p : Token → Bool}
    (plain : ∀ token, p token = true → IsPlain token) :
    Passable nesting importing index start
      (start + ((nesting.tokens.toList.drop start).takeWhile p).length) := by
  intro i first last
  refine .plain ?_
  intro token placed
  apply plain
  have within : i - start < ((nesting.tokens.toList.drop start).takeWhile p).length := by omega
  have taken := List.prefix_iff_getElem?.mp (List.takeWhile_prefix p) (i - start) within
  rw [List.getElem?_drop, Array.getElem?_toList, Nat.add_sub_cancel' first, placed] at taken
  rw [Option.some.inj taken]
  exact List.mem_takeWhile_imp (List.getElem_mem within)

end Passable

/-! ### Everything that reading can lead to -/

/-- What is open once the place at `index` has been read and the pass goes on at `resume`, if it was
`around` before. -/
inductive Enters (nesting : Nesting) (index : Nat) (around : Surroundings) :
    Nat → Surroundings → Prop
  | nothing {resume : Nat} : Enters nesting index around resume around
  | classBody {start : Nat} {frame : Frame} (found : nesting.frameAt start = some frame)
      (curly : nesting.tokens[start]?.any (·.opening? == some .curly) = true) :
      Enters nesting index around (start + 1)
        { around with classes := some start :: around.classes }
  | function {start : Nat} {frame : Frame} (found : nesting.frameAt start = some frame)
      (name : Option String) :
      Enters nesting index around (start + 1)
        { around with
          functions := name.toList.map (fun _ => some start) ++ around.functions
          scopes := some start :: around.scopes }
  | arrow {start : Nat} (after : index < start) (inside : start < nesting.tokens.size) :
      Enters nesting index around (start + 1)
        { around with scopes := nesting.enclosing start :: around.scopes }

/-- The pass after the place at `index` has been read: what it passes over and what it enters. -/
structure Reads (nesting : Nesting) (importing : Bool) (index : Nat) (around : Surroundings)
    (pass : Pass) : Prop where
  passable : Passable nesting importing index (index + 1) pass.resume
  enters : Enters nesting index around pass.resume pass.symbols.surroundings

theorem Reads.next {index : Nat} {pass : Pass} (resume : pass.resume = index + 1)
    (same : pass.symbols.surroundings = symbols.surroundings) :
    Reads nesting importing index symbols.surroundings pass := by
  constructor
  · rw [resume]
    exact .empty
  · rw [same]
    exact .nothing

theorem reads_enterNamespace (index : Nat) (here : Token) :
    Reads nesting importing index symbols.surroundings
      (enterNamespace (nesting.placeAt index here) symbols) := by
  unfold enterNamespace
  split
  · exact .next rfl rfl
  next next found =>
    split
    next identifier =>
      rw [Nesting.after_placeAt, Nesting.head?_drop_tokens] at found
      have named : next.isName = true := by simp_all [Token.isName]
      exact ⟨.of_token found (isPlain_of_isName named), .nothing⟩
    · split
      · exact .next rfl rfl
      · exact .next rfl rfl

/-- Classes are only ever added at the end, so those that are open stay where they were. -/
theorem surroundings_declareClass (anchored : Anchored nesting symbols) (definition : ClassDef)
    (body : Option Nat) :
    (symbols.declareClass definition body).surroundings =
      { symbols.surroundings with
        classes := (body.map some).toList ++ symbols.surroundings.classes } := by
  have kept : ∀ place ∈ symbols.openClasses,
      ((symbols.declareClass definition body).classes[place]?).bind (·.body) =
        symbols.classes[place]?.bind (·.body) := by
    intro place member
    obtain ⟨name, frame, there, -⟩ := anchored.classes place member
    obtain ⟨inside, -⟩ := Array.getElem?_eq_some_iff.mp there
    rw [Symbols.declareClass, Array.getElem?_push_lt (by simpa using inside)]
    rw [Array.getElem?_eq_getElem (by simpa using inside)]
  have same := List.map_congr_left kept
  cases body with
  | none => simp only [surroundings, Symbols.declareClass] at same ⊢; simpa using same
  | some start =>
    simp only [surroundings, Symbols.declareClass] at same ⊢
    simpa using same

theorem reads_readClass (formed : nesting.Formed) (anchored : Anchored nesting symbols)
    (index : Nat) (here : Token) :
    Reads nesting importing index symbols.surroundings
      (readClass (nesting.placeAt index here) symbols) := by
  unfold readClass
  split
  · exact .next rfl rfl
  next name rest after =>
    rw [Nesting.after_placeAt] at after
    have placed : nesting.tokens[index + 1]? = some name := by
      rw [← Array.getElem?_toList, ← List.head?_drop, after]
      rfl
    have rest_eq : rest = nesting.tokens.toList.drop (index + 2) := by
      have tail := congrArg List.tail after
      simpa using tail.symm
    split
    · exact .next rfl rfl
    next named =>
      have isName : name.isName = true := by
        simp only [Bool.or_eq_true, bne_iff_ne, not_or, not_not] at named
        simp [Token.isName, named.2]
      rw [rest_eq]
      have passed : Passable nesting importing index (index + 1) (index + 2 +
          ((nesting.tokens.toList.drop (index + 2)).takeWhile (!endsHeader ·)).length) :=
        (Passable.of_token placed (isPlain_of_isName isName)).append
          (.takeWhile (index + 2) isPlain_of_not_endsHeader)
      dsimp only [Nesting.index_placeAt]
      split
      next opens =>
        obtain ⟨token, found, opens⟩ := (Option.any_eq_true _ _).mp opens
        have opens' : token.opening? = some .curly := by simpa using opens
        obtain ⟨frame, framed⟩ := frameAt_of_ahead formed found opens'
        rw [head?_dropWhile_drop, Array.getElem?_toList] at found
        refine ⟨passed.append (.of_token found (isPlain_of_opening? opens')), ?_⟩
        rw [surroundings_declareClass anchored]
        exact .classBody framed (by simp [found, opens'])
      · refine ⟨passed, ?_⟩
        rw [surroundings_declareClass anchored]
        exact .nothing

theorem surroundings_enterScope (symbols : Symbols) (bindings : Bindings) (extent : Extent) :
    (symbols.enterScope bindings extent).surroundings =
      { symbols.surroundings with
        scopes := extent.frame? :: symbols.surroundings.scopes } := rfl

theorem surroundings_enterBody (symbols : Symbols) (bindings : Bindings) (start : Nat)
    (name : Option String) :
    { symbols.enterScope bindings (.body start) with
      openFunctions :=
        name.toList.map (fun name => ({ name, body := start } : OpenFunction)) ++
          symbols.openFunctions }.surroundings =
      { symbols.surroundings with
        functions := name.toList.map (fun _ => some start) ++ symbols.surroundings.functions
        scopes := some start :: symbols.surroundings.scopes } := by
  cases name <;> rfl

theorem reads_enterFunction (formed : nesting.Formed) {index : Nat} {here : Token}
    (header : FunctionHeader) {later : Nat} (after : index < later)
    (passed : Passable nesting importing index (index + 1) later) :
    Reads nesting importing index symbols.surroundings
      (enterFunction nesting (nesting.placeAt index here) symbols header later) := by
  have types : Passable nesting importing index (index + 1)
      (later + ((nesting.tokens.toList.drop later).takeWhile isReturnType).length) :=
    passed.append (.takeWhile later isPlain_of_isReturnType)
  unfold enterFunction
  rw [Nesting.ahead_placeAt here after]
  dsimp only
  split
  · exact ⟨types, .nothing⟩
  next token rest found =>
    have found' := congrArg List.head? found
    have placed := found'
    rw [head?_dropWhile_drop, Array.getElem?_toList] at placed
    split
    next arrow =>
      obtain ⟨inside, -⟩ := Array.getElem?_eq_some_iff.mp placed
      have operator := (Bool.and_eq_true_iff.mp arrow).2
      refine ⟨types.append (.of_token placed (isPlain_of_isOperator operator)), ?_⟩
      rw [surroundings_enterScope, surroundings_promote]
      exact .arrow (by omega) inside
    · split
      next opens =>
        have opens' : token.opening? = some .curly := by simpa using opens
        obtain ⟨frame, framed⟩ := frameAt_of_ahead formed found' opens'
        refine ⟨types.append (.of_token placed (isPlain_of_opening? opens')), ?_⟩
        rw [surroundings_enterBody, surroundings_promote]
        exact .function framed header.name
      · refine ⟨types, ?_⟩
        rw [surroundings_promote]
        exact .nothing

theorem reads_readCaptures (linked : nesting.Linked) (formed : nesting.Formed) {index : Nat}
    {here : Token} (header : FunctionHeader) {later : Nat} (after : index < later)
    (passed : Passable nesting importing index (index + 1) later) :
    Reads nesting importing index symbols.surroundings
      (readCaptures nesting (nesting.placeAt index here) symbols header later) := by
  unfold readCaptures
  rw [Nesting.ahead_placeAt here after, Nesting.head?_drop_tokens]
  split
  next captures =>
    obtain ⟨word, placed, keyword⟩ := (Option.any_eq_true _ _).mp captures
    have passed' := passed.append (.of_token placed (isPlain_of_isKeyword keyword))
    split
    · exact ⟨passed', .nothing⟩
    next frame found =>
      split
      · obtain ⟨token, bracket, placed', opens, -⟩ := formed.frame found
        exact ⟨passed'.append (.of_token placed' (isPlain_of_opening? opens)), .nothing⟩
      next close closed =>
        have inside := (linked.bounds found closed).1
        exact reads_enterFunction formed _ (by omega)
          (passed'.append (.whole_frame formed found closed (by omega)))
  · exact reads_enterFunction formed header after passed

theorem reads_readFunction (linked : nesting.Linked) (formed : nesting.Formed) (index : Nat)
    (here : Token) :
    Reads nesting importing index symbols.surroundings
      (readFunction nesting (nesting.placeAt index here) symbols) := by
  unfold readFunction
  extract_lets arrow first name list
  have ahead : index < first ∧ Passable nesting importing index (index + 1) first := by
    unfold first
    rw [Nesting.nextIs_placeAt]
    split
    next operator =>
      obtain ⟨token, placed, operator⟩ := (Option.any_eq_true _ _).mp operator
      exact ⟨by simp, .of_token placed (isPlain_of_isOperator operator)⟩
    · exact ⟨by simp, .empty⟩
  have passed : index < list ∧ Passable nesting importing index (index + 1) list := by
    unfold list
    split
    next named =>
      refine ⟨by omega, ahead.2.append ?_⟩
      have found : ∃ token, nesting.tokens[first]? = some token ∧ token.isName = true := by
        unfold name at named
        split at named
        · simp at named
        · rw [Nesting.ahead_placeAt here ahead.1, Nesting.head?_drop_tokens,
            Option.isSome_map] at named
          obtain ⟨token, taken⟩ := Option.isSome_iff_exists.mp named
          exact ⟨token, Option.filter_eq_some_iff.mp taken⟩
      obtain ⟨token, placed, isName⟩ := found
      exact .of_token placed (isPlain_of_isName isName)
    · exact ahead
  split
  · exact ⟨passed.2, .nothing⟩
  next frame filtered =>
    obtain ⟨found, -⟩ := Option.filter_eq_some_iff.mp filtered
    split
    · obtain ⟨token, bracket, placed, opens, -⟩ := formed.frame found
      exact ⟨passed.2.append (.of_token placed (isPlain_of_opening? opens)), .nothing⟩
    next close closed =>
      have inside := (linked.bounds found closed).1
      exact reads_readCaptures linked formed _ (by omega)
        (passed.2.append (.whole_frame formed found closed passed.1))

theorem reads_beginImport {index : Nat} {here : Token}
    (placed : nesting.tokens[index]? = some here) (use : here.isKeyword ["use"] = true) :
    Reads nesting importing index symbols.surroundings
      (beginImport nesting (nesting.placeAt index here) symbols) := by
  unfold beginImport
  split
  · exact .next rfl rfl
  next outside =>
    split
    next skipped =>
      simp only [Nesting.nextIs_placeAt, Bool.or_eq_true, not_or, Bool.not_eq_true]
        at outside skipped
      refine ⟨?_, .nothing⟩
      intro i first last
      refine .imported placed use outside.1.2 skipped ?_
      intro k after upTo
      dsimp only [Nesting.index_placeAt, Nesting.after_placeAt] at last
      have within : k - (index + 1) < ((nesting.tokens.toList.drop (index + 1)).takeWhile
          (!·.isOperator [";"])).length := by omega
      have taken := List.prefix_iff_getElem?.mp (List.takeWhile_prefix _) _ within
      rw [List.getElem?_drop, Array.getElem?_toList, Nat.add_sub_cancel' (by omega)] at taken
      rw [taken, Option.any_some]
      have holds := List.mem_takeWhile_imp (List.getElem_mem within)
      simpa using holds
    · exact .next rfl rfl

theorem head?_of_givenName? {after : List Token} (given : (givenName? after).isSome = true) :
    ∃ word, after.head? = some word ∧ word.isKeyword ["as"] = true := by
  rw [givenName?_eq] at given
  split at given
  next renames => exact (Option.any_eq_true _ _).mp renames
  · simp at given

theorem reads_importName (formed : nesting.Formed) {index : Nat} {here : Token} :
    Reads nesting true index symbols.surroundings
      (importName nesting (nesting.placeAt index here) symbols) := by
  unfold importName
  dsimp only [Nesting.index_placeAt]
  split
  next group filtered =>
    obtain ⟨found, -⟩ := Option.filter_eq_some_iff.mp filtered
    refine ⟨.of_frame formed found (Nat.lt_succ_self index) ?_, .nothing⟩
    intro close closed
    simp [Nesting.endOf, closed]
  · generalize Imports.declare _ _ _ = imports
    split
    next given =>
      obtain ⟨word, placed, renames⟩ := head?_of_givenName? given
      rw [Nesting.after_placeAt, Nesting.head?_drop_tokens] at placed
      have name : Passable nesting true index (index + 2) (index + 3) := by
        intro i first last
        have second : i = index + 2 := by omega
        subst second
        exact .renamed rfl (by simpa [Nesting.tokenBefore] using placed) renames
      exact ⟨(Passable.of_token placed (isPlain_of_isKeyword renames)).append name, .nothing⟩
    · exact .next rfl rfl

theorem reads_readKeyword (linked : nesting.Linked) (formed : nesting.Formed)
    (anchored : Anchored nesting symbols) {index : Nat} {here : Token}
    (placed : nesting.tokens[index]? = some here) (keyword : here.kind = .keyword) :
    Reads nesting importing index symbols.surroundings
      (readKeyword nesting (nesting.placeAt index here) symbols) := by
  unfold readKeyword
  dsimp only [Nesting.here_placeAt]
  split
  · exact reads_enterNamespace index here
  · split
    next use =>
      refine reads_beginImport placed ?_
      simpa [Token.isKeyword, keyword] using use
    · split
      · exact reads_readClass formed anchored index here
      · split
        · exact reads_readFunction linked formed index here
        · exact .next rfl rfl

/-- A statement is read after what ends at its place has been left. -/
theorem reads_readStatement (linked : nesting.Linked) (formed : nesting.Formed)
    (anchored : Anchored nesting symbols) {index : Nat} {here : Token}
    (placed : nesting.tokens[index]? = some here) :
    Reads nesting importing index (symbols.leave nesting index here).surroundings
      (readStatement nesting (nesting.placeAt index here) symbols) := by
  have left := anchored.leave index here
  unfold readStatement
  dsimp only
  split
  next keyword => exact reads_readKeyword linked formed left placed keyword
  · refine .next rfl ?_
    dsimp only
    split
    · exact surroundings_readHandler _ _
    · rfl
  · exact .next rfl (surroundings_readVariable _ _)
  · exact .next rfl rfl

/-- What is read at a place. Inside an import nothing is left, but then the token there closes
nothing. -/
theorem reads_read (linked : nesting.Linked) (formed : nesting.Formed)
    (anchored : Anchored nesting symbols) (importing : Bool) {index : Nat} {here : Token}
    (placed : nesting.tokens[index]? = some here) :
    Reads nesting importing index (symbols.leave nesting index here).surroundings
        (read nesting importing (nesting.placeAt index here) symbols) ∨
      (here.closing? = none ∧ Reads nesting importing index symbols.surroundings
        (read nesting importing (nesting.placeAt index here) symbols)) := by
  unfold read
  split
  next during =>
    subst during
    unfold readImport
    split
    next ends => exact .inr ⟨Token.closing?_of_isOperator ends, .next rfl rfl⟩
    · split
      next name =>
        have isName : here.isName = true := by simpa [Token.isName] using Or.inl name
        exact .inr ⟨(isPlain_of_isName isName).1, reads_importName formed⟩
      · split
        next comma => exact .inr ⟨Token.closing?_of_isOperator comma, .next rfl rfl⟩
        · exact .inl (reads_readStatement linked formed anchored placed)
  · exact .inl (reads_readStatement linked formed anchored placed)

theorem Anchored.read (linked : nesting.Linked) (formed : nesting.Formed)
    (anchored : Anchored nesting symbols) (importing : Bool) (index : Nat) (here : Token) :
    Anchored nesting
      (Symbols.read nesting importing (nesting.placeAt index here) symbols).symbols := by
  unfold Symbols.read
  split
  · unfold readImport
    split
    · exact anchored
    · split
      · exact anchored.importName _
      · split
        · exact anchored
        · exact anchored.readStatement linked formed index here
  · exact anchored.readStatement linked formed index here

end Symbols

end CursorContext
