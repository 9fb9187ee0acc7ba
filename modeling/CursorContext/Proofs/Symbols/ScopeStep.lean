import CursorContext.Proofs.Nesting.Sealed
import CursorContext.Proofs.Symbols.HeaderList
import CursorContext.Proofs.Symbols.Live

/-!
What reading one place does to the chain of scopes. It leaves those that end there, then it binds a
variable of the innermost one or enters one more; everything below stays as it is. What is bound
stands in the text as a variable, and not as a member.
-/
namespace CursorContext

/-- Whether a scope that reaches so far ends with the token at `index`. -/
def Extent.endsAt (nesting : Nesting) (index : Nat) (token : Token) : Extent → Bool
  | .body frame => Symbols.bodyEnds nesting index frame
  | .arrow container =>
    container.any (Symbols.bodyEnds nesting index) ||
      (token.isOperator [",", ";"] && nesting.enclosing index == container)

namespace Symbols

variable {nesting : Nesting} {symbols : Symbols}

theorem scopeEnds_eq (nesting : Nesting) (index : Nat) (token : Token) :
    scopeEnds nesting index token = Extent.endsAt nesting index token ∘ Scope.extent := by
  funext ⟨bindings, extent⟩
  cases extent <;> rfl

/-- A frame that closes now ends every scope that reaches up to it. -/
theorem endsAt_of_closeOf {extent : Extent} {index f : Nat}
    (named : extent.frame? = some f) (closes : nesting.closeOf f = some index) (token : Token) :
    extent.endsAt nesting index token = true := by
  cases extent with
  | body frame =>
    cases named
    simp [Extent.endsAt, bodyEnds, closes]
  | arrow container =>
    cases named
    simp [Extent.endsAt, bodyEnds, closes]

/-! ### Places where nothing ends -/

theorem bodyEnds_eq_false (ended : nesting.Ended) {index : Nat} {here : Token}
    (placed : nesting.tokens[index]? = some here) (closes : here.closing? = none) (f : Nat) :
    bodyEnds nesting index f = false := by
  by_contra ends
  have closed : nesting.closeOf f = some index := by simpa [bodyEnds] using ends
  obtain ⟨frame, found, closer⟩ := Nesting.closer_of_closeOf closed
  obtain ⟨token, bracket, placed', closing⟩ := ended f frame index found closer
  rw [placed] at placed'
  cases placed'
  simp [closes] at closing

theorem scopeEnds_eq_false {index : Nat} {here : Token} {scope : Scope}
    (separates : here.isOperator [",", ";"] = false)
    (stays : ∀ f, scope.extent.frame? = some f → bodyEnds nesting index f = false) :
    scopeEnds nesting index here scope = false := by
  cases extent : scope.extent with
  | body frame => simp [scopeEnds, extent, stays frame (by rw [extent]; rfl)]
  | arrow container =>
    cases container with
    | none => simp [scopeEnds, extent, separates]
    | some frame => simp [scopeEnds, extent, separates, stays frame (by rw [extent]; rfl)]

theorem classEnds_eq_false (ended : nesting.Ended) {index : Nat} {here : Token}
    (placed : nesting.tokens[index]? = some here) (closes : here.closing? = none) (place : Nat) :
    symbols.classEnds nesting index place = false := by
  cases body : symbols.classes[place]?.bind (·.body) <;>
    simp [classEnds, body, bodyEnds_eq_false ended placed closes]

/-- At a token that neither closes nor separates anything, nothing is left. -/
theorem leave_eq_self (ended : nesting.Ended) {index : Nat} {here : Token}
    (placed : nesting.tokens[index]? = some here) (closes : here.closing? = none)
    (separates : here.isOperator [",", ";"] = false) :
    symbols.leave nesting index here = symbols := by
  have scopes : symbols.scopes.dropWhile (scopeEnds nesting index here) = symbols.scopes :=
    List.dropWhile_eq_self_iff.mpr fun _ => by
      simp [scopeEnds_eq_false separates fun f _ => bodyEnds_eq_false ended placed closes f]
  have classes :
      symbols.openClasses.dropWhile (symbols.classEnds nesting index) = symbols.openClasses :=
    List.dropWhile_eq_self_iff.mpr (by simp [classEnds_eq_false ended placed closes])
  have functions : symbols.openFunctions.dropWhile
      (fun function => bodyEnds nesting index function.body) = symbols.openFunctions :=
    List.dropWhile_eq_self_iff.mpr (by simp [bodyEnds_eq_false ended placed closes])
  rw [leave, scopes, classes, functions]

/-! ### What reading does to the chain -/

/-- At most the variables of the innermost scope are bound anew. -/
structure Rebinds (symbols next : Symbols) : Prop where
  extents : next.scopes.map (·.extent) = symbols.scopes.map (·.extent)
  outer : next.scopes.tail = symbols.scopes.tail
  file : symbols.scopes ≠ [] → next.file = symbols.file

namespace Rebinds

theorem of_same {next : Symbols} (scopes : next.scopes = symbols.scopes)
    (file : next.file = symbols.file) : Rebinds symbols next :=
  ⟨by rw [scopes], by rw [scopes], fun _ => file⟩

theorem bind (symbols : Symbols) (name : String) (type : Option ClassRef) :
    Rebinds symbols (symbols.bind name type) := by
  cases held : symbols.scopes with
  | nil =>
    constructor
    · simp [Symbols.bind, held]
    · simp [Symbols.bind, held]
    · intro inside
      exact absurd held inside
  | cons scope outer =>
    constructor
    · simp [Symbols.bind, held]
    · simp [Symbols.bind, held]
    · intro _
      simp [Symbols.bind, held]

theorem of_bound {next : Symbols} {name : String} {type : Option ClassRef}
    (scopes : next.scopes = (symbols.bind name type).scopes)
    (file : next.file = (symbols.bind name type).file) : Rebinds symbols next := by
  obtain ⟨extents, outer, outside⟩ := bind symbols name type
  exact ⟨by rw [scopes, extents], by rw [scopes, outer], fun inside => file.trans (outside inside)⟩

theorem frames {next : Symbols} (rebinds : Rebinds symbols next) :
    next.surroundings.scopes = symbols.surroundings.scopes := by
  have same := congrArg (List.map Extent.frame?) rebinds.extents
  rw [List.map_map, List.map_map] at same
  exact same

/-- What lies below the innermost scope is untouched. -/
theorem append {next : Symbols} (rebinds : Rebinds symbols next) {fresh base : List Scope}
    (scopes : symbols.scopes = fresh ++ base) (inside : fresh ≠ []) :
    ∃ bound, next.scopes = bound ++ base ∧ bound.map (·.extent) = fresh.map (·.extent) := by
  obtain ⟨scope, rest, rfl⟩ := List.exists_cons_of_ne_nil inside
  have extents := rebinds.extents
  have outer := rebinds.outer
  rw [scopes] at extents outer
  cases held : next.scopes with
  | nil => simp [held] at extents
  | cons first later =>
    rw [held] at extents outer
    simp only [List.cons_append, List.map_cons, List.cons.injEq] at extents
    refine ⟨first :: rest, ?_, ?_⟩
    · rw [List.cons_append]
      exact congrArg (first :: ·) outer
    · rw [List.map_cons, List.map_cons, extents.1]

end Rebinds

theorem scopes_setProperty (symbols : Symbols) (name : String) (type : Option ClassRef) :
    (symbols.setProperty name type).scopes = symbols.scopes ∧
      (symbols.setProperty name type).file = symbols.file := by
  unfold setProperty
  split <;> exact ⟨rfl, rfl⟩

theorem scopes_promote (symbols : Symbols) (header : FunctionHeader) :
    (symbols.promote header).scopes = symbols.scopes ∧
      (symbols.promote header).file = symbols.file := by
  unfold promote
  split
  · generalize header.parameters.filter (·.promoted) = promoted
    induction promoted generalizing symbols with
    | nil => exact ⟨rfl, rfl⟩
    | cons parameter rest ih =>
      obtain ⟨scopes, file⟩ := scopes_setProperty symbols
        (String.ofList (parameter.name.toList.drop 1)) parameter.type
      rw [List.foldl_cons, (ih _).1, (ih _).2]
      exact ⟨scopes, file⟩
  · exact ⟨rfl, rfl⟩

/-! ### Where variables are introduced -/

/-- A variable at `i` may be given a type there: it is not behind a member operator, or it stands in
the parameter list of a function or in the list of a handler. -/
inductive Binder (nesting : Nesting) (i : Nat) : Prop
  | apart (apart : (nesting.tokenBefore i 1).any (·.isMemberOperator) = false)
  | parameter (listed : InParameterList nesting i)
  | caught (listed : inHandlerList nesting i = true)

/-- Somewhere a variable `name` may be given a type. -/
def Introduced (nesting : Nesting) (name : String) : Prop :=
  ∃ i token, nesting.tokens[i]? = some token ∧ token.kind = .variable ∧ token.text = name ∧
    Binder nesting i

/-- At most one variable is bound, and it stands in the text. -/
inductive Binds (nesting : Nesting) (symbols next : Symbols) : Prop
  | same (scopes : next.scopes = symbols.scopes) (file : next.file = symbols.file)
  | bound {name : String} {type : Option ClassRef} (introduced : Introduced nesting name)
      (scopes : next.scopes = (symbols.bind name type).scopes)
      (file : next.file = (symbols.bind name type).file)

theorem Binds.rebinds {next : Symbols} (binds : Binds nesting symbols next) :
    Rebinds symbols next := by
  cases binds with
  | same scopes file => exact .of_same scopes file
  | bound _ scopes file => exact .of_bound scopes file

theorem binds_readVariable {index : Nat} {here : Token}
    (placed : nesting.tokens[index]? = some here) (named : here.kind = .variable)
    (symbols : Symbols) :
    Binds nesting symbols (readVariable nesting (nesting.placeAt index here) symbols) := by
  have property (name : String) (type : Option ClassRef) :
      Binds nesting symbols (symbols.setProperty name type) :=
    .same (scopes_setProperty symbols name type).1 (scopes_setProperty symbols name type).2
  unfold readVariable
  split
  · exact .same rfl rfl
  next outside =>
    -- Whatever is bound from here on is this variable, which is no member.
    rw [Bool.not_eq_true, Nesting.previousIs_placeAt placed] at outside
    have introduced : Introduced nesting here.text :=
      ⟨index, here, placed, named, rfl, .apart outside⟩
    split
    · unfold declareProperty
      dsimp only
      split
      · exact property _ _
      · exact .same rfl rfl
    · split
      · exact property _ _
      · unfold readLocal
        split
        · exact .bound introduced rfl rfl
        · split
          · exact .bound introduced rfl rfl
          · exact .same rfl rfl

theorem binds_readHandler (linked : nesting.Linked) {index : Nat} {here : Token}
    (placed : nesting.tokens[index]? = some here) (named : here.kind = .identifier)
    (handles : Text.lower here.text = "catch") (symbols : Symbols) :
    Binds nesting symbols (readHandler nesting (nesting.placeAt index here) symbols) := by
  unfold readHandler
  split
  · exact .same rfl rfl
  next frame found =>
    dsimp only
    split
    · exact .same rfl rfl
    next token first =>
      obtain ⟨i, there, direct⟩ := Nesting.mem_directTokens (List.mem_of_find?_eq_some first)
      rw [linked.opener found] at direct
      have listed : inHandlerList nesting i = true := by
        simp [inHandlerList, direct, Nesting.tokenBefore, placed, named, handles]
      refine .bound ⟨i, token, there, ?_, rfl, .caught listed⟩ rfl rfl
      simpa using List.find?_some first

/-- The variables that the function with the keyword `here` at `index` begins with. -/
def Initial (nesting : Nesting) (index : Nat) (here : Token) (symbols : Symbols)
    (bindings : Bindings) : Prop :=
  ∃ frame header, parameterList? nesting index here = some frame ∧ frame.closer.isSome = true ∧
    header.parameters = symbols.parameters nesting frame ∧
    bindings = symbols.initialBindings header

/-- What reading the place of `here` at `index` does to the chain where no variable is bound: nothing,
or it enters a scope. -/
inductive Grows (nesting : Nesting) (index : Nat) (here : Token) (symbols : Symbols) (pass : Pass) :
    Prop
  | same (scopes : pass.symbols.scopes = symbols.scopes) (file : pass.symbols.file = symbols.file)
  | body {start : Nat} {frame : Frame} {bindings : Bindings}
      (word : here.isKeyword ["function", "fn"] = true)
      (initial : Initial nesting index here symbols bindings) (after : index < start)
      (found : nesting.frameAt start = some frame) (resume : pass.resume = start + 1)
      (scopes : pass.symbols.scopes = { bindings, extent := .body start } :: symbols.scopes)
      (file : pass.symbols.file = symbols.file)
  | arrow {start : Nat} {bindings : Bindings} (word : here.isKeyword ["fn"] = true)
      (initial : Initial nesting index here symbols bindings) (after : index < start) (inside : start < nesting.tokens.size)
      (resume : pass.resume = start + 1)
      (scopes : pass.symbols.scopes =
        { bindings, extent := .arrow (nesting.enclosing start) } :: symbols.scopes)
      (file : pass.symbols.file = symbols.file)

theorem grows_enterFunction (formed : nesting.Formed) {index : Nat} {here : Token}
    (word : here.isKeyword ["function", "fn"] = true) {frame : Frame}
    (list : parameterList? nesting index here = some frame) (closed : frame.closer.isSome = true)
    (header : FunctionHeader) (arrow : header.arrow = here.isKeyword ["fn"])
    (parameters : header.parameters = symbols.parameters nesting frame) {later : Nat}
    (after : index < later) :
    Grows nesting index here symbols
      (enterFunction nesting (nesting.placeAt index here) symbols header later) := by
  obtain ⟨scopes, file⟩ := scopes_promote symbols header
  have initial : Initial nesting index here symbols (symbols.initialBindings header) :=
    ⟨frame, header, list, closed, parameters, rfl⟩
  unfold enterFunction
  rw [Nesting.ahead_placeAt here after]
  dsimp only
  split
  · exact .same rfl rfl
  next token rest found =>
    have placed := congrArg List.head? found
    split
    next isArrow =>
      -- The arrow is a token, so the frame around it is one that is known.
      rw [head?_dropWhile_drop, Array.getElem?_toList] at placed
      obtain ⟨inside, -⟩ := Array.getElem?_eq_some_iff.mp placed
      have fn := arrow.symm.trans (Bool.and_eq_true_iff.mp isArrow).1
      exact .arrow fn initial (by omega) inside rfl (congrArg _ scopes) file
    · split
      next opens =>
        obtain ⟨body, framed⟩ := frameAt_of_ahead formed placed (by simpa using opens)
        exact .body word initial (by omega) framed rfl (congrArg _ scopes) file
      · exact .same scopes file

theorem grows_readFunction (linked : nesting.Linked) (formed : nesting.Formed) (index : Nat)
    {here : Token} (word : here.isKeyword ["function", "fn"] = true) :
    Grows nesting index here symbols
      (readFunction nesting (nesting.placeAt index here) symbols) := by
  rw [readFunction_placeAt]
  cases list : parameterList? nesting index here with
  | none => exact .same rfl rfl
  | some frame =>
    obtain ⟨there, -⟩ := Option.filter_eq_some_iff.mp list
    have after := lt_listIndex nesting index here
    cases closed : frame.closer with
    | none =>
      rw [Option.elim_some, closed]
      exact .same rfl rfl
    | some close =>
      have inside := (linked.bounds there closed).1
      have isClosed : frame.closer.isSome = true := by rw [closed, Option.isSome_some]
      -- Captures come between the list and the body, and change neither keyword nor parameters.
      rw [Option.elim_some, closed, Option.elim_some]
      unfold readCaptures
      split
      · split
        · exact .same rfl rfl
        next group found =>
          split
          · exact .same rfl rfl
          next ends closed' =>
            have inside' := (linked.bounds found closed').1
            apply grows_enterFunction formed word list isClosed
            · rfl
            · rfl
            · omega
      · exact grows_enterFunction formed word list isClosed _ rfl rfl (by omega)

theorem grows_readKeyword (linked : nesting.Linked) (formed : nesting.Formed) (index : Nat)
    {here : Token} (keyword : here.kind = .keyword) :
    Grows nesting index here symbols
      (readKeyword nesting (nesting.placeAt index here) symbols) := by
  unfold readKeyword
  dsimp only
  split
  · unfold enterNamespace
    split
    · exact .same rfl rfl
    · split
      · exact .same rfl rfl
      · split <;> exact .same rfl rfl
  · split
    · unfold beginImport
      split
      · exact .same rfl rfl
      · split <;> exact .same rfl rfl
    · split
      · unfold readClass
        split
        · exact .same rfl rfl
        · split
          · exact .same rfl rfl
          · dsimp only
            split <;> exact .same rfl rfl
      · split
        next word =>
          exact grows_readFunction linked formed index (by simpa [Token.isKeyword, keyword] using word)
        · exact .same rfl rfl

/-- A variable that is neither assigned nor follows `as` is not bound. -/
theorem scopes_readVariable {place : Place} (assigned : place.nextIs (·.isOperator ["="]) = false)
    (looped : place.previousIs (·.isKeyword ["as"]) = false) (symbols : Symbols) :
    (readVariable nesting place symbols).scopes = symbols.scopes ∧
      (readVariable nesting place symbols).file = symbols.file := by
  unfold readVariable
  split
  · exact ⟨rfl, rfl⟩
  · split
    · unfold declareProperty
      dsimp only
      split
      · exact scopes_setProperty _ _ _
      · exact ⟨rfl, rfl⟩
    · split
      · exact scopes_setProperty _ _ _
      · simp [readLocal, assigned, looped]

/-- Nothing is bound at a place where no variable is assigned, follows `as`, or is caught. -/
theorem grows_readStatement (linked : nesting.Linked) (formed : nesting.Formed)
    (symbols : Symbols) {index : Nat} {here : Token}
    (handles : here.kind = .identifier → Text.lower here.text ≠ "catch")
    (assigned : here.kind = .variable →
      (nesting.placeAt index here).nextIs (·.isOperator ["="]) = false)
    (looped : here.kind = .variable →
      (nesting.placeAt index here).previousIs (·.isKeyword ["as"]) = false) :
    Grows nesting index here (symbols.leave nesting index here)
      (readStatement nesting (nesting.placeAt index here) symbols) := by
  unfold readStatement
  dsimp only
  split
  next keyword => exact grows_readKeyword linked formed index keyword
  next identifier =>
    have other := handles identifier
    exact .same (by simp [other]) (by simp [other])
  next variable_ =>
    obtain ⟨scopes, file⟩ := scopes_readVariable (assigned variable_) (looped variable_)
      (symbols.leave nesting index here)
    exact .same scopes file
  · exact .same rfl rfl

/-- What reading the place of `here` at `index` can do to the chain. -/
inductive Rescopes (nesting : Nesting) (index : Nat) (here : Token) (symbols : Symbols)
    (pass : Pass) : Prop
  | binds (binds : Binds nesting symbols pass.symbols)
  | grows (grows : Grows nesting index here symbols pass)

theorem rescopes_readStatement (linked : nesting.Linked) (formed : nesting.Formed)
    (symbols : Symbols) {index : Nat} {here : Token}
    (placed : nesting.tokens[index]? = some here) :
    Rescopes nesting index here (symbols.leave nesting index here)
      (readStatement nesting (nesting.placeAt index here) symbols) := by
  unfold readStatement
  dsimp only
  split
  next keyword => exact .grows (grows_readKeyword linked formed index keyword)
  next identifier =>
    refine .binds ?_
    dsimp only
    split
    next handles =>
      exact binds_readHandler linked placed identifier (by simpa using handles) _
    · exact .same rfl rfl
  next variable_ => exact .binds (binds_readVariable placed variable_ _)
  · exact .grows (.same rfl rfl)

/-! ### Where scopes begin -/

theorem begun_of_enters (linked : nesting.Linked) {index resume : Nat}
    {around entered : Surroundings} (enters : Enters nesting index around resume entered)
    (forward : index < resume) (old : ∀ f, some f ∈ around.scopes → f ≤ index) :
    ∀ f, some f ∈ entered.scopes → f < resume := by
  intro f member
  cases enters with
  | nothing => exact Nat.lt_of_le_of_lt (old f member) forward
  | classBody found => exact Nat.lt_of_le_of_lt (old f member) forward
  | function found name =>
    rcases List.mem_cons.mp member with same | outer
    · cases same
      exact Nat.lt_succ_self _
    · exact Nat.lt_of_le_of_lt (old f outer) forward
  | arrow after inside =>
    rcases List.mem_cons.mp member with same | outer
    · exact Nat.lt_succ_of_lt (linked.enclosing_lt inside same.symm)
    · exact Nat.lt_of_le_of_lt (old f outer) forward

/-- The frames that the open scopes reach up to have begun. -/
theorem begun_passUpTo (linked : nesting.Linked) (formed : nesting.Formed) {index : Nat}
    (inside : index ≤ nesting.tokens.size) :
    ∀ f, some f ∈ (passUpTo nesting index).symbols.surroundings.scopes →
      f < (passUpTo nesting index).resume := by
  induction index with
  | zero => simp [passUpTo, surroundings]
  | succ index ih =>
    have placed := Array.getElem?_eq_getElem (show index < nesting.tokens.size by omega)
    have old := ih (by omega)
    cases comes : comesTo nesting index with
    | false =>
      rw [passUpTo_passed placed comes]
      exact old
    | true =>
      have reached : (passUpTo nesting index).resume ≤ index := of_decide_eq_true comes
      have older : ∀ f, some f ∈ (passUpTo nesting index).symbols.surroundings.scopes →
          f ≤ index := by
        intro f member
        have before := old f member
        omega
      have forward : index < (passUpTo nesting (index + 1)).resume :=
        le_resume_passUpTo linked inside
      have anchored := anchored_passUpTo linked formed (show index ≤ nesting.tokens.size by omega)
      have read := reads_read linked formed anchored (passUpTo nesting index).importing placed
      rw [← passUpTo_read placed comes] at read
      rcases read with left | ⟨-, kept⟩
      · apply begun_of_enters linked left.enters forward
        intro f member
        exact older f (((List.dropWhile_sublist _).map _).subset member)
      · exact begun_of_enters linked kept.enters forward older

/-! ### Where class bodies begin -/

theorem curly_of_enters {index resume : Nat} {around entered : Surroundings}
    (enters : Enters nesting index around resume entered)
    (old : ∀ f, some f ∈ around.classes →
      nesting.tokens[f]?.any (·.opening? == some .curly) = true) :
    ∀ f, some f ∈ entered.classes → nesting.tokens[f]?.any (·.opening? == some .curly) = true := by
  intro f member
  cases enters with
  | nothing => exact old f member
  | classBody found curly =>
    rcases List.mem_cons.mp member with same | outer
    · cases same
      exact curly
    · exact old f outer
  | function found name => exact old f member
  | arrow after inside => exact old f member

/-- The bodies of the open classes are blocks. -/
theorem curly_passUpTo (linked : nesting.Linked) (formed : nesting.Formed) {index : Nat}
    (inside : index ≤ nesting.tokens.size) :
    ∀ f, some f ∈ (passUpTo nesting index).symbols.surroundings.classes →
      nesting.tokens[f]?.any (·.opening? == some .curly) = true := by
  induction index with
  | zero => simp [passUpTo, surroundings]
  | succ index ih =>
    have placed := Array.getElem?_eq_getElem (show index < nesting.tokens.size by omega)
    have old := ih (by omega)
    cases comes : comesTo nesting index with
    | false =>
      rw [passUpTo_passed placed comes]
      exact old
    | true =>
      have anchored := anchored_passUpTo linked formed (show index ≤ nesting.tokens.size by omega)
      have read := reads_read linked formed anchored (passUpTo nesting index).importing placed
      rw [← passUpTo_read placed comes] at read
      rcases read with left | ⟨-, kept⟩
      · apply curly_of_enters left.enters
        intro f member
        exact old f (((List.dropWhile_sublist _).map _).subset member)
      · exact curly_of_enters kept.enters old

/-- What stands directly between round brackets is not directly in the body of a class. -/
theorem inClassBody_eq_false (linked : nesting.Linked) (formed : nesting.Formed) {index f : Nat}
    (inside : index ≤ nesting.tokens.size) {opener : Token}
    (placed : nesting.tokens[f]? = some opener) (opens : opener.opening? = some .round) {k : Nat}
    (enclosed : nesting.enclosing k = some f) :
    (passUpTo nesting index).symbols.inClassBody nesting k = false := by
  generalize held : (passUpTo nesting index).symbols = symbols
  unfold inClassBody
  split
  · rfl
  next definition current =>
    rw [enclosed, beq_eq_false_iff_ne]
    intro body
    obtain ⟨place, first, there⟩ := Option.bind_eq_some_iff.mp current
    have among : some f ∈ symbols.surroundings.classes := by
      refine List.mem_map.mpr ⟨place, List.mem_of_head? first, ?_⟩
      rw [there, Option.bind_some, body]
    have curly := curly_passUpTo linked formed inside f (held ▸ among)
    simp [placed, opens] at curly

end Symbols

end CursorContext
