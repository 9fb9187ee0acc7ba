import CursorContext.Proofs.Nesting.Renamed
import CursorContext.Proofs.Symbols.HeaderList
import CursorContext.Proofs.Symbols.Surroundings

/-!
Reading with another name of a member. The name stands between an operator and a bracket, and at no
other place does the pass look at a word that stands so. What is read as a whole, such as a header, a
list of parameters or a group of imports, stays the same if the name does not stand inside it: it is
read after the name, or the pass goes on before the name (`clear`).
-/
namespace CursorContext.Symbols

open Nesting (Renamed)

variable {nesting other : Nesting} {index : Nat} {name twin : Token} {symbols : Symbols}

/-! ### What is read by looking ahead -/

theorem plain_of_isOperator {here : Token} {operator : String} (is : here.isOperator [operator] = true)
    (other : operator ∉ Token.memberOperators) : here.isMemberOperator = false := by
  have text : here.text = operator := by
    simp only [Token.isOperator, Bool.and_eq_true, List.contains_iff_mem] at is
    simpa using is.2
  simp [Token.isMemberOperator, Token.isOperator, text, other]

theorem plain_of_isKeyword {here : Token} {words : List String} (keyword : here.isKeyword words = true) :
    here.isMemberOperator = false := by
  simp only [Token.isKeyword, Bool.and_eq_true, beq_iff_eq] at keyword
  simp [Token.isMemberOperator, Token.isOperator, keyword.1]

/-- The type of an assigned expression does not depend on the name of a member. -/
theorem valueClass_renamed (renamed : Renamed nesting other index name twin) {start : Nat}
    (apart : start ≠ index + 1) :
    symbols.valueClass (other.tokens.toList.drop start) =
      symbols.valueClass (nesting.tokens.toList.drop start) := by
  have size := renamed.size
  have creates := renamed.any_eq (p := fun next => next.kind == .keyword && next.text == "new")
    (by rw [renamed.old, renamed.new]; rfl)
  have reaches := renamed.any_eq (p := (·.isOperator ["::"])) (renamed.isOperator _)
  have names := renamed.any_eq (p := (·.kind == .identifier)) (by rw [renamed.kind])
  have calls := renamed.any_eq (p := (·.opening? == some .round)) (by rw [renamed.opening?])
  induction ahead : nesting.tokens.size - start generalizing start with
  | zero => rw [Nesting.drop_tokens_nil (by omega), Nesting.drop_tokens_nil (by omega)]
  | succ ahead ih =>
    have placed := Array.getElem?_eq_getElem (show start < nesting.tokens.size by omega)
    have placed' := renamed.getElem?_of_ne apart
    rw [placed] at placed'
    generalize nesting.tokens[start] = token at placed placed'
    rw [Nesting.drop_tokens placed, Nesting.drop_tokens placed', valueClass_cons, valueClass_cons]
    simp only [List.drop_drop, Nesting.head?_drop_tokens, creates, reaches, names, calls]
    split
    next creation =>
      -- The word that creates an object is no name, so the next token is not the name.
      refine ih ?_ (by omega)
      intro here
      have next := (Bool.and_eq_true_iff.mp creation).2
      simp [here, renamed.placed, renamed.old] at next
    · split
      next creates' =>
        rw [renamed.getElem?_of_ne (renamed.next_ne placed (plain_of_isKeyword creates'))]
      · rfl

theorem inClassBody_renamed (renamed : Renamed nesting other index name twin) (i : Nat) :
    symbols.inClassBody other i = symbols.inClassBody nesting i := by
  simp only [inClassBody, renamed.alike.enclosing]

theorem leave_renamed (renamed : Renamed nesting other index name twin) (i : Nat)
    {here there : Token} (separates : there.isOperator [",", ";"] = here.isOperator [",", ";"]) :
    symbols.leave other i there = symbols.leave nesting i here := by
  have ends : bodyEnds other i = bodyEnds nesting i := by
    funext body
    simp only [bodyEnds, renamed.alike.closeOf Frame.isView_bare]
  have scopes : scopeEnds other i there = scopeEnds nesting i here := by
    funext scope
    simp only [scopeEnds, ends, separates, renamed.alike.enclosing]
  have classes : symbols.classEnds other i = symbols.classEnds nesting i := by
    funext place
    simp only [classEnds, ends]
  simp only [Symbols.leave, ends, scopes, classes]

variable {i : Nat} {here : Token}

/-! ### The neighbours -/

theorem nextIs_renamed (renamed : Renamed nesting other index name twin)
    (placed : nesting.tokens[i]? = some here) (plain : here.isMemberOperator = false)
    (p : Token → Bool) :
    (other.placeAt i here).nextIs p = (nesting.placeAt i here).nextIs p := by
  rw [Nesting.nextIs_placeAt, Nesting.nextIs_placeAt,
    renamed.getElem?_of_ne (renamed.next_ne placed plain)]

theorem previousIs_renamed (renamed : Renamed nesting other index name twin)
    (placed : nesting.tokens[i]? = some here) (apart : i ≠ index + 1) {p : Token → Bool}
    (blind : p twin = p name) :
    (other.placeAt i here).previousIs p = (nesting.placeAt i here).previousIs p := by
  have placed' := (renamed.getElem?_of_ne apart).trans placed
  rw [Nesting.previousIs_placeAt placed, Nesting.previousIs_placeAt placed',
    renamed.any_tokenBefore blind]

/-! ### Declarations -/

theorem enterNamespace_renamed (renamed : Renamed nesting other index name twin)
    (placed : nesting.tokens[i]? = some here) (plain : here.isMemberOperator = false) :
    enterNamespace (other.placeAt i here) symbols =
      enterNamespace (nesting.placeAt i here) symbols := by
  simp only [enterNamespace, Nesting.after_placeAt, Nesting.head?_drop_tokens,
    renamed.getElem?_of_ne (renamed.next_ne placed plain), Nesting.index_placeAt]

theorem beginImport_renamed (renamed : Renamed nesting other index name twin)
    (placed : nesting.tokens[i]? = some here) (plain : here.isMemberOperator = false) :
    beginImport other (other.placeAt i here) symbols =
      beginImport nesting (nesting.placeAt i here) symbols := by
  have length := renamed.length_takeWhile (p := (!·.isOperator [";"]))
    (by rw [renamed.isOperator]) (i + 1)
  unfold beginImport
  rw [Nesting.index_placeAt, Nesting.index_placeAt, inClassBody_renamed renamed,
    nextIs_renamed renamed placed plain, nextIs_renamed renamed placed plain,
    Nesting.after_placeAt, length]
  rfl

theorem readClass_renamed (renamed : Renamed nesting other index name twin)
    (placed : nesting.tokens[i]? = some here) (apart : i ≠ index + 1)
    (plain : here.isMemberOperator = false)
    (clear : index + 1 < i ∨ (readClass (nesting.placeAt i here) symbols).resume ≤ index + 1) :
    readClass (other.placeAt i here) symbols = readClass (nesting.placeAt i here) symbols := by
  have notNext := renamed.next_ne placed plain
  have created := previousIs_renamed renamed placed apart (p := (·.isKeyword ["new"]))
    (renamed.isKeyword _)
  have blind : (!endsHeader twin) = (!endsHeader name) := by
    simp only [endsHeader, renamed.isOperator, renamed.kind]
  have opens := renamed.any_eq (p := (·.opening? == some .curly)) (by rw [renamed.opening?])
  cases next : nesting.tokens[i + 1]? with
  | none =>
    have beyond : nesting.tokens.size ≤ i + 1 := by simpa using next
    have beyond' : other.tokens.size ≤ i + 1 := renamed.size ▸ beyond
    simp [readClass, Nesting.drop_tokens_nil beyond, Nesting.drop_tokens_nil beyond']
  | some first =>
    have next' := (renamed.getElem?_of_ne notNext).trans next
    simp only [readClass, Nesting.after_placeAt, Nesting.drop_tokens next,
      Nesting.drop_tokens next', created, Nesting.index_placeAt, head?_dropWhile_drop,
      Array.getElem?_toList] at clear ⊢
    split
    · rfl
    next named =>
      rw [if_neg named] at clear
      -- The header ends before the name or begins after it.
      have header : (other.tokens.toList.drop (i + 2)).takeWhile (!endsHeader ·) =
          (nesting.tokens.toList.drop (i + 2)).takeWhile (!endsHeader ·) := by
        refine renamed.takeWhile_eq blind ?_
        rcases clear with after | stops
        · exact .inl (by omega)
        · refine .inr (Nat.le_trans ?_ stops)
          split
          · exact Nat.le_succ _
          · exact Nat.le_refl _
      simp only [header, opens]

/-- What follows the lists of a header, told by the token after the return type. -/
theorem enterFunction_placeAt (header : FunctionHeader) {later : Nat} (after : i < later) :
    enterFunction nesting (nesting.placeAt i here) symbols header later =
      let start := later + ((nesting.tokens.toList.drop later).takeWhile isReturnType).length
      let bindings := symbols.initialBindings header
      let promoted := symbols.promote header
      if nesting.tokens[start]?.isNone then { symbols, resume := start }
      else if header.arrow && nesting.tokens[start]?.any (·.isOperator ["=>"]) then
        { symbols := promoted.enterScope bindings (.arrow (nesting.enclosing start))
          resume := start + 1 }
      else if nesting.tokens[start]?.any (·.opening? == some .curly) then
        { symbols :=
            { promoted.enterScope bindings (.body start) with
              openFunctions :=
                header.name.toList.map (fun name => ({ name, body := start } : OpenFunction)) ++
                  promoted.openFunctions }
          resume := start + 1 }
      else { symbols := promoted, resume := start } := by
  unfold enterFunction
  rw [Nesting.ahead_placeAt here after]
  have stop := head?_dropWhile_drop isReturnType nesting.tokens.toList later
  rw [Array.getElem?_toList] at stop
  dsimp only
  rw [← stop]
  cases (nesting.tokens.toList.drop later).dropWhile isReturnType <;> rfl

theorem enterFunction_renamed (renamed : Renamed nesting other index name twin)
    (header : FunctionHeader) {later : Nat} (after : i < later) :
    enterFunction other (other.placeAt i here) symbols header later =
      enterFunction nesting (nesting.placeAt i here) symbols header later := by
  have length := renamed.length_takeWhile (p := isReturnType)
    (by simp only [isReturnType, Token.isName, renamed.kind, renamed.isOperator]) later
  have arrow := renamed.any_eq (p := (·.isOperator ["=>"])) (renamed.isOperator _)
  have body := renamed.any_eq (p := (·.opening? == some .curly)) (by rw [renamed.opening?])
  have absent (start : Nat) : other.tokens[start]?.isNone = nesting.tokens[start]?.isNone := by
    rw [Bool.eq_iff_iff, Option.isNone_iff_eq_none, Option.isNone_iff_eq_none,
      Array.getElem?_eq_none_iff, Array.getElem?_eq_none_iff, renamed.size]
  rw [enterFunction_placeAt header after, enterFunction_placeAt header after]
  simp only [length, arrow, body, absent, renamed.alike.enclosing]

/-- The tokens directly in a frame that is read as a whole. -/
theorem directTokens_renamed (renamed : Renamed nesting other index name twin)
    (linked : nesting.Linked) {list close resume : Nat} {frame twinFrame : Frame}
    (found : nesting.frameAt list = some frame) (same : frame.bare = twinFrame.bare)
    (closed : frame.closer = some close) (after : i < list) (upTo : close + 1 ≤ resume)
    (clear : index + 1 < i ∨ resume ≤ index + 1) :
    other.directTokens twinFrame = nesting.directTokens frame := by
  refine renamed.directTokens same ?_
  intro _ inside
  rw [linked.opener found] at inside
  rw [Nesting.endOf, closed, Option.getD_some]
  omega

theorem readCaptures_renamed (renamed : Renamed nesting other index name twin)
    (linked : nesting.Linked) (header : FunctionHeader) {later : Nat} (after : i < later)
    (clear : index + 1 < i ∨
      (readCaptures nesting (nesting.placeAt i here) symbols header later).resume ≤ index + 1) :
    readCaptures other (other.placeAt i here) symbols header later =
      readCaptures nesting (nesting.placeAt i here) symbols header later := by
  have captures := renamed.any_eq (p := (·.isKeyword ["use"])) (renamed.isKeyword _) later
  unfold readCaptures at clear ⊢
  rw [Nesting.ahead_placeAt here after, Nesting.head?_drop_tokens] at clear
  rw [Nesting.ahead_placeAt here after, Nesting.head?_drop_tokens, Nesting.ahead_placeAt here after,
    Nesting.head?_drop_tokens, captures]
  split
  next captured =>
    rw [if_pos captured] at clear
    rcases renamed.frameAt_cases (later + 1) with
      ⟨none, none'⟩ | ⟨frame, twinFrame, found, found', same⟩
    · rw [none, none']
    · rw [found] at clear
      rw [found, found']
      have closer := Frame.closer_of_bare same
      cases closed : frame.closer with
      | none =>
        rw [closed] at closer
        simp only [closed, ← closer]
      | some close =>
        rw [closed] at closer
        simp only [closed, ← closer] at clear ⊢
        have inside := (linked.bounds found closed).1
        rw [directTokens_renamed renamed linked found same closed (by omega)
          (le_resume_enterFunction _ _ _ _) clear]
        exact enterFunction_renamed renamed _ (by omega)
  · exact enterFunction_renamed renamed header after

theorem readFunction_renamed (renamed : Renamed nesting other index name twin)
    (linked : nesting.Linked) (placed : nesting.tokens[i]? = some here)
    (plain : here.isMemberOperator = false)
    (clear : index + 1 < i ∨
      (readFunction nesting (nesting.placeAt i here) symbols).resume ≤ index + 1) :
    readFunction other (other.placeAt i here) symbols =
      readFunction nesting (nesting.placeAt i here) symbols := by
  have head {first : Nat} (after : i < first) (apart : first ≠ index + 1) :
      ((other.placeAt i here).ahead first).head? = ((nesting.placeAt i here).ahead first).head? := by
    rw [Nesting.ahead_placeAt here after, Nesting.ahead_placeAt here after,
      Nesting.head?_drop_tokens, Nesting.head?_drop_tokens, renamed.getElem?_of_ne apart]
  -- The name of a function follows its keyword or an ampersand, and neither leads to a member.
  have first : i < (if (nesting.placeAt i here).nextIs (·.isOperator ["&"]) then i + 2 else i + 1) ∧
      (if (nesting.placeAt i here).nextIs (·.isOperator ["&"]) then i + 2 else i + 1) ≠
        index + 1 := by
    split
    next reference =>
      rw [Nesting.nextIs_placeAt] at reference
      obtain ⟨token, next, operator⟩ := (Option.any_eq_true _ _).mp reference
      exact ⟨by omega, renamed.next_ne next (plain_of_isOperator operator (by decide))⟩
    · exact ⟨by omega, renamed.next_ne placed plain⟩
  unfold readFunction at clear ⊢
  rw [nextIs_renamed renamed placed plain]
  dsimp only [Nesting.index_placeAt, Nesting.here_placeAt] at clear ⊢
  rw [head first.1 first.2]
  generalize (if (nesting.placeAt i here).nextIs (·.isOperator ["&"]) then i + 2 else i + 1) = start
    at first clear ⊢
  generalize (if here.isKeyword ["fn"] then none
    else (((nesting.placeAt i here).ahead start).head?.filter (·.isName)).map (·.text)) = named
    at clear ⊢
  have after : i < if named.isSome then start + 1 else start := by split <;> omega
  generalize (if named.isSome then start + 1 else start) = list at after clear ⊢
  rcases renamed.frameAt_mark_cases list Bracket.round.opening with
    ⟨none, none'⟩ | ⟨frame, twinFrame, filtered, filtered', found, same⟩
  · rw [none, none']
  · rw [filtered] at clear
    rw [filtered, filtered']
    have closer := Frame.closer_of_bare same
    cases closed : frame.closer with
    | none =>
      rw [closed] at closer
      simp only [closed, ← closer]
    | some close =>
      rw [closed] at closer
      simp only [closed, ← closer] at clear ⊢
      have inside := (linked.bounds found closed).1
      rw [parameters, directTokens_renamed renamed linked found same closed after
        (le_resume_readCaptures linked _ _ _ _) clear]
      exact readCaptures_renamed renamed linked _ (by omega) clear

theorem importGroup_renamed (renamed : Renamed nesting other index name twin)
    (linked : nesting.Linked) (placed : nesting.tokens[i]? = some here)
    (plain : here.isMemberOperator = false) {group twinGroup : Frame}
    (found : nesting.frameAt (i + 1) = some group) (same : group.bare = twinGroup.bare)
    (clear : index + 1 < i ∨ nesting.endOf group + 1 ≤ index + 1) (imports : Imports) :
    importGroup other (other.placeAt i here) twinGroup imports =
      importGroup nesting (nesting.placeAt i here) group imports := by
  have opener := linked.opener found
  have within := linked.lt_endOf found
  have tokens : (other.tokens.toList.drop (i + 2)).take (nesting.endOf group - (i + 2)) =
      (nesting.tokens.toList.drop (i + 2)).take (nesting.endOf group - (i + 2)) :=
    renamed.take_drop_eq (by omega)
  simp only [importGroup, renamed.endOf same, ← Frame.opener_of_bare same, opener,
    Nesting.ahead_placeAt here (show i < i + 1 + 1 by omega), tokens, Nesting.after_placeAt,
    Nesting.head?_drop_tokens, renamed.getElem?_of_ne (renamed.next_ne placed plain),
    Nesting.here_placeAt]

/-- The short name after `as` is no name of a member. -/
theorem givenName?_renamed (renamed : Renamed nesting other index name twin)
    (placed : nesting.tokens[i]? = some here) (plain : here.isMemberOperator = false) :
    givenName? (other.tokens.toList.drop (i + 1)) =
      givenName? (nesting.tokens.toList.drop (i + 1)) := by
  rw [givenName?_eq, givenName?_eq]
  simp only [List.drop_drop, Nesting.head?_drop_tokens]
  rw [renamed.getElem?_of_ne (renamed.next_ne placed plain)]
  split
  next renames =>
    obtain ⟨word, next, keyword⟩ := (Option.any_eq_true _ _).mp renames
    rw [renamed.getElem?_of_ne (renamed.next_ne next (plain_of_isKeyword keyword))]
  · rfl

theorem importName_renamed (renamed : Renamed nesting other index name twin)
    (linked : nesting.Linked) (placed : nesting.tokens[i]? = some here)
    (plain : here.isMemberOperator = false)
    (clear : index + 1 < i ∨
      (importName nesting (nesting.placeAt i here) symbols).resume ≤ index + 1) :
    importName other (other.placeAt i here) symbols =
      importName nesting (nesting.placeAt i here) symbols := by
  unfold importName at clear ⊢
  dsimp only [Nesting.index_placeAt, Nesting.here_placeAt, Nesting.after_placeAt] at clear ⊢
  rw [givenName?_renamed renamed placed plain]
  rcases renamed.frameAt_mark_cases (i + 1) Bracket.curly.opening with
    ⟨none, none'⟩ | ⟨group, twinGroup, filtered, filtered', found, same⟩
  · rw [none, none']
  · rw [filtered] at clear
    rw [filtered, filtered']
    dsimp only at clear ⊢
    rw [importGroup_renamed renamed linked placed plain found same clear, renamed.endOf same]

/-! ### Variables and handlers -/

theorem takeWhile_append_stop {α : Type} {p : α → Bool} {x : α} (stops : p x = false)
    (front back : List α) : (front ++ x :: back).takeWhile p = front.takeWhile p := by
  induction front with
  | nil => simp [stops]
  | cons y front ih => cases holds : p y <;> simp [holds, ih]

/-- Going back from a place after the name, a run of tokens ends at the bracket at the latest. -/
theorem takeWhile_before_renamed (renamed : Renamed nesting other index name twin)
    (apart : i ≠ index + 2) {p : Token → Bool}
    (stops : ∀ token, token.opening? = some .round → p token = false) :
    (other.placeAt i here).before.takeWhile p = (nesting.placeAt i here).before.takeWhile p := by
  by_cases upTo : i ≤ index + 1
  · simp only [Nesting.placeAt, renamed.tokens, List.take_set_of_le upTo]
  · -- The bracket stands between the place and the name.
    obtain ⟨list, after, calls⟩ := (Option.any_eq_true _ _).mp renamed.list
    have split {nesting : Nesting} (placed : nesting.tokens[index + 2]? = some list) :
        nesting.tokens.toList.take i = nesting.tokens.toList.take (index + 2) ++
          list :: (nesting.tokens.toList.drop (index + 3)).take (i - (index + 3)) := by
      rw [show i = index + 2 + (i - (index + 3) + 1) by omega, List.take_add,
        Nesting.drop_tokens placed, List.take_succ_cons]
      congr 4
      omega
    have after' := (renamed.getElem?_of_ne (by omega)).trans after
    have ends := stops list (by simpa using calls)
    simp only [Nesting.placeAt, split after, split after', List.reverse_append, List.reverse_cons,
      List.append_assoc, List.singleton_append, takeWhile_append_stop ends,
      renamed.drop_eq (show index + 1 < index + 3 by omega)]

theorem declareProperty_renamed (renamed : Renamed nesting other index name twin)
    (apart : i ≠ index + 2) :
    declareProperty (other.placeAt i here) symbols =
      declareProperty (nesting.placeAt i here) symbols := by
  unfold declareProperty
  rw [takeWhile_before_renamed renamed apart]
  · rfl
  · intro token opens
    have kind : token.kind = .opener := by
      by_contra other
      simp [Token.opening?, other] at opens
    simp [Token.isName, Token.isOperator, kind]

/-- The property that is assigned to, and the type it gets. -/
theorem assignedProperty?_renamed (renamed : Renamed nesting other index name twin)
    (symbols : Symbols) (i : Nat) :
    (assignedProperty? (other.tokens.toList.drop (i + 1))).map
        (Prod.map id symbols.valueClass) =
      (assignedProperty? (nesting.tokens.toList.drop (i + 1))).map
        (Prod.map id symbols.valueClass) := by
  have reaches := renamed.any_eq (p := (·.isOperator ["->"])) (renamed.isOperator _)
  have assigns := renamed.any_eq (p := (·.isOperator ["="])) (renamed.isOperator _)
  rw [assignedProperty?_eq, assignedProperty?_eq]
  simp only [List.drop_drop, Nesting.head?_drop_tokens, reaches, assigns]
  split
  next assigned =>
    obtain ⟨equals, placed, operator⟩ :=
      (Option.any_eq_true _ _).mp (Bool.and_eq_true_iff.mp assigned).2
    -- A bracket follows the name, and not the sign of an assignment.
    have notName : i + 1 + 1 ≠ index + 1 := by
      intro here
      have list := renamed.list
      rw [show index + 2 = i + 1 + 2 by omega, placed] at list
      simp only [Token.isOperator, Bool.and_eq_true, beq_iff_eq] at operator
      simp [Token.opening?, operator.1] at list
    have notValue : i + 1 + 3 ≠ index + 1 :=
      renamed.next_ne placed (plain_of_isOperator operator (by decide))
    simp only [renamed.getElem?_of_ne notName, Option.map_map, Function.comp_def, Prod.map,
      valueClass_renamed renamed notValue]
  · rfl

theorem readLocal_renamed (renamed : Renamed nesting other index name twin)
    (placed : nesting.tokens[i]? = some here) (apart : i ≠ index + 1)
    (plain : here.isMemberOperator = false) :
    readLocal (other.placeAt i here) symbols = readLocal (nesting.placeAt i here) symbols := by
  have loops := previousIs_renamed renamed placed apart (p := (·.isKeyword ["as"]))
    (renamed.isKeyword _)
  unfold readLocal
  rw [nextIs_renamed renamed placed plain, loops]
  split
  next assigned =>
    rw [Nesting.nextIs_placeAt] at assigned
    obtain ⟨equals, next, operator⟩ := (Option.any_eq_true _ _).mp assigned
    have notValue := renamed.next_ne next (plain_of_isOperator operator (by decide))
    simp only [Nesting.here_placeAt, Nesting.after_placeAt, List.drop_drop,
      valueClass_renamed renamed notValue]
  · rfl

theorem readVariable_renamed (renamed : Renamed nesting other index name twin)
    (placed : nesting.tokens[i]? = some here) (apart : i ≠ index + 1)
    (kind : here.kind = .variable) :
    readVariable other (other.placeAt i here) symbols =
      readVariable nesting (nesting.placeAt i here) symbols := by
  have plain : here.isMemberOperator = false := by
    simp [Token.isMemberOperator, Token.isOperator, kind]
  have notList : i ≠ index + 2 := by
    rintro rfl
    have list := renamed.list
    simp [placed, Token.opening?, kind] at list
  have member := previousIs_renamed renamed placed apart (p := (·.isMemberOperator))
    (renamed.isOperator _)
  unfold readVariable
  rw [member, Nesting.index_placeAt, Nesting.index_placeAt, inClassBody_renamed renamed]
  split
  · rfl
  · split
    · exact declareProperty_renamed renamed notList
    · -- Of what is assigned only the type is kept.
      have assigned := assignedProperty?_renamed renamed symbols i
      have otherwise : readLocal (other.placeAt i here) symbols =
          readLocal (nesting.placeAt i here) symbols :=
        readLocal_renamed renamed placed apart plain
      rw [Nesting.here_placeAt, Nesting.here_placeAt, Nesting.after_placeAt, Nesting.after_placeAt]
      generalize assignedProperty? (other.tokens.toList.drop (i + 1)) = property' at assigned
      generalize assignedProperty? (nesting.tokens.toList.drop (i + 1)) = property at assigned
      by_cases itself : (here.text == "$this") = true
      · rw [if_pos itself, if_pos itself]
        rcases property with _ | ⟨member, value⟩
        · rw [Option.map_eq_none_iff.mp assigned]
          exact otherwise
        · obtain ⟨⟨member', value'⟩, rfl, same⟩ := Option.map_eq_some_iff.mp assigned
          obtain ⟨rfl, type⟩ := Prod.mk.inj same
          dsimp only [id_eq]
          rw [type]
      · rw [if_neg itself, if_neg itself]
        exact otherwise

theorem readHandler_renamed (renamed : Renamed nesting other index name twin)
    (linked : nesting.Linked) (here there : Token)
    (outside : i < index → nesting.enclosing (index + 1) ≠ some (i + 1)) :
    readHandler other (other.placeAt i there) symbols =
      readHandler nesting (nesting.placeAt i here) symbols := by
  unfold readHandler
  dsimp only [Nesting.index_placeAt]
  rcases renamed.frameAt_cases (i + 1) with ⟨none, none'⟩ | ⟨frame, twinFrame, found, found', same⟩
  · rw [none, none']
  · have opener := linked.opener found
    have tokens : other.directTokens twinFrame = nesting.directTokens frame := by
      refine renamed.directTokens same ?_
      intro around before
      rw [opener] at around before
      exact absurd around (outside (by omega))
    rw [found, found']
    dsimp only
    rw [tokens]

/-! ### The pass -/

theorem readKeyword_renamed (renamed : Renamed nesting other index name twin)
    (linked : nesting.Linked) (placed : nesting.tokens[i]? = some here) (apart : i ≠ index + 1)
    (keyword : here.kind = .keyword)
    (clear : index + 1 < i ∨
      (readKeyword nesting (nesting.placeAt i here) symbols).resume ≤ index + 1) :
    readKeyword other (other.placeAt i here) symbols =
      readKeyword nesting (nesting.placeAt i here) symbols := by
  have plain : here.isMemberOperator = false := by
    simp [Token.isMemberOperator, Token.isOperator, keyword]
  unfold readKeyword at clear ⊢
  rw [Nesting.here_placeAt] at clear
  rw [Nesting.here_placeAt, Nesting.here_placeAt]
  dsimp only at clear ⊢
  split
  · exact enterNamespace_renamed renamed placed plain
  next notNamespace =>
    rw [if_neg notNamespace] at clear
    split
    · exact beginImport_renamed renamed placed plain
    next notImport =>
      rw [if_neg notImport] at clear
      split
      next declares =>
        rw [if_pos declares] at clear
        exact readClass_renamed renamed placed apart plain clear
      next notClass =>
        rw [if_neg notClass] at clear
        split
        next declares =>
          rw [if_pos declares] at clear
          exact readFunction_renamed renamed linked placed plain clear
        · rfl

theorem readStatement_renamed (renamed : Renamed nesting other index name twin)
    (linked : nesting.Linked) (placed : nesting.tokens[i]? = some here) (apart : i ≠ index + 1)
    (outside : inHandlerList nesting (index + 1) = false)
    (clear : index + 1 < i ∨
      (readStatement nesting (nesting.placeAt i here) symbols).resume ≤ index + 1) :
    readStatement other (other.placeAt i here) symbols =
      readStatement nesting (nesting.placeAt i here) symbols := by
  unfold readStatement at clear ⊢
  have left : symbols.leave other (other.placeAt i here).index (other.placeAt i here).here =
      symbols.leave nesting (nesting.placeAt i here).index (nesting.placeAt i here).here :=
    leave_renamed renamed i rfl
  rw [left]
  generalize symbols.leave nesting (nesting.placeAt i here).index (nesting.placeAt i here).here =
    rest at clear
  dsimp only
  rw [Nesting.here_placeAt] at clear
  rw [Nesting.here_placeAt, Nesting.here_placeAt]
  cases kind : here.kind with
  | keyword =>
    rw [kind] at clear
    exact readKeyword_renamed renamed linked placed apart kind clear
  | identifier =>
    dsimp only [Nesting.index_placeAt]
    split
    next catches =>
      -- The name stands in no list of a handler, and so not in this one.
      rw [readHandler_renamed renamed linked here here]
      intro before around
      simp [inHandlerList, around, Nesting.tokenBefore, placed, kind] at outside
      simp [outside] at catches
    · rfl
  | «variable» =>
    dsimp only [Nesting.index_placeAt]
    rw [readVariable_renamed renamed placed apart kind]
  | _ => rfl

theorem read_renamed (renamed : Renamed nesting other index name twin)
    (linked : nesting.Linked) (placed : nesting.tokens[i]? = some here) (apart : i ≠ index + 1)
    (outside : inHandlerList nesting (index + 1) = false) (importing : Bool)
    (clear : index + 1 < i ∨
      (read nesting importing (nesting.placeAt i here) symbols).resume ≤ index + 1) :
    read other importing (other.placeAt i here) symbols =
      read nesting importing (nesting.placeAt i here) symbols := by
  cases importing with
  | false => exact readStatement_renamed renamed linked placed apart outside clear
  | true =>
    unfold read readImport at clear ⊢
    rw [if_pos rfl, Nesting.here_placeAt] at clear
    rw [if_pos rfl, if_pos rfl, Nesting.here_placeAt, Nesting.here_placeAt]
    split
    · rfl
    next goesOn =>
      rw [if_neg goesOn] at clear
      split
      next names =>
        rw [if_pos names] at clear
        have plain : here.isMemberOperator = false := by
          simp [Token.isMemberOperator, Token.isOperator, eq_of_beq names]
        exact importName_renamed renamed linked placed plain clear
      next names =>
        rw [if_neg names] at clear
        split
        · rfl
        next separates =>
          rw [if_neg separates] at clear
          exact readStatement_renamed renamed linked placed apart outside clear

/-- The name itself is read as any other one, unless it is the word for a handler. -/
theorem readStatement_name (renamed : Renamed nesting other index name twin)
    (linked : nesting.Linked)
    (same : Text.lower twin.text = "catch" ↔ Text.lower name.text = "catch") :
    readStatement other (other.placeAt (index + 1) twin) symbols =
      readStatement nesting (nesting.placeAt (index + 1) name) symbols := by
  have left : symbols.leave other (index + 1) twin = symbols.leave nesting (index + 1) name :=
    leave_renamed renamed (index + 1) (renamed.isOperator _)
  have handler : readHandler other (other.placeAt (index + 1) twin)
        (symbols.leave nesting (index + 1) name) =
      readHandler nesting (nesting.placeAt (index + 1) name)
        (symbols.leave nesting (index + 1) name) :=
    readHandler_renamed renamed linked name twin (by omega)
  unfold readStatement
  rw [Nesting.index_placeAt, Nesting.index_placeAt, Nesting.here_placeAt, Nesting.here_placeAt]
  dsimp only
  rw [left, renamed.old, renamed.new]
  dsimp only
  rw [handler]
  by_cases catches : Text.lower name.text = "catch"
  · rw [if_pos (by simpa using same.mpr catches), if_pos (by simpa using catches)]
  · have catches' : ¬ Text.lower twin.text = "catch" := fun word => catches (same.mp word)
    rw [if_neg (by simpa using catches'), if_neg (by simpa using catches)]

end CursorContext.Symbols
