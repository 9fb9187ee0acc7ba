import CursorContext.Proofs.Checked.Declaration

/-!
The checked pass over the tokens. It is a loop over indexes, inside which the list of an import is a
loop of its own, and each round has to go forward. It ends with the symbols of the nesting.
-/
namespace CursorContext

namespace Checked

open Symbols (Anchored outcome)

variable {nesting : Nesting} {symbols : Symbols} {index : Nat} {here : Token}

/-! ### Variables -/

/-- Whether the three tokens from `index` on are there and satisfy `p`, `q` and `r`. -/
def hasThree (nesting : Nesting) (index : Nat) (p q r : Token → Bool) : Except Fault Bool := do
  return (← hasAt nesting index p) && (← hasAt nesting (index + 1) q) &&
    (← hasAt nesting (index + 2) r)

theorem hasThree_eq (nesting : Nesting) (index : Nat) (p q r : Token → Bool) :
    hasThree nesting index p q r = .ok
      (match nesting.tokens.toList.drop index with
      | first :: second :: third :: _ => p first && q second && r third
      | _ => false) := by
  have here (ahead : Nat) : nesting.tokens[index + ahead]? =
      (nesting.tokens.toList.drop index)[ahead]? := by
    rw [List.getElem?_drop, Array.getElem?_toList]
  rw [hasThree, hasAt_eq, hasAt_eq, hasAt_eq, ← Nesting.head?_drop_tokens nesting index, here 1,
    here 2]
  match nesting.tokens.toList.drop index with
  | [] => rfl
  | [_] => simp
  | [_, _] => simp
  | _ :: _ :: _ :: _ => simp

/-- The type of the expression assigned from `index` on. -/
def valueClass (symbols : Symbols) (nesting : Nesting) (index : Nat) :
    Except Fault (Option ClassRef) :=
  if index < nesting.tokens.size then do
    let token ← tokenAt nesting index
    if token.opening? == some .round &&
        (← hasAt nesting (index + 1) fun next => next.kind == .keyword && next.text == "new") then
      valueClass symbols nesting (index + 1)
    else if token.isKeyword ["new"] then
      if ← hasAt nesting (index + 1) (·.kind == .identifier) then
        return symbols.resolve (← tokenAt nesting (index + 1)).text
      else return none
    else if token.kind == .identifier &&
        (← hasThree nesting (index + 1) (·.isOperator ["::"]) (·.kind == .identifier)
          (·.opening? == some .round)) then
      return symbols.resolve token.text
    else return none
  else return none
termination_by nesting.tokens.size - index

theorem valueClass_eq (symbols : Symbols) (nesting : Nesting) (index : Nat) :
    valueClass symbols nesting index =
      .ok (symbols.valueClass (nesting.tokens.toList.drop index)) := by
  fun_induction valueClass symbols nesting index with
  | case1 index inside ih =>
    obtain ⟨token, there, taken⟩ := tokenAt_lt inside
    rw [Nesting.drop_tokens there, Symbols.valueClass.eq_def]
    simp only [taken, ok_bind, hasAt_eq, hasThree_eq, ih, Nesting.head?_drop_tokens]
    split
    · rfl
    · split
      · cases next : nesting.tokens[index + 1]? with
        | none => rfl
        | some name =>
          simp only [Option.any_some, tokenAt_eq next, ok_bind, Option.filter_some]
          split <;> rfl
      · rcases nesting.tokens.toList.drop (index + 1) with
          _ | ⟨access, _ | ⟨method, _ | ⟨list, rest⟩⟩⟩
        · simp
        · simp
        · simp
        · simp only [Bool.and_assoc]
          split <;> rfl
  | case2 index beyond =>
    rw [Nesting.drop_tokens_nil (Nat.le_of_not_lt beyond)]
    rfl

/-- Declares the property at a place, if modifiers say that it is one. -/
def declareProperty (nesting : Nesting) (index : Nat) (here : Token) (symbols : Symbols) :
    Except Fault Symbols := do
  let front ← readBack nesting (fun token => token.isName || token.isOperator ["?", "|", "&"]) index
  let names := front.filter (·.isName)
  if names.any Symbols.isModifier then
    return symbols.setProperty (String.ofList (here.text.toList.drop 1))
      (symbols.soleClass ((names.filter (!Symbols.isModifier ·)).reverse.map (·.text)))
  else return symbols

theorem declareProperty_eq (inside : index ≤ nesting.tokens.size) (here : Token)
    (symbols : Symbols) :
    declareProperty nesting index here symbols =
      .ok (Symbols.declareProperty (nesting.placeAt index here) symbols) := by
  rw [declareProperty, readBack_eq nesting _ index inside, ok_bind]
  unfold Symbols.declareProperty
  dsimp only [Nesting.placeAt]
  split <;> rfl

/-- Binds a variable that is assigned, or that a loop gives a value of unknown type. -/
def readLocal (nesting : Nesting) (index : Nat) (here : Token) (symbols : Symbols) :
    Except Fault Symbols := do
  if ← hasAt nesting (index + 1) (·.isOperator ["="]) then
    return symbols.bind here.text (← valueClass symbols nesting (index + 2))
  else if ← hasBefore nesting index (·.isKeyword ["as"]) then return symbols.bind here.text none
  else return symbols

theorem readLocal_eq (there : nesting.tokens[index]? = some here) (symbols : Symbols) :
    readLocal nesting index here symbols =
      .ok (Symbols.readLocal (nesting.placeAt index here) symbols) := by
  rw [readLocal, hasAt_next here, hasBefore_eq there, valueClass_eq]
  unfold Symbols.readLocal
  rw [Nesting.after_placeAt, List.drop_drop]
  simp only [ok_bind]
  split
  · rfl
  · split <;> rfl

/-- Reads the variable at `index`. -/
def readVariable (nesting : Nesting) (index : Nat) (here : Token) (symbols : Symbols) :
    Except Fault Symbols := do
  if ← hasBefore nesting index (·.isMemberOperator) then return symbols
  else if ← inClassBody symbols nesting index then declareProperty nesting index here symbols
  else if here.text == "$this" &&
      (← hasThree nesting (index + 1) (·.isOperator ["->"]) (·.kind == .identifier)
        (·.isOperator ["="])) then
    let name ← tokenAt nesting (index + 2)
    return symbols.setProperty name.text (← valueClass symbols nesting (index + 4))
  else readLocal nesting index here symbols

theorem readVariable_eq (linked : nesting.Linked) (anchored : Anchored nesting symbols)
    (there : nesting.tokens[index]? = some here) :
    readVariable nesting index here symbols =
      .ok (Symbols.readVariable nesting (nesting.placeAt index here) symbols) := by
  obtain ⟨inside, -⟩ := Array.getElem?_eq_some_iff.mp there
  unfold readVariable Symbols.readVariable
  rw [hasBefore_eq there, inClassBody_eq linked anchored inside, hasThree_eq, Nesting.index_placeAt,
    Nesting.after_placeAt, Nesting.here_placeAt]
  simp only [ok_bind, declareProperty_eq (Nat.le_of_lt inside), readLocal_eq there]
  split
  · rfl
  · split
    · rfl
    · match ahead : nesting.tokens.toList.drop (index + 1) with
      | access :: name :: equals :: rest =>
        have second : nesting.tokens[index + 2]? = some name := by
          have found := congrArg (·[1]?) ahead
          simpa using found
        have value : rest = nesting.tokens.toList.drop (index + 4) := by
          have later := congrArg (List.drop 3) ahead
          simpa using later.symm
        simp only [Symbols.assignedProperty?, tokenAt_eq second, ok_bind, valueClass_eq, ← value]
        cases here.text == "$this" with
        | false => rfl
        | true =>
          simp only [Bool.true_and, if_true]
          split <;> rfl
      | [] => simp [Symbols.assignedProperty?]
      | [_] => simp [Symbols.assignedProperty?]
      | [_, _] => simp [Symbols.assignedProperty?]

/-- Binds the variable of a handler to the first class it catches. -/
def readHandler (nesting : Nesting) (index : Nat) (symbols : Symbols) : Except Fault Symbols :=
  match nesting.frameAt (index + 1) with
  | none => return symbols
  | some frame => do
    let tokens ← directTokens nesting frame
    match tokens.find? (·.kind == .variable) with
    | none => return symbols
    | some token =>
      let types := (tokens.takeWhile (·.kind != .variable)).filter (·.kind == .identifier)
      return symbols.bind token.text (symbols.soleClass ((types.take 1).map (·.text)))

theorem readHandler_eq (linked : nesting.Linked) (symbols : Symbols) (index : Nat) (here : Token) :
    readHandler nesting index symbols =
      .ok (Symbols.readHandler nesting (nesting.placeAt index here) symbols) := by
  unfold readHandler Symbols.readHandler
  rw [Nesting.index_placeAt]
  cases found : nesting.frameAt (index + 1) with
  | none => rfl
  | some frame =>
    dsimp only
    rw [directTokens_eq linked found, ok_bind]
    cases (nesting.directTokens frame).find? (·.kind == .variable) <;> rfl

/-! ### The pass -/

def readKeyword (nesting : Nesting) (index : Nat) (here : Token) (symbols : Symbols) :
    Except Fault Pass :=
  let word := Text.lower here.text
  if word == "namespace" then enterNamespace nesting index symbols
  else if word == "use" then beginImport nesting index symbols
  else if ["class", "interface", "trait", "enum"].contains word then readClass nesting index symbols
  else if ["function", "fn"].contains word then readFunction nesting index symbols
  else return { symbols, resume := index + 1 }

theorem readKeyword_eq (linked : nesting.Linked) (formed : nesting.Formed)
    (anchored : Anchored nesting symbols) (there : nesting.tokens[index]? = some here) :
    readKeyword nesting index here symbols =
      .ok (Symbols.readKeyword nesting (nesting.placeAt index here) symbols) := by
  obtain ⟨inside, -⟩ := Array.getElem?_eq_some_iff.mp there
  rw [readKeyword, enterNamespace_eq symbols index here,
    beginImport_eq linked anchored inside here, readClass_eq linked formed symbols there,
    readFunction_eq linked formed symbols there]
  unfold Symbols.readKeyword
  rw [Nesting.index_placeAt, Nesting.here_placeAt]
  dsimp only
  split
  · rfl
  · split
    · rfl
    · split
      · rfl
      · split <;> rfl

/-- Reads what begins at `index`, after leaving what ends there. -/
def readStatement (nesting : Nesting) (index : Nat) (symbols : Symbols) : Except Fault Pass := do
  let here ← tokenAt nesting index
  let symbols ← leave symbols nesting index here
  match here.kind with
  | .keyword => readKeyword nesting index here symbols
  | .identifier =>
    if Text.lower here.text == "catch" then
      return { symbols := ← readHandler nesting index symbols, resume := index + 1 }
    else return { symbols, resume := index + 1 }
  | .variable =>
    return { symbols := ← readVariable nesting index here symbols, resume := index + 1 }
  | _ => return { symbols, resume := index + 1 }

theorem readStatement_eq (linked : nesting.Linked) (formed : nesting.Formed)
    (anchored : Anchored nesting symbols) (there : nesting.tokens[index]? = some here) :
    readStatement nesting index symbols =
      .ok (Symbols.readStatement nesting (nesting.placeAt index here) symbols) := by
  obtain ⟨inside, -⟩ := Array.getElem?_eq_some_iff.mp there
  have left := anchored.leave index here
  rw [readStatement, tokenAt_eq there, ok_bind, leave_eq linked anchored inside, ok_bind]
  unfold Symbols.readStatement
  rw [Nesting.index_placeAt, Nesting.here_placeAt]
  dsimp only
  rw [readKeyword_eq linked formed left there, readHandler_eq linked _ index here,
    readVariable_eq linked left there]
  cases here.kind
  case identifier =>
    dsimp only
    split <;> rfl
  all_goals rfl

/-- Goes on with the list of an import statement from `index` on. -/
def importLoop (nesting : Nesting) (symbols : Symbols) (index : Nat) : Except Fault Pass :=
  if index < nesting.tokens.size then do
    let here ← tokenAt nesting index
    if here.isOperator [";"] then return { symbols, resume := index + 1 }
    else if here.kind == .identifier then
      let pass ← importName nesting index here symbols
      if _forward : index < pass.resume then importLoop nesting pass.symbols pass.resume
      else throw (.stuck index)
    else if here.isOperator [","] then importLoop nesting symbols (index + 1)
    else return { symbols, resume := index }
  else return { symbols, resume := index }
termination_by nesting.tokens.size - index

/-- The symbols at the end, from `index` on. -/
def symbolsFrom (nesting : Nesting) (symbols : Symbols) (index : Nat) : Except Fault Symbols :=
  if index < nesting.tokens.size then do
    let read ← readStatement nesting index symbols
    let pass ← if read.importing then importLoop nesting read.symbols read.resume else pure read
    if _forward : index < pass.resume then symbolsFrom nesting pass.symbols pass.resume
    else throw (.stuck index)
  else return symbols
termination_by nesting.tokens.size - index

theorem importing_importName (nesting : Nesting) (place : Place) (symbols : Symbols) :
    (Symbols.importName nesting place symbols).importing = true := by
  unfold Symbols.importName
  dsimp only
  split <;> rfl

/-- The list of an import statement ends where reading goes on as usual. -/
theorem importLoop_eq (linked : nesting.Linked) (anchored : Anchored nesting symbols)
    (index : Nat) :
    ∃ pass, importLoop nesting symbols index = .ok pass ∧ index ≤ pass.resume ∧
      pass.importing = false ∧ Anchored nesting pass.symbols ∧
      outcome nesting { symbols, resume := index, importing := true } = outcome nesting pass := by
  induction ahead : nesting.tokens.size - index using Nat.strongRecOn
    generalizing symbols index with
  | ind remaining ih =>
    rw [importLoop]
    split
    next inside =>
      obtain ⟨here, there, taken⟩ := tokenAt_lt inside
      -- Both sides take one round; what is left to compare starts further on.
      have step : outcome nesting { symbols, resume := index, importing := true } =
          outcome nesting (Symbols.readImport nesting (nesting.placeAt index here) symbols) :=
        Symbols.outcome_read linked { symbols, resume := index, importing := true } there
      rw [taken, ok_bind, step]
      unfold Symbols.readImport
      rw [Nesting.here_placeAt, Nesting.index_placeAt]
      split
      · exact ⟨_, rfl, Nat.le_succ _, rfl, anchored, rfl⟩
      · split
        next identifier =>
          have forward : index < (Symbols.importName nesting (nesting.placeAt index here)
              symbols).resume := Symbols.lt_resume_importName linked (nesting.placeAt index here) symbols
          have importing := importing_importName nesting (nesting.placeAt index here) symbols
          have kept := anchored.importName (nesting.placeAt index here)
          rw [importName_eq linked symbols index here, ok_bind]
          generalize Symbols.importName nesting (nesting.placeAt index here) symbols = next at *
          rw [dif_pos forward]
          obtain ⟨pass, runs, later, ends, sound, same⟩ :=
            ih (nesting.tokens.size - next.resume) (by omega) kept next.resume rfl
          refine ⟨pass, runs, by omega, ends, sound, ?_⟩
          rw [← same, ← importing]
        next other =>
          split
          · obtain ⟨pass, runs, later, rest⟩ :=
              ih (nesting.tokens.size - (index + 1)) (by omega) anchored (index + 1) rfl
            exact ⟨pass, runs, by omega, rest⟩
          · -- What does not belong to the list is read again, as the beginning of a statement.
            refine ⟨_, rfl, Nat.le_refl _, rfl, anchored, ?_⟩
            exact (Symbols.outcome_read linked { symbols, resume := index } there).symm
    next beyond =>
      have past := Nat.le_of_not_lt beyond
      refine ⟨_, rfl, Nat.le_refl _, rfl, anchored, ?_⟩
      rw [Symbols.outcome_beyond _ past, Symbols.outcome_beyond _ past]

theorem symbolsFrom_eq (linked : nesting.Linked) (formed : nesting.Formed)
    (anchored : Anchored nesting symbols) (index : Nat) :
    symbolsFrom nesting symbols index = .ok (outcome nesting { symbols, resume := index }) := by
  induction ahead : nesting.tokens.size - index using Nat.strongRecOn
    generalizing symbols index with
  | ind remaining ih =>
    rw [symbolsFrom]
    split
    next inside =>
      obtain ⟨here, there, -⟩ := tokenAt_lt inside
      have step : outcome nesting { symbols, resume := index } =
          outcome nesting (Symbols.readStatement nesting (nesting.placeAt index here) symbols) :=
        Symbols.outcome_read linked { symbols, resume := index } there
      have forward : index < (Symbols.readStatement nesting (nesting.placeAt index here)
          symbols).resume := Symbols.lt_resume_readStatement linked (nesting.placeAt index here) symbols
      have kept := anchored.readStatement linked formed index here
      rw [readStatement_eq linked formed anchored there, ok_bind, step]
      generalize Symbols.readStatement nesting (nesting.placeAt index here) symbols = next at *
      cases importing : next.importing with
      | false =>
        have rest := ih (nesting.tokens.size - next.resume) (by omega) kept next.resume rfl
        simp only [Bool.false_eq_true, if_false, pure_eq_ok, ok_bind, forward, dite_true, rest]
        rw [← importing]
      | true =>
        obtain ⟨pass, runs, later, ends, sound, same⟩ := importLoop_eq linked kept next.resume
        have rest := ih (nesting.tokens.size - pass.resume) (by omega) sound pass.resume rfl
        have further : index < pass.resume := by omega
        simp only [if_true, runs, ok_bind, further, dite_true, rest]
        rw [← ends, ← same, ← importing]
    next beyond =>
      rw [Symbols.outcome_beyond _ (Nat.le_of_not_lt beyond)]
      rfl

theorem symbolsFrom_start (linked : nesting.Linked) (formed : nesting.Formed) :
    symbolsFrom nesting {} 0 = .ok (.ofNesting nesting) := by
  rw [Symbols.ofNesting_eq_outcome]
  exact symbolsFrom_eq linked formed (Symbols.anchored_empty nesting) 0

end Checked

end CursorContext
