import CursorContext.Context
import CursorContext.Proofs.Nesting.Unplaced

/-!
Symbols and contexts without places. What the pass finds out about the code, and with it what is
called at the end of a nesting, does not depend on where the tokens stand in the source.
-/
namespace CursorContext

/-- A place among tokens without their places in the source. -/
def Place.unplaced (place : Place) : Place :=
  { index := place.index
    before := place.before.map Token.unplaced
    here := place.here.unplaced
    after := place.after.map Token.unplaced }

namespace Symbols

variable (nesting : Nesting) (place : Place) (symbols : Symbols)

@[simp] theorem index_unplaced : place.unplaced.index = place.index := rfl

@[simp] theorem here_unplaced : place.unplaced.here = place.here.unplaced := rfl

@[simp] theorem before_unplaced : place.unplaced.before = place.before.map Token.unplaced := rfl

@[simp] theorem after_unplaced : place.unplaced.after = place.after.map Token.unplaced := rfl

@[simp] theorem ahead_unplaced (index : Nat) :
    place.unplaced.ahead index = (place.ahead index).map Token.unplaced :=
  (List.map_drop ..).symm

@[simp] theorem previousIs_unplaced (p : Token → Bool) :
    place.unplaced.previousIs p = place.previousIs fun token => p token.unplaced := by
  rw [Place.previousIs, Place.unplaced, List.head?_map, Option.any_map]
  rfl

@[simp] theorem nextIs_unplaced (p : Token → Bool) :
    place.unplaced.nextIs p = place.nextIs fun token => p token.unplaced := by
  rw [Place.nextIs, Place.unplaced, List.head?_map, Option.any_map]
  rfl

/-! ### Namespaces and imports -/

theorem leave_unplaced (index : Nat) (token : Token) :
    symbols.leave nesting.unplaced index token.unplaced = symbols.leave nesting index token := by
  have ends : bodyEnds nesting.unplaced = bodyEnds nesting := by
    funext index body
    rw [bodyEnds, bodyEnds, Nesting.closeOf_unplaced]
  have scope : scopeEnds nesting.unplaced index token.unplaced = scopeEnds nesting index token := by
    funext scope
    rw [scopeEnds, scopeEnds, ends, Nesting.enclosing_unplaced]
    rfl
  have ofClass : symbols.classEnds nesting.unplaced = symbols.classEnds nesting := by
    funext index place
    rw [classEnds, classEnds, ends]
  rw [leave, leave, ends, scope, ofClass]

@[simp] theorem inClassBody_unplaced (index : Nat) :
    symbols.inClassBody nesting.unplaced index = symbols.inClassBody nesting index := by
  rw [inClassBody, inClassBody, Nesting.enclosing_unplaced]

theorem enterNamespace_unplaced :
    enterNamespace place.unplaced symbols = enterNamespace place symbols := by
  unfold enterNamespace
  rw [after_unplaced, List.head?_map]
  cases place.after.head? <;> rfl

theorem beginImport_unplaced :
    beginImport nesting.unplaced place.unplaced symbols = beginImport nesting place symbols := by
  have rest : (place.after.map Token.unplaced).takeWhile (!·.isOperator [";"]) =
      (place.after.takeWhile (!·.isOperator [";"])).map Token.unplaced := List.takeWhile_map ..
  simp only [beginImport, index_unplaced, inClassBody_unplaced, nextIs_unplaced, after_unplaced, rest,
    List.length_map]
  rfl

theorem givenName?_unplaced (after : List Token) :
    givenName? (after.map Token.unplaced) = givenName? after := by
  rcases after with _ | ⟨word, _ | ⟨short, rest⟩⟩ <;> rfl

theorem groupMembers_unplaced (previous : Token) (skip : Nat) (tokens : List Token) :
    groupMembers previous.unplaced skip (tokens.map Token.unplaced) =
      groupMembers previous skip tokens := by
  induction tokens generalizing previous skip with
  | nil => rfl
  | cons token rest ih =>
    cases skip with
    | succ skip => exact ih token skip
    | zero =>
      simp only [List.map_cons, groupMembers, givenName?_unplaced, ih]
      rfl

theorem importGroup_unplaced (group : Frame) (imports : Imports) :
    importGroup nesting.unplaced place.unplaced group.unplaced imports =
      importGroup nesting place group imports := by
  have first : (place.after.map Token.unplaced).head?.getD place.here.unplaced =
      (place.after.head?.getD place.here).unplaced := by
    cases place.after <;> rfl
  simp only [importGroup, here_unplaced, after_unplaced, ahead_unplaced, Nesting.endOf_unplaced,
    Frame.opener_unplaced, ← List.map_take, first, groupMembers_unplaced, Token.text_unplaced]

theorem filter_mark_unplaced (frame : Option Frame) (mark : Char) :
    (frame.map Frame.unplaced).filter (·.mark == mark) =
      (frame.filter (·.mark == mark)).map Frame.unplaced := Option.filter_map ..

theorem importName_unplaced :
    importName nesting.unplaced place.unplaced symbols = importName nesting place symbols := by
  simp only [importName, index_unplaced, here_unplaced, after_unplaced, Nesting.frameAt_unplaced,
    filter_mark_unplaced, givenName?_unplaced, Token.text_unplaced]
  cases (nesting.frameAt (place.index + 1)).filter (·.mark == Bracket.curly.opening) with
  | none => rfl
  | some group => simp only [Option.map_some, importGroup_unplaced, Nesting.endOf_unplaced]

/-! ### Classes -/

theorem clauseNames_unplaced (imports : Imports) (clause : Option Clause) (tokens : List Token) :
    clauseNames imports clause (tokens.map Token.unplaced) = clauseNames imports clause tokens := by
  induction tokens generalizing clause with
  | nil => rfl
  | cons token rest ih =>
    simp only [List.map_cons, clauseNames, ih]
    rfl

theorem readClass_unplaced : readClass place.unplaced symbols = readClass place symbols := by
  unfold readClass
  rw [after_unplaced]
  cases place.after with
  | nil => rfl
  | cons name rest =>
    have ends : (fun token => !endsHeader token) ∘ Token.unplaced = fun token => !endsHeader token := rfl
    simp only [List.map_cons, index_unplaced, previousIs_unplaced, headerClass, List.takeWhile_map,
      List.dropWhile_map, ends, clauseNames_unplaced, List.length_map, List.head?_map, Option.any_map]
    rfl

/-! ### Functions -/

theorem divide_map (p : Token → Bool) (tokens : List Token) :
    divide p (tokens.map Token.unplaced) =
      (divide (fun token => p token.unplaced) tokens).map (List.map Token.unplaced) := by
  induction tokens with
  | nil => rfl
  | cons token rest ih =>
    simp only [List.map_cons, divide, ih]
    split
    · rfl
    · cases divide (fun token => p token.unplaced) rest <;> rfl

@[simp] theorem isModifier_unplaced (token : Token) :
    isModifier token.unplaced = isModifier token := rfl

theorem parameter?_unplaced (piece : List Token) :
    symbols.parameter? (piece.map Token.unplaced) = symbols.parameter? piece := by
  simp only [parameter?, List.takeWhile_map, List.find?_map, List.filter_map, Option.map_map,
    List.any_map, List.map_map, Function.comp_def, Token.kind_unplaced, Token.text_unplaced,
    Token.isName_unplaced, Token.isOperator_unplaced, isModifier_unplaced]

theorem parameters_unplaced (frame : Frame) :
    symbols.parameters nesting.unplaced frame.unplaced = symbols.parameters nesting frame := by
  rw [parameters, parameters, Nesting.directTokens_unplaced, divide_map, List.filterMap_map]
  exact congrArg (List.filterMap · _) (funext fun piece => parameter?_unplaced symbols piece)

theorem enterFunction_unplaced (header : FunctionHeader) (index : Nat) :
    enterFunction nesting.unplaced place.unplaced symbols header index =
      enterFunction nesting place symbols header index := by
  have type : isReturnType ∘ Token.unplaced = isReturnType := rfl
  simp only [enterFunction, ahead_unplaced, List.takeWhile_map, List.dropWhile_map, type,
    List.length_map, Nesting.enclosing_unplaced]
  cases (place.ahead index).dropWhile isReturnType <;> rfl

theorem readCaptures_unplaced (header : FunctionHeader) (index : Nat) :
    readCaptures nesting.unplaced place.unplaced symbols header index =
      readCaptures nesting place symbols header index := by
  simp only [readCaptures, ahead_unplaced, List.head?_map, Option.any_map, enterFunction_unplaced,
    Nesting.frameAt_unplaced]
  cases nesting.frameAt (index + 1) with
  | none => rfl
  | some frame =>
    simp only [Option.map_some, Frame.closer_unplaced, Nesting.directTokens_unplaced, List.filter_map,
      List.map_map]
    rfl

theorem readFunction_unplaced :
    readFunction nesting.unplaced place.unplaced symbols = readFunction nesting place symbols := by
  have name (tokens : List Token) :
      ((tokens.map Token.unplaced).head?.filter (·.isName)).map (·.text) =
        (tokens.head?.filter (·.isName)).map (·.text) := by
    cases tokens with
    | nil => rfl
    | cons token rest => cases word : token.isName <;> simp [Option.filter, word]
  simp only [readFunction, index_unplaced, here_unplaced, nextIs_unplaced, ahead_unplaced, name,
    Token.isKeyword_unplaced, Token.isOperator_unplaced, Nesting.frameAt_unplaced,
    filter_mark_unplaced]
  generalize Option.filter (fun frame : Frame => frame.mark == Bracket.round.opening) _ = list
  cases list with
  | none => rfl
  | some frame =>
    simp only [Option.map_some, Frame.closer_unplaced, parameters_unplaced, readCaptures_unplaced]

/-! ### Variables -/

theorem valueClass_unplaced (tokens : List Token) :
    symbols.valueClass (tokens.map Token.unplaced) = symbols.valueClass tokens := by
  induction tokens with
  | nil => rfl
  | cons token rest ih =>
    have created : ((rest.map Token.unplaced).head?.filter (·.kind == .identifier)).bind
          (fun name => symbols.resolve name.text) =
        (rest.head?.filter (·.kind == .identifier)).bind fun name => symbols.resolve name.text := by
      rw [List.head?_map, Option.filter_map, Option.bind_map]
      rfl
    rw [List.map_cons, valueClass_cons, valueClass_cons, ih, created]
    rcases rest with _ | ⟨access, _ | ⟨method, _ | ⟨list, rest⟩⟩⟩ <;> rfl

theorem assignedProperty?_unplaced (tokens : List Token) :
    assignedProperty? (tokens.map Token.unplaced) =
      (assignedProperty? tokens).map fun (name, value) => (name, value.map Token.unplaced) := by
  rcases tokens with _ | ⟨access, _ | ⟨name, _ | ⟨equals, value⟩⟩⟩
  · rfl
  · rfl
  · rfl
  · simp only [List.map_cons, assignedProperty?, apply_ite (Option.map _)]
    rfl

theorem declareProperty_unplaced :
    declareProperty place.unplaced symbols = declareProperty place symbols := by
  have front : (place.before.map Token.unplaced).takeWhile
        (fun token => token.isName || token.isOperator ["?", "|", "&"]) =
      (place.before.takeWhile fun token => token.isName || token.isOperator ["?", "|", "&"]).map
        Token.unplaced := List.takeWhile_map ..
  simp only [declareProperty, before_unplaced, here_unplaced, front, List.filter_map, List.any_map,
    ← List.map_reverse, List.map_map, Function.comp_def, Token.text_unplaced, Token.isName_unplaced,
    isModifier_unplaced]

theorem readLocal_unplaced : readLocal place.unplaced symbols = readLocal place symbols := by
  simp only [readLocal, here_unplaced, after_unplaced, previousIs_unplaced, nextIs_unplaced,
    ← List.map_drop, valueClass_unplaced]
  rfl

theorem readVariable_unplaced :
    readVariable nesting.unplaced place.unplaced symbols = readVariable nesting place symbols := by
  have property : (if place.unplaced.here.text == "$this" then
        assignedProperty? place.unplaced.after else none) =
      (if place.here.text == "$this" then assignedProperty? place.after else none).map
        fun (name, value) => (name, value.map Token.unplaced) := by
    rw [after_unplaced, here_unplaced, Token.text_unplaced, assignedProperty?_unplaced]
    split <;> rfl
  rw [readVariable, readVariable, property, declareProperty_unplaced, readLocal_unplaced,
    inClassBody_unplaced, previousIs_unplaced]
  cases (if place.here.text == "$this" then assignedProperty? place.after else none) with
  | none => rfl
  | some assigned =>
    simp only [Option.map_some, valueClass_unplaced]
    rfl

theorem readHandler_unplaced :
    readHandler nesting.unplaced place.unplaced symbols = readHandler nesting place symbols := by
  simp only [readHandler, index_unplaced, Nesting.frameAt_unplaced]
  cases nesting.frameAt (place.index + 1) with
  | none => rfl
  | some frame =>
    have isVariable : (fun token : Token => token.kind == .variable) ∘ Token.unplaced =
        fun token => token.kind == .variable := rfl
    simp only [Option.map_some, Nesting.directTokens_unplaced, List.find?_map, List.takeWhile_map,
      List.filter_map, ← List.map_take, List.map_map, isVariable]
    cases (nesting.directTokens frame).find? fun token => token.kind == .variable <;> rfl

/-! ### The pass -/

theorem readKeyword_unplaced :
    readKeyword nesting.unplaced place.unplaced symbols = readKeyword nesting place symbols := by
  simp only [readKeyword, here_unplaced, index_unplaced, Token.text_unplaced, enterNamespace_unplaced,
    beginImport_unplaced, readClass_unplaced, readFunction_unplaced]

theorem readStatement_unplaced :
    readStatement nesting.unplaced place.unplaced symbols = readStatement nesting place symbols := by
  simp only [readStatement, here_unplaced, index_unplaced, Token.text_unplaced, Token.kind_unplaced,
    leave_unplaced, readKeyword_unplaced, readHandler_unplaced, readVariable_unplaced]

theorem visit_unplaced (pass : Pass) :
    visit nesting.unplaced pass place.unplaced = visit nesting pass place := by
  simp only [visit, readImport, here_unplaced, index_unplaced, Token.isOperator_unplaced,
    Token.kind_unplaced, importName_unplaced, readStatement_unplaced]

theorem allFrom_unplaced (index : Nat) (before tokens : List Token) :
    Place.allFrom index (before.map Token.unplaced) (tokens.map Token.unplaced) =
      (Place.allFrom index before tokens).map Place.unplaced := by
  induction tokens generalizing index before with
  | nil => rfl
  | cons token rest ih => exact congrArg _ (ih (index + 1) (token :: before))

theorem ofNesting_unplaced : ofNesting nesting.unplaced = ofNesting nesting := by
  have places : Place.all nesting.unplaced.tokens.toList =
      (Place.all nesting.tokens.toList).map Place.unplaced := by
    rw [Nesting.unplaced, Array.toList_map]
    exact allFrom_unplaced 0 [] nesting.tokens.toList
  rw [ofNesting, ofNesting, places, List.foldl_map]
  simp only [visit_unplaced]

/-! ### Receivers -/

theorem createdInside_unplaced (first last : Nat) :
    symbols.createdInside nesting.unplaced first last = symbols.createdInside nesting first last := by
  simp only [createdInside, Nesting.getElem?_unplaced]
  cases nesting.tokens[first + 1]? with
  | none => rfl
  | some creation => cases nesting.tokens[first + 2]? <;> rfl

theorem baseType_unplaced (index : Nat) (token : Token) (operator : String) :
    symbols.baseType nesting.unplaced index token.unplaced operator =
      symbols.baseType nesting index token operator := by
  have own : isOwnMember nesting.unplaced index = isOwnMember nesting index := by
    simp only [isOwnMember, Nesting.getElem?_unplaced, Option.any_map]
    rfl
  rw [baseType, baseType, own]
  rfl

theorem receiverType_unplaced (stop : Nat) (operator : String) :
    symbols.receiverType nesting.unplaced stop operator = symbols.receiverType nesting stop operator := by
  induction stop using Nat.strongRecOn generalizing operator with
  | ind stop ih =>
    rw [receiverType.eq_def, receiverType.eq_def symbols nesting]
    cases stop with
    | zero => rfl
    | succ last =>
      simp only [Nesting.getElem?_unplaced, Nesting.frameEndingAt_unplaced]
      cases nesting.tokens[last]? with
      | none => rfl
      | some token =>
        simp only [Option.map_some, Token.closing?_unplaced, baseType_unplaced]
        cases nesting.frameEndingAt last with
        | none => rfl
        | some frame =>
          simp only [Option.map_some, Frame.role_unplaced, Frame.opener_unplaced,
            Frame.callee_unplaced, createdInside_unplaced]
          cases frame.callee with
          | none => rfl
          | some head =>
            by_cases bounded : 1 ≤ head ∧ head ≤ last
            · simp only [dif_pos bounded]
              cases nesting.tokens[head]? with
              | none => rfl
              | some name =>
                cases nesting.tokens[head - 1]? with
                | none => rfl
                | some before =>
                  simp only [Option.map_some, Token.text_unplaced, ih (head - 1) (by omega)]
                  rfl
            · simp only [dif_neg bounded]

end Symbols

theorem calledFunction?_unplaced (nesting : Nesting) (symbols : Symbols) (head : Nat) :
    calledFunction? nesting.unplaced symbols head = calledFunction? nesting symbols head := by
  have before : (if head = 0 then none else nesting.tokens[head - 1]?.map Token.unplaced) =
      (if head = 0 then none else nesting.tokens[head - 1]?).map Token.unplaced := by
    split <;> rfl
  simp only [calledFunction?, Nesting.getElem?_unplaced, Symbols.receiverType_unplaced, before]
  cases nesting.tokens[head]? with
  | none => rfl
  | some token => cases (if head = 0 then none else nesting.tokens[head - 1]?) <;> rfl

theorem Nesting.context?_unplaced (nesting : Nesting) (inComment : Bool) :
    nesting.unplaced.context? inComment = nesting.context? inComment := by
  rw [context?, context?, Symbols.ofNesting_unplaced, cursorCall_unplaced]
  cases nesting.cursorCall inComment with
  | none => simp only [Option.map_none, Option.bind_eq_bind, Option.bind_none]
  | some frame =>
    simp only [Option.map_some, Option.bind_eq_bind, Option.bind_some, Frame.callee_unplaced,
      calledFunction?_unplaced, arguments_unplaced]

end CursorContext
