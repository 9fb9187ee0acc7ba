import CursorContext.Proofs.Checked.Access
import CursorContext.Proofs.Symbols.Anchored

/-!
Checked reading of declarations: namespaces, imports, and the headers of classes and functions. Each
is read by index, looks ahead only where a token is, and gives what is read at the place.
-/
namespace CursorContext

namespace Checked

open Symbols (Anchored FunctionHeader)

variable {nesting : Nesting} {symbols : Symbols} {index : Nat} {here : Token}

/-! ### Leaving -/

/-- Whether the token at `index` closes a frame that something is taken to end with. -/
def bodyEnds (nesting : Nesting) (index body : Nat) : Except Fault Bool := do
  let frame ← frameOf nesting body
  return frame.closer == some index

theorem bodyEnds_eq (index : Nat) {body : Nat}
    (framed : ∃ frame, nesting.frameAt body = some frame) :
    bodyEnds nesting index body = .ok (Symbols.bodyEnds nesting index body) := by
  obtain ⟨frame, found⟩ := framed
  simp [bodyEnds, frameOf_eq found, Symbols.bodyEnds, Nesting.closeOf, found]

def scopeEnds (nesting : Nesting) (index : Nat) (token : Token) (scope : Scope) :
    Except Fault Bool :=
  match scope.extent with
  | .body frame => bodyEnds nesting index frame
  | .arrow container => do
    let closed ←
      match container with
      | none => pure false
      | some name => bodyEnds nesting index name
    let around ← enclosing nesting index
    return closed || (token.isOperator [",", ";"] && around == container)

theorem scopeEnds_eq (linked : nesting.Linked) (inside : index < nesting.tokens.size) (token : Token)
    {scope : Scope} (framed : ∀ name, scope.extent.frame? = some name →
      ∃ frame, nesting.frameAt name = some frame) :
    scopeEnds nesting index token scope = .ok (Symbols.scopeEnds nesting index token scope) := by
  unfold scopeEnds Symbols.scopeEnds
  cases extent : scope.extent with
  | body frame => exact bodyEnds_eq index (framed frame (by simp [extent, Extent.frame?]))
  | arrow container =>
    cases container with
    | none => simp [enclosing_eq linked inside]
    | some name =>
      have ends := bodyEnds_eq index (framed name (by simp [extent, Extent.frame?]))
      simp [enclosing_eq linked inside, ends]

def classEnds (symbols : Symbols) (nesting : Nesting) (index place : Nat) : Except Fault Bool := do
  let definition ← require .missing symbols.classes[place]?
  let body ← require .missing definition.body
  bodyEnds nesting index body

/-- Leaves what ends with the token at `index`. -/
def leave (symbols : Symbols) (nesting : Nesting) (index : Nat) (token : Token) :
    Except Fault Symbols := do
  return { symbols with
    scopes := ← dropWhile (scopeEnds nesting index token) symbols.scopes
    openClasses := ← dropWhile (classEnds symbols nesting index) symbols.openClasses
    openFunctions := ← dropWhile (fun function => bodyEnds nesting index function.body)
      symbols.openFunctions }

theorem leave_eq (linked : nesting.Linked) (anchored : Anchored nesting symbols)
    (inside : index < nesting.tokens.size) (token : Token) :
    leave symbols nesting index token = .ok (symbols.leave nesting index token) := by
  have scopes : dropWhile (scopeEnds nesting index token) symbols.scopes =
      .ok (symbols.scopes.dropWhile (Symbols.scopeEnds nesting index token)) := by
    apply dropWhile_ok
    intro scope member
    exact scopeEnds_eq linked inside token
      (anchored.scopes scope.extent (List.mem_map_of_mem member))
  have classes : dropWhile (classEnds symbols nesting index) symbols.openClasses =
      .ok (symbols.openClasses.dropWhile (symbols.classEnds nesting index)) := by
    apply dropWhile_ok
    intro place member
    obtain ⟨body, frame, there, found⟩ := anchored.classes place member
    rw [Array.getElem?_map, Option.map_eq_some_iff] at there
    obtain ⟨definition, defined, same⟩ := there
    have ends := bodyEnds_eq index ⟨frame, found⟩
    simp [classEnds, Symbols.classEnds, defined, same, ends]
  have functions : dropWhile (fun function => bodyEnds nesting index function.body)
        symbols.openFunctions =
      .ok (symbols.openFunctions.dropWhile fun function =>
        Symbols.bodyEnds nesting index function.body) := by
    apply dropWhile_ok
    intro function member
    exact bodyEnds_eq index (anchored.functions function member)
  simp only [leave, scopes, classes, functions, ok_bind]
  rfl

/-! ### Looking around -/

/-- Whether a token stands directly in the body of the class around. -/
def inClassBody (symbols : Symbols) (nesting : Nesting) (index : Nat) : Except Fault Bool :=
  match symbols.openClasses with
  | [] => return false
  | place :: _ => do
    let definition ← require .missing symbols.classes[place]?
    let around ← enclosing nesting index
    return around == definition.body

theorem inClassBody_eq (linked : nesting.Linked) (anchored : Anchored nesting symbols)
    (inside : index < nesting.tokens.size) :
    inClassBody symbols nesting index = .ok (symbols.inClassBody nesting index) := by
  unfold inClassBody Symbols.inClassBody Symbols.currentClass
  cases held : symbols.openClasses with
  | nil => rfl
  | cons place outer =>
    obtain ⟨body, frame, there, -⟩ := anchored.classes place (by simp [held])
    rw [Array.getElem?_map, Option.map_eq_some_iff] at there
    obtain ⟨definition, defined, -⟩ := there
    simp [defined, enclosing_eq linked inside]

/-- Whether there is a token before `index` and it satisfies `p`. -/
def hasBefore (nesting : Nesting) (index : Nat) (p : Token → Bool) : Except Fault Bool := do
  return (← tokenBefore nesting index 1).any p

theorem hasBefore_eq (there : nesting.tokens[index]? = some here) (p : Token → Bool) :
    hasBefore nesting index p = .ok ((nesting.placeAt index here).previousIs p) := by
  obtain ⟨inside, -⟩ := Array.getElem?_eq_some_iff.mp there
  simp [hasBefore, tokenBefore_eq (Nat.le_of_lt inside), Nesting.previousIs_placeAt there]

theorem hasAt_next (here : Token) (p : Token → Bool) :
    hasAt nesting (index + 1) p = .ok ((nesting.placeAt index here).nextIs p) := by
  rw [hasAt_eq, Nesting.nextIs_placeAt]

/-! ### Namespaces and imports -/

def enterNamespace (nesting : Nesting) (index : Nat) (symbols : Symbols) : Except Fault Pass := do
  if ← hasAt nesting (index + 1) (·.kind == .identifier) then
    let name ← tokenAt nesting (index + 1)
    return {
      symbols := { symbols with space := Name.nonEmpty? (Name.trim name.text), imports := {} }
      resume := index + 2 }
  else if ← hasAt nesting (index + 1) (·.opening? == some .curly) then
    return { symbols := { symbols with space := none, imports := {} }, resume := index + 1 }
  else return { symbols, resume := index + 1 }

theorem enterNamespace_eq (symbols : Symbols) (index : Nat) (here : Token) :
    enterNamespace nesting index symbols =
      .ok (Symbols.enterNamespace (nesting.placeAt index here) symbols) := by
  rw [enterNamespace, Symbols.enterNamespace, Nesting.after_placeAt, Nesting.head?_drop_tokens,
    hasAt_eq, hasAt_eq]
  cases there : nesting.tokens[index + 1]? with
  | none => rfl
  | some name =>
    simp only [ok_bind, Option.any_some, tokenAt_eq there]
    split
    · rfl
    · split <;> rfl

/-- Begins an import statement, the list of which goes on if the pass says so. -/
def beginImport (nesting : Nesting) (index : Nat) (symbols : Symbols) : Except Fault Pass := do
  if (← inClassBody symbols nesting index) ||
      (← hasAt nesting (index + 1) (·.opening? == some .round)) || symbols.inFunctionBody then
    return { symbols, resume := index + 1 }
  else if ← hasAt nesting (index + 1) Symbols.importsNoClass then
    let (_, stop) ← readWhile nesting (!·.isOperator [";"]) (index + 1)
    return { symbols, resume := stop }
  else return { symbols, resume := index + 1, importing := true }

theorem beginImport_eq (linked : nesting.Linked) (anchored : Anchored nesting symbols)
    (inside : index < nesting.tokens.size) (here : Token) :
    beginImport nesting index symbols =
      .ok (Symbols.beginImport nesting (nesting.placeAt index here) symbols) := by
  rw [beginImport, inClassBody_eq linked anchored inside, hasAt_next here, hasAt_next here,
    readWhile_eq, Symbols.beginImport, Nesting.index_placeAt]
  simp only [ok_bind]
  split
  · rfl
  · split <;> rfl

/-- The short name given to the name at `index`, if the words that give it stand before `stop`. -/
def givenName (nesting : Nesting) (stop index : Nat) : Except Fault (Option String) :=
  if index + 2 < stop then do
    if (← tokenAt nesting (index + 1)).isKeyword ["as"] then
      return some (← tokenAt nesting (index + 2)).text
    else return none
  else return none

theorem givenName_eq {stop : Nat} (limit : stop ≤ nesting.tokens.size) :
    givenName nesting stop index =
      .ok (Symbols.givenName?
        ((nesting.tokens.toList.drop (index + 1)).take (stop - (index + 1)))) := by
  unfold givenName
  split
  next inside =>
    obtain ⟨word, first, taken⟩ := tokenAt_lt (by omega : index + 1 < nesting.tokens.size)
    obtain ⟨short, second, given⟩ := tokenAt_lt (by omega : index + 2 < nesting.tokens.size)
    have ahead : ∃ rest, (nesting.tokens.toList.drop (index + 1)).take (stop - (index + 1)) =
        word :: short :: rest := by
      rw [Nesting.drop_tokens first, Nesting.drop_tokens second,
        show stop - (index + 1) = stop - (index + 3) + 1 + 1 by omega]
      exact ⟨_, rfl⟩
    obtain ⟨rest, ahead⟩ := ahead
    rw [taken, given, ahead, Symbols.givenName?]
    simp only [ok_bind]
    split <;> rfl
  next beyond =>
    have few : ((nesting.tokens.toList.drop (index + 1)).take (stop - (index + 1))).length ≤ 1 := by
      simp
      omega
    generalize (nesting.tokens.toList.drop (index + 1)).take (stop - (index + 1)) = ahead at few
    rcases ahead with _ | ⟨token, _ | ⟨next, rest⟩⟩
    · rfl
    · rfl
    · simp at few

/-- The members of a group of imports that ends at `stop`, from `index` on. -/
def groupMembers (nesting : Nesting) (stop index : Nat) :
    Except Fault (List (String × Option String)) :=
  if index < stop then do
    let token ← tokenAt nesting index
    if token.kind == .identifier then
      let short ← givenName nesting stop index
      let previous ← tokenAt nesting (index - 1)
      let member := if Symbols.importsNoClass previous then [] else [(token.text, short)]
      let later ← groupMembers nesting stop (index + if short.isSome then 3 else 1)
      return member ++ later
    else groupMembers nesting stop (index + 1)
  else return []
termination_by stop - index
decreasing_by
  · split <;> omega
  · omega

theorem givenName?_eq_some {after : List Token} {name : String}
    (given : Symbols.givenName? after = some name) :
    ∃ word short rest, after = word :: short :: rest := by
  unfold Symbols.givenName? at given
  split at given
  next word short rest => exact ⟨word, short, rest, rfl⟩
  · cases given

theorem groupMembers_eq {stop : Nat} (limit : stop ≤ nesting.tokens.size) (index : Nat)
    {previous : Token} (before : nesting.tokens[index]? = some previous) :
    groupMembers nesting stop (index + 1) =
      .ok (Symbols.groupMembers previous 0
        ((nesting.tokens.toList.drop (index + 1)).take (stop - (index + 1)))) := by
  induction ahead : stop - (index + 1) using Nat.strongRecOn generalizing index previous with
  | ind remaining ih =>
    rw [groupMembers]
    split
    next inside =>
      obtain ⟨token, there, taken⟩ := tokenAt_lt (by omega : index + 1 < nesting.tokens.size)
      have split : (nesting.tokens.toList.drop (index + 1)).take remaining =
          token :: (nesting.tokens.toList.drop (index + 2)).take (stop - (index + 2)) := by
        rw [Nesting.drop_tokens there, ← ahead,
          show stop - (index + 1) = stop - (index + 2) + 1 by omega]
        rfl
      have next := ih (stop - (index + 2)) (by omega) (index + 1) there rfl
      rw [taken, ok_bind, split, Symbols.groupMembers]
      split
      next identifier =>
        rw [givenName_eq limit, ok_bind, Nat.add_sub_cancel, tokenAt_eq before, ok_bind]
        cases given : Symbols.givenName?
            ((nesting.tokens.toList.drop (index + 2)).take (stop - (index + 2))) with
        | none =>
          simp [next]
        | some name =>
          -- The two tokens that give the short name belong to this member.
          obtain ⟨word, short, rest, tokens⟩ := givenName?_eq_some given
          have few : index + 3 < stop := by
            have length := congrArg List.length tokens
            simp at length
            omega
          obtain ⟨second, first, -⟩ := tokenAt_lt (by omega : index + 2 < nesting.tokens.size)
          obtain ⟨third, last, -⟩ := tokenAt_lt (by omega : index + 3 < nesting.tokens.size)
          rw [Nesting.drop_tokens first, Nesting.drop_tokens last,
            show stop - (index + 2) = stop - (index + 4) + 1 + 1 by omega]
          have later := ih (stop - (index + 4)) (by omega) (index + 3) last rfl
          simp [later, Symbols.groupMembers]
      next other => exact next
    next beyond =>
      rw [show remaining = 0 by omega]
      simp [Symbols.groupMembers]

def importName (nesting : Nesting) (index : Nat) (here : Token) (symbols : Symbols) :
    Except Fault Pass :=
  match (nesting.frameAt (index + 1)).filter (·.mark == Bracket.curly.opening) with
  | some group => do
    let members ← groupMembers nesting (nesting.endOf group) (group.opener + 1)
    let front := Name.trim here.text
    return {
      symbols := { symbols with
        imports := members.foldl
          (fun imports (name, short) => imports.declare (front ++ "\\" ++ Name.trim name) short)
          symbols.imports }
      resume := nesting.endOf group + 1
      importing := true }
  | none => do
    let short ← givenName nesting nesting.tokens.size index
    return {
      symbols := { symbols with imports := symbols.imports.declare here.text short }
      resume := index + if short.isSome then 3 else 1
      importing := true }

theorem importName_eq (linked : nesting.Linked) (symbols : Symbols) (index : Nat) (here : Token) :
    importName nesting index here symbols =
      .ok (Symbols.importName nesting (nesting.placeAt index here) symbols) := by
  unfold importName Symbols.importName
  rw [Nesting.index_placeAt]
  dsimp only
  cases found : (nesting.frameAt (index + 1)).filter (·.mark == Bracket.curly.opening) with
  | some group =>
    obtain ⟨there, -⟩ := Option.filter_eq_some_iff.mp found
    obtain ⟨bracket, first, -⟩ := tokenAt_lt (linked.lt_size there)
    dsimp only [Symbols.importGroup]
    rw [linked.opener there, groupMembers_eq (linked.endOf_le there) _ first, ok_bind,
      Nesting.ahead_placeAt here (by omega), Nesting.after_placeAt, Nesting.head?_drop_tokens,
      first]
    rfl
  | none =>
    have whole : (nesting.tokens.toList.drop (index + 1)).take
        (nesting.tokens.size - (index + 1)) = nesting.tokens.toList.drop (index + 1) :=
      List.take_of_length_le (by simp)
    dsimp only
    rw [givenName_eq (Nat.le_refl _), ok_bind, whole]
    rfl

/-! ### Classes -/

def readClass (nesting : Nesting) (index : Nat) (symbols : Symbols) : Except Fault Pass := do
  if (← hasBefore nesting index (·.isKeyword ["new"])) ||
      !(← hasAt nesting (index + 1) (·.kind == .identifier)) then
    return { symbols, resume := index + 1 }
  else
    let name ← tokenAt nesting (index + 1)
    let (header, stop) ← readWhile nesting (!Symbols.endsHeader ·) (index + 2)
    let definition := symbols.headerClass name.text header
    if ← hasAt nesting stop (·.opening? == some .curly) then
      let body ← frameOf nesting stop
      return { symbols := symbols.declareClass definition (some body.opener), resume := stop + 1 }
    else return { symbols := symbols.declareClass definition none, resume := stop }

theorem readClass_eq (linked : nesting.Linked) (formed : nesting.Formed) (symbols : Symbols)
    (there : nesting.tokens[index]? = some here) :
    readClass nesting index symbols =
      .ok (Symbols.readClass (nesting.placeAt index here) symbols) := by
  rw [readClass, hasBefore_eq there, hasAt_eq, readWhile_eq]
  unfold Symbols.readClass
  rw [Nesting.after_placeAt, Nesting.index_placeAt]
  simp only [ok_bind]
  cases next : nesting.tokens[index + 1]? with
  | none =>
    have beyond : nesting.tokens.size ≤ index + 1 := by simpa using next
    simp [Nesting.drop_tokens_nil beyond]
  | some name =>
    have ahead : nesting.tokens.toList.drop (index + 1) =
        name :: nesting.tokens.toList.drop (index + 2) := Nesting.drop_tokens next
    simp only [ahead, Option.any_some, tokenAt_eq next, ok_bind, bne]
    split
    · rfl
    · rw [hasAt_eq, ok_bind, Symbols.head?_dropWhile_drop, Array.getElem?_toList]
      split
      next opens =>
        obtain ⟨token, found, opens⟩ := (Option.any_eq_true _ _).mp opens
        obtain ⟨frame, framed⟩ := formed.opened found (by simpa using opens)
        rw [frameOf_eq framed, ok_bind, linked.opener framed]
        rfl
      · rfl

/-! ### Functions -/

/-- Reads what follows a header's lists, and enters the function if it has a body. -/
def enterFunction (nesting : Nesting) (symbols : Symbols) (header : FunctionHeader) (index : Nat) :
    Except Fault Pass := do
  let (_, start) ← readWhile nesting Symbols.isReturnType index
  if start < nesting.tokens.size then
    let token ← tokenAt nesting start
    let bindings := symbols.initialBindings header
    let symbols := symbols.promote header
    if header.arrow && token.isOperator ["=>"] then
      let container ← enclosing nesting start
      return { symbols := symbols.enterScope bindings (.arrow container), resume := start + 1 }
    else if token.opening? == some .curly then
      let frame ← frameOf nesting start
      let opened := header.name.toList.map fun name => { name, body := frame.opener }
      return {
        symbols :=
          { symbols.enterScope bindings (.body frame.opener) with
            openFunctions := opened ++ symbols.openFunctions }
        resume := start + 1 }
    else return { symbols, resume := start }
  else return { symbols, resume := start }

theorem enterFunction_eq (linked : nesting.Linked) (formed : nesting.Formed) (symbols : Symbols)
    (header : FunctionHeader) {later : Nat} (after : index < later) :
    enterFunction nesting symbols header later =
      .ok (Symbols.enterFunction nesting (nesting.placeAt index here) symbols header later) := by
  rw [enterFunction, readWhile_eq, ok_bind]
  unfold Symbols.enterFunction
  rw [Nesting.ahead_placeAt here after]
  dsimp only
  have found := Symbols.head?_dropWhile_drop Symbols.isReturnType nesting.tokens.toList later
  rw [Array.getElem?_toList] at found
  generalize later + ((nesting.tokens.toList.drop later).takeWhile Symbols.isReturnType).length =
    start at found
  generalize (nesting.tokens.toList.drop later).dropWhile Symbols.isReturnType = rest at found
  cases rest with
  | nil =>
    have beyond : nesting.tokens.size ≤ start := by simpa [eq_comm] using found
    rw [if_neg (by omega)]
    rfl
  | cons token rest =>
    have there : nesting.tokens[start]? = some token := found.symm
    obtain ⟨inside, -⟩ := Array.getElem?_eq_some_iff.mp there
    rw [if_pos inside, tokenAt_eq there, ok_bind, enclosing_eq linked inside, ok_bind]
    dsimp only
    split
    · rfl
    · split
      next opens =>
        obtain ⟨frame, framed⟩ := formed.opened there (by simpa using opens)
        rw [frameOf_eq framed, ok_bind, linked.opener framed]
        rfl
      · rfl

/-- Reads the variables a closure captures, if it says so at `index`, and goes on. -/
def readCaptures (nesting : Nesting) (symbols : Symbols) (header : FunctionHeader) (index : Nat) :
    Except Fault Pass := do
  if ← hasAt nesting index (·.isKeyword ["use"]) then
    match nesting.frameAt (index + 1) with
    | none => return { symbols, resume := index + 1 }
    | some frame =>
      let tokens ← directTokens nesting frame
      match frame.closer with
      | none => return { symbols, resume := index + 2 }
      | some close =>
        let captured := (tokens.filter (·.kind == .variable)).map (·.text)
        enterFunction nesting symbols { header with captured } (close + 1)
  else enterFunction nesting symbols header index

theorem readCaptures_eq (linked : nesting.Linked) (formed : nesting.Formed) (symbols : Symbols)
    (header : FunctionHeader) {later : Nat} (after : index < later) :
    readCaptures nesting symbols header later =
      .ok (Symbols.readCaptures nesting (nesting.placeAt index here) symbols header later) := by
  rw [readCaptures, hasAt_eq, ok_bind]
  unfold Symbols.readCaptures
  rw [Nesting.ahead_placeAt here after, Nesting.head?_drop_tokens]
  split
  · cases found : nesting.frameAt (later + 1) with
    | none => rfl
    | some frame =>
      dsimp only
      rw [directTokens_eq linked found, ok_bind]
      cases closed : frame.closer with
      | none => rfl
      | some close =>
        have inside := (linked.bounds found closed).1
        exact enterFunction_eq linked formed symbols _ (by omega)
  · exact enterFunction_eq linked formed symbols header after

/-- The name a function may have at `index`. -/
def functionName (nesting : Nesting) (arrow : Bool) (index : Nat) : Except Fault (Option String) := do
  if !arrow && (← hasAt nesting index (·.isName)) then
    return some (← tokenAt nesting index).text
  else return none

theorem functionName_eq (arrow : Bool) (index : Nat) :
    functionName nesting arrow index =
      .ok (if arrow then none else (nesting.tokens[index]?.filter (·.isName)).map (·.text)) := by
  rw [functionName, hasAt_eq, ok_bind]
  cases there : nesting.tokens[index]? with
  | none => simp
  | some token => cases arrow <;> cases named : token.isName <;> simp [tokenAt_eq there, named]

/-- Reads the function header at `index`. -/
def readFunction (nesting : Nesting) (index : Nat) (symbols : Symbols) : Except Fault Pass := do
  let arrow := (← tokenAt nesting index).isKeyword ["fn"]
  let first := if ← hasAt nesting (index + 1) (·.isOperator ["&"]) then index + 2 else index + 1
  let name ← functionName nesting arrow first
  let list := if name.isSome then first + 1 else first
  match (nesting.frameAt list).filter (·.mark == Bracket.round.opening) with
  | none => return { symbols, resume := list }
  | some frame =>
    let tokens ← directTokens nesting frame
    let parameters := (divide (·.isOperator [","]) tokens).filterMap symbols.parameter?
    match frame.closer with
    | none => return { symbols, resume := list + 1 }
    | some close =>
      readCaptures nesting symbols { arrow, name, parameters, captured := [] } (close + 1)

theorem readFunction_eq (linked : nesting.Linked) (formed : nesting.Formed) (symbols : Symbols)
    (there : nesting.tokens[index]? = some here) :
    readFunction nesting index symbols =
      .ok (Symbols.readFunction nesting (nesting.placeAt index here) symbols) := by
  rw [readFunction, tokenAt_eq there, ok_bind, hasAt_next here, ok_bind]
  unfold Symbols.readFunction
  rw [Nesting.index_placeAt, Nesting.here_placeAt]
  dsimp only
  generalize starts : (if (nesting.placeAt index here).nextIs (·.isOperator ["&"]) then index + 2
    else index + 1) = first
  have start : index < first := by
    rw [← starts]
    split <;> omega
  rw [functionName_eq, ok_bind, Nesting.ahead_placeAt here start, Nesting.head?_drop_tokens]
  generalize (if here.isKeyword ["fn"] then none
    else (nesting.tokens[first]?.filter (·.isName)).map (·.text)) = name
  generalize listed : (if name.isSome then first + 1 else first) = list
  have after : index < list := by
    rw [← listed]
    split <;> omega
  cases found : (nesting.frameAt list).filter (·.mark == Bracket.round.opening) with
  | none => rfl
  | some frame =>
    obtain ⟨framed, -⟩ := Option.filter_eq_some_iff.mp found
    dsimp only
    rw [directTokens_eq linked framed, ok_bind]
    cases closed : frame.closer with
    | none => rfl
    | some close =>
      have inside := (linked.bounds framed closed).1
      exact readCaptures_eq linked formed symbols _ (by omega)

end Checked

end CursorContext
