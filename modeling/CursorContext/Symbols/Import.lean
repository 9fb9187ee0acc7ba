import CursorContext.Symbols.Pass

/-!
Namespaces and import statements.
-/
namespace CursorContext.Symbols

/-- A namespace begins with no imports. -/
def enterNamespace (place : Place) (symbols : Symbols) : Pass :=
  match place.after.head? with
  | none => { symbols, resume := place.index + 1 }
  | some next =>
    if next.kind == .identifier then
      { symbols := { symbols with space := Name.nonEmpty? (Name.trim next.text), imports := {} }
        resume := place.index + 2 }
    else if next.opening? == some .curly then
      { symbols := { symbols with space := none, imports := {} }, resume := place.index + 1 }
    else { symbols, resume := place.index + 1 }

/-- Functions and constants are imported by statements of their own. -/
def importsNoClass (token : Token) : Bool :=
  token.isKeyword ["function"] || Text.lower token.text == "const"

/-- Whether the innermost scope is the body of a function. -/
def inFunctionBody (symbols : Symbols) : Bool :=
  match symbols.scopes with
  | { extent := .body _, .. } :: _ => true
  | _ => false

/-- Begins an import statement. Traits used in a class and variables captured by a closure are no
imports. -/
def beginImport (nesting : Nesting) (place : Place) (symbols : Symbols) : Pass :=
  if symbols.inClassBody nesting place.index || place.nextIs (·.opening? == some .round) ||
      symbols.inFunctionBody then
    { symbols, resume := place.index + 1 }
  else if place.nextIs importsNoClass then
    { symbols
      resume := place.index + 1 + (place.after.takeWhile (!·.isOperator [";"])).length }
  else { symbols, resume := place.index + 1, importing := true }

/-- The short name given to a name that `after` follows. -/
def givenName? (after : List Token) : Option String :=
  match after with
  | word :: short :: _ => if word.isKeyword ["as"] then some short.text else none
  | _ => none

theorem givenName?_eq (after : List Token) :
    givenName? after =
      if after.head?.any (·.isKeyword ["as"]) then (after.drop 1).head?.map (·.text) else none := by
  rcases after with _ | ⟨word, _ | ⟨short, rest⟩⟩
  · simp [givenName?]
  · simp [givenName?]
  · simp [givenName?]

/-- The members of a group after the token `previous`, each with the short name it is given. The
first `skip` tokens belong to the member before. -/
def groupMembers (previous : Token) (skip : Nat) : List Token → List (String × Option String)
  | [] => []
  | token :: rest =>
    match skip with
    | skip + 1 => groupMembers token skip rest
    | 0 =>
      if token.kind == .identifier then
        let short := givenName? rest
        let member := if importsNoClass previous then [] else [(token.text, short)]
        member ++ groupMembers token (if short.isSome then 2 else 0) rest
      else groupMembers token 0 rest

/-- Imports the members of a group under the name in front of it. -/
def importGroup (nesting : Nesting) (place : Place) (group : Frame) (imports : Imports) : Imports :=
  let tokens := (place.ahead (group.opener + 1)).take
    (nesting.endOf group - (group.opener + 1))
  let front := Name.trim place.here.text
  (groupMembers (place.after.head?.getD place.here) 0 tokens).foldl
    (fun imports (name, short) => imports.declare (front ++ "\\" ++ Name.trim name) short) imports

/-- Imports the name at a place, which may stand for a group. -/
def importName (nesting : Nesting) (place : Place) (symbols : Symbols) : Pass :=
  let group := (nesting.frameAt (place.index + 1)).filter (·.mark == Bracket.curly.opening)
  match group with
  | some group =>
    { symbols := { symbols with imports := importGroup nesting place group symbols.imports }
      resume := nesting.endOf group + 1
      importing := true }
  | none =>
    let short := givenName? place.after
    { symbols := { symbols with imports := symbols.imports.declare place.here.text short }
      resume := place.index + if short.isSome then 3 else 1
      importing := true }

end CursorContext.Symbols
