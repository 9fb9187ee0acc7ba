import CursorContext.Symbols.Pass

/-!
Headers of classes, interfaces, traits and enumerations.
-/
namespace CursorContext.Symbols

inductive Clause
  | base
  | interfaces
deriving DecidableEq, Repr

/-- The classes named in the clauses of a header, each with its clause. -/
def clauseNames (imports : Imports) (clause : Option Clause) : List Token → List (Clause × String)
  | [] => []
  | token :: rest =>
    if token.isKeyword ["extends"] then clauseNames imports (some .base) rest
    else if token.isKeyword ["implements"] then clauseNames imports (some .interfaces) rest
    else
      let named :=
        if token.kind == .identifier then
          clause.bind fun clause => (fullNameOf imports none token.text).map (clause, ·)
        else none
      named.toList ++ clauseNames imports clause rest

def namesIn (clause : Clause) (names : List (Clause × String)) : List String :=
  names.filterMap fun (found, name) => if found = clause then some name else none

/-- A header ends before a bracket, a variable or the end of the statement. -/
def endsHeader (token : Token) : Bool :=
  token.isOperator [";"] || token.kind == .opener || token.kind == .closer || token.kind == .variable

/-- The definition a header declares, without its body. -/
def headerClass (symbols : Symbols) (name : String) (header : List Token) : ClassDef :=
  let names := clauseNames symbols.imports none header
  { name
    space := symbols.space
    base := (namesIn .base names).head?
    interfaces := namesIn .interfaces names }

/-- Records a definition, entering its body if that begins at `body`. -/
def declareClass (symbols : Symbols) (definition : ClassDef) (body : Option Nat) : Symbols :=
  { symbols with
    classes := symbols.classes.push { definition with body }
    openClasses :=
      if body.isSome then symbols.classes.size :: symbols.openClasses else symbols.openClasses }

/-- Reads the header at a place. A class created on the spot has no name. -/
def readClass (place : Place) (symbols : Symbols) : Pass :=
  match place.after with
  | [] => { symbols, resume := place.index + 1 }
  | name :: rest =>
    if place.previousIs (·.isKeyword ["new"]) || name.kind != .identifier then
      { symbols, resume := place.index + 1 }
    else
      let header := rest.takeWhile (!endsHeader ·)
      let stop := place.index + 2 + header.length
      let definition := symbols.headerClass name.text header
      if (rest.dropWhile (!endsHeader ·)).head?.any (·.opening? == some .curly) then
        { symbols := symbols.declareClass definition (some stop), resume := stop + 1 }
      else { symbols := symbols.declareClass definition none, resume := stop }

end CursorContext.Symbols
