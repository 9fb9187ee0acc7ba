import CursorContext.Symbols.Assignment
import CursorContext.Symbols.ClassHeader
import CursorContext.Symbols.Import

/-!
The symbols known at the end of a token sequence.
-/
namespace CursorContext.Symbols

def readKeyword (nesting : Nesting) (place : Place) (symbols : Symbols) : Pass :=
  let word := Text.lower place.here.text
  if word == "namespace" then enterNamespace place symbols
  else if word == "use" then beginImport nesting place symbols
  else if ["class", "interface", "trait", "enum"].contains word then readClass place symbols
  else if ["function", "fn"].contains word then readFunction nesting place symbols
  else { symbols, resume := place.index + 1 }

/-- Reads what begins at a place, after leaving what ends there. -/
def readStatement (nesting : Nesting) (place : Place) (symbols : Symbols) : Pass :=
  let symbols := symbols.leave nesting place.index place.here
  match place.here.kind with
  | .keyword => readKeyword nesting place symbols
  | .identifier =>
    { symbols :=
        if Text.lower place.here.text == "catch" then readHandler nesting place symbols else symbols
      resume := place.index + 1 }
  | .variable => { symbols := readVariable nesting place symbols, resume := place.index + 1 }
  | _ => { symbols, resume := place.index + 1 }

/-- Goes on with an import statement. A token that does not belong to it is read as usual. -/
def readImport (nesting : Nesting) (place : Place) (symbols : Symbols) : Pass :=
  if place.here.isOperator [";"] then { symbols, resume := place.index + 1 }
  else if place.here.kind == .identifier then importName nesting place symbols
  else if place.here.isOperator [","] then
    { symbols, resume := place.index + 1, importing := true }
  else readStatement nesting place symbols

/-- Reads one place, unless it has been dealt with. -/
def visit (nesting : Nesting) (pass : Pass) (place : Place) : Pass :=
  if place.index < pass.resume then pass
  else if pass.importing then readImport nesting place pass.symbols
  else readStatement nesting place pass.symbols

/-- The pass once it has come to the first `count` places. -/
def passUpTo (nesting : Nesting) (count : Nat) : Pass :=
  ((Place.all nesting.tokens.toList).take count).foldl (visit nesting) {}

/-- The symbols at the end of the tokens. -/
def ofNesting (nesting : Nesting) : Symbols :=
  ((Place.all nesting.tokens.toList).foldl (visit nesting) {}).symbols

end CursorContext.Symbols
