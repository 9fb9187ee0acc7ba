import CursorContext.Text.Blank
import Std.Data.TreeMap

/-!
Qualified names, whose segments are joined by backslashes, and the names a file imports.
-/
namespace CursorContext

namespace Name

def isSeparator (c : Char) : Bool := c == '\\'

/-- A name without the backslashes at its front. -/
def trimStart (name : String) : String := String.ofList (name.toList.dropWhile isSeparator)

/-- A name without the backslashes at its end. -/
def trimEnd (name : String) : String :=
  String.ofList (name.toList.reverse.dropWhile isSeparator).reverse

/-- A name without the backslashes at its ends. -/
def trim (name : String) : String := String.ofList (Text.trimList isSeparator name.toList)

def firstSegment (name : String) : String :=
  String.ofList (name.toList.takeWhile (!isSeparator ·))

/-- What follows the first segment, beginning with the backslash. -/
def afterFirst (name : String) : String :=
  String.ofList (name.toList.dropWhile (!isSeparator ·))

def lastSegment (name : String) : String :=
  String.ofList (name.toList.reverse.takeWhile (!isSeparator ·)).reverse

/-- A name, unless nothing is left of it. -/
def nonEmpty? (name : String) : Option String := if name == "" then none else some name

end Name

/-- Short names and the full names they stand for. -/
abbrev Imports := Std.TreeMap String String

/-- Imports `name`, under its last segment unless it is given another short name. A later import of
the same short name replaces an earlier one. -/
def Imports.declare (imports : Imports) (name : String) (short : Option String) : Imports :=
  match Name.nonEmpty? (Name.trim name) with
  | none => imports
  | some full =>
    Std.TreeMap.insert imports ((short.bind Name.nonEmpty?).getD (Name.lastSegment full)) full

end CursorContext
