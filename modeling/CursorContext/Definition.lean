import CursorContext.Name
import CursorContext.Text.Lowercase

/-!
Classes and the types of variables, and what a class name written in the source refers to.
-/
namespace CursorContext

/-- A class as it is written where it is used, with its full name. -/
structure ClassRef where
  written : String
  fullName : String
deriving DecidableEq, Repr

/-- The types of variables or properties by name. A name without a type has been assigned something
of unknown type, which hides what it was before. -/
abbrev Bindings := Std.TreeMap String (Option ClassRef)

/-- A class, interface, trait or enumeration. -/
structure ClassDef where
  name : String
  /-- The namespace it is declared in. -/
  space : Option String := none
  /-- The class it extends. -/
  base : Option String := none
  /-- The interfaces it implements. -/
  interfaces : List String := []
  properties : Bindings := {}
  /-- The frame of its body. -/
  body : Option Nat := none

def ClassDef.fullName (definition : ClassDef) : String :=
  match definition.space.bind Name.nonEmpty? with
  | some space => space ++ "\\" ++ definition.name
  | none => definition.name

/-- Types that are no classes. -/
def builtinTypes : List String :=
  ["int", "integer", "float", "double", "string", "bool", "boolean", "array", "callable", "iterable",
    "object", "mixed", "void", "null", "false", "true", "never", "resource"]

/-- The full name of a name that refers to no class by a word of the language. -/
def importedName (imports : Imports) (name : String) : Option String :=
  let name := Name.trimEnd name
  match imports[Name.firstSegment name]? with
  | some full => some (full ++ Name.afterFirst name)
  | none => Name.nonEmpty? name

/-- The full name a class name refers to. A leading backslash says that the name is already full, and
an unknown name stands for itself. -/
def fullNameOf (imports : Imports) (current : Option ClassDef) (name : String) : Option String :=
  if name.toList.head? == some '\\' then Name.nonEmpty? (Name.trim name)
  else
    let word := Text.lower name
    if word == "self" || word == "static" then current.map (·.fullName)
    else if word == "parent" then current.bind (·.base)
    else if builtinTypes.contains word then none
    else importedName imports name

def classRef (imports : Imports) (current : Option ClassDef) (name : String) : Option ClassRef :=
  (fullNameOf imports current name).map fun fullName => { written := name, fullName }

end CursorContext
