import CursorContext.Definition
import CursorContext.Nesting

/-!
What can be told about the code around a place: the imports and namespace in force, the classes, the
class and function whose bodies are open, and the variables of the innermost function. A function
sees none of the variables outside it, so each has a scope of its own.
-/
namespace CursorContext

/-- How far a scope reaches. -/
inductive Extent
  /-- Through a body, up to its closing bracket. -/
  | body (frame : Nat)
  /-- Through an expression in the frame `container`, up to a separator there or its closing bracket. -/
  | arrow (container : Option Nat)
deriving DecidableEq, Repr

/-- The variables of one function. -/
structure Scope where
  bindings : Bindings
  extent : Extent

structure OpenFunction where
  name : String
  body : Nat
deriving DecidableEq, Repr

structure Symbols where
  imports : Imports := {}
  /-- The namespace in force. -/
  space : Option String := none
  /-- All classes in the order of their declaration. -/
  classes : Array ClassDef := #[]
  /-- The places in `classes` of those whose body is open, innermost first. -/
  openClasses : List Nat := []
  /-- The functions with a name whose body is open, innermost first. -/
  openFunctions : List OpenFunction := []
  /-- The scopes of the functions around, innermost first. -/
  scopes : List Scope := []
  /-- The variables outside all functions. -/
  file : Bindings := {}

namespace Symbols

def currentClass (symbols : Symbols) : Option ClassDef :=
  symbols.openClasses.head?.bind (symbols.classes[·]?)

/-- The innermost open function that has a name. -/
def functionName (symbols : Symbols) : Option String := symbols.openFunctions.head?.map (·.name)

/-- The bindings of the innermost scope. -/
def bindings (symbols : Symbols) : Bindings :=
  match symbols.scopes with
  | [] => symbols.file
  | scope :: _ => scope.bindings

/-- The type a class name refers to here. -/
def resolve (symbols : Symbols) (name : String) : Option ClassRef :=
  classRef symbols.imports symbols.currentClass name

def typeOf (symbols : Symbols) (name : String) : Option ClassRef := symbols.bindings[name]?.join

/-- The type of a property of the class around. -/
def typeOfProperty (symbols : Symbols) (name : String) : Option ClassRef :=
  (symbols.currentClass.bind (·.properties[name]?)).join

/-- The class that a list of types names; several classes leave it open which. -/
def soleClass (symbols : Symbols) (names : List String) : Option ClassRef :=
  match names.filterMap symbols.resolve with
  | [type] => some type
  | _ => none

def bind (symbols : Symbols) (name : String) (type : Option ClassRef) : Symbols :=
  match symbols.scopes with
  | [] => { symbols with file := symbols.file.insert name type }
  | scope :: outer =>
    { symbols with scopes := { scope with bindings := scope.bindings.insert name type } :: outer }

/-- Types a property of the class around, if there is one. -/
def setProperty (symbols : Symbols) (name : String) (type : Option ClassRef) : Symbols :=
  match symbols.openClasses with
  | [] => symbols
  | place :: _ =>
    { symbols with classes := symbols.classes.modify place fun definition =>
        { definition with properties := definition.properties.insert name type } }

/-- Whether a token stands directly in the body of the class around. -/
def inClassBody (symbols : Symbols) (nesting : Nesting) (index : Nat) : Bool :=
  match symbols.currentClass with
  | none => false
  | some definition => nesting.enclosing index == definition.body

/-- Whether a body is closed by the token at `index`. -/
def bodyEnds (nesting : Nesting) (index body : Nat) : Bool := nesting.closeOf body == some index

def scopeEnds (nesting : Nesting) (index : Nat) (token : Token) (scope : Scope) : Bool :=
  match scope.extent with
  | .body frame => bodyEnds nesting index frame
  | .arrow container =>
    container.any (bodyEnds nesting index) ||
      (token.isOperator [",", ";"] && nesting.enclosing index == container)

def classEnds (symbols : Symbols) (nesting : Nesting) (index place : Nat) : Bool :=
  ((symbols.classes[place]?).bind (·.body)).any (bodyEnds nesting index)

/-- Leaves the scopes, classes and functions that end with the token at `index`. -/
def leave (symbols : Symbols) (nesting : Nesting) (index : Nat) (token : Token) : Symbols :=
  { symbols with
    scopes := symbols.scopes.dropWhile (scopeEnds nesting index token)
    openClasses := symbols.openClasses.dropWhile (symbols.classEnds nesting index)
    openFunctions := symbols.openFunctions.dropWhile fun function =>
      bodyEnds nesting index function.body }

end Symbols

end CursorContext
