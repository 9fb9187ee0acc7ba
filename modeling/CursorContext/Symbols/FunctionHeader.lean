import CursorContext.Divide
import CursorContext.Symbols.Pass

/-!
Headers of functions, methods, closures and arrow functions. A function begins with a scope that
holds its parameters and what it captures, and nothing else.
-/
namespace CursorContext.Symbols

/-- Words in front of a declaration that are not part of its type. -/
def modifiers : List String :=
  ["public", "protected", "private", "var", "static", "readonly", "final", "abstract"]

def isModifier (token : Token) : Bool := modifiers.contains (Text.lower token.text)

structure Parameter where
  name : String
  type : Option ClassRef
  /-- A parameter with a modifier is also a property. -/
  promoted : Bool
deriving DecidableEq, Repr

/-- The parameter one piece of a list declares. What follows the variable is its default value. -/
def parameter? (symbols : Symbols) (piece : List Token) : Option Parameter :=
  let front := piece.takeWhile (·.kind != .variable)
  let names := front.filter (·.isName)
  (piece.find? (·.kind == .variable)).map fun token =>
    { name := token.text
      type :=
        if front.any (·.isOperator ["..."]) then none
        else symbols.soleClass ((names.filter (!isModifier ·)).map (·.text))
      promoted := names.any isModifier }

def parameters (symbols : Symbols) (nesting : Nesting) (frame : Frame) : List Parameter :=
  (divide (·.isOperator [","]) (nesting.directTokens frame)).filterMap symbols.parameter?

/-- A header up to its return type. -/
structure FunctionHeader where
  /-- Whether the body is a single expression. -/
  arrow : Bool
  name : Option String
  parameters : List Parameter
  captured : List String

/-- The bindings a function begins with. -/
def initialBindings (symbols : Symbols) (header : FunctionHeader) : Bindings :=
  let own := header.parameters.foldl
    (fun bindings parameter => bindings.insert parameter.name parameter.type) ({} : Bindings)
  header.captured.foldl (fun bindings name => bindings.insert name (symbols.typeOf name)) own

/-- The promoted parameters of a constructor become properties. -/
def promote (symbols : Symbols) (header : FunctionHeader) : Symbols :=
  if header.name == some "__construct" then
    (header.parameters.filter (·.promoted)).foldl
      (fun symbols parameter =>
        symbols.setProperty (String.ofList (parameter.name.toList.drop 1)) parameter.type) symbols
  else symbols

def isReturnType (token : Token) : Bool := token.isName || token.isOperator [":", "?", "|", "&"]

def enterScope (symbols : Symbols) (bindings : Bindings) (extent : Extent) : Symbols :=
  { symbols with scopes := { bindings, extent } :: symbols.scopes }

/-- Reads what follows a header's lists from `index` on, and enters the function if it has a body. -/
def enterFunction (nesting : Nesting) (place : Place) (symbols : Symbols) (header : FunctionHeader)
    (index : Nat) : Pass :=
  let rest := place.ahead index
  let start := index + (rest.takeWhile isReturnType).length
  match rest.dropWhile isReturnType with
  | [] => { symbols, resume := start }
  | token :: _ =>
    let bindings := symbols.initialBindings header
    let symbols := symbols.promote header
    if header.arrow && token.isOperator ["=>"] then
      { symbols := symbols.enterScope bindings (.arrow (nesting.enclosing start))
        resume := start + 1 }
    else if token.opening? == some .curly then
      let opened := header.name.toList.map fun name => { name, body := start }
      { symbols :=
          { symbols.enterScope bindings (.body start) with
            openFunctions := opened ++ symbols.openFunctions }
        resume := start + 1 }
    else { symbols, resume := start }

/-- Reads the variables a closure captures, if it says so at `index`, and goes on. -/
def readCaptures (nesting : Nesting) (place : Place) (symbols : Symbols) (header : FunctionHeader)
    (index : Nat) : Pass :=
  if (place.ahead index).head?.any (·.isKeyword ["use"]) then
    match nesting.frameAt (index + 1) with
    | none => { symbols, resume := index + 1 }
    | some frame =>
      match frame.closer with
      | none => { symbols, resume := index + 2 }
      | some close =>
        let captured := ((nesting.directTokens frame).filter (·.kind == .variable)).map (·.text)
        enterFunction nesting place symbols { header with captured } (close + 1)
  else enterFunction nesting place symbols header index

/-- Reads the function header at a place. Inside an unfinished parameter list nothing is entered. -/
def readFunction (nesting : Nesting) (place : Place) (symbols : Symbols) : Pass :=
  let arrow := place.here.isKeyword ["fn"]
  let first := if place.nextIs (·.isOperator ["&"]) then place.index + 2 else place.index + 1
  let name :=
    if arrow then none else ((place.ahead first).head?.filter (·.isName)).map (·.text)
  let list := if name.isSome then first + 1 else first
  match (nesting.frameAt list).filter (·.mark == Bracket.round.opening) with
  | none => { symbols, resume := list }
  | some frame =>
    match frame.closer with
    | none => { symbols, resume := list + 1 }
    | some close =>
      readCaptures nesting place symbols
        { arrow, name, parameters := symbols.parameters nesting frame, captured := [] } (close + 1)

end CursorContext.Symbols
