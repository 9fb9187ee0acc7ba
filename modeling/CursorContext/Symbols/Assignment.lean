import CursorContext.Symbols.FunctionHeader

/-!
Where variables and properties get their types: assignments, loops, handlers of exceptions, and
declarations of properties.
-/
namespace CursorContext.Symbols

/-- The type of an assigned expression: a created object, or what a method of a class makes. -/
def valueClass (symbols : Symbols) : List Token → Option ClassRef
  | [] => none
  | token :: rest =>
    if token.opening? == some .round &&
        rest.head?.any (fun next => next.kind == .keyword && next.text == "new") then
      valueClass symbols rest
    else if token.isKeyword ["new"] then
      (rest.head?.filter (·.kind == .identifier)).bind fun name => symbols.resolve name.text
    else
      match rest with
      | access :: method :: list :: _ =>
        if token.kind == .identifier && access.isOperator ["::"] && method.kind == .identifier &&
            list.opening? == some .round then
          symbols.resolve token.text
        else none
      | _ => none

theorem valueClass_cons (symbols : Symbols) (token : Token) (rest : List Token) :
    symbols.valueClass (token :: rest) =
      if token.opening? == some .round &&
          rest.head?.any (fun next => next.kind == .keyword && next.text == "new") then
        symbols.valueClass rest
      else if token.isKeyword ["new"] then
        (rest.head?.filter (·.kind == .identifier)).bind fun name => symbols.resolve name.text
      else if token.kind == .identifier && rest.head?.any (·.isOperator ["::"]) &&
          (rest.drop 1).head?.any (·.kind == .identifier) &&
          (rest.drop 2).head?.any (·.opening? == some .round) then
        symbols.resolve token.text
      else none := by
  rcases rest with _ | ⟨access, _ | ⟨method, _ | ⟨list, rest⟩⟩⟩ <;> simp [valueClass]

/-- The property assigned to when the tokens follow the variable for the object itself, and what is
assigned. -/
def assignedProperty? : List Token → Option (String × List Token)
  | access :: name :: equals :: value =>
    if access.isOperator ["->"] && name.kind == .identifier && equals.isOperator ["="] then
      some (name.text, value)
    else none
  | _ => none

theorem assignedProperty?_eq (after : List Token) :
    assignedProperty? after =
      if after.head?.any (·.isOperator ["->"]) && (after.drop 2).head?.any (·.isOperator ["="]) then
        ((after.drop 1).head?.filter (·.kind == .identifier)).map fun name =>
          (name.text, after.drop 3)
      else none := by
  rcases after with _ | ⟨access, _ | ⟨name, _ | ⟨equals, value⟩⟩⟩
  · simp [assignedProperty?]
  · simp [assignedProperty?]
  · simp [assignedProperty?]
  · cases reached : access.isOperator ["->"] <;> cases assigned : equals.isOperator ["="] <;>
      cases named : name.kind == .identifier <;>
      simp [assignedProperty?, reached, assigned, named, Option.filter]

/-- Declares the property at a place, if modifiers say that it is one. -/
def declareProperty (place : Place) (symbols : Symbols) : Symbols :=
  let front := place.before.takeWhile fun token => token.isName || token.isOperator ["?", "|", "&"]
  let names := front.filter (·.isName)
  if names.any isModifier then
    symbols.setProperty (String.ofList (place.here.text.toList.drop 1))
      (symbols.soleClass ((names.filter (!isModifier ·)).reverse.map (·.text)))
  else symbols

/-- Binds a variable that is assigned, or that a loop gives a value of unknown type. -/
def readLocal (place : Place) (symbols : Symbols) : Symbols :=
  if place.nextIs (·.isOperator ["="]) then
    symbols.bind place.here.text (symbols.valueClass (place.after.drop 1))
  else if place.previousIs (·.isKeyword ["as"]) then symbols.bind place.here.text none
  else symbols

/-- Reads the variable at a place. One that is itself a member is no variable of the scope. -/
def readVariable (nesting : Nesting) (place : Place) (symbols : Symbols) : Symbols :=
  if place.previousIs (·.isMemberOperator) then symbols
  else if symbols.inClassBody nesting place.index then declareProperty place symbols
  else
    match (if place.here.text == "$this" then assignedProperty? place.after else none) with
    | some (name, value) => symbols.setProperty name (symbols.valueClass value)
    | none => readLocal place symbols

/-- Binds the variable of a handler to the first class it catches. -/
def readHandler (nesting : Nesting) (place : Place) (symbols : Symbols) : Symbols :=
  match nesting.frameAt (place.index + 1) with
  | none => symbols
  | some frame =>
    let tokens := nesting.directTokens frame
    match tokens.find? (·.kind == .variable) with
    | none => symbols
    | some token =>
      let types := (tokens.takeWhile (·.kind != .variable)).filter (·.kind == .identifier)
      symbols.bind token.text (symbols.soleClass ((types.take 1).map (·.text)))

end CursorContext.Symbols
