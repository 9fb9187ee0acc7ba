import CursorContext.Symbols

/-!
The class an expression belongs to, read backwards from its last token. A chain of calls is followed
back to the expression it begins with.
-/
namespace CursorContext.Symbols

/-- The class created inside a pair of round brackets. -/
def createdInside (symbols : Symbols) (nesting : Nesting) (first last : Nat) : Option ClassRef :=
  match nesting.tokens[first + 1]?, nesting.tokens[first + 2]? with
  | some creation, some name =>
    if first + 2 < last && creation.isKeyword ["new"] && name.kind == .identifier then
      symbols.resolve name.text
    else none
  | _, _ => none

/-- Whether the token at `index` is reached from the object itself. -/
def isOwnMember (nesting : Nesting) (index : Nat) : Bool :=
  2 ≤ index && nesting.tokens[index - 1]?.any (·.isOperator ["->", "?->"]) &&
    nesting.tokens[index - 2]?.any (·.text == "$this")

/-- The class of the expression that ends with `token`, when `operator` follows. -/
def baseType (symbols : Symbols) (nesting : Nesting) (index : Nat) (token : Token)
    (operator : String) : Option ClassRef :=
  match token.kind with
  | .variable =>
    if token.text == "$this" then
      symbols.currentClass.map fun definition =>
        { written := definition.name, fullName := definition.fullName }
    else symbols.typeOf token.text
  | .identifier =>
    if operator == "::" then symbols.resolve token.text
    else if isOwnMember nesting index then symbols.typeOfProperty token.text
    else none
  | _ => none

/-- The class of the expression that ends just before the token at `stop`, when `operator` follows.
A call leads back to what it is called on, which stands before it, so the search ends. -/
def receiverType (symbols : Symbols) (nesting : Nesting) (stop : Nat) (operator : String) :
    Option ClassRef :=
  match stop with
  | 0 => none
  | last + 1 =>
    match nesting.tokens[last]? with
    | none => none
    | some token =>
      if token.closing? == some .round then
        match nesting.frameEndingAt last with
        | none => none
        | some frame =>
          if frame.role == .group then symbols.createdInside nesting frame.opener last
          else
            match frame.callee with
            | none => none
            | some head =>
              if _bounded : 1 ≤ head ∧ head ≤ last then
                match nesting.tokens[head]?, nesting.tokens[head - 1]? with
                | some name, some before =>
                  if !name.isName then none
                  else if before.isKeyword ["new"] then symbols.resolve name.text
                  else if before.isMemberOperator then
                    receiverType symbols nesting (head - 1) before.text
                  else none
                | _, _ => none
              else none
      else symbols.baseType nesting last token operator
termination_by stop

end CursorContext.Symbols
