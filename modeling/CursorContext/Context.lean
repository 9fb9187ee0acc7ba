import CursorContext.Argument.Slot
import CursorContext.Receiver
import CursorContext.Token.Scan

/-!
What is being called at the cursor. The cursor is the end of the buffer.
-/
namespace CursorContext

/-- What is told about the class around the cursor. -/
structure ClassOutline where
  fullName : String
  base : Option String
  interfaces : List String
deriving DecidableEq, Repr

/-- The call whose argument list the cursor is in, and the code around it. -/
structure Context where
  function : String
  /-- The class the function is called on. -/
  receiver : Option ClassRef := none
  aroundClass : Option ClassOutline := none
  aroundFunction : Option String := none
  slot : Slot
  /-- The arguments before the cursor. -/
  parameters : List String
deriving DecidableEq, Repr

def ClassDef.outline (definition : ClassDef) : ClassOutline :=
  { fullName := definition.fullName
    base := definition.base
    interfaces := definition.interfaces }

/-- The function called with the name at `head`, and the class it is called on. Creating an object
calls its constructor. -/
def calledFunction? (nesting : Nesting) (symbols : Symbols) (head : Nat) :
    Option (String × Option ClassRef) :=
  match nesting.tokens[head]? with
  | none => none
  | some token =>
    if !token.isName then none
    else
      let name := Name.trimStart token.text
      match (if head = 0 then none else nesting.tokens[head - 1]?) with
      | none => some (name, none)
      | some before =>
        if before.isMemberOperator then
          some (name, symbols.receiverType nesting (head - 1) before.text)
        else if before.isKeyword ["new"] then some ("__construct", symbols.resolve token.text)
        else some (name, none)

/-- The context at the end of a nesting, which may lie in a comment. -/
def Nesting.context? (nesting : Nesting) (inComment : Bool) : Option Context := do
  let symbols := Symbols.ofNesting nesting
  let frame ← nesting.cursorCall inComment
  let (function, receiver) ← calledFunction? nesting symbols (← frame.callee)
  let arguments := nesting.arguments frame
  return {
    function
    receiver
    aroundClass := symbols.currentClass.map (·.outline)
    aroundFunction := symbols.functionName
    slot := arguments.slot
    parameters := arguments.earlier }

/-- The context at the end of a buffer. -/
def Context.ofBuffer (buffer : String) : Option Context :=
  let tokens := Token.scan buffer
  (Nesting.ofTokens (Token.logical tokens)).context? (Token.endsInComment tokens)

end CursorContext
