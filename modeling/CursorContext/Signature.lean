import CursorContext.Context
import CursorContext.Exchange

/-!
The call at the cursor as a signature to be shown: the arguments before the cursor and a slot for the
one being written.
-/
namespace CursorContext

structure Signature where
  label : String
  slots : List String
  active : Int
deriving DecidableEq, Repr

namespace Signature

/-- Stands for the argument being written. -/
def placeholder : String := "…"

/-- The signature of a function, which may be called on a class. It is sent to the editor, so the
active slot has to be one that a message may name. -/
def build (exchange : Exchange) (onClass : Option String) (function : String)
    (parameters : List String) (active : Int) : Except Refusal Signature :=
  let slots := parameters ++ [placeholder]
  let front := match onClass.bind Name.nonEmpty? with
    | some name => name ++ "::"
    | none => ""
  if exchange.slot active then
    .ok { label := front ++ function ++ "(" ++ ", ".intercalate slots ++ ")", slots, active }
  else .error .notExchanged

end Signature

def Context.signature (exchange : Exchange) (context : Context) : Except Refusal Signature :=
  Signature.build exchange (context.receiver.map (·.written)) context.function context.parameters
    context.slot.index

end CursorContext
