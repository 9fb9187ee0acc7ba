import CursorContext.Value

/-!
Messages to and from an editor. They are built by a library with rules of its own about the numbers
that a message may hold, so what it takes is a parameter here.
-/
namespace CursorContext

/-- Which numbers the messages of a library may hold. -/
structure Exchange where
  /-- The line or character that a position holds for a value, if it may hold it. -/
  position : Value → Option Int
  /-- Whether a signature may name this slot as the active one. -/
  slot : Int → Bool

namespace Exchange

/-- A position holds the very number that it was given. -/
def Keeps (exchange : Exchange) : Prop :=
  ∀ value number, exchange.position value = some number → value.toInteger = .ok number

def readPosition (exchange : Exchange) (value : Value) : Except Refusal Int :=
  match exchange.position value with
  | some number => .ok number
  | none => .error .notExchanged

end Exchange

end CursorContext
