import CursorContext.Fraction
import CursorContext.Text.Numeral

/-!
The values that an editor passes along, and what they are taken for. An editor may pass anything, so
every reading can refuse a value.
-/
namespace CursorContext

inductive Value
  | null
  | flag (value : Bool)
  | integer (value : Int)
  /-- The number `digits` divided by ten as often as there are `places`. -/
  | decimal (digits : Int) (places : Nat)
  /-- A number beyond all bounds, above or below. -/
  | infinite
  /-- The outcome of a calculation that has none. -/
  | undefined
  | text (value : String)
  | list (items : List Value)
  | record
deriving Inhabited

/-- Why a request is refused. -/
inductive Refusal
  /-- A text that is no whole number. -/
  | notNumeral
  /-- A number beyond all bounds. -/
  | tooLarge
  /-- A number that is undefined. -/
  | noOutcome
  /-- A value that is no number at all. -/
  | notNumber
  /-- A value that cannot be an address. -/
  | notAddress
  /-- A value that no message to or from the editor may hold. -/
  | notExchanged
  /-- A line whose units cannot be counted. -/
  | unencodable
deriving DecidableEq, Repr

namespace Value

/-- The whole number a value stands for. What a number has after the point is cut off. -/
def toInteger : Value → Except Refusal Int
  | flag value => .ok (if value then 1 else 0)
  | integer value => .ok value
  | decimal digits places =>
    match Fraction.truncate? digits places with
    | some value => .ok value
    | none => .error .tooLarge
  | infinite => .error .tooLarge
  | undefined => .error .noOutcome
  | text value =>
    match Text.readInteger value with
    | some value => .ok value
    | none => .error .notNumeral
  | null | list _ | record => .error .notNumber

/-- The address a value stands for. Numbers and the like are addresses of nothing. -/
def toAddress : Value → Except Refusal (Option String)
  | text value => .ok (some value)
  | list _ | record => .error .notAddress
  | _ => .ok none

end Value

end CursorContext
