import CursorContext.Text.Blank
import CursorContext.Text.Digits

/-!
Whole numbers as they are typed: decimal digits of any script, single underscores between them, a
sign in front and blanks around.
-/
namespace CursorContext.Text

/-- Longer numerals are refused. -/
def maxDigits : Nat := 4300

/-- Continues a numeral of which `value` has been read, where `afterDigit` says whether a digit came
last. -/
def readDigits (value : Nat) (afterDigit : Bool) : List Char → Option Nat
  | [] => if afterDigit then some value else none
  | c :: rest =>
    match digitValue? c with
    | some digit => readDigits (10 * value + digit) true rest
    | none => if c == '_' && afterDigit then readDigits value false rest else none

def readNatural (cs : List Char) : Option Nat :=
  if maxDigits < cs.countP isDigit then none else readDigits 0 false cs

/-- The blanks that may stand around a numeral; the ASCII separators are not among them. -/
def isMargin (c : Char) : Bool := isBlank c && !(28 ≤ c.toNat && c.toNat ≤ 31)

/-- The number a text stands for. -/
def readInteger (text : String) : Option Int :=
  match trimList isMargin text.toList with
  | [] => none
  | c :: rest =>
    if c == '-' then (readNatural rest).map fun value => -(value : Int)
    else if c == '+' then (readNatural rest).map (↑·)
    else (readNatural (c :: rest)).map (↑·)

end CursorContext.Text
