import CursorContext.Divide
import CursorContext.Name
import CursorContext.Text.Numeral

/-!
Settings taken from texts of the environment. A setting that is absent has its default.
-/
namespace CursorContext.Settings

def separator : Char := ':'

/-- A list setting: what stands between the separators, without blanks and empty items. An empty text
counts as absent. -/
def list (value : Option String) (defaults : List String) : List String :=
  match value.bind Name.nonEmpty? with
  | none => defaults
  | some text =>
    ((divide (· == separator) text.toList).map (Text.trimList Text.isBlank)).filterMap fun item =>
      if item.isEmpty then none else some (String.ofList item)

/-- The characters that ask for signature help unless set otherwise. -/
def defaultTriggers : List String := ["'", "\"", "(", ",", "["]

def triggers (value : Option String) : List String := list value defaultTriggers

/-- The level in force when none, or none that is known, is set. -/
def defaultLevel : Nat := 30

def levels : List (String × Nat) :=
  [("CRITICAL", 50), ("FATAL", 50), ("ERROR", 40), ("WARNING", 30), ("WARN", 30), ("INFO", 20),
    ("DEBUG", 10), ("NOTSET", 0)]

/-- The capital of a letter, where that is a single ASCII letter. The names of levels have no other
letters, so every other character may stand for itself. -/
def capital (c : Char) : Char :=
  if c == 'ı' then 'I' else if c == 'ſ' then 'S' else c.toUpper

/-- The log level, by number or by name in any letter case. Digits that make no numeral are refused. -/
def logLevel? (value : Option String) : Option Nat :=
  match value with
  | none => some defaultLevel
  | some text =>
    let name := Text.trimList Text.isBlank text.toList
    if !name.isEmpty && name.all Text.isDigitLike then Text.readNatural name
    else some ((levels.lookup (String.ofList (name.map capital))).getD defaultLevel)

end CursorContext.Settings
