import CursorContext.Text.Casing
import CursorContext.Text.Ranges

/-!
Small letters. Words of the language are compared by their small form. All characters are mapped one
by one, but for two: a dotted capital I keeps its dot as a mark of its own, and a capital sigma
takes its final form at the end of a word.
-/
namespace CursorContext.Text

def isCased (c : Char) : Bool :=
  if c.toNat < 128 then c.isAlpha else inRanges casedRanges c

/-- Characters to look past when the case of a neighbour is asked for. -/
def isTransparent (c : Char) : Bool :=
  if c.toNat < 128 then ['\x27', '.', ':', '^', '\x60'].contains c
  else inRanges transparentRanges c

/-- Whether the nearest character that is not transparent has a case. -/
def nextIsCased (cs : List Char) : Bool :=
  match cs.dropWhile isTransparent with
  | [] => false
  | c :: _ => isCased c

def CaseRun.covers (run : CaseRun) (code : Nat) : Bool :=
  run.first ≤ code && code ≤ run.last && (code - run.first) % run.step == 0

/-- The small letter of a capital outside ASCII, and every other character itself. -/
def smallLetter (c : Char) : Char :=
  match capitalRuns.find? (·.covers c.toNat) with
  | some run => Char.ofNat (c.toNat + run.shift).toNat
  | none => c

/-- The small form of `c` between the characters `before`, nearest first, and `after`. -/
def smallForm (before : List Char) (c : Char) (after : List Char) : List Char :=
  if c.toNat < 128 then [c.toLower]
  else if c == 'İ' then ['i', '\u0307']
  else if c == 'Σ' then [if nextIsCased before && !nextIsCased after then 'ς' else 'σ']
  else [smallLetter c]

def lowerFrom (before : List Char) : List Char → List Char
  | [] => []
  | c :: after => smallForm before c after ++ lowerFrom (c :: before) after

def lower (text : String) : String := String.ofList (lowerFrom [] text.toList)

end CursorContext.Text
