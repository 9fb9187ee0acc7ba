import CursorContext.Context
import CursorContext.Divide
import CursorContext.Document

/-!
Places in a document, by offset or by line and character. Lines and offsets count from zero, and
characters within a line are counted in UTF-16 units.
-/
namespace CursorContext

/-- A place that the document does not have. -/
inductive CursorError
  | noOffset (offset : Int) (length : Nat)
  | noLine (line : Int) (lines : Nat)
  | noCharacter (character line : Int)
deriving DecidableEq, Repr

def CursorError.message : CursorError → String
  | noOffset offset length =>
    "offset " ++ toString offset ++ " outside document of length " ++ toString length
  | noLine line lines =>
    "line " ++ toString line ++ " outside document of " ++ toString lines ++ " lines"
  | noCharacter character line =>
    "character " ++ toString character ++ " outside line " ++ toString line

/-- Why a line and character lead to no place. -/
inductive PositionError
  | outside (error : CursorError)
  /-- The line holds a surrogate, so its units cannot be counted. -/
  | unencodable
deriving DecidableEq, Repr

namespace Position

/-- The lines of a text without the characters that end them. -/
def lines (text : Document) : List Document := divide (· == .newline) text

/-- The offset at which the line after `before` begins. -/
def lineStart (before : List Document) : Nat :=
  before.foldr (fun line rest => line.length + 1 + rest) 0

/-- How much of a line stands before a character. A character inside a pair of units belongs to its
start. A negative character is refused before the units of the line are counted. -/
def column (line : Document) (number character : Int) : Except PositionError Nat :=
  if character < 0 then .error (.outside (.noCharacter character number))
  else
    match line.chars? with
    | none => .error .unencodable
    | some chars =>
      if Text.units chars < character then .error (.outside (.noCharacter character number))
      else .ok (Text.charsWithin character chars)

/-- The offset of a line and character. -/
def offsetOf (text : Document) (line character : Int) : Except PositionError Nat :=
  let all := lines text
  match (if line < 0 then none else all[line.toNat]?) with
  | none => .error (.outside (.noLine line all.length))
  | some found => (column found line character).map (lineStart (all.take line.toNat) + ·)

end Position

namespace Context

/-- The context at the end of a text. -/
def ofDocument (text : Document) : Option Context := ofBuffer text.seen

/-- The context at an offset of a document, of which only the part before it counts. -/
def atOffset (text : Document) (offset : Int) : Except CursorError (Option Context) :=
  if offset < 0 ∨ text.length < offset then .error (.noOffset offset text.length)
  else .ok (ofDocument (text.take offset.toNat))

/-- The context at a line and character of a document. -/
def atPosition (text : Document) (line character : Int) :
    Except PositionError (Option Context) := do
  let offset ← Position.offsetOf text line character
  (atOffset text offset).mapError .outside

end Context

end CursorContext
