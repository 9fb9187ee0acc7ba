import CursorContext.Argument.Piece
import Std.Data.TreeMap

/-!
The place of the cursor in an argument list: which argument, and if that is an array literal, whether
a key or a value is being written. The separators of all frames are found in one go and grouped by
frame, so that each array reads only its own.
-/
namespace CursorContext

/-- Where the cursor stands in an argument list. -/
structure Slot where
  /-- How many arguments come before. -/
  index : Nat
  isArray : Bool := false
  /-- Whether what is being written may be a key. -/
  isKey : Bool := false
  /-- The key whose value is being written. -/
  key : Option String := none
  /-- The keys, or entries without one, that the array already has. -/
  keys : List String := []
deriving DecidableEq, Repr

/-- Indexes grouped by a key, in each group in their order. -/
def groupIndexes (key : Nat → Option Nat) (indexes : List Nat) : Std.TreeMap Nat (List Nat) :=
  indexes.foldr
    (fun index groups =>
      match key index with
      | none => groups
      | some group => groups.insert group (index :: groups.getD group []))
    {}

namespace Nesting

/-- The commas and double arrows after `start` by the frame they stand directly in. -/
def separators (nesting : Nesting) (start : Nat) : Std.TreeMap Nat (List Nat) :=
  groupIndexes
    (fun index =>
      if nesting.operatorAt "," index || nesting.operatorAt "=>" index then nesting.enclosing index
      else none)
    (List.range' start (nesting.tokens.size - start))

/-- What a literal says that makes up the whole of a piece. -/
def literal? (nesting : Nesting) (piece : Piece) : Option String :=
  match nesting.tokensOf piece with
  | [token] => if token.kind == .string then some token.contents else none
  | _ => none

/-- The first of the ascending `arrows` in a piece. -/
def firstArrow? (arrows : List Nat) (piece : Piece) : Option Nat :=
  (arrows.find? (piece.start ≤ ·)).filter (· < piece.stop)

/-- The key of an array entry; of an entry without one, its value. -/
def entryKey? (nesting : Nesting) (arrows : List Nat) (entry : Piece) : Option String :=
  nesting.literal? { entry with stop := (firstArrow? arrows entry).getD entry.stop }

/-- Whether an array literal with which a piece begins opens with `frame`. -/
def beginsWithArray (nesting : Nesting) (piece : Piece) (frame : Frame) : Bool :=
  let word := nesting.tokens[piece.start]?.any fun token =>
    token.kind == .identifier && Text.lower token.text == "array"
  piece.start < piece.stop && frame.role == .array &&
    frame.opener == if word then piece.start + 1 else piece.start

/-- The open frames inside a frame, outermost first. -/
def openInside (nesting : Nesting) (frame : Frame) : List Frame :=
  (nesting.stack.takeWhile (frame.opener < ·.opener)).reverse

/-- The place of the cursor in an open array, where `inner` are the open frames inside it. An array
that is the value of the last entry takes its place. -/
def arraySlot (nesting : Nesting) (separators : Std.TreeMap Nat (List Nat)) (index : Nat)
    (array : Frame) (inner : List Frame) : Slot :=
  let own := separators.getD array.opener []
  let arrows := own.filter (nesting.operatorAt "=>")
  let entries := Pieces.ofCommas (array.opener + 1) nesting.tokens.size
    (own.filter (nesting.operatorAt ","))
  let keys := entries.completed.filterMap (nesting.entryKey? arrows)
  match firstArrow? arrows entries.last with
  | none =>
    { index
      isArray := true
      isKey := entries.last.start == entries.last.stop || (nesting.literal? entries.last).isSome
      keys }
  | some arrow =>
    let valued : Slot :=
      { index, isArray := true, key := nesting.literal? { entries.last with stop := arrow }, keys }
    match inner with
    | [] => valued
    | nested :: deeper =>
      if nesting.beginsWithArray { entries.last with start := arrow + 1 } nested then
        arraySlot nesting separators index nested deeper
      else valued

end Nesting

/-- The arguments before the cursor, written out, and the place of the cursor. -/
structure Arguments where
  earlier : List String
  slot : Slot
deriving DecidableEq, Repr

/-- The arguments in a frame, which is taken to reach up to the cursor. -/
def Nesting.arguments (nesting : Nesting) (frame : Frame) : Arguments :=
  let separators := nesting.separators (frame.opener + 1)
  let pieces := Pieces.ofCommas (frame.opener + 1) nesting.tokens.size
    ((separators.getD frame.opener []).filter (nesting.operatorAt ","))
  let earlier := pieces.completed.map fun piece =>
    Token.argumentText (nesting.tokensOf piece)
  let plain : Slot := { index := earlier.length }
  { earlier
    slot :=
      match nesting.openInside frame with
      | [] => plain
      | array :: inner =>
        if nesting.beginsWithArray pieces.last array then
          nesting.arraySlot separators earlier.length array inner
        else plain }

end CursorContext
