import CursorContext.Argument.Render
import CursorContext.Nesting

/-!
The pieces into which the commas directly inside a frame divide its contents. Commas of inner frames
do not count.
-/
namespace CursorContext

/-- The tokens from `start` up to but not including `stop`. -/
structure Piece where
  start : Nat
  stop : Nat
deriving DecidableEq, Repr

/-- The pieces that a comma ends, and the piece after the last comma. -/
structure Pieces where
  completed : List Piece
  last : Piece
deriving DecidableEq, Repr

namespace Pieces

/-- The pieces between `start` and `stop` divided at `commas`, which ascend. -/
def ofCommas (start stop : Nat) : List Nat → Pieces
  | [] => { completed := [], last := { start, stop } }
  | comma :: rest =>
    let later := ofCommas (comma + 1) stop rest
    { later with completed := { start, stop := comma } :: later.completed }

def all (pieces : Pieces) : List Piece := pieces.completed ++ [pieces.last]

end Pieces

namespace Nesting

/-- The tokens of a piece. -/
def tokensOf (nesting : Nesting) (piece : Piece) : List Token :=
  (nesting.tokens.extract piece.start piece.stop).toList

/-- Whether the token at `index` is the operator `operator`. -/
def operatorAt (nesting : Nesting) (operator : String) (index : Nat) : Bool :=
  nesting.tokens[index]?.any (·.isOperator [operator])

/-- The commas before `stop` that stand directly inside a frame. -/
def directCommas (nesting : Nesting) (frame : Frame) (stop : Nat) : List Nat :=
  (List.range' (frame.opener + 1) (stop - (frame.opener + 1))).filter fun index =>
    nesting.operatorAt "," index && nesting.enclosing index == some frame.opener

/-- The contents of a frame up to `stop`, divided at the frame's own commas. -/
def split (nesting : Nesting) (frame : Frame) (stop : Nat) : Pieces :=
  .ofCommas (frame.opener + 1) stop (nesting.directCommas frame stop)

/-- The bounds of the pieces up to a stop that may count from the end, each with its text. A stop
beyond the tokens is refused, and a stop before the frame leaves one piece. -/
def splitSigned? (nesting : Nesting) (frame : Frame) (stop : Int) :
    Option (List (Nat × Int × String)) :=
  let size := nesting.tokens.size
  let render (piece : Piece) := Token.argumentText (nesting.tokensOf piece)
  if size < stop then none
  else if stop < 0 then
    let start := frame.opener + 1
    some [(start, stop, render { start, stop := (size + stop).toNat })]
  else some ((nesting.split frame stop.toNat).all.map fun piece =>
    (piece.start, piece.stop, render piece))

end Nesting

end CursorContext
