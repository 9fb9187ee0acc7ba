import CursorContext.Text.Ranges

/-!
Blank characters, and taking characters off the ends of a text.
-/
namespace CursorContext.Text

/-- The blanks above ASCII. -/
def blankRanges : List (Nat × Nat) := [
  (0x85, 0x85), (0xA0, 0xA0), (0x1680, 0x1680), (0x2000, 0x200A), (0x2028, 0x2029),
  (0x202F, 0x202F), (0x205F, 0x205F), (0x3000, 0x3000)]

/-- Spaces, tabs, line and page ends, and the four ASCII separators. -/
def isBlank (c : Char) : Bool :=
  let code := c.toNat
  if code < 128 then (9 ≤ code && code ≤ 13) || (28 ≤ code && code ≤ 32)
  else inRanges blankRanges c

/-- The characters left when all those satisfying `p` are taken off both ends. -/
def trimList (p : Char → Bool) (cs : List Char) : List Char :=
  ((cs.dropWhile p).reverse.dropWhile p).reverse

end CursorContext.Text
