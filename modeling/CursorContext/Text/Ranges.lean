/-!
Sets of characters given by ranges of code points.
-/
namespace CursorContext.Text

/-- Whether a character lies in one of `ranges`, each given by its first and last code point. -/
def inRanges (ranges : List (Nat × Nat)) (c : Char) : Bool :=
  ranges.any fun (first, last) => first ≤ c.toNat && c.toNat ≤ last

end CursorContext.Text
