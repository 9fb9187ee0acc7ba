import CursorContext.Text.Digits
import CursorContext.Text.Letters
import CursorContext.Text.Ranges

/-!
The characters names are made of. A name begins with a letter or an underscore and goes on with
letters, digits and underscores.
-/
namespace CursorContext.Text

def isNameStart (c : Char) : Bool :=
  c.isAlpha || c == '_' || (128 ≤ c.toNat && inRanges letterRanges c)

def isWord (c : Char) : Bool := isNameStart c || isDigit c

/-- Whether a word that has been read up to here ends here. -/
def atWordEnd : List Char → Bool
  | [] => true
  | c :: _ => !isWord c

end CursorContext.Text
