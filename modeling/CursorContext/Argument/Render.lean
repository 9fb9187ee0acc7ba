import CursorContext.Token

/-!
Tokens written out again on one line.
-/
namespace CursorContext

namespace Token

/-- The text of `tokens` after a token of kind `previous`: a space stands only between two words. -/
def lineAfter (previous : Option Kind) : List Token → List Char
  | [] => []
  | token :: rest =>
    let space := if previous.any (·.isWordLike) && token.kind.isWordLike then [' '] else []
    space ++ token.text.toList ++ lineAfter (some token.kind) rest

def oneLine (tokens : List Token) : String := String.ofList (lineAfter none tokens)

/-- An argument's text. A single literal is given by its contents. -/
def argumentText (tokens : List Token) : String :=
  match tokens with
  | [token] => if token.kind == .string then token.contents else oneLine tokens
  | _ => oneLine tokens

end Token

end CursorContext
