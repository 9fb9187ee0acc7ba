import CursorContext.Symbols.Basic

/-!
One pass over the tokens. At each place the tokens before and after it are at hand. A declaration is
read as a whole where it begins, and the pass goes on after it.
-/
namespace CursorContext

/-- A token with its surroundings. -/
structure Place where
  index : Nat
  /-- The tokens before, nearest first. -/
  before : List Token
  here : Token
  /-- The tokens after, nearest first. -/
  after : List Token

namespace Place

/-- The places of the tokens `rest`, which stand after `before` from `index` on. -/
def allFrom (index : Nat) (before : List Token) : List Token → List Place
  | [] => []
  | token :: rest =>
    { index, before, here := token, after := rest } :: allFrom (index + 1) (token :: before) rest

def all (tokens : List Token) : List Place := allFrom 0 [] tokens

def previousIs (place : Place) (p : Token → Bool) : Bool := place.before.head?.any p

def nextIs (place : Place) (p : Token → Bool) : Bool := place.after.head?.any p

/-- The tokens from a later index on. -/
def ahead (place : Place) (index : Nat) : List Token := place.after.drop (index - (place.index + 1))

end Place

/-- What has been found so far and where to go on. -/
structure Pass where
  symbols : Symbols := {}
  /-- Tokens before this index have been dealt with. -/
  resume : Nat := 0
  /-- Whether the list of an import statement goes on. -/
  importing : Bool := false

end CursorContext
