/-!
The three pairs of brackets.
-/
namespace CursorContext

inductive Bracket
  | round
  | square
  | curly
deriving DecidableEq, Repr

namespace Bracket

def opening : Bracket → Char
  | round => '('
  | square => '['
  | curly => '\x7b'

def closing : Bracket → Char
  | round => ')'
  | square => ']'
  | curly => '\x7d'

def all : List Bracket := [round, square, curly]

def ofOpening? (c : Char) : Option Bracket := all.find? (·.opening == c)

def ofClosing? (c : Char) : Option Bracket := all.find? (·.closing == c)

@[simp] theorem ofOpening?_opening (bracket : Bracket) :
    ofOpening? bracket.opening = some bracket := by
  cases bracket <;> rfl

@[simp] theorem ofClosing?_closing (bracket : Bracket) :
    ofClosing? bracket.closing = some bracket := by
  cases bracket <;> rfl

end Bracket

end CursorContext
