import CursorContext.Bracket
import CursorContext.Text.Lowercase

/-!
Tokens of a PHP buffer. A buffer usually stops in the middle of a statement, so a string or a comment
may be cut off by the end of the text; such a token is not `terminated`.
-/
namespace CursorContext

inductive Kind
  | whitespace
  | comment
  | openTag
  | inlineHtml
  | string
  | variable
  | number
  | identifier
  | keyword
  | operator
  | opener
  | closer
deriving DecidableEq, Repr

namespace Kind

def all : List Kind :=
  [.whitespace, .comment, .openTag, .inlineHtml, .string, .variable, .number, .identifier, .keyword,
    .operator, .opener, .closer]

def name : Kind → String
  | .whitespace => "whitespace"
  | .comment => "comment"
  | .openTag => "open_tag"
  | .inlineHtml => "inline_html"
  | .string => "string"
  | .variable => "variable"
  | .number => "number"
  | .identifier => "identifier"
  | .keyword => "keyword"
  | .operator => "operator"
  | .opener => "bracket_open"
  | .closer => "bracket_close"

def ofName? (name : String) : Option Kind := all.find? (·.name == name)

/-- Kinds that carry no syntax. -/
def isTrivia : Kind → Bool
  | .whitespace | .comment | .openTag | .inlineHtml => true
  | _ => false

/-- Kinds of which two neighbours run together unless a space keeps them apart. -/
def isWordLike : Kind → Bool
  | .identifier | .keyword | .variable | .number => true
  | _ => false

end Kind

/-- A piece of source text, `start` characters into the buffer. -/
structure Token where
  kind : Kind
  text : String
  start : Nat
  terminated : Bool := true
deriving DecidableEq, Repr

namespace Token

/-- The offset just after the token. -/
def stop (token : Token) : Nat := token.start + token.text.length

def isTrivia (token : Token) : Bool := token.kind.isTrivia

def isOperator (token : Token) (operators : List String) : Bool :=
  token.kind == .operator && operators.contains token.text

/-- Keywords are recognised in any letter case. -/
def isKeyword (token : Token) (words : List String) : Bool :=
  token.kind == .keyword && words.contains (Text.lower token.text)

/-- A plain or reserved word: where the language takes a name, it often takes both. -/
def isName (token : Token) : Bool := token.kind == .identifier || token.kind == .keyword

/-- The operators that lead from an object or class to one of its members. -/
def memberOperators : List String := ["->", "?->", "::"]

def isMemberOperator (token : Token) : Bool := token.isOperator memberOperators

/-- The bracket a token opens. -/
def opening? (token : Token) : Option Bracket :=
  if token.kind == .opener then token.text.toList.head?.bind Bracket.ofOpening? else none

/-- The bracket a token closes. -/
def closing? (token : Token) : Option Bracket :=
  if token.kind == .closer then token.text.toList.head?.bind Bracket.ofClosing? else none

def quotes : List Char := ['\x27', '\x22', '\x60']

/-- What a quoted literal says: its text without the quotes. Any other text stands for itself. -/
def contents (token : Token) : String :=
  match token.text.toList with
  | [] => token.text
  | quote :: body =>
    if quotes.contains quote then
      String.ofList
        (if token.terminated && body.getLast? == some quote then body.dropLast else body)
    else token.text

end Token

end CursorContext
