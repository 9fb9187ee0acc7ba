import CursorContext.Token.Lexeme

/-!
The tokens of a source text. Every character belongs to exactly one token, trivia included, and
scanning never fails. Two things carry over from one token to the next: a reserved word after a
member operator is a plain name, and the text after a closing tag is HTML up to the next opening tag.
-/
namespace CursorContext

namespace Token

/-- The words with a meaning of their own. -/
def keywords : List String :=
  ["class", "function", "fn", "namespace", "use", "new", "extends", "implements", "as", "interface",
    "trait", "enum"]

/-- What the tokens so far say about the next one. -/
structure Carry where
  /-- The last token that is not trivia is a member operator. -/
  member : Bool := false
  /-- The last token is a closing tag. -/
  html : Bool := false
deriving DecidableEq, Repr

/-- What the tokens say once `token` has been added. -/
def Carry.after (carry : Carry) (token : Token) : Carry :=
  { member := if token.isTrivia then carry.member else token.isMemberOperator
    html := token.kind == .openTag && token.text == "?>" }

/-- The number of characters before the next opening tag. -/
def htmlLength : List Char → Nat
  | [] => 0
  | c :: rest => if c == '<' && rest.head? == some '?' then 0 else htmlLength rest + 1

/-- The lexeme at `c`, given what went before. -/
def lexemeAfter (carry : Carry) (c : Char) (rest : List Char) : Lexeme :=
  if carry.html && htmlLength (c :: rest) != 0 then
    { kind := .inlineHtml, more := htmlLength rest }
  else lexeme c rest

/-- A plain word that is reserved where it stands. -/
def isReserved (carry : Carry) (text : String) : Bool :=
  !text.toList.contains '\\' && !carry.member && keywords.contains (Text.lower text)

/-- The token that begins with `c` when `rest` follows. -/
def ofLexeme (carry : Carry) (start : Nat) (c : Char) (rest : List Char) (found : Lexeme) : Token :=
  let text := String.ofList (c :: rest.take found.more)
  { kind := if found.kind == .identifier && isReserved carry text then .keyword else found.kind
    text
    start
    terminated := found.terminated }

/-- The tokens from the place `start` on, after passing over `skip` characters that belong to the
token before. -/
def scanFrom (carry : Carry) (start skip : Nat) : List Char → List Token
  | [] => []
  | c :: rest =>
    match skip with
    | skip + 1 => scanFrom carry (start + 1) skip rest
    | 0 =>
      let found := lexemeAfter carry c rest
      let token := ofLexeme carry start c rest found
      token :: scanFrom (carry.after token) (start + 1) found.more rest

/-- All tokens of a source text. -/
def scan (source : String) : List Token := scanFrom {} 0 0 source.toList

/-- The tokens that carry syntax. -/
def logical (tokens : List Token) : List Token := tokens.filter (!·.isTrivia)

/-- Whether the text ends in a comment that can still be typed on. -/
def endsInComment (tokens : List Token) : Bool :=
  match tokens.getLast? with
  | some token => token.kind == .comment && !token.terminated
  | none => false

/-- No character is lost and none is taken twice. -/
theorem flatMap_text_scanFrom (carry : Carry) (start skip : Nat) (cs : List Char) :
    (scanFrom carry start skip cs).flatMap (·.text.toList) = cs.drop skip := by
  induction cs generalizing carry start skip with
  | nil => simp [scanFrom]
  | cons c rest ih =>
    cases skip with
    | zero => simp [scanFrom, ofLexeme, ih]
    | succ skip => simp [scanFrom, ih]

end Token

end CursorContext
