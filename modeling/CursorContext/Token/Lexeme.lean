import CursorContext.Text.Blank
import CursorContext.Text.Word
import CursorContext.Token

/-!
Lexemes: what stands at one place of the source. Each recogniser looks at a first character and at
everything after it, and says how many characters more its lexeme takes, so a lexeme always has a
character of its own. The recognisers are tried in the order of `lexeme`, and the last one takes any
character at all.
-/
namespace CursorContext

/-- A kind, the number of characters after the first, and whether the lexeme found its end. -/
structure Lexeme where
  kind : Kind
  more : Nat
  terminated : Bool := true
deriving DecidableEq, Repr

namespace Lexeme

open Text

/-- How many characters at the front satisfy `p`. -/
def run (p : Char → Bool) (cs : List Char) : Nat := (cs.takeWhile p).length

def startsName : List Char → Bool
  | [] => false
  | c :: _ => isNameStart c

def whitespace? (c : Char) (rest : List Char) : Option Lexeme :=
  if isBlank c then some { kind := .whitespace, more := run isBlank rest } else none

/-- A line comment goes up to the end of the line or up to the tag that ends the code. -/
def lineLength : List Char → Nat
  | [] => 0
  | c :: rest =>
    if c == '\r' || c == '\n' || (c == '?' && rest.head? == some '>') then 0
    else lineLength rest + 1

/-- The length of a block comment's inside together with its end mark. -/
def blockLength? : List Char → Option Nat
  | [] => none
  | c :: rest =>
    if c == '*' && rest.head? == some '/' then some 2 else (blockLength? rest).map (· + 1)

/-- A line comment with which the source ends can still be typed on. -/
def lineComment (skip : Nat) (rest : List Char) : Lexeme :=
  let more := skip + lineLength (rest.drop skip)
  { kind := .comment, more, terminated := !(rest.drop more).isEmpty }

def blockComment (rest : List Char) : Lexeme :=
  match blockLength? (rest.drop 1) with
  | some length => { kind := .comment, more := length + 1 }
  | none => { kind := .comment, more := rest.length, terminated := false }

/-- A number sign before a square bracket opens an attribute, not a comment. -/
def comment? (c : Char) (rest : List Char) : Option Lexeme :=
  if c == '/' && rest.head? == some '/' then some (lineComment 1 rest)
  else if c == '#' && rest.head? != some '[' then some (lineComment 0 rest)
  else if c == '/' && rest.head? == some '*' then some (blockComment rest)
  else none

/-- The length of the word or sign that may follow the two characters of an opening tag. -/
def tagWord (cs : List Char) : Nat :=
  if (cs.take 3).map Char.toLower == ['p', 'h', 'p'] && atWordEnd (cs.drop 3) then 3
  else if cs.head? == some '=' then 1
  else 0

def tag? (c : Char) (rest : List Char) : Option Lexeme :=
  if c == '<' && rest.head? == some '?' then
    some { kind := .openTag, more := 1 + tagWord (rest.drop 1) }
  else if c == '?' && rest.head? == some '>' then some { kind := .openTag, more := 1 }
  else none

def isIndent (c : Char) : Bool := c == ' ' || c == '\t'

/-- Whether the first word of a line is `label`. -/
def opensWith (label line : List Char) : Bool :=
  let body := line.dropWhile isIndent
  label.isPrefixOf body && atWordEnd (body.drop label.length)

/-- The length up to the end of the first word `label` at the head of a line. -/
def closingLabel? (label : List Char) (atLineStart : Bool) : List Char → Option Nat
  | [] => none
  | c :: rest =>
    if atLineStart && opensWith label (c :: rest) then
      some (run isIndent (c :: rest) + label.length)
    else (closingLabel? label (c == '\n') rest).map (· + 1)

/-- A heredoc's label, which may stand in quotes, and what follows the opener. -/
def heredocLabel? (cs : List Char) : Option (List Char × List Char) :=
  let cs := cs.dropWhile isIndent
  let quote := (cs.take 1).filter fun c => c == '\x22' || c == '\x27'
  let name := cs.drop quote.length
  let after := name.dropWhile isWord
  if startsName name && quote.isPrefixOf after then
    some (name.takeWhile isWord, after.drop quote.length)
  else none

/-- A heredoc ends with the label on a later line, or else with the source. -/
def heredoc? (c : Char) (rest : List Char) : Option Lexeme :=
  if c == '<' && ['<', '<'].isPrefixOf rest then
    (heredocLabel? (rest.drop 2)).map fun (label, after) =>
      let lines := (after.dropWhile (· != '\n')).drop 1
      match closingLabel? label true lines with
      | some length => { kind := .string, more := rest.length - (lines.length - length) }
      | none => { kind := .string, more := rest.length, terminated := false }
  else none

/-- The length up to and including the first `quote` that no backslash protects. -/
def closingQuote? (quote : Char) (protect : Bool) : List Char → Option Nat
  | [] => none
  | c :: rest =>
    if !protect && c == quote then some 1
    else (closingQuote? quote (!protect && c == '\\') rest).map (· + 1)

def quoted? (c : Char) (rest : List Char) : Option Lexeme :=
  if Token.quotes.contains c then
    match closingQuote? c false rest with
    | some more => some { kind := .string, more }
    | none => some { kind := .string, more := rest.length, terminated := false }
  else none

def dollarName? (c : Char) (rest : List Char) : Option Lexeme :=
  if c == '$' && startsName rest then some { kind := .variable, more := run isWord rest } else none

def isHexDigit (c : Char) : Bool :=
  c.isDigit || ('a' ≤ c && c ≤ 'f') || ('A' ≤ c && c ≤ 'F') || c == '_'

def isBinaryDigit (c : Char) : Bool := c == '0' || c == '1' || c == '_'

def isDecimalDigit (c : Char) : Bool := isDigit c || c == '_'

/-- The length of a numeral written with a radix letter, zero if there is none. -/
def radixLength (letters : List Char) (p : Char → Bool) : List Char → Nat
  | [] => 0
  | c :: rest => if letters.contains c && run p rest != 0 then 1 + run p rest else 0

def fractionLength : List Char → Nat
  | [] => 0
  | c :: rest => if c == '.' then 1 + run isDecimalDigit rest else 0

def exponentLength : List Char → Nat
  | [] => 0
  | c :: rest =>
    let sign := ((rest.take 1).filter fun c => c == '+' || c == '-').length
    let digits := run isDigit (rest.drop sign)
    if (c == 'e' || c == 'E') && digits != 0 then 1 + sign + digits else 0

def decimalLength (rest : List Char) : Nat :=
  let whole := run isDecimalDigit rest
  let fraction := fractionLength (rest.drop whole)
  whole + fraction + exponentLength (rest.drop (whole + fraction))

def number? (c : Char) (rest : List Char) : Option Lexeme :=
  let hexadecimal := radixLength ['x', 'X'] isHexDigit rest
  let binary := radixLength ['b', 'B'] isBinaryDigit rest
  if c == '0' && hexadecimal != 0 then some { kind := .number, more := hexadecimal }
  else if c == '0' && binary != 0 then some { kind := .number, more := binary }
  else if isDigit c then some { kind := .number, more := decimalLength rest }
  else if c == '.' && (rest.head?.any isDigit) then
    some { kind := .number, more := run isDecimalDigit rest }
  else none

/-- The rest of a qualified name: words joined by backslashes, of which one may stand at the end. -/
def nameLength : List Char → Nat
  | [] => 0
  | c :: rest =>
    if isWord c then nameLength rest + 1
    else if c == '\\' then if startsName rest then nameLength rest + 1 else 1
    else 0

def identifier? (c : Char) (rest : List Char) : Option Lexeme :=
  if isNameStart c || (c == '\\' && startsName rest) then
    some { kind := .identifier, more := nameLength rest }
  else none

/-- The operators of more than one character, the longer ones first. -/
def longOperators : List String :=
  ["?->", "...", "<=>", "**=", "===", "!==", "??=", "<<=", ">>=",
    "->", "::", "=>", "**", "==", "!=", "<>", "<=", ">=", "&&", "||", "??", "++", "--", "<<", ">>",
    "-=", "+=", "*=", "/=", "%=", ".=", "&=", "|=", "^="]

/-- A character of no other use is an operator of its own. -/
def sign (c : Char) (rest : List Char) : Lexeme :=
  if (Bracket.ofOpening? c).isSome then { kind := .opener, more := 0 }
  else if (Bracket.ofClosing? c).isSome then { kind := .closer, more := 0 }
  else match longOperators.find? fun operator => operator.toList.isPrefixOf (c :: rest) with
    | some operator => { kind := .operator, more := operator.length - 1 }
    | none => { kind := .operator, more := 0 }

end Lexeme

open Lexeme in
/-- The lexeme that begins with `c` when `rest` follows. -/
def lexeme (c : Char) (rest : List Char) : Lexeme :=
  (whitespace? c rest <|> comment? c rest <|> tag? c rest <|> heredoc? c rest <|>
    quoted? c rest <|> dollarName? c rest <|> number? c rest <|> identifier? c rest).getD (sign c rest)

end CursorContext
