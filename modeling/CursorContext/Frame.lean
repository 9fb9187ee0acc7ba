import CursorContext.Token

/-!
Frames: opened delimiters and what they are for. The role of a round bracket follows from the two
tokens before it.
-/
namespace CursorContext

inductive Role
  /-- The argument list of a call. -/
  | call
  /-- The parameters of a declaration or the captured variables of a closure. -/
  | params
  /-- A group, or the head of a control structure. -/
  | group
  | array
  | block
  /-- A string literal that the end of the buffer cuts off. -/
  | literal
deriving DecidableEq, Repr

namespace Role

def name : Role → String
  | call => "call"
  | params => "params"
  | group => "group"
  | array => "array"
  | block => "block"
  | literal => "string"

/-- Words that put a round bracket after them without calling anything. -/
def controlWords : List String :=
  ["if", "elseif", "else", "while", "for", "foreach", "switch", "match", "catch", "declare",
    "return", "echo", "print", "and", "or", "xor", "throw", "yield", "case", "clone", "include",
    "include_once", "require", "require_once", "instanceof", "insteadof"]

/-- The role of a round bracket after the plain word `word`. -/
def afterWord (word : String) (earlier : Option Token) : Role :=
  if word == "array" then array
  else if controlWords.contains word then group
  else if earlier.any (·.isKeyword ["function", "fn"]) then params
  else call

/-- The role of a round bracket, judged from the token before it and the one still earlier. -/
def ofRound (previous earlier : Option Token) : Role :=
  match previous with
  | none => group
  | some token =>
    match token.kind with
    | .keyword => if token.isKeyword ["function", "fn", "use"] then params else group
    | .identifier => afterWord (Text.lower token.text) earlier
    | .variable => call
    | .closer => if [")", "]"].contains token.text then call else group
    | _ => group

def ofBracket (bracket : Bracket) (previous earlier : Option Token) : Role :=
  match bracket with
  | .round => ofRound previous earlier
  | .square => array
  | .curly => block

end Role

/-- An opened delimiter. Frames are named by the index of the token that opens them. -/
structure Frame where
  /-- The character that opens the frame. -/
  mark : Char
  opener : Nat
  /-- Where the opening token stands in the source. -/
  offset : Nat
  role : Role
  /-- The frames around this one, nearest first. -/
  outer : List Nat
  closer : Option Nat := none
deriving DecidableEq, Repr

namespace Frame

def isOpen (frame : Frame) : Bool := frame.closer.isNone

def isCall (frame : Frame) : Bool := frame.role == .call

/-- The token a call frame's bracket follows. -/
def callee (frame : Frame) : Option Nat :=
  if frame.isCall then some (frame.opener - 1) else none

def parent (frame : Frame) : Option Nat := frame.outer.head?

/-- The frame together with those around it, nearest first. -/
def chain (frame : Frame) : List Nat := frame.opener :: frame.outer

end Frame

end CursorContext
