import CursorContext.Position
import CursorContext.Signature
import CursorContext.Value

/-!
A session with an editor. The editor opens, changes and closes documents, each under its address, and
asks about positions in them. Asking changes nothing. Positions and signatures are messages, so what
they may hold is up to the exchange.
-/
namespace CursorContext

/-- The texts of the open documents. -/
abbrev Documents := Std.TreeMap String Document

namespace Session

inductive Step
  | openDocument (address : String) (text : Document)
  /-- Each change brings the whole text. -/
  | change (address : String) (texts : List Document)
  | close (address : String)
  | signature (address : String) (line character : Value)
  | command (arguments : List Value)

inductive Answer
  | nothing
  | signature (found : Option Signature)
  | context (found : Option Context)
deriving DecidableEq, Repr

/-- The documents after a step. The last change counts, and a change without texts keeps what there
is. -/
def update (documents : Documents) : Step → Documents
  | .openDocument address text => documents.insert address text
  | .change address texts =>
    documents.insert address (texts.getLast?.getD (documents[address]?.getD []))
  | .close address => documents.erase address
  | .signature .. | .command .. => documents

/-- The context at a position, if there is such a document and such a position. A line without an
encoding makes the request fail. -/
def contextAt (documents : Documents) (address : String) (line character : Int) :
    Except Refusal (Option Context) :=
  match documents[address]? with
  | none => .ok none
  | some text =>
    match Context.atPosition text line character with
    | .ok found => .ok found
    | .error (.outside _) => .ok none
    | .error .unencodable => .error .unencodable

/-- The signature to be shown for a context, if there is one. -/
def signatureOf (exchange : Exchange) : Option Context → Except Refusal (Option Signature)
  | none => .ok none
  | some context => (context.signature exchange).map some

/-- The signature at a position. -/
def signature (exchange : Exchange) (documents : Documents) (address : String)
    (line character : Value) : Except Refusal (Option Signature) := do
  let line ← exchange.readPosition line
  let character ← exchange.readPosition character
  signatureOf exchange (← contextAt documents address line character)

/-- The arguments of a command may also come as a single list. -/
def unpack : List Value → List Value
  | [.list items] => items
  | arguments => arguments

/-- The context a command asks for. Anything but an address, a line and a character asks for none. -/
def command (documents : Documents) (arguments : List Value) : Except Refusal (Option Context) :=
  match unpack arguments with
  | [address, line, character] => do
    let line ← line.toInteger
    let character ← character.toInteger
    match ← address.toAddress with
    | some address => contextAt documents address line character
    | none => return none
  | _ => return none

def answer (exchange : Exchange) (documents : Documents) : Step → Except Refusal Answer
  | .signature address line character =>
    (signature exchange documents address line character).map .signature
  | .command arguments => (command documents arguments).map .context
  | .openDocument .. | .change .. | .close .. => .ok .nothing

/-- The answers to a sequence of steps, each with the documents after it. -/
def run (exchange : Exchange) (documents : Documents) :
    List Step → List (Except Refusal Answer × Documents)
  | [] => []
  | step :: rest =>
    let after := update documents step
    (answer exchange documents step, after) :: run exchange after rest

end Session

end CursorContext
