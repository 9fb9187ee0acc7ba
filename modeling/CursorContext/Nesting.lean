import CursorContext.Frame
import CursorContext.SignedIndex

/-!
How the brackets of a token sequence nest. Tokens are added one at a time. A closing bracket closes
the innermost frame of its kind and everything opened inside it; one that matches nothing is ignored.
A frame that is never closed stays open through the end, which is the normal state at the cursor.
-/
namespace CursorContext

/-- What is known about the place of one token. -/
structure Site where
  /-- The innermost frame around the token. A bracket belongs to the frame outside it. -/
  enclosing : Option Nat
  /-- The frame the token opens. -/
  opens : Option Frame := none
  /-- The frame the token matches as its closing bracket. -/
  closes : Option Nat := none
deriving DecidableEq, Repr

/-- Records that the frame opened at a site is closed by the token at `index`. -/
def Site.closeAt (index : Nat) (site : Site) : Site :=
  { site with opens := site.opens.map fun frame => { frame with closer := some index } }

/-- The tokens so far, their sites, and the open frames, innermost first. -/
structure Nesting where
  tokens : Array Token := #[]
  sites : Array Site := #[]
  stack : List Frame := []
deriving DecidableEq, Repr

namespace Nesting

/-! ### Building -/

/-- The innermost of a stack of frames. -/
def topOf (stack : List Frame) : Option Nat := stack.head?.map (·.opener)

/-- The frame a bracket opens when it is added. -/
def newFrame (nesting : Nesting) (bracket : Bracket) (token : Token) : Frame :=
  { mark := bracket.opening
    opener := nesting.tokens.size
    offset := token.start
    role := .ofBracket bracket (atSigned? nesting.tokens (-1)) (atSigned? nesting.tokens (-2))
    outer := (nesting.stack.head?.map (·.chain)).getD [] }

def enter (nesting : Nesting) (bracket : Bracket) (token : Token) : Nesting :=
  let frame := nesting.newFrame bracket token
  { tokens := nesting.tokens.push token
    sites := nesting.sites.push { enclosing := topOf nesting.stack, opens := some frame }
    stack := frame :: nesting.stack }

/-- Adds a token that changes nothing about the brackets. -/
def pass (nesting : Nesting) (token : Token) : Nesting :=
  { nesting with
    tokens := nesting.tokens.push token
    sites := nesting.sites.push { enclosing := topOf nesting.stack } }

def isOther (bracket : Bracket) (frame : Frame) : Bool := frame.mark != bracket.opening

def leave (nesting : Nesting) (bracket : Bracket) (token : Token) : Nesting :=
  match nesting.stack.dropWhile (isOther bracket) with
  | [] => nesting.pass token
  | matching :: below =>
    let closed := nesting.stack.takeWhile (isOther bracket) ++ [matching]
    let index := nesting.tokens.size
    let sites := closed.foldl (fun sites frame => sites.modify frame.opener (·.closeAt index))
      nesting.sites
    { tokens := nesting.tokens.push token
      sites := sites.push { enclosing := topOf below, closes := some matching.opener }
      stack := below }

/-- Adds one token. -/
def push (nesting : Nesting) (token : Token) : Nesting :=
  match token.opening?, token.closing? with
  | some bracket, _ => nesting.enter bracket token
  | none, some bracket => nesting.leave bracket token
  | none, none => nesting.pass token

def ofTokens (tokens : List Token) : Nesting := tokens.foldl push {}

theorem ofTokens_append (before after : List Token) :
    ofTokens (before ++ after) = after.foldl push (ofTokens before) := by
  simp [ofTokens]

theorem tokens_push (nesting : Nesting) (token : Token) :
    (nesting.push token).tokens = nesting.tokens.push token := by
  unfold push
  split
  · rfl
  · unfold leave
    split <;> rfl
  · rfl

theorem size_closed (closed : List Frame) (index : Nat) (sites : Array Site) :
    (closed.foldl (fun sites frame => sites.modify frame.opener (·.closeAt index)) sites).size =
      sites.size := by
  induction closed generalizing sites with
  | nil => rfl
  | cons frame rest ih => simp [ih]

theorem size_sites_push (nesting : Nesting) (token : Token) :
    (nesting.push token).sites.size = nesting.sites.size + 1 := by
  unfold push
  split
  · simp [enter]
  · unfold leave
    split
    · simp [pass]
    · simp [size_closed]
  · simp [pass]

/-- Every token has its site. -/
theorem size_sites_ofTokens (tokens : List Token) :
    (ofTokens tokens).sites.size = (ofTokens tokens).tokens.size := by
  suffices kept : ∀ nesting : Nesting, nesting.sites.size = nesting.tokens.size →
      (tokens.foldl push nesting).sites.size = (tokens.foldl push nesting).tokens.size from
    kept {} rfl
  induction tokens with
  | nil => exact fun _ same => same
  | cons token rest ih =>
    intro nesting same
    apply ih
    simp [size_sites_push, tokens_push, same]

/-! ### Frames -/

def frameAt (nesting : Nesting) (index : Nat) : Option Frame :=
  nesting.sites[index]?.bind (·.opens)

def frameEndingAt (nesting : Nesting) (index : Nat) : Option Frame :=
  (nesting.sites[index]?.bind (·.closes)).bind nesting.frameAt

def enclosing (nesting : Nesting) (index : Nat) : Option Nat :=
  nesting.sites[index]?.bind (·.enclosing)

/-- The token that closes the frame opened at `index`. -/
def closeOf (nesting : Nesting) (index : Nat) : Option Nat :=
  (nesting.frameAt index).bind (·.closer)

/-- All frames in the order in which they are opened. -/
def frames (nesting : Nesting) : List Frame := nesting.sites.toList.filterMap (·.opens)

/-- A frame and those around it, nearest first. -/
def chainOf (nesting : Nesting) (frame : Option Nat) : List Nat :=
  ((frame.bind nesting.frameAt).map (·.chain)).getD []

/-- The index just after the last token of a frame, which for an open frame is the end. -/
def endOf (nesting : Nesting) (frame : Frame) : Nat :=
  frame.closer.getD nesting.tokens.size

/-- The tokens directly inside a frame, brackets of inner frames included. -/
def directTokens (nesting : Nesting) (frame : Frame) : List Token :=
  (List.range' (frame.opener + 1) (nesting.endOf frame - (frame.opener + 1))).filterMap
    fun index =>
      if nesting.enclosing index == some frame.opener then nesting.tokens[index]? else none

/-! ### The cursor, at the end of the tokens -/

/-- The literal the cursor is in, as a frame of its own. -/
def trailingLiteral (nesting : Nesting) : Option Frame :=
  match nesting.tokens.back? with
  | none => none
  | some token =>
    if token.kind == .string && !token.terminated then
      token.text.toList.head?.map fun mark =>
        { mark
          opener := nesting.tokens.size - 1
          offset := token.start
          role := .literal
          outer := (nesting.stack.head?.map (·.chain)).getD [] }
    else none

/-- The innermost frame around the cursor. -/
def cursorFrame (nesting : Nesting) : Option Frame :=
  nesting.trailingLiteral <|> nesting.stack.head?

/-- The frames around the cursor, innermost first. -/
def cursorChain (nesting : Nesting) : List Nat := (nesting.cursorFrame.map (·.chain)).getD []

/-- Roles that decide what the cursor is in: a block and a parameter list end the search for a call. -/
def isDecisive (frame : Frame) : Bool := [Role.call, .block, .params].contains frame.role

/-- The call whose arguments the cursor is among. In a comment it is among none. -/
def cursorCall (nesting : Nesting) (inComment : Bool) : Option Frame :=
  if inComment then none else (nesting.stack.find? isDecisive).filter (·.isCall)

/-! ### Signed queries, refused out of range -/

def enclosing? (nesting : Nesting) (index : Int) : Option (Option Nat) :=
  (atSigned? nesting.sites index).map (·.enclosing)

def chainAt? (nesting : Nesting) (index : Int) : Option (List Nat) :=
  (nesting.enclosing? index).map nesting.chainOf

/-- The role a round bracket would have at `index`, whatever stands there. -/
def roundRole? (nesting : Nesting) (index : Int) : Option Role :=
  if index = 0 then some .group
  else (atSigned? nesting.tokens (index - 1)).map fun previous =>
    .ofRound (some previous) (if 2 ≤ index then atSigned? nesting.tokens (index - 2) else none)

end Nesting

end CursorContext
