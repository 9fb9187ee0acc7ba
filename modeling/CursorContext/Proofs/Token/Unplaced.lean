import CursorContext.Argument.Render
import CursorContext.Proofs.Token.Loop

/-!
Tokens without their places. What a token is and says does not depend on where it stands, and what
is scanned does not depend on where the scan begins.
-/
namespace CursorContext.Token

/-- A token without its place. -/
def unplaced (token : Token) : Token := { token with start := 0 }

@[simp] theorem kind_unplaced (token : Token) : token.unplaced.kind = token.kind := rfl

@[simp] theorem text_unplaced (token : Token) : token.unplaced.text = token.text := rfl

@[simp] theorem terminated_unplaced (token : Token) : token.unplaced.terminated = token.terminated :=
  rfl

@[simp] theorem isOperator_unplaced (token : Token) (operators : List String) :
    token.unplaced.isOperator operators = token.isOperator operators := rfl

@[simp] theorem isKeyword_unplaced (token : Token) (words : List String) :
    token.unplaced.isKeyword words = token.isKeyword words := rfl

@[simp] theorem isName_unplaced (token : Token) : token.unplaced.isName = token.isName := rfl

@[simp] theorem opening?_unplaced (token : Token) : token.unplaced.opening? = token.opening? := rfl

@[simp] theorem closing?_unplaced (token : Token) : token.unplaced.closing? = token.closing? := rfl

theorem lineAfter_unplaced (previous : Option Kind) (tokens : List Token) :
    lineAfter previous (tokens.map unplaced) = lineAfter previous tokens := by
  induction tokens generalizing previous with
  | nil => rfl
  | cons token rest ih => simp [lineAfter, ih]

theorem argumentText_unplaced (tokens : List Token) :
    argumentText (tokens.map unplaced) = argumentText tokens := by
  have line := lineAfter_unplaced none tokens
  unfold argumentText oneLine
  rcases tokens with _ | ⟨token, _ | ⟨next, rest⟩⟩
  · rfl
  · rfl
  · exact congrArg String.ofList line

/-- What is scanned does not depend on where it stands. -/
theorem unplaced_scanFrom (carry : Carry) (start other skip : Nat) (cs : List Char) :
    (scanFrom carry start skip cs).map unplaced = (scanFrom carry other skip cs).map unplaced := by
  induction cs generalizing carry start other skip with
  | nil => rfl
  | cons c rest ih =>
    cases skip with
    | succ skip => exact ih carry (start + 1) (other + 1) skip
    | zero =>
      rw [scanFrom, scanFrom, List.map_cons, List.map_cons]
      exact congrArg _ (ih _ (start + 1) (other + 1) _)

end CursorContext.Token
