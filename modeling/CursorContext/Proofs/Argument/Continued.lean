import CursorContext.Proofs.Argument.Listed
import CursorContext.Proofs.Nesting.Continued

/-!
Typing on. What has been found out about the tokens so far holds on when more tokens come: the frames
stay but for the ends of those that are open, every token stays in its frame, and the arguments that
a comma has ended stay the first ones of their list.
-/
namespace CursorContext

/-- Further commas divide only what comes after the last one. -/
theorem Pieces.completed_append (start stop other : Nat) (commas further : List Nat) :
    (ofCommas start stop commas).completed <+:
      (ofCommas start other (commas ++ further)).completed := by
  induction commas generalizing start with
  | nil => exact List.nil_prefix
  | cons comma rest ih => exact List.cons_prefix_cons.mpr ⟨rfl, ih (comma + 1)⟩

namespace Nesting

theorem operatorAt_foldl_push (nesting : Nesting) (tokens : List Token) (operator : String) {i : Nat}
    (old : i < nesting.tokens.size) :
    (tokens.foldl push nesting).operatorAt operator i = nesting.operatorAt operator i := by
  rw [operatorAt, operatorAt, getElem?_foldl_push nesting tokens old]

theorem tokensOf_old (nesting : Nesting) (tokens : List Token) {piece : Piece}
    (old : piece.stop ≤ nesting.tokens.size) :
    (tokens.foldl push nesting).tokensOf piece = nesting.tokensOf piece := by
  rw [tokensOf, tokensOf, tokens_foldl_push, Array.extract_append, Nat.sub_eq_zero_of_le old]
  simp

theorem Linked.commasIn_foldl_push {nesting : Nesting} (linked : Linked nesting)
    (tokens : List Token) (around : Option Nat) {start count : Nat}
    (old : start + count ≤ nesting.tokens.size) :
    (tokens.foldl Nesting.push nesting).commasIn around start count =
      nesting.commasIn around start count := by
  apply List.filter_congr
  intro index member
  rw [List.mem_range'_1] at member
  rw [linked.enclosing_foldl_push tokens (by omega), operatorAt_foldl_push _ tokens _ (by omega)]

/-- The earlier arguments are the completed pieces between the frame's own commas. -/
theorem earlier_arguments (nesting : Nesting) (frame : Frame) :
    (nesting.arguments frame).earlier =
      (Pieces.ofCommas (frame.opener + 1) nesting.tokens.size
        (nesting.commasIn (some frame.opener) (frame.opener + 1)
          (nesting.tokens.size - (frame.opener + 1)))).completed.map
        fun piece => Token.argumentText (nesting.tokensOf piece) := by
  rw [← commas_separators]
  rfl

/-- The arguments that are complete stay the first ones when more tokens come. -/
theorem Linked.earlier_foldl_push {nesting : Nesting} (linked : Linked nesting) {frame later : Frame}
    (found : nesting.frameAt frame.opener = some frame) (same : later.opener = frame.opener)
    (tokens : List Token) :
    (nesting.arguments frame).earlier <+:
      ((tokens.foldl Nesting.push nesting).arguments later).earlier := by
  have inside := linked.lt_size found
  have size := size_foldl_push nesting tokens
  have count : (tokens.foldl Nesting.push nesting).tokens.size - (frame.opener + 1) =
      (nesting.tokens.size - (frame.opener + 1)) + tokens.length := by omega
  -- The commas among the earlier tokens are the same, and the others come after them.
  rw [earlier_arguments, earlier_arguments, same, count, commasIn_add,
    linked.commasIn_foldl_push tokens _ (by omega)]
  have texts : ∀ piece ∈ (Pieces.ofCommas (frame.opener + 1) nesting.tokens.size
        (nesting.commasIn (some frame.opener) (frame.opener + 1)
          (nesting.tokens.size - (frame.opener + 1)))).completed,
      Token.argumentText (nesting.tokensOf piece) =
        Token.argumentText ((tokens.foldl Nesting.push nesting).tokensOf piece) := by
    intro piece member
    have comma := Pieces.stop_mem_of_completed _ _ _ piece member
    have bound := List.mem_range'_1.mp (List.mem_filter.mp comma).1
    rw [tokensOf_old nesting tokens (by omega)]
  rw [List.map_congr_left texts]
  exact (Pieces.completed_append ..).map _

theorem trailingLiteral_eq_none {tokens : List Token} (uncut : endsInLiteral tokens = false) :
    (ofTokens tokens).trailingLiteral = none := by
  have back : (ofTokens tokens).tokens.back? = tokens.getLast? := by
    rw [tokens_ofTokens, List.back?_toArray]
  rw [endsInLiteral] at uncut
  rw [trailingLiteral, back]
  cases last : tokens.getLast? with
  | none => rfl
  | some token =>
    rw [last, Option.any_some] at uncut
    dsimp only
    split
    next cut =>
      rw [cut, Bool.true_and] at uncut
      have empty : token.text = "" := by simpa using uncut
      simp [empty]
    · rfl

/-- Whatever tokens come after a text, every frame of the text is still there with its bracket, place,
role and the frames around it. A frame that was closed is closed by the same token, and one that was
open is closed by one of the further tokens if at all. The arguments that a frame had are the first
of those that it has now, and each token is in the same frame as before. Unless the text ends in a
literal, the frame around the cursor is one of its frames. -/
theorem nesting_continues (tokens more : List Token) :
    (∀ frame ∈ (ofTokens tokens).frames, ∃ later ∈ (ofTokens (tokens ++ more)).frames,
      later = { frame with closer := later.closer } ∧
      (∀ close, frame.closer = some close → later.closer = some close) ∧
      (frame.closer = none → ∀ close, later.closer = some close → tokens.length ≤ close) ∧
      ((ofTokens tokens).arguments frame).earlier <+:
        ((ofTokens (tokens ++ more)).arguments later).earlier) ∧
    (∀ index < tokens.length,
      (ofTokens (tokens ++ more)).enclosing index = (ofTokens tokens).enclosing index) ∧
    (endsInLiteral tokens = false → ∀ frame, (ofTokens tokens).cursorFrame = some frame →
      frame ∈ (ofTokens tokens).frames) := by
  have linked := linked_ofTokens tokens
  have size : (ofTokens tokens).tokens.size = tokens.length := by simp [tokens_ofTokens]
  rw [ofTokens_append]
  refine ⟨?_, ?_, ?_⟩
  · intro frame member
    have found := (linked.mem_frames frame).mp member
    obtain ⟨later, there, continues⟩ := linked.continues_foldl_push more found
    have opener := (linked.foldl_push more).opener there
    refine ⟨later, (linked.foldl_push more).mem_frames_of_frameAt there, continues.kept,
      continues.closed, ?_, linked.earlier_foldl_push found opener more⟩
    intro isOpen close closed
    rw [← size]
    exact continues.ended close isOpen closed
  · intro index bound
    exact linked.enclosing_foldl_push more (by omega)
  · intro uncut frame around
    rw [cursorFrame, trailingLiteral_eq_none uncut, Option.orElse_eq_orElse, Option.orElse_eq_or,
      Option.none_or] at around
    exact linked.mem_frames_of_frameAt (linked.frameAt_of_mem_stack (List.mem_of_head? around))

end Nesting

end CursorContext
