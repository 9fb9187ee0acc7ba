import CursorContext.Proofs.Nesting.Outermost

/-!
Nestings that go on. More tokens open frames of their own and may end frames that are still open, and
nothing else about the earlier frames changes.
-/
namespace CursorContext

/-- A frame as it is once there are further tokens after the first `size`: it is the same but for its
end. An end that it had stays, and one that it gets lies among the further tokens. -/
structure Frame.Continues (size : Nat) (frame later : Frame) : Prop where
  kept : later = { frame with closer := later.closer }
  closed : ∀ close, frame.closer = some close → later.closer = some close
  ended : ∀ close, frame.closer = none → later.closer = some close → size ≤ close

namespace Frame.Continues

theorem refl (size : Nat) (frame : Frame) : frame.Continues size frame := by
  refine ⟨rfl, fun _ closed => closed, ?_⟩
  intro close isOpen closed
  rw [isOpen] at closed
  cases closed

theorem closedBy {size index : Nat} {frame : Frame} (isOpen : frame.closer = none)
    (later : size ≤ index) : frame.Continues size (frame.closedBy index) := by
  refine ⟨rfl, ?_, ?_⟩
  · intro close closed
    rw [isOpen] at closed
    cases closed
  · intro close _ closed
    cases closed
    exact later

theorem trans {size more : Nat} {frame next last : Frame} (first : frame.Continues size next)
    (second : next.Continues more last) (grown : size ≤ more) : frame.Continues size last := by
  refine ⟨?_, fun close closed => second.closed close (first.closed close closed), ?_⟩
  · rw [second.kept, first.kept]
  · intro close isOpen closed
    cases between : next.closer with
    | none => exact Nat.le_trans grown (second.ended close between closed)
    | some earlier =>
      rw [second.closed earlier between] at closed
      cases closed
      exact first.ended close isOpen between

end Frame.Continues

namespace Nesting

theorem Extends.continues {nesting next : Nesting} {upper below : List Frame} {fresh : Option Frame}
    (step : Extends nesting next upper below fresh) (linked : Linked nesting) {i : Nat}
    {frame : Frame} (found : nesting.frameAt i = some frame) :
    ∃ later, next.frameAt i = some later ∧ frame.Continues nesting.tokens.size later := by
  have old := linked.lt_size found
  rw [step.frameAt, if_neg (by omega), found]
  split
  next among =>
    obtain ⟨other, member, named⟩ := List.mem_map.mp among
    obtain ⟨there, isOpen⟩ := linked.mem_stack.mp (step.held_upper member)
    rw [named, found] at there
    cases there
    exact ⟨_, rfl, .closedBy isOpen (Nat.le_refl _)⟩
  next => exact ⟨frame, rfl, .refl _ frame⟩

/-- Every frame is still there after further tokens. -/
theorem Linked.continues_foldl_push {nesting : Nesting} (linked : Linked nesting)
    (tokens : List Token) {i : Nat} {frame : Frame} (found : nesting.frameAt i = some frame) :
    ∃ later, (tokens.foldl Nesting.push nesting).frameAt i = some later ∧
      frame.Continues nesting.tokens.size later := by
  induction tokens generalizing nesting frame with
  | nil => exact ⟨frame, found, .refl _ frame⟩
  | cons token rest ih =>
    obtain ⟨upper, below, fresh, step⟩ := (push_step nesting token).extends linked
    obtain ⟨next, there, first⟩ := step.continues linked found
    obtain ⟨last, there', second⟩ := ih (linked.push token) there
    have size := step.tokens_size
    exact ⟨last, there', first.trans second (by omega)⟩

end Nesting

end CursorContext
