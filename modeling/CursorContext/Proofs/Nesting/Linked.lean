import CursorContext.Proofs.Nesting.Step
import Mathlib.Data.List.Sort

/-!
The links between frames. After any tokens, well nested or not, the stack holds exactly the open
frames, a frame's chain names exactly the frames whose extent covers its opener, and closing a frame
closes everything inside it.
-/
namespace CursorContext

/-- Whether the token at `index` lies between a frame's brackets. -/
def Frame.surrounds (frame : Frame) (index : Nat) : Bool :=
  frame.opener < index && frame.closer.all (index < ·)

theorem Frame.surrounds_iff (frame : Frame) (index : Nat) :
    frame.surrounds index = true ↔
      frame.opener < index ∧ ∀ close, frame.closer = some close → index < close := by
  cases closed : frame.closer <;> simp [surrounds, closed]

namespace Nesting

/-- Frames of which each has those below it as the ones around it. -/
def Stacked : List Frame → Prop
  | [] => True
  | frame :: below =>
    frame.outer = below.map (·.opener) ∧ (∀ other ∈ below, other.opener < frame.opener) ∧
      Stacked below

theorem Stacked.of_append {inner below : List Frame} (stacked : Stacked (inner ++ below)) :
    Stacked below := by
  induction inner with
  | nil => exact stacked
  | cons frame inner ih => exact ih stacked.2.2

theorem Stacked.below_lt {inner below : List Frame} (stacked : Stacked (inner ++ below))
    (frame : Frame) (member : frame ∈ inner) (other : Frame) (under : other ∈ below) :
    other.opener < frame.opener := by
  induction inner with
  | nil => simp at member
  | cons first inner ih =>
    rcases List.mem_cons.mp member with rfl | later
    · exact stacked.2.1 other (List.mem_append_right _ under)
    · exact ih stacked.2.2 later

theorem Stacked.outer_mem {stack : List Frame} (stacked : Stacked stack) (frame : Frame)
    (member : frame ∈ stack) (k : Nat) (around : k ∈ frame.outer) :
    ∃ other ∈ stack, other.opener = k := by
  induction stack with
  | nil => simp at member
  | cons first below ih =>
    rcases List.mem_cons.mp member with rfl | later
    · rw [stacked.1, List.mem_map] at around
      obtain ⟨other, under, named⟩ := around
      exact ⟨other, List.mem_cons_of_mem _ under, named⟩
    · obtain ⟨other, under, named⟩ := ih stacked.2.2 later
      exact ⟨other, List.mem_cons_of_mem _ under, named⟩

theorem Stacked.descending {stack : List Frame} (stacked : Stacked stack) :
    stack.Pairwise (fun frame other => other.opener < frame.opener) := by
  induction stack with
  | nil => exact .nil
  | cons frame below ih => exact .cons stacked.2.1 (ih stacked.2.2)

/-- What holds of the frames after any tokens. -/
structure Linked (nesting : Nesting) : Prop where
  size : nesting.sites.size = nesting.tokens.size
  opener : ∀ {i frame}, nesting.frameAt i = some frame → frame.opener = i
  bounds : ∀ {i frame close}, nesting.frameAt i = some frame → frame.closer = some close →
    i < close ∧ close < nesting.tokens.size
  mem_stack : ∀ {frame}, frame ∈ nesting.stack ↔
    nesting.frameAt frame.opener = some frame ∧ frame.closer = none
  stacked : Stacked nesting.stack
  /-- A token stands in a frame, and a frame inside the frames around its opener. -/
  enclosing_frame : ∀ {i e}, nesting.enclosing i = some e → ∃ frame, nesting.frameAt e = some frame
  outer : ∀ {i frame}, nesting.frameAt i = some frame →
    frame.outer = nesting.chainOf (nesting.enclosing i)
  around : ∀ {i}, i < nesting.tokens.size → ∀ k, k ∈ nesting.chainOf (nesting.enclosing i) ↔
    ∃ frame, nesting.frameAt k = some frame ∧ frame.surrounds i = true
  laminar : ∀ {i frame k other close}, nesting.frameAt i = some frame → k ∈ frame.outer →
    nesting.frameAt k = some other → other.closer = some close →
    ∃ earlier ≤ close, frame.closer = some earlier

namespace Linked

variable {nesting : Nesting}

theorem lt_size (linked : Linked nesting) {i : Nat} {frame : Frame}
    (found : nesting.frameAt i = some frame) : i < nesting.tokens.size := by
  rw [← linked.size]
  by_contra beyond
  simp [frameAt, Array.getElem?_eq_none (by omega : nesting.sites.size ≤ i)] at found

theorem enclosing_lt_size (linked : Linked nesting) {i e : Nat}
    (found : nesting.enclosing i = some e) : e < nesting.tokens.size := by
  obtain ⟨frame, there⟩ := linked.enclosing_frame found
  exact linked.lt_size there

theorem frameAt_of_mem_stack (linked : Linked nesting) {frame : Frame}
    (member : frame ∈ nesting.stack) : nesting.frameAt frame.opener = some frame :=
  (linked.mem_stack.mp member).1

theorem outer_lt (linked : Linked nesting) {i k : Nat} {frame : Frame}
    (found : nesting.frameAt i = some frame) (around : k ∈ frame.outer) : k < i := by
  rw [linked.outer found, linked.around (linked.lt_size found)] at around
  obtain ⟨other, there, surrounds⟩ := around
  rw [← linked.opener there]
  exact ((other.surrounds_iff i).mp surrounds).1

/-- The chain of the topmost frame of a stack names the whole stack. -/
theorem chainOf_topOf {stack : List Frame} (stacked : Stacked stack)
    (there : ∀ frame ∈ stack, nesting.frameAt frame.opener = some frame) :
    nesting.chainOf (topOf stack) = stack.map (·.opener) := by
  cases stack with
  | nil => rfl
  | cons frame below =>
    simp [chainOf, topOf, there frame List.mem_cons_self, Frame.chain, stacked.1]

end Linked

theorem linked_empty : Linked {} := by
  constructor <;> simp [frameAt, enclosing, Stacked]

/-- A nesting with one more token, which closes the frames `upper` of the stack, leaves those `below`
open and may open a frame of its own. All steps are of this form. -/
structure Extends (nesting next : Nesting) (upper below : List Frame) (fresh : Option Frame) :
    Prop where
  split : nesting.stack = upper ++ below
  size : next.sites.size = nesting.tokens.size + 1
  tokens_size : next.tokens.size = nesting.tokens.size + 1
  stack : next.stack = fresh.toList ++ below
  fresh_frame : ∀ frame, fresh = some frame →
    frame.opener = nesting.tokens.size ∧ frame.closer = none ∧ frame.outer = below.map (·.opener)
  frameAt : ∀ i, next.frameAt i =
    if i = nesting.tokens.size then fresh
    else if i ∈ upper.map (·.opener) then
      (nesting.frameAt i).map (·.closedBy nesting.tokens.size)
    else nesting.frameAt i
  enclosing : ∀ i, next.enclosing i =
    if i = nesting.tokens.size then topOf below else nesting.enclosing i

namespace Extends

variable {nesting next : Nesting} {upper below : List Frame} {fresh : Option Frame}

theorem held_upper (step : Extends nesting next upper below fresh) {frame : Frame}
    (member : frame ∈ upper) : frame ∈ nesting.stack := by
  rw [step.split]
  exact List.mem_append_left _ member

theorem held_below (step : Extends nesting next upper below fresh) {frame : Frame}
    (member : frame ∈ below) : frame ∈ nesting.stack := by
  rw [step.split]
  exact List.mem_append_right _ member

/-- A frame from before is as it was, or it was open and the new token closes it. -/
theorem old_frame (step : Extends nesting next upper below fresh) (linked : Linked nesting) {i : Nat}
    {frame : Frame} (found : next.frameAt i = some frame) (old : i ≠ nesting.tokens.size) :
    (nesting.frameAt i = some frame ∧ frame ∉ upper) ∨
      ∃ before ∈ upper, before ∈ nesting.stack ∧ nesting.frameAt i = some before ∧
        frame = before.closedBy nesting.tokens.size := by
  rw [step.frameAt, if_neg old] at found
  split at found
  next closed =>
    right
    obtain ⟨before, member, rfl⟩ := List.mem_map.mp closed
    have there := linked.frameAt_of_mem_stack (step.held_upper member)
    rw [there] at found
    exact ⟨before, member, step.held_upper member, there, (Option.some.inj found).symm⟩
  next kept =>
    left
    refine ⟨found, ?_⟩
    intro member
    exact kept (List.mem_map.mpr ⟨frame, member, linked.opener found⟩)

theorem frameAt_below (step : Extends nesting next upper below fresh) (linked : Linked nesting)
    {frame : Frame} (member : frame ∈ below) : next.frameAt frame.opener = some frame := by
  have there := linked.frameAt_of_mem_stack (step.held_below member)
  have old := linked.lt_size there
  have kept : frame.opener ∉ upper.map (·.opener) := by
    intro closed
    obtain ⟨other, inside, same⟩ := List.mem_map.mp closed
    have stacked := linked.stacked
    rw [step.split] at stacked
    have lower := stacked.below_lt other inside frame member
    omega
  rw [step.frameAt, if_neg (by omega), if_neg kept]
  exact there

theorem open_below (step : Extends nesting next upper below fresh) (linked : Linked nesting)
    {frame : Frame} (member : frame ∈ below) : frame.closer = none :=
  (linked.mem_stack.mp (step.held_below member)).2

theorem stacked_below (step : Extends nesting next upper below fresh) (linked : Linked nesting) :
    Stacked below := by
  have stacked := linked.stacked
  rw [step.split] at stacked
  exact stacked.of_append

/-- Chains are never changed. -/
theorem chainOf_old (step : Extends nesting next upper below fresh) {frame : Option Nat}
    (old : frame ≠ some nesting.tokens.size) : next.chainOf frame = nesting.chainOf frame := by
  cases frame with
  | none => rfl
  | some k =>
    have apart : k ≠ nesting.tokens.size := fun equal => old (congrArg some equal)
    simp only [chainOf, Option.bind_some, step.frameAt, if_neg apart]
    split
    · cases nesting.frameAt k <;> rfl
    · rfl

theorem chainOf_enclosing (step : Extends nesting next upper below fresh) (linked : Linked nesting)
    {i : Nat} (old : i ≠ nesting.tokens.size) :
    next.chainOf (next.enclosing i) = nesting.chainOf (nesting.enclosing i) := by
  rw [step.enclosing, if_neg old]
  apply step.chainOf_old
  intro last
  have bound := linked.enclosing_lt_size last
  omega

theorem mem_stack_iff (step : Extends nesting next upper below fresh) (linked : Linked nesting)
    (frame : Frame) :
    frame ∈ next.stack ↔ next.frameAt frame.opener = some frame ∧ frame.closer = none := by
  rw [step.stack, List.mem_append, Option.mem_toList]
  constructor
  · rintro (new | member)
    · obtain ⟨last, isOpen, -⟩ := step.fresh_frame frame new
      rw [step.frameAt, if_pos last]
      exact ⟨new, isOpen⟩
    · exact ⟨step.frameAt_below linked member, step.open_below linked member⟩
  · rintro ⟨found, isOpen⟩
    by_cases last : frame.opener = nesting.tokens.size
    · rw [step.frameAt, if_pos last] at found
      exact .inl found
    · rcases step.old_frame linked found last with ⟨there, kept⟩ | ⟨before, -, -, -, rfl⟩
      · right
        have held := linked.mem_stack.mpr ⟨there, isOpen⟩
        rw [step.split, List.mem_append] at held
        exact held.resolve_left kept
      · simp [Frame.closedBy] at isOpen

theorem bounds (step : Extends nesting next upper below fresh) (linked : Linked nesting) {i : Nat}
    {frame : Frame} {close : Nat} (found : next.frameAt i = some frame)
    (closed : frame.closer = some close) : i < close ∧ close < next.tokens.size := by
  rw [step.tokens_size]
  by_cases last : i = nesting.tokens.size
  · rw [step.frameAt, if_pos last] at found
    have isOpen := (step.fresh_frame frame found).2.1
    simp [isOpen] at closed
  · rcases step.old_frame linked found last with ⟨there, -⟩ | ⟨before, -, -, there, rfl⟩
    · have bound := linked.bounds there closed
      omega
    · have bound := linked.lt_size there
      simp only [Frame.closedBy, Option.some.injEq] at closed
      omega

theorem opener_eq (step : Extends nesting next upper below fresh) (linked : Linked nesting) {i : Nat}
    {frame : Frame} (found : next.frameAt i = some frame) : frame.opener = i := by
  by_cases last : i = nesting.tokens.size
  · rw [step.frameAt, if_pos last] at found
    rw [last]
    exact (step.fresh_frame frame found).1
  · rcases step.old_frame linked found last with ⟨there, -⟩ | ⟨before, -, -, there, rfl⟩
    · exact linked.opener there
    · exact (linked.opener there : before.opener = i)

/-- The frames open before the new token and not closed by it are those that surround it. -/
theorem around_last (step : Extends nesting next upper below fresh) (linked : Linked nesting)
    (k : Nat) :
    k ∈ next.chainOf (topOf below) ↔
      ∃ frame, next.frameAt k = some frame ∧ frame.surrounds nesting.tokens.size = true := by
  rw [Linked.chainOf_topOf (step.stacked_below linked) (fun _ => step.frameAt_below linked),
    List.mem_map]
  constructor
  · rintro ⟨frame, member, rfl⟩
    refine ⟨frame, step.frameAt_below linked member, (frame.surrounds_iff _).mpr ⟨?_, ?_⟩⟩
    · exact linked.lt_size (linked.frameAt_of_mem_stack (step.held_below member))
    · simp [step.open_below linked member]
  · rintro ⟨frame, found, surrounds⟩
    obtain ⟨before, later⟩ := (frame.surrounds_iff _).mp surrounds
    have opener := step.opener_eq linked found
    have isOpen : frame.closer = none := by
      cases closed : frame.closer with
      | none => rfl
      | some close =>
        have bound := (step.bounds linked found closed).2
        have beyond := later close closed
        rw [step.tokens_size] at bound
        omega
    have held := (step.mem_stack_iff linked frame).mpr ⟨opener ▸ found, isOpen⟩
    rw [step.stack, List.mem_append, Option.mem_toList] at held
    rcases held with new | member
    · have last := (step.fresh_frame frame new).1
      omega
    · exact ⟨frame, member, opener⟩

/-- Which frames surround an earlier token does not depend on the new one. -/
theorem surrounds_old (step : Extends nesting next upper below fresh) (linked : Linked nesting)
    {i : Nat} (old : i < nesting.tokens.size) (k : Nat) :
    (∃ frame, next.frameAt k = some frame ∧ frame.surrounds i = true) ↔
      ∃ frame, nesting.frameAt k = some frame ∧ frame.surrounds i = true := by
  constructor
  · rintro ⟨frame, found, surrounds⟩
    obtain ⟨before, later⟩ := (frame.surrounds_iff _).mp surrounds
    have opener := step.opener_eq linked found
    rcases step.old_frame linked found (by omega) with ⟨there, -⟩ | ⟨opened, -, held, there, rfl⟩
    · exact ⟨frame, there, surrounds⟩
    · refine ⟨opened, there, (opened.surrounds_iff _).mpr ⟨before, ?_⟩⟩
      simp [(linked.mem_stack.mp held).2]
  · rintro ⟨frame, there, surrounds⟩
    obtain ⟨before, later⟩ := (frame.surrounds_iff _).mp surrounds
    have opener := linked.opener there
    have frames := step.frameAt k
    rw [if_neg (by omega), there] at frames
    split at frames
    · refine ⟨_, frames, (Frame.surrounds_iff _ _).mpr ⟨before, ?_⟩⟩
      simpa [Frame.closedBy] using old
    · exact ⟨frame, frames, surrounds⟩

theorem laminar (step : Extends nesting next upper below fresh) (linked : Linked nesting) {i k : Nat}
    {frame other : Frame} {close : Nat} (found : next.frameAt i = some frame)
    (around : k ∈ frame.outer) (outside : next.frameAt k = some other)
    (closed : other.closer = some close) : ∃ earlier ≤ close, frame.closer = some earlier := by
  have limit := (step.bounds linked outside closed).2
  rw [step.tokens_size] at limit
  by_cases last : i = nesting.tokens.size
  · rw [step.frameAt, if_pos last] at found
    rw [(step.fresh_frame frame found).2.2] at around
    obtain ⟨under, member, rfl⟩ := List.mem_map.mp around
    have same : under = other :=
      Option.some.inj ((step.frameAt_below linked member).symm.trans outside)
    rw [← same, step.open_below linked member] at closed
    simp at closed
  · rcases step.old_frame linked found last with ⟨there, kept⟩ | ⟨before, -, held, there, rfl⟩
    · have earlier := linked.outer_lt there around
      have old := linked.lt_size there
      rcases step.old_frame linked outside (by omega) with
        ⟨same, -⟩ | ⟨opened, inside, -, same, rfl⟩
      · exact linked.laminar there around same closed
      · cases state : frame.closer with
        | some shut =>
          have bound := (linked.bounds there state).2
          have now : nesting.tokens.size = close := by simpa [Frame.closedBy] using closed
          exact ⟨shut, by omega, rfl⟩
        | none =>
          -- An open frame inside one that is closed just now would lie above it in the stack.
          have held := linked.mem_stack.mpr ⟨linked.opener there ▸ there, state⟩
          have stacked := linked.stacked
          rw [step.split] at held stacked
          have under := (List.mem_append.mp held).resolve_left kept
          obtain ⟨deeper, member, named⟩ := stacked.of_append.outer_mem frame under k around
          have lower := stacked.below_lt opened inside deeper member
          have opener := linked.opener same
          omega
    · refine ⟨nesting.tokens.size, ?_, rfl⟩
      have earlier := linked.outer_lt there around
      have old := linked.lt_size there
      rcases step.old_frame linked outside (by omega) with ⟨same, -⟩ | ⟨opened, -, -, -, rfl⟩
      · obtain ⟨shut, -, state⟩ := linked.laminar there around same closed
        simp [(linked.mem_stack.mp held).2] at state
      · have now : nesting.tokens.size = close := by simpa [Frame.closedBy] using closed
        omega

theorem stacked (step : Extends nesting next upper below fresh) (linked : Linked nesting) :
    Stacked next.stack := by
  rw [step.stack]
  cases new : fresh with
  | none => exact step.stacked_below linked
  | some frame =>
    obtain ⟨last, -, outer⟩ := step.fresh_frame frame new
    refine ⟨outer, ?_, step.stacked_below linked⟩
    intro other member
    rw [last]
    exact linked.lt_size (linked.frameAt_of_mem_stack (step.held_below member))

theorem outer (step : Extends nesting next upper below fresh) (linked : Linked nesting) {i : Nat}
    {frame : Frame} (found : next.frameAt i = some frame) :
    frame.outer = next.chainOf (next.enclosing i) := by
  by_cases last : i = nesting.tokens.size
  · rw [step.frameAt, if_pos last] at found
    rw [step.enclosing, if_pos last, (step.fresh_frame frame found).2.2]
    exact (Linked.chainOf_topOf (step.stacked_below linked)
      (fun _ => step.frameAt_below linked)).symm
  · rw [step.chainOf_enclosing linked last]
    rcases step.old_frame linked found last with ⟨there, -⟩ | ⟨before, -, -, there, rfl⟩
    · exact linked.outer there
    · exact (linked.outer there : before.outer = _)

theorem enclosing_frame (step : Extends nesting next upper below fresh) (linked : Linked nesting)
    {i e : Nat} (found : next.enclosing i = some e) : ∃ frame, next.frameAt e = some frame := by
  rw [step.enclosing] at found
  split at found
  · obtain ⟨frame, top, rfl⟩ := Option.map_eq_some_iff.mp found
    exact ⟨frame, step.frameAt_below linked (List.mem_of_head? top)⟩
  · obtain ⟨frame, there⟩ := linked.enclosing_frame found
    have old := linked.lt_size there
    rw [step.frameAt, if_neg (by omega), there]
    split
    · exact ⟨_, rfl⟩
    · exact ⟨_, rfl⟩

end Extends

theorem Linked.extend {nesting next : Nesting} {upper below : List Frame} {fresh : Option Frame}
    (linked : Linked nesting) (step : Extends nesting next upper below fresh) : Linked next where
  size := by rw [step.size, step.tokens_size]
  opener := step.opener_eq linked
  bounds := step.bounds linked
  mem_stack := step.mem_stack_iff linked _
  stacked := step.stacked linked
  enclosing_frame := step.enclosing_frame linked
  outer := step.outer linked
  around := by
    intro i bound k
    by_cases last : i = nesting.tokens.size
    · rw [step.enclosing, if_pos last, last]
      exact step.around_last linked k
    · rw [step.tokens_size] at bound
      have old : i < nesting.tokens.size := by omega
      rw [step.chainOf_enclosing linked last, linked.around old]
      exact (step.surrounds_old linked old k).symm
  laminar := step.laminar linked

theorem newFrame_outer {nesting : Nesting} (linked : Linked nesting) (bracket : Bracket)
    (token : Token) : (nesting.newFrame bracket token).outer = nesting.stack.map (·.opener) := by
  have stacked := linked.stacked
  cases held : nesting.stack with
  | nil => simp [newFrame, held]
  | cons frame below =>
    rw [held] at stacked
    simp [newFrame, held, Frame.chain, stacked.1]

/-- Every step extends the nesting. -/
theorem Step.extends {nesting next : Nesting} {token : Token} (step : Step nesting token next)
    (linked : Linked nesting) : ∃ upper below fresh, Extends nesting next upper below fresh := by
  cases step with
  | enter bracket opens =>
    refine ⟨[], nesting.stack, some (nesting.newFrame bracket token), ?_⟩
    exact {
      split := rfl
      size := by simp [Nesting.enter, linked.size]
      tokens_size := by simp [Nesting.enter]
      stack := rfl
      fresh_frame := by
        intro frame new
        cases new
        exact ⟨rfl, rfl, newFrame_outer linked bracket token⟩
      frameAt := by
        intro i
        rw [frameAt_enter _ _ _ _ linked.size]
        simp
      enclosing := fun i => enclosing_enter nesting bracket token i linked.size }
  | shut bracket inner matching below opens closes split others same =>
    refine ⟨inner ++ [matching], below, none, ?_⟩
    exact {
      split := by simp [split]
      size := by simp [Nesting.shut, size_closed, linked.size]
      tokens_size := by simp [Nesting.shut]
      stack := rfl
      fresh_frame := by simp
      frameAt := by
        intro i
        rw [frameAt_shut]
        by_cases last : i = nesting.tokens.size
        · have absent : nesting.frameAt i = none := by
            simp [Nesting.frameAt, last, ← linked.size]
          rw [if_pos last, absent]
          simp
        · rw [if_neg last]
      enclosing := fun i => enclosing_shut nesting token inner matching below i linked.size }
  | pass opens unmatched =>
    refine ⟨[], nesting.stack, none, ?_⟩
    exact {
      split := rfl
      size := by simp [Nesting.pass, linked.size]
      tokens_size := by simp [Nesting.pass]
      stack := rfl
      fresh_frame := by simp
      frameAt := by
        intro i
        rw [frameAt_pass]
        by_cases last : i = nesting.tokens.size
        · simp [Nesting.frameAt, last, ← linked.size]
        · simp [last]
      enclosing := fun i => enclosing_pass nesting token i linked.size }

theorem Linked.push {nesting : Nesting} (linked : Linked nesting) (token : Token) :
    Linked (nesting.push token) := by
  obtain ⟨upper, below, fresh, step⟩ := (push_step nesting token).extends linked
  exact linked.extend step

/-- What holds at first and is kept by every token holds after all tokens. -/
theorem ofTokens_induction {P : Nesting → Prop} (first : P {})
    (step : ∀ nesting token, P nesting → P (nesting.push token)) (tokens : List Token) :
    P (ofTokens tokens) := by
  suffices kept : ∀ nesting, P nesting → P (tokens.foldl Nesting.push nesting) from kept {} first
  induction tokens with
  | nil => exact fun _ holds => holds
  | cons token rest ih => exact fun nesting holds => ih _ (step nesting token holds)

theorem linked_ofTokens (tokens : List Token) : Linked (ofTokens tokens) :=
  ofTokens_induction linked_empty (fun _ token linked => linked.push token) tokens

theorem tokens_foldl_push (nesting : Nesting) (tokens : List Token) :
    (tokens.foldl push nesting).tokens = nesting.tokens ++ tokens.toArray := by
  induction tokens generalizing nesting with
  | nil => simp
  | cons token rest ih =>
    rw [List.foldl_cons, ih, tokens_push]
    simp

theorem tokens_ofTokens (tokens : List Token) : (ofTokens tokens).tokens = tokens.toArray := by
  rw [ofTokens, tokens_foldl_push]
  simp

end Nesting

end CursorContext
