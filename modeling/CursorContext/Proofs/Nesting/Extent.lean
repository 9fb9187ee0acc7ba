import CursorContext.Proofs.Nesting.Linked

/-!
Frames as intervals of token indexes. Around a token stand exactly the frames whose interval contains
its index, around the cursor exactly those without an end, and no interval reaches beyond the one it
begins in.
-/
namespace CursorContext.Nesting

variable {nesting : Nesting}

/-! ### All frames -/

namespace Linked

theorem mem_frames (linked : Linked nesting) (frame : Frame) :
    frame ∈ nesting.frames ↔ nesting.frameAt frame.opener = some frame := by
  simp only [frames, List.mem_filterMap, Array.mem_toList_iff]
  constructor
  · rintro ⟨site, member, opens⟩
    obtain ⟨i, bound, rfl⟩ := Array.mem_iff_getElem.mp member
    have found : nesting.frameAt i = some frame := by
      simp [frameAt, Array.getElem?_eq_getElem bound, opens]
    rw [linked.opener found]
    exact found
  · intro found
    obtain ⟨site, there, opens⟩ := Option.bind_eq_some_iff.mp found
    exact ⟨site, Array.mem_of_getElem? there, opens⟩

theorem frames_ascending (linked : Linked nesting) :
    nesting.frames.Pairwise (fun frame later => frame.opener < later.opener) := by
  rw [frames, List.pairwise_filterMap, List.pairwise_iff_getElem]
  intro i j first second before frame opens later opens'
  have here : nesting.frameAt i = some frame := by
    rw [Array.getElem_toList] at opens
    simp [frameAt, Array.getElem?_eq_getElem (by simpa using first), opens]
  have there : nesting.frameAt j = some later := by
    rw [Array.getElem_toList] at opens'
    simp [frameAt, Array.getElem?_eq_getElem (by simpa using second), opens']
  rw [linked.opener here, linked.opener there]
  exact before

theorem chain_descending (linked : Linked nesting) (i : Nat) (frame : Frame)
    (found : nesting.frameAt i = some frame) : frame.chain.Pairwise (· > ·) := by
  -- By induction on the opener: the rest of a chain is that of a frame opened earlier.
  induction i using Nat.strong_induction_on generalizing frame with
  | h i ih =>
    have lower : ∀ k ∈ frame.outer, k < frame.opener := by
      rw [linked.opener found]
      exact fun k around => linked.outer_lt found around
    refine .cons lower ?_
    have outer := linked.outer found
    cases enclosed : nesting.enclosing i with
    | none => simp [outer, enclosed, chainOf]
    | some e =>
      obtain ⟨around, there⟩ := linked.enclosing_frame enclosed
      have chain : frame.outer = around.chain := by simp [outer, enclosed, chainOf, there]
      rw [chain]
      refine ih e ?_ around there
      apply linked.outer_lt found
      rw [chain, Frame.chain, linked.opener there]
      exact List.mem_cons_self

theorem chainOf_descending (linked : Linked nesting) (i : Nat) :
    (nesting.chainOf (nesting.enclosing i)).Pairwise (· > ·) := by
  cases enclosed : nesting.enclosing i with
  | none => simp [chainOf]
  | some e =>
    obtain ⟨frame, found⟩ := linked.enclosing_frame enclosed
    simpa [chainOf, found] using linked.chain_descending e frame found

theorem mem_frames_of_frameAt (linked : Linked nesting) {i : Nat} {frame : Frame}
    (found : nesting.frameAt i = some frame) : frame ∈ nesting.frames :=
  (linked.mem_frames frame).mpr (linked.opener found ▸ found)

/-- A frame goes on inside the frame it begins in. -/
theorem parent_frame (linked : Linked nesting) {frame : Frame} (member : frame ∈ nesting.frames)
    {k : Nat} (inside : frame.parent = some k) :
    ∃ outer, nesting.frameAt k = some outer ∧ frame.outer = outer.chain := by
  have found := (linked.mem_frames frame).mp member
  have outer := linked.outer found
  cases enclosed : nesting.enclosing frame.opener with
  | none => simp [Frame.parent, outer, enclosed, chainOf] at inside
  | some e =>
    obtain ⟨around, there⟩ := linked.enclosing_frame enclosed
    have chain : frame.outer = around.chain := by simp [outer, enclosed, chainOf, there]
    have named : around.opener = k := by simpa [Frame.parent, chain, Frame.chain] using inside
    rw [← named, linked.opener there]
    exact ⟨around, there, chain⟩

theorem surrounds_of_enclosing (linked : Linked nesting) {i e : Nat}
    (inside : i < nesting.tokens.size) (enclosed : nesting.enclosing i = some e) :
    ∃ frame, nesting.frameAt e = some frame ∧ frame.surrounds i = true := by
  obtain ⟨frame, found⟩ := linked.enclosing_frame enclosed
  apply (linked.around inside e).mp
  simp [chainOf, enclosed, found, Frame.chain, linked.opener found]

/-- A token stands after the opening bracket of the frame around it. -/
theorem enclosing_lt (linked : Linked nesting) {i e : Nat} (inside : i < nesting.tokens.size)
    (enclosed : nesting.enclosing i = some e) : e < i := by
  obtain ⟨frame, found, surrounds⟩ := linked.surrounds_of_enclosing inside enclosed
  have begun := ((frame.surrounds_iff i).mp surrounds).1
  rwa [linked.opener found] at begun

theorem endOf_le (linked : Linked nesting) {i : Nat} {frame : Frame}
    (found : nesting.frameAt i = some frame) : nesting.endOf frame ≤ nesting.tokens.size := by
  unfold endOf
  cases closed : frame.closer with
  | none => exact Nat.le_refl _
  | some close => exact Nat.le_of_lt (linked.bounds found closed).2

theorem lt_endOf (linked : Linked nesting) {i : Nat} {frame : Frame}
    (found : nesting.frameAt i = some frame) : i < nesting.endOf frame := by
  unfold endOf
  cases closed : frame.closer with
  | none => exact linked.lt_size found
  | some close => exact (linked.bounds found closed).1

theorem stack_openers (linked : Linked nesting) :
    (nesting.stack.head?.map (·.chain)).getD [] = nesting.stack.map (·.opener) := by
  have stacked := linked.stacked
  cases held : nesting.stack with
  | nil => rfl
  | cons frame below =>
    rw [held] at stacked
    simp [Frame.chain, stacked.1]

theorem mem_stack_openers (linked : Linked nesting) (k : Nat) :
    k ∈ nesting.stack.map (·.opener) ↔
      ∃ frame ∈ nesting.frames, frame.opener = k ∧ frame.closer = none := by
  rw [List.mem_map]
  constructor
  · rintro ⟨frame, held, rfl⟩
    obtain ⟨found, isOpen⟩ := linked.mem_stack.mp held
    exact ⟨frame, (linked.mem_frames frame).mpr found, rfl, isOpen⟩
  · rintro ⟨frame, member, rfl, isOpen⟩
    exact ⟨frame, linked.mem_stack.mpr ⟨(linked.mem_frames frame).mp member, isOpen⟩, rfl⟩

end Linked

theorem closer_of_closeOf {f close : Nat} (closes : nesting.closeOf f = some close) :
    ∃ frame, nesting.frameAt f = some frame ∧ frame.closer = some close :=
  Option.bind_eq_some_iff.mp closes

/-- A frame that begins inside another one has ended when that one ends. -/
theorem Linked.closeOf_inside (linked : Linked nesting) {f g close : Nat} {inner : Frame}
    (found : nesting.frameAt g = some inner) (after : f < g) (before : g < close)
    (closes : nesting.closeOf f = some close) :
    ∃ earlier ≤ close, nesting.closeOf g = some earlier := by
  obtain ⟨outer, there, closed⟩ := closer_of_closeOf closes
  have surrounds : outer.surrounds g = true := by
    refine (outer.surrounds_iff g).mpr ⟨by rwa [linked.opener there], ?_⟩
    intro other closed'
    rw [closed] at closed'
    cases closed'
    exact before
  have around : f ∈ inner.outer := by
    rw [linked.outer found, linked.around (linked.lt_size found)]
    exact ⟨outer, there, surrounds⟩
  obtain ⟨earlier, bound, closed'⟩ := linked.laminar found around there closed
  exact ⟨earlier, bound, by simp [closeOf, found, closed']⟩

/-! ### The frames around a token and around the cursor -/

/-- Whether the last token is a string literal that the end of the text cuts off. -/
def endsInLiteral (tokens : List Token) : Bool :=
  tokens.getLast?.any fun token => token.kind == .string && !token.terminated && token.text != ""

theorem chainAt?_of_lt (linked : Linked nesting) {index : Nat} (bound : index < nesting.tokens.size) :
    nesting.chainAt? index = some (nesting.chainOf (nesting.enclosing index)) := by
  rw [← linked.size] at bound
  simp [chainAt?, enclosing?, atSigned?_natCast, enclosing, Array.getElem?_eq_getElem bound]

theorem cursorChain_ofTokens (tokens : List Token) :
    (ofTokens tokens).cursorChain =
      (if endsInLiteral tokens then [tokens.length - 1] else []) ++
        (ofTokens tokens).stack.map (·.opener) := by
  have openers := (linked_ofTokens tokens).stack_openers
  have back : (ofTokens tokens).tokens.back? = tokens.getLast? := by
    rw [tokens_ofTokens, List.back?_toArray]
  rw [cursorChain, cursorFrame, trailingLiteral, back, endsInLiteral, ← openers]
  cases tokens.getLast? with
  | none => simp
  | some token =>
    by_cases cut : token.kind = .string ∧ token.terminated = false
    · cases text : token.text.toList with
      | nil => simp [cut, String.toList_eq_nil_iff.mp text]
      | cons mark rest =>
        have written : token.text ≠ "" := by
          intro empty
          simp [empty] at text
        simp [cut, text, written, Frame.chain, tokens_ofTokens]
    · simp only [beq_iff_eq, Bool.and_eq_true, Bool.not_eq_true']
      rw [if_neg cut]
      have uncut : ¬ ((token.kind = .string ∧ token.terminated = false) ∧ token.text ≠ "") :=
        fun both => cut both.1
      simp [uncut]

/-- After any tokens, in whatever order their brackets stand: the frames found around a token by
following links are those whose interval contains it, innermost first; the frames found around the
cursor are those that are open, after the literal the cursor may be in; and of two frames, one inside
the other, the inner one is closed no later. -/
theorem chains_by_extent (tokens : List Token) :
    (ofTokens tokens).frames.Pairwise (fun frame later => frame.opener < later.opener) ∧
    (∀ index < tokens.length, ∃ chain, (ofTokens tokens).chainAt? index = some chain ∧
      chain.Pairwise (· > ·) ∧
      ∀ k, k ∈ chain ↔ ∃ frame ∈ (ofTokens tokens).frames, frame.opener = k ∧ k < index ∧
        ∀ close, frame.closer = some close → index < close) ∧
    (∃ chain, (ofTokens tokens).cursorChain =
        (if endsInLiteral tokens then [tokens.length - 1] else []) ++ chain ∧
      chain.Pairwise (· > ·) ∧
      ∀ k, k ∈ chain ↔
        ∃ frame ∈ (ofTokens tokens).frames, frame.opener = k ∧ frame.closer = none) ∧
    (∀ frame ∈ (ofTokens tokens).frames, ∀ k, frame.parent = some k →
      ∃ outer ∈ (ofTokens tokens).frames, outer.opener = k ∧ frame.outer = outer.chain ∧
        ∀ close, outer.closer = some close → ∃ earlier ≤ close, frame.closer = some earlier) := by
  have linked := linked_ofTokens tokens
  refine ⟨linked.frames_ascending, ?_, ?_, ?_⟩
  · intro index bound
    have inside : index < (ofTokens tokens).tokens.size := by simpa [tokens_ofTokens] using bound
    refine ⟨_, chainAt?_of_lt linked inside, linked.chainOf_descending index, ?_⟩
    intro k
    rw [linked.around inside]
    constructor
    · rintro ⟨frame, found, surrounds⟩
      have named := linked.opener found
      obtain ⟨before, later⟩ := (frame.surrounds_iff index).mp surrounds
      exact ⟨frame, linked.mem_frames_of_frameAt found, named, named ▸ before, later⟩
    · rintro ⟨frame, member, rfl, before, later⟩
      exact ⟨frame, (linked.mem_frames frame).mp member,
        (frame.surrounds_iff index).mpr ⟨before, later⟩⟩
  · refine ⟨_, cursorChain_ofTokens tokens, ?_, linked.mem_stack_openers⟩
    exact List.pairwise_map.mpr linked.stacked.descending
  · intro frame member k inside
    obtain ⟨outer, there, chain⟩ := linked.parent_frame member inside
    refine ⟨outer, linked.mem_frames_of_frameAt there, linked.opener there, chain, ?_⟩
    intro close closed
    refine linked.laminar ((linked.mem_frames frame).mp member) ?_ there closed
    rw [chain, Frame.chain, linked.opener there]
    exact List.mem_cons_self

end CursorContext.Nesting
