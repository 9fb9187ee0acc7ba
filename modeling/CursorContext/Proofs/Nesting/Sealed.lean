import CursorContext.Proofs.Nesting.Continued

/-!
Balanced text as a sealed stretch of a larger one. Whatever stands before and after it, no frame
crosses its ends: frames that begin in it end in it, its closing brackets end one frame each, and
everything in it stands in the frame around it or deeper.
-/
namespace CursorContext

namespace Nesting

open Token

/-! ### Frames that are open at some time -/

/-- A frame that is open is ended by a later token, if at all. -/
theorem Linked.le_closeOf_foldl_push {nesting : Nesting} (linked : Linked nesting) {frame : Frame}
    (held : frame ∈ nesting.stack) (tokens : List Token) {close : Nat}
    (closes : (tokens.foldl Nesting.push nesting).closeOf frame.opener = some close) :
    nesting.tokens.size ≤ close := by
  obtain ⟨found, isOpen⟩ := linked.mem_stack.mp held
  obtain ⟨later, there, continues⟩ := linked.continues_foldl_push tokens found
  obtain ⟨last, there', closed⟩ := closer_of_closeOf closes
  rw [there] at there'
  cases there'
  exact continues.ended close isOpen closed

/-- Frames that begin before balanced text do not end in it. -/
theorem closeOf_across (before : List Token) {text : List Token} (balanced : Balanced text)
    (after : List Token) {f close : Nat} (older : f < before.length)
    (closes : (ofTokens (before ++ (text ++ after))).closeOf f = some close) :
    close < before.length ∨ before.length + text.length ≤ close := by
  have linked := linked_ofTokens before
  have size : (ofTokens before).tokens.size = before.length := by simp [tokens_ofTokens]
  have stack := stack_foldl_push balanced (ofTokens before)
  obtain ⟨last, found, closed⟩ := closer_of_closeOf closes
  obtain ⟨token, bracket, placed, opens, -⟩ := (formed_ofTokens _).frame found
  rw [ofTokens_append] at closes found placed
  rw [getElem?_foldl_push _ _ (by omega)] at placed
  obtain ⟨frame, there⟩ := (formed_ofTokens before).opened placed opens
  cases open? : frame.closer with
  | some earlier =>
    left
    have same := linked.frameAt_foldl_push (text ++ after) there open?
    rw [found] at same
    cases same
    rw [closed] at open?
    have bound := (linked.bounds there closed).2
    omega
  | none =>
    -- It is still open after the text.
    right
    have held : frame ∈ (ofTokens before).stack :=
      linked.mem_stack.mpr ⟨linked.opener there ▸ there, open?⟩
    rw [← stack] at held
    rw [List.foldl_append, ← linked.opener there] at closes
    have bound := (linked.foldl_push text).le_closeOf_foldl_push held after closes
    rw [size_foldl_push] at bound
    omega

/-- Behind balanced text a token that is no bracket stands in the frame around the text. -/
theorem enclosing_behind (before : List Token) {text : List Token} (balanced : Balanced text)
    {token : Token} (opens : token.opening? = none) (closes : token.closing? = none)
    (after : List Token) :
    (ofTokens (before ++ (text ++ token :: after))).enclosing (before.length + text.length) =
      topOf (ofTokens before).stack := by
  have linked := (linked_ofTokens before).foldl_push text
  have size : (text.foldl push (ofTokens before)).tokens.size = before.length + text.length := by
    simp [size_foldl_push, tokens_ofTokens]
  have direct := linked.enclosing_plain opens closes
  rw [size, stack_foldl_push balanced] at direct
  rw [ofTokens_append, List.foldl_append, List.foldl_cons,
    (linked.push token).enclosing_foldl_push after (by simp [tokens_push, size]), direct]

/-- A token that is no bracket stands in the same frame as the first one of balanced text before it,
if that is no bracket either. -/
theorem enclosing_across (before : List Token) {text : List Token} (balanced : Balanced text)
    {first token : Token} (head : text.head? = some first)
    (begins : first.opening? = none ∧ first.closing? = none)
    (ends : token.opening? = none ∧ token.closing? = none) (after : List Token) :
    (ofTokens (before ++ (text ++ token :: after))).enclosing (before.length + text.length) =
      (ofTokens (before ++ (text ++ token :: after))).enclosing before.length := by
  rw [enclosing_behind before balanced ends.1 ends.2 after]
  obtain ⟨rest, rfl⟩ := List.head?_eq_some_iff.mp head
  exact (enclosing_behind before .nil begins.1 begins.2 (rest ++ token :: after)).symm

/-! ### Frames of balanced text -/

/-- A frame that ends in balanced text begins there. -/
theorem opener_of_closeOf (before : List Token) {text : List Token} (balanced : Balanced text)
    (after : List Token) {f close : Nat}
    (closes : (ofTokens (before ++ (text ++ after))).closeOf f = some close)
    (begun : before.length ≤ close) (inside : close < before.length + text.length) :
    before.length ≤ f := by
  by_contra older
  have across := closeOf_across before balanced after (by omega) closes
  omega

/-- A frame that begins in balanced text ends there, at its partner. -/
theorem closeOf_balanced (before : List Token) {text : List Token} (balanced : Balanced text)
    (after : List Token) {f : Nat} {frame : Frame} (begun : before.length ≤ f)
    (inside : f < before.length + text.length)
    (found : (ofTokens (before ++ (text ++ after))).frameAt f = some frame) :
    ∃ close < before.length + text.length,
      (ofTokens (before ++ (text ++ after))).closeOf f = some close ∧
      (ofTokens (before ++ (text ++ after))).frameEndingAt close = some frame := by
  obtain ⟨token, bracket, placed, opens, -⟩ := (formed_ofTokens _).frame found
  obtain ⟨i, rfl⟩ := Nat.exists_eq_add_of_le begun
  have local_ : text[i]? = some token := by
    rw [tokens_ofTokens, List.getElem?_toArray, List.getElem?_append_right (by omega),
      Nat.add_sub_cancel_left, List.getElem?_append_left (by omega)] at placed
    exact placed
  obtain ⟨j, partners⟩ := balanced.exists_partner local_ opens
  obtain ⟨same, there, closed, ends⟩ := frame_of_partners ((partners.append after).prepend before)
  rw [found] at there
  cases there
  refine ⟨before.length + j, ?_, by simp [closeOf, found, closed], ends⟩
  obtain ⟨_, _, _, _, _, _, rfl, rfl, rfl, -⟩ := partners
  simp
  omega

/-- A closing bracket in balanced text ends the frame that it matches. -/
theorem frameEndingAt_of_closeOf (before : List Token) {text : List Token}
    (balanced : Balanced text) (after : List Token) {f close : Nat}
    (closes : (ofTokens (before ++ (text ++ after))).closeOf f = some close)
    (begun : before.length ≤ close) (inside : close < before.length + text.length) :
    ∃ frame, (ofTokens (before ++ (text ++ after))).frameEndingAt close = some frame ∧
      frame.opener = f := by
  have linked := linked_ofTokens (before ++ (text ++ after))
  obtain ⟨frame, found, closer⟩ := closer_of_closeOf closes
  have later := (linked.bounds found closer).1
  have first := opener_of_closeOf before balanced after closes begun inside
  obtain ⟨other, -, same, ending⟩ :=
    closeOf_balanced before balanced after first (by omega) found
  rw [closes] at same
  cases same
  exact ⟨frame, ending, linked.opener found⟩

/-! ### Sealed stretches -/

/-- From `start` up to but not including `stop`, inside the frame `top`, no frame crosses an end. -/
structure Sealed (nesting : Nesting) (top : Option Nat) (start stop : Nat) : Prop where
  within : stop ≤ nesting.tokens.size
  inOrBelow : ∀ i, start ≤ i → i < stop → nesting.InOrBelow top start i
  around : ∀ f close, top = some f → nesting.closeOf f = some close → stop ≤ close
  closes : ∀ f frame, start ≤ f → f < stop → nesting.frameAt f = some frame →
    ∃ close < stop, nesting.closeOf f = some close
  opens : ∀ f close, nesting.closeOf f = some close → start ≤ close → close < stop → start ≤ f
  /-- A closing bracket ends no two frames. -/
  sole : ∀ f g close, nesting.closeOf f = some close → nesting.closeOf g = some close →
    start ≤ close → close < stop → f = g

theorem sealed_of_balanced (before : List Token) {text : List Token} (balanced : Balanced text)
    (after : List Token) :
    Sealed (ofTokens (before ++ (text ++ after))) (topOf (ofTokens before).stack) before.length
      (before.length + text.length) := by
  have linked := linked_ofTokens before
  have size : (ofTokens before).tokens.size = before.length := by simp [tokens_ofTokens]
  constructor
  · simp [tokens_ofTokens]
  · intro i begun inside
    have there := linked.inOrBelow balanced (i := i) (by omega) (by omega)
    rw [size] at there
    rw [ofTokens_append, List.foldl_append]
    exact there.foldl_push (linked.foldl_push text) (by rw [size_foldl_push]; omega) after
  · intro f close top closes
    obtain ⟨frame, first, rfl⟩ := Option.map_eq_some_iff.mp top
    have held := List.mem_of_head? first
    rw [← stack_foldl_push balanced] at held
    rw [ofTokens_append, List.foldl_append] at closes
    have bound := (linked.foldl_push text).le_closeOf_foldl_push held after closes
    rw [size_foldl_push] at bound
    omega
  · intro f frame begun inside found
    obtain ⟨close, bound, closes, -⟩ := closeOf_balanced before balanced after begun inside found
    exact ⟨close, bound, closes⟩
  · intro f close closes begun inside
    exact opener_of_closeOf before balanced after closes begun inside
  · intro f g close closes closes' begun inside
    -- Both frames are the one that the bracket matches.
    obtain ⟨one, ending, rfl⟩ := frameEndingAt_of_closeOf before balanced after closes begun inside
    obtain ⟨other, ending', rfl⟩ :=
      frameEndingAt_of_closeOf before balanced after closes' begun inside
    rw [ending] at ending'
    cases ending'
    rfl

end Nesting

end CursorContext
