import CursorContext.Proofs.Checked.Access
import CursorContext.Proofs.Token.Brackets
import CursorContext.Proofs.Token.Tiling

/-!
Checked building of a nesting, and the checked search for the call at the cursor. Brackets are looked
up in the table of pairs, and the search follows the links from frame to frame.
-/
namespace CursorContext

namespace Checked

open Nesting (topOf)

/-! ### Building -/

/-- The role of a bracket that follows the tokens so far. -/
def role (nesting : Nesting) (bracket : Bracket) : Except Fault Role := do
  let previous ← tokenBefore nesting nesting.tokens.size 1
  let earlier ← tokenBefore nesting nesting.tokens.size 2
  return .ofBracket bracket previous earlier

theorem role_eq (nesting : Nesting) (bracket : Bracket) (token : Token) :
    role nesting bracket = .ok (nesting.newFrame bracket token).role := by
  rw [Nesting.newFrame_role, role, tokenBefore_eq (Nat.le_refl _) (by omega), ok_bind,
    tokenBefore_eq (Nat.le_refl _) (by omega)]
  rfl

def enter (nesting : Nesting) (bracket : Bracket) (token : Token) : Except Fault Nesting := do
  let frame := { nesting.newFrame bracket token with role := ← role nesting bracket }
  return {
    tokens := nesting.tokens.push token
    sites := nesting.sites.push { enclosing := topOf nesting.stack, opens := some frame }
    stack := frame :: nesting.stack }

/-- Adds one token. -/
def push (nesting : Nesting) (token : Token) : Except Fault Nesting :=
  match token.kind with
  | .opener => do enter nesting (← require .unpaired token.opening?) token
  | .closer => do return nesting.leave (← require .unpaired token.closing?) token
  | _ => return nesting.pass token

theorem push_eq (nesting : Nesting) {token : Token} (paired : token.Paired) :
    push nesting token = .ok (nesting.push token) := by
  unfold push
  split
  next opener =>
    obtain ⟨bracket, opens⟩ := Option.isSome_iff_exists.mp (paired.1 opener)
    rw [opens, require_some, ok_bind, enter, role_eq nesting bracket token, ok_bind]
    simp only [Nesting.push, opens]
    rfl
  next closer =>
    obtain ⟨bracket, closes⟩ := Option.isSome_iff_exists.mp (paired.2 closer)
    have opens : token.opening? = none := by simp [Token.opening?, closer]
    simp [closes, opens, Nesting.push]
  next notOpener notCloser =>
    have opens : token.opening? = none := by
      rw [Token.opening?, if_neg (by simpa using notOpener)]
    have closes : token.closing? = none := by
      rw [Token.closing?, if_neg (by simpa using notCloser)]
    simp [opens, closes, Nesting.push]

def track (tokens : List Token) : Except Fault Nesting := tokens.foldlM push {}

theorem track_eq {tokens : List Token} (paired : ∀ token ∈ tokens, token.Paired) :
    track tokens = .ok (.ofTokens tokens) := by
  suffices added : ∀ nesting : Nesting,
      tokens.foldlM push nesting = .ok (tokens.foldl Nesting.push nesting) from added {}
  induction tokens with
  | nil => exact fun _ => rfl
  | cons token rest ih =>
    intro nesting
    rw [List.foldlM_cons, push_eq nesting (paired token List.mem_cons_self), ok_bind,
      ih fun other member => paired other (List.mem_cons_of_mem _ member)]
    rfl

/-! ### The call at the cursor -/

/-- The literal with which the tokens end, which the end of the text cuts off. -/
def literalFrame (nesting : Nesting) (last : Token) (around : Option Nat) : Except Fault Frame := do
  return {
    mark := ← require (.outside 0) last.text.toList.head?
    opener := nesting.tokens.size - 1
    offset := last.start
    role := .literal
    outer := nesting.chainOf around }

/-- The frame that the token at `index` opens, or else the one it stands in. -/
def innermost (nesting : Nesting) (index : Nat) (around : Option Nat) : Except Fault (Option Frame) :=
  match nesting.frameAt index, around with
  | some opened, _ => return some opened
  | none, some name => do return some (← frameOf nesting name)
  | none, none => return none

/-- The innermost frame around the cursor, as the last token tells it. -/
def cursorFrame (nesting : Nesting) : Except Fault (Option Frame) :=
  if nesting.tokens.size = 0 then return none
  else do
    let last ← tokenAt nesting (nesting.tokens.size - 1)
    let around ← enclosing nesting (nesting.tokens.size - 1)
    if last.kind == .string && !last.terminated then
      return some (← literalFrame nesting last around)
    else
      let frame ← innermost nesting (nesting.tokens.size - 1) around
      return frame.filter (·.isOpen)

/-- The call found from a frame outwards. -/
def callFrom (nesting : Nesting) (frame : Frame) : Except Fault (Option Frame) :=
  if frame.isCall then return some frame
  else if frame.role == .block || frame.role == .params then return none
  else
    match frame.parent with
    | none => return none
    | some name => do
      let outer ← frameOf nesting name
      if _outwards : outer.opener < frame.opener then callFrom nesting outer
      else throw (.stuck frame.opener)
termination_by frame.opener

def cursorCall (nesting : Nesting) (inComment : Bool) : Except Fault (Option Frame) :=
  if inComment then return none
  else do
    match ← cursorFrame nesting with
    | none => return none
    | some frame => callFrom nesting frame

/-- The last token opens the innermost open frame, or it stands directly in that frame. -/
def EndsInTop (nesting : Nesting) : Prop :=
  ∀ last, nesting.tokens.size = last + 1 →
    (∀ frame, nesting.frameAt last = some frame → nesting.stack.head? = some frame) ∧
    (nesting.frameAt last = none → nesting.enclosing last = topOf nesting.stack)

theorem endsInTop_ofTokens (tokens : List Token) : EndsInTop (.ofTokens tokens) := by
  have both := Nesting.ofTokens_induction (P := fun nesting => nesting.Linked ∧ EndsInTop nesting)
    ⟨Nesting.linked_empty, fun _ impossible => by simp at impossible⟩ ?_ tokens
  · exact both.2
  · rintro nesting token ⟨linked, -⟩
    refine ⟨linked.push token, ?_⟩
    intro last size
    obtain ⟨upper, below, fresh, step⟩ := (Nesting.push_step nesting token).extends linked
    have same : last = nesting.tokens.size := by
      rw [step.tokens_size] at size
      omega
    rw [step.frameAt, if_pos same, step.stack, step.enclosing, if_pos same]
    constructor
    · rintro frame rfl
      rfl
    · rintro rfl
      rfl

theorem chainOf_topOf_stack {nesting : Nesting} (linked : nesting.Linked) :
    nesting.chainOf (topOf nesting.stack) = (nesting.stack.head?.map (·.chain)).getD [] := by
  rw [linked.stack_openers]
  exact Nesting.Linked.chainOf_topOf linked.stacked fun _ => linked.frameAt_of_mem_stack

theorem innermost_eq {nesting : Nesting} (linked : nesting.Linked) (ends : EndsInTop nesting)
    {last : Nat} (size : nesting.tokens.size = last + 1) :
    innermost nesting last (nesting.enclosing last) = .ok nesting.stack.head? := by
  obtain ⟨opened, direct⟩ := ends last size
  unfold innermost
  cases found : nesting.frameAt last with
  | some frame => simp [opened frame found]
  | none =>
    rw [direct found, topOf]
    cases held : nesting.stack with
    | nil => rfl
    | cons frame below =>
      have member : frame ∈ nesting.stack := by simp [held]
      simp [frameOf_eq (linked.frameAt_of_mem_stack member)]

theorem cursorFrame_eq {nesting : Nesting} (linked : nesting.Linked) (formed : nesting.Formed)
    (ends : EndsInTop nesting) (written : ∀ token ∈ nesting.tokens, token.text ≠ "") :
    cursorFrame nesting = .ok nesting.cursorFrame := by
  have isOpen : nesting.stack.head?.filter (·.isOpen) = nesting.stack.head? := by
    cases held : nesting.stack with
    | nil => rfl
    | cons frame below =>
      have member : frame ∈ nesting.stack := by simp [held]
      simp [Frame.isOpen, (linked.mem_stack.mp member).2]
  unfold cursorFrame
  split
  next empty =>
    have none : nesting.stack = [] := by
      by_contra held
      obtain ⟨frame, member⟩ := List.exists_mem_of_ne_nil _ held
      have bound := linked.lt_size (linked.frameAt_of_mem_stack member)
      omega
    simp [Nesting.cursorFrame, Nesting.trailingLiteral, Array.eq_empty_of_size_eq_zero empty, none]
  next nonempty =>
    obtain ⟨last, size⟩ := Nat.exists_eq_succ_of_ne_zero nonempty
    obtain ⟨token, there, taken⟩ := tokenAt_lt (by omega : last < nesting.tokens.size)
    have back : nesting.tokens.back? = some token := by
      rw [Array.back?, size, Nat.succ_sub_one, there]
    rw [size, Nat.succ_sub_one, taken, ok_bind, enclosing_eq linked (by omega), ok_bind]
    unfold Nesting.cursorFrame Nesting.trailingLiteral
    rw [back]
    split
    next cut =>
      -- A literal opens no frame, so the frame around it is the innermost open one.
      have kind : token.kind ≠ .opener := by
        intro opener
        simp [opener] at cut
      have absent := formed.frameAt_eq_none there kind
      have around := (ends last size).2 absent
      obtain ⟨mark, rest, text⟩ : ∃ mark rest, token.text.toList = mark :: rest := by
        apply List.exists_cons_of_ne_nil
        rw [ne_eq, String.toList_eq_nil_iff]
        exact written token (Array.mem_of_getElem? there)
      simp [literalFrame, text, around, chainOf_topOf_stack linked, cut]
    next uncut =>
      rw [innermost_eq linked ends size]
      simp [uncut, isOpen]

theorem callFrom_eq {nesting : Nesting} {below : List Frame} (frame : Frame)
    (held : ∀ other ∈ below, nesting.frameAt other.opener = some other)
    (stacked : Nesting.Stacked (frame :: below)) :
    callFrom nesting frame =
      .ok (((frame :: below).find? Nesting.isDecisive).filter (·.isCall)) := by
  induction below generalizing frame with
  | nil =>
    have parent : frame.parent = none := by simp [Frame.parent, stacked.1]
    rw [callFrom, parent]
    cases role : frame.role <;> simp [Nesting.isDecisive, Frame.isCall, Option.filter_some, role]
  | cons outer below ih =>
    -- The link leads to the next frame of the stack, and that one was opened earlier.
    have parent : frame.parent = some outer.opener := by simp [Frame.parent, stacked.1]
    have there := held outer List.mem_cons_self
    have lower := stacked.2.1 outer List.mem_cons_self
    have further := ih outer (fun other member => held other (List.mem_cons_of_mem _ member))
      stacked.2.2
    rw [callFrom, parent]
    simp only [frameOf_eq there, ok_bind, lower, dite_true, further, List.find?_cons]
    cases role : frame.role <;> simp [Nesting.isDecisive, Frame.isCall, Option.filter_some, role]

theorem trailingLiteral_spec {nesting : Nesting} {literal : Frame}
    (found : nesting.trailingLiteral = some literal) :
    ∃ token, nesting.tokens.back? = some token ∧ token.kind = .string ∧
      literal.opener = nesting.tokens.size - 1 ∧ literal.role = .literal ∧
      literal.outer = (nesting.stack.head?.map (·.chain)).getD [] := by
  unfold Nesting.trailingLiteral at found
  split at found
  · cases found
  next token last =>
    split at found
    next cut =>
      obtain ⟨mark, -, rfl⟩ := Option.map_eq_some_iff.mp found
      simp only [Bool.and_eq_true, beq_iff_eq] at cut
      exact ⟨token, last, cut.1, rfl, rfl, rfl⟩
    · cases found

/-- The frames from the cursor outwards are the open ones, after the literal the cursor may be in. -/
theorem cursorFrame_stacked {nesting : Nesting} (linked : nesting.Linked) (formed : nesting.Formed)
    {frame : Frame} (found : nesting.cursorFrame = some frame) :
    ∃ below, Nesting.Stacked (frame :: below) ∧ (∀ other ∈ below, other ∈ nesting.stack) ∧
      (frame :: below).find? Nesting.isDecisive = nesting.stack.find? Nesting.isDecisive := by
  unfold Nesting.cursorFrame at found
  cases literal : nesting.trailingLiteral with
  | none =>
    rw [literal] at found
    obtain ⟨below, held⟩ := List.head?_eq_some_iff.mp found
    refine ⟨below, held ▸ linked.stacked, ?_, by rw [held]⟩
    intro other member
    rw [held]
    exact List.mem_cons_of_mem _ member
  | some cut =>
    rw [literal] at found
    cases found
    -- The literal is no frame of the nesting. It goes on top of the stack, after every opener there.
    obtain ⟨token, last, kind, opener, role, outer⟩ := trailingLiteral_spec literal
    rw [Array.back?] at last
    refine ⟨nesting.stack, ?_, fun _ member => member, ?_⟩
    · refine ⟨outer.trans linked.stack_openers, ?_, linked.stacked⟩
      intro other member
      have there := linked.frameAt_of_mem_stack member
      have bound := linked.lt_size there
      have apart : other.opener ≠ nesting.tokens.size - 1 := by
        intro same
        rw [same, formed.frameAt_eq_none last (by simp [kind])] at there
        cases there
      omega
    · simp [Nesting.isDecisive, role]

theorem cursorCall_eq {nesting : Nesting} (linked : nesting.Linked) (formed : nesting.Formed)
    (ends : EndsInTop nesting) (written : ∀ token ∈ nesting.tokens, token.text ≠ "")
    (inComment : Bool) : cursorCall nesting inComment = .ok (nesting.cursorCall inComment) := by
  unfold cursorCall Nesting.cursorCall
  split
  · rfl
  · rw [cursorFrame_eq linked formed ends written, ok_bind]
    cases found : nesting.cursorFrame with
    | none =>
      have empty : nesting.stack = [] := by
        simp [Nesting.cursorFrame] at found
        exact found.2
      simp [empty]
    | some frame =>
      obtain ⟨below, stacked, held, same⟩ := cursorFrame_stacked linked formed found
      rw [← same]
      exact callFrom_eq frame (fun other member => linked.frameAt_of_mem_stack (held other member))
        stacked

end Checked

end CursorContext
