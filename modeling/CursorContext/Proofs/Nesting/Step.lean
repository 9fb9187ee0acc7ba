import CursorContext.Nesting
import Mathlib.Data.List.TakeWhile

/-!
What one more token does to a nesting. It opens a frame, it closes the innermost frame of its kind
together with all frames inside that one, or it changes no frame. The invariants of a nesting are
proved by these three cases and do not look into `push` again.
-/
namespace CursorContext

/-- The frame once the token at `index` has closed it. -/
def Frame.closedBy (index : Nat) (frame : Frame) : Frame := { frame with closer := some index }

namespace Nesting

/-- The nesting after a token that closes `matching` and the frames `inner` inside it, and leaves the
frames `below` open. -/
def shut (nesting : Nesting) (token : Token) (inner : List Frame) (matching : Frame)
    (below : List Frame) : Nesting :=
  let index := nesting.tokens.size
  let sites := (inner ++ [matching]).foldl
    (fun sites frame => sites.modify frame.opener (·.closeAt index)) nesting.sites
  { tokens := nesting.tokens.push token
    sites := sites.push { enclosing := topOf below, closes := some matching.opener }
    stack := below }

/-- Everything that adding `token` can lead to. -/
inductive Step (nesting : Nesting) (token : Token) : Nesting → Prop
  | enter (bracket : Bracket) (opens : token.opening? = some bracket) :
      Step nesting token (nesting.enter bracket token)
  | shut (bracket : Bracket) (inner : List Frame) (matching : Frame) (below : List Frame)
      (opens : token.opening? = none) (closes : token.closing? = some bracket)
      (split : nesting.stack = inner ++ matching :: below)
      (others : ∀ frame ∈ inner, frame.mark ≠ bracket.opening)
      (same : matching.mark = bracket.opening) :
      Step nesting token (nesting.shut token inner matching below)
  | pass (opens : token.opening? = none)
      (unmatched : ∀ bracket, token.closing? = some bracket →
        ∀ frame ∈ nesting.stack, frame.mark ≠ bracket.opening) :
      Step nesting token (nesting.pass token)

theorem isOther_iff (bracket : Bracket) (frame : Frame) :
    isOther bracket frame = true ↔ frame.mark ≠ bracket.opening := by
  simp [isOther]

theorem push_step (nesting : Nesting) (token : Token) : Step nesting token (nesting.push token) := by
  unfold push
  split
  next bracket opens => exact .enter bracket opens
  next bracket opens closes =>
    unfold leave
    split
    next unmatched =>
      refine .pass opens ?_
      intro other found frame member
      have same : bracket = other := Option.some.inj (closes.symm.trans found)
      subst other
      have skipped := List.dropWhile_eq_nil_iff.mp unmatched frame member
      exact (isOther_iff bracket frame).mp skipped
    next matching below found =>
      have split : nesting.stack =
          nesting.stack.takeWhile (isOther bracket) ++ matching :: below := by
        rw [← found, List.takeWhile_append_dropWhile]
      refine .shut bracket _ matching below opens closes split ?_ ?_
      · intro frame member
        exact (isOther_iff bracket frame).mp (List.mem_takeWhile_imp member)
      · have stops := List.head?_dropWhile_not (isOther bracket) nesting.stack
        rw [found] at stops
        simpa [isOther] using stops
  next opens closes => exact .pass opens (by simp [closes])

/-! ### Frames after a step -/

@[simp] private theorem closeAt_closeAt (index : Nat) (site : Site) :
    (site.closeAt index).closeAt index = site.closeAt index := by
  cases opened : site.opens <;> simp [Site.closeAt, opened]

private theorem getElem?_closed (closed : List Frame) (index : Nat) (sites : Array Site) (i : Nat) :
    (closed.foldl (fun sites frame => sites.modify frame.opener (·.closeAt index)) sites)[i]? =
      if i ∈ closed.map (·.opener) then sites[i]?.map (·.closeAt index) else sites[i]? := by
  induction closed generalizing sites with
  | nil => simp
  | cons frame rest ih =>
    rw [List.foldl_cons, ih, Array.getElem?_modify]
    -- A site that several frames name is closed as if by one of them.
    by_cases here : frame.opener = i
    · by_cases later : i ∈ rest.map (·.opener)
      · cases sites[i]? <;> simp [here, later]
      · simp [here, later]
    · have apart : ¬ i = frame.opener := fun equal => here equal.symm
      simp [here, apart]

theorem frameAt_enter (nesting : Nesting) (bracket : Bracket) (token : Token) (i : Nat)
    (size : nesting.sites.size = nesting.tokens.size) :
    (nesting.enter bracket token).frameAt i =
      if i = nesting.tokens.size then some (nesting.newFrame bracket token)
      else nesting.frameAt i := by
  simp only [frameAt, enter, Array.getElem?_push, size]
  split <;> simp

theorem frameAt_pass (nesting : Nesting) (token : Token) (i : Nat) :
    (nesting.pass token).frameAt i = nesting.frameAt i := by
  simp only [frameAt, pass, Array.getElem?_push]
  split
  next last => simp [last]
  · rfl

theorem frameAt_shut (nesting : Nesting) (token : Token) (inner : List Frame) (matching : Frame)
    (below : List Frame) (i : Nat) :
    (nesting.shut token inner matching below).frameAt i =
      if i ∈ (inner ++ [matching]).map (·.opener) then
        (nesting.frameAt i).map (·.closedBy nesting.tokens.size)
      else nesting.frameAt i := by
  simp only [frameAt, shut, Array.getElem?_push, getElem?_closed]
  split
  next last =>
    have none_there : nesting.frameAt i = none := by
      rw [size_closed] at last
      simp [frameAt, last]
    rw [frameAt] at none_there
    simp [none_there]
  · split
    · cases nesting.sites[i]? <;> simp [Site.closeAt, Frame.closedBy]
    · rfl

/-! ### The frame around each token after a step -/

theorem enclosing_enter (nesting : Nesting) (bracket : Bracket) (token : Token) (i : Nat)
    (size : nesting.sites.size = nesting.tokens.size) :
    (nesting.enter bracket token).enclosing i =
      if i = nesting.tokens.size then topOf nesting.stack else nesting.enclosing i := by
  simp only [enclosing, enter, Array.getElem?_push, size]
  split <;> simp

theorem enclosing_pass (nesting : Nesting) (token : Token) (i : Nat)
    (size : nesting.sites.size = nesting.tokens.size) :
    (nesting.pass token).enclosing i =
      if i = nesting.tokens.size then topOf nesting.stack else nesting.enclosing i := by
  simp only [enclosing, pass, Array.getElem?_push, size]
  split <;> simp

theorem enclosing_shut (nesting : Nesting) (token : Token) (inner : List Frame) (matching : Frame)
    (below : List Frame) (i : Nat) (size : nesting.sites.size = nesting.tokens.size) :
    (nesting.shut token inner matching below).enclosing i =
      if i = nesting.tokens.size then topOf below else nesting.enclosing i := by
  simp only [enclosing, shut, Array.getElem?_push, size_closed, size, getElem?_closed]
  split
  · simp
  · split
    · cases nesting.sites[i]? <;> simp [Site.closeAt]
    · rfl

/-- The opener of the frame that the token at an index matches as its closing bracket. -/
def closedAt (nesting : Nesting) (index : Nat) : Option Nat := nesting.sites[index]?.bind (·.closes)

theorem closedAt_enter (nesting : Nesting) (bracket : Bracket) (token : Token) (i : Nat) :
    (nesting.enter bracket token).closedAt i = nesting.closedAt i := by
  simp only [closedAt, enter, Array.getElem?_push]
  split
  next last => simp [last]
  · rfl

theorem closedAt_pass (nesting : Nesting) (token : Token) (i : Nat) :
    (nesting.pass token).closedAt i = nesting.closedAt i := by
  simp only [closedAt, pass, Array.getElem?_push]
  split
  next last => simp [last]
  · rfl

theorem closedAt_shut (nesting : Nesting) (token : Token) (inner : List Frame) (matching : Frame)
    (below : List Frame) (i : Nat) (size : nesting.sites.size = nesting.tokens.size) :
    (nesting.shut token inner matching below).closedAt i =
      if i = nesting.tokens.size then some matching.opener else nesting.closedAt i := by
  simp only [closedAt, shut, Array.getElem?_push, size_closed, size, getElem?_closed]
  split
  · simp
  · split
    · cases nesting.sites[i]? <;> simp [Site.closeAt]
    · rfl

end Nesting

end CursorContext
