import CursorContext.Proofs.Nesting.Origin

/-!
Nestings that look alike. A view of frames forgets something about them, such as their role, and
keeps how they nest. Adding tokens with the same brackets to nestings that look alike gives nestings
that look alike, if the frames opened do.
-/
namespace CursorContext

namespace Frame

/-- A view of frames that keeps how they nest. -/
structure IsView (view : Frame → Frame) : Prop where
  mark (frame : Frame) : (view frame).mark = frame.mark
  chain (frame : Frame) : (view frame).chain = frame.chain
  closer (frame : Frame) : (view frame).closer = frame.closer
  closedBy (index : Nat) (frame : Frame) : view (frame.closedBy index) = (view frame).closedBy index

theorem IsView.opener {view : Frame → Frame} (isView : IsView view) (frame : Frame) :
    (view frame).opener = frame.opener :=
  (List.cons.inj (isView.chain frame)).1

/-- A frame without what the tokens in front of it and its place in the source say about it. -/
def bare (frame : Frame) : Frame := { frame with offset := 0, role := .group }

theorem mark_of_bare {frame twin : Frame} (same : frame.bare = twin.bare) :
    frame.mark = twin.mark := by
  have equal := congrArg mark same
  exact equal

theorem opener_of_bare {frame twin : Frame} (same : frame.bare = twin.bare) :
    frame.opener = twin.opener := by
  have equal := congrArg opener same
  exact equal

theorem closer_of_bare {frame twin : Frame} (same : frame.bare = twin.bare) :
    frame.closer = twin.closer := by
  have equal := congrArg closer same
  exact equal

theorem isView_bare : IsView bare := ⟨fun _ => rfl, fun _ => rfl, fun _ => rfl, fun _ _ => rfl⟩

end Frame

/-- The brackets that a token opens and closes. -/
def Token.brackets (token : Token) : Option Bracket × Option Bracket :=
  (token.opening?, token.closing?)

/-- A site with its frame seen through `view`. -/
def Site.seen (view : Frame → Frame) (site : Site) : Site :=
  { site with opens := site.opens.map view }

namespace Nesting

/-- Two nestings that cannot be told apart by frames seen through `view`. -/
structure Alike (view : Frame → Frame) (nesting other : Nesting) : Prop where
  size : nesting.tokens.size = other.tokens.size
  sites : nesting.sites.map (Site.seen view) = other.sites.map (Site.seen view)
  stack : nesting.stack.map view = other.stack.map view

variable {view : Frame → Frame} {nesting other : Nesting}

theorem topOf_map (isView : Frame.IsView view) (stack : List Frame) :
    topOf (stack.map view) = topOf stack := by
  cases stack <;> simp [topOf, isView.opener]

theorem isOther_comp_view (isView : Frame.IsView view) (bracket : Bracket) :
    isOther bracket ∘ view = isOther bracket := by
  funext frame
  simp [isOther, isView.mark]

theorem map_takeWhile_isOther (isView : Frame.IsView view) (bracket : Bracket)
    (stack : List Frame) :
    (stack.takeWhile (isOther bracket)).map view = (stack.map view).takeWhile (isOther bracket) := by
  rw [List.takeWhile_map, isOther_comp_view isView]

theorem map_dropWhile_isOther (isView : Frame.IsView view) (bracket : Bracket)
    (stack : List Frame) :
    (stack.dropWhile (isOther bracket)).map view = (stack.map view).dropWhile (isOther bracket) := by
  rw [List.dropWhile_map, isOther_comp_view isView]

theorem seen_closeAt (isView : Frame.IsView view) (index : Nat) (site : Site) :
    (site.closeAt index).seen view = (site.seen view).closeAt index := by
  have same : ∀ frame, view { frame with closer := some index } =
      { view frame with closer := some index } := isView.closedBy index
  cases opened : site.opens <;> simp [Site.closeAt, Site.seen, opened, same]

theorem map_seen_closed (isView : Frame.IsView view) (closed : List Frame) (index : Nat)
    (sites : Array Site) :
    (closed.foldl (fun sites frame => sites.modify frame.opener (·.closeAt index)) sites).map
        (Site.seen view) =
      (closed.map view).foldl (fun sites frame => sites.modify frame.opener (·.closeAt index))
        (sites.map (Site.seen view)) := by
  induction closed generalizing sites with
  | nil => rfl
  | cons frame rest ih =>
    have first : (sites.modify frame.opener (·.closeAt index)).map (Site.seen view) =
        (sites.map (Site.seen view)).modify (view frame).opener (·.closeAt index) := by
      apply Array.ext_getElem?
      intro i
      simp only [Array.getElem?_map, Array.getElem?_modify, isView.opener]
      split
      · cases sites[i]? <;> simp [seen_closeAt isView]
      · rfl
    simp only [List.foldl_cons, List.map_cons, ih, first]

namespace Alike

theorem symm (alike : Alike view nesting other) : Alike view other nesting :=
  ⟨alike.size.symm, alike.sites.symm, alike.stack.symm⟩

theorem topOf (alike : Alike view nesting other) (isView : Frame.IsView view) :
    Nesting.topOf nesting.stack = Nesting.topOf other.stack := by
  rw [← topOf_map isView, alike.stack, topOf_map isView]

theorem chain (alike : Alike view nesting other) (isView : Frame.IsView view) :
    nesting.stack.head?.map (·.chain) = other.stack.head?.map (·.chain) := by
  have same := congrArg (fun stack => stack.head?.map Frame.chain) alike.stack
  simpa [List.head?_map, Option.map_map, Function.comp_def, isView.chain] using same

theorem pass (alike : Alike view nesting other) (isView : Frame.IsView view) (token twin : Token) :
    Alike view (nesting.pass token) (other.pass twin) := by
  refine ⟨by simp [Nesting.pass, alike.size], ?_, alike.stack⟩
  simp [Nesting.pass, alike.sites, alike.topOf isView]

theorem enter (alike : Alike view nesting other) (isView : Frame.IsView view) {bracket : Bracket}
    {token twin : Token}
    (fresh : view (nesting.newFrame bracket token) = view (other.newFrame bracket twin)) :
    Alike view (nesting.enter bracket token) (other.enter bracket twin) := by
  refine ⟨by simp [Nesting.enter, alike.size], ?_, ?_⟩
  · simp [Nesting.enter, alike.sites, alike.topOf isView, Site.seen, fresh]
  · simp [Nesting.enter, alike.stack, fresh]

theorem leave (alike : Alike view nesting other) (isView : Frame.IsView view) (bracket : Bracket)
    (token twin : Token) : Alike view (nesting.leave bracket token) (other.leave bracket twin) := by
  have inner := map_takeWhile_isOther isView bracket nesting.stack
  have rest := map_dropWhile_isOther isView bracket nesting.stack
  rw [alike.stack, ← map_takeWhile_isOther isView] at inner
  rw [alike.stack, ← map_dropWhile_isOther isView] at rest
  cases found : nesting.stack.dropWhile (isOther bracket) with
  | nil =>
    rw [found, List.map_nil] at rest
    have none := List.map_eq_nil_iff.mp rest.symm
    simp only [Nesting.leave, found, none]
    exact alike.pass isView token twin
  | cons matching below =>
    -- The frame that is shut has a twin on the other stack, with as many frames below it.
    rw [found, List.map_cons] at rest
    obtain ⟨twinMatching, twinBelow, found', matched, left⟩ := List.map_eq_cons_iff.mp rest.symm
    have closed : (nesting.stack.takeWhile (isOther bracket) ++ [matching]).map view =
        (other.stack.takeWhile (isOther bracket) ++ [twinMatching]).map view := by
      simp [inner, matched]
    have opener : matching.opener = twinMatching.opener := by
      rw [← isView.opener matching, ← matched, isView.opener]
    have top : Nesting.topOf below = Nesting.topOf twinBelow := by
      rw [← topOf_map isView, ← left, topOf_map isView]
    simp only [Nesting.leave, found, found']
    refine ⟨by simp [alike.size], ?_, left.symm⟩
    simp only [Array.map_push, map_seen_closed isView, closed, alike.sites, alike.size, opener, top]

/-- Adding a token with the same bracket to nestings that look alike. -/
theorem push (alike : Alike view nesting other) (isView : Frame.IsView view) {token twin : Token}
    (opens : token.opening? = twin.opening?) (closes : token.closing? = twin.closing?)
    (fresh : ∀ bracket, token.opening? = some bracket →
      view (nesting.newFrame bracket token) = view (other.newFrame bracket twin)) :
    Alike view (nesting.push token) (other.push twin) := by
  cases opened : token.opening? with
  | some bracket =>
    rw [opened] at opens
    simp only [Nesting.push, opened, ← opens]
    exact alike.enter isView (fresh bracket opened)
  | none =>
    rw [opened] at opens
    cases closed : token.closing? with
    | some bracket =>
      rw [closed] at closes
      simp only [Nesting.push, opened, closed, ← opens, ← closes]
      exact alike.leave isView bracket token twin
    | none =>
      rw [closed] at closes
      simp only [Nesting.push, opened, closed, ← opens, ← closes]
      exact alike.pass isView token twin

/-! ### What looks alike -/

theorem site (alike : Alike view nesting other) (index : Nat) :
    nesting.sites[index]?.map (Site.seen view) = other.sites[index]?.map (Site.seen view) := by
  rw [← Array.getElem?_map, alike.sites, Array.getElem?_map]

theorem enclosing (alike : Alike view nesting other) (index : Nat) :
    nesting.enclosing index = other.enclosing index := by
  have same := congrArg (Option.bind · (·.enclosing)) (alike.site index)
  simpa [Nesting.enclosing, Option.bind_map, Function.comp_def, Site.seen] using same

theorem frameAt (alike : Alike view nesting other) (index : Nat) :
    (nesting.frameAt index).map view = (other.frameAt index).map view := by
  have same := congrArg (Option.bind · (·.opens)) (alike.site index)
  simpa [Nesting.frameAt, Option.bind_map, Option.map_bind, Function.comp_def, Site.seen] using same

theorem closeOf (alike : Alike view nesting other) (isView : Frame.IsView view) (index : Nat) :
    nesting.closeOf index = other.closeOf index := by
  have same := congrArg (Option.bind · (·.closer)) (alike.frameAt index)
  simpa [Nesting.closeOf, Option.bind_map, Function.comp_def, isView.closer] using same

theorem frames (alike : Alike view nesting other) :
    nesting.frames.map view = other.frames.map view := by
  have seen (nesting : Nesting) : nesting.frames.map view =
      (nesting.sites.map (Site.seen view)).toList.filterMap (·.opens) := by
    rw [Nesting.frames, List.map_filterMap, Array.toList_map, List.filterMap_map]
    rfl
  rw [seen, seen, alike.sites]

end Alike

/-! ### Tokens with the same brackets -/

theorem bare_newFrame (alike : Alike Frame.bare nesting other) (bracket : Bracket)
    (token twin : Token) :
    (nesting.newFrame bracket token).bare = (other.newFrame bracket twin).bare := by
  simp [Nesting.newFrame, Frame.bare, alike.size, alike.chain Frame.isView_bare]

/-- How frames nest depends on the brackets alone. -/
theorem alike_ofTokens {tokens others : List Token}
    (same : tokens.map Token.brackets = others.map Token.brackets) :
    Alike Frame.bare (ofTokens tokens) (ofTokens others) := by
  suffices kept : ∀ nesting other : Nesting, Alike Frame.bare nesting other →
      Alike Frame.bare (tokens.foldl Nesting.push nesting) (others.foldl Nesting.push other) from
    kept {} {} ⟨rfl, rfl, rfl⟩
  induction tokens generalizing others with
  | nil =>
    have none : others = [] := List.map_eq_nil_iff.mp same.symm
    subst none
    exact fun _ _ alike => alike
  | cons token rest ih =>
    obtain ⟨twin, twins, rfl, first, later⟩ := List.map_eq_cons_iff.mp same.symm
    intro nesting other alike
    have opens : token.opening? = twin.opening? := (congrArg Prod.fst first).symm
    have closes : token.closing? = twin.closing? := (congrArg Prod.snd first).symm
    exact ih later.symm _ _
      (alike.push Frame.isView_bare opens closes fun bracket _ =>
        bare_newFrame alike bracket token twin)

end Nesting

end CursorContext
