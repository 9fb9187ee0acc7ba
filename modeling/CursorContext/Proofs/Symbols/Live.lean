import CursorContext.Proofs.Symbols.Surroundings

/-!
The ends the pass comes to. A class, function or scope is left where the pass comes to the bracket
that ends it. So nothing that has ended is held for open, provided that the pass never passes over
the end of something that is open then; and an end once passed over is never made good.
-/
namespace CursorContext.Symbols

variable {nesting : Nesting}

/-! ### Coming to a place -/

theorem passUpTo_succ {index : Nat} {here : Token} (placed : nesting.tokens[index]? = some here) :
    passUpTo nesting (index + 1) =
      visit nesting (passUpTo nesting index) (nesting.placeAt index here) := by
  have found : (Place.all nesting.tokens.toList)[index]? = some (nesting.placeAt index here) := by
    simp [Place.all, Place.getElem?_allFrom, placed, Nesting.placeAt]
  rw [passUpTo, List.take_add_one, found, List.foldl_append]
  rfl

theorem symbols_passUpTo_size (nesting : Nesting) :
    (passUpTo nesting nesting.tokens.size).symbols = ofNesting nesting := by
  have length : (Place.all nesting.tokens.toList).length = nesting.tokens.size := by
    simp [Place.all, Place.length_allFrom]
  rw [passUpTo, ← length, List.take_length]
  rfl

/-- Whether the pass comes to the token at `index`, and does not pass over it. -/
def comesTo (nesting : Nesting) (index : Nat) : Bool := (passUpTo nesting index).resume ≤ index

theorem passUpTo_passed {index : Nat} {here : Token} (placed : nesting.tokens[index]? = some here)
    (passed : comesTo nesting index = false) :
    passUpTo nesting (index + 1) = passUpTo nesting index := by
  have ahead : index < (passUpTo nesting index).resume := by simpa [comesTo] using passed
  rw [passUpTo_succ placed]
  exact if_pos ahead

theorem passUpTo_read {index : Nat} {here : Token} (placed : nesting.tokens[index]? = some here)
    (comes : comesTo nesting index = true) :
    passUpTo nesting (index + 1) =
      read nesting (passUpTo nesting index).importing (nesting.placeAt index here)
        (passUpTo nesting index).symbols := by
  have reached : ¬ index < (passUpTo nesting index).resume := by simpa [comesTo] using comes
  rw [passUpTo_succ placed]
  exact if_neg reached

/-- The pass has come to the place where it goes on, and reads it. -/
theorem passUpTo_of_reached {symbols : Symbols} {index : Nat} {importing : Bool} {here : Token}
    (reached : passUpTo nesting index = { symbols, resume := index, importing })
    (placed : nesting.tokens[index]? = some here) :
    passUpTo nesting (index + 1) = read nesting importing (nesting.placeAt index here) symbols := by
  have comes : comesTo nesting index = true := by simp [comesTo, reached]
  rw [passUpTo_read placed comes, reached]

theorem le_resume_passUpTo (linked : nesting.Linked) {index : Nat}
    (inside : index ≤ nesting.tokens.size) : index ≤ (passUpTo nesting index).resume := by
  induction index with
  | zero => exact Nat.zero_le _
  | succ index ih =>
    have placed := Array.getElem?_eq_getElem (show index < nesting.tokens.size by omega)
    cases comes : comesTo nesting index with
    | true =>
      rw [passUpTo_read placed comes]
      exact lt_resume_read linked _ (nesting.placeAt index _) _
    | false =>
      rw [passUpTo_passed placed comes]
      simp only [comesTo, decide_eq_false_iff_not] at comes
      omega

theorem passUpTo_of_comesTo (linked : nesting.Linked) {index : Nat}
    (inside : index ≤ nesting.tokens.size) (comes : comesTo nesting index = true)
    (outside : (passUpTo nesting index).importing = false) :
    passUpTo nesting index =
      { symbols := (passUpTo nesting index).symbols, resume := index } := by
  have resume : (passUpTo nesting index).resume = index :=
    Nat.le_antisymm (of_decide_eq_true comes) (le_resume_passUpTo linked inside)
  cases reached : passUpTo nesting index with
  | mk symbols next importing =>
    rw [reached] at resume outside
    cases resume
    cases outside
    rfl

/-- Until it comes to its next place, the pass stays as it is. -/
theorem passUpTo_between {index later : Nat} (before : index ≤ later)
    (upTo : later ≤ (passUpTo nesting index).resume) (inside : later ≤ nesting.tokens.size) :
    passUpTo nesting later = passUpTo nesting index := by
  induction later, before using Nat.le_induction with
  | base => rfl
  | succ later _ ih =>
    have same := ih (by omega) (by omega)
    have placed := Array.getElem?_eq_getElem (show later < nesting.tokens.size by omega)
    have passed : comesTo nesting later = false := by
      rw [comesTo, same]
      exact decide_eq_false (by omega)
    rw [passUpTo_passed placed passed, same]

theorem anchored_passUpTo (linked : nesting.Linked) (formed : nesting.Formed) {index : Nat}
    (inside : index ≤ nesting.tokens.size) :
    Anchored nesting (passUpTo nesting index).symbols := by
  induction index with
  | zero => exact anchored_empty nesting
  | succ index ih =>
    have placed := Array.getElem?_eq_getElem (show index < nesting.tokens.size by omega)
    have anchored := ih (by omega)
    cases comes : comesTo nesting index with
    | true =>
      rw [passUpTo_read placed comes]
      exact anchored.read linked formed _ index _
    | false =>
      rw [passUpTo_passed placed comes]
      exact anchored

/-! ### Frames that have not ended -/

/-- A frame around a place begins no later than the innermost one. -/
theorem le_enclosing (linked : nesting.Linked) {index f : Nat} {frame : Frame}
    (inside : index < nesting.tokens.size) (found : nesting.frameAt f = some frame)
    (begun : f < index) (unfinished : ∀ close, frame.closer = some close → index < close) :
    ∃ g, nesting.enclosing index = some g ∧ f ≤ g := by
  have surrounds : frame.surrounds index = true :=
    (frame.surrounds_iff index).mpr ⟨by simpa [linked.opener found] using begun, unfinished⟩
  -- The frames around a place are a chain that begins with the innermost.
  have chained := (linked.around inside f).mpr ⟨frame, found, surrounds⟩
  have descending := linked.chainOf_descending index
  cases enclosed : nesting.enclosing index with
  | none => simp [Nesting.chainOf, enclosed] at chained
  | some g =>
    obtain ⟨inner, there⟩ := linked.enclosing_frame enclosed
    refine ⟨g, rfl, ?_⟩
    simp only [Nesting.chainOf, enclosed, Option.bind_some, there, Option.map_some,
      Option.getD_some, Frame.chain, linked.opener there] at chained descending
    rcases List.mem_cons.mp chained with same | outer
    · exact Nat.le_of_eq same
    · exact Nat.le_of_lt ((List.pairwise_cons.mp descending).1 f outer)

/-- None of these frames has ended before `index`, and none lies inside one that follows. -/
structure Live (nesting : Nesting) (index : Nat) (frames : List (Option Nat)) : Prop where
  framed : ∀ f, some f ∈ frames → ∃ frame, nesting.frameAt f = some frame
  begun : ∀ f, some f ∈ frames → f < index
  unfinished : ∀ f, some f ∈ frames → ∀ close, nesting.closeOf f = some close → index ≤ close
  piled : frames.Pairwise fun inner outer =>
    ∀ f, outer = some f → ∃ g, inner = some g ∧ f ≤ g

theorem live_nil (nesting : Nesting) (index : Nat) : Live nesting index [] := by
  constructor <;> simp

namespace Live

variable {index : Nat} {frames : List (Option Nat)}

/-- Of the frames that have not ended, those above one that ends now end now too. -/
theorem ends_above (linked : nesting.Linked) (live : Live nesting index frames) {f g : Nat}
    (inner : some g ∈ frames) (outside : f ≤ g) (closes : nesting.closeOf f = some index) :
    nesting.closeOf g = some index := by
  rcases Nat.eq_or_lt_of_le outside with rfl | after
  · exact closes
  · obtain ⟨frame, found⟩ := live.framed g inner
    obtain ⟨earlier, bound, closes'⟩ := linked.closeOf_inside found after (live.begun g inner) closes
    have least := live.unfinished g inner earlier closes'
    rwa [Nat.le_antisymm bound least] at closes'

/-- Leaving what ends now leaves nothing that has ended. -/
theorem leave {α : Type} (linked : nesting.Linked) {view : α → Option Nat} {items : List α}
    (live : Live nesting index (items.map view)) {p : α → Bool}
    (ends : ∀ item f, view item = some f → nesting.closeOf f = some index → p item = true) :
    Live nesting (index + 1) ((items.dropWhile p).map view) := by
  have kept : ((items.dropWhile p).map view).Sublist (items.map view) :=
    (List.dropWhile_sublist p).map view
  refine ⟨fun f member => live.framed f (kept.subset member),
    fun f member => Nat.lt_succ_of_lt (live.begun f (kept.subset member)), ?_,
    live.piled.sublist kept⟩
  intro f member close closes
  refine Nat.lt_of_le_of_ne (live.unfinished f (kept.subset member) close closes) ?_
  rintro rfl
  -- The first frame that is kept would end now as well, and would have been left.
  have stops := List.head?_dropWhile_not p items
  have piled := live.piled.sublist kept
  cases rest : items.dropWhile p with
  | nil => simp [rest] at member
  | cons top below =>
    rw [rest] at stops member piled kept
    have above : ∃ g, view top = some g ∧ f ≤ g := by
      rcases List.mem_cons.mp member with same | under
      · exact ⟨f, same.symm, Nat.le_refl f⟩
      · exact (List.pairwise_cons.mp piled).1 _ under f rfl
    obtain ⟨g, named, outside⟩ := above
    have held : some g ∈ items.map view := kept.subset (named ▸ List.mem_cons_self)
    have left := ends top g named (live.ends_above linked held outside closes)
    simp [left] at stops

/-- Frames that do not end on the way have not ended later on. -/
theorem later (live : Live nesting index frames) {next : Nat} (forward : index ≤ next)
    (clear : ∀ f, some f ∈ frames → ∀ close, nesting.closeOf f = some close → index ≤ close →
      next ≤ close) : Live nesting next frames where
  framed := live.framed
  begun f member := Nat.lt_of_lt_of_le (live.begun f member) forward
  unfinished f member close closes :=
    clear f member close closes (live.unfinished f member close closes)
  piled := live.piled

/-- A frame that has not ended may be entered if it lies inside all of the others. -/
theorem enter (live : Live nesting index frames) {top : Option Nat}
    (framed : ∀ f, top = some f → ∃ frame, nesting.frameAt f = some frame)
    (begun : ∀ f, top = some f → f < index)
    (unfinished : ∀ f, top = some f → ∀ close, nesting.closeOf f = some close → index ≤ close)
    (innermost : ∀ f, some f ∈ frames → ∃ g, top = some g ∧ f ≤ g) :
    Live nesting index (top :: frames) := by
  refine ⟨?_, ?_, ?_, .cons ?_ live.piled⟩
  · intro f member
    rcases List.mem_cons.mp member with same | under
    · exact framed f same.symm
    · exact live.framed f under
  · intro f member
    rcases List.mem_cons.mp member with same | under
    · exact begun f same.symm
    · exact live.begun f under
  · intro f member
    rcases List.mem_cons.mp member with same | under
    · exact unfinished f same.symm
    · exact live.unfinished f under
  · rintro _ member f rfl
    exact innermost f member

theorem enterBody (linked : nesting.Linked) {start : Nat} (live : Live nesting (start + 1) frames)
    {frame : Frame} (found : nesting.frameAt start = some frame) :
    Live nesting (start + 1) (some start :: frames) := by
  apply live.enter
  · rintro _ ⟨⟩
    exact ⟨frame, found⟩
  · rintro _ ⟨⟩
    exact Nat.lt_succ_self start
  · rintro _ ⟨⟩ close closes
    obtain ⟨frame, there, closed⟩ := Nesting.closer_of_closeOf closes
    exact (linked.bounds there closed).1
  · intro f member
    exact ⟨start, rfl, Nat.le_of_lt_succ (live.begun f member)⟩

/-- The frame around an arrow lies inside all frames that have not ended there. -/
theorem enterArrow (linked : nesting.Linked) {start : Nat} (live : Live nesting (start + 1) frames)
    (inside : start < nesting.tokens.size) (older : ∀ f, some f ∈ frames → f < start) :
    Live nesting (start + 1) (nesting.enclosing start :: frames) := by
  apply live.enter
  · intro f enclosed
    exact linked.enclosing_frame enclosed
  · intro f enclosed
    exact Nat.lt_succ_of_lt (linked.enclosing_lt inside enclosed)
  · intro f enclosed close closes
    obtain ⟨frame, there, surrounds⟩ := linked.surrounds_of_enclosing inside enclosed
    simp only [Nesting.closeOf, there, Option.bind_some] at closes
    exact ((frame.surrounds_iff start).mp surrounds).2 close closes
  · intro f member
    obtain ⟨frame, found⟩ := live.framed f member
    apply le_enclosing linked inside found (older f member)
    intro close closed
    exact live.unfinished f member close (by simp [Nesting.closeOf, found, closed])

end Live

/-! ### Everything that is open -/

structure LiveAround (nesting : Nesting) (index : Nat) (around : Surroundings) : Prop where
  classes : Live nesting index around.classes
  functions : Live nesting index around.functions
  scopes : Live nesting index around.scopes

namespace LiveAround

variable {index : Nat} {around : Surroundings}

theorem unfinished (live : LiveAround nesting index around) (f : Nat) (member : some f ∈ around.all)
    (close : Nat) (closes : nesting.closeOf f = some close) : index ≤ close := by
  rcases Surroundings.mem_all.mp member with held | held | held
  · exact live.classes.unfinished f held close closes
  · exact live.functions.unfinished f held close closes
  · exact live.scopes.unfinished f held close closes

theorem begun (live : LiveAround nesting index around) (f : Nat) (member : some f ∈ around.all) :
    f < index := by
  rcases Surroundings.mem_all.mp member with held | held | held
  · exact live.classes.begun f held
  · exact live.functions.begun f held
  · exact live.scopes.begun f held

theorem later (live : LiveAround nesting index around) {next : Nat} (forward : index ≤ next)
    (clear : ∀ f, some f ∈ around.all → ∀ close, nesting.closeOf f = some close → index ≤ close →
      next ≤ close) : LiveAround nesting next around where
  classes := live.classes.later forward fun f held =>
    clear f (Surroundings.mem_all.mpr (.inl held))
  functions := live.functions.later forward fun f held =>
    clear f (Surroundings.mem_all.mpr (.inr (.inl held)))
  scopes := live.scopes.later forward fun f held =>
    clear f (Surroundings.mem_all.mpr (.inr (.inr held)))

theorem leave (linked : nesting.Linked) {symbols : Symbols}
    (live : LiveAround nesting index symbols.surroundings) (here : Token) :
    LiveAround nesting (index + 1) (symbols.leave nesting index here).surroundings := by
  refine ⟨live.classes.leave linked ?_, live.functions.leave linked ?_,
    live.scopes.leave linked ?_⟩
  · intro place f named closes
    simp [classEnds, named, bodyEnds, closes]
  · rintro function f ⟨⟩ closes
    simp [bodyEnds, closes]
  · intro scope f named closes
    cases extent : scope.extent with
    | body frame =>
      simp only [extent, Extent.frame?, Option.some.injEq] at named
      simp [scopeEnds, extent, bodyEnds, named, closes]
    | arrow container =>
      simp only [extent, Extent.frame?] at named
      simp [scopeEnds, extent, bodyEnds, named, closes]

/-- Reading a place passes over nothing that ends on the way, so nothing has ended after it. -/
theorem reads (linked : nesting.Linked) (live : LiveAround nesting (index + 1) around)
    {importing : Bool} {pass : Pass} (reads : Reads nesting importing index around pass)
    (forward : index < pass.resume)
    (clear : ∀ f, some f ∈ around.all → ∀ close, nesting.closeOf f = some close →
      index + 1 ≤ close → pass.resume ≤ close) :
    LiveAround nesting pass.resume pass.symbols.surroundings := by
  have enters := reads.enters
  have now := live.later forward clear
  generalize pass.resume = resume at enters forward now
  generalize pass.symbols.surroundings = entered at enters
  cases enters with
  | nothing => exact now
  | classBody found => exact ⟨now.classes.enterBody linked found, now.functions, now.scopes⟩
  | function found name =>
    refine ⟨now.classes, ?_, now.scopes.enterBody linked found⟩
    cases name with
    | none => exact now.functions
    | some name => exact now.functions.enterBody linked found
  | arrow after inside =>
    refine ⟨now.classes, now.functions, now.scopes.enterArrow linked inside ?_⟩
    intro f held
    have old := live.scopes.begun f held
    omega

end LiveAround

theorem mem_all_of_enters {index resume : Nat} {around entered : Surroundings}
    (enters : Enters nesting index around resume entered) {frame : Option Nat}
    (member : frame ∈ around.all) : frame ∈ entered.all := by
  rw [Surroundings.mem_all] at member ⊢
  cases enters with
  | nothing => exact member
  | classBody found =>
    rcases member with held | held | held
    · exact .inl (List.mem_cons_of_mem _ held)
    · exact .inr (.inl held)
    · exact .inr (.inr held)
  | function found name =>
    rcases member with held | held | held
    · exact .inl held
    · exact .inr (.inl (List.mem_append_right _ held))
    · exact .inr (.inr (List.mem_cons_of_mem _ held))
  | arrow after inside =>
    rcases member with held | held | held
    · exact .inl held
    · exact .inr (.inl held)
    · exact .inr (.inr (List.mem_cons_of_mem _ held))

/-- Reading the place at `index` passes over the end of nothing that is open afterwards. -/
def ClearAt (nesting : Nesting) (index : Nat) : Prop :=
  ∀ f ≤ index, some f ∈ (passUpTo nesting (index + 1)).symbols.surroundings.all →
    ∀ close, nesting.closeOf f = some close → index < close →
      (passUpTo nesting (index + 1)).resume ≤ close

/-- Nothing that has ended is open at any time, if no place is read past the end of something. -/
theorem liveAround_passUpTo (linked : nesting.Linked) (formed : nesting.Formed)
    (ended : nesting.Ended)
    (clear : ∀ index < nesting.tokens.size, comesTo nesting index = true → ClearAt nesting index)
    {index : Nat} (inside : index ≤ nesting.tokens.size) :
    LiveAround nesting (passUpTo nesting index).resume
      (passUpTo nesting index).symbols.surroundings := by
  induction index with
  | zero => exact ⟨live_nil _ _, live_nil _ _, live_nil _ _⟩
  | succ index ih =>
    have placed := Array.getElem?_eq_getElem (show index < nesting.tokens.size by omega)
    have live := ih (by omega)
    have anchored := anchored_passUpTo linked formed (show index ≤ nesting.tokens.size by omega)
    cases comes : comesTo nesting index with
    | false =>
      rw [passUpTo_passed placed comes]
      exact live
    | true =>
      have reached : (passUpTo nesting index).resume = index :=
        Nat.le_antisymm (of_decide_eq_true comes) (le_resume_passUpTo linked (by omega))
      rw [reached] at live
      have forward : index < (passUpTo nesting (index + 1)).resume :=
        le_resume_passUpTo linked inside
      have read := reads_read linked formed anchored (passUpTo nesting index).importing placed
      rw [← passUpTo_read placed comes] at read
      -- Reading leads on from what is open now, whether or not something has been left here.
      have further {around : Surroundings} (now : LiveAround nesting (index + 1) around)
          (reads : Reads nesting (passUpTo nesting index).importing index around
            (passUpTo nesting (index + 1))) :
          LiveAround nesting (passUpTo nesting (index + 1)).resume
            (passUpTo nesting (index + 1)).symbols.surroundings := by
        refine now.reads linked reads forward ?_
        intro f held close closes after
        exact clear index (by omega) comes f (Nat.le_of_lt_succ (now.begun f held))
          (mem_all_of_enters reads.enters held) close closes after
      rcases read with left | ⟨plain, kept⟩
      · exact further (live.leave linked _) left
      · refine further (live.later (Nat.le_succ index) ?_) kept
        intro f held close closes least
        refine Nat.lt_of_le_of_ne least ?_
        rintro rfl
        -- A token of an import that is not left to the statements ends no frame.
        obtain ⟨frame, there, closed⟩ := Nesting.closer_of_closeOf closes
        obtain ⟨token, bracket, placed', closing⟩ := ended f frame _ there closed
        rw [placed] at placed'
        cases placed'
        simp [plain] at closing

theorem all_open_of_clear (linked : nesting.Linked) (formed : nesting.Formed)
    (ended : nesting.Ended)
    (clear : ∀ index < nesting.tokens.size, comesTo nesting index = true → ClearAt nesting index)
    {f : Nat} (member : some f ∈ (ofNesting nesting).surroundings.all) :
    nesting.closeOf f = none := by
  rw [← symbols_passUpTo_size] at member
  have live := liveAround_passUpTo linked formed ended clear (Nat.le_refl _)
  cases closes : nesting.closeOf f with
  | none => rfl
  | some close =>
    obtain ⟨frame, there, closed⟩ := Nesting.closer_of_closeOf closes
    have bound := (linked.bounds there closed).2
    have least := live.unfinished f member close closes
    have reached := le_resume_passUpTo linked (Nat.le_refl nesting.tokens.size)
    omega

/-! ### What has been passed over stays -/

theorem mem_map_dropWhile {α β : Type} {view : α → β} {items : List α} {p : α → Bool} {b : β}
    (stays : ∀ item, view item = b → p item = false) (held : b ∈ items.map view) :
    b ∈ (items.dropWhile p).map view := by
  obtain ⟨item, among, named⟩ := List.mem_map.mp held
  rw [← List.takeWhile_append_dropWhile (p := p) (l := items)] at among
  rcases List.mem_append.mp among with taken | dropped
  · have satisfied := List.mem_takeWhile_imp taken
    simp [stays item named] at satisfied
  · exact List.mem_map.mpr ⟨item, dropped, named⟩

/-- Leaving keeps every frame that has ended before. -/
theorem mem_all_leave (linked : nesting.Linked) {symbols : Symbols} {index f close : Nat}
    (inside : index < nesting.tokens.size) (closes : nesting.closeOf f = some close)
    (before : close < index) (here : Token) (member : some f ∈ symbols.surroundings.all) :
    some f ∈ (symbols.leave nesting index here).surroundings.all := by
  have unended : bodyEnds nesting index f = false := by
    simp [bodyEnds, closes]
    omega
  have outside : nesting.enclosing index ≠ some f := by
    intro enclosed
    obtain ⟨frame, there, surrounds⟩ := linked.surrounds_of_enclosing inside enclosed
    simp only [Nesting.closeOf, there, Option.bind_some] at closes
    have later := ((frame.surrounds_iff index).mp surrounds).2 close closes
    omega
  rw [Surroundings.mem_all] at member ⊢
  rcases member with held | held | held
  · refine .inl (mem_map_dropWhile ?_ held)
    intro place named
    have body : symbols.classes[place]?.bind (·.body) = some f := named
    simp [classEnds, body, unended]
  · refine .inr (.inl (mem_map_dropWhile ?_ held))
    rintro function ⟨⟩
    exact unended
  · refine .inr (.inr (mem_map_dropWhile ?_ held))
    intro scope named
    cases extent : scope.extent with
    | body frame =>
      simp only [extent, Extent.frame?, Option.some.injEq] at named
      simp [scopeEnds, extent, named, unended]
    | arrow container =>
      -- An arrow's scope is also left at a comma directly in its frame, which has ended already.
      simp only [extent, Extent.frame?] at named
      simp [scopeEnds, extent, named, unended, outside]

/-- The end of something open that is passed over is never made good. -/
theorem mem_all_passUpTo (linked : nesting.Linked) (formed : nesting.Formed) {f close : Nat}
    (closes : nesting.closeOf f = some close) (passed : comesTo nesting close = false)
    (member : some f ∈ (passUpTo nesting close).symbols.surroundings.all) {index : Nat}
    (after : close ≤ index) (inside : index ≤ nesting.tokens.size) :
    some f ∈ (passUpTo nesting index).symbols.surroundings.all := by
  induction index, after using Nat.le_induction with
  | base => exact member
  | succ index after ih =>
    have held := ih (by omega)
    have placed := Array.getElem?_eq_getElem (show index < nesting.tokens.size by omega)
    have anchored := anchored_passUpTo linked formed (show index ≤ nesting.tokens.size by omega)
    cases comes : comesTo nesting index with
    | false =>
      rw [passUpTo_passed placed comes]
      exact held
    | true =>
      have beyond : close < index := by
        refine Nat.lt_of_le_of_ne after ?_
        rintro rfl
        simp [passed] at comes
      have read := reads_read linked formed anchored (passUpTo nesting index).importing placed
      rw [← passUpTo_read placed comes] at read
      rcases read with left | ⟨-, kept⟩
      · exact mem_all_of_enters left.enters
          (mem_all_leave linked (by omega) closes beyond _ held)
      · exact mem_all_of_enters kept.enters held

/-- The pass passes over no bracket that ends something that is open then. -/
def PassesNoEnd (nesting : Nesting) : Prop :=
  ∀ index < nesting.tokens.size, comesTo nesting index = false →
    ∀ f, some f ∈ (passUpTo nesting index).symbols.surroundings.all →
      nesting.closeOf f ≠ some index

theorem clearAt_of_passesNoEnd (linked : nesting.Linked) (none : PassesNoEnd nesting) (index : Nat) :
    ClearAt nesting index := by
  intro f _ member close closes after
  by_contra passed
  obtain ⟨frame, there, closed⟩ := Nesting.closer_of_closeOf closes
  have bound := (linked.bounds there closed).2
  have between : passUpTo nesting close = passUpTo nesting (index + 1) :=
    passUpTo_between after (by omega) (by omega)
  refine none close bound ?_ f ?_ closes
  · rw [comesTo, between]
    exact decide_eq_false passed
  · rw [between]
    exact member

/-- Everything that is reported as open is open exactly if no end is passed over. -/
theorem all_open_iff (linked : nesting.Linked) (formed : nesting.Formed) (ended : nesting.Ended) :
    (∀ f, some f ∈ (ofNesting nesting).surroundings.all → nesting.closeOf f = none) ↔
      PassesNoEnd nesting := by
  constructor
  · intro allOpen index inside passed f member closes
    have held := mem_all_passUpTo linked formed closes passed member (Nat.le_of_lt inside)
      (Nat.le_refl _)
    rw [symbols_passUpTo_size] at held
    simp [allOpen f held] at closes
  · intro none f member
    exact all_open_of_clear linked formed ended
      (fun index _ _ => clearAt_of_passesNoEnd linked none index) member

end CursorContext.Symbols
