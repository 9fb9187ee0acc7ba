import CursorContext.Proofs.Symbols.ScopeStep

/-!
The chain of scopes along a sealed stretch of tokens. What is entered in the stretch lies above what
was there before, and all of it is left again: a body where its bracket closes, and the expression
of an arrow function at a separator next to it or where the frame around it closes.
-/
namespace CursorContext.Symbols

variable {nesting : Nesting} {symbols : Symbols}

/-! ### Stretches without imports -/

theorem importing_enterFunction (place : Place) (header : FunctionHeader) (index : Nat) :
    (enterFunction nesting place symbols header index).importing = false := by
  unfold enterFunction
  dsimp only
  split
  · rfl
  · split
    · rfl
    · split <;> rfl

theorem importing_readFunction (place : Place) :
    (readFunction nesting place symbols).importing = false := by
  obtain ⟨list, -, stops | unfinished | ⟨frame, close, header, -, -, further⟩⟩ :=
    readFunction_cases nesting place symbols
  · rw [stops]
  · rw [unfinished]
  · rw [further]
    unfold readCaptures
    split
    · split
      · rfl
      · split
        · rfl
        · exact importing_enterFunction _ _ _
    · exact importing_enterFunction _ _ _

theorem importing_enterNamespace (place : Place) :
    (enterNamespace place symbols).importing = false := by
  unfold enterNamespace
  split
  · rfl
  · split
    · rfl
    · split <;> rfl

theorem importing_readClass (place : Place) : (readClass place symbols).importing = false := by
  unfold readClass
  split
  · rfl
  · split
    · rfl
    · dsimp only
      split <;> rfl

/-- No import begins in front of a list. -/
theorem apart_of_importing {place : Place}
    (importing : (beginImport nesting place symbols).importing = true) :
    place.nextIs (·.opening? == some .round) = false := by
  unfold beginImport at importing
  split at importing
  · cases importing
  next outside =>
    simp only [Bool.or_eq_true, not_or, Bool.not_eq_true] at outside
    exact outside.1.2

/-- Only the word that begins an import leads into one, and not in front of a list. -/
theorem use_of_importing {place : Place}
    (importing : (readStatement nesting place symbols).importing = true) :
    place.here.isKeyword ["use"] = true ∧ place.nextIs (·.opening? == some .round) = false := by
  unfold readStatement at importing
  dsimp only at importing
  split at importing
  next keyword =>
    unfold readKeyword at importing
    dsimp only at importing
    split at importing
    · rw [importing_enterNamespace] at importing
      cases importing
    · split at importing
      next use =>
        exact ⟨by simpa [Token.isKeyword, keyword] using use, apart_of_importing importing⟩
      · split at importing
        · rw [importing_readClass] at importing
          cases importing
        · split at importing
          · rw [importing_readFunction] at importing
            cases importing
          · cases importing
  · cases importing
  · cases importing
  · cases importing

/-- A sealed stretch in which `use` only stands in front of a list. -/
structure Stretch (nesting : Nesting) (top : Option Nat) (start stop : Nat) : Prop
    extends nesting.Sealed top start stop where
  captures : ∀ k token, start ≤ k → k < stop → nesting.tokens[k]? = some token →
    token.isKeyword ["use"] = true → nesting.tokens[k + 1]?.any (·.opening? == some .round) = true

theorem passUpTo_statement {index : Nat} {here : Token}
    (placed : nesting.tokens[index]? = some here) (comes : comesTo nesting index = true)
    (outside : (passUpTo nesting index).importing = false) :
    passUpTo nesting (index + 1) =
      readStatement nesting (nesting.placeAt index here) (passUpTo nesting index).symbols := by
  rw [passUpTo_read placed comes, outside]
  rfl

namespace Stretch

variable {top : Option Nat} {start stop : Nat}

/-- No import begins in such a stretch. -/
theorem importing (stretch : Stretch nesting top start stop)
    (outside : (passUpTo nesting start).importing = false) {index : Nat} (begun : start ≤ index)
    (upTo : index ≤ stop) : (passUpTo nesting index).importing = false := by
  induction index, begun using Nat.le_induction with
  | base => exact outside
  | succ index begun ih =>
    have within := stretch.within
    have still := ih (by omega)
    have placed := Array.getElem?_eq_getElem (show index < nesting.tokens.size by omega)
    cases comes : comesTo nesting index with
    | false => rw [passUpTo_passed placed comes, still]
    | true =>
      rw [passUpTo_statement placed comes still]
      by_contra imports
      obtain ⟨use, apart⟩ := use_of_importing (Bool.not_eq_false _ ▸ imports)
      have captures := stretch.captures index _ begun (by omega) placed use
      rw [Nesting.nextIs_placeAt, captures] at apart
      cases apart

/-- Reading a place of the stretch does not pass over the end of a frame that has begun before. -/
theorem resume_le_close (linked : nesting.Linked) (formed : nesting.Formed) (ended : nesting.Ended)
    (stretch : Stretch nesting top start stop) {index : Nat} (begun : start ≤ index)
    (inside : index < stop) (comes : comesTo nesting index = true)
    (outside : (passUpTo nesting index).importing = false) {f close : Nat} (older : f ≤ index)
    (closes : nesting.closeOf f = some close) (after : index < close) (upTo : close ≤ stop) :
    (passUpTo nesting (index + 1)).resume ≤ close := by
  have within := stretch.within
  have placed := Array.getElem?_eq_getElem (show index < nesting.tokens.size by omega)
  have anchored := anchored_passUpTo linked formed (show index ≤ nesting.tokens.size by omega)
  have reads : Reads nesting false index _ _ := reads_readStatement linked formed anchored placed
  rw [← passUpTo_statement placed comes outside] at reads
  by_contra beyond
  obtain ⟨outer, there, closed⟩ := Nesting.closer_of_closeOf closes
  obtain ⟨token, bracket, placed', closing⟩ := ended f outer close there closed
  -- The closing bracket would be among what is passed over.
  have skips := reads.passable close after (by omega)
  cases skips with
  | plain plain => simp [(plain token placed').1] at closing
  | renamed during => cases during
  | imported word use apart =>
    have captures := stretch.captures index _ begun inside word use
    rw [captures] at apart
    cases apart
  | @within first inner found begun' inside' ends =>
    -- A list that is passed over ends in the stretch, and with a bracket of its own.
    obtain ⟨earlier, bound, closes'⟩ := linked.closeOf_inside found (by omega) inside' closes
    obtain ⟨frame, found', closed'⟩ := Nesting.closer_of_closeOf closes'
    rw [found] at found'
    cases found'
    have same : earlier = close := Nat.le_antisymm bound (ends earlier closed')
    subst same
    obtain ⟨last, before, closes''⟩ := stretch.closes first inner (by omega) (by omega) found
    rw [closes'] at closes''
    cases closes''
    have equal := stretch.sole f first earlier closes closes' (by omega) before
    omega

/-- Nor does it pass over a variable that stands directly in the frame around the stretch. -/
theorem resume_le_variable (linked : nesting.Linked) (formed : nesting.Formed)
    (ended : nesting.Ended) (stretch : Stretch nesting top start stop)
    (older : ∀ f, top = some f → f < start) {index : Nat} (begun : start ≤ index)
    (comes : comesTo nesting index = true) (outside : (passUpTo nesting index).importing = false)
    {i : Nat} {token : Token} (after : index < i) (inside : i < stop)
    (placed : nesting.tokens[i]? = some token) (named : token.kind = .variable)
    (direct : nesting.enclosing i = top) : (passUpTo nesting (index + 1)).resume ≤ i := by
  have within := stretch.within
  have there := Array.getElem?_eq_getElem (show index < nesting.tokens.size by omega)
  have anchored := anchored_passUpTo linked formed (show index ≤ nesting.tokens.size by omega)
  have reads : Reads nesting false index _ _ := reads_readStatement linked formed anchored there
  rw [← passUpTo_statement there comes outside] at reads
  by_contra beyond
  cases reads.passable i after (by omega) with
  | plain plain => exact (plain token placed).2 named
  | renamed during => cases during
  | imported word use apart =>
    have captures := stretch.captures index _ begun (by omega) word use
    rw [captures] at apart
    cases apart
  | @within first frame found begun' inside' ends =>
    -- The list that is passed over would be around the variable, inside the frame that is.
    have later : ∀ close, frame.closer = some close → i < close := by
      intro close closed
      refine Nat.lt_of_le_of_ne (ends close closed) ?_
      rintro rfl
      obtain ⟨closer, bracket, placed', closing⟩ := ended first frame i found closed
      rw [placed] at placed'
      cases placed'
      simp [Token.closing?, named] at closing
    obtain ⟨g, enclosed, bound⟩ := le_enclosing linked (by omega) found inside' later
    have small := older g (direct ▸ enclosed)
    omega

/-- The pass comes to a place of the stretch that nothing read before passes over. -/
theorem comesTo_of_bound (stretch : Stretch nesting top start stop)
    (outside : (passUpTo nesting start).importing = false) (comes : comesTo nesting start = true)
    {i : Nat} (forward : start ≤ i) (upTo : i ≤ stop)
    (bound : ∀ index, start ≤ index → index < i → comesTo nesting index = true →
      (passUpTo nesting index).importing = false → (passUpTo nesting (index + 1)).resume ≤ i) :
    comesTo nesting i = true := by
  suffices reaches : ∀ index, start ≤ index → index ≤ i →
      (passUpTo nesting index).resume ≤ i from
    decide_eq_true (reaches i forward (Nat.le_refl i))
  intro index begun before
  induction index, begun using Nat.le_induction with
  | base => exact Nat.le_trans (of_decide_eq_true comes) forward
  | succ index begun ih =>
    have within := stretch.within
    have placed := Array.getElem?_eq_getElem (show index < nesting.tokens.size by omega)
    cases comes : comesTo nesting index with
    | false =>
      rw [passUpTo_passed placed comes]
      exact ih (by omega)
    | true =>
      exact bound index begun (by omega) comes (stretch.importing outside begun (by omega))

/-- If a frame from before the stretch closes right behind it, the pass comes to that bracket. -/
theorem comesTo_close (linked : nesting.Linked) (formed : nesting.Formed) (ended : nesting.Ended)
    (stretch : Stretch nesting top start stop)
    (outside : (passUpTo nesting start).importing = false) (comes : comesTo nesting start = true)
    (forward : start ≤ stop) {f : Nat} (older : f < start)
    (closes : nesting.closeOf f = some stop) : comesTo nesting stop = true := by
  apply stretch.comesTo_of_bound outside comes forward (Nat.le_refl stop)
  intro index begun before comes still
  exact stretch.resume_le_close linked formed ended begun before comes still (by omega) closes
    before (Nat.le_refl stop)

/-- The pass comes to every variable that stands directly in the frame around the stretch. -/
theorem comesTo_variable (linked : nesting.Linked) (formed : nesting.Formed)
    (ended : nesting.Ended) (stretch : Stretch nesting top start stop)
    (older : ∀ f, top = some f → f < start)
    (outside : (passUpTo nesting start).importing = false) (comes : comesTo nesting start = true)
    {i : Nat} {token : Token} (forward : start ≤ i) (inside : i < stop)
    (placed : nesting.tokens[i]? = some token) (named : token.kind = .variable)
    (direct : nesting.enclosing i = top) : comesTo nesting i = true := by
  apply stretch.comesTo_of_bound outside comes forward (by omega)
  intro index begun before comes still
  exact stretch.resume_le_variable linked formed ended older begun comes still before inside placed
    named direct

/-- Where `fn` stands deeper than the stretch, so does what the arrow function evaluates. -/
theorem enclosing_arrow (linked : nesting.Linked) (formed : nesting.Formed) (ended : nesting.Ended)
    (stretch : Stretch nesting top start stop) {index : Nat} (begun : start ≤ index)
    (inside : index < stop) (comes : comesTo nesting index = true)
    (outside : (passUpTo nesting index).importing = false) (deep : nesting.enclosing index ≠ top)
    {i : Nat} (after : index < i) (within : i < nesting.tokens.size)
    (resume : (passUpTo nesting (index + 1)).resume = i + 1) :
    ∃ g ≥ start, nesting.enclosing i = some g := by
  rcases stretch.inOrBelow index begun inside with direct | ⟨f, bound, enclosed⟩
  · exact absurd direct deep
  · have upTo := stretch.within
    obtain ⟨frame, found, surrounds⟩ := linked.surrounds_of_enclosing (by omega) enclosed
    obtain ⟨older, unfinished⟩ := (frame.surrounds_iff index).mp surrounds
    rw [linked.opener found] at older
    obtain ⟨close, before, closes⟩ := stretch.closes f frame bound (by omega) found
    have closed : frame.closer = some close := by
      obtain ⟨same, found', closed⟩ := Nesting.closer_of_closeOf closes
      rw [found] at found'
      cases found'
      exact closed
    have limit := stretch.resume_le_close linked formed ended begun inside comes outside
      (by omega) closes (unfinished close closed) (by omega)
    obtain ⟨g, deeper, le⟩ := le_enclosing linked within found (show f < i by omega) (by
      intro other same
      rw [closed] at same
      cases same
      omega)
    exact ⟨g, by omega, deeper⟩

/-- One step: reading a place enters no scope that reaches up to the frame around the stretch, unless
`fn` stands there directly in it. -/
theorem not_mem_scopes_step (linked : nesting.Linked) (formed : nesting.Formed)
    (ended : nesting.Ended) {f : Nat} (stretch : Stretch nesting (some f) start stop)
    (older : f < start) {index : Nat} {here : Token} (begun : start ≤ index) (inside : index < stop)
    (placed : nesting.tokens[index]? = some here) (comes : comesTo nesting index = true)
    (outside : (passUpTo nesting index).importing = false)
    (noArrow : nesting.enclosing index = some f → here.isKeyword ["fn"] = false)
    (clear : some f ∉ (passUpTo nesting index).symbols.surroundings.scopes) :
    some f ∉ (passUpTo nesting (index + 1)).symbols.surroundings.scopes := by
  have rescopes := rescopes_readStatement linked formed (passUpTo nesting index).symbols placed
  rw [← passUpTo_statement placed comes outside] at rescopes
  have left : some f ∉ ((passUpTo nesting index).symbols.leave nesting index
      here).surroundings.scopes := fun member =>
    clear (((List.dropWhile_sublist _).map _).subset member)
  generalize (passUpTo nesting index).symbols.leave nesting index here = symbols at rescopes left
  have entering {scope : Scope}
      (scopes : (passUpTo nesting (index + 1)).symbols.scopes = scope :: symbols.scopes)
      (apart : scope.extent.frame? ≠ some f) :
      some f ∉ (passUpTo nesting (index + 1)).symbols.surroundings.scopes := by
    rw [surroundings, scopes, List.map_cons, List.mem_cons, not_or]
    exact ⟨apart.symm, left⟩
  -- A body begins a frame of its own, which is later. An arrow function reaches up to the frame around
  -- its arrow, which is deeper than the stretch unless the word stands directly in it.
  cases rescopes with
  | binds binds => rwa [binds.rebinds.frames]
  | grows grows =>
    cases grows with
    | same scopes _ =>
      rw [surroundings, scopes]
      exact left
    | @body first _ _ _ _ after _ _ scopes _ =>
      apply entering scopes
      rintro ⟨⟩
      omega
    | @arrow first _ word _ after within resume scopes _ =>
      apply entering scopes
      intro same
      by_cases direct : nesting.enclosing index = some f
      · rw [noArrow direct] at word
        cases word
      · obtain ⟨g, bound, deeper⟩ := stretch.enclosing_arrow linked formed ended begun inside comes
          outside direct after within resume
        cases deeper.symm.trans same
        omega

/-- Without `fn` directly in the frame around the stretch, no scope comes to reach up to it. -/
theorem not_mem_scopes (linked : nesting.Linked) (formed : nesting.Formed) (ended : nesting.Ended)
    {f : Nat} (stretch : Stretch nesting (some f) start stop) (older : f < start)
    (outside : (passUpTo nesting start).importing = false)
    (clear : some f ∉ (passUpTo nesting start).symbols.surroundings.scopes)
    (noArrow : ∀ k token, start ≤ k → k < stop → nesting.enclosing k = some f →
      nesting.tokens[k]? = some token → token.isKeyword ["fn"] = false) {index : Nat}
    (begun : start ≤ index) (upTo : index ≤ stop) :
    some f ∉ (passUpTo nesting index).symbols.surroundings.scopes := by
  induction index, begun using Nat.le_induction with
  | base => exact clear
  | succ index begun ih =>
    have within := stretch.within
    have still := ih (by omega)
    have placed := Array.getElem?_eq_getElem (show index < nesting.tokens.size by omega)
    cases comes : comesTo nesting index with
    | false =>
      rw [passUpTo_passed placed comes]
      exact still
    | true =>
      exact stretch.not_mem_scopes_step linked formed ended older begun (by omega) placed comes
        (stretch.importing outside begun (by omega))
        (fun direct => noArrow index _ begun (by omega) direct placed) still

end Stretch

theorem resume_le_of_comesTo {index later : Nat} (before : index ≤ later)
    (inside : later ≤ nesting.tokens.size) (comes : comesTo nesting later = true) :
    (passUpTo nesting index).resume ≤ later := by
  by_contra beyond
  have same := passUpTo_between before (by omega) inside
  have reached : (passUpTo nesting later).resume ≤ later := of_decide_eq_true comes
  rw [same] at reached
  omega

/-! ### What has been entered -/

/-- In a stretch from `start` on inside the frame `top`, the scopes `fresh` have been entered on top
of those of `base`. The first of them reach as far as `owns`, the later ones through expressions in
`top` or up to frames of the stretch, and none of these frames has ended before `index`. -/
structure Chain (nesting : Nesting) (top : Option Nat) (start : Nat) (owns : List Extent)
    (base : Symbols) (index : Nat) (symbols : Symbols) (fresh : List Scope)
    (extents : List Extent) : Prop where
  file : symbols.file = base.file
  scopes : symbols.scopes = fresh ++ base.scopes
  reach : fresh.map (·.extent) = extents ++ owns
  deeper : ∀ extent ∈ extents, extent = .arrow top ∨ ∃ f ≥ start, extent.frame? = some f
  live : Live nesting index (extents.map Extent.frame?)

/-- Neither a scope that reaches as far as `owns` nor one of `base` ends with the token at `index`,
whatever has been bound in them. -/
def Stay (nesting : Nesting) (owns : List Extent) (base : Symbols) (index : Nat) (here : Token) :
    Prop :=
  ∀ held : List Scope, held.map (·.extent) = owns →
    (held ++ base.scopes).dropWhile (scopeEnds nesting index here) = held ++ base.scopes

theorem stay_of_own {own : Extent} {index : Nat} {here : Token}
    (stays : own.endsAt nesting index here = false) (base : Symbols) :
    Stay nesting [own] base index here := by
  intro held reach
  obtain ⟨scope, rfl, extent⟩ := List.map_eq_singleton_iff.mp reach
  have ends : scopeEnds nesting index here scope = false := by
    rw [scopeEnds_eq, Function.comp_apply, extent, stays]
  simp [ends]

namespace Chain

variable {top : Option Nat} {start index : Nat} {owns : List Extent} {base : Symbols}
  {fresh : List Scope} {extents : List Extent}

theorem ne_nil (chain : Chain nesting top start owns base index symbols fresh extents)
    (some : owns ≠ []) : fresh ≠ [] := by
  rintro rfl
  have reach := chain.reach
  simp [some] at reach

/-- Leaving what ends at a place where nothing older ends. -/
theorem leave (linked : nesting.Linked)
    (chain : Chain nesting top start owns base index symbols fresh extents) {here : Token}
    (stays : Stay nesting owns base index here) :
    ∃ fresh extents, Chain nesting top start owns base (index + 1)
      (symbols.leave nesting index here) fresh extents := by
  let ends := Extent.endsAt nesting index here
  obtain ⟨upper, held, rfl, reach, own⟩ := List.map_eq_append_iff.mp chain.reach
  refine ⟨upper.dropWhile (ends ∘ Scope.extent) ++ held, extents.dropWhile ends, chain.file, ?_,
    ?_, ?_, ?_⟩
  · have left : (symbols.leave nesting index here).scopes =
        symbols.scopes.dropWhile (scopeEnds nesting index here) := rfl
    rw [left, chain.scopes, List.append_assoc, List.dropWhile_append, stays held own,
      ← scopeEnds_eq, List.append_assoc]
    split
    next none => rw [List.isEmpty_iff.mp none, List.nil_append]
    · rfl
  · rw [List.map_append, ← List.dropWhile_map, reach, own]
  · intro extent member
    exact chain.deeper extent ((List.dropWhile_sublist _).subset member)
  · refine chain.live.leave linked ?_
    intro extent f named closes
    exact endsAt_of_closeOf named closes here

/-- The frames have not ended where the pass goes on, if it passes over none of their ends. -/
theorem live_later (chain : Chain nesting top start owns base (index + 1) symbols fresh extents)
    {next : Nat} (forward : index < next)
    (clear : ∀ f ≤ index, ∀ close, nesting.closeOf f = some close → index < close →
      next ≤ close) : Live nesting next (extents.map Extent.frame?) := by
  apply chain.live.later forward
  intro f member close closes after
  exact clear f (Nat.le_of_lt_succ (chain.live.begun f member)) close closes after

/-- Reading on from a place of the stretch where no variable is bound. -/
theorem grow (linked : nesting.Linked) {stop : Nat} (stretch : Stretch nesting top start stop)
    (chain : Chain nesting top start owns base (index + 1) symbols fresh extents) {pass : Pass}
    {here : Token} (grows : Grows nesting index here symbols pass) (begun : start ≤ index)
    (forward : index < pass.resume) (upTo : pass.resume ≤ stop)
    (clear : ∀ f ≤ index, ∀ close, nesting.closeOf f = some close → index < close →
      pass.resume ≤ close) :
    ∃ fresh extents, Chain nesting top start owns base pass.resume pass.symbols fresh extents := by
  have live := chain.live_later forward clear
  cases grows with
  | same scopes file =>
    exact ⟨fresh, extents, file.trans chain.file, scopes.trans chain.scopes, chain.reach,
      chain.deeper, live⟩
  | @body first frame bindings _ _ after found resume scopes file =>
    rw [resume] at live ⊢
    refine ⟨{ bindings, extent := .body first } :: fresh, .body first :: extents,
      file.trans chain.file, ?_, ?_, ?_, live.enterBody linked found⟩
    · rw [scopes, chain.scopes, List.cons_append]
    · rw [List.map_cons, chain.reach, List.cons_append]
    · intro extent member
      rcases List.mem_cons.mp member with rfl | older
      · exact .inr ⟨first, by omega, rfl⟩
      · exact chain.deeper extent older
  | @arrow first bindings _ _ after inside resume scopes file =>
    rw [resume] at live ⊢
    refine ⟨{ bindings, extent := .arrow (nesting.enclosing first) } :: fresh,
      .arrow (nesting.enclosing first) :: extents, file.trans chain.file, ?_, ?_, ?_,
      live.enterArrow linked inside ?_⟩
    · rw [scopes, chain.scopes, List.cons_append]
    · rw [List.map_cons, chain.reach, List.cons_append]
    · intro extent member
      rcases List.mem_cons.mp member with rfl | older
      · rcases stretch.inOrBelow first (by omega) (by omega) with same | ⟨f, bound, deep⟩
        · rw [same]
          exact .inl rfl
        · exact .inr ⟨f, bound, deep⟩
      · exact chain.deeper extent older
    · intro f member
      have old := chain.live.begun f member
      omega

/-- Binding a variable of a scope that has been entered. -/
theorem rebind (chain : Chain nesting top start owns base (index + 1) symbols fresh extents)
    {pass : Pass} (rebinds : Rebinds symbols pass.symbols) (entered : fresh ≠ [])
    (forward : index < pass.resume)
    (clear : ∀ f ≤ index, ∀ close, nesting.closeOf f = some close → index < close →
      pass.resume ≤ close) :
    ∃ fresh extents, Chain nesting top start owns base pass.resume pass.symbols fresh extents := by
  obtain ⟨bound, scopes, reach⟩ := rebinds.append chain.scopes entered
  have inside : symbols.scopes ≠ [] := by simp [chain.scopes, entered]
  exact ⟨bound, extents, (rebinds.file inside).trans chain.file, scopes, reach.trans chain.reach,
    chain.deeper, chain.live_later forward clear⟩

end Chain

/-! ### Through a stretch and out of it -/

/-- At the start of the stretch scopes that reach as far as `owns` have been entered on top of those
of `base`, or if there are none, no variable is bound in the stretch. None of the scopes ends in the
stretch, and the pass comes to the token behind it. -/
structure Entered (nesting : Nesting) (top : Option Nat) (start stop : Nat) (owns : List Extent)
    (base : Symbols) : Prop extends Stretch nesting top start stop where
  forward : start ≤ stop
  outside : (passUpTo nesting start).importing = false
  file : (passUpTo nesting start).symbols.file = base.file
  entered : ∃ held : List Scope, held.map (·.extent) = owns ∧
    (passUpTo nesting start).symbols.scopes = held ++ base.scopes
  comes : comesTo nesting stop = true
  stays : ∀ k here, start ≤ k → k < stop → nesting.tokens[k]? = some here →
    comesTo nesting k = true → Stay nesting owns base k here
  quiet : owns = [] → ∀ k here symbols, start ≤ k → k < stop → nesting.tokens[k]? = some here →
    Grows nesting k here (leave symbols nesting k here)
      (readStatement nesting (nesting.placeAt k here) symbols)

namespace Entered

variable {top : Option Nat} {start stop : Nat} {owns : List Extent} {base : Symbols}

/-- Through the whole stretch the chain lies above that of `base`. -/
theorem chain (linked : nesting.Linked) (formed : nesting.Formed) (ended : nesting.Ended)
    (entered : Entered nesting top start stop owns base) {index : Nat} (begun : start ≤ index)
    (upTo : index ≤ stop) :
    ∃ fresh extents, Chain nesting top start owns base (passUpTo nesting index).resume
      (passUpTo nesting index).symbols fresh extents := by
  have within := entered.within
  induction index, begun using Nat.le_induction with
  | base =>
    obtain ⟨held, reach, scopes⟩ := entered.entered
    exact ⟨held, [], entered.file, scopes, reach, by simp, live_nil _ _⟩
  | succ index begun ih =>
    obtain ⟨fresh, extents, chain⟩ := ih (by omega)
    have placed := Array.getElem?_eq_getElem (show index < nesting.tokens.size by omega)
    cases here : comesTo nesting index with
    | false =>
      rw [passUpTo_passed placed here]
      exact ⟨fresh, extents, chain⟩
    | true =>
      have still := entered.importing entered.outside begun (by omega)
      have reached : (passUpTo nesting index).resume = index :=
        Nat.le_antisymm (of_decide_eq_true here) (le_resume_passUpTo linked (by omega))
      rw [reached] at chain
      -- First what ends here is left, then the statement is read.
      obtain ⟨fresh', extents', left⟩ :=
        chain.leave linked (entered.stays index _ begun (by omega) placed here)
      have rescopes := rescopes_readStatement linked formed (passUpTo nesting index).symbols placed
      rw [← passUpTo_statement placed here still] at rescopes
      have forward : index < (passUpTo nesting (index + 1)).resume :=
        le_resume_passUpTo linked (by omega)
      have bound : (passUpTo nesting (index + 1)).resume ≤ stop :=
        resume_le_of_comesTo upTo within entered.comes
      have clear : ∀ f ≤ index, ∀ close, nesting.closeOf f = some close → index < close →
          (passUpTo nesting (index + 1)).resume ≤ close := by
        intro f older close closes after
        by_cases inside : close ≤ stop
        · exact entered.resume_le_close linked formed ended begun (by omega) here still older
            closes after inside
        · omega
      cases rescopes with
      | grows grows => exact left.grow linked entered.toStretch grows begun forward bound clear
      | binds binds =>
        by_cases none : owns = []
        · have grows := entered.quiet none index _ (passUpTo nesting index).symbols begun
            (by omega) placed
          rw [← passUpTo_statement placed here still] at grows
          exact left.grow linked entered.toStretch grows begun forward bound clear
        · exact left.rebind binds.rebinds (left.ne_nil none) forward clear

/-- Behind the stretch only expressions in the frame around it have not ended yet. -/
theorem extents_at_stop (entered : Entered nesting top start stop owns base)
    {fresh : List Scope} {extents : List Extent}
    (chain : Chain nesting top start owns base stop symbols fresh extents) :
    ∀ extent ∈ extents, extent = .arrow top := by
  intro extent member
  rcases chain.deeper extent member with same | ⟨f, bound, named⟩
  · exact same
  · -- A frame of the stretch has ended in it.
    have held : some f ∈ extents.map Extent.frame? := List.mem_map.mpr ⟨extent, member, named⟩
    obtain ⟨frame, found⟩ := chain.live.framed f held
    obtain ⟨close, before, closes⟩ := entered.closes f frame bound (chain.live.begun f held) found
    have least := chain.live.unfinished f held close closes
    omega

/-- If the token behind the stretch ends the scopes, it leaves what was there before them. -/
theorem left (linked : nesting.Linked) (formed : nesting.Formed) (ended : nesting.Ended)
    (entered : Entered nesting top start stop owns base) {last : Token}
    (placed : nesting.tokens[stop]? = some last)
    (idle : last.kind = .operator ∨ last.kind = .closer)
    (ends : ∀ own ∈ owns, own.endsAt nesting stop last = true)
    (arrows : (Extent.arrow top).endsAt nesting stop last = true) :
    (∃ inner, (passUpTo nesting stop).symbols.scopes = inner ++ base.scopes) ∧
      (passUpTo nesting (stop + 1)).symbols.scopes =
        base.scopes.dropWhile (scopeEnds nesting stop last) ∧
      (passUpTo nesting (stop + 1)).symbols.file = base.file := by
  obtain ⟨fresh, extents, chain⟩ := entered.chain linked formed ended entered.forward le_rfl
  have reached : (passUpTo nesting stop).resume = stop :=
    Nat.le_antisymm (of_decide_eq_true entered.comes) (le_resume_passUpTo linked entered.within)
  rw [reached] at chain
  have leaves : (passUpTo nesting (stop + 1)).symbols =
      (passUpTo nesting stop).symbols.leave nesting stop last := by
    rw [passUpTo_statement placed entered.comes
      (entered.importing entered.outside entered.forward le_rfl)]
    rcases idle with kind | kind <;> simp [readStatement, kind]
  refine ⟨⟨fresh, chain.scopes⟩, ?_, ?_⟩
  · have all_end : ∀ scope ∈ fresh, scopeEnds nesting stop last scope = true := by
      intro scope member
      have among : scope.extent ∈ extents ++ owns := by
        rw [← chain.reach]
        exact List.mem_map_of_mem member
      rw [scopeEnds_eq]
      rcases List.mem_append.mp among with deeper | first
      · rw [Function.comp_apply, entered.extents_at_stop chain _ deeper]
        exact arrows
      · exact ends _ first
    rw [leaves]
    change (passUpTo nesting stop).symbols.scopes.dropWhile _ = _
    rw [chain.scopes, List.dropWhile_append_of_pos all_end]
  · rw [leaves]
    exact chain.file

end Entered

end CursorContext.Symbols
