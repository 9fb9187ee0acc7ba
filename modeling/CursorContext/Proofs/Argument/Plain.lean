import CursorContext.Proofs.Argument.Listed

/-!
The place of the cursor, found plainly. Each array is divided by itself, each entry is searched token
by token for its arrow, and an array that is the value of the last entry is found by the frame that
begins there. The analysis that groups the separators of all frames at once, and goes inwards along
the open frames, gives the same.
-/
namespace CursorContext

namespace Nesting

variable {nesting : Nesting}

/-! ### Plain reading -/

/-- The first double arrow of a piece that stands directly in `array`. -/
def arrowIn? (nesting : Nesting) (array : Frame) (piece : Piece) : Option Nat :=
  (List.range' piece.start (piece.stop - piece.start)).find? fun index =>
    nesting.operatorAt "=>" index && nesting.enclosing index == some array.opener

/-- The key of an entry of `array`; of an entry without one, its value. -/
def plainKey? (nesting : Nesting) (array : Frame) (entry : Piece) : Option String :=
  nesting.literal? { entry with stop := (nesting.arrowIn? array entry).getD entry.stop }

/-- The entries of an array up to the cursor. -/
def entriesOf (nesting : Nesting) (array : Frame) : Pieces := nesting.split array nesting.tokens.size

/-- The keys of the entries that are complete. -/
def keysOf (nesting : Nesting) (array : Frame) : List String :=
  (nesting.entriesOf array).completed.filterMap (nesting.plainKey? array)

/-- The array that takes the place of `array`: a literal that begins right behind the arrow of the last
entry and is still open. -/
def nestedArray? (nesting : Nesting) (array : Frame) : Option Frame :=
  (nesting.arrowIn? array (nesting.entriesOf array).last).bind fun arrow =>
    nesting.openArray? { (nesting.entriesOf array).last with start := arrow + 1 }

/-- The place of the cursor in an array whose place no other one takes. -/
def slotIn (nesting : Nesting) (index : Nat) (array : Frame) : Slot :=
  let last := (nesting.entriesOf array).last
  let keys := nesting.keysOf array
  match nesting.arrowIn? array last with
  | none =>
    { index
      isArray := true
      isKey := last.start == last.stop || (nesting.literal? last).isSome
      keys }
  | some arrow => { index, isArray := true, key := nesting.literal? { last with stop := arrow }, keys }

theorem mem_of_arrowIn? {array : Frame} {piece : Piece} {arrow : Nat}
    (found : nesting.arrowIn? array piece = some arrow) :
    (piece.start ≤ arrow ∧ arrow < piece.stop) ∧ nesting.operatorAt "=>" arrow = true ∧
      nesting.enclosing arrow = some array.opener := by
  obtain ⟨holds, member, -⟩ := List.find?_range'_eq_some.mp found
  rw [List.mem_range'_1] at member
  obtain ⟨operator, direct⟩ := Bool.and_eq_true_iff.mp holds
  exact ⟨by omega, operator, by simpa using direct⟩

theorem opener_lt_last (nesting : Nesting) (array : Frame) :
    array.opener < (nesting.entriesOf array).last.start := by
  rcases Pieces.last_start (array.opener + 1) nesting.tokens.size
    (nesting.directCommas array nesting.tokens.size) with first | ⟨comma, member, later⟩
  · rw [entriesOf, split, first]
    exact Nat.lt_succ_self _
  · have bound := List.mem_range'_1.mp (List.mem_of_mem_filter member)
    rw [entriesOf, split, later]
    omega

theorem last_stop_entriesOf (nesting : Nesting) (array : Frame) :
    (nesting.entriesOf array).last.stop = nesting.tokens.size :=
  Pieces.last_stop _ _ _

theorem Linked.openArray?_spec (linked : Linked nesting) {piece : Piece} {frame : Frame}
    (found : nesting.openArray? piece = some frame) :
    piece.start ≤ frame.opener ∧ frame.role = .array ∧ frame ∈ nesting.stack := by
  unfold openArray? at found
  dsimp only at found
  split at found
  · obtain ⟨there, holds⟩ := Option.filter_eq_some_iff.mp found
    obtain ⟨role, isOpen⟩ := Bool.and_eq_true_iff.mp holds
    have opener := linked.opener there
    refine ⟨?_, by simpa using role, linked.mem_stack.mpr ⟨opener ▸ there, ?_⟩⟩
    · split at opener <;> omega
    · simpa [Frame.isOpen] using isOpen
  · cases found

/-- The array that takes the place of another one is opened later, so going inwards ends. -/
theorem Linked.opener_lt_nested (linked : Linked nesting) {array nested : Frame}
    (found : nesting.nestedArray? array = some nested) :
    array.opener < nested.opener ∧ nested.opener < nesting.tokens.size := by
  obtain ⟨arrow, first, inner⟩ := Option.bind_eq_some_iff.mp found
  have begins := opener_lt_last nesting array
  obtain ⟨⟨inside, -⟩, -⟩ := mem_of_arrowIn? first
  obtain ⟨later, -, held⟩ := linked.openArray?_spec inner
  dsimp only at later
  exact ⟨by omega, linked.lt_size (linked.frameAt_of_mem_stack held)⟩

/-- The place of the cursor in an array, or in the innermost of those that take its place. -/
def Linked.plainSlot (linked : Linked nesting) (index : Nat) (array : Frame) : Slot :=
  match _found : nesting.nestedArray? array with
  | none => nesting.slotIn index array
  | some nested => linked.plainSlot index nested
termination_by nesting.tokens.size - array.opener
decreasing_by
  have inwards := linked.opener_lt_nested _found
  omega

/-- The arguments in a frame, which is taken to reach up to the cursor. -/
def Linked.plainArguments (linked : Linked nesting) (frame : Frame) : Arguments :=
  let pieces := nesting.split frame nesting.tokens.size
  let earlier := pieces.completed.map fun piece => Token.argumentText (nesting.tokensOf piece)
  { earlier
    slot :=
      match nesting.openArray? pieces.last with
      | none => { index := earlier.length }
      | some array => linked.plainSlot earlier.length array }

theorem Linked.plainSlot_here (linked : Linked nesting) (index : Nat) {array : Frame}
    (last : nesting.nestedArray? array = none) :
    linked.plainSlot index array = nesting.slotIn index array := by
  rw [plainSlot]
  split
  · rfl
  next found => simp [last] at found

theorem Linked.plainSlot_nested (linked : Linked nesting) (index : Nat) {array nested : Frame}
    (inwards : nesting.nestedArray? array = some nested) :
    linked.plainSlot index array = linked.plainSlot index nested := by
  rw [plainSlot]
  split
  next found => simp [inwards] at found
  next found =>
    rw [inwards] at found
    cases found
    rfl

/-! ### The separators of one frame among those of all frames -/

/-- What stands directly in a frame comes after its opening bracket, so it does not matter how far
before that the search for it begins. -/
theorem Linked.filter_direct (linked : Linked nesting) {start opener : Nat} (first : start ≤ opener + 1)
    (p : Nat → Bool) :
    (List.range' start (nesting.tokens.size - start)).filter
        (fun index => p index && nesting.enclosing index == some opener) =
      (List.range' 0 nesting.tokens.size).filter
        (fun index => p index && nesting.enclosing index == some opener) := by
  have none {count : Nat} (early : count ≤ start) (inside : count ≤ nesting.tokens.size) :
      (List.range' 0 count).filter
        (fun index => p index && nesting.enclosing index == some opener) = [] := by
    rw [List.filter_eq_nil_iff]
    intro index member holds
    rw [List.mem_range'_1] at member
    have direct : nesting.enclosing index = some opener := by
      simpa using (Bool.and_eq_true_iff.mp holds).2
    have later := linked.enclosing_lt (by omega) direct
    omega
  by_cases within : start ≤ nesting.tokens.size
  · have split : List.range' 0 nesting.tokens.size =
        List.range' 0 start ++ List.range' start (nesting.tokens.size - start) := by
      have whole := List.range'_append_1 (s := 0) (m := start) (n := nesting.tokens.size - start)
      rw [Nat.zero_add, Nat.add_sub_cancel' within] at whole
      exact whole.symm
    rw [split, List.filter_append, none (Nat.le_refl _) within, List.nil_append]
  · rw [none (by omega) (Nat.le_refl _), Nat.sub_eq_zero_of_le (by omega)]
    rfl

/-- The commas of a frame in the group that belongs to it. -/
theorem Linked.commas_own (linked : Linked nesting) {start : Nat} {frame : Frame}
    (first : start ≤ frame.opener + 1) :
    ((nesting.separators start).getD frame.opener []).filter (nesting.operatorAt ",") =
      nesting.directCommas frame nesting.tokens.size := by
  rw [commas_separators, directCommas, commasIn, linked.filter_direct first,
    linked.filter_direct (Nat.le_refl _)]

/-- The arrows of a frame in the group that belongs to it. -/
theorem Linked.arrows_own (linked : Linked nesting) {start : Nat} {frame : Frame}
    (first : start ≤ frame.opener + 1) :
    ((nesting.separators start).getD frame.opener []).filter (nesting.operatorAt "=>") =
      (List.range' 0 nesting.tokens.size).filter fun index =>
        nesting.operatorAt "=>" index && nesting.enclosing index == some frame.opener := by
  rw [separators, getD_groupIndexes, List.filter_filter, ← linked.filter_direct first]
  apply List.filter_congr
  intro index _
  cases nesting.operatorAt "=>" index <;> simp

/-- The first of all indexes with a property that lies in an interval is the first in the interval. -/
theorem find?_interval (p : Nat → Bool) {start stop size : Nat} (inside : stop ≤ size) :
    (((List.range' 0 size).filter p).find? (start ≤ ·)).filter (· < stop) =
      (List.range' start (stop - start)).find? p := by
  rw [List.find?_filter]
  apply Option.ext
  intro index
  rw [Option.filter_eq_some_iff, List.find?_range'_eq_some, List.find?_range'_eq_some,
    List.mem_range'_1, List.mem_range'_1]
  simp only [decide_eq_true_eq, Bool.not_eq_true', decide_eq_false_iff_not, not_and, not_le]
  constructor
  · rintro ⟨⟨⟨holds, later⟩, -, before⟩, within⟩
    refine ⟨holds, by omega, ?_⟩
    intro other begun earlier
    by_contra also
    have early := before other (Nat.zero_le _) earlier (by simpa using also)
    omega
  · rintro ⟨holds, member, before⟩
    refine ⟨⟨⟨holds, by omega⟩, by omega, ?_⟩, by omega⟩
    intro other _ earlier also
    by_contra begun
    rw [before other (by omega) earlier] at also
    cases also

/-- Among the arrows of a frame, the first one of a piece is that found in the piece itself. -/
theorem Linked.firstArrow?_own (linked : Linked nesting) {start : Nat} {array : Frame}
    (first : start ≤ array.opener + 1) (piece : Piece) (inside : piece.stop ≤ nesting.tokens.size) :
    firstArrow? (((nesting.separators start).getD array.opener []).filter (nesting.operatorAt "=>"))
      piece = nesting.arrowIn? array piece := by
  rw [linked.arrows_own first]
  exact find?_interval _ inside

/-! ### Slots -/

/-- What the separators of all frames say about one array is what is read from the array alone. -/
theorem Linked.arrayParts_own (linked : Linked nesting) {start : Nat} {array : Frame}
    (first : start ≤ array.opener + 1) :
    (nesting.arrayParts (nesting.separators start) array).entries = nesting.entriesOf array ∧
      (nesting.arrayParts (nesting.separators start) array).keys = nesting.keysOf array := by
  have entries : (nesting.arrayParts (nesting.separators start) array).entries =
      nesting.entriesOf array := by
    unfold arrayParts
    dsimp only
    rw [linked.commas_own first]
    rfl
  refine ⟨entries, ?_⟩
  unfold arrayParts at entries ⊢
  dsimp only at entries ⊢
  rw [entries]
  apply List.filterMap_congr
  intro entry member
  have comma := Pieces.stop_mem_of_completed _ _ _ entry member
  have bound := List.mem_range'_1.mp (List.mem_of_mem_filter comma)
  rw [entryKey?, linked.firstArrow?_own first entry (by omega)]
  rfl

/-- One array of the analysis over all separators: the slot is in it, or the next open frame inwards
takes its place. -/
theorem Linked.arraySlot_own (linked : Linked nesting) {start : Nat} {array : Frame}
    (first : start ≤ array.opener + 1) (index : Nat) (inner : List Frame) :
    nesting.arraySlot (nesting.separators start) index array inner =
      ((nesting.arrowIn? array (nesting.entriesOf array).last).bind fun arrow =>
        inner.head?.filter
          (nesting.beginsWithArray { (nesting.entriesOf array).last with start := arrow + 1 })).elim
        (nesting.slotIn index array)
        (fun nested => nesting.arraySlot (nesting.separators start) index nested inner.tail) := by
  obtain ⟨entries, keys⟩ := linked.arrayParts_own first
  have found : firstArrow? (nesting.arrayParts (nesting.separators start) array).arrows
      (nesting.entriesOf array).last = nesting.arrowIn? array (nesting.entriesOf array).last :=
    linked.firstArrow?_own first _ (Nat.le_of_eq (last_stop_entriesOf nesting array))
  rw [arraySlot_eq_parts]
  unfold slotIn ArrayParts.keySlot ArrayParts.valueSlot ArrayParts.keyPiece ArrayParts.valuePiece
  dsimp only
  rw [entries, keys, found]
  cases nesting.arrowIn? array (nesting.entriesOf array).last with
  | none => rfl
  | some arrow =>
    cases inner with
    | nil => rfl
    | cons nested deeper =>
      cases begins : nesting.beginsWithArray
          { (nesting.entriesOf array).last with start := arrow + 1 } nested with
      | false => simp [begins, Option.filter_some]
      | true => simp [begins, Option.filter_some]

/-- The array that takes the place of another one is the next open frame inwards. -/
theorem nestedArray?_eq (linked : Linked nesting) (formed : Formed nesting) (array : Frame) :
    nesting.nestedArray? array =
      (nesting.arrowIn? array (nesting.entriesOf array).last).bind fun arrow =>
        (nesting.openInside array).head?.filter
          (nesting.beginsWithArray { (nesting.entriesOf array).last with start := arrow + 1 }) := by
  unfold nestedArray?
  cases found : nesting.arrowIn? array (nesting.entriesOf array).last with
  | none => rfl
  | some arrow =>
    obtain ⟨⟨later, inside⟩, operator, direct⟩ := mem_of_arrowIn? found
    rw [last_stop_entriesOf] at inside
    obtain ⟨token, there, kind⟩ := kind_of_operatorAt operator
    have begins := opener_lt_last nesting array
    have clear := (clearUpTo_direct linked inside direct).next linked formed there (by simp [kind])
    exact openArray?_eq linked formed (by dsimp only; omega) clear

/-- Inside the next open frame inwards are the other ones. -/
theorem openInside_of_cons (linked : Linked nesting) {frame array : Frame} {inner : List Frame}
    (inside : nesting.openInside frame = array :: inner) : nesting.openInside array = inner := by
  have upper : nesting.stack.takeWhile (frame.opener < ·.opener) = inner.reverse ++ [array] := by
    rw [← List.reverse_cons, ← inside, openInside, List.reverse_reverse]
  have stack : nesting.stack =
      inner.reverse ++ array :: nesting.stack.dropWhile (frame.opener < ·.opener) := by
    rw [List.append_cons, ← upper, List.takeWhile_append_dropWhile]
  rw [openInside_of_stack linked stack, List.reverse_reverse]

theorem arraySlot_eq_plain (linked : Linked nesting) (formed : Formed nesting) {start : Nat}
    (index : Nat) {array : Frame} {inner : List Frame} (first : start ≤ array.opener + 1)
    (inside : nesting.openInside array = inner) :
    nesting.arraySlot (nesting.separators start) index array inner = linked.plainSlot index array := by
  have next := nestedArray?_eq linked formed array
  rw [inside] at next
  -- On the open frames inside the array: the one that may take its place is the first of them.
  induction inner generalizing array with
  | nil =>
    have last : nesting.nestedArray? array = none := by simp [next]
    rw [linked.arraySlot_own first, ← next, last, linked.plainSlot_here index last]
    rfl
  | cons nested deeper ih =>
    rw [linked.arraySlot_own first, ← next]
    cases found : nesting.nestedArray? array with
    | none =>
      rw [linked.plainSlot_here index found]
      rfl
    | some other =>
      have same : other = nested := by
        rw [found, eq_comm, Option.bind_eq_some_iff] at next
        obtain ⟨arrow, -, kept⟩ := next
        exact (Option.some.inj (Option.filter_eq_some_iff.mp kept).1).symm
      subst other
      have inwards := linked.opener_lt_nested found
      have deeper_inside := openInside_of_cons linked inside
      have later := nestedArray?_eq linked formed nested
      rw [deeper_inside] at later
      rw [linked.plainSlot_nested index found]
      exact ih (by omega) deeper_inside later

/-! ### Arguments -/

/-- The separators of a frame are clear of open frames. -/
theorem clearUpTo_split (linked : Linked nesting) (formed : Formed nesting) (frame : Frame) :
    ClearUpTo nesting frame (nesting.entriesOf frame).last.start := by
  have own : ∀ comma ∈ nesting.directCommas frame nesting.tokens.size,
      comma ∈ (nesting.separators (frame.opener + 1)).getD frame.opener [] := by
    intro comma member
    rw [← linked.commas_own (Nat.le_refl _)] at member
    exact List.mem_of_mem_filter member
  exact (clearUpTo_last linked formed (frame.opener + 1) own).2

theorem arguments_eq_plain (linked : Linked nesting) (formed : Formed nesting) (frame : Frame) :
    nesting.arguments frame = linked.plainArguments frame := by
  have begins := openArray?_eq linked formed (opener_lt_last nesting frame)
    (clearUpTo_split linked formed frame)
  have pieces : Pieces.ofCommas (frame.opener + 1) nesting.tokens.size
      (((nesting.separators (frame.opener + 1)).getD frame.opener []).filter
        (nesting.operatorAt ",")) = nesting.entriesOf frame := by
    rw [linked.commas_own (Nat.le_refl _)]
    rfl
  unfold arguments Linked.plainArguments
  dsimp only
  rw [pieces, ← entriesOf, begins]
  cases inside : nesting.openInside frame with
  | nil => rfl
  | cons array inner =>
    have inwards := ((mem_openInside linked frame array).mp (inside ▸ List.mem_cons_self)).2
    have same (index : Nat) := arraySlot_eq_plain linked formed index
      (by omega : frame.opener + 1 ≤ array.opener + 1) (openInside_of_cons linked inside)
    dsimp only
    cases begins : nesting.beginsWithArray (nesting.entriesOf frame).last array with
    | false => simp [begins, Option.filter_some]
    | true => simp [begins, Option.filter_some, same]

/-! ### Searching by halving -/

/-- Where `start` belongs among ascending indexes, by halving the part from `low` up to `high`. -/
def bisect (indexes : List Nat) (start low high : Nat) : Nat :=
  if low < high then
    if indexes[(low + high) / 2]?.any (· < start) then
      bisect indexes start ((low + high) / 2 + 1) high
    else bisect indexes start low ((low + high) / 2)
  else low
termination_by high - low
decreasing_by all_goals omega

/-- All indexes before the place are smaller, and none from there on is. -/
theorem bisect_spec {indexes : List Nat} (ascending : indexes.Pairwise (· < ·)) (start low high : Nat)
    (inside : high ≤ indexes.length)
    (below : ∀ i x, i < low → indexes[i]? = some x → x < start)
    (above : ∀ i x, high ≤ i → indexes[i]? = some x → start ≤ x) :
    (∀ i x, i < bisect indexes start low high → indexes[i]? = some x → x < start) ∧
      ∀ i x, bisect indexes start low high ≤ i → indexes[i]? = some x → start ≤ x := by
  have grows {i j x y : Nat} (later : i ≤ j) (here : indexes[i]? = some x)
      (there : indexes[j]? = some y) : x ≤ y := by
    obtain ⟨first, rfl⟩ := List.getElem?_eq_some_iff.mp here
    obtain ⟨second, rfl⟩ := List.getElem?_eq_some_iff.mp there
    rcases Nat.lt_or_eq_of_le later with before | rfl
    · exact Nat.le_of_lt (List.pairwise_iff_getElem.mp ascending i j first second before)
    · exact Nat.le_refl _
  fun_induction bisect indexes start low high with
  | case1 low high wide small ih =>
    obtain ⟨middle, there, smaller⟩ := (Option.any_eq_true _ _).mp small
    refine ih inside ?_ above
    intro i x before here
    have bound := grows (Nat.le_of_lt_succ before) here there
    exact Nat.lt_of_le_of_lt bound (by simpa using smaller)
  | case2 low high wide large ih =>
    refine ih (by omega) below ?_
    intro i x later here
    have within : (low + high) / 2 < indexes.length := by omega
    rw [List.getElem?_eq_getElem within, Option.any_some] at large
    have bound := grows later (List.getElem?_eq_getElem within) here
    exact Nat.le_trans (by simpa using large) bound
  | case3 low high empty =>
    refine ⟨below, ?_⟩
    intro i x later here
    exact above i x (by omega) here

/-- Halving finds the first index that is not smaller, as reading the indexes one by one does. -/
theorem getElem?_bisect {indexes : List Nat} (ascending : indexes.Pairwise (· < ·)) (start : Nat) :
    indexes[bisect indexes start 0 indexes.length]? = indexes.find? (start ≤ ·) := by
  have beyond (i x : Nat) (after : indexes.length ≤ i) (there : indexes[i]? = some x) : start ≤ x := by
    simp [after] at there
  obtain ⟨below, above⟩ := bisect_spec ascending start 0 indexes.length (Nat.le_refl _) (by simp) beyond
  generalize bisect indexes start 0 indexes.length = place at below above
  cases there : indexes[place]? with
  | some x =>
    obtain ⟨inside, rfl⟩ := List.getElem?_eq_some_iff.mp there
    rw [eq_comm, List.find?_eq_some_iff_getElem]
    refine ⟨by simpa using above place _ (Nat.le_refl _) there, place, inside, rfl, ?_⟩
    intro i before
    have smaller := below i _ before (List.getElem?_eq_getElem (by omega))
    simpa using smaller
  | none =>
    rw [eq_comm, List.find?_eq_none]
    intro x member
    obtain ⟨i, inside, rfl⟩ := List.mem_iff_getElem.mp member
    have smaller := below i _ (by simp at there; omega) (List.getElem?_eq_getElem inside)
    simpa using smaller

/-- For any tokens and any frame, the arguments that are found with the separators of all frames at
once are those found plainly. Plain reading goes from an array only to one that is opened later, so
it ends however deep the arrays are. The arrows of a frame ascend, so halving finds the one that is
first in a piece. -/
theorem arguments_read_plainly (tokens : List Token) (frame : Frame) :
    (ofTokens tokens).arguments frame = (linked_ofTokens tokens).plainArguments frame ∧
    (∀ array nested, (ofTokens tokens).nestedArray? array = some nested →
      array.opener < nested.opener ∧ nested.opener < tokens.length) ∧
    ∀ start group piece,
      let arrows := (((ofTokens tokens).separators start).getD group []).filter
        ((ofTokens tokens).operatorAt "=>")
      arrows[bisect arrows piece.start 0 arrows.length]?.filter (· < piece.stop) =
        firstArrow? arrows piece := by
  refine ⟨arguments_eq_plain (linked_ofTokens tokens) (formed_ofTokens tokens) frame, ?_, ?_⟩
  · intro array nested found
    have inwards := (linked_ofTokens tokens).opener_lt_nested found
    rwa [tokens_ofTokens, List.size_toArray] at inwards
  · intro start group piece arrows
    have ascending : arrows.Pairwise (· < ·) := by
      refine List.Pairwise.filter _ ?_
      rw [separators, getD_groupIndexes]
      exact List.Pairwise.filter _ (List.pairwise_lt_range' ..)
    rw [getElem?_bisect ascending]
    rfl

end Nesting

end CursorContext
