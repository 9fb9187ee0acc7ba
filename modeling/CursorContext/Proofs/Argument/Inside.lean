import CursorContext.Argument.Slot
import CursorContext.Proofs.Nesting.Extent
import CursorContext.Proofs.Nesting.Origin

/-!
What stands directly inside an open frame. Its separators are those tokens that the frame encloses
without another in between, so nothing that is still open lies before them, and an array that begins
right after one is the next open frame inwards.
-/
namespace CursorContext

/-- A group holds the indexes of its key, in their order. -/
theorem getD_groupIndexes (key : Nat → Option Nat) (indexes : List Nat) (group : Nat) :
    (groupIndexes key indexes).getD group [] = indexes.filter (key · == some group) := by
  induction indexes with
  | nil => rfl
  | cons index rest ih =>
    cases found : key index with
    | none =>
      have same : groupIndexes key (index :: rest) = groupIndexes key rest := by
        simp [groupIndexes, found]
      simp [same, found, ih]
    | some own =>
      have added : groupIndexes key (index :: rest) =
          (groupIndexes key rest).insert own (index :: (groupIndexes key rest).getD own []) := by
        simp [groupIndexes, found]
      rw [added, Std.TreeMap.getD_insert]
      by_cases same : own = group
      · subst own
        simp [found, ih]
      · simp [found, ih, same]

namespace Pieces

theorem last_stop (start stop : Nat) (commas : List Nat) :
    (ofCommas start stop commas).last.stop = stop := by
  induction commas generalizing start with
  | nil => rfl
  | cons comma rest ih => exact ih (comma + 1)

theorem last_start (start stop : Nat) (commas : List Nat) :
    (ofCommas start stop commas).last.start = start ∨
      ∃ comma ∈ commas, (ofCommas start stop commas).last.start = comma + 1 := by
  induction commas generalizing start with
  | nil => exact .inl rfl
  | cons comma rest ih =>
    right
    rcases ih (comma + 1) with first | ⟨later, member, found⟩
    · exact ⟨comma, List.mem_cons_self, first⟩
    · exact ⟨later, List.mem_cons_of_mem _ member, found⟩

theorem stop_mem_of_completed (start stop : Nat) (commas : List Nat) (piece : Piece)
    (member : piece ∈ (ofCommas start stop commas).completed) : piece.stop ∈ commas := by
  induction commas generalizing start with
  | nil => simp [ofCommas] at member
  | cons comma rest ih =>
    rcases List.mem_cons.mp member with rfl | later
    · exact List.mem_cons_self
    · exact List.mem_cons_of_mem _ (ih (comma + 1) later)

end Pieces

namespace Nesting

variable {nesting : Nesting}

theorem mem_separators (start group index : Nat) :
    index ∈ (nesting.separators start).getD group [] ↔
      (start ≤ index ∧ index < nesting.tokens.size) ∧
        (nesting.operatorAt "," index = true ∨ nesting.operatorAt "=>" index = true) ∧
        nesting.enclosing index = some group := by
  rw [separators, getD_groupIndexes, List.mem_filter, List.mem_range'_1]
  constructor
  · rintro ⟨range, direct⟩
    split at direct
    next operator =>
      refine ⟨⟨range.1, by omega⟩, by simpa using operator, by simpa using direct⟩
    · simp at direct
  · rintro ⟨range, operator, direct⟩
    refine ⟨⟨range.1, by omega⟩, ?_⟩
    rw [if_pos (by simpa using operator), direct]
    simp

/-- No frame that is still open begins inside `frame` before the token at `start`. -/
def ClearUpTo (nesting : Nesting) (frame : Frame) (start : Nat) : Prop :=
  ∀ other ∈ nesting.stack, frame.opener < other.opener → start ≤ other.opener

theorem clearUpTo_first (nesting : Nesting) (frame : Frame) :
    ClearUpTo nesting frame (frame.opener + 1) := fun _ _ inside => inside

/-- A token that is no opening bracket begins no frame. -/
theorem ClearUpTo.next {frame : Frame} {index : Nat} {token : Token}
    (clear : ClearUpTo nesting frame index) (linked : Linked nesting) (formed : Formed nesting)
    (there : nesting.tokens[index]? = some token) (kind : token.kind ≠ .opener) :
    ClearUpTo nesting frame (index + 1) := by
  intro other held inside
  have later := clear other held inside
  have apart : other.opener ≠ index := by
    intro same
    obtain ⟨opener, bracket, found, opens, -⟩ := formed.frame (linked.frameAt_of_mem_stack held)
    rw [same, there] at found
    cases found
    simp [Token.opening?, kind] at opens
  omega

/-- What stands directly in a frame is inside no open frame that begins in it. -/
theorem clearUpTo_direct (linked : Linked nesting) {frame : Frame} {index : Nat}
    (inside : index < nesting.tokens.size)
    (direct : nesting.enclosing index = some frame.opener) : ClearUpTo nesting frame index := by
  intro other among deeper
  by_contra before
  obtain ⟨there, isOpen⟩ := linked.mem_stack.mp among
  obtain ⟨around, found⟩ := linked.enclosing_frame direct
  have surrounds : other.surrounds index = true :=
    (other.surrounds_iff index).mpr ⟨by omega, by simp [isOpen]⟩
  have chained := (linked.around inside other.opener).mpr ⟨other, there, surrounds⟩
  have chain : nesting.chainOf (nesting.enclosing index) = around.chain := by
    simp [chainOf, direct, found]
  have named := linked.opener found
  rw [chain] at chained
  rcases List.mem_cons.mp chained with same | outer
  · omega
  · have lower := linked.outer_lt found outer
    omega

theorem kind_of_operatorAt {operator : String} {index : Nat}
    (holds : nesting.operatorAt operator index = true) :
    ∃ token, nesting.tokens[index]? = some token ∧ token.kind = .operator := by
  obtain ⟨token, there, isOperator⟩ := (Option.any_eq_true _ _).mp holds
  simp only [Token.isOperator, Bool.and_eq_true, beq_iff_eq] at isOperator
  exact ⟨token, there, isOperator.1⟩

theorem clearUpTo_separator (linked : Linked nesting) (formed : Formed nesting) {frame : Frame}
    {start index : Nat}
    (member : index ∈ (nesting.separators start).getD frame.opener []) :
    frame.opener < index ∧ ClearUpTo nesting frame (index + 1) := by
  obtain ⟨⟨-, inside⟩, operator, direct⟩ := (mem_separators start frame.opener index).mp member
  obtain ⟨token, there, kind⟩ : ∃ token, nesting.tokens[index]? = some token ∧
      token.kind = .operator := operator.elim kind_of_operatorAt kind_of_operatorAt
  refine ⟨linked.enclosing_lt inside direct, ?_⟩
  exact (clearUpTo_direct linked inside direct).next linked formed there (by simp [kind])

/-- No open frame begins in the contents of a frame before the piece in which the cursor is. -/
theorem clearUpTo_last (linked : Linked nesting) (formed : Formed nesting) {frame : Frame}
    (start : Nat) {commas : List Nat}
    (own : ∀ comma ∈ commas, comma ∈ (nesting.separators start).getD frame.opener []) :
    let last := (Pieces.ofCommas (frame.opener + 1) nesting.tokens.size commas).last
    frame.opener < last.start ∧ ClearUpTo nesting frame last.start := by
  dsimp only
  rcases Pieces.last_start (frame.opener + 1) nesting.tokens.size commas with
    first | ⟨comma, member, later⟩
  · rw [first]
    exact ⟨Nat.lt_succ_self _, clearUpTo_first nesting frame⟩
  · obtain ⟨after, clear⟩ := clearUpTo_separator linked formed (own comma member)
    rw [later]
    exact ⟨Nat.lt_succ_of_lt after, clear⟩

/-! ### The next open frame inwards -/

theorem openInside_of_stack (linked : Linked nesting) {frame : Frame} {upper below : List Frame}
    (stack : nesting.stack = upper ++ frame :: below) :
    nesting.openInside frame = upper.reverse := by
  have stacked := linked.stacked
  rw [stack] at stacked
  have taken : (upper ++ frame :: below).takeWhile (frame.opener < ·.opener) = upper := by
    rw [List.takeWhile_append_of_pos]
    · simp
    · intro other member
      simpa using stacked.below_lt other member frame List.mem_cons_self
  rw [openInside, stack, taken]

theorem mem_openInside (linked : Linked nesting) (frame other : Frame) :
    other ∈ nesting.openInside frame ↔ other ∈ nesting.stack ∧ frame.opener < other.opener := by
  rw [openInside, List.mem_reverse]
  constructor
  · intro member
    exact ⟨(List.takeWhile_sublist _).mem member, by simpa using List.mem_takeWhile_imp member⟩
  · rintro ⟨held, inside⟩
    -- Below the first frame that is not inside, all frames are opened still earlier.
    rw [← List.takeWhile_append_dropWhile (p := fun other : Frame => frame.opener < other.opener)
      (l := nesting.stack), List.mem_append] at held
    refine held.resolve_right fun dropped => ?_
    have stacked := linked.stacked
    rw [← List.takeWhile_append_dropWhile (p := fun other : Frame => frame.opener < other.opener)
      (l := nesting.stack)] at stacked
    have stops := List.head?_dropWhile_not (fun other : Frame => frame.opener < other.opener)
      nesting.stack
    generalize nesting.stack.dropWhile _ = rest at dropped stops stacked
    cases rest with
    | nil => cases dropped
    | cons first rest =>
      have outside : first.opener ≤ frame.opener := by simpa using stops
      rcases List.mem_cons.mp dropped with rfl | later
      · omega
      · have lower := stacked.of_append.2.1 other later
        omega

theorem openInside_ascending (linked : Linked nesting) (frame : Frame) :
    (nesting.openInside frame).Pairwise (fun other deeper => other.opener < deeper.opener) := by
  rw [openInside, List.pairwise_reverse]
  exact linked.stacked.descending.sublist (List.takeWhile_sublist _)

/-- The frame that is open at the first place where one can be is the next open frame inwards. -/
theorem open_frame_inside (linked : Linked nesting) (frame : Frame) {start : Nat}
    (after : frame.opener < start) (clear : ClearUpTo nesting frame start) (p : Frame → Bool) :
    (nesting.frameAt start).filter (fun nested => p nested && nested.isOpen) =
      (nesting.openInside frame).head?.filter (fun nested => p nested && nested.opener == start) := by
  have ascending := openInside_ascending linked frame
  have among := mem_openInside linked frame
  generalize nesting.openInside frame = inner at ascending among
  apply Option.ext
  intro nested
  simp only [Option.filter_eq_some_iff, Bool.and_eq_true, beq_iff_eq]
  constructor
  · rintro ⟨there, holds, isOpen⟩
    have opener := linked.opener there
    have held : nested ∈ nesting.stack :=
      linked.mem_stack.mpr ⟨opener ▸ there, by simpa [Frame.isOpen] using isOpen⟩
    have member : nested ∈ inner := (among nested).mpr ⟨held, by omega⟩
    refine ⟨?_, holds, opener⟩
    cases inner with
    | nil => cases member
    | cons first deeper =>
      -- `first` is opened no later than `nested`, and it cannot be opened before `start`.
      rcases List.mem_cons.mp member with rfl | later
      · rfl
      · obtain ⟨begun, inside⟩ := (among first).mp List.mem_cons_self
        have least := clear first begun inside
        have earlier := (List.pairwise_cons.mp ascending).1 nested later
        omega
  · rintro ⟨first, holds, rfl⟩
    obtain ⟨held, -⟩ := (among nested).mp (List.mem_of_head? first)
    obtain ⟨there, isOpen⟩ := linked.mem_stack.mp held
    exact ⟨there, holds, by simp [Frame.isOpen, isOpen]⟩

/-- The array literal with which a piece begins, if it is still open at the cursor. -/
def openArray? (nesting : Nesting) (piece : Piece) : Option Frame :=
  let word := nesting.tokens[piece.start]?.any fun token =>
    token.kind == .identifier && Text.lower token.text == "array"
  if piece.start < piece.stop then
    (nesting.frameAt (if word then piece.start + 1 else piece.start)).filter fun frame =>
      frame.role == .array && frame.isOpen
  else none

/-- An open array that begins where no other open frame can begin before it is the next open frame
inwards. -/
theorem openArray?_eq (linked : Linked nesting) (formed : Formed nesting) {frame : Frame}
    {piece : Piece} (after : frame.opener < piece.start)
    (clear : ClearUpTo nesting frame piece.start) :
    nesting.openArray? piece =
      (nesting.openInside frame).head?.filter (nesting.beginsWithArray piece) := by
  unfold openArray? beginsWithArray
  cases word : nesting.tokens[piece.start]?.any fun token =>
      token.kind == .identifier && Text.lower token.text == "array" with
  | true =>
    -- The word opens nothing, so up to the bracket after it all is still clear.
    obtain ⟨token, there, isWord⟩ := (Option.any_eq_true _ _).mp word
    have kind : token.kind ≠ .opener := by
      intro opener
      simp [opener] at isWord
    by_cases nonempty : piece.start < piece.stop
    · simp only [nonempty, if_true, decide_true, Bool.true_and]
      exact open_frame_inside linked frame (by omega) (clear.next linked formed there kind) _
    · simp [nonempty]
  | false =>
    by_cases nonempty : piece.start < piece.stop
    · simp only [nonempty, if_true, decide_true, Bool.true_and]
      exact open_frame_inside linked frame after clear _
    · simp [nonempty]

/-! ### Parts of an array -/

/-- What there is of an open array: its double arrows, its entries, and the keys of the complete
ones. -/
structure ArrayParts where
  arrows : List Nat
  entries : Pieces
  keys : List String

def arrayParts (nesting : Nesting) (separators : Std.TreeMap Nat (List Nat)) (array : Frame) :
    ArrayParts :=
  let own := separators.getD array.opener []
  let arrows := own.filter (nesting.operatorAt "=>")
  let entries := Pieces.ofCommas (array.opener + 1) nesting.tokens.size
    (own.filter (nesting.operatorAt ","))
  { arrows, entries, keys := entries.completed.filterMap (nesting.entryKey? arrows) }

/-- The slot of an entry without an arrow, of which `literal` may be all there is. -/
def ArrayParts.keySlot (parts : ArrayParts) (index : Nat) (literal : Option String) : Slot :=
  { index
    isArray := true
    isKey := parts.entries.last.start == parts.entries.last.stop || literal.isSome
    keys := parts.keys }

/-- The slot of a value that belongs to `key`. -/
def ArrayParts.valueSlot (parts : ArrayParts) (index : Nat) (key : Option String) : Slot :=
  { index, isArray := true, key, keys := parts.keys }

/-- The part of an array before an arrow in its last entry. -/
def ArrayParts.keyPiece (parts : ArrayParts) (arrow : Nat) : Piece :=
  { parts.entries.last with stop := arrow }

/-- The part of an array after an arrow in its last entry. -/
def ArrayParts.valuePiece (parts : ArrayParts) (arrow : Nat) : Piece :=
  { parts.entries.last with start := arrow + 1 }

theorem arraySlot_eq_parts (separators : Std.TreeMap Nat (List Nat)) (index : Nat) (array : Frame)
    (inner : List Frame) :
    nesting.arraySlot separators index array inner =
      let parts := nesting.arrayParts separators array
      match firstArrow? parts.arrows parts.entries.last with
      | none => parts.keySlot index (nesting.literal? parts.entries.last)
      | some arrow =>
        let valued := parts.valueSlot index (nesting.literal? (parts.keyPiece arrow))
        match inner with
        | [] => valued
        | nested :: deeper =>
          if nesting.beginsWithArray (parts.valuePiece arrow) nested then
            nesting.arraySlot separators index nested deeper
          else valued := by
  rw [arraySlot.eq_def]
  rfl

end Nesting

/-! ### Slots -/

/-- Keys are spoken of only in an array, and what may be a key has no key itself. -/
structure Slot.Consistent (slot : Slot) : Prop where
  plain : slot.isArray = false → slot.isKey = false ∧ slot.key = none ∧ slot.keys = []
  key : slot.isKey = true → slot.isArray = true ∧ slot.key = none

namespace Nesting

/-- However deep the arrays go, the slot is that of the same argument. -/
theorem arraySlot_spec (nesting : Nesting) (separators : Std.TreeMap Nat (List Nat)) (index : Nat)
    (array : Frame) (inner : List Frame) :
    (nesting.arraySlot separators index array inner).index = index ∧
      (nesting.arraySlot separators index array inner).isArray = true ∧
      ((nesting.arraySlot separators index array inner).isKey = true →
        (nesting.arraySlot separators index array inner).key = none) := by
  induction inner generalizing array with
  | nil =>
    rw [arraySlot]
    dsimp only
    split <;> simp
  | cons nested deeper ih =>
    rw [arraySlot]
    dsimp only
    split
    · simp
    · split
      · exact ih nested
      · simp

theorem arguments_slot (nesting : Nesting) (frame : Frame) :
    (nesting.arguments frame).slot.index = (nesting.arguments frame).earlier.length ∧
      (nesting.arguments frame).slot.Consistent := by
  unfold arguments
  dsimp only
  split
  · exact ⟨rfl, by simp, by simp⟩
  · split
    · obtain ⟨index, isArray, key⟩ := arraySlot_spec nesting
        (nesting.separators (frame.opener + 1)) _ _ _
      refine ⟨index, ?_, fun isKey => ⟨isArray, key isKey⟩⟩
      intro plain
      rw [isArray] at plain
      cases plain
    · exact ⟨rfl, by simp, by simp⟩

end Nesting

end CursorContext
