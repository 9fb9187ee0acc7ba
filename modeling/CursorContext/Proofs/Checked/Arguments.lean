import CursorContext.Proofs.Argument.Inside
import CursorContext.Proofs.Checked.Access

/-!
Checked reading of the arguments at the cursor. Arrays in one another are entered one by one, each
opened after the one before.
-/
namespace CursorContext

namespace Checked

open Nesting (ArrayParts ClearUpTo)

variable {nesting : Nesting}

/-! ### Separators -/

/-- Indexes grouped by a checked key, in each group in their order. -/
def groupIndexes (key : Nat → Except Fault (Option Nat)) :
    List Nat → Except Fault (Std.TreeMap Nat (List Nat))
  | [] => .ok {}
  | index :: rest => do
    let groups ← groupIndexes key rest
    match ← key index with
    | none => return groups
    | some group => return groups.insert group (index :: groups.getD group [])

theorem groupIndexes_ok {checked : Nat → Except Fault (Option Nat)} {key : Nat → Option Nat}
    {indexes : List Nat} (keys : ∀ index ∈ indexes, checked index = .ok (key index)) :
    groupIndexes checked indexes = .ok (CursorContext.groupIndexes key indexes) := by
  induction indexes with
  | nil => rfl
  | cons index rest ih =>
    have later := ih fun other member => keys other (List.mem_cons_of_mem _ member)
    rw [groupIndexes, later, ok_bind, keys index List.mem_cons_self, ok_bind]
    simp only [CursorContext.groupIndexes, List.foldr_cons]
    cases key index <;> rfl

/-- The commas and double arrows after `start` by the frame they stand directly in. -/
def separators (nesting : Nesting) (start : Nat) : Except Fault (Std.TreeMap Nat (List Nat)) :=
  groupIndexes
    (fun index => do
      let token ← tokenAt nesting index
      if token.isOperator [","] || token.isOperator ["=>"] then enclosing nesting index
      else return none)
    (List.range' start (nesting.tokens.size - start))

theorem separators_eq (linked : nesting.Linked) (start : Nat) :
    separators nesting start = .ok (nesting.separators start) := by
  apply groupIndexes_ok
  intro index member
  have inside : index < nesting.tokens.size := by
    rw [List.mem_range'_1] at member
    omega
  obtain ⟨token, there, taken⟩ := tokenAt_lt inside
  simp only [taken, ok_bind, enclosing_eq linked inside, Nesting.operatorAt, there, Option.any_some]
  split <;> rfl

/-- Those of some indexes at which the operator stands. -/
def only (nesting : Nesting) (operator : String) (indexes : List Nat) : Except Fault (List Nat) :=
  gather
    (fun index => do
      if (← tokenAt nesting index).isOperator [operator] then return some index else return none)
    indexes

theorem only_eq (operator : String) {indexes : List Nat}
    (inside : ∀ index ∈ indexes, index < nesting.tokens.size) :
    only nesting operator indexes = .ok (indexes.filter (nesting.operatorAt operator)) := by
  rw [← List.filterMap_eq_filter]
  apply gather_ok
  intro index member
  obtain ⟨token, there, taken⟩ := tokenAt_lt (inside index member)
  simp only [taken, ok_bind, Nesting.operatorAt, there, Option.any_some, Option.guard]
  split <;> rfl

/-! ### Literals and arrays -/

/-- What a literal says that makes up the whole of a piece. -/
def literal (nesting : Nesting) (piece : Piece) : Except Fault (Option String) :=
  if piece.stop = piece.start + 1 then do
    let token ← tokenAt nesting piece.start
    return if token.kind == .string then some token.contents else none
  else return none

theorem literal_eq {piece : Piece} (inside : piece.stop ≤ nesting.tokens.size) :
    literal nesting piece = .ok (nesting.literal? piece) := by
  unfold literal Nesting.literal? Nesting.tokensOf
  split
  next single =>
    obtain ⟨token, there, taken⟩ := tokenAt_lt (by omega : piece.start < nesting.tokens.size)
    have only : (nesting.tokens.extract piece.start piece.stop).toList = [token] := by
      rw [single, Array.toList_extract, List.extract_eq_take_drop, Nesting.drop_tokens there]
      simp
    rw [taken, ok_bind, only]
    rfl
  next several =>
    have length : (nesting.tokens.extract piece.start piece.stop).toList.length ≠ 1 := by
      simp
      omega
    match (nesting.tokens.extract piece.start piece.stop).toList, length with
    | [], _ => rfl
    | _ :: _ :: _, _ => rfl

/-- The open array literal with which a piece begins. -/
def openArrayAt (nesting : Nesting) (piece : Piece) : Except Fault (Option Frame) :=
  if piece.start < piece.stop then do
    let token ← tokenAt nesting piece.start
    let word := token.kind == .identifier && Text.lower token.text == "array"
    let start := if word then piece.start + 1 else piece.start
    return (nesting.frameAt start).filter fun frame => frame.role == .array && frame.isOpen
  else return none

theorem openArrayAt_ok {piece : Piece} (inside : piece.stop ≤ nesting.tokens.size) :
    openArrayAt nesting piece = .ok (nesting.openArray? piece) := by
  unfold openArrayAt Nesting.openArray?
  split
  next nonempty =>
    obtain ⟨token, there, taken⟩ := tokenAt_lt (by omega : piece.start < nesting.tokens.size)
    rw [taken, ok_bind, there]
    rfl
  · rfl

theorem openArrayAt_eq (linked : nesting.Linked) (formed : nesting.Formed) {frame : Frame}
    {inner below : List Frame} (stack : nesting.stack = inner.reverse ++ frame :: below)
    {piece : Piece} (inside : piece.stop ≤ nesting.tokens.size) (after : frame.opener < piece.start)
    (clear : ClearUpTo nesting frame piece.start) :
    openArrayAt nesting piece = .ok (inner.head?.filter (nesting.beginsWithArray piece)) := by
  rw [openArrayAt_ok inside, Nesting.openArray?_eq linked formed after clear,
    Nesting.openInside_of_stack linked stack, List.reverse_reverse]

/-- The key of an array entry; of an entry without one, its value. -/
def entryKey (nesting : Nesting) (arrows : List Nat) (entry : Piece) :
    Except Fault (Option String) :=
  literal nesting { entry with stop := (Nesting.firstArrow? arrows entry).getD entry.stop }

def arrayParts (nesting : Nesting) (separators : Std.TreeMap Nat (List Nat)) (array : Frame) :
    Except Fault ArrayParts := do
  let own := separators.getD array.opener []
  let arrows ← only nesting "=>" own
  let commas ← only nesting "," own
  let entries := Pieces.ofCommas (array.opener + 1) nesting.tokens.size commas
  let keys ← gather (entryKey nesting arrows) entries.completed
  return { arrows, entries, keys }

/-- The place of the cursor in an open array. An array that is the value of its last entry takes its
place. -/
def arraySlot (nesting : Nesting) (separators : Std.TreeMap Nat (List Nat)) (index : Nat)
    (array : Frame) : Except Fault Slot := do
  let parts ← arrayParts nesting separators array
  match Nesting.firstArrow? parts.arrows parts.entries.last with
  | none => return parts.keySlot index (← literal nesting parts.entries.last)
  | some arrow =>
    match ← openArrayAt nesting (parts.valuePiece arrow) with
    | none => return parts.valueSlot index (← literal nesting (parts.keyPiece arrow))
    | some nested =>
      if _inwards : array.opener < nested.opener ∧ nested.opener < nesting.tokens.size then
        arraySlot nesting separators index nested
      else throw (.stuck array.opener)
termination_by nesting.tokens.size - array.opener

theorem firstArrow?_mem {arrows : List Nat} {piece : Piece} {arrow : Nat}
    (found : Nesting.firstArrow? arrows piece = some arrow) : arrow ∈ arrows :=
  List.mem_of_find?_eq_some (Option.filter_eq_some_iff.mp found).1

theorem arrayParts_eq (start : Nat) (array : Frame) :
    arrayParts nesting (nesting.separators start) array =
      .ok (nesting.arrayParts (nesting.separators start) array) := by
  have inside : ∀ k ∈ (nesting.separators start).getD array.opener [], k < nesting.tokens.size :=
    fun k member => ((Nesting.mem_separators start array.opener k).mp member).1.2
  unfold arrayParts Nesting.arrayParts
  generalize (nesting.separators start).getD array.opener [] = own at inside
  dsimp only
  rw [only_eq "=>" inside, ok_bind, only_eq "," inside, ok_bind, gather_ok]
  · rfl
  · intro entry member
    apply literal_eq
    cases found : Nesting.firstArrow? (own.filter (nesting.operatorAt "=>")) entry with
    | none =>
      have comma := Pieces.stop_mem_of_completed _ _ _ entry member
      exact Nat.le_of_lt (inside _ (List.mem_of_mem_filter comma))
    | some arrow => exact Nat.le_of_lt (inside _ (List.mem_of_mem_filter (firstArrow?_mem found)))

/-- One round: the slot is in this array, or the next open frame inwards takes its place. -/
theorem arraySlot_round (linked : nesting.Linked) (formed : nesting.Formed) (start index : Nat)
    {array : Frame} {inner below : List Frame}
    (stack : nesting.stack = inner.reverse ++ array :: below) :
    arraySlot nesting (nesting.separators start) index array =
      let parts := nesting.arrayParts (nesting.separators start) array
      match Nesting.firstArrow? parts.arrows parts.entries.last with
      | none => .ok (parts.keySlot index (nesting.literal? parts.entries.last))
      | some arrow =>
        match inner.head?.filter (nesting.beginsWithArray (parts.valuePiece arrow)) with
        | none => .ok (parts.valueSlot index (nesting.literal? (parts.keyPiece arrow)))
        | some nested => arraySlot nesting (nesting.separators start) index nested := by
  have among : ∀ arrow ∈ (nesting.arrayParts (nesting.separators start) array).arrows,
      arrow ∈ (nesting.separators start).getD array.opener [] :=
    fun _ member => List.mem_of_mem_filter member
  have stop : (nesting.arrayParts (nesting.separators start) array).entries.last.stop =
      nesting.tokens.size := Pieces.last_stop _ _ _
  -- These two facts are all that the rest needs of the parts.
  rw [arraySlot, arrayParts_eq, ok_bind]
  generalize nesting.arrayParts (nesting.separators start) array = parts at among stop
  dsimp only
  cases found : Nesting.firstArrow? parts.arrows parts.entries.last with
  | none =>
    rw [literal_eq (Nat.le_of_eq stop)]
    rfl
  | some arrow =>
    have member := among arrow (firstArrow?_mem found)
    have bound := ((Nesting.mem_separators start array.opener arrow).mp member).1.2
    obtain ⟨after, clear⟩ := Nesting.clearUpTo_separator linked formed member
    have limit : (parts.valuePiece arrow).stop ≤ nesting.tokens.size := Nat.le_of_eq stop
    dsimp only
    rw [openArrayAt_eq linked formed stack limit (Nat.lt_succ_of_lt after) clear, ok_bind]
    cases next : inner.head?.filter (nesting.beginsWithArray (parts.valuePiece arrow)) with
    | none =>
      rw [literal_eq (Nat.le_of_lt bound)]
      rfl
    | some nested =>
      -- The measure falls because openers grow from the bottom of the stack to its top.
      obtain ⟨first, -⟩ := Option.filter_eq_some_iff.mp next
      obtain ⟨deeper, rfl⟩ := List.head?_eq_some_iff.mp first
      have stacked := linked.stacked
      rw [stack, List.reverse_cons, List.append_assoc] at stacked
      have inwards := stacked.of_append.2.1 array List.mem_cons_self
      have begun : nested ∈ nesting.stack := by simp [stack]
      exact dif_pos ⟨inwards, linked.lt_size (linked.frameAt_of_mem_stack begun)⟩

theorem arraySlot_eq (linked : nesting.Linked) (formed : nesting.Formed) (start index : Nat)
    {array : Frame} {inner below : List Frame}
    (stack : nesting.stack = inner.reverse ++ array :: below) :
    arraySlot nesting (nesting.separators start) index array =
      .ok (nesting.arraySlot (nesting.separators start) index array inner) := by
  induction inner generalizing array below with
  | nil =>
    rw [arraySlot_round linked formed start index stack, Nesting.arraySlot_eq_parts]
    generalize nesting.arrayParts (nesting.separators start) array = parts
    dsimp only
    cases Nesting.firstArrow? parts.arrows parts.entries.last <;> rfl
  | cons nested deeper ih =>
    have inwards : nesting.stack = deeper.reverse ++ nested :: array :: below := by simp [stack]
    rw [arraySlot_round linked formed start index stack, Nesting.arraySlot_eq_parts]
    generalize nesting.arrayParts (nesting.separators start) array = parts
    dsimp only
    cases Nesting.firstArrow? parts.arrows parts.entries.last with
    | none => rfl
    | some arrow =>
      cases begins : nesting.beginsWithArray (parts.valuePiece arrow) nested with
      | false => simp [begins, Option.filter_some]
      | true => simp [begins, Option.filter_some, ih inwards]

/-- The arguments in a frame, which is taken to reach up to the cursor. -/
def arguments (nesting : Nesting) (frame : Frame) : Except Fault Arguments := do
  let separators ← separators nesting (frame.opener + 1)
  let commas ← only nesting "," (separators.getD frame.opener [])
  let pieces := Pieces.ofCommas (frame.opener + 1) nesting.tokens.size commas
  let earlier := pieces.completed.map fun piece => Token.argumentText (nesting.tokensOf piece)
  match ← openArrayAt nesting pieces.last with
  | none => return { earlier, slot := { index := earlier.length } }
  | some array =>
    return { earlier, slot := ← arraySlot nesting separators earlier.length array }

theorem arguments_eq (linked : nesting.Linked) (formed : nesting.Formed) {frame : Frame}
    (held : frame ∈ nesting.stack) :
    arguments nesting frame = .ok (nesting.arguments frame) := by
  obtain ⟨upper, below, stack⟩ := List.append_of_mem held
  have inside : ∀ k ∈ (nesting.separators (frame.opener + 1)).getD frame.opener [],
      k < nesting.tokens.size :=
    fun k member => ((Nesting.mem_separators _ frame.opener k).mp member).1.2
  have clear := Nesting.clearUpTo_last linked formed (frame.opener + 1)
    fun comma (member : comma ∈ ((nesting.separators (frame.opener + 1)).getD frame.opener []).filter
      (nesting.operatorAt ",")) => List.mem_of_mem_filter member
  have stop := Pieces.last_stop (frame.opener + 1) nesting.tokens.size
    (((nesting.separators (frame.opener + 1)).getD frame.opener []).filter
      (nesting.operatorAt ","))
  rw [arguments, separators_eq linked, ok_bind, only_eq "," inside, ok_bind]
  unfold Nesting.arguments
  rw [Nesting.openInside_of_stack linked stack]
  dsimp only at clear ⊢
  generalize Pieces.ofCommas (frame.opener + 1) nesting.tokens.size _ = pieces at clear stop ⊢
  have inwards : nesting.stack = upper.reverse.reverse ++ frame :: below := by simp [stack]
  rw [openArrayAt_eq linked formed inwards (Nat.le_of_eq stop) clear.1 clear.2, ok_bind]
  cases opened : upper.reverse with
  | nil => rfl
  | cons array inner =>
    have deeper : nesting.stack = inner.reverse ++ array :: frame :: below := by
      rw [inwards, opened]
      simp
    cases begins : nesting.beginsWithArray pieces.last array with
    | false => simp [begins, Option.filter_some]
    | true =>
      simp [begins, Option.filter_some, arraySlot_eq linked formed (frame.opener + 1) _ deeper]

end Checked

end CursorContext
