import CursorContext.Proofs.Argument.Plain
import CursorContext.Token.Scan

/-!
Arrow functions as entries of an array. The arrow of an arrow function is the same token in the same
frame as the arrow of a key, and it is taken for one. What stands before it is no literal, so the entry
has no key all the same. But an array literal right behind it takes the place of the array around the
function, as if it were the value of a key.
-/
namespace CursorContext

namespace Nesting

variable {nesting : Nesting}

/-- In `array`, from `start` on, stands the head of an arrow function: the word, a parameter list that
is closed, and behind it the first arrow, which may follow a return type. -/
structure ArrowFunction (nesting : Nesting) (array : Frame) (start arrow : Nat) : Prop where
  word : nesting.tokens[start]?.any (·.isKeyword ["fn"]) = true
  head : ∃ parameters close, nesting.frameAt (start + 1) = some parameters ∧
    parameters.role = .params ∧ parameters.closer = some close ∧ close < arrow ∧
    ∀ index, close < index → index < arrow → nesting.enclosing index = some array.opener →
      nesting.operatorAt "=>" index = false
  isArrow : nesting.operatorAt "=>" arrow = true
  direct : nesting.enclosing arrow = some array.opener

/-- What lies between the brackets of a frame stands directly in no frame opened before it. -/
theorem Linked.enclosing_ne (linked : Linked nesting) {f index close : Nat} {frame : Frame}
    (found : nesting.frameAt f = some frame) (closed : frame.closer = some close) (after : f < index)
    (before : index < close) {other : Nat} (earlier : other < f) :
    nesting.enclosing index ≠ some other := by
  intro direct
  have limit := (linked.bounds found closed).2
  have surrounds : frame.surrounds index = true := by
    refine (frame.surrounds_iff index).mpr ⟨by rwa [linked.opener found], ?_⟩
    intro close' closed'
    rw [closed] at closed'
    cases closed'
    exact before
  have around := (linked.around (by omega) f).mpr ⟨frame, found, surrounds⟩
  obtain ⟨outer, there⟩ := linked.enclosing_frame direct
  have chain : nesting.chainOf (nesting.enclosing index) = outer.chain := by
    simp [chainOf, direct, there]
  rw [chain, Frame.chain, linked.opener there] at around
  rcases List.mem_cons.mp around with same | further
  · omega
  · have lower := linked.outer_lt there further
    omega

/-- The arrow of an arrow function is the first arrow of the entry that begins with the function. -/
theorem ArrowFunction.first_arrow (linked : Linked nesting) (formed : Formed nesting)
    (ended : Ended nesting) {array : Frame} {piece : Piece} {arrow : Nat}
    (function : ArrowFunction nesting array piece.start arrow) (later : array.opener < piece.start)
    (stop : piece.stop = nesting.tokens.size) :
    nesting.arrowIn? array piece = some arrow ∧ piece.start + 2 < arrow := by
  obtain ⟨word, ⟨parameters, close, found, -, closed, before, clear⟩, isArrow, direct⟩ := function
  have bounds := linked.bounds found closed
  obtain ⟨token, there, -⟩ := kind_of_operatorAt isArrow
  have inside : arrow < nesting.tokens.size := (Array.getElem?_eq_some_iff.mp there).1
  refine ⟨List.find?_range'_eq_some.mpr ⟨by simp [isArrow, direct], List.mem_range'_1.mpr ?_, ?_⟩, ?_⟩
  · omega
  · intro index begun earlier
    rw [Bool.not_eq_true', Bool.and_eq_false_imp, beq_eq_false_iff_ne]
    intro operator direct'
    obtain ⟨here, placed, kind⟩ := kind_of_operatorAt operator
    -- The word, the opening bracket, what is between the brackets, the closing one, a return type.
    rcases Nat.lt_trichotomy index (piece.start + 1) with first | rfl | after
    · obtain rfl : index = piece.start := by omega
      simp [placed, Token.isKeyword, kind] at word
    · obtain ⟨opener, bracket, placed', opens, -⟩ := formed.frame found
      rw [placed] at placed'
      cases placed'
      simp [Token.opening?, kind] at opens
    rcases Nat.lt_trichotomy index close with between | rfl | behind
    · exact linked.enclosing_ne found closed after between (by omega) direct'
    · obtain ⟨closer, bracket, placed', closes⟩ := ended _ _ _ found closed
      rw [placed] at placed'
      cases placed'
      simp [Token.closing?, kind] at closes
    · rw [clear index behind earlier direct'] at operator
      cases operator
  · omega

/-- Two tokens or more are no literal. -/
theorem literal?_eq_none {piece : Piece} (long : piece.start + 1 < piece.stop)
    (inside : piece.stop ≤ nesting.tokens.size) : nesting.literal? piece = none := by
  have length : (nesting.tokensOf piece).length = piece.stop - piece.start := by
    rw [tokensOf, Array.length_toList, Array.size_extract, Nat.min_eq_left inside]
  unfold literal?
  split
  next token alone =>
    rw [alone, List.length_singleton] at length
    omega
  · rfl

/-- An array whose last entry begins with an arrow function has the cursor in the value of an entry
without a key, unless an array literal that is still open begins right behind the arrow: then that one
takes its place. -/
theorem Linked.plainSlot_arrow_function (linked : Linked nesting) (formed : Formed nesting)
    (ended : Ended nesting) (index : Nat) {array : Frame} {arrow : Nat}
    (function : ArrowFunction nesting array (nesting.entriesOf array).last.start arrow) :
    linked.plainSlot index array =
      (nesting.openArray? { start := arrow + 1, stop := nesting.tokens.size }).elim
        { index, isArray := true, isKey := false, key := none, keys := nesting.keysOf array }
        (linked.plainSlot index) := by
  have stop := last_stop_entriesOf nesting array
  obtain ⟨first, long⟩ := function.first_arrow linked formed ended (opener_lt_last nesting array) stop
  have inside := (mem_of_arrowIn? first).1.2
  have nested : nesting.nestedArray? array =
      nesting.openArray? { start := arrow + 1, stop := nesting.tokens.size } := by
    rw [nestedArray?, first, Option.bind_some, ← stop]
  have keyless : nesting.literal? { (nesting.entriesOf array).last with stop := arrow } = none :=
    literal?_eq_none (by dsimp only; omega) (by dsimp only; omega)
  rw [← nested]
  cases found : nesting.nestedArray? array with
  | none =>
    rw [linked.plainSlot_here index found, slotIn, first]
    dsimp only
    rw [keyless]
    rfl
  | some inner =>
    rw [linked.plainSlot_nested index found]
    rfl

/-- For any tokens and any frame whose last argument is an open array: if the last entry of the array
begins with an arrow function, the cursor is in the value of an entry without a key, beside the keys of
the entries before it, whatever follows in the entry. The one exception is an open array literal right
behind the arrow, whose own entries are reported instead. -/
theorem slot_in_arrow_function (tokens : List Token) (frame array : Frame) (arrow : Nat)
    (current : (ofTokens tokens).openArray? ((ofTokens tokens).entriesOf frame).last = some array)
    (function : (ofTokens tokens).ArrowFunction array
      ((ofTokens tokens).entriesOf array).last.start arrow) :
    let nesting := ofTokens tokens
    let index := (nesting.arguments frame).earlier.length
    (nesting.arguments frame).slot =
      (nesting.openArray? { start := arrow + 1, stop := tokens.length }).elim
        { index, isArray := true, isKey := false, key := none, keys := nesting.keysOf array }
        ((linked_ofTokens tokens).plainSlot index) := by
  intro nesting index
  have linked := linked_ofTokens tokens
  have formed := formed_ofTokens tokens
  have size : tokens.length = nesting.tokens.size := by rw [tokens_ofTokens, List.size_toArray]
  rw [size, ← linked.plainSlot_arrow_function formed (ended_ofTokens tokens) index function]
  unfold index nesting
  rw [arguments_eq_plain linked formed, Linked.plainArguments]
  dsimp only
  rw [← entriesOf, current]

/-- A function with a return type whose value holds an array, but does not begin with it. -/
theorem slot_behind_return_type :
    let nesting := ofTokens (Token.logical (Token.scan "f(['a', fn($x): int => $x + ["))
    ∃ call array, nesting.cursorCall false = some call ∧
      nesting.openArray? (nesting.entriesOf call).last = some array ∧
      nesting.ArrowFunction array (nesting.entriesOf array).last.start 11 ∧
      (nesting.arguments call).slot =
        { index := 0, isArray := true, isKey := false, key := none, keys := ["a"] } := by
  intro nesting
  let call : Frame := ⟨'(', 1, 1, .call, [], none⟩
  let array : Frame := ⟨'[', 2, 2, .array, [1], none⟩
  let parameters : Frame := ⟨'(', 6, 10, .params, [2, 1], some 8⟩
  obtain ⟨called, current, word, found, clear, isArrow, direct⟩ :
      nesting.cursorCall false = some call ∧
      nesting.openArray? (nesting.entriesOf call).last = some array ∧
      nesting.tokens[(nesting.entriesOf array).last.start]?.any (·.isKeyword ["fn"]) = true ∧
      nesting.frameAt ((nesting.entriesOf array).last.start + 1) = some parameters ∧
      (nesting.operatorAt "=>" 9 = false ∧ nesting.operatorAt "=>" 10 = false) ∧
      nesting.operatorAt "=>" 11 = true ∧ nesting.enclosing 11 = some array.opener := by
    decide +kernel
  have function : nesting.ArrowFunction array (nesting.entriesOf array).last.start 11 := by
    refine ⟨word, ⟨parameters, 8, found, rfl, rfl, by omega, ?_⟩, isArrow, direct⟩
    intro index after before _
    obtain rfl | rfl : index = 9 ∨ index = 10 := by omega
    · exact clear.1
    · exact clear.2
  refine ⟨call, array, called, current, function, ?_⟩
  have slot := slot_in_arrow_function (Token.logical (Token.scan "f(['a', fn($x): int => $x + ["))
    call array 11 current function
  exact slot.trans (by decide +kernel)

/-- An array that is the value of an arrow function takes the place of the one around the function, as
if it stood behind a key. -/
theorem array_behind_arrow_function :
    ¬ ∀ (tokens : List Token) (call array : Frame) (arrow : Nat),
      let nesting := ofTokens tokens
      nesting.cursorCall false = some call →
      nesting.openArray? (nesting.entriesOf call).last = some array →
      nesting.ArrowFunction array (nesting.entriesOf array).last.start arrow →
      (nesting.arguments call).slot =
        { index := (nesting.arguments call).earlier.length, isArray := true, isKey := false
          key := none, keys := nesting.keysOf array } := by
  intro holds
  let tokens := Token.logical (Token.scan "f(['a', fn($x) => [")
  let nesting := ofTokens tokens
  let call : Frame := ⟨'(', 1, 1, .call, [], none⟩
  let array : Frame := ⟨'[', 2, 2, .array, [1], none⟩
  let parameters : Frame := ⟨'(', 6, 10, .params, [2, 1], some 8⟩
  obtain ⟨called, current, word, found, isArrow, direct, slot⟩ :
      nesting.cursorCall false = some call ∧
      nesting.openArray? (nesting.entriesOf call).last = some array ∧
      nesting.tokens[(nesting.entriesOf array).last.start]?.any (·.isKeyword ["fn"]) = true ∧
      nesting.frameAt ((nesting.entriesOf array).last.start + 1) = some parameters ∧
      nesting.operatorAt "=>" 9 = true ∧ nesting.enclosing 9 = some array.opener ∧
      (nesting.arguments call).slot.isKey = true := by
    decide +kernel
  have function : nesting.ArrowFunction array (nesting.entriesOf array).last.start 9 :=
    ⟨word, ⟨parameters, 8, found, rfl, rfl, by omega, by omega⟩, isArrow, direct⟩
  have claimed := congrArg Slot.isKey (holds tokens call array 9 called current function)
  exact Bool.noConfusion (slot.symm.trans claimed)

end Nesting

end CursorContext
