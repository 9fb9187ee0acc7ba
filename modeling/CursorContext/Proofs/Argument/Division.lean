import CursorContext.Proofs.Argument.Continued
import CursorContext.Token.Scan

/-!
How the contents of a frame are divided. The pieces lie behind each other without a gap, from the
bracket on to the place where the division stops. Between two of them stands one comma of the frame,
and none of the frame's commas is left inside a piece. That describes one list of pieces only, so it
says all there is to say, however the brackets inside the frame are nested.
-/
namespace CursorContext

/-- The pieces between the dividers from `start` on to `stop`. -/
structure Divides (divider : Nat → Bool) (start stop : Nat) (pieces : List Piece) : Prop where
  first : pieces.head?.map (·.start) = some start
  last : pieces.getLast?.map (·.stop) = some stop
  joined : pieces.IsChain fun piece next =>
    divider piece.stop = true ∧ next.start = piece.stop + 1
  ordered : ∀ piece ∈ pieces, piece.start ≤ piece.stop
  undivided : ∀ piece ∈ pieces, ∀ index, piece.start ≤ index → index < piece.stop →
    divider index = false

namespace Divides

variable {divider : Nat → Bool} {start stop : Nat} {pieces : List Piece}

/-! ### One piece after the other -/

theorem single_iff {piece : Piece} :
    Divides divider start stop [piece] ↔ piece = { start, stop } ∧ start ≤ stop ∧
      ∀ index, start ≤ index → index < stop → divider index = false := by
  constructor
  · intro divides
    have begins : piece.start = start := by simpa using divides.first
    have ends : piece.stop = stop := by simpa using divides.last
    subst begins ends
    exact ⟨rfl, divides.ordered piece List.mem_cons_self,
      divides.undivided piece List.mem_cons_self⟩
  · rintro ⟨rfl, ordered, undivided⟩
    exact ⟨rfl, rfl, .singleton _, by simpa using ordered, by simpa using undivided⟩

theorem cons_cons_iff {piece next : Piece} {rest : List Piece} :
    Divides divider start stop (piece :: next :: rest) ↔
      (piece.start = start ∧ start ≤ piece.stop ∧ divider piece.stop = true ∧
        ∀ index, start ≤ index → index < piece.stop → divider index = false) ∧
      Divides divider (piece.stop + 1) stop (next :: rest) := by
  constructor
  · intro divides
    have begins : piece.start = start := by simpa using divides.first
    subst begins
    obtain ⟨joint, joined⟩ := List.isChain_cons_cons.mp divides.joined
    refine ⟨⟨rfl, divides.ordered piece List.mem_cons_self, joint.1,
      divides.undivided piece List.mem_cons_self⟩, ?_⟩
    exact
      { first := by simp [joint.2]
        last := by simpa using divides.last
        joined
        ordered := fun other among => divides.ordered other (List.mem_cons_of_mem _ among)
        undivided := fun other among => divides.undivided other (List.mem_cons_of_mem _ among) }
  · rintro ⟨⟨rfl, ordered, comma, undivided⟩, later⟩
    have follows : next.start = piece.stop + 1 := by simpa using later.first
    exact
      { first := rfl
        last := by simpa using later.last
        joined := .cons_cons ⟨comma, follows⟩ later.joined
        ordered := List.forall_mem_cons.mpr ⟨ordered, later.ordered⟩
        undivided := List.forall_mem_cons.mpr ⟨undivided, later.undivided⟩ }

theorem start_le_stop (divides : Divides divider start stop pieces) : start ≤ stop := by
  -- Each piece stops no earlier than it starts, and the next one starts behind it.
  induction pieces generalizing start with
  | nil => simpa using divides.first
  | cons piece rest ih =>
    cases rest with
    | nil => exact (single_iff.mp divides).2.1
    | cons next rest =>
      obtain ⟨⟨-, ordered, -⟩, later⟩ := cons_cons_iff.mp divides
      have beyond := ih later
      omega

/-! ### The pieces between commas -/

/-- The first of the dividers in a range, and those after it. -/
theorem filter_range'_eq_cons_iff {index : Nat} {later : List Nat} :
    (List.range' start (stop - start)).filter divider = index :: later ↔
      (start ≤ index ∧ index < stop ∧ divider index = true ∧
        ∀ other, start ≤ other → other < index → divider other = false) ∧
      (List.range' (index + 1) (stop - (index + 1))).filter divider = later := by
  rw [List.filter_eq_cons_iff]
  -- Cut at its first divider, a range has none before the cut, and what is behind is a range again.
  constructor
  · rintro ⟨before, after, parts, none, holds, rfl⟩
    obtain ⟨count, bound, rfl, rest⟩ := List.range'_eq_append_iff.mp parts
    obtain ⟨rfl, room, rfl⟩ := List.range'_eq_cons_iff.mp rest.symm
    refine ⟨⟨by omega, by omega, holds, ?_⟩, ?_⟩
    · intro other above below
      simpa using none other (List.mem_range'_1.mpr ⟨above, by omega⟩)
    · congr 2
      omega
  · rintro ⟨⟨above, below, holds, none⟩, rfl⟩
    refine ⟨List.range' start (index - start), List.range' (index + 1) (stop - (index + 1)), ?_, ?_,
      holds, rfl⟩
    · refine List.range'_eq_append_iff.mpr ⟨index - start, by omega, rfl, ?_⟩
      exact (List.range'_eq_cons_iff.mpr ⟨by omega, by omega, by congr 1; omega⟩).symm
    · intro other member
      have bounds := List.mem_range'_1.mp member
      simp [none other bounds.1 (by omega)]

theorem all_ofCommas (commas : List Nat) (ordered : start ≤ stop)
    (dividers : (List.range' start (stop - start)).filter divider = commas) :
    Divides divider start stop (Pieces.ofCommas start stop commas).all := by
  induction commas generalizing start with
  | nil =>
    refine single_iff.mpr ⟨rfl, ordered, ?_⟩
    intro index above below
    have none := List.filter_eq_nil_iff.mp dividers index (List.mem_range'_1.mpr ⟨above, by omega⟩)
    simpa using none
  | cons comma rest ih =>
    obtain ⟨⟨above, below, holds, none⟩, later⟩ := filter_range'_eq_cons_iff.mp dividers
    have divides := ih (by omega) later
    -- The later pieces are at least one, so the first of them can be named.
    obtain ⟨next, more, named⟩ : ∃ next more,
        (Pieces.ofCommas (comma + 1) stop rest).all = next :: more :=
      List.exists_cons_of_ne_nil (by simp [Pieces.all])
    have parts : (Pieces.ofCommas start stop (comma :: rest)).all =
        { start, stop := comma } :: next :: more := by
      rw [← named]
      rfl
    rw [parts]
    exact cons_cons_iff.mpr ⟨⟨rfl, above, holds, none⟩, named ▸ divides⟩

theorem eq_all_ofCommas (divides : Divides divider start stop pieces) :
    pieces =
      (Pieces.ofCommas start stop ((List.range' start (stop - start)).filter divider)).all := by
  induction pieces generalizing start with
  | nil => simpa using divides.first
  | cons piece rest ih =>
    cases rest with
    | nil =>
      obtain ⟨rfl, ordered, undivided⟩ := single_iff.mp divides
      have none : (List.range' start (stop - start)).filter divider = [] := by
        refine List.filter_eq_nil_iff.mpr fun index member => ?_
        have bounds := List.mem_range'_1.mp member
        simp [undivided index bounds.1 (by omega)]
      rw [none]
      rfl
    | cons next rest =>
      -- No divider stands inside the first piece, so the one it stops at is the first of all.
      obtain ⟨⟨rfl, ordered, holds, undivided⟩, later⟩ := cons_cons_iff.mp divides
      have room := later.start_le_stop
      have commas := filter_range'_eq_cons_iff.mpr
        ⟨⟨ordered, (by omega : piece.stop < stop), holds, undivided⟩, rfl⟩
      rw [commas]
      exact congrArg (piece :: ·) (ih later)

end Divides

namespace Nesting

variable {nesting : Nesting}

/-- Whether the token at `index` is a comma and `frame` is the innermost frame around it. -/
def isCommaOf (nesting : Nesting) (frame : Frame) (index : Nat) : Bool :=
  nesting.operatorAt "," index && (nesting.enclosing index).bind nesting.frameAt == some frame

/-- The frames that a division is asked of: those of the brackets, and the literal at the cursor. -/
def HasFrame (nesting : Nesting) (frame : Frame) : Prop :=
  frame ∈ nesting.frames ∨ nesting.trailingLiteral = some frame

/-- The literal at the cursor is opened by the last token. -/
theorem opener_trailingLiteral {frame : Frame} (cut : nesting.trailingLiteral = some frame) :
    frame.opener + 1 = nesting.tokens.size := by
  unfold trailingLiteral at cut
  split at cut
  next => cases cut
  next token last =>
    have some_token : 0 < nesting.tokens.size := by
      refine Nat.pos_of_ne_zero fun empty => ?_
      simp [Array.eq_empty_of_size_eq_zero empty] at last
    split at cut
    · obtain ⟨mark, -, rfl⟩ := Option.map_eq_some_iff.mp cut
      exact Nat.sub_add_cancel some_token
    · cases cut

/-- A frame is told from all others by its opening token. -/
theorem Linked.enclosing_iff (linked : Linked nesting) {frame : Frame}
    (named : nesting.HasFrame frame) {index : Nat} (inside : index < nesting.tokens.size) :
    nesting.enclosing index = some frame.opener ↔
      (nesting.enclosing index).bind nesting.frameAt = some frame := by
  constructor
  · intro direct
    rcases named with member | cut
    · rw [direct]
      exact (linked.mem_frames frame).mp member
    · -- The literal is opened by the last token, so no token is behind it to stand in it.
      have before := linked.enclosing_lt inside direct
      have last := opener_trailingLiteral cut
      omega
  · intro around
    obtain ⟨opener, direct, found⟩ := Option.bind_eq_some_iff.mp around
    rw [direct, linked.opener found]

theorem Linked.directCommas_eq (linked : Linked nesting) {frame : Frame}
    (named : nesting.HasFrame frame) {stop : Nat} (bound : stop ≤ nesting.tokens.size) :
    nesting.directCommas frame stop =
      (List.range' (frame.opener + 1) (stop - (frame.opener + 1))).filter
        (nesting.isCommaOf frame) := by
  apply List.filter_congr
  intro index member
  have inside : index < nesting.tokens.size := by
    have bounds := List.mem_range'_1.mp member
    omega
  rw [isCommaOf, Bool.eq_iff_iff]
  simp only [Bool.and_eq_true, beq_iff_eq, linked.enclosing_iff named inside]

/-- The earlier arguments of an open frame are all its pieces but the last. -/
theorem earlier_eq_dropLast (nesting : Nesting) {frame : Frame} (isOpen : frame.isOpen = true) :
    (nesting.arguments frame).earlier =
      (nesting.split frame (nesting.endOf frame)).all.dropLast.map
        fun piece => Token.argumentText (nesting.tokensOf piece) := by
  have unclosed : frame.closer = none := by simpa [Frame.isOpen] using isOpen
  have reaches : nesting.endOf frame = nesting.tokens.size := by simp [endOf, unclosed]
  rw [reaches, Pieces.all, List.dropLast_concat, earlier_arguments]
  rfl

/-- After any tokens, whatever their brackets: up to any stop the pieces of a frame, open or closed,
are the one list that begins after its bracket, ends at the stop and is divided by the commas whose
innermost frame it is, at each of them and nowhere else. They are given out with their texts. Of an
open frame, the texts of all pieces but the last are its earlier arguments. -/
theorem split_divides (tokens : List Token) (frame : Frame)
    (named : (ofTokens tokens).HasFrame frame) :
    (∀ stop, frame.opener + 1 ≤ stop → stop ≤ tokens.length →
      let pieces := ((ofTokens tokens).split frame stop).all
      Divides ((ofTokens tokens).isCommaOf frame) (frame.opener + 1) stop pieces ∧
      (∀ others, Divides ((ofTokens tokens).isCommaOf frame) (frame.opener + 1) stop others →
        others = pieces) ∧
      (ofTokens tokens).splitSigned? frame stop = some (pieces.map fun piece =>
        (piece.start, (piece.stop : Int),
          Token.argumentText ((ofTokens tokens).tokensOf piece)))) ∧
    (frame.isOpen = true →
      ((ofTokens tokens).arguments frame).earlier =
        ((ofTokens tokens).split frame ((ofTokens tokens).endOf frame)).all.dropLast.map
          fun piece => Token.argumentText ((ofTokens tokens).tokensOf piece)) := by
  refine ⟨?_, (ofTokens tokens).earlier_eq_dropLast⟩
  intro stop ordered bound
  have size : (ofTokens tokens).tokens.size = tokens.length := by simp [tokens_ofTokens]
  have commas := (linked_ofTokens tokens).directCommas_eq named (size ▸ bound)
  refine ⟨?_, ?_, ?_⟩
  · exact Divides.all_ofCommas _ ordered commas.symm
  · intro others divides
    rw [split, commas]
    exact divides.eq_all_ofCommas
  · rw [splitSigned?]
    dsimp only
    rw [if_neg (by omega), if_neg (by omega), Int.toNat_natCast]

/-- The inner round bracket is closed across two others. The division of the curly one goes on beyond
its end, where the comma after it belongs to the call around all of them, which is open. -/
theorem split_divides_misnested :
    let nesting := ofTokens (Token.logical (Token.scan "h(x, g(a, \x7bb, [c, d), 'e"))
    let call : Frame := { mark := '(', opener := 1, offset := 1, role := .call, outer := [] }
    let block : Frame :=
      { mark := '\x7b', opener := 8, offset := 10, role := .block, outer := [5, 1]
        closer := some 15 }
    nesting.HasFrame call ∧ nesting.HasFrame block ∧
      Divides (nesting.isCommaOf block) 9 18 [⟨9, 10⟩, ⟨11, 18⟩] ∧
      nesting.splitSigned? block 18 = some [(9, 10, "b"), (11, 18, "[c,d),'e")] ∧
      (nesting.arguments call).earlier = ["x", "g(a,\x7bb,[c,d)"] := by
  intro nesting call block
  have computed : (call ∈ nesting.frames ∧ block ∈ nesting.frames) ∧
      (Token.logical (Token.scan "h(x, g(a, \x7bb, [c, d), 'e")).length = 18 ∧
      (nesting.split block 18).all = [⟨9, 10⟩, ⟨11, 18⟩] ∧
      nesting.splitSigned? block 18 = some [(9, 10, "b"), (11, 18, "[c,d),'e")] ∧
      (nesting.split call (nesting.endOf call)).all.dropLast.map
        (fun piece => Token.argumentText (nesting.tokensOf piece)) =
          ["x", "g(a,\x7bb,[c,d)"] := by
    decide +kernel
  obtain ⟨⟨outer, inner⟩, length, pieces, texts, arguments⟩ := computed
  have divided := (split_divides _ block (.inl inner)).1 18 (by decide) length.ge
  have earlier := (split_divides _ call (.inl outer)).2 rfl
  exact ⟨.inl outer, .inl inner, pieces ▸ divided.1, texts, earlier.trans arguments⟩

end Nesting

end CursorContext
