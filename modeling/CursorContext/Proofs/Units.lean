import CursorContext.Text.Units
import Mathlib.Order.Bounds.Basic

/-!
Units and characters. Editors count a text in the units of its UTF-16 encoding, and a count is
turned into a number of characters by looking at each character's own number. Here the encoding is
written down. A character is as wide as its encoding is long, and the characters counted are the
longest front of the text that fits. Within the text they use up the whole count, unless it ends
between the two surrogates of a pair.
-/
namespace CursorContext.Text

/-! ### The encoding -/

/-- The units that stand for a character. Beyond the basic plane they are a pair of surrogates, each
with ten of the twenty bits left. -/
def encodeChar (c : Char) : List UInt16 :=
  if c.toNat < 0x10000 then [.ofNat c.toNat]
  else
    let bits := c.toNat - 0x10000
    [.ofNat (0xD800 + bits / 0x400), .ofNat (0xDC00 + bits % 0x400)]

def encode (text : List Char) : List UInt16 := text.flatMap encodeChar

/-- The two bytes of a unit, the lower one first. -/
def bytesOf (unit : UInt16) : List UInt8 := [unit.toUInt8, (unit >>> 8).toUInt8]

def bytes (text : List Char) : List UInt8 := (encode text).flatMap bytesOf

/-- The first half of a pair. -/
def isLeading (unit : UInt16) : Bool := 0xD800 ≤ unit.toNat ∧ unit.toNat < 0xDC00

/-- The second half of a pair. -/
def isTrailing (unit : UInt16) : Bool := 0xDC00 ≤ unit.toNat ∧ unit.toNat < 0xE000

/-- That many units end between the two halves of a pair. -/
def insidePair (text : List Char) : Nat → Bool
  | 0 => false
  | count + 1 => (encode text)[count]?.any isLeading && (encode text)[count + 1]?.any isTrailing

/-- A character is one unit or a pair. Since no character is a surrogate itself, only a pair has a
second half. -/
theorem encodeChar_cases (c : Char) :
    (unitsOf c = 1 ∧ ∃ unit, encodeChar c = [unit] ∧ isTrailing unit = false) ∨
    (unitsOf c = 2 ∧ ∃ leading trailing, encodeChar c = [leading, trailing] ∧
      isLeading leading = true ∧ isTrailing leading = false ∧ isTrailing trailing = true) := by
  have valid : c.toNat < 0xD800 ∨ 0xDFFF < c.toNat ∧ c.toNat < 0x110000 := c.valid
  -- Sixteen bits hold the number itself, and each half of a pair is below `0xE000`.
  by_cases basic : c.toNat < 0x10000
  · refine .inl ⟨if_pos (by omega), _, if_pos basic, ?_⟩
    simp only [isTrailing, UInt16.toNat_ofNat', decide_eq_false_iff_not]
    omega
  · refine .inr ⟨if_neg (by omega), _, _, if_neg basic, ?_⟩
    simp only [isLeading, isTrailing, UInt16.toNat_ofNat', decide_eq_false_iff_not,
      decide_eq_true_iff]
    omega

theorem encode_cons (c : Char) (rest : List Char) :
    encode (c :: rest) = encodeChar c ++ encode rest :=
  List.flatMap_cons

theorem encode_append (before after : List Char) :
    encode (before ++ after) = encode before ++ encode after :=
  List.flatMap_append

/-- The width of a character is the number of units that stand for it. -/
theorem length_encodeChar (c : Char) : (encodeChar c).length = unitsOf c := by
  rcases encodeChar_cases c with ⟨width, unit, encoded, -⟩ | ⟨width, leading, trailing, encoded, -⟩
  · rw [encoded, width]
    rfl
  · rw [encoded, width]
    rfl

theorem length_encode (text : List Char) : (encode text).length = units text := by
  induction text with
  | nil => rfl
  | cons c rest ih => rw [encode_cons, List.length_append, length_encodeChar, ih, units]

theorem length_flatMap_bytesOf (encoded : List UInt16) :
    (encoded.flatMap bytesOf).length = 2 * encoded.length := by
  induction encoded with
  | nil => rfl
  | cons unit rest ih =>
    have two : (bytesOf unit).length = 2 := rfl
    rw [List.flatMap_cons, List.length_append, two, ih, List.length_cons]
    omega

/-- Two bytes make a unit. -/
theorem units_eq_length_bytes (text : List Char) : units text = (bytes text).length / 2 := by
  rw [bytes, length_flatMap_bytesOf, length_encode]
  omega

example : bytes "é😀".toList = [0xE9, 0x00, 0x3D, 0xD8, 0x00, 0xDE] := by decide

/-! ### The characters that fit -/

theorem charsWithin_of_neg {count : Int} (negative : count < 0) (text : List Char) :
    charsWithin count text = 0 := by
  cases text with
  | nil => rfl
  | cons c rest => exact if_pos (by omega)

/-- A front is counted exactly if it fits. -/
theorem le_charsWithin_iff {count : Int} (natural : 0 ≤ count) {text : List Char} {i : Nat}
    (inside : i ≤ text.length) :
    i ≤ charsWithin count text ↔ (units (text.take i) : Int) ≤ count := by
  -- One character uses up its width of the count and is the first of the front.
  induction text generalizing count i with
  | nil =>
    have none : i = 0 := Nat.le_zero.mp inside
    simp [none, units, natural]
  | cons c rest ih =>
    cases i with
    | zero => simp [units, natural]
    | succ i =>
      have shorter : i ≤ rest.length := Nat.le_of_succ_le_succ inside
      rw [charsWithin, List.take_succ_cons, units]
      split
      · omega
      · have later := ih (show 0 ≤ count - unitsOf c by omega) shorter
        omega

theorem charsWithin_isGreatest {count : Int} (natural : 0 ≤ count) (text : List Char) :
    IsGreatest {i | i ≤ text.length ∧ (units (text.take i) : Int) ≤ count}
      (charsWithin count text) := by
  have inside := charsWithin_le_length count text
  refine ⟨⟨inside, (le_charsWithin_iff natural inside).mp (Nat.le_refl _)⟩, ?_⟩
  rintro i ⟨short, fits⟩
  exact (le_charsWithin_iff natural short).mpr fits

theorem charsWithin_le_charsWithin {fewer more : Int} (le : fewer ≤ more) (text : List Char) :
    charsWithin fewer text ≤ charsWithin more text := by
  by_cases natural : 0 ≤ fewer
  · -- What fits into fewer units is among what fits into more.
    obtain ⟨inside, fits⟩ := (charsWithin_isGreatest natural text).1
    exact (charsWithin_isGreatest (Int.le_trans natural le) text).2 ⟨inside, Int.le_trans fits le⟩
  · rw [charsWithin_of_neg (Int.not_le.mp natural)]
    exact Nat.zero_le _

/-- A count that the text does not use up covers all of it. -/
theorem charsWithin_of_units_le {count : Int} {text : List Char} (enough : units text ≤ count) :
    charsWithin count text = text.length := by
  refine Nat.le_antisymm (charsWithin_le_length count text) ?_
  apply (le_charsWithin_iff (by omega) (Nat.le_refl _)).mpr
  rw [List.take_length]
  exact enough

/-! ### Pairs of surrogates -/

theorem insidePair_eq_false {text : List Char} {count : Nat}
    (next : (encode text)[count]?.any isTrailing = false) : insidePair text count = false := by
  cases count with
  | zero => rfl
  | succ count => rw [insidePair, next, Bool.and_false]

/-- Where a character ends, no pair is divided. -/
theorem insidePair_append (before after : List Char) :
    insidePair (before ++ after) (units before) = false := by
  apply insidePair_eq_false
  rw [encode_append, ← length_encode, List.getElem?_append_right (Nat.le_refl _), Nat.sub_self]
  -- The next unit, if there is one, is the first of a character and so no second half.
  cases after with
  | nil => rfl
  | cons c rest =>
    rw [encode_cons]
    rcases encodeChar_cases c with
      ⟨-, unit, encoded, single⟩ | ⟨-, leading, trailing, encoded, -, first, -⟩
    · rw [encoded]
      exact single
    · rw [encoded]
      exact first

theorem insidePair_of_units_lt {text : List Char} {count : Nat} (beyond : units text < count) :
    insidePair text count = false := by
  apply insidePair_eq_false
  rw [List.getElem?_eq_none (by rw [length_encode]; omega)]
  rfl

theorem insidePair_of_wide {c : Char} (wide : unitsOf c = 2) (before after : List Char) :
    insidePair (before ++ c :: after) (units before + 1) = true := by
  rcases encodeChar_cases c with ⟨narrow, -⟩ | ⟨-, leading, trailing, encoded, first, -, second⟩
  · omega
  · rw [insidePair, encode_append, encode_cons, encoded, ← length_encode,
      List.getElem?_append_right (Nat.le_refl _), List.getElem?_append_right (Nat.le_add_right _ 1),
      Nat.sub_self, Nat.add_sub_cancel_left, Bool.and_eq_true]
    exact ⟨first, second⟩

/-- What is counted ends where the units do, at the end of the text, or in front of a pair with one
unit left. -/
theorem charsWithin_stops (count : Nat) (text : List Char) :
    ∃ before after, text = before ++ after ∧ text.take (charsWithin count text) = before ∧
      (units before = count ∨ (after = [] ∧ units before < count) ∨
        ∃ c rest, after = c :: rest ∧ unitsOf c = 2 ∧ units before + 1 = count) := by
  have natural : 0 ≤ (count : Int) := Int.natCast_nonneg count
  obtain ⟨inside, fits⟩ := (charsWithin_isGreatest natural text).1
  refine ⟨_, text.drop (charsWithin count text), (List.take_append_drop _ text).symm, rfl, ?_⟩
  cases left : text.drop (charsWithin count text) with
  | nil =>
    rcases Nat.eq_or_lt_of_le (Int.ofNat_le.mp fits) with used | spare
    · exact .inl used
    · exact .inr (.inl ⟨rfl, spare⟩)
  | cons c rest =>
    -- The next character does not fit, so it is wider than what is left.
    have further : charsWithin count text + 1 ≤ text.length := by
      have short := congrArg List.length left
      rw [List.length_drop, List.length_cons] at short
      omega
    have longer : text.take (charsWithin count text + 1) =
        text.take (charsWithin count text) ++ [c] := by
      rw [List.take_add, left]
      rfl
    have wider := (le_charsWithin_iff natural further).not.mp (Nat.not_succ_le_self _)
    rw [longer, units_append] at wider
    have width : units [c] = unitsOf c := rfl
    rcases encodeChar_cases c with ⟨narrow, -⟩ | ⟨wide, -⟩
    · omega
    · by_cases used : units (text.take (charsWithin count text)) = count
      · exact .inl used
      · exact .inr (.inr ⟨c, rest, rfl, wide, by omega⟩)

/-- The characters counted are encoded as the units asked for, up to the start of a pair if these
end inside it. -/
theorem encode_take_charsWithin (count : Nat) (text : List Char) :
    encode (text.take (charsWithin count text)) =
      (encode text).take (if insidePair text count then count - 1 else count) := by
  obtain ⟨before, after, parts, taken, stop⟩ := charsWithin_stops count text
  rw [taken]
  subst parts
  rcases stop with used | ⟨rfl, spare⟩ | ⟨c, rest, rfl, wide, half⟩
  · rw [← used, insidePair_append, if_neg Bool.false_ne_true, encode_append, ← length_encode,
      List.take_left]
  · rw [List.append_nil, insidePair_of_units_lt spare, if_neg Bool.false_ne_true,
      List.take_of_length_le (by rw [length_encode]; omega)]
  · rw [← half, insidePair_of_wide wide, if_pos rfl, Nat.add_sub_cancel, encode_append,
      ← length_encode, List.take_left]

/-- A count of units is rounded down to characters. A text has one unit for every two bytes of its
encoding. For a count that is not negative the answer is the length of the longest front of the text
that fits, for a negative one it is zero, and for all the units or more it is the whole text. It
never falls when the count grows. A count that ends inside a pair of surrogates leads to the start
of that pair, and any other to exactly the units it names. -/
theorem charsWithin_rounds_down (text : List Char) :
    units text = (bytes text).length / 2 ∧
    (∀ count : Int, 0 ≤ count →
      IsGreatest {i | i ≤ text.length ∧ (units (text.take i) : Int) ≤ count}
        (charsWithin count text)) ∧
    (∀ count : Int, count < 0 → charsWithin count text = 0) ∧
    (∀ fewer more : Int, fewer ≤ more → charsWithin fewer text ≤ charsWithin more text) ∧
    (∀ count : Nat, encode (text.take (charsWithin count text)) =
      (encode text).take (if insidePair text count then count - 1 else count)) ∧
    ∀ count : Int, units text ≤ count → charsWithin count text = text.length := by
  refine ⟨units_eq_length_bytes text, ?_, ?_, ?_, ?_, ?_⟩
  · intro count natural
    exact charsWithin_isGreatest natural text
  · intro count negative
    exact charsWithin_of_neg negative text
  · intro fewer more le
    exact charsWithin_le_charsWithin le text
  · intro count
    exact encode_take_charsWithin count text
  · intro count enough
    exact charsWithin_of_units_le enough

/-- The sixth unit is the first half of a pair. -/
theorem charsWithin_around_pair :
    let text := "$a = 😀; foo('".toList
    insidePair text 6 = true ∧ encode (text.take (charsWithin 6 text)) = (encode text).take 5 ∧
      IsGreatest {i | i ≤ text.length ∧ (units (text.take i) : Int) ≤ 6} (charsWithin 6 text) ∧
      charsWithin 6 text ≤ charsWithin 7 text ∧ charsWithin (-1) text = 0 ∧
      units text ≤ 14 ∧ charsWithin 14 text = text.length := by
  intro text
  obtain ⟨-, greatest, negative, monotone, encoded, whole⟩ := charsWithin_rounds_down text
  have pair : insidePair text 6 = true := by decide
  have enough : units text ≤ 14 := by decide
  have rounded := encoded 6
  rw [pair, if_pos rfl] at rounded
  exact ⟨pair, rounded, greatest 6 (by decide), monotone 6 7 (by decide),
    negative (-1) (by decide), enough, whole 14 (Int.ofNat_le.mpr enough)⟩

end CursorContext.Text
