import CursorContext.Text.Units

/-!
Texts as they come from an editor. A text is a sequence of code points, and an editor may cut a pair
of surrogates in two and send one half. Such a text can be stored, divided into lines and read, but
it has no encoding and so no length in units.
-/
namespace CursorContext

inductive CodePoint
  | char (c : Char)
  /-- A surrogate without its partner, by its place among the surrogates. -/
  | surrogate (place : Fin 0x800)
deriving DecidableEq, Repr

namespace CodePoint

def newline : CodePoint := .char '\n'

/-- The character that is read for a code point. A surrogate is no letter, digit, blank or mark, and
neither is the replacement character, so code is read with the one as with the other; texts quoted
from it show the replacement. -/
def seen : CodePoint → Char
  | char c => c
  | surrogate _ => '\uFFFD'

end CodePoint

abbrev Document := List CodePoint

namespace Document

def ofString (text : String) : Document := text.toList.map .char

/-- The characters of a text, if an encoding has all its code points. -/
def chars? : Document → Option (List Char)
  | [] => some []
  | .char c :: rest => (chars? rest).map (c :: ·)
  | .surrogate _ :: _ => none

/-- The length of a text in units, if it has an encoding. -/
def units? (text : Document) : Option Nat := text.chars?.map Text.units

/-- The text as it is read. -/
def seen (text : Document) : String := String.ofList (text.map CodePoint.seen)

theorem chars?_eq_some_iff {text : Document} {chars : List Char} :
    text.chars? = some chars ↔ text = chars.map .char := by
  induction text generalizing chars with
  | nil => cases chars <;> simp [chars?]
  | cons point rest ih =>
    cases point with
    | surrogate => cases chars <;> simp [chars?]
    | char c =>
      rw [chars?, Option.map_eq_some_iff]
      constructor
      · rintro ⟨later, read, rfl⟩
        rw [ih.mp read]
        rfl
      · intro same
        cases chars with
        | nil => cases same
        | cons first later =>
          obtain ⟨head, tail⟩ := List.cons.inj same
          exact ⟨later, ih.mpr tail, by rw [CodePoint.char.inj head]⟩

/-- A text has no encoding exactly if it holds a surrogate. -/
theorem chars?_eq_none_iff {text : Document} :
    text.chars? = none ↔ ∃ place, .surrogate place ∈ text := by
  induction text with
  | nil => simp [chars?]
  | cons point rest ih =>
    cases point with
    | surrogate place => simp [chars?]
    | char c => simp [chars?, ih]

/-- Reading keeps every code point in its place. -/
theorem length_seen (text : Document) : text.seen.length = text.length := by
  rw [seen, String.length_ofList, List.length_map]

/-- A text without surrogates is read as it is. -/
theorem seen_ofString (text : String) : (ofString text).seen = text := by
  rw [seen, ofString, List.map_map]
  exact (congrArg String.ofList (List.map_id text.toList)).trans String.ofList_toList

end Document

end CursorContext
