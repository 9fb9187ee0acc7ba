import CursorContext.Definition
import Mathlib.Data.List.DropRight

/-!
Qualified names put together from parts. Separators at the ends of a part make no difference, and the
last part is found again as the last segment.
-/
namespace CursorContext

namespace Text

/-! ### Small letters -/

/-- A character that is its own small letter stays. -/
theorem mem_lowerFrom {c : Char} (ascii : c.toNat < 128) (small : c.toLower = c)
    (before : List Char) {cs : List Char} (member : c ∈ cs) : c ∈ lowerFrom before cs := by
  induction cs generalizing before with
  | nil => cases member
  | cons d rest ih =>
    rw [lowerFrom, List.mem_append]
    rcases List.mem_cons.mp member with rfl | later
    · left
      simp [smallForm, ascii, small]
    · exact .inr (ih _ later)

/-- A text with such a character in it is no way to write a word without it. -/
theorem lower_ne {c : Char} (ascii : c.toNat < 128) (small : c.toLower = c) {text word : String}
    (member : c ∈ text.toList) (absent : c ∉ word.toList) : lower text ≠ word := by
  rintro rfl
  rw [lower, String.toList_ofList] at absent
  exact absent (mem_lowerFrom ascii small [] member)

/-! ### Trimming -/

variable {p : Char → Bool}

theorem trimList_dropWhile_append (xs ys : List Char) :
    trimList p (xs.dropWhile p ++ ys) = trimList p (xs ++ ys) := by
  have front : (xs.dropWhile p ++ ys).dropWhile p = (xs ++ ys).dropWhile p := by
    rw [List.dropWhile_append, List.dropWhile_append, List.dropWhile_idempotent]
  rw [trimList, trimList, front]

theorem rdropWhile_append_all {xs ys : List Char} (all : ∀ c ∈ ys, p c = true) :
    (xs ++ ys).rdropWhile p = xs.rdropWhile p := by
  rw [List.rdropWhile, List.reverse_append, List.dropWhile_append_of_pos (by simpa using all)]
  rfl

theorem trimList_append_rdropWhile (xs ys : List Char) :
    trimList p (xs ++ ys.rdropWhile p) = trimList p (xs ++ ys) := by
  have tail : ∀ c ∈ ys.rtakeWhile p, p c = true := fun _ => List.mem_rtakeWhile_imp
  have whole : xs ++ ys = xs ++ ys.rdropWhile p ++ ys.rtakeWhile p := by
    rw [List.append_assoc, List.rdropWhile_append_rtakeWhile]
  rw [whole]
  generalize xs ++ ys.rdropWhile p = front
  change (front.dropWhile p).rdropWhile p = ((front ++ ys.rtakeWhile p).dropWhile p).rdropWhile p
  rw [List.dropWhile_append]
  split
  next none => rw [List.isEmpty_iff.mp none, List.dropWhile_eq_nil_iff.mpr tail]
  · rw [rdropWhile_append_all tail]

theorem trimList_of_head {cs : List Char} (begins : ∀ c ∈ cs.head?, p c = false) :
    trimList p cs = cs.rdropWhile p := by
  cases cs with
  | nil => rfl
  | cons c rest =>
    have same : (c :: rest).dropWhile p = c :: rest :=
      List.dropWhile_cons_of_neg (by simp [begins c rfl])
    rw [trimList, same]
    rfl

theorem trimList_of_last {cs : List Char} (ends : ∀ c ∈ cs.getLast?, p c = false) :
    trimList p cs = cs.dropWhile p := by
  refine List.rdropWhile_eq_self_iff.mpr fun some => ?_
  have last : (cs.dropWhile p).getLast? = cs.getLast? := by
    conv_rhs => rw [← List.takeWhile_append_dropWhile (p := p) (l := cs)]
    rw [List.getLast?_append, List.getLast?_eq_some_getLast some]
    rfl
  rw [List.getLast?_eq_some_getLast some] at last
  simp [ends _ last.symm]

/-- A character that is not cut off is left. -/
theorem trimList_ne_nil {c : Char} {cs : List Char} (member : c ∈ cs) (kept : p c = false) :
    trimList p cs ≠ [] := by
  intro empty
  have rest : ∀ d ∈ cs.dropWhile p, p d = true := List.rdropWhile_eq_nil_iff.mp empty
  have nothing : cs.dropWhile p = [] := by
    rw [← List.dropWhile_idempotent]
    exact List.dropWhile_eq_nil_iff.mpr rest
  have cut := List.dropWhile_eq_nil_iff.mp nothing c member
  rw [kept] at cut
  cases cut

/-- Two names joined by a separator may be trimmed before they are joined. -/
theorem trimList_join {c : Char} (separates : p c = true) {front name : List Char}
    (ends : ∀ d ∈ front.getLast?, p d = false) (begins : ∀ d ∈ name.head?, p d = false) :
    trimList p (trimList p (front ++ [c]) ++ c :: trimList p name) =
      trimList p (front ++ c :: name) := by
  have first : trimList p (front ++ [c]) = front.dropWhile p := by
    have cut : [c].rdropWhile p = [] := by simp [List.rdropWhile_singleton, separates]
    rw [← trimList_append_rdropWhile, cut, List.append_nil, trimList_of_last ends]
  have last := trimList_append_rdropWhile (p := p) (front ++ [c]) name
  rw [List.append_assoc, List.append_assoc] at last
  rw [first, trimList_of_head begins, trimList_dropWhile_append]
  exact last

end Text

/-! ### Names -/

namespace Name

/-- The name `name` in the namespace `space`. -/
def within (space name : String) : String := space ++ "\\" ++ name

theorem toList_within (space name : String) :
    (within space name).toList = space.toList ++ '\\' :: name.toList := by
  simp [within]

theorem isSeparator_eq_false {c : Char} (other : c ≠ '\\') : isSeparator c = false := by
  simp [isSeparator, other]

theorem isSeparator_of_mem {word : String} (plain : '\\' ∉ word.toList) :
    ∀ c ∈ word.toList, isSeparator c = false := by
  intro c member
  apply isSeparator_eq_false
  rintro rfl
  exact plain member

theorem isSeparator_head {name : String} (begins : name.toList.head? ≠ some '\\') :
    ∀ c ∈ name.toList.head?, isSeparator c = false := by
  intro c first
  apply isSeparator_eq_false
  rintro rfl
  exact begins first

/-- Separators where the two parts meet are those of neither. -/
theorem trim_within {space name : String} (ends : space.toList.getLast? ≠ some '\\')
    (begins : name.toList.head? ≠ some '\\') :
    trim (within (trim (space ++ "\\")) (trim name)) = trim (within space name) := by
  have ends' : ∀ c ∈ space.toList.getLast?, isSeparator c = false := by
    intro c last
    apply isSeparator_eq_false
    rintro rfl
    exact ends last
  have joined := Text.trimList_join (show isSeparator '\\' = true from rfl) ends'
    (isSeparator_head begins)
  simp only [trim, toList_within, String.toList_append, String.toList_ofList]
  exact congrArg String.ofList joined

/-- A name of one segment is the last segment of every name that ends with it. -/
theorem lastSegment_trim_within (space : String) {name : String} (plain : '\\' ∉ name.toList)
    (some : name ≠ "") : lastSegment (trim (within space name)) = name := by
  have other := isSeparator_of_mem plain
  have taken : name.toList.reverse.takeWhile (!isSeparator ·) = name.toList.reverse := by
    apply List.takeWhile_eq_self_iff.mpr
    simpa using other
  have kept : trim (within space name) =
      String.ofList ((space.toList ++ '\\' :: name.toList).dropWhile isSeparator) := by
    rw [trim, toList_within, Text.trimList_of_last]
    intro c last
    rw [List.getLast?_append, List.getLast?_cons] at last
    obtain ⟨front, d, ends⟩ := List.eq_nil_or_concat name.toList |>.resolve_left (by simpa using some)
    simp [ends] at last
    exact other c (by simp [ends, last])
  rw [lastSegment, kept, String.toList_ofList, List.dropWhile_append]
  split
  next nothing =>
    have head : name.toList.dropWhile isSeparator = name.toList := by
      apply List.dropWhile_eq_self_iff.mpr
      intro _
      simp [other]
    rw [List.dropWhile_cons_of_pos rfl, head, taken]
    simp
  next front =>
    rw [List.reverse_append, List.reverse_cons, List.append_assoc,
      List.takeWhile_append_of_pos (by simpa using other)]
    simp [isSeparator]

/-! Something is left of a name that does not begin with a backslash. -/

theorem rdropWhile_ne_nil {name : String} (written : name ≠ "")
    (plain : name.toList.head? ≠ some '\\') : name.toList.rdropWhile isSeparator ≠ [] := by
  intro empty
  rw [List.rdropWhile_eq_nil_iff] at empty
  cases cs : name.toList with
  | nil => exact written (String.toList_eq_nil_iff.mp cs)
  | cons c rest =>
    have separates := empty c (by simp [cs])
    rw [cs, List.head?_cons] at plain
    exact plain (by simpa [isSeparator] using separates)

theorem trimEnd_ne_empty {name : String} (written : name ≠ "")
    (plain : name.toList.head? ≠ some '\\') : trimEnd name ≠ "" := by
  have left := rdropWhile_ne_nil written plain
  rw [List.rdropWhile] at left
  simpa [trimEnd] using left

theorem trim_ne_empty {name : String} (written : name ≠ "")
    (plain : name.toList.head? ≠ some '\\') : trim name ≠ "" := by
  have left := rdropWhile_ne_nil written plain
  rw [← Text.trimList_of_head (isSeparator_head plain)] at left
  simpa [trim] using left

/-! ### Segments -/

theorem trimEnd_eq_self {name : String} (ends : name.toList.getLast? ≠ some '\\') :
    trimEnd name = name := by
  have kept : name.toList.rdropWhile isSeparator = name.toList := by
    rw [List.rdropWhile_eq_self_iff]
    intro written separates
    rw [List.getLast?_eq_some_getLast written] at ends
    exact ends (congrArg some (eq_of_beq separates))
  rw [List.rdropWhile] at kept
  rw [trimEnd, kept, String.ofList_toList]

theorem segments_word {word : String} (plain : '\\' ∉ word.toList) :
    firstSegment word = word ∧ afterFirst word = "" := by
  have all : ∀ c ∈ word.toList, (!isSeparator c) = true := by
    simpa using isSeparator_of_mem plain
  have none : word.toList.dropWhile (!isSeparator ·) = [] := List.dropWhile_eq_nil_iff.mpr all
  rw [firstSegment, afterFirst, List.takeWhile_eq_self_iff.mpr all, none, String.ofList_toList]
  exact ⟨rfl, rfl⟩

theorem segments_within {word : String} (plain : '\\' ∉ word.toList) (rest : String) :
    firstSegment (within word rest) = word ∧ afterFirst (within word rest) = "\\" ++ rest := by
  have all : ∀ c ∈ word.toList, (!isSeparator c) = true := by
    simpa using isSeparator_of_mem plain
  have stops : (!isSeparator '\\') = false := rfl
  rw [firstSegment, afterFirst, toList_within, List.takeWhile_append_of_pos all,
    List.dropWhile_append_of_pos all, List.takeWhile_cons_of_neg (by simp [stops]),
    List.dropWhile_cons_of_neg (by simp [stops]), List.append_nil, String.ofList_toList]
  refine ⟨rfl, String.toList_inj.mp ?_⟩
  simp

end Name

/-! ### Declared names -/

/-- The short name under which a name is imported, unless nothing is left of the name. -/
def Imports.shortOf (name : String) (short : Option String) : Option String :=
  (Name.nonEmpty? (Name.trim name)).map fun full =>
    (short.bind Name.nonEmpty?).getD (Name.lastSegment full)

theorem Imports.declare_congr {name other : String} (same : Name.trim name = Name.trim other)
    (imports : Imports) (short : Option String) :
    imports.declare name short = imports.declare other short := by
  unfold declare
  rw [same]

theorem Imports.getElem?_declare (imports : Imports) (name : String) (short : Option String)
    (key : String) :
    (imports.declare name short)[key]? =
      if shortOf name short = some key then some (Name.trim name) else imports[key]? := by
  unfold declare shortOf Name.nonEmpty?
  split
  next nothing =>
    split at nothing
    next empty => simp [empty]
    · cases nothing
  next full found =>
    split at found
    · cases found
    next some =>
      cases found
      rw [Std.TreeMap.getElem?_insert]
      simp [some]

/-- A name of one segment is imported under itself. -/
theorem Imports.shortOf_within (space : String) {name : String} (plain : '\\' ∉ name.toList)
    (some : name ≠ "") : shortOf (Name.within space name) none = Option.some name := by
  have last := Name.lastSegment_trim_within space plain some
  have full : Name.trim (Name.within space name) ≠ "" := by
    intro empty
    rw [empty] at last
    exact some last.symm
  simp [shortOf, Name.nonEmpty?, full, last]

end CursorContext
