import CursorContext.Position
import Mathlib.Data.List.TakeWhile

/-!
Positions and offsets. A line of a text is what stands between two line breaks, and the number of
line breaks before it is its number. The offset of a line and character is found by dividing the text
into lines and counting units; here it is compared with the text itself, cut at that offset. On a line
that holds a surrogate nothing can be counted, so every position there fails, while the other lines
are not affected.
-/
namespace CursorContext.Position

/-! ### Lines as parts of a text -/

/-- The text after the last line break. -/
def lastLine (cs : Document) : Document := (cs.reverse.takeWhile (· != .newline)).reverse

/-- The text up to and including the last line break. -/
def earlierLines (cs : Document) : Document := (cs.reverse.dropWhile (· != .newline)).reverse

/-- `line` is a whole line of the text that consists of `before`, itself and `after`. -/
structure IsLine (before line after : Document) : Prop where
  starts : before = [] ∨ ∃ earlier, before = earlier ++ [.newline]
  plain : CodePoint.newline ∉ line
  stops : after = [] ∨ ∃ later, after = CodePoint.newline :: later

/-- A text has a line under a number, with so much of the text before it. -/
def HasLine (text : Document) (number : Int) (start : Nat) (line : Document) : Prop :=
  ∃ before after, text = before ++ line ++ after ∧ IsLine before line after ∧
    before.count .newline = number ∧ before.length = start

/-- The line on which an offset lies. -/
def lineThrough (text : Document) (offset : Nat) : Document :=
  lastLine (text.take offset) ++ (text.drop offset).takeWhile (· != .newline)

theorem earlierLines_append_lastLine (cs : Document) : earlierLines cs ++ lastLine cs = cs := by
  rw [earlierLines, lastLine, ← List.reverse_append, List.takeWhile_append_dropWhile,
    List.reverse_reverse]

theorem newline_not_mem_lastLine (cs : Document) : CodePoint.newline ∉ lastLine cs := by
  intro member
  have taken := List.mem_takeWhile_imp (List.mem_reverse.mp member)
  simp at taken

theorem count_earlierLines (cs : Document) :
    (earlierLines cs).count .newline = cs.count .newline := by
  have none := List.count_eq_zero.mpr (newline_not_mem_lastLine cs)
  have parts := congrArg (List.count .newline) (earlierLines_append_lastLine cs)
  rw [List.count_append, none] at parts
  exact parts

/-- Wherever a text is cut, the cut goes through a line. -/
theorem isLine_at (front back : Document) :
    IsLine (earlierLines front) (lastLine front ++ back.takeWhile (· != .newline))
      (back.dropWhile (· != .newline)) := by
  refine ⟨?_, ?_, ?_⟩
  · have stops := List.head?_dropWhile_not (· != .newline) front.reverse
    rw [earlierLines]
    cases rest : front.reverse.dropWhile (· != .newline) with
    | nil => exact .inl rfl
    | cons c earlier =>
      have newline : c = .newline := by simpa [rest] using stops
      exact .inr ⟨earlier.reverse, by simp [newline]⟩
  · rw [List.mem_append, not_or]
    refine ⟨newline_not_mem_lastLine front, ?_⟩
    intro member
    have taken := List.mem_takeWhile_imp member
    simp at taken
  · have stops := List.head?_dropWhile_not (· != .newline) back
    cases rest : back.dropWhile (· != .newline) with
    | nil => exact .inl rfl
    | cons c later =>
      have newline : c = .newline := by simpa [rest] using stops
      exact .inr ⟨later, by rw [newline]⟩

theorem parts_at (cs : Document) (offset : Nat) :
    cs = earlierLines (cs.take offset) ++
      (lastLine (cs.take offset) ++ (cs.drop offset).takeWhile (· != .newline)) ++
      (cs.drop offset).dropWhile (· != .newline) := by
  rw [← List.append_assoc, earlierLines_append_lastLine, List.append_assoc,
    List.takeWhile_append_dropWhile, List.take_append_drop]

theorem exists_take_count {cs : Document} {number : Nat} (inside : number ≤ cs.count .newline) :
    ∃ offset, (cs.take offset).count .newline = number := by
  induction cs generalizing number with
  | nil =>
    have zero : number = 0 := by simpa using inside
    exact ⟨0, by simp [zero]⟩
  | cons c rest ih =>
    cases number with
    | zero => exact ⟨0, rfl⟩
    | succ number =>
      by_cases newline : c = .newline
      · subst newline
        rw [List.count_cons_self] at inside
        obtain ⟨offset, counted⟩ := ih (Nat.le_of_succ_le_succ inside)
        exact ⟨offset + 1, by simp [counted]⟩
      · rw [List.count_cons_of_ne newline] at inside
        obtain ⟨offset, counted⟩ := ih inside
        exact ⟨offset + 1, by simp [newline, counted]⟩

/-- There is a line for every number of line breaks that can come before it. -/
theorem exists_hasLine {text : Document} {number : Int}
    (inside : 0 ≤ number ∧ number ≤ text.count .newline) :
    ∃ start line, HasLine text number start line := by
  obtain ⟨offset, counted⟩ :=
    exists_take_count (show number.toNat ≤ text.count .newline by omega)
  refine ⟨_, _, _, _, parts_at text offset, isLine_at (text.take offset) (text.drop offset), ?_, rfl⟩
  rw [count_earlierLines, counted]
  omega

/-! ### Lines by number -/

theorem lineStart_divide (cs : Document) :
    lineStart (divide (· == .newline) cs) = cs.length + 1 := by
  induction cs with
  | nil => rfl
  | cons c rest ih =>
    rw [divide]
    split
    · rw [lineStart, List.foldr_cons, ← lineStart, ih]
      simp
      omega
    · -- One more character makes the first line longer and moves the end by one.
      cases pieces : divide (· == .newline) rest with
      | nil => exact absurd pieces (divide_ne_nil _ rest)
      | cons first later =>
        rw [pieces, lineStart, List.foldr_cons] at ih
        rw [List.modifyHead_cons, lineStart, List.foldr_cons, List.length_cons, List.length_cons]
        omega

theorem IsLine.head?_divide {before line after : Document} (isLine : IsLine before line after) :
    (divide (· == .newline) (line ++ after)).head? = some line := by
  have plain : ∀ c ∈ line, (c == .newline) = false := by
    intro c member
    simp only [beq_eq_false_iff_ne]
    rintro rfl
    exact isLine.plain member
  rw [divide_append_plain plain]
  rcases isLine.stops with rfl | ⟨later, rfl⟩
  · simp [divide]
  · simp [divide]

/-- A line is found under its number, and it begins where the text before it ends. -/
theorem IsLine.found {before line after : Document} (isLine : IsLine before line after)
    {text : Document} (parts : text = before ++ line ++ after) :
    (lines text)[before.count .newline]? = some line ∧
      lineStart ((lines text).take (before.count .newline)) = before.length := by
  have first := isLine.head?_divide
  rw [lines, parts, List.append_assoc]
  rcases isLine.starts with rfl | ⟨earlier, rfl⟩
  · rw [List.head?_eq_getElem?] at first
    exact ⟨by simpa using first, rfl⟩
  · -- The line break in front divides the text into the earlier lines and those from here on.
    have number : (earlier ++ [CodePoint.newline]).count .newline =
        (divide (· == .newline) earlier).length := by
      rw [length_divide, List.count_append]
      rfl
    rw [List.append_assoc, List.singleton_append, divide_append_separator (by rfl), number]
    constructor
    · rw [List.getElem?_append_right (Nat.le_refl _), Nat.sub_self, ← List.head?_eq_getElem?, first]
    · rw [List.take_left, lineStart_divide]
      simp

/-! ### Positions in a line -/

theorem column_outside_iff {line : Document} {number character : Int} :
    (∃ error, column line number character = .error (.outside error)) ↔
      character < 0 ∨ ∃ count, line.units? = some count ∧ count < character := by
  rw [column, Document.units?]
  split
  next negative => simp [negative]
  next natural =>
    cases line.chars? with
    | none => simp [natural]
    | some chars =>
      by_cases long : Text.units chars < character
      · simp [long]
      · simp [long, natural]

theorem column_unencodable_iff {line : Document} {number character : Int} :
    column line number character = .error .unencodable ↔
      0 ≤ character ∧ ∃ place, .surrogate place ∈ line := by
  rw [← Document.chars?_eq_none_iff, column]
  split
  next negative => simp [Int.not_le.mpr negative]
  next natural =>
    cases line.chars? with
    | none => simp [Int.not_lt.mp natural]
    | some chars =>
      by_cases long : Text.units chars < character
      · simp [long]
      · simp [long]

theorem column_le {line : Document} {number character : Int} {count : Nat}
    (returned : column line number character = .ok count) : count ≤ line.length := by
  rw [column] at returned
  split at returned
  next => cases returned
  next =>
    cases read : line.chars? with
    | none => simp [read] at returned
    | some chars =>
      by_cases long : Text.units chars < character
      · simp [read, long] at returned
      · have counted : Text.charsWithin character chars = count := by
          simpa [read, long] using returned
        have length := congrArg List.length (Document.chars?_eq_some_iff.mp read)
        rw [List.length_map] at length
        exact counted ▸ length ▸ Text.charsWithin_le_length character chars

/-- The units before a place in a line lead to that place. -/
theorem column_append (before after : List Char) (number : Int) :
    column ((before ++ after).map .char) number (Text.units before) = .ok before.length := by
  have fits : ¬ ((Text.units (before ++ after) : Nat) : Int) < Text.units before := by
    rw [Text.units_append]
    omega
  have natural : ¬ ((Text.units before : Nat) : Int) < 0 := by omega
  rw [column, if_neg natural, Document.chars?_eq_some_iff.mpr rfl]
  simp only [if_neg fits, Text.charsWithin_units_append]

/-! ### Offsets -/

/-- Only the line of a position and what stands before it decide about the offset. -/
theorem HasLine.offsetOf {text : Document} {number : Int} {start : Nat} {line : Document}
    (has : HasLine text number start line) (character : Int) :
    Position.offsetOf text number character = (column line number character).map (start + ·) := by
  obtain ⟨before, after, parts, isLine, rfl, rfl⟩ := has
  obtain ⟨found, begins⟩ := isLine.found parts
  have natural : ¬ ((before.count .newline : Nat) : Int) < 0 := by omega
  simp only [Position.offsetOf, if_neg natural, Int.toNat_natCast, found, begins]

theorem HasLine.offsetOf_eq_error_iff {text : Document} {number : Int} {start : Nat}
    {line : Document} (has : HasLine text number start line) {character : Int}
    {error : PositionError} :
    Position.offsetOf text number character = .error error ↔
      column line number character = .error error := by
  rw [has.offsetOf]
  cases column line number character <;> simp [Except.map]

theorem offsetOf_of_no_line {text : Document} {line : Int}
    (outside : ¬ (0 ≤ line ∧ line ≤ text.count .newline)) (character : Int) :
    offsetOf text line character = .error (.outside (.noLine line (lines text).length)) := by
  have missing : (if line < 0 then none else (lines text)[line.toNat]?) = none := by
    split
    · rfl
    · have length : (lines text).length = text.count .newline + 1 := length_divide _ _
      apply List.getElem?_eq_none
      omega
  simp only [offsetOf, missing]

theorem hasLine_lineThrough {text : Document} (offset : Nat) :
    HasLine text ((text.take offset).count .newline) (earlierLines (text.take offset)).length
      (lineThrough text offset) :=
  ⟨_, _, parts_at text offset, isLine_at (text.take offset) (text.drop offset),
    by rw [count_earlierLines], rfl⟩

/-- The position of an offset leads back to it, if its line can be encoded. -/
theorem offsetOf_take {text : Document} {offset : Nat} (inside : offset ≤ text.length)
    (encodable : ∀ place, .surrogate place ∉ lineThrough text offset) :
    ∃ count, (lastLine (text.take offset)).units? = some count ∧
      offsetOf text ((text.take offset).count .newline) count = .ok offset := by
  obtain ⟨chars, read⟩ : ∃ chars, (lineThrough text offset).chars? = some chars := by
    apply Option.ne_none_iff_exists'.mp
    intro none
    obtain ⟨place, member⟩ := Document.chars?_eq_none_iff.mp none
    exact encodable place member
  -- The cut divides the characters of the line as it divides the line.
  obtain ⟨before, after, rfl, front, -⟩ :=
    List.append_eq_map_iff.mp (Document.chars?_eq_some_iff.mp read)
  have length : (text.take offset).length = offset := by
    rw [List.length_take]
    omega
  have lengths := congrArg List.length (earlierLines_append_lastLine (text.take offset))
  rw [List.length_append, length, ← front, List.length_map] at lengths
  refine ⟨Text.units before, ?_, ?_⟩
  · rw [Document.units?, ← front, Document.chars?_eq_some_iff.mpr rfl]
    rfl
  · rw [(hasLine_lineThrough offset).offsetOf, Document.chars?_eq_some_iff.mp read, column_append]
    exact congrArg Except.ok lengths

/-- A position is out of range exactly if the text has no such line or the line, as far as its units
can be counted, is too short. -/
theorem offsetOf_outside_iff (text : Document) (line character : Int) :
    (∃ error, offsetOf text line character = .error (.outside error)) ↔
      ¬ (0 ≤ line ∧ line ≤ text.count .newline) ∨ ∃ start found, HasLine text line start found ∧
        (character < 0 ∨ ∃ count, found.units? = some count ∧ count < character) := by
  constructor
  · rintro ⟨error, refused⟩
    by_cases inside : 0 ≤ line ∧ line ≤ text.count .newline
    · obtain ⟨start, found, has⟩ := exists_hasLine inside
      have short := column_outside_iff.mp ⟨error, has.offsetOf_eq_error_iff.mp refused⟩
      exact .inr ⟨start, found, has, short⟩
    · exact .inl inside
  · rintro (outside | ⟨start, found, has, short⟩)
    · exact ⟨_, offsetOf_of_no_line outside character⟩
    · obtain ⟨error, refused⟩ := column_outside_iff.mpr short
      exact ⟨error, has.offsetOf_eq_error_iff.mpr refused⟩

/-- A position that is not out of range is in one of the lines. -/
theorem exists_hasLine_of_offsetOf {text : Document} {line character : Int}
    {result : Except PositionError Nat} (returned : offsetOf text line character = result)
    (within : ∀ error, result ≠ .error (.outside error)) :
    ∃ start found, HasLine text line start found := by
  apply exists_hasLine
  by_contra outside
  exact within _ (returned.symm.trans (offsetOf_of_no_line outside character))

/-- Where a line holds a surrogate, every character fails that is not refused for being negative. -/
theorem offsetOf_unencodable_iff (text : Document) (line character : Int) :
    offsetOf text line character = .error .unencodable ↔
      0 ≤ character ∧ ∃ start found, HasLine text line start found ∧
        ∃ place, .surrogate place ∈ found := by
  constructor
  · intro failed
    obtain ⟨start, found, has⟩ := exists_hasLine_of_offsetOf failed (by simp)
    obtain ⟨natural, holds⟩ := column_unencodable_iff.mp (has.offsetOf_eq_error_iff.mp failed)
    exact ⟨natural, start, found, has, holds⟩
  · rintro ⟨natural, start, found, has, holds⟩
    exact has.offsetOf_eq_error_iff.mpr (column_unencodable_iff.mpr ⟨natural, holds⟩)

/-- What a position leads to lies in its line. -/
theorem offsetOf_bounds {text : Document} {line character : Int} {offset : Nat}
    (returned : offsetOf text line character = .ok offset) :
    ∃ start found, HasLine text line start found ∧ start ≤ offset ∧
      offset ≤ start + found.length := by
  obtain ⟨start, found, has⟩ := exists_hasLine_of_offsetOf returned (by simp)
  refine ⟨start, found, has, ?_⟩
  rw [has.offsetOf] at returned
  cases counted : column found line character with
  | error => simp [counted, Except.map] at returned
  | ok count =>
    have total : start + count = offset := by simpa [counted, Except.map] using returned
    have short := column_le counted
    omega

theorem HasLine.length_le {text : Document} {number : Int} {start : Nat} {line : Document}
    (has : HasLine text number start line) : start + line.length ≤ text.length := by
  obtain ⟨before, after, rfl, -, -, rfl⟩ := has
  simp only [List.length_append]
  omega

/-- An offset that a position leads to is one of the document's. -/
theorem atPosition_of_offsetOf {text : Document} {line character : Int} {offset : Nat}
    (returned : offsetOf text line character = .ok offset) :
    Context.atPosition text line character = .ok (Context.ofDocument (text.take offset)) := by
  obtain ⟨start, found, has, -, last⟩ := offsetOf_bounds returned
  have most := has.length_le
  have inside : ¬ ((offset : Int) < 0 ∨ (text.length : Int) < offset) := by omega
  rw [Context.atPosition, returned]
  exact congrArg (Except.mapError PositionError.outside) (if_neg inside)

theorem atPosition_of_error {text : Document} {line character : Int} {error : PositionError}
    (failed : offsetOf text line character = .error error) :
    Context.atPosition text line character = .error error := by
  rw [Context.atPosition, failed]
  rfl

/-- Positions and offsets correspond on every line that can be encoded: the line breaks before an
offset and the units after the last of them lead back to that offset. A line and character are out of
range exactly if the text has fewer line breaks, or the character is negative or beyond the units of
the line. Where the line holds a surrogate every other character fails, since the units cannot be
counted. In all other cases there is an offset in that line, and an answer about the text up to
there. -/
theorem positions_correspond (text : Document) :
    (∀ offset ≤ text.length, (∀ place, .surrogate place ∉ lineThrough text offset) →
      ∃ count, (lastLine (text.take offset)).units? = some count ∧
        offsetOf text ((text.take offset).count .newline) count = .ok offset) ∧
    ∀ line character : Int,
      ((∃ error, offsetOf text line character = .error (.outside error)) ↔
        ¬ (0 ≤ line ∧ line ≤ text.count .newline) ∨ ∃ start found, HasLine text line start found ∧
          (character < 0 ∨ ∃ count, found.units? = some count ∧ count < character)) ∧
      (offsetOf text line character = .error .unencodable ↔
        0 ≤ character ∧ ∃ start found, HasLine text line start found ∧
          ∃ place, .surrogate place ∈ found) ∧
      ∀ offset, offsetOf text line character = .ok offset →
        (∃ start found, HasLine text line start found ∧ start ≤ offset ∧
          offset ≤ start + found.length) ∧
        Context.atPosition text line character = .ok (Context.ofDocument (text.take offset)) := by
  refine ⟨fun offset inside encodable => offsetOf_take inside encodable, ?_⟩
  intro line character
  refine ⟨offsetOf_outside_iff text line character, offsetOf_unencodable_iff text line character, ?_⟩
  intro offset returned
  exact ⟨offsetOf_bounds returned, atPosition_of_offsetOf returned⟩

/-- The first line holds a surrogate, and the second begins with a character of two units. -/
theorem position_behind_pair :
    let text := [.surrogate 0, .newline] ++ Document.ofString "😀c"
    3 ≤ text.length ∧ (∀ place, .surrogate place ∉ lineThrough text 3) ∧
      offsetOf text 1 2 = .ok 3 ∧
      Context.atPosition text 1 2 = .ok (Context.ofDocument (text.take 3)) := by
  intro text
  have inside : 3 ≤ text.length := by decide
  have line : lineThrough text 3 = .ofString "😀c" := by decide
  have encodable : ∀ place, .surrogate place ∉ lineThrough text 3 := by
    simp [line, Document.ofString]
  have row : (text.take 3).count .newline = 1 := by decide
  have column : (lastLine (text.take 3)).units? = some 2 := by decide
  obtain ⟨count, counted, returned⟩ := (positions_correspond text).1 3 inside encodable
  obtain rfl : 2 = count := Option.some.inj (column.symm.trans counted)
  rw [row] at returned
  exact ⟨inside, encodable, returned, (((positions_correspond text).2 1 2).2.2 3 returned).2⟩

/-- A text of one surrogate. The position before it is line 0, character 0, and does not lead back to
it. -/
theorem surrogate_position_fails :
    let text : Document := [.surrogate 0]
    (text.take 0).count .newline = 0 ∧ (lastLine (text.take 0)).units? = some 0 ∧
      offsetOf text 0 0 = .error .unencodable ∧
      Context.atPosition text 0 0 = .error .unencodable := by
  intro text
  have failed : offsetOf text 0 0 = .error .unencodable := by decide
  exact ⟨rfl, rfl, failed, atPosition_of_error failed⟩

end CursorContext.Position
