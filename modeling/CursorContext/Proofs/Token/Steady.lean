import CursorContext.Token.Lexeme

/-!
How long a lexeme is when other text follows it. A word or a number that has stopped before a place
still stops there if a blank or a quote comes next, since neither goes on with one; a comment or a
literal that has found its end before the place keeps it, whatever comes next.
-/
namespace CursorContext

namespace Lexeme

open Text

/-! ### Blanks and quotes -/

/-- The blanks by their code points. -/
def blankCodes : List Nat :=
  List.range' 9 5 ++ List.range' 28 5 ++
    blankRanges.flatMap fun range => List.range' range.1 (range.2 + 1 - range.1)

/-- The blanks and the quotes. No word, number or operator goes on with one of them. -/
def breaks : List Char := blankCodes.map Char.ofNat ++ Token.quotes

theorem mem_breaks_of_isBlank {c : Char} (blank : isBlank c = true) : c ∈ breaks := by
  have code : c.toNat ∈ blankCodes := by
    simp only [blankCodes, List.mem_append, List.mem_range'_1, List.mem_flatMap]
    unfold isBlank at blank
    dsimp only at blank
    split at blank
    · simp only [Bool.or_eq_true, Bool.and_eq_true, decide_eq_true_eq] at blank
      omega
    · obtain ⟨range, member, inside⟩ := List.any_eq_true.mp blank
      simp only [Bool.and_eq_true, decide_eq_true_eq] at inside
      exact .inr ⟨range, member, by omega⟩
  exact List.mem_append_left _ (List.mem_map.mpr ⟨c.toNat, code, Char.ofNat_toNat c⟩)

theorem mem_breaks_of_quote {c : Char} (quote : c ∈ Token.quotes) : c ∈ breaks :=
  List.mem_append_right _ quote

theorem eq_false_of_mem_breaks {q : Char → Bool} (none : breaks.any q = false) (s : Char)
    (isBreak : s ∈ breaks) : q s = false := by
  rw [List.any_eq_false] at none
  exact Bool.eq_false_iff.mpr (none s isBreak)

theorem isWord_of_mem_breaks : ∀ s ∈ breaks, isWord s = false :=
  eq_false_of_mem_breaks (by decide +kernel)

theorem ne_of_mem_breaks {s d : Char} (isBreak : s ∈ breaks) (other : d ∉ breaks) : s ≠ d := by
  rintro rfl
  exact other isBreak

theorem isNameStart_of_mem_breaks {s : Char} (isBreak : s ∈ breaks) : isNameStart s = false :=
  (Bool.or_eq_false_iff.mp (isWord_of_mem_breaks s isBreak)).1

theorem isDigit_of_mem_breaks (s : Char) (isBreak : s ∈ breaks) : isDigit s = false :=
  (Bool.or_eq_false_iff.mp (isWord_of_mem_breaks s isBreak)).2

theorem isDecimalDigit_of_mem_breaks (s : Char) (isBreak : s ∈ breaks) :
    isDecimalDigit s = false := by
  have line : s ≠ '_' := ne_of_mem_breaks isBreak (by decide)
  simp [isDecimalDigit, isDigit_of_mem_breaks s isBreak, line]

/-! ### Lengths that a break does not change -/

/-- A length that stays when a break is put behind the characters it does not go beyond, whatever
follows the break. -/
def Steady (length : List Char → Nat) : Prop :=
  ∀ s ∈ breaks, ∀ p b x, length (p ++ b) ≤ p.length → length (p ++ s :: x) = length (p ++ b)

/-- A run that passes over all of `p` goes on behind it. -/
theorem run_append (q : Char → Bool) (p x : List Char) :
    run q (p ++ x) = if run q p = p.length then p.length + run q x else run q p := by
  rw [run, List.takeWhile_append]
  split
  next passes => rw [run, if_pos passes, List.length_append, run]
  next stops => rw [run, if_neg stops]

theorem run_append_of_lt {q : Char → Bool} {p : List Char} (stops : run q p < p.length)
    (x : List Char) : run q (p ++ x) = run q p := by
  rw [run_append, if_neg (Nat.ne_of_lt stops)]

theorem run_of_within {q : Char → Bool} {p b : List Char} (within : run q (p ++ b) ≤ p.length) :
    run q (p ++ b) = run q p := by
  rw [run_append] at within ⊢
  split at within
  next passes =>
    rw [if_pos passes]
    omega
  next stops => rw [if_neg stops]

theorem steady_run {q : Char → Bool} (stops : ∀ s ∈ breaks, q s = false) : Steady (run q) := by
  intro s isBreak p b x within
  have none : run q (s :: x) = 0 := by simp [run, stops s isBreak]
  rw [run_of_within within, run_append, none]
  split
  next passes => exact passes.symm
  next => rfl

/-- One length after another. -/
theorem Steady.seq {f g : List Char → Nat} (first : Steady f) (second : Steady g) :
    Steady fun cs => f cs + g (cs.drop (f cs)) := by
  intro s isBreak p b x within
  dsimp only at within ⊢
  have bound : f (p ++ b) ≤ p.length := by omega
  rw [first s isBreak p b x bound, List.drop_append_of_le_length bound,
    List.drop_append_of_le_length bound]
  rw [List.drop_append_of_le_length bound] at within
  rw [second s isBreak (p.drop (f (p ++ b))) b x (by rw [List.length_drop]; omega)]

/-! ### Numbers -/

theorem steady_fraction : Steady fractionLength := by
  intro s isBreak p b x within
  cases p with
  | nil =>
    have none : fractionLength b = 0 := Nat.le_zero.mp within
    have point : s ≠ '.' := ne_of_mem_breaks isBreak (by decide)
    rw [List.nil_append, List.nil_append, none]
    simp [fractionLength, point]
  | cons d p =>
    simp only [List.cons_append, fractionLength, List.length_cons] at within ⊢
    split at within
    next point =>
      rw [if_pos point, if_pos point,
        steady_run isDecimalDigit_of_mem_breaks s isBreak p b x (by omega)]
    next plain => rw [if_neg plain, if_neg plain]

theorem steady_radix {letters : List Char} {q : Char → Bool}
    (plain : ∀ s ∈ breaks, letters.contains s = false)
    (stops : ∀ s ∈ breaks, q s = false) : Steady (radixLength letters q) := by
  intro s isBreak p b x within
  cases p with
  | nil =>
    have none : radixLength letters q b = 0 := Nat.le_zero.mp within
    rw [List.nil_append, List.nil_append, none]
    rw [radixLength, plain s isBreak]
    rfl
  | cons d p =>
    simp only [List.cons_append, radixLength, List.length_cons] at within ⊢
    cases letter : letters.contains d with
    | false => rfl
    | true =>
      -- Digits that go beyond the place would count.
      rw [letter] at within
      rw [steady_run stops s isBreak p b x]
      by_cases none : run q (p ++ b) = 0
      · omega
      · rw [Bool.true_and, if_pos (by simpa using none)] at within
        omega

theorem steady_exponent : Steady exponentLength := by
  intro s isBreak p b x within
  have letter : (s == 'e' || s == 'E') = false := by
    simp [ne_of_mem_breaks isBreak (by decide : 'e' ∉ breaks),
      ne_of_mem_breaks isBreak (by decide : 'E' ∉ breaks)]
  have unsigned : (s == '+' || s == '-') = false := by
    simp [ne_of_mem_breaks isBreak (by decide : '+' ∉ breaks),
      ne_of_mem_breaks isBreak (by decide : '-' ∉ breaks)]
  rcases p with _ | ⟨d, _ | ⟨e, p⟩⟩
  · have none : exponentLength b = 0 := Nat.le_zero.mp within
    rw [List.nil_append, List.nil_append, none]
    simp [exponentLength, letter]
  · -- The digits would have to stand behind the break.
    have after : exponentLength (d :: s :: x) = 0 := by
      have digits : run isDigit (s :: x) = 0 := by
        simp [run, isDigit_of_mem_breaks s isBreak]
      simp [exponentLength, unsigned, digits]
    rw [List.singleton_append] at within
    rw [List.singleton_append, List.singleton_append, after]
    unfold exponentLength at within ⊢
    dsimp only at within ⊢
    split at within
    next exponent =>
      simp only [List.length_cons, List.length_nil] at within
      have digits := (Bool.and_eq_true_iff.mp exponent).2
      have none : run isDigit (b.drop ((b.take 1).filter fun c => c == '+' || c == '-').length) = 0 := by
        omega
      simp [none] at digits
    next plain => rw [if_neg plain]
  · have read (y : List Char) : exponentLength (d :: e :: p ++ y) =
        if (d == 'e' || d == 'E') && run isDigit ((e :: p ++ y).drop
            ([e].filter fun c => c == '+' || c == '-').length) != 0 then
          1 + ([e].filter fun c => c == '+' || c == '-').length + run isDigit ((e :: p ++ y).drop
            ([e].filter fun c => c == '+' || c == '-').length)
        else 0 := rfl
    have bound := List.length_filter_le (fun c => c == '+' || c == '-') [e]
    rw [read] at within
    rw [read, read]
    generalize ([e].filter fun c => c == '+' || c == '-').length = sign at bound within ⊢
    have fits : sign ≤ (e :: p).length := by simp at bound ⊢; omega
    rw [List.drop_append_of_le_length fits] at within
    rw [List.drop_append_of_le_length fits, List.drop_append_of_le_length fits]
    cases exponent : (d == 'e' || d == 'E') with
    | false => rfl
    | true =>
      rw [exponent] at within
      rw [steady_run isDigit_of_mem_breaks s isBreak _ b x]
      by_cases none : run isDigit ((e :: p).drop sign ++ b) = 0
      · omega
      · rw [Bool.true_and, if_pos (by simpa using none)] at within
        simp only [List.length_drop, List.length_cons] at within ⊢
        omega

theorem steady_decimal : Steady decimalLength :=
  ((steady_run isDecimalDigit_of_mem_breaks).seq steady_fraction).seq steady_exponent

/-! ### Names -/

theorem startsName_append {p : List Char} (some : p ≠ []) (x y : List Char) :
    startsName (p ++ x) = startsName (p ++ y) := by
  cases p with
  | nil => exact absurd rfl some
  | cons c p => rfl

theorem isWord_of_isNameStart {c : Char} (start : isNameStart c = true) : isWord c = true := by
  simp [isWord, start]

theorem nameLength_pos {cs : List Char} (start : startsName cs = true) : 0 < nameLength cs := by
  cases cs with
  | nil => cases start
  | cons c rest => simp [nameLength, isWord_of_isNameStart start]

theorem steady_name : Steady nameLength := by
  intro s isBreak p b x within
  induction p with
  | nil =>
    have none : nameLength b = 0 := Nat.le_zero.mp within
    have joint : s ≠ '\\' := ne_of_mem_breaks isBreak (by decide)
    rw [List.nil_append, List.nil_append, none]
    simp [nameLength, isWord_of_mem_breaks s isBreak, joint]
  | cons d p ih =>
    simp only [List.cons_append, nameLength, List.length_cons] at within ⊢
    by_cases word : isWord d = true
    · rw [if_pos word] at within
      rw [if_pos word, if_pos word, ih (by omega)]
    · rw [if_neg word] at within
      rw [if_neg word, if_neg word]
      by_cases joint : (d == '\\') = true
      · rw [if_pos joint] at within
        rw [if_pos joint, if_pos joint]
        cases p with
        | nil =>
          -- A name behind the place would go on from here.
          have no : startsName b = false := by
            refine Bool.eq_false_iff.mpr ?_
            intro start
            have more := nameLength_pos start
            rw [List.nil_append, if_pos start, List.length_nil] at within
            omega
          have no' : startsName (s :: x) = false := isNameStart_of_mem_breaks isBreak
          rw [List.nil_append, List.nil_append, no, no']
          rfl
        | cons e p =>
          rw [startsName_append (by simp) (s :: x) b]
          split
          next start =>
            rw [if_pos start] at within
            rw [ih (by omega)]
          · rfl
      · rw [if_neg joint, if_neg joint]

/-! ### Text up to an end mark -/

/-- The end mark itself has a length. -/
theorem blockLength?_pos {cs : List Char} {length : Nat} (found : blockLength? cs = some length) :
    0 < length := by
  cases cs with
  | nil => cases found
  | cons c rest =>
    rw [blockLength?] at found
    split at found
    · cases found
      exact Nat.zero_lt_two
    · obtain ⟨n, -, rfl⟩ := Option.map_eq_some_iff.mp found
      exact Nat.succ_pos n

theorem closingQuote?_pos {quote : Char} {protect : Bool} {cs : List Char} {length : Nat}
    (found : closingQuote? quote protect cs = some length) : 0 < length := by
  cases cs with
  | nil => cases found
  | cons c rest =>
    rw [closingQuote?] at found
    split at found
    · cases found
      exact Nat.zero_lt_one
    · obtain ⟨n, -, rfl⟩ := Option.map_eq_some_iff.mp found
      exact Nat.succ_pos n

/-- An end mark that stands before the place is found whatever follows. -/
theorem blockLength?_within {p b : List Char} {length : Nat}
    (found : blockLength? (p ++ b) = some length) (within : length ≤ p.length) (x : List Char) :
    blockLength? (p ++ x) = some length := by
  induction p generalizing length with
  | nil => exact absurd (blockLength?_pos found) (Nat.not_lt.mpr within)
  | cons d p ih =>
    rw [List.cons_append, blockLength?] at found ⊢
    cases p with
    | nil =>
      -- The mark of two characters would end behind the place.
      split at found
      · cases found
        simp at within
      · obtain ⟨n, inner, rfl⟩ := Option.map_eq_some_iff.mp found
        have positive := blockLength?_pos inner
        simp only [List.length_cons, List.length_nil] at within
        omega
    | cons e p =>
      rw [List.cons_append, List.head?_cons] at found ⊢
      split at found
      next ends => rw [if_pos ends, found]
      next goesOn =>
        obtain ⟨n, inner, rfl⟩ := Option.map_eq_some_iff.mp found
        rw [if_neg goesOn, ← List.cons_append, ih inner (by simpa using within), Option.map_some]

theorem closingQuote?_within {quote : Char} {p b : List Char} {protect : Bool} {length : Nat}
    (found : closingQuote? quote protect (p ++ b) = some length) (within : length ≤ p.length)
    (x : List Char) : closingQuote? quote protect (p ++ x) = some length := by
  induction p generalizing protect length with
  | nil => exact absurd (closingQuote?_pos found) (Nat.not_lt.mpr within)
  | cons d p ih =>
    rw [List.cons_append, closingQuote?] at found ⊢
    split at found
    next ends => rw [if_pos ends, found]
    next goesOn =>
      obtain ⟨n, inner, rfl⟩ := Option.map_eq_some_iff.mp found
      rw [if_neg goesOn, ih inner (by simpa using within), Option.map_some]

/-! ### Text up to a mark -/

/-- The number of characters before the first one that is a mark, given the character after it. -/
def lengthUpTo (mark : Char → Option Char → Bool) : List Char → Nat
  | [] => 0
  | c :: rest => if mark c rest.head? then 0 else lengthUpTo mark rest + 1

/-- Text that ends with the place takes the space in, unless a mark begins just before the place and
goes on behind it. -/
theorem lengthUpTo_spaced {mark : Char → Option Char → Bool} {p b : List Char}
    (space : ∀ next, mark ' ' next = false)
    (alone : ∀ c next, mark c (some ' ') = true → mark c next = true)
    (within : lengthUpTo mark (p ++ b) ≤ p.length)
    (apart : ∀ c, p.drop (lengthUpTo mark (p ++ b)) = [c] → mark c b.head? = true →
      mark c (some ' ') = true) :
    (lengthUpTo mark (p ++ b) < p.length ∧
        lengthUpTo mark (p ++ ' ' :: b) = lengthUpTo mark (p ++ b)) ∨
      (lengthUpTo mark (p ++ b) = p.length ∧ lengthUpTo mark (p ++ ' ' :: b) = p.length + 1) := by
  induction p with
  | nil =>
    have none : lengthUpTo mark b = 0 := Nat.le_zero.mp within
    exact .inr ⟨none, by simp [lengthUpTo, space, none]⟩
  | cons d p ih =>
    have same : mark d (p ++ ' ' :: b).head? = mark d (p ++ b).head? := by
      cases p with
      | cons e p => rfl
      | nil =>
        rw [Bool.eq_iff_iff]
        refine ⟨alone d _, fun marked => apart d ?_ marked⟩
        simp [lengthUpTo, show mark d b.head? = true from marked]
    simp only [List.cons_append, lengthUpTo, same] at within apart ⊢
    cases marked : mark d (p ++ b).head? with
    | true => exact .inl ⟨by simp, rfl⟩
    | false =>
      simp only [marked, Bool.false_eq_true, if_false, List.drop_succ_cons,
        List.length_cons] at within apart ⊢
      rcases ih (by omega) apart with ⟨before, same⟩ | ⟨upTo, grown⟩
      · exact .inl ⟨by omega, by omega⟩
      · exact .inr ⟨by omega, by omega⟩

/-- What ends a line comment. -/
def endsLine (c : Char) (next : Option Char) : Bool :=
  c == '\r' || c == '\n' || (c == '?' && next == some '>')

theorem lineLength_eq (cs : List Char) : lineLength cs = lengthUpTo endsLine cs := by
  induction cs with
  | nil => rfl
  | cons c rest ih => rw [lineLength, lengthUpTo, ih, endsLine]

theorem lineLength_spaced {p b : List Char} (within : lineLength (p ++ b) ≤ p.length)
    (apart : p.drop (lineLength (p ++ b)) = ['?'] → b.head? ≠ some '>') :
    (lineLength (p ++ b) < p.length ∧ lineLength (p ++ ' ' :: b) = lineLength (p ++ b)) ∨
      (lineLength (p ++ b) = p.length ∧ lineLength (p ++ ' ' :: b) = p.length + 1) := by
  simp only [lineLength_eq] at within apart ⊢
  refine lengthUpTo_spaced (fun _ => rfl) ?_ within ?_
  · intro c next ends
    simp only [endsLine, Bool.or_eq_true] at ends ⊢
    exact .inl (by simpa using ends)
  · intro c last ends
    by_cases question : c = '?'
    · subst question
      exact absurd (by simpa [endsLine] using ends) (apart last)
    · simpa [endsLine, question] using ends

end Lexeme

end CursorContext
