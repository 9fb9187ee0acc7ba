import CursorContext.Proofs.Token.Brackets
import CursorContext.Proofs.Token.Steady

/-!
Where words and numbers end. A name, a variable or a number that is cut out of its text and put in front
of another one is read again as a whole, if the other text begins with nothing that a word or number goes
on with.
-/
namespace CursorContext

namespace Lexeme

open Text

/-- Text that goes on with no word and no number. -/
def Apart (y : List Char) : Prop := ∀ s ∈ y.head?, isWord s = false ∧ s ≠ '.' ∧ s ≠ '\\'

theorem ne_of_isWord {c d : Char} (word : isWord c = true) (other : isWord d = false) : c ≠ d := by
  rintro rfl
  simp [word] at other

theorem isNameStart_of_not_isWord {s : Char} (other : isWord s = false) : isNameStart s = false :=
  (Bool.or_eq_false_iff.mp other).1

theorem isDigit_of_not_isWord {s : Char} (other : isWord s = false) : isDigit s = false :=
  (Bool.or_eq_false_iff.mp other).2

theorem isDecimalDigit_of_not_isWord {s : Char} (other : isWord s = false) :
    isDecimalDigit s = false := by
  have line : s ≠ '_' := (ne_of_isWord (by decide) other).symm
  simp [isDecimalDigit, isDigit_of_not_isWord other, line]

/-! ### Lengths -/

/-- A length that does not go beyond its text. If it takes all of `p`, it does so whatever stands apart
behind `p`. -/
structure Ends (length : List Char → Nat) : Prop where
  le_length : ∀ cs, length cs ≤ cs.length
  again : ∀ {p b y}, length (p ++ b) = p.length → Apart y → length (p ++ y) = p.length

/-- A length that only looks at the next character behind what it takes. -/
structure EndsAlike (length : List Char → Nat) : Prop extends Ends length where
  alike : ∀ {p b y}, length (p ++ b) = p.length → y.head? = b.head? → length (p ++ y) = p.length

namespace Ends

variable {f g : List Char → Nat}

/-- What is cut out is taken again. -/
theorem take (ends : Ends f) (cs : List Char) {y : List Char} (apart : Apart y) :
    f (cs.take (f cs) ++ y) = f cs := by
  have length : (cs.take (f cs)).length = f cs := List.length_take_of_le (ends.le_length cs)
  have whole : f (cs.take (f cs) ++ cs.drop (f cs)) = (cs.take (f cs)).length := by
    rw [List.take_append_drop, length]
  rw [ends.again whole apart, length]

/-- One length after another. -/
theorem seq (first : EndsAlike f) (second : Ends g) : Ends fun cs => f cs + g (cs.drop (f cs)) where
  le_length cs := by
    have front := first.le_length cs
    have behind := second.le_length (cs.drop (f cs))
    rw [List.length_drop] at behind
    omega
  again := by
    intro p b y whole apart
    obtain ⟨w, v, rfl, length⟩ : ∃ w v, p = w ++ v ∧ f (p ++ b) = w.length :=
      ⟨p.take (f (p ++ b)), p.drop (f (p ++ b)), (List.take_append_drop ..).symm,
        (List.length_take_of_le (by omega)).symm⟩
    rw [List.append_assoc] at whole length ⊢
    -- What the first length stops at is in `v`, or else nothing is left for the second.
    have front : f (w ++ (v ++ y)) = w.length := by
      cases v with
      | nil => exact first.again length apart
      | cons d v => exact first.alike length rfl
    rw [length, List.drop_left, List.length_append] at whole
    rw [front, List.drop_left, second.again (Nat.add_left_cancel whole) apart, List.length_append]

end Ends

theorem run_eq_length_iff (q : Char → Bool) (p b : List Char) :
    run q (p ++ b) = p.length ↔ (∀ c ∈ p, q c = true) ∧ ∀ s ∈ b.head?, q s = false := by
  induction p with
  | nil =>
    cases b with
    | nil => simp [run]
    | cons s b => cases stops : q s <;> simp [run, stops]
  | cons d p ih =>
    rw [List.cons_append, run, List.length_cons]
    cases passes : q d with
    | true =>
      rw [List.takeWhile_cons_of_pos passes, List.length_cons, Nat.add_right_cancel_iff]
      simpa [run, passes] using ih
    | false =>
      rw [List.takeWhile_cons_of_neg (by simp [passes])]
      simp [passes]

theorem endsAlike_run {q : Char → Bool} (stops : ∀ s, isWord s = false → q s = false) :
    EndsAlike (run q) where
  le_length _ := (List.takeWhile_sublist q).length_le
  again := by
    intro p b y whole apart
    rw [run_eq_length_iff] at whole ⊢
    exact ⟨whole.1, fun s first => stops s (apart s first).1⟩
  alike := by
    intro p b y whole same
    rw [run_eq_length_iff] at whole ⊢
    exact ⟨whole.1, same ▸ whole.2⟩

theorem endsAlike_fraction : EndsAlike fractionLength := by
  have digits := endsAlike_run @isDecimalDigit_of_not_isWord
  have front {y : List Char} (noPoint : ∀ s ∈ y.head?, s ≠ '.') : fractionLength y = 0 := by
    cases y with
    | nil => rfl
    | cons s y => simp [fractionLength, noPoint s rfl]
  have point {b : List Char} (none : fractionLength b = 0) : ∀ s ∈ b.head?, s ≠ '.' := by
    rintro s first rfl
    cases b with
    | nil => cases first
    | cons d b =>
      cases first
      simp [fractionLength] at none
  -- Both follow from the digits if there is a point, and from the missing point if there is none.
  have split {p b y : List Char} (whole : fractionLength (p ++ b) = p.length)
      (absent : (∀ s ∈ b.head?, s ≠ '.') → ∀ s ∈ y.head?, s ≠ '.')
      (run_again : ∀ p, run isDecimalDigit (p ++ b) = p.length →
        run isDecimalDigit (p ++ y) = p.length) : fractionLength (p ++ y) = p.length := by
    cases p with
    | nil => exact front (absent (point whole))
    | cons d p =>
      simp only [List.cons_append, fractionLength, List.length_cons] at whole ⊢
      by_cases isPoint : (d == '.') = true
      · rw [if_pos isPoint] at whole ⊢
        rw [run_again p (by omega), Nat.add_comm]
      · rw [if_neg isPoint] at whole
        omega
  exact {
    le_length := by
      intro cs
      cases cs with
      | nil => exact Nat.le_refl 0
      | cons d cs =>
        have bound := digits.le_length cs
        simp only [fractionLength, List.length_cons]
        split <;> omega
    again := fun whole apart =>
      split whole (fun _ s first => (apart s first).2.1) fun _ inner => digits.again inner apart
    alike := fun whole same =>
      split whole (fun absent => same ▸ absent) fun _ inner => digits.alike inner same }

theorem ends_exponent : Ends exponentLength where
  le_length cs := by
    cases cs with
    | nil => exact Nat.le_refl 0
    | cons d cs =>
      have sign := List.length_filter_le (fun c => c == '+' || c == '-') (cs.take 1)
      have digits := (endsAlike_run @isDigit_of_not_isWord).le_length
        (cs.drop ((cs.take 1).filter fun c => c == '+' || c == '-').length)
      simp only [List.length_take, List.length_drop] at sign digits
      simp only [exponentLength, List.length_cons]
      split
      · omega
      · omega
  again := by
    intro p b y whole apart
    rcases p with _ | ⟨d, _ | ⟨e, p⟩⟩
    · -- No exponent begins with what stands apart.
      cases y with
      | nil => rfl
      | cons s y =>
        have other := (apart s rfl).1
        have small : s ≠ 'e' := (ne_of_isWord (by decide) other).symm
        have large : s ≠ 'E' := (ne_of_isWord (by decide) other).symm
        simp [exponentLength, small, large]
    · -- The letter alone is no exponent.
      rw [List.singleton_append, exponentLength] at whole
      split at whole
      next exponent =>
        have digits := (Bool.and_eq_true_iff.mp exponent).2
        simp only [bne_iff_ne] at digits
        simp only [List.length_cons, List.length_nil] at whole
        omega
      · cases whole
    · have read (z : List Char) : exponentLength (d :: e :: p ++ z) =
          if (d == 'e' || d == 'E') && run isDigit ((e :: p ++ z).drop
              ([e].filter fun c => c == '+' || c == '-').length) != 0 then
            1 + ([e].filter fun c => c == '+' || c == '-').length + run isDigit ((e :: p ++ z).drop
              ([e].filter fun c => c == '+' || c == '-').length)
          else 0 := rfl
      have bound := List.length_filter_le (fun c => c == '+' || c == '-') [e]
      rw [read] at whole ⊢
      generalize ([e].filter fun c => c == '+' || c == '-').length = sign at bound whole ⊢
      have fits : sign ≤ (e :: p).length := Nat.le_trans bound (Nat.succ_le_succ (Nat.zero_le _))
      rw [List.drop_append_of_le_length fits] at whole ⊢
      split at whole
      next exponent =>
        have inner : run isDigit ((e :: p).drop sign ++ b) = ((e :: p).drop sign).length := by
          rw [List.length_drop]
          rw [List.length_cons] at whole
          omega
        rw [(endsAlike_run @isDigit_of_not_isWord).again inner apart, ← inner, if_pos exponent, whole]
      · cases whole

theorem ends_decimal : Ends decimalLength := by
  have ends := Ends.seq (endsAlike_run @isDecimalDigit_of_not_isWord)
    (Ends.seq endsAlike_fraction ends_exponent)
  have same : decimalLength = fun cs => run isDecimalDigit cs +
      (fractionLength (cs.drop (run isDecimalDigit cs)) +
        exponentLength ((cs.drop (run isDecimalDigit cs)).drop
          (fractionLength (cs.drop (run isDecimalDigit cs))))) := by
    funext cs
    simp only [decimalLength, List.drop_drop, Nat.add_assoc]
  rw [same]
  exact ends

theorem ends_name : Ends nameLength where
  le_length cs := by
    induction cs with
    | nil => exact Nat.le_refl 0
    | cons d cs ih =>
      simp only [nameLength, List.length_cons]
      split
      · omega
      · split
        · split <;> omega
        · omega
  again := by
    intro p b y whole apart
    have none : startsName y = false := by
      cases y with
      | nil => rfl
      | cons s y => exact isNameStart_of_not_isWord (apart s rfl).1
    induction p with
    | nil =>
      cases y with
      | nil => rfl
      | cons s y =>
        have joint : s ≠ '\\' := (apart s rfl).2.2
        simp [nameLength, (apart s rfl).1, joint]
    | cons d p ih =>
      simp only [List.cons_append, nameLength, List.length_cons] at whole ⊢
      by_cases word : isWord d = true
      · rw [if_pos word] at whole ⊢
        rw [ih (by omega)]
      · rw [if_neg word] at whole ⊢
        by_cases joint : (d == '\\') = true
        · rw [if_pos joint] at whole ⊢
          cases p with
          | nil => simp [none]
          | cons e p =>
            rw [startsName_append (by simp) y b]
            split at whole
            next start => rw [if_pos start, ih (by omega)]
            · simp at whole
        · rw [if_neg joint] at whole
          cases whole

/-! ### Numbers -/

variable {c : Char} {rest y : List Char} {found : Lexeme}

/-- A numeral with a radix letter has its letter and at least one digit. -/
theorem radixLength_cons {letters : List Char} {q : Char → Bool}
    (some : radixLength letters q rest ≠ 0) :
    ∃ letter digits, rest = letter :: digits ∧ letters.contains letter = true ∧
      run q digits ≠ 0 ∧ radixLength letters q rest = 1 + run q digits := by
  cases rest with
  | nil => exact absurd rfl some
  | cons letter digits =>
    rw [radixLength] at some ⊢
    split at some
    next radix =>
      have parts := Bool.and_eq_true_iff.mp radix
      exact ⟨letter, digits, rfl, parts.1, by simpa using parts.2, by rw [if_pos radix]⟩
    · exact absurd rfl some

theorem radixLength_eq_zero {letters : List Char} {q : Char → Bool}
    (other : ∀ d ∈ rest.head?, letters.contains d = false) : radixLength letters q rest = 0 := by
  cases rest with
  | nil => rfl
  | cons d rest => rw [radixLength, other d rfl, Bool.false_and, if_neg (by decide)]

theorem radixLength_again {letters : List Char} {q : Char → Bool}
    (stops : ∀ s, isWord s = false → q s = false) (some : radixLength letters q rest ≠ 0)
    (apart : Apart y) :
    radixLength letters q rest ≤ rest.length ∧
      radixLength letters q (rest.take (radixLength letters q rest) ++ y) =
        radixLength letters q rest := by
  obtain ⟨letter, digits, rfl, isLetter, positive, length⟩ := radixLength_cons some
  have ends := endsAlike_run stops
  have bound := ends.le_length digits
  rw [length, Nat.add_comm 1, List.take_succ_cons, List.cons_append, radixLength, isLetter,
    ends.take digits apart, Bool.true_and, if_pos (by simpa using positive), List.length_cons]
  omega

/-- A decimal numeral does not go on with a radix letter. -/
theorem head?_take_decimal (letters : List Char) (radix : letters ⊆ ['x', 'X', 'b', 'B'])
    (apart : Apart y) :
    ∀ d ∈ (rest.take (decimalLength rest) ++ y).head?, letters.contains d = false := by
  intro d first
  rw [← Bool.not_eq_true, List.contains_iff_mem]
  intro letter
  have radixLetter := radix letter
  simp only [List.mem_cons, List.not_mem_nil, or_false] at radixLetter
  cases cut : rest.take (decimalLength rest) with
  | nil =>
    rw [cut, List.nil_append] at first
    have other := (apart d first).1
    rcases radixLetter with rfl | rfl | rfl | rfl <;> simp [isWord, isNameStart] at other
  | cons e taken =>
    rw [cut] at first
    cases first
    cases rest with
    | nil => simp at cut
    | cons a rest =>
      have same : a = d := by
        have head := congrArg List.head? cut
        rw [List.head?_take] at head
        split at head
        · cases head
        · exact Option.some.inj head
      subst same
      have none : decimalLength (a :: rest) = 0 := by
        rcases radixLetter with rfl | rfl | rfl | rfl <;> rfl
      rw [none] at cut
      cases cut

/-- The digits of numerals with a radix letter are word characters. -/
theorem isHexDigit_of_not_isWord {s : Char} (other : isWord s = false) : isHexDigit s = false := by
  refine Bool.eq_false_iff.mpr fun hexadecimal => ?_
  have parts : ((s.isDigit = true ∨ 'a' ≤ s ∧ s ≤ 'f') ∨ 'A' ≤ s ∧ s ≤ 'F') ∨ s = '_' := by
    simpa [isHexDigit] using hexadecimal
  have plain : s.isAlpha = false ∧ (s == '_') = false := by
    have none := isNameStart_of_not_isWord other
    simp only [isNameStart, Bool.or_eq_false_iff] at none
    exact none.1
  obtain ⟨capital, small⟩ := Bool.or_eq_false_iff.mp plain.1
  rcases parts with ((digit | ⟨least, most⟩) | ⟨least, most⟩) | rfl
  · have none := isDigit_of_not_isWord other
    simp [isDigit, digitValue?, digit] at none
  · have lower : s.isLower = true :=
      Bool.and_eq_true_iff.mpr ⟨decide_eq_true least, decide_eq_true (UInt32.le_trans most (by decide))⟩
    rw [lower] at small
    cases small
  · have upper : s.isUpper = true := decide_eq_true ⟨least, UInt32.le_trans most (by decide)⟩
    rw [upper] at capital
    cases capital
  · cases plain.2

theorem isBinaryDigit_of_not_isWord {s : Char} (other : isWord s = false) :
    isBinaryDigit s = false := by
  have zero : s ≠ '0' := (ne_of_isWord (by decide) other).symm
  have one : s ≠ '1' := (ne_of_isWord (by decide) other).symm
  have line : s ≠ '_' := (ne_of_isWord (by decide) other).symm
  simp [isBinaryDigit, zero, one, line]

/-- A binary numeral has its own letter, so it is no hexadecimal one. -/
theorem radixLength_of_binary (some : radixLength ['b', 'B'] isBinaryDigit rest ≠ 0)
    (y : List Char) :
    radixLength ['x', 'X'] isHexDigit
      (rest.take (radixLength ['b', 'B'] isBinaryDigit rest) ++ y) = 0 := by
  obtain ⟨letter, digits, rfl, isLetter, -, length⟩ := radixLength_cons some
  apply radixLength_eq_zero
  rw [length, Nat.add_comm 1, List.take_succ_cons]
  intro d first
  cases first
  simp only [List.contains_cons, List.contains_nil, Bool.or_false, Bool.or_eq_true,
    beq_iff_eq] at isLetter
  rcases isLetter with rfl | rfl <;> rfl

/-- A number that begins with a point takes the digits behind it. -/
theorem number?_point {d : Char} (digit : isDigit d = true) (z : List Char) :
    number? '.' (d :: z) = some { kind := .number, more := run isDecimalDigit (d :: z) } := by
  have noDigit : isDigit '.' = false := by decide
  simp [number?, digit, noDigit]

theorem number?_point_again {d : Char} (digit : isDigit d = true) (apart : Apart y) :
    number? '.' ((d :: rest).take (run isDecimalDigit (d :: rest)) ++ y) =
      some { kind := .number, more := run isDecimalDigit (d :: rest) } := by
  have counted : isDecimalDigit d = true := by simp [isDecimalDigit, digit]
  have again := (endsAlike_run @isDecimalDigit_of_not_isWord).take (d :: rest) apart
  -- The digit behind the point is taken, so the cut does not come right behind the point.
  have cut : (d :: rest).take (run isDecimalDigit (d :: rest)) =
      d :: rest.take (run isDecimalDigit rest) := by
    simp [run, counted]
  rw [cut, List.cons_append] at again ⊢
  rw [number?_point digit, again]

theorem number?_again (there : number? c rest = some found) (apart : Apart y) :
    found.more ≤ rest.length ∧ number? c (rest.take found.more ++ y) = some found := by
  unfold number? at there
  dsimp only at there
  split at there
  next hexadecimal =>
    cases there
    have some := (Bool.and_eq_true_iff.mp hexadecimal).2
    obtain ⟨bound, again⟩ :=
      radixLength_again @isHexDigit_of_not_isWord (by simpa using some) apart
    refine ⟨bound, ?_⟩
    rw [number?, again, if_pos hexadecimal]
  next noHexadecimal =>
  split at there
  next binary =>
    cases there
    have some := (Bool.and_eq_true_iff.mp binary).2
    obtain ⟨bound, again⟩ :=
      radixLength_again @isBinaryDigit_of_not_isWord (by simpa using some) apart
    refine ⟨bound, ?_⟩
    have other := radixLength_of_binary (by simpa using some) y
    rw [number?, again, other, if_neg (by simp), if_pos binary]
  next noBinary =>
  split at there
  next digit =>
    cases there
    refine ⟨ends_decimal.le_length rest, ?_⟩
    rw [number?, ends_decimal.take rest apart,
      radixLength_eq_zero (head?_take_decimal ['x', 'X'] (by simp) apart),
      radixLength_eq_zero (head?_take_decimal ['b', 'B'] (by simp) apart),
      if_neg (by simp), if_neg (by simp), if_pos digit]
  next noDigit =>
  split at there
  next point =>
    cases there
    obtain ⟨isPoint, digits⟩ := Bool.and_eq_true_iff.mp point
    cases eq_of_beq isPoint
    refine ⟨(endsAlike_run @isDecimalDigit_of_not_isWord).le_length rest, ?_⟩
    cases rest with
    | nil => cases digits
    | cons d rest => exact number?_point_again digits apart
  · cases there

/-! ### Variables and names -/

theorem startsName_take {n : Nat} (some : 0 < n) (starts : startsName rest = true)
    (y : List Char) : startsName (rest.take n ++ y) = true := by
  cases rest with
  | nil => cases starts
  | cons d rest =>
    obtain ⟨n, rfl⟩ := Nat.exists_eq_succ_of_ne_zero (Nat.ne_of_gt some)
    exact starts

theorem dollarName?_again (there : dollarName? c rest = some found) (apart : Apart y) :
    found.more ≤ rest.length ∧ dollarName? c (rest.take found.more ++ y) = some found := by
  have ends := endsAlike_run (q := isWord) fun _ other => other
  unfold dollarName? at there
  split at there
  next variable_ =>
    cases there
    obtain ⟨dollar, starts⟩ := Bool.and_eq_true_iff.mp variable_
    have some : 0 < run isWord rest := by
      cases rest with
      | nil => cases starts
      | cons d rest => simp [run, isWord_of_isNameStart starts]
    refine ⟨ends.le_length rest, ?_⟩
    rw [dollarName?, startsName_take some starts, dollar, ends.take rest apart]
    rfl
  · cases there

theorem identifier?_again (there : identifier? c rest = some found) (apart : Apart y) :
    found.more ≤ rest.length ∧ identifier? c (rest.take found.more ++ y) = some found := by
  unfold identifier? at there
  split at there
  next begins =>
    cases there
    refine ⟨ends_name.le_length rest, ?_⟩
    have begins' : (isNameStart c || c == '\\' && startsName (rest.take (nameLength rest) ++ y)) =
        true := by
      rcases Bool.or_eq_true_iff.mp begins with first | second
      · rw [first, Bool.true_or]
      · obtain ⟨joint, starts⟩ := Bool.and_eq_true_iff.mp second
        rw [joint, startsName_take (nameLength_pos starts) starts, Bool.and_true, Bool.or_true]
    rw [identifier?, if_pos begins', ends_name.take rest apart]
  · cases there

/-! ### The next lexeme -/

/-- No recogniser for blanks, comments, tags or literals takes a character with which a word or number
begins. -/
theorem lexeme_of_plain (plain : c ∉ breaks) (sign_ : c ∉ ['/', '#', '<', '?']) (rest : List Char) :
    lexeme c rest =
      ((dollarName? c rest).or ((number? c rest).or (identifier? c rest))).getD (sign c rest) := by
  have blank : isBlank c = false := Bool.eq_false_iff.mpr fun blank => plain (mem_breaks_of_isBlank blank)
  have quote : Token.quotes.contains c = false := by
    refine Bool.eq_false_iff.mpr fun quote => plain (mem_breaks_of_quote ?_)
    exact List.contains_iff_mem.mp quote
  simp only [List.mem_cons, List.not_mem_nil, or_false, not_or] at sign_
  obtain ⟨slash, sharp, less, question⟩ := sign_
  have whitespace : whitespace? c rest = none := by simp [whitespace?, blank]
  have comment : comment? c rest = none := by simp [comment?, slash, sharp]
  have tag : tag? c rest = none := by simp [tag?, less, question]
  have heredoc : heredoc? c rest = none := by simp [heredoc?, less]
  have quoted : quoted? c rest = none := by rw [quoted?, quote]; rfl
  simp only [lexeme, whitespace, comment, tag, heredoc, quoted, Option.orElse_eq_orElse,
    Option.orElse_eq_or, Option.none_or]

/-- The characters with which a variable, a number or a name begins. -/
def BeginsWord (c : Char) : Prop := isWord c = true ∨ c ∈ ['$', '.', '\\']

theorem BeginsWord.plain (begins : BeginsWord c) : c ∉ breaks ∧ c ∉ ['/', '#', '<', '?'] := by
  rcases begins with word | sign_
  · constructor
    · intro isBreak
      rw [isWord_of_mem_breaks c isBreak] at word
      cases word
    · simp only [List.mem_cons, List.not_mem_nil, or_false, not_or]
      exact ⟨ne_of_isWord word (by decide), ne_of_isWord word (by decide),
        ne_of_isWord word (by decide), ne_of_isWord word (by decide)⟩
  · simp only [List.mem_cons, List.not_mem_nil, or_false] at sign_
    rcases sign_ with rfl | rfl | rfl <;> decide

theorem begins_dollarName? (there : dollarName? c rest = some found) : c = '$' := by
  unfold dollarName? at there
  split at there
  next variable_ => exact eq_of_beq (Bool.and_eq_true_iff.mp variable_).1
  · cases there

theorem begins_number? (there : number? c rest = some found) : isDigit c = true ∨ c = '.' := by
  unfold number? at there
  dsimp only at there
  split at there
  next hexadecimal =>
    cases eq_of_beq (Bool.and_eq_true_iff.mp hexadecimal).1
    exact .inl rfl
  split at there
  next binary =>
    cases eq_of_beq (Bool.and_eq_true_iff.mp binary).1
    exact .inl rfl
  split at there
  next digit => exact .inl digit
  split at there
  next point => exact .inr (eq_of_beq (Bool.and_eq_true_iff.mp point).1)
  · cases there

theorem begins_identifier? (there : identifier? c rest = some found) :
    isNameStart c = true ∨ c = '\\' := by
  unfold identifier? at there
  split at there
  next begins =>
    refine (Bool.or_eq_true_iff.mp begins).imp_right fun second => ?_
    exact eq_of_beq (Bool.and_eq_true_iff.mp second).1
  · cases there

theorem number?_eq_none_iff (noPoint : c ≠ '.') : number? c rest = none ↔ isDigit c = false := by
  constructor
  · intro absent
    refine Bool.eq_false_iff.mpr fun digit => ?_
    unfold number? at absent
    dsimp only at absent
    rw [if_pos digit] at absent
    split at absent
    · cases absent
    · split at absent <;> cases absent
  · intro noDigit
    cases there : number? c rest with
    | none => rfl
    | some found =>
      rcases begins_number? there with digit | point
      · rw [digit] at noDigit
        cases noDigit
      · exact absurd point noPoint

/-- The recognisers of words and numbers, in their order. -/
def word? (c : Char) (rest : List Char) : Option Lexeme :=
  (dollarName? c rest).or ((number? c rest).or (identifier? c rest))

theorem beginsWord_of_word? (there : word? c rest = some found) : BeginsWord c := by
  simp only [word?, Option.or_eq_some_iff] at there
  rcases there with variable_ | ⟨-, number | ⟨-, name⟩⟩
  · exact .inr (by simp [begins_dollarName? variable_])
  · rcases begins_number? number with digit | rfl
    · exact .inl (by simp [isWord, digit])
    · exact .inr (by simp)
  · rcases begins_identifier? name with start | rfl
    · exact .inl (isWord_of_isNameStart start)
    · exact .inr (by simp)

theorem lexeme_of_word? (there : word? c rest = some found) : lexeme c rest = found := by
  obtain ⟨plain, sign_⟩ := (beginsWord_of_word? there).plain
  rw [lexeme_of_plain plain sign_, ← word?, there]
  rfl

theorem word?_again (there : word? c rest = some found) (apart : Apart y) :
    found.more ≤ rest.length ∧ word? c (rest.take found.more ++ y) = some found := by
  simp only [word?, Option.or_eq_some_iff] at there ⊢
  -- A recogniser that took nothing is kept from it by the first character.
  have noDollar (other : c ≠ '$') : dollarName? c (rest.take found.more ++ y) = none := by
    simp [dollarName?, other]
  rcases there with variable_ | ⟨-, number | ⟨noNumber, name⟩⟩
  · obtain ⟨bound, again⟩ := dollarName?_again variable_ apart
    exact ⟨bound, .inl again⟩
  · obtain ⟨bound, again⟩ := number?_again number apart
    refine ⟨bound, .inr ⟨noDollar ?_, .inl again⟩⟩
    rintro rfl
    exact absurd (begins_number? number) (by decide)
  · obtain ⟨bound, again⟩ := identifier?_again name apart
    have begins := begins_identifier? name
    have noPoint : c ≠ '.' := by
      rintro rfl
      exact absurd begins (by decide)
    refine ⟨bound, .inr ⟨noDollar ?_, .inr ⟨?_, again⟩⟩⟩
    · rintro rfl
      exact absurd begins (by decide)
    · exact (number?_eq_none_iff noPoint).mpr ((number?_eq_none_iff noPoint).mp noNumber)

/-- The kinds that the recognisers of words and numbers hand out. -/
theorem word?_of_kind (kind : (lexeme c rest).kind ∈ [.variable, .number, .identifier]) :
    word? c rest = some (lexeme c rest) := by
  have recognised := lexeme_recognised c rest
  have found : (word? c rest).isSome = true := by
    unfold word?
    generalize lexeme c rest = found at kind recognised
    simp only [List.mem_cons, List.not_mem_nil, or_false] at recognised
    rcases recognised with rfl | there | there | there | there | there | there | there | there
    · grind [sign]
    · grind [whitespace?]
    · grind [comment?, lineComment, blockComment]
    · grind [tag?]
    · rw [kind_of_heredoc there.symm] at kind
      simp at kind
    · grind [quoted?]
    · simp [← there]
    · simp [← there]
    · simp [← there]
  obtain ⟨word, there⟩ := Option.isSome_iff_exists.mp found
  rw [there, lexeme_of_word? there]

end Lexeme

end CursorContext
