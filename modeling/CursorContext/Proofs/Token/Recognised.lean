import CursorContext.Proofs.Token.Heredoc
import Mathlib.Data.List.Find

/-!
What the recognisers say when other text follows. A lexeme that ends before a place is recognised again
if a blank or a quote comes next. The recognisers are compared one by one, and the next lexeme by the
order in which they are tried.
-/
namespace CursorContext

namespace Lexeme

open Text

/-! ### Two answers of a recogniser -/

/-- What a recogniser says of one text and of another one. Where it recognised nothing it still does
not, and from a lexeme that fits comes one as `becomes` says. -/
structure Agrees (fits : Lexeme → Prop) (becomes : Lexeme → Lexeme → Prop)
    (plain other : Option Lexeme) : Prop where
  absent : plain = none → other = none
  present : ∀ found, plain = some found → fits found →
    ∃ next, other = some next ∧ becomes found next

namespace Agrees

variable {fits : Lexeme → Prop} {becomes : Lexeme → Lexeme → Prop}

theorem none : Agrees fits becomes none none := by
  constructor
  · exact fun _ => rfl
  · intro found there
    cases there

theorem some {found next : Lexeme} (turns : fits found → becomes found next) :
    Agrees fits becomes (some found) (some next) := by
  constructor
  · intro absent
    cases absent
  · intro _ there fit
    cases there
    exact ⟨next, rfl, turns fit⟩

/-- Of a lexeme that does not fit nothing is said. -/
theorem unfit {found : Lexeme} {other : Option Lexeme} (unfit : ¬ fits found) :
    Agrees fits becomes (.some found) other := by
  constructor
  · intro absent
    cases absent
  · intro _ there fit
    cases there
    exact absurd fit unfit

theorem or {plain other plain' other' : Option Lexeme} (first : Agrees fits becomes plain other)
    (second : Agrees fits becomes plain' other') :
    Agrees fits becomes (plain.or plain') (other.or other') := by
  constructor
  · intro absent
    obtain ⟨absent, absent'⟩ := Option.or_eq_none_iff.mp absent
    rw [first.absent absent, second.absent absent']
    rfl
  · intro found there fit
    rcases Option.or_eq_some_iff.mp there with here | ⟨absent, here⟩
    · obtain ⟨next, same, turns⟩ := first.present found here fit
      exact ⟨next, by rw [same]; rfl, turns⟩
    · obtain ⟨next, same, turns⟩ := second.present found here fit
      exact ⟨next, by rw [first.absent absent, same]; rfl, turns⟩

end Agrees

/-- The lexeme does not go beyond `p`. -/
def Within (p : List Char) (found : Lexeme) : Prop := found.more ≤ p.length

/-- What a recogniser says when a lexeme that does not go beyond `p` stays as it is. -/
def Stays (p : List Char) (plain other : Option Lexeme) : Prop := Agrees (Within p) Eq plain other

variable {c s : Char} {p b : List Char}

namespace Stays

theorem beyond {found : Lexeme} {other : Option Lexeme} (long : p.length < found.more) :
    Stays p (.some found) other :=
  .unfit (Nat.not_le.mpr long)

/-- A recogniser of a kind whose length is steady. -/
theorem steady {kind : Kind} {length : List Char → Nat} (steady : Steady length)
    (isBreak : s ∈ breaks) (x : List Char) :
    Stays p (some { kind, more := length (p ++ b) }) (some { kind, more := length (p ++ s :: x) }) :=
  .some fun within => by rw [steady s isBreak p b x within]

theorem agrees {fits : Lexeme → Prop} {becomes : Lexeme → Lexeme → Prop}
    {plain other : Option Lexeme} (stays : Stays p plain other)
    (bounded : ∀ found, fits found → Within p found) (same : ∀ found, becomes found found) :
    Agrees fits becomes plain other := by
  refine ⟨stays.absent, ?_⟩
  intro found there fit
  obtain ⟨next, there', rfl⟩ := stays.present found there (bounded found fit)
  exact ⟨found, there', same found⟩

end Stays

/-! ### Strings, names and numbers -/

theorem stays_quoted (some : b ≠ []) (x : List Char) :
    Stays p (quoted? c (p ++ b)) (quoted? c (p ++ x)) := by
  have length := List.length_pos_iff.mpr some
  unfold quoted?
  split
  · cases found : closingQuote? c false (p ++ b) with
    | none => exact .beyond (by simp; omega)
    | some n =>
      constructor
      · intro absent
        cases absent
      · intro _ there within
        cases there
        exact ⟨_, by rw [closingQuote?_within found within x], rfl⟩
  · exact .none

theorem stays_dollarName (isBreak : s ∈ breaks) (x : List Char) :
    Stays p (dollarName? c (p ++ b)) (dollarName? c (p ++ s :: x)) := by
  unfold dollarName?
  by_cases dollar : c = '$'
  · subst dollar
    cases p with
    | nil =>
      have stops : startsName (s :: x) = false := isNameStart_of_mem_breaks isBreak
      simp only [List.nil_append, stops, Bool.and_false, Bool.false_eq_true, if_false]
      split
      next starts =>
        refine .beyond ?_
        cases b with
        | nil => cases starts
        | cons d rest => simp [run, isWord_of_isNameStart starts]
      · exact .none
    | cons d p =>
      rw [startsName_append (by simp) (s :: x) b]
      split
      · exact .steady (steady_run isWord_of_mem_breaks) isBreak x
      · exact .none
  · simp only [beq_eq_false_iff_ne.mpr dollar, Bool.false_and, Bool.false_eq_true, if_false]
    exact .none

theorem stays_identifier (isBreak : s ∈ breaks) (x : List Char) :
    Stays p (identifier? c (p ++ b)) (identifier? c (p ++ s :: x)) := by
  unfold identifier?
  cases p with
  | nil =>
    have stops : startsName (s :: x) = false := isNameStart_of_mem_breaks isBreak
    simp only [List.nil_append, stops, Bool.and_false, Bool.or_false]
    cases starts : isNameStart c with
    | true => exact .steady (p := []) steady_name isBreak x
    | false =>
      simp only [Bool.false_or, Bool.false_eq_true, if_false]
      split
      next qualified => exact .beyond (nameLength_pos (Bool.and_eq_true_iff.mp qualified).2)
      · exact .none
  | cons d p =>
    rw [startsName_append (by simp) (s :: x) b]
    split
    · exact .steady steady_name isBreak x
    · exact .none

theorem isHexDigit_of_mem_breaks : ∀ s ∈ breaks, isHexDigit s = false :=
  eq_false_of_mem_breaks (by decide)

theorem isBinaryDigit_of_mem_breaks : ∀ s ∈ breaks, isBinaryDigit s = false :=
  eq_false_of_mem_breaks (by decide)

theorem stays_number (isBreak : s ∈ breaks) (x : List Char) :
    Stays p (number? c (p ++ b)) (number? c (p ++ s :: x)) := by
  unfold number?
  by_cases zero : c = '0'
  · subst zero
    have hexadecimal : Steady (radixLength ['x', 'X'] isHexDigit) :=
      steady_radix (eq_false_of_mem_breaks (by decide)) isHexDigit_of_mem_breaks
    have binary : Steady (radixLength ['b', 'B'] isBinaryDigit) :=
      steady_radix (eq_false_of_mem_breaks (by decide)) isBinaryDigit_of_mem_breaks
    simp only [beq_self_eq_true, Bool.true_and, bne_iff_ne]
    rcases Nat.lt_or_ge p.length (radixLength ['x', 'X'] isHexDigit (p ++ b)) with long | within
    · rw [if_pos (by omega)]
      exact .beyond long
    rw [hexadecimal s isBreak p b x within]
    split
    · exact .some fun _ => rfl
    rcases Nat.lt_or_ge p.length (radixLength ['b', 'B'] isBinaryDigit (p ++ b)) with long | within
    · rw [if_pos (by omega)]
      exact .beyond long
    rw [binary s isBreak p b x within]
    split
    · exact .some fun _ => rfl
    · exact .steady steady_decimal isBreak x
  · simp only [beq_eq_false_iff_ne.mpr zero, Bool.false_and, Bool.false_eq_true, if_false]
    split
    · exact .steady steady_decimal isBreak x
    · cases p with
      | nil =>
        have stops : (s :: x).head?.any isDigit = false := isDigit_of_mem_breaks s isBreak
        simp only [List.nil_append, stops, Bool.and_false, Bool.false_eq_true, if_false]
        split
        next point =>
          refine .beyond ?_
          cases b with
          | nil => simp at point
          | cons d rest =>
            have digit : isDecimalDigit d = true := by
              simp [isDecimalDigit, show isDigit d = true by simpa using (Bool.and_eq_true_iff.mp point).2]
            simp [run, digit]
        · exact .none
      | cons d p =>
        have head (y : List Char) : (d :: p ++ y).head? = .some d := rfl
        rw [head, head]
        split
        · exact .steady (steady_run isDecimalDigit_of_mem_breaks) isBreak x
        · exact .none

/-! ### Signs -/

theorem isPrefixOf_break {operator q : List Char} (plain : s ∉ operator) (x : List Char) :
    operator.isPrefixOf (q ++ s :: x) = operator.isPrefixOf q := by
  rw [Bool.eq_iff_iff, List.isPrefixOf_iff_prefix, List.isPrefixOf_iff_prefix]
  constructor
  · intro starts
    rcases List.prefix_or_prefix_of_prefix starts (List.prefix_append q _) with short | ⟨rest, rfl⟩
    · exact short
    · cases rest with
      | nil => simp
      | cons d rest =>
        have held : d = s := by
          have := (List.prefix_append_right_inj q).mp starts
          exact (List.cons_prefix_cons.mp this).1
        simp [held] at plain
  · exact fun starts => starts.trans (List.prefix_append q _)

theorem not_mem_longOperators :
    ∀ s ∈ breaks, ∀ operator ∈ longOperators, s ∉ operator.toList := by
  intro s isBreak operator isOperator
  have none : longOperators.any (·.toList.contains s) = false :=
    eq_false_of_mem_breaks (q := fun s => longOperators.any (·.toList.contains s))
      (by decide +kernel) s isBreak
  simpa using List.any_eq_false.mp none operator isOperator

/-- The operator of which the text up to a break begins. -/
theorem longOperators_break (isBreak : s ∈ breaks) (q x : List Char) :
    longOperators.find? (·.toList.isPrefixOf (q ++ s :: x)) =
      longOperators.find? (·.toList.isPrefixOf q) :=
  List.find?_congr fun operator isOperator =>
    isPrefixOf_break (not_mem_longOperators s isBreak operator isOperator) x

/-- An operator that does not go beyond `q` is the first one whether more text follows or not. -/
theorem longOperators_append {q b : List Char} {operator : String}
    (found : longOperators.find? (·.toList.isPrefixOf (q ++ b)) = some operator)
    (within : operator.length ≤ q.length) :
    longOperators.find? (·.toList.isPrefixOf q) = some operator := by
  rw [List.find?_eq_some_iff_append] at found ⊢
  obtain ⟨starts, before, after, split, missed⟩ := found
  refine ⟨?_, before, after, split, ?_⟩
  · rw [List.isPrefixOf_iff_prefix] at starts ⊢
    exact List.prefix_of_prefix_length_le starts (List.prefix_append q b)
      (by rwa [String.length_toList])
  · intro other earlier
    have missed := missed other earlier
    rw [Bool.not_eq_true', Bool.eq_false_iff, ne_eq, List.isPrefixOf_iff_prefix] at missed ⊢
    exact fun starts => missed (starts.trans (List.prefix_append q b))

theorem longOperators_none {q b : List Char}
    (absent : longOperators.find? (·.toList.isPrefixOf (q ++ b)) = none) :
    longOperators.find? (·.toList.isPrefixOf q) = none := by
  rw [List.find?_eq_none] at absent ⊢
  intro operator isOperator starts
  refine absent operator isOperator ?_
  rw [List.isPrefixOf_iff_prefix] at starts ⊢
  exact starts.trans (List.prefix_append q b)

theorem sign_break (within : (sign c (p ++ b)).more ≤ p.length) (isBreak : s ∈ breaks)
    (x : List Char) : sign c (p ++ s :: x) = sign c (p ++ b) := by
  unfold sign at within ⊢
  split
  · rfl
  next notOpening =>
  split
  · rfl
  next notClosing =>
  rw [if_neg notOpening, if_neg notClosing] at within
  rw [← List.cons_append, longOperators_break isBreak]
  rw [← List.cons_append] at within ⊢
  cases found : longOperators.find? (·.toList.isPrefixOf (c :: p ++ b)) with
  | none => rw [longOperators_none found]
  | some operator =>
    rw [found] at within
    have fits : operator.length ≤ (c :: p).length := Nat.le_add_of_sub_le within
    rw [longOperators_append found fits]

/-! ### Comments and tags -/

theorem stays_blockComment {d : Char} (some : b ≠ []) (x : List Char) :
    Stays (d :: p) (.some (blockComment (d :: p ++ b))) (.some (blockComment (d :: p ++ x))) := by
  have length := List.length_pos_iff.mpr some
  unfold blockComment
  simp only [List.cons_append, List.drop_succ_cons, List.drop_zero]
  cases found : blockLength? (p ++ b) with
  | none => exact .beyond (by simp; omega)
  | some n =>
    refine .some fun within => ?_
    have within' : n ≤ p.length := Nat.le_of_succ_le_succ within
    simp only [blockLength?_within found within' x]

theorem comment?_slash (rest : List Char) : comment? '/' rest =
    if rest.head? = some '/' then some (lineComment 1 rest)
    else if rest.head? = some '*' then some (blockComment rest) else none := by
  simp [comment?]

theorem comment?_sharp (rest : List Char) : comment? '#' rest =
    if rest.head? = some '[' then none else some (lineComment 0 rest) := by
  simp [comment?]

theorem comment?_other (slash : c ≠ '/') (sharp : c ≠ '#') (rest : List Char) :
    comment? c rest = none := by
  simp [comment?, slash, sharp]

theorem tag?_opening (rest : List Char) : tag? '<' rest =
    if rest.head? = some '?' then some { kind := .openTag, more := 1 + tagWord (rest.drop 1) }
    else none := by
  simp [tag?]

theorem tag?_closing (rest : List Char) : tag? '?' rest =
    if rest.head? = some '>' then some { kind := .openTag, more := 1 } else none := by
  simp [tag?]

section

variable {fits : Lexeme → Prop} {becomes : Lexeme → Lexeme → Prop}
  (bounded : ∀ found, fits found → Within p found) (same : ∀ found, becomes found found)
  (isBreak : s ∈ breaks) (some : b ≠ [])

include bounded same isBreak some

/-- Comments agree if line comments do. -/
theorem agrees_comment (x : List Char) (noAttribute : p = [] → c = '#' → b.head? ≠ .some '[')
    (line : c ≠ '?' → ∀ skip ≤ p.length, Agrees fits becomes (.some (lineComment skip (p ++ b)))
      (.some (lineComment skip (p ++ s :: x)))) :
    Agrees fits becomes (comment? c (p ++ b)) (comment? c (p ++ s :: x)) := by
  by_cases slash : c = '/'
  · subst slash
    cases p with
    | nil =>
      -- What follows the slash decides, so a comment goes beyond the place.
      have length := List.length_pos_iff.mpr some
      have other : comment? '/' (s :: x) = .none := by
        have line : s ≠ '/' := ne_of_mem_breaks isBreak (by decide)
        have block : s ≠ '*' := ne_of_mem_breaks isBreak (by decide)
        simp [comment?_slash, line, block]
      have long {found : Lexeme} (long : 0 < found.more) : ¬ fits found :=
        fun fit => Nat.not_le.mpr long (bounded found fit)
      rw [List.nil_append, List.nil_append, other, comment?_slash]
      split
      · exact .unfit (long (by simp only [lineComment]; omega))
      · split
        · refine .unfit (long ?_)
          unfold blockComment
          split
          · simp
          · simpa using length
        · exact .none
    | cons d p =>
      have head (y : List Char) : (d :: p ++ y).head? = .some d := rfl
      rw [comment?_slash, comment?_slash, head, head]
      split
      · exact line (by decide) 1 (by simp)
      · split
        · exact (stays_blockComment some _).agrees bounded same
        · exact .none
  · by_cases sharp : c = '#'
    · subst sharp
      rw [comment?_sharp, comment?_sharp]
      cases p with
      | nil =>
        have plain : s ≠ '[' := ne_of_mem_breaks isBreak (by decide)
        rw [if_neg (by simpa using noAttribute rfl rfl), if_neg (by simpa using plain)]
        exact line (by decide) 0 (Nat.zero_le _)
      | cons d p =>
        have head (y : List Char) : (d :: p ++ y).head? = .some d := rfl
        rw [head, head]
        split
        · exact .none
        · exact line (by decide) 0 (Nat.zero_le _)
    · rw [comment?_other slash sharp, comment?_other slash sharp]
      exact .none

omit some in
/-- Tags agree if the words of opening tags do. -/
theorem agrees_tag (x : List Char)
    (word : c = '<' → ∀ q, p = '?' :: q → fits { kind := .openTag, more := 1 + tagWord (q ++ b) } →
      tagWord (q ++ s :: x) = tagWord (q ++ b)) :
    Agrees fits becomes (tag? c (p ++ b)) (tag? c (p ++ s :: x)) := by
  by_cases opens : c = '<'
  · subst opens
    cases p with
    | nil =>
      have other : tag? '<' (s :: x) = .none := by
        have plain : s ≠ '?' := ne_of_mem_breaks isBreak (by decide)
        simp [tag?_opening, plain]
      rw [List.nil_append, List.nil_append, other, tag?_opening]
      split
      · refine .unfit fun fit => ?_
        have bound : 1 + tagWord (b.drop 1) ≤ 0 := bounded _ fit
        omega
      · exact .none
    | cons d q =>
      have head (y : List Char) : (d :: q ++ y).head? = .some d := rfl
      have tail (y : List Char) : (d :: q ++ y).drop 1 = q ++ y := rfl
      rw [tag?_opening, tag?_opening, head, head, tail, tail]
      split
      next mark =>
        refine .some fun fit => ?_
        rw [word rfl q (by rw [Option.some.inj mark]) fit]
        exact same _
      · exact .none
  · by_cases ends : c = '?'
    · subst ends
      cases p with
      | nil =>
        have other : tag? '?' (s :: x) = .none := by
          have plain : s ≠ '>' := ne_of_mem_breaks isBreak (by decide)
          simp [tag?_closing, plain]
        rw [List.nil_append, List.nil_append, other, tag?_closing]
        split
        · refine .unfit fun fit => ?_
          have bound : 1 ≤ 0 := bounded _ fit
          omega
        · exact .none
      | cons d q =>
        have head (y : List Char) : (d :: q ++ y).head? = .some d := rfl
        rw [tag?_closing, tag?_closing, head, head]
        split
        · exact .some fun _ => same _
        · exact .none
    · have read (rest : List Char) : tag? c rest = .none := by simp [tag?, opens, ends]
      rw [read, read]
      exact .none

/-! ### The next lexeme -/

/-- The next lexeme by the order in which the recognisers are tried. -/
theorem lexeme_becomes (x : List Char)
    (whitespace : Agrees fits becomes (whitespace? c (p ++ b)) (whitespace? c (p ++ s :: x)))
    (comment : Agrees fits becomes (comment? c (p ++ b)) (comment? c (p ++ s :: x)))
    (tag : Agrees fits becomes (tag? c (p ++ b)) (tag? c (p ++ s :: x)))
    (heredoc : heredoc? c (p ++ b) = none → heredoc? c (p ++ s :: x) = none)
    (fit : fits (lexeme c (p ++ b))) : becomes (lexeme c (p ++ b)) (lexeme c (p ++ s :: x)) := by
  have literal : Stays p (heredoc? c (p ++ b)) (heredoc? c (p ++ s :: x)) :=
    ⟨heredoc, fun found there within => ⟨found, heredoc?_within some there within isBreak x, rfl⟩⟩
  have words : Stays p
      ((heredoc? c (p ++ b)).or <| (quoted? c (p ++ b)).or <| (dollarName? c (p ++ b)).or <|
        (number? c (p ++ b)).or (identifier? c (p ++ b)))
      ((heredoc? c (p ++ s :: x)).or <| (quoted? c (p ++ s :: x)).or <|
        (dollarName? c (p ++ s :: x)).or <| (number? c (p ++ s :: x)).or
        (identifier? c (p ++ s :: x))) :=
    literal.or <| (stays_quoted some _).or <| (stays_dollarName isBreak x).or <|
      (stays_number isBreak x).or (stays_identifier isBreak x)
  have agrees := whitespace.or <| comment.or <| tag.or (words.agrees bounded same)
  have read (y : List Char) : lexeme c y = ((whitespace? c y).or <| (comment? c y).or <|
      (tag? c y).or <| (heredoc? c y).or <| (quoted? c y).or <| (dollarName? c y).or <|
      (number? c y).or (identifier? c y)).getD (sign c y) := by
    simp only [lexeme, Option.orElse_eq_orElse, Option.orElse_eq_or]
  rw [read] at fit
  rw [read, read]
  generalize plain : (whitespace? c (p ++ b)).or _ = found at agrees fit ⊢
  cases found with
  | none =>
    rw [agrees.absent rfl, Option.getD_none, Option.getD_none, sign_break (bounded _ fit) isBreak x]
    exact same _
  | some found =>
    obtain ⟨next, there, turns⟩ := agrees.present found rfl fit
    rw [there]
    exact turns

end

end Lexeme

end CursorContext
