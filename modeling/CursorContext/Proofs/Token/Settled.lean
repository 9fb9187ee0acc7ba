import CursorContext.Proofs.Token.Spacing

/-!
Settled text. Where a token ends and a blank or a quote follows, that one character settles what stands
before it: the text behind it can be replaced and the tokens before it stay. Only a heredoc looks
further ahead, for the end of its opener.
-/
namespace CursorContext

namespace Lexeme

open Text

variable {c s : Char} {p x : List Char}

/-! ### Text of which the next character is known -/

theorem run_settled {q : Char → Bool} (within : run q (p ++ s :: x) ≤ p.length) (y : List Char) :
    run q (p ++ s :: y) = run q (p ++ s :: x) := by
  have same := run_of_within within
  rcases Nat.lt_or_eq_of_le (same ▸ within) with stops | passes
  · rw [same, run_append_of_lt stops]
  · have none : q s = false := by
      rw [run_append, if_pos passes, run] at within
      cases next : q s with
      | false => rfl
      | true =>
        rw [List.takeWhile_cons_of_pos next, List.length_cons] at within
        omega
    rw [same, run_append, if_pos passes, run, List.takeWhile_cons_of_neg (by simp [none]), passes]
    rfl

theorem stays_whitespace (x y : List Char) :
    Stays p (whitespace? c (p ++ s :: x)) (whitespace? c (p ++ s :: y)) := by
  unfold whitespace?
  split
  · exact .some fun within => by rw [run_settled within y]
  · exact .none

theorem head?_append_cons (p x y : List Char) : (p ++ s :: x).head? = (p ++ s :: y).head? := by
  cases p <;> rfl

theorem lengthUpTo_settled {mark : Char → Option Char → Bool}
    (alone : ∀ next other, mark s next = mark s other)
    (within : lengthUpTo mark (p ++ s :: x) ≤ p.length) (y : List Char) :
    lengthUpTo mark (p ++ s :: y) = lengthUpTo mark (p ++ s :: x) := by
  induction p with
  | nil =>
    have none : lengthUpTo mark (s :: x) = 0 := Nat.le_zero.mp within
    rw [lengthUpTo] at none
    split at none
    next marked =>
      rw [List.nil_append, List.nil_append, lengthUpTo, lengthUpTo, if_pos marked,
        if_pos (alone _ _ ▸ marked)]
    · cases none
  | cons d p ih =>
    rw [List.cons_append, lengthUpTo] at within
    rw [List.cons_append, List.cons_append, lengthUpTo, lengthUpTo, head?_append_cons p y x]
    split
    · rfl
    next unmarked =>
      rw [if_neg unmarked, List.length_cons] at within
      rw [ih (by omega)]

theorem stays_lineComment {skip : Nat} (isBreak : s ∈ breaks) (fits : skip ≤ p.length)
    (x y : List Char) :
    Stays p (some (lineComment skip (p ++ s :: x))) (some (lineComment skip (p ++ s :: y))) := by
  refine .some fun within => ?_
  have ended {more : Nat} (before : more ≤ p.length) (z : List Char) :
      (!((p ++ s :: z).drop more).isEmpty) = true := by
    rw [List.drop_append_of_le_length before]
    simp
  have alone : ∀ next other, endsLine s next = endsLine s other := by
    have question : (s == '?') = false :=
      beq_eq_false_iff_ne.mpr (ne_of_mem_breaks isBreak (by decide))
    simp [endsLine, question]
  unfold Within lineComment at within
  unfold lineComment
  dsimp only at within ⊢
  rw [List.drop_append_of_le_length fits, lineLength_eq] at within
  have short : lengthUpTo endsLine (p.drop skip ++ s :: x) ≤ (p.drop skip).length := by
    rw [List.length_drop]
    omega
  rw [List.drop_append_of_le_length fits, List.drop_append_of_le_length fits, lineLength_eq,
    lineLength_eq, lengthUpTo_settled alone short y, ended within, ended within]

/-- The word of an opening tag holds no break. -/
theorem tagWord_settled (isBreak : s ∈ breaks) (q x y : List Char) :
    tagWord (q ++ s :: y) = tagWord (q ++ s :: x) := by
  have unlike : ['p', 'h', 'p'].contains s.toLower = false :=
    eq_false_of_mem_breaks (q := fun s => ['p', 'h', 'p'].contains s.toLower) (by decide) s isBreak
  unfold tagWord
  rw [head?_append_cons q y x]
  by_cases short : q.length < 3
  · -- The break is among the three characters that would be the word.
    have other (z : List Char) :
        (((q ++ s :: z).take 3).map Char.toLower == ['p', 'h', 'p']) = false := by
      have held : s ∈ (q ++ s :: z).take 3 := by
        rw [List.take_append, List.take_cons (by omega)]
        simp
      rw [beq_eq_false_iff_ne]
      intro word
      have among := List.mem_map_of_mem (f := Char.toLower) held
      rw [word] at among
      rw [List.contains_iff_mem.mpr among] at unlike
      cases unlike
    rw [other, other, Bool.false_and, Bool.false_and]
  · have long : 3 ≤ q.length := Nat.le_of_not_lt short
    have ends : atWordEnd (q.drop 3 ++ s :: y) = atWordEnd (q.drop 3 ++ s :: x) := by
      cases q.drop 3 <;> rfl
    rw [List.take_append_of_le_length long, List.take_append_of_le_length long,
      List.drop_append_of_le_length long, List.drop_append_of_le_length long, ends]

/-- A lexeme that ends before a break is settled by it, if no heredoc begins with what follows. -/
theorem lexeme_settled (isBreak : s ∈ breaks)
    (within : (lexeme c (p ++ s :: x)).more ≤ p.length) (y : List Char)
    (heredoc : heredoc? c (p ++ s :: x) = none → heredoc? c (p ++ s :: y) = none) :
    lexeme c (p ++ s :: y) = lexeme c (p ++ s :: x) := by
  have bounded : ∀ found, Within p found → Within p found := fun _ within => within
  have same : ∀ found : Lexeme, found = found := fun _ => rfl
  have some : s :: x ≠ [] := List.cons_ne_nil s x
  have noAttribute : p = [] → c = '#' → (s :: x).head? ≠ .some '[' := by
    intro _ _ bracket
    exact ne_of_mem_breaks isBreak (by decide) (Option.some.inj bracket)
  refine (lexeme_becomes bounded same isBreak some y (stays_whitespace x y) ?_ ?_ heredoc
    within).symm
  · exact agrees_comment bounded same isBreak some y noAttribute
      fun _ skip fits => stays_lineComment isBreak fits x y
  · exact agrees_tag bounded same isBreak y fun _ q _ _ => tagWord_settled isBreak q x y

/-! ### Heredocs -/

theorem lexeme_of_heredoc? {rest : List Char} {found : Lexeme}
    (there : heredoc? c rest = some found) : lexeme c rest = found := by
  have opens := there
  unfold heredoc? at opens
  split at opens
  next marks =>
    obtain ⟨isLess, marked⟩ := Bool.and_eq_true_iff.mp marks
    obtain ⟨body, rfl⟩ := List.isPrefixOf_iff_prefix.mp marked
    cases eq_of_beq isLess
    have whitespace : whitespace? '<' (['<', '<'] ++ body) = none := rfl
    have comment : comment? '<' (['<', '<'] ++ body) = none := rfl
    have tag : tag? '<' (['<', '<'] ++ body) = none := rfl
    rw [lexeme, whitespace, comment, tag, there]
    rfl
  · cases opens

/-- Where the lexeme ends before the break with either text behind it, a heredoc begins with both or
with none. -/
theorem heredoc?_eq_none_of_within (isBreak : s ∈ breaks) {y : List Char}
    (within : (lexeme c (p ++ s :: y)).more ≤ p.length)
    (absent : heredoc? c (p ++ s :: x) = none) : heredoc? c (p ++ s :: y) = none := by
  cases there : heredoc? c (p ++ s :: y) with
  | none => rfl
  | some found =>
    rw [lexeme_of_heredoc? there] at within
    rw [heredoc?_within (List.cons_ne_nil s y) there within isBreak x] at absent
    cases absent

theorem newline_mem_dropWhile {q : Char → Bool} (plain : q '\n' = false) {cs : List Char}
    (newline : '\n' ∈ cs) : '\n' ∈ cs.dropWhile q := by
  rw [← List.takeWhile_append_dropWhile (p := q) (l := cs), List.mem_append] at newline
  refine newline.resolve_left fun taken => ?_
  have inside := List.mem_takeWhile_imp taken
  rw [plain] at inside
  cases inside

/-- The opener of a heredoc stands on one line. -/
theorem isSome_heredocLabel?_append {cs : List Char} (newline : '\n' ∈ cs) (x : List Char) :
    (heredocLabel? (cs ++ x)).isSome = (heredocLabel? cs).isSome := by
  have body := newline_mem_dropWhile (q := isIndent) (by decide) newline
  rw [isSome_heredocLabel?, isSome_heredocLabel?,
    dropWhile_append_of_ne_nil (List.ne_nil_of_mem body)]
  cases begun : cs.dropWhile isIndent with
  | nil => simp [begun] at body
  | cons first rest =>
    rw [begun] at body
    rw [List.cons_append, List.take_succ_cons, List.take_succ_cons, List.take_zero, List.take_zero]
    cases mark : isLabelQuote first with
    | false =>
      have quote : [first].filter isLabelQuote = [] := by simp [mark]
      rw [quote]
      rfl
    | true =>
      have quote : [first].filter isLabelQuote = [first] := by simp [mark]
      have inside : '\n' ∈ rest := by
        refine (List.mem_cons.mp body).resolve_left ?_
        rintro rfl
        cases mark
      have after := newline_mem_dropWhile (q := isWord) (by decide) inside
      rw [quote, List.length_singleton, List.drop_succ_cons, List.drop_succ_cons, List.drop_zero,
        List.drop_zero, dropWhile_append_of_ne_nil (List.ne_nil_of_mem after)]
      cases tail : rest.dropWhile isWord with
      | nil => simp [tail] at after
      | cons d tail =>
        cases rest with
        | nil => simp at inside
        | cons e rest => rfl

theorem heredoc?_append_none {rest : List Char} (newline : '\n' ∈ rest)
    (absent : heredoc? c rest = none) (x : List Char) : heredoc? c (rest ++ x) = none := by
  unfold heredoc? at absent ⊢
  by_cases isLess : (c == '<') = true
  · rw [isLess, Bool.true_and] at absent ⊢
    rcases rest with _ | ⟨first, _ | ⟨second, rest⟩⟩
    · simp at newline
    · cases List.mem_singleton.mp newline
      rfl
    · have same : ['<', '<'].isPrefixOf (first :: second :: rest ++ x) =
          ['<', '<'].isPrefixOf (first :: second :: rest) := rfl
      rw [same]
      split at absent
      next opens =>
        have marks : '<' = first ∧ '<' = second := by simpa [List.isPrefixOf] using opens
        obtain ⟨rfl, rfl⟩ := marks
        have later : '\n' ∈ rest := by simpa using newline
        rw [if_pos opens]
        rw [Option.map_eq_none_iff, ← Option.isNone_iff_eq_none, ← Option.not_isSome,
          Bool.not_eq_true'] at absent ⊢
        exact (isSome_heredocLabel?_append later x).trans absent
      next plain => rw [if_neg plain]
  · rw [if_neg (by simp [isLess])]

end Lexeme

/-! ### Scans up to a break -/

namespace Token

open Lexeme

variable {carry : Carry} {c s : Char} {p x y : List Char}

theorem lexemeAfter_settled (isBreak : s ∈ breaks)
    (within : (lexemeAfter carry c (p ++ s :: x)).more ≤ p.length)
    (heredoc : carry.html = false → heredoc? c (p ++ s :: x) = none →
      heredoc? c (p ++ s :: y) = none) :
    lexemeAfter carry c (p ++ s :: y) = lexemeAfter carry c (p ++ s :: x) := by
  cases html : carry.html with
  | false =>
    rw [lexemeAfter_code html] at within
    rw [lexemeAfter_code html, lexemeAfter_code html, lexeme_settled isBreak within y (heredoc html)]
  | true =>
    rw [lexemeAfter_html html] at within
    rw [lexemeAfter_html html, lexemeAfter_html html, head?_append_cons p y x]
    split
    next tag =>
      rw [if_pos tag] at within
      -- The second character of a tag begins no heredoc.
      have plain (z : List Char) : heredoc? c (p ++ s :: z) = none := by
        obtain ⟨rfl, mark⟩ : c = '<' ∧ (p ++ s :: x).head? = some '?' := by
          simpa [opensTag] using tag
        cases p with
        | nil => exact absurd (Option.some.inj mark) (ne_of_mem_breaks isBreak (by decide))
        | cons d p =>
          cases mark
          rfl
      rw [lexeme_settled isBreak within y fun _ => plain y]
    next text =>
      rw [if_neg text] at within
      have alone : ∀ next other, opensTag s next = opensTag s other := by
        have less : (s == '<') = false :=
          beq_eq_false_iff_ne.mpr (ne_of_mem_breaks isBreak (by decide))
        simp [opensTag, less]
      dsimp only at within
      rw [htmlLength_eq] at within
      rw [htmlLength_eq, htmlLength_eq, lengthUpTo_settled alone within y]

theorem boundary_of_break {start : Nat} {token : Token} (isBreak : s ∈ breaks)
    (found : token ∈ scanFrom carry start 0 (p ++ s :: x)) (begins : token.start = start + p.length) :
    Boundary (s :: x) carry p := by
  refine boundary_of_token found begins ?_
  intro _ _ _ _ _ bracket
  exact ne_of_mem_breaks isBreak (by decide) (Option.some.inj bracket)

/-- A place where a token begins with a break stays one when other text follows the break, if that
text begins no heredoc. -/
theorem Boundary.settled (isBreak : s ∈ breaks)
    (heredoc : ∀ c q, heredoc? c (q ++ s :: x) = none → heredoc? c (q ++ s :: y) = none)
    (boundary : Boundary (s :: x) carry p) : Boundary (s :: y) carry p := by
  induction boundary with
  | here => exact .here
  | @after carry c p within noAttribute later ih =>
    have same := lexemeAfter_settled (y := y) isBreak within fun _ => heredoc c p
    rw [ofLexeme_append within] at ih
    refine .after (by rwa [same]) noAttribute ?_
    rw [same, ofLexeme_append within]
    exact ih

/-- The tokens before a break are the same for all texts that follow it and leave a token begin
there. -/
theorem Boundary.common (isBreak : s ∈ breaks) (first : Boundary (s :: x) carry p)
    (second : Boundary (s :: y) carry p) (start : Nat) :
    ∃ front next,
      scanFrom carry start 0 (p ++ s :: x) = front ++ scanFrom next (start + p.length) 0 (s :: x) ∧
      scanFrom carry start 0 (p ++ s :: y) = front ++ scanFrom next (start + p.length) 0 (s :: y) := by
  induction first generalizing start with
  | @here carry => exact ⟨[], carry, rfl, rfl⟩
  | @after carry c p within noAttribute later ih =>
    cases second with
    | after within' _ later' =>
      -- Either lexeme ends before the break, so none is a heredoc that only one of the texts opens.
      have same := lexemeAfter_settled (y := y) isBreak within fun code absent => by
        rw [lexemeAfter_code code] at within'
        exact heredoc?_eq_none_of_within isBreak within' absent
      rw [same, ofLexeme_append within] at later'
      rw [ofLexeme_append within] at ih
      rw [List.cons_append, List.cons_append, scanFrom_cons, scanFrom_cons, same]
      dsimp only
      generalize lexemeAfter carry c (p ++ s :: x) = found at within later' ih ⊢
      have place : start + (found.more + 1) + (p.drop found.more).length =
          start + (c :: p).length := by
        rw [List.length_drop, List.length_cons]
        omega
      obtain ⟨front, next, scanned, scanned'⟩ := ih later' (start + (found.more + 1))
      rw [place] at scanned scanned'
      rw [ofLexeme_append within, ofLexeme_append within, List.drop_append_of_le_length within,
        List.drop_append_of_le_length within]
      exact ⟨ofLexeme carry start c p found :: front, next, congrArg _ scanned, congrArg _ scanned'⟩

end Token

end CursorContext
