import CursorContext.Proofs.Token.Brackets
import CursorContext.Proofs.Token.Spacing

/-!
Text in front of a tag. The text before the first tag is scanned as code. If nothing in it carries
syntax and it does not end in a comment, the scan comes to the tag as if it began there. If not, a token
that carries syntax begins in it, or the comment takes the tag in.
-/
namespace CursorContext

namespace Lexeme

open Text

variable {c s : Char} {rest p x : List Char} {found : Lexeme}

/-! ### Lengths in front of a character that ends them -/

theorem run_append_cons {q : Char → Bool} (stops : q s = false) (p x : List Char) :
    run q (p ++ s :: x) = run q p := by
  have none : run q (s :: x) = 0 := by simp [run, stops]
  rw [run_append, none]
  split
  next passes => rw [passes, Nat.add_zero]
  · rfl

theorem lengthUpTo_le (mark : Char → Option Char → Bool) (p : List Char) :
    lengthUpTo mark p ≤ p.length := by
  induction p with
  | nil => exact Nat.le_refl 0
  | cons d p ih =>
    rw [lengthUpTo]
    split
    · exact Nat.zero_le _
    · exact Nat.succ_le_succ ih

/-- A mark is looked for beyond `p` only if there is none in it. -/
theorem lengthUpTo_append {mark : Char → Option Char → Bool}
    (alone : ∀ d, mark d (some s) = mark d none) (p x : List Char) :
    lengthUpTo mark (p ++ s :: x) =
      if lengthUpTo mark p = p.length then p.length + lengthUpTo mark (s :: x)
      else lengthUpTo mark p := by
  induction p with
  | nil => simp [lengthUpTo]
  | cons d p ih =>
    have same : mark d (p ++ s :: x).head? = mark d p.head? := by
      cases p with
      | nil => exact alone d
      | cons e p => rfl
    rw [List.cons_append, lengthUpTo, lengthUpTo, same, ih]
    cases mark d p.head? with
    | true => simp
    | false =>
      simp only [Bool.false_eq_true, if_false, List.length_cons, Nat.add_right_cancel_iff]
      split <;> omega

theorem endsLine_less (d : Char) : endsLine d (some '<') = endsLine d none := by
  simp [endsLine]

theorem blockLength?_append_none (unclosed : blockLength? p = none)
    (later : blockLength? ('<' :: x) = none) :
    blockLength? (p ++ '<' :: x) = none := by
  induction p with
  | nil => exact later
  | cons d p ih =>
    have same : (d == '*' && (p ++ '<' :: x).head? == some '/') =
        (d == '*' && p.head? == some '/') := by
      cases p with
      | nil => simp
      | cons e p => rfl
    rw [blockLength?] at unclosed
    rw [List.cons_append, blockLength?, same]
    split at unclosed
    · cases unclosed
    next goesOn =>
      rw [if_neg goesOn, ih (Option.map_eq_none_iff.mp unclosed)]
      rfl

/-- An end mark lies within the text. -/
theorem blockLength?_le {length : Nat} (closed : blockLength? p = some length) :
    length ≤ p.length := by
  induction p generalizing length with
  | nil => cases closed
  | cons d p ih =>
    rw [blockLength?] at closed
    split at closed
    next ends =>
      cases closed
      cases p with
      | nil => simp at ends
      | cons e p => simp
    · obtain ⟨n, inner, rfl⟩ := Option.map_eq_some_iff.mp closed
      exact Nat.succ_le_succ (ih inner)

/-! ### Blanks, comments and tags -/

theorem whitespace?_append (c : Char) (p x : List Char) :
    whitespace? c (p ++ '<' :: x) = whitespace? c p := by
  rw [whitespace?, whitespace?, run_append_cons (by decide)]

theorem tagWord_append (p x : List Char) : tagWord (p ++ '<' :: x) = tagWord p := by
  rcases p with _ | ⟨d, _ | ⟨e, _ | ⟨f, _ | ⟨g, p⟩⟩⟩⟩
  · simp [tagWord]
  · simp [tagWord]
  · simp [tagWord]
  · have ends : atWordEnd ('<' :: x) = atWordEnd [] := rfl
    simp only [List.cons_append, List.nil_append, tagWord_cons, ends]
  · rfl

theorem tagWord_le (p : List Char) : tagWord p ≤ p.length := by
  unfold tagWord
  split
  next word =>
    have length := congrArg List.length (eq_of_beq (Bool.and_eq_true_iff.mp word).1)
    rw [List.length_map, List.length_take, List.length_cons] at length
    simp at length
    omega
  · split
    next sign =>
      cases p with
      | nil => cases sign
      | cons d p => simp
    · exact Nat.zero_le _

theorem tag?_append (c : Char) (p x : List Char) : tag? c (p ++ '<' :: x) = tag? c p := by
  cases p with
  | nil => simp [tag?]
  | cons d p =>
    have head : (d :: p ++ '<' :: x).head? = (d :: p).head? := rfl
    have word : tagWord ((d :: p ++ '<' :: x).drop 1) = tagWord ((d :: p).drop 1) :=
      tagWord_append p x
    rw [tag?, tag?, head, word]

theorem lineComment_complete {skip : Nat} (fits : skip ≤ p.length)
    (complete : (lineComment skip p).terminated = true) (x : List Char) :
    lineComment skip (p ++ '<' :: x) = lineComment skip p ∧ (lineComment skip p).more ≤ p.length := by
  have inside : skip + lineLength (p.drop skip) < p.length := by
    simpa [lineComment] using complete
  have same : lineLength (p.drop skip ++ '<' :: x) = lineLength (p.drop skip) := by
    rw [lineLength_eq, lineLength_eq, lengthUpTo_append endsLine_less, if_neg]
    rw [← lineLength_eq, List.length_drop]
    omega
  refine ⟨?_, Nat.le_of_lt inside⟩
  unfold lineComment
  dsimp only
  rw [List.drop_append_of_le_length fits, same, List.drop_append_of_le_length (Nat.le_of_lt inside)]
  cases behind : p.drop (skip + lineLength (p.drop skip)) with
  | nil =>
    have short := List.drop_eq_nil_iff.mp behind
    omega
  | cons d q => rfl

theorem lineComment_open {skip : Nat} (fits : skip ≤ p.length)
    (unclosed : (lineComment skip p).terminated = false)
    (line : lineLength ('<' :: x) = ('<' :: x).length) :
    lineComment skip p = { kind := .comment, more := p.length, terminated := false } ∧
      lineComment skip (p ++ '<' :: x) =
        { kind := .comment, more := (p ++ '<' :: x).length, terminated := false } := by
  have reaches : p.length ≤ skip + lineLength (p.drop skip) := by
    simpa [lineComment] using unclosed
  have bound := lengthUpTo_le endsLine (p.drop skip)
  rw [← lineLength_eq] at bound
  have whole : lineLength (p.drop skip) = (p.drop skip).length := by
    rw [List.length_drop] at bound ⊢
    omega
  have longer : lineLength (p.drop skip ++ '<' :: x) = (p.drop skip ++ '<' :: x).length := by
    rw [lineLength_eq] at whole line ⊢
    rw [lengthUpTo_append endsLine_less, if_pos whole, line, List.length_append]
  constructor
  · simp [lineComment, whole, List.length_drop, Nat.add_sub_cancel' fits]
  · unfold lineComment
    dsimp only
    rw [List.drop_append_of_le_length fits, longer, ← List.drop_append_of_le_length fits,
      List.length_drop, Nat.add_sub_cancel' (Nat.le_trans fits (by simp))]
    simp

theorem blockComment_complete {d : Char} (complete : (blockComment (d :: p)).terminated = true)
    (x : List Char) :
    blockComment (d :: p ++ '<' :: x) = blockComment (d :: p) ∧
      (blockComment (d :: p)).more ≤ (d :: p).length := by
  unfold blockComment at complete ⊢
  simp only [List.cons_append, List.drop_succ_cons, List.drop_zero] at complete ⊢
  cases closed : blockLength? p with
  | none => simp [closed] at complete
  | some length =>
    have within := blockLength?_le closed
    rw [← List.append_nil p] at closed
    rw [blockLength?_within closed within]
    exact ⟨rfl, Nat.succ_le_succ within⟩

theorem blockComment_open {d : Char} (unclosed : (blockComment (d :: p)).terminated = false)
    (block : blockLength? ('<' :: x) = none) :
    blockComment (d :: p) = { kind := .comment, more := (d :: p).length, terminated := false } ∧
      blockComment (d :: p ++ '<' :: x) =
        { kind := .comment, more := (d :: p ++ '<' :: x).length, terminated := false } := by
  unfold blockComment at unclosed ⊢
  simp only [List.cons_append, List.drop_succ_cons, List.drop_zero] at unclosed ⊢
  cases closed : blockLength? p with
  | none =>
    rw [blockLength?_append_none closed block]
    exact ⟨rfl, rfl⟩
  | some length => simp [closed] at unclosed

/-- Which comment begins at a place is decided by the next character, and the one that opens a tag
decides as the end of the text does. -/
theorem comment?_cases (there : comment? c p = some found) :
    (∃ skip ≤ p.length, found = lineComment skip p ∧
        ∀ x, comment? c (p ++ '<' :: x) = some (lineComment skip (p ++ '<' :: x))) ∨
      ∃ d q, p = d :: q ∧ found = blockComment p ∧
        ∀ x, comment? c (p ++ '<' :: x) = some (blockComment (p ++ '<' :: x)) := by
  by_cases slash : c = '/'
  · subst slash
    cases p with
    | nil => cases there
    | cons d q =>
      have read (y : List Char) : comment? '/' (d :: q ++ y) =
          if some d = some '/' then some (lineComment 1 (d :: q ++ y))
          else if some d = some '*' then some (blockComment (d :: q ++ y)) else none :=
        comment?_slash _
      have alone := read []
      rw [List.append_nil, there] at alone
      by_cases line : some d = some '/'
      · rw [if_pos line] at alone
        exact .inl ⟨1, by simp, Option.some.inj alone, fun x => (read _).trans (if_pos line)⟩
      · rw [if_neg line] at alone
        by_cases block : some d = some '*'
        · rw [if_pos block] at alone
          refine .inr ⟨d, q, rfl, Option.some.inj alone, fun x => ?_⟩
          rw [read, if_neg line, if_pos block]
        · rw [if_neg block] at alone
          cases alone
  · by_cases sharp : c = '#'
    · subst sharp
      rw [comment?_sharp] at there
      split at there
      · cases there
      next plain =>
        cases there
        refine .inl ⟨0, Nat.zero_le _, rfl, fun x => ?_⟩
        rw [comment?_sharp, if_neg]
        cases p with
        | nil => simp
        | cons d q => exact plain
    · rw [comment?_other slash sharp] at there
      cases there

theorem comment?_none (absent : comment? c p = none) (x : List Char) :
    comment? c (p ++ '<' :: x) = none := by
  cases p with
  | nil =>
    -- A number sign alone is a comment already, and a slash needs a certain sign behind it.
    have sharp : c ≠ '#' := by
      rintro rfl
      cases absent
    simp [comment?, sharp]
  | cons d q =>
    have head (y : List Char) : (d :: q ++ y).head? = some d := rfl
    unfold comment? at absent ⊢
    rw [head]
    rw [List.head?_cons] at absent
    split at absent
    · cases absent
    next line =>
    split at absent
    · cases absent
    next sharp =>
    split at absent
    · cases absent
    next block => rw [if_neg line, if_neg sharp, if_neg block]

/-! ### What carries no syntax -/

/-- Blanks, a comment or a tag. -/
def passed? (c : Char) (rest : List Char) : Option Lexeme :=
  (whitespace? c rest).or ((comment? c rest).or (tag? c rest))

theorem lexeme_of_passed? (there : passed? c rest = some found) : lexeme c rest = found := by
  simp only [lexeme, Option.orElse_eq_orElse, Option.orElse_eq_or, ← Option.or_assoc]
  rw [passed?, ← Option.or_assoc] at there
  rw [there]
  rfl

/-- No other recogniser gives trivia. -/
theorem isTrivia_of_passed?_none (absent : passed? c rest = none) :
    (lexeme c rest).kind.isTrivia = false := by
  simp only [passed?, Option.or_eq_none_iff] at absent
  obtain ⟨whitespace, comment, tag⟩ := absent
  have recognised := lexeme_recognised c rest
  generalize lexeme c rest = found at recognised
  simp only [List.mem_cons, List.not_mem_nil, or_false, whitespace, comment, tag] at recognised
  rcases recognised with rfl | there | there | there | there | there | there | there | there
  · grind [sign, Kind.isTrivia]
  · cases there
  · cases there
  · cases there
  · rw [kind_of_heredoc there.symm]
    rfl
  · grind [quoted?, Kind.isTrivia]
  · grind [dollarName?, Kind.isTrivia]
  · grind [number?, Kind.isTrivia]
  · rw [kind_of_identifier? there.symm]
    rfl

/-! ### One lexeme in front of a tag -/

/-- What becomes of the lexeme in front of `p` when a tag is put behind `p`. Complete trivia stays as
it is. A comment that is open takes the tag in, as far as the text of the tag does not end it. What
carries syntax alone carries syntax with the tag, though it may be another lexeme. -/
inductive FollowedBy (p tag : List Char) (alone followed : Lexeme) : Prop
  | passed (trivia : alone.kind.isTrivia = true) (complete : alone.terminated = true)
      (within : alone.more ≤ p.length) (same : followed = alone)
  | opened (unclosed : alone = { kind := .comment, more := p.length, terminated := false })
      (grown : lineLength tag = tag.length → blockLength? tag = none →
        followed = { kind := .comment, more := (p ++ tag).length, terminated := false })
  | read (carries : alone.kind.isTrivia = false) (carries' : followed.kind.isTrivia = false)

theorem comment?_followedBy (there : comment? c p = some found) (x : List Char) :
    ∃ followed, comment? c (p ++ '<' :: x) = some followed ∧ FollowedBy p ('<' :: x) found followed := by
  rcases comment?_cases there with ⟨skip, fits, rfl, read⟩ | ⟨d, q, rfl, rfl, read⟩
  · refine ⟨_, read x, ?_⟩
    cases ended : (lineComment skip p).terminated with
    | true =>
      obtain ⟨same, within⟩ := lineComment_complete fits ended x
      exact .passed rfl ended within same
    | false =>
      refine .opened ?_ fun line _ => (lineComment_open fits ended line).2
      exact (lineComment_open (x := []) fits ended rfl).1
  · refine ⟨_, read x, ?_⟩
    cases ended : (blockComment (d :: q)).terminated with
    | true =>
      obtain ⟨same, within⟩ := blockComment_complete ended x
      refine .passed ?_ ended within same
      unfold blockComment
      split <;> rfl
    | false =>
      refine .opened ?_ fun _ block => (blockComment_open ended block).2
      exact (blockComment_open (x := []) ended rfl).1

theorem passed?_followedBy (there : passed? c p = some found) (x : List Char) :
    ∃ followed, passed? c (p ++ '<' :: x) = some followed ∧ FollowedBy p ('<' :: x) found followed := by
  simp only [passed?, Option.or_eq_some_iff] at there
  rcases there with blanks | ⟨noBlanks, comment | ⟨noComment, tag⟩⟩
  · refine ⟨found, by rw [passed?, whitespace?_append, blanks, Option.some_or], ?_⟩
    unfold whitespace? at blanks
    split at blanks
    · cases blanks
      exact .passed rfl rfl (List.takeWhile_sublist _).length_le rfl
    · cases blanks
  · obtain ⟨followed, there, becomes⟩ := comment?_followedBy comment x
    refine ⟨followed, ?_, becomes⟩
    rw [passed?, whitespace?_append, noBlanks, there, Option.none_or, Option.some_or]
  · refine ⟨found, ?_, ?_⟩
    · rw [passed?, whitespace?_append, noBlanks, comment?_none noComment, tag?_append, tag,
        Option.none_or, Option.none_or]
    · cases p with
      | nil => simp [tag?] at tag
      | cons d q =>
        have word := tagWord_le q
        unfold tag? at tag
        split at tag
        · cases tag
          refine .passed rfl rfl ?_ rfl
          simp only [List.drop_succ_cons, List.drop_zero, List.length_cons]
          omega
        · split at tag
          · cases tag
            exact .passed rfl rfl (by simp) rfl
          · cases tag

theorem passed?_none (absent : passed? c p = none) (x : List Char) :
    passed? c (p ++ '<' :: x) = none := by
  simp only [passed?, Option.or_eq_none_iff] at absent ⊢
  obtain ⟨noBlanks, noComment, noTag⟩ := absent
  rw [whitespace?_append, tag?_append]
  exact ⟨noBlanks, comment?_none noComment x, noTag⟩

theorem lexeme_followedBy (c : Char) (p x : List Char) :
    FollowedBy p ('<' :: x) (lexeme c p) (lexeme c (p ++ '<' :: x)) := by
  cases there : passed? c p with
  | none =>
    exact .read (isTrivia_of_passed?_none there) (isTrivia_of_passed?_none (passed?_none there x))
  | some found =>
    obtain ⟨followed, there', becomes⟩ := passed?_followedBy there x
    rw [lexeme_of_passed? there, lexeme_of_passed? there']
    exact becomes

end Lexeme

namespace Token

open Lexeme

variable {carry : Carry} {c : Char} {p x : List Char}

/-- HTML goes up to the tag, and a tag in HTML is read as in code. -/
theorem lexemeAfter_followedBy (carry : Carry) (c : Char) (p x : List Char) :
    FollowedBy p ('<' :: '?' :: x) (lexemeAfter carry c p)
      (lexemeAfter carry c (p ++ '<' :: '?' :: x)) := by
  have becomes := lexeme_followedBy c p ('?' :: x)
  cases html : carry.html with
  | false => rwa [lexemeAfter_code html, lexemeAfter_code html]
  | true =>
    have alone (d : Char) : opensTag d (some '<') = opensTag d none := by simp [opensTag]
    have opens : opensTag c (p ++ '<' :: '?' :: x).head? = opensTag c p.head? := by
      cases p with
      | nil => exact alone c
      | cons d p => rfl
    rw [lexemeAfter_html html, lexemeAfter_html html, opens]
    split
    · exact becomes
    · have within := lengthUpTo_le opensTag p
      have length : htmlLength (p ++ '<' :: '?' :: x) = htmlLength p := by
        have tag : lengthUpTo opensTag ('<' :: '?' :: x) = 0 := rfl
        rw [htmlLength_eq, htmlLength_eq, lengthUpTo_append alone, tag]
        split <;> omega
      rw [← htmlLength_eq] at within
      rw [length]
      exact .passed rfl rfl within rfl

theorem isTrivia_ofLexeme (carry : Carry) (start : Nat) (c : Char) (rest : List Char)
    (found : Lexeme) : (ofLexeme carry start c rest found).isTrivia = found.kind.isTrivia := by
  unfold isTrivia ofLexeme
  dsimp only
  split
  next reserved =>
    have word : found.kind = .identifier := by simpa using (Bool.and_eq_true_iff.mp reserved).1
    rw [word]
    rfl
  · rfl

/-! ### The whole text in front of a tag -/

/-- Nothing carries syntax, and no comment is open at the end. -/
def Passed (tokens : List Token) : Prop := logical tokens = [] ∧ endsInComment tokens = false

instance (tokens : List Token) : Decidable (Passed tokens) := inferInstanceAs (Decidable (_ ∧ _))

theorem logical_cons_trivia {token : Token} (trivia : token.isTrivia = true) (rest : List Token) :
    logical (token :: rest) = logical rest := by
  simp [logical, trivia]

theorem passed_cons {token : Token} (trivia : token.isTrivia = true)
    (complete : token.terminated = true) (rest : List Token) :
    Passed (token :: rest) ↔ Passed rest := by
  unfold Passed
  rw [logical_cons_trivia trivia]
  cases rest with
  | nil => simp [endsInComment, complete]
  | cons next rest =>
    have ends : endsInComment (token :: next :: rest) = endsInComment (next :: rest) :=
      endsInComment_append [token] (List.cons_ne_nil next rest)
    rw [ends]

/-- Text that is passed over is scanned in front of a tag as it is alone, and the tag as if nothing had
been before. Of other text, what carries syntax begins before the tag, or the tag is part of a comment,
unless it ends the comment. -/
theorem scanFrom_before_tag (carry : Carry) (start : Nat) (p x : List Char) :
    (Passed (scanFrom carry start 0 p) ∧
        scanFrom carry start 0 (p ++ '<' :: '?' :: x) =
          scanFrom carry start 0 p ++
            scanFrom { member := carry.member } (start + p.length) 0 ('<' :: '?' :: x)) ∨
      (¬ Passed (scanFrom carry start 0 p) ∧
        (lineLength ('<' :: '?' :: x) = ('<' :: '?' :: x).length →
          blockLength? ('<' :: '?' :: x) = none →
          logical (scanFrom carry start 0 (p ++ '<' :: '?' :: x)) = [] ∨
            ∃ token ∈ logical (scanFrom carry start 0 (p ++ '<' :: '?' :: x)),
              token.start < start + p.length)) := by
  -- On the length of what is left before the tag, since each lexeme takes several characters.
  generalize length : p.length = n
  induction n using Nat.strongRecOn generalizing carry start p with
  | ind n ih =>
    cases p with
    | nil =>
      subst length
      refine .inl ⟨⟨rfl, rfl⟩, ?_⟩
      obtain ⟨member, html⟩ := carry
      cases html with
      | false => rfl
      | true => exact scanFrom_html member start ('<' :: '?' :: x)
    | cons c p =>
      have becomes := lexemeAfter_followedBy carry c p x
      rw [List.cons_append, scanFrom_cons, scanFrom_cons]
      dsimp only
      generalize lexemeAfter carry c p = alone at becomes ⊢
      generalize lexemeAfter carry c (p ++ '<' :: '?' :: x) = followed at becomes ⊢
      rw [List.length_cons] at length
      cases becomes with
      | passed trivia complete within same =>
        -- Both scans hand out the same token and go on at the same place.
        subst same
        have trivia : (ofLexeme carry start c p followed).isTrivia = true := by
          rwa [isTrivia_ofLexeme]
        have member : (carry.after (ofLexeme carry start c p followed)).member = carry.member := by
          simp [Carry.after, trivia]
        have shorter : (p.drop followed.more).length < n := by
          rw [List.length_drop]
          omega
        have place : start + (followed.more + 1) + (p.drop followed.more).length = start + n := by
          rw [List.length_drop]
          omega
        have later := ih _ shorter (carry.after (ofLexeme carry start c p followed))
          (start + (followed.more + 1)) (p.drop followed.more) rfl
        rw [place, member] at later
        rw [ofLexeme_append within, List.drop_append_of_le_length within,
          passed_cons trivia complete, logical_cons_trivia trivia, List.cons_append, List.cons.injEq]
        exact later.imp_left fun both => ⟨both.1, rfl, both.2⟩
      | opened unclosed grown =>
        -- The comment is the last token either way, alone and with the tag in it.
        subst unclosed
        rw [List.drop_length]
        right
        refine ⟨fun passed => ?_, fun line block => .inl ?_⟩
        · cases passed.2
        · rw [grown line block, List.drop_length]
          rfl
      | read carries carries' =>
        -- Whatever the lexeme is with the tag behind it, its token begins here.
        right
        refine ⟨fun passed => ?_, fun _ _ => .inr ⟨_, List.mem_filter.mpr ⟨List.mem_cons_self, ?_⟩, ?_⟩⟩
        · have first := passed.1
          simp [logical, isTrivia_ofLexeme, carries] at first
        · rw [isTrivia_ofLexeme, carries']
          rfl
        · dsimp only [ofLexeme]
          omega

end Token

end CursorContext
