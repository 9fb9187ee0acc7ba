import CursorContext.Proofs.Token.Brackets
import CursorContext.Proofs.Token.Literal
import Mathlib.Data.List.DropRight

/-!
Tokens that the end of the source cuts off. Only strings and comments can be, and only the last token
is. Whether a quoted literal has its end is a matter of reading it from left to right, where a
backslash takes the next character along; counting the backslashes before its last character gives
the same answer.
-/
namespace CursorContext

namespace Lexeme

/-! ### Quotes behind escapes -/

/-- A text in which no `quote` is met, reading from left to right with a backslash that protects the
character behind it. -/
inductive Unquoted (quote : Char) : List Char → Prop
  | nil : Unquoted quote []
  | plain {c : Char} {rest : List Char} (other : c ≠ quote) (unescaped : c ≠ '\\')
      (later : Unquoted quote rest) : Unquoted quote (c :: rest)
  | escaped (c : Char) {rest : List Char} (later : Unquoted quote rest) :
      Unquoted quote ('\\' :: c :: rest)

variable {quote : Char} {cs inside : List Char}

/-- What is read before the quote that ends a literal. A character is protected by the one in front of
the text. -/
theorem unquoted_of_closingQuote? {protect : Bool} {length : Nat}
    (found : closingQuote? quote protect cs = some length) :
    ∃ inside rest, cs = inside ++ quote :: rest ∧ length = inside.length + 1 ∧
      Unquoted quote (if protect then '\\' :: inside else inside) := by
  induction cs generalizing protect length with
  | nil => cases found
  | cons c rest ih =>
    rw [closingQuote?] at found
    split at found
    next ends =>
      simp only [Bool.and_eq_true, Bool.not_eq_true', beq_iff_eq] at ends
      obtain ⟨rfl, rfl⟩ := ends
      cases found
      exact ⟨[], rest, rfl, rfl, .nil⟩
    next goesOn =>
      obtain ⟨n, later, rfl⟩ := Option.map_eq_some_iff.mp found
      obtain ⟨inside, behind, rfl, rfl, read⟩ := ih later
      refine ⟨c :: inside, behind, rfl, rfl, ?_⟩
      -- A protected character is one of a pair, whatever it is; a backslash begins a pair.
      cases protect with
      | true => exact .escaped c read
      | false =>
        by_cases escape : c = '\\'
        · subst escape
          exact read
        · have other : c ≠ quote := by simpa using goesOn
          have unprotected : (!false && c == '\\') = false := by simp [escape]
          rw [unprotected] at read
          exact .plain other escape read

theorem closingQuote?_of_unquoted (isQuote : quote ≠ '\\') (read : Unquoted quote inside)
    (rest : List Char) :
    closingQuote? quote false (inside ++ quote :: rest) = some (inside.length + 1) := by
  induction read with
  | nil => simp [closingQuote?]
  | plain other unescaped _ ih =>
    simp [closingQuote?, beq_eq_false_iff_ne.mpr other, beq_eq_false_iff_ne.mpr unescaped, ih]
  | escaped c _ ih => simp [closingQuote?, isQuote.symm, ih]

/-! ### Counting backslashes -/

/-- Whether the character behind a text is protected. -/
def protects (protect : Bool) (cs : List Char) : Bool :=
  cs.foldl (fun protect c => !protect && c == '\\') protect

/-- A character is protected if an odd number of backslashes stands in front of it. -/
theorem protects_eq_odd (cs : List Char) :
    protects false cs = decide ((cs.rtakeWhile (· == '\\')).length % 2 = 1) := by
  -- From the right end: one more backslash turns the answer round, anything else starts anew.
  induction cs using List.reverseRecOn with
  | nil => rfl
  | append_singleton cs c ih =>
    have step : protects false (cs ++ [c]) = (!protects false cs && c == '\\') := by
      simp [protects]
    rw [step, ih]
    by_cases escape : c = '\\'
    · subst escape
      rw [List.rtakeWhile_concat_pos _ _ _ (by rfl), List.length_append, List.length_singleton]
      by_cases odd : (cs.rtakeWhile (· == '\\')).length % 2 = 1
      · simp [odd, Nat.add_mod]
      · simp [Nat.add_mod, Nat.mod_two_ne_one.mp odd]
    · rw [List.rtakeWhile_concat_neg _ _ _ (by simpa using escape)]
      simp [escape]

theorem protects_of_unquoted (read : Unquoted quote inside) : protects false inside = false := by
  induction read with
  | nil => rfl
  | plain other unescaped _ ih =>
    simpa [protects, beq_eq_false_iff_ne.mpr unescaped] using ih
  | escaped c _ ih => simpa [protects] using ih

/-- A quote with which a text ends does not end the literal only if it is protected. -/
theorem protects_of_unclosed {protect : Bool}
    (unclosed : closingQuote? quote protect (inside ++ [quote]) = none) :
    protects protect inside = true := by
  induction inside generalizing protect with
  | nil => simpa [closingQuote?, protects] using unclosed
  | cons c rest ih =>
    rw [List.cons_append, closingQuote?] at unclosed
    split at unclosed
    · cases unclosed
    · exact ih (Option.map_eq_none_iff.mp unclosed)

/-! ### Block comments -/

theorem blockLength?_eq_none_iff (cs : List Char) :
    blockLength? cs = none ↔ ¬['*', '/'] <:+: cs := by
  induction cs with
  | nil => simp [blockLength?]
  | cons c rest ih =>
    have first : ['*', '/'] <+: c :: rest ↔ (c == '*' && rest.head? == some '/') = true := by
      rw [List.cons_prefix_cons, Bool.and_eq_true, beq_iff_eq, beq_iff_eq, eq_comm]
      cases rest <;> simp [List.cons_prefix_cons, @eq_comm _ '/']
    rw [blockLength?, List.infix_cons_iff, first]
    split
    next ends => simp [ends]
    next goesOn => simp [goesOn, ih]

/-- A comment goes on through its first end mark. -/
theorem split_of_blockLength? {length : Nat} (found : blockLength? cs = some length) :
    ∃ inside rest, cs = inside ++ '*' :: '/' :: rest ∧ length = inside.length + 2 := by
  induction cs generalizing length with
  | nil => cases found
  | cons c rest ih =>
    rw [blockLength?] at found
    split at found
    next ends =>
      simp only [Bool.and_eq_true, beq_iff_eq] at ends
      obtain ⟨rfl, slash⟩ := ends
      obtain ⟨behind, rfl⟩ := List.head?_eq_some_iff.mp slash
      cases found
      exact ⟨[], behind, rfl, rfl⟩
    next =>
      obtain ⟨n, later, rfl⟩ := Option.map_eq_some_iff.mp found
      obtain ⟨inside, behind, rfl, rfl⟩ := ih later
      exact ⟨c :: inside, behind, rfl, rfl⟩

/-! ### Lexemes that reach the end -/

theorem unterminated_comment? {c : Char} {rest : List Char} {found : Lexeme}
    (there : comment? c rest = some found) (cut : found.terminated = false) :
    rest.length ≤ found.more := by
  unfold comment? at there
  have line (skip : Nat) (open_ : (lineComment skip rest).terminated = false) :
      rest.length ≤ (lineComment skip rest).more := by
    simpa [lineComment] using open_
  split at there
  · cases there
    exact line 1 cut
  · split at there
    · cases there
      exact line 0 cut
    · split at there
      · cases there
        unfold blockComment at cut ⊢
        split at cut
        · cases cut
        · exact Nat.le_refl _
      · cases there

theorem unterminated_heredoc? {c : Char} {rest : List Char} {found : Lexeme}
    (there : heredoc? c rest = some found) (cut : found.terminated = false) :
    rest.length ≤ found.more := by
  unfold heredoc? at there
  split at there
  · obtain ⟨⟨label, after⟩, -, rfl⟩ := Option.map_eq_some_iff.mp there
    dsimp only at cut ⊢
    split at cut
    · cases cut
    · exact Nat.le_refl _
  · cases there

/-- Only strings and comments are cut off, and nothing is left behind them. -/
theorem unterminated_lexeme {c : Char} {rest : List Char}
    (cut : (lexeme c rest).terminated = false) :
    ((lexeme c rest).kind = .string ∨ (lexeme c rest).kind = .comment) ∧
      rest.length ≤ (lexeme c rest).more := by
  rcases lexeme_recognised c rest with last | recognised
  · rw [last] at cut
    grind [sign]
  · generalize lexeme c rest = found at recognised cut ⊢
    simp only [List.mem_cons, List.not_mem_nil, or_false] at recognised
    rcases recognised with there | there | there | there | there | there | there | there
    · grind [whitespace?]
    · refine ⟨.inr ?_, unterminated_comment? there.symm cut⟩
      grind [comment?, lineComment, blockComment]
    · grind [tag?]
    · exact ⟨.inl (kind_of_heredoc there.symm), unterminated_heredoc? there.symm cut⟩
    · grind [quoted?]
    · grind [dollarName?]
    · grind [number?]
    · grind [identifier?]

end Lexeme

namespace Token

variable {source : String} {token : Token}

/-! ### Tokens and their places -/

/-- A token of the code is the lexeme at its place, but for the words that are reserved. -/
theorem lexeme_of_mem_scan (member : token ∈ scan source) (code : token.kind ≠ .inlineHtml) :
    ∃ c rest, source.toList.drop token.start = c :: rest ∧
      token.text.toList = c :: rest.take (lexeme c rest).more ∧
      token.terminated = (lexeme c rest).terminated ∧
      (token.kind = .keyword ∨ token.kind = (lexeme c rest).kind) := by
  obtain ⟨carry, front, c, rest, -, split, rfl, -⟩ := place_of_mem_scanFrom member
  have found : lexemeAfter carry c rest = lexeme c rest := by
    apply lexemeAfter_eq_lexeme
    intro html
    simp [ofLexeme, html] at code
  refine ⟨c, rest, ?_, ?_, ?_, ?_⟩
  · simp [split, ofLexeme]
  · simp [ofLexeme, found]
  · simp [ofLexeme, found]
  · simp only [ofLexeme, found]
    split <;> simp

/-- A token that is cut off is a string or a comment and the last one, and it ends with the source. -/
theorem last_of_unterminated (member : token ∈ scan source) (cut : token.terminated = false) :
    (token.kind = .string ∨ token.kind = .comment) ∧ (scan source).getLast? = some token ∧
      token.stop = source.length := by
  obtain ⟨carry, front, c, rest, earlier, split, made, scanned⟩ := place_of_mem_scanFrom member
  have found : lexemeAfter carry c rest = lexeme c rest := by
    -- Text between the tags is never cut off.
    unfold lexemeAfter
    split
    next html => simp [made, ofLexeme, lexemeAfter, html] at cut
    · rfl
  have cut' : (lexeme c rest).terminated = false := by
    simpa [made, ofLexeme, found] using cut
  obtain ⟨kind, reaches⟩ := Lexeme.unterminated_lexeme cut'
  -- Its lexeme takes all that is left, and nothing is scanned behind it.
  rw [found, scanFrom_skip (carry.after token), List.drop_eq_nil_of_le reaches] at scanned
  refine ⟨?_, ?_, ?_⟩
  · rcases kind with kind | kind <;> simp [made, ofLexeme, found, kind]
  · simp [scan, scanned, scanFrom]
  · rw [← String.length_toList, split]
    simp [made, stop, ofLexeme, found, List.take_of_length_le reaches, Nat.add_comm 1]

section Block

variable (member : token ∈ scan source) (comment : token.kind = .comment)
  (begins : ['/', '*'] <+: token.text.toList)

include member comment begins

/-- What stands behind the mark that begins a block comment says how far it goes. -/
theorem block_of_mem_scan :
    let behind := source.toList.drop (token.start + 2)
    let closing := Lexeme.blockLength? behind
    token.text.toList = '/' :: '*' :: behind.take (closing.getD behind.length) ∧
      token.terminated = closing.isSome := by
  intro behind closing
  obtain ⟨c, rest, placed, text, terminated, -⟩ := lexeme_of_mem_scan member (by simp [comment])
  rw [text, List.cons_prefix_cons] at begins
  obtain ⟨rfl, second⟩ := begins
  cases rest with
  | nil => simp at second
  | cons d rest =>
    -- The mark is in the text, so the source goes on with it and is read as a block comment.
    have star : d = '*' := by
      obtain ⟨later, split⟩ := second
      have first := congrArg List.head? split
      rw [List.head?_take] at first
      split at first
      · cases first
      · exact (Option.some.inj first).symm
    subst star
    have behind_eq : behind = rest := by
      simp only [behind]
      rw [← List.drop_drop, placed]
      rfl
    have found : lexeme '/' ('*' :: rest) = Lexeme.blockComment ('*' :: rest) := rfl
    rw [text, terminated, found, Lexeme.blockComment, List.drop_one, List.tail_cons]
    simp only [closing, behind_eq]
    cases Lexeme.blockLength? rest <;> simp

theorem unterminated_block_iff :
    token.terminated = false ↔ ¬['*', '/'] <:+: source.toList.drop (token.start + 2) := by
  rw [(block_of_mem_scan member comment begins).2, ← Lexeme.blockLength?_eq_none_iff,
    Option.isSome_eq_false_iff, Option.isNone_iff_eq_none]

/-- Its own text shows whether a block comment has its end, except that in three characters the two
marks would share the asterisk. -/
theorem terminated_block_iff :
    token.terminated = true ↔
      4 ≤ token.text.toList.length ∧ ['*', '/'] <:+ token.text.toList := by
  obtain ⟨text, terminated⟩ := block_of_mem_scan member comment begins
  rw [text, terminated]
  cases closing : Lexeme.blockLength? (source.toList.drop (token.start + 2)) with
  | some length =>
    obtain ⟨inside, rest, split, rfl⟩ := Lexeme.split_of_blockLength? closing
    have taken : (source.toList.drop (token.start + 2)).take (inside.length + 2) =
        inside ++ ['*', '/'] := by
      rw [split, List.take_length_add_append]
      rfl
    simp only [Option.getD_some, Option.isSome_some, taken, true_iff]
    exact ⟨by simp, '/' :: '*' :: inside, rfl⟩
  | none =>
    simp only [Option.getD_none, Option.isSome_none, List.take_length, Bool.false_eq_true, false_iff]
    rintro ⟨long, ends⟩
    -- Two characters or more stand behind the first mark, so the last two are among them.
    have within : ['*', '/'] <:+ source.toList.drop (token.start + 2) :=
      List.suffix_of_suffix_length_le ends (List.suffix_append ['/', '*'] _)
        (by simpa using long)
    exact (Lexeme.blockLength?_eq_none_iff _).mp closing within.isInfix

end Block

/-! ### Quoted literals -/

section Quoted

variable {quote : Char}

theorem ne_escape_of_mem_quotes (isQuote : quote ∈ quotes) : quote ≠ '\\' := by
  rintro rfl
  exact absurd isQuote (by decide)

variable (member : token ∈ scan source) (string : token.kind = .string) (isQuote : quote ∈ quotes)
  (begins : token.text.toList.head? = some quote)

include member string isQuote begins

/-- What stands behind the first quote of a literal says how far it goes. -/
theorem literal_of_mem_scan :
    let behind := source.toList.drop (token.start + 1)
    let closing := Lexeme.closingQuote? quote false behind
    token.text.toList = quote :: behind.take (closing.getD behind.length) ∧
      token.terminated = closing.isSome := by
  intro behind closing
  obtain ⟨c, rest, placed, text, terminated, -⟩ := lexeme_of_mem_scan member (by simp [string])
  have first : c = quote := by simpa [text] using begins
  subst first
  have rest_eq : rest = behind := by
    simp only [behind, ← List.drop_drop, placed, List.drop_one, List.tail_cons]
  subst rest_eq
  have found := Lexeme.lexeme_of_quote isQuote behind
  rw [Lexeme.quoted?, if_pos (by simpa using isQuote)] at found
  rw [text, terminated]
  cases closed : closing with
  | none =>
    simp only [show Lexeme.closingQuote? c false behind = none from closed] at found
    simp [Option.some.inj found]
  | some more =>
    simp only [show Lexeme.closingQuote? c false behind = some more from closed] at found
    simp [Option.some.inj found]

/-- A literal has its end if reading from left to right comes to a quote that nothing protects. -/
theorem terminated_iff_unquoted :
    token.terminated = true ↔ ∃ inside, Lexeme.Unquoted quote inside ∧
      inside ++ [quote] <+: source.toList.drop (token.start + 1) := by
  rw [(literal_of_mem_scan member string isQuote begins).2, Option.isSome_iff_exists]
  constructor
  · rintro ⟨length, closing⟩
    obtain ⟨inside, rest, split, -, read⟩ := Lexeme.unquoted_of_closingQuote? closing
    exact ⟨inside, read, rest, by simp [split]⟩
  · rintro ⟨inside, read, rest, split⟩
    refine ⟨inside.length + 1, ?_⟩
    rw [← split, List.append_assoc]
    exact Lexeme.closingQuote?_of_unquoted (ne_escape_of_mem_quotes isQuote) read rest

/-- The first such quote is where the literal ends. -/
theorem text_of_unquoted {inside : List Char} (read : Lexeme.Unquoted quote inside)
    (stands : inside ++ [quote] <+: source.toList.drop (token.start + 1)) :
    token.text.toList = quote :: (inside ++ [quote]) := by
  obtain ⟨rest, split⟩ := stands
  rw [(literal_of_mem_scan member string isQuote begins).1, ← split, List.append_assoc]
  rw [List.singleton_append,
    Lexeme.closingQuote?_of_unquoted (ne_escape_of_mem_quotes isQuote) read rest, Option.getD_some,
    List.take_length_add_append]
  rfl

/-- A literal without an end goes on to the end of the source. -/
theorem text_of_unterminated (cut : token.terminated = false) :
    token.text.toList = quote :: source.toList.drop (token.start + 1) ∧
      Lexeme.closingQuote? quote false (source.toList.drop (token.start + 1)) = none := by
  obtain ⟨text, terminated⟩ := literal_of_mem_scan member string isQuote begins
  have unclosed : Lexeme.closingQuote? quote false (source.toList.drop (token.start + 1)) = none := by
    rw [← Option.isNone_iff_eq_none, ← Option.not_isSome, ← terminated, cut]
    rfl
  rw [unclosed, Option.getD_none, List.take_length] at text
  exact ⟨text, unclosed⟩

/-- Read backwards, an even number of backslashes in front of the last quote says the same. -/
theorem terminated_iff_even :
    token.terminated = true ↔ ∃ inside, token.text.toList = quote :: (inside ++ [quote]) ∧
      (inside.rtakeWhile (· == '\\')).length % 2 = 0 := by
  constructor
  · intro terminated
    obtain ⟨inside, read, stands⟩ :=
      (terminated_iff_unquoted member string isQuote begins).mp terminated
    refine ⟨inside, text_of_unquoted member string isQuote begins read stands, ?_⟩
    have free := Lexeme.protects_of_unquoted read
    rw [Lexeme.protects_eq_odd, decide_eq_false_iff_not] at free
    exact Nat.mod_two_ne_one.mp free
  · rintro ⟨inside, text, even⟩
    -- If it were cut off, the last quote would be in the rest of the source and so be protected.
    by_contra cut
    obtain ⟨whole, unclosed⟩ :=
      text_of_unterminated member string isQuote begins (Bool.eq_false_iff.mpr cut)
    rw [text, List.cons.injEq] at whole
    rw [← whole.2] at unclosed
    have odd := Lexeme.protects_of_unclosed unclosed
    rw [Lexeme.protects_eq_odd, decide_eq_true_iff] at odd
    omega

/-- The quotes around what a literal says are all that its text has besides. -/
theorem text_eq_contents :
    token.text = String.singleton quote ++ token.contents ++
      if token.terminated then String.singleton quote else "" := by
  apply String.toList_inj.mp
  cases terminated : token.terminated with
  | true =>
    obtain ⟨inside, read, stands⟩ :=
      (terminated_iff_unquoted member string isQuote begins).mp terminated
    have text := text_of_unquoted member string isQuote begins read stands
    simp [contents, text, isQuote, terminated]
  | false =>
    have text := (text_of_unterminated member string isQuote begins terminated).1
    simp [contents, text, isQuote, terminated]

end Quoted

/-! ### Tokens that are cut off -/

/-- The flag of a token is exact. What is cut off is a string or a comment, and nothing follows it. A
block comment is cut off if its end mark is nowhere behind its beginning; or, from its text alone, it
is complete if that ends with the mark and has room for both marks. A quoted literal is complete if a
quote that no backslash protects follows the first one, and then it ends with the first such quote;
or, read backwards, if it ends with a quote behind an even number of backslashes. Its text is what it
says in its quotes. -/
theorem terminated_exactly (source : String) :
    (∀ token ∈ scan source, token.terminated = false →
      (token.kind = .string ∨ token.kind = .comment) ∧
        (scan source).getLast? = some token ∧ token.stop = source.length) ∧
    (∀ token ∈ scan source, token.kind = .comment → ['/', '*'] <+: token.text.toList →
      (token.terminated = false ↔ ¬['*', '/'] <:+: source.toList.drop (token.start + 2)) ∧
      (token.terminated = true ↔
        4 ≤ token.text.toList.length ∧ ['*', '/'] <:+ token.text.toList)) ∧
    (∀ token ∈ scan source, ∀ quote ∈ quotes, token.kind = .string →
      token.text.toList.head? = some quote →
      (token.terminated = true ↔ ∃ inside, Lexeme.Unquoted quote inside ∧
        inside ++ [quote] <+: source.toList.drop (token.start + 1)) ∧
      (∀ inside, Lexeme.Unquoted quote inside →
        inside ++ [quote] <+: source.toList.drop (token.start + 1) →
        token.text.toList = quote :: (inside ++ [quote])) ∧
      (token.terminated = true ↔ ∃ inside, token.text.toList = quote :: (inside ++ [quote]) ∧
        (inside.rtakeWhile (· == '\\')).length % 2 = 0) ∧
      token.text = String.singleton quote ++ token.contents ++
        if token.terminated then String.singleton quote else "") := by
  refine ⟨?_, ?_, ?_⟩
  · intro token member cut
    exact last_of_unterminated member cut
  · intro token member comment begins
    exact ⟨unterminated_block_iff member comment begins,
      terminated_block_iff member comment begins⟩
  · intro token member quote isQuote string begins
    refine ⟨terminated_iff_unquoted member string isQuote begins, ?_,
      terminated_iff_even member string isQuote begins,
      text_eq_contents member string isQuote begins⟩
    intro inside read stands
    exact text_of_unquoted member string isQuote begins read stands

/-- A literal with a protected quote in it, and a comment whose beginning looks like its end. -/
theorem terminated_exactly_mixed :
    let source := "'\\'\\\\'/*/"
    let literal : Token := { kind := .string, text := "'\\'\\\\'", start := 0 }
    let comment : Token := { kind := .comment, text := "/*/", start := 6, terminated := false }
    scan source = [literal, comment] ∧
      comment.stop = source.length ∧ ¬['*', '/'] <:+: source.toList.drop 8 ∧
      ¬4 ≤ comment.text.toList.length ∧ ['*', '/'] <:+ comment.text.toList ∧
      (∃ inside, Lexeme.Unquoted '\x27' inside ∧ inside ++ ['\x27'] <+: source.toList.drop 1) ∧
      literal.text = String.singleton '\x27' ++ literal.contents ++ String.singleton '\x27' := by
  intro source literal comment
  have scanned : scan source = [literal, comment] := by decide +kernel
  obtain ⟨cut, block, quoted⟩ := terminated_exactly source
  have first : literal ∈ scan source := by simp [scanned]
  have second : comment ∈ scan source := by simp [scanned]
  obtain ⟨complete, -, -, text⟩ := quoted literal first '\x27' (by decide) rfl (by decide)
  obtain ⟨nowhere, marks⟩ := block comment second rfl (by decide)
  have ends : ['*', '/'] <:+ comment.text.toList := by decide
  have short : ¬4 ≤ comment.text.toList.length := by
    intro long
    exact Bool.false_ne_true (marks.mpr ⟨long, ends⟩)
  exact ⟨scanned, (cut comment second rfl).2.2, nowhere.mp rfl, short, ends, complete.mp rfl, text⟩

end Token

end CursorContext
