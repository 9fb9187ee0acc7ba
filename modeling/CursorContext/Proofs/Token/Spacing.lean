import CursorContext.Proofs.Token.SpacedLexeme
import CursorContext.Proofs.Token.Tiling
import CursorContext.Proofs.Token.Unplaced

/-!
Spaces between tokens. A space put where one token ends and the next begins leaves every token that
carries syntax as it is, apart from the places behind the space, and leaves open whether the text ends
in a comment. The scan with the space runs beside the one without it: up to the place both take the
same lexemes, and behind it both go on with the same text.
-/
namespace CursorContext

namespace Token

/-! ### Scans that say the same -/

/-- Two scans that say the same apart from places: the tokens that carry syntax agree, and so does
whether the text ends in a comment. -/
structure ReadAlike (tokens others : List Token) : Prop where
  logical : (logical tokens).map unplaced = (logical others).map unplaced
  comment : endsInComment tokens = endsInComment others

theorem logical_append (front rest : List Token) :
    logical (front ++ rest) = logical front ++ logical rest :=
  List.filter_append ..

theorem logical_map {view : Token → Token} (kind : ∀ token, (view token).kind = token.kind)
    (tokens : List Token) : logical (tokens.map view) = (logical tokens).map view := by
  have trivia : (fun token => !token.isTrivia) ∘ view = fun token : Token => !token.isTrivia := by
    funext token
    simp [isTrivia, kind]
  rw [logical, logical, List.filter_map, trivia]

theorem endsInComment_map {view : Token → Token} (kind : ∀ token, (view token).kind = token.kind)
    (terminated : ∀ token, (view token).terminated = token.terminated) (tokens : List Token) :
    endsInComment (tokens.map view) = endsInComment tokens := by
  rw [endsInComment, endsInComment, List.getLast?_map]
  cases tokens.getLast? <;> simp [kind, terminated]

theorem endsInComment_append (front : List Token) {tokens : List Token} (some : tokens ≠ []) :
    endsInComment (front ++ tokens) = endsInComment tokens := by
  rw [endsInComment, endsInComment, List.getLast?_append_of_ne_nil _ some]

/-- Trivia other than comments says nothing. -/
def Silent (tokens : List Token) : Prop :=
  ∀ token ∈ tokens, token.isTrivia = true ∧ token.kind ≠ .comment

theorem Silent.logical {tokens : List Token} (silent : Silent tokens) : logical tokens = [] :=
  List.filter_eq_nil_iff.mpr fun token member => by simp [(silent token member).1]

theorem Silent.comment {tokens : List Token} (silent : Silent tokens) :
    endsInComment tokens = false := by
  unfold endsInComment
  split
  next token last => simp [(silent token (List.mem_of_getLast? last)).2]
  · rfl

namespace ReadAlike

variable {front other rest later : List Token}

theorem of_unplaced (same : rest.map unplaced = later.map unplaced) : ReadAlike rest later := by
  constructor
  · rw [← logical_map kind_unplaced, same, logical_map kind_unplaced]
  · rw [← endsInComment_map kind_unplaced terminated_unplaced, same,
      endsInComment_map kind_unplaced terminated_unplaced]

theorem append (same : (Token.logical front).map unplaced = (Token.logical other).map unplaced)
    (some : rest ≠ []) (some' : later ≠ []) (alike : ReadAlike rest later) :
    ReadAlike (front ++ rest) (other ++ later) := by
  constructor
  · rw [logical_append, logical_append, List.map_append, List.map_append, same, alike.logical]
  · rw [endsInComment_append _ some, endsInComment_append _ some', alike.comment]

theorem cons {token twin : Token} (same : token.unplaced = twin.unplaced) (some : rest ≠ [])
    (some' : later ≠ []) (alike : ReadAlike rest later) : ReadAlike (token :: rest) (twin :: later) := by
  have alone : [token].map unplaced = [twin].map unplaced := by simp [same]
  exact append (of_unplaced alone).logical some some' alike

theorem cons_trivia {token twin : Token} (trivia : token.isTrivia = true)
    (trivia' : twin.isTrivia = true) (some : rest ≠ []) (some' : later ≠ [])
    (alike : ReadAlike rest later) : ReadAlike (token :: rest) (twin :: later) := by
  have alone {token : Token} (trivia : token.isTrivia = true) : Token.logical [token] = [] := by
    simp [Token.logical, trivia]
  have same : (Token.logical [token]).map unplaced = (Token.logical [twin]).map unplaced := by
    rw [alone trivia, alone trivia']
  exact append same some some' alike

theorem behind (silent : Silent front) (silent' : Silent other)
    (same : rest.map unplaced = later.map unplaced) : ReadAlike (front ++ rest) (other ++ later) := by
  cases rest with
  | nil =>
    have none : later = [] := by simpa using same.symm
    subst none
    rw [List.append_nil, List.append_nil]
    constructor
    · rw [silent.logical, silent'.logical]
    · rw [silent.comment, silent'.comment]
  | cons token rest =>
    refine append (by rw [silent.logical, silent'.logical]) (by simp) ?_ (of_unplaced same)
    rintro rfl
    cases same

end ReadAlike

/-! ### The lexeme before the space -/

/-- What ends the text between tags. -/
def opensTag (c : Char) (next : Option Char) : Bool := c == '<' && next == some '?'

theorem htmlLength_eq (cs : List Char) : htmlLength cs = Lexeme.lengthUpTo opensTag cs := by
  induction cs with
  | nil => rfl
  | cons c rest ih => rw [htmlLength, Lexeme.lengthUpTo, ih, opensTag]

/-- Text between tags that ends with the place takes the space in. -/
theorem html_spaced {p b : List Char} (within : htmlLength (p ++ b) ≤ p.length)
    (apart : p.drop (htmlLength (p ++ b)) = ['<'] → b.head? ≠ some '?') :
    Lexeme.Spaced p { kind := .inlineHtml, more := htmlLength (p ++ b) }
      { kind := .inlineHtml, more := htmlLength (p ++ ' ' :: b) } := by
  simp only [htmlLength_eq] at within apart ⊢
  have alone : ∀ d next, opensTag d (some ' ') = true → opensTag d next = true := by
    intro d next tag
    simp [opensTag] at tag
  have cut : ∀ d, p.drop (Lexeme.lengthUpTo opensTag (p ++ b)) = [d] → opensTag d b.head? = true →
      opensTag d (some ' ') = true := by
    intro d last tag
    obtain ⟨rfl, mark⟩ : d = '<' ∧ b.head? = some '?' := by simpa [opensTag] using tag
    exact absurd mark (apart last)
  rcases Lexeme.lengthUpTo_spaced (fun _ => rfl) alone within cut with ⟨-, same⟩ | ⟨upTo, grown⟩
  · exact .inl (by rw [same])
  · exact .inr ⟨by simp, upTo, by rw [grown]⟩

theorem more_of_tag {cs : List Char} (tag : cs.head? = some '?') : 0 < (lexeme '<' cs).more := by
  cases cs with
  | nil => cases tag
  | cons d rest =>
    cases tag
    have opened : lexeme '<' ('?' :: rest) =
        { kind := .openTag, more := 1 + Lexeme.tagWord rest } := rfl
    rw [opened]
    exact Nat.lt_of_lt_of_le Nat.zero_lt_one (Nat.le_add_right ..)

theorem html_after {c : Char} (code : c ≠ '?') (carry : Carry) (start : Nat) (rest : List Char)
    (found : Lexeme) : (carry.after (ofLexeme carry start c rest found)).html = false := by
  have text : (ofLexeme carry start c rest found).text ≠ "?>" := by
    intro same
    have first := congrArg (·.toList.head?) same
    simp [ofLexeme] at first
    exact code first
  simp [Carry.after, text]

theorem lexemeAfter_code {carry : Carry} (code : carry.html = false) (c : Char) (rest : List Char) :
    lexemeAfter carry c rest = lexeme c rest := by
  simp [lexemeAfter, code]

theorem lexemeAfter_html {carry : Carry} (html : carry.html = true) (c : Char) (rest : List Char) :
    lexemeAfter carry c rest =
      if opensTag c rest.head? then lexeme c rest
      else { kind := .inlineHtml, more := htmlLength rest } := by
  rw [lexemeAfter, html, htmlLength, ← opensTag]
  cases opensTag c rest.head? <;> simp

variable {carry : Carry} {c : Char} {p b : List Char}

theorem lexemeAfter_spaced (some : b ≠ [])
    (noAttribute : p = [] → carry.html = false → c = '#' → b.head? ≠ .some '[')
    (within : (lexemeAfter carry c (p ++ b)).more ≤ p.length)
    (next : ∀ d q, p.drop (lexemeAfter carry c (p ++ b)).more = d :: q →
      (lexemeAfter (carry.after (ofLexeme carry 0 c (p ++ b) (lexemeAfter carry c (p ++ b)))) d
        (q ++ b)).more ≤ q.length) :
    Lexeme.Spaced p (lexemeAfter carry c (p ++ b)) (lexemeAfter carry c (p ++ ' ' :: b)) := by
  -- In code the next lexeme is read without regard to the carry, as the recognisers expect.
  have code (plain : lexemeAfter carry c (p ++ b) = lexeme c (p ++ b)) :
      Lexeme.NextWithin c p b (lexeme c (p ++ b)) := by
    intro code d q rest
    have bound := next d q (by rwa [plain])
    rwa [lexemeAfter_code (html_after code ..)] at bound
  cases html : carry.html with
  | false =>
    have plain := lexemeAfter_code html c (p ++ b)
    rw [plain] at within
    rw [plain, lexemeAfter_code html]
    exact Lexeme.lexeme_spaced some (noAttribute · html) within (code plain)
  | true =>
    have same : opensTag c (p ++ ' ' :: b).head? = opensTag c (p ++ b).head? := by
      cases p with
      | cons e p => rfl
      | nil =>
        cases tag : opensTag c ([] ++ b).head? with
        | false => simp [opensTag]
        | true =>
          -- The tag would begin just before the place and go on behind it.
          rw [lexemeAfter_html html, tag, if_pos rfl] at within
          obtain ⟨rfl, mark⟩ : c = '<' ∧ b.head? = .some '?' := by simpa [opensTag] using tag
          exact absurd (more_of_tag mark) (Nat.not_lt.mpr within)
    rw [lexemeAfter_html html] at within next code ⊢
    rw [lexemeAfter_html html, same]
    cases tag : opensTag c (p ++ b).head? with
    | true =>
      rw [tag, if_pos rfl] at within code
      rw [if_pos rfl, if_pos rfl]
      obtain ⟨rfl, -⟩ : c = '<' ∧ _ := by simpa [opensTag] using tag
      exact Lexeme.lexeme_spaced some (fun _ sharp => absurd sharp (by decide)) within (code rfl)
    | false =>
      rw [tag, if_neg (by decide)] at within next
      rw [if_neg (by decide), if_neg (by decide)]
      dsimp only at within next
      refine html_spaced within ?_
      -- A bracket left alone before the place cannot become a tag with what follows.
      intro last mark
      have bound := next '<' [] last
      rw [lexemeAfter_code rfl] at bound
      exact absurd (more_of_tag mark) (Nat.not_lt.mpr bound)

/-! ### Where a token begins -/

/-- A scan of `p` and then `b` that starts with `carry` comes to a token that begins with `b`. A number
sign that stands alone just before `b` must not open an attribute together with it. -/
inductive Boundary (b : List Char) : Carry → List Char → Prop
  | here {carry : Carry} : Boundary b carry []
  | after {carry : Carry} {c : Char} {p : List Char}
      (within : (lexemeAfter carry c (p ++ b)).more ≤ p.length)
      (noAttribute : p = [] → carry.html = false → c = '#' → b.head? ≠ some '[')
      (later : Boundary b
        (carry.after (ofLexeme carry 0 c (p ++ b) (lexemeAfter carry c (p ++ b))))
        (p.drop (lexemeAfter carry c (p ++ b)).more)) : Boundary b carry (c :: p)

theorem Boundary.next_within (boundary : Boundary b carry p) (d : Char) (q : List Char)
    (begins : p = d :: q) : (lexemeAfter carry d (q ++ b)).more ≤ q.length := by
  cases boundary with
  | here => cases begins
  | after within =>
    cases begins
    exact within

theorem boundary_of_token {start : Nat} {token : Token}
    (found : token ∈ scanFrom carry start 0 (p ++ b)) (begins : token.start = start + p.length)
    (noAttribute : ∀ token ∈ scanFrom carry start 0 (p ++ b), token.stop = start + p.length →
      token.kind = .operator → token.text = "#" → b.head? ≠ some '[') : Boundary b carry p := by
  -- On the length of what is left before the place, since each lexeme takes several characters.
  generalize length : p.length = n
  induction n using Nat.strongRecOn generalizing carry start p with
  | ind n ih =>
    cases p with
    | nil => exact .here
    | cons c p =>
      rw [List.cons_append, scanFrom_cons] at found noAttribute
      dsimp only at found noAttribute
      have later := (List.mem_cons.mp found).resolve_left (by
        rintro rfl
        simp [ofLexeme] at begins)
      have within : (lexemeAfter carry c (p ++ b)).more ≤ p.length := by
        have bound := (tiles_scanFrom ..).le_start token later
        simp only [List.length_cons] at begins
        omega
      rw [List.drop_append_of_le_length within] at later noAttribute
      simp only [List.length_cons] at length begins noAttribute
      refine .after within ?_ (ih _ ?_ later ?_ ?_ rfl)
      · -- A number sign alone before the place is a token of its own, so it is among those excluded.
        rintro rfl code rfl bracket
        have alone : lexemeAfter carry '#' ([] ++ b) = { kind := .operator, more := 0 } := by
          rw [lexemeAfter_code code]
          cases b with
          | nil => cases bracket
          | cons d rest =>
            cases bracket
            rfl
        rw [alone] at noAttribute
        have stop : (ofLexeme carry start '#' ([] ++ b) { kind := .operator, more := 0 }).stop =
            start + 1 := by
          rw [Token.stop, ofLexeme, String.length_ofList]
          rfl
        exact noAttribute _ (List.mem_cons_self ..) stop rfl rfl bracket
      · rw [List.length_drop]
        omega
      · rw [List.length_drop]
        omega
      · intro other member stop
        refine noAttribute other (List.mem_cons_of_mem _ member) ?_
        rw [List.length_drop] at stop
        omega

/-! ### The whole scan -/

/-- The blanks at the front of code. -/
def blankToken (start : Nat) (cs : List Char) : List Token :=
  if Lexeme.run Text.isBlank cs = 0 then []
  else [{ kind := .whitespace, text := String.ofList (cs.take (Lexeme.run Text.isBlank cs)), start }]

theorem scanFrom_blank (code : carry.html = false) (start : Nat) (cs : List Char) :
    scanFrom carry start 0 cs =
      blankToken start cs ++
        scanFrom carry (start + Lexeme.run Text.isBlank cs) 0 (cs.drop (Lexeme.run Text.isBlank cs)) := by
  cases cs with
  | nil => rfl
  | cons c rest =>
    cases blank : Text.isBlank c with
    | false => simp [blankToken, Lexeme.run, blank]
    | true =>
      have length : Lexeme.run Text.isBlank (c :: rest) = Lexeme.run Text.isBlank rest + 1 := by
        simp [Lexeme.run, blank]
      have found : lexemeAfter carry c rest =
          { kind := .whitespace, more := Lexeme.run Text.isBlank rest } := by
        rw [lexemeAfter_code code]
        simp [lexeme, Lexeme.whitespace?, blank]
      have kept (token : Token) (blank : token.kind = .whitespace) : carry.after token = carry := by
        cases carry
        cases code
        simp [Carry.after, isTrivia, blank, Kind.isTrivia]
      rw [scanFrom_cons, found]
      dsimp only
      rw [kept _ rfl, blankToken, length]
      rfl

theorem silent_blankToken (start : Nat) (cs : List Char) : Silent (blankToken start cs) := by
  intro token member
  unfold blankToken at member
  split at member
  · cases member
  · cases List.mem_singleton.mp member
    exact ⟨rfl, by simp⟩

theorem silent_htmlToken (start : Nat) (cs : List Char) : Silent (htmlToken start cs) := by
  intro token member
  unfold htmlToken at member
  split at member
  · cases member
  · cases List.mem_singleton.mp member
    exact ⟨rfl, by simp⟩

/-- A space in front is part of the blanks or of the HTML there. -/
theorem readAlike_space (carry : Carry) (start other : Nat) (b : List Char) :
    ReadAlike (scanFrom carry start 0 b) (scanFrom carry other 0 (' ' :: b)) := by
  cases html : carry.html with
  | true =>
    have length : htmlLength (' ' :: b) = htmlLength b + 1 := by simp [htmlLength]
    obtain ⟨member, _⟩ := carry
    cases html
    rw [scanFrom_html, scanFrom_html, length]
    exact .behind (silent_htmlToken _ _) (silent_htmlToken _ _) (unplaced_scanFrom ..)
  | false =>
    rw [scanFrom_blank html start b, scanFrom_blank html other (' ' :: b), Lexeme.run_isBlank_cons]
    exact .behind (silent_blankToken _ _) (silent_blankToken _ _) (unplaced_scanFrom ..)

theorem scanFrom_ne_nil (carry : Carry) (start : Nat) {cs : List Char} (some : cs ≠ []) :
    scanFrom carry start 0 cs ≠ [] := by
  cases cs with
  | nil => exact absurd rfl some
  | cons c rest => simp [scanFrom]

theorem ofLexeme_append {found : Lexeme} (within : found.more ≤ p.length) (carry : Carry)
    (start : Nat) (c : Char) (x : List Char) :
    ofLexeme carry start c (p ++ x) found = ofLexeme carry start c p found := by
  rw [ofLexeme, ofLexeme, List.take_append_of_le_length within]

/-- Blanks, comments and HTML leave only that code follows. -/
theorem after_trivia {found : Lexeme} (trivia : found.kind ∈ [.whitespace, .comment, .inlineHtml])
    (carry : Carry) (start : Nat) (c : Char) (rest : List Char) :
    (ofLexeme carry start c rest found).isTrivia = true ∧
      carry.after (ofLexeme carry start c rest found) = { carry with html := false } := by
  have kind : (ofLexeme carry start c rest found).kind = found.kind := by
    simp only [List.mem_cons, List.not_mem_nil, or_false] at trivia
    rcases trivia with blank | comment | html
    · simp [ofLexeme, blank]
    · simp [ofLexeme, comment]
    · simp [ofLexeme, html]
  simp only [List.mem_cons, List.not_mem_nil, or_false] at trivia
  rcases trivia with blank | comment | html
  · simp [isTrivia, Carry.after, kind, blank, Kind.isTrivia]
  · simp [isTrivia, Carry.after, kind, comment, Kind.isTrivia]
  · simp [isTrivia, Carry.after, kind, html, Kind.isTrivia]

/-- A scan with a space where a token begins says what the scan without it says. -/
theorem Boundary.readAlike (some : b ≠ []) (boundary : Boundary b carry p) (start other : Nat) :
    ReadAlike (scanFrom carry start 0 (p ++ b)) (scanFrom carry other 0 (p ++ ' ' :: b)) := by
  induction boundary generalizing start other with
  | @here carry => exact readAlike_space carry start other b
  | @after carry c p within noAttribute later ih =>
    have becomes := lexemeAfter_spaced some noAttribute within later.next_within
    rw [List.cons_append, List.cons_append, scanFrom_cons, scanFrom_cons]
    dsimp only
    generalize lexemeAfter carry c (p ++ b) = found at within ih becomes ⊢
    rcases becomes with same | ⟨trivia, upTo, grown⟩
    · -- Both take the same lexeme and go on up to the place.
      rw [same, ofLexeme_append within, ofLexeme_append within, List.drop_append_of_le_length within,
        List.drop_append_of_le_length within]
      rw [ofLexeme_append within] at ih
      apply ReadAlike.cons
      · rfl
      · exact scanFrom_ne_nil _ _ (by simp [some])
      · exact scanFrom_ne_nil _ _ (by simp)
      · exact ih _ _
    · -- The lexeme takes the space in, and both go on behind the place.
      rw [grown]
      have trivia' : ({ found with more := p.length + 1 } : Lexeme).kind ∈
          [.whitespace, .comment, .inlineHtml] := trivia
      have plain := after_trivia trivia carry start c (p ++ b)
      have spaced := after_trivia trivia' carry other c (p ++ ' ' :: b)
      have rest : (p ++ ' ' :: b).drop (p.length + 1) = b := by simp
      have rest' : (p ++ b).drop found.more = b := by simp [upTo]
      rw [plain.2, spaced.2, rest, rest']
      apply ReadAlike.cons_trivia plain.1 spaced.1
      · exact scanFrom_ne_nil _ _ some
      · exact scanFrom_ne_nil _ _ some
      · exact .of_unplaced (unplaced_scanFrom ..)

end Token

end CursorContext
