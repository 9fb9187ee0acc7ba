import CursorContext.Proofs.Token.Settled

/-!
Literals in a scan. What stands between two quotes is one token, whatever it says, and the scan goes on
behind it as if nothing had been before. So two texts that differ in a literal alone have the same
tokens, apart from its text and the places behind it.
-/
namespace CursorContext

namespace Lexeme

variable {quote : Char} {contents : List Char}

theorem closingQuote?_plain (noQuote : quote ∉ contents) (noEscape : '\\' ∉ contents)
    (b : List Char) :
    closingQuote? quote false (contents ++ quote :: b) = some (contents.length + 1) := by
  induction contents with
  | nil => simp [closingQuote?]
  | cons d rest ih =>
    rw [List.mem_cons, not_or] at noQuote noEscape
    have other : (d == quote) = false := beq_eq_false_iff_ne.mpr (Ne.symm noQuote.1)
    have plain : (d == '\\') = false := beq_eq_false_iff_ne.mpr (Ne.symm noEscape.1)
    simp [closingQuote?, other, plain, ih noQuote.2 noEscape.2]

/-- No recogniser that is tried before takes a quote. -/
theorem lexeme_of_quote (isQuote : quote ∈ Token.quotes) (rest : List Char) :
    some (lexeme quote rest) = quoted? quote rest := by
  have first : whitespace? quote rest = none ∧ comment? quote rest = none ∧
      tag? quote rest = none ∧ heredoc? quote rest = none := by
    simp only [Token.quotes, List.mem_cons, List.not_mem_nil, or_false] at isQuote
    rcases isQuote with rfl | rfl | rfl <;> exact ⟨rfl, rfl, rfl, rfl⟩
  obtain ⟨whitespace, comment, tag, heredoc⟩ := first
  have found : (quoted? quote rest).isSome = true := by
    rw [quoted?, if_pos (by simpa using isQuote)]
    split <;> rfl
  obtain ⟨literal, quoted⟩ := Option.isSome_iff_exists.mp found
  rw [lexeme, whitespace, comment, tag, heredoc, quoted]
  rfl

theorem lexeme_literal (isQuote : quote ∈ Token.quotes) (noQuote : quote ∉ contents)
    (noEscape : '\\' ∉ contents) (b : List Char) :
    lexeme quote (contents ++ quote :: b) = { kind := .string, more := contents.length + 1 } := by
  have quoted : quoted? quote (contents ++ quote :: b) =
      some { kind := .string, more := contents.length + 1 } := by
    rw [quoted?, if_pos (by simpa using isQuote), closingQuote?_plain noQuote noEscape]
  exact Option.some.inj ((lexeme_of_quote isQuote _).trans quoted)

end Lexeme

/-- A text between two quotes. -/
def quoted (quote : Char) (contents : String) : String :=
  String.singleton quote ++ contents ++ String.singleton quote

theorem toList_quoted (quote : Char) (contents : String) :
    (quoted quote contents).toList = quote :: (contents.toList ++ [quote]) := by
  simp [quoted]

namespace Token

/-- The literal that says `contents`. -/
def literal (quote : Char) (contents : String) (start : Nat) : Token :=
  { kind := .string, text := quoted quote contents, start }

/-- A text that holds neither the quote around it nor an escape. -/
def Plain (quote : Char) (contents : String) : Prop :=
  quote ∉ contents.toList ∧ '\\' ∉ contents.toList

instance (quote : Char) (contents : String) : Decidable (Plain quote contents) :=
  inferInstanceAs (Decidable (_ ∧ _))

variable {carry : Carry} {quote : Char} {contents other : String}

theorem scanFrom_literal (code : carry.html = false) (isQuote : quote ∈ quotes)
    (plain : Plain quote contents) (start : Nat) (b : List Char) :
    scanFrom carry start 0 (quote :: (contents.toList ++ quote :: b)) =
      literal quote contents start :: scanFrom {} (start + (contents.length + 2)) 0 b := by
  have found : lexemeAfter carry quote (contents.toList ++ quote :: b) =
      { kind := .string, more := contents.toList.length + 1 } := by
    rw [lexemeAfter_code code, Lexeme.lexeme_literal isQuote plain.1 plain.2]
  have token : ofLexeme carry start quote (contents.toList ++ quote :: b)
      { kind := .string, more := contents.toList.length + 1 } = literal quote contents start := by
    have text : String.ofList (quote :: (contents.toList ++ [quote])) = quoted quote contents := by
      rw [← toList_quoted, String.ofList_toList]
    have taken : (contents.toList ++ quote :: b).take (contents.toList.length + 1) =
        contents.toList ++ [quote] := by
      rw [List.take_length_add_append]
      rfl
    rw [ofLexeme, taken, text]
    rfl
  have after : carry.after (literal quote contents start) = {} := by
    simp [Carry.after, literal, isTrivia, Kind.isTrivia, isMemberOperator, isOperator]
  rw [scanFrom_cons, found]
  dsimp only
  rw [token, after, List.drop_length_add_append, String.length_toList]
  rfl

theorem logical_literal (front rest : List Token) (quote : Char) (contents : String) (start : Nat) :
    logical (front ++ literal quote contents start :: rest) =
      logical front ++ literal quote contents start :: logical rest := by
  simp [logical, literal, isTrivia, Kind.isTrivia]

/-- Where a literal begins the scan is in code. -/
theorem code_of_literal {start : Nat} {x : List Char} (isQuote : quote ∈ quotes)
    (string : (ofLexeme carry start quote x (lexemeAfter carry quote x)).kind = .string) :
    carry.html = false := by
  cases html : carry.html with
  | false => rfl
  | true =>
    have text : opensTag quote x.head? = false := by
      have less : quote ≠ '<' := by
        rintro rfl
        simp [quotes] at isQuote
      simp [opensTag, less]
    rw [lexemeAfter_html html, text] at string
    simp [ofLexeme] at string

variable {before after : String}

/-- A literal with the contents `contents` begins right behind `before`. -/
def LiteralBegins (quote : Char) (before contents after : String) : Prop :=
  ∃ token ∈ scan (before ++ quoted quote contents ++ after),
    token.kind = .string ∧ token.start = before.length

instance : Decidable (LiteralBegins quote before contents after) :=
  inferInstanceAs (Decidable (∃ token ∈ _, _))

theorem scan_quoted (quote : Char) (before contents after : String) :
    scan (before ++ quoted quote contents ++ after) =
      scanFrom {} 0 0 (before.toList ++ quote :: (contents.toList ++ quote :: after.toList)) := by
  simp [scan, toList_quoted]

theorem boundary_literal (isQuote : quote ∈ quotes)
    (begins : LiteralBegins quote before contents after) :
    Boundary (quote :: (contents.toList ++ quote :: after.toList)) {} before.toList := by
  obtain ⟨token, member, -, start⟩ := begins
  rw [scan_quoted] at member
  refine boundary_of_break (Lexeme.mem_breaks_of_quote isQuote) member ?_
  rw [start, String.length_toList, Nat.zero_add]

/-- Two texts that differ in a literal alone are scanned alike before it and behind it. -/
theorem scan_literals (isQuote : quote ∈ quotes) (plain : Plain quote contents)
    (plain' : Plain quote other) (begins : LiteralBegins quote before contents after)
    (begins' : LiteralBegins quote before other after) :
    ∃ front,
      scan (before ++ quoted quote contents ++ after) =
        front ++ literal quote contents before.length ::
          scanFrom {} (before.length + (contents.length + 2)) 0 after.toList ∧
      scan (before ++ quoted quote other ++ after) =
        front ++ literal quote other before.length ::
          scanFrom {} (before.length + (other.length + 2)) 0 after.toList := by
  obtain ⟨front, next, first, second⟩ := (boundary_literal isQuote begins).common
    (Lexeme.mem_breaks_of_quote isQuote) (boundary_literal isQuote begins') 0
  rw [← scan_quoted, Nat.zero_add, String.length_toList] at first second
  -- Only one token begins at the place, and it is known to be a literal.
  have code : next.html = false := by
    obtain ⟨token, member, string, start⟩ := begins
    rw [scanFrom_cons] at first
    have here := (tiles_scan _).eq_of_start member (first ▸ List.mem_append_cons_self) start
    subst here
    exact code_of_literal isQuote string
  rw [scanFrom_literal code isQuote plain] at first
  rw [scanFrom_literal code isQuote plain'] at second
  exact ⟨front, first, second⟩

/-- Of the tokens that carry syntax all but the literal keep what they are and say. -/
theorem logical_scan_literals (isQuote : quote ∈ quotes) (plain : Plain quote contents)
    (plain' : Plain quote other) (begins : LiteralBegins quote before contents after)
    (begins' : LiteralBegins quote before other after) :
    ∃ front rest rest',
      logical (scan (before ++ quoted quote contents ++ after)) =
        front ++ literal quote contents before.length :: rest ∧
      logical (scan (before ++ quoted quote other ++ after)) =
        front ++ literal quote other before.length :: rest' ∧
      rest.map unplaced = rest'.map unplaced := by
  obtain ⟨front, first, second⟩ := scan_literals isQuote plain plain' begins begins'
  refine ⟨logical front, _, _, first ▸ logical_literal .., second ▸ logical_literal .., ?_⟩
  exact (ReadAlike.of_unplaced (unplaced_scanFrom ..)).logical

/-! ### Literals that say nothing -/

/-- A token without its place and, if it is a literal, without its text. -/
def hushed (token : Token) : Token :=
  { token with text := if token.kind == .string then "" else token.text, start := 0 }

theorem kind_hushed (token : Token) : token.hushed.kind = token.kind := rfl

theorem terminated_hushed (token : Token) : token.hushed.terminated = token.terminated := rfl

theorem hushed_of_unplaced {tokens others : List Token}
    (same : tokens.map unplaced = others.map unplaced) : tokens.map hushed = others.map hushed := by
  have twice (tokens : List Token) : (tokens.map unplaced).map hushed = tokens.map hushed := by
    rw [List.map_map]
    rfl
  rw [← twice, same, twice]

theorem hushed_scan (isQuote : quote ∈ quotes) (plain : Plain quote contents)
    (plain' : Plain quote other) (begins : LiteralBegins quote before contents after)
    (begins' : LiteralBegins quote before other after) :
    (scan (before ++ quoted quote contents ++ after)).map hushed =
      (scan (before ++ quoted quote other ++ after)).map hushed := by
  obtain ⟨front, first, second⟩ := scan_literals isQuote plain plain' begins begins'
  rw [first, second, List.map_append, List.map_append, List.map_cons, List.map_cons,
    hushed_of_unplaced (unplaced_scanFrom _ _ (before.length + (other.length + 2)) ..)]
  rfl

end Token

end CursorContext
