import CursorContext.Argument.Render
import CursorContext.Proofs.Token.BeforeTag
import CursorContext.Proofs.Token.Terminated
import CursorContext.Proofs.Token.WordEnd

/-!
Tokens written out on one line and scanned again. The line keeps a space between two words and nothing
else, and this is enough: in a source of words, numbers, complete literals, brackets and the signs that
separate and connect them, no two neighbours run together, and none is cut apart.
-/
namespace CursorContext

namespace Token

/-- The signs that separate arguments and entries or lead to a member. -/
def connectives : List String := [",", ";", "=>", "->", "?->", "::"]

/-- Words, numbers, complete quoted literals, brackets and connectives. -/
def isSimple (token : Token) : Bool :=
  match token.kind with
  | .identifier | .keyword | .variable | .number | .opener | .closer => true
  | .string => token.terminated && token.text.toList.head?.any quotes.contains
  | .operator => connectives.contains token.text
  | .whitespace | .comment | .openTag | .inlineHtml => false

theorem isSimple_iff (token : Token) :
    token.isSimple = true ↔
      token.kind.isWordLike = true ∨ token.kind ∈ [.opener, .closer] ∨
        (token.kind = .string ∧ token.terminated = true ∧
          ∃ quote ∈ quotes, token.text.toList.head? = some quote) ∨
        (token.kind = .operator ∧ token.text ∈ connectives) := by
  rcases token with ⟨kind, text, start, terminated⟩
  cases kind <;> simp [isSimple, Kind.isWordLike, Option.any_eq_true, and_comm]

end Token

namespace Lexeme

open Text

variable {c : Char} {rest y : List Char}

/-! ### Literals, brackets and connectives -/

/-- A lexeme that is read again when it is cut out of its text and `y` put behind it. -/
def Again (c : Char) (rest y : List Char) : Prop :=
  (lexeme c rest).more ≤ rest.length ∧
    lexeme c (rest.take (lexeme c rest).more ++ y) = lexeme c rest

theorem again_literal (isQuote : c ∈ Token.quotes) (complete : (lexeme c rest).terminated = true)
    (y : List Char) : Again c rest y := by
  have read (z : List Char) := lexeme_of_quote isQuote z
  simp only [quoted?, List.contains_iff_mem.mpr isQuote, if_true] at read
  have found := read rest
  cases closing : closingQuote? c false rest with
  | none =>
    rw [closing] at found
    rw [Option.some.inj found] at complete
    cases complete
  | some more =>
    rw [closing] at found
    have bound : more ≤ rest.length := by
      obtain ⟨inside, behind, rfl, rfl, -⟩ := unquoted_of_closingQuote? closing
      simp
    have cut : closingQuote? c false (rest.take more ++ rest.drop more) = some more := by
      rw [List.take_append_drop, closing]
    have again := closingQuote?_within cut (Nat.le_of_eq (List.length_take_of_le bound).symm) y
    have whole := read (rest.take more ++ y)
    rw [again] at whole
    rw [Again, Option.some.inj found]
    exact ⟨bound, Option.some.inj whole⟩

/-- A lexeme of one character that is the same whatever follows. -/
theorem again_sign {found : Lexeme} (alone : found.more = 0) (read : ∀ z, lexeme c z = found)
    (rest y : List Char) : Again c rest y := by
  rw [Again, read rest, alone]
  exact ⟨Nat.zero_le _, read _⟩

theorem bracket_of_mem (kind : (lexeme c rest).kind ∈ [.opener, .closer]) :
    ∃ bracket : Bracket, c = bracket.opening ∨ c = bracket.closing := by
  obtain ⟨opens, closes⟩ := bracket_of_kind c rest
  simp only [List.mem_cons, List.not_mem_nil, or_false] at kind
  rcases kind with opener | closer
  · obtain ⟨bracket, found⟩ := Option.isSome_iff_exists.mp (opens opener)
    have same : bracket.opening = c := by simpa using List.find?_some found
    exact ⟨bracket, .inl same.symm⟩
  · obtain ⟨bracket, found⟩ := Option.isSome_iff_exists.mp (closes closer)
    have same : bracket.closing = c := by simpa using List.find?_some found
    exact ⟨bracket, .inr same.symm⟩

theorem again_bracket (kind : (lexeme c rest).kind ∈ [.opener, .closer]) (y : List Char) :
    Again c rest y := by
  obtain ⟨bracket, rfl | rfl⟩ := bracket_of_mem kind
  · have read (z : List Char) : lexeme bracket.opening z = { kind := .opener, more := 0 } := by
      cases bracket <;> rfl
    exact again_sign rfl read rest y
  · have read (z : List Char) : lexeme bracket.closing z = { kind := .closer, more := 0 } := by
      cases bracket <;> rfl
    exact again_sign rfl read rest y

/-- A connective is taken as a whole, and never more than it. -/
theorem lexeme_connective {operator : String} (member : operator ∈ Token.connectives) :
    ∃ c p, operator.toList = c :: p ∧
      ∀ z, lexeme c (p ++ z) = { kind := .operator, more := p.length } := by
  simp only [Token.connectives, List.mem_cons, List.not_mem_nil, or_false] at member
  rcases member with rfl | rfl | rfl | rfl | rfl | rfl
  · exact ⟨',', [], rfl, fun _ => rfl⟩
  · exact ⟨';', [], rfl, fun _ => rfl⟩
  · exact ⟨'=', ['>'], rfl, fun _ => rfl⟩
  · exact ⟨'-', ['>'], rfl, fun _ => rfl⟩
  · exact ⟨'?', ['-', '>'], rfl, fun _ => rfl⟩
  · exact ⟨':', [':'], rfl, fun _ => rfl⟩

theorem again_connective
    (member : String.ofList (c :: rest.take (lexeme c rest).more) ∈ Token.connectives)
    (y : List Char) : Again c rest y := by
  obtain ⟨d, p, text, read⟩ := lexeme_connective member
  rw [String.toList_ofList, List.cons.injEq] at text
  obtain ⟨rfl, cut⟩ := text
  have split : rest = p ++ rest.drop (lexeme c rest).more := by
    rw [← cut, List.take_append_drop]
  have found : lexeme c rest = { kind := .operator, more := p.length } := by
    rw [split, read]
  rw [Again, cut, read, found]
  refine ⟨?_, rfl⟩
  rw [split, List.length_append]
  exact Nat.le_add_right ..

theorem again_word (kind : (lexeme c rest).kind ∈ [.variable, .number, .identifier])
    (apart : Apart y) : Again c rest y := by
  obtain ⟨bound, again⟩ := word?_again (word?_of_kind kind) apart
  exact ⟨bound, lexeme_of_word? again⟩

end Lexeme

/-! ### One token -/

namespace Token

open Lexeme

variable {member : Bool} {start : Nat} {c : Char} {rest y : List Char}

/-- The token that begins with `c` where `rest` follows in code. -/
def ofCode (member : Bool) (start : Nat) (c : Char) (rest : List Char) : Token :=
  ofLexeme { member } start c rest (lexeme c rest)

theorem kind_ofCode (member : Bool) (start : Nat) (c : Char) (rest : List Char) :
    (ofCode member start c rest).kind = (lexeme c rest).kind ∨
      (ofCode member start c rest).kind = .keyword ∧ (lexeme c rest).kind = .identifier := by
  unfold ofCode ofLexeme
  dsimp only
  split
  next reserved => exact .inr ⟨rfl, by simpa using (Bool.and_eq_true_iff.mp reserved).1⟩
  · exact .inl rfl

theorem head?_text_ofCode (member : Bool) (start : Nat) (c : Char) (rest : List Char) :
    (ofCode member start c rest).text.toList.head? = some c :=
  head?_text_ofLexeme ..

theorem word_of_isWordLike (word : (ofCode member start c rest).kind.isWordLike = true) :
    (lexeme c rest).kind ∈ [.variable, .number, .identifier] := by
  rcases kind_ofCode member start c rest with same | ⟨-, identifier⟩
  · rw [same] at word
    rcases lexeme_cases c rest with last | plain | name
    · rw [last] at word
      grind [sign, Kind.isWordLike]
    · grind [Kind.isWordLike]
    · simp [kind_of_identifier? name]
  · simp [identifier]

theorem bracket_of_ofCode (bracket : (ofCode member start c rest).kind ∈ [.opener, .closer]) :
    (lexeme c rest).kind ∈ [.opener, .closer] := by
  have same : (ofCode member start c rest).kind = (lexeme c rest).kind := by
    refine (kind_ofCode member start c rest).resolve_right ?_
    rintro ⟨keyword, -⟩
    simp [keyword] at bracket
  exact same ▸ bracket

theorem again_of_isSimple (simple : (ofCode member start c rest).isSimple = true)
    (apart : (ofCode member start c rest).kind.isWordLike = true → Apart y) : Again c rest y := by
  rcases (isSimple_iff _).mp simple with word | bracket | ⟨-, complete, quote, isQuote, first⟩ |
    ⟨-, connective⟩
  · exact again_word (word_of_isWordLike word) (apart word)
  · exact again_bracket (bracket_of_ofCode bracket) y
  · cases (head?_text_ofCode member start c rest).symm.trans first
    exact again_literal isQuote complete y
  · exact again_connective connective y

/-- No word goes on with a token that is no word itself. -/
theorem apart_of_isSimple (simple : (ofCode member start c rest).isSimple = true)
    (other : (ofCode member start c rest).kind.isWordLike = false) :
    Text.isWord c = false ∧ c ≠ '.' ∧ c ≠ '\\' := by
  have begins := head?_text_ofCode member start c rest
  rcases (isSimple_iff _).mp simple with word | bracket | ⟨-, -, quote, isQuote, first⟩ |
    ⟨-, connective⟩
  · rw [word] at other
    cases other
  · obtain ⟨pair, rfl | rfl⟩ := bracket_of_mem (bracket_of_ofCode bracket)
    · cases pair <;> decide
    · cases pair <;> decide
  · cases begins.symm.trans first
    simp only [quotes, List.mem_cons, List.not_mem_nil, or_false] at isQuote
    rcases isQuote with rfl | rfl | rfl <;> decide
  · simp only [connectives, List.mem_cons, List.not_mem_nil, or_false] at connective
    rcases connective with text | text | text | text | text | text
    all_goals
      rw [text] at begins
      cases begins
      decide

/-! ### The line -/

theorem logical_cons {token : Token} (syntactic : token.isTrivia = false) (rest : List Token) :
    logical (token :: rest) = token :: logical rest := by
  simp [logical, syntactic]

/-- Tokens read one after the other, each at the front of some text. A member operator in front makes a
plain name of a reserved word. -/
inductive Scanned : Bool → List Token → Prop
  | nil {member : Bool} : Scanned member []
  | cons {member : Bool} {later : List Token} (start : Nat) (c : Char) (rest : List Char)
      (next : Scanned (ofCode member start c rest).isMemberOperator later) :
      Scanned member (ofCode member start c rest :: later)

theorem scanned_logical (carry : Carry) (start skip : Nat) (cs : List Char) :
    Scanned carry.member (logical (scanFrom carry start skip cs)) := by
  induction cs generalizing carry start skip with
  | nil => exact .nil
  | cons c rest ih =>
    cases skip with
    | succ skip => exact ih carry (start + 1) skip
    | zero =>
      rw [scanFrom]
      have later := ih (carry.after (ofLexeme carry start c rest (lexemeAfter carry c rest)))
        (start + 1) (lexemeAfter carry c rest).more
      rw [Carry.after_eq] at later ⊢
      dsimp only at later
      cases trivia : (ofLexeme carry start c rest (lexemeAfter carry c rest)).isTrivia with
      | true =>
        rw [trivia, if_pos rfl] at later
        rw [if_pos rfl, logical_cons_trivia trivia]
        exact later
      | false =>
        -- Text between tags would be trivia, so this is code.
        have found : lexemeAfter carry c rest = lexeme c rest := by
          apply lexemeAfter_eq_lexeme
          intro html
          simp [isTrivia, ofLexeme, html, Kind.isTrivia] at trivia
        rw [trivia, if_neg (by decide), found] at later
        rw [if_neg (by decide), found, logical_cons (found ▸ trivia)]
        exact .cons start c rest later

theorem apart_line {tokens : List Token} {kind : Kind} (scanned : Scanned member tokens)
    (simple : ∀ token ∈ tokens, token.isSimple = true) (word : kind.isWordLike = true) :
    Apart (lineAfter (some kind) tokens) := by
  cases scanned with
  | nil =>
    intro s first
    cases first
  | cons start c rest next =>
    have text : (ofCode member start c rest).text.toList = c :: rest.take (lexeme c rest).more := by
      simp [ofCode, ofLexeme]
    rw [lineAfter, text, Option.any_some, word, Bool.true_and]
    cases other : (ofCode member start c rest).kind.isWordLike with
    | true =>
      intro s first
      cases first
      decide
    | false =>
      intro s first
      cases first
      exact apart_of_isSimple (simple _ List.mem_cons_self) other

/-- A space that the line puts in front of a token changes nothing. -/
theorem logical_spaced (spaced : Bool) (carry : Carry) (start : Nat) (cs : List Char) :
    (logical (scanFrom carry start 0 ((if spaced then [' '] else []) ++ cs))).map unplaced =
      (logical (scanFrom carry start 0 cs)).map unplaced := by
  cases spaced with
  | true => exact (readAlike_space carry start start cs).logical.symm
  | false => rfl

theorem isTrivia_of_isSimple {token : Token} (simple : token.isSimple = true) :
    token.isTrivia = false := by
  rcases token with ⟨kind, text, start, terminated⟩
  cases kind <;> simp_all [isSimple, isTrivia, Kind.isTrivia]

/-- A simple token that is cut out of its text is scanned again, and the scan goes on behind it. -/
theorem scanFrom_ofCode (simple : (ofCode member start c rest).isSimple = true)
    (again : Again c rest y) {carry : Carry} (same : carry.member = member)
    (code : carry.html = false) (place : Nat) :
    ∃ token next, token.unplaced = (ofCode member start c rest).unplaced ∧
      scanFrom carry place 0 ((ofCode member start c rest).text.toList ++ y) =
        token :: scanFrom { member := (ofCode member start c rest).isMemberOperator } next 0 y := by
  obtain ⟨bound, again⟩ := again
  have text : (ofCode member start c rest).text.toList = c :: rest.take (lexeme c rest).more := by
    simp [ofCode, ofLexeme]
  have length : (rest.take (lexeme c rest).more).length = (lexeme c rest).more :=
    List.length_take_of_le bound
  have twin : (ofLexeme carry place c (rest.take (lexeme c rest).more ++ y)
      (lexeme c rest)).unplaced = (ofCode member start c rest).unplaced := by
    simp [ofLexeme, ofCode, unplaced, isReserved, same, length]
  have behind : (rest.take (lexeme c rest).more ++ y).drop (lexeme c rest).more = y :=
    List.drop_left' length
  rw [text, List.cons_append, scanFrom_cons, lexemeAfter_code code, again]
  dsimp only
  rw [behind]
  generalize ofLexeme carry place c (rest.take (lexeme c rest).more ++ y) (lexeme c rest) =
    token at twin
  have kind : token.kind = (ofCode member start c rest).kind := (congrArg Token.kind twin :)
  have operator : token.isMemberOperator = (ofCode member start c rest).isMemberOperator :=
    (congrArg Token.isMemberOperator twin :)
  have syntactic : token.isTrivia = false := by
    rw [isTrivia, kind]
    exact isTrivia_of_isSimple simple
  have goesOn : token.endsCode = false := by
    refine Bool.eq_false_iff.mpr fun ends => ?_
    rw [isTrivia_of_endsCode ends] at syntactic
    cases syntactic
  refine ⟨token, place + ((lexeme c rest).more + 1), twin, ?_⟩
  rw [Carry.after_eq, syntactic, goesOn, operator]
  rfl

/-- However the tokens of a scan stood apart, on one line they are scanned again. -/
theorem logical_line {tokens : List Token} (scanned : Scanned member tokens)
    (simple : ∀ token ∈ tokens, token.isSimple = true) (previous : Option Kind) (place : Nat)
    {carry : Carry} (same : carry.member = member) (code : carry.html = false) :
    (logical (scanFrom carry place 0 (lineAfter previous tokens))).map unplaced =
      tokens.map unplaced := by
  induction scanned generalizing previous place carry with
  | nil => rfl
  | cons start c rest next ih =>
    obtain ⟨isSimple, others⟩ := List.forall_mem_cons.mp simple
    have again := again_of_isSimple isSimple (apart_line next others)
    obtain ⟨token, onwards, twin, split⟩ := scanFrom_ofCode isSimple again same code place
    have syntactic : token.isTrivia = false := by
      have kind := congrArg Token.kind twin
      rw [kind_unplaced, kind_unplaced] at kind
      rw [isTrivia, kind]
      exact isTrivia_of_isSimple isSimple
    rw [lineAfter, List.append_assoc, logical_spaced, split, logical_cons syntactic, List.map_cons,
      List.map_cons, twin, ih others _ _ rfl rfl]

/-- Simple tokens written out on one line are scanned again as they are, apart from their places: none
runs into the next, none is cut apart, and each has the kind it had, whatever stood between them. -/
theorem scan_oneLine (source : String)
    (simple : ∀ token ∈ logical (scan source), token.isSimple = true) :
    (logical (scan (oneLine (logical (scan source))))).map unplaced =
      (logical (scan source)).map unplaced := by
  rw [scan, oneLine, String.toList_ofList]
  exact logical_line (scanned_logical {} 0 0 source.toList) simple none 0 rfl rfl

/-- Names with backslashes at their ends, numbers with points and exponents, a reserved word as a member
and quotes next to names. -/
theorem scan_oneLine_mixed :
    let source := "f(1. .5e 0x1F x, \\A\\ B::class /* c */ 'it\\'s'b => [2e-3]) ?> a <?php $o?->new new"
    let line := "f(1. .5 e 0x1F x,\\A\\ B::class'it\\'s'b=>[2e-3])$o?->new new"
    oneLine (logical (scan source)) = line ∧
      (logical (scan line)).map unplaced = (logical (scan source)).map unplaced := by
  intro source line
  obtain ⟨rendered, simple⟩ : oneLine (logical (scan source)) = line ∧
      (logical (scan source)).all (·.isSimple) = true := by
    decide +kernel
  exact ⟨rendered, rendered ▸ scan_oneLine source (List.all_eq_true.mp simple)⟩

end Token

end CursorContext
