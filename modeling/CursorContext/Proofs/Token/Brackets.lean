import CursorContext.Token.Scan

/-!
Brackets among the tokens of a source. Only the last of the recognisers hands out brackets, and what
it hands out as one begins with a character of one of the three pairs.
-/
namespace CursorContext

namespace Lexeme

theorem kind_of_heredoc {c : Char} {rest : List Char} {found : Lexeme}
    (there : heredoc? c rest = some found) : found.kind = .string := by
  unfold heredoc? at there
  split at there
  · obtain ⟨⟨label, after⟩, -, rfl⟩ := Option.map_eq_some_iff.mp there
    dsimp only
    split <;> rfl
  · cases there

theorem lexeme_recognised (c : Char) (rest : List Char) :
    lexeme c rest = sign c rest ∨
      some (lexeme c rest) ∈ [whitespace? c rest, comment? c rest, tag? c rest, heredoc? c rest,
        quoted? c rest, dollarName? c rest, number? c rest, identifier? c rest] := by
  unfold lexeme
  cases recognised : (whitespace? c rest <|> comment? c rest <|> tag? c rest <|> heredoc? c rest <|>
    quoted? c rest <|> dollarName? c rest <|> number? c rest <|> identifier? c rest) with
  | none => exact .inl rfl
  | some found =>
    right
    simp only [Option.orElse_eq_orElse, Option.orElse_eq_or, Option.or_eq_some_iff] at recognised
    rw [Option.getD_some]
    grind

theorem lexeme_cases (c : Char) (rest : List Char) :
    lexeme c rest = sign c rest ∨
      (lexeme c rest).kind ∈ [.whitespace, .comment, .openTag, .string, .variable, .number] ∨
      identifier? c rest = some (lexeme c rest) := by
  refine (lexeme_recognised c rest).imp_right fun recognised => ?_
  generalize lexeme c rest = found at recognised ⊢
  simp only [List.mem_cons, List.not_mem_nil, or_false] at recognised
  rcases recognised with there | there | there | there | there | there | there | there
  · grind [whitespace?]
  · grind [comment?, lineComment, blockComment]
  · grind [tag?]
  · simp [kind_of_heredoc there.symm]
  · grind [quoted?]
  · grind [dollarName?]
  · grind [number?]
  · exact .inr there.symm

theorem kind_of_identifier? {c : Char} {rest : List Char} {found : Lexeme}
    (there : identifier? c rest = some found) : found.kind = .identifier := by
  unfold identifier? at there
  split at there
  · cases there
    rfl
  · cases there

theorem bracket_of_kind (c : Char) (rest : List Char) :
    ((lexeme c rest).kind = .opener → (Bracket.ofOpening? c).isSome) ∧
      ((lexeme c rest).kind = .closer → (Bracket.ofClosing? c).isSome) := by
  rcases lexeme_cases c rest with last | plain | name
  · rw [last]
    grind [sign]
  · constructor <;> intro bracket <;> simp [bracket] at plain
  · have kind := kind_of_identifier? name
    constructor <;> intro bracket <;> simp [bracket] at kind

theorem identifier?_of_kind {c : Char} {rest : List Char}
    (identifier : (lexeme c rest).kind = .identifier) :
    identifier? c rest = some (lexeme c rest) := by
  rcases lexeme_cases c rest with last | plain | name
  · -- The last recogniser hands out brackets and operators only.
    rw [last] at identifier
    grind [sign]
  · simp [identifier] at plain
  · exact name

end Lexeme

namespace Token

/-- Every token of a scan is the lexeme at its place, and the scan goes on behind it. -/
theorem place_of_mem_scanFrom {carry : Carry} {start skip : Nat} {cs : List Char} {token : Token}
    (member : token ∈ scanFrom carry start skip cs) :
    ∃ carry' front c rest earlier, cs = front ++ c :: rest ∧
      token = ofLexeme carry' (start + front.length) c rest (lexemeAfter carry' c rest) ∧
      scanFrom carry start skip cs = earlier ++ token ::
        scanFrom (carry'.after token) (start + front.length + 1) (lexemeAfter carry' c rest).more
          rest := by
  induction cs generalizing carry start skip with
  | nil => simp [scanFrom] at member
  | cons c rest ih =>
    have onwards {front : List Char} : start + 1 + front.length = start + (c :: front).length := by
      rw [List.length_cons]
      omega
    cases skip with
    | succ skip =>
      obtain ⟨carry', front, d, behind, earlier, rfl, made, split⟩ := ih member
      rw [onwards] at made split
      exact ⟨carry', c :: front, d, behind, earlier, rfl, made, split⟩
    | zero =>
      rcases List.mem_cons.mp member with rfl | later
      · exact ⟨carry, [], c, rest, [], rfl, rfl, rfl⟩
      · obtain ⟨carry', front, d, behind, earlier, rfl, made, split⟩ := ih later
        rw [onwards] at made split
        refine ⟨carry', c :: front, d, behind, ofLexeme carry start c (front ++ d :: behind)
          (lexemeAfter carry c (front ++ d :: behind)) :: earlier, rfl, made, ?_⟩
        rw [List.cons_append, ← split, scanFrom]

theorem lexemeAfter_eq_lexeme {carry : Carry} {c : Char} {rest : List Char}
    (code : (lexemeAfter carry c rest).kind ≠ .inlineHtml) :
    lexemeAfter carry c rest = lexeme c rest := by
  unfold lexemeAfter at code ⊢
  split
  next html => simp [html] at code
  · rfl

theorem ofLexeme_of_mem_scanFrom {carry : Carry} {start skip : Nat} {cs : List Char} {token : Token}
    (member : token ∈ scanFrom carry start skip cs) :
    ∃ carry start c rest, token = ofLexeme carry start c rest (lexemeAfter carry c rest) := by
  obtain ⟨carry, front, c, rest, -, -, made, -⟩ := place_of_mem_scanFrom member
  exact ⟨carry, _, c, rest, made⟩

/-- If the kind of a token says that it is a bracket, it is one of the three pairs. -/
def Paired (token : Token) : Prop :=
  (token.kind = .opener → token.opening?.isSome) ∧ (token.kind = .closer → token.closing?.isSome)

theorem kind_ofLexeme (carry : Carry) (start : Nat) (c : Char) (rest : List Char) :
    (ofLexeme carry start c rest (lexemeAfter carry c rest)).kind ∈
      [.keyword, .inlineHtml, (lexeme c rest).kind] := by
  unfold ofLexeme lexemeAfter
  dsimp only
  split
  · simp
  · split <;> simp

theorem head?_text_ofLexeme (carry : Carry) (start : Nat) (c : Char) (rest : List Char)
    (found : Lexeme) : (ofLexeme carry start c rest found).text.toList.head? = some c := by
  simp [ofLexeme]

theorem paired_ofLexeme (carry : Carry) (start : Nat) (c : Char) (rest : List Char) :
    Paired (ofLexeme carry start c rest (lexemeAfter carry c rest)) := by
  obtain ⟨opens, closes⟩ := Lexeme.bracket_of_kind c rest
  have kind := kind_ofLexeme carry start c rest
  have first := head?_text_ofLexeme carry start c rest (lexemeAfter carry c rest)
  generalize ofLexeme carry start c rest (lexemeAfter carry c rest) = token at kind first
  constructor
  · intro opener
    have found : (lexeme c rest).kind = .opener := by simpa [opener, eq_comm] using kind
    simp [opening?, opener, first, opens found]
  · intro closer
    have found : (lexeme c rest).kind = .closer := by simpa [closer, eq_comm] using kind
    simp [closing?, closer, first, closes found]

theorem paired_scanFrom (carry : Carry) (start skip : Nat) (cs : List Char) :
    ∀ token ∈ scanFrom carry start skip cs, Paired token := by
  intro token member
  obtain ⟨carry, start, c, rest, rfl⟩ := ofLexeme_of_mem_scanFrom member
  exact paired_ofLexeme carry start c rest

end Token

end CursorContext
