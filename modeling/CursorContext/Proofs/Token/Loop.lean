import CursorContext.Proofs.Checked.Fault
import CursorContext.Token.Scan

/-!
Scanning by position. The scanner is a loop over places of the source that hands out tokens as it
goes. It may leave out trivia at once, but what it takes for the next token never depends on that.
-/
namespace CursorContext

namespace Token

/-! ### Skipping -/

theorem scanFrom_skip (carry : Carry) (start skip : Nat) (cs : List Char) :
    scanFrom carry start skip cs = scanFrom carry (start + skip) 0 (cs.drop skip) := by
  induction cs generalizing start skip with
  | nil => cases skip <;> simp [scanFrom]
  | cons c rest ih =>
    cases skip with
    | zero => rfl
    | succ skip =>
      rw [scanFrom, ih, List.drop_succ_cons]
      congr 1
      omega

theorem scanFrom_cons (carry : Carry) (start : Nat) (c : Char) (rest : List Char) :
    scanFrom carry start 0 (c :: rest) =
      let found := lexemeAfter carry c rest
      let token := ofLexeme carry start c rest found
      token :: scanFrom (carry.after token) (start + (found.more + 1)) 0 (rest.drop found.more) := by
  rw [scanFrom, scanFrom_skip, Nat.add_assoc, Nat.add_comm 1]

/-- The HTML between a closing tag and the next opening tag, which starts at `start`. -/
def htmlToken (start : Nat) (cs : List Char) : List Token :=
  if htmlLength cs = 0 then []
  else [{ kind := .inlineHtml, text := String.ofList (cs.take (htmlLength cs)), start }]

theorem scanFrom_html (member : Bool) (start : Nat) (cs : List Char) :
    scanFrom { member, html := true } start 0 cs =
      htmlToken start cs ++
        scanFrom { member, html := false } (start + htmlLength cs) 0 (cs.drop (htmlLength cs)) := by
  cases cs with
  | nil => simp [scanFrom, htmlToken, htmlLength]
  | cons c rest =>
    have plain : lexemeAfter { member, html := false } c rest = lexeme c rest := by
      simp [lexemeAfter]
    by_cases none : htmlLength (c :: rest) = 0
    · have same : lexemeAfter { member, html := true } c rest = lexeme c rest := by
        simp [lexemeAfter, none]
      simp only [htmlToken, none, if_true, List.nil_append, Nat.add_zero, List.drop_zero,
        scanFrom_cons, same, plain]
      rfl
    · have length : htmlLength (c :: rest) = htmlLength rest + 1 := by
        by_cases tag : (c == '<' && rest.head? == some '?') = true
        · simp [htmlLength, tag] at none
        · simp [htmlLength, tag]
      have html : lexemeAfter { member, html := true } c rest =
          { kind := .inlineHtml, more := htmlLength rest } := by
        simp [lexemeAfter, none]
      have token : ofLexeme { member, html := true } start c rest
            { kind := .inlineHtml, more := htmlLength rest } =
          { kind := .inlineHtml, text := String.ofList ((c :: rest).take (htmlLength (c :: rest))),
            start } := by
        simp [ofLexeme, length]
      simp only [scanFrom_cons { member, html := true }, html, token, htmlToken, none, if_false]
      have apart : (Kind.inlineHtml == Kind.openTag) = false := rfl
      simp [Carry.after, isTrivia, Kind.isTrivia, length, apart]

/-! ### The loop -/

/-- Whether a token ends the code, so that HTML follows. -/
def endsCode (token : Token) : Bool := token.kind == .openTag && token.text == "?>"

/-- The tokens from `position` on, with or without trivia, where `previous` is the last token that is
not trivia. -/
def scanLoop (trivia : Bool) (source : List Char) (previous : Option Token) (position : Nat) :
    Except Fault (List Token) :=
  if inside : position < source.length then
    let c := source[position]
    let rest := source.drop (position + 1)
    let found := lexeme c rest
    let token := ofLexeme { member := previous.any (·.isMemberOperator) } position c rest found
    let stop := position + (found.more + 1)
    let shown := if trivia then [token] else []
    let (tokens, previous, next) :=
      if token.endsCode then
        let html := source.drop stop
        (shown ++ (if trivia then htmlToken stop html else []), previous, stop + htmlLength html)
      else if token.isTrivia then (shown, previous, stop)
      else ([token], some token, stop)
    if _forward : position < next then do
      let later ← scanLoop trivia source previous next
      return tokens ++ later
    else throw (.stuck position)
  else return []
termination_by source.length - position

/-- The scanner as it is called: with trivia or without. -/
def scanned (trivia : Bool) (source : String) : Except Fault (List Token) :=
  scanLoop trivia source.toList none 0

theorem Carry.after_eq (carry : Carry) (token : Token) :
    carry.after token =
      { member := if token.isTrivia then carry.member else token.isMemberOperator
        html := token.endsCode } := rfl

theorem isTrivia_of_endsCode {token : Token} (ends : token.endsCode = true) :
    token.isTrivia = true := by
  simp only [endsCode, Bool.and_eq_true, beq_iff_eq] at ends
  simp [isTrivia, Kind.isTrivia, ends.1]

theorem filter_htmlToken (trivia : Bool) (start : Nat) (cs : List Char) :
    (htmlToken start cs).filter (fun token => trivia || !token.isTrivia) =
      if trivia then htmlToken start cs else [] := by
  unfold htmlToken
  split <;> cases trivia <;> simp [isTrivia, Kind.isTrivia]

theorem scanLoop_eq (trivia : Bool) (source : List Char) (previous : Option Token) (position : Nat) :
    scanLoop trivia source previous position =
      .ok ((scanFrom { member := previous.any (·.isMemberOperator) } position 0
        (source.drop position)).filter fun token => trivia || !token.isTrivia) := by
  induction remaining : source.length - position using Nat.strongRecOn
    generalizing previous position with
  | ind remaining ih =>
    rw [scanLoop]
    split
    next inside =>
      have plain (member : Bool) (c : Char) (rest : List Char) :
          lexemeAfter { member } c rest = lexeme c rest := by
        simp [lexemeAfter]
      rw [List.drop_eq_getElem_cons inside, scanFrom_cons, plain]
      dsimp only
      generalize source[position] = c
      generalize cut : source.drop (position + 1) = rest
      generalize lexeme c rest = found
      generalize made : ofLexeme { member := previous.any (·.isMemberOperator) } position c rest
        found = token
      have later : source.drop (position + (found.more + 1)) = rest.drop found.more := by
        rw [← cut, List.drop_drop]
        congr 1
        omega
      by_cases ends : token.endsCode = true
      · -- The loop takes the tag and the HTML after it in one round, the scanner in two.
        have isTrivia := isTrivia_of_endsCode ends
        have after : Carry.after { member := previous.any (·.isMemberOperator) } token =
            { member := previous.any (·.isMemberOperator), html := true } := by
          rw [Carry.after_eq, ends, isTrivia]
          rfl
        simp only [ends, if_true]
        have beyond (n : Nat) :
            source.drop (position + (found.more + 1) + n) = (rest.drop found.more).drop n := by
          rw [← later, List.drop_drop]
        rw [dif_pos (by omega), ih _ (by omega) _ _ rfl, after, scanFrom_html, later, beyond]
        rw [List.filter_cons, List.filter_append, filter_htmlToken]
        cases trivia <;> simp [isTrivia]
      · have code : token.endsCode = false := by simpa using ends
        simp only [code, Bool.false_eq_true, if_false]
        by_cases isTrivia : token.isTrivia = true
        · simp only [isTrivia, if_true]
          rw [dif_pos (by omega), ih _ (by omega) _ _ rfl, Carry.after_eq, code, isTrivia, later]
          cases trivia <;> simp [isTrivia]
        · have logical : token.isTrivia = false := by simpa using isTrivia
          simp only [logical, Bool.false_eq_true, if_false]
          rw [dif_pos (by omega), ih _ (by omega) _ _ rfl, Carry.after_eq, code, later]
          simp [logical]
    next beyond =>
      rw [List.drop_eq_nil_of_le (by omega)]
      rfl

end Token

end CursorContext
