import CursorContext.Proofs.Token.Recognised

/-!
A space behind a lexeme. A lexeme that ends where the space is put, or before it, is recognised as
before, with the one exception that trivia which ends there takes the space in. What lies beyond the
place has to be known for this: a recogniser looks ahead, and a lexeme that would go on beyond the place
may become another one.
-/
namespace CursorContext

namespace Lexeme

open Text

/-! ### One lexeme -/

/-- What becomes of a lexeme that does not go beyond `p` when a space is put behind `p`. It stays as it
is, or it is trivia that ends there and takes the space in. -/
def Spaced (p : List Char) (found spaced : Lexeme) : Prop :=
  spaced = found ∨
    found.kind ∈ [.whitespace, .comment, .inlineHtml] ∧ found.more = p.length ∧
      spaced = { found with more := p.length + 1 }

/-- The lexeme behind `found` does not go beyond `p` either. -/
def NextWithin (c : Char) (p b : List Char) (found : Lexeme) : Prop :=
  c ≠ '?' → ∀ d q, p.drop found.more = d :: q → (lexeme d (q ++ b)).more ≤ q.length

/-- Neither the lexeme nor the one behind it goes beyond `p`. -/
def Fits (c : Char) (p b : List Char) (found : Lexeme) : Prop :=
  found.more ≤ p.length ∧ NextWithin c p b found

variable {c : Char} {p b : List Char}

theorem run_isBlank_cons (b : List Char) : run isBlank (' ' :: b) = run isBlank b + 1 := by
  rw [run, List.takeWhile_cons_of_pos rfl]
  rfl

theorem whitespace?_spaced :
    Agrees (Fits c p b) (Spaced p) (whitespace? c (p ++ b)) (whitespace? c (p ++ ' ' :: b)) := by
  unfold whitespace?
  split
  · refine .some fun ⟨within, _⟩ => ?_
    dsimp only at within
    have same := run_of_within within
    rcases Nat.lt_or_eq_of_le (same ▸ within) with stops | passes
    · exact .inl (by rw [same, run_append_of_lt stops])
    · -- The blanks end with the place, and so the space goes to them.
      have none : run isBlank b = 0 := by
        rw [run_append, if_pos passes] at within
        omega
      refine .inr ⟨by simp, same.trans passes, ?_⟩
      rw [run_append, if_pos passes, run_isBlank_cons, none]
  · exact .none

/-! ### Comments and tags -/

theorem lexeme_endTag {cs : List Char} (tag : cs.head? = some '>') : (lexeme '?' cs).more = 1 := by
  cases cs with
  | nil => cases tag
  | cons d rest =>
    cases tag
    rfl

theorem lineComment_spaced {skip : Nat} (fits : skip ≤ p.length) (some : b ≠ []) (code : c ≠ '?')
    (within : (lineComment skip (p ++ b)).more ≤ p.length)
    (next : NextWithin c p b (lineComment skip (p ++ b))) :
    Spaced p (lineComment skip (p ++ b)) (lineComment skip (p ++ ' ' :: b)) := by
  have length := List.length_pos_iff.mpr some
  have ended {more : Nat} {x : List Char} (before : more ≤ p.length) (rest : x ≠ []) :
      (!((p ++ x).drop more).isEmpty) = true := by
    rw [List.drop_append_of_le_length before]
    simp [rest]
  unfold lineComment at within next ⊢
  dsimp only at within next ⊢
  rw [List.drop_append_of_le_length fits] at within next ⊢
  rw [List.drop_append_of_le_length fits]
  have apart : (p.drop skip).drop (lineLength (p.drop skip ++ b)) = ['?'] → b.head? ≠ .some '>' := by
    intro last tag
    rw [List.drop_drop] at last
    have bound := next code '?' [] last
    rw [List.nil_append, lexeme_endTag tag] at bound
    cases bound
  have inner : lineLength (p.drop skip ++ b) ≤ (p.drop skip).length := by
    rw [List.length_drop]
    omega
  rcases lineLength_spaced inner apart with ⟨before, same⟩ | ⟨upTo, grown⟩
  · refine .inl ?_
    rw [same, ended within some, ended within (by simp)]
  · rw [List.length_drop] at upTo grown
    refine .inr ⟨by simp, by dsimp only; omega, ?_⟩
    dsimp only
    rw [ended within some, grown, show skip + (p.length - skip + 1) = p.length + 1 by omega]
    simp [some]

theorem isWord_of_toLower {d : Char} (letter : d.toLower.isAlpha = true) : isWord d = true := by
  have alpha : d.isAlpha = true := by
    unfold Char.toLower at letter
    split at letter
    next upper =>
      have capital : d.isUpper = true := decide_eq_true upper
      exact Bool.or_eq_true_iff.mpr (.inl capital)
    next => exact letter
  simp only [isWord, isNameStart, alpha, Bool.true_or]

theorem eq_of_toLower {d : Char} (lower : d.toLower = 'p') : d = 'p' ∨ d = 'P' := by
  unfold Char.toLower at lower
  split at lower
  next upper =>
    refine .inr (Char.ext ?_)
    have shifted : d.val + 32 = 80 + 32 := congrArg Char.val lower
    exact (UInt32.add_left_inj 32).mp shifted
  next => exact .inl lower

theorem tagWord_cons (x y z : Char) (rest : List Char) : tagWord (x :: y :: z :: rest) =
    if [x.toLower, y.toLower, z.toLower] = ['p', 'h', 'p'] ∧ atWordEnd rest = true then 3
    else if x = '=' then 1 else 0 := by
  simp [tagWord]

/-- A word that only looks like the tag's goes on beyond the place. -/
theorem length_lt_more_of_tagName {x y z : Char}
    (word : [x.toLower, y.toLower, z.toLower] = ['p', 'h', 'p']) (goesOn : atWordEnd b = false) :
    2 < (lexeme x (y :: z :: b)).more := by
  injection word with first word
  injection word with second word
  injection word with third
  have name : (lexeme x (y :: z :: b)).more = nameLength (y :: z :: b) := by
    rcases eq_of_toLower first with rfl | rfl
    · rfl
    · rfl
  cases b with
  | nil => cases goesOn
  | cons d rest =>
    have fourth : isWord d = true := by simpa [atWordEnd] using goesOn
    rw [name]
    simp only [nameLength, isWord_of_toLower (d := y) (by rw [second]; decide),
      isWord_of_toLower (d := z) (by rw [third]; decide), fourth, if_true]
    omega

theorem tagWord_of_lt {x : Char} {rest : List Char} (small : tagWord (x :: rest) < 3) :
    tagWord (x :: rest) = if x = '=' then 1 else 0 := by
  unfold tagWord at small ⊢
  split at small
  · omega
  next other =>
    rw [if_neg other]
    simp

theorem tagWord_spaced {q : List Char} (within : tagWord (q ++ b) ≤ q.length)
    (next : ∀ d r, q.drop (tagWord (q ++ b)) = d :: r → (lexeme d (r ++ b)).more ≤ r.length) :
    tagWord (q ++ ' ' :: b) = tagWord (q ++ b) := by
  rcases q with _ | ⟨x, _ | ⟨y, _ | ⟨z, q⟩⟩⟩
  · exact (Nat.le_zero.mp within).symm
  · have one : tagWord (x :: ' ' :: b) = if x = '=' then 1 else 0 := by simp [tagWord]
    exact one.trans (tagWord_of_lt (Nat.lt_of_le_of_lt within (by simp))).symm
  · have two : tagWord (x :: y :: ' ' :: b) = if x = '=' then 1 else 0 := by simp [tagWord]
    exact two.trans (tagWord_of_lt (Nat.lt_of_le_of_lt within (by simp))).symm
  · simp only [List.cons_append, tagWord_cons] at next ⊢
    by_cases word : [x.toLower, y.toLower, z.toLower] = ['p', 'h', 'p']
    · cases q with
      | cons d q => rfl
      | nil =>
        cases ends : atWordEnd b with
        | true =>
          have space : atWordEnd (' ' :: b) = true := rfl
          simp [word, ends, space]
        | false =>
          -- Then the tag has no word, and the name behind it goes on in `b`.
          have plain : x ≠ '=' := by
            rintro rfl
            cases word
          have bound := next x [y, z] (by simp [ends, plain])
          exact absurd (length_lt_more_of_tagName word ends) (by simpa using bound)
    · simp [word]

/-- The next lexeme when a space is put behind `p`. -/
theorem lexeme_spaced (some : b ≠ []) (noAttribute : p = [] → c = '#' → b.head? ≠ .some '[')
    (within : (lexeme c (p ++ b)).more ≤ p.length)
    (next : NextWithin c p b (lexeme c (p ++ b))) :
    Spaced p (lexeme c (p ++ b)) (lexeme c (p ++ ' ' :: b)) := by
  have bounded : ∀ found, Fits c p b found → Within p found := fun _ fit => fit.1
  have same : ∀ found, Spaced p found found := fun _ => .inl rfl
  have isBreak : ' ' ∈ breaks := by decide
  refine lexeme_becomes bounded same isBreak some b whitespace?_spaced ?_ ?_ heredoc?_none
    ⟨within, next⟩
  · refine agrees_comment bounded same isBreak some b noAttribute fun code skip fits => ?_
    exact .some fun ⟨within, next⟩ => lineComment_spaced fits some code within next
  · refine agrees_tag bounded same isBreak b ?_
    rintro rfl q rfl ⟨within, next⟩
    refine tagWord_spaced ?_ ?_
    · rw [List.length_cons, Nat.add_comm 1] at within
      exact Nat.le_of_succ_le_succ within
    · intro d r rest
      exact next (by decide) d r (by simpa [Nat.add_comm 1] using rest)

end Lexeme

end CursorContext
