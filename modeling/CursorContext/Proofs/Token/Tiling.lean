import CursorContext.Proofs.Token.Loop
import Mathlib.Data.List.Chain

/-!
Tokens tile the source. Each token begins where the one before it ends, none is empty, and together
they are the source again; leaving out trivia while scanning gives the same tokens as leaving it out
afterwards.
-/
namespace CursorContext.Token

/-- The tokens stand one after the other from `position` on, and none of them is empty. -/
def Tiles (position : Nat) : List Token → Prop
  | [] => True
  | token :: rest => token.start = position ∧ token.text ≠ "" ∧ Tiles token.stop rest

theorem tiles_scanFrom (carry : Carry) (start skip : Nat) (cs : List Char) :
    Tiles (start + skip) (scanFrom carry start skip cs) := by
  induction cs generalizing carry start skip with
  | nil => exact trivial
  | cons c rest ih =>
    cases skip with
    | succ skip =>
      have shifted := ih carry (start + 1) skip
      rw [Nat.add_assoc, Nat.add_comm 1] at shifted
      exact shifted
    | zero =>
      generalize found : lexemeAfter carry c rest = lexeme
      rw [scanFrom]
      simp only [found]
      refine ⟨rfl, by simp [ofLexeme], ?_⟩
      by_cases within : lexeme.more ≤ rest.length
      · have next := ih (carry.after (ofLexeme carry start c rest lexeme)) (start + 1) lexeme.more
        have stop : (ofLexeme carry start c rest lexeme).stop = start + 1 + lexeme.more := by
          simp [stop, ofLexeme, Nat.min_eq_left within]
          omega
        rw [stop]
        exact next
      · -- A lexeme that would reach beyond the source leaves nothing for another token.
        rw [scanFrom_skip, List.drop_eq_nil_of_le (by omega)]
        exact trivial

namespace Tiles

theorem text_ne_empty {position : Nat} {tokens : List Token} (tiles : Tiles position tokens)
    (token : Token) (member : token ∈ tokens) : token.text ≠ "" := by
  induction tokens generalizing position with
  | nil => simp at member
  | cons first rest ih =>
    rcases List.mem_cons.mp member with rfl | later
    · exact tiles.2.1
    · exact ih tiles.2.2 later

theorem start_head {position : Nat} {tokens : List Token} (tiles : Tiles position tokens)
    (token : Token) (first : tokens.head? = some token) : token.start = position := by
  cases tokens with
  | nil => simp at first
  | cons other rest =>
    cases first
    exact tiles.1

theorem isChain {position : Nat} {tokens : List Token} (tiles : Tiles position tokens) :
    tokens.IsChain (fun token next => next.start = token.stop) := by
  induction tokens generalizing position with
  | nil => exact .nil
  | cons token rest ih =>
    cases rest with
    | nil => exact .singleton token
    | cons next later => exact .cons_cons tiles.2.2.1 (ih tiles.2.2)

/-- A token's text is the part of the tiled text between its ends. -/
theorem text_eq_slice (before : List Char) {tokens : List Token}
    (tiles : Tiles before.length tokens) (token : Token) (member : token ∈ tokens) :
    token.text.toList =
      ((before ++ tokens.flatMap (·.text.toList)).take token.stop).drop token.start := by
  induction tokens generalizing before with
  | nil => simp at member
  | cons first rest ih =>
    obtain ⟨start, -, later⟩ := tiles
    have stop : first.stop = (before ++ first.text.toList).length := by
      rw [List.length_append, String.length_toList, Token.stop, start]
    rw [List.flatMap_cons, ← List.append_assoc]
    rcases List.mem_cons.mp member with rfl | other
    · rw [stop, start, List.take_left, List.drop_left]
    · exact ih (before ++ first.text.toList) (stop ▸ later) other

/-! ### Places -/

theorem le_start {position : Nat} {tokens : List Token} (tiles : Tiles position tokens)
    (token : Token) (member : token ∈ tokens) : position ≤ token.start := by
  induction tokens generalizing position with
  | nil => simp at member
  | cons first rest ih =>
    obtain ⟨start, -, later⟩ := tiles
    rcases List.mem_cons.mp member with rfl | other
    · exact Nat.le_of_eq start.symm
    · have bound := ih later other
      unfold Token.stop at bound
      omega

variable {position : Nat} {token other : Token} {front rest tokens : List Token}

theorem start_lt (tiles : Tiles position (token :: rest)) (later : other ∈ rest) :
    token.start < other.start := by
  obtain ⟨-, filled, tiles⟩ := tiles
  have behind := tiles.le_start other later
  have length : token.text.length ≠ 0 := by simpa [String.length_eq_zero_iff] using filled
  unfold Token.stop at behind
  omega

theorem eq_of_start (tiles : Tiles position tokens) (member : token ∈ tokens)
    (member' : other ∈ tokens) (same : token.start = other.start) : token = other := by
  induction tokens generalizing position with
  | nil => simp at member
  | cons first rest ih =>
    rcases List.mem_cons.mp member with rfl | later
    · rcases List.mem_cons.mp member' with rfl | later'
      · rfl
      · exact absurd same (Nat.ne_of_lt (tiles.start_lt later'))
    · rcases List.mem_cons.mp member' with rfl | later'
      · exact absurd same.symm (Nat.ne_of_lt (tiles.start_lt later))
      · exact ih tiles.2.2 later later'

theorem start_append (tiles : Tiles position (front ++ token :: rest)) :
    token.start = position + (front.flatMap (·.text.toList)).length := by
  induction front generalizing position with
  | nil => exact tiles.1
  | cons first front ih =>
    obtain ⟨start, -, later⟩ := tiles
    rw [ih later, Token.stop, start, List.flatMap_cons, List.length_append, String.length_toList]
    omega

/-- The last token is the only one if it stands in the first place. -/
theorem eq_singleton (tiles : Tiles position tokens) (ends : tokens.getLast? = some token)
    (place : token.start = position) : tokens = [token] := by
  rcases tokens with _ | ⟨first, _ | ⟨second, rest⟩⟩
  · cases ends
  · cases ends
    rfl
  · rw [List.getLast?_cons_cons] at ends
    have behind := tiles.start_lt (List.mem_of_getLast? ends)
    rw [place, tiles.1] at behind
    exact absurd behind (Nat.lt_irrefl _)

theorem length_le {position : Nat} {tokens : List Token} (tiles : Tiles position tokens) :
    tokens.length ≤ (tokens.flatMap (·.text.toList)).length := by
  induction tokens generalizing position with
  | nil => exact Nat.le_refl _
  | cons token rest ih =>
    obtain ⟨-, written, later⟩ := tiles
    have some_char : 0 < token.text.toList.length := by
      refine List.length_pos_of_ne_nil fun empty => ?_
      exact written (String.toList_eq_nil_iff.mp empty)
    rw [List.flatMap_cons, List.length_append, List.length_cons]
    have others := ih later
    omega

end Tiles

theorem tiles_scan (source : String) : Tiles 0 (scan source) := tiles_scanFrom {} 0 0 source.toList

theorem flatMap_text_scan (source : String) :
    (scan source).flatMap (·.text.toList) = source.toList := by
  rw [scan, flatMap_text_scanFrom, List.drop_zero]

/-- Every token takes up a character. -/
theorem length_logical_scan_le (source : String) : (logical (scan source)).length ≤ source.length :=
  calc (logical (scan source)).length
    _ ≤ (scan source).length := List.length_filter_le _ _
    _ ≤ ((scan source).flatMap (·.text.toList)).length := (tiles_scan source).length_le
    _ = source.length := by rw [flatMap_text_scan, String.length_toList]

theorem scanned_eq (trivia : Bool) (source : String) :
    scanned trivia source = .ok ((scan source).filter fun token => trivia || !token.isTrivia) := by
  rw [scanned, scanLoop_eq, scan, List.drop_zero]
  rfl

theorem scanned_trivia (source : String) : scanned true source = .ok (scan source) := by
  simp [scanned_eq]

/-- The tokens of a text, trivia included, are the text cut into non-empty pieces, from its first
character to its last. The scanner that is told to keep trivia hands out all of them, and the one that
is told to leave trivia out hands out those that are not trivia, unchanged. -/
theorem scan_tiles_source (source : String) :
    (∀ token ∈ scan source, token.text ≠ "") ∧
    (∀ token, (scan source).head? = some token → token.start = 0) ∧
    (scan source).IsChain (fun token next => next.start = token.stop) ∧
    (∀ token ∈ scan source,
      token.text = String.ofList ((source.toList.take token.stop).drop token.start)) ∧
    String.join ((scan source).map (·.text)) = source ∧
    scanned true source = .ok (scan source) ∧
    scanned false source = .ok (logical (scan source)) ∧
    logical (scan source) = (scan source).filter (!·.isTrivia) := by
  have tiles := tiles_scan source
  refine ⟨tiles.text_ne_empty, tiles.start_head, tiles.isChain, ?_, ?_, scanned_trivia source, ?_, rfl⟩
  · intro token member
    have slice := Tiles.text_eq_slice [] tiles token member
    rw [List.nil_append, flatMap_text_scan] at slice
    rw [← slice, String.ofList_toList]
  · rw [← String.toList_inj, String.toList_join, List.flatMap_map, flatMap_text_scan]
  · simp [scanned_eq, logical]

end CursorContext.Token
