import CursorContext.Proofs.Token.BeforeTag
import CursorContext.Proofs.Whitespace

/-!
Text before the first tag. Only behind a closing tag is text taken for HTML; what stands before the
first tag is taken for code. It leaves the tokens and the context behind the tag as they are exactly if
it is made of what code passes over and ends in no comment.
-/
namespace CursorContext

namespace Token

/-- The same token so many places further on. -/
def moved (distance : Nat) (token : Token) : Token := { token with start := distance + token.start }

theorem kind_moved (distance : Nat) (token : Token) : (token.moved distance).kind = token.kind := rfl

theorem unplaced_moved (distance : Nat) : unplaced ∘ moved distance = unplaced := rfl

theorem scanFrom_moved (carry : Carry) (distance start skip : Nat) (cs : List Char) :
    scanFrom carry (distance + start) skip cs =
      (scanFrom carry start skip cs).map (moved distance) := by
  induction cs generalizing carry start skip with
  | nil => rfl
  | cons c rest ih =>
    cases skip with
    | succ skip => exact ih carry (start + 1) skip
    | zero =>
      rw [scanFrom, scanFrom, List.map_cons]
      exact congrArg _ (ih _ (start + 1) _)

/-- A text that begins with the tag of code and a blank. -/
def OpensCode (source : String) : Prop :=
  ∃ blank rest, source.toList = ['<', '?', 'p', 'h', 'p'] ++ blank :: rest ∧
    Text.isBlank blank = true

/-- Behind text that is passed over a tag is scanned as at the beginning. -/
theorem scan_append_tag {before after : String} (passed : Passed (scan before))
    (opens : OpensCode after) :
    scan (before ++ after) = scan before ++ (scan after).map (moved before.length) := by
  obtain ⟨blank, rest, text, -⟩ := opens
  rcases scanFrom_before_tag {} 0 before.toList ('p' :: 'h' :: 'p' :: blank :: rest) with
    ⟨-, scanned⟩ | ⟨read, -⟩
  · rw [Nat.zero_add, String.length_toList] at scanned
    rw [scan, scan, scan, String.toList_append, text, ← scanFrom_moved, Nat.add_zero]
    exact scanned
  · exact absurd passed read

/-- A name behind the tag shows whether the text before it is passed over. -/
theorem passed_of_logical {before : String}
    (same : logical (scan (before ++ "<?php x")) =
      (logical (scan "<?php x")).map (moved before.length)) : Passed (scan before) := by
  have name : logical (scan "<?php x") = [{ kind := .identifier, text := "x", start := 6 }] := by
    decide +kernel
  have text : scan (before ++ "<?php x") =
      scanFrom {} 0 0 (before.toList ++ '<' :: '?' :: ['p', 'h', 'p', ' ', 'x']) := by
    rw [scan, String.toList_append]
    rfl
  rw [name, text] at same
  rcases scanFrom_before_tag {} 0 before.toList ['p', 'h', 'p', ' ', 'x'] with
    ⟨passed, -⟩ | ⟨-, hidden⟩
  · exact passed
  · rcases hidden rfl rfl with none | ⟨token, member, earlier⟩
    · rw [none] at same
      cases same
    · rw [same, List.map_singleton, List.mem_singleton] at member
      subst member
      rw [Nat.zero_add, String.length_toList] at earlier
      exact absurd earlier (Nat.not_lt.mpr (Nat.le_add_right ..))

end Token

/-- A text may stand before any code without a change if and only if no token of it carries syntax and
it does not end in a comment that can be typed on. Unchanged are the tokens of the code that carry
syntax, but for their places, and the context at its end. -/
theorem text_before_first_tag (before : String) :
    (∀ after, Token.OpensCode after →
      Token.logical (Token.scan (before ++ after)) =
        (Token.logical (Token.scan after)).map (Token.moved before.length) ∧
      Context.ofBuffer (before ++ after) = Context.ofBuffer after) ↔
    Token.logical (Token.scan before) = [] ∧ Token.endsInComment (Token.scan before) = false := by
  constructor
  · intro holds
    exact Token.passed_of_logical (holds "<?php x" ⟨' ', ['x'], rfl, rfl⟩).1
  · intro passed after opens
    have scanned := Token.scan_append_tag passed opens
    have some : Token.scan after ≠ [] := by
      obtain ⟨blank, rest, text, -⟩ := opens
      exact Token.scanFrom_ne_nil _ _ (by simp [text])
    have alike : Token.ReadAlike (Token.scan (before ++ after)) ([] ++ Token.scan after) := by
      rw [scanned]
      refine .append (by rw [passed.1]; rfl) (by simpa using some) some (.of_unplaced ?_)
      rw [List.map_map, Token.unplaced_moved]
    refine ⟨?_, Context.ofBuffer_of_readAlike alike⟩
    rw [scanned, Token.logical_append, passed.1, List.nil_append,
      Token.logical_map (Token.kind_moved before.length)]

/-- A line that names an interpreter is a comment, and text behind a closing tag is HTML. -/
example : Token.Passed (Token.scan "#!/usr/bin/php\n?>It's text.\n") := by decide +kernel

/-- An apostrophe before the first tag opens a string, and the tag and the code are part of it. -/
theorem apostrophe_before_first_tag :
    ¬ ∀ before after : String, ¬ ['<', '?'] <:+: before.toList → Token.OpensCode after →
      Token.logical (Token.scan (before ++ after)) =
        (Token.logical (Token.scan after)).map (Token.moved before.length) ∧
      Context.ofBuffer (before ++ after) = Context.ofBuffer after := by
  intro holds
  have opens : Token.OpensCode "<?php foo(" := ⟨' ', ['f', 'o', 'o', '('], rfl, rfl⟩
  have same := (holds "it's " "<?php foo(" (by decide +kernel) opens).2
  have hidden : (Context.ofBuffer ("it's " ++ "<?php foo(")).isSome = false := by decide +kernel
  rw [same] at hidden
  exact absurd hidden (by decide +kernel)

end CursorContext
