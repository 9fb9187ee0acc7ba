import CursorContext.Proofs.Token.Brackets
import CursorContext.Proofs.Token.Settled

/-!
Text typed behind a line break. The tokens before the blanks that hold the break are final: no text
that follows changes them. The blanks themselves may still grow.
-/
namespace CursorContext

namespace Lexeme

theorem isBlank_of_kind {c : Char} {rest : List Char}
    (blanks : (lexeme c rest).kind = .whitespace) : Text.isBlank c = true := by
  have recognised := lexeme_recognised c rest
  generalize lexeme c rest = found at recognised blanks
  simp only [List.mem_cons, List.not_mem_nil, or_false] at recognised
  rcases recognised with last | there | there | there | there | there | there | there | there
  · grind [sign]
  · grind [whitespace?]
  · grind [comment?, lineComment, blockComment]
  · grind [tag?]
  · simp [kind_of_heredoc there.symm] at blanks
  · grind [quoted?]
  · grind [dollarName?]
  · grind [number?]
  · grind [identifier?]

end Lexeme

namespace Token

theorem isBlank_of_mem_scan {source : String} {token : Token} (member : token ∈ scan source)
    (blanks : token.kind = .whitespace) :
    ∃ s x, token.text.toList = s :: x ∧ Text.isBlank s = true := by
  obtain ⟨carry, start, c, rest, rfl⟩ := ofLexeme_of_mem_scanFrom member
  have kind := kind_ofLexeme carry start c rest
  have found : (lexeme c rest).kind = .whitespace := by simpa [blanks, eq_comm] using kind
  exact ⟨c, rest.take (lexemeAfter carry c rest).more, String.toList_ofList,
    Lexeme.isBlank_of_kind found⟩

/-! ### Text behind a line break -/

theorem boundary_append {carry : Carry} {p w : List Char} {s : Char} (blank : Text.isBlank s = true)
    (newline : '\n' ∈ s :: w) (boundary : Boundary (s :: w) carry p) (x : List Char) :
    Boundary (s :: (w ++ x)) carry p := by
  refine boundary.settled (Lexeme.mem_breaks_of_isBlank blank) ?_
  intro c q absent
  have later := Lexeme.heredoc?_append_none (List.mem_append_right q newline) absent x
  rwa [List.append_assoc] at later

theorem exists_text_before {source : String} {last : Token}
    (ends : (scan source).getLast? = some last) :
    ∃ p, source.toList = p ++ last.text.toList ∧ last.start = p.length := by
  have whole := List.dropLast_append_getLast? last ends
  refine ⟨(scan source).dropLast.flatMap (·.text.toList), ?_, ?_⟩
  · rw [← flatMap_text_scan source]
    conv_lhs => rw [← whole]
    simp
  · have tiles : Tiles 0 ((scan source).dropLast ++ [last]) := whole.symm ▸ tiles_scan source
    rw [tiles.start_append, Nat.zero_add]

/-- What was scanned before a line break stays as it is, whatever is typed behind the break. -/
theorem scan_append_after_newline (source more : String) (last : Token)
    (ends : (scan source).getLast? = some last) (blanks : last.kind = .whitespace)
    (newline : '\n' ∈ last.text.toList) : (scan source).dropLast <+: scan (source ++ more) := by
  have member := List.mem_of_getLast? ends
  obtain ⟨s, w, text, blank⟩ := isBlank_of_mem_scan member blanks
  obtain ⟨p, source_eq, place⟩ := exists_text_before ends
  have isBreak := Lexeme.mem_breaks_of_isBlank blank
  rw [text] at newline source_eq
  have scanned : scan source = scanFrom {} 0 0 (p ++ s :: w) := by rw [scan, source_eq]
  have longer : scan (source ++ more) = scanFrom {} 0 0 (p ++ s :: (w ++ more.toList)) := by
    rw [scan, String.toList_append, source_eq, List.append_assoc, List.cons_append]
  rw [← Nat.zero_add p.length] at place
  have boundary := boundary_of_break isBreak (scanned ▸ member) place
  obtain ⟨front, next, first, second⟩ :=
    boundary.common isBreak (boundary_append blank newline boundary more.toList) 0
  rw [← scanned] at first
  -- Behind the common front only the blanks are left, for they begin where it ends.
  have last_alone : scanFrom next (0 + p.length) 0 (s :: w) = [last] := by
    have rest := scanFrom_ne_nil next (0 + p.length) (List.cons_ne_nil s w)
    rw [first, List.getLast?_append_of_ne_nil _ rest] at ends
    exact (tiles_scanFrom ..).eq_singleton ends place
  rw [first, last_alone, List.dropLast_concat, longer, second]
  exact List.prefix_append ..

/-- A line break keeps the opener of a heredoc from taking in the label on the next line. -/
theorem label_after_newline :
    (scan "f(<<<\n").getLast? = some { kind := .whitespace, text := "\n", start := 5 } ∧
      (scan "f(<<<\n").dropLast <+: scan ("f(<<<\n" ++ "EOT\n") := by
  have ends : (scan "f(<<<\n").getLast? =
      some { kind := .whitespace, text := "\n", start := 5 } := by decide +kernel
  exact ⟨ends, scan_append_after_newline "f(<<<\n" "EOT\n" _ ends rfl (by decide +kernel)⟩

end Token

end CursorContext
