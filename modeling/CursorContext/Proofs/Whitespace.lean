import CursorContext.Proofs.Symbols.Unplaced
import CursorContext.Proofs.Token.Spacing

/-!
Whitespace between tokens. A space put where a token begins changes neither the tokens that carry
syntax nor the context at the end of the buffer.
-/
namespace CursorContext

/-- The context of a buffer follows from the tokens that carry syntax, wherever they stand. -/
theorem Context.ofBuffer_of_readAlike {buffer other : String}
    (alike : Token.ReadAlike (Token.scan buffer) (Token.scan other)) :
    ofBuffer buffer = ofBuffer other := by
  have nested := Nesting.unplaced_ofTokens alike.logical
  rw [ofBuffer, ofBuffer, ← Nesting.context?_unplaced, nested, Nesting.context?_unplaced,
    alike.comment]

/-- Between two tokens a space does not matter. The tokens that carry syntax keep their kind and text
and their end, in the same order, the text ends in a comment or not as before, and so the context at
its end is the same. Only a number sign must not be separated from a square bracket. -/
theorem space_between_tokens (before after : String) (some : after ≠ "")
    (begins : ∃ token ∈ Token.scan (before ++ after), token.start = before.length)
    (noAttribute : ¬ ((∃ token ∈ Token.scan (before ++ after), token.stop = before.length ∧
      token.kind = .operator ∧ token.text = "#") ∧ after.toList.head? = .some '[')) :
    (Token.logical (Token.scan (before ++ " " ++ after))).map
        (fun token => (token.kind, token.text, token.terminated)) =
      (Token.logical (Token.scan (before ++ after))).map
        (fun token => (token.kind, token.text, token.terminated)) ∧
    Token.endsInComment (Token.scan (before ++ " " ++ after)) =
      Token.endsInComment (Token.scan (before ++ after)) ∧
    Context.ofBuffer (before ++ " " ++ after) = Context.ofBuffer (before ++ after) := by
  have alike : Token.ReadAlike (Token.scan (before ++ after)) (Token.scan (before ++ " " ++ after)) := by
    obtain ⟨token, member, start⟩ := begins
    have boundary : Token.Boundary after.toList {} before.toList := by
      rw [Token.scan, String.toList_append] at member
      refine Token.boundary_of_token member ?_ ?_
      · rw [Nat.zero_add, String.length_toList, start]
      · intro token member stop kind text bracket
        refine noAttribute ⟨⟨token, ?_, ?_, kind, text⟩, bracket⟩
        · rwa [Token.scan, String.toList_append]
        · rwa [Nat.zero_add, String.length_toList] at stop
    have text : (before ++ " " ++ after).toList = before.toList ++ ' ' :: after.toList := by
      rw [String.toList_append, String.toList_append, List.append_assoc]
      rfl
    rw [Token.scan, Token.scan, text, String.toList_append]
    exact boundary.readAlike (by simpa using some) 0 0
  refine ⟨?_, alike.comment.symm, (Context.ofBuffer_of_readAlike alike).symm⟩
  have same := congrArg (List.map fun token : Token => (token.kind, token.text, token.terminated))
    alike.logical
  simpa [List.map_map, Function.comp_def] using same.symm

/-- Two numbers that stand side by side. -/
theorem space_between_numbers :
    (∃ token ∈ Token.scan ("f(1." ++ ".2, $x"), token.start = "f(1.".length) ∧
      Context.ofBuffer ("f(1." ++ " " ++ ".2, $x") = Context.ofBuffer ("f(1." ++ ".2, $x") ∧
      (Context.ofBuffer ("f(1." ++ " " ++ ".2, $x")).map (·.parameters) = some ["1. .2"] := by
  have begins : ∃ token ∈ Token.scan ("f(1." ++ ".2, $x"), token.start = "f(1.".length := by
    decide +kernel
  have same := space_between_tokens "f(1." ".2, $x" (by decide) begins (by decide +kernel)
  exact ⟨begins, same.2.2, by decide +kernel⟩

end CursorContext
