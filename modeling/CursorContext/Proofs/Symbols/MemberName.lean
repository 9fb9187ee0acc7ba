import CursorContext.Proofs.Symbols.Live
import CursorContext.Proofs.Symbols.Renamed
import CursorContext.Token.Scan

/-!
What the name of a called member decides. The role of the bracket after it follows from the word, and a
bracket after the word for a handler binds its variable, whatever stands in front of the word. Apart
from these two the name can be replaced by any other: all roles and the bindings at the end stay.
-/
namespace CursorContext.Symbols

open Nesting (Renamed)

variable {nesting other : Nesting} {index : Nat} {name twin : Token}

/-- If the pass comes to the name and reads it for itself, the two passes never differ. -/
theorem passUpTo_renamed (renamed : Renamed nesting other index name twin)
    (linked : nesting.Linked) (comes : comesTo nesting (index + 1) = true)
    (plainly : (passUpTo nesting (index + 1)).importing = false)
    (outside : inHandlerList nesting (index + 1) = false)
    (same : Text.lower twin.text = "catch" ↔ Text.lower name.text = "catch") {count : Nat}
    (inside : count ≤ nesting.tokens.size) : passUpTo other count = passUpTo nesting count := by
  induction count with
  | zero => simp only [passUpTo, List.take_zero, List.foldl_nil]
  | succ count ih =>
    have before := ih (by omega)
    have coming : comesTo other count = comesTo nesting count := by rw [comesTo, comesTo, before]
    have placed := Array.getElem?_eq_getElem (show count < nesting.tokens.size by omega)
    by_cases here : count = index + 1
    · -- At the name itself only the two words matter.
      subst here
      rw [passUpTo_read renamed.placed comes, passUpTo_read renamed.placed_twin (coming.trans comes),
        before, plainly]
      exact readStatement_name renamed linked same
    · have placed' := (renamed.getElem?_of_ne here).trans placed
      cases reached : comesTo nesting count with
      | false =>
        rw [passUpTo_passed placed reached, passUpTo_passed placed' (coming.trans reached), before]
      | true =>
        have next := passUpTo_read placed reached
        -- What goes on over the name would keep the pass from coming to it.
        have clear : index + 1 < count ∨ (passUpTo nesting (count + 1)).resume ≤ index + 1 := by
          by_contra covers
          obtain ⟨upTo, beyond⟩ := not_or.mp covers
          obtain ⟨bound, -⟩ := Array.getElem?_eq_some_iff.mp renamed.placed
          have between : passUpTo nesting (index + 1) = passUpTo nesting (count + 1) :=
            passUpTo_between (by omega) (by omega) (by omega)
          rw [comesTo, between] at comes
          exact beyond (of_decide_eq_true comes)
        rw [next] at clear
        rw [next, passUpTo_read placed' (coming.trans reached), before]
        exact read_renamed renamed linked placed here outside _ clear

theorem ofNesting_renamed (renamed : Renamed nesting other index name twin)
    (linked : nesting.Linked) (comes : comesTo nesting (index + 1) = true)
    (plainly : (passUpTo nesting (index + 1)).importing = false)
    (outside : inHandlerList nesting (index + 1) = false)
    (same : Text.lower twin.text = "catch" ↔ Text.lower name.text = "catch") :
    ofNesting other = ofNesting nesting := by
  rw [← symbols_passUpTo_size, ← symbols_passUpTo_size, renamed.size,
    passUpTo_renamed renamed linked comes plainly outside same (Nat.le_refl _)]

/-! ### What a member's name decides -/

/-- Replacing the name of a called member changes the role of no frame but the one its bracket opens,
and that one only if the two words put a bracket to different uses. The bindings at the end stay as
they are if the pass comes to the name and reads it for itself, if the name does not stand directly
in the list of a handler, and if the word for a handler is not among the two names unless it is both. -/
theorem member_name_replaced {tokens : List Token} {index : Nat} {operator name list : Token}
    (word : String) (before : tokens[index]? = some operator)
    (member : operator.isMemberOperator = true) (placed : tokens[index + 1]? = some name)
    (identifier : name.kind = .identifier) (after : tokens[index + 2]? = some list)
    (calls : list.opening? = some .round) :
    let nesting := Nesting.ofTokens tokens
    let other := Nesting.ofTokens (tokens.set (index + 1) { name with text := word })
    (∀ i, (other.frameAt i).map (·.role) = (nesting.frameAt i).map (·.role) ↔
      (i = index + 2 →
        Role.afterWord (Text.lower word) none = Role.afterWord (Text.lower name.text) none)) ∧
    (comesTo nesting (index + 1) = true → (passUpTo nesting (index + 1)).importing = false →
      inHandlerList nesting (index + 1) = false →
      (Text.lower word = "catch" ↔ Text.lower name.text = "catch") →
      (ofNesting other).bindings = (ofNesting nesting).bindings) := by
  intro nesting other
  have renamed : Renamed nesting other index name { name with text := word } :=
    Nesting.renamed_ofTokens before member placed identifier after calls identifier
  have linked := Nesting.linked_ofTokens tokens
  have formed := Nesting.formed_ofTokens tokens
  have formed' : other.Formed := Nesting.formed_ofTokens _
  refine ⟨?_, ?_⟩
  · intro i
    by_cases here : i = index + 2
    · -- The bracket after the name: its role is that of the word.
      obtain ⟨frame, found, role⟩ := renamed.role_call formed
      obtain ⟨twinFrame, found', role'⟩ := renamed.symm.role_call formed'
      rw [here, found, found', Option.map_some, Option.map_some, role, role']
      simp
    · simp [renamed.role_eq formed formed' here, here]
  · intro comes plainly outside same
    rw [ofNesting_renamed renamed linked comes plainly outside same]

/-- The name of a method called in the block of a handler, replaced by another plain word. -/
theorem plain_name_replaced :
    let tokens := Token.logical (Token.scan "catch (Foo $e) \x7b $e->fetch(")
    let name : Token := { kind := .identifier, text := "fetch", start := 21 }
    let other := tokens.set 8 { name with text := "store" }
    tokens[8]? = some name ∧
    (∀ i, ((Nesting.ofTokens other).frameAt i).map (·.role) =
      ((Nesting.ofTokens tokens).frameAt i).map (·.role)) ∧
    (ofNesting (Nesting.ofTokens other)).bindings =
      (ofNesting (Nesting.ofTokens tokens)).bindings := by
  intro tokens name other
  have placed : tokens[8]? = some name := by decide +kernel
  have kept := member_name_replaced "store"
    (show tokens[7]? = some { kind := .operator, text := "->", start := 19 } by decide +kernel)
    (by decide) placed rfl
    (show tokens[9]? = some { kind := .opener, text := "(", start := 26 } by decide +kernel)
    (by decide)
  refine ⟨placed, fun i => (kept.1 i).mpr fun _ => by decide +kernel, ?_⟩
  exact kept.2 (by decide +kernel) (by decide +kernel) (by decide +kernel) (by decide +kernel)

/-- The two words that lead to another answer: after `match` the bracket is a group, and the list of
a method named `catch` binds its variable as that of a handler does. -/
theorem reserved_name_noticed :
    let tokens := Token.logical (Token.scan "$a->fetch(Foo $e")
    let renamed (word : String) : Nesting :=
      .ofTokens (tokens.set 2 { kind := .identifier, text := word, start := 4 })
    tokens = tokens.set 2 { kind := .identifier, text := "fetch", start := 4 } ∧
    ((renamed "fetch").frameAt 3).map (·.role) = some .call ∧
    ((renamed "match").frameAt 3).map (·.role) = some .group ∧
    (ofNesting (renamed "fetch")).bindings["$e"]? = none ∧
    ((ofNesting (renamed "catch")).bindings["$e"]?.join).map (·.fullName) = some "Foo" := by
  decide +kernel

end CursorContext.Symbols
