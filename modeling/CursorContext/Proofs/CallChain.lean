import CursorContext.Proofs.CursorCall
import CursorContext.Proofs.Nesting.Outermost

/-!
Chains of calls. What a chain is called on decides its class: reading backwards from the last closing
bracket, each call leads to the one before it with that one's operator, and the first call leads to
the expression in front of the chain.
-/
namespace CursorContext

/-- A call of a member: the operator that leads to it, its name, and its arguments in brackets. -/
structure CallLink where
  operator : Token
  name : Token
  arguments : Token.Bracketed .round
  member : operator.isMemberOperator = true
  named : name.kind = .identifier

namespace CallLink

def tokens (link : CallLink) : List Token := link.operator :: link.name :: link.arguments.tokens

/-- Calls one after the other. -/
def chain (links : List CallLink) : List Token := links.flatMap tokens

/-- Where a chain stands from `start` on, each of its opening brackets is that of a call. A name that
is also the word of a control structure would make a group of it. -/
def AllCalls (nesting : Nesting) (start : Nat) : List CallLink → Prop
  | [] => True
  | link :: rest =>
    (nesting.frameAt (start + 2)).map (·.role) = some .call ∧
      AllCalls nesting (start + link.tokens.length) rest

theorem length_tokens (link : CallLink) :
    link.tokens.length = link.arguments.inner.length + 4 := by
  simp [tokens, Token.Bracketed.length_tokens]

variable (link : CallLink) (before after : List Token)

/-- The operator and the name belong to what stands before the brackets. -/
theorem partners :
    Token.Partners (before ++ (link.tokens ++ after)) (before.length + 2)
      (before.length + 2 + link.arguments.inner.length + 1) := by
  refine ⟨before ++ [link.operator, link.name], link.arguments.opener, link.arguments.inner,
    link.arguments.closer, after, .round, ?_, ?_, rfl, link.arguments.opens, link.arguments.inside,
    link.arguments.closes⟩
  · simp [tokens, Token.Bracketed.tokens]
  · simp

theorem getElem?_tokens {i : Nat} (inside : i < link.tokens.length) :
    (Nesting.ofTokens (before ++ (link.tokens ++ after))).tokens[before.length + i]? =
      link.tokens[i]? := by
  rw [Nesting.tokens_ofTokens, List.getElem?_toArray, List.getElem?_append_right (by omega),
    Nat.add_sub_cancel_left, List.getElem?_append_left inside]

end CallLink

namespace Symbols

open CallLink (chain AllCalls)

theorem receiverType_base (symbols : Symbols) {nesting : Nesting} {last : Nat} {token : Token}
    (placed : nesting.tokens[last]? = some token) (plain : token.closing? = none)
    (following : String) :
    symbols.receiverType nesting (last + 1) following =
      symbols.baseType nesting last token following := by
  rw [receiverType]
  simp [placed, plain]

/-- The bracket that ends the arguments of a called member leads to what the member belongs to. -/
theorem receiverType_call (symbols : Symbols) {nesting : Nesting} {start last : Nat}
    {operator name closer : Token} {frame : Frame}
    (closing : nesting.tokens[last]? = some closer) (closes : closer.closing? = some .round)
    (ends : nesting.frameEndingAt last = some frame) (call : frame.role = .call)
    (opener : frame.opener = start + 2) (later : start + 2 ≤ last)
    (naming : nesting.tokens[start + 1]? = some name) (named : name.isName = true)
    (leading : nesting.tokens[start]? = some operator) (member : operator.isMemberOperator = true)
    (following : String) :
    symbols.receiverType nesting (last + 1) following =
      symbols.receiverType nesting start operator.text := by
  have callee : frame.callee = some (start + 1) := by
    simp [Frame.callee, Frame.isCall, call, opener]
  have bounded : 1 ≤ start + 1 ∧ start + 1 ≤ last := by omega
  have creation : operator.isKeyword ["new"] = false := not_isKeyword_of_isMemberOperator member _
  rw [receiverType]
  simp [closing, closes, ends, call, callee, bounded, naming, leading, named, creation, member]

/-- One call is passed over, whatever operator follows it. -/
theorem receiverType_link (symbols : Symbols) (link : CallLink) (before after : List Token)
    (call : ((Nesting.ofTokens (before ++ (link.tokens ++ after))).frameAt (before.length + 2)).map
      (·.role) = some .call) (following : String) :
    symbols.receiverType (Nesting.ofTokens (before ++ (link.tokens ++ after)))
        (before.length + link.tokens.length) following =
      symbols.receiverType (Nesting.ofTokens (before ++ (link.tokens ++ after))) before.length
        link.operator.text := by
  obtain ⟨frame, found, -, ends⟩ := Nesting.frame_of_partners (link.partners before after)
  have opener := (Nesting.linked_ofTokens _).opener found
  have length := link.length_tokens
  have role : frame.role = .call := by
    rw [found] at call
    exact Option.some.inj call
  have placed := fun i inside => link.getElem?_tokens before after (i := i) inside
  have last := placed (link.arguments.inner.length + 3) (by omega)
  have closer : link.tokens[link.arguments.inner.length + 3]? = some link.arguments.closer := by
    simp [CallLink.tokens, Token.Bracketed.tokens]
  have place : before.length + 2 + link.arguments.inner.length + 1 =
      before.length + (link.arguments.inner.length + 3) := by omega
  rw [place] at ends
  rw [length]
  exact receiverType_call symbols (last.trans closer) link.arguments.closes ends role opener (by omega)
    (placed 1 (by omega)) (by simp [Token.isName, link.named]) (placed 0 (by omega)) link.member
    following

/-- The class of a chain of calls is that of the expression in front of it, as it is read before the
operator of the first call. How many calls there are, what their arguments are and which operator
follows them makes no difference. -/
theorem receiverType_chain (symbols : Symbols) (before base : List Token) (first : CallLink)
    (rest : List CallLink) (after : List Token) (following : String)
    (calls : AllCalls (Nesting.ofTokens (before ++ base ++ (chain (first :: rest) ++ after)))
      (before ++ base).length (first :: rest)) :
    symbols.receiverType (Nesting.ofTokens (before ++ base ++ (chain (first :: rest) ++ after)))
        (before ++ base ++ chain (first :: rest)).length following =
      symbols.receiverType (Nesting.ofTokens (before ++ base ++ (chain (first :: rest) ++ after)))
        (before ++ base).length first.operator.text := by
  generalize before ++ base = front at calls ⊢
  -- On the calls from the first to the last: what leads to the second leads on to the first.
  induction rest generalizing front first following with
  | nil =>
    rw [CallLink.chain, List.flatMap_singleton] at calls ⊢
    rw [List.length_append]
    exact receiverType_link symbols first front after calls.1 following
  | cons second rest ih =>
    have text : front ++ (chain (first :: second :: rest) ++ after) =
        front ++ first.tokens ++ (chain (second :: rest) ++ after) := by
      simp [chain]
    have longer : front ++ chain (first :: second :: rest) =
        front ++ first.tokens ++ chain (second :: rest) := by
      simp [chain]
    obtain ⟨call, later⟩ := calls
    rw [text, ← List.length_append] at later
    rw [longer, text, ih second following (front ++ first.tokens) later]
    rw [text, List.append_assoc] at call
    rw [List.append_assoc, List.length_append]
    exact receiverType_link symbols first front (chain (second :: rest) ++ after) call _

/-- A variable that holds a new object, and two calls in a row on it. -/
theorem receiverType_two_calls :
    let before : List Token :=
      [⟨.variable, "$a", 0, true⟩, ⟨.operator, "=", 3, true⟩, ⟨.keyword, "new", 5, true⟩,
        ⟨.identifier, "A", 9, true⟩, ⟨.operator, ";", 10, true⟩]
    let base : List Token := [⟨.variable, "$a", 12, true⟩]
    let first : CallLink :=
      { operator := ⟨.operator, "->", 14, true⟩
        name := ⟨.identifier, "f", 16, true⟩
        arguments :=
          { opener := ⟨.opener, "(", 17, true⟩
            inner := [⟨.opener, "[", 18, true⟩, ⟨.closer, "]", 19, true⟩]
            closer := ⟨.closer, ")", 20, true⟩
            opens := by decide
            inside := @Token.Balanced.pair .square _ _ [] [] (by decide) .nil (by decide) .nil
            closes := by decide }
        member := by decide
        named := rfl }
    let second : CallLink :=
      { operator := ⟨.operator, "?->", 21, true⟩
        name := ⟨.identifier, "g", 24, true⟩
        arguments :=
          { opener := ⟨.opener, "(", 25, true⟩
            inner := []
            closer := ⟨.closer, ")", 26, true⟩
            opens := by decide
            inside := .nil
            closes := by decide }
        member := by decide
        named := rfl }
    let nesting := Nesting.ofTokens (before ++ base ++ (chain [first, second] ++ []))
    AllCalls nesting 6 [first, second] ∧
      (ofNesting nesting).receiverType nesting 16 "::" =
        (ofNesting nesting).receiverType nesting 6 "->" ∧
      (ofNesting nesting).receiverType nesting 6 "->" = some { written := "A", fullName := "A" } := by
  intro before base first second nesting
  have calls : AllCalls nesting 6 [first, second] := by
    refine ⟨?_, ?_, trivial⟩ <;> decide +kernel
  refine ⟨calls, receiverType_chain _ before base first [second] [] "::" calls, ?_⟩
  decide +kernel

end Symbols

end CursorContext
