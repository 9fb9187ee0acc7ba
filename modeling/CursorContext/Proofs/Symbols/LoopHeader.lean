import CursorContext.Proofs.Symbols.FunctionScope

/-!
The header of a loop over the values of something, as it is written: the word, and between round
brackets what the loop goes through, `as`, and the variables that the values are given to. Wherever
a header stands, its tokens are found behind each other, and what stands between the brackets is in
the frame that they open.
-/
namespace CursorContext.Symbols

open Token

variable {nesting : Nesting}

theorem isOperator_of_sign {token : Token} {sign : String} {signs : List String}
    (operator : token.isOperator [sign] = true) (known : sign ∈ signs) :
    token.isOperator signs = true := by
  simp only [Token.isOperator, Bool.and_eq_true, List.contains_iff_mem,
    List.mem_singleton] at operator ⊢
  exact ⟨operator.1, operator.2 ▸ known⟩

theorem isOperator_eq_false {token : Token} {signs others : List String}
    (operator : token.isOperator signs = true) (apart : ∀ sign ∈ others, sign ∉ signs) :
    token.isOperator others = false := by
  simp only [Token.isOperator, Bool.and_eq_true, List.contains_iff_mem] at operator
  have other : token.text ∉ others := fun among => apart _ among operator.2
  simp [Token.isOperator, other]

/-- The variables that a loop gives its values to. -/
structure LoopTarget where
  /-- The variable for the keys, and the arrow behind it. -/
  key : Option (Token × Token)
  reference : Option Token
  value : Token
  keyed : ∀ pair ∈ key, pair.1.kind = .variable ∧ pair.2.isOperator ["=>"] = true
  refers : ∀ mark ∈ reference, mark.isOperator ["&"] = true
  named : value.kind = .variable

namespace LoopTarget

variable (target : LoopTarget)

def tokens : List Token :=
  (target.key.map fun pair => [pair.1, pair.2]).getD [] ++ (target.reference.toList ++ [target.value])

/-- What stands before the first variable. -/
def marks : List Token := if target.key.isSome then [] else target.reference.toList

/-- The first variable. -/
def first : Token := (target.key.map (·.1)).getD target.value

/-- What stands behind the first variable. -/
def rest : List Token :=
  (target.key.map fun pair => pair.2 :: (target.reference.toList ++ [target.value])).getD []

/-- The operators in front of the value, if there is a key. -/
def signs : List Token := (target.key.map fun pair => pair.2 :: target.reference.toList).getD []

/-- The variable that follows `as` directly. -/
def rebound : Option String := if target.marks.isEmpty then some target.first.text else none

theorem tokens_eq : target.tokens = target.marks ++ target.first :: target.rest := by
  cases key : target.key <;> simp [tokens, marks, first, rest, key]

theorem first_kind : target.first.kind = .variable := by
  cases key : target.key with
  | none => simp [first, key, target.named]
  | some pair => simp [first, key, (target.keyed pair key).1]

/-- A target holds variables and two operators. -/
theorem mem_tokens {token : Token} (among : token ∈ target.tokens) :
    token.kind = .variable ∨ token.isOperator ["=>", "&"] = true := by
  simp only [tokens, List.mem_append, Option.mem_toList, List.mem_singleton] at among
  rcases among with keyed | marked | rfl
  · cases key : target.key with
    | none => simp [key] at keyed
    | some pair =>
      obtain ⟨variable_, arrow⟩ := target.keyed pair key
      simp only [key, Option.map_some, Option.getD_some, List.mem_cons, List.not_mem_nil,
        or_false] at keyed
      rcases keyed with rfl | rfl
      · exact .inl variable_
      · exact .inr (isOperator_of_sign arrow (by simp))
  · exact .inr (isOperator_of_sign (target.refers token marked) (by simp))
  · exact .inl target.named

theorem plain_tokens {token : Token} (among : token ∈ target.tokens) :
    token.opening? = none ∧ token.closing? = none := by
  rcases target.mem_tokens among with kind | operator
  · simp [Token.opening?, Token.closing?, kind]
  · exact ⟨opening?_of_isOperator operator, closing?_of_isOperator operator⟩

theorem no_keyword {token : Token} (among : token ∈ target.tokens) (words : List String) :
    token.isKeyword words = false := by
  rcases target.mem_tokens among with kind | operator
  · simp [Token.isKeyword, kind]
  · simp [Token.isKeyword, eq_of_beq (Bool.and_eq_true_iff.mp operator).1]

/-- Behind the first variable stands nothing, or the value behind operators. -/
theorem rest_cases : target.rest = [] ∨
    (target.rest = target.signs ++ [target.value] ∧ target.signs ≠ []) := by
  cases key : target.key with
  | none => exact .inl (by simp [rest, key])
  | some pair => exact .inr (by simp [rest, signs, key])

theorem operator_of_signs {token : Token} (among : token ∈ target.signs) :
    token.isOperator ["=>", "&"] = true := by
  cases key : target.key with
  | none => simp [signs, key] at among
  | some pair =>
    simp only [signs, key, Option.map_some, Option.getD_some] at among
    rcases List.mem_cons.mp among with rfl | mark
    · exact isOperator_of_sign (target.keyed pair key).2 (by simp)
    · exact isOperator_of_sign (target.refers token (Option.mem_toList.mp mark)) (by simp)

theorem refers_of_marks {token : Token} (among : token ∈ target.marks) :
    token.isOperator ["&"] = true := by
  unfold marks at among
  split at among
  · simp at among
  · exact target.refers token (Option.mem_toList.mp among)

theorem mem_of_marks {token : Token} (among : token ∈ target.marks) : token ∈ target.tokens := by
  rw [target.tokens_eq]
  exact List.mem_append_left _ among

end LoopTarget

/-- The header of a loop over what `iterated` says. -/
structure LoopHeader where
  word : Token
  opener : Token
  iterated : List Token
  gives : Token
  target : LoopTarget
  closer : Token
  block : Token
  begins : word.isName = true
  loops : Text.lower word.text = "foreach"
  opens : opener.opening? = some .round
  balanced : Balanced iterated
  as : gives.isKeyword ["as"] = true
  closes : closer.closing? = some .round
  blocks : block.opening? = some .curly

namespace LoopHeader

variable (header : LoopHeader)

/-- What stands before the first variable of the target. -/
def inFront : List Token := header.iterated ++ header.gives :: header.target.marks

def front : List Token := header.word :: header.opener :: header.inFront

def tokens : List Token :=
  header.word :: header.opener ::
    (header.iterated ++ header.gives :: (header.target.tokens ++ [header.closer, header.block]))

/-- What stands between the brackets. -/
def inner : List Token := header.iterated ++ header.gives :: header.target.tokens

theorem inner_eq : header.inner = header.inFront ++ header.target.first :: header.target.rest := by
  simp [inner, inFront, header.target.tokens_eq]

theorem tokens_eq : header.tokens = header.front ++ header.target.first ::
    (header.target.rest ++ [header.closer, header.block]) := by
  simp [tokens, front, inFront, header.target.tokens_eq]

theorem add_length_front (start : Nat) :
    start + header.front.length = start + 2 + header.inFront.length := by
  simp [front]
  omega

theorem length_inner :
    header.inner.length = header.inFront.length + header.target.rest.length + 1 := by
  simp [inner_eq]
  omega

theorem gives_kind : header.gives.kind = .keyword :=
  eq_of_beq (Bool.and_eq_true_iff.mp header.as).1

/-- Between what the loop goes through and the first variable stand `as` and perhaps `&`. -/
theorem kind_of_marks {token : Token} (among : token ∈ header.gives :: header.target.marks) :
    token.kind ≠ .identifier ∧ token.kind ≠ .variable ∧ token.isOperator ["="] = false := by
  rcases List.mem_cons.mp among with rfl | mark
  · simp [Token.isOperator, header.gives_kind]
  · have refers := header.target.refers_of_marks mark
    have kind := eq_of_beq (Bool.and_eq_true_iff.mp refers).1
    simp [kind, isOperator_eq_false refers (show ∀ sign ∈ ["="], sign ∉ ["&"] by decide)]

theorem lt_of_variable {i : Nat} {token : Token} (there : header.inFront[i]? = some token)
    (kind : token.kind = .variable) : i < header.iterated.length := by
  by_contra beyond
  rw [inFront, List.getElem?_append_right (by omega)] at there
  exact (header.kind_of_marks (List.mem_of_getElem? there)).2.1 kind

theorem balanced_inFront : Balanced header.inFront := by
  have kind := header.gives_kind
  apply header.balanced.append
  apply Balanced.plain (by simp [Token.opening?, kind]) (by simp [Token.closing?, kind])
  exact .of_plain fun token among => header.target.plain_tokens (header.target.mem_of_marks among)

theorem balanced_inner : Balanced header.inner := by
  have kind := header.gives_kind
  apply header.balanced.append
  apply Balanced.plain (by simp [Token.opening?, kind]) (by simp [Token.closing?, kind])
  exact .of_plain fun token among => header.target.plain_tokens among

/-- The brackets behind the word. -/
def brackets : Bracketed .round where
  opener := header.opener
  inner := header.inner
  closer := header.closer
  opens := header.opens
  inside := header.balanced_inner
  closes := header.closes

theorem tokens_brackets :
    header.tokens = header.word :: (header.brackets.tokens ++ [header.block]) := by
  simp [tokens, brackets, Bracketed.tokens, inner]

/-- What follows `as` holds none of some other keywords. -/
theorem no_keyword {word : String} (other : word ≠ "as") :
    ∀ token ∈ header.gives :: header.target.tokens, token.isKeyword [word] = false := by
  intro token among
  rcases List.mem_cons.mp among with rfl | later
  · have kind := header.gives_kind
    have as := header.as
    simp only [Token.isKeyword, kind, beq_self_eq_true, Bool.true_and, List.contains_iff_mem,
      List.mem_singleton] at as
    simp [Token.isKeyword, as, other.symm]
  · exact header.target.no_keyword later _

theorem only_inner (only : OnlyCaptures header.iterated) : OnlyCaptures header.inner :=
  only.append (header.no_keyword (by decide))

theorem only_inFront (only : OnlyCaptures header.iterated) : OnlyCaptures header.inFront := by
  apply only.append
  intro token among
  apply header.no_keyword (by decide)
  rcases List.mem_cons.mp among with rfl | mark
  · exact List.mem_cons_self
  · exact List.mem_cons_of_mem _ (header.target.mem_of_marks mark)

/-! ### Where the parts of a header stand -/

section Places

variable {header} {before after : List Token}
  (written : nesting = .ofTokens (before ++ (header.tokens ++ after)))

include written

theorem getElem?_tokens {i : Nat} (inside : i < header.tokens.length) :
    nesting.tokens[before.length + i]? = header.tokens[i]? :=
  Nesting.getElem?_written written inside

theorem placed_word : nesting.tokens[before.length]? = some header.word := by
  have placed := getElem?_tokens written (i := 0) (by simp [tokens])
  simpa [tokens] using placed

theorem placed_opener : nesting.tokens[before.length + 1]? = some header.opener := by
  have placed := getElem?_tokens written (i := 1) (by simp [tokens])
  simpa [tokens] using placed

theorem placed_first :
    nesting.tokens[before.length + header.front.length]? = some header.target.first := by
  rw [getElem?_tokens written (by simp [tokens_eq]), tokens_eq]
  simp

theorem placed_rest {i : Nat} (inside : i < header.target.rest.length) :
    nesting.tokens[before.length + header.front.length + 1 + i]? = header.target.rest[i]? := by
  have place : before.length + header.front.length + 1 + i =
      before.length + (header.front.length + (i + 1)) := by omega
  rw [place, getElem?_tokens written (by simp [tokens_eq]; omega), tokens_eq,
    List.getElem?_append_right (by omega), Nat.add_sub_cancel_left, List.getElem?_cons_succ,
    List.getElem?_append_left inside]

theorem placed_closer : nesting.tokens[before.length + header.front.length + 1 +
    header.target.rest.length]? = some header.closer := by
  have place : before.length + header.front.length + 1 + header.target.rest.length =
      before.length + (header.front.length + (header.target.rest.length + 1)) := by omega
  rw [place, getElem?_tokens written (by simp [tokens_eq]), tokens_eq,
    List.getElem?_append_right (by omega), Nat.add_sub_cancel_left, List.getElem?_cons_succ]
  simp

theorem placed_block : nesting.tokens[before.length + header.front.length + 1 +
    header.target.rest.length + 1]? = some header.block := by
  have place : before.length + header.front.length + 1 + header.target.rest.length + 1 =
      before.length + (header.front.length + (header.target.rest.length + 1 + 1)) := by omega
  rw [place, getElem?_tokens written (by simp [tokens_eq]), tokens_eq,
    List.getElem?_append_right (by omega), Nat.add_sub_cancel_left, List.getElem?_cons_succ]
  simp

/-- A part of what stands between the brackets is in the frame that they open. -/
theorem enclosing_part {text later : List Token} {token : Token}
    (part : header.inner = text ++ token :: later) (balanced : Balanced text)
    (plain : token.opening? = none ∧ token.closing? = none) :
    nesting.enclosing (before.length + 2 + text.length) = some (before.length + 1) := by
  have split : nesting = .ofTokens (before ++ [header.word] ++ header.opener ::
      (text ++ token :: (later ++ header.closer :: header.block :: after))) := by
    rw [written, tokens_brackets]
    simp [Bracketed.tokens, brackets, part]
  have enclosed := enclosing_inside header.opens balanced plain split
  simpa using enclosed

theorem stretch_part {text later : List Token} (part : header.inner = text ++ later)
    (balanced : Balanced text) (only : OnlyCaptures text) :
    Stretch nesting (some (before.length + 1)) (before.length + 2)
      (before.length + 2 + text.length) := by
  have split : nesting = .ofTokens (before ++ [header.word] ++ header.opener ::
      (text ++ (later ++ header.closer :: header.block :: after))) := by
    rw [written, tokens_brackets]
    simp [Bracketed.tokens, brackets, part]
  have stretch := stretch_inside header.opens balanced only split
  simpa using stretch

theorem written_brackets : nesting = .ofTokens (before ++ [header.word] ++
    (header.brackets.tokens ++ header.block :: after)) := by
  rw [written, tokens_brackets]
  simp

/-- The brackets are a frame, and what stands outside of brackets between them is directly in it. -/
theorem frame_brackets : ∃ frame, nesting.frameAt (before.length + 1) = some frame ∧
    frame.closer = some (before.length + header.front.length + 1 + header.target.rest.length) ∧
    nesting.directTokens frame = outermost header.inner := by
  obtain ⟨frame, found, -, closed, tokens⟩ :=
    header.brackets.frame (before ++ [header.word]) (header.block :: after)
  rw [← written_brackets written] at found tokens
  rw [List.length_append, List.length_singleton] at found closed
  refine ⟨frame, found, ?_, tokens⟩
  have front := header.add_length_front before.length
  have inner := header.length_inner
  simp only [closed, brackets, Option.some.injEq]
  omega

end Places

end LoopHeader

end CursorContext.Symbols
