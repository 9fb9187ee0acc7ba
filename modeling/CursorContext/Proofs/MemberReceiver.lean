import CursorContext.Proofs.CallChain
import CursorContext.Proofs.Name
import CursorContext.Proofs.Symbols.Introduced
import CursorContext.Proofs.Token.Tiling

/-!
Calls on a member. The class of the receiver is read from its last token, and what stands in front of
this token is not looked at. A member that is written like a variable is taken for the variable of
that name, and a member in front of `::` for a class. The first has a class only if the name is
introduced elsewhere, the second nearly always.
-/
namespace CursorContext

open CallLink (chain AllCalls)

namespace Symbols

/-! ### Names that refer to no class -/

/-- A word that refers to no class here: a builtin type, or one beside the class around where there
is none. -/
def RefersToNone (symbols : Symbols) (word : String) : Prop :=
  word ∈ builtinTypes ∨ (word ∈ ["self", "static"] ∧ symbols.currentClass = none) ∨
    (word = "parent" ∧ symbols.currentClass.bind (·.base) = none)

theorem importedName_ne_none {name : String} (kept : Name.trimEnd name ≠ "") (imports : Imports) :
    importedName imports name ≠ none := by
  unfold importedName
  dsimp only
  split
  · simp
  · simp [Name.nonEmpty?, kept]

theorem resolve_eq_none_iff (symbols : Symbols) {name : String} (written : name ≠ "") :
    symbols.resolve name = none ↔ Name.trim name = "" ∨
      (name.toList.head? ≠ some '\\' ∧ symbols.RefersToNone (Text.lower name)) := by
  rw [resolve, classRef, Option.map_eq_none_iff, fullNameOf]
  by_cases slash : name.toList.head? = some '\\'
  · simp [slash, Name.nonEmpty?]
  · have kept := Name.trim_ne_empty written slash
    have imported := importedName_ne_none (Name.trimEnd_ne_empty written slash) symbols.imports
    -- The words are tried one after the other, and none of them is of two kinds.
    generalize Text.lower name = word
    rw [if_neg (by simpa using slash)]
    simp only [kept, slash, ne_eq, not_false_eq_true, true_and, false_or, RefersToNone,
      List.mem_cons, List.not_mem_nil, or_false, Bool.or_eq_true, beq_iff_eq, List.contains_iff_mem]
    split
    next own =>
      have other : word ≠ "parent" ∧ word ∉ builtinTypes := by
        rcases own with rfl | rfl <;> decide
      simp [own, other]
    next notOwn =>
      split
      next parent =>
        subst parent
        simp [show "parent" ∉ builtinTypes by decide]
      next notParent =>
        split
        next builtin => simp [builtin]
        next class_ => simp [notOwn, notParent, class_, imported]

/-! ### Back to the first receiver -/

/-- The operator behind the first receiver of calls in a row, of which `following` leads to the
last. -/
def leading (links : List CallLink) (following : String) : String :=
  (links.head?.map (·.operator.text)).getD following

/-- Calls in a row are passed over, if there are any. -/
theorem receiverType_links (symbols : Symbols) (front : List Token) (links : List CallLink)
    (after : List Token) (following : String)
    (calls : AllCalls (.ofTokens (front ++ (chain links ++ after))) front.length links) :
    symbols.receiverType (.ofTokens (front ++ (chain links ++ after)))
        (front.length + (chain links).length) following =
      symbols.receiverType (.ofTokens (front ++ (chain links ++ after))) front.length
        (leading links following) := by
  -- On the calls from the first: the later ones lead to it, and it leads to what is in front.
  induction links generalizing front with
  | nil => rfl
  | cons link rest ih =>
    have text : front ++ (chain (link :: rest) ++ after) =
        front ++ link.tokens ++ (chain rest ++ after) := by
      simp [chain]
    have length : front.length + (chain (link :: rest)).length =
        (front ++ link.tokens).length + (chain rest).length := by
      simp [chain, Nat.add_assoc]
    obtain ⟨call, later⟩ := calls
    rw [text, ← List.length_append] at later
    rw [length, text, ih (front ++ link.tokens) later]
    rw [text, List.append_assoc] at call
    rw [List.append_assoc, List.length_append]
    exact receiverType_link symbols link front (chain rest ++ after) call _

end Symbols

namespace CallLink

theorem balanced_chain (links : List CallLink) : Token.Balanced (chain links) := by
  induction links with
  | nil => exact .nil
  | cons link rest ih =>
    rw [chain, List.flatMap_cons]
    refine Token.Balanced.append ?_ ih
    apply Token.Balanced.plain (Token.opening?_of_isOperator link.member)
      (Token.closing?_of_isOperator link.member)
    exact .plain (by simp [Token.opening?, link.named]) (by simp [Token.closing?, link.named])
      link.arguments.balanced

end CallLink

/-! ### Calls on a member -/

/-- A call on a member, up to its list: what stands before, the operator that leads to the member, the
member, calls in a row on it, and the operator and the name of the call. -/
structure MemberCall where
  front : List Token
  access : Token
  member : Token
  links : List CallLink
  operator : Token
  name : Token
  accesses : access.isMemberOperator = true
  plain : member.opening? = none ∧ member.closing? = none
  leads : operator.isMemberOperator = true
  named : name.kind = .identifier

namespace MemberCall

variable (call : MemberCall)

/-- Where the member stands. -/
def index : Nat := call.front.length + 1

/-- From the member to the name. -/
def expression : List Token :=
  call.member :: (chain call.links ++ [call.operator, call.name])

def tokens : List Token := call.front ++ call.access :: call.expression

theorem length_tokens : call.tokens.length = call.index + 1 + (chain call.links).length + 2 := by
  simp [tokens, expression, index]
  omega

theorem balanced_expression : Token.Balanced call.expression := by
  apply Token.Balanced.plain call.plain.1 call.plain.2
  apply (CallLink.balanced_chain call.links).append
  apply Token.Balanced.of_plain
  intro token among
  rcases List.mem_cons.mp among with rfl | last
  · exact ⟨Token.opening?_of_isOperator call.leads, Token.closing?_of_isOperator call.leads⟩
  · rw [List.mem_singleton.mp last]
    simp [Token.opening?, Token.closing?, call.named]

section Written

variable {call} {nesting : Nesting} {after : List Token}
  (written : nesting = .ofTokens (call.tokens ++ after))

include written

theorem placed_access : nesting.tokens[call.front.length]? = some call.access := by
  rw [written, Nesting.tokens_ofTokens, List.getElem?_toArray, tokens]
  simp

theorem placed_member : nesting.tokens[call.index]? = some call.member := by
  rw [written, Nesting.tokens_ofTokens, List.getElem?_toArray, tokens]
  simp [index, expression]

theorem placed_operator :
    nesting.tokens[call.index + 1 + (chain call.links).length]? = some call.operator := by
  have place : call.index + 1 + (chain call.links).length =
      call.front.length + ((chain call.links).length + 2) := by
    unfold index
    omega
  rw [written, Nesting.tokens_ofTokens, List.getElem?_toArray, tokens, place]
  simp [expression]

theorem placed_name :
    nesting.tokens[call.index + 1 + (chain call.links).length + 1]? = some call.name := by
  have place : call.index + 1 + (chain call.links).length + 1 =
      call.front.length + ((chain call.links).length + 1 + 2) := by
    unfold index
    omega
  rw [written, Nesting.tokens_ofTokens, List.getElem?_toArray, tokens, place]
  simp [expression]

/-- The class of the receiver is read from the member. -/
theorem called (calls : AllCalls nesting (call.index + 1) call.links) (symbols : Symbols) :
    calledFunction? nesting symbols (call.index + 1 + (chain call.links).length + 1) =
      some (Name.trimStart call.name.text,
        symbols.baseType nesting call.index call.member
          (Symbols.leading call.links call.operator.text)) := by
  have isName : call.name.isName = true := by simp [Token.isName, call.named]
  have base : symbols.receiverType nesting (call.index + 1 + (chain call.links).length)
      call.operator.text = symbols.baseType nesting call.index call.member
        (Symbols.leading call.links call.operator.text) := by
    rw [← Symbols.receiverType_base symbols (placed_member written) call.plain.2]
    -- Here the operator in front of the member is one token of many, and is never looked at.
    have split : call.tokens ++ after = call.front ++ [call.access, call.member] ++
        (chain call.links ++ call.operator :: call.name :: after) := by
      simp [tokens, expression]
    have length : (call.front ++ [call.access, call.member]).length = call.index + 1 := by
      simp [index]
    rw [split] at written
    rw [written, ← length] at calls ⊢
    exact Symbols.receiverType_links symbols _ call.links _ _ calls
  rw [calledFunction?, placed_name written]
  simp [isName, placed_operator written, call.leads, base]

/-- The member stands directly in no frame that is finished: the frame of the list is open. -/
theorem closer_around {frame outer : Frame}
    (list : nesting.frameAt call.tokens.length = some frame) (unfinished : frame.closer = none)
    {f : Nat} (enclosed : nesting.enclosing call.index = some f)
    (found : nesting.frameAt f = some outer) : outer.closer = none := by
  have linked : nesting.Linked := written ▸ Nesting.linked_ofTokens _
  have formed : nesting.Formed := written ▸ Nesting.formed_ofTokens _
  have ended : nesting.Ended := written ▸ Nesting.ended_ofTokens _
  by_contra finished
  obtain ⟨close, closed⟩ := Option.ne_none_iff_exists'.mp finished
  have closes : nesting.closeOf f = some close := by
    rw [Nesting.closeOf, found, Option.bind_some, closed]
  obtain ⟨same, found', surrounds⟩ :=
    linked.surrounds_of_enclosing (Array.getElem?_eq_some_iff.mp (placed_member written)).1 enclosed
  cases found.symm.trans found'
  obtain ⟨before, behind⟩ := (outer.surrounds_iff call.index).mp surrounds
  rw [linked.opener found] at before
  have later := behind close closed
  -- It does not end between the member and the list, and not with the bracket of the list.
  have split : call.tokens ++ after =
      call.front ++ [call.access] ++ (call.expression ++ after) := by
    simp [tokens]
  have whole := Nesting.sealed_of_balanced (call.front ++ [call.access]) call.balanced_expression
    after
  rw [← split, ← written] at whole
  have start : (call.front ++ [call.access]).length = call.index := by simp [index]
  have stop : call.index + call.expression.length = call.tokens.length := by
    simp [tokens, index]
    omega
  rw [start, stop] at whole
  have behindList : call.tokens.length ≤ close := by
    by_contra inside
    have opens := whole.opens f close closes (by omega) (by omega)
    omega
  have other : close ≠ call.tokens.length := by
    rintro rfl
    obtain ⟨token, bracket, placed, opens, -⟩ := formed.frame list
    obtain ⟨token', bracket', placed', closes'⟩ := ended f outer _ found closed
    cases placed.symm.trans placed'
    rw [Token.closing?_of_opening? opens] at closes'
    cases closes'
  obtain ⟨earlier, -, closes'⟩ := linked.closeOf_inside list (by omega) (by omega) closes
  rw [Nesting.closeOf, list, Option.bind_some, unfinished] at closes'
  cases closes'

/-- The member itself introduces no variable, unless it is in the list of a handler. -/
theorem not_binder {frame : Frame} (list : nesting.frameAt call.tokens.length = some frame)
    (unfinished : frame.closer = none)
    (outside : Symbols.inHandlerList nesting call.index = false) :
    ¬Symbols.Binder nesting call.index := by
  have linked : nesting.Linked := written ▸ Nesting.linked_ofTokens _
  intro binder
  cases binder with
  | apart apart =>
    have previous : nesting.tokenBefore call.index 1 = some call.access := by
      rw [Nesting.tokenBefore, if_pos (by simp [index]), index, Nat.add_sub_cancel,
        placed_access written]
    simp [previous, call.accesses] at apart
  | parameter listed =>
    obtain ⟨_, _, parameters, -, -, taken, closed, direct⟩ := listed
    obtain ⟨found, -⟩ := Option.filter_eq_some_iff.mp taken
    rw [← linked.opener found] at found
    have around := closer_around written list unfinished direct found
    simp [around] at closed
  | caught listed =>
    rw [outside] at listed
    cases listed

end Written

/-- There is a context, and its receiver is read from the member. -/
theorem context_of_called {buffer : String} {after : List Token} {frame : Frame}
    (scanned : Token.logical (Token.scan buffer) = call.tokens ++ after)
    (outside : Token.endsInComment (Token.scan buffer) = false)
    (decides : (Nesting.ofTokens (call.tokens ++ after)).Decides frame)
    (isCall : frame.role = .call) (opener : frame.opener = call.tokens.length)
    (calls : AllCalls (.ofTokens (call.tokens ++ after)) (call.index + 1) call.links) :
    ∃ context, Context.ofBuffer buffer = some context ∧
      context.function = Name.trimStart call.name.text ∧
      context.receiver =
        (Symbols.ofNesting (.ofTokens (call.tokens ++ after))).baseType
          (.ofTokens (call.tokens ++ after)) call.index call.member
          (Symbols.leading call.links call.operator.text) := by
  have linked := Nesting.linked_ofTokens (call.tokens ++ after)
  have found := (Nesting.cursorCall_iff linked _ frame).mpr ⟨outside, decides, isCall⟩
  have callee : frame.callee = some (call.index + 1 + (chain call.links).length + 1) := by
    simp [Frame.callee, Frame.isCall, isCall, opener, length_tokens]
  rw [Context.ofBuffer, scanned]
  exact context?_of_called found callee (called rfl calls _)

end MemberCall

/-- A member is taken for what its token would be by itself. If it is written like a variable, the
call is on the object itself for `$this`, and otherwise on what the variable of that name holds; there
is no such class if no other place introduces the variable. If it is written like a class in front of
`::`, the call is on the class of that name, with the imports in force, and there is one unless the
word is none for a class. -/
theorem member_taken_for_name (buffer : String) (call : MemberCall) (after : List Token)
    (frame : Frame) (scanned : Token.logical (Token.scan buffer) = call.tokens ++ after)
    (outside : Token.endsInComment (Token.scan buffer) = false)
    (decides : (Nesting.ofTokens (call.tokens ++ after)).Decides frame)
    (isCall : frame.role = .call) (opener : frame.opener = call.tokens.length)
    (calls : AllCalls (.ofTokens (call.tokens ++ after)) (call.index + 1) call.links) :
    let nesting := Nesting.ofTokens (call.tokens ++ after)
    let symbols := Symbols.ofNesting nesting
    ∃ context, Context.ofBuffer buffer = some context ∧
      context.function = Name.trimStart call.name.text ∧
      (call.member.kind = .variable → call.member.text = "$this" →
        context.receiver = symbols.currentClass.map fun definition =>
          { written := definition.name, fullName := definition.fullName }) ∧
      (call.member.kind = .variable → call.member.text ≠ "$this" →
        context.receiver = symbols.typeOf call.member.text ∧
        (Symbols.inHandlerList nesting call.index = false →
          (∀ i token, i ≠ call.index → nesting.tokens[i]? = some token → token.kind = .variable →
            token.text = call.member.text → ¬Symbols.Binder nesting i) →
          context.receiver = none)) ∧
      (call.member.kind = .identifier →
        Symbols.leading call.links call.operator.text = "::" →
        context.receiver = symbols.resolve call.member.text ∧
        (context.receiver = none ↔ Name.trim call.member.text = "" ∨
          (call.member.text.toList.head? ≠ some '\\' ∧
            symbols.RefersToNone (Text.lower call.member.text)))) := by
  intro nesting symbols
  have linked : nesting.Linked := Nesting.linked_ofTokens _
  obtain ⟨context, found, function, receiver⟩ :=
    call.context_of_called scanned outside decides isCall opener calls
  have list : nesting.frameAt call.tokens.length = some frame :=
    opener ▸ (linked.mem_frames frame).mp decides.1
  refine ⟨context, found, function, ?_, ?_, ?_⟩
  · intro kind this
    simp [receiver, Symbols.baseType, kind, this, symbols, nesting]
  · intro kind other
    have typed : context.receiver = symbols.typeOf call.member.text := by
      simp [receiver, Symbols.baseType, kind, other, symbols, nesting]
    refine ⟨typed, ?_⟩
    intro unlisted elsewhere
    rw [typed, Option.eq_none_iff_forall_ne_some]
    intro type has
    -- What has a type is introduced, but neither by the member nor anywhere else.
    obtain ⟨i, token, placed, variable_, same, binder⟩ := Symbols.introduced_of_typeOf _ has
    by_cases here : i = call.index
    · subst here
      exact MemberCall.not_binder rfl list decides.2.1 unlisted binder
    · exact elsewhere i token here placed variable_ same binder
  · intro kind static
    have resolved : context.receiver = symbols.resolve call.member.text := by
      simp [receiver, Symbols.baseType, kind, static, symbols, nesting]
    have among : call.member ∈ Token.logical (Token.scan buffer) := by
      simp [scanned, MemberCall.tokens, MemberCall.expression]
    have written := (Token.tiles_scan buffer).text_ne_empty call.member (List.mem_filter.mp among).1
    refine ⟨resolved, ?_⟩
    rw [resolved, Symbols.resolve_eq_none_iff symbols written]

/-- A static member of a name that nothing else has, a member of the name of a variable with a call
on it, and a constant of the name of an imported class. -/
theorem members_taken_for_names :
    (∃ context, Context.ofBuffer "C::$p->m(" = some context ∧ context.receiver = none) ∧
    (∃ context, Context.ofBuffer "$p = new Foo; $o->$p->f()->m(" = some context ∧
      context.receiver = some { written := "Foo", fullName := "Foo" }) ∧
    ∃ context, Context.ofBuffer "use App\\P; $o->P::m(" = some context ∧
      context.receiver = some { written := "P", fullName := "App\\P" } := by
  let token (kind : Kind) (text : String) (start : Nat) : Token := { kind, text, start }
  let frame (opener offset : Nat) : Frame := { mark := '(', opener, offset, role := .call, outer := [] }
  let static : MemberCall :=
    { front := [token .identifier "C" 0], access := token .operator "::" 1,
      member := token .variable "$p" 3, links := [], operator := token .operator "->" 5,
      name := token .identifier "m" 7, accesses := by decide, plain := by decide,
      leads := by decide, named := rfl }
  let link : CallLink :=
    { operator := token .operator "->" 20, name := token .identifier "f" 22
      arguments :=
        { opener := token .opener "(" 23, inner := [], closer := token .closer ")" 24,
          opens := by decide, inside := .nil, closes := by decide }
      member := by decide, named := rfl }
  let chained : MemberCall :=
    { front := [token .variable "$p" 0, token .operator "=" 3, token .keyword "new" 5,
        token .identifier "Foo" 9, token .operator ";" 12, token .variable "$o" 14],
      access := token .operator "->" 16, member := token .variable "$p" 18, links := [link],
      operator := token .operator "->" 25, name := token .identifier "m" 27,
      accesses := by decide, plain := by decide, leads := by decide, named := rfl }
  let constant : MemberCall :=
    { front := [token .keyword "use" 0, token .identifier "App\\P" 4, token .operator ";" 9,
        token .variable "$o" 11],
      access := token .operator "->" 13, member := token .identifier "P" 15, links := [],
      operator := token .operator "::" 16, name := token .identifier "m" 18,
      accesses := by decide, plain := by decide, leads := by decide, named := rfl }
  refine ⟨?_, ?_, ?_⟩
  · obtain ⟨context, found, -, -, plain, -⟩ := member_taken_for_name "C::$p->m(" static
      [token .opener "(" 8] (frame 5 8) (by decide +kernel) (by decide +kernel)
      (by unfold Nesting.Decides; decide +kernel) rfl rfl trivial
    refine ⟨context, found, (plain rfl (by decide)).2 (by decide +kernel) ?_⟩
    have sole : ∀ i < 6, i ≠ 2 → (static.tokens ++ [token .opener "(" 8])[i]?.any
        (·.kind == .variable) = false := by
      decide
    intro i other apart placed kind
    rw [Nesting.tokens_ofTokens, List.getElem?_toArray] at placed
    obtain ⟨inside, -⟩ := List.getElem?_eq_some_iff.mp placed
    have plainly := sole i inside apart
    simp [placed, kind] at plainly
  · obtain ⟨context, found, -, -, plain, -⟩ := member_taken_for_name
      "$p = new Foo; $o->$p->f()->m(" chained [token .opener "(" 28] (frame 14 28)
      (by decide +kernel) (by decide +kernel) (by unfold Nesting.Decides; decide +kernel) rfl rfl
      ⟨by decide +kernel, trivial⟩
    exact ⟨context, found, (plain rfl (by decide)).1.trans (by decide +kernel)⟩
  · obtain ⟨context, found, -, -, -, named⟩ := member_taken_for_name "use App\\P; $o->P::m("
      constant [token .opener "(" 19] (frame 8 19) (by decide +kernel) (by decide +kernel)
      (by unfold Nesting.Decides; decide +kernel) rfl rfl trivial
    exact ⟨context, found, (named rfl rfl).1.trans (by decide +kernel)⟩

/-- The static member of another class is taken for a variable. -/
theorem static_member_taken_for_variable :
    (Context.ofBuffer "$p = new Foo(); C::$p->m(").map (·.receiver) =
      some (some { written := "Foo", fullName := "Foo" }) := by
  decide +kernel

end CursorContext
