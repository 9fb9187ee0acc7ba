import CursorContext.Proofs.CursorCall
import CursorContext.Proofs.Symbols.HeaderList

/-!
Parameter lists. Where a function has its list is read forward from the keyword, past the mark of a
result by reference and the name. What a round bracket is for is read backward, from the two tokens
before it. For most headers both say that the bracket begins a parameter list. If the mark stands
between keyword and name, the keyword is out of sight and the list is taken for a call.
-/
namespace CursorContext

namespace Symbols

variable {nesting : Nesting} {index : Nat} {word : Token}

/-! ### What the list is for -/

/-- A plain word that gives a bracket behind it no role of its own. -/
def IsCallable (name : Token) : Prop :=
  name.kind = .identifier ∧ Text.lower name.text ∉ "array" :: Role.controlWords

theorem role_of_callable {name : Token} (callable : IsCallable name) (earlier : Option Token) :
    Role.ofRound (some name) earlier =
      if earlier.any (·.isKeyword ["function", "fn"]) then .params else .call := by
  obtain ⟨kind, free⟩ := callable
  rw [List.mem_cons, not_or] at free
  simp [Role.ofRound, kind, Role.afterWord, free.1, free.2]

/-- Behind any other name the role is the same whatever stands before the name. -/
theorem role_of_not_callable {name : Token} (named : name.isName = true)
    (other : ¬ IsCallable name) (earlier : Option Token) :
    Role.ofRound (some name) earlier ≠ .call ∧
      (Role.ofRound (some name) earlier = .params ↔
        name.isKeyword ["function", "fn", "use"] = true) := by
  simp only [Token.isName, Bool.or_eq_true, beq_iff_eq] at named
  rcases named with kind | kind
  · have word : Text.lower name.text = "array" ∨ Text.lower name.text ∈ Role.controlWords := by
      simpa [IsCallable, kind, or_iff_not_imp_left] using other
    have noKeyword : name.isKeyword ["function", "fn", "use"] = false := by
      simp [Token.isKeyword, kind]
    rcases word with array | control
    · simp [Role.ofRound, kind, Role.afterWord, array, noKeyword]
    · by_cases array : Text.lower name.text = "array"
      · simp [Role.ofRound, kind, Role.afterWord, array, noKeyword]
      · simp [Role.ofRound, kind, Role.afterWord, array, control, noKeyword]
  · cases keyword : name.isKeyword ["function", "fn", "use"] <;>
      simp [Role.ofRound, kind, keyword]

theorem role_of_list (formed : nesting.Formed) {frame : Frame}
    (taken : parameterList? nesting index word = some frame) :
    frame.role = .ofRound (nesting.tokenBefore (listIndex nesting index word) 1)
      (nesting.tokenBefore (listIndex nesting index word) 2) := by
  obtain ⟨found, round⟩ := Option.filter_eq_some_iff.mp taken
  obtain ⟨token, bracket, -, -, mark, -, role⟩ := formed.frame found
  rw [mark, beq_iff_eq] at round
  cases bracket with
  | round => exact role
  | square => cases round
  | curly => cases round

theorem role_ne_block (formed : nesting.Formed) {frame : Frame}
    (taken : parameterList? nesting index word = some frame) : frame.role ≠ .block := by
  rw [role_of_list formed taken]
  cases nesting.tokenBefore (listIndex nesting index word) 1 with
  | none => simp [Role.ofRound]
  | some token => grind [Role.ofRound, Role.afterWord]

/-- The token behind the keyword, or the keyword itself, stands before the name. -/
theorem tokenBefore_name (placed : nesting.tokens[index]? = some word) :
    nesting.tokenBefore (nameIndex nesting index) 1 =
      if givesReference nesting index then nesting.tokens[index + 1]? else some word := by
  unfold nameIndex
  split
  · simp [Nesting.tokenBefore]
  · simp [Nesting.tokenBefore, placed]

theorem isKeyword_before_name (placed : nesting.tokens[index]? = some word)
    (begins : word.isKeyword ["function", "fn"] = true) :
    (nesting.tokenBefore (nameIndex nesting index) 1).any (·.isKeyword ["function", "fn"]) =
      !givesReference nesting index := by
  rw [tokenBefore_name placed]
  cases refers : givesReference nesting index with
  | false => simpa using begins
  | true =>
    obtain ⟨mark, there, isMark⟩ := (Option.any_eq_true _ _).mp refers
    have kind := (Bool.and_eq_true_iff.mp isMark).1
    simp [there, Token.isKeyword, eq_of_beq kind]

/-- Without a name the list follows the keyword, or the mark. -/
theorem role_of_unnamed (formed : nesting.Formed) (placed : nesting.tokens[index]? = some word)
    (begins : word.isKeyword ["function", "fn"] = true) {frame : Frame}
    (taken : parameterList? nesting index word = some frame)
    (unnamed : functionName? nesting index word = none) :
    frame.role = if givesReference nesting index then .group else .params := by
  have list : listIndex nesting index word = nameIndex nesting index := by
    simp [listIndex, unnamed]
  rw [role_of_list formed taken, list, tokenBefore_name placed]
  cases refers : givesReference nesting index with
  | false =>
    have kind := (Bool.and_eq_true_iff.mp begins).1
    have three : word.isKeyword ["function", "fn", "use"] = true := by
      rw [Token.isKeyword, Bool.and_eq_true_iff, List.contains_iff_mem] at begins ⊢
      exact ⟨begins.1, List.mem_append_left ["use"] begins.2⟩
    simp [Role.ofRound, eq_of_beq kind, three]
  | true =>
    -- Behind the mark the bracket is that of an expression.
    obtain ⟨mark, there, isMark⟩ := (Option.any_eq_true _ _).mp refers
    have kind := (Bool.and_eq_true_iff.mp isMark).1
    simp [there, Role.ofRound, eq_of_beq kind]

theorem token_of_functionName? {name : Token}
    (named : functionName? nesting index word = some name) :
    nesting.tokens[nameIndex nesting index]? = some name ∧ name.isName = true := by
  unfold functionName? at named
  split at named
  · cases named
  · exact Option.filter_eq_some_iff.mp named

/-- The list follows the name, and what stands before the name stands before that. -/
theorem role_of_named (formed : nesting.Formed) {frame : Frame} {name : Token}
    (taken : parameterList? nesting index word = some frame)
    (named : functionName? nesting index word = some name) :
    name.isName = true ∧ frame.role =
      .ofRound (some name) (nesting.tokenBefore (nameIndex nesting index) 1) := by
  have list : listIndex nesting index word = nameIndex nesting index + 1 := by
    simp [listIndex, named]
  obtain ⟨there, isName⟩ := token_of_functionName? named
  have positive := lt_nameIndex nesting index
  refine ⟨isName, ?_⟩
  rw [role_of_list formed taken, list]
  simp [Nesting.tokenBefore, there, show 1 ≤ nameIndex nesting index by omega]

theorem role_eq_params_iff (formed : nesting.Formed) (placed : nesting.tokens[index]? = some word)
    (begins : word.isKeyword ["function", "fn"] = true) {frame : Frame}
    (taken : parameterList? nesting index word = some frame) :
    frame.role = .params ↔
      (∃ name ∈ functionName? nesting index word,
        name.isKeyword ["function", "fn", "use"] = true) ∨
      (givesReference nesting index = false ∧
        ∀ name ∈ functionName? nesting index word, IsCallable name) := by
  cases named : functionName? nesting index word with
  | none =>
    rw [role_of_unnamed formed placed begins taken named]
    cases givesReference nesting index <;> simp
  | some name =>
    obtain ⟨isName, role⟩ := role_of_named formed taken named
    -- Behind a plain word the keyword decides, and the mark hides it. Other names decide alone.
    by_cases callable : IsCallable name
    · have noKeyword : name.isKeyword ["function", "fn", "use"] = false := by
        simp [Token.isKeyword, callable.1]
      rw [role, role_of_callable callable, isKeyword_before_name placed begins]
      cases givesReference nesting index <;> simp [noKeyword, callable]
    · rw [role, (role_of_not_callable isName callable _).2]
      simp [callable]

/-- A list is taken for a call if the function gives its result by reference, unless the name alone
says that nothing is called. -/
theorem role_eq_call_iff (formed : nesting.Formed) (placed : nesting.tokens[index]? = some word)
    (begins : word.isKeyword ["function", "fn"] = true) {frame : Frame}
    (taken : parameterList? nesting index word = some frame) :
    frame.role = .call ↔
      givesReference nesting index = true ∧
        ∃ name ∈ functionName? nesting index word, IsCallable name := by
  cases named : functionName? nesting index word with
  | none =>
    rw [role_of_unnamed formed placed begins taken named]
    cases givesReference nesting index <;> simp
  | some name =>
    obtain ⟨isName, role⟩ := role_of_named formed taken named
    by_cases callable : IsCallable name
    · rw [role, role_of_callable callable, isKeyword_before_name placed begins]
      cases givesReference nesting index <;> simp [callable]
    · have noCall := (role_of_not_callable isName callable
        (nesting.tokenBefore (nameIndex nesting index) 1)).1
      rw [role]
      simp [callable, noCall]

end Symbols

/-! ### The cursor in a list -/

namespace Nesting

variable {nesting : Nesting} {frame : Frame}

/-- A call, block or parameter list that is the innermost frame decides. -/
theorem decides_of_innermost (linked : Linked nesting) (innermost : nesting.stack.head? = some frame)
    (role : frame.role ∈ [Role.call, .block, .params]) : nesting.Decides frame := by
  rw [← find?_isDecisive linked]
  obtain ⟨rest, stack⟩ := List.head?_eq_some_iff.mp innermost
  rw [stack, List.find?_cons_of_pos ((isDecisive_iff frame).mpr role)]

/-- Otherwise what decides was opened before it. -/
theorem Decides.opened_before {outer : Frame} (decides : nesting.Decides outer)
    (linked : Linked nesting) (innermost : nesting.stack.head? = some frame)
    (other : frame.role ∉ [Role.call, .block, .params]) : outer.opener < frame.opener := by
  obtain ⟨rest, stack⟩ := List.head?_eq_some_iff.mp innermost
  have held : outer ∈ nesting.stack :=
    linked.mem_stack.mpr ⟨(linked.mem_frames outer).mp decides.1, decides.2.1⟩
  have descending := linked.stacked.descending
  rw [stack, List.mem_cons] at held
  rw [stack, List.pairwise_cons] at descending
  rcases held with rfl | under
  · exact absurd decides.2.2.1 other
  · exact descending.1 outer under

end Nesting

theorem context?_eq_none {nesting : Nesting} (linked : nesting.Linked) {frame : Frame}
    (innermost : nesting.stack.head? = some frame) (role : frame.role = .params)
    (inComment : Bool) : nesting.context? inComment = none := by
  have found := (Nesting.find?_isDecisive linked frame).mpr
    (Nesting.decides_of_innermost linked innermost (by simp [role]))
  simp [Nesting.context?, Nesting.cursorCall, found, Frame.isCall, role]

/-- What follows the mark of a reference is called as a function of its own. -/
theorem calledFunction?_behind_reference {nesting : Nesting} {head : Nat} {name mark : Token}
    (placed : nesting.tokens[head + 1]? = some name) (named : name.isName = true)
    (before : nesting.tokens[head]? = some mark) (refers : mark.isOperator ["&"] = true)
    (symbols : Symbols) :
    calledFunction? nesting symbols (head + 1) = some (Name.trimStart name.text, none) := by
  simp only [Token.isOperator, Bool.and_eq_true, beq_iff_eq, List.contains_cons,
    List.contains_nil, Bool.or_false] at refers
  have noMember : mark.isMemberOperator = false := by
    simp [Token.isMemberOperator, Token.isOperator, refers, Token.memberOperators]
  have noCreation : mark.isKeyword ["new"] = false := by simp [Token.isKeyword, refers]
  simp [calledFunction?, placed, named, before, noMember, noCreation]

/-- Where the list of a function by reference counts as a call, the declared name is called. -/
theorem context?_of_reference {nesting : Nesting} (linked : nesting.Linked) {index : Nat}
    {word name : Token} {frame : Frame}
    (taken : Symbols.parameterList? nesting index word = some frame)
    (innermost : nesting.stack.head? = some frame) (role : frame.role = .call)
    (refers : Symbols.givesReference nesting index = true)
    (named : Symbols.functionName? nesting index word = some name) :
    ∃ context, nesting.context? false = some context ∧
      context.function = Name.trimStart name.text ∧ context.receiver = none := by
  have decides := Nesting.decides_of_innermost linked innermost (by simp [role])
  have found := (Nesting.cursorCall_iff linked false frame).mpr ⟨rfl, decides, role⟩
  obtain ⟨there, isName⟩ := Symbols.token_of_functionName? named
  obtain ⟨mark, before, isMark⟩ := (Option.any_eq_true _ _).mp refers
  have second : Symbols.nameIndex nesting index = index + 1 + 1 := by
    simp [Symbols.nameIndex, refers]
  rw [second] at there
  have opener : frame.opener = index + 1 + 1 + 1 := by
    rw [← second, linked.opener (Option.filter_eq_some_iff.mp taken).1]
    simp [Symbols.listIndex, named]
  have callee : frame.callee = some (index + 1 + 1) := by
    simp [Frame.callee, Frame.isCall, role, opener]
  exact context?_of_called found callee
    (calledFunction?_behind_reference there isName before isMark _)

/-- A round bracket that is read as the parameter list of a function counts as one, and with the
cursor in it there is no context, with these exceptions. A function by reference whose name is a
plain word is taken for a call of itself. Without a name, or with a name that is a reserved word or
one of a control structure, the bracket may count as a group or an array, and then the frames around
it decide. -/
theorem parameter_list_counts_as_call_iff (tokens : List Token) (index : Nat) (word : Token)
    (frame : Frame) (placed : tokens[index]? = some word)
    (begins : word.isKeyword ["function", "fn"] = true)
    (taken : Symbols.parameterList? (.ofTokens tokens) index word = some frame) :
    let nesting := Nesting.ofTokens tokens
    let name := Symbols.functionName? nesting index word
    let refers := Symbols.givesReference nesting index
    (frame.role = .params ↔
      (∃ token ∈ name, token.isKeyword ["function", "fn", "use"] = true) ∨
      (refers = false ∧ ∀ token ∈ name, Symbols.IsCallable token)) ∧
    (frame.role = .call ↔ refers = true ∧ ∃ token ∈ name, Symbols.IsCallable token) ∧
    ∀ buffer, Token.logical (Token.scan buffer) = tokens → nesting.stack.head? = some frame →
      (frame.role = .params → Context.ofBuffer buffer = none) ∧
      (frame.role = .call → Token.endsInComment (Token.scan buffer) = false →
        ∃ context token, Context.ofBuffer buffer = some context ∧ name = some token ∧
          context.function = Name.trimStart token.text ∧ context.receiver = none) ∧
      (frame.role ≠ .params → frame.role ≠ .call → ∀ context,
        Context.ofBuffer buffer = some context → ∃ outer head callee,
          nesting.Decides outer ∧ outer.role = .call ∧ outer.opener < frame.opener ∧
          outer.opener = head + 1 ∧ tokens[head]? = some callee ∧
          context.function =
            if isCreation tokens head then "__construct" else Name.trimStart callee.text) := by
  intro nesting name refers
  have linked : nesting.Linked := Nesting.linked_ofTokens tokens
  have formed : nesting.Formed := Nesting.formed_ofTokens tokens
  have placed' : nesting.tokens[index]? = some word := by
    simpa [nesting, Nesting.tokens_ofTokens] using placed
  have call := Symbols.role_eq_call_iff formed placed' begins taken
  refine ⟨Symbols.role_eq_params_iff formed placed' begins taken, call, ?_⟩
  rintro buffer rfl innermost
  refine ⟨?_, ?_, ?_⟩
  · intro role
    exact context?_eq_none linked innermost role _
  · intro role outside
    obtain ⟨isReference, token, named, -⟩ := call.mp role
    obtain ⟨context, found, function, receiver⟩ :=
      context?_of_reference linked taken innermost role isReference named
    rw [← outside] at found
    exact ⟨context, token, found, named, function, receiver⟩
  · intro noParams noCall context found
    -- The bracket counts as a group or an array, and the cursor is in a frame further out.
    have function : (Context.ofBuffer buffer).map (·.function) = some context.function := by
      simp [found]
    obtain ⟨-, outer, head, callee, decides, isCall, opener, there, -, same⟩ :=
      (function_ofBuffer_iff buffer _).mp function
    have noBlock := Symbols.role_ne_block formed taken
    exact ⟨outer, head, callee, decides, isCall,
      decides.opened_before linked innermost (by simp [noParams, noCall, noBlock]), opener, there,
      same⟩

/-- A function, a function by reference, and one with a word for a name that makes its bracket that of
an array: in the last the call around it decides. -/
theorem lists_of_three_functions :
    let nesting (buffer : String) := Nesting.ofTokens (Token.logical (Token.scan buffer))
    let word (start : Nat) : Token := { kind := .keyword, text := "function", start }
    let frame (opener offset : Nat) (role : Role) (outer : List Nat) : Frame :=
      { mark := '(', opener, offset, role, outer }
    let plain := frame 2 12 .params []
    let referring := frame 3 13 .call []
    let array := frame 4 16 .array [1]
    (Symbols.parameterList? (nesting "function foo(") 0 (word 0) = some plain ∧
      Context.ofBuffer "function foo(" = none) ∧
    (Symbols.parameterList? (nesting "function &foo(") 0 (word 0) = some referring ∧
      ∃ context, Context.ofBuffer "function &foo(" = some context ∧ context.function = "foo") ∧
    (Symbols.parameterList? (nesting "f(function array(") 2 (word 2) = some array ∧
      ∃ context, Context.ofBuffer "f(function array(" = some context ∧
        ∃ outer, (nesting "f(function array(").Decides outer ∧ outer.opener < 4) := by
  intro nesting word frame plain referring array
  have taken : Symbols.parameterList? (nesting "function foo(") 0 (word 0) = some plain := by
    decide +kernel
  have taken' : Symbols.parameterList? (nesting "function &foo(") 0 (word 0) =
      some referring := by
    decide +kernel
  have taken'' : Symbols.parameterList? (nesting "f(function array(") 2 (word 2) =
      some array := by
    decide +kernel
  refine ⟨⟨taken, ?_⟩, ⟨taken', ?_⟩, ⟨taken'', ?_⟩⟩
  · have read := parameter_list_counts_as_call_iff _ 0 (word 0) plain (by decide +kernel) (by decide)
      taken
    exact (read.2.2 "function foo(" rfl (by decide +kernel)).1 rfl
  · have read := parameter_list_counts_as_call_iff _ 0 (word 0) referring (by decide +kernel)
      (by decide) taken'
    obtain ⟨context, token, found, named, function, -⟩ :=
      (read.2.2 "function &foo(" rfl (by decide +kernel)).2.1 rfl (by decide +kernel)
    have same : Symbols.functionName? (nesting "function &foo(") 0 (word 0) =
        some { kind := .identifier, text := "foo", start := 10 } := by
      decide +kernel
    cases named.symm.trans same
    exact ⟨context, found, function.trans (by decide)⟩
  · have read := parameter_list_counts_as_call_iff _ 2 (word 2) array (by decide +kernel)
      (by decide) taken''
    obtain ⟨context, found⟩ := Option.isSome_iff_exists.mp
      (show (Context.ofBuffer "f(function array(").isSome = true by decide +kernel)
    obtain ⟨outer, -, -, decides, -, before, -⟩ :=
      (read.2.2 "f(function array(" rfl (by decide +kernel)).2.2 (by decide) (by decide) context
        found
    exact ⟨context, found, outer, decides, before⟩

/-- The list of a function by reference is taken for a call of the function. -/
theorem reference_function_called :
    (Context.ofBuffer "function &foo(").map (·.function) = some "foo" := by
  decide +kernel

end CursorContext
