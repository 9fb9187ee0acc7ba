import CursorContext.Proofs.Symbols.ScopeStep

/-!
Function headers as they are written, and what reading one leads to. Where a header is complete and
a body or an arrow follows it, the function is entered with a scope that holds its parameters and
what it captures.
-/
namespace CursorContext.Symbols

open Token

/-! ### The variables a function begins with -/

/-- What is inserted last is found. -/
theorem getElem?_foldl_insert {α : Type} (key : α → String) (type : α → Option ClassRef)
    (items : List α) (bindings : Bindings) (name : String) :
    (items.foldl (fun bindings item => bindings.insert (key item) (type item)) bindings)[name]? =
      ((items.reverse.find? (key · == name)).map type).or bindings[name]? := by
  induction items generalizing bindings with
  | nil => rfl
  | cons item rest ih =>
    rw [List.foldl_cons, ih, Std.TreeMap.getElem?_insert, List.reverse_cons, List.find?_append]
    by_cases same : key item = name
    · cases rest.reverse.find? (key · == name) <;> simp [same]
    · cases rest.reverse.find? (key · == name) <;> simp [same]

theorem getElem?_initialBindings (symbols : Symbols) (header : FunctionHeader) (name : String) :
    (symbols.initialBindings header)[name]? =
      if name ∈ header.captured then some (symbols.typeOf name)
      else (header.parameters.reverse.find? (·.name == name)).map (·.type) := by
  have own := getElem?_foldl_insert Parameter.name Parameter.type header.parameters {} name
  have all := getElem?_foldl_insert id symbols.typeOf header.captured
    (header.parameters.foldl (fun bindings parameter =>
      bindings.insert parameter.name parameter.type) {}) name
  refine all.trans ?_
  rw [own]
  cases found : header.captured.reverse.find? (id · == name) with
  | some other =>
    have same : other = name := by simpa using List.find?_some found
    have member : other ∈ header.captured := by simpa using List.mem_of_find?_eq_some found
    rw [same] at member
    simp [member, same]
  | none =>
    have absent : name ∉ header.captured := by
      intro member
      have differs := List.find?_eq_none.mp found name (List.mem_reverse.mpr member)
      simp at differs
    simp [absent]

/-! ### Headers -/

/-- A complete function header, up to its return type. -/
structure WrittenHeader where
  keyword : Token
  /-- The sign of a function that returns a reference. -/
  reference : Option Token
  name : Option Token
  list : Bracketed .round
  /-- The word and the list of a closure that captures variables. -/
  captures : Option (Token × Bracketed .round)
  types : List Token
  begins : keyword.isKeyword ["function", "fn"] = true
  refers : ∀ sign ∈ reference, sign.isOperator ["&"] = true
  /-- Arrow functions have no name. -/
  named : ∀ word ∈ name, word.isName = true ∧ keyword.isKeyword ["fn"] = false
  uses : ∀ captured ∈ captures, captured.1.isKeyword ["use"] = true
  typed : ∀ token ∈ types, isReturnType token = true

namespace WrittenHeader

variable (header : WrittenHeader)

/-- Up to the list of parameters. -/
def front : List Token := header.keyword :: (header.reference.toList ++ header.name.toList)

def captureTokens : List Token :=
  (header.captures.map fun captured => captured.1 :: captured.2.tokens).getD []

def tokens : List Token :=
  header.front ++ (header.list.tokens ++ (header.captureTokens ++ header.types))

/-- The parameters that the list declares. -/
def parameters (symbols : Symbols) : List Parameter :=
  (divide (·.isOperator [","]) (outermost header.list.inner)).filterMap symbols.parameter?

/-- The variables that the function captures. -/
def captured : List String :=
  (header.captures.map fun captured =>
    ((outermost captured.2.inner).filter (·.kind == .variable)).map (·.text)).getD []

/-- What the header says. -/
def said (symbols : Symbols) : FunctionHeader :=
  { arrow := header.keyword.isKeyword ["fn"]
    name := header.name.map (·.text)
    parameters := header.parameters symbols
    captured := header.captured }

end WrittenHeader

/-! ### Reading a header -/

variable {nesting : Nesting} {symbols : Symbols}

theorem isOperator_of_isName {token : Token} (name : token.isName = true)
    (operators : List String) : token.isOperator operators = false := by
  simp only [Token.isName, Bool.or_eq_true, beq_iff_eq] at name
  rcases name with kind | kind <;> simp [Token.isOperator, kind]

/-- The list of parameters is where it is looked for. -/
theorem readFunction_written (header : WrittenHeader) (before later : List Token)
    (written : nesting = .ofTokens
      (before ++ (header.front ++ (header.list.tokens ++ later)))) :
    readFunction nesting (nesting.placeAt before.length header.keyword) symbols =
      readCaptures nesting (nesting.placeAt before.length header.keyword) symbols
        { header.said symbols with captured := [] }
        (before.length + header.front.length + header.list.tokens.length) := by
  have opener := kind_of_opening? header.list.opens
  have tail : nesting.tokens.toList.drop (before.length + 1) =
      header.reference.toList ++ (header.name.toList ++ (header.list.tokens ++ later)) := by
    rw [written, Nesting.tokens_ofTokens]
    simp [WrittenHeader.front, List.drop_append]
  -- The sign, if there is one, comes first.
  have first : (if (nesting.placeAt before.length header.keyword).nextIs (·.isOperator ["&"]) then
      before.length + 2 else before.length + 1) =
        before.length + 1 + header.reference.toList.length := by
    rw [Place.nextIs, Nesting.after_placeAt, tail]
    cases signed : header.reference with
    | some sign => simp [header.refers sign signed]
    | none =>
      cases called : header.name with
      | some word => simp [isOperator_of_isName (header.named word called).1]
      | none => simp [Bracketed.tokens, Token.isOperator, opener]
  -- Then the name.
  have name : (if header.keyword.isKeyword ["fn"] then none else
      (((nesting.placeAt before.length header.keyword).ahead
        (before.length + 1 + header.reference.toList.length)).head?.filter (·.isName)).map
          (·.text)) = header.name.map (·.text) := by
    rw [Nesting.ahead_placeAt _ (by omega), ← List.drop_drop, tail, List.drop_left]
    cases called : header.name with
    | some word =>
      obtain ⟨isName, other⟩ := header.named word called
      simp [other, isName]
    | none => simp [Bracketed.tokens, Token.isName, opener]
  have place : (if (header.name.map (·.text)).isSome then
      before.length + 1 + header.reference.toList.length + 1
      else before.length + 1 + header.reference.toList.length) =
        before.length + header.front.length := by
    cases called : header.name <;> simp [WrittenHeader.front, called] <;> omega
  obtain ⟨frame, found, mark, closed, direct⟩ := header.list.frame (before ++ header.front) later
  rw [List.append_assoc, ← written] at found direct
  rw [List.length_append] at found closed
  unfold readFunction
  dsimp only [Nesting.index_placeAt, Nesting.here_placeAt]
  have kept : (some frame).filter (·.mark == Bracket.round.opening) = some frame := by
    simp [Option.filter, mark]
  have declared : symbols.parameters nesting frame = header.parameters symbols := by
    rw [Symbols.parameters, direct]
    rfl
  rw [first, name, place, found, kept]
  dsimp only
  rw [closed, declared, header.list.length_tokens]
  rfl

/-- Captured variables are those directly in the list after the word that says so. -/
theorem readCaptures_written (header : WrittenHeader) {before later : List Token} {index : Nat}
    {here : Token} (after : index < before.length) (said : FunctionHeader)
    (plain : header.captures = none → later.head?.any (·.isKeyword ["use"]) = false)
    (nothing : said.captured = [])
    (written : nesting = .ofTokens (before ++ (header.captureTokens ++ later))) :
    readCaptures nesting (nesting.placeAt index here) symbols said before.length =
      enterFunction nesting (nesting.placeAt index here) symbols
        { said with captured := header.captured }
        (before.length + header.captureTokens.length) := by
  have ahead : (nesting.placeAt index here).ahead before.length =
      header.captureTokens ++ later := by
    rw [Nesting.ahead_placeAt here after, written, Nesting.tokens_ofTokens, List.toList_toArray,
      List.drop_left]
  unfold readCaptures
  rw [ahead]
  cases held : header.captures with
  | none =>
    have none : header.captureTokens = [] := by simp [WrittenHeader.captureTokens, held]
    have empty : header.captured = [] := by simp [WrittenHeader.captured, held]
    rw [none, List.nil_append, plain held, empty, ← nothing]
    rfl
  | some captured =>
    obtain ⟨word, list⟩ := captured
    have tokens : header.captureTokens = word :: list.tokens := by
      simp [WrittenHeader.captureTokens, held]
    have uses : word.isKeyword ["use"] = true := header.uses (word, list) held
    obtain ⟨frame, found, -, closed, direct⟩ := list.frame (before ++ [word]) later
    have split : before ++ (header.captureTokens ++ later) =
        before ++ [word] ++ (list.tokens ++ later) := by
      simp [tokens]
    rw [← split, ← written] at found direct
    rw [List.length_append, List.length_singleton] at found closed
    have names : ((nesting.directTokens frame).filter (·.kind == .variable)).map (·.text) =
        header.captured := by
      simp [WrittenHeader.captured, held, direct]
    rw [tokens, List.cons_append, List.head?_cons, Option.any_some, if_pos uses, found]
    dsimp only
    rw [closed]
    dsimp only
    rw [names, List.length_cons, list.length_tokens]
    congr 1
    omega

/-! ### Entering a function -/

/-- Reading has entered `scope` on top of those of `symbols`, and goes on at `next`. -/
structure Begins (symbols : Symbols) (scope : Scope) (next : Nat) (pass : Pass) : Prop where
  scopes : pass.symbols.scopes = scope :: symbols.scopes
  file : pass.symbols.file = symbols.file
  resume : pass.resume = next
  importing : pass.importing = false

/-- Where the scope of a function reaches if the token at `start` follows its header. -/
inductive Begun (nesting : Nesting) (arrow : Bool) (start : Nat) (token : Token) : Extent → Prop
  | body (opens : token.opening? = some .curly) : Begun nesting arrow start token (.body start)
  | arrow (isArrow : arrow = true) (operator : token.isOperator ["=>"] = true) :
      Begun nesting arrow start token (.arrow (nesting.enclosing start))

theorem Begun.not_isReturnType {arrow : Bool} {start : Nat} {token : Token} {extent : Extent}
    (begun : Begun nesting arrow start token extent) : isReturnType token = false := by
  cases begun with
  | body opens =>
    have kind := kind_of_opening? opens
    simp [isReturnType, Token.isName, Token.isOperator, kind]
  | arrow _ operator =>
    simp only [Token.isOperator, Bool.and_eq_true, beq_iff_eq, List.contains_cons,
      List.contains_nil, Bool.or_false] at operator
    simp [isReturnType, Token.isName, Token.isOperator, operator.1, operator.2]

theorem begins_enterFunction {before types later : List Token} {token : Token} {index : Nat}
    {here : Token} (after : index < before.length) (said : FunctionHeader)
    (typed : ∀ type ∈ types, isReturnType type = true) {extent : Extent}
    (begun : Begun nesting said.arrow (before.length + types.length) token extent)
    (written : nesting = .ofTokens (before ++ (types ++ token :: later))) :
    Begins symbols { bindings := symbols.initialBindings said, extent }
      (before.length + types.length + 1)
      (enterFunction nesting (nesting.placeAt index here) symbols said before.length) := by
  have ahead : (nesting.placeAt index here).ahead before.length = types ++ token :: later := by
    rw [Nesting.ahead_placeAt here after, written, Nesting.tokens_ofTokens, List.toList_toArray,
      List.drop_left]
  have stops := begun.not_isReturnType
  have taken : (types ++ token :: later).takeWhile isReturnType = types := by
    rw [List.takeWhile_append_of_pos typed, List.takeWhile_cons_of_neg (by simp [stops]),
      List.append_nil]
  have dropped : (types ++ token :: later).dropWhile isReturnType = token :: later := by
    rw [List.dropWhile_append_of_pos typed, List.dropWhile_cons_of_neg (by simp [stops])]
  obtain ⟨scopes, file⟩ := scopes_promote symbols said
  unfold enterFunction
  rw [ahead]
  dsimp only
  rw [taken, dropped]
  dsimp only
  cases begun with
  | arrow isArrow operator =>
    rw [isArrow, operator]
    exact ⟨congrArg _ scopes, file, rfl, rfl⟩
  | body opens =>
    have plain : token.isOperator ["=>"] = false := by
      simp [Token.isOperator, kind_of_opening? opens]
    rw [plain, Bool.and_false, if_neg Bool.false_ne_true, opens]
    exact ⟨congrArg _ scopes, file, rfl, rfl⟩

/-- A complete header, and behind it what begins the body of the function. -/
theorem begins_readFunction (symbols : Symbols) (header : WrittenHeader)
    (before later : List Token) {token : Token} {extent : Extent}
    (begun : Begun nesting (header.keyword.isKeyword ["fn"])
      (before.length + header.tokens.length) token extent)
    (captures : header.captures = none →
      (header.types ++ token :: later).head?.any (·.isKeyword ["use"]) = false)
    (written : nesting = .ofTokens (before ++ (header.tokens ++ token :: later))) :
    Begins symbols { bindings := symbols.initialBindings (header.said symbols), extent }
      (before.length + header.tokens.length + 1)
      (readFunction nesting (nesting.placeAt before.length header.keyword) symbols) := by
  -- Each part of the header is read with everything before it in front.
  let list := before ++ header.front ++ header.list.tokens
  let lists := list ++ header.captureTokens
  have front : nesting = .ofTokens (before ++ (header.front ++ (header.list.tokens ++
      (header.captureTokens ++ (header.types ++ token :: later))))) := by
    simp [written, WrittenHeader.tokens]
  have middle : nesting = .ofTokens (list ++ (header.captureTokens ++
      (header.types ++ token :: later))) := by
    simp [written, list, WrittenHeader.tokens]
  have back : nesting = .ofTokens (lists ++ (header.types ++ token :: later)) := by
    simp [written, lists, list, WrittenHeader.tokens]
  have inside : before.length < list.length := by
    simp [list, WrittenHeader.front]
  have start : before.length + header.tokens.length = lists.length + header.types.length := by
    simp [lists, list, WrittenHeader.tokens]
    omega
  have place : before.length + header.front.length + header.list.tokens.length = list.length := by
    simp [list, Nat.add_assoc]
  rw [readFunction_written header before _ front, place,
    readCaptures_written header inside _ captures rfl middle, start]
  rw [start] at begun
  have place' : list.length + header.captureTokens.length = lists.length := by simp [lists]
  rw [place']
  exact begins_enterFunction (by omega) (header.said symbols) header.typed begun back

end CursorContext.Symbols
