import CursorContext.Proofs.Symbols.ImportStatement

/-!
Headers of classes. A header may have any number of clauses for the classes it extends and the
interfaces it implements, in any order. Each kind of clause collects names of its own, so moving
clauses of one kind past those of the other makes no difference to the class that is declared.
-/
namespace CursorContext.Symbols

open Token

variable {nesting : Nesting} {symbols : Symbols}

/-! ### Clauses -/

/-- The word that begins a clause. -/
def Clause.word : Clause → String
  | .base => "extends"
  | .interfaces => "implements"

/-- A clause of a header: its word and the names behind it, with commas between them. -/
structure HeaderClause where
  clause : Clause
  word : Token
  first : Token
  /-- The other names, each with the comma before it. -/
  more : List (Token × Token)
  begins : word.isKeyword [clause.word] = true
  named : first.kind = .identifier
  listed : ∀ pair ∈ more, pair.1.isOperator [","] = true ∧ pair.2.kind = .identifier

namespace HeaderClause

variable (part : HeaderClause)

def tokens : List Token :=
  part.word :: part.first :: part.more.flatMap fun pair => [pair.1, pair.2]

def names : List String := part.first.text :: part.more.map (·.2.text)

/-- The names that refer to a class, each with its clause. -/
def resolved (imports : Imports) : List (Clause × String) :=
  (part.names.filterMap (fullNameOf imports none)).map (part.clause, ·)

theorem keyword_word : part.word.kind = .keyword :=
  eq_of_beq (Bool.and_eq_true_iff.mp part.begins).1

/-- A name goes to the clause it stands in, unless it refers to nothing. -/
theorem clauseNames_name (imports : Imports) (clause : Clause) {name : Token}
    (named : name.kind = .identifier) (rest : List Token) :
    clauseNames imports (some clause) (name :: rest) =
      ((fullNameOf imports none name.text).map (clause, ·)).toList ++
        clauseNames imports (some clause) rest := by
  simp [clauseNames, Token.isKeyword, named]

theorem clauseNames_comma (imports : Imports) (clause : Option Clause) {comma : Token}
    (separates : comma.isOperator [","] = true) (rest : List Token) :
    clauseNames imports clause (comma :: rest) = clauseNames imports clause rest := by
  have operator : comma.kind = .operator := eq_of_beq (Bool.and_eq_true_iff.mp separates).1
  simp [clauseNames, Token.isKeyword, operator]

theorem clauseNames_more (imports : Imports) (clause : Clause) (more : List (Token × Token))
    (listed : ∀ pair ∈ more, pair.1.isOperator [","] = true ∧ pair.2.kind = .identifier)
    (rest : List Token) :
    clauseNames imports (some clause) ((more.flatMap fun pair => [pair.1, pair.2]) ++ rest) =
      ((more.map (·.2.text)).filterMap (fullNameOf imports none)).map (clause, ·) ++
        clauseNames imports (some clause) rest := by
  induction more with
  | nil => rfl
  | cons pair more ih =>
    obtain ⟨separates, named⟩ := listed pair List.mem_cons_self
    have later := ih fun other member => listed other (List.mem_cons_of_mem _ member)
    rw [List.flatMap_cons, List.append_assoc, List.cons_append, List.cons_append, List.nil_append,
      clauseNames_comma imports _ separates, clauseNames_name imports clause named, later]
    cases full : fullNameOf imports none pair.2.text <;> simp [full]

/-- The word of a clause decides where the names behind it go, whatever clause was before. -/
theorem clauseNames_tokens (imports : Imports) (before : Option Clause) (rest : List Token) :
    clauseNames imports before (part.tokens ++ rest) =
      part.resolved imports ++ clauseNames imports (some part.clause) rest := by
  have keyword := part.keyword_word
  have begins : clauseNames imports before (part.tokens ++ rest) =
      clauseNames imports (some part.clause)
        (part.first :: ((part.more.flatMap fun pair => [pair.1, pair.2]) ++ rest)) := by
    have begins := part.begins
    -- The words are tried in turn, so the one for interfaces is seen not to be the other.
    cases kind : part.clause with
    | base =>
      rw [kind, Clause.word] at begins
      simp [tokens, clauseNames, begins]
    | interfaces =>
      rw [kind, Clause.word] at begins
      have other : part.word.isKeyword ["extends"] = false := by
        simp only [Token.isKeyword, keyword, List.contains_cons, List.contains_nil, Bool.or_false,
          beq_self_eq_true, Bool.true_and, beq_iff_eq] at begins
        simp [Token.isKeyword, begins]
      simp [tokens, clauseNames, begins, other]
  rw [begins, clauseNames_name imports _ part.named,
    clauseNames_more imports _ part.more part.listed]
  cases full : fullNameOf imports none part.first.text <;> simp [resolved, names, full]

/-- A header goes on through its clauses. -/
theorem not_endsHeader : ∀ token ∈ part.tokens, endsHeader token = false := by
  have word (token : Token) (kind : token.kind = .keyword ∨ token.kind = .identifier) :
      endsHeader token = false := by
    rcases kind with kind | kind <;> simp [endsHeader, Token.isOperator, kind]
  intro token member
  rcases List.mem_cons.mp member with rfl | member
  · exact word _ (.inl part.keyword_word)
  rcases List.mem_cons.mp member with rfl | member
  · exact word _ (.inr part.named)
  obtain ⟨pair, among, inside⟩ := List.mem_flatMap.mp member
  obtain ⟨separates, named⟩ := part.listed pair among
  simp only [List.mem_cons, List.not_mem_nil, or_false] at inside
  rcases inside with rfl | rfl
  · simp only [Token.isOperator, Bool.and_eq_true, beq_iff_eq, List.contains_cons,
      List.contains_nil, Bool.or_false] at separates
    simp [endsHeader, Token.isOperator, separates.1, separates.2]
  · exact word _ (.inr named)

end HeaderClause

/-! ### Headers -/

/-- A header from its first word to the brace that begins the body. -/
structure ClassHeader where
  word : Token
  name : Token
  clauses : List HeaderClause
  brace : Token
  declares : word.isKeyword ["class", "interface", "trait", "enum"] = true
  named : name.kind = .identifier
  opens : brace.opening? = some .curly

namespace ClassHeader

variable (header : ClassHeader)

/-- What stands between the name and the body. -/
def middle : List Token := header.clauses.flatMap (·.tokens)

def tokens : List Token := header.word :: header.name :: (header.middle ++ [header.brace])

/-- The names in all clauses of a kind, in order. -/
def names (clause : Clause) : List String :=
  (header.clauses.filter (·.clause = clause)).flatMap (·.names)

theorem clauseNames_middle (clauses : List HeaderClause) (imports : Imports)
    (before : Option Clause) :
    clauseNames imports before (clauses.flatMap (·.tokens)) =
      clauses.flatMap (·.resolved imports) := by
  induction clauses generalizing before with
  | nil => rfl
  | cons part rest ih =>
    rw [List.flatMap_cons, List.flatMap_cons, part.clauseNames_tokens, ih]

/-- Each kind of clause collects its own names. -/
theorem namesIn_middle (imports : Imports) (clause : Clause) :
    namesIn clause (clauseNames imports none header.middle) =
      (header.names clause).filterMap (fullNameOf imports none) := by
  rw [middle, clauseNames_middle, names]
  induction header.clauses with
  | nil => rfl
  | cons part rest ih =>
    rw [List.flatMap_cons, namesIn, List.filterMap_append, ← namesIn, ← namesIn, ih]
    by_cases same : part.clause = clause
    · have kept : namesIn clause (part.resolved imports) =
          part.names.filterMap (fullNameOf imports none) := by
        simp [namesIn, HeaderClause.resolved, List.filterMap_map, same]
      rw [kept, List.filter_cons_of_pos (by simpa using same), List.flatMap_cons,
        List.filterMap_append]
    · have dropped : namesIn clause (part.resolved imports) = [] := by
        simp [namesIn, HeaderClause.resolved, List.filterMap_map, same]
      rw [dropped, List.filter_cons_of_neg (by simpa using same), List.nil_append]

theorem header_middle (after : List Token) :
    (header.middle ++ header.brace :: after).takeWhile (!endsHeader ·) = header.middle ∧
      (header.middle ++ header.brace :: after).dropWhile (!endsHeader ·) =
        header.brace :: after := by
  have goesOn : ∀ token ∈ header.middle, (!endsHeader token) = true := by
    intro token member
    obtain ⟨part, -, inside⟩ := List.mem_flatMap.mp member
    simp [part.not_endsHeader token inside]
  have stops : endsHeader header.brace = true := by
    simp [endsHeader, kind_of_opening? header.opens]
  rw [List.takeWhile_append_of_pos goesOn, List.dropWhile_append_of_pos goesOn]
  simp [stops]

/-- The class that a header declares where `symbols` are known and its body begins at `body`. -/
def declared (symbols : Symbols) (body : Nat) : ClassDef :=
  { name := header.name.text
    space := symbols.space
    base := (header.names .base).findSome? (fullNameOf symbols.imports none)
    interfaces := (header.names .interfaces).filterMap (fullNameOf symbols.imports none)
    body := some body }

theorem headerClass_middle (symbols : Symbols) (body : Nat) :
    { symbols.headerClass header.name.text header.middle with body := some body } =
      header.declared symbols body := by
  simp only [headerClass, namesIn_middle, declared, List.head?_filterMap]

theorem readKeyword_word {place : Place} (word : place.here = header.word) (symbols : Symbols) :
    readKeyword nesting place symbols = readClass place symbols := by
  have words : Text.lower place.here.text = "class" ∨ Text.lower place.here.text = "interface" ∨
      Text.lower place.here.text = "trait" ∨ Text.lower place.here.text = "enum" := by
    simpa [word] using (Bool.and_eq_true_iff.mp header.declares).2
  rcases words with word | word | word | word <;> simp [readKeyword, word]

/-- The header is read up to its brace, where the body begins. -/
theorem readClass_tokens {place : Place} {after : List Token}
    (behind : place.after = header.name :: (header.middle ++ header.brace :: after))
    (apart : place.previousIs (·.isKeyword ["new"]) = false) (symbols : Symbols) :
    readClass place symbols =
      { symbols := symbols.declareClass (symbols.headerClass header.name.text header.middle)
          (some (place.index + 2 + header.middle.length))
        resume := place.index + 2 + header.middle.length + 1 } := by
  obtain ⟨taken, left⟩ := header.header_middle after
  rw [readClass, behind]
  simp [apart, header.named, taken, left, header.opens]

/-- The header is read as a whole, and the pass goes on in the body. -/
theorem passUpTo_tokens {before after : List Token} {importing : Bool}
    (written : nesting = .ofTokens (before ++ (header.tokens ++ after)))
    (reached : passUpTo nesting before.length = { symbols, resume := before.length, importing })
    (apart : before.getLast?.any (·.isKeyword ["new"]) = false) :
    passUpTo nesting (before.length + header.tokens.length) =
      { symbols :=
          { symbols with
            classes := symbols.classes.push
              (header.declared symbols (before.length + 2 + header.middle.length))
            openClasses := symbols.classes.size :: symbols.openClasses }
        resume := before.length + header.tokens.length } := by
  have ended : nesting.Ended := written ▸ Nesting.ended_ofTokens _
  have keyword : header.word.kind = .keyword :=
    eq_of_beq (Bool.and_eq_true_iff.mp header.declares).1
  have listed : nesting.tokens.toList =
      before ++ header.word :: header.name :: (header.middle ++ header.brace :: after) := by
    simp [written, Nesting.tokens_ofTokens, tokens]
  have placed : nesting.tokens[before.length]? = some header.word := by
    rw [← Array.getElem?_toList, listed]
    simp
  have behind : (nesting.placeAt before.length header.word).after =
      header.name :: (header.middle ++ header.brace :: after) := by
    simp [listed, List.drop_append]
  have front : (nesting.placeAt before.length header.word).previousIs (·.isKeyword ["new"]) =
      false := by
    simpa [Place.previousIs, Nesting.placeAt, listed] using apart
  -- The word ends no class and no function that is open.
  have stays : symbols.leave nesting before.length header.word = symbols :=
    leave_eq_self ended placed (closing?_of_isKeyword header.declares)
      (by simp [Token.isOperator, keyword])
  have reads : passUpTo nesting (before.length + 1) =
      { symbols := symbols.declareClass (symbols.headerClass header.name.text header.middle)
          (some (before.length + 2 + header.middle.length))
        resume := before.length + 2 + header.middle.length + 1 } := by
    rw [passUpTo_of_reached reached placed, read_keyword keyword, readStatement]
    simp only [Nesting.here_placeAt, Nesting.index_placeAt, stays, keyword]
    rw [header.readKeyword_word (Nesting.here_placeAt ..), header.readClass_tokens behind front,
      Nesting.index_placeAt]
  -- The tokens up to the brace are behind the pass now.
  have length : before.length + header.tokens.length =
      before.length + 2 + header.middle.length + 1 := by
    simp only [tokens, List.length_cons, List.length_append, List.length_nil]
    omega
  have inside : before.length + header.tokens.length ≤ nesting.tokens.size := by
    rw [written, Nesting.tokens_ofTokens]
    simp
  rw [passUpTo_between (show before.length + 1 ≤ _ by omega) (by rw [reads, length]) inside, reads,
    length, declareClass, header.headerClass_middle]
  rfl

end ClassHeader

/-! ### The order of the clauses -/

/-- Wherever a class is declared by a header, its base is the first name in all clauses for the base
that refers to a class, and its interfaces are all that the names in clauses for interfaces refer to.
So another header with the same names in each kind of clause, in which clauses of one kind have been
moved past those of the other, declares the same class under the same imports. -/
theorem class_clauses_in_any_order (header : ClassHeader) (before after : List Token)
    (symbols : Symbols) (importing : Bool)
    (reached : passUpTo (.ofTokens (before ++ (header.tokens ++ after))) before.length =
      { symbols, resume := before.length, importing })
    (apart : before.getLast?.any (·.isKeyword ["new"]) = false) :
    ∃ definition,
      (passUpTo (.ofTokens (before ++ (header.tokens ++ after)))
          (before.length + header.tokens.length)).symbols =
        { symbols with
          classes := symbols.classes.push definition
          openClasses := symbols.classes.size :: symbols.openClasses } ∧
      definition.name = header.name.text ∧ definition.space = symbols.space ∧
      definition.base = (header.names .base).findSome? (fullNameOf symbols.imports none) ∧
      definition.interfaces =
        (header.names .interfaces).filterMap (fullNameOf symbols.imports none) ∧
      ∀ (other : ClassHeader) (front back : List Token) (known : Symbols) (importing' : Bool),
        passUpTo (.ofTokens (front ++ (other.tokens ++ back))) front.length =
          { symbols := known, resume := front.length, importing := importing' } →
        front.getLast?.any (·.isKeyword ["new"]) = false →
        known.imports = symbols.imports → known.space = symbols.space →
        other.name.text = header.name.text →
        (∀ clause, other.names clause = header.names clause) →
        ∃ moved,
          (passUpTo (.ofTokens (front ++ (other.tokens ++ back)))
              (front.length + other.tokens.length)).symbols =
            { known with
              classes := known.classes.push moved
              openClasses := known.classes.size :: known.openClasses } ∧
          moved.name = definition.name ∧ moved.fullName = definition.fullName ∧
          moved.base = definition.base ∧ moved.interfaces = definition.interfaces := by
  refine ⟨header.declared symbols (before.length + 2 + header.middle.length), ?_, rfl, rfl, rfl, rfl,
    ?_⟩
  · rw [header.passUpTo_tokens rfl reached apart]
  · intro other front back known importing' reached' apart' imports space name names
    refine ⟨other.declared known (front.length + 2 + other.middle.length), ?_, name, ?_, ?_, ?_⟩
    · rw [other.passUpTo_tokens rfl reached' apart']
    · simp only [ClassDef.fullName, ClassHeader.declared, space, name]
    · simp only [ClassHeader.declared, names, imports]
    · simp only [ClassHeader.declared, names, imports]

/-- `use P\B; class N implements I extends int, B implements J {` and the same class with its clauses
in the usual order. -/
theorem class_with_moved_clauses :
    let token (kind : Kind) (text : String) : Token := { kind, text, start := 0 }
    let list (clause : Clause) (word : Token) (begins : word.isKeyword [clause.word] = true)
        (first : String) (more : List String) : HeaderClause :=
      { clause, word, first := token .identifier first
        more := more.map fun name => (token .operator ",", token .identifier name)
        begins, named := rfl
        listed := by simp [token, Token.isOperator] }
    let header (clauses : List HeaderClause) : ClassHeader :=
      { word := token .keyword "class", name := token .identifier "N", clauses
        brace := token .opener "\x7b", declares := by decide, named := rfl, opens := by decide }
    let mixed := header
      [list .interfaces (token .keyword "implements") (by decide) "I" [],
        list .base (token .keyword "extends") (by decide) "int" ["B"],
        list .interfaces (token .keyword "implements") (by decide) "J" []]
    let usual := header
      [list .base (token .keyword "extends") (by decide) "int" ["B"],
        list .interfaces (token .keyword "implements") (by decide) "I" ["J"]]
    let before := [token .keyword "use", token .identifier "P\\B", token .operator ";"]
    let classes (header : ClassHeader) :=
      (passUpTo (.ofTokens (before ++ (header.tokens ++ [])))
        (before.length + header.tokens.length)).symbols.classes
    mixed.tokens.map (·.text) = ["class", "N", "implements", "I", "extends", "int", ",", "B",
      "implements", "J", "\x7b"] ∧
    ∃ first second, classes mixed = #[first] ∧ classes usual = #[second] ∧
      first.base = some "P\\B" ∧ first.interfaces = ["I", "J"] ∧ second.fullName = first.fullName ∧
      second.base = first.base ∧ second.interfaces = first.interfaces := by
  intro token list header mixed usual before classes
  let clause : ImportClause :=
    { name := token .identifier "P\\B", given := none, named := rfl, renames := by simp }
  let statement := ImportStatement.ofClause (token .keyword "use") (token .operator ";") (by decide)
    (by decide) clause
  let known : Symbols := { imports := ImportClause.declareAll statement.clauses {} }
  have reached (later : List Token) :
      passUpTo (.ofTokens (before ++ later)) 3 = { symbols := known, resume := 3 } := by
    have top : TopLevel (.ofTokens (before ++ later)) ([] : List Token).length {} := ⟨rfl, rfl, rfl⟩
    have length : ([] : List Token).length + statement.tokens.length = 3 := rfl
    have read := top.import_statement (by decide)
      (show _ = Nesting.ofTokens ([] ++ (statement.tokens ++ later)) from rfl)
    rwa [length] at read
  refine ⟨rfl, ?_⟩
  obtain ⟨first, symbols, -, -, base, interfaces, moves⟩ :=
    class_clauses_in_any_order mixed before [] known false (reached _) (by decide)
  obtain ⟨second, symbols', -, fullName, base', interfaces'⟩ :=
    moves usual before [] known false (reached _) (by decide) rfl rfl rfl (by rintro (_ | _) <;> rfl)
  refine ⟨first, second, ?_, ?_, base.trans (by decide +kernel), interfaces.trans (by decide +kernel),
    fullName, base', interfaces'⟩
  · exact congrArg Symbols.classes symbols
  · exact congrArg Symbols.classes symbols'

end CursorContext.Symbols
