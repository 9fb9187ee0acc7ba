import CursorContext.Proofs.Symbols.ImportClause

/-!
Import statements. A statement at the top level is read from its word to its end, whatever stands
before and after it, so statements in a row declare the names of their clauses in order.
-/
namespace CursorContext.Symbols

open Token

variable {nesting : Nesting} {symbols : Symbols}

/-! ### Statements -/

/-- A statement that imports one or more names. -/
structure ImportStatement where
  word : Token
  first : ImportClause
  /-- The other clauses, each with the comma before it. -/
  more : List (Token × ImportClause)
  stop : Token
  uses : word.isKeyword ["use"] = true
  listed : ∀ pair ∈ more, pair.1.isOperator [","] = true
  stops : stop.isOperator [";"] = true

namespace ImportStatement

variable (statement : ImportStatement)

def clauses : List ImportClause := statement.first :: statement.more.map (·.2)

/-- The clauses behind the first one. -/
def moreTokens (more : List (Token × ImportClause)) : List Token :=
  more.flatMap fun pair => pair.1 :: pair.2.tokens

def tokens : List Token :=
  statement.word :: (statement.first.tokens ++ (moreTokens statement.more ++ [statement.stop]))

/-- The statement that imports one clause. -/
def ofClause (word stop : Token) (uses : word.isKeyword ["use"] = true)
    (stops : stop.isOperator [";"] = true) (clause : ImportClause) : ImportStatement :=
  { word, first := clause, more := [], stop, uses, listed := by simp, stops }

theorem tokens_ofClause {word stop : Token} (uses : word.isKeyword ["use"] = true)
    (stops : stop.isOperator [";"] = true) (clause : ImportClause) :
    (ofClause word stop uses stops clause).tokens = clause.statement word stop := by
  simp [tokens, ofClause, moreTokens, ImportClause.statement]

theorem mem_tokens {clause : ImportClause} {token : Token} (among : clause ∈ statement.clauses)
    (member : token ∈ clause.tokens) : token ∈ statement.tokens := by
  rcases List.mem_cons.mp among with rfl | later
  · simp [tokens, member]
  · obtain ⟨pair, listed, rfl⟩ := List.mem_map.mp later
    have inside : token ∈ moreTokens statement.more :=
      List.mem_flatMap.mpr ⟨pair, listed, List.mem_cons_of_mem _ member⟩
    simp [tokens, inside]

theorem operator_stop : statement.stop.kind = .operator :=
  eq_of_beq (Bool.and_eq_true_iff.mp statement.stops).1

/-- What follows a clause is a comma or the end of the statement. -/
theorem exists_end (more : List (Token × ImportClause))
    (listed : ∀ pair ∈ more, pair.1.isOperator [","] = true) {stop : Token}
    (ends : stop.kind = .operator) (later : List Token) :
    ∃ next rest, moreTokens more ++ stop :: later = next :: rest ∧ next.kind = .operator := by
  cases more with
  | nil => exact ⟨stop, later, rfl, ends⟩
  | cons pair more =>
    have separates := listed pair List.mem_cons_self
    exact ⟨pair.1, _, rfl, eq_of_beq (Bool.and_eq_true_iff.mp separates).1⟩

/-- The clauses behind the first one are read one after the other. -/
theorem passUpTo_more (more : List (Token × ImportClause))
    (listed : ∀ pair ∈ more, pair.1.isOperator [","] = true) {before later : List Token}
    {stop : Token} (ends : stop.kind = .operator)
    (written : nesting = .ofTokens (before ++ (moreTokens more ++ stop :: later)))
    (reached : passUpTo nesting before.length =
      { symbols, resume := before.length, importing := true }) :
    passUpTo nesting (before.length + (moreTokens more).length) =
      { symbols :=
          { symbols with imports := ImportClause.declareAll (more.map (·.2)) symbols.imports }
        resume := before.length + (moreTokens more).length
        importing := true } := by
  induction more generalizing before symbols with
  | nil => exact reached
  | cons pair more ih =>
    obtain ⟨comma, clause⟩ := pair
    have separates : comma.isOperator [","] = true := listed _ List.mem_cons_self
    have listed' : ∀ pair ∈ more, pair.1.isOperator [","] = true :=
      fun pair member => listed pair (List.mem_cons_of_mem _ member)
    have split : moreTokens ((comma, clause) :: more) =
        comma :: (clause.tokens ++ moreTokens more) := by
      simp [moreTokens]
    rw [split] at written
    -- First the comma, then the clause up to what ends it, then the others.
    have placed : nesting.tokens[before.length]? = some comma := by
      simp [written, Nesting.tokens_ofTokens]
    have operator : comma.kind = .operator := eq_of_beq (Bool.and_eq_true_iff.mp separates).1
    have goesOn : comma.isOperator [";"] = false := by
      simp only [Token.isOperator, Bool.and_eq_true, List.contains_cons, List.contains_nil,
        Bool.or_false, beq_iff_eq] at separates
      simp [Token.isOperator, separates.2]
    have begun : passUpTo nesting (before ++ [comma]).length =
        { symbols, resume := (before ++ [comma]).length, importing := true } := by
      rw [List.length_append, List.length_singleton, passUpTo_of_reached reached placed]
      simp [read, readImport, goesOn, operator, separates]
    obtain ⟨next, rest, text, kind⟩ := exists_end more listed' ends later
    have behind : nesting = .ofTokens (before ++ [comma] ++ (clause.tokens ++ next :: rest)) := by
      simp [written, text]
    have read := passUpTo_clause clause kind behind begun
    rw [← List.length_append] at read
    have others := ih listed' (by simp [behind, text]) read
    have length : before.length + (moreTokens ((comma, clause) :: more)).length =
        (before ++ [comma] ++ clause.tokens).length + (moreTokens more).length := by
      rw [split]
      simp only [List.length_append, List.length_cons, List.length_nil]
      omega
    rw [length, others]
    simp only [List.map_cons, ImportClause.declareAll_cons]

theorem balanced_tokens : Balanced statement.tokens := by
  apply Balanced.of_plain
  intro token member
  simp only [tokens, moreTokens, List.mem_cons, List.mem_append, List.mem_flatMap,
    List.not_mem_nil, or_false] at member
  rcases member with rfl | first | ⟨pair, among, rfl | inner⟩ | rfl
  · have keyword := eq_of_beq (Bool.and_eq_true_iff.mp statement.uses).1
    simp [Token.opening?, Token.closing?, keyword]
  · exact statement.first.plain_tokens token first
  · have separates := statement.listed pair among
    exact ⟨opening?_of_isOperator separates, closing?_of_isOperator separates⟩
  · exact pair.2.plain_tokens token inner
  · exact ⟨opening?_of_isOperator statement.stops, closing?_of_isOperator statement.stops⟩

end ImportStatement

open ImportStatement (moreTokens)

theorem TopLevel.import_statement {before later : List Token} {statement : ImportStatement}
    (top : TopLevel nesting before.length symbols)
    (class_ : Text.lower statement.first.name.text ≠ "const")
    (written : nesting = .ofTokens (before ++ (statement.tokens ++ later))) :
    passUpTo nesting (before.length + statement.tokens.length) =
      { symbols :=
          { symbols with imports := ImportClause.declareAll statement.clauses symbols.imports }
        resume := before.length + statement.tokens.length } := by
  have ended : nesting.Ended := written ▸ Nesting.ended_ofTokens _
  have text : nesting = .ofTokens (before ++ [statement.word] ++ (statement.first.tokens ++
      (moreTokens statement.more ++ statement.stop :: later))) := by
    simp [written, ImportStatement.tokens]
  have placed : nesting.tokens[before.length]? = some statement.word := by
    simp [text, Nesting.tokens_ofTokens]
  have next : nesting.tokens[before.length + 1]? = some statement.first.name := by
    simp [text, Nesting.tokens_ofTokens, ImportClause.tokens]
  have begun := top.begin ended placed statement.uses next statement.first.named class_
  have start : before.length + 1 = (before ++ [statement.word]).length := by simp
  rw [start] at begun
  -- The first clause, the others, and the end of the statement.
  obtain ⟨end_, rest, split, kind⟩ := ImportStatement.exists_end statement.more statement.listed
    statement.operator_stop later
  have first := passUpTo_clause statement.first kind (split ▸ text) begun
  rw [← List.length_append] at first
  rw [← List.append_assoc] at text
  have more := ImportStatement.passUpTo_more statement.more statement.listed
    statement.operator_stop text first
  have last : nesting.tokens[(before ++ [statement.word] ++ statement.first.tokens).length +
      (moreTokens statement.more).length]? = some statement.stop := by
    rw [text, Nesting.tokens_ofTokens, List.getElem?_toArray, ← List.append_assoc,
      ← List.length_append, List.getElem?_append_right (Nat.le_refl _), Nat.sub_self,
      List.getElem?_cons_zero]
  have read := passUpTo_stop more last statement.stops
  have length : before.length + statement.tokens.length =
      (before ++ [statement.word] ++ statement.first.tokens).length +
        (moreTokens statement.more).length + 1 := by
    simp only [ImportStatement.tokens, List.length_append, List.length_cons, List.length_nil]
    omega
  rw [length, read]
  simp only [ImportStatement.clauses, ImportClause.declareAll_cons]

/-- Imports have no part in what is around a place. -/
theorem outside_withImports (symbols : Symbols) (imports : Imports) {i j : Nat}
    (same : nesting.enclosing i = nesting.enclosing j) :
    { symbols with imports }.inClassBody nesting i = symbols.inClassBody nesting j ∧
      { symbols with imports }.inFunctionBody = symbols.inFunctionBody := by
  have current : { symbols with imports }.currentClass = symbols.currentClass := rfl
  exact ⟨by simp only [inClassBody, current, same], rfl⟩

/-- Import statements in a row. -/
theorem TopLevel.import_statements {statements : List ImportStatement} {before later : List Token}
    (top : TopLevel nesting before.length symbols)
    (classes : ∀ statement ∈ statements, Text.lower statement.first.name.text ≠ "const")
    (written : nesting = .ofTokens (before ++ (statements.flatMap (·.tokens) ++ later))) :
    passUpTo nesting (before.length + (statements.flatMap (·.tokens)).length) =
      { symbols :=
          { symbols with
            imports := ImportClause.declareAll (statements.flatMap (·.clauses)) symbols.imports }
        resume := before.length + (statements.flatMap (·.tokens)).length } := by
  induction statements generalizing before symbols with
  | nil => exact top.reached
  | cons statement rest ih =>
    have first : nesting = .ofTokens (before ++ (statement.tokens ++
        (rest.flatMap (·.tokens) ++ later))) := by
      simp [written]
    have read := top.import_statement (classes statement List.mem_cons_self) first
    have both : ImportClause.declareAll (statement.clauses ++ rest.flatMap (·.clauses))
        symbols.imports = ImportClause.declareAll (rest.flatMap (·.clauses))
          (ImportClause.declareAll statement.clauses symbols.imports) := by
      simp [ImportClause.declareAll]
    cases rest with
    | nil => simp [read]
    | cons second rest =>
      -- The next statement begins with a word, so it stands where the first one does.
      have place : (before ++ statement.tokens).length =
          before.length + statement.tokens.length := List.length_append
      have plain (statement : ImportStatement) :
          statement.word.opening? = none ∧ statement.word.closing? = none := by
        have keyword := eq_of_beq (Bool.and_eq_true_iff.mp statement.uses).1
        simp [Token.opening?, Token.closing?, keyword]
      obtain ⟨behind, text⟩ : ∃ behind, (second :: rest).flatMap (·.tokens) ++ later =
          second.word :: behind := by
        simp [ImportStatement.tokens]
      have across := Nesting.enclosing_across before statement.balanced_tokens
        (List.head?_cons (a := statement.word)) (plain statement) (plain second) behind
      rw [← text, ← first] at across
      have next : TopLevel nesting (before ++ statement.tokens).length
          { symbols with
            imports := ImportClause.declareAll statement.clauses symbols.imports } := by
        rw [place]
        obtain ⟨class_, function⟩ := outside_withImports symbols
          (ImportClause.declareAll statement.clauses symbols.imports) across
        exact ⟨read, class_.trans top.outsideClass, function.trans top.outsideFunction⟩
      have others := ih next (fun other member => classes other (List.mem_cons_of_mem _ member))
        (by simp [written])
      rw [place] at others
      rw [List.flatMap_cons (x := statement), List.flatMap_cons (x := statement), List.length_append,
        ← Nat.add_assoc, others, both]

/-- Import statements in a row, each of one clause. -/
theorem TopLevel.import_all {clauses : List ImportClause} {before later : List Token}
    {word stop : Token} (top : TopLevel nesting before.length symbols)
    (uses : word.isKeyword ["use"] = true) (stops : stop.isOperator [";"] = true)
    (classes : ∀ clause ∈ clauses, Text.lower clause.name.text ≠ "const")
    (written : nesting = .ofTokens
      (before ++ (clauses.flatMap (ImportClause.statement word stop) ++ later))) :
    (passUpTo nesting (before.length +
        (clauses.flatMap (ImportClause.statement word stop)).length)).symbols =
      { symbols with
        imports := ImportClause.declareAll clauses symbols.imports } := by
  let statements := clauses.map (ImportStatement.ofClause word stop uses stops)
  have text : statements.flatMap (·.tokens) =
      clauses.flatMap (ImportClause.statement word stop) := by
    simp only [statements, List.flatMap_map, ImportStatement.tokens_ofClause]
  have same : statements.flatMap (·.clauses) = clauses := by
    simp [statements, List.flatMap_map, ImportStatement.ofClause, ImportStatement.clauses]
  rw [← text] at written
  have read := top.import_statements (by simpa [statements, ImportStatement.ofClause] using classes)
    written
  rw [← text, read, same]

end CursorContext.Symbols
