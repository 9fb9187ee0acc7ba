import CursorContext.Proofs.Name
import CursorContext.Proofs.Symbols.ScopeStep

/-!
Clauses of import statements. Each of them declares one name, under the short name that it is given
or under its last segment, and a statement at the top level is entered with its first clause.
-/
namespace CursorContext.Symbols

open Token

variable {nesting : Nesting} {symbols : Symbols}

/-! ### Clauses -/

/-- A name to be imported, and the short name it is given. -/
structure ImportClause where
  name : Token
  /-- The word that gives a short name, and that name. -/
  given : Option (Token × Token)
  named : name.kind = .identifier
  renames : ∀ pair ∈ given, pair.1.isKeyword ["as"] = true ∧ pair.2.kind = .identifier

namespace ImportClause

variable (clause : ImportClause)

def givenTokens : List Token := (clause.given.map fun pair => [pair.1, pair.2]).getD []

def tokens : List Token := clause.name :: clause.givenTokens

def short : Option String := clause.given.map (·.2.text)

/-- The imports once the clause has been read. -/
def declaredIn (imports : Imports) : Imports := imports.declare clause.name.text clause.short

/-- The imports once some clauses have been read in order. -/
def declareAll (clauses : List ImportClause) (imports : Imports) : Imports :=
  clauses.foldl (fun imports clause => clause.declaredIn imports) imports

@[simp] theorem declareAll_nil (imports : Imports) : declareAll [] imports = imports := rfl

@[simp] theorem declareAll_cons (clauses : List ImportClause) (imports : Imports) :
    declareAll (clause :: clauses) imports = declareAll clauses (clause.declaredIn imports) := rfl

theorem givenName?_tokens (later : List Token)
    (other : later.head?.any (·.isKeyword ["as"]) = false) :
    givenName? (clause.givenTokens ++ later) = clause.short := by
  cases given : clause.given with
  | none => simp [givenTokens, short, given, givenName?_eq, other]
  | some pair =>
    have renames := (clause.renames pair given).1
    simp [givenTokens, short, given, givenName?, renames]

theorem plain_tokens : ∀ token ∈ clause.tokens, token.opening? = none ∧ token.closing? = none := by
  intro token member
  have kind : token.kind = .identifier ∨ token.kind = .keyword := by
    rcases List.mem_cons.mp member with rfl | later
    · exact .inl clause.named
    · cases given : clause.given with
      | none => simp [givenTokens, given] at later
      | some pair =>
        obtain ⟨word, name⟩ := clause.renames pair given
        simp only [givenTokens, given, Option.map_some, Option.getD_some, List.mem_cons,
          List.not_mem_nil, or_false] at later
        rcases later with rfl | rfl
        · exact .inr (eq_of_beq (Bool.and_eq_true_iff.mp word).1)
        · exact .inl name
  rcases kind with kind | kind <;> simp [Token.opening?, Token.closing?, kind]

end ImportClause

/-! ### Reading a clause -/

/-- What follows the name is a word or the end of the clause, and begins no group. -/
theorem frameAt_behind_name (clause : ImportClause) {before later : List Token} {stop : Token}
    (ends : stop.kind = .operator)
    (written : nesting = .ofTokens (before ++ (clause.tokens ++ stop :: later))) :
    nesting.frameAt (before.length + 1) = none := by
  have formed : nesting.Formed := written ▸ Nesting.formed_ofTokens _
  have next : nesting.tokens[before.length + 1]? = (clause.givenTokens ++ stop :: later)[0]? := by
    rw [written, Nesting.tokens_ofTokens, List.getElem?_toArray,
      List.getElem?_append_right (by omega)]
    simp [ImportClause.tokens]
  cases given : clause.given with
  | none =>
    have there : nesting.tokens[before.length + 1]? = some stop := by
      simpa [ImportClause.givenTokens, given] using next
    exact formed.frameAt_eq_none there (by simp [ends])
  | some pair =>
    have there : nesting.tokens[before.length + 1]? = some pair.1 := by
      simpa [ImportClause.givenTokens, given] using next
    have word := (Bool.and_eq_true_iff.mp (clause.renames pair given).1).1
    exact formed.frameAt_eq_none there (by simp [eq_of_beq word])

/-- One clause of an import statement, with what ends it. -/
theorem passUpTo_clause (clause : ImportClause) {before later : List Token} {stop : Token}
    (ends : stop.kind = .operator)
    (written : nesting = .ofTokens (before ++ (clause.tokens ++ stop :: later)))
    (reached : passUpTo nesting before.length =
      { symbols, resume := before.length, importing := true }) :
    passUpTo nesting (before.length + clause.tokens.length) =
      { symbols := { symbols with imports := clause.declaredIn symbols.imports }
        resume := before.length + clause.tokens.length
        importing := true } := by
  have front : nesting.tokens.toList =
      before ++ clause.name :: (clause.givenTokens ++ stop :: later) := by
    simp [written, Nesting.tokens_ofTokens, ImportClause.tokens]
  have placed : nesting.tokens[before.length]? = some clause.name := by
    rw [← Array.getElem?_toList, front]
    simp
  have after : (nesting.placeAt before.length clause.name).after =
      clause.givenTokens ++ stop :: later := by
    simp [front, List.drop_append]
  have alone := frameAt_behind_name clause ends written
  have short : givenName? (nesting.placeAt before.length clause.name).after = clause.short := by
    rw [after]
    apply clause.givenName?_tokens
    simp [Token.isKeyword, ends]
  have length : (if clause.short.isSome then 3 else 1) = clause.tokens.length := by
    cases given : clause.given <;>
      simp [ImportClause.short, ImportClause.tokens, ImportClause.givenTokens, given]
  have reads : passUpTo nesting (before.length + 1) =
      { symbols := { symbols with imports := clause.declaredIn symbols.imports }
        resume := before.length + clause.tokens.length
        importing := true } := by
    rw [passUpTo_of_reached reached placed]
    simp only [read, readImport, importName, Nesting.here_placeAt, Nesting.index_placeAt, alone,
      Option.filter_none, short, length]
    simp [Token.isOperator, clause.named, ImportClause.declaredIn]
  have inside : before.length + clause.tokens.length ≤ nesting.tokens.size := by
    rw [written, Nesting.tokens_ofTokens]
    simp
  rw [passUpTo_between (show before.length + 1 ≤ _ by simp [ImportClause.tokens]) ?_ inside, reads]
  rw [reads]

/-! ### Statements -/

/-- The pass has come to a statement at `index` outside of all classes and functions. -/
structure TopLevel (nesting : Nesting) (index : Nat) (symbols : Symbols) : Prop where
  reached : passUpTo nesting index = { symbols, resume := index }
  outsideClass : symbols.inClassBody nesting index = false
  outsideFunction : symbols.inFunctionBody = false

/-- The word that begins an import statement. -/
theorem TopLevel.begin {index : Nat} (top : TopLevel nesting index symbols)
    (ended : nesting.Ended) {word name : Token} (placed : nesting.tokens[index]? = some word)
    (uses : word.isKeyword ["use"] = true) (next : nesting.tokens[index + 1]? = some name)
    (named : name.kind = .identifier) (class_ : Text.lower name.text ≠ "const") :
    passUpTo nesting (index + 1) = { symbols, resume := index + 1, importing := true } := by
  have keyword : word.kind = .keyword := eq_of_beq (Bool.and_eq_true_iff.mp uses).1
  have lower : Text.lower word.text = "use" := by simpa [Token.isKeyword, keyword] using uses
  have stays : symbols.leave nesting index word = symbols :=
    leave_eq_self ended placed (closing?_of_isKeyword uses) (by simp [Token.isOperator, keyword])
  have list : (nesting.placeAt index word).nextIs (·.opening? == some .round) = false := by
    simp [Nesting.nextIs_placeAt, next, Token.opening?, named]
  have noClass : (nesting.placeAt index word).nextIs importsNoClass = false := by
    simp [Nesting.nextIs_placeAt, next, importsNoClass, Token.isKeyword, named, class_]
  rw [passUpTo_of_reached top.reached placed]
  simp [read, readStatement, readKeyword, keyword, lower, stays, beginImport, list, noClass,
    top.outsideClass, top.outsideFunction]

/-- The end of an import statement. -/
theorem passUpTo_stop {index : Nat} {stop : Token}
    (reached : passUpTo nesting index = { symbols, resume := index, importing := true })
    (placed : nesting.tokens[index]? = some stop) (stops : stop.isOperator [";"] = true) :
    passUpTo nesting (index + 1) = { symbols, resume := index + 1 } := by
  rw [passUpTo_of_reached reached placed]
  simp [read, readImport, stops]

/-- The statement that imports one clause. -/
def ImportClause.statement (word stop : Token) (clause : ImportClause) : List Token :=
  word :: (clause.tokens ++ [stop])

end CursorContext.Symbols
