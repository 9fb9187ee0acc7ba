import CursorContext.Proofs.ContextFields
import CursorContext.Proofs.Symbols.ImportStatement
import CursorContext.Proofs.Symbols.NamesInForce
import CursorContext.Proofs.Symbols.ScopeChain
import CursorContext.Proofs.Token.Tiling

/-!
What short names stand for. Of several imports under one short name the last one counts, and nothing
but a namespace or another import changes what a short name stands for. A class name is read with the
imports in force: its first segment is replaced if it is imported, and the rest of it stays.
-/
namespace CursorContext

namespace Symbols

variable {nesting : Nesting} {symbols : Symbols}

/-! ### Code without imports -/

/-- Only two words change the imports. -/
theorem imports_readStatement {place : Place}
    (other : place.here.isKeyword ["namespace", "use"] = false) (symbols : Symbols) :
    (readStatement nesting place symbols).symbols.imports = symbols.imports :=
  congrArg Prod.snd (names_readStatement other symbols)

/-- From where no import goes on and neither word follows, the imports stay as they are. -/
theorem imports_ofNesting {index : Nat} (inside : index ≤ nesting.tokens.size)
    (outside : (passUpTo nesting index).importing = false)
    (last : ∀ k token, index ≤ k → nesting.tokens[k]? = some token →
      token.isKeyword ["namespace", "use"] = false) :
    (ofNesting nesting).imports = (passUpTo nesting index).symbols.imports := by
  suffices kept : ∀ later, index ≤ later → later ≤ nesting.tokens.size →
      (passUpTo nesting later).importing = false ∧
        (passUpTo nesting later).symbols.imports = (passUpTo nesting index).symbols.imports by
    rw [← symbols_passUpTo_size]
    exact (kept _ inside (Nat.le_refl _)).2
  intro later from_
  induction later, from_ using Nat.le_induction with
  | base => exact fun _ => ⟨outside, rfl⟩
  | succ later from_ ih =>
    intro upTo
    obtain ⟨still, same⟩ := ih (by omega)
    have placed := Array.getElem?_eq_getElem (show later < nesting.tokens.size by omega)
    have other := last later _ from_ placed
    cases comes : comesTo nesting later with
    | false =>
      rw [passUpTo_passed placed comes]
      exact ⟨still, same⟩
    | true =>
      rw [passUpTo_statement placed comes still]
      refine ⟨?_, (imports_readStatement other _).trans same⟩
      -- Only the word for an import leads into one.
      by_contra imports
      have use := (use_of_importing (Bool.not_eq_false _ ▸ imports)).1
      simp only [Token.isKeyword, Bool.and_eq_true, List.contains_cons, List.contains_nil,
        Bool.or_false, beq_iff_eq, Nesting.here_placeAt] at use
      simp [Token.isKeyword, use] at other

/-! ### The name behind a short name -/

namespace ImportClause

variable (clause : ImportClause)

/-- The name that is imported, without separators at its ends. -/
def full : String := Name.trim clause.name.text

/-- The short name under which it is imported. -/
def shortName : String := clause.short.getD (Name.lastSegment clause.full)

/-- There is something in the names besides separators. -/
def Proper : Prop := clause.full ≠ "" ∧ clause.short ≠ some ""

theorem declaredIn_eq_insert {clause : ImportClause} (proper : clause.Proper) (imports : Imports) :
    clause.declaredIn imports = Std.TreeMap.insert imports clause.shortName clause.full := by
  have filled : clause.short.bind Name.nonEmpty? = clause.short := by
    cases given : clause.short with
    | none => rfl
    | some short =>
      have written : short ≠ "" := by
        rintro rfl
        exact proper.2 given
      simp [Name.nonEmpty?, written]
  -- So neither of the two checks for an empty name stops the clause.
  have named : Name.nonEmpty? (Name.trim clause.name.text) = some clause.full :=
    if_neg (mt eq_of_beq proper.1)
  rw [declaredIn, Imports.declare, named, filled]
  rfl

/-- The imports are the fold that enters each name under its short name, in order. -/
theorem declareAll_eq_foldl {clauses : List ImportClause}
    (proper : ∀ clause ∈ clauses, clause.Proper) (imports : Imports) :
    declareAll clauses imports =
      clauses.foldl (fun imports clause =>
        Std.TreeMap.insert imports clause.shortName clause.full) imports := by
  apply List.foldl_ext
  intro imports clause member
  exact declaredIn_eq_insert (proper clause member) imports

/-- A short name stands for the last name that was imported under it. -/
theorem getElem?_foldl_insert {clauses : List ImportClause} {imports : Imports} {short full : String}
    (known : imports[short]? = some full) (others : ∀ clause ∈ clauses, clause.shortName ≠ short) :
    (clauses.foldl (fun imports clause =>
      Std.TreeMap.insert imports clause.shortName clause.full) imports)[short]? = some full := by
  induction clauses generalizing imports with
  | nil => exact known
  | cons clause rest ih =>
    apply ih _ fun other member => others other (List.mem_cons_of_mem _ member)
    rw [Std.TreeMap.getElem?_insert, if_neg, known]
    intro same
    exact others clause List.mem_cons_self (Std.LawfulEqOrd.eq_of_compare same)

/-- Scanned names have a letter, and so there is something in them. -/
theorem proper_of_scan {source : String}
    (scanned : ∀ token ∈ clause.tokens, token ∈ Token.scan source) : clause.Proper := by
  constructor
  · have member := scanned clause.name List.mem_cons_self
    obtain ⟨d, among, start⟩ := Token.nameStart_of_mem_scan member clause.named
    have letter := Name.isSeparator_eq_false (Lexeme.ne_of_isNameStart start (by decide))
    have left := Text.trimList_ne_nil among letter
    simpa [full, Name.trim] using left
  · intro empty
    obtain ⟨pair, given, text⟩ := Option.map_eq_some_iff.mp empty
    have member : pair.2 ∈ clause.tokens := by simp [tokens, givenTokens, given]
    exact (Token.tiles_scan source).text_ne_empty pair.2 (scanned _ member) text

end ImportClause

/-! ### Class names -/

/-- The words that refer to a class only together with the code around them, or to no class. -/
def reservedNames : List String := "self" :: "static" :: "parent" :: builtinTypes

/-- No reserved word has a separator in it. -/
theorem lower_notMem_reservedNames {name : String} (separated : '\\' ∈ name.toList) :
    Text.lower name ∉ reservedNames := by
  intro reserved
  have absent : ∀ word ∈ reservedNames, '\\' ∉ word.toList := by decide
  exact Text.lower_ne (by decide) (by decide) separated (absent _ reserved) rfl

theorem fullNameOf_eq_importedName {name : String} (begins : name.toList.head? ≠ some '\\')
    (plain : Text.lower name ∉ reservedNames) (imports : Imports) (current : Option ClassDef) :
    fullNameOf imports current name = importedName imports name := by
  simp only [reservedNames, List.mem_cons, not_or] at plain
  obtain ⟨self, static, parent, class_⟩ := plain
  simp [fullNameOf, begins, self, static, parent, class_]

/-- A name of one segment stands for what is imported under it, or else for itself. -/
theorem resolve_word (symbols : Symbols) {word : String} (written : word ≠ "")
    (single : '\\' ∉ word.toList) (plain : Text.lower word ∉ reservedNames) :
    (symbols.resolve word).map (·.fullName) = some (symbols.imports[word]?.getD word) := by
  have begins : word.toList.head? ≠ some '\\' := fun first => single (List.mem_of_head? first)
  have ends : word.toList.getLast? ≠ some '\\' := fun last => single (List.mem_of_getLast? last)
  obtain ⟨first, after⟩ := Name.segments_word single
  rw [resolve, classRef, Option.map_map, fullNameOf_eq_importedName begins plain, importedName,
    Name.trimEnd_eq_self ends, first, after]
  cases symbols.imports[word]? <;> simp [Name.nonEmpty?, written]

/-- Of a name of several segments the first one is read like that, and the others stay. -/
theorem resolve_within (symbols : Symbols) {word rest : String} (written : word ≠ "")
    (single : '\\' ∉ word.toList) (goesOn : rest ≠ "") (ends : rest.toList.getLast? ≠ some '\\') :
    (symbols.resolve (Name.within word rest)).map (·.fullName) =
      some (Name.within (symbols.imports[word]?.getD word) rest) := by
  have begins : (Name.within word rest).toList.head? ≠ some '\\' := by
    rw [Name.toList_within, List.head?_append_of_ne_nil _ (by simpa using written)]
    exact fun first => single (List.mem_of_head? first)
  have ends' : (Name.within word rest).toList.getLast? ≠ some '\\' := by
    rwa [Name.toList_within, List.getLast?_append_of_ne_nil _ (List.cons_ne_nil _ _),
      List.getLast?_cons_of_ne_nil (by simpa using goesOn)]
  have plain : Text.lower (Name.within word rest) ∉ reservedNames :=
    lower_notMem_reservedNames (by simp [Name.toList_within])
  obtain ⟨first, after⟩ := Name.segments_within single rest
  rw [resolve, classRef, Option.map_map, fullNameOf_eq_importedName begins plain, importedName,
    Name.trimEnd_eq_self ends', first, after]
  cases symbols.imports[word]? with
  | none => simp [Name.nonEmpty?, Name.within]
  | some full => simp [Name.within, String.append_assoc]

/-! ### Imports in a row -/

/-- After import statements at the top level the imports in force are those of their clauses, entered
in order: each name without separators at its ends under its short name. So a short name stands for
the last name that was imported under it. A class name whose first segment is a short name then refers
to what that stands for, with its other segments behind it, and any other class name refers to
itself. -/
theorem last_import_counts {source : String} (statements : List ImportStatement)
    (before after : List Token) (symbols : Symbols)
    (scanned : ∀ statement ∈ statements, ∀ token ∈ statement.tokens, token ∈ Token.scan source)
    (top : TopLevel (.ofTokens (before ++ (statements.flatMap (·.tokens) ++ after))) before.length
      symbols)
    (classes : ∀ statement ∈ statements, Text.lower statement.first.name.text ≠ "const")
    (last : ∀ token ∈ after, token.isKeyword ["namespace", "use"] = false) :
    let clauses := statements.flatMap (·.clauses)
    let table := ofNesting (.ofTokens (before ++ (statements.flatMap (·.tokens) ++ after)))
    table.imports = clauses.foldl (fun imports clause =>
        Std.TreeMap.insert imports clause.shortName clause.full) symbols.imports ∧
      (∀ front clause back, clauses = front ++ clause :: back →
        (∀ other ∈ back, other.shortName ≠ clause.shortName) →
        table.imports[clause.shortName]? = some clause.full) ∧
      (∀ word, word ≠ "" → '\\' ∉ word.toList → Text.lower word ∉ reservedNames →
        (table.resolve word).map (·.fullName) = some (table.imports[word]?.getD word)) ∧
      ∀ word rest, word ≠ "" → '\\' ∉ word.toList → rest ≠ "" → rest.toList.getLast? ≠ some '\\' →
        (table.resolve (Name.within word rest)).map (·.fullName) =
          some (Name.within (table.imports[word]?.getD word) rest) := by
  intro clauses table
  have read := top.import_statements classes rfl
  -- What the statements leave is kept by the tokens behind them.
  have kept : table.imports = ImportClause.declareAll clauses symbols.imports := by
    have outside := congrArg Pass.importing read
    have inside : before.length + (statements.flatMap (·.tokens)).length ≤
        (Nesting.ofTokens (before ++ (statements.flatMap (·.tokens) ++ after))).tokens.size := by
      rw [Nesting.tokens_ofTokens]
      simp
    rw [imports_ofNesting inside outside, read]
    intro k token behind placed
    apply last token
    rw [Nesting.tokens_ofTokens, List.getElem?_toArray, ← List.append_assoc,
      List.getElem?_append_right (by simpa using behind)] at placed
    exact List.mem_of_getElem? placed
  have proper : ∀ clause ∈ clauses, clause.Proper := by
    intro clause member
    obtain ⟨statement, among, inside⟩ := List.mem_flatMap.mp member
    apply clause.proper_of_scan
    intro token within
    exact scanned statement among token (statement.mem_tokens inside within)
  have folded := kept.trans (ImportClause.declareAll_eq_foldl proper symbols.imports)
  refine ⟨folded, ?_, ?_, ?_⟩
  · intro front clause back split others
    -- The clauses before this one do not matter, and those behind it have other short names.
    rw [folded, show clauses = _ from split, List.foldl_append, List.foldl_cons]
    apply ImportClause.getElem?_foldl_insert _ others
    rw [Std.TreeMap.getElem?_insert_self]
  · intro word written single plain
    exact table.resolve_word written single plain
  · intro word rest written single goesOn ends
    exact table.resolve_within written single goesOn ends

/-- Two statements that import under one short name, and a class name that begins with it. A clause
that gives no short name has that of its last segment. -/
theorem last_import_counts_twice :
    let source := "use A\\B, C as D; use \\X as B, E\\F;"
    let clause (name : String) (start : Nat) (short : String) : ImportClause :=
      { name := ⟨.identifier, name, start, true⟩
        given := some (⟨.keyword, "as", start + name.length + 1, true⟩,
          ⟨.identifier, short, start + name.length + 4, true⟩)
        named := rfl
        renames := by
          rintro _ ⟨⟩
          exact ⟨by simp [Token.isKeyword, show Text.lower "as" = "as" by decide], rfl⟩ }
    let plain (name : String) (start : Nat) : ImportClause :=
      ⟨⟨.identifier, name, start, true⟩, none, rfl, by simp⟩
    let first : ImportStatement :=
      { word := ⟨.keyword, "use", 0, true⟩
        first := plain "A\\B" 4
        more := [(⟨.operator, ",", 7, true⟩, clause "C" 9 "D")]
        stop := ⟨.operator, ";", 15, true⟩
        uses := by decide
        listed := by simp [Token.isOperator]
        stops := by decide }
    let second : ImportStatement :=
      { word := ⟨.keyword, "use", 17, true⟩
        first := clause "\\X" 21 "B"
        more := [(⟨.operator, ",", 28, true⟩, plain "E\\F" 30)]
        stop := ⟨.operator, ";", 33, true⟩
        uses := by decide
        listed := by simp [Token.isOperator]
        stops := by decide }
    let table := ofNesting (.ofTokens ([] ++ ([first, second].flatMap (·.tokens) ++ [])))
    Token.logical (Token.scan source) = [first, second].flatMap (·.tokens) ∧
      table.imports["B"]? = some "X" ∧ table.imports["F"]? = some "E\\F" ∧
      (table.resolve "B\\E").map (·.fullName) = some "X\\E" := by
  intro source clause plain first second table
  have tokens : Token.logical (Token.scan source) = [first, second].flatMap (·.tokens) := by
    decide +kernel
  have scanned : ∀ statement ∈ [first, second], ∀ token ∈ statement.tokens,
      token ∈ Token.scan source := by
    intro statement among token member
    have inside : token ∈ Token.logical (Token.scan source) :=
      tokens ▸ List.mem_flatMap.mpr ⟨statement, among, member⟩
    exact List.mem_of_mem_filter inside
  obtain ⟨-, last, -, resolves⟩ := last_import_counts [first, second] [] [] {} scanned
    ⟨rfl, rfl, rfl⟩ (by decide +kernel) (by simp)
  have short : (clause "\\X" 21 "B").shortName = "B" := rfl
  have full : (clause "\\X" 21 "B").full = "X" := by decide +kernel
  have segment : (plain "E\\F" 30).shortName = "F" := by decide +kernel
  have full' : (plain "E\\F" 30).full = "E\\F" := by decide +kernel
  have known := last [plain "A\\B" 4, clause "C" 9 "D"] (clause "\\X" 21 "B")
    [plain "E\\F" 30] rfl (by simp [segment, short])
  rw [short, full] at known
  have behind := last [plain "A\\B" 4, clause "C" 9 "D", clause "\\X" 21 "B"]
    (plain "E\\F" 30) [] rfl (by simp)
  rw [segment, full'] at behind
  have joined := resolves "B" "E" (by decide) (by decide) (by decide) (by decide)
  rw [known] at joined
  exact ⟨tokens, known, behind, joined⟩

end Symbols

end CursorContext
