import CursorContext.Proofs.Symbols.ImportStatement
import CursorContext.Token.Scan

/-!
Groups of imports. A group stands for one statement per member, with the name in front of the group
before the name of the member. Statement by statement and in a group the same names are declared,
with one exception: the word that marks a constant is a plain word, and in a group it is imported as
if it were a class.
-/
namespace CursorContext.Symbols

open Token

variable {nesting : Nesting} {symbols : Symbols}

/-! ### Members -/

inductive GroupMember
  /-- A class, by a name that goes on where the name in front of the group ends. -/
  | imported (clause : ImportClause) (begins : clause.name.text.toList.head? ≠ some '\\')
  | function (word name : Token) (marks : word.isKeyword ["function"] = true)
      (named : name.kind = .identifier)
  /-- The word in front of a constant is no reserved one. -/
  | constant (word name : Token) (plain : word.kind = .identifier)
      (marks : Text.lower word.text = "const") (named : name.kind = .identifier)

namespace GroupMember

def tokens : GroupMember → List Token
  | imported clause _ => clause.tokens
  | function word name _ _ => [word, name]
  | constant word name _ _ _ => [word, name]

/-- The class that a member names. -/
def class? : GroupMember → Option ImportClause
  | imported clause _ => some clause
  | _ => none

/-- What is taken for the class that a member names: for a constant it is the word in front. -/
def taken? : GroupMember → Option ImportClause
  | imported clause _ => some clause
  | function _ _ _ _ => none
  | constant word _ plain _ _ =>
    some { name := word, given := none, named := plain, renames := by simp }

/-- The word in front of a constant. -/
def constantWord? : GroupMember → Option String
  | constant word _ _ _ _ => some word.text
  | _ => none

theorem begins_of_taken? {member : GroupMember} {clause : ImportClause}
    (taken : member.taken? = some clause) : clause.name.text.toList.head? ≠ some '\\' := by
  cases member with
  | imported other begins =>
    cases taken
    exact begins
  | function word name marks named => cases taken
  | constant word name plain marks named =>
    cases taken
    intro first
    exact Text.lower_ne (by decide) (by decide) (List.mem_of_head? first) (by decide) marks

/-- Reading a member that a comma or nothing follows. -/
theorem groupMembers_member (member : GroupMember) {previous : Token}
    (begins : importsNoClass previous = false) (later : List Token)
    (ends : ∀ token ∈ later.head?, token.kind = .operator) :
    ∃ last, groupMembers previous 0 (member.tokens ++ later) =
      (member.taken?.map fun clause => (clause.name.text, clause.short)).toList ++
        groupMembers last 0 later := by
  have other : later.head?.any (·.isKeyword ["as"]) = false := by
    cases later with
    | nil => rfl
    | cons token rest => simp [Token.isKeyword, ends token rfl]
  have unnamed : givenName? later = none := by simp [givenName?_eq, other]
  cases member with
  | imported clause _ =>
    have short := clause.givenName?_tokens later other
    cases given : clause.given with
    | none =>
      refine ⟨clause.name, ?_⟩
      simp [tokens, taken?, ImportClause.tokens, ImportClause.givenTokens, ImportClause.short, given,
        groupMembers, clause.named, begins, unnamed]
    | some pair =>
      refine ⟨pair.2, ?_⟩
      simp only [ImportClause.givenTokens, ImportClause.short, given, Option.map_some,
        Option.getD_some, List.cons_append, List.nil_append] at short
      simp [tokens, taken?, ImportClause.tokens, ImportClause.givenTokens, ImportClause.short, given,
        groupMembers, clause.named, begins, short]
  | function word name marks named =>
    have keyword := eq_of_beq (Bool.and_eq_true_iff.mp marks).1
    have noClass : importsNoClass word = true := by simp [importsNoClass, marks]
    exact ⟨name, by simp [tokens, taken?, groupMembers, keyword, named, noClass, unnamed]⟩
  | constant word name plain marks named =>
    -- The word is read as a member of its own, and keeps what follows it from being one.
    have noClass : importsNoClass word = true := by simp [importsNoClass, marks]
    have alone : givenName? (name :: later) = none := by
      simp [givenName?_eq, Token.isKeyword, named]
    refine ⟨name, ?_⟩
    simp [tokens, taken?, groupMembers, plain, named, noClass, unnamed, alone, begins,
      ImportClause.short]

end GroupMember

/-- Members with commas between them, and perhaps one behind the last. -/
inductive Listed : List GroupMember → List Token → Prop
  | none : Listed [] []
  | last (member : GroupMember) : Listed [member] member.tokens
  | next (member : GroupMember) {comma : Token} (separates : comma.isOperator [","] = true)
      {members : List GroupMember} {text : List Token} (later : Listed members text) :
      Listed (member :: members) (member.tokens ++ comma :: text)

namespace Listed

variable {members : List GroupMember} {text : List Token}

theorem groupMembers_eq (listed : Listed members text) {previous : Token}
    (begins : importsNoClass previous = false) :
    groupMembers previous 0 text =
      (members.filterMap (·.taken?)).map fun clause => (clause.name.text, clause.short) := by
  induction listed generalizing previous with
  | none => rfl
  | last member =>
    obtain ⟨last, read⟩ := member.groupMembers_member begins [] (by simp)
    rw [List.append_nil] at read
    rw [read]
    cases taken : member.taken? <;> simp [taken, groupMembers]
  | @next member comma separates members text _ ih =>
    simp only [Token.isOperator, Bool.and_eq_true, beq_iff_eq, List.contains_cons,
      List.contains_nil, Bool.or_false] at separates
    obtain ⟨operator, sign⟩ := separates
    have begins' : importsNoClass comma = false := by
      have small : Text.lower comma.text ≠ "const" := by
        rw [sign]
        decide
      simp [importsNoClass, Token.isKeyword, operator, small]
    obtain ⟨last, read⟩ := member.groupMembers_member begins (comma :: text) (by simp [operator])
    have passed : groupMembers last 0 (comma :: text) = groupMembers comma 0 text := by
      simp [groupMembers, operator]
    rw [read, passed, ih begins']
    cases taken : member.taken? <;> simp [taken]

theorem plain (listed : Listed members text) :
    ∀ token ∈ text, token.opening? = .none ∧ token.closing? = .none := by
  have member_plain (member : GroupMember) :
      ∀ token ∈ member.tokens, token.opening? = .none ∧ token.closing? = .none := by
    cases member with
    | imported clause _ => exact clause.plain_tokens
    | function word name marks named =>
      have keyword := eq_of_beq (Bool.and_eq_true_iff.mp marks).1
      simp [GroupMember.tokens, Token.opening?, Token.closing?, keyword, named]
    | constant word name plain marks named =>
      simp [GroupMember.tokens, Token.opening?, Token.closing?, plain, named]
  induction listed with
  | none => simp
  | last member => exact member_plain member
  | next member separates _ ih =>
    intro token among
    rw [List.mem_append, List.mem_cons] at among
    rcases among with inner | rfl | later
    · exact member_plain member token inner
    · exact ⟨opening?_of_isOperator separates, closing?_of_isOperator separates⟩
    · exact ih token later

end Listed

/-- An import of several names that begin with the same one. -/
structure ImportGroup where
  word : Token
  /-- The name in front, with the separator at its end. -/
  front : Token
  space : String
  members : List GroupMember
  braces : Bracketed .curly
  stop : Token
  uses : word.isKeyword ["use"] = true
  named : front.kind = .identifier
  spaced : front.text = space ++ "\\"
  ends : space.toList.getLast? ≠ some '\\'
  listed : Listed members braces.inner
  stops : stop.isOperator [";"] = true

namespace ImportGroup

variable (group : ImportGroup)

def tokens : List Token := group.word :: group.front :: (group.braces.tokens ++ [group.stop])

/-- A clause of the group by its whole name. -/
def qualified (clause : ImportClause) : ImportClause :=
  { clause with name := { clause.name with text := Name.within group.space clause.name.text } }

/-- The classes that the group imports. -/
def classes : List ImportClause := (group.members.filterMap (·.class?)).map group.qualified

/-- What is taken for the classes that the group imports. -/
def taken : List ImportClause := (group.members.filterMap (·.taken?)).map group.qualified

/-- The words in front of the group's constants. -/
def constantWords : List String := group.members.filterMap (·.constantWord?)

/-- The group written out, one statement for each class. -/
def expansion : List Token :=
  group.classes.flatMap (ImportClause.statement group.word group.stop)

/-- A whole name has a separator in it, so it is no word that marks a constant. -/
theorem lower_qualified (clause : ImportClause) :
    Text.lower (group.qualified clause).name.text ≠ "const" := by
  have separated : '\\' ∈ (group.qualified clause).name.text.toList := by
    simp [qualified, Name.toList_within]
  exact Text.lower_ne (by decide) (by decide) separated (by decide)

theorem declare_member {member : GroupMember} {clause : ImportClause}
    (taken : member.taken? = some clause) (imports : Imports) :
    imports.declare (Name.trim group.front.text ++ "\\" ++ Name.trim clause.name.text)
        clause.short =
      (group.qualified clause).declaredIn imports := by
  have same := Name.trim_within group.ends (GroupMember.begins_of_taken? taken)
  rw [← group.spaced] at same
  exact Imports.declare_congr same imports clause.short

/-- The opening bracket is no word, so the first member is imported. -/
theorem groupMembers_eq :
    groupMembers group.braces.opener 0 group.braces.inner =
      (group.members.filterMap (·.taken?)).map fun clause => (clause.name.text, clause.short) := by
  apply group.listed.groupMembers_eq
  have bracket := kind_of_opening? group.braces.opens
  have brace : '\x7b' ∈ group.braces.opener.text.toList := by
    have opens := group.braces.opens
    simp only [opening?, bracket, beq_self_eq_true, if_true, Option.bind_eq_some_iff] at opens
    obtain ⟨mark, first, marks⟩ := opens
    have same := List.find?_some marks
    rw [beq_iff_eq] at same
    exact List.mem_of_head? (first.trans (congrArg some same.symm))
  have small := Text.lower_ne (by decide) (by decide) brace
    (show '\x7b' ∉ "const".toList by decide)
  simp [importsNoClass, Token.isKeyword, bracket, small]

theorem importGroup_eq {place : Place} {frame : Frame} (here : place.here = group.front)
    (next : place.after.head? = some group.braces.opener)
    (inner : (place.ahead (frame.opener + 1)).take (nesting.endOf frame - (frame.opener + 1)) =
      group.braces.inner) (imports : Imports) :
    importGroup nesting place frame imports =
      ImportClause.declareAll group.taken imports := by
  simp only [importGroup, here, next, inner, Option.getD_some, group.groupMembers_eq, taken,
    ImportClause.declareAll, List.foldl_map]
  apply List.foldl_ext
  intro imports clause among
  obtain ⟨member, -, taken⟩ := List.mem_filterMap.mp among
  exact group.declare_member taken imports

/-- The braces are a frame, and the tokens in it are those between them. -/
theorem frame_braces {before later : List Token}
    (written : nesting = .ofTokens (before ++ (group.front :: (group.braces.tokens ++ later)))) :
    ∃ frame, nesting.frameAt (before.length + 1) = some frame ∧
      frame.mark = Bracket.curly.opening ∧
      nesting.endOf frame = before.length + 1 + group.braces.inner.length + 1 ∧
      ((nesting.placeAt before.length group.front).ahead (frame.opener + 1)).take
        (nesting.endOf frame - (frame.opener + 1)) = group.braces.inner := by
  have text : nesting = .ofTokens (before ++ [group.front] ++ (group.braces.tokens ++ later)) := by
    simp [written]
  have start : (before ++ [group.front]).length = before.length + 1 := by simp
  obtain ⟨frame, found, mark, closed, -⟩ :=
    group.braces.frame (before ++ [group.front]) later
  have opener := (Nesting.linked_ofTokens _).opener found
  rw [← text] at found
  rw [start] at found closed opener
  have ends : nesting.endOf frame = before.length + 1 + group.braces.inner.length + 1 := by
    rw [Nesting.endOf, closed, Option.getD_some]
  refine ⟨frame, found, mark, ends, ?_⟩
  have behind : nesting.tokens.toList.drop (before.length + 1 + 1) =
      group.braces.inner ++ group.braces.closer :: later := by
    have listed : nesting.tokens.toList = before ++ group.front :: group.braces.opener ::
        (group.braces.inner ++ group.braces.closer :: later) := by
      simp [written, Nesting.tokens_ofTokens, Bracketed.tokens]
    rw [listed, Nat.add_assoc, ← List.drop_drop, List.drop_left, List.drop_succ_cons,
      List.drop_succ_cons, List.drop_zero]
  have count : before.length + 1 + group.braces.inner.length + 1 - (before.length + 1 + 1) =
      group.braces.inner.length := by omega
  rw [ends, opener, Nesting.ahead_placeAt _ (by omega), count, behind, List.take_left]

/-- The name in front of the group, and the group. -/
theorem passUpTo_group {before later : List Token}
    (written : nesting = .ofTokens (before ++ (group.front :: (group.braces.tokens ++ later))))
    (reached : passUpTo nesting before.length =
      { symbols, resume := before.length, importing := true }) :
    passUpTo nesting (before.length + 1 + group.braces.tokens.length) =
      { symbols := { symbols with imports := ImportClause.declareAll group.taken symbols.imports }
        resume := before.length + 1 + group.braces.tokens.length
        importing := true } := by
  have placed : nesting.tokens[before.length]? = some group.front := by
    simp [written, Nesting.tokens_ofTokens]
  have head : (nesting.placeAt before.length group.front).after.head? =
      some group.braces.opener := by
    simp [written, Nesting.tokens_ofTokens, Bracketed.tokens]
  obtain ⟨frame, found, mark, ends, inner⟩ := group.frame_braces written
  have imported := group.importGroup_eq (nesting.here_placeAt _ _) head inner symbols.imports
  have reads : passUpTo nesting (before.length + 1) =
      { symbols := { symbols with imports := ImportClause.declareAll group.taken symbols.imports }
        resume := before.length + 1 + group.braces.tokens.length
        importing := true } := by
    have resume : before.length + 1 + group.braces.inner.length + 1 + 1 =
        before.length + 1 + group.braces.tokens.length := by
      rw [Bracketed.length_tokens]
      omega
    rw [passUpTo_of_reached reached placed]
    simp only [read, readImport, importName, Nesting.here_placeAt, Nesting.index_placeAt, found,
      Option.filter_some, mark, beq_self_eq_true, if_true, imported, ends, resume]
    simp [Token.isOperator, group.named]
  -- The pass goes on behind the closing brace, and comes to nothing before it.
  have inside : before.length + 1 + group.braces.tokens.length ≤ nesting.tokens.size := by
    rw [written, Nesting.tokens_ofTokens]
    simp
    omega
  rw [passUpTo_between (Nat.le_add_right _ _) ?_ inside, reads]
  rw [reads]

theorem passUpTo_tokens {before later : List Token}
    (top : TopLevel nesting before.length symbols)
    (written : nesting = .ofTokens (before ++ (group.tokens ++ later))) :
    passUpTo nesting (before.length + group.tokens.length) =
      { symbols := { symbols with imports := ImportClause.declareAll group.taken symbols.imports }
        resume := before.length + group.tokens.length } := by
  have ended : nesting.Ended := written ▸ Nesting.ended_ofTokens _
  have length : group.tokens.length = group.braces.tokens.length + 3 := by simp [tokens]
  have placed := fun i (inside : i < group.tokens.length) => Nesting.getElem?_written written inside
  have first : nesting.tokens[before.length]? = some group.word := by
    have zero := placed 0 (by omega)
    rwa [Nat.add_zero, tokens, List.getElem?_cons_zero] at zero
  have second : nesting.tokens[before.length + 1]? = some group.front := by
    rw [placed 1 (by omega), tokens, List.getElem?_cons_succ, List.getElem?_cons_zero]
  have last : nesting.tokens[before.length + 1 + 1 + group.braces.tokens.length]? =
      some group.stop := by
    rw [Nat.add_assoc, Nat.add_assoc, placed _ (by omega), tokens,
      show 1 + (1 + group.braces.tokens.length) = group.braces.tokens.length + 1 + 1 by omega,
      List.getElem?_cons_succ, List.getElem?_cons_succ]
    simp
  have separated : '\\' ∈ group.front.text.toList := by simp [group.spaced]
  have begun := top.begin ended first group.uses second group.named
    (Text.lower_ne (by decide) (by decide) separated (by decide))
  have written' : nesting = .ofTokens (before ++ [group.word] ++
      (group.front :: (group.braces.tokens ++ group.stop :: later))) := by
    simp [written, tokens]
  have start : (before ++ [group.word]).length = before.length + 1 := by simp
  rw [← start] at begun last
  have read := passUpTo_stop (group.passUpTo_group written' begun) last group.stops
  rw [start] at read
  have total : before.length + (group.braces.tokens.length + 3) =
      before.length + 1 + 1 + group.braces.tokens.length + 1 := by omega
  rw [length, total, read]

/-! ### The names that a group imports -/

/-- A constant's word is imported under itself. -/
theorem getElem?_constant {word : String} (marks : Text.lower word = "const") (imports : Imports)
    (key : String) :
    (imports.declare (Name.within group.space word) none)[key]? =
      if word = key then some (Name.trim (Name.within group.space word)) else imports[key]? := by
  have plain : '\\' ∉ word.toList := fun separated =>
    Text.lower_ne (by decide) (by decide) separated (by decide) marks
  have some : word ≠ "" := by
    rintro rfl
    exact absurd marks (by decide)
  rw [Imports.getElem?_declare]
  simp only [Imports.shortOf_within group.space plain some, Option.some.injEq]

theorem declaredIn_qualified (clause : ImportClause) (imports : Imports) :
    (group.qualified clause).declaredIn imports =
      imports.declare (Name.within group.space clause.name.text) clause.short := rfl

/-- Constants only matter for the names that are their words. -/
theorem getElem?_elsewhere (members : List GroupMember) {imports other : Imports} {key : String}
    (same : imports[key]? = other[key]?) (absent : key ∉ members.filterMap (·.constantWord?)) :
    (ImportClause.declareAll ((members.filterMap (·.taken?)).map group.qualified) imports)[key]? =
      (ImportClause.declareAll ((members.filterMap (·.class?)).map group.qualified)
        other)[key]? := by
  induction members generalizing imports other with
  | nil => exact same
  | cons member rest ih =>
    cases member with
    | imported clause begins =>
      simp only [List.filterMap_cons, GroupMember.taken?, GroupMember.class?, List.map_cons,
        ImportClause.declareAll_cons]
      apply ih _ absent
      simp only [group.declaredIn_qualified, Imports.getElem?_declare, same]
    | function word name marks named => exact ih same absent
    | constant word name plain marks named =>
      simp only [List.filterMap_cons, GroupMember.constantWord?, List.mem_cons, not_or] at absent
      simp only [List.filterMap_cons, GroupMember.taken?, GroupMember.class?, List.map_cons,
        ImportClause.declareAll_cons]
      apply ih _ absent.2
      simp only [group.declaredIn_qualified, ImportClause.short, Option.map_none]
      rw [group.getElem?_constant marks, if_neg (Ne.symm absent.1), same]

/-- What is imported under a name stays or is replaced. -/
theorem isSome_declareAll (clauses : List ImportClause) {imports : Imports} {key : String}
    (known : imports[key]?.isSome = true) :
    (ImportClause.declareAll clauses imports)[key]?.isSome = true := by
  induction clauses generalizing imports with
  | nil => exact known
  | cons clause rest ih =>
    rw [ImportClause.declareAll_cons]
    apply ih
    rw [ImportClause.declaredIn, Imports.getElem?_declare]
    split
    · rfl
    · exact known

theorem isSome_constant (members : List GroupMember) (imports : Imports) {word : String}
    (among : word ∈ members.filterMap (·.constantWord?)) :
    (ImportClause.declareAll ((members.filterMap (·.taken?)).map group.qualified)
      imports)[word]?.isSome = true := by
  induction members generalizing imports with
  | nil => cases among
  | cons member rest ih =>
    cases member with
    | imported clause begins =>
      simp only [List.filterMap_cons, GroupMember.taken?, List.map_cons,
        ImportClause.declareAll_cons]
      exact ih _ among
    | function token name marks named => exact ih _ among
    | constant token name plain marks named =>
      simp only [List.filterMap_cons, GroupMember.taken?, List.map_cons,
        ImportClause.declareAll_cons]
      rcases List.mem_cons.mp among with rfl | later
      · apply isSome_declareAll
        simp only [group.declaredIn_qualified, ImportClause.short, Option.map_none]
        rw [group.getElem?_constant marks, if_pos rfl, Option.isSome_some]
      · exact ih _ later

theorem taken_eq_classes (none : group.constantWords = []) : group.taken = group.classes := by
  have same : ∀ member ∈ group.members, member.taken? = member.class? := by
    intro member among
    have unmarked := List.filterMap_eq_nil_iff.mp none member among
    cases member with
    | imported clause begins => rfl
    | function word name marks named => rfl
    | constant word name plain marks named => cases unmarked
  rw [taken, classes, List.filterMap_congr same]

end ImportGroup

/-! ### Groups and their expansions -/

/-- A group of imports stands for one statement per class. Read at the top level with the same
imports before them, the two leave the same imports but for the words that mark constants: those the
group imports as well. -/
theorem group_means_expansion (group : ImportGroup) (before after front back : List Token)
    (symbols other : Symbols) :
    let grouped := Nesting.ofTokens (before ++ (group.tokens ++ after))
    let expanded := Nesting.ofTokens (front ++ (group.expansion ++ back))
    TopLevel grouped before.length symbols → TopLevel expanded front.length other →
    symbols.imports = other.imports →
    let here := (passUpTo grouped (before.length + group.tokens.length)).symbols
    let there := (passUpTo expanded (front.length + group.expansion.length)).symbols
    here = { symbols with imports := ImportClause.declareAll group.taken symbols.imports } ∧
      there = { other with imports := ImportClause.declareAll group.classes other.imports } ∧
      (group.constantWords = [] → here.imports = there.imports) ∧
      (∀ short, short ∉ group.constantWords → here.imports[short]? = there.imports[short]?) ∧
      (∀ word ∈ group.constantWords, here.imports[word]?.isSome = true) := by
  intro grouped expanded top top' same here there
  have imported : here =
      { symbols with imports := ImportClause.declareAll group.taken symbols.imports } := by
    simp only [here, group.passUpTo_tokens top rfl]
  have imported' : there =
      { other with imports := ImportClause.declareAll group.classes other.imports } := by
    apply top'.import_all group.uses group.stops _ rfl
    intro clause among
    obtain ⟨member, -, rfl⟩ := List.mem_map.mp among
    exact group.lower_qualified member
  rw [imported, imported']
  refine ⟨rfl, rfl, ?_, ?_, ?_⟩
  · intro none
    simp only [group.taken_eq_classes none, same]
  · intro short absent
    exact group.getElem?_elsewhere group.members (by rw [same]) absent
  · intro word among
    exact group.isSome_constant group.members _ among

/-- `use P\{A, const N, B as C};` and `use P\A; use P\B as C;`. -/
theorem group_with_constant_and_alias :
    let token (kind : Kind) (text : String) : Token := { kind, text, start := 0 }
    let class_ : ImportClause :=
      { name := token .identifier "A", given := none, named := rfl, renames := by simp }
    let renamed : ImportClause :=
      { name := token .identifier "B", given := some (token .keyword "as", token .identifier "C"),
        named := rfl, renames := by decide }
    let members : List GroupMember :=
      [.imported class_ (by decide),
        .constant (token .identifier "const") (token .identifier "N") rfl (by decide) rfl,
        .imported renamed (by decide)]
    ∃ group : ImportGroup, group.members = members ∧ group.space = "P" ∧
      let grouped := Nesting.ofTokens group.tokens
      let expanded := Nesting.ofTokens group.expansion
      group.tokens.map (·.text) = ["use", "P\\", "\x7b", "A", ",", "const", "N", ",", "B", "as",
        "C", "\x7d", ";"] ∧
      group.expansion.map (·.text) = ["use", "P\\A", ";", "use", "P\\B", "as", "C", ";"] ∧
      TopLevel grouped 0 {} ∧ TopLevel expanded 0 {} ∧
      (∀ short, short ≠ "const" → (passUpTo grouped 13).symbols.imports[short]? =
        (passUpTo expanded 8).symbols.imports[short]?) ∧
      (passUpTo grouped 13).symbols.imports["const"]?.isSome = true := by
  intro token class_ renamed members
  let comma := token .operator ","
  let inner := class_.tokens ++ comma ::
    ([token .identifier "const", token .identifier "N"] ++ comma :: renamed.tokens)
  have listed : Listed members inner :=
    .next _ (by decide) (.next _ (by decide) (.last (.imported renamed (by decide))))
  let group : ImportGroup :=
    { word := token .keyword "use"
      front := token .identifier "P\\"
      space := "P"
      members
      braces :=
        { opener := token .opener "\x7b", inner, closer := token .closer "\x7d",
          opens := by decide, inside := .of_plain listed.plain, closes := by decide }
      stop := token .operator ";"
      uses := by decide
      named := rfl
      spaced := by decide
      ends := by decide
      listed
      stops := by decide }
  have top : TopLevel (Nesting.ofTokens group.tokens) 0 {} := ⟨rfl, rfl, rfl⟩
  have top' : TopLevel (Nesting.ofTokens group.expansion) 0 {} := ⟨rfl, rfl, rfl⟩
  have length : group.tokens.length = 13 := rfl
  have length' : group.expansion.length = 8 := rfl
  have read := group_means_expansion group [] [] [] [] {} {}
  simp only [List.nil_append, List.append_nil, List.length_nil, Nat.zero_add, length, length'] at read
  obtain ⟨-, -, -, elsewhere, marked⟩ := read top top' trivial
  refine ⟨group, rfl, rfl, rfl, rfl, top, top', ?_, ?_⟩
  · intro short other
    apply elsewhere short
    exact List.mem_singleton.not.mpr other
  · exact marked "const" (List.mem_singleton.mpr rfl)

/-- The word in front of a constant is imported as a class. -/
theorem constant_word_imported :
    let nesting := Nesting.ofTokens (Token.logical (Token.scan "use P\\\x7bconst N\x7d;"))
    (ofNesting nesting).imports.toList = [("const", "P\\const")] := by
  decide +kernel

end CursorContext.Symbols
