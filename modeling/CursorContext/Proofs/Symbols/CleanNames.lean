import CursorContext.Proofs.Symbols.LastImport

/-!
Names without separators at their ends. Names come into the table from a namespace, from a name that
is imported alone or in a group, and under a short name of its own, and they may still be in the
middle of being written. In whatever way they come, the table holds no name that is empty or has a
separator at an end, and so no class name is resolved to one.
-/
namespace CursorContext

namespace Text

variable {p : Char → Bool}

theorem head?_trimList (cs : List Char) : ∀ c ∈ (trimList p cs).head?, p c = false := by
  intro c first
  obtain ⟨rest, parts⟩ := List.rdropWhile_prefix p (cs.dropWhile p)
  have begins : (cs.dropWhile p).head? = some c := by
    rw [← parts, List.head?_append]
    exact congrArg (Option.or · rest.head?) first
  have stops := List.head?_dropWhile_not p cs
  rw [begins] at stops
  simpa using stops

theorem getLast?_rdropWhile (cs : List Char) : ∀ c ∈ (cs.rdropWhile p).getLast?, p c = false := by
  intro c last
  have some : cs.rdropWhile p ≠ [] := by
    intro empty
    simp [empty] at last
  have stops := List.rdropWhile_last_not p cs some
  rw [List.getLast?_eq_some_getLast some] at last
  cases last
  simpa using stops

end Text

/-! ### Names -/

namespace Name

/-- There is something in a name, and no separator at its ends. -/
structure Clean (name : String) : Prop where
  written : name ≠ ""
  begins : name.toList.head? ≠ some '\\'
  ends : name.toList.getLast? ≠ some '\\'

theorem ne_of_isSeparator {found : Option Char} (other : ∀ c ∈ found, isSeparator c = false) :
    found ≠ some '\\' := by
  rintro rfl
  cases other '\\' rfl

theorem clean_trim {name : String} (written : trim name ≠ "") : Clean (trim name) where
  written
  begins := by
    rw [trim, String.toList_ofList]
    exact ne_of_isSeparator (Text.head?_trimList _)
  ends := by
    rw [trim, String.toList_ofList]
    exact ne_of_isSeparator (Text.getLast?_rdropWhile _)

theorem trim_eq_empty_iff (name : String) : trim name = "" ↔ ∀ c ∈ name.toList, c = '\\' := by
  constructor
  · intro empty c member
    by_contra other
    have left := Text.trimList_ne_nil member (isSeparator_eq_false other)
    exact left (by simpa [trim] using empty)
  · intro all
    have none : name.toList.dropWhile isSeparator = [] :=
      List.dropWhile_eq_nil_iff.mpr fun c member => by simp [isSeparator, all c member]
    rw [trim, Text.trimList, none]
    rfl

theorem ends_trimEnd (name : String) : (trimEnd name).toList.getLast? ≠ some '\\' := by
  rw [trimEnd, String.toList_ofList]
  exact ne_of_isSeparator (Text.getLast?_rdropWhile _)

theorem trimEnd_eq_trim {name : String} (begins : name.toList.head? ≠ some '\\') :
    trimEnd name = trim name := by
  rw [trim, Text.trimList_of_head (isSeparator_head begins)]
  rfl

/-- A clean name has a segment at its end. -/
theorem lastSegment_ne_empty {name : String} (clean : Clean name) : lastSegment name ≠ "" := by
  obtain ⟨front, c, parts⟩ :=
    (List.eq_nil_or_concat name.toList).resolve_left (by simpa using clean.written)
  rw [List.concat_eq_append] at parts
  -- The last character is no separator, so it belongs to the segment.
  have ends := clean.ends
  rw [parts, List.getLast?_concat] at ends
  have other : isSeparator c = false := isSeparator_eq_false fun same => ends (by rw [same])
  rw [lastSegment, parts, List.reverse_append, List.reverse_singleton, List.singleton_append,
    List.takeWhile_cons_of_pos (by simp [other])]
  simp

/-- What follows the first segment of a name may be put behind a clean one. -/
theorem Clean.append_afterFirst {full name : String} (clean : Clean full)
    (ends : name.toList.getLast? ≠ some '\\') : Clean (full ++ afterFirst name) := by
  have some : full.toList ≠ [] := by simpa using clean.written
  have parts : (full ++ afterFirst name).toList =
      full.toList ++ name.toList.dropWhile (!isSeparator ·) := by
    rw [String.toList_append, afterFirst, String.toList_ofList]
  refine ⟨?_, ?_, ?_⟩
  · intro empty
    rw [empty] at parts
    exact some (List.append_eq_nil_iff.mp parts.symm).1
  · rw [parts, List.head?_append_of_ne_nil _ some]
    exact clean.begins
  · rw [parts]
    by_cases rest : name.toList.dropWhile (!isSeparator ·) = []
    · rw [rest, List.append_nil]
      exact clean.ends
    · -- The rest of a name ends as the whole name does.
      rw [List.getLast?_append_of_ne_nil _ rest]
      rw [← List.takeWhile_append_dropWhile (p := (!isSeparator ·)) (l := name.toList),
        List.getLast?_append_of_ne_nil _ rest] at ends
      exact ends

theorem eq_of_nonEmpty? {name found : String} (kept : nonEmpty? name = some found) :
    found = name ∧ name ≠ "" := by
  unfold nonEmpty? at kept
  split at kept
  · cases kept
  next some =>
    cases kept
    exact ⟨rfl, by simpa using some⟩

/-- A name that is trimmed and kept only if something is left is clean. -/
theorem clean_of_nonEmpty? {name found : String} (kept : nonEmpty? (trim name) = some found) :
    Clean found := by
  obtain ⟨rfl, written⟩ := eq_of_nonEmpty? kept
  exact clean_trim written

end Name

/-! ### Imports -/

namespace Imports

/-- No short name is empty, and each stands for a clean name. -/
def Clean (imports : Imports) : Prop :=
  ∀ short full, imports[short]? = some full → short ≠ "" ∧ Name.Clean full

theorem clean_empty : Clean {} := by
  intro short full found
  simp at found

theorem shortOf_ne_empty {name key : String} {short : Option String}
    (named : shortOf name short = some key) : key ≠ "" := by
  obtain ⟨full, kept, rfl⟩ := Option.map_eq_some_iff.mp named
  -- A short name that is given but empty counts as none, and then the last segment is taken.
  cases given : short.bind Name.nonEmpty? with
  | none => exact Name.lastSegment_ne_empty (Name.clean_of_nonEmpty? kept)
  | some own =>
    obtain ⟨other, -, found⟩ := Option.bind_eq_some_iff.mp given
    obtain ⟨rfl, written⟩ := Name.eq_of_nonEmpty? found
    exact written

theorem Clean.declare {imports : Imports} (clean : imports.Clean) (name : String)
    (short : Option String) : (imports.declare name short).Clean := by
  intro key full found
  rw [getElem?_declare] at found
  split at found
  next named =>
    obtain rfl := Option.some.inj found
    obtain ⟨kept, left, -⟩ := Option.map_eq_some_iff.mp named
    exact ⟨shortOf_ne_empty named, Name.clean_trim (Name.eq_of_nonEmpty? left).2⟩
  next => exact clean key full found

end Imports

/-! ### Resolved names -/

namespace Symbols

variable {imports : Imports}

theorem clean_importedName (clean : imports.Clean) {name full : String}
    (begins : name.toList.head? ≠ some '\\') (found : importedName imports name = some full) :
    Name.Clean full := by
  unfold importedName at found
  dsimp only at found
  split at found
  next value known =>
    cases found
    exact (clean _ _ known).2.append_afterFirst (Name.ends_trimEnd name)
  next =>
    rw [Name.trimEnd_eq_trim begins] at found
    exact Name.clean_of_nonEmpty? found

theorem importedName_eq_none_iff (clean : imports.Clean) {name : String}
    (begins : name.toList.head? ≠ some '\\') : importedName imports name = none ↔ name = "" := by
  constructor
  · intro unresolved
    by_contra written
    unfold importedName at unresolved
    dsimp only at unresolved
    split at unresolved
    · cases unresolved
    · simp [Name.nonEmpty?, Name.trimEnd_ne_empty written begins] at unresolved
  · rintro rfl
    -- Nothing is imported under the empty name.
    have unknown : imports[Name.firstSegment (Name.trimEnd "")]? = none := by
      refine Option.eq_none_iff_forall_not_mem.mpr fun full known => ?_
      exact (clean _ full known).1 (by decide)
    unfold importedName
    dsimp only
    rw [unknown]
    rfl

theorem fullNameOf_reserved {name : String} (reserved : Text.lower name ∈ reservedNames)
    (imports : Imports) : fullNameOf imports none name = none := by
  have begins : name.toList.head? ≠ some '\\' := fun first =>
    lower_notMem_reservedNames (List.mem_of_head? first) reserved
  simp only [reservedNames, List.mem_cons] at reserved
  unfold fullNameOf
  rw [if_neg (by simpa using begins)]
  dsimp only
  split
  · rfl
  next other =>
    split
    · rfl
    next other' =>
      simp only [Bool.or_eq_true, beq_iff_eq, not_or] at other other'
      have builtin := ((reserved.resolve_left other.1).resolve_left other.2).resolve_left other'
      rw [if_pos (by simpa using builtin)]

theorem fullNameOf_full {name : String} (begins : name.toList.head? = some '\\')
    (imports : Imports) (current : Option ClassDef) :
    fullNameOf imports current name = Name.nonEmpty? (Name.trim name) := by
  simp [fullNameOf, begins]

/-- Outside of a class a name is resolved unless there is nothing in it or it is reserved. -/
theorem fullNameOf_eq_none_iff (clean : imports.Clean) (name : String) :
    fullNameOf imports none name = none ↔
      (∀ c ∈ name.toList, c = '\\') ∨ Text.lower name ∈ reservedNames := by
  by_cases begins : name.toList.head? = some '\\'
  · have plain := lower_notMem_reservedNames (List.mem_of_head? begins)
    rw [fullNameOf_full begins, ← Name.trim_eq_empty_iff]
    simp [Name.nonEmpty?, plain]
  · by_cases reserved : Text.lower name ∈ reservedNames
    · simp [fullNameOf_reserved reserved, reserved]
    · rw [fullNameOf_eq_importedName begins reserved, importedName_eq_none_iff clean begins]
      constructor
      · rintro rfl
        exact .inl (by simp)
      · rintro (all | plain)
        · by_contra written
          obtain ⟨c, rest, parts⟩ := List.exists_cons_of_ne_nil
            (show name.toList ≠ [] by simpa using written)
          rw [parts] at begins all
          exact begins (congrArg some (all c List.mem_cons_self))
        · exact absurd plain reserved

theorem clean_fullNameOf (clean : imports.Clean) {name full : String}
    (found : fullNameOf imports none name = some full) : Name.Clean full := by
  by_cases begins : name.toList.head? = some '\\'
  · rw [fullNameOf_full begins] at found
    exact Name.clean_of_nonEmpty? found
  · by_cases reserved : Text.lower name ∈ reservedNames
    · rw [fullNameOf_reserved reserved] at found
      cases found
    · rw [fullNameOf_eq_importedName begins reserved] at found
      exact clean_importedName clean begins found

/-! ### The table -/

variable {nesting : Nesting} {symbols : Symbols}

/-- The namespace and the names imported are clean. -/
structure CleanNames (symbols : Symbols) : Prop where
  space : ∀ space, symbols.space = some space → Name.Clean space
  imports : symbols.imports.Clean

namespace CleanNames

theorem empty : CleanNames {} := ⟨by simp, Imports.clean_empty⟩

theorem of_names {next : Symbols} (clean : CleanNames symbols) (same : next.names = symbols.names) :
    CleanNames next := by
  have space : next.space = symbols.space := congrArg Prod.fst same
  have imports : next.imports = symbols.imports := congrArg Prod.snd same
  exact ⟨space ▸ clean.space, imports ▸ clean.imports⟩

theorem enterNamespace (clean : CleanNames symbols) (place : Place) :
    CleanNames (enterNamespace place symbols).symbols := by
  unfold Symbols.enterNamespace
  split
  · exact clean
  · split
    · refine ⟨?_, Imports.clean_empty⟩
      dsimp only
      intro space kept
      exact Name.clean_of_nonEmpty? kept
    · split
      · exact ⟨by simp, Imports.clean_empty⟩
      · exact clean

theorem beginImport (clean : CleanNames symbols) (place : Place) :
    CleanNames (beginImport nesting place symbols).symbols := by
  unfold Symbols.beginImport
  split
  · exact clean
  · split <;> exact clean

theorem importGroup {imports : Imports} (clean : imports.Clean) (place : Place) (group : Frame) :
    (importGroup nesting place group imports).Clean := by
  unfold Symbols.importGroup
  dsimp only
  generalize groupMembers _ _ _ = members
  induction members generalizing imports with
  | nil => exact clean
  | cons member rest ih =>
    -- The name in front may be nothing but separators; they are cut off with the whole name.
    obtain ⟨name, short⟩ := member
    rw [List.foldl_cons]
    exact ih (clean.declare (Name.trim place.here.text ++ "\\" ++ Name.trim name) short)

theorem importName (clean : CleanNames symbols) (place : Place) :
    CleanNames (importName nesting place symbols).symbols := by
  unfold Symbols.importName
  dsimp only
  split
  next group _ => exact ⟨clean.space, importGroup clean.imports place group⟩
  · refine ⟨clean.space, ?_⟩
    dsimp only
    exact clean.imports.declare place.here.text (givenName? place.after)

theorem readStatement (clean : CleanNames symbols) (place : Place) :
    CleanNames (readStatement nesting place symbols).symbols := by
  -- Of all words only these two change the names.
  cases word : place.here.isKeyword ["namespace", "use"] with
  | false => exact clean.of_names (names_readStatement word symbols)
  | true =>
    have left : CleanNames (symbols.leave nesting place.index place.here) := clean.of_names rfl
    simp only [Token.isKeyword, Bool.and_eq_true, beq_iff_eq, List.contains_cons,
      List.contains_nil, Bool.or_false, Bool.or_eq_true] at word
    obtain ⟨keyword, space | use⟩ := word
    · simp only [Symbols.readStatement, keyword, readKeyword, space, beq_self_eq_true, if_true]
      exact left.enterNamespace place
    · have other : ("use" == "namespace") = false := by decide
      simp only [Symbols.readStatement, keyword, readKeyword, use, other, beq_self_eq_true, if_true,
        Bool.false_eq_true, if_false]
      exact left.beginImport place

theorem readImport (clean : CleanNames symbols) (place : Place) :
    CleanNames (readImport nesting place symbols).symbols := by
  unfold Symbols.readImport
  split
  · exact clean
  · split
    · exact clean.importName place
    · split
      · exact clean
      · exact clean.readStatement place

theorem visit {pass : Pass} (clean : CleanNames pass.symbols) (place : Place) :
    CleanNames (visit nesting pass place).symbols := by
  unfold Symbols.visit
  split
  · exact clean
  · split
    · exact clean.readImport place
    · exact clean.readStatement place

theorem foldl_visit (places : List Place) {pass : Pass} (clean : CleanNames pass.symbols) :
    CleanNames (places.foldl (Symbols.visit nesting) pass).symbols := by
  induction places generalizing pass with
  | nil => exact clean
  | cons place rest ih => exact ih (clean.visit place)

end CleanNames

/-- After any tokens, be they a whole text or one still being written: the namespace, if there is one,
and all that is imported are clean names, and nothing is imported under the empty name. With these
imports, outside of a class, every name is resolved to a clean name except those in which there is
nothing but separators and the reserved ones, which are not resolved at all. -/
theorem resolved_names_clean (nesting : Nesting) :
    (∀ space, (ofNesting nesting).space = some space → Name.Clean space) ∧
    (∀ short full, (ofNesting nesting).imports[short]? = some full →
      short ≠ "" ∧ Name.Clean full) ∧
    ∀ name,
      (fullNameOf (ofNesting nesting).imports none name = none ↔
        (∀ c ∈ name.toList, c = '\\') ∨ Text.lower name ∈ reservedNames) ∧
      ∀ full, fullNameOf (ofNesting nesting).imports none name = some full → Name.Clean full := by
  have clean : CleanNames (ofNesting nesting) := CleanNames.empty.foldl_visit _
  refine ⟨clean.space, clean.imports, ?_⟩
  intro name
  exact ⟨fullNameOf_eq_none_iff clean.imports name, fun full => clean_fullNameOf clean.imports⟩

/-- Names with separators at their ends, alone and in a group, the last of them still being written. -/
theorem resolved_names_clean_unfinished :
    let table := ofNesting (.ofTokens (Token.logical (Token.scan
      "namespace N\\; use \\A\\B\\, C\\\x7bD, E as F\x7d; use H\\I\\")))
    (table.space = some "N" ∧ Name.Clean "N") ∧
      (table.imports["F"]? = some "C\\E" ∧ Name.Clean "C\\E") ∧
      (table.imports["I"]? = some "H\\I" ∧ Name.Clean "H\\I") ∧
      (fullNameOf table.imports none "B\\X\\" = some "A\\B\\X" ∧ Name.Clean "A\\B\\X") ∧
      fullNameOf table.imports none "\\\\" = none := by
  intro table
  have computed : table.space = some "N" ∧ table.imports["F"]? = some "C\\E" ∧
      table.imports["I"]? = some "H\\I" ∧
      fullNameOf table.imports none "B\\X\\" = some "A\\B\\X" := by decide +kernel
  obtain ⟨space, group, last, resolved⟩ := computed
  obtain ⟨spaces, imports, names⟩ := resolved_names_clean (.ofTokens (Token.logical (Token.scan
    "namespace N\\; use \\A\\B\\, C\\\x7bD, E as F\x7d; use H\\I\\")))
  have separators : ∀ c ∈ "\\\\".toList, c = '\\' := by simp
  exact ⟨⟨space, spaces _ space⟩, ⟨group, (imports _ _ group).2⟩, ⟨last, (imports _ _ last).2⟩,
    ⟨resolved, (names _).2 _ resolved⟩, (names _).1.mpr (.inl separators)⟩

end Symbols

end CursorContext
