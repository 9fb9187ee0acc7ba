import CursorContext.Proofs.Argument.Inside
import CursorContext.Proofs.CursorCall
import CursorContext.Proofs.Token.Brackets
import CursorContext.Proofs.Token.Heredoc

/-!
How the fields of a context go together. The name of the function, the arguments before the cursor,
the place in an array and the classes come from different parts of the analysis, but readers of a
context rely on their joint shape: the slot counts the arguments, a key is only spoken of in an
array, and a class is told as a whole or not at all.
-/
namespace CursorContext

/-! ### Names have a letter -/

namespace Lexeme

/-- An identifier has a character with which a name can begin. -/
theorem nameStart_of_identifier? {c : Char} {rest : List Char} {found : Lexeme}
    (there : identifier? c rest = some found) :
    ∃ d ∈ c :: rest.take found.more, Text.isNameStart d = true := by
  unfold identifier? at there
  split at there
  next begins =>
    cases there
    rcases Bool.or_eq_true_iff.mp begins with first | second
    · exact ⟨c, List.mem_cons_self, first⟩
    · -- After a backslash the name begins with the second character, which the lexeme includes.
      have starts := (Bool.and_eq_true_iff.mp second).2
      cases rest with
      | nil => cases starts
      | cons d rest =>
        obtain ⟨more, length⟩ := Nat.exists_eq_succ_of_ne_zero (nameLength_pos starts).ne'
        refine ⟨d, List.mem_cons_of_mem _ ?_, starts⟩
        rw [length, List.take_succ_cons]
        exact List.mem_cons_self
  · cases there

end Lexeme

namespace Token

theorem nameStart_ofLexeme {carry : Carry} {start : Nat} {c : Char} {rest : List Char}
    (identifier : (ofLexeme carry start c rest (lexemeAfter carry c rest)).kind = .identifier) :
    ∃ d ∈ (ofLexeme carry start c rest (lexemeAfter carry c rest)).text.toList,
      Text.isNameStart d = true := by
  have kind : (lexemeAfter carry c rest).kind = .identifier := by
    unfold ofLexeme at identifier
    dsimp only at identifier
    split at identifier
    · cases identifier
    · exact identifier
  have found := lexemeAfter_eq_lexeme (show (lexemeAfter carry c rest).kind ≠ .inlineHtml by
    simp [kind])
  rw [found] at kind ⊢
  simpa [ofLexeme] using Lexeme.nameStart_of_identifier? (Lexeme.identifier?_of_kind kind)

theorem nameStart_of_mem_scan {source : String} {token : Token} (member : token ∈ scan source)
    (identifier : token.kind = .identifier) :
    ∃ d ∈ token.text.toList, Text.isNameStart d = true := by
  obtain ⟨carry, start, c, rest, rfl⟩ := ofLexeme_of_mem_scanFrom member
  exact nameStart_ofLexeme identifier

end Token

/-- Without its leading backslashes, a text with a name in it is not empty. -/
theorem Name.trimStart_ne_empty {text : String} {d : Char} (member : d ∈ text.toList)
    (start : Text.isNameStart d = true) : Name.trimStart text ≠ "" := by
  have other : d ≠ '\\' := Lexeme.ne_of_isNameStart start (by decide)
  intro empty
  have nothing : text.toList.dropWhile Name.isSeparator = [] := by
    have chars := congrArg String.toList empty
    simpa [Name.trimStart] using chars
  have separator := List.dropWhile_eq_nil_iff.mp nothing d member
  simp [Name.isSeparator, other] at separator

/-! ### The fields of a context -/

namespace Context

/-- The class the function is called on, as it is written. -/
def className (context : Context) : Option String := context.receiver.map (·.written)

/-- The full name of the class the function is called on. -/
def classFullName (context : Context) : Option String := context.receiver.map (·.fullName)

/-- The full name of the class around the cursor. -/
def classDefinition (context : Context) : Option String := context.aroundClass.map (·.fullName)

def classExtends (context : Context) : Option String := context.aroundClass.bind (·.base)

def classImplements (context : Context) : List String :=
  (context.aroundClass.map (·.interfaces)).getD []

theorem function_ne_empty {buffer : String} {context : Context}
    (found : ofBuffer buffer = some context) : context.function ≠ "" := by
  have function : (ofBuffer buffer).map (·.function) = some context.function := by simp [found]
  obtain ⟨-, frame, head, name, -, -, -, placed, identifier, equal⟩ :=
    (function_ofBuffer_iff buffer _).mp function
  rw [equal]
  split
  · decide
  · have member : name ∈ Token.scan buffer := List.mem_of_mem_filter (List.mem_of_getElem? placed)
    obtain ⟨d, among, start⟩ := Token.nameStart_of_mem_scan member identifier
    exact Name.trimStart_ne_empty among start

/-- The arguments are those of one frame of the buffer. -/
theorem call_of_ofBuffer {buffer : String} {context : Context}
    (found : ofBuffer buffer = some context) :
    let nesting := Nesting.ofTokens (Token.logical (Token.scan buffer))
    ∃ frame, context.slot = (nesting.arguments frame).slot ∧
      context.parameters = (nesting.arguments frame).earlier := by
  simp only [ofBuffer, Nesting.context?, Option.bind_eq_bind, Option.bind_eq_some_iff] at found
  obtain ⟨frame, -, head, -, called, -, built⟩ := found
  cases built
  exact ⟨frame, rfl, rfl⟩

theorem arguments_of_ofBuffer {buffer : String} {context : Context}
    (found : ofBuffer buffer = some context) :
    ∃ nesting frame, context.slot = (Nesting.arguments nesting frame).slot ∧
      context.parameters = (Nesting.arguments nesting frame).earlier :=
  ⟨_, call_of_ofBuffer found⟩

/-- The joint shape of a context's fields, for every buffer that has one. -/
theorem fields_consistent {buffer : String} {context : Context}
    (found : ofBuffer buffer = some context) :
    context.function ≠ "" ∧
    context.slot.index = context.parameters.length ∧
    (context.className = none ↔ context.classFullName = none) ∧
    (context.slot.isArray = false →
      context.slot.isKey = false ∧ context.slot.key = none ∧ context.slot.keys = []) ∧
    (context.slot.isKey = true → context.slot.isArray = true ∧ context.slot.key = none) ∧
    (context.classDefinition = none →
      context.classExtends = none ∧ context.classImplements = []) := by
  obtain ⟨nesting, frame, slot, parameters⟩ := arguments_of_ofBuffer found
  obtain ⟨index, consistent⟩ := Nesting.arguments_slot nesting frame
  rw [← slot] at index consistent
  rw [← parameters] at index
  refine ⟨function_ne_empty found, index, ?_, consistent.plain, consistent.key, ?_⟩
  · simp [className, classFullName]
  · intro outside
    have none : context.aroundClass = none := Option.map_eq_none_iff.mp outside
    simp [classExtends, classImplements, none]

/-- The cursor is at a key of an array that is an argument of a method. -/
theorem fields_consistent_at_key :
    let buffer := "$this->get(1, ['a' => 2, 'b"
    ∃ context, ofBuffer buffer = some context ∧
      (context.slot.isKey = true ∧ context.slot.isArray = true ∧ context.slot.key = none) ∧
      context.function ≠ "" ∧ context.slot.index = context.parameters.length := by
  intro buffer
  have isKey : (ofBuffer buffer).any (·.slot.isKey) = true := by decide +kernel
  obtain ⟨context, found, key⟩ := (Option.any_eq_true _ _).mp isKey
  obtain ⟨named, index, -, -, keyed, -⟩ := fields_consistent found
  exact ⟨context, found, ⟨key, keyed key⟩, named, index⟩

end Context

end CursorContext
