import CursorContext.Proofs.Argument.Continued
import CursorContext.Proofs.ContextFields
import CursorContext.Proofs.Position
import CursorContext.Proofs.Token.Tiling
import CursorContext.Session

/-!
The two answers about a position. A signature is shown exactly where a command is told a context. Its
slots are the arguments of that context and one more, which is the active one. The two requests read
their values in different ways: a command converts what it is given, a position holds what the
exchange takes. What a position holds, a command reads as the same number. Each argument takes up
characters, so an exchange that takes the numbers up to the length of a document shows every
signature in it.
-/
namespace CursorContext

/-! ### The number of arguments -/

theorem Pieces.length_completed (start stop : Nat) (commas : List Nat) :
    (ofCommas start stop commas).completed.length = commas.length := by
  induction commas generalizing start with
  | nil => rfl
  | cons comma rest ih => exact congrArg (· + 1) (ih (comma + 1))

/-- Each earlier argument has its comma. -/
theorem Nesting.length_earlier_le (nesting : Nesting) (frame : Frame) :
    (nesting.arguments frame).earlier.length ≤ nesting.tokens.size := by
  rw [earlier_arguments, List.length_map, Pieces.length_completed, commasIn]
  have few := List.length_filter_le (fun index => nesting.operatorAt "," index &&
    nesting.enclosing index == some frame.opener)
    (List.range' (frame.opener + 1) (nesting.tokens.size - (frame.opener + 1)))
  rw [List.length_range'] at few
  omega

namespace Exchange

/-- Messages that hold the whole numbers from zero up to a limit. -/
def below (limit : Nat) : Exchange where
  position
    | .integer number => if 0 ≤ number ∧ number < limit then some number else none
    | _ => none
  slot number := 0 ≤ number ∧ number < limit

theorem keeps_below (limit : Nat) : (below limit).Keeps := by
  intro value number held
  cases value with
  | integer value =>
    obtain ⟨-, same⟩ := Option.ite_none_right_eq_some.mp held
    exact congrArg Except.ok (Option.some.inj same)
  | null | flag | decimal | infinite | undefined | text | list | record => cases held

end Exchange

namespace Context

theorem index_eq_length {buffer : String} {context : Context}
    (found : ofBuffer buffer = some context) :
    context.slot.index = context.parameters.length := by
  obtain ⟨nesting, frame, slot, parameters⟩ := arguments_of_ofBuffer found
  rw [slot, parameters]
  exact (Nesting.arguments_slot nesting frame).1

theorem length_parameters_le {buffer : String} {context : Context}
    (found : ofBuffer buffer = some context) : context.parameters.length ≤ buffer.length := by
  obtain ⟨frame, -, parameters⟩ := call_of_ofBuffer found
  rw [parameters]
  refine (Nesting.length_earlier_le _ frame).trans ?_
  rw [Nesting.tokens_ofTokens, List.size_toArray]
  exact Token.length_logical_scan_le buffer

theorem signature_of_slot {exchange : Exchange} {context : Context}
    (taken : exchange.slot context.slot.index = true) :
    ∃ label, context.signature exchange = .ok
      { label
        slots := context.parameters ++ [Signature.placeholder]
        active := context.slot.index } := by
  rw [signature, Signature.build, if_pos taken]
  exact ⟨_, rfl⟩

theorem signature_of_no_slot {exchange : Exchange} {context : Context}
    (refused : exchange.slot context.slot.index = false) :
    context.signature exchange = .error .notExchanged := by
  rw [signature, Signature.build, if_neg (by simp [refused])]

end Context

namespace Session

/-! ### The context at a position -/

/-- A request fails exactly if the units of the line asked about cannot be counted. -/
theorem contextAt_eq_error_iff {documents : Documents} {address : String} {line character : Int}
    {refusal : Refusal} :
    contextAt documents address line character = .error refusal ↔
      refusal = .unencodable ∧ ∃ text, documents[address]? = some text ∧
        Position.offsetOf text line character = .error .unencodable := by
  rw [contextAt]
  cases documents[address]? with
  | none => simp
  | some text =>
    cases offset : Position.offsetOf text line character with
    | ok => simp [Position.atPosition_of_offsetOf offset, offset]
    | error error =>
      have failed := Position.atPosition_of_error offset
      cases error with
      | outside => simp [failed, offset]
      | unencodable => simp [failed, offset, eq_comm]

/-- A context is that of the text before an offset of the document. -/
theorem ofDocument_of_contextAt {documents : Documents} {address : String} {line character : Int}
    {context : Context} (found : contextAt documents address line character = .ok (some context)) :
    ∃ text offset, documents[address]? = some text ∧
      Context.ofDocument (text.take offset) = some context := by
  rw [contextAt] at found
  cases there : documents[address]? with
  | none => simp [there] at found
  | some text =>
    cases offset : Position.offsetOf text line character with
    | ok offset' =>
      simp only [there, Position.atPosition_of_offsetOf offset, Except.ok.injEq] at found
      exact ⟨text, offset', rfl, found⟩
    | error error =>
      -- A position without an offset leads to no context.
      have failed := Position.atPosition_of_error offset
      cases error <;> simp [there, failed] at found

/-! ### The two requests -/

theorem command_eq (documents : Documents) {address : String} {line character : Value}
    {row column : Int} {arguments : List Value}
    (asks : unpack arguments = [.text address, line, character])
    (rowRead : line.toInteger = .ok row) (columnRead : character.toInteger = .ok column) :
    command documents arguments = contextAt documents address row column := by
  rw [command, asks]
  simp only [rowRead, columnRead]
  rfl

theorem signature_eq {exchange : Exchange} (documents : Documents) (address : String)
    {line character : Value} {row column : Int} (rowHeld : exchange.position line = some row)
    (columnHeld : exchange.position character = some column) :
    signature exchange documents address line character =
      (contextAt documents address row column).bind (signatureOf exchange) := by
  rw [signature, Exchange.readPosition, Exchange.readPosition, rowHeld, columnHeld]
  rfl

/-- A signature that cannot be sent is refused, which is not the same as showing none. -/
theorem bind_signatureOf_eq_none_iff {exchange : Exchange}
    {told : Except Refusal (Option Context)} :
    told.bind (signatureOf exchange) = .ok none ↔ told = .ok none := by
  cases told with
  | error => simp [Except.bind]
  | ok found =>
    cases found with
    | none => simp [Except.bind, signatureOf]
    | some context =>
      cases built : context.signature exchange <;>
        simp [Except.bind, signatureOf, built, Except.map]

/-- Whatever documents are open and whatever numbers the exchange takes, so long as it keeps them:
let a position hold two values as a line and a character, and let a command give the same values
behind the same address, each on its own or all in one list. Nothing is shown exactly if nothing is
told. If a context is told, the slots shown are its arguments and one for the argument being written;
the active slot has the number told, which is that of the last slot. The signature is refused only if
the exchange does not take that number, which is at most the length of the document. Both requests
fail exactly on a line that holds a surrogate. -/
theorem answers_agree (exchange : Exchange) (keeps : exchange.Keeps) (documents : Documents)
    (address : String) (line character : Value) (row column : Int)
    (rowHeld : exchange.position line = some row)
    (columnHeld : exchange.position character = some column) (arguments : List Value)
    (asks : unpack arguments = [.text address, line, character]) :
    let shown := signature exchange documents address line character
    let told := command documents arguments
    (shown = .ok none ↔ told = .ok none) ∧
    (∀ context, told = .ok (some context) →
      context.slot.index = context.parameters.length ∧
      (∃ text, documents[address]? = some text ∧ context.slot.index ≤ text.length) ∧
      (exchange.slot context.slot.index = true →
        ∃ signature, shown = .ok (some signature) ∧
          signature.slots = context.parameters ++ [Signature.placeholder] ∧
          signature.active = context.slot.index ∧
          signature.active + 1 = signature.slots.length) ∧
      (exchange.slot context.slot.index = false → shown = .error .notExchanged)) ∧
    ∀ refusal, told = .error refusal ↔
      refusal = .unencodable ∧ shown = .error .unencodable ∧
        ∃ text, documents[address]? = some text ∧ 0 ≤ column ∧ ∃ start found,
          Position.HasLine text row start found ∧ ∃ place, .surrogate place ∈ found := by
  intro shown told
  have commanded : told = contextAt documents address row column :=
    command_eq documents asks (keeps _ _ rowHeld) (keeps _ _ columnHeld)
  have signed : shown = told.bind (signatureOf exchange) :=
    commanded ▸ signature_eq documents address rowHeld columnHeld
  refine ⟨?_, ?_, ?_⟩
  · rw [signed]
    exact bind_signatureOf_eq_none_iff
  · intro context found
    obtain ⟨text, offset, there, answered⟩ :=
      ofDocument_of_contextAt (commanded.symm.trans found)
    have index := Context.index_eq_length answered
    rw [signed, found]
    refine ⟨index, ⟨text, there, ?_⟩, ?_, ?_⟩
    · calc context.slot.index
        _ = context.parameters.length := index
        _ ≤ (Document.seen (text.take offset)).length := Context.length_parameters_le answered
        _ = (text.take offset).length := Document.length_seen _
        _ ≤ text.length := List.length_take_le' offset text
    · intro taken
      obtain ⟨label, built⟩ := Context.signature_of_slot taken
      refine ⟨_, congrArg (Except.map some) built, rfl, rfl, ?_⟩
      rw [List.length_append, List.length_singleton, index, Int.natCast_succ]
    · intro refused
      exact congrArg (Except.map some) (Context.signature_of_no_slot refused)
  · intro refusal
    rw [commanded, contextAt_eq_error_iff]
    constructor
    · rintro ⟨rfl, text, there, failed⟩
      obtain ⟨natural, start, found, has, holds⟩ :=
        (Position.offsetOf_unencodable_iff text row column).mp failed
      refine ⟨rfl, ?_, text, there, natural, start, found, has, holds⟩
      rw [signed, commanded, contextAt_eq_error_iff.mpr ⟨rfl, text, there, failed⟩]
      rfl
    · rintro ⟨rfl, -, text, there, natural, start, found, has, holds⟩
      exact ⟨rfl, text, there,
        (Position.offsetOf_unencodable_iff text row column).mpr ⟨natural, start, found, has, holds⟩⟩

/-- The third argument is being written, in the second line. The first line holds a surrogate. -/
theorem answers_agree_at_third :
    let exchange := Exchange.below (Nat.pow 2 31)
    let text := [.surrogate 0, .newline] ++ Document.ofString "foo('x', [2, 3], "
    let documents : Documents := ({} : Documents).insert "a" text
    ∃ context signature,
      command documents [.list [.text "a", .integer 1, .integer 17]] = .ok (some context) ∧
      Session.signature exchange documents "a" (.integer 1) (.integer 17) = .ok (some signature) ∧
      context.parameters = ["x", "[2,3]"] ∧ context.slot.index = 2 ∧
      signature.slots = ["x", "[2,3]", "…"] ∧ signature.active = 2 := by
  intro exchange text documents
  have told : (contextAt documents "a" 1 17).toOption.join.map (·.parameters) =
      some ["x", "[2,3]"] := by
    decide +kernel
  obtain ⟨context, found, parameters⟩ := Option.map_eq_some_iff.mp told
  have found : command documents [.list [.text "a", .integer 1, .integer 17]] =
      .ok (some context) := by
    rw [command_eq documents rfl rfl rfl]
    cases answered : contextAt documents "a" 1 17 with
    | error => simp [answered, Except.toOption] at found
    | ok => simpa [answered, Except.toOption] using found
  obtain ⟨-, agrees, -⟩ := answers_agree exchange (Exchange.keeps_below _) documents "a"
    (.integer 1) (.integer 17) 1 17 (by decide) (by decide)
    [.list [.text "a", .integer 1, .integer 17]] rfl
  obtain ⟨index, -, shows, -⟩ := agrees context found
  rw [parameters] at index shows
  obtain ⟨signature, shown, slots, active, -⟩ := shows (by rw [index]; decide)
  exact ⟨context, signature, found, shown, parameters, index, slots, by rw [active, index]; rfl⟩

/-- No position holds a negative line, but a command may ask for one and is told that there is
nothing. On a line that holds a surrogate, neither request is answered. -/
theorem requests_disagree :
    let exchange := Exchange.below (Nat.pow 2 31)
    let documents : Documents := ({} : Documents).insert "a" [.surrogate 0]
    (signature exchange documents "a" (.integer (-1)) (.integer 0) = .error .notExchanged ∧
      command documents [.text "a", .integer (-1), .integer 0] = .ok none) ∧
    signature exchange documents "a" (.integer 0) (.integer 0) = .error .unencodable ∧
      command documents [.text "a", .integer 0, .integer 0] = .error .unencodable := by
  decide +kernel

end Session

end CursorContext
