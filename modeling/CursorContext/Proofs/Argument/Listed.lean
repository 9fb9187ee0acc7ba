import CursorContext.Proofs.Argument.Inside
import CursorContext.Proofs.Nesting.Outermost

/-!
Arguments as they are listed. A call that the cursor is in has its earlier arguments behind each
other, each with a comma, and then what has been written of the next one. Whatever brackets and
commas an argument has inside, the analysis gives back the arguments of that list.
-/
namespace CursorContext

namespace Token

/-- An entry of a list: its brackets pair up, and all its commas are inside of them. -/
structure Undivided (tokens : List Token) : Prop where
  balanced : Balanced tokens
  whole : ∀ token ∈ outermost tokens, token.isOperator [","] = false

/-- Entries behind each other, each with the comma that ends it. -/
def listed (entries : List (List Token × Token)) : List Token :=
  entries.flatMap fun entry => entry.1 ++ [entry.2]

theorem balanced_listed {entries : List (List Token × Token)} {last : List Token}
    (divided : ∀ entry ∈ entries, Undivided entry.1 ∧ entry.2.isOperator [","] = true)
    (current : Undivided last) : Balanced (listed entries ++ last) := by
  induction entries with
  | nil => exact current.balanced
  | cons entry rest ih =>
    obtain ⟨undivided, isComma⟩ := divided entry List.mem_cons_self
    have later := ih fun other among => divided other (List.mem_cons_of_mem _ among)
    have comma := Balanced.plain (opening?_of_isOperator isComma) (closing?_of_isOperator isComma)
      later
    simpa [listed] using undivided.balanced.append comma

end Token

namespace Nesting

open Token

/-! ### Commas -/

/-- Of `count` tokens from `start` on, the commas that stand directly in the frame `around`. -/
def commasIn (nesting : Nesting) (around : Option Nat) (start count : Nat) : List Nat :=
  (List.range' start count).filter fun index =>
    nesting.operatorAt "," index && nesting.enclosing index == around

theorem commasIn_add (nesting : Nesting) (around : Option Nat) (start first second : Nat) :
    nesting.commasIn around start (first + second) =
      nesting.commasIn around start first ++ nesting.commasIn around (start + first) second := by
  rw [commasIn, ← List.range'_append_1, List.filter_append]
  rfl

/-- The commas of a group of separators are those directly in its frame. -/
theorem commas_separators (nesting : Nesting) (start group : Nat) :
    ((nesting.separators start).getD group []).filter (nesting.operatorAt ",") =
      nesting.commasIn (some group) start (nesting.tokens.size - start) := by
  rw [separators, getD_groupIndexes, List.filter_filter, commasIn]
  apply List.filter_congr
  intro index _
  cases comma : nesting.operatorAt "," index <;> simp

theorem commasIn_eq_nil {nesting : Nesting} {around : Option Nat} {start count : Nat}
    (whole : ∀ token ∈ nesting.directIn around start count, token.isOperator [","] = false) :
    nesting.commasIn around start count = [] := by
  rw [commasIn, List.filter_eq_nil_iff]
  intro index member comma
  obtain ⟨isComma, direct⟩ := Bool.and_eq_true_iff.mp comma
  obtain ⟨token, placed, operator⟩ := (Option.any_eq_true _ _).mp isComma
  have among : token ∈ nesting.directIn around start count :=
    List.mem_filterMap.mpr ⟨index, member, by rw [if_pos direct, placed]⟩
  rw [whole token among] at operator
  cases operator

theorem commasIn_one {nesting : Nesting} {around : Option Nat} {start : Nat} {comma : Token}
    (direct : nesting.enclosing start = around) (placed : nesting.tokens[start]? = some comma)
    (isComma : comma.isOperator [","] = true) : nesting.commasIn around start 1 = [start] := by
  simp [commasIn, List.range'_one, operatorAt, direct, placed, isComma]

/-! ### The pieces of a list -/

theorem tokensOf_foldl_push (nesting : Nesting) (text later : List Token) :
    ((text ++ later).foldl push nesting).tokensOf
      { start := nesting.tokens.size, stop := nesting.tokens.size + text.length } = text := by
  rw [tokensOf, tokens_foldl_push]
  simp [Array.extract_append]

theorem stack_entry {nesting : Nesting} {text : List Token} {comma : Token}
    (balanced : Balanced text) (isComma : comma.isOperator [","] = true) :
    ((text.foldl Nesting.push nesting).push comma).stack = nesting.stack := by
  rw [push_plain _ (opening?_of_isOperator isComma) (closing?_of_isOperator isComma)]
  exact stack_foldl_push balanced nesting

/-- Up to the comma that ends it, an entry has no comma in the frame around the list. -/
theorem Linked.commasIn_entry {nesting : Nesting} (linked : Linked nesting) {text : List Token}
    {comma : Token} (entry : Undivided text) (isComma : comma.isOperator [","] = true)
    (later : List Token) :
    ((text ++ comma :: later).foldl Nesting.push nesting).commasIn (topOf nesting.stack)
      nesting.tokens.size (text.length + 1) = [nesting.tokens.size + text.length] := by
  have linkedText := linked.foldl_push text
  have size := size_foldl_push nesting text
  rw [commasIn_add, List.foldl_append]
  have before : ((comma :: later).foldl Nesting.push (text.foldl Nesting.push nesting)).commasIn
      (topOf nesting.stack) nesting.tokens.size text.length = [] := by
    apply commasIn_eq_nil
    rw [linkedText.directIn_foldl_push _ _ (by omega), linked.directIn_balanced entry.balanced]
    exact entry.whole
  have direct := linkedText.enclosing_plain (opening?_of_isOperator isComma)
    (closing?_of_isOperator isComma)
  rw [stack_foldl_push entry.balanced] at direct
  have bound : (text.foldl Nesting.push nesting).tokens.size <
      ((text.foldl Nesting.push nesting).push comma).tokens.size := by simp [tokens_push]
  rw [before, List.nil_append, ← size, List.foldl_cons]
  apply commasIn_one _ _ isComma
  · rw [(linkedText.push comma).enclosing_foldl_push _ bound, direct]
  · rw [getElem?_foldl_push _ _ bound]
    exact getElem?_push_size _ comma

/-- The commas that stand directly in the frame around a list divide it into its entries. -/
theorem Linked.pieces_listed {entries : List (List Token × Token)} {last : List Token}
    (divided : ∀ entry ∈ entries, Undivided entry.1 ∧ entry.2.isOperator [","] = true)
    (current : Undivided last) {nesting : Nesting} (linked : Linked nesting) :
    let whole := (listed entries ++ last).foldl Nesting.push nesting
    (Pieces.ofCommas nesting.tokens.size whole.tokens.size
      (whole.commasIn (topOf nesting.stack) nesting.tokens.size
        (listed entries ++ last).length)).completed.map whole.tokensOf = entries.map (·.1) := by
  dsimp only
  -- On the entries: what comes after a comma is a shorter list in the same frame.
  induction entries generalizing nesting with
  | nil =>
    have whole := current.whole
    rw [← linked.directIn_balanced current.balanced] at whole
    rw [listed, List.flatMap_nil, List.nil_append, commasIn_eq_nil whole]
    rfl
  | cons entry rest ih =>
    obtain ⟨text, comma⟩ := entry
    obtain ⟨undivided, isComma⟩ := divided (text, comma) List.mem_cons_self
    have split : listed ((text, comma) :: rest) ++ last =
        text ++ comma :: (listed rest ++ last) := by
      simp [listed]
    have lengths : (text ++ comma :: (listed rest ++ last)).length =
        text.length + 1 + (listed rest ++ last).length := by
      simp
      omega
    have later := ih (fun entry among => divided entry (List.mem_cons_of_mem _ among))
      ((linked.foldl_push text).push comma)
    have place : ((text.foldl Nesting.push nesting).push comma).tokens.size =
        nesting.tokens.size + (text.length + 1) := by
      rw [tokens_push, Array.size_push, size_foldl_push, Nat.add_assoc]
    rw [stack_entry undivided.balanced isComma, place] at later
    have first := tokensOf_foldl_push nesting text (comma :: (listed rest ++ last))
    rw [split, lengths, commasIn_add, linked.commasIn_entry undivided isComma,
      List.singleton_append, Pieces.ofCommas, List.map_cons, List.map_cons, first]
    rw [List.foldl_append, List.foldl_cons, Nat.add_assoc, later]

/-! ### The arguments of a call -/

/-- After any tokens, a head and an opening round bracket, list arguments of which each but the last
is ended by a comma, and none of which is divided by a comma of its own. Then the arguments of the
bracket's frame are those of the list, the cursor is in the one after them, and if the bracket is
that of a call, it is the call the cursor is in. -/
theorem arguments_of_listed (before : List Token) (head opener : Token)
    (entries : List (List Token × Token)) (last : List Token)
    (opens : opener.opening? = some .round)
    (divided : ∀ entry ∈ entries, Undivided entry.1 ∧ entry.2.isOperator [","] = true)
    (current : Undivided last) :
    let nesting := ofTokens (before ++ head :: opener :: (listed entries ++ last))
    ∃ frame, nesting.frameAt (before.length + 1) = some frame ∧
      (nesting.arguments frame).earlier = entries.map (fun entry => argumentText entry.1) ∧
      (nesting.arguments frame).slot.index = entries.length ∧
      (frame.role = .call → nesting.cursorCall false = some frame) := by
  intro nesting
  let start := ofTokens (before ++ [head])
  let frame := start.newFrame .round opener
  have opened : start.push opener = start.enter .round opener := push_opening start opens
  have size : (start.push opener).tokens.size = before.length + 2 := by
    simp [start, tokens_push, tokens_ofTokens]
  have place : frame.opener = before.length + 1 := by
    simp [frame, start, newFrame, tokens_ofTokens]
  have whole : nesting = (listed entries ++ last).foldl push (start.push opener) := by
    simp [nesting, start, ofTokens]
  have linked : Linked (start.push opener) := (linked_ofTokens _).push opener
  have stack : nesting.stack = frame :: start.stack := by
    rw [whole, stack_foldl_push (balanced_listed divided current), opened]
    rfl
  have found : nesting.frameAt (before.length + 1) = some frame := by
    have held : frame ∈ nesting.stack := by simp [stack]
    rw [← place]
    exact (linked_ofTokens _).frameAt_of_mem_stack held
  have pieces := linked.pieces_listed divided current
  have top : topOf (start.push opener).stack = some (before.length + 1) := by
    rw [opened, ← place]
    rfl
  have length := size_foldl_push (start.push opener) (listed entries ++ last)
  dsimp only at pieces
  rw [← whole] at length pieces
  rw [top, size] at pieces
  have earlier : (nesting.arguments frame).earlier =
      entries.map (fun entry => argumentText entry.1) := by
    have rest : nesting.tokens.size - (frame.opener + 1) = (listed entries ++ last).length := by
      omega
    have texts := congrArg (List.map argumentText) pieces
    rw [List.map_map, List.map_map] at texts
    change List.map (fun piece => argumentText (nesting.tokensOf piece)) _ = _
    rw [commas_separators, rest, place]
    exact texts
  refine ⟨frame, found, earlier, ?_, ?_⟩
  · rw [(arguments_slot nesting frame).1, earlier, List.length_map]
  · intro call
    simp [cursorCall, stack, isDecisive, call, Frame.isCall]

/-- A stray bracket, and then a call whose first argument is an array with a comma in it. -/
theorem arguments_of_listed_array :
    let before : List Token := [⟨.closer, "]", 0, true⟩]
    let head : Token := ⟨.identifier, "f", 1, true⟩
    let opener : Token := ⟨.opener, "(", 2, true⟩
    let array : List Token :=
      [⟨.opener, "[", 3, true⟩, ⟨.number, "1", 4, true⟩, ⟨.operator, ",", 5, true⟩,
        ⟨.variable, "$a", 6, true⟩, ⟨.closer, "]", 8, true⟩]
    let comma : Token := ⟨.operator, ",", 9, true⟩
    let nesting := ofTokens (before ++ head :: opener :: (listed [(array, comma)] ++ []))
    (opener.opening? = some .round ∧ Undivided array ∧ comma.isOperator [","] = true ∧
      Undivided []) ∧
    ∃ frame, nesting.frameAt 2 = some frame ∧ frame.role = .call ∧
      (nesting.arguments frame).earlier = ["[1,$a]"] ∧
      (nesting.arguments frame).slot.index = 1 ∧ nesting.cursorCall false = some frame := by
  intro before head opener array comma nesting
  have opens : opener.opening? = some .round := by decide
  have balanced : Balanced array :=
    @Balanced.pair .square _ _ _ [] (by decide)
      (.plain (by decide) (by decide) (.plain (by decide) (by decide)
        (.plain (by decide) (by decide) .nil))) (by decide) .nil
  have first : Undivided array := ⟨balanced, by decide⟩
  have isComma : comma.isOperator [","] = true := by decide
  have current : Undivided [] := ⟨.nil, by decide⟩
  obtain ⟨frame, found, earlier, index, call⟩ :=
    arguments_of_listed before head opener [(array, comma)] [] opens (by simp [first, isComma])
      current
  have role : (nesting.frameAt (before.length + 1)).map (·.role) = some .call := by decide
  have isCall : frame.role = .call := by
    rw [found] at role
    exact Option.some.inj role
  exact ⟨⟨opens, first, isComma, current⟩, frame, found, isCall, earlier, index, call isCall⟩

end Nesting

end CursorContext
