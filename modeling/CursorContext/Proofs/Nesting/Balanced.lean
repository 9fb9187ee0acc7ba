import CursorContext.Proofs.Nesting.Extent
import CursorContext.Proofs.Nesting.Origin

/-!
Balanced text. Tokens whose brackets pair up leave the open frames as they were, whatever stands
before them, and every bracket they open is closed by its partner. So a cursor after balanced text
is where it was before it.
-/
namespace CursorContext

namespace Token

/-- The brackets pair up: without the other tokens they are a Dyck word over the three kinds. -/
inductive Balanced : List Token → Prop
  | nil : Balanced []
  | plain {token : Token} {rest : List Token} (opens : token.opening? = none)
      (closes : token.closing? = none) (later : Balanced rest) : Balanced (token :: rest)
  | pair {bracket : Bracket} {opener closer : Token} {inner rest : List Token}
      (opens : opener.opening? = some bracket) (inside : Balanced inner)
      (closes : closer.closing? = some bracket) (later : Balanced rest) :
      Balanced (opener :: (inner ++ closer :: rest))

/-- The token at `i` opens a bracket, the token at `j` closes one of the same kind, and what stands
between the two is balanced. -/
def Partners (tokens : List Token) (i j : Nat) : Prop :=
  ∃ before opener inner closer after bracket,
    tokens = before ++ opener :: (inner ++ closer :: after) ∧ before.length = i ∧
      i + inner.length + 1 = j ∧ opener.opening? = some bracket ∧ Balanced inner ∧
      closer.closing? = some bracket

theorem kind_of_opening? {token : Token} {bracket : Bracket}
    (opens : token.opening? = some bracket) : token.kind = .opener := by
  by_contra other
  simp [opening?, other] at opens

theorem kind_of_closing? {token : Token} {bracket : Bracket}
    (closes : token.closing? = some bracket) : token.kind = .closer := by
  by_contra other
  simp [closing?, other] at closes

theorem opening?_of_closing? {token : Token} {bracket : Bracket}
    (closes : token.closing? = some bracket) : token.opening? = none := by
  simp [opening?, kind_of_closing? closes]

theorem closing?_of_opening? {token : Token} {bracket : Bracket}
    (opens : token.opening? = some bracket) : token.closing? = none := by
  cases closes : token.closing? with
  | none => rfl
  | some kind => simp [opening?_of_closing? closes] at opens

theorem opening?_of_isOperator {token : Token} {operators : List String}
    (operator : token.isOperator operators = true) : token.opening? = none := by
  simp only [isOperator, Bool.and_eq_true, beq_iff_eq] at operator
  simp [opening?, operator.1]

theorem closing?_of_isOperator {token : Token} {operators : List String}
    (operator : token.isOperator operators = true) : token.closing? = none := by
  simp only [isOperator, Bool.and_eq_true, beq_iff_eq] at operator
  simp [closing?, operator.1]

namespace Partners

theorem prepend {tokens : List Token} {i j : Nat} (partners : Partners tokens i j)
    (front : List Token) : Partners (front ++ tokens) (front.length + i) (front.length + j) := by
  obtain ⟨before, opener, inner, closer, after, bracket, rfl, rfl, rfl, opens, inside, closes⟩ :=
    partners
  exact ⟨front ++ before, opener, inner, closer, after, bracket, by simp, by simp, by omega, opens,
    inside, closes⟩

theorem append {tokens : List Token} {i j : Nat} (partners : Partners tokens i j)
    (back : List Token) : Partners (tokens ++ back) i j := by
  obtain ⟨before, opener, inner, closer, after, bracket, rfl, rfl, rfl, opens, inside, closes⟩ :=
    partners
  exact ⟨before, opener, inner, closer, after ++ back, bracket, by simp, rfl, rfl, opens, inside,
    closes⟩

end Partners

theorem Balanced.append {text other : List Token} (first : Balanced text)
    (second : Balanced other) : Balanced (text ++ other) := by
  induction first with
  | nil => exact second
  | plain opens closes _ ih => exact .plain opens closes ih
  | pair opens inside closes _ _ ih =>
    rw [List.cons_append, List.append_assoc, List.cons_append]
    exact .pair opens inside closes ih

/-- Text without brackets. -/
theorem Balanced.of_plain {text : List Token}
    (plain : ∀ token ∈ text, token.opening? = none ∧ token.closing? = none) : Balanced text := by
  induction text with
  | nil => exact .nil
  | cons token rest ih =>
    obtain ⟨opens, closes⟩ := plain token List.mem_cons_self
    exact .plain opens closes (ih fun other member => plain other (List.mem_cons_of_mem _ member))

/-- In balanced text every opening bracket has a partner. -/
theorem Balanced.exists_partner {tokens : List Token} (balanced : Balanced tokens) {i : Nat}
    {token : Token} {bracket : Bracket} (placed : tokens[i]? = some token)
    (opens : token.opening? = some bracket) : ∃ j, Partners tokens i j := by
  induction balanced generalizing i with
  | nil => simp at placed
  | @plain first rest plain _ _ ih =>
    cases i with
    | zero =>
      cases placed
      simp [plain] at opens
    | succ i =>
      obtain ⟨j, partners⟩ := ih placed
      have shifted := partners.prepend [first]
      rw [List.length_singleton, Nat.add_comm] at shifted
      exact ⟨1 + j, shifted⟩
  | @pair kind opener closer inner rest opens' inside closes _ ihInner ihRest =>
    cases i with
    | zero =>
      exact ⟨0 + inner.length + 1, [], opener, inner, closer, rest, kind, rfl, rfl, rfl, opens',
        inside, closes⟩
    | succ i =>
      rw [List.getElem?_cons_succ] at placed
      by_cases within : i < inner.length
      · rw [List.getElem?_append_left within] at placed
        obtain ⟨j, partners⟩ := ihInner placed
        have shifted := (partners.append (closer :: rest)).prepend [opener]
        rw [List.length_singleton, Nat.add_comm] at shifted
        exact ⟨1 + j, shifted⟩
      · rw [List.getElem?_append_right (by omega)] at placed
        cases beyond : i - inner.length with
        | zero =>
          rw [beyond] at placed
          cases placed
          simp [opening?_of_closing? closes] at opens
        | succ k =>
          rw [beyond] at placed
          obtain ⟨j, partners⟩ := ihRest placed
          have shifted := partners.prepend (opener :: (inner ++ [closer]))
          have place : (opener :: (inner ++ [closer])).length + k = i + 1 := by
            simp
            omega
          rw [place] at shifted
          refine ⟨_, by simpa using shifted⟩

end Token

namespace Nesting

open Token

/-! ### What later tokens leave alone -/

theorem push_opening (nesting : Nesting) {token : Token} {bracket : Bracket}
    (opens : token.opening? = some bracket) : nesting.push token = nesting.enter bracket token := by
  simp [push, opens]

theorem push_plain (nesting : Nesting) {token : Token} (opens : token.opening? = none)
    (closes : token.closing? = none) : nesting.push token = nesting.pass token := by
  simp [push, opens, closes]

/-- A closing bracket closes the innermost frame alone if that one is of its kind. -/
theorem push_closing (nesting : Nesting) {token : Token} {bracket : Bracket} {frame : Frame}
    {below : List Frame} (closes : token.closing? = some bracket)
    (top : nesting.stack = frame :: below) (same : frame.mark = bracket.opening) :
    nesting.push token = nesting.shut token [] frame below := by
  have kept : isOther bracket frame = false := by simp [isOther, same]
  simp [push, opening?_of_closing? closes, closes, leave, top, kept, shut]

theorem Linked.foldl_push {nesting : Nesting} (linked : Linked nesting) (tokens : List Token) :
    Linked (tokens.foldl Nesting.push nesting) := by
  induction tokens generalizing nesting with
  | nil => exact linked
  | cons token rest ih => exact ih (linked.push token)

theorem size_foldl_push (nesting : Nesting) (tokens : List Token) :
    (tokens.foldl push nesting).tokens.size = nesting.tokens.size + tokens.length := by
  induction tokens generalizing nesting with
  | nil => rfl
  | cons token rest ih =>
    rw [List.foldl_cons, ih, tokens_push, Array.size_push, List.length_cons]
    omega

/-- Once a frame is closed it stays as it is. -/
theorem Linked.frameAt_foldl_push {nesting : Nesting} (linked : Linked nesting)
    (tokens : List Token) {i close : Nat} {frame : Frame} (found : nesting.frameAt i = some frame)
    (closed : frame.closer = some close) :
    (tokens.foldl Nesting.push nesting).frameAt i = some frame := by
  induction tokens generalizing nesting with
  | nil => exact found
  | cons token rest ih =>
    obtain ⟨upper, below, fresh, step⟩ := (push_step nesting token).extends linked
    exact ih (linked.push token) (step.kept_closed linked found closed)

theorem closedAt_push {nesting : Nesting} (size : nesting.sites.size = nesting.tokens.size)
    (token : Token) {i : Nat} (old : i < nesting.tokens.size) :
    (nesting.push token).closedAt i = nesting.closedAt i := by
  have step := push_step nesting token
  generalize nesting.push token = next at step
  cases step with
  | enter bracket opens => exact closedAt_enter nesting bracket token i
  | pass opens unmatched => exact closedAt_pass nesting token i
  | shut bracket inner matching below opens closes split others same =>
    rw [closedAt_shut _ _ _ _ _ _ size, if_neg (by omega)]

theorem Linked.closedAt_foldl_push {nesting : Nesting} (linked : Linked nesting)
    (tokens : List Token) {i : Nat} (old : i < nesting.tokens.size) :
    (tokens.foldl Nesting.push nesting).closedAt i = nesting.closedAt i := by
  induction tokens generalizing nesting with
  | nil => rfl
  | cons token rest ih =>
    rw [List.foldl_cons, ih (linked.push token) (by simp [tokens_push]; omega),
      closedAt_push linked.size token old]

/-! ### Balanced text -/

/-- Balanced text leaves the same frames open. -/
theorem stack_foldl_push {tokens : List Token} (balanced : Balanced tokens) (nesting : Nesting) :
    (tokens.foldl push nesting).stack = nesting.stack := by
  induction balanced generalizing nesting with
  | nil => rfl
  | plain opens closes _ ih =>
    rw [List.foldl_cons, ih, push_plain nesting opens closes]
    rfl
  | @pair bracket opener closer inner rest opens _ closes _ ihInner ihRest =>
    rw [List.foldl_cons, List.foldl_append, List.foldl_cons, ihRest]
    -- What the opening bracket puts on the stack is on top again when its partner comes.
    have top : (inner.foldl push (nesting.push opener)).stack =
        nesting.newFrame bracket opener :: nesting.stack := by
      rw [ihInner, push_opening nesting opens]
      rfl
    rw [push_closing _ closes top rfl]
    rfl

/-- Right after a closing bracket, it and its partner are the two ends of one frame. -/
theorem frame_of_pair (before : List Token) {bracket : Bracket} {opener closer : Token}
    {inner : List Token} (opens : opener.opening? = some bracket) (inside : Balanced inner)
    (closes : closer.closing? = some bracket) :
    ∃ frame, (ofTokens (before ++ opener :: (inner ++ [closer]))).frameAt before.length =
        some frame ∧
      frame.closer = some (before.length + inner.length + 1) ∧
      (ofTokens (before ++ opener :: (inner ++ [closer]))).closedAt
        (before.length + inner.length + 1) = some before.length := by
  have start : (ofTokens before).tokens.size = before.length := by simp [tokens_ofTokens]
  have linked := (linked_ofTokens before).foldl_push (opener :: inner)
  have size := size_foldl_push (ofTokens before) (opener :: inner)
  have top : ((opener :: inner).foldl push (ofTokens before)).stack =
      (ofTokens before).newFrame bracket opener :: (ofTokens before).stack := by
    rw [List.foldl_cons, stack_foldl_push inside, push_opening _ opens]
    rfl
  have run : ofTokens (before ++ opener :: (inner ++ [closer])) =
      ((opener :: inner).foldl push (ofTokens before)).push closer := by
    simp [ofTokens]
  rw [run]
  -- Of the tokens before the closing bracket only the frame on top and their number matter.
  generalize (opener :: inner).foldl push (ofTokens before) = nesting at linked size top ⊢
  generalize opened : (ofTokens before).newFrame bracket opener = frame at top
  have place : frame.opener = before.length := by rw [← opened, ← start]; rfl
  have last : nesting.tokens.size = before.length + inner.length + 1 := by
    rw [size, start, List.length_cons]
    omega
  have there : nesting.frameAt frame.opener = some frame :=
    linked.frameAt_of_mem_stack (by simp [top])
  rw [push_closing nesting closes top (by rw [← opened]; rfl), ← last]
  refine ⟨frame.closedBy nesting.tokens.size, ?_, rfl, ?_⟩
  · rw [frameAt_shut, ← place, if_pos (by simp), there]
    rfl
  · rw [closedAt_shut _ _ _ _ _ _ linked.size, if_pos rfl, place]

/-- A bracket and its partner, wherever they stand, are the two ends of one frame. -/
theorem frame_of_partners {tokens : List Token} {i j : Nat} (partners : Partners tokens i j) :
    ∃ frame, (ofTokens tokens).frameAt i = some frame ∧ frame.closer = some j ∧
      (ofTokens tokens).frameEndingAt j = some frame := by
  obtain ⟨before, opener, inner, closer, after, bracket, rfl, rfl, rfl, opens, inside, closes⟩ :=
    partners
  obtain ⟨frame, found, closed, ends⟩ := frame_of_pair before opens inside closes
  have linked := linked_ofTokens (before ++ opener :: (inner ++ [closer]))
  have run : ofTokens (before ++ opener :: (inner ++ closer :: after)) =
      after.foldl push (ofTokens (before ++ opener :: (inner ++ [closer]))) := by
    simp [ofTokens]
  have later := linked.frameAt_foldl_push after found closed
  have ends' := linked.closedAt_foldl_push after (linked.bounds found closed).2
  rw [run]
  refine ⟨frame, later, closed, ?_⟩
  change ((after.foldl push _).closedAt _).bind _ = _
  rw [ends', ends]
  exact later

theorem Partners.unique {tokens : List Token} {i j k : Nat} (one : Partners tokens i j)
    (other : Partners tokens i k) : j = k := by
  obtain ⟨frame, found, closed, -⟩ := frame_of_partners one
  obtain ⟨frame', found', closed', -⟩ := frame_of_partners other
  rw [found] at found'
  cases found'
  rw [closed] at closed'
  exact Option.some.inj closed'

theorem endsInLiteral_append {before text : List Token} (first : endsInLiteral before = false)
    (last : endsInLiteral text = false) : endsInLiteral (before ++ text) = false := by
  unfold endsInLiteral at first last ⊢
  rw [List.getLast?_append]
  cases final : text.getLast? with
  | none => simpa [final] using first
  | some token => simpa [final] using last

/-- Balanced text is transparent. After any tokens, each bracket it opens has exactly one partner,
which is where the bracket's frame ends, and the frames around the cursor and the call it is in are
those from before the text. -/
theorem balanced_transparent (before text : List Token) (inComment : Bool)
    (balanced : Balanced text) (first : endsInLiteral before = false)
    (last : endsInLiteral text = false) :
    (∀ i token bracket, text[i]? = some token → token.opening? = some bracket →
      ∃ j, Partners text i j ∧ (∀ k, Partners text i k → k = j) ∧
        ∃ frame, (ofTokens (before ++ text)).frameAt (before.length + i) = some frame ∧
          frame.closer = some (before.length + j) ∧
          (ofTokens (before ++ text)).frameEndingAt (before.length + j) = some frame) ∧
    (ofTokens (before ++ text)).cursorChain = (ofTokens before).cursorChain ∧
    ((ofTokens (before ++ text)).cursorCall inComment).map (·.opener) =
      ((ofTokens before).cursorCall inComment).map (·.opener) := by
  have stack : (ofTokens (before ++ text)).stack = (ofTokens before).stack := by
    rw [ofTokens_append, stack_foldl_push balanced]
  refine ⟨?_, ?_, ?_⟩
  · intro i token bracket placed opens
    obtain ⟨j, partners⟩ := balanced.exists_partner placed opens
    exact ⟨j, partners, fun k other => Partners.unique other partners,
      frame_of_partners (partners.prepend before)⟩
  · simp [cursorChain_ofTokens, stack, first, endsInLiteral_append first last]
  · rw [cursorCall, cursorCall, stack]

/-- An open call with a stray bracket in it, and then brackets of all kinds inside each other. -/
theorem balanced_transparent_after_stray :
    let before : List Token :=
      [⟨.identifier, "f", 0, true⟩, ⟨.opener, "(", 1, true⟩, ⟨.closer, "]", 2, true⟩]
    let text : List Token :=
      [⟨.opener, "(", 3, true⟩, ⟨.opener, "\x7b", 4, true⟩, ⟨.closer, "\x7d", 5, true⟩,
        ⟨.opener, "[", 6, true⟩, ⟨.closer, "]", 7, true⟩, ⟨.closer, ")", 8, true⟩]
    (Balanced text ∧ endsInLiteral before = false ∧ endsInLiteral text = false) ∧
      (∃ j, Partners text 0 j ∧ (∀ k, Partners text 0 k → k = j) ∧
        ∃ frame, (ofTokens (before ++ text)).frameAt (3 + 0) = some frame ∧
          frame.closer = some (3 + j) ∧
          (ofTokens (before ++ text)).frameEndingAt (3 + j) = some frame) ∧
      (ofTokens (before ++ text)).cursorChain = (ofTokens before).cursorChain := by
  intro before text
  have inside : Balanced [⟨.opener, "\x7b", 4, true⟩, ⟨.closer, "\x7d", 5, true⟩,
      ⟨.opener, "[", 6, true⟩, ⟨.closer, "]", 7, true⟩] :=
    @Balanced.pair .curly _ _ [] _ (by decide) .nil (by decide)
      (@Balanced.pair .square _ _ [] [] (by decide) .nil (by decide) .nil)
  have balanced : Balanced text :=
    @Balanced.pair .round _ _ _ [] (by decide) inside (by decide) .nil
  have first : endsInLiteral before = false := by decide
  have last : endsInLiteral text = false := by decide
  obtain ⟨partners, chain, -⟩ := balanced_transparent before text false balanced first last
  exact ⟨⟨balanced, first, last⟩, partners 0 _ .round rfl (by decide), chain⟩

end Nesting

end CursorContext
