import CursorContext.Proofs.Nesting.Balanced

/-!
The outermost tokens of balanced text. Counting the depth of brackets tells which tokens of a text
stand outside of all pairs in it; following frames tells which tokens stand directly in the frame
around the text. For balanced text the two agree, and everything else in it stands in a frame that
the text itself opens.
-/
namespace CursorContext

namespace Token

/-- The tokens of a text that stand outside of `depth` more brackets. A bracket belongs outside of
its own pair. -/
def outermostFrom (depth : Nat) : List Token → List Token
  | [] => []
  | token :: rest =>
    let outside := if token.closing?.isSome then depth - 1 else depth
    let inside := if token.opening?.isSome then depth + 1 else outside
    if outside = 0 then token :: outermostFrom inside rest else outermostFrom inside rest

/-- The tokens of a text that stand outside of all its brackets, and the brackets of the outermost
pairs. -/
def outermost (tokens : List Token) : List Token := outermostFrom 0 tokens

theorem outermostFrom_plain {token : Token} (opens : token.opening? = none)
    (closes : token.closing? = none) (depth : Nat) (rest : List Token) :
    outermostFrom depth (token :: rest) =
      (if depth = 0 then [token] else []) ++ outermostFrom depth rest := by
  rw [outermostFrom, opens, closes]
  by_cases outer : depth = 0 <;> simp [outer]

theorem outermostFrom_opening {token : Token} {bracket : Bracket}
    (opens : token.opening? = some bracket) (depth : Nat) (rest : List Token) :
    outermostFrom depth (token :: rest) =
      (if depth = 0 then [token] else []) ++ outermostFrom (depth + 1) rest := by
  rw [outermostFrom, opens, closing?_of_opening? opens]
  by_cases outer : depth = 0 <;> simp [outer]

theorem outermostFrom_closing {token : Token} {bracket : Bracket}
    (closes : token.closing? = some bracket) (depth : Nat) (rest : List Token) :
    outermostFrom (depth + 1) (token :: rest) =
      (if depth = 0 then [token] else []) ++ outermostFrom depth rest := by
  rw [outermostFrom, opening?_of_closing? closes, closes]
  by_cases outer : depth = 0 <;> simp [outer]

/-- Balanced text leads back to the depth it began at. -/
theorem outermostFrom_append {text : List Token} (balanced : Balanced text) (depth : Nat)
    (rest : List Token) :
    outermostFrom depth (text ++ rest) =
      (if depth = 0 then outermost text else []) ++ outermostFrom depth rest := by
  unfold outermost
  induction balanced generalizing depth rest with
  | nil => by_cases outer : depth = 0 <;> simp [outer, outermostFrom]
  | @plain token later opens closes _ ih =>
    rw [List.cons_append, outermostFrom_plain opens closes, ih, outermostFrom_plain opens closes]
    by_cases outer : depth = 0 <;> simp [outer]
  | @pair bracket opener closer inner later opens _ closes _ ihInner ihLater =>
    -- Both ends of the pair are at this depth, and what is between them is one deeper.
    have whole (depth : Nat) (rest : List Token) :
        outermostFrom depth (opener :: (inner ++ closer :: rest)) =
          (if depth = 0 then [opener, closer] else []) ++ outermostFrom depth rest := by
      rw [outermostFrom_opening opens, ihInner, outermostFrom_closing closes]
      by_cases outer : depth = 0 <;> simp [outer]
    rw [List.cons_append, List.append_assoc, List.cons_append, whole, ihLater, whole]
    by_cases outer : depth = 0 <;> simp [outer]

theorem outermost_append {text : List Token} (balanced : Balanced text) (rest : List Token) :
    outermost (text ++ rest) = outermost text ++ outermost rest :=
  outermostFrom_append balanced 0 rest

theorem mem_of_mem_outermostFrom {depth : Nat} {text : List Token} {token : Token}
    (among : token ∈ outermostFrom depth text) : token ∈ text := by
  induction text generalizing depth with
  | nil => exact among
  | cons first rest ih =>
    unfold outermostFrom at among
    extract_lets outside inside at among
    split at among
    · rcases List.mem_cons.mp among with rfl | later
      · exact List.mem_cons_self
      · exact List.mem_cons_of_mem _ (ih later)
    · exact List.mem_cons_of_mem _ (ih among)

theorem outermost_plain {token : Token} (opens : token.opening? = none)
    (closes : token.closing? = none) (rest : List Token) :
    outermost (token :: rest) = token :: outermost rest :=
  outermostFrom_plain opens closes 0 rest

theorem outermost_pair {bracket : Bracket} {opener closer : Token} {inner : List Token}
    (opens : opener.opening? = some bracket) (inside : Balanced inner)
    (closes : closer.closing? = some bracket) (rest : List Token) :
    outermost (opener :: (inner ++ closer :: rest)) = opener :: closer :: outermost rest := by
  rw [outermost, outermostFrom_opening opens, outermostFrom_append inside,
    outermostFrom_closing closes]
  rfl

end Token

namespace Nesting

open Token

/-! ### The frame around each token of a text -/

theorem getElem?_foldl_push (nesting : Nesting) (tokens : List Token) {i : Nat}
    (old : i < nesting.tokens.size) :
    (tokens.foldl push nesting).tokens[i]? = nesting.tokens[i]? := by
  rw [tokens_foldl_push, Array.getElem?_append_left old]

theorem getElem?_push_size (nesting : Nesting) (token : Token) :
    (nesting.push token).tokens[nesting.tokens.size]? = some token := by
  simp [tokens_push]

/-- A token belongs to the innermost frame that is open after it, a bracket that opens one to the
frame before it. -/
theorem Linked.enclosing_last {nesting : Nesting} (linked : Linked nesting) (token : Token) :
    (nesting.push token).enclosing nesting.tokens.size =
      if token.opening?.isSome then topOf nesting.stack else topOf (nesting.push token).stack := by
  have step := push_step nesting token
  generalize nesting.push token = next at step
  cases step with
  | enter bracket opens => simp [enclosing_enter _ _ _ _ linked.size, opens]
  | shut bracket inner matching below opens closes split others same =>
    rw [enclosing_shut _ _ _ _ _ _ linked.size, if_pos rfl, opens]
    rfl
  | pass opens unmatched =>
    rw [enclosing_pass _ _ _ linked.size, if_pos rfl, opens]
    rfl

theorem Linked.enclosing_foldl_push {nesting : Nesting} (linked : Linked nesting)
    (tokens : List Token) {i : Nat} (old : i < nesting.tokens.size) :
    (tokens.foldl Nesting.push nesting).enclosing i = nesting.enclosing i := by
  induction tokens generalizing nesting with
  | nil => rfl
  | cons token rest ih =>
    obtain ⟨upper, below, fresh, step⟩ := (push_step nesting token).extends linked
    rw [List.foldl_cons, ih (linked.push token) (by simp [tokens_push]; omega), step.enclosing,
      if_neg (by omega)]

theorem Linked.topOf_lt {nesting : Nesting} (linked : Linked nesting) {top : Nat}
    (innermost : topOf nesting.stack = some top) : top < nesting.tokens.size := by
  obtain ⟨frame, first, rfl⟩ := Option.map_eq_some_iff.mp innermost
  exact linked.lt_size (linked.frameAt_of_mem_stack (List.mem_of_head? first))

theorem topOf_push_opening (nesting : Nesting) {token : Token} {bracket : Bracket}
    (opens : token.opening? = some bracket) :
    topOf (nesting.push token).stack = some nesting.tokens.size := by
  rw [push_opening nesting opens]
  rfl

/-- The stack once a bracket, balanced text and the partner of the bracket have been added. -/
theorem stack_pair {bracket : Bracket} {opener closer : Token} {inner : List Token}
    (opens : opener.opening? = some bracket) (inside : Balanced inner)
    (closes : closer.closing? = some bracket) (nesting : Nesting) :
    ((inner.foldl push (nesting.push opener)).push closer).stack = nesting.stack := by
  have whole := stack_foldl_push (.pair opens inside closes .nil) nesting
  simpa [List.foldl_append] using whole

/-! A token that is no bracket belongs to the frame around it, and so do both brackets of a pair. -/

theorem Linked.enclosing_plain {nesting : Nesting} (linked : Linked nesting) {token : Token}
    (opens : token.opening? = none) (closes : token.closing? = none) :
    (nesting.push token).enclosing nesting.tokens.size = topOf nesting.stack := by
  have stack : (nesting.push token).stack = nesting.stack :=
    stack_foldl_push (.plain opens closes .nil) nesting
  rw [linked.enclosing_last, if_neg (by simp [opens]), stack]

theorem Linked.enclosing_opener {nesting : Nesting} (linked : Linked nesting) {token : Token}
    {bracket : Bracket} (opens : token.opening? = some bracket) :
    (nesting.push token).enclosing nesting.tokens.size = topOf nesting.stack := by
  rw [linked.enclosing_last, if_pos (by simp [opens])]

theorem Linked.enclosing_closer {nesting : Nesting} (linked : Linked nesting) {bracket : Bracket}
    {opener closer : Token} {inner : List Token} (opens : opener.opening? = some bracket)
    (inside : Balanced inner) (closes : closer.closing? = some bracket) :
    ((inner.foldl Nesting.push (nesting.push opener)).push closer).enclosing
      (inner.foldl Nesting.push (nesting.push opener)).tokens.size = topOf nesting.stack := by
  have linkedInner := (linked.push opener).foldl_push inner
  rw [linkedInner.enclosing_last, if_neg (by simp [opening?_of_closing? closes]),
    stack_pair opens inside closes]

/-- The token at `index` stands in the frame `top`, or in one that is opened from `start` on. -/
def InOrBelow (nesting : Nesting) (top : Option Nat) (start index : Nat) : Prop :=
  nesting.enclosing index = top ∨ ∃ opener ≥ start, nesting.enclosing index = some opener

theorem InOrBelow.of_le {nesting : Nesting} {top : Option Nat} {start earlier index : Nat}
    (later : nesting.InOrBelow top start index) (le : earlier ≤ start) :
    nesting.InOrBelow top earlier index := by
  rcases later with same | ⟨opener, bound, found⟩
  · exact .inl same
  · exact .inr ⟨opener, by omega, found⟩

theorem InOrBelow.foldl_push {nesting : Nesting} {top : Option Nat} {start index : Nat}
    (there : nesting.InOrBelow top start index) (linked : Linked nesting)
    (old : index < nesting.tokens.size) (tokens : List Token) :
    (tokens.foldl push nesting).InOrBelow top start index := by
  unfold InOrBelow
  rw [linked.enclosing_foldl_push tokens old]
  exact there

/-- Tokens of balanced text stand in the frame around the text, or in one that the text opens. -/
theorem Linked.inOrBelow {text : List Token} (balanced : Balanced text) {nesting : Nesting}
    (linked : Linked nesting) {i : Nat} (begun : nesting.tokens.size ≤ i)
    (inside : i < nesting.tokens.size + text.length) :
    (text.foldl Nesting.push nesting).InOrBelow (topOf nesting.stack) nesting.tokens.size i := by
  induction balanced generalizing nesting with
  | nil =>
    rw [List.length_nil] at inside
    omega
  | @plain token rest opens closes _ ih =>
    have size : (nesting.push token).tokens.size = nesting.tokens.size + 1 := by simp [tokens_push]
    have stack : (nesting.push token).stack = nesting.stack :=
      stack_foldl_push (.plain opens closes .nil) nesting
    rw [List.length_cons] at inside
    rw [List.foldl_cons]
    by_cases first : i = nesting.tokens.size
    · subst i
      have last := linked.enclosing_plain opens closes
      exact InOrBelow.foldl_push (.inl last) (linked.push token) (by omega) rest
    · have later := ih (linked.push token) (by omega) (by omega)
      rw [stack, size] at later
      exact later.of_le (by omega)
  | @pair bracket opener closer inner rest opens inside_pair closes _ ihInner ihRest =>
    have size : (nesting.push opener).tokens.size = nesting.tokens.size + 1 := by
      simp [tokens_push]
    have linkedInner := (linked.push opener).foldl_push inner
    have sizeInner := size_foldl_push (nesting.push opener) inner
    have top := topOf_push_opening nesting opens
    have stack := stack_pair opens inside_pair closes nesting
    have closed := linked.enclosing_closer opens inside_pair closes
    rw [List.length_cons, List.length_append, List.length_cons] at inside
    rw [List.foldl_cons]
    -- The opener, the text up to the closer, the closer, and the text behind it.
    by_cases first : i = nesting.tokens.size
    · subst i
      have last := linked.enclosing_opener opens
      exact InOrBelow.foldl_push (.inl last) (linked.push opener) (by omega)
        (inner ++ closer :: rest)
    rw [List.foldl_append]
    by_cases within : i < nesting.tokens.size + 1 + inner.length
    · have between := ihInner (linked.push opener) (by omega) (by omega)
      rw [top, size] at between
      refine InOrBelow.foldl_push ?_ linkedInner (by omega) (closer :: rest)
      rcases between with direct | ⟨other, bound, found⟩
      · exact .inr ⟨nesting.tokens.size, le_rfl, direct⟩
      · exact .inr ⟨other, by omega, found⟩
    rw [List.foldl_cons]
    generalize inner.foldl Nesting.push (nesting.push opener) = last at *
    have sizePair : (last.push closer).tokens.size = last.tokens.size + 1 := by simp [tokens_push]
    by_cases ends : i = last.tokens.size
    · subst i
      exact InOrBelow.foldl_push (.inl closed) (linkedInner.push closer) (by omega) rest
    · have later := ihRest (linkedInner.push closer) (by omega) (by omega)
      rw [stack] at later
      exact later.of_le (by omega)

/-! ### The tokens directly in a frame -/

/-- Of `count` tokens from `start` on, those that stand directly in the frame `around`. -/
def directIn (nesting : Nesting) (around : Option Nat) (start count : Nat) : List Token :=
  (List.range' start count).filterMap fun index =>
    if nesting.enclosing index == around then nesting.tokens[index]? else none

theorem directIn_add (nesting : Nesting) (around : Option Nat) (start first second : Nat) :
    nesting.directIn around start (first + second) =
      nesting.directIn around start first ++ nesting.directIn around (start + first) second := by
  rw [directIn, ← List.range'_append_1, List.filterMap_append]
  rfl

theorem directIn_one {nesting : Nesting} {around : Option Nat} {start : Nat} {token : Token}
    (same : nesting.enclosing start = around) (placed : nesting.tokens[start]? = some token) :
    nesting.directIn around start 1 = [token] := by
  simp [directIn, List.range'_one, same, placed]

theorem directIn_eq_nil {nesting : Nesting} {around : Option Nat} {start count : Nat}
    (apart : ∀ index, start ≤ index → index < start + count → nesting.enclosing index ≠ around) :
    nesting.directIn around start count = [] := by
  rw [directIn, List.filterMap_eq_nil_iff]
  intro index member
  rw [List.mem_range'_1] at member
  simp [apart index member.1 member.2]

theorem directTokens_eq_directIn (nesting : Nesting) (frame : Frame) :
    nesting.directTokens frame = nesting.directIn (some frame.opener) (frame.opener + 1)
      (nesting.endOf frame - (frame.opener + 1)) :=
  rfl

theorem mem_directTokens {nesting : Nesting} {frame : Frame} {token : Token}
    (among : token ∈ nesting.directTokens frame) :
    ∃ i, nesting.tokens[i]? = some token ∧ nesting.enclosing i = some frame.opener := by
  obtain ⟨i, -, placed⟩ := List.mem_filterMap.mp among
  split at placed
  next direct => exact ⟨i, placed, eq_of_beq direct⟩
  · cases placed

/-- Later tokens do not change what stands directly in a frame among the tokens so far. -/
theorem Linked.directIn_foldl_push {nesting : Nesting} (linked : Linked nesting)
    (tokens : List Token) (around : Option Nat) {start count : Nat}
    (old : start + count ≤ nesting.tokens.size) :
    (tokens.foldl Nesting.push nesting).directIn around start count =
      nesting.directIn around start count := by
  apply List.filterMap_congr
  intro index member
  rw [List.mem_range'_1] at member
  rw [linked.enclosing_foldl_push tokens (by omega), getElem?_foldl_push _ tokens (by omega)]

/-- Of a pair of brackets and the text between them, only the brackets stand in the frame around. -/
theorem Linked.directIn_pair {nesting : Nesting} (linked : Linked nesting) {bracket : Bracket}
    {opener closer : Token} {inner : List Token} (opens : opener.opening? = some bracket)
    (inside : Balanced inner) (closes : closer.closing? = some bracket) :
    ((inner.foldl Nesting.push (nesting.push opener)).push closer).directIn (topOf nesting.stack)
      nesting.tokens.size (1 + (inner.length + 1)) = [opener, closer] := by
  have size : (nesting.push opener).tokens.size = nesting.tokens.size + 1 := by simp [tokens_push]
  have linkedInner := (linked.push opener).foldl_push inner
  have sizeInner := size_foldl_push (nesting.push opener) inner
  have front : (inner.foldl Nesting.push (nesting.push opener)).directIn (topOf nesting.stack)
      nesting.tokens.size 1 = [opener] := by
    rw [(linked.push opener).directIn_foldl_push inner _ (by omega)]
    exact directIn_one (linked.enclosing_opener opens) (getElem?_push_size nesting opener)
  have between : (inner.foldl Nesting.push (nesting.push opener)).directIn (topOf nesting.stack)
      (nesting.tokens.size + 1) inner.length = [] := by
    apply directIn_eq_nil
    intro index begun ended same
    -- It would be in a frame opened by the text and in one opened before it.
    have deep := (linked.push opener).inOrBelow inside (i := index) (by omega) (by omega)
    rw [InOrBelow, same, topOf_push_opening nesting opens] at deep
    rcases deep with direct | ⟨other, later, found⟩
    · exact Nat.lt_irrefl _ (linked.topOf_lt direct)
    · have bound := linked.topOf_lt found
      omega
  have ends := linked.enclosing_closer opens inside closes
  generalize inner.foldl Nesting.push (nesting.push opener) = last at *
  have place : nesting.tokens.size + 1 + inner.length = last.tokens.size := by omega
  have shown : last.push closer = [closer].foldl Nesting.push last := rfl
  rw [directIn_add, directIn_add, place, directIn_one ends (getElem?_push_size last closer), shown,
    linkedInner.directIn_foldl_push [closer] _ (by omega),
    linkedInner.directIn_foldl_push [closer] _ (by omega), front, between]
  rfl

/-- Those tokens of balanced text that stand directly in the frame around it are its outermost
ones. -/
theorem Linked.directIn_balanced {text : List Token} (balanced : Balanced text) {nesting : Nesting}
    (linked : Linked nesting) :
    (text.foldl Nesting.push nesting).directIn (topOf nesting.stack) nesting.tokens.size
      text.length = outermost text := by
  induction balanced generalizing nesting with
  | nil => rfl
  | @plain token rest opens closes _ ih =>
    have size : (nesting.push token).tokens.size = nesting.tokens.size + 1 := by simp [tokens_push]
    have stack : (nesting.push token).stack = nesting.stack :=
      stack_foldl_push (.plain opens closes .nil) nesting
    have later := ih (linked.push token)
    rw [stack, size] at later
    rw [List.length_cons, Nat.add_comm, directIn_add, List.foldl_cons, later,
      (linked.push token).directIn_foldl_push rest _ (by omega),
      directIn_one (linked.enclosing_plain opens closes) (getElem?_push_size nesting token),
      outermost_plain opens closes]
    rfl
  | @pair bracket opener closer inner rest opens inside closes _ _ ih =>
    have front := linked.directIn_pair opens inside closes
    have stack := stack_pair opens inside closes nesting
    have pushed := ((linked.push opener).foldl_push inner).push closer
    have size : ((inner.foldl Nesting.push (nesting.push opener)).push closer).tokens.size =
        nesting.tokens.size + (1 + (inner.length + 1)) := by
      simp [tokens_push, size_foldl_push]
      omega
    have later := ih pushed
    rw [stack, size] at later
    have lengths : (opener :: (inner ++ closer :: rest)).length =
        1 + (inner.length + 1) + rest.length := by
      simp
      omega
    rw [lengths, directIn_add, List.foldl_cons, List.foldl_append, List.foldl_cons, later,
      pushed.directIn_foldl_push rest _ (by omega), front, outermost_pair opens inside closes]
    rfl

end Nesting

/-! ### Bracketed text -/

/-- A bracket, balanced text and the partner of the bracket. -/
structure Token.Bracketed (bracket : Bracket) where
  opener : Token
  inner : List Token
  closer : Token
  opens : opener.opening? = some bracket
  inside : Token.Balanced inner
  closes : closer.closing? = some bracket

namespace Token.Bracketed

variable {bracket : Bracket}

def tokens (text : Bracketed bracket) : List Token := text.opener :: (text.inner ++ [text.closer])

theorem length_tokens (text : Bracketed bracket) : text.tokens.length = text.inner.length + 2 := by
  simp [tokens]

theorem balanced (text : Bracketed bracket) : Balanced text.tokens :=
  .pair text.opens text.inside text.closes .nil

/-- Wherever it stands, bracketed text is a frame, and its outermost tokens are directly inside. -/
theorem frame (text : Bracketed bracket) (before after : List Token) :
    ∃ frame, (Nesting.ofTokens (before ++ (text.tokens ++ after))).frameAt before.length =
        some frame ∧
      frame.mark = bracket.opening ∧
      frame.closer = some (before.length + text.inner.length + 1) ∧
      (Nesting.ofTokens (before ++ (text.tokens ++ after))).directTokens frame =
        outermost text.inner := by
  have split : before ++ (text.tokens ++ after) =
      before ++ text.opener :: (text.inner ++ text.closer :: after) := by
    simp [tokens]
  rw [split]
  have partners : Partners (before ++ text.opener :: (text.inner ++ text.closer :: after))
      before.length (before.length + text.inner.length + 1) :=
    ⟨before, text.opener, text.inner, text.closer, after, bracket, rfl, rfl, rfl, text.opens,
      text.inside, text.closes⟩
  obtain ⟨frame, found, closed, -⟩ := Nesting.frame_of_partners partners
  have opener := (Nesting.linked_ofTokens _).opener found
  refine ⟨frame, found, ?_, closed, ?_⟩
  · obtain ⟨token, other, placed, opens, mark, -⟩ := (Nesting.formed_ofTokens _).frame found
    rw [Nesting.tokens_ofTokens, List.getElem?_toArray,
      List.getElem?_append_right (Nat.le_refl _), Nat.sub_self] at placed
    cases placed
    rw [text.opens] at opens
    cases opens
    exact mark
  · -- What follows the text between the brackets does not change what is directly in it.
    have linked := (Nesting.linked_ofTokens before).push text.opener
    have size : ((Nesting.ofTokens before).push text.opener).tokens.size = before.length + 1 := by
      simp [Nesting.tokens_push, Nesting.tokens_ofTokens]
    have start : (Nesting.ofTokens before).tokens.size = before.length := by
      simp [Nesting.tokens_ofTokens]
    have direct := linked.directIn_balanced text.inside
    rw [Nesting.topOf_push_opening _ text.opens, size, start] at direct
    have run : Nesting.ofTokens (before ++ text.opener :: (text.inner ++ text.closer :: after)) =
        (text.closer :: after).foldl Nesting.push
          (text.inner.foldl Nesting.push ((Nesting.ofTokens before).push text.opener)) := by
      simp [Nesting.ofTokens]
    have count : before.length + text.inner.length + 1 - (before.length + 1) =
        text.inner.length := by
      omega
    rw [Nesting.directTokens_eq_directIn, Nesting.endOf, closed, opener, Option.getD_some, count,
      run, (linked.foldl_push text.inner).directIn_foldl_push _ _
        (by rw [Nesting.size_foldl_push, size])]
    exact direct

end Token.Bracketed

end CursorContext
