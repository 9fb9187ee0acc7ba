import CursorContext.Proofs.Symbols.ScopeChain
import CursorContext.Proofs.Symbols.WrittenHeader

/-!
Functions keep their variables to themselves. A function is entered with a scope that holds its
parameters and what it captures, and once the pass is behind the body the scopes around it are what
they were at the keyword, whatever the body declares and binds. The same holds for the expression of
an arrow function, which ends at the first separator next to it or with the frame around it.
-/
namespace CursorContext.Symbols

open Token

variable {nesting : Nesting}

/-- In a text `use` stands only directly in front of a round bracket. -/
def OnlyCaptures (text : List Token) : Prop :=
  ∀ k token, text[k]? = some token → token.isKeyword ["use"] = true →
    text[k + 1]?.any (·.opening? == some .round) = true

instance (text : List Token) : Decidable (OnlyCaptures text) :=
  decidable_of_iff
    (∀ k : Fin text.length, text[k].isKeyword ["use"] = true →
      text[k.val + 1]?.any (·.opening? == some .round) = true) <| by
    constructor
    · intro checked k token placed uses
      obtain ⟨bound, rfl⟩ := List.getElem?_eq_some_iff.mp placed
      exact checked ⟨k, bound⟩ uses
    · intro only k uses
      exact only k _ (List.getElem?_eq_getElem k.isLt) uses

/-- A closing bracket behind the text makes no difference. -/
theorem OnlyCaptures.of_closed {text : List Token} {closer : Token} {bracket : Bracket}
    (only : OnlyCaptures (text ++ [closer])) (closes : closer.closing? = some bracket) :
    OnlyCaptures text := by
  intro k word placed uses
  obtain ⟨bound, -⟩ := List.getElem?_eq_some_iff.mp placed
  have next := only k word (by rw [List.getElem?_append_left bound, placed]) uses
  by_cases inside : k + 1 < text.length
  · rwa [List.getElem?_append_left inside] at next
  · have last : k + 1 = text.length := by omega
    rw [last, List.getElem?_concat_length, Option.any_some, opening?_of_closing? closes] at next
    cases next

/-- Nor does a text in which no `use` stands. -/
theorem OnlyCaptures.append {text other : List Token} (only : OnlyCaptures text)
    (none : ∀ token ∈ other, token.isKeyword ["use"] = false) : OnlyCaptures (text ++ other) := by
  intro k word placed uses
  by_cases inside : k < text.length
  · rw [List.getElem?_append_left inside] at placed
    obtain ⟨list, next, opens⟩ := (Option.any_eq_true _ _).mp (only k word placed uses)
    obtain ⟨bound, -⟩ := List.getElem?_eq_some_iff.mp next
    rw [List.getElem?_append_left bound, next]
    exact opens
  · rw [List.getElem?_append_right (by omega)] at placed
    rw [none word (List.mem_of_getElem? placed)] at uses
    cases uses

/-- The text may stand anywhere. -/
theorem OnlyCaptures.within {text : List Token} (only : OnlyCaptures text)
    (before after : List Token) {k : Nat} {word : Token} (begun : before.length ≤ k)
    (inside : k < before.length + text.length)
    (placed : (before ++ (text ++ after))[k]? = some word) (uses : word.isKeyword ["use"] = true) :
    (before ++ (text ++ after))[k + 1]?.any (·.opening? == some .round) = true := by
  obtain ⟨j, rfl⟩ := Nat.exists_eq_add_of_le begun
  rw [List.getElem?_append_right begun, Nat.add_sub_cancel_left,
    List.getElem?_append_left (by omega)] at placed
  obtain ⟨list, next, opens⟩ := (Option.any_eq_true _ _).mp (only j word placed uses)
  obtain ⟨bound, -⟩ := List.getElem?_eq_some_iff.mp next
  rw [List.getElem?_append_right (by omega), Nat.add_assoc, Nat.add_sub_cancel_left,
    List.getElem?_append_left bound, next]
  exact opens

namespace WrittenHeader

/-- The type with which a variable begins in a function that is declared among `symbols`, if the
function has such a variable. -/
def initialType? (header : WrittenHeader) (symbols : Symbols) (name : String) :
    Option (Option ClassRef) :=
  if name ∈ header.captured then some (symbols.typeOf name)
  else ((header.parameters symbols).reverse.find? (·.name == name)).map (·.type)

/-- Without captures, no `use` follows the list of parameters. -/
theorem no_use (header : WrittenHeader) {arrow : Bool} {start : Nat} {token : Token}
    {extent : Extent} (begun : Begun nesting arrow start token extent) {text : List Token}
    (only : OnlyCaptures (header.tokens ++ token :: text)) (plain : header.captures = none)
    (later : List Token) :
    (header.types ++ token :: later).head?.any (·.isKeyword ["use"]) = false := by
  have other : token.isKeyword ["use"] = false := by
    cases begun with
    | body opens => simp [Token.isKeyword, kind_of_opening? opens]
    | arrow _ operator =>
      have kind := (Bool.and_eq_true_iff.mp operator).1
      simp [Token.isKeyword, eq_of_beq kind]
  have apart : token.opening? ≠ some .round := by
    cases begun with
    | body opens => simp [opens]
    | arrow _ operator => simp [opening?_of_isOperator operator]
  cases types : header.types with
  | nil => simp [other]
  | cons type rest =>
    by_contra uses
    have uses' : type.isKeyword ["use"] = true := by simpa using uses
    -- Neither the rest of a return type nor what follows it begins a list.
    have whole : header.tokens ++ token :: text =
        (header.front ++ header.list.tokens) ++ type :: (rest ++ token :: text) := by
      simp [tokens, captureTokens, plain, types]
    have list := only (header.front ++ header.list.tokens).length type
      (by rw [whole, List.getElem?_append_right (Nat.le_refl _), Nat.sub_self]; rfl) uses'
    rw [whole, List.getElem?_append_right (Nat.le_add_right _ 1), Nat.add_sub_cancel_left,
      List.getElem?_cons_succ] at list
    cases rest with
    | nil => simp [apart] at list
    | cons next rest =>
      have typed := header.typed next (by simp [types])
      have kind : next.kind ≠ .opener := by
        intro kind
        simp [isReturnType, Token.isName, Token.isOperator, kind] at typed
      simp [Token.opening?, kind] at list

end WrittenHeader

/-! ### From the keyword into the function -/

theorem readStatement_function {place : Place}
    (begins : place.here.isKeyword ["function", "fn"] = true) (symbols : Symbols) :
    readStatement nesting place symbols =
      readFunction nesting place (symbols.leave nesting place.index place.here) := by
  simp only [Token.isKeyword, Bool.and_eq_true, beq_iff_eq, List.contains_cons, List.contains_nil,
    Bool.or_false, Bool.or_eq_true] at begins
  obtain ⟨keyword, word | word⟩ := begins <;> simp [readStatement, readKeyword, keyword, word]

/-- Once the pass comes to the keyword of a complete header, it enters the function. -/
theorem begins_passUpTo (header : WrittenHeader) (before later : List Token) {token : Token}
    {extent : Extent}
    (begun : Begun nesting (header.keyword.isKeyword ["fn"])
      (before.length + header.tokens.length) token extent)
    (captures : header.captures = none →
      (header.types ++ token :: later).head?.any (·.isKeyword ["use"]) = false)
    (written : nesting = .ofTokens (before ++ (header.tokens ++ token :: later)))
    (comes : comesTo nesting before.length = true) :
    let outer := (passUpTo nesting before.length).symbols
    Begins outer { bindings := outer.initialBindings (header.said outer), extent }
      (before.length + header.tokens.length + 1)
      (passUpTo nesting (before.length + header.tokens.length + 1)) := by
  intro outer
  have ended : nesting.Ended := written ▸ Nesting.ended_ofTokens _
  have placed : nesting.tokens[before.length]? = some header.keyword := by
    rw [written, Nesting.tokens_ofTokens]
    simp [WrittenHeader.tokens, WrittenHeader.front]
  have keyword : header.keyword.kind = .keyword :=
    eq_of_beq (Bool.and_eq_true_iff.mp header.begins).1
  have plain : header.keyword.isOperator [",", ";"] = false := by simp [Token.isOperator, keyword]
  have closes : header.keyword.closing? = none := by simp [Token.closing?, keyword]
  have reads : passUpTo nesting (before.length + 1) =
      readFunction nesting (nesting.placeAt before.length header.keyword) outer := by
    rw [passUpTo_read placed comes, read_keyword keyword, readStatement_function header.begins]
    exact congrArg _ (leave_eq_self ended placed closes plain)
  have begins := begins_readFunction outer header before later begun captures written
  rw [← reads] at begins
  -- The pass goes on behind the token that begins the body.
  have length : header.tokens.length + before.length < nesting.tokens.size := by
    rw [written, Nesting.tokens_ofTokens]
    simp
    omega
  have front : 0 < header.tokens.length := by simp [WrittenHeader.tokens, WrittenHeader.front]
  have same : passUpTo nesting (before.length + header.tokens.length + 1) =
      passUpTo nesting (before.length + 1) :=
    passUpTo_between (by omega) (Nat.le_of_eq begins.resume.symm) (by omega)
  rw [same]
  exact begins

/-- The frame around what follows a header is the one up to which the function's scope reaches. -/
theorem Begun.topOf_eq {start : Nat} {arrow : Bool} {token : Token} {extent : Extent}
    (begun : Begun nesting arrow start token extent) {front later : List Token}
    (length : front.length = start) (written : nesting = .ofTokens (front ++ token :: later)) :
    Nesting.topOf (Nesting.ofTokens (front ++ [token])).stack = extent.frame? := by
  subst length
  rw [Nesting.ofTokens_append]
  cases begun with
  | body opens =>
    have opened := Nesting.topOf_push_opening (.ofTokens front) opens
    simpa [Nesting.tokens_ofTokens, Extent.frame?] using opened
  | arrow _ operator =>
    have opens := opening?_of_isOperator operator
    have closes := closing?_of_isOperator operator
    have around := Nesting.enclosing_behind front .nil opens closes later
    rw [List.nil_append, ← written] at around
    rw [Nesting.stack_foldl_push (.plain opens closes .nil), ← around]
    rfl

/-- What is between the ends of a function is a stretch that the pass goes through. -/
theorem stretch_of_written (header : WrittenHeader) (before : List Token) {token : Token}
    {extent : Extent}
    (begun : Begun nesting (header.keyword.isKeyword ["fn"])
      (before.length + header.tokens.length) token extent)
    {text : List Token} (balanced : Balanced text) (after : List Token)
    (only : OnlyCaptures (header.tokens ++ token :: text))
    (written : nesting = .ofTokens
      (before ++ (header.tokens ++ token :: (text ++ after)))) :
    Stretch nesting extent.frame? (before.length + header.tokens.length + 1)
      (before.length + header.tokens.length + 1 + text.length) := by
  have front : nesting = .ofTokens (before ++ header.tokens ++ token :: (text ++ after)) := by
    rw [written, List.append_assoc]
  have split : before ++ header.tokens ++ token :: (text ++ after) =
      before ++ header.tokens ++ [token] ++ (text ++ after) := by simp
  have length : (before ++ header.tokens ++ [token]).length =
      before.length + header.tokens.length + 1 := by simp [Nat.add_assoc]
  have closed := Nesting.sealed_of_balanced (before ++ header.tokens ++ [token]) balanced after
  rw [length, begun.topOf_eq List.length_append front, ← split, ← front] at closed
  refine ⟨closed, ?_⟩
  intro k word begun inside placed uses
  have whole : before ++ (header.tokens ++ token :: (text ++ after)) =
      before ++ ((header.tokens ++ token :: text) ++ after) := by simp
  rw [written, Nesting.tokens_ofTokens, List.getElem?_toArray, whole] at placed ⊢
  apply only.within before after (by omega) ?_ placed uses
  simp
  omega

theorem topOf_behind_opener (before : List Token) {opener : Token} {bracket : Bracket}
    (opens : opener.opening? = some bracket) :
    Nesting.topOf (Nesting.ofTokens (before ++ [opener])).stack = some before.length := by
  rw [Nesting.ofTokens_append]
  have opened := Nesting.topOf_push_opening (.ofTokens before) opens
  simpa [Nesting.tokens_ofTokens] using opened

/-- A token behind balanced text stands in the frame that the bracket before the text opens. -/
theorem enclosing_inside {bracket : Bracket} {before text later : List Token}
    {opener token : Token} (opens : opener.opening? = some bracket) (balanced : Balanced text)
    (plain : token.opening? = none ∧ token.closing? = none)
    (written : nesting = .ofTokens (before ++ opener :: (text ++ token :: later))) :
    nesting.enclosing (before.length + 1 + text.length) = some before.length := by
  have split : before ++ opener :: (text ++ token :: later) =
      before ++ [opener] ++ (text ++ token :: later) := by simp
  have length : (before ++ [opener]).length = before.length + 1 := by simp
  have behind := Nesting.enclosing_behind (before ++ [opener]) balanced plain.1 plain.2 later
  rwa [length, topOf_behind_opener before opens, ← split, ← written] at behind

/-- Balanced text behind an opening bracket. -/
theorem stretch_inside {bracket : Bracket} {before text later : List Token} {opener : Token}
    (opens : opener.opening? = some bracket) (balanced : Balanced text) (only : OnlyCaptures text)
    (written : nesting = .ofTokens (before ++ opener :: (text ++ later))) :
    Stretch nesting (some before.length) (before.length + 1) (before.length + 1 + text.length) := by
  have split : before ++ opener :: (text ++ later) = before ++ [opener] ++ (text ++ later) := by
    simp
  have length : (before ++ [opener]).length = before.length + 1 := by simp
  have closed := Nesting.sealed_of_balanced (before ++ [opener]) balanced later
  rw [length, topOf_behind_opener before opens, ← split, ← written] at closed
  refine ⟨closed, ?_⟩
  intro k word begun inside placed uses
  rw [written, Nesting.tokens_ofTokens, List.getElem?_toArray, split] at placed ⊢
  exact only.within (before ++ [opener]) later (by omega) (by omega) placed uses

theorem placed_behind (before front text after : List Token) {token stop : Token}
    (written : nesting = .ofTokens (before ++ (front ++ token :: (text ++ stop :: after)))) :
    nesting.tokens[before.length + front.length + 1 + text.length]? = some stop := by
  have place : before.length + front.length + 1 + text.length =
      (before ++ (front ++ token :: text)).length := by
    simp
    omega
  rw [written, Nesting.tokens_ofTokens, List.getElem?_toArray, place]
  simp

/-- Right behind the token at `start` the chain is that of `outer` with a scope on top that holds
the parameters and captured variables of the header. -/
def StartsWith (nesting : Nesting) (header : WrittenHeader) (outer : Symbols) (start : Nat) :
    Prop :=
  ∃ fresh, (passUpTo nesting (start + 1)).symbols.scopes = fresh :: outer.scopes ∧
    ∀ name, fresh.bindings[name]? = header.initialType? outer name

theorem Begins.startsWith {header : WrittenHeader} {outer : Symbols} {extent : Extent} {start : Nat}
    (begins : Begins outer { bindings := outer.initialBindings (header.said outer), extent }
      (start + 1) (passUpTo nesting (start + 1))) : StartsWith nesting header outer start :=
  ⟨_, begins.scopes, fun name => getElem?_initialBindings outer (header.said outer) name⟩

/-! ### Bodies -/

/-- The bracket behind bracketed text ends no scope from before it. -/
theorem scopes_stay {bracket : Bracket} (before front : List Token) (text : Bracketed bracket)
    (after : List Token)
    (written : nesting = .ofTokens (before ++ (front ++ (text.tokens ++ after))))
    (comes : comesTo nesting before.length = true) :
    (passUpTo nesting before.length).symbols.scopes.dropWhile
        (scopeEnds nesting (before.length + front.length + 1 + text.inner.length) text.closer) =
      (passUpTo nesting before.length).symbols.scopes := by
  have linked : nesting.Linked := written ▸ Nesting.linked_ofTokens _
  have formed : nesting.Formed := written ▸ Nesting.formed_ofTokens _
  have whole := Nesting.sealed_of_balanced (before ++ front) text.balanced after
  rw [List.append_assoc, ← written, List.length_append, text.length_tokens] at whole
  have within := whole.within
  have stays : ∀ scope ∈ (passUpTo nesting before.length).symbols.scopes,
      scopeEnds nesting (before.length + front.length + 1 + text.inner.length) text.closer scope =
        false := by
    intro scope member
    apply scopeEnds_eq_false
    · simp [Token.isOperator, kind_of_closing? text.closes]
    · intro f named
      by_contra ends
      -- A frame that ends here begins in the text, and one of an open scope before it.
      have later := whole.opens f _ (by simpa [bodyEnds] using ends) (by omega) (by omega)
      have earlier := begun_passUpTo linked formed (show before.length ≤ _ by omega) f
        (List.mem_map.mpr ⟨scope, member, named⟩)
      have reached : (passUpTo nesting before.length).resume ≤ before.length :=
        of_decide_eq_true comes
      omega
  apply List.dropWhile_eq_self_iff.mpr
  intro _
  simp [stays]

/-- The body of a function is left with its closing bracket, and everything around is as before. -/
theorem body_left (header : WrittenHeader) (before : List Token) (body : Bracketed .curly)
    (after : List Token) (only : OnlyCaptures (header.tokens ++ body.tokens))
    (written : nesting = .ofTokens (before ++ (header.tokens ++ (body.tokens ++ after))))
    (comes : comesTo nesting before.length = true) :
    let outer := (passUpTo nesting before.length).symbols
    let start := before.length + header.tokens.length
    let close := start + 1 + body.inner.length
    StartsWith nesting header outer start ∧ comesTo nesting close = true ∧
      (passUpTo nesting (close + 1)).symbols.scopes = outer.scopes ∧
      (passUpTo nesting (close + 1)).symbols.file = outer.file := by
  intro outer start close
  have linked : nesting.Linked := written ▸ Nesting.linked_ofTokens _
  have formed : nesting.Formed := written ▸ Nesting.formed_ofTokens _
  have ended : nesting.Ended := written ▸ Nesting.ended_ofTokens _
  have written' : nesting = .ofTokens (before ++ (header.tokens ++
      body.opener :: (body.inner ++ body.closer :: after))) := by
    simp [written, Bracketed.tokens]
  have only' : OnlyCaptures (header.tokens ++ body.opener :: body.inner) := by
    apply OnlyCaptures.of_closed _ body.closes
    simpa [Bracketed.tokens] using only
  have begun : Begun nesting (header.keyword.isKeyword ["fn"]) start body.opener (.body start) :=
    .body body.opens
  have begins := begins_passUpTo header before _ begun
    (fun plain => header.no_use begun only' plain _) written' comes
  have stretch := stretch_of_written header before begun body.inside _ only' written'
  -- The body is a frame, and only its own bracket ends it.
  have closes : nesting.closeOf start = some close := by
    obtain ⟨frame, found, -, closed, -⟩ := body.frame (before ++ header.tokens) after
    rw [List.append_assoc, ← written, List.length_append] at found
    rw [List.length_append] at closed
    simp only [Nesting.closeOf, start, close, found, Option.bind_some, closed]
    congr 1
    omega
  have reached : comesTo nesting (start + 1) = true := by simp [comesTo, begins.resume, start]
  have comes' : comesTo nesting close = true :=
    stretch.comesTo_close linked formed ended begins.importing reached (Nat.le_add_right _ _)
      (Nat.lt_succ_self start) closes
  have entered : Entered nesting (some start) (start + 1) close [.body start] outer := by
    refine ⟨stretch, Nat.le_add_right _ _, begins.importing, begins.file,
      ⟨[_], rfl, begins.scopes⟩, comes', ?_, by simp⟩
    intro k here _ inside _ _
    apply stay_of_own
    simp only [Extent.endsAt, bodyEnds, closes, Option.some_beq_some, beq_eq_false_iff_ne]
    omega
  have ends : ∀ own ∈ [Extent.body start], own.endsAt nesting close body.closer = true :=
    List.forall_mem_singleton.mpr (endsAt_of_closeOf rfl closes _)
  obtain ⟨-, scopes, file⟩ := entered.left linked formed ended
    (placed_behind before header.tokens body.inner after written')
    (.inr (kind_of_closing? body.closes)) ends (endsAt_of_closeOf rfl closes _)
  exact ⟨begins.startsWith, comes',
    scopes.trans (scopes_stay before header.tokens body after written comes), file⟩

/-! ### Arrow functions -/

/-- The token at `last` is the first that ends an arrow function whose arrow is at `start`. It is a
separator next to the arrow that the pass comes to, or it ends the frame around the arrow. -/
structure ArrowEnd (nesting : Nesting) (start last : Nat) (stop : Token) : Prop where
  first : ∀ k token, start < k → k < last → comesTo nesting k = true →
    nesting.tokens[k]? = some token → nesting.enclosing k = nesting.enclosing start →
    token.isOperator [",", ";"] = false
  ends : stop.isOperator [",", ";"] = true ∧ comesTo nesting last = true ∨
    ∃ f, nesting.enclosing start = some f ∧ nesting.closeOf f = some last

namespace ArrowEnd

variable {start last : Nat} {stop : Token}

/-- Nothing is declared or bound at the end. -/
theorem idle (ended : nesting.Ended) (ending : ArrowEnd nesting start last stop)
    (placed : nesting.tokens[last]? = some stop) : stop.kind = .operator ∨ stop.kind = .closer := by
  rcases ending.ends with ⟨separates, -⟩ | ⟨f, -, closed⟩
  · exact .inl (eq_of_beq (Bool.and_eq_true_iff.mp separates).1)
  · obtain ⟨frame, found, closer⟩ := Nesting.closer_of_closeOf closed
    obtain ⟨token, bracket, placed', closing⟩ := ended f frame last found closer
    rw [placed] at placed'
    cases placed'
    exact .inr (kind_of_closing? closing)

/-- The arrow function does not end earlier. -/
theorem stays (ending : ArrowEnd nesting start last stop)
    (stretch : Stretch nesting (nesting.enclosing start) (start + 1) last) {k : Nat} {here : Token}
    (begun : start + 1 ≤ k) (before : k < last) (placed : nesting.tokens[k]? = some here)
    (comes : comesTo nesting k = true) :
    (Extent.arrow (nesting.enclosing start)).endsAt nesting k here = false := by
  -- The frame around ends later, and separators in it are ruled out.
  have frames : (nesting.enclosing start).any (bodyEnds nesting k) = false := by
    by_contra ends
    obtain ⟨f, around, closed⟩ := (Option.any_eq_true _ _).mp (Bool.not_eq_false _ ▸ ends)
    have later := stretch.around f k around (by simpa [bodyEnds] using closed)
    omega
  by_cases same : nesting.enclosing k = nesting.enclosing start
  · simp [Extent.endsAt, frames, ending.first k here begun before comes placed same]
  · simp [Extent.endsAt, frames, same]

end ArrowEnd

/-- The expression of an arrow function is left where the function ends, and the scopes around it
are as before, but for those that end at the same token. -/
theorem arrow_left (header : WrittenHeader) (before : List Token) {arrow stop : Token}
    {expression : List Token} (after : List Token)
    (isArrow : header.keyword.isKeyword ["fn"] = true) (operator : arrow.isOperator ["=>"] = true)
    (balanced : Balanced expression) (only : OnlyCaptures (header.tokens ++ arrow :: expression))
    (written : nesting = .ofTokens
      (before ++ (header.tokens ++ arrow :: (expression ++ stop :: after))))
    (comes : comesTo nesting before.length = true) :
    let outer := (passUpTo nesting before.length).symbols
    let start := before.length + header.tokens.length
    let last := start + 1 + expression.length
    ArrowEnd nesting start last stop →
    StartsWith nesting header outer start ∧ comesTo nesting last = true ∧
      (∃ inner, (passUpTo nesting last).symbols.scopes = inner ++ outer.scopes) ∧
      (passUpTo nesting (last + 1)).symbols.scopes =
        outer.scopes.dropWhile (scopeEnds nesting last stop) ∧
      (passUpTo nesting (last + 1)).symbols.file = outer.file := by
  intro outer start last ending
  have linked : nesting.Linked := written ▸ Nesting.linked_ofTokens _
  have formed : nesting.Formed := written ▸ Nesting.formed_ofTokens _
  have ended : nesting.Ended := written ▸ Nesting.ended_ofTokens _
  have begun : Begun nesting (header.keyword.isKeyword ["fn"]) start arrow
      (.arrow (nesting.enclosing start)) := .arrow isArrow operator
  have begins := begins_passUpTo header before _ begun
    (fun plain => header.no_use begun only plain _) written comes
  have stretch := stretch_of_written header before begun balanced _ only written
  have placed := placed_behind before header.tokens expression after written
  have reached : comesTo nesting (start + 1) = true := by simp [comesTo, begins.resume, start]
  have inside : start < nesting.tokens.size := by
    have within := stretch.within
    omega
  have comes' : comesTo nesting last = true := by
    rcases ending.ends with ⟨-, comes⟩ | ⟨f, around, closed⟩
    · exact comes
    · exact stretch.comesTo_close linked formed ended begins.importing reached
        (Nat.le_add_right _ _) (Nat.lt_succ_of_lt (linked.enclosing_lt inside around)) closed
  have left : (Extent.arrow (nesting.enclosing start)).endsAt nesting last stop = true := by
    rcases ending.ends with ⟨separates, -⟩ | ⟨f, around, closed⟩
    · -- The arrow and what follows the expression stand in the same frame.
      have same := Nesting.enclosing_behind (before ++ header.tokens ++ [arrow]) balanced
        (opening?_of_isOperator separates) (closing?_of_isOperator separates) after
      have place : (before ++ header.tokens ++ [arrow]).length + expression.length = last := by
        simp [last, start, Nat.add_assoc]
      have split : before ++ header.tokens ++ [arrow] ++ (expression ++ stop :: after) =
          before ++ (header.tokens ++ arrow :: (expression ++ stop :: after)) := by simp
      rw [place, begun.topOf_eq List.length_append (by rw [written, List.append_assoc]), split,
        ← written] at same
      simp only [Extent.endsAt, separates, same, Extent.frame?, beq_self_eq_true, Bool.and_self,
        Bool.or_true]
    · have reaches : (Extent.arrow (nesting.enclosing start)).frame? = some f := around
      exact endsAt_of_closeOf reaches closed stop
  have entered : Entered nesting (nesting.enclosing start) (start + 1) last
      [.arrow (nesting.enclosing start)] outer := by
    refine ⟨stretch, Nat.le_add_right _ _, begins.importing, begins.file,
      ⟨[_], rfl, begins.scopes⟩, comes', ?_, by simp⟩
    intro k here begun before placed comes
    exact stay_of_own (ending.stays stretch begun before placed comes) outer
  exact ⟨begins.startsWith, comes',
    entered.left linked formed ended placed (ending.idle ended placed) (by simpa using left) left⟩

/-! ### Both kinds of functions -/

/-- No scope leaks. A function whose keyword the pass comes to begins with a scope of its parameters
and captured variables, and nothing in it touches the scopes around. A body is left with its closing
bracket, an arrow function where it ends, together with the arrow functions around it that end
there. -/
theorem scopes_do_not_leak (header : WrittenHeader) (before after : List Token) :
    (∀ body : Bracketed .curly, OnlyCaptures (header.tokens ++ body.tokens) →
      let nesting := Nesting.ofTokens (before ++ (header.tokens ++ (body.tokens ++ after)))
      let outer := (passUpTo nesting before.length).symbols
      let start := before.length + header.tokens.length
      let close := start + 1 + body.inner.length
      comesTo nesting before.length = true →
      StartsWith nesting header outer start ∧ comesTo nesting close = true ∧
        (passUpTo nesting (close + 1)).symbols.scopes = outer.scopes ∧
        (passUpTo nesting (close + 1)).symbols.file = outer.file) ∧
    (∀ (arrow : Token) (expression : List Token) (stop : Token),
      header.keyword.isKeyword ["fn"] = true → arrow.isOperator ["=>"] = true →
      Balanced expression → OnlyCaptures (header.tokens ++ arrow :: expression) →
      let nesting := Nesting.ofTokens
        (before ++ (header.tokens ++ arrow :: (expression ++ stop :: after)))
      let outer := (passUpTo nesting before.length).symbols
      let start := before.length + header.tokens.length
      let last := start + 1 + expression.length
      comesTo nesting before.length = true → ArrowEnd nesting start last stop →
      StartsWith nesting header outer start ∧ comesTo nesting last = true ∧
        (∃ inner, (passUpTo nesting last).symbols.scopes = inner ++ outer.scopes) ∧
        (passUpTo nesting (last + 1)).symbols.scopes =
          outer.scopes.dropWhile (scopeEnds nesting last stop) ∧
        (passUpTo nesting (last + 1)).symbols.file = outer.file) := by
  constructor
  · intro body only nesting outer start close comes
    exact body_left header before body after only rfl comes
  · intro arrow expression stop isArrow operator balanced only nesting outer start last comes ends
    exact arrow_left header before after isArrow operator balanced only rfl comes ends

/-- A closure begins with its parameter and the variable it captures, which is bound again in it and
outside still has the class it had. An arrow function begins with its parameter alone. The comma
among the arguments of the call does not end it, the one behind the call does. -/
theorem closure_and_arrow_left :
    let token (kind : Kind) (text : String) : Token := { kind, text, start := 0 }
    let list (name : String) : Bracketed .round :=
      { opener := token .opener "(", inner := [token .variable name], closer := token .closer ")",
        opens := by decide, inside := .plain rfl rfl .nil, closes := by decide }
    -- `$b = new B; function ($a) use ($b) { $b = 1; }`
    let assignment := [token .variable "$b", token .operator "=", token .keyword "new",
      token .identifier "B", token .operator ";"]
    let closure : WrittenHeader :=
      { keyword := token .keyword "function", reference := none, name := none, list := list "$a",
        captures := some (token .keyword "use", list "$b"), types := [], begins := by decide,
        refers := by decide, named := by decide, uses := by decide, typed := by decide }
    let body : Bracketed .curly :=
      { opener := token .opener "\x7b",
        inner := [token .variable "$b", token .operator "=", token .number "1",
          token .operator ";"],
        closer := token .closer "\x7d", opens := by decide,
        inside := .plain rfl rfl (.plain rfl rfl (.plain rfl rfl (.plain rfl rfl .nil))),
        closes := by decide }
    let bound := Nesting.ofTokens (assignment ++ (closure.tokens ++ (body.tokens ++ [])))
    -- `$b = new B; f(fn ($a) => g($a, 1),`
    let call := assignment ++ [token .identifier "f", token .opener "("]
    let function : WrittenHeader :=
      { keyword := token .keyword "fn", reference := none, name := none, list := list "$a",
        captures := none, types := [], begins := by decide, refers := by decide,
        named := by decide, uses := by decide, typed := by decide }
    let expression := [token .identifier "g", token .opener "(", token .variable "$a",
      token .operator ",", token .number "1", token .closer ")"]
    let passed := Nesting.ofTokens (call ++
      (function.tokens ++ token .operator "=>" :: (expression ++ token .operator "," :: [])))
    (OnlyCaptures (closure.tokens ++ body.tokens) ∧ comesTo bound 5 = true ∧
      (∃ fresh, (passUpTo bound 14).symbols.scopes = [fresh] ∧
        fresh.bindings["$a"]? = some none ∧ fresh.bindings["$b"]? = some (some ⟨"B", "B"⟩)) ∧
      (passUpTo bound 19).symbols.scopes = [] ∧
      (passUpTo bound 19).symbols.file["$b"]? = some (some ⟨"B", "B"⟩)) ∧
    (OnlyCaptures (function.tokens ++ token .operator "=>" :: expression) ∧
      comesTo passed 7 = true ∧ ArrowEnd passed 11 18 (token .operator ",") ∧
      (∃ fresh, (passUpTo passed 12).symbols.scopes = [fresh] ∧
        fresh.bindings["$a"]? = some none ∧ fresh.bindings["$b"]? = none) ∧
      (passUpTo passed 19).symbols.scopes = []) := by
  intro token list assignment closure body bound call function expression passed
  have captures : OnlyCaptures (closure.tokens ++ body.tokens) := by decide
  have comes : comesTo bound 5 = true := by decide +kernel
  have outside : (passUpTo bound 5).symbols.scopes = [] := List.isEmpty_iff.mp (by decide +kernel)
  have known : (passUpTo bound 5).symbols.file["$b"]? = some (some ⟨"B", "B"⟩) := by
    decide +kernel
  have plain : OnlyCaptures (function.tokens ++ token .operator "=>" :: expression) := by decide
  have comes' : comesTo passed 7 = true := by decide +kernel
  have outside' : (passUpTo passed 7).symbols.scopes = [] :=
    List.isEmpty_iff.mp (by decide +kernel)
  have ends : ArrowEnd passed 11 18 (token .operator ",") := by
    refine ⟨?_, .inl ⟨by decide, by decide +kernel⟩⟩
    have checked : ∀ k : Fin 18, 11 < k.val → passed.enclosing k = passed.enclosing 11 →
        passed.tokens[k.val]?.all (fun token => !token.isOperator [",", ";"]) = true := by
      decide +kernel
    intro k token begun before _ placed same
    have checked := checked ⟨k, before⟩ begun same
    rw [placed] at checked
    simpa using checked
  have balanced : Balanced expression :=
    .plain rfl rfl (@Balanced.pair .round _ _ [_, _, _] [] (by decide)
      (.plain rfl rfl (.plain rfl rfl (.plain rfl rfl .nil))) (by decide) .nil)
  have left := (scopes_do_not_leak closure assignment []).1 body captures comes
  have left' := (scopes_do_not_leak function call []).2 _ expression _ (by decide) (by decide)
    balanced plain comes' ends
  rw [show assignment.length + closure.tokens.length = 13 from rfl,
    show 13 + 1 + body.inner.length = 18 from rfl, show assignment.length = 5 from rfl] at left
  rw [show call.length + function.tokens.length = 11 from rfl,
    show 11 + 1 + expression.length = 18 from rfl, show call.length = 7 from rfl] at left'
  obtain ⟨⟨fresh, chain, starts⟩, -, scopes, file⟩ := left
  obtain ⟨⟨fresh', chain', starts'⟩, -, -, scopes', -⟩ := left'
  refine ⟨⟨captures, comes, ⟨fresh, ?_, ?_, ?_⟩, ?_, ?_⟩, plain, comes', ends,
    ⟨fresh', ?_, ?_, ?_⟩, ?_⟩
  · rw [chain, outside]
  · rw [starts]
    decide +kernel
  · rw [starts]
    decide +kernel
  · rw [scopes, outside]
  · rw [file, known]
  · rw [chain', outside']
  · rw [starts']
    decide +kernel
  · rw [starts']
    decide +kernel
  · rw [scopes', outside', List.dropWhile_nil]

end CursorContext.Symbols
