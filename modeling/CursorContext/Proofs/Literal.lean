import CursorContext.Proofs.CursorCall
import CursorContext.Proofs.Nesting.Unplaced
import CursorContext.Proofs.Token.Literal

/-!
What a literal says and the structure around it. Brackets, commas, comments or tags in a literal are
only text: with other contents all frames are the same, the cursor is in the same call, and the
arguments of every frame are divided at the same places.
-/
namespace CursorContext

namespace Token

theorem hushed_of_ne {token : Token} (other : token.kind ≠ .string) :
    token.hushed = token.unplaced := by
  simp [hushed, unplaced, other]

theorem isOperator_hushed (token : Token) (operators : List String) :
    token.hushed.isOperator operators = token.isOperator operators := by
  by_cases string : token.kind = .string
  · simp only [isOperator, kind_hushed, string]
    rfl
  · rw [hushed_of_ne string, isOperator_unplaced]

theorem isKeyword_hushed (token : Token) (words : List String) :
    token.hushed.isKeyword words = token.isKeyword words := by
  by_cases string : token.kind = .string
  · simp only [isKeyword, kind_hushed, string]
    rfl
  · rw [hushed_of_ne string, isKeyword_unplaced]

theorem text_hushed_of_isName {token : Token} (named : token.isName = true) :
    token.hushed.text = token.text := by
  have other : token.kind ≠ .string := by
    intro string
    simp [isName, string] at named
  rw [hushed_of_ne other, text_unplaced]

theorem isView_hushed : IsView hushed where
  opens token := by
    by_cases string : token.kind = .string
    · simp [opening?, kind_hushed, string]
    · rw [hushed_of_ne string, opening?_unplaced]
  closes token := by
    by_cases string : token.kind = .string
    · simp [closing?, kind_hushed, string]
    · rw [hushed_of_ne string, closing?_unplaced]
  role previous earlier := by
    have word : (earlier.map hushed).any (·.isKeyword ["function", "fn"]) =
        earlier.any (·.isKeyword ["function", "fn"]) := by
      simp [Option.any_map, isKeyword_hushed]
    cases previous with
    | none => rfl
    | some token =>
      by_cases string : token.kind = .string
      · simp only [Option.map_some, Role.ofRound, kind_hushed, string]
      · simp only [Option.map_some, hushed_of_ne string, Role.ofRound, Role.afterWord, word,
          kind_unplaced, text_unplaced, isKeyword_unplaced]
        rfl

end Token

namespace Nesting

variable {tokens others : List Token}

theorem cursorCall_alike {nesting other : Nesting} (alike : Alike Frame.unplaced nesting other)
    (inComment : Bool) :
    (nesting.cursorCall inComment).map Frame.unplaced =
      (other.cursorCall inComment).map Frame.unplaced := by
  rw [← cursorCall_unplaced, ← cursorCall_unplaced, cursorCall, cursorCall, unplaced, unplaced,
    alike.stack]

theorem getElem?_hushed (same : tokens.map Token.hushed = others.map Token.hushed) (index : Nat) :
    tokens[index]?.map Token.hushed = others[index]?.map Token.hushed := by
  rw [← List.getElem?_map, same, List.getElem?_map]

theorem operatorAt_hushed (same : tokens.map Token.hushed = others.map Token.hushed)
    (operator : String) (index : Nat) :
    (ofTokens tokens).operatorAt operator index = (ofTokens others).operatorAt operator index := by
  have view (tokens : List Token) : (ofTokens tokens).operatorAt operator index =
      (tokens[index]?.map Token.hushed).any (·.isOperator [operator]) := by
    simp [operatorAt, tokens_ofTokens, Option.any_map, Token.isOperator_hushed]
  rw [view, view, getElem?_hushed same]

theorem split_hushed (same : tokens.map Token.hushed = others.map Token.hushed) {frame twin : Frame}
    (opener : frame.opener = twin.opener) (stop : Nat) :
    (ofTokens tokens).split frame stop = (ofTokens others).split twin stop := by
  have alike := ofTokens_of_view Token.isView_hushed same
  simp only [split, directCommas, operatorAt_hushed same, alike.enclosing, opener]

/-- The bounds of the pieces of a frame. -/
def segments? (nesting : Nesting) (frame : Frame) (stop : Int) : Option (List (Nat × Int)) :=
  (nesting.splitSigned? frame stop).map (·.map fun (start, stop, _) => (start, stop))

theorem segments?_hushed (same : tokens.map Token.hushed = others.map Token.hushed)
    {frame twin : Frame} (opener : frame.opener = twin.opener) (stop : Int) :
    (ofTokens tokens).segments? frame stop = (ofTokens others).segments? twin stop := by
  have size : (ofTokens tokens).tokens.size = (ofTokens others).tokens.size :=
    (ofTokens_of_view Token.isView_hushed same).size
  simp only [segments?, splitSigned?, size, split_hushed same opener, opener]
  split
  · rfl
  · split <;> simp [Function.comp_def]

/-- A frame ends at the same token and is divided at the same places. -/
theorem division_hushed (same : tokens.map Token.hushed = others.map Token.hushed) {index : Nat}
    {frame twin : Frame} (there : (ofTokens tokens).frameAt index = some frame)
    (there' : (ofTokens others).frameAt index = some twin) :
    (ofTokens tokens).endOf frame = (ofTokens others).endOf twin ∧
      ∀ stop, (ofTokens tokens).segments? frame stop = (ofTokens others).segments? twin stop := by
  have alike := ofTokens_of_view Token.isView_hushed same
  have found := alike.frameAt index
  rw [there, there'] at found
  have unplaced : frame.unplaced = twin.unplaced := Option.some.inj found
  have opener : frame.opener = twin.opener := by simpa using congrArg Frame.opener unplaced
  have closer : frame.closer = twin.closer := by simpa using congrArg Frame.closer unplaced
  constructor
  · rw [endOf, endOf, alike.size, closer]
  · exact segments?_hushed same opener

/-- The name of the function called depends on no literal. -/
theorem calledFunction?_hushed (same : tokens.map Token.hushed = others.map Token.hushed)
    (symbols symbols' : Symbols) (head : Nat) :
    (calledFunction? (ofTokens tokens) symbols head).map (·.1) =
      (calledFunction? (ofTokens others) symbols' head).map (·.1) := by
  have creation : isCreation tokens head = isCreation others head := by
    have view (tokens : List Token) : isCreation tokens head =
        (0 < head && (tokens[head - 1]?.map Token.hushed).any (·.isKeyword ["new"])) := by
      simp [isCreation, Option.any_map, Token.isKeyword_hushed]
    rw [view, view, getElem?_hushed same]
  have name : (tokens[head]?.filter (·.isName)).map (·.text) =
      (others[head]?.filter (·.isName)).map (·.text) := by
    have view (tokens : List Token) : (tokens[head]?.filter (·.isName)).map (·.text) =
        ((tokens[head]?.map Token.hushed).filter (·.isName)).map (·.text) := by
      cases tokens[head]? with
      | none => rfl
      | some token =>
        have kept : token.hushed.isName = token.isName := rfl
        cases named : token.isName with
        | false => simp [Option.filter, named, kept]
        | true => simp [Option.filter, named, kept, Token.text_hushed_of_isName named]
    rw [view, view, getElem?_hushed same]
  have called (tokens : List Token) (symbols : Symbols) :
      (calledFunction? (ofTokens tokens) symbols head).map (·.1) =
        ((tokens[head]?.filter (·.isName)).map (·.text)).map fun name =>
          if isCreation tokens head then "__construct" else Name.trimStart name := by
    rw [calledFunction?_name, Option.map_map]
    rfl
  rw [called, called, name, creation]

theorem context?_hushed (same : tokens.map Token.hushed = others.map Token.hushed)
    (inComment : Bool) :
    ((ofTokens tokens).context? inComment).map (·.function) =
      ((ofTokens others).context? inComment).map (·.function) := by
  have call := cursorCall_alike (ofTokens_of_view Token.isView_hushed same) inComment
  have through (nesting : Nesting) : (nesting.context? inComment).map (·.function) =
      ((nesting.cursorCall inComment).map Frame.unplaced).bind fun frame =>
        frame.callee.bind fun head =>
          (calledFunction? nesting (.ofNesting nesting) head).map (·.1) := by
    rw [context?_function, Option.bind_map]
    rfl
  rw [through, through, call]
  simp only [calledFunction?_hushed same _ (.ofNesting (ofTokens others))]

end Nesting

/-- What a literal says leaves no trace outside it. The tokens that carry syntax are the same but for
its text and the places behind it, and so are the frames, the call the cursor is in and the bounds of
the arguments of every frame. There is a context for both texts, of the same function, or for none. -/
theorem literal_contents_hidden (quote : Char) (before contents other after : String)
    (isQuote : quote ∈ Token.quotes) (plain : Token.Plain quote contents)
    (plain' : Token.Plain quote other)
    (begins : Token.LiteralBegins quote before contents after)
    (begins' : Token.LiteralBegins quote before other after) :
    let scanned := Token.scan (before ++ quoted quote contents ++ after)
    let scanned' := Token.scan (before ++ quoted quote other ++ after)
    let nesting := Nesting.ofTokens (Token.logical scanned)
    let nesting' := Nesting.ofTokens (Token.logical scanned')
    (∃ front rest rest',
      Token.logical scanned = front ++ Token.literal quote contents before.length :: rest ∧
      Token.logical scanned' = front ++ Token.literal quote other before.length :: rest' ∧
      rest.map (fun token => (token.kind, token.text, token.terminated)) =
        rest'.map (fun token => (token.kind, token.text, token.terminated))) ∧
    nesting.frames.map Frame.unplaced = nesting'.frames.map Frame.unplaced ∧
    (nesting.cursorCall (Token.endsInComment scanned)).map Frame.unplaced =
      (nesting'.cursorCall (Token.endsInComment scanned')).map Frame.unplaced ∧
    (∀ index frame twin, nesting.frameAt index = some frame → nesting'.frameAt index = some twin →
      nesting.endOf frame = nesting'.endOf twin ∧
      ∀ stop, nesting.segments? frame stop = nesting'.segments? twin stop) ∧
    (Context.ofBuffer (before ++ quoted quote contents ++ after)).isSome =
      (Context.ofBuffer (before ++ quoted quote other ++ after)).isSome ∧
    (Context.ofBuffer (before ++ quoted quote contents ++ after)).map (·.function) =
      (Context.ofBuffer (before ++ quoted quote other ++ after)).map (·.function) := by
  intro scanned scanned' nesting nesting'
  have hushed := Token.hushed_scan isQuote plain plain' begins begins'
  have same : (Token.logical scanned).map Token.hushed =
      (Token.logical scanned').map Token.hushed := by
    rw [← Token.logical_map Token.kind_hushed, hushed, Token.logical_map Token.kind_hushed]
  have comment : Token.endsInComment scanned = Token.endsInComment scanned' := by
    rw [← Token.endsInComment_map Token.kind_hushed Token.terminated_hushed, hushed,
      Token.endsInComment_map Token.kind_hushed Token.terminated_hushed]
  have alike : Nesting.Alike Frame.unplaced nesting nesting' :=
    Nesting.ofTokens_of_view Token.isView_hushed same
  have function : (Context.ofBuffer (before ++ quoted quote contents ++ after)).map (·.function) =
      (Context.ofBuffer (before ++ quoted quote other ++ after)).map (·.function) := by
    rw [Context.ofBuffer, Context.ofBuffer, Nesting.context?_hushed same, comment]
  refine ⟨?_, alike.frames, ?_, ?_, ?_, function⟩
  · obtain ⟨front, rest, rest', first, second, behind⟩ :=
      Token.logical_scan_literals isQuote plain plain' begins begins'
    refine ⟨front, rest, rest', first, second, ?_⟩
    have said := congrArg
      (List.map fun token : Token => (token.kind, token.text, token.terminated)) behind
    rwa [List.map_map, List.map_map] at said
  · rw [comment]
    exact Nesting.cursorCall_alike alike _
  · exact fun index frame twin there there' => Nesting.division_hushed same there there'
  · have some := congrArg Option.isSome function
    rwa [Option.isSome_map, Option.isSome_map] at some

/-- A tag, brackets and the opener of a heredoc in a literal open nothing. -/
theorem bracket_in_literal :
    let scanned := Token.scan ("f(1, " ++ quoted '\x22' "?> ([<<<A" ++ ", $x[")
    (Nesting.ofTokens (Token.logical scanned)).frames.length = 2 ∧
      (Context.ofBuffer ("f(1, " ++ quoted '\x22' "?> ([<<<A" ++ ", $x[")).map (·.function) =
        (Context.ofBuffer ("f(1, " ++ quoted '\x22' "" ++ ", $x[")).map (·.function) := by
  have same := literal_contents_hidden '\x22' "f(1, " "" "?> ([<<<A" ", $x[" (by decide)
    (by decide +kernel) (by decide +kernel) (by decide +kernel) (by decide +kernel)
  refine ⟨?_, same.2.2.2.2.2.symm⟩
  have frames := congrArg List.length same.2.1
  rw [List.length_map, List.length_map] at frames
  rw [← frames]
  decide +kernel

end CursorContext
