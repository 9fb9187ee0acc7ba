import CursorContext.Proofs.Symbols.Progress

/-!
The lists that declare variables. The header of a function has its parameter list behind the keyword,
the mark of a result by reference and the name, of which the last two may be missing. A handler of
exceptions has its list directly behind its word.
-/
namespace CursorContext.Symbols

variable {nesting : Nesting} {index : Nat} {word : Token}

/-- Whether the function whose keyword stands at `index` gives its result by reference. -/
def givesReference (nesting : Nesting) (index : Nat) : Bool :=
  nesting.tokens[index + 1]?.any (·.isOperator ["&"])

/-- Where the name of the function stands, if it has one. -/
def nameIndex (nesting : Nesting) (index : Nat) : Nat :=
  if givesReference nesting index then index + 2 else index + 1

/-- The name of the function with the keyword `word` at `index`. -/
def functionName? (nesting : Nesting) (index : Nat) (word : Token) : Option Token :=
  if word.isKeyword ["fn"] then none
  else nesting.tokens[nameIndex nesting index]?.filter (·.isName)

/-- Where the parameter list is expected. -/
def listIndex (nesting : Nesting) (index : Nat) (word : Token) : Nat :=
  if (functionName? nesting index word).isSome then nameIndex nesting index + 1
  else nameIndex nesting index

/-- The parameter list of the function with the keyword `word` at `index`. -/
def parameterList? (nesting : Nesting) (index : Nat) (word : Token) : Option Frame :=
  (nesting.frameAt (listIndex nesting index word)).filter (·.mark == Bracket.round.opening)

/-- Whether the token at `i` stands directly in the finished parameter list of a function. -/
def InParameterList (nesting : Nesting) (i : Nat) : Prop :=
  ∃ index word frame, nesting.tokens[index]? = some word ∧
    word.isKeyword ["function", "fn"] = true ∧ parameterList? nesting index word = some frame ∧
    frame.closer.isSome = true ∧ nesting.enclosing i = some frame.opener

/-- A handler of exceptions whose list the token at an index stands directly in. -/
def inHandlerList (nesting : Nesting) (index : Nat) : Bool :=
  (nesting.enclosing index).any fun list => (nesting.tokenBefore list 1).any fun token =>
    token.kind == .identifier && Text.lower token.text == "catch"

/-- What the header has said behind its list. -/
def listedHeader (nesting : Nesting) (index : Nat) (word : Token) (symbols : Symbols)
    (frame : Frame) : FunctionHeader where
  arrow := word.isKeyword ["fn"]
  name := (functionName? nesting index word).map (·.text)
  parameters := symbols.parameters nesting frame
  captured := []

theorem lt_nameIndex (nesting : Nesting) (index : Nat) : index < nameIndex nesting index := by
  unfold nameIndex
  split <;> omega

theorem lt_listIndex (nesting : Nesting) (index : Nat) (word : Token) :
    index < listIndex nesting index word := by
  have first := lt_nameIndex nesting index
  unfold listIndex
  split <;> omega

/-- A header is read up to its list, and further if the list is finished. -/
theorem readFunction_placeAt (nesting : Nesting) (index : Nat) (word : Token) (symbols : Symbols) :
    readFunction nesting (nesting.placeAt index word) symbols =
      (parameterList? nesting index word).elim
        { symbols, resume := listIndex nesting index word } fun frame =>
        frame.closer.elim { symbols, resume := listIndex nesting index word + 1 } fun close =>
          readCaptures nesting (nesting.placeAt index word) symbols
            (listedHeader nesting index word symbols frame) (close + 1) := by
  -- What the header looks up ahead of its place stands at these places of the nesting.
  have first : (if (nesting.placeAt index word).nextIs (·.isOperator ["&"]) then
      (nesting.placeAt index word).index + 2 else (nesting.placeAt index word).index + 1) =
      nameIndex nesting index := by
    rw [Nesting.nextIs_placeAt]
    rfl
  have ahead : ((nesting.placeAt index word).ahead (nameIndex nesting index)).head? =
      nesting.tokens[nameIndex nesting index]? := by
    rw [Nesting.ahead_placeAt _ (lt_nameIndex nesting index), Nesting.head?_drop_tokens]
  have name : (if word.isKeyword ["fn"] then none else
      (nesting.tokens[nameIndex nesting index]?.filter (·.isName)).map (·.text)) =
      (functionName? nesting index word).map (·.text) := by
    unfold functionName?
    split <;> rfl
  have list : (if ((functionName? nesting index word).map (·.text)).isSome then
      nameIndex nesting index + 1 else nameIndex nesting index) = listIndex nesting index word := by
    rw [Option.isSome_map]
    rfl
  unfold readFunction parameterList?
  simp only [first, ahead, Nesting.here_placeAt, name, list]
  cases (nesting.frameAt (listIndex nesting index word)).filter
    (·.mark == Bracket.round.opening) with
  | none => rfl
  | some frame => cases closed : frame.closer <;> simp [closed, listedHeader]

end CursorContext.Symbols
