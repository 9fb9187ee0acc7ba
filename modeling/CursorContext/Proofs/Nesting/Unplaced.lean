import CursorContext.Argument.Slot
import CursorContext.Proofs.Nesting.Alike
import CursorContext.Proofs.Token.Unplaced

/-!
Nestings without places. How tokens nest and what their brackets are for follows from a view of the
tokens that keeps little of them. Their places are not needed for it, and every query answers the same
without them.
-/
namespace CursorContext

/-- A frame without its place in the source. -/
def Frame.unplaced (frame : Frame) : Frame := { frame with offset := 0 }

namespace Frame

theorem isView_unplaced : IsView unplaced :=
  ⟨fun _ => rfl, fun _ => rfl, fun _ => rfl, fun _ _ => rfl⟩

@[simp] theorem opener_unplaced (frame : Frame) : frame.unplaced.opener = frame.opener := rfl

@[simp] theorem role_unplaced (frame : Frame) : frame.unplaced.role = frame.role := rfl

@[simp] theorem closer_unplaced (frame : Frame) : frame.unplaced.closer = frame.closer := rfl

@[simp] theorem callee_unplaced (frame : Frame) : frame.unplaced.callee = frame.callee := rfl

end Frame

/-- A view of tokens that keeps what their nesting rests on: the brackets, and what a round bracket
after them is for. -/
structure Token.IsView (view : Token → Token) : Prop where
  opens (token : Token) : (view token).opening? = token.opening?
  closes (token : Token) : (view token).closing? = token.closing?
  role (previous earlier : Option Token) :
    Role.ofRound (previous.map view) (earlier.map view) = Role.ofRound previous earlier

theorem Token.isView_unplaced : IsView unplaced where
  opens _ := rfl
  closes _ := rfl
  role previous earlier := by
    cases previous with
    | none => rfl
    | some token => cases earlier <;> rfl

namespace Nesting

/-- A nesting of tokens without their places. -/
def unplaced (nesting : Nesting) : Nesting :=
  { tokens := nesting.tokens.map Token.unplaced
    sites := nesting.sites.map (Site.seen Frame.unplaced)
    stack := nesting.stack.map Frame.unplaced }

/-! ### Building -/

theorem atSigned?_map (f : Token → Token) (tokens : Array Token) (index : Int) :
    atSigned? (tokens.map f) index = (atSigned? tokens index).map f := by
  simp [atSigned?, Option.map_bind]

section Views

variable {view : Token → Token} {nesting other : Nesting}

theorem newFrame_of_view (isView : Token.IsView view) (alike : Alike Frame.unplaced nesting other)
    (tokens : nesting.tokens.map view = other.tokens.map view) (bracket : Bracket)
    (token twin : Token) :
    (nesting.newFrame bracket token).unplaced = (other.newFrame bracket twin).unplaced := by
  have before (index : Int) :
      (atSigned? nesting.tokens index).map view = (atSigned? other.tokens index).map view := by
    rw [← atSigned?_map, tokens, atSigned?_map]
  have role : Role.ofBracket bracket (atSigned? nesting.tokens (-1)) (atSigned? nesting.tokens (-2)) =
      Role.ofBracket bracket (atSigned? other.tokens (-1)) (atSigned? other.tokens (-2)) := by
    cases bracket with
    | round =>
      simp only [Role.ofBracket]
      rw [← isView.role, before, before, isView.role]
    | square => rfl
    | curly => rfl
  simp [newFrame, Frame.unplaced, alike.size, alike.chain Frame.isView_unplaced, role]

theorem push_of_view (isView : Token.IsView view) (alike : Alike Frame.unplaced nesting other)
    (tokens : nesting.tokens.map view = other.tokens.map view) {token twin : Token}
    (same : view token = view twin) :
    Alike Frame.unplaced (nesting.push token) (other.push twin) := by
  refine alike.push Frame.isView_unplaced ?_ ?_ fun bracket _ =>
    newFrame_of_view isView alike tokens bracket token twin
  · rw [← isView.opens, same, isView.opens]
  · rw [← isView.closes, same, isView.closes]

/-- Tokens that a view does not tell apart nest alike. -/
theorem ofTokens_of_view (isView : Token.IsView view) {tokens others : List Token}
    (same : tokens.map view = others.map view) :
    Alike Frame.unplaced (ofTokens tokens) (ofTokens others) := by
  suffices kept : ∀ nesting other : Nesting, Alike Frame.unplaced nesting other →
      nesting.tokens.map view = other.tokens.map view →
      Alike Frame.unplaced (tokens.foldl push nesting) (others.foldl push other) from
    kept {} {} ⟨rfl, rfl, rfl⟩ rfl
  induction tokens generalizing others with
  | nil =>
    have none : others = [] := List.map_eq_nil_iff.mp same.symm
    subst none
    exact fun _ _ alike _ => alike
  | cons token rest ih =>
    obtain ⟨twin, twins, rfl, first, later⟩ := List.map_eq_cons_iff.mp same.symm
    intro nesting other alike before
    refine ih later.symm _ _ (push_of_view isView alike before first.symm) ?_
    rw [tokens_push, tokens_push, Array.map_push, Array.map_push, before, first]

end Views

/-- Tokens that differ in their places alone nest alike. -/
theorem unplaced_ofTokens {tokens others : List Token}
    (same : tokens.map Token.unplaced = others.map Token.unplaced) :
    (ofTokens tokens).unplaced = (ofTokens others).unplaced := by
  have alike := ofTokens_of_view Token.isView_unplaced same
  simp only [unplaced, tokens_ofTokens, List.map_toArray, same, alike.sites, alike.stack]

/-! ### Frames -/

variable (nesting : Nesting) (frame : Frame) (index : Nat)

@[simp] theorem getElem?_unplaced :
    nesting.unplaced.tokens[index]? = nesting.tokens[index]?.map Token.unplaced := by
  simp [unplaced]

@[simp] theorem size_unplaced : nesting.unplaced.tokens.size = nesting.tokens.size := by
  simp [unplaced]

@[simp] theorem frameAt_unplaced :
    nesting.unplaced.frameAt index = (nesting.frameAt index).map Frame.unplaced := by
  simp only [frameAt, unplaced, Array.getElem?_map, Option.bind_map, Option.map_bind]
  rfl

@[simp] theorem frameEndingAt_unplaced :
    nesting.unplaced.frameEndingAt index = (nesting.frameEndingAt index).map Frame.unplaced := by
  have closes : nesting.unplaced.sites[index]?.bind (·.closes) =
      nesting.sites[index]?.bind (·.closes) := by
    rw [unplaced, Array.getElem?_map, Option.bind_map]
    rfl
  rw [frameEndingAt, frameEndingAt, closes, Option.map_bind]
  exact congrArg _ (funext fun opener => frameAt_unplaced nesting opener)

@[simp] theorem enclosing_unplaced :
    nesting.unplaced.enclosing index = nesting.enclosing index := by
  simp only [enclosing, unplaced, Array.getElem?_map, Option.bind_map]
  rfl

@[simp] theorem closeOf_unplaced : nesting.unplaced.closeOf index = nesting.closeOf index := by
  simp only [closeOf, frameAt_unplaced, Option.bind_map]
  rfl

@[simp] theorem endOf_unplaced : nesting.unplaced.endOf frame.unplaced = nesting.endOf frame := by
  simp only [endOf, size_unplaced]
  rfl

theorem directTokens_unplaced :
    nesting.unplaced.directTokens frame.unplaced = (nesting.directTokens frame).map Token.unplaced := by
  rw [directTokens, directTokens, endOf_unplaced, List.map_filterMap]
  refine congrArg (List.filterMap · _) (funext fun index => ?_)
  rw [enclosing_unplaced, getElem?_unplaced, apply_ite (Option.map Token.unplaced)]
  rfl

theorem cursorCall_unplaced (inComment : Bool) :
    nesting.unplaced.cursorCall inComment = (nesting.cursorCall inComment).map Frame.unplaced := by
  cases inComment with
  | true => rfl
  | false =>
    have decisive : isDecisive ∘ Frame.unplaced = isDecisive := rfl
    have call : Frame.isCall ∘ Frame.unplaced = Frame.isCall := rfl
    simp only [cursorCall, unplaced, List.find?_map, decisive, Option.filter_map, call]
    rfl

/-! ### Arguments -/

@[simp] theorem operatorAt_unplaced (operator : String) :
    nesting.unplaced.operatorAt operator index = nesting.operatorAt operator index := by
  simp [operatorAt, Option.any_map]

theorem tokensOf_unplaced (piece : Piece) :
    nesting.unplaced.tokensOf piece = (nesting.tokensOf piece).map Token.unplaced := by
  simp [tokensOf, unplaced]

theorem literal?_unplaced (piece : Piece) :
    nesting.unplaced.literal? piece = nesting.literal? piece := by
  simp only [literal?, tokensOf_unplaced]
  rcases nesting.tokensOf piece with _ | ⟨token, _ | ⟨next, rest⟩⟩ <;> rfl

theorem separators_unplaced (start : Nat) :
    nesting.unplaced.separators start = nesting.separators start := by
  simp only [separators, operatorAt_unplaced, enclosing_unplaced, size_unplaced]

theorem beginsWithArray_unplaced (piece : Piece) :
    nesting.unplaced.beginsWithArray piece frame.unplaced = nesting.beginsWithArray piece frame := by
  simp only [beginsWithArray, getElem?_unplaced, Option.any_map]
  rfl

theorem openInside_unplaced :
    nesting.unplaced.openInside frame.unplaced = (nesting.openInside frame).map Frame.unplaced := by
  simp only [openInside, unplaced, List.takeWhile_map, List.map_reverse]
  rfl

theorem arraySlot_unplaced (separators : Std.TreeMap Nat (List Nat)) (inner : List Frame) :
    nesting.unplaced.arraySlot separators index frame.unplaced (inner.map Frame.unplaced) =
      nesting.arraySlot separators index frame inner := by
  have keys (arrows : List Nat) : nesting.unplaced.entryKey? arrows = nesting.entryKey? arrows :=
    funext fun entry => literal?_unplaced nesting _
  have operators (operator : String) :
      nesting.unplaced.operatorAt operator = nesting.operatorAt operator :=
    funext fun index => operatorAt_unplaced nesting index operator
  induction inner generalizing frame with
  | nil => simp only [List.map_nil, arraySlot, keys, operators, size_unplaced, literal?_unplaced,
      Frame.opener_unplaced]
  | cons nested deeper ih =>
    rw [List.map_cons, arraySlot, arraySlot]
    simp only [keys, operators, size_unplaced, literal?_unplaced, Frame.opener_unplaced,
      beginsWithArray_unplaced, ih]

theorem arguments_unplaced : nesting.unplaced.arguments frame.unplaced = nesting.arguments frame := by
  have operators (operator : String) :
      nesting.unplaced.operatorAt operator = nesting.operatorAt operator :=
    funext fun index => operatorAt_unplaced nesting index operator
  simp only [arguments, separators_unplaced, operators, size_unplaced, tokensOf_unplaced,
    Token.argumentText_unplaced, openInside_unplaced, Frame.opener_unplaced]
  cases nesting.openInside frame with
  | nil => rfl
  | cons array inner => simp only [List.map_cons, beginsWithArray_unplaced, arraySlot_unplaced]

end Nesting

end CursorContext
