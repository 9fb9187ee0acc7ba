import CursorContext.Proofs.Checked.Fault
import CursorContext.Proofs.Nesting.Extent
import CursorContext.Proofs.Nesting.Origin

/-!
Checked access to the tokens and frames of a nesting.
-/
namespace CursorContext

namespace Checked

/-- The token at an index that has to exist. -/
def tokenAt (nesting : Nesting) (index : Nat) : Except Fault Token :=
  require (.outside index) nesting.tokens[index]?

theorem tokenAt_eq {nesting : Nesting} {index : Nat} {token : Token}
    (there : nesting.tokens[index]? = some token) : tokenAt nesting index = .ok token := by
  rw [tokenAt, there]
  rfl

theorem tokenAt_lt {nesting : Nesting} {index : Nat} (inside : index < nesting.tokens.size) :
    ∃ token, nesting.tokens[index]? = some token ∧ tokenAt nesting index = .ok token :=
  ⟨nesting.tokens[index], Array.getElem?_eq_getElem inside,
    tokenAt_eq (Array.getElem?_eq_getElem inside)⟩

-- No token is made up where there is none.
example : tokenAt {} 0 = .error (.outside 0) := rfl

/-- Whether there is a token at an index and it satisfies `p`. -/
def hasAt (nesting : Nesting) (index : Nat) (p : Token → Bool) : Except Fault Bool :=
  if index < nesting.tokens.size then do return p (← tokenAt nesting index) else return false

theorem hasAt_eq (nesting : Nesting) (index : Nat) (p : Token → Bool) :
    hasAt nesting index p = .ok (nesting.tokens[index]?.any p) := by
  unfold hasAt
  split
  next inside =>
    obtain ⟨token, there, found⟩ := tokenAt_lt inside
    simp [found, there]
  next beyond => simp [Array.getElem?_eq_none (Nat.le_of_not_lt beyond)]

/-- The tokens from `index` on up to the first that fails `p`, and the index where they stop. -/
def readWhile (nesting : Nesting) (p : Token → Bool) (index : Nat) :
    Except Fault (List Token × Nat) :=
  if index < nesting.tokens.size then do
    let token ← tokenAt nesting index
    if p token then
      let (later, stop) ← readWhile nesting p (index + 1)
      return (token :: later, stop)
    else return ([], index)
  else return ([], index)
termination_by nesting.tokens.size - index

theorem readWhile_eq (nesting : Nesting) (p : Token → Bool) (index : Nat) :
    readWhile nesting p index =
      .ok ((nesting.tokens.toList.drop index).takeWhile p,
        index + ((nesting.tokens.toList.drop index).takeWhile p).length) := by
  fun_induction readWhile nesting p index with
  | case1 index inside ih =>
    obtain ⟨token, there, found⟩ := tokenAt_lt inside
    rw [Nesting.drop_tokens there, found, ok_bind, ih]
    cases holds : p token
    · simp [holds]
    · simp [holds, Nat.add_assoc, Nat.add_comm 1]
  | case2 index beyond => simp [Nesting.drop_tokens_nil (Nat.le_of_not_lt beyond)]

/-- The tokens before `index`, nearest first, up to the first that fails `p`. -/
def readBack (nesting : Nesting) (p : Token → Bool) : Nat → Except Fault (List Token)
  | 0 => return []
  | index + 1 => do
    let token ← tokenAt nesting index
    if p token then
      let earlier ← readBack nesting p index
      return token :: earlier
    else return []

theorem readBack_eq (nesting : Nesting) (p : Token → Bool) (index : Nat)
    (inside : index ≤ nesting.tokens.size) :
    readBack nesting p index = .ok ((nesting.tokens.toList.take index).reverse.takeWhile p) := by
  induction index with
  | zero => rfl
  | succ index ih =>
    obtain ⟨token, there, found⟩ := tokenAt_lt (Nat.lt_of_succ_le inside)
    have last : (nesting.tokens.toList.take (index + 1)).reverse =
        token :: (nesting.tokens.toList.take index).reverse := by
      rw [List.take_add_one, Array.getElem?_toList, there]
      simp
    rw [readBack, found, ok_bind, last, ih (by omega)]
    cases holds : p token <;> simp [holds]

/-- The token `back` places before `index`, if that many tokens stand there. -/
def tokenBefore (nesting : Nesting) (index back : Nat) : Except Fault (Option Token) :=
  if back ≤ index then do return some (← tokenAt nesting (index - back)) else return none

theorem tokenBefore_eq {nesting : Nesting} {index back : Nat} (inside : index ≤ nesting.tokens.size)
    (positive : 0 < back) :
    tokenBefore nesting index back = .ok (nesting.tokenBefore index back) := by
  unfold tokenBefore Nesting.tokenBefore
  split
  next within =>
    obtain ⟨token, there, found⟩ := tokenAt_lt (by omega : index - back < nesting.tokens.size)
    rw [found, there]
    rfl
  · rfl

/-- The innermost frame around the token at an index that has to exist. -/
def enclosing (nesting : Nesting) (index : Nat) : Except Fault (Option Nat) := do
  return (← require (.outside index) nesting.sites[index]?).enclosing

theorem enclosing_eq {nesting : Nesting} (linked : nesting.Linked) {index : Nat}
    (inside : index < nesting.tokens.size) :
    enclosing nesting index = .ok (nesting.enclosing index) := by
  rw [← linked.size] at inside
  simp [enclosing, Nesting.enclosing, Array.getElem?_eq_getElem inside]

/-- The frame of a name that something refers to. -/
def frameOf (nesting : Nesting) (name : Nat) : Except Fault Frame :=
  require .missing (nesting.frameAt name)

theorem frameOf_eq {nesting : Nesting} {name : Nat} {frame : Frame}
    (found : nesting.frameAt name = some frame) : frameOf nesting name = .ok frame := by
  rw [frameOf, found]
  rfl

/-- The tokens directly inside a frame. -/
def directTokens (nesting : Nesting) (frame : Frame) : Except Fault (List Token) :=
  gather
    (fun index => do
      if (← enclosing nesting index) == some frame.opener then
        return some (← tokenAt nesting index)
      else return none)
    (List.range' (frame.opener + 1) (nesting.endOf frame - (frame.opener + 1)))

theorem directTokens_eq {nesting : Nesting} (linked : nesting.Linked) {index : Nat} {frame : Frame}
    (found : nesting.frameAt index = some frame) :
    directTokens nesting frame = .ok (nesting.directTokens frame) := by
  have limit := linked.endOf_le found
  apply gather_ok
  intro place member
  have inside : place < nesting.tokens.size := by
    rw [List.mem_range'_1] at member
    omega
  obtain ⟨token, there, taken⟩ := tokenAt_lt inside
  rw [enclosing_eq linked inside, ok_bind, taken, there]
  split <;> rfl

end Checked

end CursorContext
