/-!
Indexes that count from either end: zero is the first element, minus one the last.
-/
namespace CursorContext

variable {α : Type}

/-- The place a signed index names in a sequence of `size` elements. -/
def signedPlace? (size : Nat) (index : Int) : Option Nat :=
  let place := if index < 0 then index + size else index
  if 0 ≤ place ∧ place < size then some place.toNat else none

/-- The element a signed index names. -/
def atSigned? (xs : Array α) (index : Int) : Option α :=
  (signedPlace? xs.size index).bind (xs[·]?)

theorem atSigned?_natCast (xs : Array α) (index : Nat) : atSigned? xs index = xs[index]? := by
  by_cases inside : index < xs.size
  · have place : signedPlace? xs.size index = some index := by
      simp [signedPlace?, show ¬ (index : Int) < 0 by omega, inside]
    simp [atSigned?, place]
  · have place : signedPlace? xs.size index = none := by
      simp [signedPlace?, show ¬ (index : Int) < 0 by omega]
      omega
    simp [atSigned?, place, Array.getElem?_eq_none (by omega : xs.size ≤ index)]

/-- Counted from the end, minus one names the last element. -/
theorem atSigned?_negSucc (xs : Array α) (back : Nat) :
    atSigned? xs (.negSucc back) = if back < xs.size then xs[xs.size - 1 - back]? else none := by
  have negative : (Int.negSucc back) < 0 := Int.negSucc_lt_zero back
  split
  next inside =>
    have place : signedPlace? xs.size (.negSucc back) = some (xs.size - 1 - back) := by
      simp only [signedPlace?, negative, if_true]
      rw [if_pos (by omega)]
      congr 1
      omega
    simp [atSigned?, place]
  next outside =>
    have place : signedPlace? xs.size (.negSucc back) = none := by
      simp only [signedPlace?, negative, if_true]
      rw [if_neg (by omega)]
    simp [atSigned?, place]

end CursorContext
