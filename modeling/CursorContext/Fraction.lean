/-!
Fractions as a machine holds them: with 53 binary digits, rounded to the nearest, a tie going to the
even neighbour.
-/
namespace CursorContext.Fraction

def precision : Nat := 53

/-- A number of at least this size has no machine form. -/
def bound : Nat := Nat.pow 2 1024

/-- The quotient rounded to the nearest whole number, a tie to the even one. -/
def roundDiv (dividend divisor : Nat) : Nat :=
  let quotient := dividend / divisor
  let double := 2 * (dividend % divisor)
  if divisor < double || (double == divisor && quotient % 2 == 1) then quotient + 1 else quotient

/-- The rounded quotient is within half a unit of the exact one. -/
theorem roundDiv_near (dividend divisor : Nat) (positive : 0 < divisor) :
    2 * (divisor * roundDiv dividend divisor) ≤ 2 * dividend + divisor ∧
      2 * dividend ≤ 2 * (divisor * roundDiv dividend divisor) + divisor := by
  have parts := Nat.div_add_mod dividend divisor
  have small := Nat.mod_lt dividend positive
  unfold roundDiv
  simp only
  split
  next up =>
    simp only [Bool.or_eq_true, decide_eq_true_eq, Bool.and_eq_true, beq_iff_eq] at up
    rw [Nat.mul_add, Nat.mul_one]
    omega
  next down =>
    simp only [Bool.or_eq_true, decide_eq_true_eq, not_or, Nat.not_lt] at down
    omega

/-- The whole part of a fraction once it is rounded to machine form. -/
def wholePart (dividend divisor : Nat) : Nat :=
  let whole := dividend / divisor
  let digits := if whole = 0 then 0 else whole.log2 + 1
  if digits ≤ precision then
    let scale := Nat.pow 2 (precision - digits)
    roundDiv (dividend * scale) divisor / scale
  else
    let unit := Nat.pow 2 (digits - precision)
    roundDiv dividend (divisor * unit) * unit

/-- The decimal fraction with `places` places, cut off toward zero. -/
def truncate? (digits : Int) (places : Nat) : Option Int :=
  let whole := wholePart digits.natAbs (Nat.pow 10 places)
  if bound ≤ whole then none else some (if digits < 0 then -whole else whole)

end CursorContext.Fraction
