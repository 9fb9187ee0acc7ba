/-!
Lengths in UTF-16 units, in which editors count. A character beyond the basic plane takes two units.
-/
namespace CursorContext.Text

def unitsOf (c : Char) : Nat := if c.toNat ≤ 0xFFFF then 1 else 2

/-- The length of a text in units. -/
def units : List Char → Nat
  | [] => 0
  | c :: rest => unitsOf c + units rest

/-- How many characters fit into a number of units. A character that fits only in part is left out. -/
def charsWithin (count : Int) : List Char → Nat
  | [] => 0
  | c :: rest => if count < unitsOf c then 0 else charsWithin (count - unitsOf c) rest + 1

@[simp] theorem units_append (before after : List Char) :
    units (before ++ after) = units before + units after := by
  induction before with
  | nil => simp [units]
  | cons c rest ih => simp [units, ih, Nat.add_assoc]

theorem charsWithin_le_length (count : Int) (cs : List Char) : charsWithin count cs ≤ cs.length := by
  induction cs generalizing count with
  | nil => simp [charsWithin]
  | cons c rest ih =>
    have shorter := ih (count - unitsOf c)
    simp only [charsWithin, List.length_cons]
    split <;> omega

/-- The units of a text's front are just enough for that front. -/
theorem charsWithin_units_append (before after : List Char) :
    charsWithin (units before) (before ++ after) = before.length := by
  induction before with
  | nil =>
    cases after with
    | nil => rfl
    | cons c rest =>
      have positive : 0 < unitsOf c := by
        unfold unitsOf
        split <;> omega
      simp [charsWithin, units, positive]
  | cons c rest ih =>
    have fits : ¬ ((units (c :: rest) : Nat) : Int) < unitsOf c := by
      simp only [units]
      omega
    have left : ((units (c :: rest) : Nat) : Int) - unitsOf c = units rest := by
      simp only [units]
      omega
    rw [List.cons_append, charsWithin, if_neg fits, left, ih, List.length_cons]

end CursorContext.Text
