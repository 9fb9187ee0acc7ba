/-!
Dividing a list at every element of some kind.
-/
namespace CursorContext

variable {α : Type}

/-- The pieces between the separators, of which there is one more than there are separators. -/
def divide (isSeparator : α → Bool) : List α → List (List α)
  | [] => [[]]
  | a :: rest =>
    if isSeparator a then [] :: divide isSeparator rest
    else (divide isSeparator rest).modifyHead (a :: ·)

theorem length_divide (isSeparator : α → Bool) (xs : List α) :
    (divide isSeparator xs).length = xs.countP isSeparator + 1 := by
  induction xs with
  | nil => rfl
  | cons a rest ih =>
    by_cases separates : isSeparator a = true
    · simp [divide, separates, ih]
    · simp [divide, separates, ih]

theorem divide_ne_nil (isSeparator : α → Bool) (xs : List α) : divide isSeparator xs ≠ [] := by
  intro empty
  have counted := length_divide isSeparator xs
  simp [empty] at counted

/-- Elements in front that separate nothing belong to the first piece. -/
theorem divide_append_plain {isSeparator : α → Bool} {xs : List α}
    (plain : ∀ x ∈ xs, isSeparator x = false) (ys : List α) :
    divide isSeparator (xs ++ ys) = (divide isSeparator ys).modifyHead (xs ++ ·) := by
  induction xs with
  | nil =>
    rw [List.nil_append]
    cases divide isSeparator ys <;> rfl
  | cons x rest ih =>
    have later := ih fun y member => plain y (List.mem_cons_of_mem _ member)
    rw [List.cons_append, divide, plain x List.mem_cons_self, later]
    cases divide isSeparator ys <;> rfl

/-- What stands before a separator is divided apart from what stands after it. -/
theorem divide_append_separator {isSeparator : α → Bool} {a : α}
    (separates : isSeparator a = true) (xs ys : List α) :
    divide isSeparator (xs ++ a :: ys) = divide isSeparator xs ++ divide isSeparator ys := by
  induction xs with
  | nil => simp [divide, separates]
  | cons x rest ih =>
    rw [List.cons_append, divide, divide, ih]
    split
    · rfl
    · -- The first piece goes on to the left, and there is a first piece.
      cases pieces : divide isSeparator rest with
      | nil => exact absurd pieces (divide_ne_nil isSeparator rest)
      | cons first later => rfl

end CursorContext
