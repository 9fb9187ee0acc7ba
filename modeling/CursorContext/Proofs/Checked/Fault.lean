/-!
Faults of a checked run. A checked run does what the analysis does, but it takes nothing for granted:
it stops with a fault where a sequence has no such index, where something that is followed is not
there, and where a loop has not moved on.
-/
namespace CursorContext

/-- Why a checked run stops before its end. -/
inductive Fault
  /-- A sequence has no such index. -/
  | outside (index : Nat)
  /-- A frame, or something that should have one, is not there. -/
  | missing
  /-- A bracket belongs to no pair. -/
  | unpaired
  /-- A round of a loop has not moved on from `index`. -/
  | stuck (index : Nat)
deriving DecidableEq, Repr

namespace Checked

variable {α β : Type}

/-- What is there, or a fault. -/
def require (fault : Fault) : Option α → Except Fault α
  | none => .error fault
  | some a => .ok a

@[simp] theorem require_some (fault : Fault) (a : α) : require fault (some a) = .ok a := rfl

@[simp] theorem ok_bind (a : α) (f : α → Except Fault β) : (Except.ok a >>= f) = f a := rfl

@[simp] theorem pure_eq_ok (a : α) : (pure a : Except Fault α) = .ok a := rfl

/-- The part of a list from the first element on that a checked test rejects. -/
def dropWhile (test : α → Except Fault Bool) : List α → Except Fault (List α)
  | [] => .ok []
  | a :: rest => do if ← test a then dropWhile test rest else return a :: rest

theorem dropWhile_ok {test : α → Except Fault Bool} {p : α → Bool} {xs : List α}
    (passes : ∀ a ∈ xs, test a = .ok (p a)) : dropWhile test xs = .ok (xs.dropWhile p) := by
  induction xs with
  | nil => rfl
  | cons a rest ih =>
    have later := ih fun b member => passes b (List.mem_cons_of_mem _ member)
    rw [dropWhile, passes a List.mem_cons_self]
    cases taken : p a <;> simp [taken, later]

/-- What a checked look-up finds at the elements of a list. -/
def gather (find : α → Except Fault (Option β)) : List α → Except Fault (List β)
  | [] => .ok []
  | a :: rest => do
    let found ← find a
    let later ← gather find rest
    return found.toList ++ later

theorem gather_ok {find : α → Except Fault (Option β)} {f : α → Option β} {xs : List α}
    (finds : ∀ a ∈ xs, find a = .ok (f a)) : gather find xs = .ok (xs.filterMap f) := by
  induction xs with
  | nil => rfl
  | cons a rest ih =>
    have later := ih fun b member => finds b (List.mem_cons_of_mem _ member)
    rw [gather, finds a List.mem_cons_self]
    cases found : f a <;> simp [found, later]

end Checked

end CursorContext
