/-!
# Extents of bytes

Whether a list reaches a given length, decided without walking past that length, and
the stretch of a list at a position.
-/

namespace AccessControl

/-- Stops after `n` elements, however long the list is. -/
def reaches {α : Type} : (n : Nat) → List α → Bool
  | 0, _ => true
  | _ + 1, [] => false
  | n + 1, _ :: xs => reaches n xs

theorem reaches_iff {α : Type} {n : Nat} {xs : List α} : reaches n xs = true ↔ n ≤ xs.length := by
  induction n generalizing xs with
  | zero => simp [reaches]
  | succ n ih => cases xs <;> simp [reaches, ih]

@[simp] theorem reaches_eq_decide {α : Type} (n : Nat) (xs : List α) :
    reaches n xs = decide (n ≤ xs.length) := by
  rw [Bool.eq_iff_iff, reaches_iff, decide_eq_true_iff]

/-- At most `length` elements from `start` on. -/
def stretch {α : Type} (xs : List α) (start length : Nat) : List α := (xs.drop start).take length

theorem length_stretch {α : Type} {xs : List α} {start length : Nat}
    (h : start + length ≤ xs.length) : (stretch xs start length).length = length := by
  simp [stretch]
  omega

end AccessControl
