import Mathlib.Order.Monotone.Basic

/-!
Where nearly equal parts of a whole number begin: `⌊i * total / parts⌋`.
-/

set_option autoImplicit false

namespace Aetus.Base

def cutPoint (total parts i : Nat) : Nat := i * total / parts

variable {total parts i j : Nat}

theorem cutPoint_zero : cutPoint total parts 0 = 0 := by
  rw [cutPoint, Nat.zero_mul, Nat.zero_div]

theorem cutPoint_self (h : parts ≠ 0) : cutPoint total parts parts = total :=
  Nat.mul_div_cancel_left total (Nat.pos_of_ne_zero h)

theorem cutPoint_mono (total parts : Nat) : Monotone (cutPoint total parts) := fun _ _ h =>
  Nat.div_le_div_right (Nat.mul_le_mul_right total h)

theorem cutPoint_lt_succ (hparts : 0 < parts) (h : parts ≤ total) :
    cutPoint total parts i < cutPoint total parts (i + 1) := by
  have hnext : i * total + parts ≤ (i + 1) * total := by
    rw [Nat.add_one_mul]
    exact Nat.add_le_add_left h _
  calc cutPoint total parts i < (i * total + parts) / parts := by
        rw [Nat.add_div_right _ hparts]
        exact Nat.lt_succ_self _
    _ ≤ cutPoint total parts (i + 1) := Nat.div_le_div_right hnext

/-- A part is `⌊total / parts⌋` long, or one more. -/
theorem cutPoint_succ (hparts : 0 < parts) (i : Nat) :
    cutPoint total parts i + total / parts ≤ cutPoint total parts (i + 1) ∧
      cutPoint total parts (i + 1) ≤ cutPoint total parts i + total / parts + 1 := by
  have hnext : cutPoint total parts (i + 1) = (i * total + total) / parts := by
    rw [cutPoint, Nat.add_one_mul]
  rw [hnext, Nat.add_div hparts]
  show i * total / parts + total / parts ≤ _ ∧ _ ≤ i * total / parts + total / parts + 1
  split <;> omega

end Aetus.Base
