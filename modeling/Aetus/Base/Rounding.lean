import Mathlib.Algebra.Group.Int.Defs
import Mathlib.Algebra.Order.Group.Int

/-!
Quotients of integers, rounded to the nearest integer.
-/

set_option autoImplicit false

namespace Aetus.Base

variable {n m d : Int}

/-- The integer nearest to `n / d`; of two, the even one. -/
def divRoundHalfEven (n d : Int) : Int :=
  if 2 * (n % d) < d ∨ 2 * (n % d) = d ∧ n / d % 2 = 0 then n / d else n / d + 1

theorem le_divRoundHalfEven : n / d ≤ divRoundHalfEven n d := by
  unfold divRoundHalfEven
  split
  · exact Int.le_refl _
  · exact Int.le_add_one (Int.le_refl _)

theorem divRoundHalfEven_le : divRoundHalfEven n d ≤ n / d + 1 := by
  unfold divRoundHalfEven
  split
  · exact Int.le_add_one (Int.le_refl _)
  · exact Int.le_refl _

theorem divRoundHalfEven_mono (hd : 0 < d) (h : n ≤ m) :
    divRoundHalfEven n d ≤ divRoundHalfEven m d := by
  rcases Int.lt_or_eq_of_le (Int.ediv_le_ediv hd h) with hlt | heq
  · exact divRoundHalfEven_le.trans ((Int.add_one_le_of_lt hlt).trans le_divRoundHalfEven)
  · -- With one quotient, the remainders are in the order of the numbers.
    have hn := Int.mul_ediv_add_emod n d
    have hm := Int.mul_ediv_add_emod m d
    rw [heq] at hn
    unfold divRoundHalfEven
    rw [heq]
    split <;> split <;> omega

@[simp] theorem divRoundHalfEven_zero (hd : 0 < d) : divRoundHalfEven 0 d = 0 := by
  simp [divRoundHalfEven, hd]

end Aetus.Base
