import Aetus.Base.Rounding
import Mathlib.Algebra.Order.Field.Power
import Mathlib.Algebra.Order.Field.Rat
import Mathlib.Data.Int.Log
import Mathlib.Data.Rat.Floor
import Mathlib.Tactic.FieldSimp
import Mathlib.Tactic.Linarith
import Mathlib.Tactic.Positivity
import Mathlib.Tactic.Ring

/-!
Rational numbers rounded to integers, and to the doubles of IEEE 754: to the nearest one, halves to
even.
-/

set_option autoImplicit false

namespace Aetus.Base

/-- What an operation makes of its exact result. -/
abbrev Rounding := ℚ → ℚ

def unrounded : Rounding := id

/-- The integer nearest to `q`; of two, the even one. -/
def roundHalfEven (q : ℚ) : ℤ := divRoundHalfEven q.num q.den

/-- The exponent of the last bit of the doubles around `q`. -/
def lastBit (q : ℚ) : ℤ := max (Int.log 2 |q|) (-1022) - 52

/-- The double nearest to `q`; of two, the one with an even last bit. There is no largest one. -/
def binary64 : Rounding := fun q => roundHalfEven (q / 2 ^ lastBit q) * 2 ^ lastBit q

section integers
variable {n d z : ℤ} {q r : ℚ}

/-- Rounding goes up to an integer from the half below it on, from the half itself where the integer
is even. -/
theorem le_divRoundHalfEven_iff (hd : 0 < d) : z ≤ divRoundHalfEven n d ↔
    (2 * z - 1) * d < 2 * n ∨ (2 * z - 1) * d = 2 * n ∧ z % 2 = 0 := by
  have hdiv := Int.mul_ediv_add_emod n d
  have hnonneg := Int.emod_nonneg n hd.ne'
  have hlt := Int.emod_lt_of_pos n hd
  obtain ⟨t, rfl⟩ : ∃ t, z = n / d + t := ⟨z - n / d, by omega⟩
  have hprod : (2 * (n / d + t) - 1) * d = 2 * (d * (n / d)) + (2 * t - 1) * d := by ring
  rw [hprod]
  unfold divRoundHalfEven
  rcases Int.lt_trichotomy t 1 with hbelow | rfl | habove
  · have hle : (2 * t - 1) * d ≤ -1 * d := Int.mul_le_mul_of_nonneg_right (by omega) hd.le
    exact iff_of_true (by split <;> omega) (.inl (by omega))
  · split <;> omega
  · have hle : 3 * d ≤ (2 * t - 1) * d := Int.mul_le_mul_of_nonneg_right (by omega) hd.le
    exact iff_of_false (by split <;> omega) (by omega)

theorem sub_half_lt_div_iff (hd : 0 < d) :
    (z : ℚ) - 1 / 2 < n / d ↔ (2 * z - 1) * d < 2 * n := by
  rw [lt_div_iff₀ (Int.cast_pos.mpr hd), ← Int.cast_lt (R := ℚ)]
  push_cast
  constructor <;> intro h <;> linarith

theorem sub_half_eq_div_iff (hd : 0 < d) :
    (z : ℚ) - 1 / 2 = n / d ↔ (2 * z - 1) * d = 2 * n := by
  have hcast : (2 * z - 1) * d = 2 * n ↔ (2 * (z : ℚ) - 1) * d = 2 * n := by exact_mod_cast Iff.rfl
  rw [eq_div_iff (Int.cast_pos.mpr hd).ne', hcast]
  constructor <;> intro h <;> linarith

theorem le_roundHalfEven_iff :
    z ≤ roundHalfEven q ↔ (z : ℚ) - 1 / 2 < q ∨ (z : ℚ) - 1 / 2 = q ∧ z % 2 = 0 := by
  have hden : (0 : ℤ) < q.den := Int.natCast_pos.mpr q.den_pos
  have hq : q = q.num / ((q.den : ℤ) : ℚ) := (Rat.num_div_den q).symm
  rw [roundHalfEven, le_divRoundHalfEven_iff hden, ← sub_half_lt_div_iff hden,
    ← sub_half_eq_div_iff hden, ← hq]

theorem roundHalfEven_div (n : ℤ) (hd : 0 < d) :
    roundHalfEven (n / d : ℚ) = divRoundHalfEven n d := by
  refine eq_of_forall_le_iff fun z => ?_
  rw [le_roundHalfEven_iff, le_divRoundHalfEven_iff hd, sub_half_lt_div_iff hd,
    sub_half_eq_div_iff hd]

theorem le_roundHalfEven (h : (z : ℚ) ≤ q) : z ≤ roundHalfEven q :=
  le_roundHalfEven_iff.mpr (.inl (by linarith))

theorem roundHalfEven_le (h : q ≤ z) : roundHalfEven q ≤ z := by
  refine Int.lt_add_one_iff.mp (Int.not_le.mp fun habove => ?_)
  rcases le_roundHalfEven_iff.mp habove with hlt | ⟨heq, -⟩ <;> push_cast at * <;> linarith

theorem roundHalfEven_intCast (z : ℤ) : roundHalfEven z = z :=
  le_antisymm (roundHalfEven_le (le_refl _)) (le_roundHalfEven (le_refl _))

end integers

section doubles
variable {q : ℚ} {e : ℤ}

theorem binary64_of_binade (he : -1022 ≤ e) (hlow : 2 ^ e ≤ q) (hhigh : q < 2 ^ (e + 1)) :
    binary64 q = roundHalfEven (q / 2 ^ (e - 52)) * 2 ^ (e - 52) := by
  have hpos : 0 < q := (zpow_pos two_pos e).trans_le hlow
  have hlog : Int.log 2 q = e := by
    refine le_antisymm ?_ ((Int.zpow_le_iff_le_log (by decide) hpos).mp hlow)
    exact Int.lt_add_one_iff.mp ((Int.lt_zpow_iff_log_lt (by decide) hpos).mp hhigh)
  rw [binary64, lastBit, abs_of_pos hpos, hlog, max_eq_left he]

theorem binary64_nonneg (h : 0 ≤ q) : 0 ≤ binary64 q := by
  have hscaled : ((0 : ℤ) : ℚ) ≤ q / 2 ^ lastBit q := by
    rw [Int.cast_zero]
    positivity
  exact mul_nonneg (Int.cast_nonneg (le_roundHalfEven hscaled)) (by positivity)

theorem zpow_le_binary64 (he : -1022 ≤ e) (h : 2 ^ e ≤ q) : 2 ^ e ≤ binary64 q := by
  have hpos : 0 < q := (zpow_pos two_pos e).trans_le h
  have hle : e ≤ Int.log 2 q := (Int.zpow_le_iff_le_log (by decide) hpos).mp h
  have hlow : (2 : ℚ) ^ Int.log 2 q ≤ q := Int.zpow_log_le_self (by decide) hpos
  have hhigh : q < (2 : ℚ) ^ (Int.log 2 q + 1) := Int.lt_zpow_succ_log_self (by decide) q
  rw [binary64_of_binade (he.trans hle) hlow hhigh]
  have hscale : (2 : ℚ) ^ Int.log 2 q = ((2 ^ 52 : ℤ) : ℚ) * 2 ^ (Int.log 2 q - 52) := by
    rw [Int.cast_pow, Int.cast_ofNat, ← zpow_natCast, ← zpow_add₀ two_ne_zero]
    norm_num
  have hround : (2 : ℤ) ^ 52 ≤ roundHalfEven (q / 2 ^ (Int.log 2 q - 52)) := by
    refine le_roundHalfEven ((le_div_iff₀ (by positivity)).mpr ?_)
    rwa [← hscale]
  calc (2 : ℚ) ^ e ≤ 2 ^ Int.log 2 q := zpow_le_zpow_right₀ one_le_two hle
    _ = ((2 ^ 52 : ℤ) : ℚ) * 2 ^ (Int.log 2 q - 52) := hscale
    _ ≤ _ := mul_le_mul_of_nonneg_right (Int.cast_le.mpr hround) (by positivity)

theorem binary64_le_zpow (he : -1022 ≤ e) (hnonneg : 0 ≤ q) (h : q ≤ 2 ^ e) :
    binary64 q ≤ 2 ^ e := by
  rcases hnonneg.eq_or_lt with rfl | hpos
  · have hzero : roundHalfEven 0 = 0 :=
      le_antisymm (roundHalfEven_le Int.cast_zero.ge) (le_roundHalfEven Int.cast_zero.le)
    rw [binary64, zero_div, hzero, Int.cast_zero, zero_mul]
    positivity
  have hlog : Int.log 2 q ≤ e := (Int.log_mono_right hpos h).trans_eq (Int.log_zpow (by decide) e)
  have hlast : lastBit q ≤ e := by
    rw [lastBit, abs_of_pos hpos]
    omega
  obtain ⟨k, hk⟩ := Int.le.dest hlast
  have hscale : (2 : ℚ) ^ e = ((2 ^ k : ℤ) : ℚ) * 2 ^ lastBit q := by
    rw [Int.cast_pow, Int.cast_ofNat, ← zpow_natCast, ← zpow_add₀ two_ne_zero, Int.add_comm, hk]
  have hround : roundHalfEven (q / 2 ^ lastBit q) ≤ 2 ^ k := by
    refine roundHalfEven_le ((div_le_iff₀ (by positivity)).mpr ?_)
    rwa [← hscale]
  rw [hscale]
  exact mul_le_mul_of_nonneg_right (Int.cast_le.mpr hround) (by positivity)

end doubles

end Aetus.Base
