import Mathlib.Algebra.BigOperators.Ring.List
import Mathlib.Algebra.Order.BigOperators.Group.List
import Mathlib.Tactic.Linarith
import Mathlib.Tactic.Ring

/-!
The mean and the variance of a list of numbers. The variance of numbers between two bounds is at
most that of a list that has only the bounds, each as often as the other.
-/

set_option autoImplicit false

namespace Aetus.Base

variable {K α : Type} [Field K]

def mean (f : α → K) (values : List α) : K := (values.map f).sum / values.length

def variance (values : List K) : K := mean (fun value => (value - mean id values) ^ 2) values

variable {f g : α → K} {values : List α} {c : K}

theorem mean_id_map : mean id (values.map f) = mean f values := by
  rw [mean, List.map_id, List.length_map, mean]

theorem mean_add : mean (fun value => f value + g value) values = mean f values + mean g values := by
  simp only [mean, List.sum_map_add, add_div]

theorem mean_const_mul : mean (fun value => c * f value) values = c * mean f values := by
  simp only [mean, List.sum_map_mul_left, mul_div_assoc]

theorem mean_const [CharZero K] (h : values ≠ []) : mean (fun _ => c) values = c := by
  have hlength : (values.length : K) ≠ 0 := Nat.cast_ne_zero.mpr (List.length_pos_iff.mpr h).ne'
  simp only [mean, List.map_const', List.sum_replicate, nsmul_eq_mul]
  exact mul_div_cancel_left₀ c hlength

theorem mean_quadratic [CharZero K] {values : List K} (h : values ≠ []) (a b c : K) :
    mean (fun value => a * value ^ 2 + (b * value + c)) values =
      a * mean (· ^ 2) values + (b * mean id values + c) := by
  rw [mean_add, mean_const_mul, mean_add, mean_const_mul, mean_const h]
  rfl

theorem variance_eq [CharZero K] {values : List K} (h : values ≠ []) :
    variance values = mean (· ^ 2) values - mean id values ^ 2 := by
  have hexpand : ∀ value, (value - mean id values) ^ 2 =
      1 * value ^ 2 + (-(2 * mean id values) * value + mean id values ^ 2) := fun value => by ring
  rw [variance]
  simp only [hexpand]
  rw [mean_quadratic h]
  ring

variable [LinearOrder K] [IsStrictOrderedRing K]

theorem mean_mono (h : ∀ value ∈ values, f value ≤ g value) : mean f values ≤ mean g values :=
  div_le_div_of_nonneg_right (List.sum_le_sum h) (Nat.cast_nonneg _)

theorem mean_nonneg (h : ∀ value ∈ values, 0 ≤ f value) : 0 ≤ mean f values := by
  refine div_nonneg (List.sum_nonneg fun x hx => ?_) (Nat.cast_nonneg _)
  obtain ⟨value, hvalue, rfl⟩ := List.mem_map.mp hx
  exact h value hvalue

theorem le_mean (hne : values ≠ []) (h : ∀ value ∈ values, c ≤ f value) : c ≤ mean f values :=
  (mean_const hne).symm.le.trans (mean_mono h)

theorem mean_le (hne : values ≠ []) (h : ∀ value ∈ values, f value ≤ c) : mean f values ≤ c :=
  (mean_mono h).trans (mean_const hne).le

theorem variance_nonneg (values : List K) : 0 ≤ variance values :=
  mean_nonneg fun _ _ => sq_nonneg _

section bounds
variable {values : List K} {a b : K}

theorem variance_le_mul (hne : values ≠ []) (h : ∀ value ∈ values, a ≤ value ∧ value ≤ b) :
    variance values ≤ (b - mean id values) * (mean id values - a) := by
  have hproduct : 0 ≤ mean (fun value => (value - a) * (b - value)) values :=
    mean_nonneg fun value hvalue =>
      mul_nonneg (sub_nonneg.mpr (h value hvalue).1) (sub_nonneg.mpr (h value hvalue).2)
  have hexpand : ∀ value, (value - a) * (b - value) =
      -1 * value ^ 2 + ((a + b) * value + -(a * b)) := fun value => by ring
  simp only [hexpand] at hproduct
  rw [mean_quadratic hne] at hproduct
  rw [variance_eq hne]
  linarith

/-- Popoviciu's bound. -/
theorem variance_le_sq (hne : values ≠ []) (h : ∀ value ∈ values, a ≤ value ∧ value ≤ b) :
    variance values ≤ (b - a) ^ 2 / 4 := by
  have hmiddle : 0 ≤ (a + b - 2 * mean id values) ^ 2 := sq_nonneg _
  have hbound := variance_le_mul hne h
  linarith

end bounds

end Aetus.Base
