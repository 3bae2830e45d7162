import Mathlib.Data.List.Basic

/-!
A list in pages of one size, the last of which may be shorter. An empty list has one page.
-/

set_option autoImplicit false

namespace Aetus.Base

variable {α : Type}

def page (rows : List α) (size i : Nat) : List α := (rows.drop (i * size)).take size

def pageCount (n size : Nat) : Nat := max ((n + size - 1) / size) 1

theorem pageCount_pos (n size : Nat) : 0 < pageCount n size := Nat.le_max_right _ _

theorem le_pageCount_mul {size : Nat} (hsize : 0 < size) (n : Nat) : n ≤ pageCount n size * size := by
  have hceil : n ≤ (n + size - 1) / size * size := by
    have hmod := Nat.mod_lt (n + size - 1) hsize
    have hdiv := Nat.div_add_mod' (n + size - 1) size
    omega
  exact Nat.le_trans hceil (Nat.mul_le_mul_right size (Nat.le_max_left _ _))

theorem mul_le_of_lt_pageCount {n size i : Nat} (hsize : 0 < size) (h : i + 1 < pageCount n size) :
    (i + 1) * size ≤ n := by
  have hpages : i + 1 < (n + size - 1) / size := by
    unfold pageCount at h
    omega
  have hle : (i + 1 + 1) * size ≤ n + size - 1 := (Nat.le_div_iff_mul_le hsize).mp hpages
  rw [Nat.add_one_mul (i + 1)] at hle
  omega

theorem length_page {rows : List α} {size i : Nat} (hsize : 0 < size)
    (h : i + 1 < pageCount rows.length size) : (page rows size i).length = size := by
  have hend := mul_le_of_lt_pageCount hsize h
  rw [Nat.add_one_mul] at hend
  rw [page, List.length_take, List.length_drop]
  omega

theorem flatMap_page (rows : List α) (size n : Nat) :
    (List.range n).flatMap (page rows size) = rows.take (n * size) := by
  induction n with
  | zero => rw [Nat.zero_mul, List.take_zero, List.range_zero, List.flatMap_nil]
  | succ n ih =>
    rw [List.range_succ, List.flatMap_append, ih, List.flatMap_singleton, Nat.add_one_mul, page,
      List.take_add]

theorem flatMap_pages {rows : List α} {size : Nat} (hsize : 0 < size) :
    (List.range (pageCount rows.length size)).flatMap (page rows size) = rows := by
  rw [flatMap_page, List.take_of_length_le (le_pageCount_mul hsize rows.length)]

end Aetus.Base
