import Aetus.Query.Limits

/-!
How the points of a response represent the rows of its range: the rows that `_limit_points`
keeps, and the buckets of `_bucketed_envelope_channels`.
-/

set_option autoImplicit false

namespace Aetus.Query
open Aetus.Base Aetus.Postgres

variable {F α : Type}

/-! Kept rows -/

theorem everyNth_sublist (stride : Nat) (rows : List α) : (everyNth stride rows).Sublist rows := by
  have hfilter := (List.filter_sublist (l := rows.zipIdx) (p := fun e => e.2 % stride = 0)).map Prod.fst
  rwa [List.zipIdx_map_fst] at hfilter

theorem limitPoints_sublist (rows : List α) (maxPoints : Int) :
    (limitPoints rows maxPoints).Sublist rows := by
  unfold limitPoints
  split
  · exact List.Sublist.refl rows
  · exact (List.take_sublist _ _).trans (everyNth_sublist _ rows)

/-- Which rows are kept does not depend on what they are. -/
theorem limitPoints_map {β : Type} (f : α → β) (rows : List α) (maxPoints : Int) :
    limitPoints (rows.map f) maxPoints = (limitPoints rows maxPoints).map f := by
  have heveryNth (stride : Nat) : everyNth stride (rows.map f) = (everyNth stride rows).map f := by
    rw [everyNth, List.zipIdx_map, List.filter_map, List.map_map, everyNth, List.map_map]
    rfl
  unfold limitPoints
  rw [List.length_map]
  split
  · rfl
  · dsimp only
    rw [heveryNth, List.map_take]

theorem map_fst_limitPoints (rows : List α) (maxPoints : Int) :
    (limitPoints rows.zipIdx maxPoints).map Prod.fst = limitPoints rows maxPoints := by
  rw [← limitPoints_map, List.zipIdx_map_fst]

theorem head?_limitPoints (rows : List α) (maxPoints : Int) :
    (limitPoints rows maxPoints).head? = rows.head? := by
  unfold limitPoints
  split
  · rfl
  · next hmany =>
    cases rows with
    | nil => simp [everyNth]
    | cons row rows =>
      obtain ⟨m, hm⟩ : ∃ m, maxPoints.toNat = m + 1 := ⟨maxPoints.toNat - 1, by omega⟩
      dsimp only
      rw [hm, everyNth, List.zipIdx_cons, List.filter_cons_of_pos (by simp)]
      rfl

def keptPositions (total : Nat) (maxPoints : Int) : List Nat :=
  if maxPoints ≤ 0 ∨ total ≤ maxPoints then List.range total
  else (List.range maxPoints.toNat).map (· * (total / maxPoints.toNat))

theorem map_snd_everyNth (stride : Nat) (rows : List α) :
    (everyNth stride rows.zipIdx).map Prod.snd = (List.range rows.length).filter (· % stride = 0) := by
  have htwice : rows.zipIdx.zipIdx = rows.zipIdx.map fun e => (e, e.2) := by
    refine List.ext_getElem (by simp) fun i h₁ h₂ => ?_
    simp
  rw [everyNth, htwice, List.filter_map, List.map_map, List.map_map, List.range_eq_range',
    ← List.zipIdx_map_snd 0 rows, List.filter_map]
  rfl

theorem positions_limitPoints (rows : List α) (maxPoints : Int) :
    (limitPoints rows.zipIdx maxPoints).map Prod.snd = keptPositions rows.length maxPoints := by
  unfold limitPoints keptPositions
  rw [List.length_zipIdx]
  split
  · rw [List.zipIdx_map_snd, List.range_eq_range']
  · next hmany =>
    obtain ⟨m, rfl⟩ := Int.eq_ofNat_of_zero_le (show 0 ≤ maxPoints by omega)
    rw [Int.toNat_natCast]
    have hstride : 1 ≤ rows.length / m := (Nat.one_le_div_iff (by omega)).mpr (by omega)
    have hfits : m * (rows.length / m) ≤ rows.length := Nat.mul_div_le _ _
    have hrows : rows.length = m * (rows.length / m) + (rows.length - m * (rows.length / m)) := by
      omega
    rw [List.map_take, map_snd_everyNth, Nat.max_eq_right hstride]
    generalize rows.length / m = stride at *
    rw [hrows, List.range_add, List.filter_append, filter_multiples m (by omega),
      List.take_append_of_le_length (by simp)]
    exact List.take_of_length_le (by simp)

/-- How far a row may be from a kept one when `m` of `total` rows are kept: `⌈total / m⌉`. -/
def spread (total m : Nat) : Nat := (total + m - 1) / m

theorem spread_eq {total m : Nat} (hm : 1 ≤ m) :
    spread total m = total / m + if total % m = 0 then 0 else 1 := by
  have hdiv := Nat.div_add_mod total m
  have hmod := Nat.mod_lt total hm
  have hsplit : total + m - 1 = total % m + m - 1 + m * (total / m) := by omega
  rw [spread, hsplit, Nat.add_mul_div_left _ _ hm, Nat.add_comm]
  congr 1
  split
  · next hzero =>
    rw [hzero]
    exact Nat.div_eq_of_lt (by omega)
  · exact Nat.div_eq_of_lt_le (by omega) (by omega)

theorem near_iff {total m : Nat} (hm : 1 ≤ m) (hmany : m < total) :
    (∀ i < total, ∃ k < m, i ≤ k * (total / m) + spread total m ∧
      k * (total / m) ≤ i + spread total m) ↔ total % m ≤ 2 := by
  have hdiv := Nat.div_add_mod total m
  have hmod := Nat.mod_lt total hm
  rw [spread_eq hm]
  generalize total / m = stride at *
  generalize total % m = rest at *
  obtain ⟨j, rfl⟩ : ∃ j, m = j + 1 := ⟨m - 1, by omega⟩
  rw [Nat.add_one_mul] at hdiv
  constructor
  · intro h
    -- the last row is the one that is farthest from a kept one
    obtain ⟨k, hk, hlast, -⟩ := h (total - 1) (by omega)
    have hbound : k * stride ≤ j * stride := Nat.mul_le_mul_right _ (by omega)
    split at hlast <;> omega
  · intro hrest i hi
    by_cases hinside : i < (j + 1) * stride
    · have hstride : 0 < stride := by
        rcases Nat.eq_zero_or_pos stride with rfl | hpos
        · omega
        · exact hpos
      have hlow := Nat.div_mul_le_self i stride
      have hhigh := Nat.lt_div_mul_add hstride (a := i)
      exact ⟨i / stride, (Nat.div_lt_iff_lt_mul hstride).mpr hinside, by omega, by omega⟩
    · rw [Nat.add_one_mul] at hinside
      refine ⟨j, by omega, ?_, by omega⟩
      split <;> omega

/-- The rows that `_limit_points` returns stand for all rows of the range. -/
structure Represents (rows : List α) (m : Nat) : Prop where
  sublist : (limitPoints rows m).Sublist rows
  short : (limitPoints rows m).length ≤ m
  first : (limitPoints rows m).head? = rows.head?
  near : ∀ i < rows.length, ∃ e ∈ limitPoints rows.zipIdx m,
    i ≤ e.2 + spread rows.length m ∧ e.2 ≤ i + spread rows.length m

/-- They do exactly when at most two rows are left over by the division; of more, those at the end
are too far from the last row that is kept. -/
theorem limitPoints_represents_iff (rows : List α) {m : Nat} (hm : 1 ≤ m) :
    Represents rows m ↔ rows.length ≤ m ∨ rows.length % m ≤ 2 := by
  have hpositions (i : Nat) : (∃ e ∈ limitPoints rows.zipIdx m,
      i ≤ e.2 + spread rows.length m ∧ e.2 ≤ i + spread rows.length m) ↔
      ∃ p ∈ keptPositions rows.length m,
        i ≤ p + spread rows.length m ∧ p ≤ i + spread rows.length m := by
    rw [← positions_limitPoints rows m]
    exact ⟨fun ⟨e, he, hle⟩ => ⟨e.2, List.mem_map_of_mem he, hle⟩, fun ⟨p, hp, hle⟩ => by
      obtain ⟨e, he, rfl⟩ := List.mem_map.mp hp
      exact ⟨e, he, hle⟩⟩
  have hnear : (∀ i < rows.length, ∃ e ∈ limitPoints rows.zipIdx m,
      i ≤ e.2 + spread rows.length m ∧ e.2 ≤ i + spread rows.length m) ↔
      rows.length ≤ m ∨ rows.length % m ≤ 2 := by
    simp only [hpositions]
    by_cases hall : rows.length ≤ m
    · rw [keptPositions, if_pos (.inr (by omega))]
      exact ⟨fun _ => .inl hall, fun _ i hi => ⟨i, List.mem_range.mpr hi, by omega, by omega⟩⟩
    · rw [keptPositions, if_neg (by omega), Int.toNat_natCast, or_iff_right hall,
        ← near_iff hm (not_le.mp hall)]
      simp only [List.mem_map, List.mem_range, exists_exists_and_eq_and]
  refine ⟨fun h => hnear.mp h.near, fun h => ⟨limitPoints_sublist rows m, ?_,
    head?_limitPoints rows m, hnear.mpr h⟩⟩
  rw [length_limitPoints, if_pos (by omega), Int.toNat_natCast]
  exact min_le_right _ _

theorem limitPoints_represents_eight : Represents (List.range 8) 3 :=
  (limitPoints_represents_iff (List.range 8) (by decide)).mpr (.inr (by decide))

/-- Of seven rows the first four are kept. -/
theorem limitPoints_cuts_end : ¬ Represents (List.range 7) 4 := fun h =>
  absurd (h.near 6 (by decide)) (by decide)

end Aetus.Query
