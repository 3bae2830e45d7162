import Aetus.Base.Cuts
import Aetus.Anomaly.Detectors

/-!
Which points of a window the Fourier detector looks at.
-/

set_option autoImplicit false

namespace Aetus.Anomaly
open Aetus.Base

def IsGap (positions : List Nat) (gap : Nat) : Prop :=
  ∃ i p, positions[i]? = some p ∧ positions[i + 1]? = some (p + gap)

/-- At most `limit` of `n` positions, from the first to the last one, spread evenly. -/
structure EvenSample (n limit : Nat) (positions : List Nat) : Prop where
  length : positions.length = min n limit
  increasing : positions.Pairwise (· < ·)
  below : ∀ p ∈ positions, p < n
  first : 0 < n → positions.head? = some 0
  last : 0 < n → positions.getLast? = some (n - 1)
  even : ∀ gap gap', IsGap positions gap → IsGap positions gap' → gap ≤ gap' + 1

variable {n limit : Nat}

theorem eq_of_getElem?_range {i p : Nat} (h : (List.range n)[i]? = some p) : p = i := by
  obtain ⟨_, hget⟩ := List.getElem?_eq_some_iff.mp h
  rw [← hget, List.getElem_range]

theorem evenSample_range (h : n ≤ limit) : EvenSample n limit (List.range n) where
  length := by rw [List.length_range, Nat.min_eq_left h]
  increasing := List.pairwise_lt_range
  below := fun _ hp => List.mem_range.mp hp
  first := fun hn => by rw [List.head?_range, if_neg hn.ne']
  last := fun hn => by rw [List.getLast?_range, if_neg hn.ne']
  even := by
    have hgap : ∀ gap, IsGap (List.range n) gap → gap = 1 := by
      rintro gap ⟨i, p, hp, hq⟩
      have hposition := eq_of_getElem?_range hp
      have hnext := eq_of_getElem?_range hq
      omega
    intro gap gap' h h'
    rw [hgap gap h, hgap gap' h']
    omega

theorem evenSample_cutPoint (hlimit : 2 ≤ limit) (h : limit < n) :
    EvenSample n limit ((List.range limit).map (cutPoint (n - 1) (limit - 1))) := by
  have hparts : 0 < limit - 1 := Nat.sub_pos_of_lt hlimit
  have hmono : StrictMono (cutPoint (n - 1) (limit - 1)) :=
    strictMono_nat_of_lt_succ fun _ => cutPoint_lt_succ hparts (Nat.sub_le_sub_right h.le 1)
  have hend : cutPoint (n - 1) (limit - 1) (limit - 1) = n - 1 := cutPoint_self hparts.ne'
  refine ⟨?_, ?_, ?_, ?_, ?_, ?_⟩
  · rw [List.length_map, List.length_range, Nat.min_eq_right h.le]
  · rw [List.pairwise_map]
    exact List.pairwise_lt_range.imp fun hlt => hmono hlt
  · intro p hp
    obtain ⟨index, hindex, rfl⟩ := List.mem_map.mp hp
    have hle := hmono.monotone (Nat.le_sub_one_of_lt (List.mem_range.mp hindex))
    rw [hend] at hle
    omega
  · intro _
    rw [List.head?_map, List.head?_range, if_neg (by omega), Option.map_some, cutPoint_zero]
  · intro _
    rw [List.getLast?_map, List.getLast?_range, if_neg (by omega), Option.map_some, hend]
  · have hgap : ∀ gap, IsGap ((List.range limit).map (cutPoint (n - 1) (limit - 1))) gap →
        (n - 1) / (limit - 1) ≤ gap ∧ gap ≤ (n - 1) / (limit - 1) + 1 := by
      rintro gap ⟨i, p, hp, hq⟩
      rw [List.getElem?_map, Option.map_eq_some_iff] at hp hq
      obtain ⟨index, hi, rfl⟩ := hp
      obtain ⟨_, hi', hstep⟩ := hq
      obtain rfl := eq_of_getElem?_range hi
      obtain rfl := eq_of_getElem?_range hi'
      have hbounds := @cutPoint_succ (n - 1) (limit - 1) hparts index
      omega
    intro gap gap' h h'
    have hleast := (hgap gap' h').1
    have hgreatest := (hgap gap h).2
    omega

/-- The products stay in a `usize` for up to `2 ^ 32` points. -/
theorem downsample_product_lt (hn : n ≤ 2 ^ 32) (h : limit < n) {index : Nat}
    (hindex : index < limit) : index * (n - 1) < 2 ^ 64 := by
  have hfactors : index * (n - 1) ≤ (2 ^ 32 - 1) * (2 ^ 32 - 1) :=
    Nat.mul_le_mul (by omega) (by omega)
  omega

theorem map_some_filterMap {α β : Type} {f : α → Option β} {xs : List α}
    (h : ∀ x ∈ xs, ∃ y, f x = some y) : (xs.filterMap f).map some = xs.map f := by
  induction xs with
  | nil => rfl
  | cons x xs ih =>
    obtain ⟨y, hy⟩ := h x List.mem_cons_self
    rw [List.filterMap_cons_some hy, List.map_cons, List.map_cons, hy,
      ih fun x' hx' => h x' (List.mem_cons_of_mem x hx')]

variable {F : Type}

/-- What the detector takes are the points at the positions of an even sample. -/
theorem downsample_even (points : List (MetricPoint F)) (fftSampleLimit : Nat) :
    ∃ positions, EvenSample points.length (max fftSampleLimit 8) positions ∧
      (Detectors.downsample points (max fftSampleLimit 8)).map some =
        positions.map (points[·]?) := by
  have hlimit : 8 ≤ max fftSampleLimit 8 := Nat.le_max_right _ _
  generalize max fftSampleLimit 8 = limit at hlimit
  unfold Detectors.downsample
  by_cases h : points.length ≤ limit
  · refine ⟨List.range points.length, evenSample_range h, ?_⟩
    rw [if_pos h]
    exact List.ext_getElem (by simp) fun i _ _ => by simp
  · have hsample := @evenSample_cutPoint points.length limit (by omega) (by omega)
    refine ⟨_, hsample, ?_⟩
    rw [if_neg h, List.map_map]
    refine map_some_filterMap fun index hindex => ?_
    have hbelow := hsample.below _ (List.mem_map_of_mem hindex)
    exact ⟨_, List.getElem?_eq_getElem hbelow⟩

end Aetus.Anomaly
