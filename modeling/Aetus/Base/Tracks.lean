import Mathlib.Data.List.Basic
import Mathlib.Order.Monotone.Basic

/-!
Tracks over one list of times, each with a value at some of these. Where only the values are
kept, they can be given the first times of the list, or the times of a bucket of it: these
are the right ones under a condition on where the track has no value.
-/

set_option autoImplicit false

namespace Aetus.Base

section positions
variable {α : Type} {entries : List (Nat × α)} {a b : Nat}

def Positioned (entries : List (Nat × α)) : Prop := entries.Pairwise fun e e' => e.1 < e'.1

theorem filter_lt_eq_take (h : Positioned entries) (b : Nat) :
    entries.filter (fun e => e.1 < b) = entries.take (entries.countP fun e => e.1 < b) := by
  induction entries with
  | nil => rfl
  | cons e entries ih =>
    obtain ⟨hfirst, hrest⟩ := List.pairwise_cons.mp h
    by_cases he : e.1 < b
    · rw [List.filter_cons, if_pos (decide_eq_true he), List.countP_cons,
        if_pos (decide_eq_true he), List.take_succ_cons, ih hrest]
    · have hnone : ∀ e' ∈ e :: entries, ¬decide (e'.1 < b) = true := by
        intro e' he'
        rcases List.mem_cons.mp he' with rfl | he'
        · exact fun hlt => he (of_decide_eq_true hlt)
        · exact fun hlt => he ((hfirst e' he').trans (of_decide_eq_true hlt))
      rw [List.filter_eq_nil_iff.mpr hnone, List.countP_eq_zero.mpr hnone, List.take_zero]

theorem filter_ge_eq_drop (h : Positioned entries) (a : Nat) :
    entries.filter (fun e => a ≤ e.1) = entries.drop (entries.countP fun e => e.1 < a) := by
  induction entries with
  | nil => rfl
  | cons e entries ih =>
    obtain ⟨hfirst, hrest⟩ := List.pairwise_cons.mp h
    by_cases he : e.1 < a
    · rw [List.filter_cons_of_neg (by simpa using he), List.countP_cons,
        if_pos (decide_eq_true he), List.drop_succ_cons, ih hrest]
    · have hall : ∀ e' ∈ e :: entries, decide (a ≤ e'.1) = true := by
        intro e' he'
        rcases List.mem_cons.mp he' with rfl | he'
        · exact decide_eq_true (Nat.not_lt.mp he)
        · exact decide_eq_true ((Nat.not_lt.mp he).trans (Nat.le_of_lt (hfirst e' he')))
      have hnone : ∀ e' ∈ e :: entries, ¬decide (e'.1 < a) = true := fun e' he' => by
        simpa using hall e' he'
      rw [List.filter_eq_self.mpr hall, List.countP_eq_zero.mpr hnone, List.drop_zero]

theorem countP_lt_mono (hab : a ≤ b) :
    entries.countP (fun e => e.1 < a) ≤ entries.countP fun e => e.1 < b :=
  List.countP_mono_left fun _ _ h => decide_eq_true ((of_decide_eq_true h).trans_le hab)

theorem filter_between_eq_slice (h : Positioned entries) (hab : a ≤ b) :
    entries.filter (fun e => a ≤ e.1 ∧ e.1 < b) =
      (entries.take (entries.countP fun e => e.1 < b)).drop
        (entries.countP fun e => e.1 < a) := by
  have hbefore : (entries.filter fun e => e.1 < b).countP (fun e => e.1 < a) =
      entries.countP fun e => e.1 < a := by
    rw [List.countP_filter]
    refine List.countP_congr fun e _ => ?_
    simp only [Bool.and_eq_true, decide_eq_true_eq]
    omega
  have hdrop := filter_ge_eq_drop (h.filter fun e => e.1 < b) a
  rw [hbefore, filter_lt_eq_take h, ← filter_lt_eq_take h, List.filter_filter] at hdrop
  rw [← filter_lt_eq_take h, ← hdrop]
  refine List.filter_congr fun e _ => ?_
  simp

/-- Slices of the list are the entries of the slices' own positions, for each of the ranges into
which some bounds split the positions, if and only if each bound has as many entries before it
as it would have with none left out. -/
theorem slices_eq_iff {bound : Nat → Nat} {n : Nat} (h : Positioned entries)
    (hmono : Monotone bound) (hzero : bound 0 = 0) :
    (∀ k < n, (entries.take (bound (k + 1))).drop (bound k) =
        entries.filter fun e => bound k ≤ e.1 ∧ e.1 < bound (k + 1)) ↔
      ∀ k ≤ n, (entries.countP fun e => e.1 < bound k) = min (bound k) entries.length := by
  have hstep (k : Nat) : bound k ≤ bound (k + 1) := hmono (Nat.le_succ k)
  constructor
  · intro hslices k hk
    induction k with
    | zero =>
      rw [hzero, Nat.zero_min]
      exact List.countP_eq_zero.mpr fun e _ => by simp
    | succ k ih =>
      -- The slices have the same lengths, and so have their starts the same distance.
      have hlength := congrArg List.length (hslices k hk)
      rw [filter_between_eq_slice h (hstep k), List.length_drop, List.length_take, List.length_drop,
        List.length_take, ih (Nat.le_of_lt hk)] at hlength
      have hcount : (entries.countP fun e => e.1 < bound k) ≤
          entries.countP fun e => e.1 < bound (k + 1) := countP_lt_mono (hstep k)
      have htotal := List.countP_le_length (p := fun e => decide (e.1 < bound (k + 1)))
        (l := entries)
      rw [ih (Nat.le_of_lt hk)] at hcount
      have hbound := hstep k
      omega
  · intro hcounts k hk
    rw [filter_between_eq_slice h (hstep k), hcounts k (Nat.le_of_lt hk), hcounts (k + 1) hk,
      ← List.take_eq_take_min]
    rcases Nat.le_total (bound k) entries.length with hle | hge
    · rw [Nat.min_eq_left hle]
    · have hshort : (entries.take (bound (k + 1))).length ≤ entries.length := by
        rw [List.length_take]
        exact Nat.min_le_right _ _
      rw [Nat.min_eq_right hge, List.drop_eq_nil_of_le hshort,
        List.drop_eq_nil_of_le (hshort.trans hge)]

/-- The slices between the bounds make up the list as far as the last bound. -/
theorem flatMap_slices {bound : Nat → Nat} (hmono : Monotone bound) (hzero : bound 0 = 0)
    (values : List α) (n : Nat) :
    (List.range n).flatMap (fun k => (values.take (bound (k + 1))).drop (bound k)) =
      values.take (bound n) := by
  induction n with
  | zero => rw [hzero]; rfl
  | succ n ih =>
    have hstep : (values.take (bound (n + 1))).take (bound n) = values.take (bound n) := by
      rw [List.take_take, Nat.min_eq_left (hmono (Nat.le_succ n))]
    rw [List.range_succ, List.flatMap_append, ih, List.flatMap_singleton, ← hstep,
      List.take_append_drop]

theorem exists_range {bound : Nat → Nat} {n p : Nat} (hzero : bound 0 = 0) (hp : p < bound n) :
    ∃ k < n, bound k ≤ p ∧ p < bound (k + 1) := by
  induction n with
  | zero => omega
  | succ n ih =>
    by_cases hlt : p < bound n
    · obtain ⟨k, hk, hbounds⟩ := ih hlt
      exact ⟨k, Nat.lt_succ_of_lt hk, hbounds⟩
    · exact ⟨n, Nat.lt_succ_self n, Nat.not_lt.mp hlt, hp⟩

end positions

section tracks
variable {τ ν : Type} {track : List (τ × Option ν)}

def trackEntries (track : List (τ × Option ν)) : List (Nat × τ × ν) :=
  track.zipIdx.filterMap fun e => e.1.2.map fun value => (e.2, e.1.1, value)

theorem positioned_trackEntries (track : List (τ × Option ν)) :
    Positioned (trackEntries track) := by
  have hzip : track.zipIdx.Pairwise fun e e' => e.2 < e'.2 := by
    have hrange := List.pairwise_lt_range' (s := 0) (n := track.length)
    rw [← List.zipIdx_map_snd 0 track] at hrange
    exact List.pairwise_map.mp hrange
  refine List.Pairwise.filterMap _ (fun e e' hlt x hx y hy => ?_) hzip
  obtain ⟨value, -, rfl⟩ := Option.map_eq_some_iff.mp hx
  obtain ⟨value', -, rfl⟩ := Option.map_eq_some_iff.mp hy
  exact hlt

theorem position_lt_of_mem {entry : Nat × τ × ν} (h : entry ∈ trackEntries track) :
    entry.1 < track.length := by
  obtain ⟨e, he, hmap⟩ := List.mem_filterMap.mp h
  obtain ⟨value, -, rfl⟩ := Option.map_eq_some_iff.mp hmap
  exact List.snd_lt_of_mem_zipIdx he

theorem map_trackEntries : (trackEntries track).map (·.2.2) = track.filterMap Prod.snd := by
  rw [trackEntries, List.map_filterMap]
  conv_rhs => rw [← List.zipIdx_map_fst 0 track, List.filterMap_map]
  refine List.filterMap_congr fun ⟨⟨_, value⟩, _⟩ _ => ?_
  cases value <;> rfl

theorem length_trackEntries_le : (trackEntries track).length ≤ track.length :=
  (List.length_filterMap_le _ _).trans_eq List.length_zipIdx

/-- Values against the first of some times: each is at its own time if and only if the first
times are their own. -/
theorem zip_eq_iff {times : List τ} {points : List (τ × ν)} (h : points.length ≤ times.length) :
    times.zip (points.map Prod.snd) = points ↔
      times.take points.length = points.map Prod.fst := by
  induction points generalizing times with
  | nil => simp
  | cons point points ih =>
    cases times with
    | nil => simp at h
    | cons time times =>
      have hrest := ih (Nat.le_of_succ_le_succ h)
      simp [hrest, Prod.ext_iff]

end tracks

end Aetus.Base
