import Mathlib.Data.List.Nodup

/-!
Grids written to a list row by row or column by column, and loops over their cells that put
the values of these under the keys of the columns.
-/

set_option autoImplicit false

namespace Aetus.Base

section blocks
variable {α β : Type} {m : Nat}

theorem cell_lt {n i j : Nat} (hj : j < n) (hi : i < m) : j * m + i < n * m := by
  have hrow := Nat.mul_le_mul_right m (Nat.succ_le_of_lt hj)
  rw [Nat.succ_mul] at hrow
  omega

theorem zipIdx_flatMap {xs : List α} {g : α → List β} (h : ∀ x ∈ xs, (g x).length = m) (k : Nat) :
    (xs.flatMap g).zipIdx (k * m) = (xs.zipIdx k).flatMap fun e => (g e.1).zipIdx (e.2 * m) := by
  induction xs generalizing k with
  | nil => rfl
  | cons x xs ih =>
    have hstart : k * m + (g x).length = (k + 1) * m := by
      rw [h x List.mem_cons_self, Nat.succ_mul]
    rw [List.flatMap_cons, List.zipIdx_append, hstart, List.zipIdx_cons, List.flatMap_cons,
      ih fun y hy => h y (List.mem_cons_of_mem x hy)]

theorem length_flatMap_of_length {xs : List α} {g : α → List β} (h : ∀ x ∈ xs, (g x).length = m) :
    (xs.flatMap g).length = xs.length * m := by
  induction xs with
  | nil => exact (Nat.zero_mul m).symm
  | cons x xs ih =>
    rw [List.flatMap_cons, List.length_append, h x List.mem_cons_self,
      ih fun y hy => h y (List.mem_cons_of_mem x hy), List.length_cons, Nat.succ_mul, Nat.add_comm]

theorem drop_take_flatMap {xs : List α} {g : α → List β} (h : ∀ x ∈ xs, (g x).length = m) {j : Nat}
    {x : α} (hj : xs[j]? = some x) : ((xs.flatMap g).drop (j * m)).take m = g x := by
  induction xs generalizing j with
  | nil => cases hj
  | cons y xs ih =>
    have hy := h y List.mem_cons_self
    rw [List.flatMap_cons]
    cases j with
    | zero =>
      obtain rfl : y = x := Option.some.inj hj
      rw [Nat.zero_mul, List.drop_zero,
        List.take_append_of_le_length (Nat.le_of_eq hy.symm), List.take_of_length_le (Nat.le_of_eq hy)]
    | succ j =>
      have hstart : (j + 1) * m = (g y).length + j * m := by
        rw [hy, Nat.succ_mul, Nat.add_comm]
      rw [hstart, List.drop_length_add_append]
      exact ih (fun z hz => h z (List.mem_cons_of_mem y hz)) hj

theorem getElem?_flatMap {xs : List α} {g : α → List β} (h : ∀ x ∈ xs, (g x).length = m) {i j : Nat}
    {x : α} (hj : xs[j]? = some x) (hi : i < m) : (xs.flatMap g)[j * m + i]? = (g x)[i]? := by
  rw [← drop_take_flatMap h hj, List.getElem?_take_of_lt hi, List.getElem?_drop]

theorem map_zipIdx_fst (g : α → β) (xs : List α) : xs.zipIdx.map (fun e => g e.1) = xs.map g := by
  rw [← List.zipIdx_map_fst 0 xs, List.map_map, List.zipIdx_map_fst]
  rfl

theorem zipIdx_range_map {g : Nat → β} {n : Nat} (k : Nat) :
    ((List.range n).map g).zipIdx k = (List.range n).map fun j => (g j, k + j) := by
  refine List.ext_getElem (by simp) fun j _ _ => ?_
  simp

theorem zipIdx_byRow (n : Nat) (xs : List α) :
    ((List.range n).flatMap fun _ => xs).zipIdx =
      (List.range n).flatMap fun j => xs.zipIdx.map fun e => (e.1, j * xs.length + e.2) := by
  have hblocks := zipIdx_flatMap (g := fun _ => xs) (fun j (_ : j ∈ List.range n) => rfl) 0
  have hrange := zipIdx_range_map (g := id) (n := n) 0
  rw [List.map_id] at hrange
  rw [Nat.zero_mul, hrange, List.flatMap_map] at hblocks
  rw [hblocks]
  refine List.flatMap_congr fun j _ => ?_
  rw [id, Nat.zero_add, ← Nat.add_zero (j * xs.length), ← List.map_snd_add_zipIdx_eq_zipIdx]
  exact List.map_congr_left fun e _ => congrArg (e.1, ·) (Nat.add_comm _ _)

theorem zipIdx_byColumn (n : Nat) (xs : List α) :
    (xs.flatMap fun x => (List.range n).map fun _ => x).zipIdx =
      xs.zipIdx.flatMap fun e => (List.range n).map fun j => (e.1, e.2 * n + j) := by
  have hlength : ∀ x ∈ xs, ((List.range n).map fun _ => x).length = n := fun x _ => by
    rw [List.length_map, List.length_range]
  have hblocks := zipIdx_flatMap hlength 0
  rw [Nat.zero_mul] at hblocks
  rw [hblocks]
  exact List.flatMap_congr fun e _ => zipIdx_range_map (e.2 * n)

end blocks

section loops
variable {α β ε κ ν σ : Type} [DecidableEq κ]

theorem foldlM_flatMap {f : σ → β → Except ε σ} {g : α → List β} {xs : List α} {s : σ} :
    (xs.flatMap g).foldlM f s = xs.foldlM (fun s x => (g x).foldlM f s) s := by
  induction xs generalizing s with
  | nil => rfl
  | cons x xs ih =>
    rw [List.flatMap_cons, List.foldlM_append, List.foldlM_cons]
    exact congrArg _ (funext fun _ => ih)

def valuesOf (k : κ) (items : List (κ × ν)) : List ν :=
  (items.filter fun item => item.1 = k).map Prod.snd

theorem valuesOf_cons {k : κ} {item : κ × ν} {items : List (κ × ν)} :
    valuesOf k (item :: items) =
      if item.1 = k then item.2 :: valuesOf k items else valuesOf k items := by
  by_cases hk : item.1 = k <;> simp [valuesOf, hk]

theorem foldlM_valuesOf {f : σ → α → Except ε σ} (I : Nat → σ → Prop) (look : σ → κ → Option β)
    (push : β → ν → β) (item : α × Nat → κ × ν) {xs : List α} {p : Nat} {s : σ}
    (hstep : ∀ e ∈ xs.zipIdx p, ∀ s, I e.2 s → ∃ s', f s e.1 = .ok s' ∧ I (e.2 + 1) s' ∧
      ∀ k, look s' k =
        if (item e).1 = k then (look s k).map (push · (item e).2) else look s k)
    (h : I p s) :
    ∃ s', xs.foldlM f s = .ok s' ∧ I (p + xs.length) s' ∧ ∀ k, look s' k =
      (look s k).map ((valuesOf k ((xs.zipIdx p).map item)).foldl push) := by
  induction xs generalizing p s with
  | nil => exact ⟨s, rfl, h, fun k => by simp [valuesOf]⟩
  | cons x xs ih =>
    rw [List.zipIdx_cons] at hstep ⊢
    obtain ⟨t, hfirst, hinv, hlook⟩ := hstep (x, p) List.mem_cons_self s h
    obtain ⟨s', hrest, hinv', hlook'⟩ :=
      ih (fun e he => hstep e (List.mem_cons_of_mem _ he)) hinv
    refine ⟨s', ?_, ?_, fun k => ?_⟩
    · rw [List.foldlM_cons, hfirst]
      exact hrest
    · rw [List.length_cons, Nat.add_comm xs.length, ← Nat.add_assoc]
      exact hinv'
    · rw [hlook', hlook, List.map_cons, valuesOf_cons]
      split
      · rw [Option.map_map]
        rfl
      · rfl

end loops

section columns
variable {α κ ν γ : Type} [DecidableEq κ] {key : γ → κ} {k : κ} {columns : List γ} {n : Nat}

theorem filter_eq_singleton {e : γ} (h : (columns.map key).Nodup) (he : e ∈ columns) :
    (columns.filter fun e' => key e' = key e) = [e] := by
  induction columns with
  | nil => cases he
  | cons c columns ih =>
    obtain ⟨hfresh, hrest⟩ := List.nodup_cons.mp h
    rcases List.mem_cons.mp he with rfl | hmem
    · rw [List.filter_cons, if_pos (decide_eq_true rfl)]
      refine congrArg _ (List.filter_eq_nil_iff.mpr fun c hc hkey => hfresh ?_)
      rw [← of_decide_eq_true hkey]
      exact List.mem_map_of_mem hc
    · rw [List.filter_cons_of_neg, ih hrest hmem]
      intro hkey
      rw [of_decide_eq_true hkey] at hfresh
      exact hfresh (List.mem_map_of_mem hmem)

theorem filter_zipIdx_of_nodup {key : α → κ} {xs : List α} (h : (xs.map key).Nodup) {i : Nat}
    {x : α} (hi : xs[i]? = some x) : (xs.zipIdx.filter fun e => key e.1 = key x) = [(x, i)] := by
  rw [← map_zipIdx_fst key] at h
  exact filter_eq_singleton h (List.mk_mem_zipIdx_iff_getElem?.mpr hi)

theorem filter_zipIdx_of_not_mem {key : α → κ} {xs : List α} {k : κ} (h : k ∉ xs.map key) :
    (xs.zipIdx.filter fun e => key e.1 = k) = [] := by
  refine List.filter_eq_nil_iff.mpr fun e he hk => h ?_
  rw [← of_decide_eq_true hk]
  exact List.mem_map_of_mem (List.fst_mem_of_mem_zipIdx he)

theorem length_filter_zipIdx (key : α → κ) (k : κ) (xs : List α) :
    (xs.zipIdx.filter fun e => key e.1 = k).length = xs.countP fun x => key x = k := by
  have hfst := List.countP_map (p := fun x => decide (key x = k)) (f := Prod.fst) (l := xs.zipIdx)
  rw [List.zipIdx_map_fst] at hfst
  rw [← List.countP_eq_length_filter]
  exact hfst.symm

theorem valuesOf_row {value : γ → ν} :
    valuesOf k (columns.map fun e => (key e, value e)) =
      (columns.filter fun e => key e = k).map value := by
  rw [valuesOf, List.filter_map, List.map_map]
  rfl

theorem valuesOf_byRow {rows : List Nat} {value : γ → Nat → ν} :
    valuesOf k (rows.flatMap fun j => columns.map fun e => (key e, value e j)) =
      rows.flatMap fun j => (columns.filter fun e => key e = k).map (value · j) := by
  rw [valuesOf, List.filter_flatMap, List.map_flatMap]
  exact List.flatMap_congr fun j _ => valuesOf_row

theorem valuesOf_byColumn {value : γ → Nat → ν} :
    valuesOf k (columns.flatMap fun e => (List.range n).map fun j => (key e, value e j)) =
      (columns.filter fun e => key e = k).flatMap fun e => (List.range n).map (value e) := by
  rw [valuesOf, List.filter_flatMap, List.map_flatMap]
  induction columns with
  | nil => rfl
  | cons e columns ih =>
    rw [List.flatMap_cons, ih, List.filter_map, List.map_map, List.filter_cons]
    by_cases hk : key e = k
    · simp [hk, Function.comp_def]
    · simp [hk, Function.comp_def]

end columns

end Aetus.Base
