import Mathlib.Data.List.Sort

/-!
A stable sort, and the elements of a sorted list that are selected.
-/

set_option autoImplicit false

namespace Aetus.Base

variable {α : Type} {r : α → α → Prop} [DecidableRel r]

theorem filter_orderedInsert [IsTrans α r] (p : α → Bool) (a : α) {xs : List α}
    (h : xs.Pairwise r) : (xs.orderedInsert r a).filter p =
      if p a then (xs.filter p).orderedInsert r a else xs.filter p := by
  induction xs with
  | nil => cases hp : p a <;> simp [hp]
  | cons x xs ih =>
    obtain ⟨hx, hxs⟩ := List.pairwise_cons.mp h
    by_cases hle : r a x
    · rw [List.orderedInsert_cons_of_le r xs hle, List.filter_cons]
      -- what comes after `x` is not before `a` either
      have hafter : ∀ y ∈ (x :: xs).filter p, r a y := fun y hy =>
        (List.mem_cons.mp (List.mem_of_mem_filter hy)).elim (fun heq => heq ▸ hle)
          fun hmem => IsTrans.trans a x y hle (hx y hmem)
      split
      · cases hrest : (x :: xs).filter p with
        | nil => rfl
        | cons y ys =>
          rw [List.orderedInsert_cons_of_le r ys (hafter y (hrest ▸ List.mem_cons_self))]
      · rfl
    · rw [List.orderedInsert_of_not_le r xs hle, List.filter_cons, ih hxs, List.filter_cons]
      cases hpa : p a <;> cases hpx : p x <;> simp [hle]

theorem filter_insertionSort [Std.Total r] [IsTrans α r] (p : α → Bool) (xs : List α) :
    (xs.insertionSort r).filter p = (xs.filter p).insertionSort r := by
  induction xs with
  | nil => rfl
  | cons x xs ih =>
    rw [List.insertionSort_cons, filter_orderedInsert p x (List.pairwise_insertionSort r xs), ih,
      List.filter_cons]
    split
    · rw [List.insertionSort_cons]
    · rfl

theorem lt_countP_iff {P : α → Bool} {xs : List α}
    (h : xs.Pairwise fun x y => P y = true → P x = true) {p : Nat} {x : α} (hx : xs[p]? = some x) :
    p < xs.countP P ↔ P x = true := by
  induction xs generalizing p with
  | nil => cases hx
  | cons a xs ih =>
    obtain ⟨hfirst, hrest⟩ := List.pairwise_cons.mp h
    by_cases ha : P a = true
    · rw [List.countP_cons_of_pos ha]
      cases p with
      | zero =>
        obtain rfl : a = x := Option.some.inj hx
        simp [ha]
      | succ p =>
        rw [Nat.add_lt_add_iff_right]
        exact ih hrest hx
    · have hnone : xs.countP P = 0 := List.countP_eq_zero.mpr fun y hy hPy => ha (hfirst y hy hPy)
      have hmem : x ∈ a :: xs := List.mem_of_getElem? hx
      have hPx : ¬ P x = true := by
        rcases List.mem_cons.mp hmem with rfl | htail
        · exact ha
        · exact fun hPx => ha (hfirst x htail hPx)
      rw [List.countP_cons_of_neg ha, hnone]
      exact iff_of_false (Nat.not_lt_zero p) hPx

/-- What is cut off behind the first `k` has `k` others before it. -/
theorem before_of_mem_drop [Std.Total r] [IsTrans α r] {xs : List α} (hnodup : xs.Nodup) {k : Nat}
    {x : α} (hx : x ∈ (xs.insertionSort r).drop k) :
    ∃ ys : List α, ys.Nodup ∧ ys.length = k ∧ ∀ y ∈ ys, y ∈ xs ∧ r y x ∧ y ≠ x := by
  have hperm := List.perm_insertionSort r xs
  have hsplit := List.take_append_drop k (xs.insertionSort r)
  have hsorted := List.pairwise_insertionSort r xs
  have hdistinct := hperm.nodup_iff.mpr hnodup
  rw [← hsplit, List.pairwise_append] at hsorted
  rw [← hsplit, List.nodup_append] at hdistinct
  refine ⟨(xs.insertionSort r).take k, hdistinct.1, ?_, fun y hy => ?_⟩
  · have hpos := List.length_pos_of_mem hx
    rw [List.length_drop] at hpos
    rw [List.length_take]
    omega
  · exact ⟨hperm.mem_iff.mp (List.mem_of_mem_take hy), hsorted.2.2 y hy x hx,
      hdistinct.2.2 y hy x hx⟩

/-- In a sorted list equal keys stand together. -/
theorem last_of_mem_sorted {β : Type} [PartialOrder β] {f : α → β} {xs : List α} {x : α}
    (h : (xs ++ [x]).Pairwise fun a b => f a ≤ f b) (hmem : f x ∈ xs.map f) :
    ∃ last, xs.getLast? = some last ∧ f last = f x := by
  obtain ⟨y, hy, hkey⟩ := List.mem_map.mp hmem
  have hne := List.ne_nil_of_mem hy
  obtain ⟨hxs, -, hlast⟩ := List.pairwise_append.mp h
  refine ⟨xs.getLast hne, List.getLast?_eq_some_getLast hne, le_antisymm ?_ ?_⟩
  · exact hlast _ (List.getLast_mem hne) x List.mem_cons_self
  · rw [← hkey]
    rw [← List.dropLast_append_getLast hne] at hxs hy
    rcases List.mem_append.mp hy with hy | hy
    · exact (List.pairwise_append.mp hxs).2.2 y hy _ List.mem_cons_self
    · rw [List.mem_singleton.mp hy]

end Aetus.Base
