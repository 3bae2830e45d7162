import Mathlib.Algebra.BigOperators.Group.List.Basic
import Mathlib.Algebra.GroupWithZero.Nat
import Mathlib.Data.List.Dedup
import Mathlib.Data.List.Forall2

/-!
Traversals of a list that can fail, and sums that count.
-/

set_option autoImplicit false

namespace Aetus.Base

theorem except_bind_eq_ok {ε α β : Type} {x : Except ε α} {f : α → Except ε β} {b : β} :
    x >>= f = .ok b ↔ ∃ a, x = .ok a ∧ f a = .ok b := by
  cases x with
  | error e => exact ⟨nofun, fun ⟨_, h, _⟩ => nomatch h⟩
  | ok a => exact ⟨fun h => ⟨a, rfl, h⟩, fun ⟨_, h, hf⟩ => Except.ok.inj h ▸ hf⟩

theorem mem_of_lookup {α β : Type} [BEq α] [LawfulBEq α] {l : List (α × β)} {k : α} {v : β}
    (h : l.lookup k = some v) : (k, v) ∈ l := by
  obtain ⟨before, after, rfl, -⟩ := List.lookup_eq_some_iff.mp h
  simp

/-- Two selections of a list, neither of which takes an element that the other leaves. -/
theorem forall₂_filterMap_filterMap {α β γ : Type} {R : β → γ → Prop} {f : α → Option β}
    {g : α → Option γ} {xs : List α}
    (h : ∀ x ∈ xs, f x = none ∧ g x = none ∨ ∃ y z, f x = some y ∧ g x = some z ∧ R y z) :
    List.Forall₂ R (xs.filterMap f) (xs.filterMap g) := by
  induction xs with
  | nil => exact .nil
  | cons x xs ih =>
    have hrest := ih fun x' hx' => h x' (List.mem_cons_of_mem _ hx')
    rcases h x List.mem_cons_self with ⟨hf, hg⟩ | ⟨y, z, hf, hg, hR⟩
    · rw [List.filterMap_cons_none hf, List.filterMap_cons_none hg]
      exact hrest
    · rw [List.filterMap_cons_some hf, List.filterMap_cons_some hg]
      exact .cons hR hrest

theorem forall₂_filterMap {α β : Type} {R : α → β → Prop} {f : α → Option β} {xs : List α}
    (h : ∀ x ∈ xs, ∃ y, f x = some y ∧ R x y) : List.Forall₂ R xs (xs.filterMap f) := by
  have hboth : List.Forall₂ R (xs.filterMap some) (xs.filterMap f) :=
    forall₂_filterMap_filterMap fun x hx =>
      have ⟨y, hy, hR⟩ := h x hx
      .inr ⟨x, y, rfl, hy, hR⟩
  rwa [List.filterMap_some] at hboth

theorem forall₂_exists_right {α β : Type} {R : α → β → Prop} {xs : List α} {ys : List β}
    (h : List.Forall₂ R xs ys) {x : α} (hx : x ∈ xs) : ∃ y ∈ ys, R x y := by
  induction h with
  | nil => cases hx
  | cons hR _ ih =>
    rcases List.mem_cons.mp hx with rfl | hx
    · exact ⟨_, List.mem_cons_self, hR⟩
    · obtain ⟨y, hy, hxy⟩ := ih hx
      exact ⟨y, List.mem_cons_of_mem _ hy, hxy⟩

theorem forall₂_exists_left {α β : Type} {R : α → β → Prop} {xs : List α} {ys : List β}
    (h : List.Forall₂ R xs ys) {y : β} (hy : y ∈ ys) : ∃ x ∈ xs, R x y :=
  forall₂_exists_right h.flip hy

theorem forall₂_getElem? {α β : Type} {R : α → β → Prop} {xs : List α} {ys : List β}
    (h : List.Forall₂ R xs ys) {i : Nat} {x : α} {y : β} (hx : xs[i]? = some x)
    (hy : ys[i]? = some y) : R x y := by
  obtain ⟨hi, rfl⟩ := List.getElem?_eq_some_iff.mp hx
  obtain ⟨hj, rfl⟩ := List.getElem?_eq_some_iff.mp hy
  exact h.get hi hj

theorem forall₂_trans {α β γ : Type} {R : α → β → Prop} {S : β → γ → Prop} {T : α → γ → Prop}
    (h : ∀ a b c, R a b → S b c → T a c) {xs : List α} {ys : List β} {zs : List γ}
    (hxy : List.Forall₂ R xs ys) (hyz : List.Forall₂ S ys zs) : List.Forall₂ T xs zs := by
  induction hxy generalizing zs with
  | nil =>
    cases hyz
    exact .nil
  | cons hab _ ih =>
    cases hyz with
    | cons hbc htail => exact .cons (h _ _ _ hab hbc) (ih htail)

theorem mapM_ok {ε α β : Type} {f : α → Except ε β} {xs : List α} {ys : List β}
    (h : xs.mapM f = .ok ys) : List.Forall₂ (fun x y => f x = .ok y) xs ys := by
  induction xs generalizing ys with
  | nil =>
    cases h
    exact .nil
  | cons x xs ih =>
    rw [List.mapM_cons] at h
    cases hx : f x with
    | error e =>
      rw [hx] at h
      cases h
    | ok y =>
      cases htail : xs.mapM f with
      | error e =>
        rw [hx, htail] at h
        cases h
      | ok ys =>
        rw [hx, htail] at h
        cases h
        exact .cons hx (ih htail)

theorem mapM_some {α β : Type} {f : α → Option β} {xs : List α} {ys : List β}
    (h : xs.mapM f = some ys) : List.Forall₂ (fun x y => f x = some y) xs ys := by
  induction xs generalizing ys with
  | nil =>
    cases h
    exact .nil
  | cons x xs ih =>
    rw [List.mapM_cons] at h
    obtain ⟨y, hy, h⟩ := Option.bind_eq_some_iff.mp h
    obtain ⟨rest, hrest, h⟩ := Option.bind_eq_some_iff.mp h
    cases h
    exact .cons hy (ih hrest)

theorem mem_of_mapM {ε α β : Type} {f : α → Except ε β} {xs : List α} {ys : List β} {y : β}
    (h : xs.mapM f = .ok ys) : y ∈ ys ↔ ∃ x ∈ xs, f x = .ok y := by
  have hall := mapM_ok h
  clear h
  induction hall with
  | nil => simp
  | cons hx _ ih => simp [ih, hx, eq_comm]

theorem ok_of_mapM {ε α β : Type} {f : α → Except ε β} {xs : List α} {ys : List β} {x : α}
    (h : xs.mapM f = .ok ys) (hx : x ∈ xs) : ∃ y, f x = .ok y := by
  have hall := mapM_ok h
  clear h
  induction hall with
  | nil => cases hx
  | cons hy _ ih =>
    rcases List.mem_cons.mp hx with rfl | hmem
    · exact ⟨_, hy⟩
    · exact ih hmem

theorem mapM_eq_ok {ε α β : Type} {f : α → Except ε β} {g : α → β} {xs : List α}
    (h : ∀ x ∈ xs, f x = .ok (g x)) : xs.mapM f = .ok (xs.map g) := by
  induction xs with
  | nil => rfl
  | cons x xs ih =>
    rw [List.mapM_cons, h x List.mem_cons_self, ih fun y hy => h y (List.mem_cons_of_mem x hy)]
    rfl

theorem exists_mapM_iff {ε α β : Type} {f : α → Except ε β} {xs : List α} :
    (∃ ys, xs.mapM f = .ok ys) ↔ ∀ x ∈ xs, ∃ y, f x = .ok y := by
  constructor
  · rintro ⟨ys, h⟩ x hx
    exact ok_of_mapM h hx
  · intro h
    induction xs with
    | nil => exact ⟨[], rfl⟩
    | cons x xs ih =>
      obtain ⟨y, hy⟩ := h x List.mem_cons_self
      obtain ⟨ys, hys⟩ := ih fun z hz => h z (List.mem_cons_of_mem x hz)
      rw [List.mapM_cons, hy, hys]
      exact ⟨y :: ys, rfl⟩

theorem mapM_eq_self_iff {α : Type} {f : α → Option α} {xs : List α} :
    xs.mapM f = some xs ↔ ∀ x ∈ xs, f x = some x := by
  induction xs with
  | nil => simp
  | cons x xs ih =>
    rw [List.mapM_cons, List.forall_mem_cons, ← ih]
    cases f x <;> cases xs.mapM f <;> simp

theorem foldlM_eq_ok {ε α σ : Type} {f : σ → α → Except ε σ} {g : σ → α → σ} {xs : List α} {s : σ}
    (h : ∀ x ∈ xs, ∀ s, f s x = .ok (g s x)) : xs.foldlM f s = .ok (xs.foldl g s) := by
  induction xs generalizing s with
  | nil => rfl
  | cons x xs ih =>
    rw [List.foldlM_cons, h x List.mem_cons_self, List.foldl_cons]
    exact ih fun y hy => h y (List.mem_cons_of_mem x hy)

theorem foldlM_congr {ε α σ : Type} {f g : σ → α → Except ε σ} {xs : List α} {s : σ}
    (h : ∀ x ∈ xs, ∀ s, f s x = g s x) : xs.foldlM f s = xs.foldlM g s := by
  induction xs generalizing s with
  | nil => rfl
  | cons x xs ih =>
    rw [List.foldlM_cons, List.foldlM_cons, h x List.mem_cons_self]
    cases g s x with
    | error e => rfl
    | ok t => exact ih fun y hy => h y (List.mem_cons_of_mem x hy)

/-- A loop whose invariant speaks of the elements it has come past. -/
theorem foldlM_invariant {ε α σ : Type} {f : σ → α → Except ε σ} (I : List α → σ → Prop)
    {before xs : List α} {s : σ}
    (hstep : ∀ before, ∀ x ∈ xs, ∀ s, I before s → ∃ t, f s x = .ok t ∧ I (before ++ [x]) t)
    (h : I before s) : ∃ t, xs.foldlM f s = .ok t ∧ I (before ++ xs) t := by
  induction xs generalizing before s with
  | nil => exact ⟨s, rfl, by rwa [List.append_nil]⟩
  | cons x xs ih =>
    obtain ⟨t, hfirst, ht⟩ := hstep before x List.mem_cons_self s h
    obtain ⟨u, hrest, hu⟩ := ih (fun before y hy => hstep before y (List.mem_cons_of_mem x hy)) ht
    refine ⟨u, ?_, ?_⟩
    · rw [List.foldlM_cons, hfirst]
      exact hrest
    · rwa [List.append_assoc, List.singleton_append] at hu

theorem exists_foldlM {ε α σ : Type} {f : σ → α → Except ε σ} {xs : List α}
    (hstep : ∀ x ∈ xs, ∀ s, ∃ t, f s x = .ok t) (s : σ) : ∃ t, xs.foldlM f s = .ok t := by
  induction xs generalizing s with
  | nil => exact ⟨s, rfl⟩
  | cons x xs ih =>
    obtain ⟨t, ht⟩ := hstep x List.mem_cons_self s
    rw [List.foldlM_cons, ht]
    exact ih (fun y hy => hstep y (List.mem_cons_of_mem x hy)) t

theorem foldlM_preserves {ε α σ : Type} {f : σ → α → Except ε σ} {I : σ → Prop} {xs : List α}
    {s t : σ} (hstep : ∀ x ∈ xs, ∀ s t, I s → f s x = .ok t → I t) (hs : I s)
    (h : xs.foldlM f s = .ok t) : I t := by
  induction xs generalizing s with
  | nil =>
    obtain rfl := Except.ok.inj h
    exact hs
  | cons x xs ih =>
    rw [List.foldlM_cons] at h
    cases hfirst : f s x with
    | error e =>
      rw [hfirst] at h
      cases h
    | ok u =>
      rw [hfirst] at h
      exact ih (fun y hy => hstep y (List.mem_cons_of_mem x hy))
        (hstep x List.mem_cons_self s u hs hfirst) h

theorem foldlM_prefix {ε α σ : Type} {f : σ → α → Except ε σ} {I : List α → σ → Prop}
    {before xs : List α} {s t : σ}
    (hstep : ∀ before x s t, I before s → f s x = .ok t → I (before ++ [x]) t) (hs : I before s)
    (h : xs.foldlM f s = .ok t) : I (before ++ xs) t := by
  induction xs generalizing before s with
  | nil =>
    obtain rfl := Except.ok.inj h
    rwa [List.append_nil]
  | cons x xs ih =>
    rw [List.foldlM_cons] at h
    cases hfirst : f s x with
    | error e =>
      rw [hfirst] at h
      cases h
    | ok u =>
      rw [hfirst] at h
      have hrest := ih (hstep before x s u hs hfirst) h
      rwa [List.append_assoc, List.singleton_append] at hrest

theorem foldlM_ok_of_mem {ε α σ : Type} {f : σ → α → Except ε σ} {xs : List α} {s t : σ} {x : α}
    (h : xs.foldlM f s = .ok t) (hx : x ∈ xs) : ∃ before after, f before x = .ok after := by
  induction xs generalizing s with
  | nil => cases hx
  | cons y xs ih =>
    rw [List.foldlM_cons] at h
    cases hfirst : f s y with
    | error e =>
      rw [hfirst] at h
      cases h
    | ok u =>
      rw [hfirst] at h
      rcases List.mem_cons.mp hx with rfl | hmem
      · exact ⟨s, u, hfirst⟩
      · exact ih h hmem

theorem take_append_take {α : Type} (n : Nat) (xs ys : List α) :
    (xs.take n ++ ys).take n = (xs ++ ys).take n := by
  have hlength : n - (xs.take n).length = n - xs.length := by
    rw [List.length_take]
    omega
  rw [List.take_append, List.take_append, List.take_take, Nat.min_self, hlength]

theorem filter_filter_of_imp {α : Type} {p q : α → Bool} {xs : List α}
    (h : ∀ x ∈ xs, q x = true → p x = true) : (xs.filter p).filter q = xs.filter q := by
  rw [List.filter_filter]
  refine List.filter_congr fun x hx => ?_
  cases hq : q x with
  | false => simp
  | true => simp [h x hx hq]

theorem dedup_filter {α : Type} [DecidableEq α] (p : α → Bool) (xs : List α) :
    (xs.filter p).dedup = xs.dedup.filter p := by
  induction xs with
  | nil => rfl
  | cons x xs ih =>
    by_cases hmem : x ∈ xs
    · cases hp : p x <;> simp [hp, hmem, ih]
    · cases hp : p x <;> simp [hp, hmem, ih]

/-- The groups of the rows that are selected by what they are grouped by. -/
theorem filterMap_groups {ρ γ τ : Type} [DecidableEq γ] (group : ρ → γ) (p : γ → Bool)
    (q : τ → Bool) (make : List ρ → γ → Option τ) (rows : List ρ) {sort : List γ → List γ}
    (hsort : ∀ p groups, (sort groups).filter p = sort (groups.filter p))
    (hmake : ∀ rows g x, make rows g = some x → q x = p g)
    (hrows : ∀ g, p g = true → make (rows.filter fun row => p (group row)) g = make rows g) :
    ((sort (rows.map group).dedup).filterMap (make rows)).filter q =
      (sort ((rows.filter fun row => p (group row)).map group).dedup).filterMap
        (make (rows.filter fun row => p (group row))) := by
  have hgroups : (sort ((rows.filter fun row => p (group row)).map group).dedup) =
      (sort (rows.map group).dedup).filter p := by
    rw [hsort, ← dedup_filter, List.filter_map]
    rfl
  rw [hgroups]
  induction sort (rows.map group).dedup with
  | nil => rfl
  | cons g groups ih =>
    cases hp : p g with
    | true =>
      rw [List.filter_cons_of_pos hp, List.filterMap_cons, List.filterMap_cons, hrows g hp]
      cases hx : make rows g with
      | none => exact ih
      | some x => rw [List.filter_cons_of_pos ((hmake rows g x hx).trans hp), ih]
    | false =>
      rw [List.filter_cons_of_neg (Bool.eq_false_iff.mp hp), List.filterMap_cons]
      cases hx : make rows g with
      | none => exact ih
      | some x =>
        rw [List.filter_cons_of_neg (Bool.eq_false_iff.mp ((hmake rows g x hx).trans hp)), ih]

theorem filter_eq_of_length {α β : Type} {p : α → Bool} {f : α → β} {xs : List α}
    (h : (xs.map f).length = ((xs.filter p).map f).length) : ∀ x ∈ xs, p x = true := by
  rw [List.length_map, List.length_map] at h
  exact List.length_filter_eq_length_iff.mp h.symm

theorem flatMap_filter_of_nil {α β : Type} {p : α → Bool} {g : α → List β} {xs : List α}
    (h : ∀ x ∈ xs, p x = false → g x = []) : (xs.filter p).flatMap g = xs.flatMap g := by
  induction xs with
  | nil => rfl
  | cons x xs ih =>
    have hrest := ih fun y hy => h y (List.mem_cons_of_mem x hy)
    cases hx : p x with
    | true => rw [List.filter_cons_of_pos hx, List.flatMap_cons, List.flatMap_cons, hrest]
    | false =>
      rw [List.filter_cons_of_neg (Bool.eq_false_iff.mp hx), List.flatMap_cons,
        h x List.mem_cons_self hx, List.nil_append, hrest]

theorem zipWith_left {α β : Type} {xs : List α} {ys : List β} (h : xs.length ≤ ys.length) :
    List.zipWith (fun x _ => x) xs ys = xs := by
  rw [← List.map_uncurry_zip_eq_zipWith]
  exact List.map_fst_zip h

theorem sum_le_countP {α : Type} {f : α → Nat} {p : α → Bool} {xs : List α}
    (h : ∀ x ∈ xs, f x ≤ if p x then 1 else 0) : (xs.map f).sum ≤ xs.countP p := by
  induction xs with
  | nil => exact Nat.le_refl 0
  | cons x xs ih =>
    have hx := h x List.mem_cons_self
    have hxs := ih fun y hy => h y (List.mem_cons_of_mem x hy)
    rw [List.map_cons, List.sum_cons, List.countP_cons]
    omega

theorem sum_eq_countP {α : Type} {f : α → Nat} {p : α → Bool} {xs : List α}
    (h : ∀ x ∈ xs, f x = if p x then 1 else 0) : (xs.map f).sum = xs.countP p := by
  induction xs with
  | nil => rfl
  | cons x xs ih =>
    have hx := h x List.mem_cons_self
    have hxs := ih fun y hy => h y (List.mem_cons_of_mem x hy)
    rw [List.map_cons, List.sum_cons, List.countP_cons]
    omega

/-- Taking from the front of an ordered list either reaches an element or takes as many that
stand before it. -/
theorem mem_take_or_before {α : Type} {R : α → α → Prop} {l : List α} {x : α} (h : l.Pairwise R)
    (hx : x ∈ l) (n : Nat) : x ∈ l.take n ∨ (l.take n).length = n ∧ ∀ y ∈ l.take n, R y x := by
  have hsplit := List.take_append_drop n l
  rw [← hsplit, List.pairwise_append] at h
  rcases List.mem_append.mp (hsplit ▸ hx) with htaken | hleft
  · exact .inl htaken
  · refine .inr ⟨?_, fun y hy => h.2.2 y hy x hleft⟩
    have hpos := List.length_pos_of_mem hleft
    rw [List.length_drop] at hpos
    rw [List.length_take]
    omega

theorem length_filter_notContains {α : Type} [DecidableEq α] {l taken : List α} (hl : l.Nodup)
    (htaken : taken.Nodup) (hsub : ∀ x ∈ taken, x ∈ l) :
    (l.filter fun x => !taken.contains x).length + taken.length = l.length := by
  have hperm : (l.filter fun x => taken.contains x).Perm taken := by
    refine (List.perm_ext_iff_of_nodup (hl.filter _) htaken).mpr fun x => ?_
    rw [List.mem_filter, List.contains_iff_mem]
    exact ⟨And.right, fun hx => ⟨hsub x hx, hx⟩⟩
  have hlength := List.length_eq_length_filter_add (l := l) fun x => taken.contains x
  have htakenLength := hperm.length_eq
  omega

section
variable {α : Type} {p q : α → Bool} {xs : List α}

/-- An element of the prefix has the property exactly if some element has it and the first such one is
in the prefix. -/
theorem exists_mem_takeWhile_iff : (∃ x ∈ xs.takeWhile p, q x = true) ↔
    (∃ x ∈ xs, q x = true) ∧ ∀ x ∈ xs.find? q, x ∈ xs.takeWhile p := by
  constructor
  · rintro ⟨x, hx, hq⟩
    refine ⟨⟨x, (List.takeWhile_sublist p).subset hx, hq⟩, fun first hfirst => ?_⟩
    induction xs with
    | nil => cases hx
    | cons y xs ih =>
      cases hy : p y with
      | false => simp [hy] at hx
      | true =>
        rw [List.takeWhile_cons_of_pos hy] at hx ⊢
        cases hqy : q y with
        | true =>
          rw [List.find?_cons_of_pos hqy] at hfirst
          exact Option.some.inj hfirst ▸ List.mem_cons_self
        | false =>
          rw [List.find?_cons_of_neg (by rw [hqy]; exact Bool.false_ne_true)] at hfirst
          rcases List.mem_cons.mp hx with rfl | hx
          · rw [hq] at hqy
            cases hqy
          · exact List.mem_cons_of_mem y (ih hx hfirst)
  · rintro ⟨⟨x, hx, hq⟩, hfirst⟩
    obtain ⟨first, hfind⟩ := Option.isSome_iff_exists.mp (List.find?_isSome.mpr ⟨x, hx, hq⟩)
    exact ⟨first, hfirst first hfind, List.find?_some hfind⟩

/-- Up to the first element that has the property, all are in the prefix of those that do not have it
or are allowed to. -/
theorem find?_mem_takeWhile_iff {x : α} {allowed : α → Bool} (h : xs.find? q = some x) :
    x ∈ xs.takeWhile (fun x => !q x || allowed x) ↔ allowed x = true := by
  induction xs with
  | nil => cases h
  | cons y xs ih =>
    cases hq : q y with
    | true =>
      rw [List.find?_cons_of_pos hq] at h
      obtain rfl := Option.some.inj h
      cases hallowed : allowed y <;> simp [hq, hallowed]
    | false =>
      rw [List.find?_cons_of_neg (by rw [hq]; exact Bool.false_ne_true)] at h
      have hne : x ≠ y := by
        rintro rfl
        rw [List.find?_some h] at hq
        cases hq
      rw [List.takeWhile_cons_of_pos (by rw [hq]; rfl), List.mem_cons, or_iff_right hne, ih h]

end

end Aetus.Base
