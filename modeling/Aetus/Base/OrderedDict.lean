import Aetus.Base.Grid
import Aetus.Base.Table

/-!
Dictionaries that keep the order in which their keys came.
-/

set_option autoImplicit false

namespace Aetus.Base

variable {κ ν α : Type} [DecidableEq κ]

abbrev OrderedDict (κ ν : Type) := List (κ × ν)

namespace OrderedDict

def get? (d : OrderedDict κ ν) (k : κ) : Option ν := (findBy Prod.fst k d).map Prod.snd

def setDefault (d : OrderedDict κ ν) (k : κ) (v : ν) : OrderedDict κ ν :=
  if (d.get? k).isSome then d else d ++ [(k, v)]

def modify (d : OrderedDict κ ν) (k : κ) (f : ν → ν) : OrderedDict κ ν :=
  updateFirstBy Prod.fst k (Prod.map id f) d

/-- `d[k] = v` -/
def assign (d : OrderedDict κ ν) (k : κ) (v : ν) : OrderedDict κ ν :=
  (d.setDefault k v).modify k fun _ => v

variable {d : OrderedDict κ ν} {k k' : κ} {v : ν} {f : ν → ν}

theorem get?_nil : get? ([] : OrderedDict κ ν) k = none := rfl

theorem get?_setDefault :
    (d.setDefault k v).get? k' = if k' = k then some ((d.get? k).getD v) else d.get? k' := by
  unfold setDefault
  by_cases hsome : (d.get? k).isSome = true
  · rw [if_pos hsome]
    split
    · next hk =>
      obtain ⟨w, hw⟩ := Option.isSome_iff_exists.mp hsome
      rw [hk, hw, Option.getD_some]
    · rfl
  · have hnone := Option.not_isSome_iff_eq_none.mp hsome
    rw [if_neg hsome, get?, findBy_append_row, hnone, Option.getD_none]
    by_cases hk : k' = k
    · subst hk
      rw [Option.map_eq_none_iff.mp hnone, if_pos rfl, if_pos rfl]
      rfl
    · rw [if_neg hk, if_neg (Ne.symm hk), Option.or_none]
      rfl

theorem get?_modify :
    (d.modify k f).get? k' = if k' = k then (d.get? k).map f else d.get? k' := by
  have hkey : ∀ entry : κ × ν, (Prod.map id f entry).1 = entry.1 := fun _ => rfl
  rw [get?, modify, findBy_updateFirstBy hkey]
  by_cases hk : k' = k
  · subst hk
    rw [if_pos rfl, if_pos rfl, get?, Option.map_map, Option.map_map]
    rfl
  · rw [if_neg (Ne.symm hk), if_neg hk]
    rfl

theorem get?_assign : (d.assign k v).get? k' = if k' = k then some v else d.get? k' := by
  rw [assign, get?_modify, get?_setDefault, get?_setDefault, if_pos rfl]
  by_cases hk : k' = k
  · rw [if_pos hk, if_pos hk, Option.map_some]
  · rw [if_neg hk, if_neg hk, if_neg hk]

/-- What `setdefault` returns is changed in place. -/
def alter (d : OrderedDict κ ν) (k : κ) (v : ν) (f : ν → ν) : OrderedDict κ ν :=
  (d.setDefault k v).modify k f

theorem get?_alter :
    (d.alter k v f).get? k' = if k' = k then some (f ((d.get? k).getD v)) else d.get? k' := by
  rw [alter, get?_modify, get?_setDefault, get?_setDefault, if_pos rfl]
  by_cases hk : k' = k
  · rw [if_pos hk, if_pos hk, Option.map_some]
  · rw [if_neg hk, if_neg hk, if_neg hk]

theorem get?_foldl_alter {key : α → κ} {default : α → ν} {change : α → ν → ν} {items : List α} :
    (items.foldl (fun d item => d.alter (key item) (default item) (change item)) d).get? k =
      (items.filter fun item => key item = k).foldl
        (fun held item => some (change item (held.getD (default item)))) (d.get? k) := by
  induction items generalizing d with
  | nil => rfl
  | cons item items ih =>
    rw [List.foldl_cons, ih, get?_alter, List.filter_cons]
    by_cases hk : key item = k
    · subst hk
      simp
    · simp [hk, Ne.symm hk]

/-- A loop of assignments leaves the last one under a key. -/
theorem get?_foldl_assign {key : α → κ} {value : α → ν} {items : List α} :
    (items.foldl (fun d item => d.assign (key item) (value item)) d).get? k =
      ((items.filter fun item => key item = k).getLast?.map value).or (d.get? k) := by
  induction items generalizing d with
  | nil => rfl
  | cons item items ih =>
    rw [List.foldl_cons, ih, get?_assign, List.filter_cons]
    by_cases hk : key item = k
    · rw [if_pos hk.symm, if_pos (decide_eq_true hk), List.getLast?_cons]
      cases (items.filter fun item => key item = k).getLast? with
      | none => rfl
      | some last => rfl
    · rw [if_neg (Ne.symm hk), if_neg (fun h => hk (of_decide_eq_true h))]

theorem map_fst_modify : (d.modify k f).map Prod.fst = d.map Prod.fst :=
  map_updateFirstBy fun _ => rfl

theorem nodup_setDefault (h : (d.map Prod.fst).Nodup) :
    ((d.setDefault k v).map Prod.fst).Nodup := by
  unfold setDefault
  split
  · exact h
  · next hnone =>
    have hunique : UniqueBy Prod.fst d := h
    have hfresh : findBy Prod.fst (Prod.fst (k, v)) d = none :=
      Option.map_eq_none_iff.mp (Option.not_isSome_iff_eq_none.mp hnone)
    exact hunique.append_row hfresh

theorem nodup_alter (h : (d.map Prod.fst).Nodup) : ((d.alter k v f).map Prod.fst).Nodup := by
  rw [alter, map_fst_modify]
  exact nodup_setDefault h

theorem nodup_foldl_alter {key : α → κ} {default : α → ν} {change : α → ν → ν} {items : List α}
    (h : (d.map Prod.fst).Nodup) :
    ((items.foldl (fun d item => d.alter (key item) (default item) (change item)) d).map
      Prod.fst).Nodup := by
  induction items generalizing d with
  | nil => exact h
  | cons item items ih => exact ih (nodup_alter h)

theorem nodup_foldl_assign {key : α → κ} {value : α → ν} {items : List α}
    (h : (d.map Prod.fst).Nodup) :
    ((items.foldl (fun d item => d.assign (key item) (value item)) d).map Prod.fst).Nodup :=
  nodup_foldl_alter h

theorem get?_of_mem (h : (d.map Prod.fst).Nodup) (hmem : (k, v) ∈ d) : d.get? k = some v := by
  have hunique : UniqueBy Prod.fst d := h
  have hfind := hunique.findBy hmem
  rw [get?, hfind]
  rfl

theorem mem_of_get? (h : d.get? k = some v) : (k, v) ∈ d := by
  obtain ⟨⟨k', v'⟩, hfind, rfl⟩ := Option.map_eq_some_iff.mp h
  obtain ⟨hmem, rfl⟩ := mem_of_findBy hfind
  exact hmem

theorem isSome_get? : (d.get? k).isSome ↔ k ∈ d.map Prod.fst := by
  constructor
  · intro h
    obtain ⟨v, hget⟩ := Option.isSome_iff_exists.mp h
    exact List.mem_map_of_mem (mem_of_get? hget)
  · intro h
    obtain ⟨entry, hentry, hk⟩ := List.mem_map.mp h
    by_contra hnone
    have hget := Option.map_eq_none_iff.mp (Option.not_isSome_iff_eq_none.mp hnone)
    have hfresh := findBy_eq_none.mp hget
    exact hfresh entry hentry hk

theorem modify_append (h : k ∉ d.map Prod.fst) (rest : OrderedDict κ ν) :
    (d ++ rest).modify k f = d ++ rest.modify k f := by
  induction d with
  | nil => rfl
  | cons entry d ih =>
    obtain ⟨hne, hrest⟩ := not_or.mp (mt List.mem_cons.mpr h)
    rw [List.cons_append, modify, updateFirstBy, if_neg (Ne.symm hne)]
    exact congrArg (entry :: ·) (ih hrest)

theorem assign_fresh (h : k ∉ d.map Prod.fst) : d.assign k v = d ++ [(k, v)] := by
  have hnone : (d.get? k).isSome = false := Bool.eq_false_iff.mpr (mt isSome_get?.mp h)
  rw [assign, setDefault, hnone, if_neg Bool.false_ne_true, modify_append h]
  simp [modify, updateFirstBy]

theorem foldl_assign_append {items : OrderedDict κ ν} (h : ((d ++ items).map Prod.fst).Nodup) :
    items.foldl (fun d item => d.assign item.1 item.2) d = d ++ items := by
  induction items generalizing d with
  | nil => exact (List.append_nil d).symm
  | cons item items ih =>
    have hfresh : item.1 ∉ d.map Prod.fst := by
      rw [List.map_append, List.map_cons] at h
      exact fun hmem => (List.nodup_append.mp h).2.2 item.1 hmem item.1 List.mem_cons_self rfl
    have hsplit : d ++ item :: items = d ++ [item] ++ items := List.append_cons d item items
    rw [List.foldl_cons, assign_fresh hfresh, ih (hsplit ▸ h), hsplit]

theorem filter_fst (h : (d.map Prod.fst).Nodup) :
    (d.filter fun e => e.1 = k) = ((d.get? k).map fun v => (k, v)).toList := by
  cases hget : d.get? k with
  | none =>
    have hfresh := findBy_eq_none.mp (Option.map_eq_none_iff.mp hget)
    exact List.filter_eq_nil_iff.mpr fun e he hk => hfresh e he (of_decide_eq_true hk)
  | some v =>
    obtain ⟨⟨k', v'⟩, hfind, rfl⟩ := Option.map_eq_some_iff.mp hget
    obtain ⟨hmem, rfl⟩ := mem_of_findBy hfind
    exact filter_eq_singleton h hmem

end OrderedDict

end Aetus.Base
