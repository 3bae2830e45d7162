import Aetus.Base.Table
import Mathlib.Data.List.Perm.Basic
import Mathlib.Data.Set.Insert

/-!
Dimension tables, which give each natural key a serial number, and fact tables, whose
rows are read through a view that looks these numbers up.
-/

set_option autoImplicit false

namespace Aetus.Base

structure DimensionRow (κ ν : Type) where
  pk : Nat
  key : κ
  data : ν

/-- Natural keys and serial numbers are unique, and the next serial number is unused. -/
structure Dimension (κ ν : Type) where
  rows : List (DimensionRow κ ν)
  next : Nat
  uniqueKey : UniqueBy DimensionRow.key rows
  uniquePk : UniqueBy DimensionRow.pk rows
  pk_lt : ∀ row ∈ rows, row.pk < next

namespace Dimension

variable {κ ν : Type} [DecidableEq κ]

def empty : Dimension κ ν := ⟨[], 1, List.nodup_nil, List.nodup_nil, nofun⟩

/-- `SELECT pk ... WHERE key = k`. -/
def pkOf (d : Dimension κ ν) (k : κ) : Option Nat := (findBy DimensionRow.key k d.rows).map (·.pk)

def keyOf (d : Dimension κ ν) (pk : Nat) : Option κ := (findBy DimensionRow.pk pk d.rows).map (·.key)

/-- `INSERT ... ON CONFLICT (key) DO NOTHING`: the serial number is drawn in either case. -/
def insertOrIgnore (d : Dimension κ ν) (k : κ) (data : ν) : Dimension κ ν :=
  match h : findBy DimensionRow.key k d.rows with
  | some _ =>
    { d with
      next := d.next + 1
      pk_lt := fun row hrow => Nat.lt_succ_of_lt (d.pk_lt row hrow) }
  | none =>
    { rows := d.rows ++ [⟨d.next, k, data⟩]
      next := d.next + 1
      uniqueKey := d.uniqueKey.append_row h
      uniquePk := d.uniquePk.append_row (findBy_eq_none.mpr fun row hrow =>
        Nat.ne_of_lt (d.pk_lt row hrow))
      pk_lt := by
        intro row hrow
        rcases List.mem_append.mp hrow with hrow | hrow
        · exact Nat.lt_succ_of_lt (d.pk_lt row hrow)
        · rw [List.mem_singleton.mp hrow]
          exact Nat.lt_succ_self _ }

theorem keyOf_pkOf {d : Dimension κ ν} {k : κ} {pk : Nat} (h : d.pkOf k = some pk) :
    d.keyOf pk = some k := by
  obtain ⟨row, hfind, rfl⟩ := Option.map_eq_some_iff.mp h
  obtain ⟨hmem, rfl⟩ := mem_of_findBy hfind
  rw [keyOf, d.uniquePk.findBy hmem, Option.map_some]

omit [DecidableEq κ] in
theorem keyOf_inj {d : Dimension κ ν} {k : κ} {pk pk' : Nat} (h : d.keyOf pk = some k)
    (h' : d.keyOf pk' = some k) : pk = pk' := by
  obtain ⟨row, hfind, hkey⟩ := Option.map_eq_some_iff.mp h
  obtain ⟨row', hfind', hkey'⟩ := Option.map_eq_some_iff.mp h'
  obtain ⟨hmem, rfl⟩ := mem_of_findBy hfind
  obtain ⟨hmem', rfl⟩ := mem_of_findBy hfind'
  rw [d.uniqueKey.eq hmem hmem' (hkey.trans hkey'.symm)]

theorem rows_insertOrIgnore (d : Dimension κ ν) (k : κ) (data : ν) :
    (d.insertOrIgnore k data).rows = d.rows ∧ (findBy DimensionRow.key k d.rows).isSome ∨
      (d.insertOrIgnore k data).rows = d.rows ++ [⟨d.next, k, data⟩] := by
  unfold insertOrIgnore
  split
  · next found => exact .inl ⟨rfl, by simp_all⟩
  · exact .inr rfl

theorem exists_pkOf_insertOrIgnore (d : Dimension κ ν) (k : κ) (data : ν) :
    ∃ pk, (d.insertOrIgnore k data).pkOf k = some pk := by
  rw [← Option.isSome_iff_exists, pkOf, Option.isSome_map]
  rcases d.rows_insertOrIgnore k data with ⟨hrows, hfound⟩ | hrows
  · rw [hrows, hfound]
  · rw [hrows, findBy_append_row, if_pos rfl]
    simp

theorem keyOf_insertOrIgnore {d : Dimension κ ν} {k k' : κ} {pk : Nat} (data : ν)
    (h : d.keyOf pk = some k') : (d.insertOrIgnore k data).keyOf pk = some k' := by
  obtain ⟨row, hfind, rfl⟩ := Option.map_eq_some_iff.mp h
  rcases d.rows_insertOrIgnore k data with ⟨hrows, -⟩ | hrows
  · rw [keyOf, hrows, hfind, Option.map_some]
  · rw [keyOf, hrows, findBy_append_row, hfind, Option.some_or, Option.map_some]

end Dimension

/-- What `f` makes of the elements of `S`. -/
def collect {α β : Type} (f : α → Option β) (S : Set α) : Set β := {b | ∃ a ∈ S, f a = some b}

theorem collect_insert_some {α β : Type} {f : α → Option β} {a : α} {b : β} (S : Set α)
    (h : f a = some b) : collect f (insert a S) = insert b (collect f S) := by
  ext b'
  constructor
  · rintro ⟨a', ha', hb'⟩
    rcases Set.mem_insert_iff.mp ha' with rfl | ha'
    · exact .inl (Option.some.inj (hb'.symm.trans h))
    · exact .inr ⟨a', ha', hb'⟩
  · rintro (rfl | ⟨a', ha', hb'⟩)
    · exact ⟨a, Set.mem_insert a S, h⟩
    · exact ⟨a', Set.mem_insert_of_mem a ha', hb'⟩

theorem collect_insert_none {α β : Type} {f : α → Option β} {a : α} (S : Set α)
    (h : f a = none) : collect f (insert a S) = collect f S := by
  ext b'
  constructor
  · rintro ⟨a', ha', hb'⟩
    rcases Set.mem_insert_iff.mp ha' with rfl | ha'
    · exact absurd (h.symm.trans hb') (Option.some_ne_none b').symm
    · exact ⟨a', ha', hb'⟩
  · rintro ⟨a', ha', hb'⟩
    exact ⟨a', Set.mem_insert_of_mem a ha', hb'⟩

/-- The rows of a fact table, read through `view`, are the contents `S`, each once. -/
structure Holds {ρ β κ : Type} (key : ρ → κ) (view : ρ → Option β) (table : List ρ) (S : Set β) :
    Prop where
  unique : UniqueBy key table
  sound : ∀ row ∈ table, ∃ b ∈ S, view row = some b
  complete : ∀ b ∈ S, ∃ row ∈ table, view row = some b

namespace Holds

variable {ρ β κ : Type} {key : ρ → κ} {view view' : ρ → Option β} {table : List ρ} {S : Set β}
  {viewKey : β → κ}

theorem mono (h : Holds key view table S)
    (hview : ∀ row b, view row = some b → view' row = some b) : Holds key view' table S where
  unique := h.unique
  sound := fun row hrow =>
    let ⟨b, hb, hrow⟩ := h.sound row hrow
    ⟨b, hb, hview row b hrow⟩
  complete := fun b hb =>
    let ⟨row, hrow, hb⟩ := h.complete b hb
    ⟨row, hrow, hview row b hb⟩

/-- Upserting a row inserts its content, if no other content has its key. -/
theorem upsert [DecidableEq κ] (h : Holds key view table S) {row : ρ} {b : β}
    (hview : view row = some b) (hkey : ∀ r c, view r = some c → viewKey c = key r)
    (hfixed : ∀ c ∈ S, viewKey c = viewKey b → c = b) :
    Holds key view (upsertBy key row table) (insert b S) where
  unique := h.unique.upsertBy row
  sound := by
    intro r hr
    rcases mem_upsertBy.mp hr with rfl | ⟨hr, -⟩
    · exact ⟨b, Set.mem_insert b S, hview⟩
    · obtain ⟨c, hc, hrow⟩ := h.sound r hr
      exact ⟨c, Set.mem_insert_of_mem b hc, hrow⟩
  complete := by
    rintro c (rfl | hc)
    · exact ⟨row, mem_upsertBy.mpr (.inl rfl), hview⟩
    · obtain ⟨r, hr, hrow⟩ := h.complete c hc
      by_cases heq : key r = key row
      · have hsame : c = b := hfixed c hc (by rw [hkey r c hrow, hkey row b hview, heq])
        exact ⟨row, mem_upsertBy.mpr (.inl rfl), hsame ▸ hview⟩
      · exact ⟨r, mem_upsertBy.mpr (.inr ⟨hr, heq⟩), hrow⟩

theorem perm (h : Holds key view table S) (hkey : ∀ r c, view r = some c → viewKey c = key r)
    {contents : List β} (hcontents : UniqueBy viewKey contents) (hmem : ∀ b, b ∈ contents ↔ b ∈ S) :
    (table.filterMap view).Perm contents := by
  have hkeys : (table.filterMap view).map viewKey = table.map key := by
    rw [List.map_filterMap, ← List.filterMap_eq_map]
    refine List.filterMap_congr fun row hrow => ?_
    obtain ⟨b, -, hview⟩ := h.sound row hrow
    rw [hview, Option.map_some, hkey row b hview, Function.comp_apply]
  have hnodup : (table.filterMap view).Nodup := List.Nodup.of_map viewKey (hkeys ▸ h.unique)
  refine (List.perm_ext_iff_of_nodup hnodup hcontents.of_map).mpr fun b => ?_
  rw [hmem, List.mem_filterMap]
  constructor
  · rintro ⟨row, hrow, hview⟩
    obtain ⟨c, hc, hview'⟩ := h.sound row hrow
    obtain rfl : c = b := Option.some.inj (hview'.symm.trans hview)
    exact hc
  · exact h.complete b

end Holds

end Aetus.Base
