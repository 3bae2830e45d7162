import Mathlib.Data.List.Nodup

/-!
Rows of a database table as a list, read and changed through a key of the rows.
-/

set_option autoImplicit false

namespace Aetus.Base

variable {ρ κ κ' : Type} [DecidableEq κ] [DecidableEq κ'] {key : ρ → κ} {key' : ρ → κ'}
  {rows : List ρ} {row : ρ} {k : κ}

/-- The `UNIQUE` constraint on a key. -/
def UniqueBy (key : ρ → κ) (rows : List ρ) : Prop := (rows.map key).Nodup

instance (key : ρ → κ) (rows : List ρ) : Decidable (UniqueBy key rows) :=
  inferInstanceAs (Decidable (List.Nodup _))

omit [DecidableEq κ] in
theorem UniqueBy.nil (key : ρ → κ) : UniqueBy key [] := List.nodup_nil

def findBy (key : ρ → κ) (k : κ) (rows : List ρ) : Option ρ :=
  rows.find? fun row => key row = k

def updateBy (key : ρ → κ) (k : κ) (f : ρ → ρ) (rows : List ρ) : List ρ :=
  rows.map fun row => if key row = k then f row else row

def updateFirstBy (key : ρ → κ) (k : κ) (f : ρ → ρ) : List ρ → List ρ
  | [] => []
  | row :: rows => if key row = k then f row :: rows else row :: updateFirstBy key k f rows

theorem mem_of_findBy (h : findBy key k rows = some row) : row ∈ rows ∧ key row = k :=
  ⟨List.mem_of_find?_eq_some h, by simpa using List.find?_some h⟩

theorem findBy_eq_none : findBy key k rows = none ↔ ∀ row ∈ rows, key row ≠ k := by
  simp [findBy]

theorem findBy_append_row : findBy key k (rows ++ [row]) =
    (findBy key k rows).or (if key row = k then some row else none) := by
  by_cases hk : key row = k <;> simp [findBy, hk]

theorem findBy_updateFirstBy {f : ρ → ρ} (hf : ∀ row, key (f row) = key row) (k' : κ) :
    findBy key k' (updateFirstBy key k f rows) =
      if k = k' then (findBy key k' rows).map f else findBy key k' rows := by
  induction rows with
  | nil => simp [updateFirstBy, findBy]
  | cons row rows ih =>
    simp only [findBy] at ih
    by_cases hk : key row = k
    · by_cases hk' : k = k' <;> simp [updateFirstBy, findBy, hf, hk, hk']
    · by_cases hk' : key row = k'
      · have hne : k ≠ k' := fun h => hk (hk'.trans h.symm)
        rw [updateFirstBy, if_neg hk, if_neg hne]
        simp [findBy, hk']
      · simp [updateFirstBy, findBy, hk, hk', ih]

theorem map_updateFirstBy {α : Type} {f : ρ → ρ} {g : ρ → α} (hg : ∀ row, g (f row) = g row) :
    (updateFirstBy key k f rows).map g = rows.map g := by
  induction rows with
  | nil => rfl
  | cons row rows ih =>
    rw [updateFirstBy]
    split
    · rw [List.map_cons, List.map_cons, hg]
    · rw [List.map_cons, List.map_cons, ih]

theorem mem_updateFirstBy {f : ρ → ρ} (h : row ∈ updateFirstBy key k f rows) :
    row ∈ rows ∨ ∃ before ∈ rows, row = f before := by
  induction rows with
  | nil => cases h
  | cons first rows ih =>
    rw [updateFirstBy] at h
    split at h
    · rcases List.mem_cons.mp h with rfl | hmem
      · exact .inr ⟨first, List.mem_cons_self, rfl⟩
      · exact .inl (List.mem_cons_of_mem first hmem)
    · rcases List.mem_cons.mp h with rfl | hmem
      · exact .inl List.mem_cons_self
      · rcases ih hmem with hmem | ⟨before, hbefore, rfl⟩
        · exact .inl (List.mem_cons_of_mem first hmem)
        · exact .inr ⟨before, List.mem_cons_of_mem first hbefore, rfl⟩

theorem findBy_map {g : ρ → ρ} (hg : ∀ row, key (g row) = key row) :
    findBy key k (rows.map g) = (findBy key k rows).map g := by
  induction rows with
  | nil => rfl
  | cons r rows ih =>
    simp only [findBy, List.map_cons, List.find?_cons, hg] at ih ⊢
    split
    · rfl
    · exact ih

omit [DecidableEq κ] in
theorem UniqueBy.eq {r s : ρ} (h : UniqueBy key rows) (hr : r ∈ rows) (hs : s ∈ rows)
    (hkey : key r = key s) : r = s :=
  List.inj_on_of_nodup_map h hr hs hkey

theorem UniqueBy.findBy (h : UniqueBy key rows) (hrow : row ∈ rows) :
    findBy key (key row) rows = some row := by
  cases hfind : Base.findBy key (key row) rows with
  | none => exact absurd rfl (findBy_eq_none.mp hfind row hrow)
  | some found =>
    obtain ⟨hmem, hkey⟩ := mem_of_findBy hfind
    rw [h.eq hmem hrow hkey]

theorem UniqueBy.append_row (h : UniqueBy key rows)
    (hnew : Base.findBy key (key row) rows = none) : UniqueBy key (rows ++ [row]) := by
  rw [UniqueBy, List.map_append, List.map_cons, List.map_nil]
  refine List.Nodup.append h (List.nodup_singleton _) ?_
  rw [List.disjoint_singleton]
  intro hmem
  obtain ⟨r, hr, hkey⟩ := List.mem_map.mp hmem
  exact findBy_eq_none.mp hnew r hr hkey

omit [DecidableEq κ] in
theorem UniqueBy.updateBy {k' : κ'} {f : ρ → ρ} (h : UniqueBy key rows)
    (hf : ∀ row, key (f row) = key row) : UniqueBy key (updateBy key' k' f rows) := by
  have hmap : (Base.updateBy key' k' f rows).map key = rows.map key := by
    rw [Base.updateBy, List.map_map]
    refine List.map_congr_left fun row _ => ?_
    show key (if key' row = k' then f row else row) = key row
    split
    · exact hf row
    · rfl
  rw [UniqueBy, hmap]
  exact h

/-- `INSERT ... ON CONFLICT (key) DO UPDATE` of all columns. -/
def upsertBy (key : ρ → κ) (row : ρ) (rows : List ρ) : List ρ :=
  if (findBy key (key row) rows).isSome then updateBy key (key row) (fun _ => row) rows
  else rows ++ [row]

theorem mem_upsertBy {r : ρ} : r ∈ upsertBy key row rows ↔ r = row ∨ r ∈ rows ∧ key r ≠ key row := by
  unfold upsertBy
  split
  · next hfound =>
    obtain ⟨found, hfind⟩ := Option.isSome_iff_exists.mp hfound
    obtain ⟨hmem, hkey⟩ := mem_of_findBy hfind
    simp only [updateBy, List.mem_map]
    constructor
    · rintro ⟨s, hs, rfl⟩
      split
      · exact .inl rfl
      · next hne => exact .inr ⟨hs, hne⟩
    · rintro (rfl | ⟨hr, hne⟩)
      · exact ⟨found, hmem, if_pos hkey⟩
      · exact ⟨r, hr, if_neg hne⟩
  · next hnone =>
    have hfresh := findBy_eq_none.mp (Option.not_isSome_iff_eq_none.mp hnone)
    rw [List.mem_append, List.mem_singleton, or_comm]
    exact or_congr_right ⟨fun hr => ⟨hr, hfresh r hr⟩, And.left⟩

theorem UniqueBy.upsertBy (h : UniqueBy key rows) (row : ρ) :
    UniqueBy key (upsertBy key row rows) := by
  unfold Base.upsertBy
  split
  · have hmap : (Base.updateBy key (key row) (fun _ => row) rows).map key = rows.map key := by
      rw [Base.updateBy, List.map_map]
      refine List.map_congr_left fun r _ => ?_
      show key (if key r = key row then row else r) = key r
      split
      · next hkey => exact hkey.symm
      · rfl
    rw [UniqueBy, hmap]
    exact h
  · next hnone => exact h.append_row (Option.not_isSome_iff_eq_none.mp hnone)

theorem findBy_filter {p : ρ → Bool} (h : ∀ r ∈ rows, key r = k → p r = true) :
    findBy key k (rows.filter p) = findBy key k rows := by
  induction rows with
  | nil => rfl
  | cons r rows ih =>
    have hrest := ih fun r' hr' => h r' (List.mem_cons_of_mem r hr')
    by_cases hk : key r = k
    · simp [findBy, h r List.mem_cons_self hk, hk]
    · cases hp : p r <;> simpa [findBy, hp, hk] using hrest

theorem filter_upsertBy {p : ρ → Bool} (hrow : p row = true)
    (hp : ∀ r ∈ rows, key r = key row → p r = true) :
    (upsertBy key row rows).filter p = upsertBy key row (rows.filter p) := by
  have hfind := findBy_filter hp
  have hupdate : (updateBy key (key row) (fun _ => row) rows).filter p =
      updateBy key (key row) (fun _ => row) (rows.filter p) := by
    rw [updateBy, updateBy, List.filter_map]
    refine congrArg _ (List.filter_congr fun r hr => ?_)
    by_cases hk : key r = key row
    · simp [hk, hrow, hp r hr hk]
    · simp [hk]
  unfold upsertBy
  rw [hfind]
  split
  · exact hupdate
  · simp [hrow]

/-- A table with a `UNIQUE` constraint. -/
structure Keyed (key : ρ → κ) where
  rows : List ρ
  unique : UniqueBy key rows

def Keyed.empty (key : ρ → κ) : Keyed key := ⟨[], List.nodup_nil⟩

def Keyed.upsert (table : Keyed key) (row : ρ) : Keyed key :=
  ⟨upsertBy key row table.rows, table.unique.upsertBy row⟩

def Keyed.delete (table : Keyed key) (p : ρ → Bool) : Keyed key :=
  ⟨table.rows.filter fun row => !p row, table.unique.sublist (List.filter_sublist.map key)⟩

omit [DecidableEq κ] in
@[ext] theorem Keyed.ext {table table' : Keyed key} (h : table.rows = table'.rows) :
    table = table' := by
  cases table
  cases table'
  cases h
  rfl

theorem Keyed.delete_upsert {table : Keyed key} {p : ρ → Bool} (hrow : p row = false)
    (hp : ∀ r ∈ table.rows, key r = key row → p r = false) :
    (table.upsert row).delete p = (table.delete p).upsert row := by
  ext1
  exact filter_upsertBy (by simp [hrow]) fun r hr hk => by simp [hp r hr hk]

theorem Keyed.mem_foldl_upsert {new : List ρ} {table : Keyed key} {r : ρ}
    (hnew : UniqueBy key new) : r ∈ (new.foldl Keyed.upsert table).rows ↔
      r ∈ new ∨ r ∈ table.rows ∧ key r ∉ new.map key := by
  induction new generalizing table with
  | nil => simp
  | cons row new ih =>
    obtain ⟨hrow, hnew⟩ := List.nodup_cons.mp hnew
    have hkeys : ∀ r' ∈ new, key r' ≠ key row := fun r' hr' heq =>
      hrow (heq ▸ List.mem_map_of_mem hr')
    rw [List.foldl_cons, ih hnew, Keyed.upsert, mem_upsertBy, List.mem_cons, List.map_cons,
      List.mem_cons]
    constructor
    · rintro (hr | ⟨rfl | ⟨hr, hne⟩, hnot⟩)
      · exact .inl (.inr hr)
      · exact .inl (.inl rfl)
      · exact .inr ⟨hr, fun h => h.elim hne hnot⟩
    · rintro ((rfl | hr) | ⟨hr, hnot⟩)
      · exact .inr ⟨.inl rfl, hrow⟩
      · exact .inl hr
      · exact .inr ⟨.inr ⟨hr, fun h => hnot (.inl h)⟩, fun h => hnot (.inr h)⟩

theorem Keyed.exists_upsert {table : Keyed key} :
    (∃ r ∈ (table.upsert row).rows, key r = k) ↔ key row = k ∨ ∃ r ∈ table.rows, key r = k := by
  constructor
  · rintro ⟨r, hr, rfl⟩
    rcases mem_upsertBy.mp hr with rfl | ⟨hr, -⟩
    · exact .inl rfl
    · exact .inr ⟨r, hr, rfl⟩
  · rintro (rfl | ⟨r, hr, rfl⟩)
    · exact ⟨row, mem_upsertBy.mpr (.inl rfl), rfl⟩
    · by_cases heq : key r = key row
      · exact ⟨row, mem_upsertBy.mpr (.inl rfl), heq.symm⟩
      · exact ⟨r, mem_upsertBy.mpr (.inr ⟨hr, heq⟩), rfl⟩

theorem Keyed.countP_eq_one {table : Keyed key} (h : ∃ r ∈ table.rows, key r = k) :
    table.rows.countP (fun r => key r = k) = 1 := by
  obtain ⟨r, hr, rfl⟩ := h
  have hcount := List.count_eq_one_of_mem table.unique (List.mem_map_of_mem hr)
  rw [List.count, List.countP_map] at hcount
  rw [← hcount]
  refine List.countP_congr fun s _ => ?_
  simp

def Keyed.push (table : Keyed key) (row : ρ) (h : findBy key (key row) table.rows = none) :
    Keyed key :=
  ⟨table.rows ++ [row], table.unique.append_row h⟩

/-- `UPDATE ... WHERE key' = k`, which leaves the key of the table. -/
def Keyed.update (table : Keyed key) (key' : ρ → κ') (k : κ') (f : ρ → ρ)
    (hf : ∀ row, key (f row) = key row) : Keyed key :=
  ⟨updateBy key' k f table.rows, table.unique.updateBy hf⟩

theorem mem_updateBy_of_ne {f : ρ → ρ} (hf : ∀ row, key (f row) = key row) (hne : key row ≠ k) :
    row ∈ updateBy key k f rows ↔ row ∈ rows := by
  rw [updateBy, List.mem_map]
  constructor
  · intro ⟨before, hbefore, heq⟩
    split at heq
    · next hk =>
      subst heq
      exact absurd ((hf before).trans hk) hne
    · subst heq
      exact hbefore
  · intro hrow
    exact ⟨row, hrow, if_neg hne⟩

theorem mem_updateBy_of_mem {f : ρ → ρ} (hrow : row ∈ rows) :
    f row ∈ updateBy key (key row) f rows := by
  rw [updateBy, List.mem_map]
  exact ⟨row, hrow, if_pos rfl⟩

/-- `BIGSERIAL`: a number behind all that are there. -/
def serial (number : ρ → Nat) (rows : List ρ) : Nat := (rows.map number).foldr max 0 + 1

theorem lt_serial {number : ρ → Nat} (h : row ∈ rows) : number row < serial number rows := by
  induction rows with
  | nil => cases h
  | cons first rows ih =>
    simp only [serial, List.map_cons, List.foldr_cons] at ih ⊢
    rcases List.mem_cons.mp h with rfl | hrest
    · omega
    · have hlt := ih hrest
      omega

theorem findBy_serial {number : ρ → Nat} : findBy number (serial number rows) rows = none :=
  findBy_eq_none.mpr fun _ hrow => Nat.ne_of_lt (lt_serial hrow)

end Aetus.Base
