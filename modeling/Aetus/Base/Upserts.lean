import Aetus.Base.Table
import Mathlib.Data.List.Induction

/-!
Rows that are inserted or, where their key is taken, change the row that has it. A list of them
that is applied a second time changes nothing, if each row has taken in what was applied to it.
-/

set_option autoImplicit false

namespace Aetus.Base

variable {α ρ κ : Type} [DecidableEq κ]

/-- `INSERT ... ON CONFLICT (key) DO UPDATE`: the row of an input, which may depend on those there
are, and what the input changes in a row with its key. -/
structure Upserts (α ρ κ : Type) where
  key : ρ → κ
  keyOf : α → κ
  fresh : α → List ρ → ρ
  change : α → ρ → ρ
  key_fresh : ∀ a rows, key (fresh a rows) = keyOf a
  key_change : ∀ a row, key (change a row) = key row

namespace Upserts
variable {u : Upserts α ρ κ} {rows : List ρ} {row : ρ} {a : α} {as : List α}

def upsertRows (u : Upserts α ρ κ) (rows : List ρ) (a : α) : List ρ :=
  if (findBy u.key (u.keyOf a) rows).isSome then updateBy u.key (u.keyOf a) (u.change a) rows
  else rows ++ [u.fresh a rows]

def changes (u : Upserts α ρ κ) (as : List α) (row : ρ) : ρ :=
  as.foldl (fun row a => u.change a row) row

def under (u : Upserts α ρ κ) (k : κ) (as : List α) : List α := as.filter (u.keyOf · = k)

theorem under_append_singleton {k : κ} :
    u.under k (as ++ [a]) = u.under k as ++ if u.keyOf a = k then [a] else [] := by
  rw [under, under, List.filter_append, List.filter_singleton]
  simp

theorem map_key_updateBy : (updateBy u.key (u.keyOf a) (u.change a) rows).map u.key =
    rows.map u.key := by
  rw [updateBy, List.map_map]
  refine List.map_congr_left fun row _ => ?_
  show u.key (if u.key row = u.keyOf a then u.change a row else row) = u.key row
  split
  · exact u.key_change a row
  · rfl

theorem mem_key_upsertRows {k : κ} :
    k ∈ (u.upsertRows rows a).map u.key ↔ k ∈ rows.map u.key ∨ u.keyOf a = k := by
  unfold upsertRows
  split
  · next hfound =>
    obtain ⟨found, hfind⟩ := Option.isSome_iff_exists.mp hfound
    obtain ⟨hmem, hkey⟩ := mem_of_findBy hfind
    rw [map_key_updateBy]
    refine (or_iff_left_of_imp ?_).symm
    rintro rfl
    exact List.mem_map.mpr ⟨found, hmem, hkey⟩
  · rw [List.map_append, List.map_singleton, List.mem_append, List.mem_singleton, u.key_fresh,
      eq_comm (a := k)]

theorem mem_key_foldl {k : κ} : k ∈ (as.foldl u.upsertRows rows).map u.key ↔
    k ∈ rows.map u.key ∨ ∃ a ∈ as, u.keyOf a = k := by
  induction as generalizing rows with
  | nil => simp
  | cons a as ih =>
    rw [List.foldl_cons, ih, mem_key_upsertRows, or_assoc]
    simp

theorem mem_upsertRows_of_ne (h : u.key row ≠ u.keyOf a) : row ∈ u.upsertRows rows a ↔ row ∈ rows := by
  unfold upsertRows
  split
  · constructor
    · intro hrow
      obtain ⟨before, hbefore, rfl⟩ := List.mem_map.mp hrow
      split at h
      · next hkey => exact absurd ((u.key_change a before).trans hkey) h
      · next hkey => rwa [if_neg hkey]
    · exact fun hrow => List.mem_map.mpr ⟨row, hrow, if_neg h⟩
  · rw [List.mem_append, List.mem_singleton]
    refine or_iff_left ?_
    rintro rfl
    exact h (u.key_fresh a rows)

theorem upsertRows_of_mem (h : u.keyOf a ∈ rows.map u.key) : u.upsertRows rows a =
    rows.map fun row => if u.key row = u.keyOf a then u.change a row else row := by
  have hfound : (findBy u.key (u.keyOf a) rows).isSome := by
    obtain ⟨row, hrow, hkey⟩ := List.mem_map.mp h
    rw [Option.isSome_iff_ne_none]
    exact fun hnone => findBy_eq_none.mp hnone row hrow hkey
  rw [upsertRows, if_pos hfound, updateBy]

theorem foldl_of_mem (h : ∀ a ∈ as, u.keyOf a ∈ rows.map u.key) : as.foldl u.upsertRows rows =
    rows.map fun row => u.changes (u.under (u.key row) as) row := by
  induction as generalizing rows with
  | nil => simp [under, changes]
  | cons a as ih =>
    obtain ⟨ha, has⟩ := List.forall_mem_cons.mp h
    rw [List.foldl_cons, ih fun b hb => mem_key_upsertRows.mpr (.inl (has b hb)),
      upsertRows_of_mem ha, List.map_map]
    refine List.map_congr_left fun row _ => ?_
    show u.changes (u.under (u.key (if _ then _ else _)) as) (if _ then _ else _) = _
    by_cases hkey : u.key row = u.keyOf a
    · simp [hkey, under, changes, u.key_change]
    · simp [hkey, under, changes, Ne.symm hkey]

theorem findBy_upsertRows {k : κ} : findBy u.key k (u.upsertRows rows a) =
    if u.keyOf a = k then some ((findBy u.key k rows).elim (u.fresh a rows) (u.change a))
    else findBy u.key k rows := by
  have hchange : ∀ row, u.key (if u.key row = u.keyOf a then u.change a row else row) =
      u.key row := fun row => by
    split
    · exact u.key_change a row
    · rfl
  unfold upsertRows
  cases hfound : findBy u.key (u.keyOf a) rows with
  | none =>
    rw [if_neg (by simp), findBy_append_row, u.key_fresh]
    by_cases hkey : u.keyOf a = k
    · subst hkey
      rw [hfound, if_pos rfl, if_pos rfl]
      rfl
    · rw [if_neg hkey, if_neg hkey, Option.or_none]
  | some found =>
    rw [if_pos (by simp), updateBy, findBy_map hchange]
    by_cases hkey : u.keyOf a = k
    · subst hkey
      rw [hfound, if_pos rfl, Option.map_some, if_pos (mem_of_findBy hfound).2]
      rfl
    · rw [if_neg hkey]
      cases hother : findBy u.key k rows with
      | none => rfl
      | some row =>
        have hrow : u.key row ≠ u.keyOf a := fun h => hkey (h.symm.trans (mem_of_findBy hother).2)
        rw [Option.map_some, if_neg hrow]

/-- What holds of the row of an input and is kept by the changes after it holds of the row of a
key that was not there before. -/
theorem findBy_foldl_of_new {I : List α → ρ → Prop} {k : κ} (as : List α)
    (hfresh : ∀ a rows, I [a] (u.fresh a rows))
    (hchange : ∀ as a row, I as row → I (as ++ [a]) (u.change a row))
    (hnew : findBy u.key k rows = none) :
    (u.under k as = [] ∧ findBy u.key k (as.foldl u.upsertRows rows) = none) ∨
      ∃ row, findBy u.key k (as.foldl u.upsertRows rows) = some row ∧ I (u.under k as) row := by
  induction as using List.reverseRecOn with
  | nil => exact .inl ⟨rfl, hnew⟩
  | append_singleton as a ih =>
    rw [List.foldl_append, List.foldl_cons, List.foldl_nil, findBy_upsertRows,
      under_append_singleton]
    by_cases hkey : u.keyOf a = k
    · rw [if_pos hkey, if_pos hkey]
      refine .inr ⟨_, rfl, ?_⟩
      rcases ih with ⟨hnone, hfind⟩ | ⟨row, hfind, hrow⟩
      · rw [hnone, hfind]
        exact hfresh a _
      · rw [hfind]
        exact hchange _ a row hrow
    · rw [if_neg hkey, if_neg hkey, List.append_nil]
      exact ih

structure Settles (u : Upserts α ρ κ) (Settled : List α → ρ → Prop) : Prop where
  none : ∀ row, Settled [] row
  fresh : ∀ a rows, Settled [a] (u.fresh a rows)
  change : ∀ as a row, Settled as row → Settled (as ++ [a]) (u.change a row)
  done : ∀ as row, Settled as row → u.changes as row = row

variable {Settled : List α → ρ → Prop}

theorem Settles.upsertRows (h : u.Settles Settled)
    (hrows : ∀ row ∈ rows, Settled (u.under (u.key row) as) row)
    (hkeys : ∀ b ∈ as, u.keyOf b ∈ rows.map u.key) :
    ∀ row ∈ u.upsertRows rows a, Settled (u.under (u.key row) (as ++ [a])) row := by
  unfold Upserts.upsertRows
  split
  · intro row hrow
    obtain ⟨before, hbefore, rfl⟩ := List.mem_map.mp hrow
    have hsettled := hrows before hbefore
    rw [under_append_singleton]
    by_cases hkey : u.key before = u.keyOf a
    · rw [hkey] at hsettled
      rw [if_pos hkey, u.key_change, hkey, if_pos rfl]
      exact h.change _ a before hsettled
    · rw [if_neg hkey, if_neg (Ne.symm hkey), List.append_nil]
      exact hsettled
  · next hnone =>
    have hnew := findBy_eq_none.mp (Option.not_isSome_iff_eq_none.mp hnone)
    intro row hrow
    rw [under_append_singleton]
    rcases List.mem_append.mp hrow with hold | hfresh
    · rw [if_neg fun heq => hnew row hold heq.symm, List.append_nil]
      exact hrows row hold
    · obtain rfl := List.mem_singleton.mp hfresh
      have hothers : u.under (u.keyOf a) as = [] := by
        refine List.filter_eq_nil_iff.mpr fun b hb hkey => ?_
        obtain ⟨row, hrow, hrowkey⟩ := List.mem_map.mp (hkeys b hb)
        exact hnew row hrow (hrowkey.trans (of_decide_eq_true hkey))
      rw [u.key_fresh, hothers, if_pos rfl]
      exact h.fresh a rows

theorem Settles.foldl (h : u.Settles Settled) :
    ∀ row ∈ as.foldl u.upsertRows rows, Settled (u.under (u.key row) as) row := by
  induction as using List.reverseRecOn with
  | nil => exact fun row _ => h.none row
  | append_singleton as a ih =>
    rw [List.foldl_append, List.foldl_cons, List.foldl_nil]
    exact h.upsertRows ih fun b hb => mem_key_foldl.mpr (.inr ⟨b, hb, rfl⟩)

/-- A second round changes nothing. -/
theorem Settles.foldl_foldl (h : u.Settles Settled) :
    as.foldl u.upsertRows (as.foldl u.upsertRows rows) = as.foldl u.upsertRows rows := by
  rw [foldl_of_mem fun a ha => mem_key_foldl.mpr (.inr ⟨a, ha, rfl⟩)]
  refine (List.map_congr_left fun row hrow => ?_).trans (List.map_id _)
  exact h.done _ row (h.foldl row hrow)

/-- Changes of which the last one overwrites those that a row covers. -/
structure Absorbs (u : Upserts α ρ κ) (Covers : ρ → α → Prop) : Prop where
  covers_fresh : ∀ a rows, Covers (u.fresh a rows) a
  covers_change : ∀ a row, Covers (u.change a row) a
  covers_of_change : ∀ a b row, Covers row a → Covers (u.change b row) a
  overwrite : ∀ a b row, Covers row b → u.change a (u.change b row) = u.change a row
  change_fresh : ∀ a rows, u.change a (u.fresh a rows) = u.fresh a rows
  change_change : ∀ a row, u.change a (u.change a row) = u.change a row

variable {Covers : ρ → α → Prop}

omit [DecidableEq κ] in
theorem Absorbs.changes_eq (h : u.Absorbs Covers) (hrow : ∀ a ∈ as, Covers row a) :
    u.changes as row = as.getLast?.elim row (u.change · row) := by
  induction as using List.reverseRecOn with
  | nil => rfl
  | append_singleton as a ih =>
    have hstep : u.changes (as ++ [a]) row = u.change a (u.changes as row) := by
      rw [changes, changes, List.foldl_append, List.foldl_cons, List.foldl_nil]
    rw [hstep, ih fun b hb => hrow b (List.mem_append_left _ hb), List.getLast?_concat,
      Option.elim_some]
    cases hlast : as.getLast? with
    | none => rfl
    | some b =>
      refine h.overwrite a b row (hrow b (List.mem_append_left _ ?_))
      exact List.mem_of_getLast? hlast

omit [DecidableEq κ] in
theorem Absorbs.settles (h : u.Absorbs Covers) : u.Settles fun as row =>
    (∀ a ∈ as, Covers row a) ∧ ∀ a, as.getLast? = some a → u.change a row = row where
  none := fun row => ⟨nofun, nofun⟩
  fresh := fun a rows => by
    refine ⟨fun b hb => ?_, fun b hb => ?_⟩
    · obtain rfl := List.mem_singleton.mp hb
      exact h.covers_fresh b rows
    · obtain rfl := Option.some.inj hb
      exact h.change_fresh a rows
  change := fun as a row ⟨hcovers, _⟩ => by
    refine ⟨fun b hb => ?_, fun b hb => ?_⟩
    · rcases List.mem_append.mp hb with hold | hnew
      · exact h.covers_of_change b a row (hcovers b hold)
      · obtain rfl := List.mem_singleton.mp hnew
        exact h.covers_change b row
    · rw [List.getLast?_concat] at hb
      obtain rfl := Option.some.inj hb
      exact h.change_change a row
  done := fun as row ⟨hcovers, hlast⟩ => by
    rw [h.changes_eq hcovers]
    cases hfind : as.getLast? with
    | none => rfl
    | some a => exact hlast a hfind

theorem unique_upsertRows (h : UniqueBy u.key rows) : UniqueBy u.key (u.upsertRows rows a) := by
  unfold upsertRows
  split
  · exact h.updateBy (u.key_change a)
  · next hnone =>
    refine h.append_row ?_
    rw [u.key_fresh]
    exact Option.not_isSome_iff_eq_none.mp hnone

def upsert (u : Upserts α ρ κ) (table : Keyed u.key) (a : α) : Keyed u.key :=
  ⟨u.upsertRows table.rows a, unique_upsertRows table.unique⟩

theorem rows_foldl_upsert {table : Keyed u.key} :
    (as.foldl u.upsert table).rows = as.foldl u.upsertRows table.rows :=
  (List.foldl_hom Keyed.rows fun _ _ => rfl).symm

theorem Settles.foldl_upsert (h : u.Settles Settled) {table : Keyed u.key} :
    as.foldl u.upsert (as.foldl u.upsert table) = as.foldl u.upsert table := by
  ext1
  simp only [rows_foldl_upsert, h.foldl_foldl]

end Upserts

end Aetus.Base
