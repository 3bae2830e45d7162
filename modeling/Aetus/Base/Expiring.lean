import Aetus.Base.Table

/-!
A table whose rows come in batches. The rows of a batch are of one group and expire together, and
a batch is put into the table when no row of its group is alive. Then what is alive of a group is
always one whole batch, or nothing.
-/

set_option autoImplicit false

namespace Aetus.Base

variable {ρ κ γ : Type}

structure Lifetimes (ρ γ : Type) where
  group : ρ → γ
  expires : ρ → Int

namespace Lifetimes

variable (lifetimes : Lifetimes ρ γ)

def Live (g : γ) (t : Int) (rows : List ρ) (row : ρ) : Prop :=
  row ∈ rows ∧ lifetimes.group row = g ∧ t < lifetimes.expires row

def Together (g : γ) (expires : Int) (batch : List ρ) : Prop :=
  ∀ row ∈ batch, lifetimes.group row = g ∧ lifetimes.expires row = expires

def Whole (Batch : γ → Int → List ρ → Prop) (g : γ) (t : Int) (rows : List ρ) : Prop :=
  (∀ row, ¬lifetimes.Live g t rows row) ∨
    ∃ expires batch, Batch g expires batch ∧ lifetimes.Together g expires batch ∧
      ∀ row, lifetimes.Live g t rows row ↔ row ∈ batch ∧ t < expires

variable {lifetimes} {Batch Batch' : γ → Int → List ρ → Prop} {g g' : γ} {t t' now expires : Int}
  {rows batch : List ρ} {row : ρ}

theorem Live.of_le (ht : t ≤ t') (h : lifetimes.Live g t' rows row) : lifetimes.Live g t rows row :=
  ⟨h.1, h.2.1, Int.lt_of_le_of_lt ht h.2.2⟩

theorem Whole.mono (hbatch : ∀ g expires batch, Batch g expires batch → Batch' g expires batch)
    (h : lifetimes.Whole Batch g t rows) : lifetimes.Whole Batch' g t rows := by
  rcases h with hnone | ⟨expires, batch, hof, hrest⟩
  · exact .inl hnone
  · exact .inr ⟨expires, batch, hbatch g expires batch hof, hrest⟩

theorem whole_nil : lifetimes.Whole Batch g t [] := .inl fun _ h => List.not_mem_nil h.1

/-- A batch expires as a whole, also where expired rows are deleted by another clock. -/
theorem Whole.delete (now : Int) (h : lifetimes.Whole Batch g t rows) :
    lifetimes.Whole Batch g t (rows.filter fun row => !decide (lifetimes.expires row ≤ now)) := by
  have hlive : ∀ row, lifetimes.Live g t (rows.filter fun row =>
      !decide (lifetimes.expires row ≤ now)) row ↔
        lifetimes.Live g t rows row ∧ now < lifetimes.expires row := by
    intro row
    simp only [Live, List.mem_filter, Bool.not_eq_true', decide_eq_false_iff_not, Int.not_le]
    tauto
  rcases h with hnone | ⟨expires, batch, hof, htogether, hbatch⟩
  · exact .inl fun row hrow => hnone row ((hlive row).mp hrow).1
  · by_cases hnow : now < expires
    · refine .inr ⟨expires, batch, hof, htogether, fun row => ?_⟩
      rw [hlive, hbatch]
      refine and_iff_left_of_imp fun hrow => ?_
      rw [(htogether row hrow.1).2]
      exact hnow
    · refine .inl fun row hrow => ?_
      obtain ⟨hrow, hnot⟩ := (hlive row).mp hrow
      rw [(htogether row ((hbatch row).mp hrow).1).2] at hnot
      exact hnow hnot

variable [DecidableEq κ] {key : ρ → κ} {table : Keyed key}

theorem Whole.put_other (hkey : ∀ r r', key r = key r' → lifetimes.group r = lifetimes.group r')
    (hnew : UniqueBy key batch) (htogether : lifetimes.Together g' expires batch) (hg : g' ≠ g)
    (h : lifetimes.Whole Batch g t table.rows) :
    lifetimes.Whole Batch g t (batch.foldl Keyed.upsert table).rows := by
  have hlive : ∀ row, lifetimes.Live g t (batch.foldl Keyed.upsert table).rows row ↔
      lifetimes.Live g t table.rows row := by
    intro row
    rw [Live, Live, Keyed.mem_foldl_upsert hnew]
    constructor
    · rintro ⟨hnewRow | ⟨hold, -⟩, hgroup, hexpires⟩
      · exact absurd ((htogether row hnewRow).1.symm.trans hgroup) hg
      · exact ⟨hold, hgroup, hexpires⟩
    · rintro ⟨hold, hgroup, hexpires⟩
      refine ⟨.inr ⟨hold, fun hmem => ?_⟩, hgroup, hexpires⟩
      obtain ⟨r, hr, hsame⟩ := List.mem_map.mp hmem
      exact hg ((htogether r hr).1.symm.trans ((hkey r row hsame).trans hgroup))
  simpa only [Whole, hlive] using h

/-- A batch is what is alive of its group afterwards, if nothing was before. -/
theorem live_put (hnew : UniqueBy key batch) (htogether : lifetimes.Together g expires batch)
    (hnone : ∀ row, ¬lifetimes.Live g t table.rows row) (row : ρ) :
    lifetimes.Live g t (batch.foldl Keyed.upsert table).rows row ↔ row ∈ batch ∧ t < expires := by
  rw [Live, Keyed.mem_foldl_upsert hnew]
  constructor
  · rintro ⟨hnewRow | ⟨hold, -⟩, hgroup, hexpires⟩
    · exact ⟨hnewRow, (htogether row hnewRow).2 ▸ hexpires⟩
    · exact absurd ⟨hold, hgroup, hexpires⟩ (hnone row)
  · rintro ⟨hmem, hexpires⟩
    obtain ⟨hgroup, hsame⟩ := htogether row hmem
    exact ⟨.inl hmem, hgroup, hsame ▸ hexpires⟩

theorem Whole.put (hkey : ∀ r r', key r = key r' → lifetimes.group r = lifetimes.group r')
    (hnew : UniqueBy key batch) (htogether : lifetimes.Together g' expires batch)
    (hbatch : Batch g' expires batch) (hnone : ∀ row, ¬lifetimes.Live g' t table.rows row)
    (h : lifetimes.Whole Batch g t table.rows) :
    lifetimes.Whole Batch g t (batch.foldl Keyed.upsert table).rows := by
  by_cases hg : g' = g
  · subst hg
    exact .inr ⟨expires, batch, hbatch, htogether, live_put hnew htogether hnone⟩
  · exact h.put_other hkey hnew htogether hg

end Lifetimes

end Aetus.Base
