import Mathlib.Logic.Relation

/-!
Finite schedules of a partial step function, and the induction rules that carry
a property of one step to every state a schedule reaches.
-/

set_option autoImplicit false

namespace Aetus.Base

variable {σ α τ : Type}

/-- Execute a schedule; a schedule with an action that is not enabled has no result. -/
def run (step : σ → α → Option σ) : σ → List α → Option σ
  | s, [] => some s
  | s, a :: as => (step s a).bind fun t => run step t as

theorem run_cons {step : σ → α → Option σ} {s t : σ} {a : α} {as : List α} :
    run step s (a :: as) = some t ↔ ∃ u, step s a = some u ∧ run step u as = some t := by
  simp [run, Option.bind_eq_some_iff]

/-- The run lemma: what every step preserves, every schedule preserves. -/
theorem run_invariant {step : σ → α → Option σ} {I : σ → Prop}
    (hstep : ∀ s a t, I s → step s a = some t → I t) {s t : σ} {as : List α}
    (hs : I s) (h : run step s as = some t) : I t := by
  induction as generalizing s with
  | nil =>
    obtain rfl : s = t := Option.some.inj h
    exact hs
  | cons a as ih =>
    obtain ⟨u, hu, ht⟩ := run_cons.mp h
    exact ih (hstep s a u hs hu) ht

/-- Every action of the schedule meets `C` in the state it is taken from. -/
def Guarded (step : σ → α → Option σ) (C : σ → α → Prop) : σ → List α → Prop
  | _, [] => True
  | s, a :: as => C s a ∧ ∀ t, step s a = some t → Guarded step C t as

instance Guarded.decidable {step : σ → α → Option σ} {C : σ → α → Prop}
    [∀ s a, Decidable (C s a)] (s : σ) (as : List α) : Decidable (Guarded step C s as) :=
  match as with
  | [] => isTrue trivial
  | a :: as =>
    match h : step s a with
    | none => decidable_of_iff (C s a) (by simp [Guarded, h])
    | some t =>
      have : Decidable (Guarded step C t as) := Guarded.decidable t as
      decidable_of_iff (C s a ∧ Guarded step C t as) (by simp [Guarded, h])

/-- As `run_invariant`, for a step lemma that needs a condition on each step. -/
theorem run_guarded_invariant {step : σ → α → Option σ} {C : σ → α → Prop} {I : σ → Prop}
    (hstep : ∀ s a t, I s → C s a → step s a = some t → I t) {s t : σ} {as : List α}
    (hs : I s) (hg : Guarded step C s as) (h : run step s as = some t) : I t := by
  induction as generalizing s with
  | nil =>
    obtain rfl : s = t := Option.some.inj h
    exact hs
  | cons a as ih =>
    obtain ⟨u, hu, ht⟩ := run_cons.mp h
    exact ih (hstep s a u hs hg.1 hu) (hg.2 u hu) ht

/-- Simulation under an invariant: if each step from a state of `I` is matched by
finitely many abstract steps, so is a schedule. -/
theorem run_simulation {step : σ → α → Option σ} {R : τ → τ → Prop} {I : σ → Prop}
    (abs : σ → τ) (hinv : ∀ s a t, I s → step s a = some t → I t)
    (hstep : ∀ s a t, I s → step s a = some t → Relation.ReflTransGen R (abs s) (abs t))
    {s t : σ} {as : List α} (hs : I s) (h : run step s as = some t) :
    Relation.ReflTransGen R (abs s) (abs t) := by
  have hboth := run_invariant (I := fun u => I u ∧ Relation.ReflTransGen R (abs s) (abs u))
    (fun u a v hu hv => ⟨hinv u a v hu.1 hv, hu.2.trans (hstep u a v hu.1 hv)⟩) ⟨hs, .refl⟩ h
  exact hboth.2

/-- An invariant of the abstract steps holds after finitely many of them. -/
theorem closure_invariant {R : τ → τ → Prop} {I : τ → Prop}
    (hR : ∀ p q, I p → R p q → I q) {p q : τ} (hp : I p)
    (h : Relation.ReflTransGen R p q) : I q := by
  induction h with
  | refl => exact hp
  | tail _ hr ih => exact hR _ _ ih hr

end Aetus.Base
