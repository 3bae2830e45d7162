import Aetus.Base.Runs

/-!
Bounded progress. Steps of one kind lower a measure and no other step raises it, so a schedule
holds only so many of them before it gets to its goal.
-/

set_option autoImplicit false

namespace Aetus.Base

variable {σ α : Type} {step : σ → α → Option σ} {C : σ → α → Prop} {I goal : σ → Prop}

/-- Until the goal is reached, a step under `C` keeps `I` and pays for itself when it works. -/
structure Advances (step : σ → α → Option σ) (C : σ → α → Prop) (I goal : σ → Prop)
    (measure : σ → Nat) (works : α → Bool) : Prop where
  stays : ∀ s a t, goal s → step s a = some t → goal t
  pays : ∀ s a t, I s → C s a → step s a = some t →
    goal t ∨ I t ∧ measure t + (if works a then 1 else 0) ≤ measure s

variable {measure : σ → Nat} {works : α → Bool}

theorem run_advances (h : Advances step C I goal measure works) {s t : σ} {as : List α} (hs : I s)
    (hg : Guarded step C s as) (hrun : run step s as = some t) :
    goal t ∨ I t ∧ measure t + as.countP works ≤ measure s := by
  induction as generalizing s with
  | nil =>
    obtain rfl : s = t := Option.some.inj hrun
    exact .inr ⟨hs, Nat.le_refl _⟩
  | cons a as ih =>
    obtain ⟨u, hu, ht⟩ := run_cons.mp hrun
    rcases h.pays s a u hs hg.1 hu with hgoal | ⟨hinv, hpaid⟩
    · exact .inl (run_invariant h.stays hgoal ht)
    · rcases ih hinv (hg.2 u hu) ht with hgoal | ⟨hinv', hrest⟩
      · exact .inl hgoal
      · refine .inr ⟨hinv', ?_⟩
        rw [List.countP_cons]
        omega

/-- More work than the measure allows leads to the goal. -/
theorem run_reaches (h : Advances step C I goal measure works) {s t : σ} {as : List α} (hs : I s)
    (hg : Guarded step C s as) (hrun : run step s as = some t)
    (hwork : measure s < as.countP works) : goal t := by
  rcases run_advances h hs hg hrun with hgoal | ⟨-, hpaid⟩
  · exact hgoal
  · omega

end Aetus.Base
