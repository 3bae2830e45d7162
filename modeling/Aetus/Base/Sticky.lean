import Mathlib.Data.List.Induction

/-!
Chains of calls on an object that keeps the error of the first call that failed, and what the
last of several calls leaves in a field that each of them sets.
-/

set_option autoImplicit false

namespace Aetus.Base

variable {σ ε γ β : Type}

structure Sticky (σ ε : Type) where
  value : σ
  error : ε

section Chain

variable [DecidableEq ε] (ok : ε) (step : σ → γ → ε × σ)

def remember (error err : ε) : ε := if error = ok ∧ err ≠ ok then err else error

namespace Sticky

def call (s : Sticky σ ε) (c : γ) : Sticky σ ε :=
  ⟨(step s.value c).2, remember ok s.error (step s.value c).1⟩

def calls (s : Sticky σ ε) (cs : List γ) : Sticky σ ε := cs.foldl (call ok step) s

end Sticky

/-- What the first call returns that fails, on the object that the calls before it leave. -/
def firstError : σ → List γ → ε
  | _, [] => ok
  | value, c :: cs =>
    if (step value c).1 = ok then firstError (step value c).2 cs else (step value c).1

end Chain

def lastGiven (field : γ → Option β) (cs : List γ) : Option β := (cs.filterMap field).getLast?

theorem lastGiven_concat (field : γ → Option β) (cs : List γ) (c : γ) :
    lastGiven field (cs ++ [c]) = (field c).or (lastGiven field cs) := by
  rw [lastGiven, lastGiven, List.filterMap_append]
  cases hc : field c with
  | none => simp [hc]
  | some b => simp [hc]

section Rules

variable [DecidableEq ε] {ok : ε} {step : σ → γ → ε × σ} {s : Sticky σ ε}

theorem remember_eq_ok_iff {error err : ε} :
    remember ok error err = ok ↔ error = ok ∧ err = ok := by
  unfold remember
  by_cases herror : error = ok
  · by_cases herr : err = ok
    · simp [herror, herr]
    · simp [herror, herr]
  · simp [herror]

theorem remember_of_ne {error err : ε} (h : error ≠ ok) : remember ok error err = error :=
  if_neg fun hboth => h hboth.1

theorem remember_ok_left (err : ε) : remember ok ok err = err := by
  unfold remember
  by_cases herr : err = ok
  · simp [herr]
  · simp [herr]

namespace Sticky

theorem calls_concat (cs : List γ) (c : γ) :
    s.calls ok step (cs ++ [c]) = (s.calls ok step cs).call ok step c := by
  rw [calls, List.foldl_append]
  rfl

/-- No call succeeds in clearing an error. -/
theorem calls_error_of_ne (h : s.error ≠ ok) (cs : List γ) :
    (s.calls ok step cs).error = s.error := by
  induction cs generalizing s with
  | nil => rfl
  | cons c cs ih =>
    have hcall : (s.call ok step c).error = s.error := remember_of_ne h
    exact (ih (hcall ▸ h)).trans hcall

theorem calls_error (h : s.error = ok) (cs : List γ) :
    (s.calls ok step cs).error = firstError ok step s.value cs := by
  induction cs generalizing s with
  | nil => exact h
  | cons c cs ih =>
    have hcall : (s.call ok step c).error = (step s.value c).1 := by
      rw [call, h]
      exact remember_ok_left _
    change ((s.call ok step c).calls ok step cs).error = _
    rw [firstError]
    by_cases hok : (step s.value c).1 = ok
    · rw [if_pos hok]
      exact ih (hcall.trans hok)
    · rw [if_neg hok, calls_error_of_ne (hcall ▸ hok)]
      exact hcall

theorem calls_concat_ok_iff (cs : List γ) (c : γ) :
    (s.calls ok step (cs ++ [c])).error = ok ↔
      (s.calls ok step cs).error = ok ∧ (step (s.calls ok step cs).value c).1 = ok := by
  rw [calls_concat, call]
  exact remember_eq_ok_iff

/-- The rule for a chain without an error: what holds of the object and the calls so far after
every call that succeeds, holds of the whole chain. -/
theorem calls_induction {R : List γ → σ → Prop} (hstart : R [] s.value)
    (hstep : ∀ cs v c, R cs v → (step v c).1 = ok → R (cs ++ [c]) (step v c).2) {cs : List γ}
    (h : (s.calls ok step cs).error = ok) : R cs (s.calls ok step cs).value := by
  induction cs using List.reverseRecOn with
  | nil => exact hstart
  | append_singleton cs c ih =>
    obtain ⟨hbefore, hlast⟩ := (calls_concat_ok_iff cs c).mp h
    rw [calls_concat]
    exact hstep cs _ c (ih hbefore) hlast

end Sticky

end Rules

end Aetus.Base
