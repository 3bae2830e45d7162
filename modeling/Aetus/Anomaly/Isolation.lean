import Aetus.Anomaly.Worker

/-!
The events of a job in a run over all jobs, and in a run in which it is alone. The jobs share one
loop, which the first error ends.
-/

set_option autoImplicit false

namespace Aetus.Anomaly
open Aetus.Base Aetus.Postgres

variable {F : Type} {service : Service F} {telemetry : Telemetry} {clock : Clock} {jobs : Jobs}
  {job other : JobRecord} {jobId : Nat}

def eventsOf (jobId : Nat) (run : Run F) : List (EventInsert F) :=
  (events run).filter (·.jobId = jobId)

def Step.eventOf? (jobId : Nat) (step : Step F) : Option (EventInsert F) :=
  step.event?.filter (·.jobId = jobId)

theorem eventsOf_eq_seen {run : Run F} : eventsOf jobId run = run.seen (Step.eventOf? jobId) :=
  List.filter_filterMap

theorem jobId_of_runJob {e : EventInsert F}
    (h : .event e ∈ (runJob service telemetry clock job).done) : e.jobId = job.jobId := by
  obtain ⟨-, _, -, _, -, _, -, _, -, _, -, -, rfl⟩ := mem_runJob.mp h
  rfl

theorem eventsOf_runJob_of_ne (h : job.jobId ≠ jobId) :
    eventsOf jobId (runJob service telemetry clock job) = [] := by
  refine List.filter_eq_nil_iff.mpr fun e he hid => h ?_
  rw [← jobId_of_runJob (mem_events.mp he)]
  exact of_decide_eq_true hid

theorem eventsOf_alone (hjob : job ∈ jobs.enabledJobs) :
    eventsOf job.jobId (runDetectionOnce service telemetry clock (jobs.onlyEnabled job.jobId) none) =
      eventsOf job.jobId (runJob service telemetry clock job) := by
  rw [runDetectionOnce_none, enabledJobs_onlyEnabled hjob, eventsOf_eq_seen, eventsOf_eq_seen,
    Effects.forEach, Effects.forEach, Effects.seen_andThen]
  cases (runJob service telemetry clock job).failure <;> simp [Effects.seen]

theorem reached_job (hjob : job ∈ jobs.enabledJobs) :
    Effects.Reached (fun job => (runJob service telemetry clock job).failure = none)
        jobs.enabledJobs job ↔
      ∀ other ∈ jobs.enabledJobs, other.jobId < job.jobId → JobPasses service telemetry other := by
  rw [Effects.reached_iff_of_sorted enabledJobs_sorted hjob]
  simp only [failure_runJob]

theorem eventsOf_run (hjob : job ∈ jobs.enabledJobs) :
    ((∀ other ∈ jobs.enabledJobs, other.jobId < job.jobId → JobPasses service telemetry other) →
      eventsOf job.jobId (runDetectionOnce service telemetry clock jobs none) =
        eventsOf job.jobId (runJob service telemetry clock job)) ∧
    (¬(∀ other ∈ jobs.enabledJobs, other.jobId < job.jobId → JobPasses service telemetry other) →
      eventsOf job.jobId (runDetectionOnce service telemetry clock jobs none) = []) := by
  have hothers : ∀ other ∈ jobs.enabledJobs, other ≠ job →
      (runJob service telemetry clock other).seen (Step.eventOf? job.jobId) = [] := by
    intro other hother hne
    rw [← eventsOf_eq_seen]
    exact eventsOf_runJob_of_ne fun hid => hne (enabledJobs_eq hjob hother hid)
  have hseen := Effects.seen_forEach_of_others_silent enabledJobs_nodup hothers
  rw [reached_job hjob] at hseen
  rw [runDetectionOnce_none, eventsOf_eq_seen, eventsOf_eq_seen]
  exact hseen

/-- Other jobs can suppress the events of a job, but they do not change them. -/
theorem eventsOf_eq_or_nil (hjob : job ∈ jobs.enabledJobs) :
    eventsOf job.jobId (runDetectionOnce service telemetry clock jobs none) = [] ∨
      eventsOf job.jobId (runDetectionOnce service telemetry clock jobs none) = eventsOf job.jobId
        (runDetectionOnce service telemetry clock (jobs.onlyEnabled job.jobId) none) := by
  rw [eventsOf_alone hjob]
  by_cases h : ∀ other ∈ jobs.enabledJobs, other.jobId < job.jobId →
      JobPasses service telemetry other
  · exact .inr ((eventsOf_run hjob).1 h)
  · exact .inl ((eventsOf_run hjob).2 h)

end Aetus.Anomaly
