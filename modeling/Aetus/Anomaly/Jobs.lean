import Aetus.Anomaly.Models
import Mathlib.Data.List.Sort

/-!
The jobs of the anomaly service: the table anomaly_jobs, what create_job makes of a request and
the jobs that a detection run reads.
-/

set_option autoImplicit false

namespace Aetus.Anomaly
open Aetus.Base

structure CreateJobRequest where
  jobKey : List Char
  enabled : Bool
  deviceSelector : Selector
  streamSelector : Selector
  detectorType : List Char
  detectorConfig : Json
  windowSeconds : Int
  stepSeconds : Int
  lookbackSeconds : Int
  severity : List Char

structure JobRecord where
  jobId : Nat
  jobKey : List Char
  deviceSelector : Json
  streamSelector : Json
  detectorType : List Char
  detectorConfig : Json
  windowSeconds : Int
  stepSeconds : Int
  lookbackSeconds : Int
  severity : List Char

structure JobRow extends JobRecord where
  enabled : Bool

/-- The table anomaly_jobs, `job_id BIGSERIAL PRIMARY KEY` and `job_key TEXT NOT NULL UNIQUE`. -/
structure Jobs where
  rows : List JobRow
  nextJobId : Nat
  jobId_unique : UniqueBy (·.jobId) rows
  jobKey_unique : UniqueBy (·.jobKey) rows
  jobId_lt : ∀ row ∈ rows, row.jobId < nextJobId

def Jobs.empty : Jobs := ⟨[], 1, .nil _, .nil _, nofun⟩

/-- What is inserted for a request. A JSONB column gives back a value that may differ from the one
it is given in how a number is written, and refuses a U+0000. -/
def rowOfRequest (jsonb : Json → Option Json) (jobId : Nat) (request : CreateJobRequest) :
    Option JobRow := do
  let deviceSelector ← jsonb request.deviceSelector.toValue
  let streamSelector ← jsonb request.streamSelector.toValue
  let detectorConfig ← jsonb request.detectorConfig
  return {
    jobId, jobKey := request.jobKey, deviceSelector, streamSelector
    detectorType := request.detectorType, detectorConfig
    windowSeconds := request.windowSeconds, stepSeconds := request.stepSeconds
    lookbackSeconds := request.lookbackSeconds, severity := request.severity
    enabled := request.enabled }

/-- `ON CONFLICT (job_key) DO UPDATE`: the old row keeps its number. -/
def Jobs.insert (jobs : Jobs) (row : JobRow) (h : row.jobId = jobs.nextJobId) : Jobs :=
  match hfind : findBy (·.jobKey) row.jobKey jobs.rows with
  | some _ => {
      rows := updateBy (·.jobKey) row.jobKey
        (fun old => { row with jobId := old.jobId, jobKey := old.jobKey }) jobs.rows
      nextJobId := jobs.nextJobId + 1
      jobId_unique := jobs.jobId_unique.updateBy fun _ => rfl
      jobKey_unique := jobs.jobKey_unique.updateBy fun _ => rfl
      jobId_lt := fun updated hmem => by
        obtain ⟨old, hold, rfl⟩ := List.mem_map.mp hmem
        have hlt := jobs.jobId_lt old hold
        split
        · exact Nat.lt_succ_of_lt hlt
        · exact Nat.lt_succ_of_lt hlt }
  | none => {
      rows := jobs.rows ++ [row]
      nextJobId := jobs.nextJobId + 1
      jobId_unique := jobs.jobId_unique.append_row (findBy_eq_none.mpr fun old hold heq => by
        have hlt := jobs.jobId_lt old hold
        omega)
      jobKey_unique := jobs.jobKey_unique.append_row hfind
      jobId_lt := fun old hmem => by
        rcases List.mem_append.mp hmem with hold | hnew
        · exact Nat.lt_succ_of_lt (jobs.jobId_lt old hold)
        · obtain rfl := List.mem_singleton.mp hnew
          omega }

theorem jobId_rowOfRequest {jsonb : Json → Option Json} {jobId : Nat} {request : CreateJobRequest}
    {row : JobRow} (h : rowOfRequest jsonb jobId request = some row) : row.jobId = jobId := by
  simp only [rowOfRequest, Option.bind_eq_bind, Option.bind_eq_some_iff] at h
  obtain ⟨_, -, _, -, _, -, h⟩ := h
  obtain rfl := Option.some.inj h
  rfl

def Jobs.createJob (jsonb : Json → Option Json) (jobs : Jobs) (request : CreateJobRequest) : Jobs :=
  match h : rowOfRequest jsonb jobs.nextJobId request with
  | some row => jobs.insert row (jobId_rowOfRequest h)
  | none => jobs

def Jobs.created (jsonb : Json → Option Json) (requests : List CreateJobRequest) : Jobs :=
  requests.foldl (Jobs.createJob jsonb) .empty

/-- `WHERE enabled = TRUE ORDER BY job_id ASC` -/
def Jobs.enabledJobs (jobs : Jobs) : List JobRecord :=
  ((jobs.rows.filter (·.enabled)).map (·.toJobRecord)).insertionSort fun a b => a.jobId ≤ b.jobId

def Jobs.onlyEnabled (jobs : Jobs) (jobId : Nat) : Jobs where
  rows := jobs.rows.map fun row => { row with enabled := row.enabled && row.jobId = jobId }
  nextJobId := jobs.nextJobId
  jobId_unique := by
    rw [UniqueBy, List.map_map]
    exact jobs.jobId_unique
  jobKey_unique := by
    rw [UniqueBy, List.map_map]
    exact jobs.jobKey_unique
  jobId_lt := fun row hrow => by
    obtain ⟨before, hbefore, rfl⟩ := List.mem_map.mp hrow
    exact jobs.jobId_lt before hbefore

/-- The jobs of a run for one of them or, without a number, for all. -/
def Jobs.selected (jobs : Jobs) : Option Nat → Jobs
  | some jobId => jobs.onlyEnabled jobId
  | none => jobs

variable {jobs : Jobs} {job : JobRecord} {jobId : Nat}

theorem mem_enabledJobs : job ∈ jobs.enabledJobs ↔
    ∃ row ∈ jobs.rows, row.enabled = true ∧ row.toJobRecord = job := by
  simp [Jobs.enabledJobs, List.mem_insertionSort, and_assoc]

theorem enabledJobs_unique : UniqueBy (·.jobId) jobs.enabledJobs := by
  have hperm : (jobs.enabledJobs.map (·.jobId)).Perm
      ((jobs.rows.filter (·.enabled)).map (·.jobId)) := by
    have hsort := (List.perm_insertionSort (fun a b : JobRecord => a.jobId ≤ b.jobId)
      ((jobs.rows.filter (·.enabled)).map (·.toJobRecord))).map (·.jobId)
    rwa [List.map_map] at hsort
  exact hperm.nodup_iff.mpr (jobs.jobId_unique.sublist (List.filter_sublist.map _))

theorem enabledJobs_nodup : jobs.enabledJobs.Nodup := List.Nodup.of_map _ enabledJobs_unique

theorem enabledJobs_sorted : jobs.enabledJobs.Pairwise fun a b => a.jobId < b.jobId := by
  have : Std.Total fun a b : JobRecord => a.jobId ≤ b.jobId := ⟨fun _ _ => Nat.le_total _ _⟩
  have : IsTrans JobRecord fun a b => a.jobId ≤ b.jobId := ⟨fun _ _ _ => Nat.le_trans⟩
  have hle : jobs.enabledJobs.Pairwise fun a b => a.jobId ≤ b.jobId :=
    List.pairwise_insertionSort _ _
  have hne : jobs.enabledJobs.Pairwise fun a b => a.jobId ≠ b.jobId :=
    List.pairwise_map.mp enabledJobs_unique
  exact hle.imp₂ (fun _ _ => Nat.lt_of_le_of_ne) hne

theorem enabledJobs_eq (h : job ∈ jobs.enabledJobs) {other : JobRecord}
    (hother : other ∈ jobs.enabledJobs) (heq : other.jobId = job.jobId) : other = job :=
  enabledJobs_unique.eq hother h heq

theorem mem_enabledJobs_onlyEnabled {other : JobRecord} :
    other ∈ (jobs.onlyEnabled jobId).enabledJobs ↔ other ∈ jobs.enabledJobs ∧ other.jobId = jobId := by
  simp only [mem_enabledJobs, Jobs.onlyEnabled, List.mem_map]
  constructor
  · rintro ⟨_, ⟨row, hrow, rfl⟩, henabled, rfl⟩
    simp only [Bool.and_eq_true, decide_eq_true_eq] at henabled
    exact ⟨⟨row, hrow, henabled.1, rfl⟩, henabled.2⟩
  · rintro ⟨⟨row, hrow, henabled, rfl⟩, rfl⟩
    exact ⟨_, ⟨row, hrow, rfl⟩, by simp [henabled], rfl⟩

theorem enabledJobs_selected {onlyJobId : Option Nat} : (jobs.selected onlyJobId).enabledJobs =
    jobs.enabledJobs.filter fun job => onlyJobId.all (· = job.jobId) := by
  cases onlyJobId with
  | none => exact (List.filter_eq_self.mpr fun _ _ => rfl).symm
  | some jobId =>
    have hmem : ∀ job, job ∈ (jobs.onlyEnabled jobId).enabledJobs ↔
        job ∈ jobs.enabledJobs.filter fun job => (some jobId).all (· = job.jobId) := by
      intro job
      rw [mem_enabledJobs_onlyEnabled, List.mem_filter, Option.all_some, decide_eq_true_iff, eq_comm]
    have hperm := (List.perm_ext_iff_of_nodup enabledJobs_nodup (enabledJobs_nodup.filter _)).mpr hmem
    refine hperm.eq_of_pairwise (fun a b _ _ hab hba => ?_) enabledJobs_sorted
      (enabledJobs_sorted.filter _)
    exact absurd hba (Nat.lt_asymm hab)

theorem enabledJobs_onlyEnabled (h : job ∈ jobs.enabledJobs) :
    (jobs.onlyEnabled job.jobId).enabledJobs = [job] := by
  have hmem : job ∈ (jobs.onlyEnabled job.jobId).enabledJobs :=
    mem_enabledJobs_onlyEnabled.mpr ⟨h, rfl⟩
  refine List.Perm.eq_singleton ((List.perm_ext_iff_of_nodup enabledJobs_nodup
    (List.nodup_singleton job)).mpr fun other => ?_)
  rw [mem_enabledJobs_onlyEnabled, List.mem_singleton]
  constructor
  · rintro ⟨hother, heq⟩
    exact enabledJobs_eq h hother heq
  · rintro rfl
    exact ⟨h, rfl⟩

end Aetus.Anomaly
