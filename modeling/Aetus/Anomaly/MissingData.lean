import Aetus.Anomaly.Counts

/-!
Jobs of the detector missing_data without an anchor. The window that is counted ends at the last
stored point, and at the present only where nothing is stored.
-/

set_option autoImplicit false

namespace Aetus.Anomaly
open Aetus.Base Aetus.Postgres

variable {F : Type} {service : Service F} {telemetry : Telemetry} {clock : Clock} {jobs : Jobs}
  {job : JobRecord} {config : DetectorConfig F} {deviceId streamKey : List Char}

structure ShortAtLatest (service : Service F) (telemetry : Telemetry) (jobs : Jobs) (job : JobRecord)
    (config : DetectorConfig F) (deviceId streamKey : List Char) : Prop where
  comes : Comes service telemetry jobs job config deviceId streamKey
  stores : StreamStores service telemetry job config (deviceId, streamKey)
  short : (∃ count, LatestCount service.reader telemetry deviceId streamKey job.channels
      job.windowSeconds config.maxPoints count ∧ count < config.minimum) ∨
    (∀ count, ¬LatestCount service.reader telemetry deviceId streamKey job.channels
      job.windowSeconds config.maxPoints count) ∧ 0 < config.minimum

theorem windowsToScan_counts {P : Nat → Prop} {windows : List (NumericWindow F)} {now : Int}
    (htype : job.detectorType = "missing_data".toList) :
    (∃ window ∈ windowsToScan job now windows, P window.points.length) ↔
      (∃ window ∈ windows, P window.points.length) ∨ windows = [] ∧ P 0 := by
  unfold windowsToScan
  cases windows with
  | nil => simp [htype, missingWindow]
  | cons window windows => simp

theorem missingData_recorded (hjob : job ∈ jobs.enabledJobs)
    (htype : job.detectorType = "missing_data".toList) (hconfig : configOf service job = .ok config)
    (hanchor : config.anchor = none) :
    (∃ e ∈ events (runDetectionOnce service telemetry clock jobs none),
        e.jobId = job.jobId ∧ e.deviceId = deviceId ∧ e.streamKey = streamKey) ↔
      ShortAtLatest service telemetry jobs job config deviceId streamKey := by
  have hload : loadWindows service telemetry job job.channels config deviceId streamKey 0 =
      numericWindows service.reader telemetry deviceId streamKey job.channels job.windowSeconds
        config.maxPoints 0 := by
    rw [loadWindows, hanchor]
  have hcrosses (window : NumericWindow F) :
      crosses service job config window = true ↔ window.points.length < config.minimum := by
    rw [crosses_iff, htype]
    simp only [evaluate_missingData, Except.ok.injEq, exists_eq_left', missingData_crossed]
  simp only [recorded_iff hjob hconfig, hcrosses, hload]
  constructor
  · rintro ⟨hcomes, hstores, windows, hread, hshort⟩
    refine ⟨hcomes, hstores, ?_⟩
    rcases (windowsToScan_counts (P := fun n => n < config.minimum) htype).mp hshort with
      hsome | ⟨rfl, hzero⟩
    · exact .inl ((numericWindows_counts hread).mp hsome)
    · refine .inr ⟨fun count hcount => ?_, hzero⟩
      obtain ⟨window, hmem, -⟩ := (numericWindows_counts (P := fun _ => True) hread).mpr
        ⟨count, hcount, trivial⟩
      cases hmem
  · rintro ⟨hcomes, hstores, hshort⟩
    obtain ⟨windows, hread⟩ := hstores.imp fun _ => And.left
    rw [hload] at hread
    refine ⟨hcomes, hstores, windows, hread, ?_⟩
    refine (windowsToScan_counts (P := fun n => n < config.minimum) htype).mpr ?_
    refine hshort.imp (numericWindows_counts hread).mpr fun ⟨hnone, hzero⟩ => ⟨?_, hzero⟩
    refine List.eq_nil_iff_forall_not_mem.mpr fun window hmem => ?_
    obtain ⟨count, hcount, -⟩ := (numericWindows_counts (P := fun _ => True) hread).mp
      ⟨window, hmem, trivial⟩
    exact hnone count hcount

/-- An event is recorded exactly for the streams that lack points now, where the windows at the
last stored points are short exactly for these. -/
theorem missingData_recorded_iff_lacking (hjob : job ∈ jobs.enabledJobs)
    (htype : job.detectorType = "missing_data".toList) (hconfig : configOf service job = .ok config)
    (hanchor : config.anchor = none) :
    let now := clock job.jobId deviceId streamKey
    let lacking := Lacking service.reader telemetry deviceId streamKey job.channels
      (now - seconds job.windowSeconds) now config.minimum
    ((∃ e ∈ events (runDetectionOnce service telemetry clock jobs none),
        e.jobId = job.jobId ∧ e.deviceId = deviceId ∧ e.streamKey = streamKey) ↔ lacking) ↔
      (ShortAtLatest service telemetry jobs job config deviceId streamKey ↔ lacking) := by
  intro now lacking
  rw [missingData_recorded hjob htype hconfig hanchor]

def silenceJobs : Jobs := .created some [imuRequest "silence" "missing_data" (.object [])]

def hourLater : Clock := fun _ _ _ => 1700003600000000000

/-- A stream of which nothing is stored. -/
theorem missingData_recorded_iff_lacking_nothing :
    (∃ e ∈ events (runDetectionOnce wholeService (metricStore []) hourLater silenceJobs none),
        e.jobId = 1 ∧ e.deviceId = "device".toList ∧ e.streamKey = "imu".toList) ↔
      Lacking wholeService.reader (metricStore []) "device".toList "imu".toList []
        (1700003600000000000 - seconds 60) 1700003600000000000 1 := by
  have hjob : firstJob (imuRequest "silence" "missing_data" (.object [])) ∈
      silenceJobs.enabledJobs := by
    rw [silenceJobs, enabledJobs_created rfl]
    exact List.mem_singleton_self _
  refine (missingData_recorded_iff_lacking hjob rfl rfl rfl).mpr (iff_of_true ?_ (by decide))
  have hrecorded : ∃ e ∈ events (runDetectionOnce wholeService (metricStore []) hourLater silenceJobs
      none), e.jobId = 1 ∧ e.deviceId = "device".toList ∧ e.streamKey = "imu".toList := by
    decide +kernel
  exact (missingData_recorded hjob rfl rfl rfl).mp hrecorded

/-- A stream that stopped an hour ago, with its last point in a window of its own. -/
theorem missingData_stopped_not_recorded :
    ¬((∃ e ∈ events (runDetectionOnce wholeService (metricStore [pointOf "imu" 1700000000000000])
          hourLater silenceJobs none),
        e.jobId = 1 ∧ e.deviceId = "device".toList ∧ e.streamKey = "imu".toList) ↔
      Lacking wholeService.reader (metricStore [pointOf "imu" 1700000000000000]) "device".toList
        "imu".toList [] (1700003600000000000 - seconds 60) 1700003600000000000 1) := by
  have hnone : ¬∃ e ∈ events (runDetectionOnce wholeService
      (metricStore [pointOf "imu" 1700000000000000]) hourLater silenceJobs none),
      e.jobId = 1 ∧ e.deviceId = "device".toList ∧ e.streamKey = "imu".toList := by
    decide +kernel
  have hlacking : Lacking wholeService.reader (metricStore [pointOf "imu" 1700000000000000])
      "device".toList "imu".toList [] (1700003600000000000 - seconds 60) 1700003600000000000 1 := by
    decide +kernel
  exact fun h => hnone (h.mpr hlacking)

end Aetus.Anomaly
