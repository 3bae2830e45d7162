import Aetus.Anomaly.Anchors
import Aetus.Anomaly.Events
import Aetus.Anomaly.MissingData
import Mathlib.Data.Set.Finite.Lattice
import Mathlib.Order.Bounds.Basic

/-!
A detection run that is repeated later on the same telemetry and jobs. Its windows are those of the
first run, but for the one of missing_data where nothing is stored.
-/

set_option autoImplicit false

namespace Aetus.Anomaly
open Aetus.Base Aetus.Postgres

variable {F : Type} {service : Service F} {telemetry : Telemetry} {clock clock' : Clock} {jobs : Jobs}
  {job : JobRecord} {config : DetectorConfig F} {deviceId streamKey : List Char}
  {windows : List (NumericWindow F)} {onlyJobId : Option Nat}

/-- No window of the stream has stored points or channels: none at the last ones and, with an
anchor, none at an anchor's event. -/
def NothingStored (service : Service F) (telemetry : Telemetry) (job : JobRecord)
    (config : DetectorConfig F) (deviceId streamKey : List Char) : Prop :=
  match config.anchor with
  | none => ∀ count, ¬LatestCount service.reader telemetry deviceId streamKey job.channels
      job.windowSeconds config.maxPoints count
  | some anchor => ∀ times, anchorEventTimes service telemetry deviceId anchor = .ok times →
      ∀ time ∈ times, ∀ count, ¬IntervalCount service.reader telemetry deviceId streamKey
        job.channels (anchor.start time) (anchor.stop time) config.maxPoints count

structure ReportedByClock (service : Service F) (telemetry : Telemetry) (jobs : Jobs)
    (job : JobRecord) (config : DetectorConfig F) (deviceId streamKey : List Char) : Prop where
  comes : Comes service telemetry jobs job config deviceId streamKey
  stores : StreamStores service telemetry job config (deviceId, streamKey)
  type : job.detectorType = "missing_data".toList
  nothing : NothingStored service telemetry job config deviceId streamKey
  short : 0 < config.minimum

theorem loadWindows_eq_nil (h : loadWindows service telemetry job job.channels config deviceId
      streamKey 0 = .ok windows) :
    windows = [] ↔ NothingStored service telemetry job config deviceId streamKey := by
  unfold loadWindows at h
  unfold NothingStored
  cases hanchor : config.anchor with
  | none =>
    simp only [hanchor] at h ⊢
    have hcounts := numericWindows_counts (P := fun _ => True) h
    simp only [and_true] at hcounts
    rw [← not_exists, ← hcounts, List.eq_nil_iff_forall_not_mem, not_exists]
  | some anchor =>
    simp only [hanchor] at h ⊢
    obtain ⟨times, htimes, -⟩ := except_bind_eq_ok.mp h
    rw [anchoredWindows_eq_nil htimes h]
    constructor
    · intro hnone times' htimes'
      obtain rfl := Except.ok.inj (htimes.symm.trans htimes')
      exact hnone
    · exact fun hnone => hnone times htimes

/-! The events do not depend on the clock -/

theorem windowsToScan_of_ne (h : ¬(windows = [] ∧ job.detectorType = "missing_data".toList))
    (now : Int) : windowsToScan job now windows = windows := by
  rw [windowsToScan, if_neg]
  rwa [Bool.and_eq_true, List.isEmpty_iff, decide_eq_true_iff]

/-- Whether a window of the present ends the run does not depend on the present. -/
theorem failure_missingWindow (now now' : Int) :
    (scanWindow service job config deviceId streamKey (missingWindow job now)).failure =
      (scanWindow service job config deviceId streamKey (missingWindow job now')).failure := by
  have hpoints (now : Int) : (missingWindow job now : NumericWindow F).points = [] := rfl
  rw [scanWindow, scanWindow, hpoints, hpoints]
  cases evaluate service.floats job.detectorType [] config with
  | error failure => rfl
  | ok result =>
    cases hcrossed : result.crossed with
    | false => simp [Effects.attempt, hcrossed, Effects.andThen, Effects.acts]
    | true =>
      by_cases hstored : service.storesEvent deviceId streamKey none = true <;>
        simp [Effects.attempt, hcrossed, Effects.andThen, Effects.acts, Service.upsertDetectionEvent,
          eventInsert, missingWindow, hstored]

/-- No event comes from the window of the present where no points are asked for, or where the event
is refused. -/
theorem events_missingWindow (htype : job.detectorType = "missing_data".toList)
    (hnone : ¬(0 < config.minimum ∧ service.storesEvent deviceId streamKey none = true)) (now : Int) :
    events (scanWindow service job config deviceId streamKey (missingWindow job now)) = [] := by
  refine List.eq_nil_iff_forall_not_mem.mpr fun e he => ?_
  obtain ⟨hpasses, result, heval, hcrossed, -⟩ := mem_scanWindow.mp (mem_events.mp he)
  have hcrosses := crosses_iff.mpr ⟨result, heval, hcrossed⟩
  rw [htype, evaluate_missingData] at heval
  obtain rfl := Except.ok.inj heval
  rw [passes, hcrosses] at hpasses
  exact hnone ⟨missingData_crossed.mp hcrossed, hpasses⟩

theorem agree_scanStream (hcomes : Comes service telemetry jobs job config deviceId streamKey)
    (hnone : ¬ReportedByClock service telemetry jobs job config deviceId streamKey) :
    Effects.Agree Step.event?
      (scanStream service telemetry clock job job.channels config deviceId streamKey)
      (scanStream service telemetry clock' job job.channels config deviceId streamKey) := by
  rw [scanStream_eq, scanStream_eq]
  cases hload : loadWindows service telemetry job job.channels config deviceId streamKey 0 with
  | error failure => exact .refl _
  | ok windows =>
    simp only [Effects.attempt]
    by_cases hfallback : windows = [] ∧ job.detectorType = "missing_data".toList
    · obtain ⟨rfl, htype⟩ := hfallback
      have hscan (now : Int) : windowsToScan job now [] = [(missingWindow job now : NumericWindow F)] := by
        rw [windowsToScan, htype]
        rfl
      have hrefused : ¬(0 < config.minimum ∧ service.storesEvent deviceId streamKey none = true) := by
        rintro ⟨hshort, hstored⟩
        refine hnone ⟨hcomes, ⟨[], hload, fun window hfind => ?_⟩, htype,
          (loadWindows_eq_nil hload).mp rfl, hshort⟩
        rw [hscan] at hfind
        obtain rfl := List.mem_singleton.mp (List.mem_of_find?_eq_some hfind)
        exact hstored
      have hseen (now : Int) : (Effects.forEach
          (scanWindow service job config deviceId streamKey) [missingWindow job now]).seen
            Step.event? = [] :=
        Effects.seen_forEach_of_silent fun window hwindow => by
          obtain rfl := List.mem_singleton.mp hwindow
          exact events_missingWindow htype hrefused now
      rw [hscan, hscan]
      refine ⟨?_, (hseen _).trans (hseen _).symm⟩
      exact Effects.failure_forEach_singleton (failure_missingWindow _ _)
    · rw [windowsToScan_of_ne hfallback, windowsToScan_of_ne hfallback]
      exact .refl _

theorem agree_runJob (hjob : Effects.Reached (JobPasses service telemetry) jobs.enabledJobs job)
    (hnone : ¬∃ job config deviceId streamKey,
      ReportedByClock service telemetry jobs job config deviceId streamKey) :
    Effects.Agree Step.event? (runJob service telemetry clock job)
      (runJob service telemetry clock' job) := by
  by_cases h : isSupported job.detectorType = true ∧ job.devices ≠ [] ∧ job.streams ≠ []
  · obtain ⟨hsupported, hdevices, hstreams⟩ := h
    rw [runJob_of_scanned hsupported hdevices hstreams, runJob_of_scanned hsupported hdevices hstreams]
    refine Effects.Agree.andThen ?_
    cases hconfig : configOf service job with
    | error failure => exact .refl _
    | ok config =>
      simp only [Effects.attempt]
      refine Effects.agree_forEach fun stream hstream => ?_
      have hreached : Effects.Reached (StreamPasses service telemetry job config)
          (job.devices ×ˢ job.streams) stream :=
        hstream.imp fun stream _ => (failure_scanStream hsupported).mp
      exact agree_scanStream ⟨hjob, hsupported, hconfig, hreached⟩
        fun hreported => hnone ⟨job, config, stream.1, stream.2, hreported⟩
  · rw [runJob_of_skipped h, runJob_of_skipped h]
    exact .refl _

theorem events_eq_of_not_reported (hnone : ¬∃ job config deviceId streamKey,
      ReportedByClock service telemetry jobs job config deviceId streamKey) :
    events (runDetectionOnce service telemetry clock jobs none) =
      events (runDetectionOnce service telemetry clock' jobs none) := by
  rw [runDetectionOnce_none, runDetectionOnce_none]
  refine (Effects.agree_forEach fun job hjob => agree_runJob ?_ hnone).2
  exact hjob.imp fun job _ => failure_runJob.mp

theorem ReportedByClock.event
    (h : ReportedByClock service telemetry jobs job config deviceId streamKey) (clock : Clock) :
    ∃ e ∈ events (runDetectionOnce service telemetry clock jobs none),
      e.windowStart = clock job.jobId deviceId streamKey - seconds job.windowSeconds := by
  obtain ⟨windows, hload, hstored⟩ := h.stores
  obtain rfl := (loadWindows_eq_nil hload).mpr h.nothing
  have hscan (now : Int) : windowsToScan job now [] = [(missingWindow job now : NumericWindow F)] := by
    rw [windowsToScan, h.type]
    rfl
  have hcrosses (now : Int) : crosses service job config (missingWindow job now) = true := by
    refine crosses_iff.mpr ⟨Detectors.missingData service.floats [] config, ?_,
      missingData_crossed.mpr h.short⟩
    rw [h.type]
    rfl
  obtain ⟨window, hwindow, hcrossed⟩ := exists_crosses_iff.mpr
    ⟨⟨_, hscan (clock job.jobId deviceId streamKey) ▸ List.mem_cons_self, hcrosses _⟩,
      (find?_windowsToScan _).mpr hstored⟩
  obtain ⟨result, heval, hcrossed⟩ := crosses_iff.mp hcrossed
  refine ⟨_, mem_events.mpr (mem_runDetectionOnce.mpr ⟨job, config, deviceId, streamKey, h.comes, [],
    hload, window, hwindow, result, heval, hcrossed, rfl⟩), ?_⟩
  have hmem := (List.takeWhile_sublist _).subset hwindow
  rw [hscan] at hmem
  obtain rfl := List.mem_singleton.mp hmem
  rfl

/-! The tables after a second run -/

variable {floats : Floats F}

structure Unchanged (before after : Tables floats) : Prop where
  scores : after.scores.rows.map scoreUpserts.key = before.scores.rows.map scoreUpserts.key
  events : after.events.rows.map (fun row => (row.key, row.eventEnd, row.score, row.threshold)) =
    before.events.rows.map fun row => (row.key, row.eventEnd, row.score, row.threshold)
  outbox : after.outbox.rows.map outboxUpserts.key = before.outbox.rows.map outboxUpserts.key

theorem Unchanged.keys {before after : Tables floats} (h : Unchanged before after) :
    after.events.rows.map (·.key) = before.events.rows.map (·.key) := by
  have hkeys := congrArg (List.map Prod.fst) h.events
  rwa [List.map_map, List.map_map] at hkeys

theorem unchanged_of_events_eq (h : StrictLt floats) (tables : Tables floats) {first second : Run F}
    (hevents : events first = events second) :
    Unchanged (tables.after first) ((tables.after first).after second) := by
  obtain ⟨state, hfirst⟩ := tables.after_eq_record first
  obtain ⟨state', hsecond⟩ := (tables.after first).after_eq_record second
  rw [hsecond, hfirst, ← hevents, Tables.record_withState]
  obtain ⟨hscores, hrows, houtbox⟩ := Tables.record_record h tables (events first)
  exact ⟨congrArg (fun table => table.rows.map scoreUpserts.key) hscores,
    congrArg (fun table => table.rows.map fun row =>
      (row.key, row.eventEnd, row.score, row.threshold)) hrows,
    congrArg (fun table => table.rows.map outboxUpserts.key) houtbox⟩

theorem exists_start_bound (tables : Tables floats) :
    ∃ latest : Int, ∀ key ∈ tables.events.rows.map (·.key), key.start ≤ latest := by
  obtain ⟨latest, hlatest⟩ :=
    ((tables.events.rows.map fun row => (row.key.start : Int)).toFinset).bddAbove
  refine ⟨latest, fun key hkey => ?_⟩
  obtain ⟨row, hrow, rfl⟩ := List.mem_map.mp hkey
  exact hlatest (Finset.mem_coe.mpr (List.mem_toFinset.mpr (List.mem_map.mpr ⟨row, hrow, rfl⟩)))

theorem toTimestamptz_lt {latest now windowSeconds : Int}
    (h : 1000 * (latest + 1) + seconds windowSeconds ≤ now) :
    latest < toTimestamptz (now - seconds windowSeconds) := by
  unfold toTimestamptz
  omega

/-- Late enough, the window of the present is a new one. -/
theorem ReportedByClock.exists_changed
    (h : ReportedByClock service telemetry jobs job config deviceId streamKey)
    (tables : Tables floats) (clock : Clock) :
    ∃ clock' : Clock, (∀ jobId deviceId streamKey,
        clock jobId deviceId streamKey ≤ clock' jobId deviceId streamKey) ∧
      ¬Unchanged tables (tables.after (runDetectionOnce service telemetry clock' jobs none)) := by
  obtain ⟨latest, hlatest⟩ := exists_start_bound tables
  let clock' : Clock := fun jobId deviceId streamKey =>
    max (clock jobId deviceId streamKey) (1000 * (latest + 1) + seconds job.windowSeconds)
  refine ⟨clock', fun _ _ _ => le_max_left _ _, fun hunchanged => ?_⟩
  obtain ⟨e, he, hstart⟩ := h.event clock'
  obtain ⟨state, hafter⟩ :=
    tables.after_eq_record (runDetectionOnce service telemetry clock' jobs none)
  have hkey : e.key ∈ tables.events.rows.map (·.key) := by
    rw [← hunchanged.keys, hafter]
    exact Tables.mem_key_record.mpr (.inr ⟨e, he, rfl⟩)
  have hnew : latest < e.key.start := by
    rw [EventInsert.key, hstart]
    exact toTimestamptz_lt (le_max_right _ _)
  exact absurd (hlatest _ hkey) (Int.not_le.mpr hnew)

/-- A second run at any later time changes nothing, exactly if missing_data reports no stream by
the window of the present. -/
theorem rerun_unchanged_iff (h : StrictLt service.floats) (tables : Tables service.floats) :
    (∀ clock' : Clock, (∀ jobId deviceId streamKey,
        clock jobId deviceId streamKey ≤ clock' jobId deviceId streamKey) →
      Unchanged (tables.after (runDetectionOnce service telemetry clock jobs onlyJobId))
        ((tables.after (runDetectionOnce service telemetry clock jobs onlyJobId)).after
          (runDetectionOnce service telemetry clock' jobs onlyJobId))) ↔
      ¬∃ job config deviceId streamKey,
        ReportedByClock service telemetry (jobs.selected onlyJobId) job config deviceId streamKey := by
  simp only [runDetectionOnce_selected onlyJobId]
  constructor
  · rintro hall ⟨job, config, deviceId, streamKey, hreported⟩
    obtain ⟨clock', hlater, hchanged⟩ := hreported.exists_changed
      (tables.after (runDetectionOnce service telemetry clock (jobs.selected onlyJobId) none)) clock
    exact hchanged (hall clock' hlater)
  · exact fun hnone clock' _ => unchanged_of_events_eq h tables (events_eq_of_not_reported hnone)

/-! A stream of the past and one without data, delivered to one endpoint -/

theorem strictLt_wholeService : StrictLt wholeService.floats where
  irrefl := fun a => decide_eq_false (lt_irrefl a)
  trans := fun _ _ _ hab hbc =>
    decide_eq_true ((of_decide_eq_true hab).trans (of_decide_eq_true hbc))

def oneEndpoint : Tables wholeService.floats where
  scores := .empty _
  events := .empty _
  outbox := .empty _
  jobState := .empty _
  endpoints := [⟨1, true⟩]

def firstClock : Clock := fun _ _ _ => 1700000000000000000

def limitJobs : Jobs :=
  .created some [imuRequest "limit" "threshold" (.object [("threshold".toList, .int 5)])]

theorem rerun_unchanged_iff_limit :
    let store := metricStore [pointOf "imu" 1700000000000000]
    let before := oneEndpoint.after (runDetectionOnce wholeService store firstClock limitJobs none)
    Unchanged before (before.after (runDetectionOnce wholeService store hourLater limitJobs none)) := by
  intro store before
  refine (rerun_unchanged_iff strictLt_wholeService oneEndpoint).mpr ?_ hourLater fun _ _ _ =>
    (by decide : (1700000000000000000 : Int) ≤ 1700003600000000000)
  rintro ⟨job, config, deviceId, streamKey, hreported⟩
  have hjob : job ∈ limitJobs.enabledJobs := Effects.mem_of_reached hreported.comes.reachesJob
  rw [limitJobs, enabledJobs_created rfl] at hjob
  obtain rfl := List.mem_singleton.mp hjob
  exact absurd hreported.type (by decide)

/-- An hour later, a second event for the same silence. -/
theorem silence_rerun_changed :
    let before := oneEndpoint.after
      (runDetectionOnce wholeService (metricStore []) firstClock silenceJobs none)
    ¬Unchanged before
      (before.after (runDetectionOnce wholeService (metricStore []) hourLater silenceJobs none)) := by
  intro before hunchanged
  have hone : before.events.rows.length = 1 := by decide +kernel
  have htwo : (before.after (runDetectionOnce wholeService (metricStore []) hourLater silenceJobs
      none)).events.rows.length = 2 := by decide +kernel
  have hlength := congrArg List.length hunchanged.keys
  rw [List.length_map, List.length_map] at hlength
  omega

end Aetus.Anomaly
