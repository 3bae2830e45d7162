import Aetus.Anomaly.Counts

/-!
Jobs with an anchor. Every anchor has windows of its own where the stream has data; an anchor
without any is passed over.
-/

set_option autoImplicit false

namespace Aetus.Anomaly
open Aetus.Base Aetus.Postgres

variable {F : Type} {service : Service F} {telemetry : Telemetry} {clock : Clock} {jobs : Jobs}
  {job : JobRecord} {config : DetectorConfig F} {anchor : WindowAnchorConfig F}
  {deviceId streamKey : List Char} {channels : List (List Char)} {anchorTimes : List Int}
  {anchorTime : Int} {maxPoints : Nat} {windows : List (NumericWindow F)}

def WindowAnchorConfig.start (anchor : WindowAnchorConfig F) (anchorTime : Int) : Int :=
  anchorTime - seconds anchor.preSeconds

def WindowAnchorConfig.stop (anchor : WindowAnchorConfig F) (anchorTime : Int) : Int :=
  anchorTime + seconds anchor.postSeconds

theorem anchoredWindows_eq_flatten (htimes : anchorEventTimes service telemetry deviceId anchor =
      .ok anchorTimes)
    (h : anchoredWindows service telemetry deviceId streamKey channels anchor maxPoints = .ok windows) :
    ∃ lists, anchorTimes.mapM (fun time => numericWindowsBetween service.reader telemetry deviceId
      streamKey channels (anchor.start time) (anchor.stop time) maxPoints) = .ok lists ∧
      windows = lists.flatten := by
  rw [anchoredWindows] at h
  obtain ⟨times, hread, h⟩ := except_bind_eq_ok.mp h
  obtain rfl := Except.ok.inj (htimes.symm.trans hread)
  obtain ⟨lists, hlists, h⟩ := except_bind_eq_ok.mp h
  exact ⟨lists, hlists, (Except.ok.inj h).symm⟩

theorem mem_anchoredWindows (htimes : anchorEventTimes service telemetry deviceId anchor =
      .ok anchorTimes)
    (h : anchoredWindows service telemetry deviceId streamKey channels anchor maxPoints = .ok windows)
    {window : NumericWindow F} : window ∈ windows ↔
      ∃ time ∈ anchorTimes, ∃ read, numericWindowsBetween service.reader telemetry deviceId streamKey
        channels (anchor.start time) (anchor.stop time) maxPoints = .ok read ∧ window ∈ read := by
  obtain ⟨lists, hlists, rfl⟩ := anchoredWindows_eq_flatten htimes h
  rw [List.mem_flatten]
  constructor
  · rintro ⟨read, hread, hwindow⟩
    obtain ⟨time, htime, hread⟩ := (mem_of_mapM hlists).mp hread
    exact ⟨time, htime, read, hread, hwindow⟩
  · rintro ⟨time, htime, read, hread, hwindow⟩
    exact ⟨read, (mem_of_mapM hlists).mpr ⟨time, htime, hread⟩, hwindow⟩

theorem anchoredWindows_counts {P : Nat → Prop}
    (htimes : anchorEventTimes service telemetry deviceId anchor = .ok anchorTimes)
    (h : anchoredWindows service telemetry deviceId streamKey channels anchor maxPoints = .ok windows)
    (htime : anchorTime ∈ anchorTimes) :
    (∃ window ∈ windows, window.windowStart = anchor.start anchorTime ∧
        window.windowEnd = anchor.stop anchorTime ∧ P window.points.length) ↔
      ∃ count, IntervalCount service.reader telemetry deviceId streamKey channels
        (anchor.start anchorTime) (anchor.stop anchorTime) maxPoints count ∧ P count := by
  constructor
  · rintro ⟨window, hwindow, hstart, -, hp⟩
    obtain ⟨time, -, read, hread, hwindow⟩ := (mem_anchoredWindows htimes h).mp hwindow
    have hsame : time = anchorTime := by
      have hbound := (numericWindowsBetween_bounds hread hwindow).1
      rw [hstart] at hbound
      unfold WindowAnchorConfig.start at hbound
      omega
    subst hsame
    exact (numericWindowsBetween_counts hread).mp ⟨window, hwindow, hp⟩
  · rintro ⟨count, hcount, hp⟩
    obtain ⟨lists, hlists, -⟩ := anchoredWindows_eq_flatten htimes h
    obtain ⟨read, hread⟩ := ok_of_mapM hlists htime
    obtain ⟨window, hwindow, hp⟩ := (numericWindowsBetween_counts hread).mpr ⟨count, hcount, hp⟩
    obtain ⟨hstart, hstop⟩ := numericWindowsBetween_bounds hread hwindow
    exact ⟨window, (mem_anchoredWindows htimes h).mpr ⟨anchorTime, htime, read, hread, hwindow⟩,
      hstart, hstop, hp⟩

theorem anchoredWindows_eq_nil
    (htimes : anchorEventTimes service telemetry deviceId anchor = .ok anchorTimes)
    (h : anchoredWindows service telemetry deviceId streamKey channels anchor maxPoints = .ok windows) :
    windows = [] ↔ ∀ time ∈ anchorTimes, ∀ count, ¬IntervalCount service.reader telemetry deviceId
      streamKey channels (anchor.start time) (anchor.stop time) maxPoints count := by
  constructor
  · rintro rfl time htime count hcount
    obtain ⟨window, hwindow, -⟩ := (anchoredWindows_counts (P := fun _ => True) htimes h htime).mpr
      ⟨count, hcount, trivial⟩
    cases hwindow
  · intro hnone
    refine List.eq_nil_iff_forall_not_mem.mpr fun window hwindow => ?_
    obtain ⟨time, htime, read, hread, hwindow⟩ := (mem_anchoredWindows htimes h).mp hwindow
    obtain ⟨count, hcount, -⟩ := (numericWindowsBetween_counts (P := fun _ => True) hread).mp
      ⟨window, hwindow, trivial⟩
    exact hnone time htime count hcount

/-- No anchor has a window, and the one of missing_data that stands in for them happens to have
the bounds of the anchor's. -/
structure StandsIn (service : Service F) (telemetry : Telemetry) (job : JobRecord)
    (config : DetectorConfig F) (anchor : WindowAnchorConfig F) (deviceId streamKey : List Char)
    (anchorTimes : List Int) (anchorTime now : Int) : Prop where
  type : job.detectorType = "missing_data".toList
  nothing : ∀ time ∈ anchorTimes, ∀ count, ¬IntervalCount service.reader telemetry deviceId streamKey
    job.channels (anchor.start time) (anchor.stop time) config.maxPoints count
  short : 0 < config.minimum
  start : now - seconds job.windowSeconds = anchor.start anchorTime
  stop : now = anchor.stop anchorTime

/-- The first window with the anchor's bounds that crosses comes before the first window whose event
PostgreSQL refuses. -/
def StoredAt (service : Service F) (telemetry : Telemetry) (job : JobRecord)
    (config : DetectorConfig F) (anchor : WindowAnchorConfig F) (deviceId streamKey : List Char)
    (anchorTime now : Int) : Prop :=
  ∃ windows, loadWindows service telemetry job job.channels config deviceId streamKey 0 =
      .ok windows ∧
    ∀ window ∈ (windowsToScan job now windows).find? fun window =>
        window.windowStart = anchor.start anchorTime ∧ window.windowEnd = anchor.stop anchorTime ∧
          crosses service job config window = true,
      window ∈ (windowsToScan job now windows).takeWhile
        (passes service job config (deviceId, streamKey))

structure CrossesAt (service : Service F) (telemetry : Telemetry) (jobs : Jobs) (job : JobRecord)
    (config : DetectorConfig F) (anchor : WindowAnchorConfig F) (deviceId streamKey : List Char)
    (anchorTimes : List Int) (anchorTime now : Int) : Prop where
  comes : Comes service telemetry jobs job config deviceId streamKey
  stores : StoredAt service telemetry job config anchor deviceId streamKey anchorTime now
  counts : (∃ count, IntervalCount service.reader telemetry deviceId streamKey job.channels
      (anchor.start anchorTime) (anchor.stop anchorTime) config.maxPoints count ∧
      Crosses job.detectorType config count) ∨
    StandsIn service telemetry job config anchor deviceId streamKey anchorTimes anchorTime now

theorem windowsToScan_at_anchor {now : Int}
    (htimes : anchorEventTimes service telemetry deviceId anchor = .ok anchorTimes)
    (h : anchoredWindows service telemetry deviceId streamKey job.channels anchor config.maxPoints =
      .ok windows) (htime : anchorTime ∈ anchorTimes) :
    (∃ window ∈ windowsToScan job now windows, window.windowStart = anchor.start anchorTime ∧
        window.windowEnd = anchor.stop anchorTime ∧
        Crosses job.detectorType config window.points.length) ↔
      (∃ count, IntervalCount service.reader telemetry deviceId streamKey job.channels
        (anchor.start anchorTime) (anchor.stop anchorTime) config.maxPoints count ∧
        Crosses job.detectorType config count) ∨
      StandsIn service telemetry job config anchor deviceId streamKey anchorTimes anchorTime now := by
  constructor
  · rintro ⟨window, hwindow, hstart, hstop, hcount⟩
    unfold windowsToScan at hwindow
    split at hwindow
    · next hmissing =>
      obtain ⟨hempty, htype⟩ := Bool.and_eq_true_iff.mp hmissing
      obtain rfl := List.mem_singleton.mp hwindow
      rw [List.isEmpty_iff] at hempty
      have hshort : 0 < config.minimum :=
        hcount.resolve_right fun hmany => Nat.not_lt_zero _ hmany.2
      exact .inr ⟨of_decide_eq_true htype, (anchoredWindows_eq_nil htimes h).mp hempty, hshort,
        hstart, hstop⟩
    · exact .inl ((anchoredWindows_counts htimes h htime).mp ⟨window, hwindow, hstart, hstop, hcount⟩)
  · rintro (hinterval | hstands)
    · obtain ⟨window, hmem, hwindow⟩ := (anchoredWindows_counts htimes h htime).mpr hinterval
      refine ⟨window, ?_, hwindow⟩
      cases windows with
      | nil => cases hmem
      | cons first rest => exact hmem
    · have hempty := (anchoredWindows_eq_nil htimes h).mpr hstands.nothing
      refine ⟨missingWindow job now, ?_, hstands.start, hstands.stop, .inl hstands.short⟩
      rw [windowsToScan, hempty, hstands.type]
      exact List.mem_singleton_self _

theorem anchored_recorded (hjob : job ∈ jobs.enabledJobs)
    (htype : job.detectorType = "event_sequence".toList ∨ job.detectorType = "missing_data".toList)
    (hconfig : configOf service job = .ok config) (hanchor : config.anchor = some anchor)
    (htimes : anchorEventTimes service telemetry deviceId anchor = .ok anchorTimes)
    (htime : anchorTime ∈ anchorTimes) :
    (∃ e ∈ events (runDetectionOnce service telemetry clock jobs none),
        (e.jobId = job.jobId ∧ e.deviceId = deviceId ∧ e.streamKey = streamKey) ∧
          e.windowStart = anchor.start anchorTime ∧ e.windowEnd = anchor.stop anchorTime) ↔
      CrossesAt service telemetry jobs job config anchor deviceId streamKey anchorTimes anchorTime
        (clock job.jobId deviceId streamKey) := by
  have hload : loadWindows service telemetry job job.channels config deviceId streamKey 0 =
      anchoredWindows service telemetry deviceId streamKey job.channels anchor config.maxPoints := by
    rw [loadWindows, hanchor]
  have hcrosses (window : NumericWindow F) : crosses service job config window = true ↔
      Crosses job.detectorType config window.points.length := by
    rw [crosses_iff]
    exact evaluate_crosses htype
  constructor
  · rintro ⟨e, he, hstream, hstart, hstop⟩
    obtain ⟨hcomes, windows, hread, window, hwindow, result, heval, hcrossed, rfl⟩ :=
      (mem_events_stream hjob hconfig).mp ⟨he, hstream⟩
    obtain ⟨⟨window, hmem, hat⟩, hstored⟩ := (exists_mem_takeWhile_iff (q := fun window =>
      window.windowStart = anchor.start anchorTime ∧ window.windowEnd = anchor.stop anchorTime ∧
        crosses service job config window = true)).mp ⟨window, hwindow,
      decide_eq_true ⟨hstart, hstop, crosses_iff.mpr ⟨result, heval, hcrossed⟩⟩⟩
    refine ⟨hcomes, ⟨windows, hread, hstored⟩, ?_⟩
    obtain ⟨hstart, hstop, hcount⟩ := of_decide_eq_true hat
    rw [hload] at hread
    exact (windowsToScan_at_anchor htimes hread htime).mp
      ⟨window, hmem, hstart, hstop, (hcrosses window).mp hcount⟩
  · rintro ⟨hcomes, ⟨windows, hread, hstored⟩, hcounts⟩
    obtain ⟨window, hmem, hstart, hstop, hcount⟩ :=
      (windowsToScan_at_anchor htimes (hload.symm.trans hread) htime).mpr hcounts
    obtain ⟨window, hwindow, hat⟩ := exists_mem_takeWhile_iff.mpr ⟨⟨window, hmem,
      decide_eq_true ⟨hstart, hstop, (hcrosses window).mpr hcount⟩⟩, hstored⟩
    obtain ⟨hstart, hstop, hcrossed⟩ := of_decide_eq_true hat
    obtain ⟨result, heval, hcrossed⟩ := crosses_iff.mp hcrossed
    obtain ⟨he, hstream⟩ := (mem_events_stream hjob hconfig).mpr
      ⟨hcomes, windows, hread, window, hwindow, result, heval, hcrossed, rfl⟩
    exact ⟨_, he, hstream, hstart, hstop⟩

/-- Too few points at an anchor are recorded exactly where there is a window to count them in. -/
theorem anchored_recorded_iff_crosses (hjob : job ∈ jobs.enabledJobs)
    (htype : job.detectorType = "event_sequence".toList ∨ job.detectorType = "missing_data".toList)
    (hconfig : configOf service job = .ok config) (hanchor : config.anchor = some anchor)
    (htimes : anchorEventTimes service telemetry deviceId anchor = .ok anchorTimes)
    (htime : anchorTime ∈ anchorTimes) :
    let lacking := Lacking service.reader telemetry deviceId streamKey job.channels
      (anchor.start anchorTime) (anchor.stop anchorTime) config.minimum
    (lacking → ∃ e ∈ events (runDetectionOnce service telemetry clock jobs none),
        (e.jobId = job.jobId ∧ e.deviceId = deviceId ∧ e.streamKey = streamKey) ∧
          e.windowStart = anchor.start anchorTime ∧ e.windowEnd = anchor.stop anchorTime) ↔
      (lacking → CrossesAt service telemetry jobs job config anchor deviceId streamKey anchorTimes
        anchorTime (clock job.jobId deviceId streamKey)) := by
  intro lacking
  rw [anchored_recorded hjob htype hconfig hanchor htimes htime]

/-! A door that opens, and a stream that should answer -/

def doorAnchor : WindowAnchorConfig Int := ⟨"door".toList, 0, 10, 16, none, none, none, none⟩

def doorRequest : CreateJobRequest :=
  imuRequest "door" "event_sequence" (.object [("min_count".toList, .int 2),
    ("anchor".toList, .object [("stream".toList, .string "door".toList)])])

def doorConfig : DetectorConfig Int :=
  { DetectorConfig.default wholeService.numbers with minCount := some 2, anchor := some doorAnchor }

def doorJobs : Jobs := .created some [doorRequest]

theorem firstJob_mem_doorJobs : firstJob doorRequest ∈ doorJobs.enabledJobs := by
  rw [doorJobs, enabledJobs_created rfl]
  exact List.mem_singleton_self _

/-- One point in the ten seconds after the door's event, where two are asked for. -/
theorem anchored_recorded_iff_crosses_one :
    let store := metricStore [pointOf "door" 1700000000000000, pointOf "imu" 1700000001000000]
    Lacking wholeService.reader store "device".toList "imu".toList []
        1700000000000000000 1700000010000000000 2 →
      ∃ e ∈ events (runDetectionOnce wholeService store (fun _ _ _ => 0) doorJobs none),
        (e.jobId = 1 ∧ e.deviceId = "device".toList ∧ e.streamKey = "imu".toList) ∧
          e.windowStart = 1700000000000000000 ∧ e.windowEnd = 1700000010000000000 := by
  intro store
  have htimes : anchorEventTimes wholeService store "device".toList doorAnchor =
      .ok [1700000000000000000] := by decide +kernel
  have hrecorded : ∃ e ∈ events (runDetectionOnce wholeService store (fun _ _ _ => 0) doorJobs none),
      (e.jobId = 1 ∧ e.deviceId = "device".toList ∧ e.streamKey = "imu".toList) ∧
        e.windowStart = 1700000000000000000 ∧ e.windowEnd = 1700000010000000000 := by
    decide +kernel
  have hconfig : configOf wholeService (firstJob doorRequest) = .ok doorConfig := rfl
  refine (anchored_recorded_iff_crosses firstJob_mem_doorJobs (.inl rfl) hconfig rfl htimes
    List.mem_cons_self).mpr fun _ => ?_
  exact (anchored_recorded firstJob_mem_doorJobs (.inl rfl) hconfig rfl htimes
    List.mem_cons_self).mp hrecorded

/-- No point at all in the ten seconds. -/
theorem anchored_nothing_not_recorded :
    let store := metricStore [pointOf "door" 1700000000000000]
    anchorEventTimes wholeService store "device".toList doorAnchor = .ok [1700000000000000000] ∧
    ¬(Lacking wholeService.reader store "device".toList "imu".toList []
        1700000000000000000 1700000010000000000 2 →
      ∃ e ∈ events (runDetectionOnce wholeService store (fun _ _ _ => 0) doorJobs none),
        (e.jobId = 1 ∧ e.deviceId = "device".toList ∧ e.streamKey = "imu".toList) ∧
          e.windowStart = 1700000000000000000 ∧ e.windowEnd = 1700000010000000000) := by
  intro store
  have hlacking : Lacking wholeService.reader store "device".toList "imu".toList []
      1700000000000000000 1700000010000000000 2 := by decide +kernel
  have hnone : ¬∃ e ∈ events (runDetectionOnce wholeService store (fun _ _ _ => 0) doorJobs none),
      (e.jobId = 1 ∧ e.deviceId = "device".toList ∧ e.streamKey = "imu".toList) ∧
        e.windowStart = 1700000000000000000 ∧ e.windowEnd = 1700000010000000000 := by
    decide +kernel
  exact ⟨by decide +kernel, fun h => hnone (h hlacking)⟩

end Aetus.Anomaly
