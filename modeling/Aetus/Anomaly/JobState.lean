import Aetus.Anomaly.Anchors
import Aetus.Anomaly.CutOff
import Aetus.Base.Register
import Mathlib.Data.Int.ConditionallyCompleteOrder

/-!
The state of a job, which every window that is evaluated for it overwrites with its end. The last
end never goes back, and is the latest, exactly when the windows come in this order.
-/

set_option autoImplicit false

namespace Aetus.Anomaly
open Aetus.Base Aetus.Postgres

variable {F : Type}

/-- `last_window_end`, which may be missing. -/
def Tables.lastWindowEnd {floats : Floats F} (tables : Tables floats) (jobId : Nat) :
    WithBot Timestamptz :=
  ((findBy (·.jobId) jobId tables.jobState.rows).bind (·.lastWindowEnd)).elim ⊥ (↑·)

def NumericWindow.endTime (window : NumericWindow F) : Timestamptz := toTimestamptz window.windowEnd

/-- A call of `run_detection_once`, with what is stored and configured when it comes. -/
structure DetectionRun (F : Type) where
  telemetry : Telemetry
  clock : Clock
  jobs : Jobs
  onlyJobId : Option Nat

def DetectionRun.run (service : Service F) (call : DetectionRun F) : Run F :=
  runDetectionOnce service call.telemetry call.clock call.jobs call.onlyJobId

def statements (service : Service F) (calls : List (DetectionRun F)) : List (Step F) :=
  calls.flatMap fun call => (call.run service).done

def Tables.afterRuns {floats : Floats F} (tables : Tables floats) (service : Service F)
    (calls : List (DetectionRun F)) : Tables floats :=
  (statements service calls).foldl Tables.perform tables

def streamWindows (service : Service F) (telemetry : Telemetry) (clock : Clock) (job : JobRecord)
    (config : DetectorConfig F) (stream : List Char × List Char) :
    Except Failure (List (NumericWindow F)) :=
  let now := clock job.jobId stream.1 stream.2
  (loadWindows service telemetry job job.channels config stream.1 stream.2 now).map
    (windowsToScan job now)

/-- What a run evaluates for a job: the windows whose ends are written, a group for each stream, and
the window whose event is refused, if there is one. -/
structure JobScan (F : Type) where
  written : List (List (NumericWindow F))
  refused : Option (NumericWindow F)

def JobScan.evaluated (scan : JobScan F) : List (NumericWindow F) :=
  scan.written.flatten ++ scan.refused.toList

/-- Stream after stream, up to one whose windows cannot be read or that has an event that is
refused. -/
def scanOf (service : Service F) (telemetry : Telemetry) (clock : Clock) (job : JobRecord)
    (config : DetectorConfig F) : List (List Char × List Char) → JobScan F
  | [] => ⟨[], none⟩
  | stream :: streams =>
    match streamWindows service telemetry clock job config stream with
    | .error _ => ⟨[], none⟩
    | .ok windows =>
      match windows.find? (fun window => !passes service job config stream window) with
      | some refused => ⟨[windows.takeWhile (passes service job config stream)], some refused⟩
      | none =>
        let rest := scanOf service telemetry clock job config streams
        ⟨windows :: rest.written, rest.refused⟩

def jobScan (service : Service F) (telemetry : Telemetry) (clock : Clock) (job : JobRecord) :
    JobScan F :=
  if isSupported job.detectorType then
    match configOf service job with
    | .error _ => ⟨[], none⟩
    | .ok config => scanOf service telemetry clock job config (job.devices ×ˢ job.streams)
  else ⟨[], none⟩

def DetectionRun.Reaches (service : Service F) (call : DetectionRun F) (job : JobRecord) : Prop :=
  Effects.Reached (JobPasses service call.telemetry) (call.jobs.selected call.onlyJobId).enabledJobs
    job

def DetectionRun.scan (service : Service F) (call : DetectionRun F) (job : JobRecord) : JobScan F :=
  jobScan service call.telemetry call.clock job

/-- The last window end never decreases, from one statement to the next, and after a run it is the
latest end of the windows that the run has evaluated for the job. -/
structure KeepsLatest {floats : Floats F} (service : Service F) (tables : Tables floats)
    (calls : List (DetectionRun F)) (jobId : Nat) : Prop where
  monotone : Monotone fun n =>
    (((statements service calls).take n).foldl Tables.perform tables).lastWindowEnd jobId
  latest : ∀ before call later, calls = before ++ call :: later →
    ∀ job, call.Reaches service job → job.jobId = jobId →
      (call.scan service job).evaluated ≠ [] → ∃ latest : Timestamptz,
        (tables.afterRuns service (before ++ [call])).lastWindowEnd jobId = latest ∧
        IsGreatest {time | ∃ window ∈ (call.scan service job).evaluated, window.endTime = time} latest

/-- No window ends before what is stored, the windows of a stream end together, those of a stream do
not end before those of the streams that come before it, and a window whose event is refused ends no
later than one that is written or, where there is none, when the stored one does. -/
structure InOrder (stored : WithBot Timestamptz) (scan : JobScan F) : Prop where
  stored_le : ∀ group ∈ scan.written, ∀ window ∈ group, stored ≤ window.endTime
  together : ∀ group ∈ scan.written, ∀ window ∈ group, ∀ window' ∈ group,
    window.endTime = window'.endTime
  streams : scan.written.Pairwise fun group group' => ∀ window ∈ group, ∀ window' ∈ group',
    window.endTime ≤ window'.endTime
  refused : ∀ refused ∈ scan.refused,
    (∃ window ∈ scan.written.flatten, refused.endTime ≤ window.endTime) ∨
      scan.written.flatten = [] ∧ stored = refused.endTime

variable {service : Service F} {telemetry : Telemetry} {clock : Clock} {job : JobRecord}
  {config : DetectorConfig F} {stream : List Char × List Char} {windows : List (NumericWindow F)}
  {call : DetectionRun F} {calls : List (DetectionRun F)} {jobId : Nat} {floats : Floats F}
  {tables : Tables floats}

/-! The state as a register -/

def Step.windowEndOf? (jobId : Nat) : Step F → Option Timestamptz
  | .jobState id windowEnd => if id = jobId then some (toTimestamptz windowEnd) else none
  | _ => none

theorem perform_lastWindowEnd (step : Step F) : (tables.perform step).lastWindowEnd jobId =
    (step.windowEndOf? jobId).elim (tables.lastWindowEnd jobId) (↑·) := by
  cases step with
  | jobScanned => rfl
  | jobSkipped => rfl
  | windowScanned => rfl
  | event e =>
    show (tables.upsertDetectionEvent e).lastWindowEnd jobId = tables.lastWindowEnd jobId
    unfold Tables.upsertDetectionEvent Tables.enqueueWebhooks Tables.lastWindowEnd
    dsimp only
    split <;> rfl
  | jobState id windowEnd =>
    have hfind : findBy (·.jobId) jobId (tables.perform (.jobState id windowEnd)).jobState.rows = _ :=
      Upserts.findBy_upsertRows (u := jobStateUpserts)
    rw [Tables.lastWindowEnd, hfind]
    by_cases hid : id = jobId
    · subst hid
      cases findBy jobStateUpserts.key id tables.jobState.rows <;>
        simp [Step.windowEndOf?, jobStateUpserts]
    · simp [Step.windowEndOf?, hid, jobStateUpserts, Tables.lastWindowEnd]

theorem foldl_lastWindowEnd (steps : List (Step F)) :
    (steps.foldl Tables.perform tables).lastWindowEnd jobId =
      written (Step.windowEndOf? jobId) (tables.lastWindowEnd jobId) steps :=
  (List.foldl_hom (Tables.lastWindowEnd · jobId) fun _ step => (perform_lastWindowEnd step).symm).symm

/-! What is written of a job -/

theorem seen_scanWindow (hsupported : isSupported job.detectorType = true)
    (window : NumericWindow F) :
    (scanWindow service job config stream.1 stream.2 window).seen (Step.windowEndOf? jobId) =
      if passes service job config stream window = true ∧ job.jobId = jobId then [window.endTime]
      else [] := by
  obtain ⟨result, hresult⟩ := evaluate_of_isSupported service.floats hsupported window.points config
  rw [scanWindow, hresult, Effects.seen_andThen, passes, crosses, hresult]
  dsimp only [Effects.attempt]
  by_cases hcrossed : result.crossed = true
  · by_cases hstored : service.storesEvent stream.1 stream.2 window.channelKey = true <;>
      by_cases hid : job.jobId = jobId <;>
      simp [Effects.seen, Effects.acts, List.filterMap_cons, Step.windowEndOf?, hid, hcrossed, hstored,
        Service.upsertDetectionEvent, eventInsert, NumericWindow.endTime]
  · by_cases hid : job.jobId = jobId <;>
      simp [Effects.seen, Effects.acts, List.filterMap_cons, Step.windowEndOf?, hid, hcrossed,
        NumericWindow.endTime]

theorem scanStream_eq_attempt :
    scanStream service telemetry clock job job.channels config stream.1 stream.2 =
      .attempt (streamWindows service telemetry clock job config stream) fun windows =>
        .forEach (scanWindow service job config stream.1 stream.2) windows := by
  unfold scanStream streamWindows
  dsimp only
  cases loadWindows service telemetry job job.channels config stream.1 stream.2
    (clock job.jobId stream.1 stream.2) <;> rfl

theorem seen_scanWindows (hsupported : isSupported job.detectorType = true)
    (windows : List (NumericWindow F)) :
    (Effects.forEach (scanWindow service job config stream.1 stream.2) windows).seen
        (Step.windowEndOf? jobId) =
      if job.jobId = jobId then
        (windows.takeWhile (passes service job config stream)).map NumericWindow.endTime
      else [] := by
  rw [Effects.seen_forEach_takeWhile (p := passes service job config stream)
    (fun window _ => failure_scanWindow hsupported) fun window _ hrefused => by
      rw [seen_scanWindow hsupported, hrefused]
      simp]
  have hpassing : ∀ window ∈ windows.takeWhile (passes service job config stream),
      (scanWindow service job config stream.1 stream.2 window).seen (Step.windowEndOf? jobId) =
        if job.jobId = jobId then [window.endTime] else [] := by
    intro window hwindow
    rw [seen_scanWindow hsupported, List.mem_takeWhile_imp hwindow]
    simp
  rw [List.flatMap_congr hpassing]
  by_cases hid : job.jobId = jobId
  · simp only [if_pos hid]
    exact List.map_eq_flatMap.symm
  · simp [hid]

theorem seen_scanStreams (hsupported : isSupported job.detectorType = true)
    (streams : List (List Char × List Char)) :
    (Effects.forEach (fun stream =>
      scanStream service telemetry clock job job.channels config stream.1 stream.2) streams).seen
        (Step.windowEndOf? jobId) =
      if job.jobId = jobId then
        (scanOf service telemetry clock job config streams).written.flatten.map NumericWindow.endTime
      else [] := by
  induction streams with
  | nil => exact (ite_self _).symm
  | cons stream streams ih =>
    rw [Effects.forEach, Effects.seen_andThen, ih, scanStream_eq_attempt, scanOf]
    cases hread : streamWindows service telemetry clock job config stream with
    | error failure => exact (ite_self _).symm
    | ok windows =>
      rw [Effects.attempt_ok, seen_scanWindows hsupported]
      cases hfind : windows.find? fun window => !passes service job config stream window with
      | none =>
        have hall : ∀ window ∈ windows, passes service job config stream window = true := by
          simpa using hfind
        have hfailure : (Effects.forEach (scanWindow service job config stream.1 stream.2)
            windows).failure = none :=
          Effects.failure_forEach.mpr fun window hwindow =>
            (failure_scanWindow hsupported).mpr (hall window hwindow)
        rw [hfailure, List.takeWhile_eq_self_iff.mpr hall]
        simp only [hfind, Option.isNone_none, if_true, List.flatten_cons, List.map_append]
        by_cases hid : job.jobId = jobId <;> simp only [hid, if_true, if_false, List.append_nil]
      | some refused =>
        have hrefused : passes service job config stream refused = false := by
          simpa using List.find?_some hfind
        have hfailure : (Effects.forEach (scanWindow service job config stream.1 stream.2)
            windows).failure.isNone = false := by
          refine Bool.eq_false_iff.mpr fun hnone => ?_
          have hpasses := (failure_scanWindow hsupported).mp (Effects.failure_forEach.mp
            (Option.isNone_iff_eq_none.mp hnone) refused (List.mem_of_find?_eq_some hfind))
          rw [hrefused] at hpasses
          cases hpasses
        rw [hfailure]
        simp only [hfind, Bool.false_eq_true, if_false, List.flatten_singleton, List.append_nil]

theorem jobScan_of_skipped
    (h : ¬(isSupported job.detectorType = true ∧ job.devices ≠ [] ∧ job.streams ≠ [])) :
    (jobScan service telemetry clock job).written = [] := by
  unfold jobScan
  split
  · next hsupported =>
    have hempty : job.devices ×ˢ job.streams = [] := by
      rw [List.eq_nil_iff_forall_not_mem]
      rintro ⟨deviceId, streamKey⟩ hmem
      obtain ⟨hdevice, hkey⟩ := List.pair_mem_product.mp hmem
      exact h ⟨hsupported, List.ne_nil_of_mem hdevice, List.ne_nil_of_mem hkey⟩
    rw [hempty]
    split <;> rfl
  · rfl

theorem seen_runJob : (runJob service telemetry clock job).seen (Step.windowEndOf? jobId) =
    if job.jobId = jobId then
      (jobScan service telemetry clock job).written.flatten.map NumericWindow.endTime
    else [] := by
  by_cases h : isSupported job.detectorType = true ∧ job.devices ≠ [] ∧ job.streams ≠ []
  · obtain ⟨hsupported, hdevices, hstreams⟩ := h
    unfold jobScan
    rw [runJob_of_scanned hsupported hdevices hstreams, if_pos hsupported, Effects.seen_andThen]
    cases hconfig : configOf service job with
    | error e => simp [Effects.attempt, Effects.seen, Effects.acts, Step.windowEndOf?]
    | ok config =>
      exact seen_scanStreams hsupported (job.devices ×ˢ job.streams)
  · rw [runJob_of_skipped h, jobScan_of_skipped h]
    simp [Effects.seen, Effects.acts, List.filterMap_cons, Step.windowEndOf?]

theorem seen_run_of_reaches (h : call.Reaches service job) :
    (call.run service).seen (Step.windowEndOf? job.jobId) =
      (call.scan service job).written.flatten.map NumericWindow.endTime := by
  have hother : ∀ other ∈ (call.jobs.selected call.onlyJobId).enabledJobs, other ≠ job →
      (runJob service call.telemetry call.clock other).seen (Step.windowEndOf? job.jobId) = [] := by
    intro other hmem hne
    rw [seen_runJob, if_neg]
    exact fun hid => hne (enabledJobs_eq (Effects.mem_of_reached h) hmem hid)
  have hreached : Effects.Reached
      (fun job => (runJob service call.telemetry call.clock job).failure = none)
      (call.jobs.selected call.onlyJobId).enabledJobs job :=
    h.imp fun _ _ => failure_runJob.mpr
  rw [DetectionRun.run, runDetectionOnce_selected, runDetectionOnce_none,
    (Effects.seen_forEach_of_others_silent enabledJobs_nodup hother).1 hreached, seen_runJob,
    if_pos rfl, DetectionRun.scan]

theorem seen_run_of_not_reaches (h : ∀ job, call.Reaches service job → job.jobId ≠ jobId) :
    (call.run service).seen (Step.windowEndOf? jobId) = [] := by
  rw [DetectionRun.run, runDetectionOnce_selected, runDetectionOnce_none]
  by_cases hjob : ∃ job ∈ (call.jobs.selected call.onlyJobId).enabledJobs, job.jobId = jobId
  · obtain ⟨job, hmem, rfl⟩ := hjob
    refine (Effects.seen_forEach_of_others_silent enabledJobs_nodup fun other hother hne => ?_).2
      fun hreached => h job (hreached.imp fun _ _ => failure_runJob.mp) rfl
    rw [seen_runJob, if_neg]
    exact fun hid => hne (enabledJobs_eq hmem hother hid)
  · refine Effects.seen_forEach_of_silent fun job hmem => ?_
    rw [seen_runJob, if_neg]
    exact fun hid => hjob ⟨job, hmem, hid⟩

/-! The windows of one stream -/

theorem numericWindows_ends {reader : Reader F} {deviceId streamKey : List Char}
    {channels : List (List Char)} {windowSeconds now : Int} {maxPoints : Nat}
    (h : numericWindows reader telemetry deviceId streamKey channels windowSeconds maxPoints now =
      .ok windows) : ∃ stop, ∀ window ∈ windows, window.windowEnd = stop := by
  unfold numericWindows at h
  split at h
  · cases h
  · next metric _ =>
    split at h
    · obtain rfl := Except.ok.inj h
      exact ⟨metric.windowEnd, List.forall_mem_singleton.mpr rfl⟩
    · unfold signalWindows at h
      split at h
      · obtain rfl := Except.ok.inj h
        exact ⟨0, fun _ hwindow => absurd hwindow List.not_mem_nil⟩
      · exact ⟨_, fun _ hwindow => (signalWindowsBetween_bounds h hwindow).2⟩

theorem anchorEventTimes_newestFirst {deviceId : List Char} {anchor : WindowAnchorConfig F}
    {anchorTimes : List Int}
    (h : anchorEventTimes service telemetry deviceId anchor = .ok anchorTimes) :
    anchorTimes.Pairwise (· ≥ ·) := by
  unfold anchorEventTimes at h
  dsimp only at h
  cases hlimit : limit (eventLimit anchor.maxEvents)
      ((telemetry.points.filter (service.isAnchor deviceId anchor)).insertionSort
        fun a b => b.eventTime ≤ a.eventTime) with
  | error e =>
    rw [hlimit] at h
    cases h
  | ok rows =>
    rw [hlimit] at h
    obtain rfl := Except.ok.inj h
    have : Std.Total fun a b : StoredPoint => b.eventTime ≤ a.eventTime :=
      ⟨fun a b => le_total b.eventTime a.eventTime⟩
    have : IsTrans StoredPoint fun a b => b.eventTime ≤ a.eventTime :=
      ⟨fun _ _ _ hab hbc => hbc.trans hab⟩
    have hsorted := (telemetry.points.filter (service.isAnchor deviceId anchor)).pairwise_insertionSort
      fun a b => b.eventTime ≤ a.eventTime
    rw [limit_ok hlimit, List.pairwise_map]
    refine (hsorted.sublist (List.take_sublist _ _)).imp fun hle => ?_
    exact Int.mul_le_mul_of_nonneg_left hle (by decide)

theorem anchoredWindows_newestFirst {deviceId streamKey : List Char} {channels : List (List Char)}
    {anchor : WindowAnchorConfig F} {maxPoints : Nat}
    (h : anchoredWindows service telemetry deviceId streamKey channels anchor maxPoints = .ok windows) :
    windows.Pairwise fun a b => b.windowEnd ≤ a.windowEnd := by
  obtain ⟨anchorTimes, htimes, -⟩ := except_bind_eq_ok.mp h
  obtain ⟨lists, hlists, rfl⟩ := anchoredWindows_eq_flatten htimes h
  have hread := mapM_ok hlists
  have hends {time : Int} {group : List (NumericWindow F)}
      (hgroup : numericWindowsBetween service.reader telemetry deviceId streamKey channels
        (anchor.start time) (anchor.stop time) maxPoints = .ok group)
      (window : NumericWindow F) (hwindow : window ∈ group) : window.windowEnd = anchor.stop time :=
    (numericWindowsBetween_bounds hgroup hwindow).2
  have hnewest := anchorEventTimes_newestFirst htimes
  clear htimes hlists h
  induction hread with
  | nil => exact .nil
  | cons hgroup hrest ih =>
    obtain ⟨hfirst, hnewest⟩ := List.pairwise_cons.mp hnewest
    rw [List.flatten_cons, List.pairwise_append]
    refine ⟨List.pairwise_of_forall_mem_list fun a ha b hb => ?_, ih hnewest, fun a ha b hb => ?_⟩
    · rw [hends hgroup a ha, hends hgroup b hb]
    · obtain ⟨group, hmem, hb⟩ := List.mem_flatten.mp hb
      obtain ⟨time, htime, hread⟩ := forall₂_exists_left hrest hmem
      rw [hends hgroup a ha, hends hread b hb]
      exact Int.add_le_add_right (hfirst time htime) _

theorem streamWindows_newestFirst
    (h : streamWindows service telemetry clock job config stream = .ok windows) :
    (windows.map NumericWindow.endTime).Pairwise (· ≥ ·) := by
  rw [List.pairwise_map]
  have hends : windows.Pairwise fun a b => b.windowEnd ≤ a.windowEnd := by
    unfold streamWindows at h
    dsimp only at h
    cases hload : loadWindows service telemetry job job.channels config stream.1 stream.2
        (clock job.jobId stream.1 stream.2) with
    | error e =>
      rw [hload] at h
      cases h
    | ok loaded =>
      rw [hload] at h
      obtain rfl := Except.ok.inj h
      unfold windowsToScan
      split
      · exact List.pairwise_singleton _ _
      · unfold loadWindows at hload
        split at hload
        · exact anchoredWindows_newestFirst hload
        · obtain ⟨stop, hstop⟩ := numericWindows_ends hload
          refine List.pairwise_of_forall_mem_list fun a ha b hb => ?_
          rw [hstop a ha, hstop b hb]
  exact hends.imp fun hle => Int.ediv_le_ediv (by decide) hle

theorem scanOf_newestFirst {streams : List (List Char × List Char)} :
    ∀ group ∈ (scanOf service telemetry clock job config streams).written,
      (group.map NumericWindow.endTime).Pairwise (· ≥ ·) := by
  induction streams with
  | nil => exact fun _ hgroup => absurd hgroup List.not_mem_nil
  | cons stream streams ih =>
    rw [scanOf]
    cases hread : streamWindows service telemetry clock job config stream with
    | error failure => exact fun _ hgroup => absurd hgroup List.not_mem_nil
    | ok windows =>
      have hnewest := streamWindows_newestFirst hread
      dsimp only
      split
      · exact List.forall_mem_singleton.mpr
          (hnewest.sublist ((List.takeWhile_sublist _).map NumericWindow.endTime))
      · exact List.forall_mem_cons.mpr ⟨hnewest, ih⟩

theorem jobScan_newestFirst : ∀ group ∈ (jobScan service telemetry clock job).written,
    (group.map NumericWindow.endTime).Pairwise (· ≥ ·) := by
  intro group hgroup
  unfold jobScan at hgroup
  split at hgroup
  · split at hgroup
    · cases hgroup
    · exact scanOf_newestFirst group hgroup
  · cases hgroup

theorem ascends_written_iff {stored : WithBot Timestamptz} {written : List (List (NumericWindow F))}
    (h : ∀ group ∈ written, (group.map NumericWindow.endTime).Pairwise (· ≥ ·)) :
    Ascends stored (written.flatten.map NumericWindow.endTime) ↔
      (∀ group ∈ written, ∀ window ∈ group, stored ≤ window.endTime) ∧
      (∀ group ∈ written, ∀ window ∈ group, ∀ window' ∈ group, window.endTime = window'.endTime) ∧
      written.Pairwise fun group group' => ∀ window ∈ group, ∀ window' ∈ group',
        window.endTime ≤ window'.endTime := by
  rw [List.map_flatten, ascends_flatten (List.forall_mem_map.mpr h)]
  simp only [List.forall_mem_map, List.pairwise_map]

/-! Runs one after the other -/

/-- After a run that comes to the job, the end of the last window that was written is stored. -/
theorem lastWindowEnd_run (before : List (DetectionRun F)) (hreaches : call.Reaches service job) :
    (tables.afterRuns service (before ++ [call])).lastWindowEnd job.jobId =
      ((call.scan service job).written.flatten.map NumericWindow.endTime).getLast?.elim
        ((tables.afterRuns service before).lastWindowEnd job.jobId) (↑·) := by
  have hseen : (call.run service).done.filterMap (Step.windowEndOf? job.jobId) = _ :=
    seen_run_of_reaches hreaches
  rw [Tables.afterRuns, statements, List.flatMap_append, List.foldl_append, List.flatMap_singleton,
    foldl_lastWindowEnd, written_eq_getLast?, hseen]
  rfl

/-- The stored end is the latest of the windows that were evaluated, where those that were written
ascend, exactly if it is known of the one that was refused. -/
theorem latest_iff_refused {stored : WithBot Timestamptz} {scan : JobScan F}
    (hascends : Ascends stored (scan.written.flatten.map NumericWindow.endTime)) :
    (scan.evaluated ≠ [] → ∃ latest : Timestamptz,
      (scan.written.flatten.map NumericWindow.endTime).getLast?.elim stored (↑·) = latest ∧
      IsGreatest {time | ∃ window ∈ scan.evaluated, window.endTime = time} latest) ↔
      ∀ refused ∈ scan.refused,
        (∃ window ∈ scan.written.flatten, refused.endTime ≤ window.endTime) ∨
          scan.written.flatten = [] ∧ stored = refused.endTime := by
  cases hlast : (scan.written.flatten.map NumericWindow.endTime).getLast? with
  | none =>
    have hnone : scan.written.flatten = [] :=
      List.map_eq_nil_iff.mp (List.getLast?_eq_none_iff.mp hlast)
    cases hrefused : scan.refused with
    | none => simp [JobScan.evaluated, hnone, hrefused]
    | some refused =>
      simp only [JobScan.evaluated, hnone, hrefused, List.nil_append, Option.toList_some, ne_eq,
        List.cons_ne_self, not_false_eq_true, forall_true_left, List.mem_singleton, exists_eq_left,
        List.not_mem_nil, false_and, exists_false, true_and, false_or, Option.mem_some_iff,
        forall_eq', Option.elim_none]
      constructor
      · rintro ⟨latest, hstored, hgreatest⟩
        rw [hstored, show refused.endTime = latest from hgreatest.1]
      · exact fun hstored => ⟨_, hstored, rfl, fun _ htime => htime.ge⟩
  | some last =>
    have hgreatest := hascends.isGreatest hlast
    obtain ⟨window, hwindow, rfl⟩ := List.mem_map.mp hgreatest.1
    have hsome : scan.written.flatten ≠ [] := List.ne_nil_of_mem hwindow
    have hbound : ∀ other ∈ scan.written.flatten, other.endTime ≤ window.endTime := fun other hother =>
      hgreatest.2 (List.mem_map_of_mem hother)
    constructor
    · intro hlatest refused hrefused
      have hmem : refused ∈ scan.evaluated :=
        List.mem_append_right _ (Option.mem_toList.mpr hrefused)
      obtain ⟨latest, hstored, hall⟩ := hlatest (List.ne_nil_of_mem hmem)
      obtain rfl := WithBot.coe_inj.mp hstored
      exact .inl ⟨window, hwindow, hall.2 ⟨refused, hmem, rfl⟩⟩
    · intro hrefused _
      refine ⟨window.endTime, rfl, ⟨window, List.mem_append_left _ hwindow, rfl⟩, ?_⟩
      rintro _ ⟨other, hother, rfl⟩
      rcases List.mem_append.mp hother with hwritten | hlast
      · exact hbound other hwritten
      · obtain ⟨later, hlater, hle⟩ :=
          (hrefused other (Option.mem_toList.mp hlast)).resolve_right fun h => hsome h.1
        exact hle.trans (hbound later hlater)

theorem ascends_run_iff {stored : WithBot Timestamptz} :
    Ascends stored ((call.run service).seen (Step.windowEndOf? jobId)) ↔
      ∀ job, call.Reaches service job → job.jobId = jobId →
        Ascends stored ((call.scan service job).written.flatten.map NumericWindow.endTime) := by
  constructor
  · rintro h job hreaches rfl
    rwa [seen_run_of_reaches hreaches] at h
  · intro h
    by_cases hjob : ∃ job, call.Reaches service job ∧ job.jobId = jobId
    · obtain ⟨job, hreaches, rfl⟩ := hjob
      rw [seen_run_of_reaches hreaches]
      exact h job hreaches rfl
    · rw [seen_run_of_not_reaches fun job hreaches hid => hjob ⟨job, hreaches, hid⟩]
      exact ascends_nil

theorem monotone_lastWindowEnd_iff (calls : List (DetectionRun F)) (jobId : Nat) :
    (Monotone fun n =>
      (((statements service calls).take n).foldl Tables.perform tables).lastWindowEnd jobId) ↔
      ∀ before call later, calls = before ++ call :: later →
        ∀ job, call.Reaches service job → job.jobId = jobId →
          Ascends ((tables.afterRuns service before).lastWindowEnd jobId)
            ((call.scan service job).written.flatten.map NumericWindow.endTime) := by
  simp only [foldl_lastWindowEnd, monotone_written_iff, Tables.afterRuns, ← ascends_run_iff]
  exact ascends_flatMap_iff

theorem inOrder_iff {stored : WithBot Timestamptz} : InOrder stored (call.scan service job) ↔
    Ascends stored ((call.scan service job).written.flatten.map NumericWindow.endTime) ∧
      ∀ refused ∈ (call.scan service job).refused,
        (∃ window ∈ (call.scan service job).written.flatten, refused.endTime ≤ window.endTime) ∨
          (call.scan service job).written.flatten = [] ∧ stored = refused.endTime := by
  have hnewest : ∀ group ∈ (call.scan service job).written, _ := jobScan_newestFirst
  rw [ascends_written_iff hnewest]
  constructor
  · exact fun h => ⟨⟨h.stored_le, h.together, h.streams⟩, h.refused⟩
  · rintro ⟨⟨hstored, htogether, hstreams⟩, hrefused⟩
    exact ⟨hstored, htogether, hstreams, hrefused⟩

/-- The last window end of a job keeps the latest end through any runs exactly when, in each of
them, the windows of the job come in order. -/
theorem keepsLatest_iff_inOrder (service : Service F) (tables : Tables floats)
    (calls : List (DetectionRun F)) (jobId : Nat) :
    KeepsLatest service tables calls jobId ↔
      ∀ before call later, calls = before ++ call :: later →
        ∀ job, call.Reaches service job → job.jobId = jobId →
          InOrder ((tables.afterRuns service before).lastWindowEnd jobId)
            (call.scan service job) := by
  constructor
  · rintro h before call later hsplit job hreaches rfl
    have hascends := (monotone_lastWindowEnd_iff calls job.jobId).mp h.monotone before call later hsplit
      job hreaches rfl
    refine inOrder_iff.mpr ⟨hascends, (latest_iff_refused hascends).mp ?_⟩
    rw [← lastWindowEnd_run before hreaches]
    exact h.latest before call later hsplit job hreaches rfl
  · intro h
    refine ⟨(monotone_lastWindowEnd_iff calls jobId).mpr fun before call later hsplit job hreaches hid =>
      (inOrder_iff.mp (h before call later hsplit job hreaches hid)).1, ?_⟩
    rintro before call later hsplit job hreaches rfl
    obtain ⟨hascends, hrefused⟩ := inOrder_iff.mp (h before call later hsplit job hreaches rfl)
    rw [lastWindowEnd_run before hreaches]
    exact (latest_iff_refused hascends).mpr hrefused

/-! A door that opens twice -/

structure TelemetryGrows (before after : Telemetry) : Prop where
  points : before.points ⊆ after.points
  frames : before.frames ⊆ after.frames
  newPoints : ∀ point ∈ after.points, point ∉ before.points →
    (∀ old ∈ before.points, old.eventTime ≤ point.eventTime) ∧
    ∀ old ∈ before.frames, old.lastSampleTime binary64 ≤ point.eventTime
  newFrames : ∀ frame ∈ after.frames, frame ∉ before.frames →
    (∀ old ∈ before.points, old.eventTime ≤ frame.eventTime) ∧
    ∀ old ∈ before.frames, old.lastSampleTime binary64 ≤ frame.eventTime

/-- The windows of the two events come newest first, and the older end is what stays. -/
theorem door_goesBack :
    ¬∀ (calls : List (DetectionRun Int)),
      calls.Pairwise (fun earlier later => TelemetryGrows earlier.telemetry later.telemetry) →
        ∀ jobId, KeepsLatest wholeService (.fresh wholeService.floats []) calls jobId := by
  intro h
  let store := metricStore [pointOf "door" 1700000000000000, pointOf "imu" 1700000001000000,
    pointOf "door" 1700000100000000, pointOf "imu" 1700000101000000]
  let call : DetectionRun Int := ⟨store, fun _ _ _ => 0, doorJobs, none⟩
  have hmonotone := (h [call] (List.pairwise_singleton _ _) 1).monotone
  have hnewest : (((statements wholeService [call]).take 4).foldl Tables.perform
      (.fresh wholeService.floats [])).lastWindowEnd 1 = (1700000110000000 : Int) := by
    decide +kernel
  have holder : (((statements wholeService [call]).take 7).foldl Tables.perform
      (.fresh wholeService.floats [])).lastWindowEnd 1 = (1700000010000000 : Int) := by
    decide +kernel
  have hle := hmonotone (show 4 ≤ 7 by decide)
  dsimp only at hle
  rw [hnewest, holder] at hle
  exact absurd (WithBot.coe_le_coe.mp hle) (by decide)

end Aetus.Anomaly
