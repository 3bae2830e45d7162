import Aetus.Anomaly.Detectors
import Aetus.Anomaly.Jobs
import Aetus.Anomaly.Windows
import Aetus.Base.Effects
import Aetus.Base.Lists

/-!
The anomaly service's worker.rs: one detection run over the enabled jobs. What a run does is
the list of its statements, up to the error that ends it.
-/

set_option autoImplicit false

namespace Aetus.Anomaly
open Aetus.Base Aetus.Postgres

variable {F : Type}

/-- What a run computes with: doubles, `serde_json::from_str` on a text of channels, and of PostgreSQL
how it rounds its doubles and whether it takes the rows of an event of a device, a stream and a
channel. It refuses a text that has a NUL, and texts that are too long for an index. -/
structure Service (F : Type) where
  floats : Floats F
  number : Double → F
  channelsFromStr : List Char → Except String (List (ChannelDef F))
  rounding : Rounding
  storesEvent : List Char → List Char → Option (List Char) → Bool

def Service.reader (service : Service F) : Reader F :=
  ⟨service.floats.toDoubles, service.number, service.channelsFromStr, service.rounding⟩

def Service.numbers (service : Service F) : Numbers F := ⟨service.floats.ofInt, service.number⟩

def detectorVersion : List Char := "1.0.0".toList

structure EventDetails (F : Type) where
  detector : List Char
  jobKey : List Char
  windowSeconds : Int
  stepSeconds : Int
  lookbackSeconds : Int
  sourceKind : String
  channelKey : Option (List Char)
  truncated : Bool
  anchor : Option (WindowAnchorConfig F)
  result : ResultDetails

structure EventInsert (F : Type) where
  jobId : Nat
  deviceId : List Char
  streamKey : List Char
  channelKey : Option (List Char)
  windowStart : Int
  windowEnd : Int
  severity : List Char
  score : F
  threshold : F
  details : EventDetails F
  detectorType : List Char
  detectorVersion : List Char

/-- What a run does, `upsert_detection_event` and `update_job_state_success` among it; the others
are what it counts. -/
inductive Step (F : Type) where
  | jobScanned
  | jobSkipped
  | windowScanned
  | event (event : EventInsert F)
  | jobState (jobId : Nat) (windowEnd : Int)

abbrev Run (F : Type) := Effects (Step F) Failure

/-- A clock, read where the windows of a job, a device and a stream are loaded. -/
abbrev Clock := Nat → List Char → List Char → Int

/-! repository.rs: the anchors of a device -/

def equalsString (text : List Char) : Ingest.NormalizedValue → Bool
  | .string value => value = text
  | _ => false

def equalsBool (b : Bool) : Ingest.NormalizedValue → Bool
  | .bool value => value = b
  | _ => false

def equalsInt (n : Int) : Ingest.NormalizedValue → Bool
  | .int value => value = n
  | _ => false

def Service.equalsDouble (service : Service F) (x : F) (value : Ingest.NormalizedValue) : Bool :=
  let column := service.reader.columnValue value
  service.floats.le column x && service.floats.le x column

/-- `$n IS NULL OR column = $n` -/
def passesFilter {α : Type} (equals : α → Ingest.NormalizedValue → Bool) (filter : Option α)
    (column : Option Ingest.NormalizedValue) : Bool :=
  filter.all fun wanted => column.any (equals wanted)

def Service.isAnchor (service : Service F) (deviceId : List Char) (anchor : WindowAnchorConfig F)
    (point : StoredPoint) : Bool :=
  point.device = deviceId && point.metric.metricKey = anchor.stream &&
    passesFilter equalsString anchor.valueString point.valueString &&
    passesFilter equalsBool anchor.valueBool point.valueBool &&
    passesFilter equalsInt anchor.valueInt point.valueInt &&
    passesFilter service.equalsDouble anchor.valueDouble point.valueDouble

/-- `max_events as i64` -/
def eventLimit (maxEvents : Nat) : Int :=
  if maxEvents < 2 ^ 63 then maxEvents else maxEvents - 2 ^ 64

def anchorEventTimes (service : Service F) (telemetry : Telemetry) (deviceId : List Char)
    (anchor : WindowAnchorConfig F) : Except Failure (List Int) :=
  let rows := telemetry.points.filter (service.isAnchor deviceId anchor)
  let latestFirst := rows.insertionSort fun a b => b.eventTime ≤ a.eventTime
  (limit (eventLimit anchor.maxEvents) latestFirst).map (List.map fun row => ofTimestamptz row.eventTime)

/-! worker.rs -/

def anchoredWindows (service : Service F) (telemetry : Telemetry) (deviceId streamKey : List Char)
    (channels : List (List Char)) (anchor : WindowAnchorConfig F) (maxPoints : Nat) :
    Except Failure (List (NumericWindow F)) := do
  let anchorTimes ← anchorEventTimes service telemetry deviceId anchor
  let windows ← anchorTimes.mapM fun anchorTime =>
    numericWindowsBetween service.reader telemetry deviceId streamKey channels
      (anchorTime - seconds anchor.preSeconds) (anchorTime + seconds anchor.postSeconds) maxPoints
  return windows.flatten

def loadWindows (service : Service F) (telemetry : Telemetry) (job : JobRecord)
    (channels : List (List Char)) (config : DetectorConfig F) (deviceId streamKey : List Char)
    (now : Int) : Except Failure (List (NumericWindow F)) :=
  match config.anchor with
  | some anchor =>
    anchoredWindows service telemetry deviceId streamKey channels anchor config.maxPoints
  | none =>
    numericWindows service.reader telemetry deviceId streamKey channels job.windowSeconds
      config.maxPoints now

def missingWindow (job : JobRecord) (now : Int) : NumericWindow F where
  sourceKind := "missing"
  channelKey := none
  windowStart := now - seconds job.windowSeconds
  windowEnd := now
  points := []
  truncated := false

/-- The loop of missing_data has a window also where none was loaded. -/
def windowsToScan (job : JobRecord) (now : Int) (windows : List (NumericWindow F)) :
    List (NumericWindow F) :=
  if windows.isEmpty && job.detectorType = "missing_data".toList then [missingWindow job now]
  else windows

def eventInsert (job : JobRecord) (config : DetectorConfig F) (deviceId streamKey : List Char)
    (window : NumericWindow F) (result : DetectionResult F) : EventInsert F where
  jobId := job.jobId
  deviceId := deviceId
  streamKey := streamKey
  channelKey := window.channelKey
  windowStart := window.windowStart
  windowEnd := window.windowEnd
  severity := job.severity
  score := result.score
  threshold := result.threshold
  details := {
    detector := job.detectorType
    jobKey := job.jobKey
    windowSeconds := job.windowSeconds
    stepSeconds := job.stepSeconds
    lookbackSeconds := job.lookbackSeconds
    sourceKind := window.sourceKind
    channelKey := window.channelKey
    truncated := window.truncated
    anchor := config.anchor
    result := result.details }
  detectorType := job.detectorType
  detectorVersion := detectorVersion

/-- The `?` of `upsert_detection_event`. -/
def Service.upsertDetectionEvent (service : Service F) (e : EventInsert F) :
    Except Failure (EventInsert F) :=
  if service.storesEvent e.deviceId e.streamKey e.channelKey then .ok e
  else .error (.bail "error returned from database")

def scanWindow (service : Service F) (job : JobRecord) (config : DetectorConfig F)
    (deviceId streamKey : List Char) (window : NumericWindow F) : Run F :=
  (Effects.acts [.windowScanned]).andThen
    (.attempt (evaluate service.floats job.detectorType window.points config) fun result =>
      if result.crossed then
        .attempt (service.upsertDetectionEvent
          (eventInsert job config deviceId streamKey window result)) fun e =>
            .acts [.event e, .jobState job.jobId window.windowEnd]
      else .acts [.jobState job.jobId window.windowEnd])

def scanStream (service : Service F) (telemetry : Telemetry) (clock : Clock) (job : JobRecord)
    (channels : List (List Char)) (config : DetectorConfig F) (deviceId streamKey : List Char) :
    Run F :=
  let now := clock job.jobId deviceId streamKey
  .attempt (loadWindows service telemetry job channels config deviceId streamKey now) fun windows =>
    .forEach (scanWindow service job config deviceId streamKey) (windowsToScan job now windows)

/-- `serde_json::from_value(job.detector_config.clone())?` -/
def configOf (service : Service F) (job : JobRecord) : Except Failure (DetectorConfig F) :=
  match DetectorConfig.fromValue service.numbers job.detectorConfig with
  | some config => .ok config
  | none => .error (.bail "detector_config")

def selectorFromValue (value : Json) : Selector := (Selector.fromValue value).getD ⟨[], [], []⟩

def JobRecord.devices (job : JobRecord) : List (List Char) :=
  (selectorFromValue job.deviceSelector).firstDevices

def JobRecord.streams (job : JobRecord) : List (List Char) :=
  (selectorFromValue job.streamSelector).firstStreams

def JobRecord.channels (job : JobRecord) : List (List Char) :=
  (selectorFromValue job.streamSelector).channels

def runJob (service : Service F) (telemetry : Telemetry) (clock : Clock) (job : JobRecord) : Run F :=
  (Effects.acts [.jobScanned]).andThen <|
    if !isSupported job.detectorType then .acts [.jobSkipped]
    else if job.devices.isEmpty || job.streams.isEmpty then .acts [.jobSkipped]
    else
      .attempt (configOf service job) fun config =>
        .forEach (fun (deviceId, streamKey) =>
          scanStream service telemetry clock job job.channels config deviceId streamKey)
          (job.devices ×ˢ job.streams)

def runDetectionOnce (service : Service F) (telemetry : Telemetry) (clock : Clock) (jobs : Jobs)
    (onlyJobId : Option Nat) : Run F :=
  .forEach (runJob service telemetry clock)
    (jobs.enabledJobs.filter fun job => onlyJobId.all (· = job.jobId))

structure RunSummary where
  jobsScanned : Nat
  windowsScanned : Nat
  eventsCreated : Nat
  skippedJobs : Nat
  deriving DecidableEq

def runSummary (run : Run F) : Except Failure RunSummary :=
  match run.failure with
  | some e => .error e
  | none => .ok {
      jobsScanned := run.done.countP fun | .jobScanned => true | _ => false
      windowsScanned := run.done.countP fun | .windowScanned => true | _ => false
      eventsCreated := run.done.countP fun | .event _ => true | _ => false
      skippedJobs := run.done.countP fun | .jobSkipped => true | _ => false }

def Step.event? : Step F → Option (EventInsert F)
  | .event e => some e
  | _ => none

def events (run : Run F) : List (EventInsert F) := run.seen Step.event?

/-! What a run comes to -/

variable {service : Service F} {telemetry : Telemetry} {clock : Clock} {jobs : Jobs} {job : JobRecord}
  {channels : List (List Char)} {config : DetectorConfig F} {deviceId streamKey : List Char}
  {window : NumericWindow F} {windows : List (NumericWindow F)} {e : EventInsert F} {now now' : Int}

theorem mem_events {run : Run F} : e ∈ events run ↔ .event e ∈ run.done := by
  rw [events, Effects.seen, List.mem_filterMap]
  constructor
  · rintro ⟨step, hstep, hview⟩
    cases step <;> cases hview
    exact hstep
  · intro h
    exact ⟨.event e, h, rfl⟩

theorem eventsCreated_runSummary {run : Run F} {summary : RunSummary}
    (h : runSummary run = .ok summary) : summary.eventsCreated = (events run).length := by
  unfold runSummary at h
  split at h
  · cases h
  · obtain rfl := Except.ok.inj h
    rw [events, Effects.seen, List.length_filterMap_eq_countP]
    refine List.countP_congr fun step _ => ?_
    cases step <;> simp [Step.event?]

theorem loadWindows_now (now' : Int) :
    loadWindows service telemetry job channels config deviceId streamKey now =
      loadWindows service telemetry job channels config deviceId streamKey now' := by
  unfold loadWindows
  cases config.anchor with
  | none => exact numericWindows_now
  | some anchor => rfl

def crosses (service : Service F) (job : JobRecord) (config : DetectorConfig F)
    (window : NumericWindow F) : Bool :=
  match evaluate service.floats job.detectorType window.points config with
  | .ok result => result.crossed
  | .error _ => false

/-- The loop goes on after a window that does not cross, or whose event PostgreSQL takes. -/
def passes (service : Service F) (job : JobRecord) (config : DetectorConfig F)
    (stream : List Char × List Char) (window : NumericWindow F) : Bool :=
  !crosses service job config window || service.storesEvent stream.1 stream.2 window.channelKey

def StreamPasses (service : Service F) (telemetry : Telemetry) (job : JobRecord)
    (config : DetectorConfig F) (stream : List Char × List Char) : Prop :=
  ∃ windows, loadWindows service telemetry job job.channels config stream.1 stream.2 0 = .ok windows ∧
    ∀ window ∈ windowsToScan job 0 windows, passes service job config stream window = true

/-- The windows of a stream can be read, and PostgreSQL takes the event of the first of them that
crosses. -/
def StreamStores (service : Service F) (telemetry : Telemetry) (job : JobRecord)
    (config : DetectorConfig F) (stream : List Char × List Char) : Prop :=
  ∃ windows, loadWindows service telemetry job job.channels config stream.1 stream.2 0 = .ok windows ∧
    ∀ window ∈ (windowsToScan job 0 windows).find? (crosses service job config),
      service.storesEvent stream.1 stream.2 window.channelKey = true

def JobPasses (service : Service F) (telemetry : Telemetry) (job : JobRecord) : Prop :=
  isSupported job.detectorType = true → job.devices ≠ [] → job.streams ≠ [] →
    ∃ config, configOf service job = .ok config ∧
      ∀ stream ∈ job.devices ×ˢ job.streams, StreamPasses service telemetry job config stream

/-- The run comes to a stream of a job. -/
structure Comes (service : Service F) (telemetry : Telemetry) (jobs : Jobs) (job : JobRecord)
    (config : DetectorConfig F) (deviceId streamKey : List Char) : Prop where
  reachesJob : Effects.Reached (JobPasses service telemetry) jobs.enabledJobs job
  supported : isSupported job.detectorType = true
  configured : configOf service job = .ok config
  reachesStream : Effects.Reached (StreamPasses service telemetry job config)
    (job.devices ×ˢ job.streams) (deviceId, streamKey)

theorem crosses_iff : crosses service job config window = true ↔
    ∃ result, evaluate service.floats job.detectorType window.points config = .ok result ∧
      result.crossed = true := by
  unfold crosses
  cases evaluate service.floats job.detectorType window.points config with
  | error failure => simp
  | ok result => simp

theorem failure_scanWindow (h : isSupported job.detectorType = true) :
    (scanWindow service job config deviceId streamKey window).failure = none ↔
      passes service job config (deviceId, streamKey) window = true := by
  obtain ⟨result, hresult⟩ := evaluate_of_isSupported service.floats h window.points config
  simp only [scanWindow, Effects.failure_andThen, Effects.failure_acts, true_and, hresult,
    Effects.attempt, passes, crosses]
  cases hcrossed : result.crossed with
  | false => simp
  | true =>
    by_cases hstored : service.storesEvent deviceId streamKey window.channelKey = true <;>
      simp [Service.upsertDetectionEvent, eventInsert, hstored]

theorem mem_scanWindow : .event e ∈ (scanWindow service job config deviceId streamKey window).done ↔
    passes service job config (deviceId, streamKey) window = true ∧
      ∃ result, evaluate service.floats job.detectorType window.points config = .ok result ∧
        result.crossed = true ∧ e = eventInsert job config deviceId streamKey window result := by
  simp only [scanWindow, Effects.mem_done_andThen, Effects.done_acts, Effects.failure_acts, true_and,
    List.mem_singleton, reduceCtorEq, false_or]
  cases hresult : evaluate service.floats job.detectorType window.points config with
  | error failure => simp [Effects.attempt]
  | ok result =>
    simp only [passes, crosses, hresult, Effects.attempt, Except.ok.injEq, exists_eq_left']
    cases hcrossed : result.crossed with
    | false => simp
    | true =>
      by_cases hstored : service.storesEvent deviceId streamKey window.channelKey = true <;>
        simp [Service.upsertDetectionEvent, eventInsert, hstored]

/-- Whether the window of the present passes does not depend on the present. -/
theorem forall_windowsToScan_passes (now : Int) {stream : List Char × List Char} :
    (∀ window ∈ windowsToScan job now windows, passes service job config stream window = true) ↔
      ∀ window ∈ windowsToScan job 0 windows, passes service job config stream window = true := by
  unfold windowsToScan
  split
  · simp only [List.forall_mem_singleton]
    rfl
  · rfl

/-- The windows that are loaded do not depend on the clock. -/
theorem scanStream_eq :
    scanStream service telemetry clock job channels config deviceId streamKey =
      .attempt (loadWindows service telemetry job channels config deviceId streamKey 0) fun windows =>
        .forEach (scanWindow service job config deviceId streamKey)
          (windowsToScan job (clock job.jobId deviceId streamKey) windows) := by
  unfold scanStream
  dsimp only
  rw [loadWindows_now 0]

theorem failure_scanStream (h : isSupported job.detectorType = true) :
    (scanStream service telemetry clock job job.channels config deviceId streamKey).failure = none ↔
      StreamPasses service telemetry job config (deviceId, streamKey) := by
  rw [scanStream_eq, StreamPasses]
  cases loadWindows service telemetry job job.channels config deviceId streamKey 0 with
  | error failure => simp [Effects.attempt]
  | ok windows =>
    simp only [Effects.attempt, Effects.failure_forEach, Except.ok.injEq, exists_eq_left',
      failure_scanWindow h]
    exact forall_windowsToScan_passes _

/-- The events of a stream are those of the windows before the first one whose event is refused. -/
theorem mem_scanStream (h : isSupported job.detectorType = true) :
    .event e ∈ (scanStream service telemetry clock job job.channels config deviceId streamKey).done ↔
      ∃ windows, loadWindows service telemetry job job.channels config deviceId streamKey 0 =
          .ok windows ∧
        ∃ window ∈ (windowsToScan job (clock job.jobId deviceId streamKey) windows).takeWhile
            (passes service job config (deviceId, streamKey)),
          ∃ result, evaluate service.floats job.detectorType window.points config = .ok result ∧
            result.crossed = true ∧ e = eventInsert job config deviceId streamKey window result := by
  rw [scanStream_eq]
  cases loadWindows service telemetry job job.channels config deviceId streamKey 0 with
  | error failure => simp [Effects.attempt]
  | ok windows =>
    simp only [Effects.attempt, Effects.mem_done_forEach, failure_scanWindow h, mem_scanWindow,
      Except.ok.injEq, exists_eq_left', Effects.mem_takeWhile_iff, and_assoc]

theorem runJob_of_skipped
    (h : ¬(isSupported job.detectorType = true ∧ job.devices ≠ [] ∧ job.streams ≠ [])) :
    runJob service telemetry clock job = .acts [.jobScanned, .jobSkipped] := by
  unfold runJob
  cases hsupported : isSupported job.detectorType with
  | false => rfl
  | true =>
    have hempty : (job.devices.isEmpty || job.streams.isEmpty) = true := by
      simp only [hsupported, true_and, not_and_or, ne_eq, not_not] at h
      simpa using h
    rw [hempty]
    rfl

theorem runJob_of_scanned (hsupported : isSupported job.detectorType = true)
    (hdevices : job.devices ≠ []) (hstreams : job.streams ≠ []) :
    runJob service telemetry clock job = (Effects.acts [.jobScanned]).andThen
      (.attempt (configOf service job) fun config =>
        .forEach (fun (deviceId, streamKey) =>
          scanStream service telemetry clock job job.channels config deviceId streamKey)
          (job.devices ×ˢ job.streams)) := by
  unfold runJob
  rw [hsupported, List.isEmpty_eq_false_iff.mpr hdevices, List.isEmpty_eq_false_iff.mpr hstreams]
  rfl

/-- Whether a job fails does not depend on the clock. -/
theorem failure_runJob :
    (runJob service telemetry clock job).failure = none ↔ JobPasses service telemetry job := by
  by_cases h : isSupported job.detectorType = true ∧ job.devices ≠ [] ∧ job.streams ≠ []
  · obtain ⟨hsupported, hdevices, hstreams⟩ := h
    rw [runJob_of_scanned hsupported hdevices hstreams, Effects.failure_andThen]
    simp only [Effects.failure_acts, true_and, JobPasses, hsupported, hdevices, hstreams,
      forall_true_left, ne_eq, not_false_eq_true]
    cases hconfig : configOf service job with
    | error failure => simp [Effects.attempt]
    | ok config =>
      simp only [Effects.attempt, Effects.failure_forEach, Except.ok.injEq, exists_eq_left',
        failure_scanStream hsupported]
  · rw [runJob_of_skipped h]
    refine iff_of_true rfl fun hsupported hdevices hstreams => ?_
    exact absurd ⟨hsupported, hdevices, hstreams⟩ h

theorem mem_runJob : .event e ∈ (runJob service telemetry clock job).done ↔
    isSupported job.detectorType = true ∧ ∃ config, configOf service job = .ok config ∧
      ∃ stream, Effects.Reached (StreamPasses service telemetry job config)
          (job.devices ×ˢ job.streams) stream ∧
        ∃ windows, loadWindows service telemetry job job.channels config stream.1 stream.2 0 =
            .ok windows ∧
          ∃ window ∈ (windowsToScan job (clock job.jobId stream.1 stream.2) windows).takeWhile
              (passes service job config stream),
            ∃ result, evaluate service.floats job.detectorType window.points config = .ok result ∧
              result.crossed = true ∧
              e = eventInsert job config stream.1 stream.2 window result := by
  by_cases h : isSupported job.detectorType = true ∧ job.devices ≠ [] ∧ job.streams ≠ []
  · obtain ⟨hsupported, hdevices, hstreams⟩ := h
    rw [runJob_of_scanned hsupported hdevices hstreams, Effects.mem_done_andThen]
    simp only [Effects.done_acts, List.mem_singleton, reduceCtorEq, Effects.failure_acts, true_and,
      false_or, hsupported]
    cases hconfig : configOf service job with
    | error failure => simp [Effects.attempt]
    | ok config =>
      have hfailure : ∀ stream ∈ job.devices ×ˢ job.streams,
          (scanStream service telemetry clock job job.channels config stream.1 stream.2).failure =
              none ↔ StreamPasses service telemetry job config stream := fun stream _ =>
        failure_scanStream hsupported
      simp only [Effects.attempt, Effects.mem_done_forEach, Effects.reached_congr hfailure,
        Except.ok.injEq, exists_eq_left', mem_scanStream hsupported]
  · rw [runJob_of_skipped h]
    simp only [Effects.done_acts, List.mem_cons, reduceCtorEq, List.not_mem_nil, or_self, false_iff]
    rintro ⟨hsupported, config, -, stream, hstream, -⟩
    obtain ⟨hdevice, hkey⟩ := List.pair_mem_product.mp (Effects.mem_of_reached hstream)
    exact h ⟨hsupported, List.ne_nil_of_mem hdevice, List.ne_nil_of_mem hkey⟩

theorem runDetectionOnce_none : runDetectionOnce service telemetry clock jobs none =
    .forEach (runJob service telemetry clock) jobs.enabledJobs := by
  rw [runDetectionOnce, List.filter_eq_self.mpr]
  exact fun _ _ => rfl

theorem runDetectionOnce_selected (onlyJobId : Option Nat) :
    runDetectionOnce service telemetry clock jobs onlyJobId =
      runDetectionOnce service telemetry clock (jobs.selected onlyJobId) none := by
  rw [runDetectionOnce_none, enabledJobs_selected, runDetectionOnce]

theorem mem_runDetectionOnce : .event e ∈ (runDetectionOnce service telemetry clock jobs none).done ↔
    ∃ job config deviceId streamKey, Comes service telemetry jobs job config deviceId streamKey ∧
      ∃ windows, loadWindows service telemetry job job.channels config deviceId streamKey 0 =
          .ok windows ∧
        ∃ window ∈ (windowsToScan job (clock job.jobId deviceId streamKey) windows).takeWhile
            (passes service job config (deviceId, streamKey)),
          ∃ result, evaluate service.floats job.detectorType window.points config = .ok result ∧
            result.crossed = true ∧ e = eventInsert job config deviceId streamKey window result := by
  have hpasses : ∀ job ∈ jobs.enabledJobs, (runJob service telemetry clock job).failure = none ↔
      JobPasses service telemetry job := fun job _ => failure_runJob
  simp only [runDetectionOnce_none, Effects.mem_done_forEach, Effects.reached_congr hpasses,
    mem_runJob]
  constructor
  · rintro ⟨job, hjob, hsupported, config, hconfig, ⟨deviceId, streamKey⟩, hstream, hevent⟩
    exact ⟨job, config, deviceId, streamKey, ⟨hjob, hsupported, hconfig, hstream⟩, hevent⟩
  · rintro ⟨job, config, deviceId, streamKey, hcomes, hevent⟩
    exact ⟨job, hcomes.reachesJob, hcomes.supported, config, hcomes.configured,
      (deviceId, streamKey), hcomes.reachesStream, hevent⟩

/-- The events of a stream of a job come from the windows of this stream, up to the first one whose
event is refused. -/
theorem mem_events_stream (hjob : job ∈ jobs.enabledJobs) (hconfig : configOf service job = .ok config) :
    (e ∈ events (runDetectionOnce service telemetry clock jobs none) ∧ e.jobId = job.jobId ∧
        e.deviceId = deviceId ∧ e.streamKey = streamKey) ↔
      Comes service telemetry jobs job config deviceId streamKey ∧
        ∃ windows, loadWindows service telemetry job job.channels config deviceId streamKey 0 =
            .ok windows ∧
          ∃ window ∈ (windowsToScan job (clock job.jobId deviceId streamKey) windows).takeWhile
              (passes service job config (deviceId, streamKey)),
            ∃ result, evaluate service.floats job.detectorType window.points config = .ok result ∧
              result.crossed = true ∧
              e = eventInsert job config deviceId streamKey window result := by
  rw [mem_events, mem_runDetectionOnce]
  constructor
  · rintro ⟨⟨other, config', device, stream, hcomes, windows, hload, window, hwindow, result, heval,
      hcrossed, rfl⟩, hid, rfl, rfl⟩
    obtain rfl := enabledJobs_eq hjob (Effects.mem_of_reached hcomes.reachesJob) hid
    obtain rfl := Except.ok.inj (hconfig.symm.trans hcomes.configured)
    exact ⟨hcomes, windows, hload, window, hwindow, result, heval, hcrossed, rfl⟩
  · rintro ⟨hcomes, windows, hload, window, hwindow, result, heval, hcrossed, rfl⟩
    exact ⟨⟨job, config, deviceId, streamKey, hcomes, windows, hload, window, hwindow, result, heval,
      hcrossed, rfl⟩, rfl, rfl, rfl⟩

/-- Some window before the first refused event crosses, exactly if some window does and the event of
the first such one is taken. -/
theorem exists_crosses_iff {stream : List Char × List Char} :
    (∃ window ∈ windows.takeWhile (passes service job config stream),
        crosses service job config window = true) ↔
      (∃ window ∈ windows, crosses service job config window = true) ∧
        ∀ window ∈ windows.find? (crosses service job config),
          service.storesEvent stream.1 stream.2 window.channelKey = true := by
  rw [exists_mem_takeWhile_iff]
  refine and_congr_right fun _ => forall₂_congr fun window hfind => ?_
  exact find?_mem_takeWhile_iff hfind

theorem find?_windowsToScan (now : Int) {stream : List Char × List Char} :
    (∀ window ∈ (windowsToScan job now windows).find? (crosses service job config),
        service.storesEvent stream.1 stream.2 window.channelKey = true) ↔
      ∀ window ∈ (windowsToScan job 0 windows).find? (crosses service job config),
        service.storesEvent stream.1 stream.2 window.channelKey = true := by
  unfold windowsToScan
  split
  · have hcrosses : crosses service job config (missingWindow job now) =
        crosses service job config (missingWindow job 0) := rfl
    rw [List.find?_singleton, List.find?_singleton, hcrosses]
    cases crosses service job config (missingWindow job 0) <;> simp [missingWindow]
  · rfl

/-- A stream has an event exactly if the run comes to it and one of its windows crosses, the first of
them with an event that is taken. -/
theorem recorded_iff (hjob : job ∈ jobs.enabledJobs) (hconfig : configOf service job = .ok config) :
    (∃ e ∈ events (runDetectionOnce service telemetry clock jobs none),
        e.jobId = job.jobId ∧ e.deviceId = deviceId ∧ e.streamKey = streamKey) ↔
      Comes service telemetry jobs job config deviceId streamKey ∧
        StreamStores service telemetry job config (deviceId, streamKey) ∧
        ∃ windows, loadWindows service telemetry job job.channels config deviceId streamKey 0 =
            .ok windows ∧
          ∃ window ∈ windowsToScan job (clock job.jobId deviceId streamKey) windows,
            crosses service job config window = true := by
  simp only [mem_events_stream hjob hconfig]
  constructor
  · rintro ⟨e, hcomes, windows, hload, window, hwindow, result, heval, hcrossed, -⟩
    obtain ⟨hcrosses, hstored⟩ := exists_crosses_iff.mp
      ⟨window, hwindow, crosses_iff.mpr ⟨result, heval, hcrossed⟩⟩
    exact ⟨hcomes, ⟨windows, hload, (find?_windowsToScan _).mp hstored⟩, windows, hload, hcrosses⟩
  · rintro ⟨hcomes, ⟨windows, hload, hstored⟩, windows', hload', hcrosses⟩
    obtain rfl := Except.ok.inj (hload.symm.trans hload')
    obtain ⟨window, hwindow, hcrosses⟩ := exists_crosses_iff.mpr
      ⟨hcrosses, (find?_windowsToScan (clock job.jobId deviceId streamKey)).mpr hstored⟩
    obtain ⟨result, heval, hcrossed⟩ := crosses_iff.mp hcrosses
    exact ⟨_, hcomes, windows, hload, window, hwindow, result, heval, hcrossed, rfl⟩

/-! A device, a stream and jobs for it -/

/-- Texts without a NUL, of a length that fits. -/
def hasNoNul (deviceId streamKey : List Char) (channelKey : Option (List Char)) : Bool :=
  (deviceId ++ streamKey ++ channelKey.getD []).all (· ≠ '\x00')

/-- A service that computes with whole numbers, of a store without frames. -/
def wholeService : Service Int :=
  ⟨wholeFloats, fun _ => 0, fun _ => .error "channels", binary64, hasNoNul⟩

def pointOf (metricKey : String) (eventTime : Timestamptz) : StoredPoint where
  eventTime := eventTime
  eventTimeNs := none
  receivedAt := eventTime
  device := "device".toList
  boot := ("device".toList, "boot".toList)
  metric := ⟨metricKey.toList, [], "int".toList⟩
  sequence := 0
  metricIndex := 0
  schemaVersion := 1
  firmwareVersion := none
  uptimeMs := none
  sourceIp := none
  valueDouble := none
  valueInt := some (.int 7)
  valueBool := none
  valueString := none
  valueBytesHex := none
  requestId := []

def metricStore (points : List StoredPoint) : Telemetry := ⟨["device".toList], points, []⟩

def imuRequest (jobKey detectorType : String) (detectorConfig : Json) : CreateJobRequest where
  jobKey := jobKey.toList
  enabled := true
  deviceSelector := ⟨["device".toList], [], []⟩
  streamSelector := ⟨[], ["imu".toList], []⟩
  detectorType := detectorType.toList
  detectorConfig := detectorConfig
  windowSeconds := 60
  stepSeconds := 60
  lookbackSeconds := 0
  severity := "warning".toList

def firstJob (request : CreateJobRequest) : JobRecord where
  jobId := 1
  jobKey := request.jobKey
  deviceSelector := request.deviceSelector.toValue
  streamSelector := request.streamSelector.toValue
  detectorType := request.detectorType
  detectorConfig := request.detectorConfig
  windowSeconds := request.windowSeconds
  stepSeconds := request.stepSeconds
  lookbackSeconds := request.lookbackSeconds
  severity := request.severity

theorem enabledJobs_created {request : CreateJobRequest} (h : request.enabled = true) :
    (Jobs.created some [request]).enabledJobs = [firstJob request] := by
  have hrows : (Jobs.created some [request]).rows = [⟨firstJob request, request.enabled⟩] := rfl
  rw [Jobs.enabledJobs, hrows, h]
  rfl

end Aetus.Anomaly
