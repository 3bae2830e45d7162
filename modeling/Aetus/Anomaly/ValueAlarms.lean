import Aetus.Anomaly.FoldedDetectors
import Aetus.Anomaly.Rerun

/-!
Jobs without an anchor by the points of the windows that they read, and the detectors threshold
and range: an event is recorded for a stream exactly if a point of such a window is out of bounds.
-/

set_option autoImplicit false

namespace Aetus.Anomaly
open Aetus.Base Aetus.Postgres

variable {F : Type}

/-! The points of the windows that are read without anchors -/

def metricRows (telemetry : Telemetry) (deviceId streamKey : List Char) (start stop : Int) :
    List StoredPoint :=
  orderByTime (·.eventTime) ((numericPoints telemetry deviceId streamKey).filter fun point =>
    toTimestamptz start ≤ point.eventTime ∧ point.eventTime ≤ toTimestamptz stop)

def pointRead (reader : Reader F) (row : StoredPoint) : Option (MetricPoint F) :=
  (reader.value row).map fun value => ⟨ofTimestamptz row.eventTime, value⟩

/-- The points of a metric's window: as many as `LIMIT` lets through and fit. -/
def metricPoints (reader : Reader F) (telemetry : Telemetry) (deviceId streamKey : List Char)
    (start stop : Int) (maxPoints : Nat) : List (MetricPoint F) :=
  ((metricRows telemetry deviceId streamKey start stop).take
    (min (pointLimit maxPoints).toNat maxPoints)).filterMap (pointRead reader)

def sampledPoints (reader : Reader F) (telemetry : Telemetry) (deviceId streamKey key : List Char)
    (start stop : Int) (maxPoints : Nat) : List (MetricPoint F) :=
  ((telemetry.framesBetween reader.rounding deviceId streamKey (toTimestamptz start)
    (toTimestamptz stop)).flatMap (pointsBetween reader start stop key)).take maxPoints

/-- The points of a window that is read without anchors: it ends at the last point or, if there is
no point before it, at the last sample. -/
inductive LatestPoints (reader : Reader F) (telemetry : Telemetry) (deviceId streamKey : List Char)
    (channels : List (List Char)) (windowSeconds : Int) (maxPoints : Nat) :
    List (MetricPoint F) → Prop where
  | metric {stop : Int} (hstop : latestPoint telemetry deviceId streamKey = some stop)
      (h : metricPoints reader telemetry deviceId streamKey (stop - seconds windowSeconds) stop
        maxPoints ≠ []) :
    LatestPoints reader telemetry deviceId streamKey channels windowSeconds maxPoints
      (metricPoints reader telemetry deviceId streamKey (stop - seconds windowSeconds) stop maxPoints)
  | signal {stop : Int} {key : List Char}
      (h : ∀ stop, latestPoint telemetry deviceId streamKey = some stop →
        metricPoints reader telemetry deviceId streamKey (stop - seconds windowSeconds) stop
          maxPoints = [])
      (hstop : latestSample reader telemetry deviceId streamKey = some stop)
      (hselected : isSelected channels key = true)
      (hcarried : Carried reader (telemetry.framesBetween reader.rounding deviceId streamKey
        (toTimestamptz (stop - seconds windowSeconds)) (toTimestamptz stop)) key) :
    LatestPoints reader telemetry deviceId streamKey channels windowSeconds maxPoints
      (sampledPoints reader telemetry deviceId streamKey key (stop - seconds windowSeconds) stop
        maxPoints)

section
variable {reader : Reader F} {telemetry : Telemetry} {deviceId streamKey : List Char}
  {channels : List (List Char)} {start stop windowSeconds now : Int} {maxPoints : Nat}
  {window : NumericWindow F} {windows : List (NumericWindow F)} {row : StoredPoint}

theorem mem_metricRows : row ∈ metricRows telemetry deviceId streamKey start stop ↔
    row ∈ numericPoints telemetry deviceId streamKey ∧
      toTimestamptz start ≤ row.eventTime ∧ row.eventTime ≤ toTimestamptz stop := by
  rw [metricRows, (orderByTime_perm _ _).mem_iff, List.mem_filter, decide_eq_true_iff]

theorem isNumeric_of_mem_numericPoints (h : row ∈ numericPoints telemetry deviceId streamKey) :
    isNumeric row = true :=
  (of_decide_eq_true (List.mem_filter.mp h).2).2.2

theorem isSome_pointRead (h : isNumeric row = true) : (pointRead reader row).isSome = true := by
  obtain ⟨value, hvalue⟩ : ∃ value, reader.value row = some value := exists_value h
  rw [pointRead, hvalue]
  rfl

theorem isNumeric_of_value {x : F} (h : reader.value row = some x) : isNumeric row = true := by
  have hsome := Option.isSome_iff_exists.mpr ⟨x, h⟩
  rw [Reader.value, Option.isSome_map] at hsome
  simpa [isNumeric, Option.isSome_or] using hsome

theorem take_filterMap_of_isSome {α β : Type} {f : α → Option β} {xs : List α}
    (h : ∀ x ∈ xs, (f x).isSome = true) (n : Nat) :
    (xs.filterMap f).take n = (xs.take n).filterMap f := by
  induction xs generalizing n with
  | nil => simp
  | cons x xs ih =>
    obtain ⟨y, hy⟩ := Option.isSome_iff_exists.mp (h x List.mem_cons_self)
    cases n with
    | zero => simp
    | succ n =>
      have hrest := ih (fun z hz => h z (List.mem_cons_of_mem x hz)) n
      simp [hy, hrest]

theorem metricWindowBetween_points
    (h : metricWindowBetween reader telemetry deviceId streamKey start stop maxPoints = .ok window) :
    window.points = metricPoints reader telemetry deviceId streamKey start stop maxPoints := by
  have hread : (limit (pointLimit maxPoints) (metricRows telemetry deviceId streamKey start stop)).map
      (metricWindowOf reader start stop maxPoints) = .ok window := h
  cases hrows : limit (pointLimit maxPoints) (metricRows telemetry deviceId streamKey start stop) with
  | error e =>
    rw [hrows] at hread
    cases hread
  | ok rows =>
    rw [hrows] at hread
    obtain rfl := Except.ok.inj hread
    have hsome : ∀ row ∈ rows, (pointRead reader row).isSome = true := by
      intro row hrow
      rw [limit_ok hrows] at hrow
      exact isSome_pointRead (isNumeric_of_mem_numericPoints
        (mem_metricRows.mp (List.mem_of_mem_take hrow)).1)
    show (rows.filterMap (pointRead reader)).take maxPoints = _
    rw [take_filterMap_of_isSome hsome, limit_ok hrows, List.take_take, Nat.min_comm]
    rfl

theorem isEmpty_eq_false_iff_ne_nil {points : List (MetricPoint F)} :
    (!points.isEmpty) = true ↔ points ≠ [] := by
  cases points <;> simp

theorem metricWindow_points
    (h : metricWindow reader telemetry deviceId streamKey windowSeconds maxPoints now = .ok window) :
    window.points = (latestPoint telemetry deviceId streamKey).elim [] fun stop =>
      metricPoints reader telemetry deviceId streamKey (stop - seconds windowSeconds) stop
        maxPoints := by
  unfold latestPoint
  cases hlatest : ((numericPoints telemetry deviceId streamKey).map (·.eventTime)).max? with
  | none =>
    rw [metricWindow_none hlatest] at h
    obtain rfl := Except.ok.inj h
    rfl
  | some latest =>
    rw [metricWindow_some hlatest] at h
    exact metricWindowBetween_points h

theorem signalWindows_points {P : List (MetricPoint F) → Prop}
    (h : signalWindows reader telemetry deviceId streamKey channels windowSeconds maxPoints =
      .ok windows) :
    (∃ window ∈ windows, P window.points) ↔
      ∃ stop key, latestSample reader telemetry deviceId streamKey = some stop ∧
        isSelected channels key = true ∧
        Carried reader (telemetry.framesBetween reader.rounding deviceId streamKey
          (toTimestamptz (stop - seconds windowSeconds)) (toTimestamptz stop)) key ∧
        P (sampledPoints reader telemetry deviceId streamKey key (stop - seconds windowSeconds) stop
          maxPoints) := by
  unfold signalWindows at h
  unfold latestSample
  cases hlatest : ((telemetry.framesOf deviceId streamKey).map (·.lastSampleTime reader.rounding)).max? with
  | none =>
    simp only [hlatest] at h
    obtain rfl := Except.ok.inj h
    simp
  | some latest =>
    simp only [hlatest] at h
    rw [(gathers_of_signalWindowsBetween h).exists_window]
    simp only [Option.map_some, Option.some.injEq, exists_and_left, exists_eq_left']
    rfl

theorem numericWindows_points {P : List (MetricPoint F) → Prop}
    (h : numericWindows reader telemetry deviceId streamKey channels windowSeconds maxPoints now =
      .ok windows) :
    (∃ window ∈ windows, P window.points) ↔
      ∃ points, LatestPoints reader telemetry deviceId streamKey channels windowSeconds maxPoints
        points ∧ P points := by
  unfold numericWindows at h
  cases hmetric : metricWindow reader telemetry deviceId streamKey windowSeconds maxPoints now with
  | error e => simp [hmetric] at h
  | ok metric =>
    have hpoints := metricWindow_points hmetric
    simp only [hmetric, isEmpty_eq_false_iff_ne_nil] at h
    split at h
    · next hsome =>
      obtain rfl := Except.ok.inj h
      simp only [List.mem_singleton, exists_eq_left]
      cases hlatest : latestPoint telemetry deviceId streamKey with
      | none =>
        rw [hlatest, Option.elim_none] at hpoints
        exact absurd hpoints hsome
      | some stop =>
        rw [hlatest, Option.elim_some] at hpoints
        rw [hpoints] at hsome ⊢
        constructor
        · intro hp
          exact ⟨_, .metric hlatest hsome, hp⟩
        · rintro ⟨points, hlatestPoints, hp⟩
          cases hlatestPoints with
          | metric hstop =>
            obtain rfl := Option.some.inj (hlatest.symm.trans hstop)
            exact hp
          | signal hnone => exact absurd (hnone stop hlatest) hsome
    · next hnone =>
      have hnothing : ∀ stop, latestPoint telemetry deviceId streamKey = some stop →
          metricPoints reader telemetry deviceId streamKey (stop - seconds windowSeconds) stop
            maxPoints = [] := by
        intro stop hlatest
        rw [hlatest, Option.elim_some] at hpoints
        rw [← hpoints]
        exact not_not.mp hnone
      rw [signalWindows_points h]
      constructor
      · rintro ⟨stop, key, hstop, hselected, hcarried, hp⟩
        exact ⟨_, .signal hnothing hstop hselected hcarried, hp⟩
      · rintro ⟨points, hlatestPoints, hp⟩
        cases hlatestPoints with
        | metric hstop hsome => exact absurd (hnothing _ hstop) hsome
        | signal _ hstop hselected hcarried => exact ⟨_, _, hstop, hselected, hcarried, hp⟩

end

/-! What a run records by them -/

section
variable {service : Service F} {telemetry : Telemetry} {clock : Clock} {jobs : Jobs}
  {job : JobRecord} {config : DetectorConfig F} {deviceId streamKey : List Char}

def Detected (service : Service F) (telemetry : Telemetry) (job : JobRecord)
    (config : DetectorConfig F) (deviceId streamKey : List Char) : Prop :=
  ∃ points, LatestPoints service.reader telemetry deviceId streamKey job.channels job.windowSeconds
      config.maxPoints points ∧
    ∃ result, evaluate service.floats job.detectorType points config = .ok result ∧
      result.crossed = true

theorem events_stream_iff (hjob : job ∈ jobs.enabledJobs)
    (htype : job.detectorType ≠ "missing_data".toList) (hconfig : configOf service job = .ok config)
    (hanchor : config.anchor = none) :
    (∃ e ∈ events (runDetectionOnce service telemetry clock jobs none),
        e.jobId = job.jobId ∧ e.deviceId = deviceId ∧ e.streamKey = streamKey) ↔
      Comes service telemetry jobs job config deviceId streamKey ∧
        StreamStores service telemetry job config (deviceId, streamKey) ∧
        Detected service telemetry job config deviceId streamKey := by
  have hload : loadWindows service telemetry job job.channels config deviceId streamKey 0 =
      numericWindows service.reader telemetry deviceId streamKey job.channels job.windowSeconds
        config.maxPoints 0 := by
    rw [loadWindows, hanchor]
  have hscan : ∀ now windows, windowsToScan (F := F) job now windows = windows := by
    intro now windows
    refine if_neg fun h => htype ?_
    exact of_decide_eq_true (Bool.and_eq_true_iff.mp h).2
  have hpoints {windows : List (NumericWindow F)}
      (hread : loadWindows service telemetry job job.channels config deviceId streamKey 0 =
        .ok windows) :
      (∃ window ∈ windows, crosses service job config window = true) ↔
        Detected service telemetry job config deviceId streamKey := by
    simp only [crosses_iff]
    exact numericWindows_points (P := fun points => ∃ result,
      evaluate service.floats job.detectorType points config = .ok result ∧
        result.crossed = true) (hload.symm.trans hread)
  simp only [recorded_iff hjob hconfig, hscan]
  refine and_congr_right fun _ => and_congr_right fun hstores => ?_
  obtain ⟨windows, hread⟩ := hstores.imp fun _ => And.left
  rw [← hpoints hread]
  constructor
  · rintro ⟨windows', hread', hcrosses⟩
    obtain rfl := Except.ok.inj (hread.symm.trans hread')
    exact hcrosses
  · exact fun hcrosses => ⟨windows, hread, hcrosses⟩

end

/-! A row that the last window is sure to take -/

/-- The last window of a metric reaches back to a time and has room for all its points. -/
structure Covers (telemetry : Telemetry) (deviceId streamKey : List Char) (windowSeconds : Int)
    (maxPoints : Nat) (time : Int) : Prop where
  recent : ∀ stop, latestPoint telemetry deviceId streamKey = some stop →
    stop - seconds windowSeconds ≤ time
  room : ∀ stop, latestPoint telemetry deviceId streamKey = some stop →
    metricCount telemetry deviceId streamKey (stop - seconds windowSeconds) stop ≤
      min (pointLimit maxPoints).toNat maxPoints

section
variable {F : Type} {reader : Reader F} {telemetry : Telemetry} {deviceId streamKey : List Char}
  {channels : List (List Char)} {windowSeconds now : Int} {maxPoints : Nat} {row : StoredPoint}
  {x : F}

theorem length_metricRows {start stop : Int} :
    (metricRows telemetry deviceId streamKey start stop).length =
      metricCount telemetry deviceId streamKey start stop := by
  rw [metricRows, (orderByTime_perm _ _).length_eq, metricCount, List.countP_eq_length_filter]

theorem latestPoint_of_mem (hrow : row ∈ numericPoints telemetry deviceId streamKey) :
    ∃ latest, latestPoint telemetry deviceId streamKey = some (ofTimestamptz latest) ∧
      row.eventTime ≤ latest := by
  unfold latestPoint
  have htime : row.eventTime ∈ (numericPoints telemetry deviceId streamKey).map (·.eventTime) :=
    List.mem_map_of_mem hrow
  cases hmax : ((numericPoints telemetry deviceId streamKey).map (·.eventTime)).max? with
  | none =>
    rw [List.max?_eq_none_iff.mp hmax] at htime
    cases htime
  | some latest => exact ⟨latest, rfl, (List.max?_eq_some_iff.mp hmax).2 _ htime⟩

/-- A row at a time that is covered is among those that the window takes. -/
theorem Covers.mem_metricPoints
    (h : Covers telemetry deviceId streamKey windowSeconds maxPoints (ofTimestamptz row.eventTime))
    (hrow : row ∈ numericPoints telemetry deviceId streamKey) (hvalue : reader.value row = some x) :
    ∃ stop, latestPoint telemetry deviceId streamKey = some stop ∧
      ⟨ofTimestamptz row.eventTime, x⟩ ∈ metricPoints reader telemetry deviceId streamKey
        (stop - seconds windowSeconds) stop maxPoints := by
  obtain ⟨latest, hlatest, hle⟩ := latestPoint_of_mem hrow
  refine ⟨_, hlatest, List.mem_filterMap.mpr ⟨row, ?_, by rw [pointRead, hvalue]; rfl⟩⟩
  rw [List.take_of_length_le (length_metricRows.trans_le (h.room _ hlatest)), mem_metricRows]
  refine ⟨hrow, ?_, by rwa [toTimestamptz_ofTimestamptz]⟩
  refine Int.ediv_le_of_le_mul (by decide) ?_
  rw [Int.mul_comm]
  exact h.recent _ hlatest

theorem metricWindowBetween_of_le {start stop : Int} (hlimit : 0 ≤ pointLimit maxPoints) :
    ∃ window, metricWindowBetween reader telemetry deviceId streamKey start stop maxPoints =
      .ok window := by
  have hread : limit (pointLimit maxPoints) (metricRows telemetry deviceId streamKey start stop) =
      .ok _ := if_neg (Int.not_lt.mpr hlimit)
  exact ⟨_, congrArg (Except.map (metricWindowOf reader start stop maxPoints)) hread⟩

theorem metricWindow_channelKey {window : NumericWindow F}
    (h : metricWindow reader telemetry deviceId streamKey windowSeconds maxPoints now = .ok window) :
    window.channelKey = none := by
  unfold metricWindow at h
  split at h
  · obtain rfl := Except.ok.inj h
    rfl
  · dsimp only at h
    unfold metricWindowBetween at h
    dsimp only at h
    cases hrows : limit (pointLimit maxPoints) _ with
    | error e =>
      rw [hrows] at h
      cases h
    | ok rows =>
      rw [hrows] at h
      obtain rfl := Except.ok.inj h
      rfl

/-- Where the last window of a metric has a point, it is the one that is read. -/
theorem numericWindows_of_mem {stop : Int} {point : MetricPoint F}
    (hlatest : latestPoint telemetry deviceId streamKey = some stop)
    (hpoint : point ∈ metricPoints reader telemetry deviceId streamKey
      (stop - seconds windowSeconds) stop maxPoints) :
    ∃ window, numericWindows reader telemetry deviceId streamKey channels windowSeconds maxPoints
      now = .ok [window] ∧ window.channelKey = none := by
  have hlimit : 0 ≤ pointLimit maxPoints := by
    by_contra hneg
    have hzero : (pointLimit maxPoints).toNat = 0 := Int.toNat_of_nonpos (Int.not_le.mp hneg).le
    rw [metricPoints, hzero, Nat.zero_min, List.take_zero] at hpoint
    cases hpoint
  have hmetric : ∃ window, metricWindow reader telemetry deviceId streamKey windowSeconds maxPoints
      now = .ok window := by
    obtain ⟨latest, hmax, rfl⟩ := Option.map_eq_some_iff.mp hlatest
    rw [metricWindow_some hmax]
    exact metricWindowBetween_of_le hlimit
  obtain ⟨window, hwindow⟩ := hmetric
  have hpoints := metricWindow_points hwindow
  rw [hlatest, Option.elim_some] at hpoints
  have hsome : (!window.points.isEmpty) = true :=
    isEmpty_eq_false_iff_ne_nil.mpr (List.ne_nil_of_mem (hpoints ▸ hpoint))
  refine ⟨window, ?_, metricWindow_channelKey hwindow⟩
  simp only [numericWindows, hwindow, if_pos hsome]

end

/-! The deliveries of a run -/

theorem Tables.after_enqueued {F : Type} {floats : Floats F} (tables : Tables floats) {run : Run F}
    {e : EventInsert F} (he : e ∈ Anomaly.events run) : (tables.after run).Enqueued e.key := by
  obtain ⟨state, hafter⟩ := tables.after_eq_record run
  have hrecord : (tables.record (Anomaly.events run)).Enqueued e.key :=
    record_enqueued (.inr ⟨e, he, rfl⟩)
  rw [hafter]
  exact ⟨hrecord.found, hrecord.enqueued⟩

/-! The detectors threshold and range -/

/-- What Rust says of `f64::min` and `f64::max` at a NaN: the number is returned. -/
structure Floats.Ieee.SkipsNaN {floats : Floats F} (ieee : floats.Ieee) : Prop where
  min : ∀ a b, ¬ieee.isNaN a → ieee.isNaN b → floats.min a b = a
  max : ∀ a b, ¬ieee.isNaN a → ieee.isNaN b → floats.max a b = a

section
variable {floats : Floats F} {ieee : floats.Ieee} {points : List (MetricPoint F)}

/-- A test that no NaN passes finds its way through a fold that passes over NaNs. -/
theorem Floats.Ieee.test_foldl_iff {op : F → F → F} {t : F → Bool}
    (hop : ∀ a b, ¬ieee.isNaN a → ¬ieee.isNaN b →
      ¬ieee.isNaN (op a b) ∧ (t (op a b) = true ↔ t a = true ∨ t b = true))
    (hskip : ∀ a b, ¬ieee.isNaN a → ieee.isNaN b → op a b = a)
    (hnan : ∀ a, t a = true → ¬ieee.isNaN a) {start : F} (hstart : ¬ieee.isNaN start)
    (xs : List F) :
    t (xs.foldl op start) = true ↔ t start = true ∨ ∃ x ∈ xs, t x = true := by
  induction xs generalizing start with
  | nil => simp
  | cons x xs ih =>
    rw [List.foldl_cons, List.exists_mem_cons_iff]
    by_cases hx : ieee.isNaN x
    · have hfails : ¬t x = true := fun h => hnan x h hx
      rw [hskip start x hstart hx, ih hstart, or_iff_right hfails]
    · obtain ⟨hnumber, hiff⟩ := hop start x hstart hx
      rw [ih hnumber, hiff, or_assoc]

theorem exists_values {t : F → Bool} :
    (∃ x ∈ values points, t x = true) ↔ ∃ point ∈ points, t point.value = true := by
  simp [values]

theorem Floats.Ieee.SkipsNaN.minValue_iff (hskips : ieee.SkipsNaN) {P : EReal → Prop}
    (hP : ∀ x y, P (Min.min x y) ↔ P x ∨ P y) {t : F → Bool}
    (htest : ∀ a, t a = true ↔ ¬ieee.isNaN a ∧ P (ieee.real a)) :
    t (minValue floats points) = true ↔
      t floats.infinity = true ∨ ∃ point ∈ points, t point.value = true := by
  rw [← exists_values]
  refine Floats.Ieee.test_foldl_iff (fun a b ha hb => ?_) hskips.min
    (fun a h => ((htest a).mp h).1) ieee.infinity.1 (values points)
  obtain ⟨hnumber, hreal⟩ := ieee.min a b ha hb
  refine ⟨hnumber, ?_⟩
  rw [htest, htest, htest, hreal, hP, and_iff_right hnumber, and_iff_right ha, and_iff_right hb]

theorem Floats.Ieee.SkipsNaN.maxValue_iff (hskips : ieee.SkipsNaN) {P : EReal → Prop}
    (hP : ∀ x y, P (Max.max x y) ↔ P x ∨ P y) {t : F → Bool}
    (htest : ∀ a, t a = true ↔ ¬ieee.isNaN a ∧ P (ieee.real a)) :
    t (maxValue floats points) = true ↔
      t floats.negInfinity = true ∨ ∃ point ∈ points, t point.value = true := by
  rw [← exists_values]
  refine Floats.Ieee.test_foldl_iff (fun a b ha hb => ?_) hskips.max
    (fun a h => ((htest a).mp h).1) ieee.negInfinity.1 (values points)
  obtain ⟨hnumber, hreal⟩ := ieee.max a b ha hb
  refine ⟨hnumber, ?_⟩
  rw [htest, htest, htest, hreal, hP, and_iff_right hnumber, and_iff_right ha, and_iff_right hb]

theorem Floats.Ieee.SkipsNaN.lt_minValue (hskips : ieee.SkipsNaN) (bound : F) :
    floats.lt (minValue floats points) bound = true ↔
      floats.lt floats.infinity bound = true ∨
        ∃ point ∈ points, floats.lt point.value bound = true := by
  refine hskips.minValue_iff (P := fun x => ¬ieee.isNaN bound ∧ x < ieee.real bound)
    (t := fun a => floats.lt a bound) (fun x y => ?_) fun a => ieee.lt a bound
  rw [min_lt_iff, and_or_left]

theorem Floats.Ieee.SkipsNaN.le_minValue (hskips : ieee.SkipsNaN) (bound : F) :
    floats.le (minValue floats points) bound = true ↔
      floats.le floats.infinity bound = true ∨
        ∃ point ∈ points, floats.le point.value bound = true := by
  refine hskips.minValue_iff (P := fun x => ¬ieee.isNaN bound ∧ x ≤ ieee.real bound)
    (t := fun a => floats.le a bound) (fun x y => ?_) fun a => ieee.le a bound
  rw [min_le_iff, and_or_left]

theorem Floats.Ieee.SkipsNaN.lt_maxValue (hskips : ieee.SkipsNaN) (bound : F) :
    floats.lt bound (maxValue floats points) = true ↔
      floats.lt bound floats.negInfinity = true ∨
        ∃ point ∈ points, floats.lt bound point.value = true := by
  refine hskips.maxValue_iff (P := fun x => ¬ieee.isNaN bound ∧ ieee.real bound < x)
    (t := fun a => floats.lt bound a) (fun x y => ?_) fun a => ?_
  · rw [lt_max_iff, and_or_left]
  · rw [ieee.lt, and_left_comm]

theorem Floats.Ieee.SkipsNaN.le_maxValue (hskips : ieee.SkipsNaN) (bound : F) :
    floats.le bound (maxValue floats points) = true ↔
      floats.le bound floats.negInfinity = true ∨
        ∃ point ∈ points, floats.le bound point.value = true := by
  refine hskips.maxValue_iff (P := fun x => ¬ieee.isNaN bound ∧ ieee.real bound ≤ x)
    (t := fun a => floats.le bound a) (fun x y => ?_) fun a => ?_
  · rw [le_max_iff, and_or_left]
  · rw [ieee.le, and_left_comm]

theorem Detectors.threshold_crossed (hskips : ieee.SkipsNaN) (config : DetectorConfig F) :
    (threshold floats points config).crossed = true ↔
      compare floats (foldStart floats config.operator) config.threshold config.operator = true ∨
        ∃ point ∈ points, compare floats point.value config.threshold config.operator = true := by
  by_cases hgte : config.operator = "gte".toList
  · simpa [threshold, compared, result, compare, foldStart, hgte]
      using hskips.le_maxValue config.threshold
  by_cases hlt : config.operator = "lt".toList
  · simpa [threshold, compared, result, compare, foldStart, hlt]
      using hskips.lt_minValue config.threshold
  by_cases hlte : config.operator = "lte".toList
  · simpa [threshold, compared, result, compare, foldStart, hlte]
      using hskips.le_minValue config.threshold
  · simp only [threshold, compared, result, compare, foldStart, hgte, hlt, hlte, or_self]
    simpa using hskips.lt_maxValue config.threshold

theorem Detectors.range_crossed (hskips : ieee.SkipsNaN) (config : DetectorConfig F) :
    (range floats points config).crossed = true ↔
      ∃ point ∈ points, (∃ least ∈ config.min, floats.lt point.value least = true) ∨
        ∃ greatest ∈ config.max, floats.lt greatest point.value = true := by
  rw [range_score]
  show floats.lt floats.zero _ = true ↔ _
  obtain ⟨hlow, -, hlowpos⟩ :=
    distance_spec ieee (config.min.getD floats.negInfinity) (minValue floats points)
  obtain ⟨hhigh, -, hhighpos⟩ :=
    distance_spec ieee (maxValue floats points) (config.max.getD floats.infinity)
  obtain ⟨hscore, hreal⟩ := ieee.max _ _ hlow hhigh
  have htop : ∀ bound, ¬floats.lt floats.infinity bound = true := by
    intro bound
    rw [ieee.lt, ieee.infinity.2]
    exact fun h => not_top_lt h.2.2
  have hbot : ∀ bound, ¬floats.lt bound floats.negInfinity = true := by
    intro bound
    rw [ieee.lt, ieee.negInfinity.2]
    exact fun h => not_lt_bot h.2.2
  rw [ieee.lt, and_iff_right ieee.zero.1, and_iff_right hscore, hreal, ieee.zero.2, lt_max_iff,
    hlowpos, hhighpos, hskips.lt_minValue, or_iff_right (htop _), hskips.lt_maxValue,
    or_iff_right (hbot _), ← exists_or]
  refine exists_congr fun point => ?_
  rw [← and_or_left]
  refine and_congr_right fun _ => or_congr ?_ ?_
  · cases config.min with
    | none => simpa using hbot point.value
    | some least => simp
  · cases config.max with
    | none => simpa using htop point.value
    | some greatest => simp

def OutOfBounds (floats : Floats F) (detectorType : List Char) (config : DetectorConfig F)
    (value : F) : Prop :=
  detectorType = "threshold".toList ∧
      compare floats value config.threshold config.operator = true ∨
    detectorType = "range".toList ∧ ((∃ least ∈ config.min, floats.lt value least = true) ∨
      ∃ greatest ∈ config.max, floats.lt greatest value = true)

/-- The threshold is one that every value reaches, as the infinity does that stands for none. -/
def ReachedByNone (floats : Floats F) (detectorType : List Char) (config : DetectorConfig F) : Prop :=
  detectorType = "threshold".toList ∧
    compare floats (Detectors.foldStart floats config.operator) config.threshold config.operator =
      true

theorem evaluate_outOfBounds (hskips : ieee.SkipsNaN) {detectorType : List Char}
    (htype : detectorType = "threshold".toList ∨ detectorType = "range".toList)
    (config : DetectorConfig F) :
    (∃ result, evaluate floats detectorType points config = .ok result ∧ result.crossed = true) ↔
      ReachedByNone floats detectorType config ∨
        ∃ point ∈ points, OutOfBounds floats detectorType config point.value := by
  rcases htype with rfl | rfl
  · have heval : evaluate floats "threshold".toList points config =
        .ok (Detectors.threshold floats points config) := rfl
    have hne : "threshold".toList ≠ "range".toList := by decide
    simp only [heval, Except.ok.injEq, exists_eq_left', Detectors.threshold_crossed hskips,
      ReachedByNone, OutOfBounds, true_and, hne, false_and, or_false]
  · have heval : evaluate floats "range".toList points config =
        .ok (Detectors.range floats points config) := rfl
    have hne : "range".toList ≠ "threshold".toList := by decide
    simp only [heval, Except.ok.injEq, exists_eq_left', Detectors.range_crossed hskips,
      ReachedByNone, OutOfBounds, true_and, hne, false_and, false_or]

end

section
variable {service : Service F} {telemetry : Telemetry} {clock : Clock} {jobs : Jobs}
  {job : JobRecord} {config : DetectorConfig F} {deviceId streamKey : List Char}

/-- An event is recorded for a stream exactly if one of the windows that are read has a point that
is out of bounds, whichever other points and NaNs there are. -/
theorem outOfBounds_recorded {ieee : service.floats.Ieee} (hskips : ieee.SkipsNaN)
    (hjob : job ∈ jobs.enabledJobs)
    (htype : job.detectorType = "threshold".toList ∨ job.detectorType = "range".toList)
    (hconfig : configOf service job = .ok config) (hanchor : config.anchor = none) :
    (∃ e ∈ events (runDetectionOnce service telemetry clock jobs none),
        e.jobId = job.jobId ∧ e.deviceId = deviceId ∧ e.streamKey = streamKey) ↔
      Comes service telemetry jobs job config deviceId streamKey ∧
        StreamStores service telemetry job config (deviceId, streamKey) ∧
        ∃ points, LatestPoints service.reader telemetry deviceId streamKey job.channels
            job.windowSeconds config.maxPoints points ∧
          (ReachedByNone service.floats job.detectorType config ∨
            ∃ point ∈ points, OutOfBounds service.floats job.detectorType config point.value) := by
  have hne : job.detectorType ≠ "missing_data".toList := by
    rcases htype with h | h <;> rw [h] <;> decide
  rw [events_stream_iff hjob hne hconfig hanchor]
  simp only [Detected, evaluate_outOfBounds hskips htype]

end

/-- A service that computes with rational numbers, of a store without frames. -/
def exactService : Service Extended :=
  ⟨exactFloats, fun _ => .finite 0, fun _ => .error "channels", binary64, hasNoNul⟩

theorem exactFloats_skipsNaN : exactFloats_ieee.SkipsNaN where
  min := fun _ _ _ h => h.elim
  max := fun _ _ _ h => h.elim

/-- A point at 7, with a threshold at 5. -/
theorem outOfBounds_recorded_limit :
    let store := metricStore [pointOf "imu" 1700000000000000]
    ∃ points, LatestPoints exactService.reader store "device".toList "imu".toList [] 60
        defaultMaxPoints points ∧
      (ReachedByNone exactFloats "threshold".toList (limitConfig "gt".toList (.finite 5)) ∨
        ∃ point ∈ points, OutOfBounds exactFloats "threshold".toList
          (limitConfig "gt".toList (.finite 5)) point.value) := by
  intro store
  have hjob : firstJob (imuRequest "limit" "threshold" (.object [("threshold".toList, .int 5)])) ∈
      limitJobs.enabledJobs := by
    rw [limitJobs, enabledJobs_created rfl]
    exact List.mem_singleton_self _
  have hrecorded : ∃ e ∈ events (runDetectionOnce exactService store firstClock limitJobs none),
      e.jobId = 1 ∧ e.deviceId = "device".toList ∧ e.streamKey = "imu".toList := by
    decide +kernel
  have hiff : (∃ e ∈ events (runDetectionOnce exactService store firstClock limitJobs none),
      e.jobId = 1 ∧ e.deviceId = "device".toList ∧ e.streamKey = "imu".toList) ↔ _ :=
    outOfBounds_recorded exactFloats_skipsNaN hjob (.inl rfl) rfl rfl
  exact (hiff.mp hrecorded).2.2

end Aetus.Anomaly
