import Aetus.Anomaly.Worker

/-!
How many points the windows have that a run loads: the counts that missing_data and
event_sequence compare.
-/

set_option autoImplicit false

namespace Aetus.Anomaly
open Aetus.Base Aetus.Postgres

variable {F : Type}

def metricCount (telemetry : Telemetry) (deviceId streamKey : List Char) (start stop : Int) : Nat :=
  (numericPoints telemetry deviceId streamKey).countP fun point =>
    toTimestamptz start ≤ point.eventTime ∧ point.eventTime ≤ toTimestamptz stop

/-- The points of a metric that a window takes: as many as `LIMIT` lets through and fit. -/
def metricCut (telemetry : Telemetry) (deviceId streamKey : List Char) (start stop : Int)
    (maxPoints : Nat) : Nat :=
  min (min (metricCount telemetry deviceId streamKey start stop) (pointLimit maxPoints).toNat)
    maxPoints

def channelCut (reader : Reader F) (telemetry : Telemetry) (deviceId streamKey key : List Char)
    (start stop : Int) (maxPoints : Nat) : Nat :=
  min ((telemetry.framesBetween reader.rounding deviceId streamKey (toTimestamptz start)
    (toTimestamptz stop)).flatMap (pointsBetween reader start stop key)).length maxPoints

def SignalCount (reader : Reader F) (telemetry : Telemetry) (deviceId streamKey : List Char)
    (channels : List (List Char)) (start stop : Int) (maxPoints count : Nat) : Prop :=
  ∃ key, isSelected channels key = true ∧
    Carried reader (telemetry.framesBetween reader.rounding deviceId streamKey (toTimestamptz start)
      (toTimestamptz stop)) key ∧
    count = channelCut reader telemetry deviceId streamKey key start stop maxPoints

inductive IntervalCount (reader : Reader F) (telemetry : Telemetry) (deviceId streamKey : List Char)
    (channels : List (List Char)) (start stop : Int) (maxPoints : Nat) : Nat → Prop where
  | metric (h : metricCut telemetry deviceId streamKey start stop maxPoints ≠ 0) :
    IntervalCount reader telemetry deviceId streamKey channels start stop maxPoints
      (metricCut telemetry deviceId streamKey start stop maxPoints)
  | signal {count : Nat} (h : metricCut telemetry deviceId streamKey start stop maxPoints = 0)
      (hcount : SignalCount reader telemetry deviceId streamKey channels start stop maxPoints count) :
    IntervalCount reader telemetry deviceId streamKey channels start stop maxPoints count

def latestPoint (telemetry : Telemetry) (deviceId streamKey : List Char) : Option Int :=
  ((numericPoints telemetry deviceId streamKey).map (·.eventTime)).max?.map ofTimestamptz

def latestSample (reader : Reader F) (telemetry : Telemetry) (deviceId streamKey : List Char) :
    Option Int :=
  ((telemetry.framesOf deviceId streamKey).map (·.lastSampleTime reader.rounding)).max?.map
    ofTimestamptz

/-- A window that is read without anchors: it ends at the last point or, if there is no point
before it, at the last sample. -/
inductive LatestCount (reader : Reader F) (telemetry : Telemetry) (deviceId streamKey : List Char)
    (channels : List (List Char)) (windowSeconds : Int) (maxPoints : Nat) : Nat → Prop where
  | metric {stop : Int} (hstop : latestPoint telemetry deviceId streamKey = some stop)
      (h : metricCut telemetry deviceId streamKey (stop - seconds windowSeconds) stop maxPoints ≠ 0) :
    LatestCount reader telemetry deviceId streamKey channels windowSeconds maxPoints
      (metricCut telemetry deviceId streamKey (stop - seconds windowSeconds) stop maxPoints)
  | signal {stop : Int} {count : Nat}
      (h : ∀ stop, latestPoint telemetry deviceId streamKey = some stop →
        metricCut telemetry deviceId streamKey (stop - seconds windowSeconds) stop maxPoints = 0)
      (hstop : latestSample reader telemetry deviceId streamKey = some stop)
      (hcount : SignalCount reader telemetry deviceId streamKey channels
        (stop - seconds windowSeconds) stop maxPoints count) :
    LatestCount reader telemetry deviceId streamKey channels windowSeconds maxPoints count

variable {reader : Reader F} {telemetry : Telemetry} {deviceId streamKey : List Char}
  {channels : List (List Char)} {start stop windowSeconds now : Int} {maxPoints : Nat}
  {window : NumericWindow F} {windows : List (NumericWindow F)} {point : StoredPoint}

theorem exists_value (h : isNumeric point = true) : ∃ value, reader.value point = some value := by
  rw [← Option.isSome_iff_exists, Reader.value, Option.isSome_map]
  simpa [isNumeric, Option.isSome_or] using h

theorem length_points {rows : List StoredPoint} (h : ∀ row ∈ rows, isNumeric row = true) :
    (rows.filterMap fun row => (reader.value row).map fun value =>
      (⟨ofTimestamptz row.eventTime, value⟩ : MetricPoint F)).length = rows.length := by
  rw [List.length_filterMap_eq_countP, List.countP_eq_length]
  intro row hrow
  obtain ⟨value, hvalue⟩ := exists_value (h row hrow)
  rw [hvalue]
  rfl

theorem metricWindowBetween_ok (h : metricWindowBetween reader telemetry deviceId streamKey start stop
      maxPoints = .ok window) :
    window.windowStart = start ∧ window.windowEnd = stop ∧
      window.points.length = metricCut telemetry deviceId streamKey start stop maxPoints := by
  unfold metricWindowBetween at h
  dsimp only at h
  cases hlimit : limit (pointLimit maxPoints) (orderByTime (·.eventTime)
      ((numericPoints telemetry deviceId streamKey).filter fun point =>
        toTimestamptz start ≤ point.eventTime ∧ point.eventTime ≤ toTimestamptz stop)) with
  | error e =>
    rw [hlimit] at h
    cases h
  | ok rows =>
    rw [hlimit] at h
    obtain rfl := Except.ok.inj h
    have hnumeric : ∀ row ∈ rows, isNumeric row = true := by
      intro row hrow
      rw [limit_ok hlimit] at hrow
      have hmem := (orderByTime_perm _ _).mem_iff.mp (List.mem_of_mem_take hrow)
      exact (of_decide_eq_true (List.mem_filter.mp (List.mem_of_mem_filter hmem)).2).2.2
    have hlength : rows.length =
        min (metricCount telemetry deviceId streamKey start stop) (pointLimit maxPoints).toNat := by
      rw [limit_ok hlimit, List.length_take, (orderByTime_perm _ _).length_eq, Nat.min_comm,
        metricCount, List.countP_eq_length_filter]
    refine ⟨rfl, rfl, ?_⟩
    rw [metricWindowOf, List.length_take, length_points hnumeric, hlength, metricCut,
      Nat.min_comm maxPoints]

theorem signalWindowsBetween_counts {P : Nat → Prop}
    (h : signalWindowsBetween reader telemetry deviceId streamKey channels start stop maxPoints =
      .ok windows) :
    (∃ window ∈ windows, P window.points.length) ↔
      ∃ count, SignalCount reader telemetry deviceId streamKey channels start stop maxPoints count ∧
        P count := by
  have hwindows := (gathers_of_signalWindowsBetween h).exists_window
    (P := fun points => P points.length)
  rw [hwindows]
  constructor
  · rintro ⟨key, hselected, hcarried, hp⟩
    rw [List.length_take, Nat.min_comm] at hp
    exact ⟨_, ⟨key, hselected, hcarried, rfl⟩, hp⟩
  · rintro ⟨_, ⟨key, hselected, hcarried, rfl⟩, hp⟩
    refine ⟨key, hselected, hcarried, ?_⟩
    rwa [List.length_take, Nat.min_comm]

theorem signalWindowsBetween_bounds
    (h : signalWindowsBetween reader telemetry deviceId streamKey channels start stop maxPoints =
      .ok windows) (hwindow : window ∈ windows) :
    window.windowStart = start ∧ window.windowEnd = stop :=
  have hmade := (gathers_of_signalWindowsBetween h).made window hwindow
  ⟨hmade.2.1, hmade.2.2.1⟩

theorem isEmpty_eq_false_iff_length {points : List (MetricPoint F)} :
    (!points.isEmpty) = true ↔ points.length ≠ 0 := by
  cases points <;> simp

theorem numericWindowsBetween_counts {P : Nat → Prop}
    (h : numericWindowsBetween reader telemetry deviceId streamKey channels start stop maxPoints =
      .ok windows) :
    (∃ window ∈ windows, P window.points.length) ↔
      ∃ count, IntervalCount reader telemetry deviceId streamKey channels start stop maxPoints count ∧
        P count := by
  unfold numericWindowsBetween at h
  cases hmetric : metricWindowBetween reader telemetry deviceId streamKey start stop maxPoints with
  | error e => simp [hmetric] at h
  | ok metric =>
    obtain ⟨-, -, hlength⟩ := metricWindowBetween_ok hmetric
    simp only [hmetric, isEmpty_eq_false_iff_length, hlength] at h
    split at h
    · next hsome =>
      obtain rfl := Except.ok.inj h
      simp only [List.mem_singleton, exists_eq_left, hlength]
      constructor
      · intro hp
        exact ⟨_, .metric hsome, hp⟩
      · rintro ⟨count, hcount, hp⟩
        cases hcount with
        | metric => exact hp
        | signal hnone => exact absurd hnone hsome
    · next hnone =>
      rw [signalWindowsBetween_counts h]
      refine exists_congr fun count => and_congr_left fun _ => ?_
      constructor
      · exact .signal (not_not.mp hnone)
      · intro hcount
        cases hcount with
        | metric hsome => exact absurd hsome hnone
        | signal _ hcount => exact hcount

theorem numericWindowsBetween_bounds
    (h : numericWindowsBetween reader telemetry deviceId streamKey channels start stop maxPoints =
      .ok windows) (hwindow : window ∈ windows) :
    window.windowStart = start ∧ window.windowEnd = stop := by
  unfold numericWindowsBetween at h
  cases hmetric : metricWindowBetween reader telemetry deviceId streamKey start stop maxPoints with
  | error e => simp [hmetric] at h
  | ok metric =>
    obtain ⟨hstart, hstop, -⟩ := metricWindowBetween_ok hmetric
    simp only [hmetric] at h
    split at h
    · obtain rfl := Except.ok.inj h
      obtain rfl := List.mem_singleton.mp hwindow
      exact ⟨hstart, hstop⟩
    · exact signalWindowsBetween_bounds h hwindow

theorem metricWindow_length
    (h : metricWindow reader telemetry deviceId streamKey windowSeconds maxPoints now = .ok window) :
    window.points.length = (latestPoint telemetry deviceId streamKey).elim 0 fun stop =>
      metricCut telemetry deviceId streamKey (stop - seconds windowSeconds) stop maxPoints := by
  unfold latestPoint
  cases hlatest : ((numericPoints telemetry deviceId streamKey).map (·.eventTime)).max? with
  | none =>
    rw [metricWindow_none hlatest] at h
    obtain rfl := Except.ok.inj h
    rfl
  | some latest =>
    rw [metricWindow_some hlatest] at h
    exact (metricWindowBetween_ok h).2.2

theorem signalWindows_counts {P : Nat → Prop}
    (h : signalWindows reader telemetry deviceId streamKey channels windowSeconds maxPoints =
      .ok windows) :
    (∃ window ∈ windows, P window.points.length) ↔
      ∃ stop count, latestSample reader telemetry deviceId streamKey = some stop ∧
        SignalCount reader telemetry deviceId streamKey channels (stop - seconds windowSeconds) stop
          maxPoints count ∧ P count := by
  unfold signalWindows at h
  unfold latestSample
  cases hlatest : ((telemetry.framesOf deviceId streamKey).map (·.lastSampleTime reader.rounding)).max? with
  | none =>
    simp only [hlatest] at h
    obtain rfl := Except.ok.inj h
    simp
  | some latest =>
    simp only [hlatest] at h
    rw [signalWindowsBetween_counts h]
    simp only [Option.map_some, Option.some.injEq, exists_and_left, exists_eq_left']

theorem numericWindows_counts {P : Nat → Prop}
    (h : numericWindows reader telemetry deviceId streamKey channels windowSeconds maxPoints now =
      .ok windows) :
    (∃ window ∈ windows, P window.points.length) ↔
      ∃ count, LatestCount reader telemetry deviceId streamKey channels windowSeconds maxPoints count ∧
        P count := by
  unfold numericWindows at h
  cases hmetric : metricWindow reader telemetry deviceId streamKey windowSeconds maxPoints now with
  | error e => simp [hmetric] at h
  | ok metric =>
    have hlength := metricWindow_length hmetric
    simp only [hmetric, isEmpty_eq_false_iff_length] at h
    split at h
    · next hsome =>
      obtain rfl := Except.ok.inj h
      simp only [List.mem_singleton, exists_eq_left]
      cases hlatest : latestPoint telemetry deviceId streamKey with
      | none =>
        rw [hlatest, Option.elim_none] at hlength
        exact absurd hlength hsome
      | some stop =>
        rw [hlatest, Option.elim_some] at hlength
        rw [hlength] at hsome ⊢
        constructor
        · intro hp
          exact ⟨_, .metric hlatest hsome, hp⟩
        · rintro ⟨count, hcount, hp⟩
          cases hcount with
          | metric hstop =>
            obtain rfl := Option.some.inj (hlatest.symm.trans hstop)
            exact hp
          | signal hnone => exact absurd (hnone stop hlatest) hsome
    · next hnone =>
      have hzero : ∀ stop, latestPoint telemetry deviceId streamKey = some stop →
          metricCut telemetry deviceId streamKey (stop - seconds windowSeconds) stop maxPoints = 0 := by
        intro stop hlatest
        rw [hlatest, Option.elim_some] at hlength
        rw [← hlength]
        exact not_not.mp hnone
      rw [signalWindows_counts h]
      constructor
      · rintro ⟨stop, count, hstop, hcount, hp⟩
        exact ⟨count, .signal hzero hstop hcount, hp⟩
      · rintro ⟨count, hcount, hp⟩
        cases hcount with
        | metric hstop hsome => exact absurd (hzero _ hstop) hsome
        | signal _ hstop hcount => exact ⟨_, count, hstop, hcount, hp⟩

/-! The points of a stream in an interval of time -/

def sampleTime (frame : StoredFrame) (sampleIndex : Nat) : Int :=
  ofTimestamptz (frame.eventTime + (sampleIndex * frame.sampleIntervalNs / 1000 : Nat))

def pointsIn (telemetry : Telemetry) (deviceId streamKey : List Char) (start stop : Int) : Nat :=
  (numericPoints telemetry deviceId streamKey).countP fun point =>
    start ≤ ofTimestamptz point.eventTime ∧ ofTimestamptz point.eventTime ≤ stop

def samplesIn (reader : Reader F) (telemetry : Telemetry) (deviceId streamKey key : List Char)
    (start stop : Int) : Nat :=
  ((telemetry.framesOf deviceId streamKey).map fun frame =>
    (channelsOf reader frame).countP (·.key = key) *
      (List.range frame.sampleCount).countP fun sampleIndex =>
        start ≤ sampleTime frame sampleIndex ∧ sampleTime frame sampleIndex ≤ stop).sum

def selectedKeys (reader : Reader F) (telemetry : Telemetry) (deviceId streamKey : List Char)
    (channels : List (List Char)) : List (List Char) :=
  if channels.isEmpty then (telemetry.framesOf deviceId streamKey).flatMap fun frame =>
    (channelsOf reader frame).map (·.key)
  else channels

/-- Fewer points of the stream than are asked for: of the metric, and of some selected channel. -/
def Lacking (reader : Reader F) (telemetry : Telemetry) (deviceId streamKey : List Char)
    (channels : List (List Char)) (start stop : Int) (minCount : Nat) : Prop :=
  pointsIn telemetry deviceId streamKey start stop < minCount ∧
    (selectedKeys reader telemetry deviceId streamKey channels = [] ∨
      ∃ key ∈ selectedKeys reader telemetry deviceId streamKey channels,
        samplesIn reader telemetry deviceId streamKey key start stop < minCount)

instance {minCount : Nat} : Decidable (Lacking reader telemetry deviceId streamKey channels start stop
    minCount) := inferInstanceAs (Decidable (_ ∧ (_ ∨ _)))

/-! The detectors that count -/

def DetectorConfig.minimum (config : DetectorConfig F) : Nat := config.minCount.getD 1

def DetectorConfig.maximum (config : DetectorConfig F) : Nat :=
  config.maxCount.getD Detectors.usizeMax

variable {config : DetectorConfig F} {floats : Floats F} {points : List (MetricPoint F)}

theorem evaluate_missingData : evaluate floats "missing_data".toList points config =
    .ok (Detectors.missingData floats points config) := rfl

theorem evaluate_eventSequence : evaluate floats "event_sequence".toList points config =
    .ok (Detectors.eventSequence floats points config) := rfl

theorem missingData_crossed :
    (Detectors.missingData floats points config).crossed = true ↔ points.length < config.minimum :=
  decide_eq_true_iff

theorem eventSequence_crossed : (Detectors.eventSequence floats points config).crossed = true ↔
    points.length < config.minimum ∨ config.maximum < points.length := by
  simp [Detectors.eventSequence, result, DetectorConfig.minimum, DetectorConfig.maximum]

/-- A count that is reported by missing_data or event_sequence. -/
def Crosses (detectorType : List Char) (config : DetectorConfig F) (count : Nat) : Prop :=
  count < config.minimum ∨ detectorType = "event_sequence".toList ∧ config.maximum < count

theorem evaluate_crosses {detectorType : List Char}
    (htype : detectorType = "event_sequence".toList ∨ detectorType = "missing_data".toList) :
    (∃ result, evaluate floats detectorType points config = .ok result ∧ result.crossed = true) ↔
      Crosses detectorType config points.length := by
  rcases htype with rfl | rfl
  · simp only [evaluate_eventSequence, Except.ok.injEq, exists_eq_left', eventSequence_crossed,
      Crosses, true_and]
  · have hne : "missing_data".toList ≠ "event_sequence".toList := by decide
    simp only [evaluate_missingData, Except.ok.injEq, exists_eq_left', missingData_crossed, Crosses,
      hne, false_and, or_false]

end Aetus.Anomaly
