import Aetus.Anomaly.Windows
import Aetus.EndToEnd.SampleTimes
import Aetus.Query.FrameSamples
import Aetus.Query.Repository
import Aetus.Query.SeriesFaithful

/-!
The samples of a range. Both services first select frames by the times of their first and last
samples, and then the samples of these frames. In exact arithmetic this loses nothing.
-/

set_option autoImplicit false

namespace Aetus
open Aetus.Base Aetus.Postgres

variable {F : Type} {telemetry : Telemetry} {rounding : Rounding} {deviceId streamKey : List Char}
  {frame : StoredFrame} {start stop : Timestamptz}

theorem framesBetween_flatMap_perm {β : Type} {g : StoredFrame → List β}
    (h : ∀ frame ∈ telemetry.framesOf deviceId streamKey,
      frame.overlaps rounding deviceId streamKey start stop = false → g frame = []) :
    ((telemetry.framesBetween rounding deviceId streamKey start stop).flatMap g).Perm
      ((telemetry.framesOf deviceId streamKey).flatMap g) := by
  rw [← flatMap_filter_of_nil h]
  exact framesBetween_perm.flatMap_right g

def samplesInRange (rounding : Rounding) (start stop : Timestamptz) (frame : StoredFrame) :
    List (StoredFrame × Nat) :=
  ((List.range frame.sampleCount).filter fun j =>
    start ≤ Query.sampleTime rounding frame j ∧ Query.sampleTime rounding frame j ≤ stop).map
      fun j => (frame, j)

def selectedInRange (rounding : Rounding) (start stop : Timestamptz) (frame : StoredFrame) :
    List (StoredFrame × Nat) :=
  (Query.selectedIndices (some start) (some stop) (Query.sampleTimestamps rounding frame.eventTime
    frame.sampleIntervalNs frame.sampleCount)).map fun e => (frame, e.2)

theorem selectedInRange_eq (rounding : Rounding) (start stop : Timestamptz) (frame : StoredFrame) :
    selectedInRange rounding start stop frame = samplesInRange rounding start stop frame := by
  rw [selectedInRange, Query.selectedIndices_sampleTimestamps, List.map_map, samplesInRange,
    Query.selectedSamples]
  simp only [Query.isSelected, Option.all_some, Bool.decide_and]
  rfl

theorem samplesInRange_of_not_overlaps (h : frame ∈ telemetry.framesOf deviceId streamKey)
    (hout : frame.overlaps unrounded deviceId streamKey start stop = false) :
    samplesInRange unrounded start stop frame = [] := by
  refine List.map_eq_nil_iff.mpr (List.filter_eq_nil_iff.mpr fun j hj hin => ?_)
  obtain ⟨hstart, hstop⟩ := of_decide_eq_true hin
  rw [Query.overlaps_of_sampleTime h (List.mem_range.mp hj) hstart hstop] at hout
  cases hout

theorem query_selection {reader : Query.Reader F} (h : reader.rounding = unrounded)
    (telemetry : Telemetry) (deviceId streamKey : List Char) (start stop : Timestamptz) :
    ((Query.readSignalFrames reader telemetry deviceId streamKey start stop).flatMap
        (selectedInRange unrounded start stop)).Perm
      ((telemetry.framesOf deviceId streamKey).flatMap (samplesInRange unrounded start stop)) := by
  rw [funext (selectedInRange_eq unrounded start stop), Query.readSignalFrames, h]
  exact framesBetween_flatMap_perm fun frame h => samplesInRange_of_not_overlaps h

theorem collectFrame_timestamps {reader : Query.Reader F} {start stop : Option Timestamptz}
    {before after : Query.Collected F}
    (h : Query.collectFrame reader start stop before frame = .ok after) :
    after.timestamps.length =
      before.timestamps.length + (Query.selectedSamples reader.rounding start stop frame).length := by
  unfold Query.collectFrame at h
  split at h
  · cases h
  · dsimp only at h
    split at h
    · cases h
    · obtain rfl := Except.ok.inj h
      rw [List.length_append, List.length_map, Query.selectedIndices_sampleTimestamps,
        List.length_map]

theorem foldlM_collectFrame_timestamps {reader : Query.Reader F} {start stop : Option Timestamptz}
    {frames : List StoredFrame} {before after : Query.Collected F}
    (h : frames.foldlM (Query.collectFrame reader start stop) before = .ok after) :
    after.timestamps.length = before.timestamps.length +
      (frames.flatMap (Query.selectedSamples reader.rounding start stop)).length := by
  induction frames generalizing before with
  | nil =>
    obtain rfl := Except.ok.inj h
    rfl
  | cons frame frames ih =>
    rw [List.foldlM_cons] at h
    cases hfirst : Query.collectFrame reader start stop before frame with
    | error e =>
      rw [hfirst] at h
      cases h
    | ok collected =>
      rw [hfirst] at h
      rw [ih h, collectFrame_timestamps hfirst, List.flatMap_cons, List.length_append, Nat.add_assoc]

theorem sourceSampleCount_eq {reader : Query.Reader F} {frames : List StoredFrame} {maxPoints : Int}
    {series : Query.SampledSeries F}
    (h : Query.rawFramesToSeries reader frames maxPoints (some start) (some stop) = .ok series) :
    series.sourceSampleCount =
      some (frames.flatMap (selectedInRange reader.rounding start stop)).length := by
  have hsame : (frames.flatMap (selectedInRange reader.rounding start stop)).length =
      (frames.flatMap (Query.selectedSamples reader.rounding (some start) (some stop))).length := by
    rw [List.length_flatMap, List.length_flatMap]
    refine congrArg List.sum (List.map_congr_left fun frame _ => ?_)
    rw [selectedInRange, List.length_map, Query.selectedIndices_sampleTimestamps, List.length_map]
  unfold Query.rawFramesToSeries at h
  split at h
  · cases h
  · next collected hrun =>
    have hcount := foldlM_collectFrame_timestamps hrun
    rw [List.length_nil, Nat.zero_add, ← hsame] at hcount
    obtain rfl := Except.ok.inj h
    rw [← hcount]
    split
    · rfl
    · split <;> rfl

/-! The windows of the anomaly service -/

/-- The products that the anomaly service divides fit its 64 bits. -/
def ProductsFit (frame : StoredFrame) : Prop :=
  ∀ j < frame.sampleCount, j * frame.sampleIntervalNs < 2 ^ 63

theorem rowOf_sampleTime {channels : List (Anomaly.ChannelDef F)} (hfit : ProductsFit frame) {j : Nat}
    (hj : j < frame.sampleCount) : (Anomaly.rowOf frame channels).sampleTime j =
      1000 * (frame.eventTime + ((j * frame.sampleIntervalNs / 1000 : Nat) : Int)) := by
  rw [Anomaly.SignalFrameRow.sampleTime]
  simp only [Anomaly.rowOf, Anomaly.ofTimestamptz]
  rw [elapsedMicros_of_lt (hfit j hj), Int.mul_add]

theorem overlaps_of_rowOf_sampleTime {channels : List (Anomaly.ChannelDef F)}
    (h : frame ∈ telemetry.framesOf deviceId streamKey) (hfit : ProductsFit frame) {j : Nat}
    (hj : j < frame.sampleCount) {windowStart windowEnd : Int}
    (hwindow : (Anomaly.rowOf frame channels).inWindow windowStart windowEnd j = true) :
    frame.overlaps unrounded deviceId streamKey (Anomaly.toTimestamptz windowStart)
      (Anomaly.toTimestamptz windowEnd) = true := by
  obtain ⟨hstart, hstop⟩ := of_decide_eq_true hwindow
  rw [rowOf_sampleTime hfit hj] at hstart hstop
  have hcut : ((j * frame.sampleIntervalNs / 1000 : Nat) : Int) ≤
      Query.sampleDelta unrounded frame.sampleIntervalNs j := by
    rw [Query.sampleDelta_unrounded, Int.natCast_ediv, Int.natCast_mul]
    exact le_divRoundHalfEven
  have hnonneg := Int.natCast_nonneg (j * frame.sampleIntervalNs / 1000)
  have hlast := Int.le_trans (Int.add_le_add_left hcut frame.eventTime)
    (Query.sampleTime_le_lastSampleTime hj)
  have hstop' : frame.eventTime ≤ Anomaly.toTimestamptz windowEnd := by
    unfold Anomaly.toTimestamptz Timestamptz at *
    omega
  have hstart' : Anomaly.toTimestamptz windowStart ≤ frame.lastSampleTime unrounded := by
    unfold Anomaly.toTimestamptz Timestamptz at *
    omega
  exact (Query.overlaps_of_framesOf h).mpr ⟨hstop', .inr hstart'⟩

theorem pointsBetween_of_not_overlaps {reader : Anomaly.Reader F} {windowStart windowEnd : Int}
    {key : List Char} (h : frame ∈ telemetry.framesOf deviceId streamKey) (hfit : ProductsFit frame)
    (hout : frame.overlaps unrounded deviceId streamKey (Anomaly.toTimestamptz windowStart)
      (Anomaly.toTimestamptz windowEnd) = false) :
    Anomaly.pointsBetween reader windowStart windowEnd key frame = [] := by
  have hnone : (List.range frame.sampleCount).filter
      ((Anomaly.rowOf frame (Anomaly.channelsOf reader frame)).inWindow windowStart windowEnd) = [] := by
    refine List.filter_eq_nil_iff.mpr fun j hj hwindow => ?_
    rw [overlaps_of_rowOf_sampleTime h hfit (List.mem_range.mp hj) hwindow] at hout
    cases hout
  rw [Anomaly.pointsBetween, hnone]
  rfl

/-- Every selected channel's window, before it is cut, has all samples of all stored frames of the
stream whose times lie in the window. -/
theorem anomaly_selection (reader : Anomaly.Reader F) (hexact : reader.rounding = unrounded)
    (telemetry : Telemetry) (deviceId streamKey : List Char) (selectedChannels : List (List Char))
    (windowStart windowEnd : Int) (maxPoints : Nat)
    (hframes : ∀ frame ∈ telemetry.framesOf deviceId streamKey,
      Anomaly.FrameReadable reader frame ∧ ProductsFit frame) :
    ∃ windows, Anomaly.signalWindowsBetween reader telemetry deviceId streamKey selectedChannels
        windowStart windowEnd maxPoints = .ok windows ∧
      ∀ key, Anomaly.isSelected selectedChannels key = true →
        ∃ points : List (Anomaly.MetricPoint F), Anomaly.pointsUnder windows key = points.take maxPoints ∧
          points.Perm ((telemetry.framesOf deviceId streamKey).flatMap
            (Anomaly.pointsBetween reader windowStart windowEnd key)) := by
  obtain ⟨windows, hread, hgathers⟩ := Anomaly.signalWindowsBetween_gathers reader telemetry deviceId
    streamKey selectedChannels windowStart windowEnd maxPoints fun frame h => (hframes frame h).1
  rw [hexact] at hgathers
  refine ⟨windows, hread, fun key hselected => ⟨_, ?_, framesBetween_flatMap_perm fun frame h hout =>
    pointsBetween_of_not_overlaps h (hframes frame h).2 hout⟩⟩
  cases hwindow : Anomaly.windowOf windows key with
  | none =>
    rw [Anomaly.flatMap_pointsBetween_of_not_carried ((hgathers.opened key hselected).mp hwindow),
      List.take_nil, Anomaly.pointsUnder, hwindow]
    rfl
  | some window =>
    rw [Anomaly.pointsUnder, hwindow, ← hgathers.points key window hselected hwindow]
    rfl

/-- Nothing is lost: for the query API whatever the frames hold, for the anomaly service where
they can be read. -/
theorem rangeSelection_complete (telemetry : Telemetry) (deviceId streamKey : List Char)
    (start stop : Timestamptz) (windowStart windowEnd : Int) :
    (∀ reader : Query.Reader F, reader.rounding = unrounded →
      ((Query.readSignalFrames reader telemetry deviceId streamKey start stop).flatMap
          (selectedInRange unrounded start stop)).Perm
        ((telemetry.framesOf deviceId streamKey).flatMap (samplesInRange unrounded start stop)) ∧
      ∀ (maxPoints : Int) (series : Query.SampledSeries F), Query.rawFramesToSeries reader
          (Query.readSignalFrames reader telemetry deviceId streamKey start stop) maxPoints
          (some start) (some stop) = .ok series → series.sourceSampleCount = some
            ((telemetry.framesOf deviceId streamKey).flatMap
              (samplesInRange unrounded start stop)).length) ∧
    ∀ reader : Anomaly.Reader F, reader.rounding = unrounded →
      ∀ (selectedChannels : List (List Char)) (maxPoints : Nat),
      (∀ frame ∈ telemetry.framesOf deviceId streamKey,
        Anomaly.FrameReadable reader frame ∧ ProductsFit frame) →
      ∃ windows, Anomaly.signalWindowsBetween reader telemetry deviceId streamKey selectedChannels
          windowStart windowEnd maxPoints = .ok windows ∧
        ∀ key, Anomaly.isSelected selectedChannels key = true →
          ∃ points : List (Anomaly.MetricPoint F), Anomaly.pointsUnder windows key = points.take maxPoints ∧
            points.Perm ((telemetry.framesOf deviceId streamKey).flatMap
              (Anomaly.pointsBetween reader windowStart windowEnd key)) := by
  refine ⟨fun reader hexact => ?_, fun reader hexact selectedChannels maxPoints =>
    anomaly_selection reader hexact telemetry deviceId streamKey selectedChannels windowStart windowEnd
      maxPoints⟩
  have hquery := query_selection hexact telemetry deviceId streamKey start stop
  refine ⟨hquery, fun maxPoints series hseries => ?_⟩
  rw [sourceSampleCount_eq hseries, hexact, hquery.length_eq]

def exactReader : Query.Reader Int := { Query.wholeReader with rounding := unrounded }

def wholeWindowReader : Anomaly.Reader Int where
  doubles := wholeDoubles
  number := fun _ => 0
  channelsFromStr := fun text =>
    match Query.keysOfText text with
    | some keys => .ok (keys.map fun key => ⟨key, none, none, none⟩)
    | none => .error "channels"
  rounding := unrounded

/-- A frame of two samples, the second of which the range has. -/
theorem rangeSelection_complete_straddling :
    let telemetry : Telemetry :=
      ⟨["device".toList], [], [Query.int16Frame ["a".toList] 0 2 [1, 0, 2, 0]]⟩
    (∃ series, Query.rawFramesToSeries exactReader (Query.readSignalFrames exactReader telemetry
        "device".toList "imu".toList 500 1500) 10 (some 500) (some 1500) = .ok series ∧
      series.sourceSampleCount = some 1) ∧
    ∃ windows, Anomaly.signalWindowsBetween wholeWindowReader telemetry "device".toList "imu".toList
        [] 500000 1500000 10 = .ok windows ∧
      (Anomaly.pointsUnder windows "a".toList).length = 1 := by
  intro telemetry
  obtain ⟨hquery, hwindows⟩ := rangeSelection_complete (F := Int) telemetry "device".toList
    "imu".toList 500 1500 500000 1500000
  have hseries : ∃ series, Query.rawFramesToSeries exactReader (Query.readSignalFrames exactReader
      telemetry "device".toList "imu".toList 500 1500) 10 (some 500) (some 1500) = .ok series := by
    have hframes : ∀ frame ∈ Query.readSignalFrames exactReader telemetry "device".toList
        "imu".toList 500 1500, Query.FrameDecodable exactReader frame ∧
          (Query.channelKeys exactReader frame).Nodup := by
      intro frame hframe
      have hstored : frame ∈ telemetry.frames :=
        List.mem_of_mem_filter (mem_framesOf_of_mem_framesBetween hframe)
      obtain rfl := List.mem_singleton.mp hstored
      have hdecodable : Query.FrameDecodable Query.wholeReader
          (Query.int16Frame ["a".toList] 0 2 [1, 0, 2, 0]) :=
        Query.int16Frame_decodable (by decide +kernel) (by decide) (by decide) (by decide)
      exact ⟨⟨hdecodable.hasCount, hdecodable.hasChannels, hdecodable.encoding, hdecodable.layout,
        hdecodable.length⟩, by decide +kernel⟩
    obtain ⟨series, -, hseries, -⟩ :=
      Query.rawFramesToSeries_channels (some 500) (some 1500) hframes 10
    exact ⟨series, hseries⟩
  obtain ⟨series, hseries⟩ := hseries
  refine ⟨⟨series, hseries, ((hquery exactReader rfl).2 10 series hseries).trans (by decide +kernel)⟩,
    ?_⟩
  obtain ⟨windows, hread, hpoints⟩ := hwindows wholeWindowReader rfl [] 10 fun frame hframe => by
    obtain rfl := List.mem_singleton.mp (List.mem_of_mem_filter hframe)
    refine ⟨⟨rfl, by decide +kernel, ⟨rfl, fun _ _ _ => rfl⟩, .inl rfl, by decide +kernel⟩,
      fun j hj => ?_⟩
    have htwo : j < 2 := hj
    show j * 1000000 < 2 ^ 63
    omega
  obtain ⟨points, hcut, hperm⟩ := hpoints "a".toList rfl
  refine ⟨windows, hread, ?_⟩
  rw [hcut, List.length_take, hperm.length_eq]
  decide +kernel

end Aetus
