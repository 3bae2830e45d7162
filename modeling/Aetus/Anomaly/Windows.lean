import Aetus.Anomaly.Repository
import Aetus.Base.Lists
import Aetus.Postgres.Telemetry

/-!
The anomaly service's repository.rs: the windows of numbers that are read for a device and a
stream. Times are nanoseconds here, and microseconds in the database.
-/

set_option autoImplicit false

namespace Aetus.Anomaly
open Aetus.Base Aetus.Postgres

variable {F : Type}

/-- What the rows are read with: `serde_json::from_str` on a text of channels, the numbers of the
columns as doubles, and how PostgreSQL rounds the doubles that it computes with. -/
structure Reader (F : Type) where
  doubles : Doubles F
  number : Double → F
  channelsFromStr : List Char → Except String (List (ChannelDef F))
  rounding : Rounding

/-- A time as a parameter of a statement. The clock reads no time before 2000. -/
def toTimestamptz (time : Int) : Timestamptz := time / 1000

def ofTimestamptz (time : Timestamptz) : Int := 1000 * time

@[simp] theorem toTimestamptz_ofTimestamptz (time : Timestamptz) :
    toTimestamptz (ofTimestamptz time) = time :=
  Int.mul_ediv_cancel_left time (by decide)

/-- `Duration::seconds` -/
def seconds (count : Int) : Int := 1000000000 * count

/-- A column as `double precision`; those that are read hold no strings. -/
def Reader.columnValue (reader : Reader F) : Ingest.NormalizedValue → F
  | .double value => reader.number value
  | .int value => reader.doubles.ofInt value
  | .bool value => reader.doubles.ofInt (if value then 1 else 0)
  | .string _ => reader.doubles.ofInt 0

/-- `COALESCE(p.value_double, p.value_int::double precision, CASE ...)` -/
def Reader.value (reader : Reader F) (point : StoredPoint) : Option F :=
  ((point.valueDouble.or point.valueInt).or point.valueBool).map reader.columnValue

def isNumeric (point : StoredPoint) : Bool :=
  point.valueDouble.isSome || point.valueInt.isSome || point.valueBool.isSome

def numericPoints (telemetry : Telemetry) (deviceId streamKey : List Char) : List StoredPoint :=
  telemetry.points.filter fun point =>
    point.device = deviceId ∧ point.metric.metricKey = streamKey ∧ isNumeric point = true

/-- A `LIMIT` that is negative is an error of the statement. -/
def limit {ρ : Type} (count : Int) (rows : List ρ) : Except Failure (List ρ) :=
  if count < 0 then .error (.bail "LIMIT must not be negative") else .ok (rows.take count.toNat)

theorem limit_ok {ρ : Type} {count : Int} {rows taken : List ρ} (h : limit count rows = .ok taken) :
    taken = rows.take count.toNat := by
  unfold limit at h
  split at h
  · cases h
  · exact (Except.ok.inj h).symm

/-- `max_points as i64 + 1`, which wraps. -/
def pointLimit (maxPoints : Nat) : Int :=
  if maxPoints + 1 < 2 ^ 63 then maxPoints + 1 else maxPoints + 1 - 2 ^ 64

def metricWindowOf (reader : Reader F) (windowStart windowEnd : Int) (maxPoints : Nat)
    (rows : List StoredPoint) : NumericWindow F :=
  let points := rows.filterMap fun row =>
    (reader.value row).map fun value => ⟨ofTimestamptz row.eventTime, value⟩
  { sourceKind := "metric"
    channelKey := none
    windowStart := windowStart
    windowEnd := windowEnd
    points := points.take maxPoints
    truncated := maxPoints < points.length }

def metricWindowBetween (reader : Reader F) (telemetry : Telemetry) (deviceId streamKey : List Char)
    (windowStart windowEnd : Int) (maxPoints : Nat) : Except Failure (NumericWindow F) :=
  let rows := (numericPoints telemetry deviceId streamKey).filter fun point =>
    toTimestamptz windowStart ≤ point.eventTime ∧ point.eventTime ≤ toTimestamptz windowEnd
  (limit (pointLimit maxPoints) (orderByTime (·.eventTime) rows)).map
    (metricWindowOf reader windowStart windowEnd maxPoints)

/-- The clock is read where the stream has no numeric point. -/
def metricWindow (reader : Reader F) (telemetry : Telemetry) (deviceId streamKey : List Char)
    (windowSeconds : Int) (maxPoints : Nat) (now : Int) : Except Failure (NumericWindow F) :=
  match ((numericPoints telemetry deviceId streamKey).map (·.eventTime)).max? with
  | none => .ok ⟨"metric", none, now, now, [], false⟩
  | some latestEventTime =>
    let windowEnd := ofTimestamptz latestEventTime
    metricWindowBetween reader telemetry deviceId streamKey (windowEnd - seconds windowSeconds)
      windowEnd maxPoints

def rowOf (frame : StoredFrame) (channels : List (ChannelDef F)) : SignalFrameRow F where
  eventTime := ofTimestamptz frame.eventTime
  sampleIntervalNs := frame.sampleIntervalNs
  sampleCount := frame.sampleCount
  samples := frame.samples
  encoding := frame.signal.encoding
  layout := frame.signal.layout
  channels := channels

def appendFrame (reader : Reader F) (selectedChannels : List (List Char))
    (windowStart windowEnd : Int) (maxPoints : Nat) (windows : List (NumericWindow F))
    (frame : StoredFrame) : Except Failure (List (NumericWindow F)) :=
  match reader.channelsFromStr frame.signal.channelsJson with
  | .error message => .error (.bail message)
  | .ok channels =>
    appendSignalFramePoints reader.doubles windows (rowOf frame channels) selectedChannels
      windowStart windowEnd maxPoints

def signalWindowsBetween (reader : Reader F) (telemetry : Telemetry)
    (deviceId streamKey : List Char) (selectedChannels : List (List Char))
    (windowStart windowEnd : Int) (maxPoints : Nat) : Except Failure (List (NumericWindow F)) :=
  (telemetry.framesBetween reader.rounding deviceId streamKey (toTimestamptz windowStart)
    (toTimestamptz windowEnd)).foldlM
      (appendFrame reader selectedChannels windowStart windowEnd maxPoints) []

def signalWindows (reader : Reader F) (telemetry : Telemetry) (deviceId streamKey : List Char)
    (selectedChannels : List (List Char)) (windowSeconds : Int) (maxPoints : Nat) :
    Except Failure (List (NumericWindow F)) :=
  match ((telemetry.framesOf deviceId streamKey).map (·.lastSampleTime reader.rounding)).max? with
  | none => .ok []
  | some latestEventTime =>
    let windowEnd := ofTimestamptz latestEventTime
    signalWindowsBetween reader telemetry deviceId streamKey selectedChannels
      (windowEnd - seconds windowSeconds) windowEnd maxPoints

def numericWindows (reader : Reader F) (telemetry : Telemetry) (deviceId streamKey : List Char)
    (channels : List (List Char)) (windowSeconds : Int) (maxPoints : Nat) (now : Int) :
    Except Failure (List (NumericWindow F)) :=
  match metricWindow reader telemetry deviceId streamKey windowSeconds maxPoints now with
  | .error e => .error e
  | .ok metric =>
    if !metric.points.isEmpty then .ok [metric]
    else signalWindows reader telemetry deviceId streamKey channels windowSeconds maxPoints

def numericWindowsBetween (reader : Reader F) (telemetry : Telemetry)
    (deviceId streamKey : List Char) (channels : List (List Char)) (windowStart windowEnd : Int)
    (maxPoints : Nat) : Except Failure (List (NumericWindow F)) :=
  match metricWindowBetween reader telemetry deviceId streamKey windowStart windowEnd maxPoints with
  | .error e => .error e
  | .ok metric =>
    if !metric.points.isEmpty then .ok [metric]
    else
      signalWindowsBetween reader telemetry deviceId streamKey channels windowStart windowEnd
        maxPoints

section
variable {reader : Reader F} {telemetry : Telemetry} {deviceId streamKey : List Char}
  {channels : List (List Char)} {windowSeconds now now' : Int} {maxPoints : Nat}

theorem metricWindow_none
    (h : ((numericPoints telemetry deviceId streamKey).map (·.eventTime)).max? = none) :
    metricWindow reader telemetry deviceId streamKey windowSeconds maxPoints now =
      .ok ⟨"metric", none, now, now, [], false⟩ := by
  rw [metricWindow, h]

theorem metricWindow_some {latest : Timestamptz}
    (h : ((numericPoints telemetry deviceId streamKey).map (·.eventTime)).max? = some latest) :
    metricWindow reader telemetry deviceId streamKey windowSeconds maxPoints now =
      metricWindowBetween reader telemetry deviceId streamKey
        (ofTimestamptz latest - seconds windowSeconds) (ofTimestamptz latest) maxPoints := by
  rw [metricWindow, h]

/-- The windows do not depend on the clock, which is read where there is no point. -/
theorem numericWindows_now :
    numericWindows reader telemetry deviceId streamKey channels windowSeconds maxPoints now =
      numericWindows reader telemetry deviceId streamKey channels windowSeconds maxPoints now' := by
  unfold numericWindows
  cases h : ((numericPoints telemetry deviceId streamKey).map (·.eventTime)).max? with
  | none =>
    rw [metricWindow_none h, metricWindow_none h]
    rfl
  | some latest => rw [metricWindow_some h, metricWindow_some h]

end

/-! What the windows of a signal stream have -/

def numberFormat (encoding : List Char) : NumberFormat :=
  if encoding = "float32_le".toList then .float32
  else if encoding = "int16_le".toList then .int16
  else if encoding = "uint16_le".toList then .uint16
  else .int32

theorem reads_numberFormat {encoding : List Char} {width : Nat}
    (h : sampleWidthBytes encoding = .ok width) : Reads encoding (numberFormat encoding) := by
  unfold sampleWidthBytes at h
  split at h
  · next hfour =>
    rcases hfour with rfl | rfl
    · exact ⟨rfl, fun _ _ _ => rfl⟩
    · exact ⟨rfl, fun _ _ _ => rfl⟩
  · split at h
    · next htwo =>
      rcases htwo with rfl | rfl
      · exact ⟨rfl, fun _ _ _ => rfl⟩
      · exact ⟨rfl, fun _ _ _ => rfl⟩
    · cases h

def channelsOf (reader : Reader F) (frame : StoredFrame) : List (ChannelDef F) :=
  match reader.channelsFromStr frame.signal.channelsJson with
  | .ok channels => channels
  | .error _ => []

structure FrameReadable (reader : Reader F) (frame : StoredFrame) : Prop where
  parses : reader.channelsFromStr frame.signal.channelsJson = .ok (channelsOf reader frame)
  hasChannels : channelsOf reader frame ≠ []
  encoding : Reads frame.signal.encoding (numberFormat frame.signal.encoding)
  layout : frame.signal.layout = "interleaved".toList ∨ frame.signal.layout = "planar".toList
  length : frame.samples.length = frame.sampleCount * (channelsOf reader frame).length *
    (numberFormat frame.signal.encoding).size

def pointsBetween (reader : Reader F) (windowStart windowEnd : Int) (key : List Char)
    (frame : StoredFrame) : List (MetricPoint F) :=
  let row := rowOf frame (channelsOf reader frame)
  valuesOf key (row.pointsOf reader.doubles (numberFormat frame.signal.encoding)
    ((List.range frame.sampleCount).filter (row.inWindow windowStart windowEnd)))

def Carried (reader : Reader F) (frames : List StoredFrame) (key : List Char) : Prop :=
  ∃ frame ∈ frames, 0 < frame.sampleCount ∧ key ∈ (channelsOf reader frame).map (·.key)

structure WellMade (selectedChannels : List (List Char)) (windowStart windowEnd : Int)
    (windows : List (NumericWindow F)) : Prop where
  nodup : (windows.map (·.channelKey)).Nodup
  made : ∀ window ∈ windows, window.sourceKind = "signal_frame" ∧
    window.windowStart = windowStart ∧ window.windowEnd = windowEnd ∧
    ∃ key, window.channelKey = some key ∧ isSelected selectedChannels key = true

variable {selectedChannels : List (List Char)} {windowStart windowEnd : Int}
  {windows windows' : List (NumericWindow F)} {reader : Reader F} {maxPoints : Nat}
  {frames : List StoredFrame} {frame : StoredFrame}

theorem WellMade.openWindow (h : WellMade selectedChannels windowStart windowEnd windows)
    (channel : ChannelDef F) : WellMade selectedChannels windowStart windowEnd
      (openWindow selectedChannels windowStart windowEnd windows channel) := by
  unfold Anomaly.openWindow
  split
  · next hopen =>
    refine ⟨UniqueBy.append_row h.nodup hopen.2, fun window hwindow => ?_⟩
    rcases List.mem_append.mp hwindow with hmem | hnew
    · exact h.made window hmem
    · obtain rfl := List.mem_singleton.mp hnew
      exact ⟨rfl, rfl, rfl, channel.key, rfl, hopen.1⟩
  · exact h

def KeepsFrame (change : NumericWindow F → NumericWindow F) : Prop :=
  ∀ window, (change window).sourceKind = window.sourceKind ∧
    (change window).channelKey = window.channelKey ∧
    (change window).windowStart = window.windowStart ∧
    (change window).windowEnd = window.windowEnd

theorem WellMade.updateFirstBy (h : WellMade selectedChannels windowStart windowEnd windows)
    {change : NumericWindow F → NumericWindow F} (hchange : KeepsFrame change) (key : List Char) :
    WellMade selectedChannels windowStart windowEnd
      (updateFirstBy (·.channelKey) (some key) change windows) := by
  refine ⟨?_, fun window hwindow => ?_⟩
  · rw [map_updateFirstBy fun window => (hchange window).2.1]
    exact h.nodup
  · rcases mem_updateFirstBy hwindow with hmem | ⟨before, hbefore, rfl⟩
    · exact h.made window hmem
    · obtain ⟨hkind, hkey, hstart, hend⟩ := hchange before
      rw [hkind, hkey, hstart, hend]
      exact h.made before hbefore

theorem pushSample_wellMade {doubles : Doubles F} {row : SignalFrameRow F} {width sampleIndex : Nat}
    {entry : ChannelDef F × Nat}
    (h : pushSample doubles row width selectedChannels maxPoints sampleIndex windows entry =
      .ok windows')
    (hmade : WellMade selectedChannels windowStart windowEnd windows) :
    WellMade selectedChannels windowStart windowEnd windows' := by
  obtain ⟨channel, channelIndex⟩ := entry
  simp only [pushSample] at h
  split at h
  · exact Except.ok.inj h ▸ hmade
  · split at h
    · exact Except.ok.inj h ▸ hmade
    · split at h
      · rw [← Except.ok.inj h]
        refine hmade.updateFirstBy ?_ channel.key
        exact fun _ => ⟨rfl, rfl, rfl, rfl⟩
      · split at h
        · cases h
        · rw [← Except.ok.inj h]
          refine hmade.updateFirstBy ?_ channel.key
          exact fun _ => ⟨rfl, rfl, rfl, rfl⟩

theorem appendSignalFramePoints_wellMade {doubles : Doubles F} {row : SignalFrameRow F}
    (h : appendSignalFramePoints doubles windows row selectedChannels windowStart windowEnd
      maxPoints = .ok windows')
    (hmade : WellMade selectedChannels windowStart windowEnd windows) :
    WellMade selectedChannels windowStart windowEnd windows' := by
  have hopen : WellMade selectedChannels windowStart windowEnd
      (row.channels.foldl (openWindow selectedChannels windowStart windowEnd) windows) :=
    List.foldlRecOn (motive := WellMade selectedChannels windowStart windowEnd) _ _ hmade
      fun windows h channel _ => h.openWindow channel
  unfold appendSignalFramePoints at h
  split at h
  · exact Except.ok.inj h ▸ hmade
  · split at h
    · cases h
    · dsimp only at h
      split at h
      · cases h
      · split at h
        · cases h
        · refine foldlM_preserves (fun sampleIndex _ windows windows' hmade h => ?_) hopen h
          split at h
          · exact Except.ok.inj h ▸ hmade
          · exact foldlM_preserves (fun entry _ _ _ hmade h => pushSample_wellMade h hmade) hmade h

theorem points_foldl_push {window : NumericWindow F} {points : List (MetricPoint F)}
    (h : window.points.length ≤ maxPoints) :
    (points.foldl (NumericWindow.push maxPoints) window).points =
      (window.points ++ points).take maxPoints := by
  induction points generalizing window with
  | nil => rw [List.foldl_nil, List.append_nil, List.take_of_length_le h]
  | cons point points ih =>
    by_cases hfull : maxPoints ≤ window.points.length
    · have hlength : window.points.length = maxPoints := Nat.le_antisymm h hfull
      have hrest := ih (show { window with truncated := true }.points.length ≤ maxPoints from h)
      rw [List.foldl_cons, NumericWindow.push, if_pos hfull, hrest, ← hlength, List.take_left,
        List.take_left]
    · have hroom : (window.points ++ [point]).length ≤ maxPoints := by
        rw [List.length_append, List.length_singleton]
        omega
      rw [List.foldl_cons, NumericWindow.push, if_neg hfull, ih hroom, List.append_assoc,
        List.singleton_append]

structure Gathers (reader : Reader F) (selectedChannels : List (List Char))
    (windowStart windowEnd : Int) (maxPoints : Nat) (frames : List StoredFrame)
    (windows : List (NumericWindow F)) : Prop extends
    WellMade selectedChannels windowStart windowEnd windows where
  opened : ∀ key, isSelected selectedChannels key = true →
    (windowOf windows key = none ↔ ¬Carried reader frames key)
  points : ∀ key window, isSelected selectedChannels key = true → windowOf windows key = some window →
    window.points = (frames.flatMap (pointsBetween reader windowStart windowEnd key)).take maxPoints

theorem gathers_nil : Gathers reader selectedChannels windowStart windowEnd maxPoints [] [] where
  nodup := List.nodup_nil
  made := nofun
  opened := fun key _ => iff_of_true rfl (by simp [Carried])
  points := fun key window _ h => by cases h

theorem pointsBetween_of_not_mem {key : List Char}
    (h : key ∉ (channelsOf reader frame).map (·.key)) :
    pointsBetween reader windowStart windowEnd key frame = [] := by
  rw [pointsBetween, SignalFrameRow.pointsOf, valuesOf_byRow]
  refine List.flatMap_eq_nil_iff.mpr fun _ _ => ?_
  exact List.map_eq_nil_iff.mpr (filter_zipIdx_of_not_mem h)

theorem pointsBetween_of_empty {key : List Char} (h : frame.sampleCount = 0) :
    pointsBetween reader windowStart windowEnd key frame = [] := by
  rw [pointsBetween, h]
  rfl

theorem carried_append {key : List Char} : Carried reader (frames ++ [frame]) key ↔
    Carried reader frames key ∨
      0 < frame.sampleCount ∧ key ∈ (channelsOf reader frame).map (·.key) := by
  simp [Carried, or_and_right, exists_or]

theorem flatMap_pointsBetween_of_not_carried {key : List Char} (h : ¬Carried reader frames key) :
    frames.flatMap (pointsBetween reader windowStart windowEnd key) = [] := by
  refine List.flatMap_eq_nil_iff.mpr fun frame hframe => ?_
  rcases Nat.eq_zero_or_pos frame.sampleCount with hzero | hpos
  · exact pointsBetween_of_empty hzero
  · exact pointsBetween_of_not_mem fun hkey => h ⟨frame, hframe, hpos, hkey⟩

theorem appendFrame_gathers (hframe : FrameReadable reader frame)
    (h : Gathers reader selectedChannels windowStart windowEnd maxPoints frames windows) :
    ∃ windows', appendFrame reader selectedChannels windowStart windowEnd maxPoints windows frame =
        .ok windows' ∧
      Gathers reader selectedChannels windowStart windowEnd maxPoints (frames ++ [frame]) windows' := by
  rcases Nat.eq_zero_or_pos frame.sampleCount with hzero | hpos
  · refine ⟨windows, ?_, h.toWellMade, fun key hselected => ?_, fun key window hselected hwindow => ?_⟩
    · simp only [appendFrame, hframe.parses, appendSignalFramePoints, rowOf, hzero]
      exact if_pos (.inl (Int.le_refl 0))
    · rw [h.opened key hselected, carried_append, hzero]
      simp
    · rw [h.points key window hselected hwindow, List.flatMap_append, List.flatMap_singleton,
        pointsBetween_of_empty hzero, List.append_nil]
  · have hchannels : (rowOf frame (channelsOf reader frame)).channels ≠ [] := hframe.hasChannels
    obtain ⟨windows', happend, hlook⟩ := appendSignalFramePoints_windowOf reader.doubles windows
      selectedChannels windowStart windowEnd maxPoints hchannels (Int.natCast_pos.mpr hpos)
      hframe.encoding hframe.length hframe.layout
    refine ⟨windows', ?_, appendSignalFramePoints_wellMade happend h.toWellMade,
      fun key hselected => ?_, fun key window hselected hwindow => ?_⟩
    · simp only [appendFrame, hframe.parses, happend]
    · rw [hlook key hselected, carried_append, Option.map_eq_none_iff, Option.or_eq_none_iff,
        h.opened key hselected, not_or, and_iff_right hpos]
      refine and_congr_right fun _ => ?_
      show (if key ∈ (channelsOf reader frame).map (·.key) then _ else none) = none ↔ _
      split
      · next hkey => exact iff_of_false (by simp) (not_not.mpr hkey)
      · next hkey => exact iff_of_true rfl hkey
    · rw [hlook key hselected] at hwindow
      obtain ⟨before, hbefore, rfl⟩ := Option.map_eq_some_iff.mp hwindow
      have hpoints : before.points =
          (frames.flatMap (pointsBetween reader windowStart windowEnd key)).take maxPoints := by
        rcases Option.or_eq_some_iff.mp hbefore with hopen | ⟨hnone, hnew⟩
        · exact h.points key before hselected hopen
        · split at hnew
          · obtain rfl := Option.some.inj hnew
            rw [flatMap_pointsBetween_of_not_carried ((h.opened key hselected).mp hnone),
              List.take_nil]
            rfl
          · cases hnew
      have hroom : before.points.length ≤ maxPoints := by
        rw [hpoints, List.length_take]
        exact Nat.min_le_left _ _
      rw [points_foldl_push hroom, hpoints, List.flatMap_append, List.flatMap_singleton]
      exact take_append_take _ _ _

/-- The windows that are read for a range have the points of all frames selected for it, cut at
the most that a window takes. -/
theorem signalWindowsBetween_gathers (reader : Reader F) (telemetry : Telemetry)
    (deviceId streamKey : List Char) (selectedChannels : List (List Char))
    (windowStart windowEnd : Int) (maxPoints : Nat)
    (hframes : ∀ frame ∈ telemetry.framesOf deviceId streamKey, FrameReadable reader frame) :
    ∃ windows, signalWindowsBetween reader telemetry deviceId streamKey selectedChannels windowStart
        windowEnd maxPoints = .ok windows ∧
      Gathers reader selectedChannels windowStart windowEnd maxPoints
        (telemetry.framesBetween reader.rounding deviceId streamKey (toTimestamptz windowStart)
          (toTimestamptz windowEnd)) windows := by
  refine foldlM_invariant (Gathers reader selectedChannels windowStart windowEnd maxPoints)
    (fun before frame hframe windows h => ?_) gathers_nil
  exact appendFrame_gathers (hframes frame (mem_framesOf_of_mem_framesBetween hframe)) h

/-! What is known of windows that have been read, whatever the frames hold -/

theorem frameReadable_of_append (hcount : frame.sampleCount ≠ 0)
    (hparse : reader.channelsFromStr frame.signal.channelsJson = .ok (channelsOf reader frame))
    (hchannels : channelsOf reader frame ≠ [])
    (h : appendSignalFramePoints reader.doubles windows (rowOf frame (channelsOf reader frame))
      selectedChannels windowStart windowEnd maxPoints = .ok windows') :
    FrameReadable reader frame := by
  have hsome : ¬((rowOf frame (channelsOf reader frame)).sampleCount ≤ 0 ∨
      (rowOf frame (channelsOf reader frame)).channels = []) := by
    show ¬((frame.sampleCount : Int) ≤ 0 ∨ channelsOf reader frame = [])
    rw [not_or]
    exact ⟨by omega, hchannels⟩
  obtain ⟨width, hwidth, hlength, hlayout⟩ := wellFormed_of_append hsome h
  have hreads := reads_numberFormat hwidth
  obtain rfl := Except.ok.inj (hwidth.symm.trans hreads.width)
  exact ⟨hparse, hchannels, hreads, hlayout, hlength⟩

theorem appendFrame_gathers_of_ok
    (h : appendFrame reader selectedChannels windowStart windowEnd maxPoints windows frame =
      .ok windows')
    (hgathers : Gathers reader selectedChannels windowStart windowEnd maxPoints frames windows) :
    Gathers reader selectedChannels windowStart windowEnd maxPoints (frames ++ [frame]) windows' := by
  have hparse : reader.channelsFromStr frame.signal.channelsJson = .ok (channelsOf reader frame) := by
    unfold appendFrame at h
    unfold channelsOf
    cases hread : reader.channelsFromStr frame.signal.channelsJson with
    | error message => simp [hread] at h
    | ok channels => rfl
  by_cases hnone : frame.sampleCount = 0 ∨ channelsOf reader frame = []
  · have hsame : windows' = windows := by
      have hskip : (rowOf frame (channelsOf reader frame)).sampleCount ≤ 0 ∨
          (rowOf frame (channelsOf reader frame)).channels = [] := by
        refine hnone.imp_left fun hzero => ?_
        show (frame.sampleCount : Int) ≤ 0
        omega
      simp only [appendFrame, hparse, appendSignalFramePoints] at h
      rw [if_pos hskip] at h
      exact (Except.ok.inj h).symm
    have hnothing : ∀ key, pointsBetween reader windowStart windowEnd key frame = [] := fun key =>
      hnone.elim pointsBetween_of_empty fun hchannels =>
        pointsBetween_of_not_mem (by simp [hchannels])
    rw [hsame]
    refine ⟨hgathers.toWellMade, fun key hselected => ?_, fun key window hselected hwindow => ?_⟩
    · rw [hgathers.opened key hselected, carried_append]
      refine not_congr (or_iff_left fun hcarries => ?_).symm
      rcases hnone with hzero | hchannels
      · omega
      · simp [hchannels] at hcarries
    · rw [hgathers.points key window hselected hwindow, List.flatMap_append, List.flatMap_singleton,
        hnothing, List.append_nil]
  · obtain ⟨hcount, hchannels⟩ := not_or.mp hnone
    have hreadable : FrameReadable reader frame := by
      simp only [appendFrame, hparse] at h
      exact frameReadable_of_append hcount hparse hchannels h
    obtain ⟨_, happend, hrest⟩ := appendFrame_gathers hreadable hgathers
    obtain rfl := Except.ok.inj (h.symm.trans happend)
    exact hrest

theorem gathers_of_signalWindowsBetween {telemetry : Telemetry} {deviceId streamKey : List Char}
    (h : signalWindowsBetween reader telemetry deviceId streamKey selectedChannels windowStart
      windowEnd maxPoints = .ok windows) :
    Gathers reader selectedChannels windowStart windowEnd maxPoints
      (telemetry.framesBetween reader.rounding deviceId streamKey (toTimestamptz windowStart)
        (toTimestamptz windowEnd)) windows :=
  foldlM_prefix (fun _ _ _ _ hgathers happend => appendFrame_gathers_of_ok happend hgathers)
    gathers_nil h

/-- A window is one of a selected channel that some frame carries. -/
theorem Gathers.exists_window {P : List (MetricPoint F) → Prop}
    (h : Gathers reader selectedChannels windowStart windowEnd maxPoints frames windows) :
    (∃ window ∈ windows, P window.points) ↔
      ∃ key, isSelected selectedChannels key = true ∧ Carried reader frames key ∧
        P ((frames.flatMap (pointsBetween reader windowStart windowEnd key)).take maxPoints) := by
  constructor
  · rintro ⟨window, hmem, hp⟩
    obtain ⟨-, -, -, key, hkey, hselected⟩ := h.made window hmem
    have hfind : windowOf windows key = some window := by
      have hfound := UniqueBy.findBy h.nodup hmem
      rwa [hkey] at hfound
    refine ⟨key, hselected, ?_, h.points key window hselected hfind ▸ hp⟩
    by_contra hnot
    rw [(h.opened key hselected).mpr hnot] at hfind
    cases hfind
  · rintro ⟨key, hselected, hcarried, hp⟩
    cases hfind : windowOf windows key with
    | none => exact absurd hcarried ((h.opened key hselected).mp hfind)
    | some window =>
      exact ⟨window, (mem_of_findBy hfind).1, by rwa [h.points key window hselected hfind]⟩

end Aetus.Anomaly
