import Aetus.Query.Envelope
import Aetus.Query.RollupSeries
import Aetus.Query.StreamEntries

/-!
Which samples of a range can be seen in the series of a sampled stream: all of them where it is made
of frames, and those between the extremes of a row that is kept where it is made of rollups.
-/

set_option autoImplicit false

namespace Aetus.Query
open Aetus.Base Aetus.Postgres

variable {F : Type} [LinearOrder F] {reader : Reader F} {store : Store F}
  {deviceId key channelKey : List Char} {start stop time : Timestamptz} {maxPoints : Int} {value : F}

theorem between_extremes_iff (value : F) {values : Set F} {least greatest : F}
    (hleast : IsLeast values least) (hgreatest : IsGreatest values greatest) : least ≤ value ∧ value ≤ greatest ↔
      (∃ low ∈ values, low ≤ value) ∧ ∃ high ∈ values, value ≤ high := by
  constructor
  · intro ⟨hlow, hhigh⟩
    exact ⟨⟨least, hleast.1, hlow⟩, greatest, hgreatest.1, hhigh⟩
  · intro ⟨⟨low, hlow, hle⟩, high, hhigh, hge⟩
    exact ⟨(hleast.2 hlow).trans hle, hge.trans (hgreatest.2 hhigh)⟩

/-! Samples and rows -/

/-- A sample of a channel, in a frame that can be decoded. -/
def IsSample (reader : Reader F) (telemetry : Telemetry) (deviceId key channelKey : List Char)
    (time : Timestamptz) (value : F) : Prop :=
  ∃ frame ∈ telemetry.framesOf deviceId key, FrameDecodable reader frame ∧
    ∃ j, (j, value) ∈ channelCells reader frame channelKey ∧ sampleTime reader.rounding frame j = time

def bucketValues (reader : Reader F) (telemetry : Telemetry) (deviceId key : List Char)
    (row : RollupRow F) : Set F :=
  {value | ∃ time, IsSample reader telemetry deviceId key row.channelKey time value ∧
    row.bucketStart ≤ time ∧ 1000 * (time - row.bucketStart) < row.bucketNs}

/-- A stream of one definition, whose channels have keys of their own, and of one tier, each of its
rows with the extremes of its bucket. -/
structure OneStream (reader : Reader F) (store : Store F) (deviceId key : List Char)
    (signal : StreamDefinition) (bucketNs : Int) : Prop where
  frames : ∀ frame ∈ store.telemetry.framesOf deviceId key, frame.signal = signal
  channels : ((reader.channelsFromJson signal.channelsJson).map (·.key)).Nodup
  rows : ∀ row ∈ store.rollups, row.device = deviceId → row.signal.streamKey = key →
    row.signal = signal ∧ row.bucketNs = bucketNs
  least : ∀ row ∈ store.rollups, row.device = deviceId → row.signal.streamKey = key →
    IsLeast (bucketValues reader store.telemetry deviceId key row) row.minValue
  greatest : ∀ row ∈ store.rollups, row.device = deviceId → row.signal.streamKey = key →
    IsGreatest (bucketValues reader store.telemetry deviceId key row) row.maxValue

omit [LinearOrder F] in
theorem valueAt_of_mem_channelCells {frame : StoredFrame} (hkeys : (channelKeys reader frame).Nodup)
    {j : Nat} (h : (j, value) ∈ channelCells reader frame channelKey) :
    channelKey ∈ channelKeys reader frame ∧
      ((channelCells reader frame channelKey).map Prod.snd)[j]? = some value := by
  have hcarried : channelKey ∈ channelKeys reader frame := by
    by_contra hnot
    rw [channelCells_of_not_mem hnot] at h
    cases h
  refine ⟨hcarried, ?_⟩
  obtain ⟨i, hi⟩ := List.mem_iff_getElem?.mp h
  have hindex := congrArg (·[i]?) (channelCells_of_nodup hkeys hcarried)
  simp only [List.getElem?_map, hi, Option.map_some] at hindex
  obtain ⟨hlt, hrange⟩ := List.getElem?_eq_some_iff.mp hindex.symm
  rw [List.getElem_range] at hrange
  rw [List.getElem?_map, ← hrange, hi, Option.map_some]

/-! What is shown -/

def Points.Shows : Points F → F → Prop
  | .samples points, value => ∃ point ∈ points, point.value = value
  | .envelope points, value => ∃ point ∈ points, point.min ≤ value ∧ value ≤ point.max

def SampledResponse.Shows : SampledResponse F → List Char → F → Prop
  | .rollup _ channels, channelKey, value => ∃ channel ∈ channels, channel.name = channelKey ∧
      ∃ point ∈ channel.points, point.min ≤ value ∧ value ≤ point.max
  | .raw series, channelKey, value => ∃ channel ∈ series.channels, channel.name = channelKey ∧
      channel.points.Shows value

variable {floats : Floats F} {timestamps : List Timestamptz} {values : List F}

theorem envelopePoint_shows_iff (hlt : ∀ a b, floats.lt a b = decide (a < b)) (ts : Timestamptz) :
    (∃ point, envelopePoint floats ts values = some point ∧ point.min ≤ value ∧ value ≤ point.max) ↔
      (∃ low ∈ values, low ≤ value) ∧ ∃ high ∈ values, value ≤ high := by
  cases values with
  | nil => simp [envelopePoint]
  | cons first rest =>
    have hbetween := between_extremes_iff value (isLeast_foldl_min first rest)
      (isGreatest_foldl_max first rest)
    simp only [envelopePoint, Option.some.injEq, exists_eq_left', minFrom_eq hlt, maxFrom_eq hlt]
    exact hbetween

omit [LinearOrder F] in
theorem exists_mem_bucketSlice {total n : Nat} (hn : n ≠ 0) (hlength : values.length ≤ total)
    (h : value ∈ values) :
    ∃ b < n, startIndex total n b < total ∧ value ∈ bucketSlice total n b values := by
  obtain ⟨p, hp⟩ := List.mem_iff_getElem?.mp h
  have htotal : p < total := (List.getElem?_eq_some_iff.mp hp).1.trans_le hlength
  have hend : p < startIndex total n n := by rwa [startIndex_self hn]
  obtain ⟨b, hb, hlow, hhigh⟩ := exists_range startIndex_zero hend
  refine ⟨b, hb, hlow.trans_lt htotal, List.mem_iff_getElem?.mpr ⟨p - startIndex total n b, ?_⟩⟩
  rw [bucketSlice, List.getElem?_drop, Nat.add_sub_cancel' hlow, List.getElem?_take_of_lt hhigh, hp]

/-- What can be seen of some values of a channel, in a series with `total` times: each of them, or of
each bucket what lies between two of its values. -/
def Visible (total : Nat) (maxPoints : Int) (values : List F) (value : F) : Prop :=
  if total ≤ maxPoints then value ∈ values
  else ∃ b < bucketCount total maxPoints,
    (∃ low ∈ bucketSlice total (bucketCount total maxPoints) b values, low ≤ value) ∧
      ∃ high ∈ bucketSlice total (bucketCount total maxPoints) b values, value ≤ high

/-- A channel with no more values than there are times can show them all. -/
theorem visible_of_mem {total : Nat} (hlength : values.length ≤ total) (hmax : 1 ≤ maxPoints)
    (h : value ∈ values) : Visible total maxPoints values value := by
  unfold Visible
  split
  · exact h
  · have hpos : 0 < total := (List.length_pos_of_mem h).trans_le hlength
    obtain ⟨-, hn, -⟩ := bucketCount_eq hpos hmax
    obtain ⟨b, hb, -, hslice⟩ := exists_mem_bucketSlice hn.ne' hlength h
    exact ⟨b, hb, ⟨value, hslice, le_refl value⟩, value, hslice, le_refl value⟩

omit [LinearOrder F] in
theorem startIndex_lt_of_mem_bucketSlice {total n b : Nat} (h : value ∈ bucketSlice total n b values) :
    startIndex total n b < values.length := by
  obtain ⟨p, hp⟩ := List.mem_iff_getElem?.mp h
  have hlt := (List.getElem?_eq_some_iff.mp hp).1
  rw [bucketSlice, List.length_drop, List.length_take] at hlt
  omega

theorem pointsOf_shows_iff (hlt : ∀ a b, floats.lt a b = decide (a < b))
    (hlength : values.length ≤ timestamps.length) :
    (pointsOf floats timestamps maxPoints values).Shows value ↔
      Visible timestamps.length maxPoints values value := by
  unfold pointsOf Visible
  split
  · constructor
    · rintro ⟨point, hpoint, rfl⟩
      obtain ⟨p, hp, rfl⟩ := List.mem_iff_getElem.mp hpoint
      rw [List.getElem_zipWith]
      exact List.getElem_mem _
    · intro h
      obtain ⟨p, hp, rfl⟩ := List.mem_iff_getElem.mp h
      have htime : p < timestamps.length := hp.trans_le hlength
      refine ⟨⟨timestamps[p], values[p]⟩, List.mem_iff_getElem.mpr ⟨p, ?_, ?_⟩, rfl⟩
      · rw [List.length_zipWith]
        exact lt_min htime hp
      · rw [List.getElem_zipWith]
  · constructor
    · rintro ⟨point, hpoint, hshows⟩
      obtain ⟨b, hb, hbucket⟩ := List.mem_filterMap.mp hpoint
      obtain ⟨ts, -, henvelope⟩ := Option.bind_eq_some_iff.mp hbucket
      exact ⟨b, List.mem_range.mp hb,
        (envelopePoint_shows_iff hlt ts).mp ⟨point, henvelope, hshows⟩⟩
    · rintro ⟨b, hb, hlow, hhigh⟩
      have hstart : startIndex timestamps.length (bucketCount timestamps.length maxPoints) b <
          timestamps.length := by
        obtain ⟨low, hmem, -⟩ := hlow
        exact (startIndex_lt_of_mem_bucketSlice hmem).trans_le hlength
      obtain ⟨point, hpoint, hshows⟩ := (envelopePoint_shows_iff hlt
        (timestamps[startIndex timestamps.length (bucketCount timestamps.length maxPoints) b])).mpr
        ⟨hlow, hhigh⟩
      refine ⟨point, List.mem_filterMap.mpr ⟨b, List.mem_range.mpr hb, ?_⟩, hshows⟩
      rw [List.getElem?_eq_getElem hstart]
      exact hpoint

/-! Frames -/

def IsRead (reader : Reader F) (telemetry : Telemetry) (deviceId key : List Char)
    (start stop : Timestamptz) (channelKey : List Char) (time : Timestamptz) (value : F) : Prop :=
  ∃ frame ∈ readSignalFrames reader telemetry deviceId key start stop,
    ∃ j, (j, value) ∈ channelCells reader frame channelKey ∧ sampleTime reader.rounding frame j = time

/-- What can be seen of the samples of a channel that are in the range and in the frames that are
read for it. -/
def VisibleAmongRead (reader : Reader F) (telemetry : Telemetry) (deviceId key : List Char)
    (start stop : Timestamptz) (maxPoints : Int) (channelKey : List Char) (value : F) : Prop :=
  let frames := readSignalFrames reader telemetry deviceId key start stop
  Visible (frames.flatMap (selectedTimes reader.rounding (some start) (some stop))).length maxPoints
    ((ownSamples reader (some start) (some stop) frames channelKey).map (·.2.2)) value

theorem IsRead.mem_ownSamples {signal : StreamDefinition} {bucketNs : Int}
    (h : OneStream reader store deviceId key signal bucketNs)
    (hread : IsRead reader store.telemetry deviceId key start stop channelKey time value)
    (hstart : start ≤ time) (hstop : time ≤ stop) :
    value ∈ (ownSamples reader (some start) (some stop)
      (readSignalFrames reader store.telemetry deviceId key start stop) channelKey).map (·.2.2) := by
  obtain ⟨frame, hframe, j, hcell, rfl⟩ := hread
  have hkeys : (channelKeys reader frame).Nodup := by
    rw [channelKeys, channelsOf, h.frames frame (mem_framesOf_of_mem_framesBetween hframe)]
    exact h.channels
  obtain ⟨-, hvalue⟩ := valueAt_of_mem_channelCells hkeys hcell
  have hselected : j ∈ selectedSamples reader.rounding (some start) (some stop) frame := by
    refine List.mem_filter.mpr ⟨List.mem_range.mpr (lt_of_mem_channelCells hcell), ?_⟩
    simp [isSelected, hstart, hstop]
  rw [map_ownSamples]
  refine List.mem_filterMap.mpr ⟨(sampleTime reader.rounding frame j, some value), ?_, rfl⟩
  refine List.mem_flatMap.mpr ⟨frame, hframe, List.mem_map.mpr ⟨j, hselected, ?_⟩⟩
  rw [hvalue]

theorem IsRead.visible {signal : StreamDefinition} {bucketNs : Int}
    (h : OneStream reader store deviceId key signal bucketNs)
    (hread : IsRead reader store.telemetry deviceId key start stop channelKey time value)
    (hstart : start ≤ time) (hstop : time ≤ stop) (hmax : 1 ≤ maxPoints) :
    VisibleAmongRead reader store.telemetry deviceId key start stop maxPoints channelKey value := by
  refine visible_of_mem ?_ hmax (hread.mem_ownSamples h hstart hstop)
  rw [List.length_map]
  exact length_trackEntries_le.trans_eq length_channelTrack

omit [LinearOrder F] in
theorem ownSamples_of_not_carried {frames : List StoredFrame} {start stop : Option Timestamptz}
    (h : ¬∃ frame ∈ frames, channelKey ∈ channelKeys reader frame) :
    (ownSamples reader start stop frames channelKey).map (·.2.2) = [] := by
  rw [map_ownSamples]
  exact filterMap_channelTrack_of_not_carried h

theorem not_visible_nil {total : Nat} : ¬Visible total maxPoints [] value := by
  unfold Visible
  split
  · exact List.not_mem_nil
  · rintro ⟨b, -, ⟨low, hlow, -⟩, -⟩
    simp [bucketSlice] at hlow

theorem raw_shows_iff_of_decodable (hlt : ∀ a b, reader.floats.lt a b = decide (a < b))
    {signal : StreamDefinition} {bucketNs : Int}
    (h : OneStream reader store deviceId key signal bucketNs)
    (hrollups : rollupRows store deviceId key start stop = [])
    (hdecodable : ∀ frame ∈ readSignalFrames reader store.telemetry deviceId key start stop,
      FrameDecodable reader frame) :
    (∃ response, sampledSeries reader store deviceId key start stop maxPoints = .ok response ∧
        response.Shows channelKey value) ↔
      VisibleAmongRead reader store.telemetry deviceId key start stop maxPoints channelKey value := by
  have hframes : ∀ frame ∈ readSignalFrames reader store.telemetry deviceId key start stop,
      FrameDecodable reader frame ∧ (channelKeys reader frame).Nodup := by
    intro frame hframe
    refine ⟨hdecodable frame hframe, ?_⟩
    rw [channelKeys, channelsOf, h.frames frame (mem_framesOf_of_mem_framesBetween hframe)]
    exact h.channels
  obtain ⟨series, collected, hseries, hcollects, -, hchannels⟩ :=
    rawFramesToSeries_channels (some start) (some stop) hframes maxPoints
  have hresponse : sampledSeries reader store deviceId key start stop maxPoints =
      .ok (.raw series) := by
    rw [sampledSeries, hrollups]
    simp only [hseries]
    rfl
  have hpoints : ∀ entry ∈ collected.channelSamples, entry.1 = channelKey →
      ((pointsOf reader.floats collected.timestamps maxPoints entry.2.values).Shows value ↔
        VisibleAmongRead reader store.telemetry deviceId key start stop maxPoints channelKey
          value) := by
    rintro entry hentry rfl
    obtain ⟨-, -, hvalues⟩ := hcollects.of_mem hentry
    rw [VisibleAmongRead, ← hvalues, ← hcollects.timestamps]
    refine pointsOf_shows_iff hlt ?_
    rw [hvalues, hcollects.timestamps, List.length_map]
    exact length_trackEntries_le.trans_eq length_channelTrack
  rw [hresponse]
  constructor
  · rintro ⟨response, hok, hshows⟩
    obtain rfl := Except.ok.inj hok
    obtain ⟨channel, hchannel, hname, hshown⟩ := hshows
    rw [hchannels] at hchannel
    obtain ⟨entry, hentry, rfl⟩ := List.mem_map.mp hchannel
    exact (hpoints entry hentry ((hcollects.of_mem hentry).1.symm.trans hname)).mp hshown
  · intro hvisible
    have hcarried : ∃ frame ∈ readSignalFrames reader store.telemetry deviceId key start stop,
        channelKey ∈ channelKeys reader frame := by
      by_contra hnone
      rw [VisibleAmongRead, ownSamples_of_not_carried hnone] at hvisible
      exact not_visible_nil hvisible
    obtain ⟨held, hheld⟩ := hcollects.exists_mem hcarried
    exact ⟨.raw series, rfl, _, hchannels ▸ List.mem_map_of_mem hheld, (hcollects.of_mem hheld).1,
      (hpoints _ hheld rfl).mpr hvisible⟩

theorem raw_shows_iff (hlt : ∀ a b, reader.floats.lt a b = decide (a < b))
    {signal : StreamDefinition} {bucketNs : Int}
    (h : OneStream reader store deviceId key signal bucketNs)
    (hrollups : rollupRows store deviceId key start stop = []) :
    (∃ response, sampledSeries reader store deviceId key start stop maxPoints = .ok response ∧
        response.Shows channelKey value) ↔
      (∀ frame ∈ readSignalFrames reader store.telemetry deviceId key start stop,
        FrameDecodable reader frame) ∧
      VisibleAmongRead reader store.telemetry deviceId key start stop maxPoints channelKey value := by
  by_cases hdecodable : ∀ frame ∈ readSignalFrames reader store.telemetry deviceId key start stop,
      FrameDecodable reader frame
  · rw [and_iff_right hdecodable]
    exact raw_shows_iff_of_decodable hlt h hrollups hdecodable
  · refine iff_of_false ?_ fun hboth => hdecodable hboth.1
    intro ⟨response, hok, _⟩
    rcases (sampledSeries_ok_iff maxPoints).mp ⟨response, hok⟩ with hrows | hall
    · exact hrows hrollups
    · exact hdecodable hall

/-! Rollups -/

omit [LinearOrder F] in
theorem mem_limitPoints_iff {rows : List (RollupRow F)} {row : RollupRow F} :
    row ∈ limitPoints rows maxPoints ↔
      ∃ p ∈ keptPositions rows.length maxPoints, rows[p]? = some row := by
  rw [← map_fst_limitPoints, ← positions_limitPoints]
  constructor
  · intro hrow
    obtain ⟨e, he, rfl⟩ := List.mem_map.mp hrow
    exact ⟨e.2, List.mem_map_of_mem he, getElem?_of_mem_keptRows he⟩
  · intro ⟨p, hp, hrow⟩
    obtain ⟨e, he, rfl⟩ := List.mem_map.mp hp
    obtain rfl := Option.some.inj ((getElem?_of_mem_keptRows he).symm.trans hrow)
    exact List.mem_map_of_mem he

/-- What rollups show is between the extremes of a row that is kept. -/
theorem rollup_shows_iff {rows : List (RollupRow F)} (bucketNs : Int) :
    (SampledResponse.rollup bucketNs (rollupChannels rows maxPoints)).Shows channelKey value ↔
      ∃ row ∈ originRows rows maxPoints channelKey, row.minValue ≤ value ∧ value ≤ row.maxValue := by
  constructor
  · intro ⟨channel, hchannel, hname, point, hpoint, hshows⟩
    rw [(points_rollupChannels hchannel).2, hname] at hpoint
    obtain ⟨row, hrow, rfl⟩ := List.mem_map.mp hpoint
    exact ⟨row, hrow, hshows⟩
  · intro ⟨row, hrow, hshows⟩
    have hown := (limitPoints_sublist _ _).subset hrow
    obtain ⟨hmem, hkey⟩ := List.mem_filter.mp hown
    obtain ⟨channel, hchannel, hname⟩ := exists_rollupChannel hmem maxPoints
    rw [of_decide_eq_true hkey] at hname
    refine ⟨channel, hchannel, hname, row.point, ?_, hshows⟩
    rw [(points_rollupChannels hchannel).2, hname]
    exact List.mem_map_of_mem hrow

/-- A row of the channel is kept whose bucket has a value that is no greater, and one that is no
less. -/
def KeptAround (reader : Reader F) (store : Store F) (deviceId key : List Char)
    (start stop : Timestamptz) (maxPoints : Int) (channelKey : List Char) (value : F) : Prop :=
  let own := (rollupRows store deviceId key start stop).filter (·.channelKey = channelKey)
  ∃ p ∈ keptPositions own.length maxPoints, ∃ row, own[p]? = some row ∧
    (∃ low ∈ bucketValues reader store.telemetry deviceId key row, low ≤ value) ∧
      ∃ high ∈ bucketValues reader store.telemetry deviceId key row, value ≤ high

theorem keptAround_of_own {p : Nat} {row : RollupRow F}
    (hkept : p ∈ keptPositions ((rollupRows store deviceId key start stop).filter
      (·.channelKey = channelKey)).length maxPoints)
    (hrow : ((rollupRows store deviceId key start stop).filter
      (·.channelKey = channelKey))[p]? = some row)
    (hvalue : value ∈ bucketValues reader store.telemetry deviceId key row) :
    KeptAround reader store deviceId key start stop maxPoints channelKey value :=
  ⟨p, hkept, row, hrow, ⟨value, hvalue, le_refl value⟩, value, hvalue, le_refl value⟩

theorem rollup_keptAround_iff {signal : StreamDefinition} {bucketNs : Int}
    (h : OneStream reader store deviceId key signal bucketNs) :
    (∃ row ∈ originRows (rollupRows store deviceId key start stop) maxPoints channelKey,
        row.minValue ≤ value ∧ value ≤ row.maxValue) ↔
      KeptAround reader store deviceId key start stop maxPoints channelKey value := by
  have hcorrect : ∀ row ∈ originRows (rollupRows store deviceId key start stop) maxPoints channelKey,
      row.minValue ≤ value ∧ value ≤ row.maxValue ↔
        (∃ low ∈ bucketValues reader store.telemetry deviceId key row, low ≤ value) ∧
          ∃ high ∈ bucketValues reader store.telemetry deviceId key row, value ≤ high := by
    intro row hrow
    have hrange := (List.mem_filter.mp ((limitPoints_sublist _ _).subset hrow)).1
    obtain ⟨hstored, hstream⟩ := List.mem_filter.mp (mem_rollupRows.mp hrange)
    obtain ⟨hdevice, hkey, -⟩ := of_decide_eq_true hstream
    exact between_extremes_iff value (h.least row hstored hdevice hkey)
      (h.greatest row hstored hdevice hkey)
  constructor
  · intro ⟨row, hrow, hbetween⟩
    obtain ⟨p, hp, hat⟩ := mem_limitPoints_iff.mp hrow
    exact ⟨p, hp, row, hat, (hcorrect row hrow).mp hbetween⟩
  · intro ⟨p, hp, row, hat, haround⟩
    have hrow := mem_limitPoints_iff.mpr ⟨p, hp, hat⟩
    exact ⟨row, hrow, (hcorrect row hrow).mpr haround⟩

/-- Whether the rows that are read for the range show a sample of it. A sample of a frame that is not
read can only be seen where others happen to show its value. -/
def Covered (reader : Reader F) (store : Store F) (deviceId key : List Char)
    (start stop : Timestamptz) (maxPoints : Int) (channelKey : List Char) (time : Timestamptz)
    (value : F) : Prop :=
  match rollupRows store deviceId key start stop with
  | [] => (∀ frame ∈ readSignalFrames reader store.telemetry deviceId key start stop,
        FrameDecodable reader frame) ∧
      (1 ≤ maxPoints ∧ IsRead reader store.telemetry deviceId key start stop channelKey time value ∨
        VisibleAmongRead reader store.telemetry deviceId key start stop maxPoints channelKey value)
  | _ :: _ => KeptAround reader store deviceId key start stop maxPoints channelKey value

theorem sample_shown_iff (hlt : ∀ a b, reader.floats.lt a b = decide (a < b))
    {signal : StreamDefinition} {bucketNs : Int}
    (h : OneStream reader store deviceId key signal bucketNs)
    (hstart : start ≤ time) (hstop : time ≤ stop) :
    (∃ response, sampledSeries reader store deviceId key start stop maxPoints = .ok response ∧
        response.Shows channelKey value) ↔
      Covered reader store deviceId key start stop maxPoints channelKey time value := by
  cases hrollups : rollupRows store deviceId key start stop with
  | nil =>
    simp only [Covered, hrollups]
    rw [raw_shows_iff hlt h hrollups]
    refine and_congr_right' ⟨.inr, fun hshown => hshown.elim ?_ id⟩
    exact fun ⟨hmax, hread⟩ => hread.visible h hstart hstop hmax
  | cons first rest =>
    have hresponse : sampledSeries reader store deviceId key start stop maxPoints =
        .ok (.rollup first.bucketNs (rollupChannels (first :: rest) maxPoints)) := by
      rw [sampledSeries, hrollups]
    simp only [Covered, hrollups]
    rw [← rollup_keptAround_iff h, hrollups, hresponse, ← rollup_shows_iff first.bucketNs]
    constructor
    · rintro ⟨response, hok, hshows⟩
      obtain rfl := Except.ok.inj hok
      exact hshows
    · intro hshows
      exact ⟨_, rfl, hshows⟩

def AllShown (reader : Reader F) (store : Store F) (deviceId key : List Char)
    (start stop : Timestamptz) (maxPoints : Int) : Prop :=
  ∀ channelKey time value, IsSample reader store.telemetry deviceId key channelKey time value →
    start ≤ time → time ≤ stop →
    ∃ response, sampledSeries reader store deviceId key start stop maxPoints = .ok response ∧
      response.Shows channelKey value

/-- The series shows every sample of the range if and only if each of them is covered: by the frames
that are read, where no row starts in the range, or by a row that is kept. -/
theorem allShown_iff (hlt : ∀ a b, reader.floats.lt a b = decide (a < b))
    {signal : StreamDefinition} {bucketNs : Int}
    (h : OneStream reader store deviceId key signal bucketNs) (start stop : Timestamptz)
    (maxPoints : Int) :
    AllShown reader store deviceId key start stop maxPoints ↔
      ∀ channelKey time value, IsSample reader store.telemetry deviceId key channelKey time value →
        start ≤ time → time ≤ stop →
        Covered reader store deviceId key start stop maxPoints channelKey time value := by
  constructor
  · intro hall channelKey time value hsample hstart hstop
    exact (sample_shown_iff hlt h hstart hstop).mp (hall channelKey time value hsample hstart hstop)
  · intro hcovered channelKey time value hsample hstart hstop
    exact (sample_shown_iff hlt h hstart hstop).mpr
      (hcovered channelKey time value hsample hstart hstop)

/-! One bucket of two -/

def pairFrame : StoredFrame := int16Frame ["a".toList] 0 2 [1, 0, 2, 0]

def firstBucket : RollupRow Int where
  bucketStart := 0
  bucketNs := 1000000
  device := "device".toList
  signal := pairFrame.signal
  channelKey := "a".toList
  channelUnit := none
  minValue := 1
  maxValue := 1
  avgValue := some 1

def halfCovered : Store Int := { oneFrameStore pairFrame with rollups := [firstBucket] }

theorem isSample_pairFrame {channelKey : List Char} {time : Timestamptz} {value : Int}
    (h : IsSample wholeReader halfCovered.telemetry "device".toList "imu".toList channelKey time
      value) : channelKey = "a".toList ∧ (time = 0 ∧ value = 1 ∨ time = 1000 ∧ value = 2) := by
  obtain ⟨frame, hframe, -, j, hcell, rfl⟩ := h
  obtain rfl := List.mem_singleton.mp (List.mem_filter.mp hframe).1
  have hkey : channelKey = "a".toList := by
    by_contra hother
    have hkeys : channelKey ∉ channelKeys wholeReader pairFrame := by
      rw [show channelKeys wholeReader pairFrame = ["a".toList] by decide +kernel]
      simpa using hother
    rw [channelCells_of_not_mem hkeys] at hcell
    cases hcell
  subst hkey
  rw [show channelCells wholeReader pairFrame "a".toList = [(0, 1), (1, 2)] by decide +kernel] at hcell
  refine ⟨rfl, ?_⟩
  simp only [List.mem_cons, Prod.mk.injEq, List.not_mem_nil, or_false] at hcell
  rcases hcell with ⟨rfl, rfl⟩ | ⟨rfl, rfl⟩
  · exact .inl ⟨by decide +kernel, rfl⟩
  · exact .inr ⟨by decide +kernel, rfl⟩

theorem isSample_halfCovered {j : Nat} {time : Timestamptz} {value : Int}
    (hcell : (j, value) ∈ channelCells wholeReader pairFrame "a".toList)
    (htime : sampleTime wholeReader.rounding pairFrame j = time) :
    IsSample wholeReader halfCovered.telemetry "device".toList "imu".toList "a".toList time value :=
  ⟨pairFrame, List.mem_filter.mpr ⟨List.mem_singleton_self _, rfl⟩,
    int16Frame_decodable (by decide +kernel) (by decide) (by decide) (by decide), j, hcell, htime⟩

theorem mem_bucketValues_firstBucket (value : Int) : value ∈ bucketValues wholeReader
    halfCovered.telemetry "device".toList "imu".toList firstBucket ↔ value = 1 := by
  constructor
  · intro ⟨time, hsample, hstart, hend⟩
    rcases (isSample_pairFrame hsample).2 with ⟨-, rfl⟩ | ⟨rfl, -⟩
    · rfl
    · exact absurd hend (by decide)
  · intro h
    subst h
    exact ⟨0, @isSample_halfCovered 0 0 1 (by decide +kernel) (by decide +kernel), by decide, by decide⟩

theorem oneStream_halfCovered : OneStream wholeReader halfCovered "device".toList "imu".toList
    pairFrame.signal 1000000 where
  frames frame hframe := by
    obtain rfl := List.mem_singleton.mp (List.mem_filter.mp hframe).1
    rfl
  channels := by decide +kernel
  rows row hrow _ _ := by
    obtain rfl := List.mem_singleton.mp hrow
    exact ⟨rfl, rfl⟩
  least row hrow _ _ := by
    obtain rfl := List.mem_singleton.mp hrow
    refine ⟨(mem_bucketValues_firstBucket 1).mpr rfl, fun value hvalue => ?_⟩
    exact ((mem_bucketValues_firstBucket value).mp hvalue).ge
  greatest row hrow _ _ := by
    obtain rfl := List.mem_singleton.mp hrow
    refine ⟨(mem_bucketValues_firstBucket 1).mpr rfl, fun value hvalue => ?_⟩
    exact ((mem_bucketValues_firstBucket value).mp hvalue).le

/-- The range of the bucket alone. -/
theorem allShown_firstBucket :
    AllShown wholeReader halfCovered "device".toList "imu".toList 0 999 10 := by
  refine (allShown_iff (fun _ _ => rfl) oneStream_halfCovered 0 999 10).mpr
    fun channelKey time value hsample _ hstop => ?_
  obtain ⟨rfl, ⟨rfl, rfl⟩ | ⟨rfl, -⟩⟩ := isSample_pairFrame hsample
  · have hkept : KeptAround wholeReader halfCovered "device".toList "imu".toList 0 999 10
        "a".toList 1 := @keptAround_of_own Int _ wholeReader halfCovered "device".toList
      "imu".toList "a".toList 0 999 10 1 0 firstBucket (by decide +kernel) rfl
      ((mem_bucketValues_firstBucket 1).mpr rfl)
    exact hkept
  · exact absurd hstop (by decide)

/-- One row in the range, and the sample behind its bucket is not shown. -/
theorem secondSample_not_shown :
    OneStream wholeReader halfCovered "device".toList "imu".toList pairFrame.signal 1000000 ∧
      IsSample wholeReader halfCovered.telemetry "device".toList "imu".toList "a".toList 1000 2 ∧
      ¬AllShown wholeReader halfCovered "device".toList "imu".toList 0 1000 10 := by
  have hsample : IsSample wholeReader halfCovered.telemetry "device".toList "imu".toList "a".toList
      1000 2 := @isSample_halfCovered 1 1000 2 (by decide +kernel) (by decide +kernel)
  refine ⟨oneStream_halfCovered, hsample, fun hall => ?_⟩
  obtain ⟨response, hok, hshows⟩ := hall "a".toList 1000 2 hsample (by decide) (by decide)
  have hresponse : sampledSeries wholeReader halfCovered "device".toList "imu".toList 0 1000 10 =
      .ok (.rollup 1000000 [⟨"a".toList, none, [⟨0, 1, 1, some 1⟩]⟩]) := rfl
  obtain rfl := Except.ok.inj (hresponse.symm.trans hok)
  obtain ⟨channel, hchannel, -, point, hpoint, -, hmax⟩ := hshows
  obtain rfl := List.mem_singleton.mp hchannel
  obtain rfl := List.mem_singleton.mp hpoint
  exact absurd hmax (by decide)

end Aetus.Query
