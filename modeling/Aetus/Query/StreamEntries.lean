import Aetus.Query.Noninterference

/-!
The listed streams of a device, and what the endpoints answer that look one up by its key alone.
-/

set_option autoImplicit false

namespace Aetus.Query
open Aetus.Base Aetus.Postgres

variable {F : Type} {reader : Reader F} {frame : StoredFrame} {frames : List StoredFrame}

/-! The frames that the repository reads -/

theorem collectFrame_ok_iff (start stop : Option Timestamptz) (collected : Collected F) :
    (∃ next, collectFrame reader start stop collected frame = .ok next) ↔
      FrameDecodable reader frame := by
  constructor
  · intro ⟨next, h⟩
    unfold collectFrame at h
    cases hdecode : decodeFrame reader frame with
    | error e =>
      rw [hdecode] at h
      cases h
    | ok result => exact frameDecodable_of_decodeFrame hdecode
  · intro h
    obtain ⟨values, hdecode, hlook⟩ := decodeFrame_ok h
    have hchannels : ∃ channelSamples, (channelsOf reader frame).foldlM
        (extendChannel values (selectedSamples reader.rounding start stop frame)) collected.channelSamples =
          .ok channelSamples := by
      refine exists_foldlM (fun channel hchannel held => ?_) _
      have hkey : channel.key ∈ channelKeys reader frame := List.mem_map_of_mem hchannel
      have hvalues : ∀ j ∈ selectedSamples reader.rounding start stop frame,
          j < ((channelCells reader frame channel.key).map Prod.snd).length := by
        intro j hj
        rw [List.length_map]
        exact (lt_of_mem_selectedSamples hj).trans_le (sampleCount_le_channelCells hkey)
      rw [extendChannel, hlook, if_pos hkey]
      simp only [valuesAt_ok hvalues]
      exact ⟨_, rfl⟩
    obtain ⟨channelSamples, hfold⟩ := hchannels
    simp only [collectFrame, hdecode, selectedIndices_sampleTimestamps, List.map_map,
      Function.comp_def, List.map_id', hfold]
    exact ⟨_, rfl⟩

theorem rawFramesToSeries_ok_iff (maxPoints : Int) (start stop : Option Timestamptz) :
    (∃ series, rawFramesToSeries reader frames maxPoints start stop = .ok series) ↔
      ∀ frame ∈ frames, FrameDecodable reader frame := by
  unfold rawFramesToSeries
  constructor
  · intro ⟨series, h⟩ frame hframe
    cases hcollect : frames.foldlM (collectFrame reader start stop) ⟨[], []⟩ with
    | error e =>
      rw [hcollect] at h
      cases h
    | ok collected =>
      obtain ⟨before, after, hstep⟩ := foldlM_ok_of_mem hcollect hframe
      exact (collectFrame_ok_iff start stop before).mp ⟨after, hstep⟩
  · intro h
    obtain ⟨collected, hcollect⟩ := exists_foldlM (fun frame hframe collected =>
      (collectFrame_ok_iff start stop collected).mpr (h frame hframe)) ⟨[], []⟩
    rw [hcollect]
    exact ⟨_, rfl⟩

theorem frameResponse_ok_iff :
    (∃ response, frameResponse reader frame = .ok response) ↔ FrameDecodable reader frame := by
  unfold frameResponse
  constructor
  · intro ⟨response, h⟩
    cases hdecode : decodeFrame reader frame with
    | error e =>
      rw [hdecode] at h
      cases h
    | ok result => exact frameDecodable_of_decodeFrame hdecode
  · intro h
    obtain ⟨values, hdecode, hlook⟩ := decodeFrame_ok h
    have hchannels : (channelsOf reader frame).mapM (frameChannel values) =
        .ok ((channelsOf reader frame).map fun channel =>
          ⟨channel.key, channel.unit, (channelCells reader frame channel.key).map Prod.snd⟩) := by
      refine mapM_eq_ok fun channel hchannel => ?_
      have hkey : channel.key ∈ channelKeys reader frame := List.mem_map_of_mem hchannel
      rw [frameChannel, hlook, if_pos hkey]
    rw [hdecode]
    simp only [hchannels]
    exact ⟨_, rfl⟩

/-! Looking a key up -/

variable {service : Service F} {settings : Settings} {moment : Moment} {state : State F}
  {store : Store F} {deviceId key : List Char} {stream : StreamRef F}

def HasScalar (store : Store F) (deviceId key : List Char) : Prop :=
  ∃ point ∈ store.telemetry.points, point.device = deviceId ∧ point.metric.metricKey = key

def scalarEntries (platform : Platform F) (store : Store F) (deviceId : List Char) :
    List (StreamRef F) :=
  let points := store.telemetry.points.filter (·.device = deviceId)
  (platform.collation.orderBy (·.metricKey) (points.map (·.metric)).dedup).filterMap
    (scalarStream points)

def sampledEntries (platform : Platform F) (store : Store F) (deviceId : List Char) :
    List (StreamRef F) :=
  let frames := store.telemetry.frames.filter (·.device = deviceId)
  (platform.collation.orderBy (·.streamKey) (frames.map (·.signal)).dedup).filterMap
    (sampledStream platform.reader frames)

theorem listStreams_eq (platform : Platform F) (store : Store F) (deviceId : List Char) :
    listStreams platform store deviceId =
      scalarEntries platform store deviceId ++ sampledEntries platform store deviceId := rfl

theorem kind_of_mem_scalarEntries {platform : Platform F}
    (h : stream ∈ scalarEntries platform store deviceId) : stream.kind = .scalar := by
  obtain ⟨metric, -, hstream⟩ := List.mem_filterMap.mp h
  obtain ⟨latest, -, rfl⟩ := Option.map_eq_some_iff.mp hstream
  rfl

theorem kind_of_mem_sampledEntries {platform : Platform F}
    (h : stream ∈ sampledEntries platform store deviceId) : stream.kind = .sampled := by
  obtain ⟨signal, -, hstream⟩ := List.mem_filterMap.mp h
  unfold sampledStream at hstream
  dsimp only at hstream
  split at hstream
  · obtain rfl := Option.some.inj hstream
    rfl
  · cases hstream

theorem hasScalar_iff (platform : Platform F) : HasScalar store deviceId key ↔
    ∃ stream ∈ scalarEntries platform store deviceId, stream.key = key := by
  let points := store.telemetry.points.filter (·.device = deviceId)
  constructor
  · rintro ⟨point, hpoint, hdevice, hkey⟩
    have hmem : point ∈ points := List.mem_filter.mpr ⟨hpoint, decide_eq_true hdevice⟩
    have htime : point.eventTime ∈ (points.filter (·.metric = point.metric)).map (·.eventTime) :=
      List.mem_map_of_mem (List.mem_filter.mpr ⟨hmem, decide_eq_true rfl⟩)
    have hsome : (scalarStream (F := F) points point.metric).isSome = true := by
      rw [scalarStream, Option.isSome_map]
      exact List.isSome_max?_of_mem htime
    obtain ⟨entry, hentry⟩ := Option.isSome_iff_exists.mp hsome
    refine ⟨entry, List.mem_filterMap.mpr ⟨point.metric, ?_, hentry⟩,
      (scalarStream_key hentry).trans hkey⟩
    rw [Collation.orderBy, List.mem_insertionSort, List.mem_dedup]
    exact List.mem_map_of_mem hmem
  · rintro ⟨stream, hstream, hkey⟩
    obtain ⟨metric, hmetric, hentry⟩ := List.mem_filterMap.mp hstream
    rw [Collation.orderBy, List.mem_insertionSort, List.mem_dedup] at hmetric
    obtain ⟨point, hpoint, rfl⟩ := List.mem_map.mp hmetric
    obtain ⟨hmem, hdevice⟩ := List.mem_filter.mp hpoint
    exact ⟨point, hmem, of_decide_eq_true hdevice, (scalarStream_key hentry).symm.trans hkey⟩

/-- The first entry under a key that is listed: a scalar one, if there is any. -/
theorem findStream_of_mem (hmem : stream ∈ listStreams service.toPlatform store deviceId) :
    ∃ found, findStream service store deviceId stream.key = some found ∧
      (found.kind = .scalar ↔ HasScalar store deviceId stream.key) := by
  rw [findStream, listStreams_eq, List.find?_append, hasScalar_iff service.toPlatform]
  cases hscalar : (scalarEntries service.toPlatform store deviceId).find?
      fun entry => entry.key = stream.key with
  | some found =>
    have hfound := List.mem_of_find?_eq_some hscalar
    have hkey := List.find?_some hscalar
    exact ⟨found, rfl, iff_of_true (kind_of_mem_scalarEntries hfound)
      ⟨found, hfound, of_decide_eq_true hkey⟩⟩
  | none =>
    have hnone : ∀ entry ∈ scalarEntries service.toPlatform store deviceId,
        entry.key ≠ stream.key := by
      simpa using hscalar
    have hsampled : stream ∈ sampledEntries service.toPlatform store deviceId := by
      rw [listStreams_eq] at hmem
      exact (List.mem_append.mp hmem).resolve_left fun hin => hnone stream hin rfl
    obtain ⟨found, hfind⟩ := Option.isSome_iff_exists.mp
      (List.find?_isSome.mpr ⟨stream, hsampled, decide_eq_true rfl⟩ :
        ((sampledEntries service.toPlatform store deviceId).find?
          fun entry => entry.key = stream.key).isSome = true)
    refine ⟨found, hfind, iff_of_false ?_ ?_⟩
    · rw [kind_of_mem_sampledEntries (List.mem_of_find?_eq_some hfind)]
      exact StreamKind.noConfusion
    · rintro ⟨entry, hentry, hkey⟩
      exact hnone entry hentry hkey

theorem hasScalar_of_kind (hmem : stream ∈ listStreams service.toPlatform store deviceId)
    (hkind : stream.kind = .scalar) : HasScalar store deviceId stream.key := by
  rw [listStreams_eq] at hmem
  refine (hasScalar_iff service.toPlatform).mpr ⟨stream, ?_, rfl⟩
  refine (List.mem_append.mp hmem).resolve_right fun hsampled => ?_
  rw [kind_of_mem_sampledEntries hsampled] at hkind
  cases hkind

/-! The endpoints -/

variable {authorization : Option (List Char)} {from_ to_ : List Char} {start stop : Timestamptz}
  {maxPoints : Int}

def StreamContent.IsSeries : StreamKind → StreamContent F → Prop
  | .scalar, .scalar _ _ => True
  | .sampled, .sampled _ => True
  | _, _ => False

def SeriesServed (service : Service F) (settings : Settings) (moment : Moment) (state : State F)
    (authorization : Option (List Char)) (deviceId : List Char) (stream : StreamRef F)
    (from_ to_ : List Char) (maxPoints : Int) : Prop :=
  ∃ body, (getSeries service settings moment state authorization deviceId stream.key from_ to_
      maxPoints).1 = ⟨200, .stream body⟩ ∧ body.content.IsSeries stream.kind

def FramesServed (service : Service F) (settings : Settings) (moment : Moment) (store : Store F)
    (authorization : Option (List Char)) (deviceId : List Char) (stream : StreamRef F)
    (from_ to_ : List Char) (start stop : Timestamptz) : Prop :=
  ∃ answers, getFrames service settings moment store authorization deviceId stream.key from_ to_ =
      .ok (.stream ⟨deviceId, stream.key, .frames answers⟩) ∧
    List.Forall₂ (fun frame answer => frameResponse service.reader frame = .ok answer)
      (readSignalFrames service.reader store.telemetry deviceId stream.key start stop) answers

/-- A cached response is of the entry's kind; where there is none, a sampled entry does not share its
key with a scalar one, and a rollup row or frames that decode are there for the range. -/
def SeriesServable (service : Service F) (settings : Settings) (moment : Moment) (state : State F)
    (deviceId : List Char) (stream : StreamRef F) (start stop : Timestamptz) (maxPoints : Int) :
    Prop :=
  match state.getJson settings moment
    (cacheKey service.isoformat "series" deviceId stream.key start stop maxPoints) with
  | some cached => cached.content.IsSeries stream.kind
  | none => stream.kind = .scalar ∨ ¬HasScalar state.store deviceId stream.key ∧
      (rollupRows state.store deviceId stream.key start stop ≠ [] ∨
        ∀ frame ∈ readSignalFrames service.reader state.store.telemetry deviceId stream.key start stop,
          FrameDecodable service.reader frame)

def FramesServable (service : Service F) (store : Store F) (deviceId : List Char)
    (stream : StreamRef F) (start stop : Timestamptz) : Prop :=
  ¬HasScalar store deviceId stream.key ∧
    ∀ frame ∈ readSignalFrames service.reader store.telemetry deviceId stream.key start stop,
      FrameDecodable service.reader frame

theorem sampledSeries_ok_iff (maxPoints : Int) : (∃ response, sampledSeries reader store deviceId key
      start stop maxPoints = .ok response) ↔ rollupRows store deviceId key start stop ≠ [] ∨
    ∀ frame ∈ readSignalFrames reader store.telemetry deviceId key start stop,
      FrameDecodable reader frame := by
  unfold sampledSeries
  cases hrollups : rollupRows store deviceId key start stop with
  | cons first rows => exact iff_of_true ⟨_, rfl⟩ (.inl (List.cons_ne_nil first rows))
  | nil =>
    rw [← rawFramesToSeries_ok_iff maxPoints (some start) (some stop),
      or_iff_right (not_not.mpr rfl)]
    cases rawFramesToSeries reader (readSignalFrames reader store.telemetry deviceId key start stop)
        maxPoints (some start) (some stop) with
    | error e => exact iff_of_false (fun ⟨_, h⟩ => nomatch h) fun ⟨_, h⟩ => nomatch h
    | ok series => exact iff_of_true ⟨_, rfl⟩ ⟨series, rfl⟩

theorem readSeries_of_hasScalar (hmem : stream ∈ listStreams service.toPlatform store deviceId)
    (h : HasScalar store deviceId stream.key) :
    readSeries service store deviceId stream.key start stop maxPoints = .ok (store,
      ⟨deviceId, stream.key,
        .scalar (scalarSeries store deviceId stream.key start stop maxPoints) none⟩) := by
  obtain ⟨found, hfound, hkind⟩ := findStream_of_mem hmem
  simp only [readSeries, hfound, hkind.mpr h]

theorem kind_eq_sampled {kind : StreamKind} (h : kind ≠ .scalar) : kind = .sampled := by
  cases kind with
  | scalar => exact absurd rfl h
  | sampled => rfl

theorem readSeries_served_iff (hmem : stream ∈ listStreams service.toPlatform store deviceId) :
    (∃ store' body, readSeries service store deviceId stream.key start stop maxPoints =
        .ok (store', body) ∧ body.content.IsSeries stream.kind) ↔
      stream.kind = .scalar ∨ ¬HasScalar store deviceId stream.key ∧
        (rollupRows store deviceId stream.key start stop ≠ [] ∨
          ∀ frame ∈ readSignalFrames service.reader store.telemetry deviceId stream.key start stop,
            FrameDecodable service.reader frame) := by
  by_cases hscalar : HasScalar store deviceId stream.key
  · simp only [readSeries_of_hasScalar hmem hscalar, hscalar, not_true_eq_false, false_and, or_false]
    constructor
    · rintro ⟨store', body, hbody, hkind⟩
      cases hbody
      by_contra hsampled
      rw [kind_eq_sampled hsampled] at hkind
      exact hkind
    · intro hkind
      refine ⟨_, _, rfl, ?_⟩
      rw [hkind]
      trivial
  · have hkind : stream.kind = .sampled :=
      kind_eq_sampled fun h => hscalar (hasScalar_of_kind hmem h)
    obtain ⟨found, hfound, hfoundKind⟩ := findStream_of_mem hmem
    have hsampled : found.kind = .sampled := kind_eq_sampled fun h => hscalar (hfoundKind.mp h)
    rw [hkind, or_iff_right StreamKind.noConfusion, and_iff_right hscalar,
      ← sampledSeries_ok_iff maxPoints]
    simp only [readSeries, hfound, hsampled]
    cases sampledSeries service.reader store deviceId stream.key start stop maxPoints with
    | error e =>
      refine iff_of_false ?_ ?_
      · rintro ⟨store', body, h, -⟩
        cases h
      · rintro ⟨response, h⟩
        cases h
    | ok response => exact iff_of_true ⟨_, _, rfl, trivial⟩ ⟨response, rfl⟩

theorem failed_ne_stream (e : Failure) (status : Nat) (body : StreamBody F) :
    failed e ≠ ⟨status, .stream body⟩ := by
  cases e <;> exact fun h => nomatch congrArg Response.body h

theorem seriesServed_iff (hmem : stream ∈ listStreams service.toPlatform state.store deviceId)
    (hrange : seriesRange service settings moment authorization deviceId stream.key from_ to_
      maxPoints = .ok (start, stop)) :
    SeriesServed service settings moment state authorization deviceId stream from_ to_ maxPoints ↔
      SeriesServable service settings moment state deviceId stream start stop maxPoints := by
  unfold SeriesServed SeriesServable
  simp only [getSeries, hrange, throughCache]
  cases hcache : state.getJson settings moment
      (cacheKey service.isoformat "series" deviceId stream.key start stop maxPoints) with
  | some cached =>
    constructor
    · rintro ⟨body, hbody, hkind⟩
      cases hbody
      exact hkind
    · intro hkind
      exact ⟨cached, rfl, hkind⟩
  | none =>
    dsimp only
    rw [← readSeries_served_iff hmem]
    cases hread : readSeries service state.store deviceId stream.key start stop maxPoints with
    | error e =>
      refine iff_of_false ?_ ?_
      · rintro ⟨body, h, -⟩
        exact failed_ne_stream e 200 body h
      · rintro ⟨store', body, h, -⟩
        cases h
    | ok read =>
      constructor
      · rintro ⟨body, hbody, hkind⟩
        cases hbody
        exact ⟨read.1, read.2, rfl, hkind⟩
      · rintro ⟨store', body, hbody, hkind⟩
        cases hbody
        exact ⟨body, rfl, hkind⟩

theorem framesServed_iff (hmem : stream ∈ listStreams service.toPlatform store deviceId)
    (hrange : framesRange service settings moment authorization deviceId stream.key from_ to_ =
      .ok (start, stop)) :
    FramesServed service settings moment store authorization deviceId stream from_ to_ start stop ↔
      FramesServable service store deviceId stream start stop := by
  obtain ⟨found, hfound, hfoundKind⟩ := findStream_of_mem hmem
  have hget : getFrames service settings moment store authorization deviceId stream.key from_ to_ =
      readFrames service store deviceId stream.key start stop >>= fun body => .ok (.stream body) := by
    rw [getFrames, hrange]
    rfl
  unfold FramesServed FramesServable
  rw [hget, readFrames, hfound]
  by_cases hscalar : HasScalar store deviceId stream.key
  · simp only [hfoundKind.mpr hscalar, hscalar, not_true_eq_false, false_and, iff_false]
    rintro ⟨body, h, -⟩
    cases h
  · have hsampled : found.kind = .sampled := kind_eq_sampled fun h => hscalar (hfoundKind.mp h)
    simp only [hsampled]
    rw [and_iff_right hscalar]
    cases hframes : frames service.reader store deviceId stream.key start stop with
    | error e =>
      refine iff_of_false ?_ fun hall => ?_
      · rintro ⟨body, h, -⟩
        cases h
      · obtain ⟨answers, hanswers⟩ :=
          exists_mapM_iff.mpr fun frame hframe => frameResponse_ok_iff.mpr (hall frame hframe)
        cases hanswers.symm.trans hframes
    | ok answers =>
      exact iff_of_true ⟨answers, rfl, mapM_ok hframes⟩ fun frame hframe =>
        frameResponse_ok_iff.mp (ok_of_mapM hframes hframe)

/-- For every entry that is listed, the series endpoint and, if it is sampled, the frames endpoint
answer an admitted request for its key if and only if the entry can be served. -/
theorem entries_served_iff (service : Service F) (settings : Settings) (moment : Moment)
    (state : State F) (authorization : Option (List Char)) (deviceId : List Char)
    (stream : StreamRef F) (hmem : stream ∈ listStreams service.toPlatform state.store deviceId) :
    (∀ from_ to_ maxPoints start stop, seriesRange service settings moment authorization deviceId
        stream.key from_ to_ maxPoints = .ok (start, stop) →
      (SeriesServed service settings moment state authorization deviceId stream from_ to_ maxPoints ↔
        SeriesServable service settings moment state deviceId stream start stop maxPoints)) ∧
    (stream.kind = .sampled → ∀ from_ to_ start stop, framesRange service settings moment
        authorization deviceId stream.key from_ to_ = .ok (start, stop) →
      (FramesServed service settings moment state.store authorization deviceId stream from_ to_ start
          stop ↔ FramesServable service state.store deviceId stream start stop)) :=
  ⟨fun _ _ _ _ _ hrange => seriesServed_iff hmem hrange,
    fun _ _ _ _ _ hrange => framesServed_iff hmem hrange⟩

def wholeFrame : StoredFrame := int16Frame ["a".toList] 0 1 [1, 0]

def guestToken : Option (List Char) := some "Bearer guest".toList

theorem entries_served_oneFrame :
    ∃ stream ∈ listStreams wholePlatform (oneFrameStore wholeFrame) "device".toList,
      FramesServed wholeService wholeSettings wholeMoment (oneFrameStore wholeFrame) guestToken
        "device".toList stream fromText toText 0 1000 := by
  have hlisted : (listStreams wholePlatform (oneFrameStore wholeFrame) "device".toList).any
      (fun stream => stream.kind = .sampled && stream.key = "imu".toList) = true := by decide +kernel
  obtain ⟨stream, hmem, hentry⟩ := List.any_eq_true.mp hlisted
  simp only [Bool.and_eq_true, decide_eq_true_eq] at hentry
  have hrange : framesRange wholeService wholeSettings wholeMoment guestToken "device".toList
      stream.key fromText toText = .ok (0, 1000) := by
    rw [hentry.2]
    rfl
  refine ⟨stream, hmem, ((entries_served_iff wholeService wholeSettings wholeMoment
    ⟨oneFrameStore wholeFrame, Keyed.empty _⟩ guestToken "device".toList stream hmem).2 hentry.1
      _ _ 0 1000 hrange).mpr ⟨?_, fun frame hframe => ?_⟩⟩
  · intro ⟨point, hpoint, _⟩
    cases hpoint
  · obtain rfl := List.mem_singleton.mp
      (List.mem_filter.mp (mem_framesOf_of_mem_framesBetween hframe)).1
    exact int16Frame_decodable (by decide +kernel) (by decide) (by decide) (by decide)

def sharedKeyStore : Store Int where
  telemetry := {
    devices := ["device".toList]
    points := [{
      eventTime := 0
      eventTimeNs := none
      receivedAt := 0
      device := "device".toList
      boot := ("device".toList, "boot".toList)
      metric := ⟨"imu".toList, [], "int".toList⟩
      sequence := 0
      metricIndex := 0
      schemaVersion := 1
      firmwareVersion := none
      uptimeMs := none
      sourceIp := none
      valueDouble := none
      valueInt := some (.int 1)
      valueBool := none
      valueString := none
      valueBytesHex := none
      requestId := "request".toList }]
    frames := [wholeFrame] }
  rollups := []
  features := Keyed.empty _

/-- The sampled entry is listed, its frames are not found, and its series is a scalar one. -/
theorem sharedKey_not_served :
    let state : State Int := ⟨sharedKeyStore, Keyed.empty _⟩
    ∃ stream ∈ listStreams wholePlatform sharedKeyStore "device".toList, stream.kind = .sampled ∧
      framesRange wholeService wholeSettings wholeMoment guestToken "device".toList stream.key
        fromText toText = .ok (0, 1000) ∧
      getFrames wholeService wholeSettings wholeMoment sharedKeyStore guestToken "device".toList
        stream.key fromText toText =
          .error (.http 404 "raw frames are only available for sampled streams") ∧
      seriesRange wholeService wholeSettings wholeMoment guestToken "device".toList stream.key
        fromText toText 1 = .ok (0, 1000) ∧
      ¬SeriesServed wholeService wholeSettings wholeMoment state guestToken "device".toList stream
        fromText toText 1 := by
  intro state
  have hlisted : (listStreams wholePlatform sharedKeyStore "device".toList).any
      (fun stream => stream.kind = .sampled && stream.key = "imu".toList) = true := by decide +kernel
  obtain ⟨stream, hmem, hentry⟩ := List.any_eq_true.mp hlisted
  simp only [Bool.and_eq_true, decide_eq_true_eq] at hentry
  obtain ⟨hkind, hkey⟩ := hentry
  refine ⟨stream, hmem, hkind, ?_⟩
  unfold SeriesServed
  rw [hkey, hkind]
  refine ⟨rfl, rfl, rfl, ?_⟩
  intro ⟨body, hbody, hsampled⟩
  obtain rfl : _ = body := Body.stream.inj (congrArg Response.body hbody)
  exact hsampled

end Aetus.Query
