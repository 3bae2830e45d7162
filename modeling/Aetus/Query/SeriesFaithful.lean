import Aetus.Base.Cuts
import Aetus.Base.Tracks
import Aetus.Query.FrameSamples

/-!
Which samples the points of a series are made of. All channels share one list of times, and
each has a list of values of its own.
-/

set_option autoImplicit false

namespace Aetus.Query
open Aetus.Base Aetus.Postgres

variable {F : Type} {reader : Reader F} {start stop : Option Timestamptz}
  {frames : List StoredFrame} {key : List Char}

/-- The selected samples of a frame, each with the value that the channel has there; none in a
frame without the channel. -/
def frameTrack (reader : Reader F) (start stop : Option Timestamptz) (key : List Char)
    (frame : StoredFrame) : List (Timestamptz × Option F) :=
  (selectedSamples reader.rounding start stop frame).map fun j =>
    (sampleTime reader.rounding frame j, ((channelCells reader frame key).map Prod.snd)[j]?)

def channelTrack (reader : Reader F) (start stop : Option Timestamptz) (frames : List StoredFrame)
    (key : List Char) : List (Timestamptz × Option F) :=
  frames.flatMap (frameTrack reader start stop key)

/-- The selected samples of a channel: the position in the shared list, the time, the value. -/
def ownSamples (reader : Reader F) (start stop : Option Timestamptz) (frames : List StoredFrame)
    (key : List Char) : List (Nat × Timestamptz × F) :=
  trackEntries (channelTrack reader start stop frames key)

def selectedTimes (rounding : Rounding) (start stop : Option Timestamptz) (frame : StoredFrame) :
    List Timestamptz :=
  (selectedSamples rounding start stop frame).map (sampleTime rounding frame)

theorem map_fst_channelTrack (reader : Reader F) (frames : List StoredFrame) (key : List Char) :
    (channelTrack reader start stop frames key).map Prod.fst =
      frames.flatMap (selectedTimes reader.rounding start stop) := by
  rw [channelTrack, List.map_flatMap]
  refine List.flatMap_congr fun frame _ => ?_
  rw [frameTrack, List.map_map]
  rfl

theorem valuesAt_ok {values : List F} {indices : List Nat} (h : ∀ j ∈ indices, j < values.length) :
    valuesAt values indices = .ok (indices.filterMap (values[·]?)) := by
  induction indices with
  | nil => rfl
  | cons j indices ih =>
    have hj := List.getElem?_eq_getElem (h j List.mem_cons_self)
    have hrest := ih fun i hi => h i (List.mem_cons_of_mem j hi)
    rw [valuesAt] at hrest ⊢
    rw [List.mapM_cons, hrest, List.filterMap_cons, hj]
    rfl

variable {frame : StoredFrame}

theorem filterMap_frameTrack (key : List Char) :
    (frameTrack reader start stop key frame).filterMap Prod.snd =
      (selectedSamples reader.rounding start stop frame).filterMap
        (((channelCells reader frame key).map Prod.snd)[·]?) := by
  rw [frameTrack, List.filterMap_map]
  rfl

theorem filterMap_frameTrack_of_not_mem (h : key ∉ channelKeys reader frame) :
    (frameTrack reader start stop key frame).filterMap Prod.snd = [] := by
  rw [filterMap_frameTrack, channelCells_of_not_mem h]
  exact List.filterMap_eq_nil_iff.mpr fun _ _ => rfl

theorem foldlM_extendChannel (start stop : Option Timestamptz)
    (hkeys : (channelKeys reader frame).Nodup) {values : Values F}
    (hlook : ∀ key, values.lookup key = if key ∈ channelKeys reader frame then
      some ((channelCells reader frame key).map Prod.snd) else none)
    (d : OrderedDict (List Char) (ChannelSamples F)) (hd : (d.map Prod.fst).Nodup) :
    ∃ d', (channelsOf reader frame).foldlM
        (extendChannel values (selectedSamples reader.rounding start stop frame)) d = .ok d' ∧
      (d'.map Prod.fst).Nodup ∧
      (∀ channel ∈ channelsOf reader frame,
        let held := (d.get? channel.key).getD ⟨channel.key, channel.unit, []⟩
        d'.get? channel.key = some { held with values := held.values ++
          (frameTrack reader start stop channel.key frame).filterMap Prod.snd }) ∧
      ∀ key ∉ channelKeys reader frame, d'.get? key = d.get? key := by
  let change (channel : Channel F) (held : ChannelSamples F) : ChannelSamples F :=
    { held with values := held.values ++
      (frameTrack reader start stop channel.key frame).filterMap Prod.snd }
  let extend (d : OrderedDict (List Char) (ChannelSamples F)) (channel : Channel F) :=
    d.alter channel.key ⟨channel.key, channel.unit, []⟩ (change channel)
  have hstep : ∀ channel ∈ channelsOf reader frame, ∀ d,
      extendChannel values (selectedSamples reader.rounding start stop frame) d channel =
        .ok (extend d channel) := by
    intro channel hchannel d
    have hkey : channel.key ∈ channelKeys reader frame := List.mem_map_of_mem hchannel
    have hcells := congrArg List.length (channelCells_of_nodup hkeys hkey)
    have hfits : ∀ j ∈ selectedSamples reader.rounding start stop frame,
        j < ((channelCells reader frame channel.key).map Prod.snd).length := by
      intro j hj
      rw [List.length_map, List.length_range] at hcells
      rw [List.length_map, hcells]
      exact lt_of_mem_selectedSamples hj
    rw [extendChannel, hlook, if_pos hkey]
    simp only [valuesAt_ok hfits, ← filterMap_frameTrack]
    rfl
  have hget (key : List Char) : ((channelsOf reader frame).foldl extend d).get? key =
      ((channelsOf reader frame).filter fun channel => channel.key = key).foldl
        (fun held channel => some (change channel (held.getD ⟨channel.key, channel.unit, []⟩)))
        (d.get? key) := OrderedDict.get?_foldl_alter
  have hnodup : (((channelsOf reader frame).foldl extend d).map Prod.fst).Nodup :=
    OrderedDict.nodup_foldl_alter hd
  refine ⟨_, foldlM_eq_ok hstep, hnodup, fun channel hchannel => ?_, fun key hkey => ?_⟩
  · have hsingle := filter_eq_singleton hkeys hchannel
    exact (hget channel.key).trans (by rw [hsingle]; rfl)
  · have hnone : ((channelsOf reader frame).filter fun channel => channel.key = key) = [] :=
      List.filter_eq_nil_iff.mpr fun channel hchannel hk =>
        hkey (of_decide_eq_true hk ▸ List.mem_map_of_mem hchannel)
    exact (hget key).trans (by rw [hnone]; rfl)

theorem filterMap_channelTrack_append :
    (channelTrack reader start stop (frames ++ [frame]) key).filterMap Prod.snd =
      (channelTrack reader start stop frames key).filterMap Prod.snd ++
        (frameTrack reader start stop key frame).filterMap Prod.snd := by
  rw [channelTrack, List.flatMap_append, List.flatMap_singleton, List.filterMap_append]
  rfl

theorem filterMap_channelTrack_of_not_carried
    (h : ¬∃ frame ∈ frames, key ∈ channelKeys reader frame) :
    (channelTrack reader start stop frames key).filterMap Prod.snd = [] := by
  rw [channelTrack, List.filterMap_flatMap]
  exact List.flatMap_eq_nil_iff.mpr fun frame hframe =>
    filterMap_frameTrack_of_not_mem fun hkey => h ⟨frame, hframe, hkey⟩

structure Collects (reader : Reader F) (start stop : Option Timestamptz) (frames : List StoredFrame)
    (collected : Collected F) : Prop where
  timestamps : collected.timestamps = frames.flatMap (selectedTimes reader.rounding start stop)
  nodup : (collected.channelSamples.map Prod.fst).Nodup
  named : ∀ key held, collected.channelSamples.get? key = some held → held.name = key
  values : ∀ key, (collected.channelSamples.get? key).map (·.values) =
    if ∃ frame ∈ frames, key ∈ channelKeys reader frame then
      some ((channelTrack reader start stop frames key).filterMap Prod.snd) else none

theorem collects_nil : Collects reader start stop [] ⟨[], []⟩ where
  timestamps := rfl
  nodup := List.nodup_nil
  named := nofun
  values := fun key => by simp [OrderedDict.get?_nil]

theorem collectFrame_collects {collected : Collected F}
    (h : Collects reader start stop frames collected) (hframe : FrameDecodable reader frame)
    (hkeys : (channelKeys reader frame).Nodup) :
    ∃ collected', collectFrame reader start stop collected frame = .ok collected' ∧
      Collects reader start stop (frames ++ [frame]) collected' := by
  obtain ⟨values, hdecode, hlook⟩ := decodeFrame_ok hframe
  obtain ⟨d', hextend, hnodup, hheld, hother⟩ := foldlM_extendChannel start stop hkeys hlook
    collected.channelSamples h.nodup
  refine ⟨⟨d', collected.timestamps ++ selectedTimes reader.rounding start stop frame⟩, ?_, ?_⟩
  · have hindices : ((selectedSamples reader.rounding start stop frame).map fun j =>
        (sampleTime reader.rounding frame j, j)).map Prod.snd =
          selectedSamples reader.rounding start stop frame := by
      rw [List.map_map]
      exact List.map_id _
    have htimes : ((selectedSamples reader.rounding start stop frame).map fun j =>
        (sampleTime reader.rounding frame j, j)).map Prod.fst =
          selectedTimes reader.rounding start stop frame := List.map_map
    simp only [collectFrame, hdecode, selectedIndices_sampleTimestamps, hindices, htimes, hextend]
  · refine ⟨?_, hnodup, fun key held hget => ?_, fun key => ?_⟩
    · rw [h.timestamps, List.flatMap_append, List.flatMap_singleton]
    · by_cases hkey : key ∈ channelKeys reader frame
      · obtain ⟨channel, hchannel, rfl⟩ := List.mem_map.mp hkey
        obtain rfl := Option.some.inj ((hheld channel hchannel).symm.trans hget)
        cases hbefore : collected.channelSamples.get? channel.key with
        | none => rfl
        | some before => exact h.named _ before hbefore
      · exact h.named key held ((hother key hkey).symm.trans hget)
    · rw [filterMap_channelTrack_append]
      have hbefore := h.values key
      by_cases hkey : key ∈ channelKeys reader frame
      · obtain ⟨channel, hchannel, rfl⟩ := List.mem_map.mp hkey
        rw [if_pos ⟨frame, List.mem_append_right _ List.mem_cons_self, hkey⟩, hheld channel hchannel,
          Option.map_some]
        congr 2
        split at hbefore
        · obtain ⟨before, hget, hvalues⟩ := Option.map_eq_some_iff.mp hbefore
          rw [hget, ← hvalues, Option.getD_some]
        · next hnew =>
          rw [Option.map_eq_none_iff.mp hbefore, filterMap_channelTrack_of_not_carried hnew,
            Option.getD_none]
      · rw [hother key hkey, hbefore, filterMap_frameTrack_of_not_mem hkey, List.append_nil]
        refine if_congr ?_ rfl rfl
        simp [hkey]

variable (reader start stop) in
theorem foldlM_collectFrame
    (hframes : ∀ frame ∈ frames, FrameDecodable reader frame ∧ (channelKeys reader frame).Nodup) :
    ∃ collected, frames.foldlM (collectFrame reader start stop) ⟨[], []⟩ = .ok collected ∧
      Collects reader start stop frames collected := by
  refine foldlM_invariant (Collects reader start stop) (fun before frame hframe collected h => ?_)
    collects_nil
  exact collectFrame_collects h (hframes frame hframe).1 (hframes frame hframe).2

section buckets
variable {total n : Nat} {own : List (Nat × Timestamptz × F)}

def samplesIn (total bucketCount bucketIndex : Nat) (own : List (Nat × Timestamptz × F)) :
    List (Nat × Timestamptz × F) :=
  own.filter fun sample => startIndex total bucketCount bucketIndex ≤ sample.1 ∧
    sample.1 < startIndex total bucketCount (bucketIndex + 1)

/-- Each bucket's slice of the channel's list has the samples of the bucket's slice of the
shared list, and no sample is outside all of them. -/
structure ExactBuckets (total bucketCount : Nat) (own : List (Nat × Timestamptz × F)) : Prop where
  exact : ∀ b < bucketCount, bucketSlice total bucketCount b own = samplesIn total bucketCount b own
  covered : ∀ sample ∈ own, ∃ b < bucketCount, sample ∈ bucketSlice total bucketCount b own

/-- Each bucket starts with as many of the channel's samples before it as if there had been one
at each earlier position. -/
def AlignedBuckets (total bucketCount : Nat) (own : List (Nat × Timestamptz × F)) : Prop :=
  (bucketCount = 0 → own = []) ∧ ∀ b ≤ bucketCount,
    (own.countP fun sample => sample.1 < startIndex total bucketCount b) =
      min (startIndex total bucketCount b) own.length

theorem startIndex_zero : startIndex total n 0 = 0 := cutPoint_zero

theorem startIndex_self (hn : n ≠ 0) : startIndex total n n = total := cutPoint_self hn

theorem startIndex_mono (total n : Nat) : Monotone (startIndex total n) := cutPoint_mono total n

theorem exactBuckets_iff (hpositioned : Positioned own) (hlt : ∀ sample ∈ own, sample.1 < total) :
    ExactBuckets total n own ↔ AlignedBuckets total n own := by
  have hslices := slices_eq_iff (n := n) hpositioned (startIndex_mono total n) startIndex_zero
  constructor
  · rintro ⟨hexact, hcovered⟩
    refine ⟨?_, hslices.mp hexact⟩
    rintro rfl
    refine List.eq_nil_iff_forall_not_mem.mpr fun sample hsample => ?_
    obtain ⟨b, hb, -⟩ := hcovered sample hsample
    exact Nat.not_lt_zero b hb
  · rintro ⟨hempty, hcounts⟩
    have hexact := hslices.mpr hcounts
    refine ⟨hexact, fun sample hsample => ?_⟩
    have hn : n ≠ 0 := by
      rintro rfl
      rw [hempty rfl] at hsample
      cases hsample
    have hbefore : sample.1 < startIndex total n n := by
      rw [startIndex_self hn]
      exact hlt sample hsample
    obtain ⟨b, hb, hbounds⟩ := exists_range startIndex_zero hbefore
    refine ⟨b, hb, ?_⟩
    rw [bucketSlice, hexact b hb]
    exact List.mem_filter.mpr ⟨hsample, decide_eq_true hbounds⟩

end buckets

/-- What the points of a channel should be: its own samples with their times or, in an
envelope, for each bucket the aggregates of its own samples in the bucket's slice of the shared
list, which are the samples whose values the bucket takes. -/
def FaithfulPoints (floats : Floats F) (timestamps : List Timestamptz) (maxPoints : Int)
    (own : List (Nat × Timestamptz × F)) (points : Points F) : Prop :=
  let total := timestamps.length
  let buckets := bucketCount total maxPoints
  if total ≤ maxPoints then
    points = .samples (own.map fun sample => ⟨sample.2.1, sample.2.2⟩)
  else
    points = .envelope ((List.range buckets).filterMap fun b =>
      (timestamps[startIndex total buckets b]?).bind fun ts =>
        envelopePoint floats ts ((samplesIn total buckets b own).map (·.2.2))) ∧
    ExactBuckets total buckets own

structure FaithfulSeries (reader : Reader F) (start stop : Option Timestamptz)
    (frames : List StoredFrame) (maxPoints : Int) (series : SampledSeries F) : Prop where
  nodup : (series.channels.map (·.name)).Nodup
  names : ∀ key, key ∈ series.channels.map (·.name) ↔
    ∃ frame ∈ frames, key ∈ channelKeys reader frame
  points : ∀ channel ∈ series.channels,
    FaithfulPoints reader.floats (frames.flatMap (selectedTimes reader.rounding start stop)) maxPoints
      (ownSamples reader start stop frames channel.name) channel.points

/-- The first of the shared times are the channel's own; or the buckets are aligned. -/
def Aligned (timestamps : List Timestamptz) (maxPoints : Int)
    (own : List (Nat × Timestamptz × F)) : Prop :=
  if timestamps.length ≤ maxPoints then timestamps.take own.length = own.map (·.2.1)
  else AlignedBuckets timestamps.length (bucketCount timestamps.length maxPoints) own

variable {timestamps : List Timestamptz} {maxPoints : Int} {own : List (Nat × Timestamptz × F)}

def pointsOf (floats : Floats F) (timestamps : List Timestamptz) (maxPoints : Int)
    (values : List F) : Points F :=
  if timestamps.length ≤ maxPoints then
    .samples (List.zipWith SeriesPoint.mk timestamps values)
  else .envelope (bucketedPoints floats timestamps (bucketCount timestamps.length maxPoints) values)

theorem bucketSlice_map {α β : Type} (f : α → β) (total n b : Nat) (values : List α) :
    bucketSlice total n b (values.map f) = (bucketSlice total n b values).map f := by
  rw [bucketSlice, bucketSlice, List.map_drop, List.map_take]

theorem faithfulPoints_iff (floats : Floats F) (timestamps : List Timestamptz) (maxPoints : Int)
    (hpositioned : Positioned own)
    (hlt : ∀ sample ∈ own, sample.1 < timestamps.length) (hle : own.length ≤ timestamps.length) :
    FaithfulPoints floats timestamps maxPoints own
        (pointsOf floats timestamps maxPoints (own.map (·.2.2))) ↔
      Aligned timestamps maxPoints own := by
  by_cases hmode : (timestamps.length : Int) ≤ maxPoints
  · have hpoint : Function.Injective (Function.uncurry (SeriesPoint.mk (F := F))) := by
      rintro ⟨ts, value⟩ ⟨ts', value'⟩ h
      obtain ⟨rfl, rfl⟩ := SeriesPoint.mk.inj h
      rfl
    have hzip := zip_eq_iff (show (own.map (·.2)).length ≤ timestamps.length by rwa [List.length_map])
    simp only [FaithfulPoints, pointsOf, Aligned, if_pos hmode, Points.samples.injEq]
    rw [List.map_map, List.map_map, List.length_map] at hzip
    refine Iff.trans ?_ hzip
    rw [← List.map_uncurry_zip_eq_zipWith, ← List.map_inj_right hpoint, List.map_map]
    rfl
  · simp only [FaithfulPoints, pointsOf, Aligned, if_neg hmode]
    rw [exactBuckets_iff hpositioned hlt]
    refine ⟨And.right, fun h => ⟨?_, h⟩⟩
    have hexact := ((exactBuckets_iff hpositioned hlt).mpr h).exact
    refine congrArg Points.envelope (List.filterMap_congr fun b hb => ?_)
    rw [bucketSlice_map, hexact b (List.mem_range.mp hb)]

theorem rawFramesToSeries_channels (start stop : Option Timestamptz)
    (hframes : ∀ frame ∈ frames, FrameDecodable reader frame ∧ (channelKeys reader frame).Nodup)
    (maxPoints : Int) :
    ∃ series collected, rawFramesToSeries reader frames maxPoints start stop = .ok series ∧
      Collects reader start stop frames collected ∧
      series.sourceSampleCount = some collected.timestamps.length ∧
      series.channels = collected.channelSamples.map fun entry => ⟨entry.2.name, entry.2.unit,
        pointsOf reader.floats collected.timestamps maxPoints entry.2.values⟩ := by
  obtain ⟨collected, hrun, hcollects⟩ := foldlM_collectFrame reader start stop hframes
  rw [rawFramesToSeries, hrun]
  refine ⟨_, collected, rfl, hcollects, ?_⟩
  split
  · next hempty =>
    rw [List.map_eq_nil_iff.mp hempty]
    exact ⟨rfl, rfl⟩
  · split
    · next hmode =>
      simp only [sampleSeriesChannels, List.map_map, pointsOf, if_pos hmode]
      exact ⟨trivial, rfl⟩
    · next hmode =>
      simp only [bucketedEnvelopeChannels, List.map_map, pointsOf, if_neg hmode]
      exact ⟨trivial, rfl⟩

theorem map_ownSamples (reader : Reader F) (start stop : Option Timestamptz)
    (frames : List StoredFrame) (key : List Char) : (ownSamples reader start stop frames key).map (·.2.2) =
    (channelTrack reader start stop frames key).filterMap Prod.snd := map_trackEntries

theorem length_channelTrack : (channelTrack reader start stop frames key).length =
    (frames.flatMap (selectedTimes reader.rounding start stop)).length := by
  rw [← map_fst_channelTrack reader frames key, List.length_map]

theorem aligned_of_not_carried (h : ¬∃ frame ∈ frames, key ∈ channelKeys reader frame) :
    Aligned timestamps maxPoints (ownSamples reader start stop frames key) := by
  have hvalues := (map_ownSamples reader start stop frames key).trans
    (filterMap_channelTrack_of_not_carried h)
  rw [List.map_eq_nil_iff.mp hvalues]
  unfold Aligned
  split
  · rfl
  · exact ⟨fun _ => rfl, fun b _ => by simp⟩

theorem Collects.of_mem {collected : Collected F} (h : Collects reader start stop frames collected)
    {entry : List Char × ChannelSamples F} (hmem : entry ∈ collected.channelSamples) :
    entry.2.name = entry.1 ∧ (∃ frame ∈ frames, entry.1 ∈ channelKeys reader frame) ∧
      entry.2.values = (ownSamples reader start stop frames entry.1).map (·.2.2) := by
  have hget := OrderedDict.get?_of_mem h.nodup hmem
  have hvalues := h.values entry.1
  rw [hget, Option.map_some] at hvalues
  split at hvalues
  · next hcarried =>
    exact ⟨h.named _ _ hget, hcarried, (Option.some.inj hvalues).trans (map_ownSamples _ _ _ _ _).symm⟩
  · cases hvalues

theorem Collects.exists_mem {collected : Collected F}
    (h : Collects reader start stop frames collected)
    (hcarried : ∃ frame ∈ frames, key ∈ channelKeys reader frame) :
    ∃ held, (key, held) ∈ collected.channelSamples := by
  have hvalues := h.values key
  rw [if_pos hcarried] at hvalues
  obtain ⟨held, hget, -⟩ := Option.map_eq_some_iff.mp hvalues
  exact ⟨held, OrderedDict.mem_of_get? hget⟩

/-- The series of stored frames is made of the right samples if and only if each channel is
aligned with the shared list of times. -/
theorem rawFramesToSeries_faithful_iff (reader : Reader F) (start stop : Option Timestamptz)
    (frames : List StoredFrame) (maxPoints : Int)
    (hframes : ∀ frame ∈ frames, FrameDecodable reader frame ∧ (channelKeys reader frame).Nodup) :
    (∃ series, rawFramesToSeries reader frames maxPoints start stop = .ok series ∧
        FaithfulSeries reader start stop frames maxPoints series) ↔
      ∀ key, Aligned (frames.flatMap (selectedTimes reader.rounding start stop)) maxPoints
        (ownSamples reader start stop frames key) := by
  obtain ⟨series, collected, hseries, hcollects, -, hchannels⟩ :=
    rawFramesToSeries_channels start stop hframes maxPoints
  have hpoints (key : List Char) := faithfulPoints_iff reader.floats
    (frames.flatMap (selectedTimes reader.rounding start stop)) maxPoints
    (positioned_trackEntries (channelTrack reader start stop frames key))
    (fun sample hsample => (position_lt_of_mem hsample).trans_eq length_channelTrack)
    (length_trackEntries_le.trans_eq length_channelTrack)
  constructor
  · rintro ⟨series', hseries', hfaithful⟩ key
    obtain rfl := Except.ok.inj (hseries.symm.trans hseries')
    by_cases hcarried : ∃ frame ∈ frames, key ∈ channelKeys reader frame
    · obtain ⟨held, hmem⟩ := hcollects.exists_mem hcarried
      obtain ⟨hname, -, hvalues⟩ := hcollects.of_mem hmem
      have hchannel := hfaithful.points _ (hchannels ▸ List.mem_map_of_mem hmem)
      rw [hcollects.timestamps, hvalues, hname] at hchannel
      exact (hpoints key).mp hchannel
    · exact aligned_of_not_carried hcarried
  · intro haligned
    have hnames : series.channels.map (·.name) = collected.channelSamples.map Prod.fst := by
      rw [hchannels, List.map_map]
      exact List.map_congr_left fun entry hmem => (hcollects.of_mem hmem).1
    refine ⟨series, hseries, hnames ▸ hcollects.nodup, fun key => ?_, fun channel hchannel => ?_⟩
    · rw [hnames]
      constructor
      · intro hmem
        obtain ⟨entry, hentry, rfl⟩ := List.mem_map.mp hmem
        exact (hcollects.of_mem hentry).2.1
      · intro hcarried
        obtain ⟨held, hmem⟩ := hcollects.exists_mem hcarried
        exact List.mem_map_of_mem hmem
    · rw [hchannels] at hchannel
      obtain ⟨entry, hentry, rfl⟩ := List.mem_map.mp hchannel
      obtain ⟨hname, -, hvalues⟩ := hcollects.of_mem hentry
      rw [hcollects.timestamps, hvalues, hname]
      exact (hpoints entry.1).mpr (haligned entry.1)

def channelText (keys : List (List Char)) : List Char :=
  (Json.array (keys.map fun key => Ingest.NormalizedChannel.json ⟨key, none, none, none⟩)).dumps

def keysOfText (text : List Char) : Option (List (List Char)) :=
  [["a".toList], ["b".toList], ["a".toList, "b".toList]].find? fun keys => channelText keys = text

def wholeReader : Reader Int where
  floats := wholeFloats
  channelsFromJson := fun text =>
    (keysOfText text).elim [] fun keys => keys.map fun key => ⟨key, none, none, none⟩
  rounding := binary64
  storesChannel := fun key unit => !(key ++ unit.getD []).contains '\x00'

def int16Frame (keys : List (List Char)) (eventTime : Timestamptz) (sampleCount : Nat)
    (samples : List UInt8) : StoredFrame where
  eventTime := eventTime
  eventTimeNs := none
  receivedAt := eventTime
  device := "device".toList
  boot := ("device".toList, "boot".toList)
  signal := ⟨"imu".toList, "int16_le".toList, "interleaved".toList, channelText keys⟩
  sequence := 0
  schemaVersion := 1
  firmwareVersion := none
  uptimeMs := none
  sourceIp := none
  sampleIntervalNs := 1000000
  sampleCount := sampleCount
  samples := samples
  samplesSize := samples.length
  requestId := "request".toList

theorem channelsOf_int16Frame {keys : List (List Char)} {eventTime : Timestamptz}
    {sampleCount : Nat} {samples : List UInt8} (hread : keysOfText (channelText keys) = some keys) :
    channelsOf wholeReader (int16Frame keys eventTime sampleCount samples) =
      keys.map fun key => ⟨key, none, none, none⟩ := by
  show (keysOfText (channelText keys)).elim _ _ = _
  rw [hread]
  rfl

theorem int16Frame_decodable {keys : List (List Char)} {eventTime : Timestamptz} {sampleCount : Nat}
    {samples : List UInt8} (hread : keysOfText (channelText keys) = some keys)
    (hcount : 0 < sampleCount) (hkeys : keys ≠ [])
    (hlength : samples.length = sampleCount * keys.length * 2) :
    FrameDecodable wholeReader (int16Frame keys eventTime sampleCount samples) where
  hasCount := hcount
  hasChannels := by
    rw [channelsOf_int16Frame hread]
    exact List.map_eq_nil_iff.not.mpr hkeys
  encoding := rfl
  layout := .inl rfl
  length := by
    rw [channelsOf_int16Frame hread, List.length_map]
    exact hlength

/-- The second frame has one of the first one's two channels. -/
theorem rawFramesToSeries_faithful_twoFrames :
    let frames := [int16Frame ["a".toList, "b".toList] 0 1 [1, 0, 2, 0],
      int16Frame ["a".toList] 1000 1 [3, 0]]
    (∃ series, rawFramesToSeries wholeReader frames 10 none none = .ok series ∧
        FaithfulSeries wholeReader none none frames 10 series) ↔
      ∀ key, Aligned (frames.flatMap (selectedTimes wholeReader.rounding none none)) 10
        (ownSamples wholeReader none none frames key) := by
  intro frames
  refine rawFramesToSeries_faithful_iff wholeReader none none frames 10 fun frame hframe => ?_
  simp only [frames, List.mem_cons, List.not_mem_nil, or_false] at hframe
  rcases hframe with rfl | rfl
  · exact ⟨int16Frame_decodable (by decide +kernel) (by decide) (by decide) (by decide),
      by decide +kernel⟩
  · exact ⟨int16Frame_decodable (by decide +kernel) (by decide) (by decide) (by decide),
      by decide +kernel⟩

/-- Two frames with a channel each: the second channel's sample comes with the first one's
time. -/
theorem rawFramesToSeries_notFaithful :
    let frames := [int16Frame ["a".toList] 0 1 [1, 0], int16Frame ["b".toList] 1000 1 [2, 0]]
    (∀ frame ∈ frames, (channelKeys wholeReader frame).Nodup) ∧
      ownSamples wholeReader none none frames "b".toList = [(1, 1000, 2)] ∧
      rawFramesToSeries wholeReader frames 10 none none = .ok ⟨"raw-sample", "samples", some 2,
        [⟨"a".toList, none, .samples [⟨0, 1⟩]⟩, ⟨"b".toList, none, .samples [⟨0, 2⟩]⟩]⟩ ∧
      ¬∃ series, rawFramesToSeries wholeReader frames 10 none none = .ok series ∧
        FaithfulSeries wholeReader none none frames 10 series := by
  intro frames
  have hown : ownSamples wholeReader none none frames "b".toList = [(1, 1000, 2)] := by
    decide +kernel
  have hseries : rawFramesToSeries wholeReader frames 10 none none = .ok ⟨"raw-sample", "samples",
      some 2, [⟨"a".toList, none, .samples [⟨0, 1⟩]⟩, ⟨"b".toList, none, .samples [⟨0, 2⟩]⟩]⟩ := by
    decide +kernel
  refine ⟨by decide +kernel, hown, hseries, ?_⟩
  rintro ⟨series, hseries', hfaithful⟩
  obtain rfl := Except.ok.inj (hseries.symm.trans hseries')
  have hpoints := hfaithful.points ⟨"b".toList, none, .samples [⟨0, 2⟩]⟩
    (List.mem_cons_of_mem _ List.mem_cons_self)
  rw [FaithfulPoints, hown, if_pos (by decide +kernel)] at hpoints
  have htimes := congrArg (List.map (·.ts)) (Points.samples.inj hpoints)
  exact absurd htimes (by decide)

end Aetus.Query
