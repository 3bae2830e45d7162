import Aetus.Query.Features
import Aetus.Query.FrameSamples
import Aetus.Query.SeriesFaithful

/-!
A channel's summary beside the channel's samples in the range.
-/

set_option autoImplicit false

namespace Aetus.Query
open Aetus.Base Aetus.Postgres

variable {F : Type} {reader : Reader F} {frames : List StoredFrame} {frame : StoredFrame}
  {channelKey : List Char}

def timedSamples (reader : Reader F) (frames : List StoredFrame) (channelKey : List Char) :
    List (Timestamptz × F) :=
  frames.flatMap fun frame => (channelCells reader frame channelKey).map fun cell =>
    (sampleTime reader.rounding frame cell.1, cell.2)

def Carried (reader : Reader F) (frames : List StoredFrame) (channelKey : List Char) : Prop :=
  ∃ frame ∈ frames, channelKey ∈ channelKeys reader frame

theorem timedSamples_append : timedSamples reader (frames ++ [frame]) channelKey =
    timedSamples reader frames channelKey ++ (channelCells reader frame channelKey).map fun cell =>
      (sampleTime reader.rounding frame cell.1, cell.2) := by
  rw [timedSamples, List.flatMap_append, List.flatMap_singleton, timedSamples]

theorem timedSamples_of_not_carried (h : ¬Carried reader frames channelKey) :
    timedSamples reader frames channelKey = [] := by
  refine List.flatMap_eq_nil_iff.mpr fun frame hframe => ?_
  rw [channelCells_of_not_mem fun hkey => h ⟨frame, hframe, hkey⟩, List.map_nil]

theorem timedSamples_ne_nil (hframes : ∀ frame ∈ frames, FrameDecodable reader frame)
    (h : Carried reader frames channelKey) : timedSamples reader frames channelKey ≠ [] := by
  obtain ⟨frame, hframe, hkey⟩ := h
  obtain ⟨value, hcell⟩ := exists_mem_channelCells hkey (hframes frame hframe).hasCount
  exact List.ne_nil_of_mem (List.mem_flatMap.mpr ⟨frame, hframe, List.mem_map_of_mem hcell⟩)

theorem exists_timedSample (hdecodable : FrameDecodable reader frame) (hframe : frame ∈ frames) {j : Nat}
    (hj : j < frame.sampleCount) :
    ∃ channelKey value,
      (sampleTime reader.rounding frame j, value) ∈ timedSamples reader frames channelKey := by
  obtain ⟨channel, hchannel⟩ := List.exists_mem_of_ne_nil _ hdecodable.hasChannels
  obtain ⟨value, hcell⟩ := exists_mem_channelCells (List.mem_map_of_mem hchannel) hj
  exact ⟨channel.key, value, List.mem_flatMap.mpr ⟨frame, hframe, List.mem_map.mpr ⟨_, hcell, rfl⟩⟩⟩

theorem sampleTime_of_timedSamples {sample : Timestamptz × F}
    (h : sample ∈ timedSamples reader frames channelKey) :
    ∃ frame ∈ frames, ∃ j < frame.sampleCount, sampleTime reader.rounding frame j = sample.1 := by
  obtain ⟨frame, hframe, hcells⟩ := List.mem_flatMap.mp h
  obtain ⟨cell, hcell, rfl⟩ := List.mem_map.mp hcells
  exact ⟨frame, hframe, cell.1, lt_of_mem_channelCells hcell, rfl⟩

theorem get?_decodedItems {decoded : Values F}
    (hlook : ∀ key, decoded.lookup key = if key ∈ channelKeys reader frame then
      some ((channelCells reader frame key).map Prod.snd) else none) :
    (decodedItems (channelsOf reader frame) decoded).get? channelKey =
      if channelKey ∈ channelKeys reader frame then
        some ((channelCells reader frame channelKey).map Prod.snd) else none := by
  rw [decodedItems, OrderedDict.get?_foldl_assign, OrderedDict.get?_nil, Option.or_none]
  cases hlast : ((channelsOf reader frame).filter fun channel => channel.key = channelKey).getLast? with
  | none =>
    have hnone := List.filter_eq_nil_iff.mp (List.getLast?_eq_none_iff.mp hlast)
    rw [if_neg, Option.map_none]
    intro hkey
    obtain ⟨channel, hchannel, rfl⟩ := List.mem_map.mp hkey
    exact hnone channel hchannel (decide_eq_true rfl)
  | some channel =>
    obtain ⟨hchannel, hk⟩ := List.mem_filter.mp (List.mem_of_getLast? hlast)
    obtain rfl := of_decide_eq_true hk
    have hkey : channel.key ∈ channelKeys reader frame := List.mem_map_of_mem hchannel
    rw [Option.map_some, hlook, if_pos hkey, Option.getD_some]

theorem get?_updateChannels {d : OrderedDict (List Char) (Channel F)} {channels : List (Channel F)} :
    (updateChannels d channels).get? channelKey =
      (channels.filter fun channel => channel.key = channelKey).getLast?.or (d.get? channelKey) := by
  rw [updateChannels, OrderedDict.get?_foldl_assign, Option.map_id']

theorem exists_updateChannels {channels : List (Channel F)} {channel : Channel F}
    (hchannel : channel ∈ channels) (hkey : channel.key = channelKey) :
    ∃ found, (updateChannels [] channels).get? channelKey = some found := by
  rw [get?_updateChannels, OrderedDict.get?_nil, Option.or_none]
  have hmem : channel ∈ channels.filter fun channel => channel.key = channelKey :=
    List.mem_filter.mpr ⟨hchannel, decide_eq_true hkey⟩
  exact ⟨_, List.getLast?_eq_some_getLast (List.ne_nil_of_mem hmem)⟩

theorem get?_updateChannels_values {d : OrderedDict (List Char) (Channel F)}
    (hd : (d.map Prod.fst).Nodup) (hkeys : ∀ entry ∈ d, entry.2.key = entry.1) :
    (updateChannels [] (d.map Prod.snd)).get? channelKey = d.get? channelKey := by
  have hfilter : (d.filter fun entry => entry.2.key = channelKey) =
      d.filter fun entry => entry.1 = channelKey :=
    List.filter_congr fun entry hentry => by rw [hkeys entry hentry]
  rw [get?_updateChannels, OrderedDict.get?_nil, Option.or_none, List.filter_map]
  simp only [Function.comp_def]
  rw [hfilter, OrderedDict.filter_fst hd]
  cases d.get? channelKey <;> rfl

/-- The channel that is kept under a key, the last one that has it. -/
def lastChannel (reader : Reader F) (frames : List StoredFrame) (channelKey : List Char) :
    Option (Channel F) :=
  ((frames.flatMap (channelsOf reader)).filter fun channel => channel.key = channelKey).getLast?

theorem key_of_lastChannel {channel : Channel F}
    (h : lastChannel reader frames channelKey = some channel) : channel.key = channelKey :=
  of_decide_eq_true (List.mem_filter.mp (List.mem_of_getLast? h)).2

theorem lastChannel_append : lastChannel reader (frames ++ [frame]) channelKey =
    ((channelsOf reader frame).filter fun channel => channel.key = channelKey).getLast?.or
      (lastChannel reader frames channelKey) := by
  rw [lastChannel, List.flatMap_append, List.flatMap_singleton, List.filter_append,
    List.getLast?_append, lastChannel]

theorem lastChannel_isSome :
    (lastChannel reader frames channelKey).isSome ↔ Carried reader frames channelKey := by
  rw [lastChannel, List.getLast?_isSome]
  constructor
  · intro h
    obtain ⟨channel, hmem⟩ := List.exists_mem_of_ne_nil _ h
    obtain ⟨hchannel, hkey⟩ := List.mem_filter.mp hmem
    obtain ⟨frame, hframe, hof⟩ := List.mem_flatMap.mp hchannel
    exact ⟨frame, hframe, of_decide_eq_true hkey ▸ List.mem_map_of_mem hof⟩
  · rintro ⟨frame, hframe, hkey⟩
    obtain ⟨channel, hchannel, rfl⟩ := List.mem_map.mp hkey
    exact List.ne_nil_of_mem (List.mem_filter.mpr
      ⟨List.mem_flatMap.mpr ⟨frame, hframe, hchannel⟩, decide_eq_true rfl⟩)

structure Merges (reader : Reader F) (frames : List StoredFrame) (merged : Merged F) : Prop where
  nodup : (merged.mergedValues.map Prod.fst).Nodup
  carried : ∀ key, (merged.mergedValues.get? key).isSome ↔ Carried reader frames key
  values : ∀ key, (merged.mergedValues.get? key).getD [] =
    (timedSamples reader frames key).map Prod.snd
  nodupChannels : (merged.channelsByKey.map Prod.fst).Nodup
  channels : ∀ key, merged.channelsByKey.get? key = lastChannel reader frames key
  owner : merged.owner = frames.getLast?.map fun frame => (frame.device, frame.signal)

theorem merges_nil : Merges reader [] ⟨[], [], none⟩ where
  nodup := List.nodup_nil
  carried := fun key => by simp [Carried, OrderedDict.get?_nil]
  values := fun _ => rfl
  nodupChannels := List.nodup_nil
  channels := fun _ => rfl
  owner := rfl

theorem Merges.get?_updateChannels {merged : Merged F} (h : Merges reader frames merged) :
    (updateChannels [] (merged.channelsByKey.map Prod.snd)).get? channelKey =
      lastChannel reader frames channelKey := by
  rw [get?_updateChannels_values h.nodupChannels, h.channels]
  intro entry hentry
  have hget := OrderedDict.get?_of_mem h.nodupChannels hentry
  exact key_of_lastChannel ((h.channels entry.1).symm.trans hget)

theorem carried_append : Carried reader (frames ++ [frame]) channelKey ↔
    Carried reader frames channelKey ∨ channelKey ∈ channelKeys reader frame := by
  simp [Carried, or_and_right, exists_or]

theorem mergeFrame_merges {merged : Merged F} (h : Merges reader frames merged)
    (hframe : FrameDecodable reader frame) : ∃ merged', mergeFrame reader merged frame = .ok merged' ∧
      Merges reader (frames ++ [frame]) merged' := by
  obtain ⟨decoded, hdecode, hlook⟩ := decodeFrame_ok hframe
  let items := decodedItems (channelsOf reader frame) decoded
  have hitems : (items.map Prod.fst).Nodup := OrderedDict.nodup_foldl_assign List.nodup_nil
  let mergedValues := items.foldl
    (fun mergedValues item => mergedValues.alter item.1 [] (· ++ item.2)) merged.mergedValues
  have hget (key : List Char) : mergedValues.get? key = if key ∈ channelKeys reader frame then
      some ((merged.mergedValues.get? key).getD [] ++
        (channelCells reader frame key).map Prod.snd) else merged.mergedValues.get? key := by
    have hfold : mergedValues.get? key = (items.filter fun item => item.1 = key).foldl
        (fun held item => some (held.getD [] ++ item.2)) (merged.mergedValues.get? key) :=
      OrderedDict.get?_foldl_alter
    rw [hfold, OrderedDict.filter_fst hitems, get?_decodedItems hlook]
    split <;> rfl
  refine ⟨⟨mergedValues, updateChannels merged.channelsByKey (channelsOf reader frame),
    some (frame.device, frame.signal)⟩, ?_, OrderedDict.nodup_foldl_alter h.nodup, fun key => ?_,
    fun key => ?_, OrderedDict.nodup_foldl_assign h.nodupChannels, fun key => ?_, ?_⟩
  · simp only [mergeFrame, hdecode]
    rfl
  · rw [hget, carried_append, ← h.carried]
    split
    · next hkey => exact iff_of_true rfl (.inr hkey)
    · next hkey => exact (or_iff_left hkey).symm
  · rw [hget, timedSamples_append, List.map_append, ← h.values, List.map_map]
    split
    · rfl
    · next hkey => rw [channelCells_of_not_mem hkey, List.map_nil, List.append_nil]
  · rw [lastChannel_append, ← h.channels]
    exact Query.get?_updateChannels
  · rw [List.getLast?_append_cons]
    rfl

theorem foldlM_mergeFrame (hframes : ∀ frame ∈ frames, FrameDecodable reader frame) :
    ∃ merged, frames.foldlM (mergeFrame reader) ⟨[], [], none⟩ = .ok merged ∧
      Merges reader frames merged :=
  foldlM_invariant (Merges reader)
    (fun _ frame hframe _ h => mergeFrame_merges h (hframes frame hframe)) merges_nil

/-! The statistics -/

def StatsOf (floats : Floats F) (row : ChannelStats F) (values : List F) : Prop :=
  ∃ first rest, values = first :: rest ∧ row.sampleCount = values.length ∧
    row.minimum = minFrom floats first rest ∧ row.maximum = maxFrom floats first rest ∧
    row.average = averageOf floats values

variable {floats : Floats F} {valuesByChannel : OrderedDict (List Char) (List F)}
  {channels : List (Channel F)} {stats : List (ChannelStats F)}

theorem appendStats_ok {channelByKey : OrderedDict (List Char) (Channel F)} {channel : Channel F}
    {key : List Char} {values : List F} (hvalues : values ≠ [])
    (hsquares : (squaredDeviations floats values).isSome)
    (hchannel : channelByKey.get? key = some channel) :
    ∃ row, appendStats floats channelByKey stats (key, values) = .ok (stats ++ [row]) ∧
      row.key = key ∧ row.unit = channel.unit ∧ StatsOf floats row values := by
  obtain ⟨first, rest, rfl⟩ := List.exists_cons_of_ne_nil hvalues
  obtain ⟨squares, hsome⟩ := Option.isSome_iff_exists.mp hsquares
  refine ⟨channelStats floats key channel.unit first rest squares, ?_, rfl, rfl, first, rest, rfl,
    rfl, rfl, rfl, rfl⟩
  simp only [appendStats, hsome, hchannel]

theorem squaredDeviations_of_appendStats {channelByKey : OrderedDict (List Char) (Channel F)}
    {stats' : List (ChannelStats F)} {item : List Char × List F}
    (h : appendStats floats channelByKey stats item = .ok stats') :
    (squaredDeviations floats item.2).isSome := by
  obtain ⟨key, _ | ⟨first, rest⟩⟩ := item
  · rfl
  · rw [appendStats] at h
    cases hsquares : squaredDeviations floats (first :: rest) with
    | none =>
      rw [hsquares] at h
      cases h
    | some squares => rfl

theorem squaredDeviations_isSome (h : ∀ x, (floats.square x).isSome) (values : List F) :
    (squaredDeviations floats values).isSome := by
  have hmap (g : F → F) (xs : List F) : (xs.mapM fun x => floats.square (g x)).isSome := by
    induction xs with
    | nil => rfl
    | cons x xs ih =>
      obtain ⟨square, hx⟩ := Option.isSome_iff_exists.mp (h (g x))
      obtain ⟨squares, hxs⟩ := Option.isSome_iff_exists.mp ih
      rw [List.mapM_cons, hx, hxs]
      rfl
  exact hmap _ values

/-- A row for each of the items that the loop has come past, with the unit of its channel. -/
structure StatsAre (floats : Floats F) (channels : List (Channel F))
    (items : List (List Char × List F)) (stats : List (ChannelStats F)) : Prop where
  keys : stats.map (·.key) = items.map Prod.fst
  units : ∀ row ∈ stats, ((updateChannels [] channels).get? row.key).map (·.unit) = some row.unit
  rows : ∀ row ∈ stats, ∃ values, (row.key, values) ∈ items ∧ StatsOf floats row values

theorem statsAre_nil : StatsAre floats channels [] [] := ⟨rfl, nofun, nofun⟩

theorem StatsAre.append_row {items : List (List Char × List F)} {row : ChannelStats F}
    {values : List F} (h : StatsAre floats channels items stats)
    (hunit : ((updateChannels [] channels).get? row.key).map (·.unit) = some row.unit)
    (hrow : StatsOf floats row values) :
    StatsAre floats channels (items ++ [(row.key, values)]) (stats ++ [row]) where
  keys := by rw [List.map_append, List.map_append, h.keys, List.map_singleton, List.map_singleton]
  units := fun row' hrow' => by
    rcases List.mem_append.mp hrow' with hmem | hnew
    · exact h.units row' hmem
    · obtain rfl := List.mem_singleton.mp hnew
      exact hunit
  rows := fun row' hrow' => by
    rcases List.mem_append.mp hrow' with hmem | hnew
    · obtain ⟨values', hmem', hstats'⟩ := h.rows row' hmem
      exact ⟨values', List.mem_append_left _ hmem', hstats'⟩
    · obtain rfl := List.mem_singleton.mp hnew
      exact ⟨values, List.mem_append_right _ (List.mem_singleton_self _), hrow⟩

theorem computeChannelStats_ok (floats : Floats F) (channels : List (Channel F))
    (hvalues : ∀ item ∈ valuesByChannel, item.2 ≠ [])
    (hchannels : ∀ item ∈ valuesByChannel, ∃ channel ∈ channels, channel.key = item.1)
    (hsquares : ∀ item ∈ valuesByChannel, (squaredDeviations floats item.2).isSome) :
    ∃ stats, computeChannelStats floats valuesByChannel channels = .ok stats ∧
      StatsAre floats channels valuesByChannel stats := by
  refine foldlM_invariant (StatsAre floats channels) (fun before item hitem stats h => ?_) statsAre_nil
  obtain ⟨key, values⟩ := item
  obtain ⟨channel, hchannel, hkey⟩ := hchannels _ hitem
  obtain ⟨found, hfound⟩ := exists_updateChannels hchannel hkey
  obtain ⟨row, happend, rfl, hunit, hrow⟩ :=
    appendStats_ok (hvalues _ hitem) (hsquares _ hitem) hfound
  exact ⟨stats ++ [row], happend, h.append_row (by rw [hfound, Option.map_some, hunit]) hrow⟩

theorem squaredDeviations_of_computeChannelStats
    (h : computeChannelStats floats valuesByChannel channels = .ok stats) :
    ∀ item ∈ valuesByChannel, (squaredDeviations floats item.2).isSome := fun _ hitem =>
  have ⟨_, _, happend⟩ := foldlM_ok_of_mem h hitem
  squaredDeviations_of_appendStats happend

/-! The rows -/

variable {platform : Platform F} {telemetry : Telemetry} {features : FeatureTable F}
  {deviceId key : List Char} {start stop expiresAt dbNow : Timestamptz}

/-- No square of a deviation from a channel's mean is too large. -/
def SquaresExist (reader : Reader F) (frames : List StoredFrame) : Prop :=
  ∀ channelKey, (squaredDeviations reader.floats
    ((timedSamples reader frames channelKey).map Prod.snd)).isSome

/-- PostgreSQL takes the key and the unit of every channel. -/
def ChannelsStored (reader : Reader F) (frames : List StoredFrame) : Prop :=
  ∀ channelKey, ∀ channel ∈ lastChannel reader frames channelKey,
    reader.storesChannel channelKey channel.unit = true

structure FeaturesAre (reader : Reader F) (frames : List StoredFrame)
    (start stop expiresAt : Timestamptz) (rows : List (FeatureRow F)) : Prop where
  nodup : (rows.map (·.channelKey)).Nodup
  owned : ∀ row ∈ rows, ∃ frame ∈ frames, row.device = frame.device ∧ row.signal = frame.signal
  window : ∀ row ∈ rows, row.windowStart = start ∧ row.windowEnd = stop ∧ row.expiresAt = expiresAt
  carried : ∀ channelKey, (∃ row ∈ rows, row.channelKey = channelKey) ↔
    Carried reader frames channelKey
  values : ∀ row ∈ rows, ∃ first rest,
    (timedSamples reader frames row.channelKey).map Prod.snd = first :: rest ∧
      row.sampleCount = (first :: rest).length ∧ row.minValue = minFrom reader.floats first rest ∧
      row.maxValue = maxFrom reader.floats first rest ∧
      row.avgValue = averageOf reader.floats (first :: rest)

theorem FeaturesAre.unique {rows : List (FeatureRow F)}
    (h : FeaturesAre reader frames start stop expiresAt rows) : UniqueBy FeatureRow.key rows := by
  refine List.Nodup.of_map (fun key : List Char × StreamDefinition × Timestamptz × Timestamptz ×
    List Char => key.2.2.2.2) ?_
  rw [List.map_map]
  exact h.nodup

theorem Merges.item {merged : Merged F} (h : Merges reader frames merged)
    {item : List Char × List F} (hitem : item ∈ merged.mergedValues) :
    Carried reader frames item.1 ∧ item.2 = (timedSamples reader frames item.1).map Prod.snd := by
  have hget := OrderedDict.get?_of_mem h.nodup hitem
  refine ⟨(h.carried item.1).mp (by rw [hget]; rfl), ?_⟩
  rw [← h.values, hget, Option.getD_some]

theorem Merges.computes {merged : Merged F} (h : Merges reader frames merged)
    (hframes : ∀ frame ∈ frames, FrameDecodable reader frame) (hsquares : SquaresExist reader frames) :
    ∃ stats, computeChannelStats reader.floats merged.mergedValues
        (merged.channelsByKey.map Prod.snd) = .ok stats ∧
      StatsAre reader.floats (merged.channelsByKey.map Prod.snd) merged.mergedValues stats := by
  refine computeChannelStats_ok _ _ (fun item hitem => ?_) (fun item hitem => ?_) fun item hitem => ?_
  · obtain ⟨hcarried, hvalues⟩ := h.item hitem
    rw [hvalues]
    exact List.map_eq_nil_iff.not.mpr (timedSamples_ne_nil hframes hcarried)
  · obtain ⟨channel, hlast⟩ := Option.isSome_iff_exists.mp
      (lastChannel_isSome.mpr (h.item hitem).1)
    have hget := (h.channels item.1).trans hlast
    exact ⟨channel, List.mem_map_of_mem (OrderedDict.mem_of_get? hget), key_of_lastChannel hlast⟩
  · rw [(h.item hitem).2]
    exact hsquares item.1

theorem Merges.all_storesChannel_iff {merged : Merged F} {stats : List (ChannelStats F)}
    (h : Merges reader frames merged)
    (hstats : StatsAre reader.floats (merged.channelsByKey.map Prod.snd) merged.mergedValues stats) :
    (stats.all fun row => reader.storesChannel row.key row.unit) = true ↔
      ChannelsStored reader frames := by
  have hunit : ∀ row ∈ stats, ∃ channel, lastChannel reader frames row.key = some channel ∧
      channel.unit = row.unit := fun row hrow => by
    have hmap := hstats.units row hrow
    rw [h.get?_updateChannels] at hmap
    exact Option.map_eq_some_iff.mp hmap
  rw [List.all_eq_true]
  constructor
  · intro hall channelKey channel hlast
    have hcarried := lastChannel_isSome.mp (Option.isSome_iff_exists.mpr ⟨channel, hlast⟩)
    have hkey : channelKey ∈ stats.map (·.key) := by
      rw [hstats.keys, ← OrderedDict.isSome_get?]
      exact (h.carried channelKey).mpr hcarried
    obtain ⟨row, hrow, rfl⟩ := List.mem_map.mp hkey
    obtain ⟨channel', hlast', hsame⟩ := hunit row hrow
    obtain rfl := Option.some.inj (hlast'.symm.trans hlast)
    rw [hsame]
    exact hall row hrow
  · intro hstored row hrow
    obtain ⟨channel, hlast, hsame⟩ := hunit row hrow
    rw [← hsame]
    exact hstored row.key channel hlast

theorem materializeFeatureRows_ok (features : FeatureTable F) (start stop expiresAt : Timestamptz)
    (hframes : ∀ frame ∈ frames, FrameDecodable reader frame) (hsquares : SquaresExist reader frames)
    (hstored : ChannelsStored reader frames) :
    ∃ rows, materializeFeatureRows reader features start stop frames expiresAt =
        .ok (rows.foldl Keyed.upsert features) ∧
      FeaturesAre reader frames start stop expiresAt rows := by
  obtain ⟨merged, hmerge, hmerges⟩ := foldlM_mergeFrame hframes
  simp only [materializeFeatureRows, hmerge, hmerges.owner]
  cases hlast : frames.getLast? with
  | none =>
    obtain rfl := List.getLast?_eq_none_iff.mp hlast
    refine ⟨[], rfl, List.nodup_nil, nofun, nofun, fun channelKey => ?_, nofun⟩
    simp [Carried]
  | some last =>
    obtain ⟨stats, hstats, hare⟩ := hmerges.computes hframes hsquares
    refine ⟨stats.map (featureRow last.device last.signal start stop expiresAt), ?_, ?_, ?_, ?_,
      fun channelKey => ?_, ?_⟩
    · simp only [Option.map_some, hstats, (hmerges.all_storesChannel_iff hare).mpr hstored, if_true]
    · rw [List.map_map]
      exact hare.keys.symm ▸ hmerges.nodup
    · rintro _ hrow
      obtain ⟨row, -, rfl⟩ := List.mem_map.mp hrow
      exact ⟨last, List.mem_of_getLast? hlast, rfl, rfl⟩
    · rintro _ hrow
      obtain ⟨row, -, rfl⟩ := List.mem_map.mp hrow
      exact ⟨rfl, rfl, rfl⟩
    · rw [← hmerges.carried, OrderedDict.isSome_get?, ← hare.keys, ← List.mem_map, List.map_map]
      rfl
    · rintro _ hrow
      obtain ⟨row, hstat, rfl⟩ := List.mem_map.mp hrow
      obtain ⟨values, hitem, first, rest, rfl, hstats⟩ := hare.rows row hstat
      exact ⟨first, rest, (hmerges.item hitem).2.symm, hstats⟩

theorem squaresExist_nil : SquaresExist reader [] := fun _ => rfl

theorem channelsStored_nil : ChannelsStored reader [] := fun _ channel hlast =>
  absurd hlast (Option.not_mem_none channel)

theorem stored_of_materializeFeatureRows {features' : FeatureTable F}
    (hframes : ∀ frame ∈ frames, FrameDecodable reader frame)
    (h : materializeFeatureRows reader features start stop frames expiresAt = .ok features') :
    SquaresExist reader frames ∧ ChannelsStored reader frames := by
  obtain ⟨merged, hmerge, hmerges⟩ := foldlM_mergeFrame hframes
  simp only [materializeFeatureRows, hmerge, hmerges.owner] at h
  cases hlast : frames.getLast? with
  | none =>
    obtain rfl := List.getLast?_eq_none_iff.mp hlast
    exact ⟨squaresExist_nil, channelsStored_nil⟩
  | some last =>
    simp only [hlast, Option.map_some] at h
    cases hstats : computeChannelStats reader.floats merged.mergedValues
        (merged.channelsByKey.map Prod.snd) with
    | error e =>
      rw [hstats] at h
      cases h
    | ok stats =>
      have hsquares : SquaresExist reader frames := fun channelKey => by
        by_cases hcarried : Carried reader frames channelKey
        · obtain ⟨values, hget⟩ :=
            Option.isSome_iff_exists.mp ((hmerges.carried channelKey).mpr hcarried)
          have hitem := OrderedDict.mem_of_get? hget
          rw [← (hmerges.item hitem).2]
          exact squaredDeviations_of_computeChannelStats hstats _ hitem
        · rw [timedSamples_of_not_carried hcarried]
          rfl
      obtain ⟨stats', hstats', hare⟩ := hmerges.computes hframes hsquares
      obtain rfl := Except.ok.inj (hstats.symm.trans hstats')
      simp only [hstats] at h
      split at h
      · next hall => exact ⟨hsquares, (hmerges.all_storesChannel_iff hare).mp hall⟩
      · cases h

/-! What is read back -/

/-- A channel's entry has the count, the bounds and the mean of these values; there is no entry
for none. -/
def Describes (floats : Floats F) : Option (Feature F) → List F → Prop
  | none, values => values = []
  | some feature, values => ∃ first rest, values = first :: rest ∧
      feature.sampleCount = values.length ∧ feature.min = minFrom floats first rest ∧
      feature.max = maxFrom floats first rest ∧ feature.avg = averageOf floats values

/-- Two lists that no entry of a summary can tell apart. -/
def SameNumbers (floats : Floats F) : List F → List F → Prop
  | [], values => values = []
  | _ :: _, [] => False
  | first :: rest, first' :: rest' => rest.length = rest'.length ∧
      minFrom floats first rest = minFrom floats first' rest' ∧
      maxFrom floats first rest = maxFrom floats first' rest' ∧
      averageOf floats (first :: rest) = averageOf floats (first' :: rest')

theorem SameNumbers.refl (values : List F) : SameNumbers floats values values := by
  cases values with
  | nil => rfl
  | cons first rest => exact ⟨rfl, rfl, rfl, rfl⟩

theorem SameNumbers.length_eq {xs ys : List F} (h : SameNumbers floats xs ys) :
    xs.length = ys.length := by
  cases xs with
  | nil => rw [show ys = [] from h]
  | cons first rest =>
    cases ys with
    | nil => exact h.elim
    | cons first' rest' => exact congrArg (· + 1) h.1

theorem Describes.iff_sameNumbers {feature : Option (Feature F)} {xs ys : List F}
    (h : Describes floats feature xs) : Describes floats feature ys ↔ SameNumbers floats xs ys := by
  cases feature with
  | none => rw [show xs = [] from h, Describes, SameNumbers]
  | some feature =>
    obtain ⟨first, rest, rfl, hlength, hmin, hmax, havg⟩ := h
    cases ys with
    | nil => simp [Describes, SameNumbers]
    | cons first' rest' =>
      rw [List.length_cons] at hlength
      simp only [Describes, SameNumbers, List.cons.injEq, List.length_cons, hlength, hmin, hmax, havg]
      constructor
      · rintro ⟨_, _, ⟨rfl, rfl⟩, hsame⟩
        exact ⟨by omega, hsame.2⟩
      · rintro ⟨hsame, hothers⟩
        exact ⟨first', rest', ⟨rfl, rfl⟩, by omega, hothers⟩

theorem mem_readFeatureRows {collation : Collation} {row : FeatureRow F} :
    row ∈ readFeatureRows collation features deviceId key start stop dbNow ↔
      row ∈ features.rows ∧ row.isRead deviceId key start stop dbNow = true := by
  rw [readFeatureRows, Collation.orderBy, List.mem_insertionSort, List.mem_filter]

theorem get?_featureSummaryResponse (start stop : Timestamptz) (rows : List (FeatureRow F))
    (channelKey : List Char) :
    match (featureSummaryResponse start stop rows).features.get? channelKey with
    | none => ¬∃ row ∈ rows, row.channelKey = channelKey
    | some feature => ∃ row ∈ rows, row.channelKey = channelKey ∧ feature = featureOf row := by
  rw [featureSummaryResponse, OrderedDict.get?_foldl_assign, OrderedDict.get?_nil, Option.or_none]
  cases hlast : (rows.filter fun row => row.channelKey = channelKey).getLast? with
  | none =>
    rintro ⟨row, hrow, hkey⟩
    have hnone := List.filter_eq_nil_iff.mp (List.getLast?_eq_none_iff.mp hlast)
    exact hnone row hrow (decide_eq_true hkey)
  | some row =>
    obtain ⟨hrow, hkey⟩ := List.mem_filter.mp (List.mem_of_getLast? hlast)
    exact ⟨row, hrow, of_decide_eq_true hkey, rfl⟩

/-- The rows that were made are those that are read, unless they have expired already. -/
theorem mem_readFeatureRows_of_made {collation : Collation} {rows : List (FeatureRow F)}
    (hnone : readFeatureRows collation features deviceId key start stop dbNow = [])
    (hmade : FeaturesAre reader frames start stop expiresAt rows)
    (hframes : ∀ frame ∈ frames, frame.device = deviceId ∧ frame.signal.streamKey = key)
    {row : FeatureRow F} :
    row ∈ readFeatureRows collation (rows.foldl Keyed.upsert features) deviceId key start stop dbNow ↔
      row ∈ rows ∧ dbNow < expiresAt := by
  rw [mem_readFeatureRows, Keyed.mem_foldl_upsert hmade.unique]
  constructor
  · rintro ⟨hmem | ⟨hold, -⟩, hread⟩
    · obtain ⟨-, -, rfl⟩ := hmade.window row hmem
      exact ⟨hmem, (of_decide_eq_true hread).2.2.2.2⟩
    · exact absurd (mem_readFeatureRows.mpr ⟨hold, hread⟩) (hnone ▸ List.not_mem_nil)
  · rintro ⟨hmem, hlive⟩
    obtain ⟨frame, hframe, hdevice, hsignal⟩ := hmade.owned row hmem
    obtain ⟨rfl, rfl⟩ := hframes frame hframe
    obtain ⟨hstart, hstop, hexpires⟩ := hmade.window row hmem
    refine ⟨.inl hmem, decide_eq_true ⟨hdevice, hsignal ▸ rfl, hstart, hstop, ?_⟩⟩
    rwa [hexpires]

/-- The values of all of a channel's stored samples whose times lie in the range. -/
def samplesBetween (reader : Reader F) (telemetry : Telemetry) (deviceId key : List Char)
    (start stop : Timestamptz) (channelKey : List Char) : List F :=
  ((timedSamples reader (orderByTime (·.eventTime) (telemetry.framesOf deviceId key))
    channelKey).filter fun sample => start ≤ sample.1 ∧ sample.1 ≤ stop).map Prod.snd

/-- Every sample of the range is of a frame that is read. -/
def RangeRead (reader : Reader F) (telemetry : Telemetry) (deviceId key : List Char)
    (start stop : Timestamptz) : Prop :=
  ∀ frame ∈ telemetry.framesOf deviceId key, ∀ channelKey,
    ∀ cell ∈ channelCells reader frame channelKey,
      start ≤ sampleTime reader.rounding frame cell.1 → sampleTime reader.rounding frame cell.1 ≤ stop →
        frame ∈ readSignalFrames reader telemetry deviceId key start stop

/-- Rounding twice can put a frame's last sample behind the time that the statement has for it, but
not in exact arithmetic. -/
theorem rangeRead_of_unrounded (h : reader.rounding = unrounded) :
    RangeRead reader telemetry deviceId key start stop := by
  intro frame hframe channelKey cell hcell hstart hstop
  refine framesBetween_perm.mem_iff.mpr (List.mem_filter.mpr ⟨hframe, ?_⟩)
  rw [h] at hstart hstop ⊢
  exact overlaps_of_sampleTime hframe (lt_of_mem_channelCells hcell) hstart hstop

/-- The values of the samples of the range, of the frames that are read. -/
def samplesRead (reader : Reader F) (telemetry : Telemetry) (deviceId key : List Char)
    (start stop : Timestamptz) (channelKey : List Char) : List F :=
  ((timedSamples reader (readSignalFrames reader telemetry deviceId key start stop)
    channelKey).filter fun sample => start ≤ sample.1 ∧ sample.1 ≤ stop).map Prod.snd

theorem samplesBetween_eq (h : RangeRead reader telemetry deviceId key start stop) :
    samplesBetween reader telemetry deviceId key start stop channelKey =
      samplesRead reader telemetry deviceId key start stop channelKey := by
  rw [samplesBetween, samplesRead, timedSamples, timedSamples, List.filter_flatMap,
    List.filter_flatMap, readSignalFrames, framesBetween_eq, flatMap_filter_of_nil]
  intro frame hframe hout
  have hof := (orderByTime_perm _ _).mem_iff.mp hframe
  refine List.filter_eq_nil_iff.mpr fun sample hsample hin => ?_
  obtain ⟨cell, hcell, rfl⟩ := List.mem_map.mp hsample
  obtain ⟨hstart, hstop⟩ := of_decide_eq_true hin
  have hread := framesBetween_perm.mem_iff.mp (h frame hof channelKey cell hcell hstart hstop)
  rw [(List.mem_filter.mp hread).2] at hout
  cases hout

/-- The values that a summary is made of: those of the frames that are read, and none if the rows have
expired by then. -/
def valuesMade (reader : Reader F) (telemetry : Telemetry) (deviceId key : List Char)
    (start stop expiresAt dbNow : Timestamptz) (channelKey : List Char) : List F :=
  if dbNow < expiresAt then
    (timedSamples reader (readSignalFrames reader telemetry deviceId key start stop) channelKey).map
      Prod.snd
  else []

theorem describes_featureSummaryResponse {rows read : List (FeatureRow F)}
    (hmade : FeaturesAre reader frames start stop expiresAt rows)
    (hread : ∀ row, row ∈ read ↔ row ∈ rows ∧ dbNow < expiresAt) (channelKey : List Char) :
    Describes reader.floats ((featureSummaryResponse start stop read).features.get? channelKey)
      (if dbNow < expiresAt then (timedSamples reader frames channelKey).map Prod.snd else []) := by
  have hentry := get?_featureSummaryResponse start stop read channelKey
  cases hget : (featureSummaryResponse start stop read).features.get? channelKey with
  | none =>
    rw [hget] at hentry
    show (if dbNow < expiresAt then _ else _) = []
    split
    · next hlive =>
      rw [timedSamples_of_not_carried, List.map_nil]
      rintro hcarried
      obtain ⟨row, hrow, hkey⟩ := (hmade.carried channelKey).mpr hcarried
      exact hentry ⟨row, (hread row).mpr ⟨hrow, hlive⟩, hkey⟩
    · rfl
  | some feature =>
    rw [hget] at hentry
    obtain ⟨row, hrow, rfl, rfl⟩ := hentry
    obtain ⟨hmem, hlive⟩ := (hread row).mp hrow
    obtain ⟨first, rest, hvalues, hstats⟩ := hmade.values row hmem
    rw [if_pos hlive, hvalues]
    exact ⟨first, rest, rfl, hstats⟩

theorem readFeatureRows_deleteExpiredFeatures {collation : Collation} (now : Timestamptz)
    (hnone : readFeatureRows collation features deviceId key start stop dbNow = []) :
    readFeatureRows collation (deleteExpiredFeatures features now) deviceId key start stop dbNow =
      [] := by
  refine List.eq_nil_iff_forall_not_mem.mpr fun row hrow => ?_
  obtain ⟨hmem, hread⟩ := mem_readFeatureRows.mp hrow
  exact absurd (mem_readFeatureRows.mpr ⟨List.mem_of_mem_filter hmem, hread⟩)
    (hnone ▸ List.not_mem_nil)

/-- What the summary says of each channel: all its samples in the frames that are read, or
nothing where the rows have expired already. -/
theorem summary_describes (platform : Platform F) (store : Store F) (deviceId key : List Char)
    (start stop : Timestamptz) (featureTtlSeconds : Int) (now dbNow : Timestamptz)
    (hnone : readFeatureRows platform.collation store.features deviceId key start stop dbNow = [])
    (hframes : ∀ frame ∈ readSignalFrames platform.reader store.telemetry deviceId key start stop,
      FrameDecodable platform.reader frame)
    (hsquares : SquaresExist platform.reader
      (readSignalFrames platform.reader store.telemetry deviceId key start stop))
    (hstored : ChannelsStored platform.reader
      (readSignalFrames platform.reader store.telemetry deviceId key start stop)) :
    ∃ store' response, summary platform store deviceId key start stop featureTtlSeconds now dbNow =
        .ok (store', response) ∧
      ∀ channelKey, Describes platform.reader.floats (response.features.get? channelKey)
        (valuesMade platform.reader store.telemetry deviceId key start stop
          (now + 1000000 * featureTtlSeconds) dbNow channelKey) := by
  have hnone' := readFeatureRows_deleteExpiredFeatures now hnone
  obtain ⟨rows, hmaterialize, hmade⟩ := materializeFeatureRows_ok
    (deleteExpiredFeatures store.features now) start stop (now + 1000000 * featureTtlSeconds)
    hframes hsquares hstored
  have hof : ∀ frame ∈ readSignalFrames platform.reader store.telemetry deviceId key start stop,
      frame.device = deviceId ∧ frame.signal.streamKey = key := fun frame hframe =>
    of_decide_eq_true (List.mem_filter.mp (mem_framesOf_of_mem_framesBetween hframe)).2
  let features' := rows.foldl Keyed.upsert (deleteExpiredFeatures store.features now)
  refine ⟨{ store with features := features' }, featureSummaryResponse start stop
    (readFeatureRows platform.collation features' deviceId key start stop dbNow), ?_,
    describes_featureSummaryResponse hmade fun row => mem_readFeatureRows_of_made hnone' hmade hof⟩
  simp only [summary, hnone', hmaterialize]
  rfl

/-- The samples that are read all lie in the range, or none does where the rows expire at once. -/
def OnlyRange (reader : Reader F) (telemetry : Telemetry) (deviceId key : List Char)
    (start stop expiresAt dbNow : Timestamptz) : Prop :=
  ∀ frame ∈ readSignalFrames reader telemetry deviceId key start stop, ∀ j < frame.sampleCount,
    (start ≤ sampleTime reader.rounding frame j ∧ sampleTime reader.rounding frame j ≤ stop ↔
      dbNow < expiresAt)

/-- Where all samples of the range are read, the numbers are those of the range exactly if no others
are read: then there would be too many. -/
theorem forall_sameNumbers_iff (hread : RangeRead reader telemetry deviceId key start stop)
    (hframes : ∀ frame ∈ readSignalFrames reader telemetry deviceId key start stop,
      FrameDecodable reader frame) :
    (∀ channelKey, SameNumbers reader.floats
        (valuesMade reader telemetry deviceId key start stop expiresAt dbNow channelKey)
        (samplesBetween reader telemetry deviceId key start stop channelKey)) ↔
      OnlyRange reader telemetry deviceId key start stop expiresAt dbNow := by
  simp only [samplesBetween_eq hread, samplesRead, valuesMade]
  constructor
  · intro hsame frame hframe j hj
    obtain ⟨channelKey, value, hmem⟩ := exists_timedSample (hframes frame hframe) hframe hj
    have hlength := (hsame channelKey).length_eq
    by_cases hlive : dbNow < expiresAt
    · rw [if_pos hlive] at hlength
      exact iff_of_true (of_decide_eq_true (filter_eq_of_length hlength _ hmem)) hlive
    · rw [if_neg hlive] at hlength
      refine iff_of_false (fun hin => ?_) hlive
      have hnil := List.map_eq_nil_iff.mp (List.eq_nil_of_length_eq_zero hlength.symm)
      exact List.filter_eq_nil_iff.mp hnil _ hmem (decide_eq_true hin)
  · intro hrange channelKey
    have hin : ∀ sample ∈ timedSamples reader
        (readSignalFrames reader telemetry deviceId key start stop) channelKey,
        (start ≤ sample.1 ∧ sample.1 ≤ stop ↔ dbNow < expiresAt) := by
      intro sample hsample
      obtain ⟨frame, hframe, j, hj, htime⟩ := sampleTime_of_timedSamples hsample
      rw [← htime]
      exact hrange frame hframe j hj
    by_cases hlive : dbNow < expiresAt
    · rw [if_pos hlive, List.filter_eq_self.mpr fun sample hsample =>
        decide_eq_true ((hin sample hsample).mpr hlive)]
      exact SameNumbers.refl _
    · rw [if_neg hlive, List.filter_eq_nil_iff.mpr fun sample hsample hselected =>
        hlive ((hin sample hsample).mp (of_decide_eq_true hselected))]
      exact SameNumbers.refl _

/-- The summary is that of the samples in the range if and only if it can be made, and the frames that
are read have no other samples, and have none at all where the rows expire at once. If a sample of the
range is not read, the numbers can only be the same by chance. -/
theorem summary_faithful_iff (platform : Platform F) (store : Store F) (deviceId key : List Char)
    (start stop : Timestamptz) (featureTtlSeconds : Int) (now dbNow : Timestamptz)
    (hnone : readFeatureRows platform.collation store.features deviceId key start stop dbNow = [])
    (hframes : ∀ frame ∈ readSignalFrames platform.reader store.telemetry deviceId key start stop,
      FrameDecodable platform.reader frame) :
    let frames := readSignalFrames platform.reader store.telemetry deviceId key start stop
    let expiresAt := now + 1000000 * featureTtlSeconds
    (∃ store' response, summary platform store deviceId key start stop featureTtlSeconds now dbNow =
        .ok (store', response) ∧
      ∀ channelKey, Describes platform.reader.floats (response.features.get? channelKey)
        (samplesBetween platform.reader store.telemetry deviceId key start stop channelKey)) ↔
      SquaresExist platform.reader frames ∧ ChannelsStored platform.reader frames ∧
        (RangeRead platform.reader store.telemetry deviceId key start stop →
          OnlyRange platform.reader store.telemetry deviceId key start stop expiresAt dbNow) ∧
        (¬RangeRead platform.reader store.telemetry deviceId key start stop →
          ∀ channelKey, SameNumbers platform.reader.floats
            (valuesMade platform.reader store.telemetry deviceId key start stop expiresAt dbNow
              channelKey)
            (samplesBetween platform.reader store.telemetry deviceId key start stop channelKey)) := by
  intro frames expiresAt
  have hmakes : (∃ store' response, summary platform store deviceId key start stop featureTtlSeconds
        now dbNow = .ok (store', response)) → SquaresExist platform.reader frames ∧
      ChannelsStored platform.reader frames := by
    rintro ⟨store', response, hsummary⟩
    simp only [summary, readFeatureRows_deleteExpiredFeatures now hnone] at hsummary
    split at hsummary
    · cases hsummary
    · next features' hmaterialize => exact stored_of_materializeFeatureRows hframes hmaterialize
  have hchance : SquaresExist platform.reader frames → ChannelsStored platform.reader frames →
      ((∃ store' response, summary platform store deviceId key start stop featureTtlSeconds now dbNow =
          .ok (store', response) ∧
        ∀ channelKey, Describes platform.reader.floats (response.features.get? channelKey)
          (samplesBetween platform.reader store.telemetry deviceId key start stop channelKey)) ↔
        ∀ channelKey, SameNumbers platform.reader.floats
          (valuesMade platform.reader store.telemetry deviceId key start stop expiresAt dbNow channelKey)
          (samplesBetween platform.reader store.telemetry deviceId key start stop channelKey)) := by
    intro hsquares hstored
    obtain ⟨store', response, hsummary, hall⟩ := summary_describes platform store deviceId key
      start stop featureTtlSeconds now dbNow hnone hframes hsquares hstored
    refine Iff.trans ?_ (forall_congr' fun channelKey => (hall channelKey).iff_sameNumbers)
    constructor
    · rintro ⟨store'', response', hsummary', hdescribes⟩
      obtain ⟨-, rfl⟩ := Prod.mk.inj (Except.ok.inj (hsummary.symm.trans hsummary'))
      exact hdescribes
    · exact fun hdescribes => ⟨store', response, hsummary, hdescribes⟩
  constructor
  · rintro ⟨store', response, hsummary, hdescribes⟩
    obtain ⟨hsquares, hstored⟩ := hmakes ⟨store', response, hsummary⟩
    have hsame := (hchance hsquares hstored).mp ⟨store', response, hsummary, hdescribes⟩
    exact ⟨hsquares, hstored, fun hread => (forall_sameNumbers_iff hread hframes).mp hsame,
      fun _ => hsame⟩
  · rintro ⟨hsquares, hstored, honly, hsame⟩
    rw [hchance hsquares hstored]
    by_cases hread : RangeRead platform.reader store.telemetry deviceId key start stop
    · exact (forall_sameNumbers_iff hread hframes).mpr (honly hread)
    · exact hsame hread

/-- All texts sort alike; the cases below have one channel. -/
def wholePlatform : Platform Int where
  reader := wholeReader
  collation := ⟨fun _ _ => true, fun _ _ => .inl rfl, fun _ _ _ _ _ => rfl⟩
  ilike := fun _ _ => true
  unicode := ⟨id, fun c => c = ' ', id⟩

def oneFrameStore (frame : StoredFrame) : Store Int :=
  ⟨⟨["device".toList], [], [frame]⟩, [], Keyed.empty _⟩

theorem summary_faithful_wholeFrame :
    let store := oneFrameStore (int16Frame ["a".toList] 0 2 [1, 0, 2, 0])
    ∃ store' response, summary wholePlatform store "device".toList "imu".toList 0 1000 60 5000 5000 =
        .ok (store', response) ∧
      ∀ channelKey, Describes wholeFloats (response.features.get? channelKey)
        (samplesBetween wholeReader store.telemetry "device".toList "imu".toList 0 1000
          channelKey) := by
  intro store
  refine (summary_faithful_iff wholePlatform store "device".toList "imu".toList 0 1000 60 5000 5000
    rfl fun frame hframe => ?_).mpr ⟨fun channelKey => ?_, fun channelKey channel hlast => ?_,
      fun _ frame hframe j hj => ?_, fun hunread => absurd ?_ hunread⟩
  · obtain rfl := List.mem_singleton.mp hframe
    exact int16Frame_decodable (by decide +kernel) (by decide) (by decide) (by decide)
  · exact squaredDeviations_isSome (fun _ => rfl) _
  · have hall : ((channelsOf wholeReader (int16Frame ["a".toList] 0 2 [1, 0, 2, 0])).all fun channel =>
        wholeReader.storesChannel channel.key channel.unit) = true := by decide +kernel
    obtain ⟨hmem, hkey⟩ := List.mem_filter.mp (List.mem_of_getLast? hlast)
    obtain ⟨frame, hframe, hof⟩ := List.mem_flatMap.mp hmem
    obtain rfl := List.mem_singleton.mp hframe
    rw [← of_decide_eq_true hkey]
    exact List.all_eq_true.mp hall channel hof
  · obtain rfl := List.mem_singleton.mp hframe
    have htwo : j < 2 := hj
    obtain rfl | rfl : j = 0 ∨ j = 1 := by omega
    · decide +kernel
    · decide +kernel
  · intro frame hframe channelKey cell _ _ _
    obtain rfl := List.mem_singleton.mp (List.mem_filter.mp hframe).1
    exact List.mem_singleton_self _

/-- Of two samples the range has the second; the summary counts both. -/
theorem summary_straddling_notFaithful :
    let store := oneFrameStore (int16Frame ["a".toList] 0 2 [1, 0, 2, 0])
    samplesBetween wholeReader store.telemetry "device".toList "imu".toList 500 1500 "a".toList = [2] ∧
      ((summary wholePlatform store "device".toList "imu".toList 500 1500 60 5000 5000).toOption.bind
        fun result => (result.2.features.get? "a".toList).map (·.sampleCount)) = some 2 ∧
      ¬∃ store' response, summary wholePlatform store "device".toList "imu".toList 500 1500 60 5000
          5000 = .ok (store', response) ∧
        ∀ channelKey, Describes wholeFloats (response.features.get? channelKey)
          (samplesBetween wholeReader store.telemetry "device".toList "imu".toList 500 1500
            channelKey) := by
  intro store
  have hvalues : samplesBetween wholeReader store.telemetry "device".toList "imu".toList 500 1500
      "a".toList = [2] := by decide +kernel
  have hcount : ((summary wholePlatform store "device".toList "imu".toList 500 1500 60 5000
      5000).toOption.bind fun result => (result.2.features.get? "a".toList).map (·.sampleCount)) =
        some 2 := by decide +kernel
  refine ⟨hvalues, hcount, ?_⟩
  rintro ⟨store', response, hsummary, hdescribes⟩
  rw [hsummary] at hcount
  obtain ⟨feature, hget, htwo⟩ := Option.map_eq_some_iff.mp hcount
  have hone := hdescribes "a".toList
  rw [hget, hvalues] at hone
  obtain ⟨_, _, -, hlength, -⟩ := hone
  rw [htwo] at hlength
  exact absurd hlength (by decide)

end Aetus.Query
