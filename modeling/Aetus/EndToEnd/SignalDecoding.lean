import Aetus.Anomaly.Repository
import Aetus.Ingest.Normalize
import Aetus.Query.SignalDecode

/-!
Frames that the ingest service has accepted, as the query API and the anomaly service
decode them.
-/

set_option autoImplicit false

namespace Aetus
open Aetus.Base Aetus.Ingest

variable {F : Type}

/-- A stored channel, its numbers as JSON readers have them. -/
def queryChannel (number : Double → F) (channel : NormalizedChannel) : Query.Channel F :=
  ⟨channel.key, channel.unit, channel.scale.map number, channel.offset.map number⟩

def channelDef (number : Double → F) (channel : NormalizedChannel) : Anomaly.ChannelDef F :=
  ⟨channel.key, channel.unit, channel.scale.map number, channel.offset.map number⟩

def signalFrameRow (number : Double → F) (n : NormalizedSignalFrame) (samples : List UInt8)
    (eventTime : Int) : Anomaly.SignalFrameRow F where
  eventTime := eventTime
  sampleIntervalNs := n.sampleIntervalNs
  sampleCount := n.sampleCount
  samples := samples
  encoding := n.encoding
  layout := n.layout
  channels := n.channels.map (channelDef number)

def ownValues (doubles : Doubles F) (number : Double → F) (n : NormalizedSignalFrame)
    (samples : List UInt8) (i : Nat) (channel : NormalizedChannel) : List F :=
  (List.range n.sampleCount).map fun j =>
    Query.valueAt doubles (Query.encodingFormat n.encoding) samples (queryChannel number channel)
      (Query.samplePosition n.layout n.sampleCount n.channels.length i j)

/-- Every channel entry gets its own values, in the query API's dictionary and in the points
that the anomaly service adds to the window of the entry. -/
structure DecodedExactly (doubles : Doubles F) (number : Double → F) (n : NormalizedSignalFrame)
    (samples : List UInt8) (eventTime : Int) (windows : List (Anomaly.NumericWindow F))
    (windowStart windowEnd : Int) (maxPoints : Nat) : Prop where
  query : ∃ values, Query.decodeSamples doubles samples n.encoding n.layout
      (n.channels.map (queryChannel number)) n.sampleCount = .ok values ∧
    ∀ i channel, n.channels[i]? = some channel →
      values.lookup channel.key = some (ownValues doubles number n samples i channel)
  anomaly : ∃ windows', Anomaly.appendSignalFramePoints doubles windows
      (signalFrameRow number n samples eventTime) [] windowStart windowEnd maxPoints = .ok windows' ∧
    ∀ i channel, n.channels[i]? = some channel →
      (Anomaly.pointsUnder windows' channel.key).map (·.value) =
        (Anomaly.pointsUnder windows channel.key).map (·.value) ++
          ownValues doubles number n samples i channel

structure Decodable (n : NormalizedSignalFrame) (samples : List UInt8) : Prop where
  hasCount : 0 < n.sampleCount
  hasChannels : n.channels ≠ []
  encoding : Query.ENCODING_FORMATS.lookup n.encoding =
    some (Query.encodingFormat n.encoding, (Query.encodingFormat n.encoding).size)
  reads : Anomaly.Reads n.encoding (Query.encodingFormat n.encoding)
  layout : n.layout = "interleaved".toList ∨ n.layout = "planar".toList
  length : samples.length = n.sampleCount * n.channels.length * (Query.encodingFormat n.encoding).size

theorem encoding_agrees {code : Int32} {encoding : List Char}
    (h : SIGNAL_ENCODING_NAMES.lookup code = some encoding) :
    Query.ENCODING_FORMATS.lookup encoding =
        some (Query.encodingFormat encoding, (Query.encodingFormat encoding).size) ∧
      Anomaly.Reads encoding (Query.encodingFormat encoding) ∧
      SIGNAL_ENCODING_SAMPLE_BYTES.lookup code = some (Query.encodingFormat encoding).size := by
  have hmem : (code, encoding) ∈ SIGNAL_ENCODING_NAMES := mem_of_lookup h
  simp only [SIGNAL_ENCODING_NAMES, List.mem_cons, Prod.mk.injEq, List.not_mem_nil, or_false] at hmem
  obtain ⟨rfl, rfl⟩ | ⟨rfl, rfl⟩ | ⟨rfl, rfl⟩ | ⟨rfl, rfl⟩ := hmem
  · exact ⟨by decide, ⟨rfl, fun _ _ _ => rfl⟩, by decide⟩
  · exact ⟨by decide, ⟨rfl, fun _ _ _ => rfl⟩, by decide⟩
  · exact ⟨by decide, ⟨rfl, fun _ _ _ => rfl⟩, by decide⟩
  · exact ⟨by decide, ⟨rfl, fun _ _ _ => rfl⟩, by decide⟩

theorem decodable_of_accepted {frame : SignalFrame} {n : NormalizedSignalFrame}
    (h : FrameAccepted frame n) : Decodable n frame.samples where
  hasCount := by
    rw [h.sampleCount]
    exact Nat.pos_of_ne_zero fun hzero => h.hasCount (UInt32.toNat_inj.mp hzero)
  hasChannels := by
    rw [h.channels]
    exact List.map_eq_nil_iff.not.mpr h.hasChannels
  encoding := (encoding_agrees h.encoding).1
  reads := (encoding_agrees h.encoding).2.1
  layout := by
    have hmem : (frame.layout, n.layout) ∈ SIGNAL_LAYOUT_NAMES := mem_of_lookup h.layout
    simp only [SIGNAL_LAYOUT_NAMES, List.mem_cons, Prod.mk.injEq, List.not_mem_nil, or_false] at hmem
    exact hmem.imp And.right And.right
  length := by
    rw [h.length, (encoding_agrees h.encoding).2.2, h.sampleCount, h.channels, List.length_map,
      Option.getD_some]

@[simp] theorem length_ownValues {doubles : Doubles F} {number : Double → F}
    {n : NormalizedSignalFrame} {samples : List UInt8} {i : Nat} {channel : NormalizedChannel} :
    (ownValues doubles number n samples i channel).length = n.sampleCount := by
  rw [ownValues, List.length_map, List.length_range]

variable {doubles : Doubles F} {number : Double → F} {n : NormalizedSignalFrame}
  {samples : List UInt8}

theorem query_keys (number : Double → F) (channels : List NormalizedChannel) :
    (channels.map (queryChannel number)).map (·.key) = channels.map (·.key) := by
  rw [List.map_map]
  rfl

/-- The query API gives each entry its own values if and only if no two entries share a key:
else the values of both are under it. -/
theorem query_exact_iff (h : Decodable n samples) :
    (∃ values, Query.decodeSamples doubles samples n.encoding n.layout
        (n.channels.map (queryChannel number)) n.sampleCount = .ok values ∧
      ∀ i channel, n.channels[i]? = some channel →
        values.lookup channel.key = some (ownValues doubles number n samples i channel)) ↔
      (n.channels.map (·.key)).Nodup := by
  let channels := n.channels.map (queryChannel number)
  have hchannels : channels ≠ [] := List.map_eq_nil_iff.not.mpr h.hasChannels
  have hlength : samples.length =
      n.sampleCount * channels.length * (Query.encodingFormat n.encoding).size := by
    rw [h.length, List.length_map]
  obtain ⟨values, hdecode, hlook⟩ :=
    Query.decodeSamples_ok doubles hchannels h.hasCount h.encoding hlength h.layout
  have hkey (i : Nat) (channel : NormalizedChannel) (hi : n.channels[i]? = some channel) :
      channel.key ∈ channels.map (·.key) := by
    rw [query_keys]
    exact List.mem_map_of_mem (List.mem_of_getElem? hi)
  constructor
  · rintro ⟨_, hdecode', hown⟩
    obtain rfl := Except.ok.inj (hdecode.symm.trans hdecode')
    rw [List.nodup_iff_count_le_one]
    intro key
    by_cases hmem : key ∈ n.channels.map (·.key)
    · obtain ⟨channel, hchannel, rfl⟩ := List.mem_map.mp hmem
      obtain ⟨i, hi⟩ := List.mem_iff_getElem?.mp hchannel
      have hstored := (hlook channel.key).trans (if_pos (hkey i channel hi))
      have hvalues := hstored.symm.trans (hown i channel hi)
      have hcount := congrArg List.length (Option.some.inj hvalues)
      rw [Query.length_valuesOf_slots, length_ownValues] at hcount
      have hone : channels.countP (·.key = channel.key) = 1 :=
        Nat.eq_of_mul_eq_mul_left h.hasCount (hcount.trans (Nat.mul_one _).symm)
      rw [List.countP_map] at hone
      rw [List.count, List.countP_map, ← hone]
      exact (List.countP_congr fun c _ => beq_iff_eq.trans decide_eq_true_iff.symm).le
    · rw [List.count_eq_zero_of_not_mem hmem]
      exact Nat.zero_le 1
  · intro hnodup
    refine ⟨values, hdecode, fun i channel hi => ?_⟩
    have hsame : channels.length = n.channels.length := List.length_map _
    have hi' : channels[i]? = some (queryChannel number channel) := by
      rw [List.getElem?_map, hi, Option.map_some]
    have hvalues := Query.valuesOf_slots_of_nodup n.layout n.sampleCount
      ((query_keys number n.channels).symm ▸ hnodup)
      (Query.valueAt doubles (Query.encodingFormat n.encoding) samples) hi'
    rw [hlook, if_pos (hkey i _ hi), ownValues, ← hsame]
    exact congrArg some hvalues

theorem anomaly_points (doubles : Doubles F) (number : Double → F) (h : Decodable n samples)
    (hnodup : (n.channels.map (·.key)).Nodup) {eventTime : Int}
    (windows : List (Anomaly.NumericWindow F)) {windowStart windowEnd : Int} {maxPoints : Nat}
    (hwindow : ∀ j < n.sampleCount,
      (signalFrameRow number n samples eventTime).inWindow windowStart windowEnd j = true)
    (hroom : ∀ channel ∈ n.channels,
      (Anomaly.pointsUnder windows channel.key).length + n.sampleCount ≤ maxPoints) :
    ∃ windows', Anomaly.appendSignalFramePoints doubles windows
        (signalFrameRow number n samples eventTime) [] windowStart windowEnd maxPoints = .ok windows' ∧
      ∀ i channel, n.channels[i]? = some channel →
        Anomaly.pointsUnder windows' channel.key = Anomaly.pointsUnder windows channel.key ++
          List.zipWith Anomaly.MetricPoint.mk
            ((List.range n.sampleCount).map (signalFrameRow number n samples eventTime).sampleTime)
            (ownValues doubles number n samples i channel) := by
  let frame := signalFrameRow number n samples eventTime
  have hchannels : frame.channels ≠ [] := List.map_eq_nil_iff.not.mpr h.hasChannels
  have hsame : frame.channels.length = n.channels.length := List.length_map _
  have hlength : frame.samples.length =
      frame.sampleCount.toNat * frame.channels.length * (Query.encodingFormat n.encoding).size := by
    rw [hsame]
    exact h.length
  have hkeys : frame.channels.map (·.key) = n.channels.map (·.key) := List.map_map
  have hturns : (List.range n.sampleCount).filter (frame.inWindow windowStart windowEnd) =
      List.range n.sampleCount :=
    List.filter_eq_self.mpr fun j hj => hwindow j (List.mem_range.mp hj)
  obtain ⟨windows', happend, hlook⟩ := Anomaly.appendSignalFramePoints_ok doubles windows [] windowStart
    windowEnd maxPoints hchannels (Int.natCast_pos.mpr h.hasCount) h.reads hlength h.layout
  refine ⟨windows', happend, fun i channel hi => ?_⟩
  have hmem : channel.key ∈ frame.channels.map (·.key) := by
    rw [hkeys]
    exact List.mem_map_of_mem (List.mem_of_getElem? hi)
  have hi' : frame.channels[i]? = some (channelDef number channel) :=
    (List.getElem?_map).trans (hi ▸ rfl)
  have hpoints := Anomaly.valuesOf_pointsOf_of_nodup doubles (Query.encodingFormat n.encoding)
    (List.range n.sampleCount) (hkeys.symm ▸ hnodup) hi'
  have hafter := hlook channel.key hmem rfl
  rw [show frame.sampleCount.toNat = n.sampleCount from rfl, hturns] at hafter
  have hfits : (Anomaly.pointsUnder windows channel.key).length + (valuesOf channel.key
      (frame.pointsOf doubles (Query.encodingFormat n.encoding) (List.range n.sampleCount))).length ≤
        maxPoints := by
    have hlengths := congrArg List.length hpoints
    rw [List.length_map, List.length_range] at hlengths
    exact (congrArg (_ + ·) hlengths).trans_le (hroom channel (List.mem_of_getElem? hi))
  have hvalues : valuesOf channel.key (frame.pointsOf doubles (Query.encodingFormat n.encoding)
      (List.range n.sampleCount)) = List.zipWith Anomaly.MetricPoint.mk
        ((List.range n.sampleCount).map frame.sampleTime)
        (ownValues doubles number n samples i channel) := by
    refine hpoints.trans ?_
    rw [ownValues, List.zipWith_map, List.zipWith_self]
    refine List.map_congr_left fun j _ => ?_
    have hindex : frame.valueIndex j i =
        Query.samplePosition n.layout n.sampleCount n.channels.length i j := by
      rw [← hsame]
      rfl
    simp only [Anomaly.SignalFrameRow.pointAt, hindex]
    rfl
  rw [Anomaly.pointsUnder_foldl_push hafter hfits, hvalues]

theorem anomaly_exact (doubles : Doubles F) (number : Double → F) (h : Decodable n samples)
    (hnodup : (n.channels.map (·.key)).Nodup) {eventTime : Int}
    (windows : List (Anomaly.NumericWindow F)) {windowStart windowEnd : Int} {maxPoints : Nat}
    (hwindow : ∀ j < n.sampleCount,
      (signalFrameRow number n samples eventTime).inWindow windowStart windowEnd j = true)
    (hroom : ∀ channel ∈ n.channels,
      (Anomaly.pointsUnder windows channel.key).length + n.sampleCount ≤ maxPoints) :
    ∃ windows', Anomaly.appendSignalFramePoints doubles windows
        (signalFrameRow number n samples eventTime) [] windowStart windowEnd maxPoints = .ok windows' ∧
      ∀ i channel, n.channels[i]? = some channel →
        (Anomaly.pointsUnder windows' channel.key).map (·.value) =
          (Anomaly.pointsUnder windows channel.key).map (·.value) ++
            ownValues doubles number n samples i channel := by
  obtain ⟨windows', happend, hpoints⟩ :=
    anomaly_points doubles number h hnodup windows hwindow hroom
  refine ⟨windows', happend, fun i channel hi => ?_⟩
  rw [hpoints i channel hi, List.map_append, List.map_zipWith, ownValues, List.zipWith_map,
    List.zipWith_self]

/-- Of an accepted frame both decoders give every channel entry exactly its own samples if and
only if no two entries share a key. -/
theorem decoders_exact_iff (doubles : Doubles F) (number : Double → F) {frame : SignalFrame}
    (hnormal : normalizeSignalFrame frame = .ok n) {eventTime : Int}
    (windows : List (Anomaly.NumericWindow F)) {windowStart windowEnd : Int} {maxPoints : Nat}
    (hwindow : ∀ j < n.sampleCount, (signalFrameRow number n frame.samples eventTime).inWindow
      windowStart windowEnd j = true)
    (hroom : ∀ channel ∈ n.channels,
      (Anomaly.pointsUnder windows channel.key).length + n.sampleCount ≤ maxPoints) :
    ∃ samples, b64decode n.samplesB64 = some samples ∧
      (DecodedExactly doubles number n samples eventTime windows windowStart windowEnd maxPoints ↔
        (frame.channels.map (·.key)).Nodup) := by
  have haccepted := normalizeSignalFrame_ok hnormal
  have hdecodable := decodable_of_accepted haccepted
  have hkeys : n.channels.map (·.key) = frame.channels.map (·.key) := by
    rw [haccepted.channels, List.map_map]
    rfl
  refine ⟨frame.samples, ?_, ?_⟩
  · rw [haccepted.samplesB64, b64decode_b64encode]
  · rw [← hkeys]
    constructor
    · intro h
      exact (query_exact_iff hdecodable).mp h.query
    · intro hnodup
      exact ⟨(query_exact_iff hdecodable).mpr hnodup,
        anomaly_exact doubles number hdecodable hnodup windows hwindow hroom⟩

def shortFrame (keys : List (List Char)) (samples : List UInt8) : SignalFrame where
  streamKey := "imu".toList
  sampleIntervalNs := 1000000
  sampleCount := 1
  encoding := SIGNAL_SAMPLE_ENCODING_INT16_LE
  layout := SIGNAL_SAMPLE_LAYOUT_INTERLEAVED
  channels := keys.map fun key => ⟨key, [], none, none⟩
  samples := samples

def shortNormalized (keys : List (List Char)) (samples : List UInt8) : NormalizedSignalFrame where
  streamKey := "imu".toList
  sampleIntervalNs := 1000000
  sampleCount := 1
  encoding := "int16_le".toList
  layout := "interleaved".toList
  channels := keys.map fun key => ⟨key, none, none, none⟩
  samplesB64 := b64encode samples

theorem decoders_exact_twoChannels :
    let keys := ["x".toList, "y".toList]
    let samples : List UInt8 := [1, 0, 255, 255]
    ∃ stored, b64decode (shortNormalized keys samples).samplesB64 = some stored ∧
      (DecodedExactly wholeDoubles (fun _ => 0) (shortNormalized keys samples) stored 0 [] 0 0 1 ↔
        ((shortFrame keys samples).channels.map (·.key)).Nodup) := by
  intro keys samples
  have hnormal : normalizeSignalFrame (shortFrame keys samples) =
      .ok (shortNormalized keys samples) := rfl
  exact decoders_exact_iff wholeDoubles (fun _ => 0) hnormal [] (by decide) (by decide)

/-- Two entries with one key: the query API puts the values of both under it. -/
theorem sharedKey_notExact :
    let keys := ["x".toList, "x".toList]
    let samples : List UInt8 := [1, 0, 2, 0]
    let n := shortNormalized keys samples
    normalizeSignalFrame (shortFrame keys samples) = .ok n ∧ b64decode n.samplesB64 = some samples ∧
      ∀ eventTime windows windowStart windowEnd maxPoints, ¬DecodedExactly wholeDoubles (fun _ => 0)
        n samples eventTime windows windowStart windowEnd maxPoints := by
  intro keys samples n
  refine ⟨rfl, by decide +kernel, fun eventTime windows windowStart windowEnd maxPoints h => ?_⟩
  obtain ⟨values, hdecode, hown⟩ := h.query
  have hboth : (Query.decodeSamples wholeDoubles samples n.encoding n.layout
      (n.channels.map (queryChannel fun _ => 0)) n.sampleCount).map (·.lookup "x".toList) =
        .ok (some [1, 2]) := by
    decide +kernel
  rw [hdecode] at hboth
  have hlengths := congrArg (Option.map List.length)
    ((Except.ok.inj hboth).symm.trans (hown 0 ⟨"x".toList, none, none, none⟩ rfl))
  rw [Option.map_some, Option.map_some, length_ownValues] at hlengths
  cases hlengths

end Aetus
