import Aetus.Base.Lists
import Aetus.Query.Series

/-!
The samples of a stored frame: the values at their places in the byte string, and their
times.
-/

set_option autoImplicit false

namespace Aetus.Query
open Aetus.Base Aetus.Postgres

variable {F : Type} {reader : Reader F} {rounding : Rounding} {frame : StoredFrame}

def channelsOf (reader : Reader F) (frame : StoredFrame) : List (Channel F) :=
  reader.channelsFromJson frame.signal.channelsJson

def channelKeys (reader : Reader F) (frame : StoredFrame) : List (List Char) :=
  (channelsOf reader frame).map (·.key)

structure FrameDecodable (reader : Reader F) (frame : StoredFrame) : Prop where
  hasCount : 0 < frame.sampleCount
  hasChannels : channelsOf reader frame ≠ []
  encoding : ENCODING_FORMATS.lookup frame.signal.encoding =
    some (encodingFormat frame.signal.encoding, (encodingFormat frame.signal.encoding).size)
  layout : frame.signal.layout = "interleaved".toList ∨ frame.signal.layout = "planar".toList
  length : frame.samples.length = frame.sampleCount * (channelsOf reader frame).length *
    (encodingFormat frame.signal.encoding).size

def sampleTime (rounding : Rounding) (frame : StoredFrame) (sampleIndex : Nat) : Timestamptz :=
  frame.eventTime + sampleDelta rounding frame.sampleIntervalNs sampleIndex

def sampleAt (layout : List Char) (count channelCount position : Nat) : Nat :=
  if layout = "interleaved".toList then position / channelCount else position % count

def frameCells (reader : Reader F) (frame : StoredFrame) : List (List Char × Nat × F) :=
  let channels := channelsOf reader frame
  (slots frame.signal.layout frame.sampleCount channels).zipIdx.map fun e =>
    (e.1.key, sampleAt frame.signal.layout frame.sampleCount channels.length e.2,
      valueAt reader.floats.toDoubles (encodingFormat frame.signal.encoding) frame.samples e.1 e.2)

def channelCells (reader : Reader F) (frame : StoredFrame) (key : List Char) : List (Nat × F) :=
  valuesOf key (frameCells reader frame)

def selectedSamples (rounding : Rounding) (start stop : Option Timestamptz) (frame : StoredFrame) :
    List Nat :=
  (List.range frame.sampleCount).filter fun j => isSelected start stop (sampleTime rounding frame j)

theorem selectedIndices_sampleTimestamps {start stop : Option Timestamptz} :
    selectedIndices start stop
        (sampleTimestamps rounding frame.eventTime frame.sampleIntervalNs frame.sampleCount) =
      (selectedSamples rounding start stop frame).map fun j => (sampleTime rounding frame j, j) := by
  rw [selectedIndices, sampleTimestamps, zipIdx_range_map, List.filter_map, selectedSamples]
  simp only [Nat.zero_add]
  rfl

theorem lt_of_mem_selectedSamples {start stop : Option Timestamptz} {j : Nat}
    (h : j ∈ selectedSamples rounding start stop frame) : j < frame.sampleCount :=
  List.mem_range.mp (List.mem_filter.mp h).1

theorem decodeFrame_ok (h : FrameDecodable reader frame) :
    ∃ values, decodeFrame reader frame = .ok (channelsOf reader frame, values) ∧
      ∀ key, values.lookup key = if key ∈ channelKeys reader frame then
        some ((channelCells reader frame key).map Prod.snd) else none := by
  obtain ⟨values, hdecode, hlook⟩ := decodeSamples_ok reader.floats.toDoubles h.hasChannels
    h.hasCount h.encoding h.length h.layout
  refine ⟨values, ?_, fun key => ?_⟩
  · rw [decodeFrame]
    simp only [channelsOf] at hdecode
    rw [hdecode]
    rfl
  · rw [hlook]
    refine if_congr Iff.rfl (congrArg some ?_) rfl
    rw [channelCells, frameCells, valuesOf, valuesOf, List.filter_map, List.map_map,
      List.filter_map, List.map_map, List.map_map]
    rfl

theorem frameDecodable_of_decodeFrame {result : List (Channel F) × Values F}
    (h : decodeFrame reader frame = .ok result) : FrameDecodable reader frame := by
  cases hdecode : decodeSamples reader.floats.toDoubles frame.samples frame.signal.encoding
      frame.signal.layout (reader.channelsFromJson frame.signal.channelsJson) frame.sampleCount with
  | error e =>
    simp only [decodeFrame, hdecode] at h
    cases h
  | ok values =>
    obtain ⟨hchannels, hcount, hencoding, hlength, hlayout⟩ := decodeSamples_inputs hdecode
    exact ⟨hcount, hchannels, hencoding, hlayout, hlength⟩

theorem sampleCount_le_channelCells {key : List Char} (hkey : key ∈ channelKeys reader frame) :
    frame.sampleCount ≤ (channelCells reader frame key).length := by
  have hlength : (channelCells reader frame key).length =
      frame.sampleCount * (channelsOf reader frame).countP (·.key = key) := by
    rw [channelCells, frameCells]
    exact length_valuesOf_slots fun channel position =>
      (sampleAt frame.signal.layout frame.sampleCount (channelsOf reader frame).length position,
        valueAt reader.floats.toDoubles (encodingFormat frame.signal.encoding) frame.samples channel
          position)
  obtain ⟨channel, hchannel, hchannelKey⟩ := List.mem_map.mp hkey
  have hpos : 0 < (channelsOf reader frame).countP (·.key = key) :=
    List.countP_pos_iff.mpr ⟨channel, hchannel, decide_eq_true hchannelKey⟩
  rw [hlength]
  exact Nat.le_mul_of_pos_right _ hpos

section cells
variable {channels : List (Channel F)} {layout : List Char} {count i j : Nat}

theorem sampleAt_samplePosition {channelCount : Nat} (hi : i < channelCount) (hj : j < count) :
    sampleAt layout count channelCount (samplePosition layout count channelCount i j) = j := by
  unfold sampleAt samplePosition
  split
  · rw [Nat.add_comm, Nat.add_mul_div_right _ _ (by omega), Nat.div_eq_of_lt hi, Nat.zero_add]
  · rw [Nat.add_comm, Nat.add_mul_mod_self_right, Nat.mod_eq_of_lt hj]

theorem channelCells_of_nodup (hkeys : (channelKeys reader frame).Nodup) {key : List Char}
    (hkey : key ∈ channelKeys reader frame) :
    (channelCells reader frame key).map Prod.fst = List.range frame.sampleCount := by
  obtain ⟨channel, hchannel, rfl⟩ := List.mem_map.mp hkey
  obtain ⟨i, hi⟩ := List.mem_iff_getElem?.mp hchannel
  have hcells := valuesOf_slots_of_nodup frame.signal.layout frame.sampleCount hkeys
    (fun channel position => (sampleAt frame.signal.layout frame.sampleCount
      (channelsOf reader frame).length position, valueAt reader.floats.toDoubles
        (encodingFormat frame.signal.encoding) frame.samples channel position)) hi
  rw [channelCells, frameCells, hcells, List.map_map]
  refine (List.map_congr_left fun j hj => ?_).trans (List.map_id _)
  exact sampleAt_samplePosition (List.getElem?_eq_some_iff.mp hi).1 (List.mem_range.mp hj)

theorem channelCells_of_not_mem {key : List Char} (hkey : key ∉ channelKeys reader frame) :
    channelCells reader frame key = [] := by
  have hnone : ((channelsOf reader frame).zipIdx.filter fun e => e.1.key = key) = [] :=
    filter_zipIdx_of_not_mem hkey
  rw [channelCells, frameCells, valuesOf_slots (fun channel position =>
    (sampleAt frame.signal.layout frame.sampleCount (channelsOf reader frame).length position,
      valueAt reader.floats.toDoubles (encodingFormat frame.signal.encoding) frame.samples channel
        position)), hnone]
  split
  · exact List.flatMap_eq_nil_iff.mpr fun _ _ => rfl
  · rfl

/-- The values of a channel entry are under its key, also where the key occurs twice. -/
theorem exists_mem_channelCells {key : List Char} (hkey : key ∈ channelKeys reader frame)
    (hj : j < frame.sampleCount) : ∃ value, (j, value) ∈ channelCells reader frame key := by
  obtain ⟨channel, hchannel, rfl⟩ := List.mem_map.mp hkey
  obtain ⟨i, hi⟩ := List.mem_iff_getElem?.mp hchannel
  have hlt : i < (channelsOf reader frame).length := (List.getElem?_eq_some_iff.mp hi).1
  have hentry : (channel, i) ∈ (channelsOf reader frame).zipIdx.filter fun e =>
      e.1.key = channel.key :=
    List.mem_filter.mpr ⟨List.mem_zipIdx_iff_getElem?.mpr hi, decide_eq_true rfl⟩
  let cell (channel : Channel F) (position : Nat) : Nat × F :=
    (sampleAt frame.signal.layout frame.sampleCount (channelsOf reader frame).length position,
      valueAt reader.floats.toDoubles (encodingFormat frame.signal.encoding) frame.samples channel
        position)
  let position := samplePosition frame.signal.layout frame.sampleCount
    (channelsOf reader frame).length i j
  have hsample : (cell channel position).1 = j := sampleAt_samplePosition hlt hj
  have hmem : cell channel position ∈ channelCells reader frame channel.key := by
    rw [channelCells, frameCells, valuesOf_slots cell]
    dsimp only [position, samplePosition]
    split
    · exact List.mem_flatMap.mpr ⟨j, List.mem_range.mpr hj, List.mem_map.mpr ⟨_, hentry, rfl⟩⟩
    · exact List.mem_flatMap.mpr ⟨_, hentry, List.mem_map.mpr ⟨j, List.mem_range.mpr hj, rfl⟩⟩
  refine ⟨(cell channel position).2, ?_⟩
  rw [← hsample]
  exact hmem

theorem lt_of_mem_channelCells {key : List Char} {cell : Nat × F}
    (h : cell ∈ channelCells reader frame key) : cell.1 < frame.sampleCount := by
  obtain ⟨item, hitem, rfl⟩ := List.mem_map.mp h
  obtain ⟨⟨channel, position⟩, he, rfl⟩ := List.mem_map.mp (List.mem_filter.mp hitem).1
  have hposition : position < frame.sampleCount * (channelsOf reader frame).length := by
    rw [← length_slots frame.signal.layout]
    exact List.snd_lt_of_mem_zipIdx he
  show sampleAt _ _ _ _ < _
  unfold sampleAt
  split
  · refine Nat.div_lt_of_lt_mul ?_
    rwa [Nat.mul_comm] at hposition
  · exact Nat.mod_lt _ (Nat.pos_of_mul_pos_right (Nat.zero_lt_of_lt hposition))

end cells

/-! The samples of a range are of frames that overlap it -/

section range
variable {telemetry : Telemetry} {deviceId streamKey : List Char} {start stop : Timestamptz}

theorem overlaps_of_framesOf (h : frame ∈ telemetry.framesOf deviceId streamKey) :
    frame.overlaps rounding deviceId streamKey start stop = true ↔ frame.eventTime ≤ stop ∧
      (start ≤ frame.eventTime ∨ start ≤ frame.lastSampleTime rounding) := by
  obtain ⟨-, hstream⟩ := List.mem_filter.mp h
  obtain ⟨hdevice, hkey⟩ := of_decide_eq_true hstream
  simp [FrameRow.overlaps, hdevice, hkey]

/-! In exact arithmetic, where no time is rounded twice -/

theorem sampleDelta_unrounded (sampleIntervalNs sampleIndex : Nat) :
    sampleDelta unrounded sampleIntervalNs sampleIndex =
      divRoundHalfEven (sampleIndex * sampleIntervalNs) 1000 := by
  have hquotient : ((sampleIndex * sampleIntervalNs : Nat) : ℚ) / 1000 =
      ((sampleIndex * sampleIntervalNs : Int) : ℚ) / (1000 : Int) := by
    push_cast
    rfl
  rw [sampleDelta, unrounded, id, hquotient, roundHalfEven_div _ (by decide)]

theorem lastSampleTime_unrounded (frame : StoredFrame) : frame.lastSampleTime unrounded =
    frame.eventTime +
      divRoundHalfEven (frame.sampleIntervalNs * (frame.sampleCount - 1 : Nat)) 1000 := by
  have hmicros : ((frame.sampleIntervalNs : ℚ) * ((frame.sampleCount - 1 : Nat) : ℚ) / 1000000000) *
      1000000 = ((frame.sampleIntervalNs * (frame.sampleCount - 1 : Nat) : Int) : ℚ) / (1000 : Int) := by
    push_cast
    ring
  rw [FrameRow.lastSampleTime, FrameRow.lastSampleSeconds, ← roundHalfEven_div _ (by decide),
    ← hmicros]
  rfl

theorem eventTime_le_sampleTime (frame : StoredFrame) (j : Nat) :
    frame.eventTime ≤ sampleTime unrounded frame j := by
  have hnonneg : (0 : Int) ≤ ((j * frame.sampleIntervalNs : Nat) : Int) / 1000 :=
    Int.ediv_nonneg (Int.natCast_nonneg _) (by decide)
  have hround := le_divRoundHalfEven (n := ((j * frame.sampleIntervalNs : Nat) : Int)) (d := 1000)
  rw [Int.natCast_mul] at hnonneg hround
  rw [sampleTime, sampleDelta_unrounded]
  exact Int.le_add_of_nonneg_right (hnonneg.trans hround)

theorem sampleTime_le_lastSampleTime {j : Nat} (hj : j < frame.sampleCount) :
    sampleTime unrounded frame j ≤ frame.lastSampleTime unrounded := by
  have hle : (j * frame.sampleIntervalNs : Int) ≤
      frame.sampleIntervalNs * (frame.sampleCount - 1 : Nat) := by
    rw [Int.mul_comm]
    refine Int.mul_le_mul_of_nonneg_left ?_ (Int.natCast_nonneg _)
    omega
  rw [sampleTime, sampleDelta_unrounded, lastSampleTime_unrounded]
  exact Int.add_le_add_left (divRoundHalfEven_mono (by decide) hle) _

/-- A sample in the range, by the times that the query API gives its frame's samples. -/
theorem overlaps_of_sampleTime (h : frame ∈ telemetry.framesOf deviceId streamKey) {j : Nat}
    (hj : j < frame.sampleCount) (hstart : start ≤ sampleTime unrounded frame j)
    (hstop : sampleTime unrounded frame j ≤ stop) :
    frame.overlaps unrounded deviceId streamKey start stop = true :=
  (overlaps_of_framesOf h).mpr ⟨(eventTime_le_sampleTime frame j).trans hstop,
    .inr (hstart.trans (sampleTime_le_lastSampleTime hj))⟩

end range

end Aetus.Query
