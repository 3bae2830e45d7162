import Aetus.Base.Dict
import Aetus.Base.Grid
import Aetus.Base.LittleEndian

/-!
The query API's signal_decode.py: a frame's bytes as the values of its channels.
-/

set_option autoImplicit false

namespace Aetus.Query
open Aetus.Base

variable {F : Type}

structure Channel (F : Type) where
  key : List Char
  unit : Option (List Char)
  scale : Option F
  offset : Option F

inductive DecodeError where
  | valueError (message : String)
  | structError
  | keyError (key : List Char)
  deriving DecidableEq

def ENCODING_FORMATS : List (List Char × NumberFormat × Nat) :=
  [("float32_le".toList, .float32, 4), ("int16_le".toList, .int16, 2),
    ("uint16_le".toList, .uint16, 2), ("int32_le".toList, .int32, 4)]

/-- `float(struct.unpack_from(fmt, samples, offset)[0])` -/
def unpackFrom (doubles : Doubles F) (format : NumberFormat) (samples : List UInt8) (offset : Nat) :
    Except DecodeError F :=
  if offset + format.size ≤ samples.length then
    .ok (format.read doubles ((samples.drop offset).take format.size))
  else .error .structError

def applyAffine (doubles : Doubles F) (value : F) (channel : Channel F) : F :=
  let value := match channel.scale with
    | some scale => doubles.mul value scale
    | none => value
  match channel.offset with
  | some offset => doubles.add value offset
  | none => value

abbrev Values (F : Type) := Dict (List Char) (List F)

/-- `{channel.key: [] for channel in channels}` -/
def emptyValues (channels : List (Channel F)) : Values F :=
  channels.foldl (fun values channel => values.insert channel.key []) ∅

def decodeNext (doubles : Doubles F) (format : NumberFormat) (width : Nat) (samples : List UInt8) :
    Values F × Nat → Channel F → Except DecodeError (Values F × Nat)
  | (values, offset), channel =>
    match unpackFrom doubles format samples offset with
    | .error e => .error e
    | .ok rawValue =>
      match values.lookup channel.key with
      | none => .error (.keyError channel.key)
      | some decoded =>
        .ok (values.insert channel.key (decoded ++ [applyAffine doubles rawValue channel]),
          offset + width)

def decodeSamples (doubles : Doubles F) (samples : List UInt8) (encoding layout : List Char)
    (channels : List (Channel F)) (sampleCount : Int) : Except DecodeError (Values F) :=
  if channels = [] then .error (.valueError "channels are required")
  else if sampleCount ≤ 0 then .error (.valueError "sample_count must be positive")
  else
    match ENCODING_FORMATS.lookup encoding with
    | none => .error (.valueError ("unsupported signal encoding: " ++ String.ofList encoding))
    | some (format, width) =>
      let expectedSize := sampleCount * channels.length * width
      if samples.length ≠ expectedSize then
        .error (.valueError ("sample size mismatch: expected " ++ toString expectedSize ++
          ", got " ++ toString samples.length))
      else if layout ≠ "interleaved".toList ∧ layout ≠ "planar".toList then
        .error (.valueError ("unsupported signal layout: " ++ String.ofList layout))
      else
        let next := decodeNext doubles format width samples
        let turns := List.range sampleCount.toNat
        let state := (emptyValues channels, 0)
        Except.map Prod.fst <|
          if layout = "interleaved".toList then
            turns.foldlM (fun state _ => channels.foldlM next state) state
          else
            channels.foldlM (fun state channel => turns.foldlM (fun state _ => next state channel) state)
              state

theorem lookup_emptyValues {channels : List (Channel F)} {key : List Char} :
    (emptyValues channels).lookup key = if key ∈ channels.map (·.key) then some [] else none := by
  suffices h : ∀ values : Values F,
      (channels.foldl (fun values channel => values.insert channel.key []) values).lookup key =
        if key ∈ channels.map (·.key) then some [] else values.lookup key from h ∅
  induction channels with
  | nil => simp
  | cons channel channels ih =>
    intro values
    rw [List.foldl_cons, ih, List.map_cons]
    by_cases hkey : key = channel.key
    · subst hkey
      simp
    · simp [hkey, AList.lookup_insert_ne hkey]

def encodingFormat (encoding : List Char) : NumberFormat :=
  ((ENCODING_FORMATS.lookup encoding).getD (.float32, 4)).1

def valueAt (doubles : Doubles F) (format : NumberFormat) (samples : List UInt8)
    (channel : Channel F) (position : Nat) : F :=
  applyAffine doubles
    (format.read doubles ((samples.drop (position * format.size)).take format.size)) channel

def slots (layout : List Char) (count : Nat) (channels : List (Channel F)) : List (Channel F) :=
  if layout = "interleaved".toList then (List.range count).flatMap fun _ => channels
  else channels.flatMap fun channel => (List.range count).map fun _ => channel

theorem length_slots (layout : List Char) (count : Nat) (channels : List (Channel F)) :
    (slots layout count channels).length = count * channels.length := by
  unfold slots
  split
  · simp
  · simp [Nat.mul_comm]

variable {doubles : Doubles F} {format : NumberFormat} {samples : List UInt8}
  {encoding layout : List Char} {channels : List (Channel F)} {count : Nat}

theorem lookup_encodingFormat {entry : NumberFormat × Nat}
    (h : ENCODING_FORMATS.lookup encoding = some entry) :
    entry = (encodingFormat encoding, (encodingFormat encoding).size) := by
  have hwidth : ∀ e ∈ ENCODING_FORMATS, e.2.2 = e.2.1.size := by decide
  obtain ⟨before, after, hsplit, -⟩ := List.lookup_eq_some_iff.mp h
  have hentry : entry.2 = entry.1.size :=
    hwidth (encoding, entry) (hsplit ▸ List.mem_append_right before List.mem_cons_self)
  rw [encodingFormat, h, Option.getD_some, ← hentry]

theorem decodeSamples_inputs {values : Values F}
    (h : decodeSamples doubles samples encoding layout channels count = .ok values) :
    channels ≠ [] ∧ 0 < count ∧
      ENCODING_FORMATS.lookup encoding =
        some (encodingFormat encoding, (encodingFormat encoding).size) ∧
      samples.length = count * channels.length * (encodingFormat encoding).size ∧
      (layout = "interleaved".toList ∨ layout = "planar".toList) := by
  unfold decodeSamples at h
  by_cases hchannels : channels = []
  · rw [if_pos hchannels] at h
    cases h
  by_cases hcount : (count : Int) ≤ 0
  · rw [if_neg hchannels, if_pos hcount] at h
    cases h
  rw [if_neg hchannels, if_neg hcount] at h
  cases hencoding : ENCODING_FORMATS.lookup encoding with
  | none =>
    rw [hencoding] at h
    cases h
  | some entry =>
    obtain rfl := lookup_encodingFormat hencoding
    rw [hencoding] at h
    dsimp only at h
    by_cases hsize : (samples.length : Int) ≠
        (count : Int) * channels.length * (encodingFormat encoding).size
    · rw [if_pos hsize] at h
      cases h
    by_cases hlayout : layout ≠ "interleaved".toList ∧ layout ≠ "planar".toList
    · rw [if_neg hsize, if_pos hlayout] at h
      cases h
    · refine ⟨hchannels, by omega, rfl, ?_, ?_⟩
      · exact_mod_cast not_not.mp hsize
      · tauto

theorem decodeNext_ok {values : Values F} {channel : Channel F} {decoded : List F} {position : Nat}
    (hlength : (position + 1) * format.size ≤ samples.length)
    (hlook : values.lookup channel.key = some decoded) :
    decodeNext doubles format format.size samples (values, position * format.size) channel =
      .ok (values.insert channel.key (decoded ++ [valueAt doubles format samples channel position]),
        (position + 1) * format.size) := by
  rw [Nat.succ_mul] at hlength ⊢
  simp only [decodeNext, unpackFrom, if_pos hlength, hlook, valueAt]

theorem foldlM_decodeNext (doubles : Doubles F) {slots : List (Channel F)}
    (hlength : samples.length = slots.length * format.size)
    (hkeys : ∀ channel ∈ slots, channel ∈ channels) :
    ∃ values offset, slots.foldlM (decodeNext doubles format format.size samples)
        (emptyValues channels, 0) = .ok (values, offset) ∧
      ∀ key, values.lookup key = if key ∈ channels.map (·.key) then some (valuesOf key
        (slots.zipIdx.map fun e => (e.1.key, valueAt doubles format samples e.1 e.2))) else none := by
  let Inv (position : Nat) (state : Values F × Nat) : Prop := state.2 = position * format.size ∧
    ∀ channel ∈ channels, (state.1.lookup channel.key).isSome = true
  have hstart : Inv 0 (emptyValues channels, 0) := by
    refine ⟨(Nat.zero_mul _).symm, fun channel hchannel => ?_⟩
    rw [lookup_emptyValues, if_pos (List.mem_map_of_mem hchannel), Option.isSome_some]
  have hstep : ∀ e ∈ slots.zipIdx, ∀ state, Inv e.2 state →
      ∃ state', decodeNext doubles format format.size samples state e.1 = .ok state' ∧
        Inv (e.2 + 1) state' ∧ ∀ key, state'.1.lookup key = if e.1.key = key then
          (state.1.lookup key).map (· ++ [valueAt doubles format samples e.1 e.2])
          else state.1.lookup key := by
    rintro ⟨channel, position⟩ hmem ⟨values, _⟩ ⟨rfl, hsome⟩
    obtain ⟨-, hposition, -⟩ := List.mem_zipIdx hmem
    have hfits : (position + 1) * format.size ≤ samples.length := by
      rw [hlength]
      exact Nat.mul_le_mul_right _ (by omega)
    obtain ⟨decoded, hdecoded⟩ := Option.isSome_iff_exists.mp
      (hsome channel (hkeys channel (List.fst_mem_of_mem_zipIdx hmem)))
    refine ⟨_, decodeNext_ok hfits hdecoded, ⟨rfl, fun other hother => ?_⟩, fun key => ?_⟩
    · by_cases hkey : other.key = channel.key
      · rw [hkey, AList.lookup_insert, Option.isSome_some]
      · rw [AList.lookup_insert_ne hkey]
        exact hsome other hother
    · split
      · next hkey =>
        subst hkey
        rw [AList.lookup_insert, hdecoded, Option.map_some]
      · next hkey => exact AList.lookup_insert_ne (Ne.symm hkey)
  obtain ⟨⟨values, offset⟩, hrun, -, hlook⟩ :=
    foldlM_valuesOf Inv (fun state key => state.1.lookup key) (fun decoded value => decoded ++ [value])
      (fun e => (e.1.key, valueAt doubles format samples e.1 e.2)) hstep hstart
  refine ⟨values, offset, hrun, fun key => ?_⟩
  rw [hlook, lookup_emptyValues]
  split
  · rw [Option.map_some, List.foldl_append_eq_append, List.nil_append, ← List.flatMap_def,
      List.flatMap_singleton']
  · rfl

/-- On bytes of the right length, in an encoding and a layout that it knows, the decoder
succeeds. -/
theorem decodeSamples_ok (doubles : Doubles F) (hchannels : channels ≠ []) (hcount : 0 < count)
    (hformat : ENCODING_FORMATS.lookup encoding = some (format, format.size))
    (hlength : samples.length = count * channels.length * format.size)
    (hlayout : layout = "interleaved".toList ∨ layout = "planar".toList) :
    ∃ values, decodeSamples doubles samples encoding layout channels count = .ok values ∧
      ∀ key, values.lookup key = if key ∈ channels.map (·.key) then some (valuesOf key
        ((slots layout count channels).zipIdx.map fun e =>
          (e.1.key, valueAt doubles format samples e.1 e.2))) else none := by
  have hkeys : ∀ channel ∈ slots layout count channels, channel ∈ channels := by
    unfold slots
    split
    · simp
    · simp +contextual
  have hsize : samples.length = (slots layout count channels).length * format.size := by
    rw [length_slots, hlength]
  obtain ⟨values, offset, hrun, hlook⟩ := foldlM_decodeNext doubles hsize hkeys
  refine ⟨values, ?_, hlook⟩
  have hexpected : ¬((samples.length : Int) ≠ (count : Int) * channels.length * format.size) := by
    rw [hlength]
    simp
  have hknown : ¬(layout ≠ "interleaved".toList ∧ layout ≠ "planar".toList) :=
    fun h => hlayout.elim h.1 h.2
  rw [decodeSamples, if_neg hchannels, if_neg (by omega)]
  simp only [hformat, if_neg hexpected, if_neg hknown, Int.toNat_natCast]
  unfold slots at hrun
  split at hrun
  · next hrows =>
    rw [foldlM_flatMap] at hrun
    rw [if_pos hrows, hrun]
    rfl
  · next hcolumns =>
    rw [foldlM_flatMap] at hrun
    simp only [List.foldlM_map] at hrun
    rw [if_neg hcolumns, hrun]
    rfl

/-- Where the j-th sample of the i-th channel is: row by row, or column by column. -/
def samplePosition (layout : List Char) (count channelCount i j : Nat) : Nat :=
  if layout = "interleaved".toList then j * channelCount + i else i * count + j

variable {ν : Type} {key : List Char}

theorem valuesOf_slots (value : Channel F → Nat → ν) :
    valuesOf key ((slots layout count channels).zipIdx.map fun e => (e.1.key, value e.1 e.2)) =
      if layout = "interleaved".toList then
        (List.range count).flatMap fun j => (channels.zipIdx.filter fun e => e.1.key = key).map
          fun e => value e.1 (j * channels.length + e.2)
      else
        (channels.zipIdx.filter fun e => e.1.key = key).flatMap fun e =>
          (List.range count).map fun j => value e.1 (e.2 * count + j) := by
  unfold slots
  split
  · rw [zipIdx_byRow, List.map_flatMap]
    simp only [List.map_map, Function.comp_def]
    exact valuesOf_byRow
  · rw [zipIdx_byColumn, List.map_flatMap]
    simp only [List.map_map, Function.comp_def]
    exact valuesOf_byColumn

theorem valuesOf_slots_of_nodup (layout : List Char) (count : Nat)
    (hkeys : (channels.map (·.key)).Nodup) (value : Channel F → Nat → ν) {i : Nat}
    {channel : Channel F} (hi : channels[i]? = some channel) :
    valuesOf channel.key
        ((slots layout count channels).zipIdx.map fun e => (e.1.key, value e.1 e.2)) =
      (List.range count).map fun j =>
        value channel (samplePosition layout count channels.length i j) := by
  have hsingle := filter_zipIdx_of_nodup hkeys hi
  rw [valuesOf_slots, hsingle]
  unfold samplePosition
  split
  · simp only [List.map_cons, List.map_nil]
    exact List.map_eq_flatMap.symm
  · rw [List.flatMap_cons, List.flatMap_nil, List.append_nil]

theorem length_valuesOf_slots (value : Channel F → Nat → ν) :
    (valuesOf key
        ((slots layout count channels).zipIdx.map fun e => (e.1.key, value e.1 e.2))).length =
      count * channels.countP (·.key = key) := by
  rw [valuesOf_slots, ← length_filter_zipIdx (fun channel => channel.key) key channels]
  split
  · simp
  · simp [Nat.mul_comm]

end Aetus.Query
