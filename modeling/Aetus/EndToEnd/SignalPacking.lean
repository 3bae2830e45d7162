import Aetus.Clients.SignalSamples
import Aetus.Query.SignalDecode

/-!
Samples that the clients have packed, as the query API decodes them.
-/

set_option autoImplicit false

namespace Aetus
open Aetus.Base Aetus.Clients

inductive IntegerEncoding where
  | int16Le
  | uint16Le
  | int32Le

def IntegerEncoding.name : IntegerEncoding → List Char
  | .int16Le => "int16_le".toList
  | .uint16Le => "uint16_le".toList
  | .int32Le => "int32_le".toList

def IntegerEncoding.format : IntegerEncoding → NumberFormat
  | .int16Le => .int16
  | .uint16Le => .uint16
  | .int32Le => .int32

def IntegerEncoding.rust : IntegerEncoding → Rust.SignalEncoding
  | .int16Le => .int16Le
  | .uint16Le => .uint16Le
  | .int32Le => .int32Le

/-- The Rust function for the encoding, given the rows in its integer type. -/
def rustPacked (rows : List (List Int)) (layout : Rust.SignalLayout) :
    IntegerEncoding → Except Rust.Error Rust.PackedSignalSamples
  | .int16Le => Rust.packSignalSamplesI16 (rows.map (·.map Int16.ofInt)) layout
  | .uint16Le => Rust.packSignalSamplesU16 (rows.map (·.map UInt16.ofInt)) layout
  | .int32Le => Rust.packSignalSamplesI32 (rows.map (·.map Int32.ofInt)) layout

def column (rows : List (List Int)) (i : Nat) : List Int := rows.map (·.getD i 0)

theorem leBytes_int16 (value : Int) :
    leBytes 2 (Int16.ofInt value).toUInt16.toNat = NumberFormat.int16.write value := by
  rfl

theorem leBytes_uint16 (value : Int) :
    leBytes 2 (UInt16.ofInt value).toNat = NumberFormat.uint16.write value := by
  have hlow : (UInt16.ofInt value).toNat = (value % 2 ^ 16).toNat := by
    rw [UInt16.ofInt, UInt16.toNat_ofNat']
    omega
  rw [hlow]
  rfl

theorem leBytes_int32 (value : Int) :
    leBytes 4 (Int32.ofInt value).toUInt32.toNat = NumberFormat.int32.write value := by
  rfl

theorem rustPacked_eq (rows : List (List Int)) (layout : Rust.SignalLayout)
    (encoding : IntegerEncoding) : rustPacked rows layout encoding =
      match packedRows rows layout.name encoding.format.write with
      | .error message => .error (.invalidInput message)
      | .ok bytes => .ok ⟨encoding.rust, layout, UInt32.ofNat rows.length, bytes⟩ := by
  cases encoding with
  | int16Le =>
    have hwrite := funext leBytes_int16
    rw [rustPacked, Rust.packSignalSamplesI16, rust_packed, packedRows_map, hwrite, List.length_map]
    rfl
  | uint16Le =>
    have hwrite := funext leBytes_uint16
    rw [rustPacked, Rust.packSignalSamplesU16, rust_packed, packedRows_map, hwrite, List.length_map]
    rfl
  | int32Le =>
    have hwrite := funext leBytes_int32
    rw [rustPacked, Rust.packSignalSamplesI32, rust_packed, packedRows_map, hwrite, List.length_map]
    rfl

variable {rows : List (List Int)} {channelCount : Nat} {layout : List Char}

theorem filterMap_getElem? (hrows : ∀ row ∈ rows, row.length = channelCount) {i : Nat}
    (hi : i < channelCount) : rows.filterMap (·[i]?) = column rows i := by
  rw [column, ← List.filterMap_eq_map]
  refine List.filterMap_congr fun row hrow => ?_
  have hi' : i < row.length := hrows row hrow ▸ hi
  rw [Function.comp, List.getD_eq_getElem?_getD, List.getElem?_eq_getElem hi', Option.getD_some]

/-- The packed order has the j-th value of the i-th channel where the decoder looks for it. -/
theorem orderedValues_samplePosition (layout : List Char)
    (hrows : ∀ row ∈ rows, row.length = channelCount) {i j : Nat} (hi : i < channelCount)
    (hj : j < rows.length) : (Python.orderedValues rows layout channelCount)[
        Query.samplePosition layout rows.length channelCount i j]? = (column rows i)[j]? := by
  unfold Python.orderedValues Query.samplePosition
  split
  · have hi' : i < rows[j].length := hrows rows[j] (List.getElem_mem hj) ▸ hi
    rw [getElem?_flatMap hrows (List.getElem?_eq_getElem hj) hi, column, List.getElem?_map,
      List.getElem?_eq_getElem hj, Option.map_some, List.getD_eq_getElem?_getD,
      List.getElem?_eq_getElem hi', Option.getD_some]
  · rw [getElem?_flatMap (Python.length_filterMap hrows) (List.getElem?_range hi) hj,
      filterMap_getElem? hrows hi]

theorem valueAt_packed {F : Type} (doubles : Doubles F) {format : NumberFormat}
    {values : List Int} {channel : Query.Channel F} (hscale : channel.scale = none)
    (hoffset : channel.offset = none) {position : Nat} {value : Int}
    (hvalue : values[position]? = some value) (hholds : format.holds value = true) :
    Query.valueAt doubles format (values.flatMap format.write) channel position =
      doubles.ofInt value := by
  have hblock := drop_take_flatMap (fun x (_ : x ∈ values) => format.length_write x) hvalue
  rw [Query.valueAt, hblock, format.read_write hholds, Query.applyAffine, hscale, hoffset]

variable {F : Type} {channels : List (Query.Channel F)} {encoding : IntegerEncoding}

structure HoldsColumns (doubles : Doubles F) (channels : List (Query.Channel F))
    (rows : List (List Int)) (values : Query.Values F) : Prop where
  column : ∀ i channel, channels[i]? = some channel →
    values.lookup channel.key = some ((column rows i).map doubles.ofInt)
  noOther : ∀ key, key ∉ channels.map (·.key) → values.lookup key = none

theorem packedRows_ok (layout : List Char) (write : Int → List UInt8) (hrows : rows ≠ [])
    (hcount : 0 < channelCount) (hrect : ∀ row ∈ rows, row.length = channelCount) :
    packedRows rows layout write =
      .ok ((Python.orderedValues rows layout channelCount).flatMap write) := by
  cases rows with
  | nil => exact absurd rfl hrows
  | cons row rows =>
    have hlength := hrect row List.mem_cons_self
    have hsame : ¬(row :: rows).any (fun other => other.length != channelCount) = true := by
      simp only [List.any_eq_true, not_exists, not_and, bne_iff_ne, ne_eq, not_not]
      exact hrect
    simp only [packedRows, hlength, if_neg hcount.ne', if_neg hsame]

theorem packedRows_empty (layout : List Char) (write : Int → List UInt8)
    (hempty : rows = [] ∨ channelCount = 0) (hrect : ∀ row ∈ rows, row.length = channelCount) :
    ∃ message, packedRows rows layout write = .error message := by
  cases rows with
  | nil => exact ⟨_, rfl⟩
  | cons row rows =>
    have hzero : row.length = 0 := by
      rw [hrect row List.mem_cons_self]
      exact hempty.resolve_left (List.cons_ne_nil row rows)
    exact ⟨_, if_pos hzero⟩

theorem decodeSamples_packed (doubles : Doubles F) (layout : Rust.SignalLayout)
    (hkeys : (channels.map (·.key)).Nodup)
    (hplain : ∀ channel ∈ channels, channel.scale = none ∧ channel.offset = none)
    (hrect : ∀ row ∈ rows, row.length = channels.length)
    (hholds : ∀ row ∈ rows, ∀ value ∈ row, encoding.format.holds value = true)
    (hrows : rows ≠ []) (hchannels : channels ≠ []) :
    ∃ values, Query.decodeSamples doubles
        ((Python.orderedValues rows layout.name channels.length).flatMap encoding.format.write)
        encoding.name layout.name channels rows.length = .ok values ∧
      HoldsColumns doubles channels rows values := by
  have hformat : Query.ENCODING_FORMATS.lookup encoding.name =
      some (encoding.format, encoding.format.size) := by
    cases encoding <;> decide
  have hlayout : layout.name = "interleaved".toList ∨ layout.name = "planar".toList := by
    cases layout with
    | interleaved => exact .inl rfl
    | planar => exact .inr rfl
  have hlength : ((Python.orderedValues rows layout.name channels.length).flatMap
      encoding.format.write).length = rows.length * channels.length * encoding.format.size := by
    rw [length_flatMap_of_length fun value _ => encoding.format.length_write value,
      Python.length_orderedValues layout.name hrect]
  obtain ⟨values, hdecode, hlook⟩ := Query.decodeSamples_ok doubles hchannels
    (List.length_pos_iff.mpr hrows) hformat hlength hlayout
  refine ⟨values, hdecode, ?_, fun key hkey => (hlook key).trans (if_neg hkey)⟩
  intro i channel hi
  rw [hlook, if_pos (List.mem_map_of_mem (List.mem_of_getElem? hi)),
    Query.valuesOf_slots_of_nodup layout.name rows.length hkeys _ hi]
  have hplain' := hplain channel (List.mem_of_getElem? hi)
  have hi' : i < channels.length := (List.getElem?_eq_some_iff.mp hi).1
  refine congrArg some (List.ext_getElem (by simp [column]) fun j hj hj' => ?_)
  rw [List.length_map, List.length_range] at hj
  have hj'' : j < (column rows i).length := by rwa [List.length_map] at hj'
  have hvalue := orderedValues_samplePosition layout.name hrect hi' hj
  rw [List.getElem?_eq_getElem hj''] at hvalue
  obtain ⟨row, hrow, hmem⟩ := Python.mem_orderedValues (List.mem_of_getElem? hvalue)
  rw [List.getElem_map, List.getElem_map, List.getElem_range]
  exact valueAt_packed doubles hplain'.1 hplain'.2 hvalue (hholds row hrow _ hmem)

theorem python_packed_integers (float32Bits : Python.Sample F → Option UInt32)
    (layout : Rust.SignalLayout)
    (hholds : ∀ row ∈ rows, ∀ value ∈ row, encoding.format.holds value = true) :
    Python.packSignalSamplesWithMetadata float32Bits (rows.map (·.map .int)) encoding.name
        layout.name = match packedRows rows layout.name encoding.format.write with
      | .error message => .error (.valueError message)
      | .ok bytes => .ok (bytes, rows.length, encoding.name) := by
  refine python_packed float32Bits ?_ ?_ ?_ hholds
  · cases encoding <;> decide
  · cases encoding <;> decide
  · cases layout <;> decide

/-- Of rows of integers in range the clients make the same bytes, which the query API decodes to
the columns of the rows; they refuse rows of no channel, and no rows. -/
theorem packed_decoded (doubles : Doubles F) (float32Bits : Python.Sample F → Option UInt32)
    (encoding : IntegerEncoding) (layout : Rust.SignalLayout) (hkeys : (channels.map (·.key)).Nodup)
    (hplain : ∀ channel ∈ channels, channel.scale = none ∧ channel.offset = none)
    (hrect : ∀ row ∈ rows, row.length = channels.length)
    (hholds : ∀ row ∈ rows, ∀ value ∈ row, encoding.format.holds value = true) :
    if rows = [] ∨ channels = [] then
      ∃ message, Python.packSignalSamplesWithMetadata float32Bits (rows.map (·.map .int))
          encoding.name layout.name = .error (.valueError message) ∧
        rustPacked rows layout encoding = .error (.invalidInput message)
    else
      ∃ bytes values, Python.packSignalSamplesWithMetadata float32Bits (rows.map (·.map .int))
          encoding.name layout.name = .ok (bytes, rows.length, encoding.name) ∧
        rustPacked rows layout encoding =
          .ok ⟨encoding.rust, layout, UInt32.ofNat rows.length, bytes⟩ ∧
        Query.decodeSamples doubles bytes encoding.name layout.name channels rows.length =
          .ok values ∧
        HoldsColumns doubles channels rows values := by
  rw [python_packed_integers float32Bits layout hholds, rustPacked_eq]
  split
  · next hempty =>
    obtain ⟨message, hmessage⟩ := packedRows_empty layout.name encoding.format.write
      (hempty.imp_right List.length_eq_zero_iff.mpr) hrect
    rw [hmessage]
    exact ⟨message, rfl, rfl⟩
  · next hfull =>
    obtain ⟨hrows, hchannels⟩ := not_or.mp hfull
    obtain ⟨values, hdecode, hcolumns⟩ :=
      decodeSamples_packed doubles layout hkeys hplain hrect hholds hrows hchannels
    rw [packedRows_ok layout.name _ hrows (List.length_pos_iff.mpr hchannels) hrect]
    exact ⟨_, values, rfl, rfl, hdecode, hcolumns⟩

theorem packed_decoded_planar :
    let channels : List (Query.Channel Int) :=
      [⟨"x".toList, none, none, none⟩, ⟨"y".toList, none, none, none⟩]
    let rows : List (List Int) := [[1, -2], [-300, 4]]
    ∃ bytes values, Python.packSignalSamplesWithMetadata (F := Int) (fun _ => none)
        (rows.map (·.map .int)) "int16_le".toList "planar".toList =
          .ok (bytes, 2, "int16_le".toList) ∧
      rustPacked rows .planar .int16Le = .ok ⟨.int16Le, .planar, 2, bytes⟩ ∧
      Query.decodeSamples wholeDoubles bytes "int16_le".toList "planar".toList channels 2 =
        .ok values ∧
      HoldsColumns wholeDoubles channels rows values := by
  intro channels rows
  have hkeys : (channels.map (·.key)).Nodup := by decide
  have hholds : ∀ row ∈ rows, ∀ value ∈ row, IntegerEncoding.int16Le.format.holds value = true := by
    decide
  have h := packed_decoded wholeDoubles (fun _ => none) .int16Le .planar hkeys
    (by simp [channels]) (by simp [rows, channels]) hholds
  rwa [if_neg (by simp [rows, channels])] at h

end Aetus
