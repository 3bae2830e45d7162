import Aetus.Base.Grid
import Aetus.Base.Lists
import Aetus.Base.LittleEndian

/-!
Rows of channel samples as the bytes of a signal frame, packed by the Python client
(client.py) and by the Rust client (lib.rs).
-/

set_option autoImplicit false

namespace Aetus.Clients
open Aetus.Base

namespace Python

inductive Sample (F : Type) where
  | int (value : Int)
  | float (value : F)

inductive PackError where
  | valueError (message : String)
  | structError
  | overflowError
  deriving DecidableEq

def ENCODING_STRUCT_FORMAT : List (List Char × NumberFormat) :=
  [("float32_le".toList, .float32), ("int16_le".toList, .int16), ("uint16_le".toList, .uint16),
    ("int32_le".toList, .int32)]

def LAYOUTS : List (List Char) := ["interleaved".toList, "planar".toList]

variable {F : Type}

/-- `struct.Struct(format).pack(value)`. The bits of a number as a float32, none when it is too
large for one, are the language's. -/
def pack (float32Bits : Sample F → Option UInt32) :
    NumberFormat → Sample F → Except PackError (List UInt8)
  | .float32, value =>
    match float32Bits value with
    | none => .error .overflowError
    | some bits => .ok (leBytes 4 bits.toNat)
  | format, .int value =>
    if format.holds value = true then .ok (format.write value) else .error .structError
  | _, .float _ => .error .structError

def orderedValues {α : Type} (samples : List (List α)) (layout : List Char) (channelCount : Nat) :
    List α :=
  if layout = "interleaved".toList then samples.flatMap fun row => row
  else (List.range channelCount).flatMap fun channelIndex => samples.filterMap (·[channelIndex]?)

def packSignalSamplesWithMetadata (float32Bits : Sample F → Option UInt32)
    (samples : List (List (Sample F))) (encoding layout : List Char) :
    Except PackError (List UInt8 × Nat × List Char) :=
  if ENCODING_STRUCT_FORMAT.lookup encoding = none ∧ encoding ≠ "auto".toList then
    .error (.valueError ("unsupported signal encoding: " ++ String.ofList encoding))
  else if LAYOUTS.contains layout = false then
    .error (.valueError ("unsupported signal layout: " ++ String.ofList layout))
  else
    match samples with
    | [] => .error (.valueError "at least one signal sample row is required")
    | row :: rows =>
      let resolvedEncoding := if encoding = "auto".toList then "float32_le".toList else encoding
      let channelCount := row.length
      if channelCount = 0 then
        .error (.valueError "signal samples must contain at least one channel")
      else if (row :: rows).any (fun row => row.length != channelCount) = true then
        .error (.valueError "all signal sample rows must have the same channel count")
      else
        match ENCODING_STRUCT_FORMAT.lookup resolvedEncoding with
        | none => .error (.valueError ("unsupported signal encoding: " ++ String.ofList encoding))
        | some format =>
          match (orderedValues (row :: rows) layout channelCount).mapM (pack float32Bits format) with
          | .error e => .error e
          | .ok packed => .ok (packed.flatten, (row :: rows).length, resolvedEncoding)

theorem pack_int (float32Bits : Sample F → Option UInt32) {format : NumberFormat} {value : Int}
    (h : format.holds value = true) :
    pack float32Bits format (.int value) = .ok (format.write value) := by
  cases format with
  | float32 => cases h
  | int16 => exact if_pos h
  | uint16 => exact if_pos h
  | int32 => exact if_pos h

theorem orderedValues_map {α β : Type} (f : α → β) (samples : List (List α)) (layout : List Char)
    (channelCount : Nat) : orderedValues (samples.map (·.map f)) layout channelCount =
      (orderedValues samples layout channelCount).map f := by
  unfold orderedValues
  split
  · rw [List.flatMap_map, List.map_flatMap]
  · rw [List.map_flatMap]
    refine List.flatMap_congr fun channelIndex _ => ?_
    rw [List.filterMap_map, List.map_filterMap]
    exact List.filterMap_congr fun row _ => List.getElem?_map

theorem mem_orderedValues {α : Type} {samples : List (List α)} {layout : List Char}
    {channelCount : Nat} {value : α} (h : value ∈ orderedValues samples layout channelCount) :
    ∃ row ∈ samples, value ∈ row := by
  unfold orderedValues at h
  split at h
  · exact List.mem_flatMap.mp h
  · obtain ⟨channelIndex, -, hcolumn⟩ := List.mem_flatMap.mp h
    obtain ⟨row, hrow, hvalue⟩ := List.mem_filterMap.mp hcolumn
    exact ⟨row, hrow, List.mem_of_getElem? hvalue⟩

theorem length_filterMap {α : Type} {rows : List (List α)} {channelCount : Nat}
    (hrows : ∀ row ∈ rows, row.length = channelCount) :
    ∀ i ∈ List.range channelCount, (rows.filterMap (·[i]?)).length = rows.length := by
  intro i hi
  rw [List.length_filterMap_eq_countP, List.countP_eq_length]
  intro row hrow
  simpa [hrows row hrow] using hi

theorem length_orderedValues {α : Type} {rows : List (List α)} {channelCount : Nat}
    (layout : List Char) (hrows : ∀ row ∈ rows, row.length = channelCount) :
    (orderedValues rows layout channelCount).length = rows.length * channelCount := by
  unfold orderedValues
  split
  · exact length_flatMap_of_length hrows
  · rw [length_flatMap_of_length (length_filterMap hrows), List.length_range, Nat.mul_comm]

theorem length_of_pack {float32Bits : Sample F → Option UInt32} {format : NumberFormat}
    {value : Sample F} {bytes : List UInt8} (h : pack float32Bits format value = .ok bytes) :
    bytes.length = format.size := by
  unfold pack at h
  split at h
  · split at h
    · cases h
    · cases h
      exact length_leBytes 4 _
  · split at h
    · cases h
      exact NumberFormat.length_write _ _
    · cases h
  · cases h

theorem length_flatten_of_mapM {ε α : Type} {f : α → Except ε (List UInt8)} {m : Nat}
    {values : List α} {parts : List (List UInt8)} (h : values.mapM f = .ok parts)
    (hm : ∀ value bytes, f value = .ok bytes → bytes.length = m) :
    parts.flatten.length = values.length * m := by
  have hpart : ∀ part ∈ parts, part.length = m := by
    intro part hpart
    obtain ⟨value, -, hvalue⟩ := (mem_of_mapM h).mp hpart
    exact hm value part hvalue
  have hflat := length_flatMap_of_length (g := id) hpart
  rw [List.flatMap_id] at hflat
  rw [hflat, (mapM_ok h).length_eq]

theorem packSignalSamplesWithMetadata_ok {float32Bits : Sample F → Option UInt32}
    {samples : List (List (Sample F))} {encoding layout resolved : List Char}
    {packed : List UInt8} {count : Nat}
    (h : packSignalSamplesWithMetadata float32Bits samples encoding layout =
      .ok (packed, count, resolved)) :
    samples ≠ [] ∧ count = samples.length ∧
      ∃ format, ENCODING_STRUCT_FORMAT.lookup resolved = some format ∧
        packed.length = samples.length * samples.head?.elim 0 List.length * format.size := by
  unfold packSignalSamplesWithMetadata at h
  split at h
  · cases h
  · split at h
    · cases h
    · cases samples with
      | nil => cases h
      | cons row rows =>
        dsimp only at h
        split at h
        · cases h
        · split at h
          · cases h
          · next hragged =>
            split at h
            · cases h
            · next format hformat =>
              split at h
              · cases h
              · next parts hparts =>
                cases h
                have hrows : ∀ other ∈ row :: rows, other.length = row.length := by
                  simpa using hragged
                refine ⟨List.cons_ne_nil row rows, rfl, format, hformat, ?_⟩
                rw [length_flatten_of_mapM hparts fun _ _ => length_of_pack,
                  length_orderedValues layout hrows]
                rfl

end Python

namespace Rust

inductive Error where
  | invalidInput (message : String)
  deriving DecidableEq

inductive SignalEncoding where
  | float32Le
  | int16Le
  | uint16Le
  | int32Le
  deriving DecidableEq

inductive SignalLayout where
  | interleaved
  | planar
  deriving DecidableEq

structure PackedSignalSamples where
  encoding : SignalEncoding
  layout : SignalLayout
  sampleCount : UInt32
  bytes : List UInt8
  deriving DecidableEq

def packSignalSamples {T : Type} (samples : List (List T)) (encoding : SignalEncoding)
    (layout : SignalLayout) (writeValue : T → List UInt8 → List UInt8) :
    Except Error PackedSignalSamples :=
  match samples with
  | [] => .error (.invalidInput "at least one signal sample row is required")
  | row :: rows =>
    let channelCount := row.length
    if channelCount = 0 then
      .error (.invalidInput "signal samples must contain at least one channel")
    else if (row :: rows).any (fun row => row.length != channelCount) = true then
      .error (.invalidInput "all signal sample rows must have the same channel count")
    else
      let bytes := match layout with
        | .interleaved => (row :: rows).foldl (fun bytes row =>
            row.foldl (fun bytes value => writeValue value bytes) bytes) []
        | .planar => (List.range channelCount).foldl (fun bytes channelIndex =>
            (row :: rows).foldl (fun bytes row => (row[channelIndex]?).elim bytes (writeValue · bytes))
              bytes) []
      .ok ⟨encoding, layout, UInt32.ofNat (row :: rows).length, bytes⟩

/-- An `f32` by its bits. -/
def packSignalSamplesF32 (samples : List (List UInt32)) (layout : SignalLayout) :
    Except Error PackedSignalSamples :=
  packSignalSamples samples .float32Le layout fun value bytes => bytes ++ leBytes 4 value.toNat

def packSignalSamplesI16 (samples : List (List Int16)) (layout : SignalLayout) :
    Except Error PackedSignalSamples :=
  packSignalSamples samples .int16Le layout fun value bytes =>
    bytes ++ leBytes 2 value.toUInt16.toNat

def packSignalSamplesU16 (samples : List (List UInt16)) (layout : SignalLayout) :
    Except Error PackedSignalSamples :=
  packSignalSamples samples .uint16Le layout fun value bytes => bytes ++ leBytes 2 value.toNat

def packSignalSamplesI32 (samples : List (List Int32)) (layout : SignalLayout) :
    Except Error PackedSignalSamples :=
  packSignalSamples samples .int32Le layout fun value bytes =>
    bytes ++ leBytes 4 value.toUInt32.toNat

end Rust

def packedRows {α : Type} (samples : List (List α)) (layout : List Char) (write : α → List UInt8) :
    Except String (List UInt8) :=
  match samples with
  | [] => .error "at least one signal sample row is required"
  | row :: rows =>
    if row.length = 0 then .error "signal samples must contain at least one channel"
    else if (row :: rows).any (fun other => other.length != row.length) = true then
      .error "all signal sample rows must have the same channel count"
    else .ok ((Python.orderedValues (row :: rows) layout row.length).flatMap write)

theorem any_length_map {α β : Type} (f : α → β) (samples : List (List α)) (channelCount : Nat) :
    (samples.map (·.map f)).any (fun row => row.length != channelCount) =
      samples.any fun row => row.length != channelCount := by
  rw [List.any_map]
  refine congrArg (List.any samples) (funext fun row => ?_)
  rw [Function.comp, List.length_map]

theorem packedRows_map {α β : Type} (f : α → β) (samples : List (List α)) (layout : List Char)
    (write : β → List UInt8) : packedRows (samples.map (·.map f)) layout write =
      packedRows samples layout fun value => write (f value) := by
  cases samples with
  | nil => rfl
  | cons row rows =>
    have hordered := Python.orderedValues_map f (row :: rows) layout row.length
    have hany := any_length_map f (row :: rows) row.length
    rw [List.map_cons] at hordered hany ⊢
    simp only [packedRows, List.length_map]
    rw [hany, hordered, List.flatMap_map]

theorem python_packed {F : Type} (float32Bits : Python.Sample F → Option UInt32)
    {samples : List (List Int)} {encoding layout : List Char} {format : NumberFormat}
    (hencoding : Python.ENCODING_STRUCT_FORMAT.lookup encoding = some format)
    (hauto : encoding ≠ "auto".toList) (hlayout : Python.LAYOUTS.contains layout = true)
    (hholds : ∀ row ∈ samples, ∀ value ∈ row, format.holds value = true) :
    Python.packSignalSamplesWithMetadata float32Bits (samples.map (·.map .int)) encoding layout =
      match packedRows samples layout format.write with
      | .error message => .error (.valueError message)
      | .ok bytes => .ok (bytes, samples.length, encoding) := by
  have hknown : ¬(Python.ENCODING_STRUCT_FORMAT.lookup encoding = none ∧ encoding ≠ "auto".toList) :=
    fun h => by rw [h.1] at hencoding; cases hencoding
  unfold Python.packSignalSamplesWithMetadata
  rw [if_neg hknown, if_neg (by rw [hlayout]; exact Bool.noConfusion)]
  cases samples with
  | nil => rfl
  | cons row rows =>
    have hpack : (Python.orderedValues (row :: rows) layout row.length).mapM
        (fun value => Python.pack float32Bits format (.int value)) =
          .ok ((Python.orderedValues (row :: rows) layout row.length).map format.write) := by
      refine mapM_eq_ok fun value hvalue => ?_
      obtain ⟨r, hr, hmem⟩ := Python.mem_orderedValues hvalue
      exact Python.pack_int float32Bits (hholds r hr value hmem)
    have hpacked : (Python.orderedValues ((row :: rows).map (·.map Python.Sample.int)) layout
        row.length).mapM (Python.pack float32Bits format) =
          .ok ((Python.orderedValues (row :: rows) layout row.length).map format.write) := by
      rw [Python.orderedValues_map, List.mapM_map]
      exact hpack
    have hany := any_length_map (Python.Sample.int (F := F)) (row :: rows) row.length
    rw [List.map_cons] at hpacked hany ⊢
    simp only [packedRows, if_neg hauto, hencoding, List.length_map, List.length_cons]
    rw [hany, hpacked]
    by_cases hempty : row.length = 0
    · rw [if_pos hempty, if_pos hempty]
    · rw [if_neg hempty, if_neg hempty]
      by_cases hragged : (row :: rows).any (fun other => other.length != row.length) = true
      · rw [if_pos hragged, if_pos hragged]
      · rw [if_neg hragged, if_neg hragged, List.flatMap_def]

def Rust.SignalLayout.name : Rust.SignalLayout → List Char
  | .interleaved => "interleaved".toList
  | .planar => "planar".toList

theorem foldl_column {α : Type} (toLeBytes : α → List UInt8) (rows : List (List α))
    (channelIndex : Nat) (bytes : List UInt8) :
    rows.foldl (fun bytes row => (row[channelIndex]?).elim bytes (bytes ++ toLeBytes ·)) bytes =
      bytes ++ (rows.filterMap (·[channelIndex]?)).flatMap toLeBytes := by
  induction rows generalizing bytes with
  | nil => exact (List.append_nil bytes).symm
  | cons row rows ih =>
    rw [List.foldl_cons, ih, List.filterMap_cons]
    cases row[channelIndex]? with
    | none => rfl
    | some value => rw [Option.elim_some, List.flatMap_cons, List.append_assoc]

theorem orderedValues_interleaved {α : Type} (toLeBytes : α → List UInt8) (rows : List (List α))
    (channelCount : Nat) :
    rows.foldl (fun bytes row => row.foldl (fun bytes value => bytes ++ toLeBytes value) bytes) [] =
      (Python.orderedValues rows "interleaved".toList channelCount).flatMap toLeBytes := by
  rw [Python.orderedValues, if_pos rfl, ← List.foldl_flatMap, List.foldl_append_eq_append,
    List.nil_append]
  exact List.flatMap_def.symm

theorem orderedValues_planar {α : Type} (toLeBytes : α → List UInt8) (rows : List (List α))
    (channelCount : Nat) :
    (List.range channelCount).foldl (fun bytes channelIndex => rows.foldl (fun bytes row =>
        (row[channelIndex]?).elim bytes (bytes ++ toLeBytes ·)) bytes) [] =
      (Python.orderedValues rows "planar".toList channelCount).flatMap toLeBytes := by
  simp only [foldl_column]
  rw [Python.orderedValues, if_neg (by decide), List.foldl_append_eq_append, List.nil_append,
    ← List.flatMap_def, List.flatMap_assoc]

theorem rust_packed {T : Type} (samples : List (List T)) (encoding : Rust.SignalEncoding)
    (layout : Rust.SignalLayout) (toLeBytes : T → List UInt8) :
    Rust.packSignalSamples samples encoding layout (fun value bytes => bytes ++ toLeBytes value) =
      match packedRows samples layout.name toLeBytes with
      | .error message => .error (.invalidInput message)
      | .ok bytes => .ok ⟨encoding, layout, UInt32.ofNat samples.length, bytes⟩ := by
  cases samples with
  | nil => rfl
  | cons row rows =>
    unfold Rust.packSignalSamples packedRows
    by_cases hempty : row.length = 0
    · simp only [if_pos hempty]
    · by_cases hragged : (row :: rows).any (fun other => other.length != row.length) = true
      · simp only [if_neg hempty, if_pos hragged]
      · simp only [if_neg hempty, if_neg hragged]
        cases layout with
        | interleaved =>
          exact congrArg Except.ok (congrArg (Rust.PackedSignalSamples.mk encoding _ _)
            (orderedValues_interleaved toLeBytes (row :: rows) row.length))
        | planar =>
          exact congrArg Except.ok (congrArg (Rust.PackedSignalSamples.mk encoding _ _)
            (orderedValues_planar toLeBytes (row :: rows) row.length))

end Aetus.Clients
