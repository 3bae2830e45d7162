import Aetus.Clients.Events
import Aetus.EndToEnd.SignalPacking

/-!
Integer samples that the Python client packs from rows or from a numpy array. The row path
packs value by value and checks each, the array path casts the array.
-/

set_option autoImplicit false

namespace Aetus
open Aetus.Base Aetus.Clients Aetus.Clients.Python

inductive IntegerDtype where
  | int8 | int16 | int32 | int64 | uint8 | uint16 | uint32 | uint64
  deriving DecidableEq

namespace IntegerDtype

def kind : IntegerDtype → Char
  | .int8 | .int16 | .int32 | .int64 => 'i'
  | .uint8 | .uint16 | .uint32 | .uint64 => 'u'

def itemsize : IntegerDtype → Nat
  | .int8 | .uint8 => 1
  | .int16 | .uint16 => 2
  | .int32 | .uint32 => 4
  | .int64 | .uint64 => 8

def holds (dtype : IntegerDtype) (value : Int) : Bool :=
  if dtype.kind = 'i' then
    -2 ^ (8 * dtype.itemsize - 1) ≤ value ∧ value < 2 ^ (8 * dtype.itemsize - 1)
  else 0 ≤ value ∧ value < 2 ^ (8 * dtype.itemsize)

end IntegerDtype

structure IntegerArray where
  dtype : IntegerDtype
  columns : Nat
  rows : List (List Int)
  rectangular : ∀ row ∈ rows, row.length = columns
  held : ∀ row ∈ rows, ∀ value ∈ row, dtype.holds value = true

def IntegerArray.ndArray (array : IntegerArray) : NdArray Int :=
  ⟨array.dtype.kind, array.dtype.itemsize, .twoD array.columns array.rows array.rectangular⟩

def IntegerArray.Fits (array : IntegerArray) (encoding : IntegerEncoding) : Prop :=
  ∀ row ∈ array.rows, ∀ value ∈ row, encoding.format.holds value = true

namespace Clients.Python

variable {F E : Type}

/-- The unsafe cast of numpy from integers to integers keeps the low bits. -/
structure Numbers.WrapsIntegers (numbers : Numbers F Int) : Prop where
  cast : ∀ (encoding : IntegerEncoding) (value : Int),
    numbers.cast encoding.format value = some (encoding.format.write value)

/-- `_pack_signal_samples_with_metadata` of samples that look like a numpy array. -/
def packArrayWithMetadata (numbers : Numbers F E) (array : NdArray E)
    (encoding layout : List Char) : Except BuildError (List UInt8 × Nat × List Char) := do
  require ((ENCODING_STRUCT_FORMAT.lookup encoding).isSome || encoding = "auto".toList)
    ("unsupported signal encoding: " ++ String.ofList encoding)
  require (LAYOUTS.contains layout) ("unsupported signal layout: " ++ String.ofList layout)
  packNumpySignalSamples numbers array encoding layout

theorem castAll_write {numbers : Numbers F Int} (hcast : numbers.WrapsIntegers)
    (encoding : IntegerEncoding) (values : List Int) :
    castAll numbers encoding.format values = .ok (values.flatMap encoding.format.write) := by
  simp only [castAll, hcast.cast]
  rw [mapM_eq_ok (g := encoding.format.write) fun value _ => rfl, List.flatMap_def]
  rfl

theorem packedRows_zero {rows : List (List Int)} (layout : List Char) (write : Int → List UInt8)
    (hempty : rows ≠ []) (hrect : ∀ row ∈ rows, row.length = 0) :
    packedRows rows layout write = .error "signal samples must contain at least one channel" := by
  cases rows with
  | nil => exact absurd rfl hempty
  | cons row rows => exact if_pos (hrect row List.mem_cons_self)

/-- The array path writes every integer, in range or not, by its low bits. -/
theorem packArrayWithMetadata_integers {numbers : Numbers F Int} (hcast : numbers.WrapsIntegers)
    (array : IntegerArray) (encoding : IntegerEncoding) (layout : Rust.SignalLayout) :
    packArrayWithMetadata numbers array.ndArray encoding.name layout.name =
      match packedRows array.rows layout.name encoding.format.write with
      | .error message => .error (.refused (.valueError message))
      | .ok bytes => .ok (bytes, array.rows.length, encoding.name) := by
  have hformat : ENCODING_STRUCT_FORMAT.lookup encoding.name = some encoding.format := by
    cases encoding <;> decide
  have hauto : encoding.name ≠ "auto".toList := by cases encoding <;> decide
  have hlayout : LAYOUTS.contains layout.name = true := by cases layout <;> decide
  have hcheck : packArrayWithMetadata numbers array.ndArray encoding.name layout.name =
      packNumpySignalSamples numbers array.ndArray encoding.name layout.name := by
    simp only [packArrayWithMetadata, hformat, Option.isSome_some, Bool.true_or, hlayout, require,
      if_pos]
    rfl
  have hresolved : resolveNumpyEncoding array.ndArray encoding.name = .ok encoding.name :=
    if_neg hauto
  have hbind : ∀ {α β : Type} (a : α) (f : α → Except BuildError β),
      (Except.ok a >>= f) = f a := fun _ _ => rfl
  rw [hcheck, packNumpySignalSamples, hresolved]
  simp only [IntegerArray.ndArray, NdValues.rows, hbind, ENCODING_NUMPY_DTYPE, hformat,
    castAll_write hcast]
  by_cases hempty : array.rows = []
  · rw [hempty]
    rfl
  have hfirst : require (decide (array.rows ≠ [])) "at least one signal sample row is required" =
      .ok () := if_pos (decide_eq_true hempty)
  rw [hfirst, hbind]
  by_cases hcolumns : array.columns = 0
  · rw [packedRows_zero layout.name _ hempty (hcolumns ▸ array.rectangular), hcolumns]
    rfl
  · rw [packedRows_ok layout.name _ hempty (Nat.pos_of_ne_zero hcolumns) array.rectangular]
    have hsecond : require (decide (array.columns ≠ 0))
        "signal samples must contain at least one channel" = .ok () :=
      if_pos (decide_eq_true hcolumns)
    rw [hsecond]
    rfl

end Clients.Python

variable {F : Type}

/-- For samples that fit, the bytes and the count of one path are those of the other, and both
refuse an array of no rows or no columns; samples that do not fit, both refuse. -/
structure PathsAgree (numbers : Numbers F Int) (array : IntegerArray)
    (encoding : IntegerEncoding) (layout : Rust.SignalLayout) : Prop where
  packed : array.Fits encoding → array.rows ≠ [] → array.columns ≠ 0 →
    ∃ bytes,
      packSignalSamplesWithMetadata numbers.float32Bits (array.rows.map (·.map .int))
          encoding.name layout.name = .ok (bytes, array.rows.length, encoding.name) ∧
        packArrayWithMetadata numbers array.ndArray encoding.name layout.name =
          .ok (bytes, array.rows.length, encoding.name)
  empty : array.Fits encoding → array.rows = [] ∨ array.columns = 0 →
    ∃ message,
      packSignalSamplesWithMetadata numbers.float32Bits (array.rows.map (·.map .int))
          encoding.name layout.name = .error (.valueError message) ∧
        packArrayWithMetadata numbers array.ndArray encoding.name layout.name =
          .error (.refused (.valueError message))
  refused : ¬array.Fits encoding →
    (∃ e, packSignalSamplesWithMetadata numbers.float32Bits (array.rows.map (·.map .int))
        encoding.name layout.name = .error e) ∧
      ∃ e, packArrayWithMetadata numbers array.ndArray encoding.name layout.name = .error e

variable {numbers : Numbers F Int} {array : IntegerArray} {encoding : IntegerEncoding}

theorem packArray_ok_of_not_fits (hcast : numbers.WrapsIntegers) (layout : Rust.SignalLayout)
    (hfits : ¬array.Fits encoding) :
    ∃ packed, packArrayWithMetadata numbers array.ndArray encoding.name layout.name =
      .ok packed := by
  simp only [IntegerArray.Fits, not_forall] at hfits
  obtain ⟨row, hrow, value, hvalue, -⟩ := hfits
  have hcolumns : 0 < array.columns := by
    rw [← array.rectangular row hrow]
    exact List.length_pos_of_mem hvalue
  rw [packArrayWithMetadata_integers hcast,
    packedRows_ok layout.name _ (List.ne_nil_of_mem hrow) hcolumns array.rectangular]
  exact ⟨_, rfl⟩

/-- The paths agree on the arrays whose values all fit the encoding, and on no others: the row
path checks each value, the array path stores the low bits of one that does not fit. -/
theorem pathsAgree_iff (hcast : numbers.WrapsIntegers) (array : IntegerArray)
    (encoding : IntegerEncoding) (layout : Rust.SignalLayout) :
    PathsAgree numbers array encoding layout ↔ array.Fits encoding := by
  constructor
  · intro h
    by_contra hfits
    obtain ⟨-, e, he⟩ := h.refused hfits
    obtain ⟨packed, hpacked⟩ := packArray_ok_of_not_fits hcast layout hfits
    rw [he] at hpacked
    cases hpacked
  · intro hfits
    have hrows := python_packed_integers numbers.float32Bits layout hfits
    have harray := packArrayWithMetadata_integers hcast array encoding layout
    refine ⟨fun _ hne hcolumns => ?_, fun _ hempty => ?_, fun h => absurd hfits h⟩
    · rw [packedRows_ok layout.name _ hne (Nat.pos_of_ne_zero hcolumns) array.rectangular]
        at hrows harray
      exact ⟨_, hrows, harray⟩
    · obtain ⟨message, hmessage⟩ :=
        packedRows_empty layout.name encoding.format.write hempty array.rectangular
      rw [hmessage] at hrows harray
      exact ⟨message, hrows, harray⟩

def integerNumbers : Numbers Unit Int where
  float32Bits _ := none
  floatField value := value
  cast
    | .float32, _ => none
    | format, value => some (format.write value)
  cast_length format value bytes h := by
    cases format with
    | float32 => cases h
    | int16 => cases h; exact NumberFormat.length_write _ _
    | uint16 => cases h; exact NumberFormat.length_write _ _
    | int32 => cases h; exact NumberFormat.length_write _ _

theorem integerNumbers_wraps : integerNumbers.WrapsIntegers where
  cast encoding _ := by cases encoding <;> rfl

def int32Column (value : Int) (h : IntegerDtype.int32.holds value = true) : IntegerArray :=
  ⟨.int32, 1, [[value]], by simp, by simpa using h⟩

/-- Two rows of three columns. -/
def int32Rows : IntegerArray :=
  ⟨.int32, 3, [[-7, 0, 300], [-32768, 32767, 5]], by decide, by decide⟩

theorem pathsAgree_iff_rows : PathsAgree integerNumbers int32Rows .int16Le .planar :=
  (pathsAgree_iff integerNumbers_wraps int32Rows .int16Le .planar).mpr
    (by simp [IntegerArray.Fits, int32Rows, IntegerEncoding.format, NumberFormat.holds])

/-- 40000 as an `int16` is stored as -25536. -/
theorem paths_disagree :
    ¬PathsAgree integerNumbers (int32Column 40000 (by decide)) .int16Le .interleaved := by
  intro h
  have hfits : ¬(int32Column 40000 (by decide)).Fits .int16Le := by
    simp [IntegerArray.Fits, int32Column, IntegerEncoding.format, NumberFormat.holds]
  obtain ⟨-, e, he⟩ := h.refused hfits
  have hpacked : packArrayWithMetadata integerNumbers (int32Column 40000 (by decide)).ndArray
      IntegerEncoding.int16Le.name Rust.SignalLayout.interleaved.name =
        .ok (NumberFormat.int16.write (-25536), 1, "int16_le".toList) := rfl
  rw [he] at hpacked
  cases hpacked

end Aetus
