import Aetus.Base.BlockHeap
import Aetus.Firmware.Types

/-!
The telemetry builder of aetus.c over an explicit heap: `append_metric`, the
`aetus_telemetry_add_*` calls and `aetus_telemetry_deinit`.
-/

set_option autoImplicit false

namespace Aetus.Firmware
open Aetus.Base

abbrev Heap := BlockHeap (List UInt8)

def Metric.zero : Metric := ⟨.empty, .empty, .int64 0, 0⟩

/-- `value.blob_data` of a string or bytes metric, unless it is `NULL`. -/
def Metric.blob (m : Metric) : Option Nat :=
  match m.value with
  | .string p => p
  | .bytes p => p
  | _ => none

def blobs (ms : List Metric) : List Nat := ms.filterMap Metric.blob

def Telemetry.zero : Telemetry :=
  ⟨0, 0, 0, List.replicate AETUS_TELEMETRY_INLINE_METRICS Metric.zero, none⟩

def telemetryInit : Telemetry :=
  { Telemetry.zero with capacity := AETUS_TELEMETRY_INLINE_METRICS }

def Telemetry.heapArray (t : Telemetry) : List Metric :=
  match t.heapMetrics with
  | none => []
  | some a => a.slots

def Telemetry.slots (t : Telemetry) : List Metric := t.inlineMetrics ++ t.heapArray

def Telemetry.blocks (t : Telemetry) : List Nat :=
  t.heapMetrics.toList.map MetricArray.block ++ blobs t.slots

def Telemetry.setSlot (t : Telemetry) (i : Nat) (m : Metric) : Telemetry :=
  if i < AETUS_TELEMETRY_INLINE_METRICS then
    { t with inlineMetrics := t.inlineMetrics.set i m }
  else
    { t with heapMetrics := t.heapMetrics.map fun a =>
        { a with slots := a.slots.set (i - AETUS_TELEMETRY_INLINE_METRICS) m } }

def freeBlobs : List Metric → Heap → Heap
  | [], h => h
  | m :: ms, h =>
    match m.blob with
    | some p => freeBlobs ms (h.free p)
    | none => freeBlobs ms h

def telemetryDeinit (t : Telemetry) (h : Heap) : Telemetry × Heap :=
  let count := t.metricCount
  let h := freeBlobs (t.inlineMetrics.take count) h
  match t.heapMetrics with
  | none => (.zero, h)
  | some a =>
    (.zero, (freeBlobs (a.slots.take (count - AETUS_TELEMETRY_INLINE_METRICS)) h).free a.block)

abbrev BuilderResult := Except Failure Unit × Telemetry × Heap

def checkMetric (t : Telemetry) (key unit : Option CString) : Except Failure Unit := do
  espReturnOnFalse (match key with | none => false | some k => k ≠ .empty)
    .invalidArg "metric key is required"
  espReturnOnFalse (stringFits key AETUS_METRIC_KEY_MAX) .invalidArg "metric key too long"
  espReturnOnFalse (stringFits unit AETUS_METRIC_UNIT_MAX) .invalidArg "metric unit too long"
  espReturnOnFalse (t.metricCount < AETUS_MAX_METRICS) .invalidArg "too many metrics"

theorem checkMetric_eq_ok {t : Telemetry} {key unit : Option CString} :
    checkMetric t key unit = .ok () ↔ (∃ k, key = some k ∧ k ≠ .empty) ∧
      stringFits key AETUS_METRIC_KEY_MAX = true ∧ stringFits unit AETUS_METRIC_UNIT_MAX = true ∧
      t.metricCount < AETUS_MAX_METRICS := by
  simp only [checkMetric, bind_eq_ok, espReturnOnFalse_eq_ok, decide_eq_true_eq]
  refine and_congr_left fun _ => ?_
  cases key <;> simp

def reserveHeapMetrics (inIsr : Bool) (t : Telemetry) (h : Heap) : BuilderResult :=
  if AETUS_TELEMETRY_INLINE_METRICS ≤ t.metricCount ∧ t.heapMetrics = none then
    if inIsr then
      (.error ⟨.invalidArg, "heap metrics cannot be allocated from ISR context"⟩, t, h)
    else
      match h.alloc [] with
      | (none, h) => (.error ⟨.noMem, "failed to allocate heap metrics"⟩, t, h)
      | (some p, h) =>
        (.ok (), { t with heapMetrics := some ⟨p, List.replicate heapSlots Metric.zero⟩,
                          capacity := AETUS_MAX_METRICS }, h)
  else (.ok (), t, h)

def blankMetric (key unit : Option CString) : Metric :=
  { Metric.zero with key := copyString .empty AETUS_METRIC_KEY_MAX key,
                     unit := copyString .empty AETUS_METRIC_UNIT_MAX unit }

/-- On success the new metric is the slot before the new `metric_count`. -/
def appendMetric (inIsr : Bool) (t : Telemetry) (h : Heap) (key unit : Option CString) :
    BuilderResult :=
  match checkMetric t key unit with
  | .error e => (.error e, t, h)
  | .ok () =>
    match reserveHeapMetrics inIsr t h with
    | (.error e, t, h) => (.error e, t, h)
    | (.ok (), t, h) =>
      (.ok (), { t.setSlot t.metricCount (blankMetric key unit) with
                 metricCount := t.metricCount + 1 }, h)

def addScalar (value : MetricValue) (inIsr : Bool) (t : Telemetry) (h : Heap)
    (key unit : Option CString) : BuilderResult :=
  match appendMetric inIsr t h key unit with
  | (.error e, t, h) => (.error e, t, h)
  | (.ok (), t, h) =>
    (.ok (), t.setSlot (t.metricCount - 1) { blankMetric key unit with value := value }, h)

def telemetryAddInt64 (value : Int64) := addScalar (.int64 value)
def telemetryAddDouble (bits : UInt64) := addScalar (.double bits)
def telemetryAddBool (value : Bool) := addScalar (.bool value)

/-- Bytes the caller passes by pointer; with a terminator they fit the address space. -/
structure CBuffer where
  bytes : List UInt8
  fits : bytes.length + 1 < 2 ^ 32

/-- A pointer with the size passed beside it: `NULL`, or a buffer of exactly that size. -/
inductive BlobArg where
  | null (size : UInt32)
  | buffer (b : CBuffer)

def BlobArg.size : BlobArg → UInt32
  | .null size => size
  | .buffer b => UInt32.ofNat b.bytes.length

def BlobArg.bytes : BlobArg → List UInt8
  | .null _ => []
  | .buffer b => b.bytes

def BlobArg.valid : BlobArg → Bool
  | .null size => size = 0
  | .buffer _ => true

/-- `metric_count--` and the `memset` of the slot after a refused blob. -/
def undoAppend (t : Telemetry) : Telemetry :=
  { t.setSlot (t.metricCount - 1) .zero with metricCount := t.metricCount - 1 }

def telemetryAddStringN (value : BlobArg) (inIsr : Bool) (t : Telemetry) (h : Heap)
    (key unit : Option CString) : BuilderResult :=
  if value.valid then
    match appendMetric inIsr t h key unit with
    | (.error e, t, h) => (.error e, t, h)
    | (.ok (), t, h) =>
      match h.alloc (value.bytes ++ [0]) with
      | (none, h) => (.error ⟨.noMem, "string blob alloc failed"⟩, undoAppend t, h)
      | (some p, h) =>
        (.ok (), t.setSlot (t.metricCount - 1)
          { blankMetric key unit with value := .string (some p), blobSize := value.size }, h)
  else (.error ⟨.invalidArg, "string value is required"⟩, t, h)

/-- The part of the buffer that `strlen` measures. -/
def CBuffer.text (b : CBuffer) : CBuffer where
  bytes := b.bytes.takeWhile (· ≠ 0)
  fits := by
    have hle := (List.takeWhile_sublist (l := b.bytes) (· ≠ (0 : UInt8))).length_le
    have hfits := b.fits
    omega

def telemetryAddString (value : Option CBuffer) (inIsr : Bool) (t : Telemetry) (h : Heap)
    (key unit : Option CString) : BuilderResult :=
  match value with
  | none => (.error ⟨.invalidArg, "string value is required"⟩, t, h)
  | some b => telemetryAddStringN (.buffer b.text) inIsr t h key unit

def telemetryAddBytes (value : BlobArg) (inIsr : Bool) (t : Telemetry) (h : Heap)
    (key unit : Option CString) : BuilderResult :=
  if value.valid then
    match appendMetric inIsr t h key unit with
    | (.error e, t, h) => (.error e, t, h)
    | (.ok (), t, h) =>
      if 0 < value.size then
        match h.alloc value.bytes with
        | (none, h) => (.error ⟨.noMem, "bytes blob alloc failed"⟩, undoAppend t, h)
        | (some p, h) =>
          (.ok (), t.setSlot (t.metricCount - 1)
            { blankMetric key unit with value := .bytes (some p), blobSize := value.size }, h)
      else
        (.ok (), t.setSlot (t.metricCount - 1)
          { blankMetric key unit with value := .bytes none, blobSize := value.size }, h)
  else (.error ⟨.invalidArg, "bytes value is required"⟩, t, h)

inductive BuilderCall where
  | setTimestamp (timestampNs : UInt64)
  | addInt64 (value : Int64) (inIsr : Bool) (key unit : Option CString)
  | addDouble (bits : UInt64) (inIsr : Bool) (key unit : Option CString)
  | addBool (value : Bool) (inIsr : Bool) (key unit : Option CString)
  | addString (value : Option CBuffer) (inIsr : Bool) (key unit : Option CString)
  | addStringN (value : BlobArg) (inIsr : Bool) (key unit : Option CString)
  | addBytes (value : BlobArg) (inIsr : Bool) (key unit : Option CString)
  | deinit

def callBuilder (t : Telemetry) (h : Heap) : BuilderCall → Telemetry × Heap
  | .setTimestamp ns => ({ t with timestampNs := ns }, h)
  | .addInt64 v inIsr key unit => (telemetryAddInt64 v inIsr t h key unit).2
  | .addDouble v inIsr key unit => (telemetryAddDouble v inIsr t h key unit).2
  | .addBool v inIsr key unit => (telemetryAddBool v inIsr t h key unit).2
  | .addString v inIsr key unit => (telemetryAddString v inIsr t h key unit).2
  | .addStringN v inIsr key unit => (telemetryAddStringN v inIsr t h key unit).2
  | .addBytes v inIsr key unit => (telemetryAddBytes v inIsr t h key unit).2
  | .deinit => telemetryDeinit t h

inductive Built : Telemetry → Heap → Prop where
  | init (h : Heap) : Built telemetryInit h
  | call {t : Telemetry} {h : Heap} (c : BuilderCall) :
      Built t h → Built (callBuilder t h c).1 (callBuilder t h c).2
  | environment {t : Telemetry} {h k : Heap} :
      Built t h → h.Keeps k t.blocks → Built t k

end Aetus.Firmware
