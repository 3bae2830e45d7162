import Aetus.Clients.SignalSamples
import Aetus.Ingest.Normalize

/-!
The events that the Python client (client.py) and the Rust client (lib.rs) build, as the
message that the server reads.
-/

set_option autoImplicit false

namespace Aetus.Clients
open Aetus.Base Aetus.Ingest

deriving instance DecidableEq for
  MetricValue, Metric, SignalChannel, SignalFrame, TelemetryPayload, Body, IngestEvent

namespace Python

/-- What a builder raises: an error of the client itself, of a message field or of numpy. -/
inductive BuildError where
  | refused (e : PackError)
  | typeError (message : String)
  | outOfRange (value : Int)
  | cast
  deriving DecidableEq

def require (condition : Bool) (message : String) : Except BuildError Unit :=
  if condition then .ok () else .error (.refused (.valueError message))

@[simp] theorem require_eq_ok {condition : Bool} {message : String} {u : Unit} :
    require condition message = .ok u ↔ condition = true := by
  cases condition <;> simp [require]

/-- The assignment of an `int` to a `uint32` field. -/
def uint32Field (value : Int) : Except BuildError UInt32 :=
  if 0 ≤ value ∧ value < 2 ^ 32 then .ok (UInt32.ofNat value.toNat) else .error (.outOfRange value)

def uint64Field (value : Int) : Except BuildError UInt64 :=
  if 0 ≤ value ∧ value < 2 ^ 64 then .ok (UInt64.ofNat value.toNat) else .error (.outOfRange value)

def int32Field (value : Int) : Except BuildError Int32 :=
  if -2 ^ 31 ≤ value ∧ value < 2 ^ 31 then .ok (Int32.ofInt value) else .error (.outOfRange value)

def int64Field (value : Int) : Except BuildError Int64 :=
  if -2 ^ 63 ≤ value ∧ value < 2 ^ 63 then .ok (Int64.ofInt value) else .error (.outOfRange value)

theorem uint32Field_ok {value : Int} {n : UInt32} (h : uint32Field value = .ok n) :
    0 ≤ value ∧ n.toNat = value.toNat := by
  unfold uint32Field at h
  split at h
  · next hrange =>
    cases h
    rw [UInt32.toNat_ofNat']
    omega
  · cases h

theorem uint64Field_ok {value : Int} {n : UInt64} (h : uint64Field value = .ok n) :
    0 ≤ value ∧ n.toNat = value.toNat := by
  unfold uint64Field at h
  split at h
  · next hrange =>
    cases h
    rw [UInt64.toNat_ofNat']
    omega
  · cases h

structure EventArgs where
  deviceId : List Char
  sequence : Int
  bootId : List Char
  firmwareVersion : Int
  uptimeMs : Int
  timestampNs : Option Int
  schemaVersion : Int

def baseEvent (args : EventArgs) (eventType : Int32) : Except BuildError IngestEvent := do
  require (args.deviceId ≠ []) "device_id is required"
  require (args.bootId ≠ []) "boot_id is required"
  require (0 ≤ args.sequence) "sequence must be non-negative"
  let schemaVersion ← uint32Field args.schemaVersion
  let sequence ← uint64Field args.sequence
  let firmwareVersion ← uint32Field args.firmwareVersion
  let uptimeMs ← uint64Field args.uptimeMs
  let timestampNs ← uint64Field (args.timestampNs.getD 0)
  return { schemaVersion := schemaVersion, deviceId := args.deviceId, sequence := sequence,
           eventType := eventType, bootId := args.bootId, firmwareVersion := firmwareVersion,
           uptimeMs := uptimeMs, timestampNs := timestampNs, body := none }

/-- What the language and numpy make of numbers: the bits of a number as a float32, the value
that a `float` field keeps, and the bytes of an array element of type `E` in another dtype. -/
structure Numbers (F E : Type) where
  float32Bits : Sample F → Option UInt32
  floatField : Double → Double
  cast : NumberFormat → E → Option (List UInt8)
  cast_length : ∀ format e bytes, cast format e = some bytes → bytes.length = format.size

inductive Scalar where
  | bool (value : Bool)
  | int (value : Int)
  | float (value : Double)
  | str (value : List Char)
  | bytes (value : List UInt8)
  | bytearray (value : List UInt8)
  | other (typeName : String)

def metric (key : List Char) (value : Scalar) (unit : List Char) : Except BuildError Metric := do
  require (key ≠ []) "metric key is required"
  match value with
  | .bool value => return ⟨key, some (.bool value), unit⟩
  | .int value => do
    let value ← int64Field value
    return ⟨key, some (.int value), unit⟩
  | .float value => return ⟨key, some (.double value), unit⟩
  | .str value => return ⟨key, some (.string value), unit⟩
  | .bytes value => return ⟨key, some (.bytes value), unit⟩
  | .bytearray value => return ⟨key, some (.bytes value), unit⟩
  | .other typeName => .error (.typeError ("unsupported metric value type: " ++ typeName))

inductive MetricInput where
  | proto (item : Metric)
  | pair (key : List Char) (value : Scalar)
  | triple (key : List Char) (value : Scalar) (unit : List Char)
  | otherTuple

def coerceMetric : MetricInput → Except BuildError Metric
  | .proto item => .ok item
  | .pair key value => metric key value []
  | .triple key value unit => metric key value unit
  | .otherTuple =>
    .error (.refused (.valueError "metric tuples must be (key, value) or (key, value, unit)"))

def buildMetricEvent (args : EventArgs) (metrics : List MetricInput) :
    Except BuildError IngestEvent := do
  let event ← baseEvent args EVENT_TYPE_TELEMETRY
  let metrics ← metrics.mapM coerceMetric
  require (metrics ≠ []) "at least one metric is required"
  return { event with body := some (.telemetry (some (.metricSet metrics))) }

def DEVICE_STATUS_TO_PROTO : List (List Char × Int32) :=
  [("online".toList, 1), ("degraded".toList, 2), ("offline".toList, 3)]

def SEVERITY_TO_PROTO : List (List Char × Int32) :=
  [("info".toList, 1), ("warn".toList, 2), ("error".toList, 3), ("critical".toList, 4)]

structure StatusArgs where
  status : List Char
  rssi : Int
  freeHeap : Int
  rebootReason : List Char

def buildStatusEvent (args : EventArgs) (status : StatusArgs) : Except BuildError IngestEvent :=
  match DEVICE_STATUS_TO_PROTO.lookup status.status with
  | none => .error (.refused (.valueError
      ("unsupported device status: " ++ String.ofList status.status)))
  | some value => do
    let event ← baseEvent args EVENT_TYPE_STATUS
    let rssi ← int32Field status.rssi
    let freeHeap ← uint32Field status.freeHeap
    return { event with body := some (.status value rssi freeHeap status.rebootReason) }

structure AlertArgs where
  code : List Char
  severity : List Char
  message : List Char

def buildAlertEvent (args : EventArgs) (alert : AlertArgs) : Except BuildError IngestEvent :=
  match SEVERITY_TO_PROTO.lookup alert.severity with
  | none => .error (.refused (.valueError
      ("unsupported severity: " ++ String.ofList alert.severity)))
  | some value => do
    let event ← baseEvent args EVENT_TYPE_ALERT
    return { event with body := some (.alert alert.code value alert.message) }

structure SignalChannelSpec where
  key : List Char
  unit : List Char
  scale : Option Double
  offset : Option Double

def channel (key unit : List Char) (scale offset : Option Double) :
    Except BuildError SignalChannelSpec := do
  require (key ≠ []) "signal channel key is required"
  return ⟨key, unit, scale, offset⟩

inductive ChannelInput where
  | spec (item : SignalChannelSpec)
  | str (key : List Char)

def ChannelInput.asSpec : ChannelInput → SignalChannelSpec
  | .spec item => item
  | .str key => ⟨key, [], none, none⟩

variable {F E : Type}

def coerceChannel (numbers : Numbers F E) (item : ChannelInput) : SignalChannel :=
  let spec := item.asSpec
  ⟨spec.key, spec.unit, spec.scale.map numbers.floatField, spec.offset.map numbers.floatField⟩

inductive NdValues (E : Type) where
  | oneD (values : List E)
  | twoD (columns : Nat) (rows : List (List E)) (rectangular : ∀ row ∈ rows, row.length = columns)
  | other (ndim : Nat)

/-- What `_looks_like_numpy_array` tells from a list: an array with its dtype, or a scalar. -/
structure NdArray (E : Type) where
  kind : Char
  itemsize : Nat
  values : NdValues E

def inferNumpySignalEncoding (kind : Char) (itemsize : Nat) : Except BuildError (List Char) :=
  if kind = 'f' ∧ itemsize = 4 then .ok "float32_le".toList
  else if kind = 'f' ∧ itemsize = 8 then .ok "float32_le".toList
  else if kind = 'i' ∧ itemsize = 2 then .ok "int16_le".toList
  else if kind = 'u' ∧ itemsize = 2 then .ok "uint16_le".toList
  else if kind = 'i' ∧ itemsize = 4 then .ok "int32_le".toList
  else .error (.refused (.valueError "unsupported signal ndarray dtype"))

/-- The encoding that `"auto"` stands for where the samples are an array. -/
def resolveNumpyEncoding (array : NdArray E) (encoding : List Char) :
    Except BuildError (List Char) :=
  if encoding = "auto".toList then inferNumpySignalEncoding array.kind array.itemsize
  else .ok encoding

def ENCODING_NUMPY_DTYPE : List (List Char × NumberFormat) := ENCODING_STRUCT_FORMAT

def NdValues.rows : NdValues E → Except BuildError (List (List E) × Nat)
  | .oneD values => .ok (values.map fun value => [value], 1)
  | .twoD columns rows _ => .ok (rows, columns)
  | .other _ => .error (.refused (.valueError "signal ndarray samples must be 1D or 2D"))

def castAll (numbers : Numbers F E) (format : NumberFormat) (values : List E) :
    Except BuildError (List UInt8) := do
  let parts ← values.mapM fun value =>
    match numbers.cast format value with
    | none => Except.error BuildError.cast
    | some bytes => .ok bytes
  return parts.flatten

def packNumpySignalSamples (numbers : Numbers F E) (array : NdArray E)
    (encoding layout : List Char) : Except BuildError (List UInt8 × Nat × List Char) := do
  let (rows, channelCount) ← array.values.rows
  require (rows ≠ []) "at least one signal sample row is required"
  require (channelCount ≠ 0) "signal samples must contain at least one channel"
  let resolvedEncoding ← resolveNumpyEncoding array encoding
  match ENCODING_NUMPY_DTYPE.lookup resolvedEncoding with
  | none => .error .cast
  | some format =>
    let bytes ← castAll numbers format (orderedValues rows layout channelCount)
    return (bytes, rows.length, resolvedEncoding)

inductive Samples (F E : Type) where
  | bytes (packed : List UInt8)
  | rows (rows : List (List (Sample F)))
  | array (array : NdArray E)

structure SignalFrameArgs (F E : Type) where
  streamKey : List Char
  sampleIntervalNs : Int
  channels : List ChannelInput
  samples : Samples F E
  sampleCount : Option Int
  encoding : List Char
  layout : List Char

def ENCODING_TO_PROTO : List (List Char × Int32) :=
  [("float32_le".toList, SIGNAL_SAMPLE_ENCODING_FLOAT32_LE),
    ("int16_le".toList, SIGNAL_SAMPLE_ENCODING_INT16_LE),
    ("uint16_le".toList, SIGNAL_SAMPLE_ENCODING_UINT16_LE),
    ("int32_le".toList, SIGNAL_SAMPLE_ENCODING_INT32_LE)]

def LAYOUT_TO_PROTO : List (List Char × Int32) :=
  [("interleaved".toList, SIGNAL_SAMPLE_LAYOUT_INTERLEAVED),
    ("planar".toList, SIGNAL_SAMPLE_LAYOUT_PLANAR)]

def checkRows (args : SignalFrameArgs F E) (rowCount rowWidth : Nat) :
    Except BuildError Unit := do
  require (args.sampleCount.all fun count => count = (rowCount : Int))
    "sample_count must match the number of sample rows"
  require (rowWidth = args.channels.length) "sample row width must match channel count"

def resolveSamples (numbers : Numbers F E) (args : SignalFrameArgs F E) :
    Except BuildError (List UInt8 × Int × List Char) :=
  match args.samples with
  | .bytes packed => do
    require (args.sampleCount.any (0 < ·))
      "sample_count is required when samples are already packed bytes"
    return (packed, args.sampleCount.getD 0,
      if args.encoding = "auto".toList then "float32_le".toList else args.encoding)
  | .rows rows => do
    let (packed, count, encoding) ← (packSignalSamplesWithMetadata numbers.float32Bits rows
      args.encoding args.layout).mapError .refused
    checkRows args count (rows.head?.elim 0 List.length)
    return (packed, count, encoding)
  | .array array => do
    let (packed, count, encoding) ← packNumpySignalSamples numbers array args.encoding args.layout
    let (_, channelCount) ← array.values.rows
    checkRows args count channelCount
    return (packed, count, encoding)

def buildSignalFrameEvent (numbers : Numbers F E) (event : EventArgs)
    (args : SignalFrameArgs F E) : Except BuildError IngestEvent := do
  require (args.streamKey ≠ []) "stream_key is required"
  require (0 < args.sampleIntervalNs) "sample_interval_ns must be positive"
  require (args.channels ≠ []) "at least one signal channel is required"
  require (args.encoding = "auto".toList || (ENCODING_TO_PROTO.lookup args.encoding).isSome)
    ("unsupported signal encoding: " ++ String.ofList args.encoding)
  require (LAYOUT_TO_PROTO.lookup args.layout).isSome
    ("unsupported signal layout: " ++ String.ofList args.layout)
  let event ← baseEvent event EVENT_TYPE_TELEMETRY
  let (packed, count, encoding) ← resolveSamples numbers args
  let sampleIntervalNs ← uint64Field args.sampleIntervalNs
  let sampleCount ← uint32Field count
  return { event with body := some (.telemetry (some (.signalFrame
    { streamKey := args.streamKey
      sampleIntervalNs := sampleIntervalNs
      sampleCount := sampleCount
      encoding := (ENCODING_TO_PROTO.lookup encoding).getD 0
      layout := (LAYOUT_TO_PROTO.lookup args.layout).getD 0
      channels := args.channels.map (coerceChannel numbers)
      samples := packed }))) }

end Python

namespace Rust

def require (condition : Bool) (message : String) : Except Error Unit :=
  if condition then .ok () else .error (.invalidInput message)

@[simp] theorem require_eq_ok {condition : Bool} {message : String} {u : Unit} :
    require condition message = .ok u ↔ condition = true := by
  cases condition <;> simp [require]

structure EventArgs where
  deviceId : List Char
  sequence : UInt64
  bootId : List Char
  firmwareVersion : UInt32
  uptimeMs : UInt64
  timestampNs : Option UInt64

def baseEvent (args : EventArgs) (eventType : Int32) : Except Error IngestEvent := do
  require (args.deviceId ≠ []) "device_id is required"
  require (args.bootId ≠ []) "boot_id is required"
  return { schemaVersion := 1, deviceId := args.deviceId, sequence := args.sequence,
           eventType := eventType, bootId := args.bootId, firmwareVersion := args.firmwareVersion,
           uptimeMs := args.uptimeMs, timestampNs := args.timestampNs.getD 0, body := none }

def metric (key : List Char) (value : MetricValue) (unit : List Char) : Except Error Metric := do
  require (key ≠ []) "metric key is required"
  return ⟨key, some value, unit⟩

def buildMetricEvent (args : EventArgs) (metrics : List Metric) : Except Error IngestEvent := do
  require (metrics ≠ []) "at least one metric is required"
  let event ← baseEvent args EVENT_TYPE_TELEMETRY
  return { event with body := some (.telemetry (some (.metricSet metrics))) }

inductive DeviceStatus where
  | unspecified | online | degraded | offline
  deriving DecidableEq

def DeviceStatus.value : DeviceStatus → Int32
  | .unspecified => 0
  | .online => 1
  | .degraded => 2
  | .offline => 3

inductive Severity where
  | unspecified | info | warn | error | critical
  deriving DecidableEq

def Severity.value : Severity → Int32
  | .unspecified => 0
  | .info => 1
  | .warn => 2
  | .error => 3
  | .critical => 4

def buildStatusEvent (args : EventArgs) (status : DeviceStatus) (rssi : Int32)
    (freeHeap : UInt32) (rebootReason : List Char) : Except Error IngestEvent := do
  let event ← baseEvent args EVENT_TYPE_STATUS
  return { event with body := some (.status status.value rssi freeHeap rebootReason) }

def buildAlertEvent (args : EventArgs) (code : List Char) (severity : Severity)
    (message : List Char) : Except Error IngestEvent := do
  let event ← baseEvent args EVENT_TYPE_ALERT
  return { event with body := some (.alert code severity.value message) }

/-- `scale` and `offset` are the bits of the floats. The fields are public, so a value need not
come from `new`. -/
structure SignalChannelSpec where
  key : List Char
  unit : List Char
  scale : Option UInt32
  offset : Option UInt32

def SignalChannelSpec.new (key unit : List Char) : Except Error SignalChannelSpec := do
  require (key ≠ []) "signal channel key is required"
  return ⟨key, unit, none, none⟩

def SignalEncoding.protoValue : SignalEncoding → Int32
  | .float32Le => SIGNAL_SAMPLE_ENCODING_FLOAT32_LE
  | .int16Le => SIGNAL_SAMPLE_ENCODING_INT16_LE
  | .uint16Le => SIGNAL_SAMPLE_ENCODING_UINT16_LE
  | .int32Le => SIGNAL_SAMPLE_ENCODING_INT32_LE

def SignalLayout.protoValue : SignalLayout → Int32
  | .interleaved => SIGNAL_SAMPLE_LAYOUT_INTERLEAVED
  | .planar => SIGNAL_SAMPLE_LAYOUT_PLANAR

structure SignalFrameArgs where
  streamKey : List Char
  sampleIntervalNs : UInt64
  channels : List SignalChannelSpec
  samples : PackedSignalSamples

/-- `widen` is the double that a float reads as. -/
def buildSignalFrameEvent (widen : UInt32 → Double) (event : EventArgs) (args : SignalFrameArgs) :
    Except Error IngestEvent := do
  require (args.streamKey ≠ []) "stream_key is required"
  require (args.sampleIntervalNs ≠ 0) "sample_interval_ns must be positive"
  require (args.channels ≠ []) "at least one signal channel is required"
  require (args.samples.sampleCount ≠ 0) "sample_count must be positive"
  let event ← baseEvent event EVENT_TYPE_TELEMETRY
  return { event with body := some (.telemetry (some (.signalFrame
    { streamKey := args.streamKey
      sampleIntervalNs := args.sampleIntervalNs
      sampleCount := args.samples.sampleCount
      encoding := args.samples.encoding.protoValue
      layout := args.samples.layout.protoValue
      channels := args.channels.map fun channel =>
        ⟨channel.key, channel.unit, channel.scale.map widen, channel.offset.map widen⟩
      samples := args.samples.bytes }))) }

end Rust

end Aetus.Clients
