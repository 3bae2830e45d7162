import Aetus.Firmware.Runtime
import Aetus.Firmware.SignalFrame
import Aetus.Firmware.Telemetry
import Aetus.Firmware.Uploader

/-!
The `IngestEvent` that aetus.c builds of a queue item before nanopb encodes it. Its
character arrays hold what a truncating copy leaves in them.
-/

set_option autoImplicit false

namespace Aetus.Firmware
open Aetus.Base

def EVENT_DEVICE_ID_SIZE : Nat := 32
def EVENT_BOOT_ID_SIZE : Nat := 32
def EVENT_REBOOT_REASON_SIZE : Nat := 24

inductive EventType where
  | unspecified | telemetry | status | alert
  deriving DecidableEq

inductive EventDeviceStatus where
  | unspecified | online | degraded | offline
  deriving DecidableEq

inductive EventSampleEncoding where
  | unspecified | float32Le | int16Le | uint16Le | int32Le
  deriving DecidableEq

inductive EventSampleLayout where
  | unspecified | interleaved | planar
  deriving DecidableEq

/-- The value with its tag; `bytesValue` is the argument of `encode_bytes_callback`. -/
inductive EventMetricValue where
  | intValue (value : Int64)
  | doubleValue (bits : UInt64)
  | boolValue (value : Bool)
  | stringValue (blobData : Option Nat)
  | bytesValue (blobData : Option Nat) (size : UInt32)
  deriving DecidableEq

structure EventMetric where
  key : CString
  unit : CString
  value : EventMetricValue
  deriving DecidableEq

structure EventChannel where
  key : CString
  unit : CString
  hasScale : Bool
  scale : UInt32
  hasOffset : Bool
  offset : UInt32
  deriving DecidableEq

/-- The channels as their callback encodes them, the samples with the size beside them. -/
structure EventSignalFrame where
  streamKey : CString
  sampleIntervalNs : UInt64
  sampleCount : UInt32
  encoding : EventSampleEncoding
  layout : EventSampleLayout
  channels : List EventChannel
  samples : Option (List UInt8)
  samplesSize : UInt32
  deriving DecidableEq

structure EventStatus where
  status : EventDeviceStatus
  rssi : Int32
  freeHeap : UInt32
  rebootReason : CString
  deriving DecidableEq

inductive EventBody where
  | metricSet (metrics : List EventMetric)
  | signalFrame (frame : EventSignalFrame)
  | status (status : EventStatus)
  deriving DecidableEq

structure IngestEvent where
  schemaVersion : UInt32
  deviceId : CString
  sequence : UInt64
  eventType : EventType
  bootId : CString
  firmwareVersion : UInt32
  uptimeMs : UInt64
  timestampNs : UInt64
  body : EventBody
  deriving DecidableEq

def mapDeviceStatus : DeviceStatus → EventDeviceStatus
  | .online => .online
  | .degraded => .degraded
  | .offline => .offline
  | .other _ => .unspecified

def mapSignalEncoding : SignalEncoding → EventSampleEncoding
  | .int16Le => .int16Le
  | .uint16Le => .uint16Le
  | .int32Le => .int32Le
  | .float32Le => .float32Le
  | .other _ => .float32Le

def mapSignalLayout : SignalLayout → EventSampleLayout
  | .planar => .planar
  | .interleaved => .interleaved
  | .other _ => .interleaved

def fillMetric (source : Metric) : EventMetric where
  key := copyString .empty AETUS_METRIC_KEY_MAX (some source.key)
  unit := copyString .empty AETUS_METRIC_UNIT_MAX (some source.unit)
  value := match source.value with
    | .int64 v => .intValue v
    | .bool v => .boolValue v
    | .string p => .stringValue p
    | .bytes p => .bytesValue p source.blobSize
    | .double bits => .doubleValue bits

/-- `encode_signal_channels_callback` up to its calls into nanopb. -/
def encodeSignalChannels (frame : SignalFrame) : List EventChannel :=
  let channelCount := min frame.channelCount AETUS_SIGNAL_CHANNELS_MAX
  (frame.channels.take channelCount.toNat).map fun source =>
    { key := copyString .empty AETUS_METRIC_KEY_MAX (some source.key)
      unit := copyString .empty AETUS_METRIC_UNIT_MAX (some source.unit)
      hasScale := source.hasScale
      scale := source.scale
      hasOffset := source.hasOffset
      offset := source.offset }

def eventFrame (f : SignalFrame) : EventSignalFrame where
  streamKey := copyString .empty AETUS_SIGNAL_STREAM_KEY_MAX (some f.streamKey)
  sampleIntervalNs := f.sampleIntervalNs
  sampleCount := f.sampleCount
  encoding := mapSignalEncoding f.encoding
  layout := mapSignalLayout f.layout
  channels := encodeSignalChannels f
  samples := f.samples
  samplesSize := f.samplesSize

section Encode

variable (rt : Runtime CString) (uptimeMs : UInt64)

def fillEventHeader (eventType : EventType) (timestampNs : UInt64) (body : EventBody) :
    IngestEvent where
  schemaVersion := 1
  deviceId := copyString .empty EVENT_DEVICE_ID_SIZE (some rt.config.deviceId)
  sequence := rt.sequence
  eventType := eventType
  bootId := copyString .empty EVENT_BOOT_ID_SIZE (some rt.bootId)
  firmwareVersion := rt.config.firmwareVersion
  uptimeMs := uptimeMs
  timestampNs := timestampNs
  body := body

def encodeTelemetry (t : Telemetry) : IngestEvent :=
  let metricCount := min t.metricCount AETUS_MAX_METRICS
  fillEventHeader rt uptimeMs .telemetry t.timestampNs
    (.metricSet ((t.slots.take metricCount).map fillMetric))

def signalFrameEvent (f : SignalFrame) : IngestEvent :=
  fillEventHeader rt uptimeMs .telemetry f.timestampNs (.signalFrame (eventFrame f))

/-- `encode_signal_frame` of a build with this `AETUS_SIGNAL_SAMPLES_MAX`. -/
def encodeSignalFrameUpTo (samplesMax : UInt32) (f : SignalFrame) : Option IngestEvent :=
  if errorCode (validateSignalFrameUpTo samplesMax (some f)) = .ok then
    some (signalFrameEvent rt uptimeMs f)
  else none

def encodeSignalFrame (f : SignalFrame) : Option IngestEvent :=
  encodeSignalFrameUpTo rt uptimeMs AETUS_SIGNAL_SAMPLES_MAX f

def encodeStatus (st : Status) : IngestEvent :=
  fillEventHeader rt uptimeMs .status st.timestampNs
    (.status
      { status := mapDeviceStatus st.status
        rssi := st.rssi
        freeHeap := st.freeHeap
        rebootReason := copyString .empty EVENT_REBOOT_REASON_SIZE (some st.rebootReason) })

/-- The event handed to `pb_encode`; `none` when the item is refused before that. -/
def encodeQueueItem (item : QueueItem) : Option IngestEvent :=
  match item.body with
  | .status st => some (encodeStatus rt uptimeMs st)
  | .signalFrame f => encodeSignalFrame rt uptimeMs f
  | .telemetry t => some (encodeTelemetry rt uptimeMs t)

theorem encodeSucceeds_iff (item : QueueItem) (pbEncode : Bool) :
    encodeSucceeds item pbEncode = true ↔
      (encodeQueueItem rt uptimeMs item).isSome ∧ pbEncode = true := by
  unfold encodeSucceeds encodeQueueItem
  cases item.body with
  | telemetry t => simp
  | status st => simp
  | signalFrame f => by_cases h : errorCode (validateSignalFrame (some f)) = .ok <;>
      simp_all [encodeSignalFrame, encodeSignalFrameUpTo, validateSignalFrame]

theorem encodeQueueItem_header {item : QueueItem} {event : IngestEvent}
    (h : encodeQueueItem rt uptimeMs item = some event) :
    ∃ eventType timestampNs body,
      event = fillEventHeader rt uptimeMs eventType timestampNs body := by
  unfold encodeQueueItem at h
  cases hbody : item.body with
  | telemetry t =>
    simp only [hbody, Option.some.injEq] at h
    exact ⟨_, _, _, h.symm⟩
  | status st =>
    simp only [hbody, Option.some.injEq] at h
    exact ⟨_, _, _, h.symm⟩
  | signalFrame f =>
    simp only [hbody, encodeSignalFrame, encodeSignalFrameUpTo, Option.ite_none_right_eq_some,
      Option.some.injEq] at h
    exact ⟨_, _, _, h.2.symm⟩

theorem encodeQueueItem_deviceId {item : QueueItem} {event : IngestEvent}
    (h : encodeQueueItem rt uptimeMs item = some event) :
    event.deviceId = copyString .empty EVENT_DEVICE_ID_SIZE (some rt.config.deviceId) := by
  obtain ⟨_, _, _, rfl⟩ := encodeQueueItem_header rt uptimeMs h
  rfl

end Encode

end Aetus.Firmware
