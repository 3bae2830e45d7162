import Aetus.Firmware.Event
import Aetus.Firmware.Nanopb

/-!
The messages of ingest.proto as nanopb walks over them, with the callbacks of aetus.c that
read blobs behind pointers, and the payload that becomes of a queue item.
-/

set_option autoImplicit false

namespace Aetus.Firmware
open Aetus.Base Aetus.Base.Protobuf

def AETUS_ENCODE_BUFFER_BYTES : Nat := 4096

def EventType.code : EventType → Nat
  | .unspecified => 0
  | .telemetry => 1
  | .status => 2
  | .alert => 3

def EventDeviceStatus.code : EventDeviceStatus → Nat
  | .unspecified => 0
  | .online => 1
  | .degraded => 2
  | .offline => 3

def EventSampleEncoding.code : EventSampleEncoding → Nat
  | .unspecified => 0
  | .float32Le => 1
  | .int16Le => 2
  | .uint16Le => 3
  | .int32Le => 4

def EventSampleLayout.code : EventSampleLayout → Nat
  | .unspecified => 0
  | .interleaved => 1
  | .planar => 2

/-- What a `char` pointer or a byte pointer leads to. -/
def Heap.bytesAt (h : Heap) (p : Nat) : List UInt8 := (h.block p).getD []

/-- `strlen` stops at the first zero byte, whatever length the caller had in mind. -/
def encodeStringCallback (h : Heap) (number : Nat) (arg : Option Nat) : Part :=
  let value : CString := match arg with
    | none => .empty
    | some p => CString.ofBytes (h.bytesAt p)
  .present number (.bytes value.bytes)

/-- The callback refuses a null pointer, also one with the size zero. -/
def encodeBytesCallback (number : Nat) (data : Option (List UInt8)) (size : UInt32) : Part :=
  match data with
  | none => .refused
  | some bytes => .present number (.bytes (bytes.take size.toNat))

section Parts

variable (h : Heap)

def EventMetricValue.part : EventMetricValue → Part
  | .intValue value => .present 2 (.varint (zigzag value.toInt))
  | .doubleValue bits => .present 3 (.fixed64 bits)
  | .boolValue value => .present 4 (.varint (if value then 1 else 0))
  | .stringValue blobData => encodeStringCallback h 5 blobData
  | .bytesValue blobData size => encodeBytesCallback 6 (blobData.map h.bytesAt) size

def EventMetric.parts (m : EventMetric) : List Part :=
  [.singular 1 (.bytes m.key.bytes), m.value.part h, .singular 7 (.bytes m.unit.bytes)]

def metricSetParts (metrics : List EventMetric) : List Part :=
  if AETUS_MAX_METRICS < metrics.length then [.refused]
  else metrics.map fun m => .submessage 1 (m.parts h)

def EventChannel.parts (c : EventChannel) : List Part :=
  [.singular 1 (.bytes c.key.bytes), .singular 2 (.bytes c.unit.bytes)] ++
    (if c.hasScale then [.present 3 (.fixed32 c.scale)] else []) ++
    (if c.hasOffset then [.present 4 (.fixed32 c.offset)] else [])

def EventSignalFrame.parts (f : EventSignalFrame) : List Part :=
  [.singular 1 (.bytes f.streamKey.bytes),
    .singular 2 (.varint f.sampleIntervalNs.toNat),
    .singular 3 (.varint f.sampleCount.toNat),
    .singular 4 (.varint f.encoding.code),
    .singular 5 (.varint f.layout.code)] ++
    f.channels.map (fun c => .submessage 6 c.parts) ++
    [encodeBytesCallback 7 f.samples f.samplesSize]

def EventStatus.parts (st : EventStatus) : List Part :=
  [.singular 1 (.varint st.status.code), .singular 2 (.varint (zigzag st.rssi.toInt)),
    .singular 3 (.varint st.freeHeap.toNat), .singular 4 (.bytes st.rebootReason.bytes)]

def EventBody.part : EventBody → Part
  | .metricSet metrics => .submessage 10 [.submessage 1 (metricSetParts h metrics)]
  | .signalFrame frame => .submessage 10 [.submessage 2 frame.parts]
  | .status st => .submessage 11 st.parts

def IngestEvent.headerParts (event : IngestEvent) : List Part :=
  [.singular 1 (.varint event.schemaVersion.toNat),
    .singular 2 (.bytes event.deviceId.bytes),
    .singular 3 (.varint event.sequence.toNat),
    .singular 4 (.varint event.eventType.code),
    .singular 5 (.bytes event.bootId.bytes),
    .singular 6 (.varint event.firmwareVersion.toNat),
    .singular 7 (.varint event.uptimeMs.toNat),
    .singular 8 (.varint event.timestampNs.toNat)]

def IngestEvent.parts (event : IngestEvent) : List Part :=
  event.headerParts ++ [event.body.part h]

/-- The bytes that `pb_encode` leaves in a buffer of the given size, if it succeeds. -/
def pbEncodeEvent (event : IngestEvent) (bufferSize : Nat) : Option (List UInt8) :=
  (pbEncode (event.parts h) (.fromBuffer bufferSize)).bind Ostream.state

variable (rt : Runtime CString) (uptimeMs : UInt64)

def telemetryPayload (t : Telemetry) (bufferSize : Nat) : Option (List UInt8) :=
  pbEncodeEvent h (encodeTelemetry rt uptimeMs t) bufferSize

def queueItemPayload (item : QueueItem) (bufferSize : Nat) : Option (List UInt8) :=
  (encodeQueueItem rt uptimeMs item).bind fun event => pbEncodeEvent h event bufferSize

theorem queueItemPayload_telemetry (owner : Option SampleBlock) (t : Telemetry) (bufferSize : Nat) :
    queueItemPayload h rt uptimeMs ⟨owner, .telemetry t⟩ bufferSize =
      telemetryPayload h rt uptimeMs t bufferSize := rfl

theorem encodeSucceeds_payload (item : QueueItem) (bufferSize : Nat) :
    encodeSucceeds item (queueItemPayload h rt uptimeMs item bufferSize).isSome =
      (queueItemPayload h rt uptimeMs item bufferSize).isSome := by
  rw [Bool.eq_iff_iff, encodeSucceeds_iff rt uptimeMs]
  refine ⟨fun hboth => hboth.2, fun hsome => ⟨?_, hsome⟩⟩
  obtain ⟨bytes, hbytes⟩ := Option.isSome_iff_exists.mp hsome
  obtain ⟨event, hevent, -⟩ := Option.bind_eq_some_iff.mp hbytes
  simp [hevent]

end Parts

def IngestEvent.headerFields (event : IngestEvent) : List Field :=
  unlessDefault 1 (.varint event.schemaVersion.toNat) ++
    unlessDefault 2 (.bytes event.deviceId.bytes) ++
    unlessDefault 3 (.varint event.sequence.toNat) ++
    unlessDefault 4 (.varint event.eventType.code) ++
    unlessDefault 5 (.bytes event.bootId.bytes) ++
    unlessDefault 6 (.varint event.firmwareVersion.toNat) ++
    unlessDefault 7 (.varint event.uptimeMs.toNat) ++
    unlessDefault 8 (.varint event.timestampNs.toNat)

theorem partFields_event (h : Heap) (event : IngestEvent) :
    partFields (event.parts h) = (event.body.part h).fields.map (event.headerFields ++ ·) := by
  simp only [IngestEvent.parts, IngestEvent.headerParts, List.cons_append, List.nil_append,
    partFields, Part.fields, Option.bind_some]
  cases (event.body.part h).fields <;> simp [IngestEvent.headerFields]

end Aetus.Firmware
