import Aetus.EndToEnd.EventMessages
import Aetus.Firmware.FrameSize
import Aetus.Firmware.TelemetryPayload

/-!
The events that the device makes of its queue items as messages: the bytes that nanopb writes
of one are those of any other serializer, so the ingest service reads the message back.
-/

set_option autoImplicit false

namespace Aetus.Firmware
open Aetus.Base Aetus.Base.Protobuf

section Messages

variable (h : Heap)

/-- The value behind its pointer; the callback for bytes refuses a null pointer. -/
def EventMetricValue.report : EventMetricValue → Option ReportValue
  | .intValue value => some (.int value)
  | .doubleValue bits => some (.double bits)
  | .boolValue value => some (.bool value)
  | .stringValue none => some (.string [])
  | .stringValue (some p) => some (.string (CString.ofBytes (h.bytesAt p)).bytes)
  | .bytesValue none _ => none
  | .bytesValue (some p) size => some (.bytes ((h.bytesAt p).take size.toNat))

def EventMetric.report (m : EventMetric) : Option ReportMetric :=
  (m.value.report h).map fun value => ⟨m.key.bytes, m.unit.bytes, some value⟩

def EventChannel.wire (c : EventChannel) : ChannelMessage where
  key := c.key.bytes
  unit := c.unit.bytes
  scale := if c.hasScale then some c.scale else none
  offset := if c.hasOffset then some c.offset else none

def EventSignalFrame.wire (f : EventSignalFrame) (samples : List UInt8) : FrameMessage where
  streamKey := f.streamKey.bytes
  sampleIntervalNs := f.sampleIntervalNs
  sampleCount := f.sampleCount
  encoding := Int32.ofNat f.encoding.code
  layout := Int32.ofNat f.layout.code
  channels := f.channels.map EventChannel.wire
  samples := samples.take f.samplesSize.toNat

def EventBody.wire : EventBody → Option BodyMessage
  | .metricSet metrics =>
    if AETUS_MAX_METRICS < metrics.length then none
    else (metrics.mapM (EventMetric.report h)).map .metricSet
  | .signalFrame frame => frame.samples.map fun samples => .signalFrame (frame.wire samples)
  | .status st =>
    some (.status (Int32.ofNat st.status.code) st.rssi st.freeHeap st.rebootReason.bytes)

def IngestEvent.around (event : IngestEvent) (body : BodyMessage) : EventMessage where
  schemaVersion := event.schemaVersion
  deviceId := event.deviceId.bytes
  sequence := event.sequence
  eventType := Int32.ofNat event.eventType.code
  bootId := event.bootId.bytes
  firmwareVersion := event.firmwareVersion
  uptimeMs := event.uptimeMs
  timestampNs := event.timestampNs
  body := some body

def IngestEvent.wire (event : IngestEvent) : Option EventMessage :=
  (event.body.wire h).map event.around

end Messages

def EventBody.HasSamples : EventBody → Prop
  | .signalFrame frame => ∀ samples, frame.samples = some samples →
      samples.take frame.samplesSize.toNat ≠ []
  | _ => True

theorem EventMetricValue.report_fields (h : Heap) (value : EventMetricValue) :
    (value.part h).fields = (value.report h).map fun v => [v.field] := by
  cases value with
  | stringValue blobData => cases blobData <;> rfl
  | bytesValue blobData size => cases blobData <;> rfl
  | _ => rfl

theorem EventMetric.report_fields (h : Heap) (m : EventMetric) :
    partFields (m.parts h) = (m.report h).map ReportMetric.fields := by
  simp only [EventMetric.parts, partFields, m.value.report_fields h, EventMetric.report]
  cases m.value.report h <;> simp [Part.fields, ReportMetric.fields]

theorem metrics_report_fields (h : Heap) (metrics : List EventMetric) :
    partFields (metrics.map fun m => .submessage 1 (m.parts h)) =
      (metrics.mapM (EventMetric.report h)).map fun rs => rs.map fun r => message 1 r.fields := by
  induction metrics with
  | nil => rfl
  | cons m metrics ih =>
    simp only [List.map_cons, partFields, Part.fields, m.report_fields, ih, List.mapM_cons]
    cases m.report h with
    | none => rfl
    | some first => cases metrics.mapM (EventMetric.report h) <;> simp

theorem enumVarint_code {code : Nat} (h : code < 128) : enumVarint (Int32.ofNat code) = code := by
  rw [enumVarint, Int32.toInt_ofNat']
  simp only [Int32.size, Int.bmod]
  omega

theorem EventDeviceStatus.code_lt (s : EventDeviceStatus) : s.code < 128 := by
  cases s <;> decide

theorem EventChannel.wire_fields (c : EventChannel) : c.wire.fields = c.fields := by
  cases hscale : c.hasScale <;> cases hoffset : c.hasOffset <;>
    simp [EventChannel.wire, EventChannel.fields, ChannelMessage.fields, hscale, hoffset]

theorem EventSignalFrame.wire_fields {f : EventSignalFrame} {samples : List UInt8}
    (hsamples : samples.take f.samplesSize.toNat ≠ []) :
    (f.wire samples).fields =
      f.headFields ++ [⟨7, .bytes (samples.take f.samplesSize.toNat)⟩] := by
  have hchannels : (f.channels.map EventChannel.wire).map (fun c => message 6 c.fields) =
      f.channels.map fun c => message 6 c.fields := by
    rw [List.map_map]
    exact List.map_congr_left fun c _ => congrArg (message 6) c.wire_fields
  have hbytes : unlessDefault 7 (.bytes (samples.take f.samplesSize.toNat)) =
      [⟨7, .bytes (samples.take f.samplesSize.toNat)⟩] := by
    simp [unlessDefault, Value.isDefault, hsamples]
  simp only [FrameMessage.fields, EventSignalFrame.wire, EventSignalFrame.headFields, hchannels,
    hbytes, enumVarint_code f.encoding.code_lt, enumVarint_code f.layout.code_lt,
    List.append_assoc]

theorem EventBody.wire_fields {h : Heap} {body : EventBody} (hsamples : body.HasSamples) :
    (body.part h).fields = (body.wire h).map fun m => [m.field] := by
  cases body with
  | metricSet metrics =>
    by_cases hmany : AETUS_MAX_METRICS < metrics.length
    · simp [EventBody.part, EventBody.wire, metricSetParts, hmany, Part.fields, partFields]
    · simp only [EventBody.part, EventBody.wire, metricSetParts, hmany, if_false, Part.fields,
        partFields, metrics_report_fields]
      cases metrics.mapM (EventMetric.report h) <;> simp [BodyMessage.field, metricSetField]
  | signalFrame frame =>
    cases hs : frame.samples with
    | none =>
      simp [EventBody.part, EventBody.wire, EventSignalFrame.parts, Part.fields, partFields,
        partFields_append, partFields_channels, encodeBytesCallback, hs]
    | some samples =>
      simp [EventBody.part, EventBody.wire, Part.fields, partFields,
        partFields_signalFrame hs, hs, BodyMessage.field,
        EventSignalFrame.wire_fields (hsamples samples hs)]
  | status st =>
    simp [EventBody.part, EventBody.wire, Part.fields, partFields, EventStatus.parts,
      BodyMessage.field, enumVarint_code st.status.code_lt]

theorem IngestEvent.around_fields (event : IngestEvent) (body : BodyMessage) :
    (event.around body).fields = event.headerFields ++ [body.field] := by
  simp [EventMessage.fields, IngestEvent.around, IngestEvent.headerFields,
    enumVarint_code event.eventType.code_lt]

theorem pbEncodeEvent_wire {h : Heap} {event : IngestEvent} (hsamples : event.body.HasSamples)
    (bufferSize : Nat) :
    pbEncodeEvent h event bufferSize = (event.wire h).bind fun m =>
      if (write m.fields).length ≤ bufferSize then some (write m.fields) else none := by
  rw [pbEncodeEvent, pbEncode_fromBuffer, partFields_event, EventBody.wire_fields hsamples,
    IngestEvent.wire]
  cases event.body.wire h with
  | none => rfl
  | some body => simp only [Option.map_some, Option.bind_some, event.around_fields]

/-- The counts of a frame tell what is there: the channels of its array, and the bytes that its
pointer leads to. -/
structure SignalFrame.Whole (f : SignalFrame) : Prop where
  channels : f.channelCount.toNat ≤ f.channels.length
  samples : ∀ samples, f.samples = some samples → f.samplesSize.toNat ≤ samples.length

def QueueItem.WholeFrame (item : QueueItem) : Prop :=
  ∀ f, item.body = .signalFrame f → f.Whole

theorem encodeSignalFrame_eq_some {rt : Runtime CString} {uptimeMs : UInt64} {f : SignalFrame}
    {event : IngestEvent} (hencode : encodeSignalFrame rt uptimeMs f = some event) :
    f.Admissible AETUS_SIGNAL_SAMPLES_MAX ∧ event = signalFrameEvent rt uptimeMs f := by
  simp only [encodeSignalFrame, encodeSignalFrameUpTo, Option.ite_none_right_eq_some,
    Option.some.injEq] at hencode
  obtain ⟨hcode, rfl⟩ := hencode
  exact ⟨errorCode_validateSignalFrameUpTo.mp hcode, rfl⟩

theorem take_samples_ne_nil {f : SignalFrame} (hf : f.Admissible AETUS_SIGNAL_SAMPLES_MAX)
    (hwhole : f.Whole) {samples : List UInt8} (hsamples : f.samples = some samples) :
    samples.take f.samplesSize.toNat ≠ [] := by
  have hsize : f.samplesSize.toNat ≠ 0 := fun h => hf.samplesSize (UInt32.toNat_inj.mp h)
  have hlen := hwhole.samples samples hsamples
  rw [ne_eq, List.take_eq_nil_iff, not_or]
  exact ⟨hsize, List.ne_nil_of_length_pos (by omega)⟩

theorem encodeQueueItem_hasSamples {rt : Runtime CString} {uptimeMs : UInt64} {item : QueueItem}
    {event : IngestEvent} (hwhole : item.WholeFrame)
    (hencode : encodeQueueItem rt uptimeMs item = some event) : event.body.HasSamples := by
  unfold encodeQueueItem at hencode
  cases hbody : item.body with
  | telemetry t =>
    rw [hbody] at hencode
    cases hencode
    trivial
  | status st =>
    rw [hbody] at hencode
    cases hencode
    trivial
  | signalFrame f =>
    rw [hbody] at hencode
    obtain ⟨hf, rfl⟩ := encodeSignalFrame_eq_some hencode
    exact fun samples hsamples => take_samples_ne_nil hf (hwhole f hbody) hsamples

def itemMessage (h : Heap) (rt : Runtime CString) (uptimeMs : UInt64) (item : QueueItem) :
    Option EventMessage :=
  (encodeQueueItem rt uptimeMs item).bind (IngestEvent.wire h)

theorem queueItemPayload_eq {item : QueueItem} (hwhole : item.WholeFrame) (h : Heap)
    (rt : Runtime CString) (uptimeMs : UInt64) (bufferSize : Nat) :
    queueItemPayload h rt uptimeMs item bufferSize = (itemMessage h rt uptimeMs item).bind fun m =>
      if (write m.fields).length ≤ bufferSize then some (write m.fields) else none := by
  rw [queueItemPayload, itemMessage]
  cases hencode : encodeQueueItem rt uptimeMs item with
  | none => rfl
  | some event => exact pbEncodeEvent_wire (encodeQueueItem_hasSamples hwhole hencode) bufferSize

/-- Of every queue item that becomes a payload the service reads the message of the item, and it
reads nothing where one of the texts is not UTF-8. -/
theorem queueItemPayload_parsed {floats : FloatBits}
    {parseFromString : List UInt8 → Option Ingest.IngestEvent}
    (hreads : ReadsMessages floats parseFromString) {item : QueueItem} (hwhole : item.WholeFrame)
    (h : Heap) (rt : Runtime CString) (uptimeMs : UInt64) (bufferSize : Nat) :
    (queueItemPayload h rt uptimeMs item bufferSize).map parseFromString =
      (itemMessage h rt uptimeMs item).bind fun m =>
        if (write m.fields).length ≤ bufferSize then some (m.decode floats) else none := by
  rw [queueItemPayload_eq hwhole]
  cases itemMessage h rt uptimeMs item with
  | none => rfl
  | some m =>
    rw [Option.bind_some, Option.bind_some]
    split
    · rw [Option.map_some, hreads m]
    · rfl

def noFloats : FloatBits := ⟨fun _ => .nan, fun _ => .nan⟩

def imuItem : QueueItem := ⟨none, .signalFrame imuFrame⟩

theorem imuItem_whole : imuItem.WholeFrame := by
  rintro f hf
  cases hf
  refine ⟨by decide, fun samples hsamples => ?_⟩
  cases hsamples
  decide

def readEvent (payload : List UInt8) : Option Ingest.IngestEvent :=
  (readMessage payload).bind (·.decode noFloats)

theorem queueItemPayload_parsed_imu :
    (queueItemPayload (.empty fun _ => true) labRuntime 1000 imuItem
        AETUS_ENCODE_BUFFER_BYTES).map readEvent =
      (itemMessage (.empty fun _ => true) labRuntime 1000 imuItem).bind fun m =>
        if (write m.fields).length ≤ AETUS_ENCODE_BUFFER_BYTES then some (m.decode noFloats)
        else none :=
  queueItemPayload_parsed (readMessage_reads noFloats) imuItem_whole (.empty fun _ => true) labRuntime
    1000 AETUS_ENCODE_BUFFER_BYTES

end Aetus.Firmware
