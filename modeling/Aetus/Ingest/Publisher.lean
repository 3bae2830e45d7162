import Aetus.Ingest.Normalize

/-!
The records of the ingest service's publisher.py, their schemas, and the order in
which the Kafka publisher sends them.
-/

set_option autoImplicit false

namespace Aetus.Ingest
open Aetus.Base

inductive FieldType where
  | string
  | int32
  | int64
  | double
  | boolean
  deriving DecidableEq

structure SchemaField where
  type : FieldType
  optional : Bool
  field : String

structure RecordSchema where
  name : String
  fields : List SchemaField

def RAW_EVENT_SCHEMA : RecordSchema where
  name := "aetus.device.raw.v1.RawDeviceEvent"
  fields := [⟨.string, false, "request_id"⟩, ⟨.string, false, "received_at"⟩,
    ⟨.string, false, "source_ip"⟩, ⟨.int32, false, "schema_version"⟩,
    ⟨.string, false, "device_id"⟩, ⟨.string, false, "boot_id"⟩, ⟨.int64, false, "sequence"⟩,
    ⟨.string, false, "event_type"⟩, ⟨.int32, true, "firmware_version"⟩,
    ⟨.int64, true, "uptime_ms"⟩, ⟨.int64, true, "timestamp_ns"⟩,
    ⟨.string, false, "payload_json"⟩]

def METRIC_EVENT_SCHEMA : RecordSchema where
  name := "aetus.device.metric.v1.DeviceMetricEvent"
  fields := [⟨.string, false, "request_id"⟩, ⟨.int32, false, "metric_index"⟩,
    ⟨.string, false, "received_at"⟩, ⟨.string, false, "source_ip"⟩,
    ⟨.int32, false, "schema_version"⟩, ⟨.string, false, "device_id"⟩,
    ⟨.string, false, "boot_id"⟩, ⟨.int64, false, "sequence"⟩, ⟨.string, false, "event_type"⟩,
    ⟨.int32, true, "firmware_version"⟩, ⟨.int64, true, "uptime_ms"⟩,
    ⟨.int64, true, "timestamp_ns"⟩, ⟨.string, false, "metric_key"⟩,
    ⟨.string, true, "metric_unit"⟩, ⟨.string, false, "value_type"⟩,
    ⟨.double, true, "value_double"⟩, ⟨.int64, true, "value_int"⟩, ⟨.boolean, true, "value_bool"⟩,
    ⟨.string, true, "value_string"⟩, ⟨.string, true, "value_bytes_hex"⟩]

def SIGNAL_FRAME_EVENT_SCHEMA : RecordSchema where
  name := "aetus.device.signal_frame.v1.DeviceSignalFrameEvent"
  fields := [⟨.string, false, "request_id"⟩, ⟨.string, false, "received_at"⟩,
    ⟨.string, false, "source_ip"⟩, ⟨.int32, false, "schema_version"⟩,
    ⟨.string, false, "device_id"⟩, ⟨.string, false, "boot_id"⟩, ⟨.int64, false, "sequence"⟩,
    ⟨.string, false, "event_type"⟩, ⟨.int32, true, "firmware_version"⟩,
    ⟨.int64, true, "uptime_ms"⟩, ⟨.int64, true, "timestamp_ns"⟩, ⟨.string, false, "stream_key"⟩,
    ⟨.int64, false, "sample_interval_ns"⟩, ⟨.int32, false, "sample_count"⟩,
    ⟨.string, false, "encoding"⟩, ⟨.string, false, "layout"⟩, ⟨.string, false, "channels_json"⟩,
    ⟨.string, false, "samples_b64"⟩]

structure RecordHeader where
  requestId : List Char
  receivedAt : List Char
  sourceIp : List Char
  schemaVersion : Nat
  deviceId : List Char
  bootId : List Char
  sequence : Nat
  eventType : List Char
  firmwareVersion : Option Nat
  uptimeMs : Option Nat
  timestampNs : Option Nat

structure RawRecord where
  header : RecordHeader
  payloadJson : List Char

structure MetricRecord where
  header : RecordHeader
  metricIndex : Nat
  metricKey : List Char
  metricUnit : Option (List Char)
  valueType : List Char
  valueDouble : Option NormalizedValue
  valueInt : Option NormalizedValue
  valueBool : Option NormalizedValue
  valueString : Option NormalizedValue
  valueBytesHex : Option NormalizedValue

structure SignalFrameRecord where
  header : RecordHeader
  streamKey : List Char
  sampleIntervalNs : Nat
  sampleCount : Nat
  encoding : List Char
  layout : List Char
  channelsJson : List Char
  samplesB64 : List Char

def NormalizedEvent.header (event : NormalizedEvent) : RecordHeader where
  requestId := event.requestId
  receivedAt := event.receivedAt
  sourceIp := event.sourceIp
  schemaVersion := event.schemaVersion
  deviceId := event.deviceId
  bootId := event.bootId
  sequence := event.sequence
  eventType := event.eventType
  firmwareVersion := event.firmwareVersion
  uptimeMs := event.uptimeMs
  timestampNs := event.timestampNs

def buildSinkRecord (event : NormalizedEvent) : RawRecord := ⟨event.header, event.payloadJson⟩

/-- `value if value_type == type else None`. -/
def valueColumn (metric : NormalizedMetric) (type : String) : Option NormalizedValue :=
  if metric.type = type.toList then some metric.value else none

def buildMetricRecord (event : NormalizedEvent) (index : Nat) (metric : NormalizedMetric) :
    MetricRecord where
  header := event.header
  metricIndex := index
  metricKey := metric.key
  metricUnit := metric.unit
  valueType := metric.type
  valueDouble := valueColumn metric "double"
  valueInt := valueColumn metric "int"
  valueBool := valueColumn metric "bool"
  valueString := valueColumn metric "string"
  valueBytesHex := valueColumn metric "bytes_hex"

def buildMetricRecords (event : NormalizedEvent) : List MetricRecord :=
  if event.eventType ≠ "telemetry".toList then []
  else
    match event.payload with
    | .metricSet metrics => metrics.mapIdx (buildMetricRecord event)
    | _ => []

def buildSignalFrameRecord (event : NormalizedEvent) (frame : NormalizedSignalFrame) :
    SignalFrameRecord where
  header := event.header
  streamKey := frame.streamKey
  sampleIntervalNs := frame.sampleIntervalNs
  sampleCount := frame.sampleCount
  encoding := frame.encoding
  layout := frame.layout
  channelsJson := (Json.array (frame.channels.map NormalizedChannel.json)).dumps
  samplesB64 := frame.samplesB64

def buildSignalFrameRecords (event : NormalizedEvent) : List SignalFrameRecord :=
  if event.eventType ≠ "telemetry".toList then []
  else
    match event.payload with
    | .signalFrame frame => [buildSignalFrameRecord event frame]
    | _ => []

theorem buildMetricRecords_eq_nil {envelope : Envelope} {event : IngestEvent}
    {payload : NormalizedPayload} (h : ∀ metrics, payload ≠ .metricSet metrics) :
    buildMetricRecords (normalizedEvent envelope event payload) = [] := by
  unfold buildMetricRecords
  split
  · rfl
  · split
    · next metrics hpayload => exact absurd hpayload (h metrics)
    · rfl

theorem buildSignalFrameRecords_eq_nil {envelope : Envelope} {event : IngestEvent}
    {payload : NormalizedPayload} (h : ∀ frame, payload ≠ .signalFrame frame) :
    buildSignalFrameRecords (normalizedEvent envelope event payload) = [] := by
  unfold buildSignalFrameRecords
  split
  · rfl
  · split
    · next frame hpayload => exact absurd hpayload (h frame)
    · rfl

/-! The records as the dictionaries that Kafka Connect reads -/

inductive FieldValue where
  | null
  | string (text : List Char)
  | int (n : Int)
  | double (x : Double)
  | bool (b : Bool)

def FieldValue.ofNumber : Option Nat → FieldValue
  | none => .null
  | some n => .int n

def FieldValue.ofText : Option (List Char) → FieldValue
  | none => .null
  | some text => .string text

def FieldValue.ofValue : Option NormalizedValue → FieldValue
  | none => .null
  | some (.int n) => .int n
  | some (.double x) => .double x
  | some (.bool b) => .bool b
  | some (.string text) => .string text

def RecordHeader.fields (header : RecordHeader) : List (String × FieldValue) :=
  [("request_id", .string header.requestId), ("received_at", .string header.receivedAt),
    ("source_ip", .string header.sourceIp), ("schema_version", .int header.schemaVersion),
    ("device_id", .string header.deviceId), ("boot_id", .string header.bootId),
    ("sequence", .int header.sequence), ("event_type", .string header.eventType),
    ("firmware_version", .ofNumber header.firmwareVersion), ("uptime_ms", .ofNumber header.uptimeMs),
    ("timestamp_ns", .ofNumber header.timestampNs)]

def RawRecord.fields (record : RawRecord) : List (String × FieldValue) :=
  record.header.fields ++ [("payload_json", .string record.payloadJson)]

def MetricRecord.fields (record : MetricRecord) : List (String × FieldValue) :=
  record.header.fields ++ [("metric_index", .int record.metricIndex),
    ("metric_key", .string record.metricKey), ("metric_unit", .ofText record.metricUnit),
    ("value_type", .string record.valueType), ("value_double", .ofValue record.valueDouble),
    ("value_int", .ofValue record.valueInt), ("value_bool", .ofValue record.valueBool),
    ("value_string", .ofValue record.valueString),
    ("value_bytes_hex", .ofValue record.valueBytesHex)]

def SignalFrameRecord.fields (record : SignalFrameRecord) : List (String × FieldValue) :=
  record.header.fields ++ [("stream_key", .string record.streamKey),
    ("sample_interval_ns", .int record.sampleIntervalNs),
    ("sample_count", .int record.sampleCount), ("encoding", .string record.encoding),
    ("layout", .string record.layout), ("channels_json", .string record.channelsJson),
    ("samples_b64", .string record.samplesB64)]

inductive TopicRecord where
  | raw (record : RawRecord)
  | metric (record : MetricRecord)
  | signalFrame (record : SignalFrameRecord)

def TopicRecord.schema : TopicRecord → RecordSchema
  | .raw _ => RAW_EVENT_SCHEMA
  | .metric _ => METRIC_EVENT_SCHEMA
  | .signalFrame _ => SIGNAL_FRAME_EVENT_SCHEMA

def TopicRecord.fields : TopicRecord → List (String × FieldValue)
  | .raw record => record.fields
  | .metric record => record.fields
  | .signalFrame record => record.fields

def topicRecords (event : NormalizedEvent) : List TopicRecord :=
  .raw (buildSinkRecord event) :: (buildMetricRecords event).map .metric ++
    (buildSignalFrameRecords event).map .signalFrame

/-- What becomes of a send: acknowledged, or an exception for a record that may have
reached its topic all the same. -/
inductive SendOutcome where
  | acked
  | failed (delivered : Bool)
  deriving DecidableEq

structure Broker where
  send : Nat → SendOutcome
  flush : Bool

/-- The records that reach their topics, and whether every send was acknowledged. -/
def sendFrom (broker : Broker) : Nat → List TopicRecord → List TopicRecord × Bool
  | _, [] => ([], true)
  | n, record :: records =>
    match broker.send n with
    | .acked =>
      let sent := sendFrom broker (n + 1) records
      (record :: sent.1, sent.2)
    | .failed delivered => (if delivered then [record] else [], false)

/-- `_publish_sync`: the records that reach their topics, and whether it returns. -/
def publishSync (broker : Broker) (event : NormalizedEvent) : List TopicRecord × Bool :=
  let sent := sendFrom broker 0 (topicRecords event)
  (sent.1, sent.2 && broker.flush)

end Aetus.Ingest
