import Aetus.Base.Base64
import Aetus.Base.Json
import Aetus.Base.Lists
import Aetus.Ingest.App

/-!
The events of ingest.proto and the ingest service's normalize.py. Protobuf text is a
list of characters; an open enumeration is its number.
-/

set_option autoImplicit false

namespace Aetus.Ingest
open Aetus.Base

def EVENT_TYPE_TELEMETRY : Int32 := 1
def EVENT_TYPE_STATUS : Int32 := 2
def EVENT_TYPE_ALERT : Int32 := 3

def SIGNAL_SAMPLE_ENCODING_FLOAT32_LE : Int32 := 1
def SIGNAL_SAMPLE_ENCODING_INT16_LE : Int32 := 2
def SIGNAL_SAMPLE_ENCODING_UINT16_LE : Int32 := 3
def SIGNAL_SAMPLE_ENCODING_INT32_LE : Int32 := 4

def SIGNAL_SAMPLE_LAYOUT_INTERLEAVED : Int32 := 1
def SIGNAL_SAMPLE_LAYOUT_PLANAR : Int32 := 2

inductive MetricValue where
  | int (value : Int64)
  | double (value : Double)
  | bool (value : Bool)
  | string (value : List Char)
  | bytes (value : List UInt8)

structure Metric where
  key : List Char
  value : Option MetricValue
  unit : List Char

structure SignalChannel where
  key : List Char
  unit : List Char
  scale : Option Double
  offset : Option Double

structure SignalFrame where
  streamKey : List Char
  sampleIntervalNs : UInt64
  sampleCount : UInt32
  encoding : Int32
  layout : Int32
  channels : List SignalChannel
  samples : List UInt8

inductive TelemetryPayload where
  | metricSet (metrics : List Metric)
  | signalFrame (frame : SignalFrame)

inductive Body where
  | telemetry (payload : Option TelemetryPayload)
  | status (status : Int32) (rssi : Int32) (freeHeap : UInt32) (rebootReason : List Char)
  | alert (code : List Char) (severity : Int32) (message : List Char)

structure IngestEvent where
  schemaVersion : UInt32
  deviceId : List Char
  sequence : UInt64
  eventType : Int32
  bootId : List Char
  firmwareVersion : UInt32
  uptimeMs : UInt64
  timestampNs : UInt64
  body : Option Body

def SIGNAL_ENCODING_NAMES : List (Int32 × List Char) :=
  [(SIGNAL_SAMPLE_ENCODING_FLOAT32_LE, "float32_le".toList),
    (SIGNAL_SAMPLE_ENCODING_INT16_LE, "int16_le".toList),
    (SIGNAL_SAMPLE_ENCODING_UINT16_LE, "uint16_le".toList),
    (SIGNAL_SAMPLE_ENCODING_INT32_LE, "int32_le".toList)]

def SIGNAL_ENCODING_SAMPLE_BYTES : List (Int32 × Nat) :=
  [(SIGNAL_SAMPLE_ENCODING_FLOAT32_LE, 4), (SIGNAL_SAMPLE_ENCODING_INT16_LE, 2),
    (SIGNAL_SAMPLE_ENCODING_UINT16_LE, 2), (SIGNAL_SAMPLE_ENCODING_INT32_LE, 4)]

def SIGNAL_LAYOUT_NAMES : List (Int32 × List Char) :=
  [(SIGNAL_SAMPLE_LAYOUT_INTERLEAVED, "interleaved".toList),
    (SIGNAL_SAMPLE_LAYOUT_PLANAR, "planar".toList)]

/-- Python's `text or None`. -/
def textOrNone (text : List Char) : Option (List Char) := if text = [] then none else some text

/-- Python's `number or None`. -/
def numberOrNone (n : Nat) : Option Nat := if n = 0 then none else some n

inductive NormalizedValue where
  | int (value : Int)
  | double (value : Double)
  | bool (value : Bool)
  | string (value : List Char)

structure NormalizedMetric where
  key : List Char
  type : List Char
  value : NormalizedValue
  unit : Option (List Char)

structure NormalizedChannel where
  key : List Char
  unit : Option (List Char)
  scale : Option Double
  offset : Option Double

structure NormalizedSignalFrame where
  streamKey : List Char
  sampleIntervalNs : Nat
  sampleCount : Nat
  encoding : List Char
  layout : List Char
  channels : List NormalizedChannel
  samplesB64 : List Char

inductive NormalizedPayload where
  | metricSet (metrics : List NormalizedMetric)
  | signalFrame (frame : NormalizedSignalFrame)
  | status (status rssi : Int) (freeHeap : Nat) (rebootReason : Option (List Char))
  | alert (code : List Char) (severity : Int) (message : List Char)

structure NormalizedEvent where
  requestId : List Char
  receivedAt : List Char
  sourceIp : List Char
  schemaVersion : Nat
  deviceId : List Char
  bootId : List Char
  sequence : Nat
  eventType : List Char
  firmwareVersion : Option Nat
  uptimeMs : Option Nat
  timestampNs : Option Nat
  payload : NormalizedPayload
  payloadJson : List Char

def metricValue (metric : Metric) : Except HttpException (List Char × NormalizedValue) :=
  match metric.value with
  | some (.int value) => .ok ("int".toList, .int value.toInt)
  | some (.double value) => .ok ("double".toList, .double value)
  | some (.bool value) => .ok ("bool".toList, .bool value)
  | some (.string value) => .ok ("string".toList, .string value)
  | some (.bytes value) => .ok ("bytes_hex".toList, .string (hexText value))
  | none => .error ⟨400, "metric value missing"⟩

def normalizeMetric (metric : Metric) : Except HttpException NormalizedMetric :=
  match metricValue metric with
  | .error e => .error e
  | .ok (type, value) => .ok ⟨metric.key, type, value, textOrNone metric.unit⟩

def normalizeChannel (channel : SignalChannel) : Except HttpException NormalizedChannel :=
  if channel.key = [] then .error ⟨400, "signal frame channel key required"⟩
  else .ok ⟨channel.key, textOrNone channel.unit, channel.scale, channel.offset⟩

def normalizeSignalFrame (frame : SignalFrame) : Except HttpException NormalizedSignalFrame :=
  if frame.streamKey = [] then .error ⟨400, "signal frame stream_key required"⟩
  else if frame.sampleIntervalNs = 0 then
    .error ⟨400, "signal frame sample_interval_ns required"⟩
  else if frame.sampleCount = 0 then .error ⟨400, "signal frame sample_count required"⟩
  else
    match SIGNAL_ENCODING_NAMES.lookup frame.encoding with
    | none => .error ⟨400, "signal frame encoding unsupported"⟩
    | some encoding =>
      match SIGNAL_LAYOUT_NAMES.lookup frame.layout with
      | none => .error ⟨400, "signal frame layout unsupported"⟩
      | some layout =>
        if frame.channels = [] then .error ⟨400, "signal frame channels required"⟩
        else
          match frame.channels.mapM normalizeChannel with
          | .error e => .error e
          | .ok channels =>
            let expectedSampleBytes := frame.sampleCount.toNat * channels.length *
              (SIGNAL_ENCODING_SAMPLE_BYTES.lookup frame.encoding).getD 0
            if frame.samples.length ≠ expectedSampleBytes then
              .error ⟨400, "signal frame samples length mismatch: expected " ++
                toString expectedSampleBytes ++ ", got " ++ toString frame.samples.length⟩
            else
              .ok ⟨frame.streamKey, frame.sampleIntervalNs.toNat, frame.sampleCount.toNat,
                encoding, layout, channels, b64encode frame.samples⟩

def eventTypeName (value : Int32) : List Char :=
  if value = EVENT_TYPE_TELEMETRY then "telemetry".toList
  else if value = EVENT_TYPE_STATUS then "status".toList
  else if value = EVENT_TYPE_ALERT then "alert".toList
  else "unknown".toList

def normalizePayload (event : IngestEvent) : Except HttpException NormalizedPayload :=
  match event.body with
  | some (.telemetry (some (.metricSet metrics))) =>
    match metrics.mapM normalizeMetric with
    | .error e => .error e
    | .ok metrics => .ok (.metricSet metrics)
  | some (.telemetry (some (.signalFrame frame))) =>
    match normalizeSignalFrame frame with
    | .error e => .error e
    | .ok frame => .ok (.signalFrame frame)
  | some (.telemetry none) => .error ⟨400, "telemetry payload missing"⟩
  | some (.status status rssi freeHeap rebootReason) =>
    .ok (.status status.toInt rssi.toInt freeHeap.toNat (textOrNone rebootReason))
  | some (.alert code severity message) => .ok (.alert code severity.toInt message)
  | none => .error ⟨400, "body missing"⟩

/-! The payload as the dictionary that `json.dumps` writes -/

def optionalTextJson : Option (List Char) → Json
  | none => .null
  | some text => .string text

def NormalizedValue.json : NormalizedValue → Json
  | .int value => .int value
  | .double value => .float value
  | .bool value => .bool value
  | .string value => .string value

def NormalizedMetric.json (metric : NormalizedMetric) : Json :=
  .object [("key".toList, .string metric.key), ("type".toList, .string metric.type),
    ("value".toList, metric.value.json), ("unit".toList, optionalTextJson metric.unit)]

/-- `scale` and `offset` are keys only when the channel has them. -/
def NormalizedChannel.json (channel : NormalizedChannel) : Json :=
  .object ([("key".toList, .string channel.key), ("unit".toList, optionalTextJson channel.unit)] ++
    (channel.scale.map fun scale => ("scale".toList, Json.float scale)).toList ++
    (channel.offset.map fun offset => ("offset".toList, Json.float offset)).toList)

def NormalizedSignalFrame.json (frame : NormalizedSignalFrame) : Json :=
  .object [("stream_key".toList, .string frame.streamKey),
    ("sample_interval_ns".toList, .int frame.sampleIntervalNs),
    ("sample_count".toList, .int frame.sampleCount), ("encoding".toList, .string frame.encoding),
    ("layout".toList, .string frame.layout),
    ("channels".toList, .array (frame.channels.map NormalizedChannel.json)),
    ("samples_b64".toList, .string frame.samplesB64)]

def NormalizedPayload.json : NormalizedPayload → Json
  | .metricSet metrics => .object [("kind".toList, .string "metric_set".toList),
      ("metrics".toList, .array (metrics.map NormalizedMetric.json))]
  | .signalFrame frame => .object [("kind".toList, .string "signal_frame".toList),
      ("signal_frame".toList, frame.json)]
  | .status deviceStatus rssi freeHeap rebootReason => .object [("status".toList, .int deviceStatus),
      ("rssi".toList, .int rssi), ("free_heap".toList, .int freeHeap),
      ("reboot_reason".toList, optionalTextJson rebootReason)]
  | .alert code severity message => .object [("code".toList, .string code),
      ("severity".toList, .int severity), ("message".toList, .string message)]

/-- What the server adds to an event: the id it draws, its clock, the sender's address. -/
structure Envelope where
  requestId : List Char
  receivedAt : List Char
  sourceIp : List Char

/-- The dictionary that `normalize_event` returns. -/
def normalizedEvent (envelope : Envelope) (event : IngestEvent) (payload : NormalizedPayload) :
    NormalizedEvent where
  requestId := envelope.requestId
  receivedAt := envelope.receivedAt
  sourceIp := envelope.sourceIp
  schemaVersion := event.schemaVersion.toNat
  deviceId := event.deviceId
  bootId := event.bootId
  sequence := event.sequence.toNat
  eventType := eventTypeName event.eventType
  firmwareVersion := numberOrNone event.firmwareVersion.toNat
  uptimeMs := numberOrNone event.uptimeMs.toNat
  timestampNs := numberOrNone event.timestampNs.toNat
  payload := payload
  payloadJson := payload.json.dumps

def normalizeEvent (envelope : Envelope) (event : IngestEvent) :
    Except HttpException NormalizedEvent :=
  match normalizePayload event with
  | .error e => .error e
  | .ok payload => .ok (normalizedEvent envelope event payload)

def SignalChannel.normalized (channel : SignalChannel) : NormalizedChannel :=
  ⟨channel.key, textOrNone channel.unit, channel.scale, channel.offset⟩

theorem normalizeChannel_ok {channel : SignalChannel} {normalized : NormalizedChannel}
    (h : normalizeChannel channel = .ok normalized) :
    channel.key ≠ [] ∧ channel.normalized = normalized := by
  unfold normalizeChannel at h
  split at h
  · cases h
  · next hkey => exact ⟨hkey, Except.ok.inj h⟩

theorem channels_normalized {channels : List SignalChannel} {normalized : List NormalizedChannel}
    (h : channels.mapM normalizeChannel = .ok normalized) :
    channels.map SignalChannel.normalized = normalized := by
  rw [← List.forall₂_eq_eq_eq, List.forall₂_map_left_iff]
  exact (mapM_ok h).imp fun _ _ hchannel => (normalizeChannel_ok hchannel).2

structure FrameAccepted (frame : SignalFrame) (normalized : NormalizedSignalFrame) : Prop where
  hasStreamKey : frame.streamKey ≠ []
  hasInterval : frame.sampleIntervalNs ≠ 0
  hasCount : frame.sampleCount ≠ 0
  hasChannels : frame.channels ≠ []
  length : frame.samples.length = frame.sampleCount.toNat * frame.channels.length *
    (SIGNAL_ENCODING_SAMPLE_BYTES.lookup frame.encoding).getD 0
  streamKey : normalized.streamKey = frame.streamKey
  sampleIntervalNs : normalized.sampleIntervalNs = frame.sampleIntervalNs.toNat
  sampleCount : normalized.sampleCount = frame.sampleCount.toNat
  encoding : SIGNAL_ENCODING_NAMES.lookup frame.encoding = some normalized.encoding
  layout : SIGNAL_LAYOUT_NAMES.lookup frame.layout = some normalized.layout
  channels : normalized.channels = frame.channels.map SignalChannel.normalized
  samplesB64 : normalized.samplesB64 = b64encode frame.samples

theorem normalizeSignalFrame_ok {frame : SignalFrame} {normalized : NormalizedSignalFrame}
    (h : normalizeSignalFrame frame = .ok normalized) : FrameAccepted frame normalized := by
  unfold normalizeSignalFrame at h
  split at h
  · cases h
  · next hstream =>
    split at h
    · cases h
    · next hinterval =>
      split at h
      · cases h
      · next hcount =>
        split at h
        · cases h
        · next encoding hencoding =>
          split at h
          · cases h
          · next layout hlayout =>
            split at h
            · cases h
            · next hchannels =>
              split at h
              · cases h
              · next channels hmap =>
                obtain rfl := channels_normalized hmap
                simp only [List.length_map] at h
                split at h
                · cases h
                · next hlength =>
                  obtain rfl := Except.ok.inj h
                  exact ⟨hstream, hinterval, hcount, hchannels, not_not.mp hlength, rfl, rfl, rfl,
                    hencoding, hlayout, rfl, rfl⟩

theorem mapM_normalizeChannel {channels : List SignalChannel} :
    (∃ normalized, channels.mapM normalizeChannel = .ok normalized) ↔
      ∀ channel ∈ channels, channel.key ≠ [] := by
  constructor
  · intro ⟨normalized, h⟩ channel hchannel
    obtain ⟨n, hn⟩ := ok_of_mapM h hchannel
    exact (normalizeChannel_ok hn).1
  · intro h
    exact ⟨_, mapM_eq_ok fun channel hchannel => if_neg (h channel hchannel)⟩

theorem normalizeSignalFrame_accepts {frame : SignalFrame} {width : Nat} {layout : List Char}
    (hstream : frame.streamKey ≠ []) (hinterval : frame.sampleIntervalNs ≠ 0)
    (hcount : frame.sampleCount ≠ 0) (hchannels : frame.channels ≠ [])
    (hencoding : (SIGNAL_ENCODING_NAMES.lookup frame.encoding).isSome = true)
    (hwidth : SIGNAL_ENCODING_SAMPLE_BYTES.lookup frame.encoding = some width)
    (hlayout : SIGNAL_LAYOUT_NAMES.lookup frame.layout = some layout) :
    (∃ n, normalizeSignalFrame frame = .ok n) ↔ (∀ channel ∈ frame.channels, channel.key ≠ []) ∧
      frame.samples.length = frame.sampleCount.toNat * frame.channels.length * width := by
  obtain ⟨encoding, hencoding⟩ := Option.isSome_iff_exists.mp hencoding
  constructor
  · intro ⟨n, hn⟩
    have hlength := (normalizeSignalFrame_ok hn).length
    rw [hwidth, Option.getD_some] at hlength
    refine ⟨mapM_normalizeChannel.mp ?_, hlength⟩
    unfold normalizeSignalFrame at hn
    rw [if_neg hstream, if_neg hinterval, if_neg hcount, hencoding, hlayout] at hn
    dsimp only at hn
    rw [if_neg hchannels] at hn
    split at hn
    · cases hn
    · next normalized hmap => exact ⟨normalized, hmap⟩
  · intro ⟨hkeys, hlength⟩
    obtain ⟨normalized, hmap⟩ := mapM_normalizeChannel.mpr hkeys
    have hsame : normalized.length = frame.channels.length := ((mapM_ok hmap).length_eq).symm
    unfold normalizeSignalFrame
    rw [if_neg hstream, if_neg hinterval, if_neg hcount, hencoding, hlayout]
    dsimp only
    rw [if_neg hchannels, hmap]
    dsimp only
    rw [hsame, hwidth, Option.getD_some, if_neg (not_not.mpr hlength)]
    exact ⟨_, rfl⟩

theorem normalizeEvent_ok {envelope : Envelope} {event : IngestEvent} {n : NormalizedEvent}
    (h : normalizeEvent envelope event = .ok n) :
    ∃ payload, normalizePayload event = .ok payload ∧ n = normalizedEvent envelope event payload := by
  unfold normalizeEvent at h
  split at h
  · cases h
  · next payload hpayload => exact ⟨payload, hpayload, (Except.ok.inj h).symm⟩

end Aetus.Ingest
