import Aetus.Base.StarSchema
import Aetus.Ingest.Conformance

/-!
The tables of initdb/00-base.sql that the sinks write, and the triggers that take a
staging row on to the final tables.
-/

set_option autoImplicit false

namespace Aetus.Postgres
open Aetus.Base Aetus.Ingest

/-- Microseconds since 1970. -/
abbrev Timestamptz := Int

structure Inet where
  address : IpAddress
  netmask : Nat

/-- The conversions of the server that the triggers call; none where a cast raises. -/
structure Conversions where
  timestamptz : List Char → Option Timestamptz
  toTimestamp : Nat → Timestamptz
  inet : List Char → Option Inet

structure MetricDefinition where
  metricKey : List Char
  metricUnit : List Char
  valueType : List Char
  deriving DecidableEq

structure StreamDefinition where
  streamKey : List Char
  encoding : List Char
  layout : List Char
  channelsJson : List Char
  deriving DecidableEq

/-- A row of device_metric_points; in the table `δ`, `β` and `μ` are the serial numbers of its
device, boot session and metric definition, in the joined table these themselves. -/
structure MetricPoint (δ β μ : Type) where
  eventTime : Timestamptz
  eventTimeNs : Option Nat
  receivedAt : Timestamptz
  device : δ
  boot : β
  metric : μ
  sequence : Nat
  metricIndex : Nat
  schemaVersion : Nat
  firmwareVersion : Option Nat
  uptimeMs : Option Nat
  sourceIp : Option Inet
  valueDouble : Option NormalizedValue
  valueInt : Option NormalizedValue
  valueBool : Option NormalizedValue
  valueString : Option NormalizedValue
  valueBytesHex : Option NormalizedValue
  requestId : List Char

/-- A row of device_signal_frames. -/
structure FrameRow (δ β σ : Type) where
  eventTime : Timestamptz
  eventTimeNs : Option Nat
  receivedAt : Timestamptz
  device : δ
  boot : β
  signal : σ
  sequence : Nat
  schemaVersion : Nat
  firmwareVersion : Option Nat
  uptimeMs : Option Nat
  sourceIp : Option Inet
  sampleIntervalNs : Nat
  sampleCount : Nat
  samples : List UInt8
  samplesSize : Nat
  requestId : List Char

def MetricPoint.key {δ β μ : Type} (point : MetricPoint δ β μ) : Timestamptz × List Char × Nat :=
  (point.eventTime, point.requestId, point.metricIndex)

def FrameRow.key {δ β σ : Type} (row : FrameRow δ β σ) : Timestamptz × List Char :=
  (row.eventTime, row.requestId)

def rawKey (record : RawRecord) : List Char × List Char × Nat :=
  (record.header.deviceId, record.header.bootId, record.header.sequence)

def metricStagingKey (record : MetricRecord) : List Char × Nat :=
  (record.header.requestId, record.metricIndex)

def frameStagingKey (record : SignalFrameRecord) : List Char := record.header.requestId

/-- The columns of the first three tables are the fields of the records. -/
structure Database where
  rawDeviceEvents : Keyed rawKey
  metricIngestStaging : Keyed metricStagingKey
  signalFrameIngestStaging : Keyed frameStagingKey
  devices : Dimension (List Char) Unit
  /-- With first_seen_at. -/
  deviceBootSessions : Dimension (Nat × List Char) Timestamptz
  metricDefinitions : Dimension MetricDefinition Unit
  signalStreamDefinitions : Dimension StreamDefinition Unit
  deviceMetricPoints : Keyed (@MetricPoint.key Nat Nat Nat)
  deviceSignalFrames : Keyed (@FrameRow.key Nat Nat Nat)

def Database.empty : Database where
  rawDeviceEvents := .empty _
  metricIngestStaging := .empty _
  signalFrameIngestStaging := .empty _
  devices := .empty
  deviceBootSessions := .empty
  metricDefinitions := .empty
  signalStreamDefinitions := .empty
  deviceMetricPoints := .empty _
  deviceSignalFrames := .empty _

def resolvedEventTime (c : Conversions) (header : RecordHeader) (receivedAt : Timestamptz) :
    Timestamptz :=
  match header.timestampNs with
  | some ns => c.toTimestamp ns
  | none => receivedAt

def metricPoint {δ β μ : Type} (c : Conversions) (new : MetricRecord) (receivedAt : Timestamptz)
    (device : δ) (boot : β) (metric : μ) : MetricPoint δ β μ where
  eventTime := resolvedEventTime c new.header receivedAt
  eventTimeNs := new.header.timestampNs
  receivedAt := receivedAt
  device := device
  boot := boot
  metric := metric
  sequence := new.header.sequence
  metricIndex := new.metricIndex
  schemaVersion := new.header.schemaVersion
  firmwareVersion := new.header.firmwareVersion
  uptimeMs := new.header.uptimeMs
  sourceIp := c.inet new.header.sourceIp
  valueDouble := new.valueDouble
  valueInt := new.valueInt
  valueBool := new.valueBool
  valueString := new.valueString
  valueBytesHex := new.valueBytesHex
  requestId := new.header.requestId

def frameRow {δ β σ : Type} (c : Conversions) (new : SignalFrameRecord) (receivedAt : Timestamptz)
    (decodedSamples : List UInt8) (device : δ) (boot : β) (signal : σ) : FrameRow δ β σ where
  eventTime := resolvedEventTime c new.header receivedAt
  eventTimeNs := new.header.timestampNs
  receivedAt := receivedAt
  device := device
  boot := boot
  signal := signal
  sequence := new.header.sequence
  schemaVersion := new.header.schemaVersion
  firmwareVersion := new.header.firmwareVersion
  uptimeMs := new.header.uptimeMs
  sourceIp := c.inet new.header.sourceIp
  sampleIntervalNs := new.sampleIntervalNs
  sampleCount := new.sampleCount
  samples := decodedSamples
  samplesSize := decodedSamples.length
  requestId := new.header.requestId

/-- `COALESCE(NEW.metric_unit, '')`. -/
def metricDefinition (new : MetricRecord) : MetricDefinition :=
  ⟨new.metricKey, new.metricUnit.getD [], new.valueType⟩

def streamDefinition (new : SignalFrameRecord) : StreamDefinition :=
  ⟨new.streamKey, new.encoding, new.layout, new.channelsJson⟩

/-- The part of both triggers that resolves the device and the boot session. A number that is
not found would be null and raise at the insert that needs it. -/
def Database.resolveBoot (db : Database) (header : RecordHeader) (receivedAt : Timestamptz) :
    Option (Database × Nat × Nat) :=
  let devices := db.devices.insertOrIgnore header.deviceId ()
  match devices.pkOf header.deviceId with
  | none => none
  | some devicePk =>
    let sessions := db.deviceBootSessions.insertOrIgnore (devicePk, header.bootId) receivedAt
    match sessions.pkOf (devicePk, header.bootId) with
    | none => none
    | some bootPk =>
      some ({ db with devices := devices, deviceBootSessions := sessions }, devicePk, bootPk)

def ingestMetricStagingRow (c : Conversions) (db : Database) (new : MetricRecord) :
    Option Database :=
  match c.timestamptz new.header.receivedAt with
  | none => none
  | some receivedAt =>
    match db.resolveBoot new.header receivedAt with
    | none => none
    | some (db, devicePk, bootPk) =>
      let definitions := db.metricDefinitions.insertOrIgnore (metricDefinition new) ()
      match definitions.pkOf (metricDefinition new) with
      | none => none
      | some metricPk =>
        some { db with
          metricDefinitions := definitions
          deviceMetricPoints := db.deviceMetricPoints.upsert
            (metricPoint c new receivedAt devicePk bootPk metricPk) }

def ingestSignalFrameStagingRow (c : Conversions) (db : Database) (new : SignalFrameRecord) :
    Option Database :=
  match c.timestamptz new.header.receivedAt with
  | none => none
  | some receivedAt =>
    match b64decode new.samplesB64 with
    | none => none
    | some decodedSamples =>
      match db.resolveBoot new.header receivedAt with
      | none => none
      | some (db, devicePk, bootPk) =>
        let definitions := db.signalStreamDefinitions.insertOrIgnore (streamDefinition new) ()
        match definitions.pkOf (streamDefinition new) with
        | none => none
        | some signalPk =>
          some { db with
            signalStreamDefinitions := definitions
            deviceSignalFrames := db.deviceSignalFrames.upsert
              (frameRow c new receivedAt decodedSamples devicePk bootPk signalPk) }

/-- A text column takes any text without a NUL. -/
def storable : FieldValue → Bool
  | .string text => !text.contains '\x00'
  | _ => true

/-- The record fits the columns of its table, which are those of its schema. -/
def FitsColumns (record : TopicRecord) : Prop :=
  record.schema.Conforms record.fields ∧ ∀ field ∈ record.fields, storable field.2 = true

instance (record : TopicRecord) : Decidable (FitsColumns record) :=
  inferInstanceAs (Decidable ((∀ field ∈ record.schema.fields, _ = true) ∧ _))

/-- The upsert of a record into the table of its topic, with the trigger of that table. -/
def Database.upsertRow (c : Conversions) (db : Database) : TopicRecord → Option Database
  | .raw record => some { db with rawDeviceEvents := db.rawDeviceEvents.upsert record }
  | .metric record => ingestMetricStagingRow c
      { db with metricIngestStaging := db.metricIngestStaging.upsert record } record
  | .signalFrame record => ingestSignalFrameStagingRow c
      { db with signalFrameIngestStaging := db.signalFrameIngestStaging.upsert record } record

def Database.upsert (c : Conversions) (db : Database) (record : TopicRecord) : Option Database :=
  if FitsColumns record then db.upsertRow c record else none

/-- A statement that raises changes nothing. -/
def Database.apply (c : Conversions) (db : Database) (record : TopicRecord) : Database :=
  (db.upsert c record).getD db

/-! The final tables joined with their dimensions -/

def Database.bootOf (db : Database) (pk : Nat) : Option (List Char × List Char) :=
  (db.deviceBootSessions.keyOf pk).bind fun session =>
    (db.devices.keyOf session.1).map fun device => (device, session.2)

def Database.joinPoint (db : Database) (point : MetricPoint Nat Nat Nat) :
    Option (MetricPoint (List Char) (List Char × List Char) MetricDefinition) :=
  (db.devices.keyOf point.device).bind fun device =>
    (db.bootOf point.boot).bind fun boot =>
      (db.metricDefinitions.keyOf point.metric).map fun metric =>
        { point with device := device, boot := boot, metric := metric }

def Database.joinFrame (db : Database) (row : FrameRow Nat Nat Nat) :
    Option (FrameRow (List Char) (List Char × List Char) StreamDefinition) :=
  (db.devices.keyOf row.device).bind fun device =>
    (db.bootOf row.boot).bind fun boot =>
      (db.signalStreamDefinitions.keyOf row.signal).map fun signal =>
        { row with device := device, boot := boot, signal := signal }

def Database.points (db : Database) :
    List (MetricPoint (List Char) (List Char × List Char) MetricDefinition) :=
  db.deviceMetricPoints.rows.filterMap db.joinPoint

def Database.frames (db : Database) :
    List (FrameRow (List Char) (List Char × List Char) StreamDefinition) :=
  db.deviceSignalFrames.rows.filterMap db.joinFrame

end Aetus.Postgres
