import Mathlib.Data.List.Dedup
import Aetus.Ingest.ControlDb
import Aetus.Query.Series

/-!
The query API's repository.py: `PostgresQueryRepository`. The clock of the database stands
still in a transaction.
-/

set_option autoImplicit false

namespace Aetus.Query
open Aetus.Base Aetus.Postgres

variable {F : Type}

/-- A row of signal_rollup_points, joined. -/
structure RollupRow (F : Type) where
  bucketStart : Timestamptz
  bucketNs : Int
  device : List Char
  signal : StreamDefinition
  channelKey : List Char
  channelUnit : Option (List Char)
  minValue : F
  maxValue : F
  avgValue : Option F

/-- A row of signal_frame_features, joined. -/
structure FeatureRow (F : Type) where
  device : List Char
  signal : StreamDefinition
  windowStart : Timestamptz
  windowEnd : Timestamptz
  channelKey : List Char
  channelUnit : Option (List Char)
  sampleCount : Nat
  minValue : F
  maxValue : F
  avgValue : F
  rmsValue : F
  stddevValue : F
  peakAbsValue : F
  expiresAt : Timestamptz

def FeatureRow.key (row : FeatureRow F) :
    List Char × StreamDefinition × Timestamptz × Timestamptz × List Char :=
  (row.device, row.signal, row.windowStart, row.windowEnd, row.channelKey)

structure Store (F : Type) where
  telemetry : Telemetry
  rollups : List (RollupRow F)
  features : Keyed (FeatureRow.key (F := F))

structure Collation where
  le : List Char → List Char → Bool
  total : ∀ a b, le a b = true ∨ le b a = true
  trans : ∀ a b c, le a b = true → le b c = true → le a c = true

/-- `ORDER BY` a text. -/
def Collation.orderBy {ρ : Type} (collation : Collation) (text : ρ → List Char) (rows : List ρ) :
    List ρ :=
  rows.insertionSort fun a b => collation.le (text a) (text b) = true

/-- What the repository calls: the reader of rows, the order of texts and `ILIKE`, and what
Python knows of Unicode. -/
structure Platform (F : Type) where
  reader : Reader F
  collation : Collation
  ilike : List Char → List Char → Bool
  unicode : Ingest.Unicode

inductive StreamKind where
  | scalar
  | sampled
  deriving DecidableEq

structure StreamRef (F : Type) where
  key : List Char
  kind : StreamKind
  unit : Option (List Char)
  latestEventTime : Timestamptz
  valueType : Option (List Char)
  encoding : Option (List Char)
  layout : Option (List Char)
  channels : Option (List (Channel F))
  nominalRateHz : Option F

/-- Matching is with `%` at both ends of the text. psycopg sends no text that has a NUL. -/
def searchDevices (platform : Platform F) (store : Store F) (query : List Char) (limit : Int) :
    Option (List (List Char)) :=
  let normalized := Ingest.strip platform.unicode.isSpace query
  let boundedLimit := (max 1 (min limit 100)).toNat
  if '\x00' ∈ normalized then none
  else
    let devices :=
      if normalized ≠ [] then
        store.telemetry.devices.filter (platform.ilike (['%'] ++ normalized ++ ['%']))
      else store.telemetry.devices
    some ((platform.collation.orderBy id devices).take boundedLimit)

/-- `row["unit"] or None` -/
def orNone (text : List Char) : Option (List Char) := if text = [] then none else some text

def commonUnit (channels : List (Channel F)) : Option (List Char) :=
  match ((channels.filterMap (·.unit)).filter (· ≠ [])).dedup with
  | [unit] => some unit
  | _ => none

/-- The groups of the first query, one for each definition of a key. -/
def scalarStream (points : List StoredPoint) (metric : MetricDefinition) : Option (StreamRef F) :=
  ((points.filter (·.metric = metric)).map (·.eventTime)).max?.map fun latestEventTime =>
    { key := metric.metricKey
      kind := .scalar
      unit := orNone metric.metricUnit
      latestEventTime := latestEventTime
      valueType := some metric.valueType
      encoding := none
      layout := none
      channels := none
      nominalRateHz := none }

def sampledStream (reader : Reader F) (frames : List StoredFrame) (signal : StreamDefinition) :
    Option (StreamRef F) :=
  let rows := frames.filter (·.signal = signal)
  let channels := reader.channelsFromJson signal.channelsJson
  match (rows.map (·.eventTime)).max?, (rows.map (·.sampleIntervalNs)).min? with
  | some latestEventTime, some sampleIntervalNs =>
    some {
      key := signal.streamKey
      kind := .sampled
      unit := commonUnit channels
      latestEventTime := latestEventTime
      valueType := none
      encoding := some signal.encoding
      layout := some signal.layout
      channels := some channels
      nominalRateHz :=
        if sampleIntervalNs = 0 then none
        else some (reader.floats.div (reader.floats.ofInt 1000000000)
          (reader.floats.ofInt sampleIntervalNs)) }
  | _, _ => none

def listStreams (platform : Platform F) (store : Store F) (deviceId : List Char) :
    List (StreamRef F) :=
  let points := store.telemetry.points.filter (·.device = deviceId)
  let frames := store.telemetry.frames.filter (·.device = deviceId)
  let metrics := platform.collation.orderBy (·.metricKey) (points.map (·.metric)).dedup
  let signals := platform.collation.orderBy (·.streamKey) (frames.map (·.signal)).dedup
  metrics.filterMap (scalarStream points) ++
    signals.filterMap (sampledStream platform.reader frames)

inductive ScalarPoint where
  | text (ts : Timestamptz) (text : Option Ingest.NormalizedValue)
  | value (ts : Timestamptz) (value : Option Ingest.NormalizedValue)
  /-- As 1.0 and "true", or 0.0 and "false". -/
  | flag (ts : Timestamptz) (flag : Bool)

def scalarPoint (row : StoredPoint) : ScalarPoint :=
  if row.metric.valueType = "string".toList then .text row.eventTime row.valueString
  else if row.metric.valueType = "int".toList then .value row.eventTime row.valueInt
  else if row.metric.valueType = "bool".toList then
    .flag row.eventTime (match row.valueBool with
      | some (.bool value) => value
      | _ => false)
  else .value row.eventTime row.valueDouble

structure ScalarSeries where
  valueType : Option (List Char)
  points : List ScalarPoint

def scalarRows (telemetry : Telemetry) (deviceId key : List Char) (start stop : Timestamptz) :
    List StoredPoint :=
  orderByTime (·.eventTime) (telemetry.points.filter fun point =>
    point.device = deviceId ∧ point.metric.metricKey = key ∧
      start ≤ point.eventTime ∧ point.eventTime ≤ stop ∧
      (point.valueDouble.isSome || point.valueInt.isSome || point.valueBool.isSome ||
        point.valueString.isSome) = true)

def scalarSeries (store : Store F) (deviceId key : List Char) (start stop : Timestamptz)
    (maxPoints : Int) : ScalarSeries :=
  let rows := limitPoints (scalarRows store.telemetry deviceId key start stop) maxPoints
  ⟨rows.head?.map (·.metric.valueType), rows.map scalarPoint⟩

structure RollupPoint (F : Type) where
  ts : Timestamptz
  min : F
  max : F
  avg : Option F

structure RollupChannel (F : Type) where
  name : List Char
  unit : Option (List Char)
  points : List (RollupPoint F)

/-- `ORDER BY r.bucket_ns ASC, r.bucket_start ASC` -/
def rollupRows (store : Store F) (deviceId key : List Char) (start stop : Timestamptz) :
    List (RollupRow F) :=
  (store.rollups.filter fun row => row.device = deviceId ∧ row.signal.streamKey = key ∧
    start ≤ row.bucketStart ∧ row.bucketStart ≤ stop).insertionSort
      fun a b => a.bucketNs < b.bucketNs ∨ a.bucketNs = b.bucketNs ∧ a.bucketStart ≤ b.bucketStart

def rollupChannels (rows : List (RollupRow F)) (maxPoints : Int) : List (RollupChannel F) :=
  let channelPoints := rows.foldl (fun (channelPoints : OrderedDict (List Char) (RollupChannel F)) row =>
    channelPoints.alter row.channelKey ⟨row.channelKey, row.channelUnit, []⟩ fun channel =>
      { channel with points := channel.points ++
        [⟨row.bucketStart, row.minValue, row.maxValue, row.avgValue⟩] }) []
  channelPoints.map fun entry => { entry.2 with points := limitPoints entry.2.points maxPoints }

inductive SampledResponse (F : Type) where
  | rollup (bucketNs : Int) (channels : List (RollupChannel F))
  | raw (series : SampledSeries F)

def readSignalFrames (reader : Reader F) (telemetry : Telemetry) (deviceId key : List Char)
    (start stop : Timestamptz) : List StoredFrame :=
  telemetry.framesBetween reader.rounding deviceId key start stop

def sampledSeries (reader : Reader F) (store : Store F) (deviceId key : List Char)
    (start stop : Timestamptz) (maxPoints : Int) : Except SeriesError (SampledResponse F) :=
  match rollupRows store deviceId key start stop with
  | first :: rows => .ok (.rollup first.bucketNs (rollupChannels (first :: rows) maxPoints))
  | [] =>
    (rawFramesToSeries reader (readSignalFrames reader store.telemetry deviceId key start stop) maxPoints
      (some start) (some stop)).map .raw

structure FrameChannel (F : Type) where
  name : List Char
  unit : Option (List Char)
  values : List F

structure FrameResponse (F : Type) where
  ts : Timestamptz
  sampleIntervalNs : Nat
  sampleCount : Nat
  channels : List (FrameChannel F)

def frameChannel (valuesByChannel : Values F) (channel : Channel F) :
    Except SeriesError (FrameChannel F) :=
  match valuesByChannel.lookup channel.key with
  | none => .error (.decode (.keyError channel.key))
  | some values => .ok ⟨channel.key, channel.unit, values⟩

def frameResponse (reader : Reader F) (frame : StoredFrame) : Except SeriesError (FrameResponse F) :=
  match decodeFrame reader frame with
  | .error e => .error (.decode e)
  | .ok (channels, valuesByChannel) =>
    (channels.mapM (frameChannel valuesByChannel)).map fun channels =>
      ⟨frame.eventTime, frame.sampleIntervalNs, frame.sampleCount, channels⟩

def frames (reader : Reader F) (store : Store F) (deviceId key : List Char)
    (start stop : Timestamptz) : Except SeriesError (List (FrameResponse F)) :=
  (readSignalFrames reader store.telemetry deviceId key start stop).mapM (frameResponse reader)

end Aetus.Query
