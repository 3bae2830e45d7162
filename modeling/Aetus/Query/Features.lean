import Aetus.Query.Repository

/-!
The query API's summary of a sampled stream: `compute_channel_stats` of signal_decode.py, and
the feature rows of repository.py.
-/

set_option autoImplicit false

namespace Aetus.Query
open Aetus.Base Aetus.Postgres

variable {F : Type}

structure ChannelStats (F : Type) where
  key : List Char
  unit : Option (List Char)
  minimum : F
  maximum : F
  average : F
  rms : F
  stddev : F
  peakAbs : F
  sampleCount : Nat

/-- `sum(values) / len(values)` -/
def averageOf (floats : Floats F) (values : List F) : F :=
  floats.div (floats.sum values) (floats.ofInt values.length)

/-- `(value - average) ** 2` of each value. -/
def squaredDeviations (floats : Floats F) (values : List F) : Option (List F) :=
  values.mapM fun value => floats.square (floats.sub value (averageOf floats values))

def channelStats (floats : Floats F) (key : List Char) (unit : Option (List Char)) (first : F)
    (rest squares : List F) : ChannelStats F where
  key := key
  unit := unit
  minimum := minFrom floats first rest
  maximum := maxFrom floats first rest
  average := averageOf floats (first :: rest)
  rms := floats.sqrt (averageOf floats ((first :: rest).map fun value => floats.mul value value))
  stddev := floats.sqrt (averageOf floats squares)
  peakAbs := maxFrom floats (floats.abs first) (rest.map floats.abs)
  sampleCount := (first :: rest).length

/-- The body of the loop over `values_by_channel.items()`. -/
def appendStats (floats : Floats F) (channelByKey : OrderedDict (List Char) (Channel F))
    (stats : List (ChannelStats F)) : List Char × List F → Except SeriesError (List (ChannelStats F))
  | (_, []) => .ok stats
  | (key, first :: rest) =>
    match squaredDeviations floats (first :: rest) with
    | none => .error .overflowError
    | some squares =>
      match channelByKey.get? key with
      | none => .error (.decode (.keyError key))
      | some channel => .ok (stats ++ [channelStats floats key channel.unit first rest squares])

/-- `d.update({channel.key: channel for channel in channels})` -/
def updateChannels (d : OrderedDict (List Char) (Channel F)) (channels : List (Channel F)) :
    OrderedDict (List Char) (Channel F) :=
  channels.foldl (fun d channel => d.assign channel.key channel) d

def computeChannelStats (floats : Floats F) (valuesByChannel : OrderedDict (List Char) (List F))
    (channels : List (Channel F)) : Except SeriesError (List (ChannelStats F)) :=
  valuesByChannel.foldlM (appendStats floats (updateChannels [] channels)) []

/-- `decoded.items()`, in the order of the channels. -/
def decodedItems (channels : List (Channel F)) (decoded : Values F) :
    OrderedDict (List Char) (List F) :=
  channels.foldl (fun items channel =>
    items.assign channel.key ((decoded.lookup channel.key).getD [])) []

structure Merged (F : Type) where
  mergedValues : OrderedDict (List Char) (List F)
  channelsByKey : OrderedDict (List Char) (Channel F)
  /-- `device_pk` and `signal_pk`, those of the last frame. -/
  owner : Option (List Char × StreamDefinition)

def mergeFrame (reader : Reader F) (merged : Merged F) (frame : StoredFrame) :
    Except SeriesError (Merged F) :=
  match decodeFrame reader frame with
  | .error e => .error (.decode e)
  | .ok (channels, decoded) => .ok {
      mergedValues := (decodedItems channels decoded).foldl
        (fun mergedValues item => mergedValues.alter item.1 [] (· ++ item.2)) merged.mergedValues
      channelsByKey := updateChannels merged.channelsByKey channels
      owner := some (frame.device, frame.signal) }

def featureRow (device : List Char) (signal : StreamDefinition) (start stop expiresAt : Timestamptz)
    (row : ChannelStats F) : FeatureRow F where
  device := device
  signal := signal
  windowStart := start
  windowEnd := stop
  channelKey := row.key
  channelUnit := row.unit
  sampleCount := row.sampleCount
  minValue := row.minimum
  maxValue := row.maximum
  avgValue := row.average
  rmsValue := row.rms
  stddevValue := row.stddev
  peakAbsValue := row.peakAbs
  expiresAt := expiresAt

abbrev FeatureTable (F : Type) := Keyed (FeatureRow.key (F := F))

def materializeFeatureRows (reader : Reader F) (features : FeatureTable F)
    (start stop : Timestamptz) (frames : List StoredFrame) (expiresAt : Timestamptz) :
    Except SeriesError (FeatureTable F) :=
  match frames.foldlM (mergeFrame reader) ⟨[], [], none⟩ with
  | .error e => .error e
  | .ok merged =>
    match merged.owner with
    | none => .ok features
    | some (device, signal) =>
      match computeChannelStats reader.floats merged.mergedValues
          (merged.channelsByKey.map Prod.snd) with
      | .error e => .error e
      | .ok stats =>
        if stats.all fun row => reader.storesChannel row.key row.unit then
          .ok ((stats.map (featureRow device signal start stop expiresAt)).foldl Keyed.upsert features)
        else .error .dataError

def deleteExpiredFeatures (features : FeatureTable F) (now : Timestamptz) : FeatureTable F :=
  features.delete fun row => row.expiresAt ≤ now

def FeatureRow.isRead (deviceId key : List Char) (start stop dbNow : Timestamptz)
    (row : FeatureRow F) : Bool :=
  row.device = deviceId ∧ row.signal.streamKey = key ∧ row.windowStart = start ∧
    row.windowEnd = stop ∧ dbNow < row.expiresAt

def readFeatureRows (collation : Collation) (features : FeatureTable F) (deviceId key : List Char)
    (start stop dbNow : Timestamptz) : List (FeatureRow F) :=
  collation.orderBy (·.channelKey) (features.rows.filter (·.isRead deviceId key start stop dbNow))

structure Feature (F : Type) where
  unit : Option (List Char)
  sampleCount : Nat
  min : F
  max : F
  avg : F
  rms : F
  stddev : F
  peakAbs : F

def featureOf (row : FeatureRow F) : Feature F where
  unit := row.channelUnit
  sampleCount := row.sampleCount
  min := row.minValue
  max := row.maxValue
  avg := row.avgValue
  rms := row.rmsValue
  stddev := row.stddevValue
  peakAbs := row.peakAbsValue

structure FeatureSummary (F : Type) where
  start : Timestamptz
  stop : Timestamptz
  features : OrderedDict (List Char) (Feature F)

def featureSummaryResponse (start stop : Timestamptz) (rows : List (FeatureRow F)) :
    FeatureSummary F :=
  ⟨start, stop, rows.foldl (fun features row => features.assign row.channelKey (featureOf row)) []⟩

/-- The transaction is rolled back when it fails. `now` is the clock of the service. -/
def summary (platform : Platform F) (store : Store F) (deviceId key : List Char)
    (start stop : Timestamptz) (featureTtlSeconds : Int) (now dbNow : Timestamptz) :
    Except SeriesError (Store F × FeatureSummary F) :=
  let expiresAt := now + 1000000 * featureTtlSeconds
  let features := deleteExpiredFeatures store.features now
  match readFeatureRows platform.collation features deviceId key start stop dbNow with
  | first :: rows =>
    .ok ({ store with features := features }, featureSummaryResponse start stop (first :: rows))
  | [] =>
    match materializeFeatureRows platform.reader features start stop
        (readSignalFrames platform.reader store.telemetry deviceId key start stop) expiresAt with
    | .error e => .error e
    | .ok features =>
      .ok ({ store with features := features }, featureSummaryResponse start stop
        (readFeatureRows platform.collation features deviceId key start stop dbNow))

end Aetus.Query
