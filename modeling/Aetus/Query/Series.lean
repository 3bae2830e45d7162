import Aetus.Base.OrderedDict
import Aetus.Postgres.Telemetry
import Aetus.Query.SignalDecode

/-!
The query API's repository.py: the series that is made of the rows of a range. Times are
whole microseconds.
-/

set_option autoImplicit false

namespace Aetus.Query
open Aetus.Base Aetus.Postgres

variable {F α : Type}

/-- Python's floats. `sum` is the builtin on a list of them; `x ** 2` can raise. -/
structure Floats (F : Type) extends Doubles F where
  sub : F → F → F
  div : F → F → F
  lt : F → F → Bool
  abs : F → F
  sqrt : F → F
  square : F → Option F
  sum : List F → F

def wholeFloats : Floats Int where
  toDoubles := wholeDoubles
  sub := (· - ·)
  div := (· / ·)
  lt := fun a b => a < b
  abs := fun a => a.natAbs
  sqrt := fun a => a.toNat.sqrt
  square := fun a => some (a * a)
  sum := List.sum

def minFrom (floats : Floats F) (first : F) (values : List F) : F :=
  values.foldl (fun least value => if floats.lt value least then value else least) first

def maxFrom (floats : Floats F) (first : F) (values : List F) : F :=
  values.foldl (fun greatest value => if floats.lt greatest value then value else greatest) first

/-- What the functions on rows call: the floats, `_channels_from_json` on a text that the ingest
service has stored, how a quotient of integers and the doubles of PostgreSQL are rounded, and whether
PostgreSQL takes the key and the unit of a channel. It refuses a text that has a NUL, and a key that
is too long for an index. -/
structure Reader (F : Type) where
  floats : Floats F
  channelsFromJson : List Char → List (Channel F)
  rounding : Rounding
  storesChannel : List Char → Option (List Char) → Bool

inductive SeriesError where
  | decode (error : DecodeError)
  | indexError
  | overflowError
  | dataError
  deriving DecidableEq

structure SeriesPoint (F : Type) where
  ts : Timestamptz
  value : F
  deriving DecidableEq

structure EnvelopePoint (F : Type) where
  ts : Timestamptz
  min : F
  max : F
  avg : F
  deriving DecidableEq

inductive Points (F : Type) where
  | samples (points : List (SeriesPoint F))
  | envelope (points : List (EnvelopePoint F))
  deriving DecidableEq

def Points.length : Points F → Nat
  | .samples points => points.length
  | .envelope points => points.length

structure SeriesChannel (F : Type) where
  name : List Char
  unit : Option (List Char)
  points : Points F
  deriving DecidableEq

/-- The response without the device id and the key; `source_sample_count` is not in the
response that rollups give. -/
structure SampledSeries (F : Type) where
  resolution : String
  mode : String
  sourceSampleCount : Option Nat
  channels : List (SeriesChannel F)
  deriving DecidableEq

/-- `rows[::stride]` -/
def everyNth (stride : Nat) (rows : List α) : List α :=
  (rows.zipIdx.filter fun e => e.2 % stride = 0).map Prod.fst

def limitPoints (rows : List α) (maxPoints : Int) : List α :=
  if maxPoints ≤ 0 ∨ rows.length ≤ maxPoints then rows
  else
    let stride := max 1 (rows.length / maxPoints.toNat)
    (everyNth stride rows).take maxPoints.toNat

/-- `timedelta(microseconds=(sample_index * sample_interval_ns) / 1000)`: the quotient is a float, of
which `timedelta` takes the nearest whole number. -/
def sampleDelta (rounding : Rounding) (sampleIntervalNs sampleIndex : Nat) : Int :=
  roundHalfEven (rounding ((sampleIndex * sampleIntervalNs : Nat) / 1000))

def sampleTimestamps (rounding : Rounding) (eventTime : Timestamptz)
    (sampleIntervalNs sampleCount : Nat) : List Timestamptz :=
  (List.range sampleCount).map fun sampleIndex =>
    eventTime + sampleDelta rounding sampleIntervalNs sampleIndex

@[simp] theorem length_sampleTimestamps (rounding : Rounding) (eventTime : Timestamptz)
    (sampleIntervalNs sampleCount : Nat) :
    (sampleTimestamps rounding eventTime sampleIntervalNs sampleCount).length = sampleCount := by
  rw [sampleTimestamps, List.length_map, List.length_range]

def isSelected (start stop : Option Timestamptz) (timestamp : Timestamptz) : Bool :=
  start.all (· ≤ timestamp) && stop.all (timestamp ≤ ·)

/-- `selected_indices`, each with its timestamp. -/
def selectedIndices (start stop : Option Timestamptz) (frameTimestamps : List Timestamptz) :
    List (Timestamptz × Nat) :=
  frameTimestamps.zipIdx.filter fun e => isSelected start stop e.1

def decodeFrame (reader : Reader F) (frame : StoredFrame) :
    Except DecodeError (List (Channel F) × Values F) :=
  let channels := reader.channelsFromJson frame.signal.channelsJson
  match decodeSamples reader.floats.toDoubles frame.samples frame.signal.encoding
      frame.signal.layout channels frame.sampleCount with
  | .error e => .error e
  | .ok valuesByChannel => .ok (channels, valuesByChannel)

structure ChannelSamples (F : Type) where
  name : List Char
  unit : Option (List Char)
  values : List F

/-- `[values[index] for index in indices]` -/
def valuesAt (values : List F) (indices : List Nat) : Except SeriesError (List F) :=
  indices.mapM fun index =>
    match values[index]? with
    | some value => .ok value
    | none => .error .indexError

def extendChannel (valuesByChannel : Values F) (indices : List Nat)
    (channelSamples : OrderedDict (List Char) (ChannelSamples F)) (channel : Channel F) :
    Except SeriesError (OrderedDict (List Char) (ChannelSamples F)) :=
  match valuesByChannel.lookup channel.key with
  | none => .error (.decode (.keyError channel.key))
  | some values =>
    match valuesAt values indices with
    | .error e => .error e
    | .ok selected =>
      .ok (channelSamples.alter channel.key ⟨channel.key, channel.unit, []⟩
        fun held => { held with values := held.values ++ selected })

structure Collected (F : Type) where
  channelSamples : OrderedDict (List Char) (ChannelSamples F)
  timestamps : List Timestamptz

def collectFrame (reader : Reader F) (start stop : Option Timestamptz) (collected : Collected F)
    (frame : StoredFrame) : Except SeriesError (Collected F) :=
  match decodeFrame reader frame with
  | .error e => .error (.decode e)
  | .ok (channels, valuesByChannel) =>
    let selected := selectedIndices start stop
      (sampleTimestamps reader.rounding frame.eventTime frame.sampleIntervalNs frame.sampleCount)
    match channels.foldlM (extendChannel valuesByChannel (selected.map Prod.snd))
        collected.channelSamples with
    | .error e => .error e
    | .ok channelSamples => .ok ⟨channelSamples, collected.timestamps ++ selected.map Prod.fst⟩

def sampleSeriesChannels (channelSamples : List (ChannelSamples F))
    (timestamps : List Timestamptz) : List (SeriesChannel F) :=
  channelSamples.map fun channel =>
    ⟨channel.name, channel.unit, .samples (List.zipWith SeriesPoint.mk timestamps channel.values)⟩

def startIndex (total bucketCount bucketIndex : Nat) : Nat := bucketIndex * total / bucketCount

/-- `values[start_index:end_index]` -/
def bucketSlice (total bucketCount bucketIndex : Nat) (values : List α) : List α :=
  (values.take (startIndex total bucketCount (bucketIndex + 1))).drop
    (startIndex total bucketCount bucketIndex)

def envelopePoint (floats : Floats F) (ts : Timestamptz) : List F → Option (EnvelopePoint F)
  | [] => none
  | first :: values => some {
      ts := ts
      min := minFrom floats first values
      max := maxFrom floats first values
      avg := floats.div (floats.sum (first :: values)) (floats.ofInt (values.length + 1)) }

/-- There are no buckets when `max_points` is negative. -/
def bucketCount (total : Nat) (maxPoints : Int) : Nat := (min (total : Int) maxPoints).toNat

def bucketedPoints (floats : Floats F) (timestamps : List Timestamptz) (bucketCount : Nat)
    (values : List F) : List (EnvelopePoint F) :=
  (List.range bucketCount).filterMap fun bucketIndex =>
    (timestamps[startIndex timestamps.length bucketCount bucketIndex]?).bind fun ts =>
      envelopePoint floats ts (bucketSlice timestamps.length bucketCount bucketIndex values)

def bucketedEnvelopeChannels (floats : Floats F) (channelSamples : List (ChannelSamples F))
    (timestamps : List Timestamptz) (maxPoints : Int) : List (SeriesChannel F) :=
  channelSamples.map fun channel =>
    ⟨channel.name, channel.unit, .envelope (bucketedPoints floats timestamps
      (bucketCount timestamps.length maxPoints) channel.values)⟩

def rawFramesToSeries (reader : Reader F) (frames : List StoredFrame) (maxPoints : Int)
    (start stop : Option Timestamptz) : Except SeriesError (SampledSeries F) :=
  match frames.foldlM (collectFrame reader start stop) ⟨[], []⟩ with
  | .error e => .error e
  | .ok collected =>
    let timestamps := collected.timestamps
    let channelSamples := collected.channelSamples.map Prod.snd
    .ok <|
      if channelSamples = [] then ⟨"raw-sample", "samples", some timestamps.length, []⟩
      else if timestamps.length ≤ maxPoints then
        ⟨"raw-sample", "samples", some timestamps.length,
          sampleSeriesChannels channelSamples timestamps⟩
      else
        ⟨"raw-sample-bucket", "envelope", some timestamps.length,
          bucketedEnvelopeChannels reader.floats channelSamples timestamps maxPoints⟩

end Aetus.Query
