import Aetus.Base.Json
import Aetus.Base.Table
import Mathlib.Algebra.Group.Int.Defs

/-!
The anomaly service's models.rs: selectors and configurations, and how serde reads them from
a JSON value. The texts of serde's errors are left out.
-/

set_option autoImplicit false

namespace Aetus.Anomaly
open Aetus.Base

variable {F α : Type}

structure Selector where
  devices : List (List Char)
  streams : List (List Char)
  channels : List (List Char)
  deriving DecidableEq

/-- `char::is_whitespace` -/
def isWhitespace (c : Char) : Bool :=
  ('\t' ≤ c && c ≤ '\r') || c = ' ' || c.val = 0x85 || c.val = 0xa0 || c.val = 0x1680 ||
    (0x2000 ≤ c.val && c.val ≤ 0x200a) || c.val = 0x2028 || c.val = 0x2029 || c.val = 0x202f ||
    c.val = 0x205f || c.val = 0x3000

/-- `!item.trim().is_empty() && item.as_str() != "*"` -/
def isExplicit (item : List Char) : Bool := !item.all isWhitespace && item ≠ ['*']

def Selector.firstDevices (selector : Selector) : List (List Char) :=
  selector.devices.filter isExplicit

def Selector.firstStreams (selector : Selector) : List (List Char) :=
  selector.streams.filter isExplicit

structure WindowAnchorConfig (F : Type) where
  stream : List Char
  preSeconds : Int
  postSeconds : Int
  maxEvents : Nat
  valueString : Option (List Char)
  valueBool : Option Bool
  valueInt : Option Int
  valueDouble : Option F

structure DetectorConfig (F : Type) where
  threshold : F
  min : Option F
  max : Option F
  baseline : Option F
  minCount : Option Nat
  maxCount : Option Nat
  alpha : Option F
  expectedValue : Option F
  tolerance : Option F
  targetFrequencyHz : Option F
  frequencyToleranceHz : Option F
  fftSampleLimit : Nat
  operator : List Char
  maxPoints : Nat
  anchor : Option (WindowAnchorConfig F)

def defaultOperator : List Char := "gt".toList

def defaultMaxPoints : Nat := 50000

def defaultFftSampleLimit : Nat := 2048

def defaultAnchorPreSeconds : Int := 0

def defaultAnchorPostSeconds : Int := 10

def defaultAnchorMaxEvents : Nat := 16

/-! What serde reads -/

def readBool : Json → Option Bool
  | .bool b => some b
  | _ => none

def readString : Json → Option (List Char)
  | .string text => some text
  | _ => none

/-- An integer of a type that has those from `least` to `greatest`. -/
def readInteger (least greatest : Int) : Json → Option Int
  | .int n => if least ≤ n ∧ n ≤ greatest then some n else none
  | _ => none

def readI32 : Json → Option Int := readInteger (-2 ^ 31) (2 ^ 31 - 1)

def readI64 : Json → Option Int := readInteger (-2 ^ 63) (2 ^ 63 - 1)

def readUsize (value : Json) : Option Nat := (readInteger 0 (2 ^ 64 - 1) value).map Int.toNat

structure Numbers (F : Type) where
  ofInt : Int → F
  ofDouble : Double → F

def Numbers.readF64 (numbers : Numbers F) : Json → Option F
  | .int n => some (numbers.ofInt n)
  | .float x => some (numbers.ofDouble x)
  | _ => none

def readOption (read : Json → Option α) : Json → Option (Option α)
  | .null => some none
  | value => (read value).map some

def readVec (read : Json → Option α) : Json → Option (List α)
  | .array items => items.mapM read
  | _ => none

/-- The members of a structure, which may be written as an array of its first fields. -/
def readMembers (fields : List String) : Json → Option (List (List Char × Json))
  | .object members => some members
  | .array items =>
    if items.length ≤ fields.length then some ((fields.map String.toList).zip items) else none
  | _ => none

def readField (members : List (List Char × Json)) (name : String) (read : Json → Option α)
    (missing : Option α) : Option α :=
  match findBy Prod.fst name.toList members with
  | none => missing
  | some member => read member.2

def Selector.fromValue (value : Json) : Option Selector := do
  let members ← readMembers ["devices", "streams", "channels"] value
  let devices ← readField members "devices" (readVec readString) (some [])
  let streams ← readField members "streams" (readVec readString) (some [])
  let channels ← readField members "channels" (readVec readString) (some [])
  return ⟨devices, streams, channels⟩

def Selector.toValue (selector : Selector) : Json :=
  .object [
    ("devices".toList, .array (selector.devices.map .string)),
    ("streams".toList, .array (selector.streams.map .string)),
    ("channels".toList, .array (selector.channels.map .string))]

def WindowAnchorConfig.fromValue (numbers : Numbers F) (value : Json) :
    Option (WindowAnchorConfig F) := do
  let members ← readMembers ["stream", "pre_seconds", "post_seconds", "max_events", "value_string",
    "value_bool", "value_int", "value_double"] value
  let stream ← readField members "stream" readString none
  let preSeconds ← readField members "pre_seconds" readI32 (some defaultAnchorPreSeconds)
  let postSeconds ← readField members "post_seconds" readI32 (some defaultAnchorPostSeconds)
  let maxEvents ← readField members "max_events" readUsize (some defaultAnchorMaxEvents)
  let valueString ← readField members "value_string" (readOption readString) (some none)
  let valueBool ← readField members "value_bool" (readOption readBool) (some none)
  let valueInt ← readField members "value_int" (readOption readI64) (some none)
  let valueDouble ← readField members "value_double" (readOption numbers.readF64) (some none)
  return ⟨stream, preSeconds, postSeconds, maxEvents, valueString, valueBool, valueInt, valueDouble⟩

def DetectorConfig.fromValue (numbers : Numbers F) (value : Json) : Option (DetectorConfig F) := do
  let members ← readMembers ["threshold", "min", "max", "baseline", "min_count", "max_count", "alpha",
    "expected_value", "tolerance", "target_frequency_hz", "frequency_tolerance_hz",
    "fft_sample_limit", "operator", "max_points", "anchor"] value
  let threshold ← readField members "threshold" numbers.readF64 (some (numbers.ofInt 0))
  let min ← readField members "min" (readOption numbers.readF64) (some none)
  let max ← readField members "max" (readOption numbers.readF64) (some none)
  let baseline ← readField members "baseline" (readOption numbers.readF64) (some none)
  let minCount ← readField members "min_count" (readOption readUsize) (some none)
  let maxCount ← readField members "max_count" (readOption readUsize) (some none)
  let alpha ← readField members "alpha" (readOption numbers.readF64) (some none)
  let expectedValue ← readField members "expected_value" (readOption numbers.readF64) (some none)
  let tolerance ← readField members "tolerance" (readOption numbers.readF64) (some none)
  let targetFrequencyHz ←
    readField members "target_frequency_hz" (readOption numbers.readF64) (some none)
  let frequencyToleranceHz ←
    readField members "frequency_tolerance_hz" (readOption numbers.readF64) (some none)
  let fftSampleLimit ← readField members "fft_sample_limit" readUsize (some defaultFftSampleLimit)
  let operator ← readField members "operator" readString (some defaultOperator)
  let maxPoints ← readField members "max_points" readUsize (some defaultMaxPoints)
  let anchor ← readField members "anchor" (readOption (WindowAnchorConfig.fromValue numbers)) (some none)
  return {
    threshold, min, max, baseline, minCount, maxCount, alpha, expectedValue, tolerance,
    targetFrequencyHz, frequencyToleranceHz, fftSampleLimit, operator, maxPoints, anchor }

def DetectorConfig.default (numbers : Numbers F) : DetectorConfig F where
  threshold := numbers.ofInt 0
  min := none
  max := none
  baseline := none
  minCount := none
  maxCount := none
  alpha := none
  expectedValue := none
  tolerance := none
  targetFrequencyHz := none
  frequencyToleranceHz := none
  fftSampleLimit := defaultFftSampleLimit
  operator := defaultOperator
  maxPoints := defaultMaxPoints
  anchor := none

end Aetus.Anomaly
