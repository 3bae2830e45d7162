import Aetus.Anomaly.Models
import Aetus.Anomaly.Repository

/-!
The detectors of the anomaly service: from the points of a window, a score and whether it
crosses the threshold. What a detector adds to the details of its own is left out.
-/

set_option autoImplicit false

namespace Aetus.Anomaly
open Aetus.Base

/-- `f64`, beyond what reading the samples needs. -/
structure Floats (F : Type) extends Doubles F where
  sub : F → F → F
  div : F → F → F
  lt : F → F → Bool
  le : F → F → Bool
  min : F → F → F
  max : F → F → F
  abs : F → F
  sqrt : F → F
  mulAdd : F → F → F → F
  cos : F → F
  sin : F → F
  isFinite : F → Bool
  infinity : F
  negInfinity : F
  epsilon : F
  tau : F
  roundToUsize : F → Nat

def wholeFloats : Floats Int where
  toDoubles := wholeDoubles
  sub := (· - ·)
  div := (· / ·)
  lt := fun a b => a < b
  le := fun a b => a ≤ b
  min := fun a b => if a ≤ b then a else b
  max := fun a b => if a ≤ b then b else a
  abs := fun a => a.natAbs
  sqrt := fun a => a.toNat.sqrt
  mulAdd := fun a b c => a * b + c
  cos := fun _ => 1
  sin := fun _ => 0
  isFinite := fun _ => true
  infinity := 10 ^ 300
  negInfinity := -10 ^ 300
  epsilon := 0
  tau := 6
  roundToUsize := Int.toNat

structure ResultDetails where
  detector : List Char
  pointCount : Nat
  firstPointTime : Option Int
  lastPointTime : Option Int
  deriving DecidableEq

structure DetectionResult (F : Type) where
  crossed : Bool
  score : F
  threshold : F
  details : ResultDetails

variable {F : Type}

def Floats.zero (floats : Floats F) : F := floats.ofInt 0

/-- A literal such as `0.2`, which is the double next to its quotient. -/
def Floats.ratio (floats : Floats F) (n d : Int) : F := floats.div (floats.ofInt n) (floats.ofInt d)

def Floats.sum (floats : Floats F) (values : List F) : F := values.foldl floats.add floats.zero

/-! detectors/mod.rs -/

def values (points : List (MetricPoint F)) : List F := points.map (·.value)

def maxValue (floats : Floats F) (points : List (MetricPoint F)) : F :=
  (values points).foldl floats.max floats.negInfinity

def minValue (floats : Floats F) (points : List (MetricPoint F)) : F :=
  (values points).foldl floats.min floats.infinity

def meanOf (floats : Floats F) (values : List F) : F :=
  if values.isEmpty then floats.zero
  else floats.div (floats.sum values) (floats.ofInt values.length)

def mean (floats : Floats F) (points : List (MetricPoint F)) : F := meanOf floats (values points)

def rms (floats : Floats F) (points : List (MetricPoint F)) : F :=
  if points.isEmpty then floats.zero
  else floats.sqrt (floats.div (floats.sum ((values points).map fun value => floats.mul value value))
    (floats.ofInt points.length))

def stddev (floats : Floats F) (points : List (MetricPoint F)) : F :=
  if points.isEmpty then floats.zero
  else
    let avg := mean floats points
    floats.sqrt (floats.div (floats.sum ((values points).map fun value =>
      let diff := floats.sub value avg
      floats.mul diff diff)) (floats.ofInt points.length))

def peakAbs (floats : Floats F) (points : List (MetricPoint F)) : F :=
  ((values points).map floats.abs).foldl floats.max floats.zero

/-- `num_microseconds`, none beyond 64 bits. -/
def numMicroseconds (duration : Int) : Option Int :=
  let micros := duration.tdiv 1000
  if -2 ^ 63 ≤ micros ∧ micros < 2 ^ 63 then some micros else none

def elapsedSeconds (floats : Floats F) (points : List (MetricPoint F)) : F :=
  match points.head?, points.getLast? with
  | some first, some last =>
    let micros := (numMicroseconds (last.eventTime - first.eventTime)).getD 0
    floats.max (floats.div (floats.ofInt micros) (floats.ofInt 1000000)) floats.zero
  | _, _ => floats.zero

def nominalSampleRateHz (floats : Floats F) (points : List (MetricPoint F)) : Option F :=
  if points.length < 2 then none
  else
    let elapsed := elapsedSeconds floats points
    if floats.le elapsed floats.zero then none
    else some (floats.div (floats.ofInt (points.length - 1 : Nat)) elapsed)

def compare (floats : Floats F) (score threshold : F) (operator : List Char) : Bool :=
  if operator = "gte".toList then floats.le threshold score
  else if operator = "lt".toList then floats.lt score threshold
  else if operator = "lte".toList then floats.le score threshold
  else floats.lt threshold score

def result (floats : Floats F) (detectorType : List Char) (crossed : Bool) (score threshold : F)
    (points : List (MetricPoint F)) : DetectionResult F where
  crossed := crossed
  score := if floats.isFinite score then score else floats.zero
  threshold := threshold
  details := {
    detector := detectorType
    pointCount := points.length
    firstPointTime := points.head?.map (·.eventTime)
    lastPointTime := points.getLast?.map (·.eventTime) }

def compared (floats : Floats F) (detectorType : List Char) (score : F)
    (points : List (MetricPoint F)) (config : DetectorConfig F) : DetectionResult F :=
  result floats detectorType (compare floats score config.threshold config.operator) score
    config.threshold points

/-! One definition for each of the other files -/

namespace Detectors

def threshold (floats : Floats F) (points : List (MetricPoint F)) (config : DetectorConfig F) :
    DetectionResult F :=
  let usesLowerBound : Bool := config.operator = "lt".toList ∨ config.operator = "lte".toList
  let score := if usesLowerBound then minValue floats points else maxValue floats points
  compared floats "threshold".toList score points config

def range (floats : Floats F) (points : List (MetricPoint F)) (config : DetectorConfig F) :
    DetectionResult F :=
  let minAllowed := config.min.getD floats.negInfinity
  let maxAllowed := config.max.getD floats.infinity
  let minSeen := minValue floats points
  let maxSeen := maxValue floats points
  let lowDistance := if floats.lt minSeen minAllowed then floats.sub minAllowed minSeen else floats.zero
  let highDistance := if floats.lt maxAllowed maxSeen then floats.sub maxSeen maxAllowed else floats.zero
  let score := floats.max lowDistance highDistance
  result floats "range".toList (floats.lt floats.zero score) score floats.zero points

def meanThreshold (floats : Floats F) (points : List (MetricPoint F)) (config : DetectorConfig F) :
    DetectionResult F :=
  compared floats "mean_threshold".toList (mean floats points) points config

def rmsThreshold (floats : Floats F) (points : List (MetricPoint F)) (config : DetectorConfig F) :
    DetectionResult F :=
  compared floats "rms_threshold".toList (rms floats points) points config

def peakAbsThreshold (floats : Floats F) (points : List (MetricPoint F))
    (config : DetectorConfig F) : DetectionResult F :=
  compared floats "peak_abs_threshold".toList (peakAbs floats points) points config

def stddevThreshold (floats : Floats F) (points : List (MetricPoint F)) (config : DetectorConfig F) :
    DetectionResult F :=
  compared floats "stddev_threshold".toList (stddev floats points) points config

def deltaThreshold (floats : Floats F) (points : List (MetricPoint F)) (config : DetectorConfig F) :
    DetectionResult F :=
  let score := match points.head?, points.getLast? with
    | some first, some last => floats.abs (floats.sub last.value first.value)
    | _, _ => floats.zero
  compared floats "delta_threshold".toList score points config

def missingData (floats : Floats F) (points : List (MetricPoint F)) (config : DetectorConfig F) :
    DetectionResult F :=
  let minCount := config.minCount.getD 1
  result floats "missing_data".toList (points.length < minCount) (floats.ofInt points.length)
    (floats.ofInt minCount) points

def flatline (floats : Floats F) (points : List (MetricPoint F)) (config : DetectorConfig F) :
    DetectionResult F :=
  let minCount := config.minCount.getD 3
  let seenRange := if points.isEmpty then floats.zero
    else floats.sub (maxValue floats points) (minValue floats points)
  result floats "flatline".toList (minCount ≤ points.length && floats.le seenRange config.threshold)
    seenRange config.threshold points

def rateOfChange (floats : Floats F) (points : List (MetricPoint F)) (config : DetectorConfig F) :
    DetectionResult F :=
  let score := match points.head?, points.getLast? with
    | some first, some last =>
      let elapsed := elapsedSeconds floats points
      if floats.lt floats.zero elapsed then
        floats.div (floats.abs (floats.sub last.value first.value)) elapsed
      else floats.zero
    | _, _ => floats.zero
  compared floats "rate_of_change".toList score points config

def zscoreThreshold (floats : Floats F) (points : List (MetricPoint F)) (config : DetectorConfig F) :
    DetectionResult F :=
  let baseline := config.baseline.getD (mean floats points)
  let sigma := floats.max (config.tolerance.getD (stddev floats points)) floats.epsilon
  let score := ((values points).map fun value =>
    floats.abs (floats.div (floats.sub value baseline) sigma)).foldl floats.max floats.zero
  compared floats "zscore_threshold".toList score points config

def clamp (floats : Floats F) (value least greatest : F) : F :=
  if floats.lt value least then least else if floats.lt greatest value then greatest else value

def ewmaDeviation (floats : Floats F) (points : List (MetricPoint F)) (config : DetectorConfig F) :
    DetectionResult F :=
  let alpha := clamp floats (config.alpha.getD (floats.ratio 1 5)) (floats.ratio 1 1000)
    (floats.ofInt 1)
  let start := (config.baseline.or (points.head?.map (·.value))).getD floats.zero
  let (_, score) := (values points).foldl (fun (ewma, score) value =>
    let ewma := floats.add (floats.mul alpha value)
      (floats.mul (floats.sub (floats.ofInt 1) alpha) ewma)
    (ewma, floats.max score (floats.abs (floats.sub value ewma)))) (start, floats.zero)
  compared floats "ewma_deviation".toList score points config

def stuckAt (floats : Floats F) (points : List (MetricPoint F)) (config : DetectorConfig F) :
    DetectionResult F :=
  let expected := config.expectedValue.getD config.threshold
  let tolerance := floats.abs (config.tolerance.getD floats.zero)
  let minCount := config.minCount.getD 3
  let stuckCount := (values points).countP fun value =>
    floats.le (floats.abs (floats.sub value expected)) tolerance
  result floats "stuck_at".toList (minCount ≤ stuckCount) (floats.ofInt stuckCount)
    (floats.ofInt minCount) points

def dutyCycle (floats : Floats F) (points : List (MetricPoint F)) (config : DetectorConfig F) :
    DetectionResult F :=
  let onThreshold := config.baseline.getD (floats.ratio 1 2)
  let score := if points.isEmpty then floats.zero
    else floats.div (floats.ofInt ((values points).countP fun value => floats.lt onThreshold value))
      (floats.ofInt points.length)
  compared floats "duty_cycle".toList score points config

/-- `usize::MAX` -/
def usizeMax : Nat := 2 ^ 64 - 1

def eventSequence (floats : Floats F) (points : List (MetricPoint F)) (config : DetectorConfig F) :
    DetectionResult F :=
  let minCount := config.minCount.getD 1
  let maxCount := config.maxCount.getD usizeMax
  let count := points.length
  let threshold := if count < minCount then floats.ofInt minCount else floats.ofInt maxCount
  result floats "event_sequence".toList (count < minCount || maxCount < count) (floats.ofInt count)
    threshold points

/-- The index is that of a point whenever the limit is at least 2. -/
def downsample (points : List (MetricPoint F)) (limit : Nat) : List (MetricPoint F) :=
  if points.length ≤ limit then points
  else (List.range limit).filterMap fun index => points[index * (points.length - 1) / (limit - 1)]?

def binFrequency (floats : Floats F) (bin : Nat) (sampleRateHz : F) (len : Nat) : F :=
  if len = 0 then floats.zero
  else floats.div (floats.mul (floats.ofInt bin) sampleRateHz) (floats.ofInt len)

def binMagnitude (floats : Floats F) (values : List F) (bin : Nat) : F :=
  if values.isEmpty then floats.zero
  else
    let len := floats.ofInt values.length
    let (real, imag) := values.zipIdx.foldl (fun (real, imag) (value, index) =>
      let phase := floats.div (floats.mul (floats.mul floats.tau (floats.ofInt bin))
        (floats.ofInt index)) len
      (floats.add real (floats.mul value (floats.cos phase)),
        floats.sub imag (floats.mul value (floats.sin phase)))) (floats.zero, floats.zero)
    floats.div (floats.mul (floats.sqrt (floats.mulAdd real real (floats.mul imag imag)))
      (floats.ofInt 2)) len

def dominantBin (floats : Floats F) (values : List F) (sampleRateHz : F) : F × F :=
  if values.length < 2 then (floats.zero, floats.zero)
  else (List.range' 1 (values.length / 2)).foldl (fun best bin =>
    let magnitude := binMagnitude floats values bin
    if floats.lt best.1 magnitude then
      (magnitude, binFrequency floats bin sampleRateHz values.length)
    else best) (floats.zero, floats.zero)

def targetBin (floats : Floats F) (targetHz sampleRateHz : F) (len : Nat) : Nat :=
  if floats.le sampleRateHz floats.zero || len < 2 then 0
  else min (max 1 (floats.roundToUsize
    (floats.div (floats.mul targetHz (floats.ofInt len)) sampleRateHz))) (len / 2)

def fftThreshold (floats : Floats F) (points : List (MetricPoint F)) (config : DetectorConfig F) :
    DetectionResult F :=
  let sampled := downsample points (max config.fftSampleLimit 8)
  let sampleRateHz := (nominalSampleRateHz floats sampled).getD floats.zero
  let mean := meanOf floats (values sampled)
  let centered := (values sampled).map fun value => floats.sub value mean
  let score := match config.targetFrequencyHz with
    | some target => binMagnitude floats centered (targetBin floats target sampleRateHz centered.length)
    | none => (dominantBin floats centered sampleRateHz).1
  compared floats "fft_threshold".toList score sampled config

end Detectors

abbrev Evaluate (F : Type) := List (MetricPoint F) → DetectorConfig F → DetectionResult F

/-- Each `DETECTOR_TYPE` with its `evaluate`. -/
def detectors (floats : Floats F) : List (List Char × Evaluate F) := [
  ("threshold".toList, Detectors.threshold floats),
  ("range".toList, Detectors.range floats),
  ("mean_threshold".toList, Detectors.meanThreshold floats),
  ("rms_threshold".toList, Detectors.rmsThreshold floats),
  ("peak_abs_threshold".toList, Detectors.peakAbsThreshold floats),
  ("stddev_threshold".toList, Detectors.stddevThreshold floats),
  ("delta_threshold".toList, Detectors.deltaThreshold floats),
  ("missing_data".toList, Detectors.missingData floats),
  ("flatline".toList, Detectors.flatline floats),
  ("rate_of_change".toList, Detectors.rateOfChange floats),
  ("zscore_threshold".toList, Detectors.zscoreThreshold floats),
  ("ewma_deviation".toList, Detectors.ewmaDeviation floats),
  ("stuck_at".toList, Detectors.stuckAt floats),
  ("duty_cycle".toList, Detectors.dutyCycle floats),
  ("event_sequence".toList, Detectors.eventSequence floats),
  ("fft_threshold".toList, Detectors.fftThreshold floats)]

def evaluate (floats : Floats F) (detectorType : List Char) (points : List (MetricPoint F))
    (config : DetectorConfig F) : Except Failure (DetectionResult F) :=
  match findBy Prod.fst detectorType (detectors floats) with
  | some (_, evaluate) => .ok (evaluate points config)
  | none => .error (.bail ("unsupported detector type: " ++ String.ofList detectorType))

def supportedTypes : List (List Char) :=
  ["threshold", "range", "mean_threshold", "rms_threshold", "peak_abs_threshold",
    "stddev_threshold", "delta_threshold", "missing_data", "flatline", "rate_of_change",
    "zscore_threshold", "ewma_deviation", "stuck_at", "duty_cycle", "event_sequence",
    "fft_threshold"].map String.toList

def isSupported (detectorType : List Char) : Bool := supportedTypes.any (· = detectorType)

theorem detectors_types (floats : Floats F) : (detectors floats).map Prod.fst = supportedTypes := rfl

theorem evaluate_of_isSupported (floats : Floats F) {detectorType : List Char}
    (h : isSupported detectorType = true) (points : List (MetricPoint F))
    (config : DetectorConfig F) :
    ∃ result, evaluate floats detectorType points config = .ok result := by
  obtain ⟨_, hmem, htype⟩ := List.any_eq_true.mp h
  obtain rfl := of_decide_eq_true htype
  rw [← detectors_types floats] at hmem
  obtain ⟨entry, hentry, hfst⟩ := List.mem_map.mp hmem
  unfold evaluate
  cases hfind : findBy Prod.fst _ (detectors floats) with
  | none => exact absurd hfst (findBy_eq_none.mp hfind entry hentry)
  | some found => exact ⟨_, rfl⟩

end Aetus.Anomaly
