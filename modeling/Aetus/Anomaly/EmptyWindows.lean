import Aetus.Anomaly.Detectors

/-!
Rules about values and windows without points: every detector has a score for no points, which
most of them compare with the threshold as if it had been measured.
-/

set_option autoImplicit false

namespace Aetus.Anomaly
open Aetus.Base

variable {F : Type} {floats : Floats F}

/-- What the comparisons of `f64` do at the infinities and at zero. -/
structure Floats.Bounded (floats : Floats F) : Prop where
  not_infinity_lt : ∀ x, floats.lt floats.infinity x = false
  not_lt_negInfinity : ∀ x, floats.lt x floats.negInfinity = false
  max_zero : floats.max floats.zero floats.zero = floats.zero
  not_zero_lt_zero : floats.lt floats.zero floats.zero = false

/-- The types whose score of no points is zero, which is then compared with the threshold. -/
def zeroScoredTypes : List (List Char) :=
  ["mean_threshold", "rms_threshold", "peak_abs_threshold", "stddev_threshold", "delta_threshold",
    "rate_of_change", "zscore_threshold", "ewma_deviation", "duty_cycle", "fft_threshold"].map
      String.toList

def countTypes : List (List Char) := ["missing_data", "event_sequence"].map String.toList

/-- Names are compared by `contains`. -/
local instance decidableMemNames (name : List Char) (names : List (List Char)) :
    Decidable (name ∈ names) :=
  decidable_of_iff (names.contains name = true) List.contains_iff_mem

/-- A configuration under which no points are no crossing. -/
def SilentOnEmpty (floats : Floats F) (detectorType : List Char) (config : DetectorConfig F) : Prop :=
  if detectorType ∈ zeroScoredTypes then
    compare floats floats.zero config.threshold config.operator = false
  else if detectorType = "threshold".toList then
    -- only an infinite threshold is reached by the infinity that stands for no points
    (config.operator = "lte".toList → floats.le floats.infinity config.threshold = false) ∧
      (config.operator = "gte".toList → floats.le config.threshold floats.negInfinity = false)
  else if detectorType = "flatline".toList then
    config.minCount ≠ some 0 ∨ floats.le floats.zero config.threshold = false
  else if detectorType = "stuck_at".toList then config.minCount ≠ some 0
  else True

instance SilentOnEmpty.decidable (floats : Floats F) (detectorType : List Char)
    (config : DetectorConfig F) : Decidable (SilentOnEmpty floats detectorType config) :=
  inferInstanceAs (Decidable (ite _ _ _))

/-! What each detector does without points -/

namespace Detectors

theorem threshold_nil_crossed (hfloats : floats.Bounded) (config : DetectorConfig F) :
    (threshold floats [] config).crossed = false ↔
      (config.operator = "lte".toList → floats.le floats.infinity config.threshold = false) ∧
        (config.operator = "gte".toList →
          floats.le config.threshold floats.negInfinity = false) := by
  by_cases hlt : config.operator = "lt".toList
  · simp [threshold, compared, result, compare, hlt, minValue, values, hfloats.not_infinity_lt]
  by_cases hlte : config.operator = "lte".toList
  · simp [threshold, compared, result, compare, hlte, minValue, values]
  by_cases hgte : config.operator = "gte".toList
  · simp [threshold, compared, result, compare, hgte, maxValue, values]
  · simp_all [threshold, compared, result, compare, maxValue, values, hfloats.not_lt_negInfinity]

theorem range_nil_crossed (hfloats : floats.Bounded) (config : DetectorConfig F) :
    (range floats [] config).crossed = false := by
  have hlow : floats.lt (minValue floats []) (config.min.getD floats.negInfinity) = false :=
    hfloats.not_infinity_lt _
  have hhigh : floats.lt (config.max.getD floats.infinity) (maxValue floats []) = false :=
    hfloats.not_lt_negInfinity _
  simp [range, result, hlow, hhigh, hfloats.max_zero, hfloats.not_zero_lt_zero]

theorem flatline_nil_crossed (config : DetectorConfig F) :
    (flatline floats [] config).crossed = false ↔
      config.minCount ≠ some 0 ∨ floats.le floats.zero config.threshold = false := by
  cases hcount : config.minCount with
  | none => simp [flatline, result, hcount]
  | some count => cases count <;> simp [flatline, result, hcount]

theorem stuckAt_nil_crossed (config : DetectorConfig F) :
    (stuckAt floats [] config).crossed = false ↔ config.minCount ≠ some 0 := by
  cases hcount : config.minCount with
  | none => simp [stuckAt, result, values, hcount]
  | some count => cases count <;> simp [stuckAt, result, values, hcount]

/-- Without points there is no bin with a magnitude. -/
theorem fftThreshold_nil_crossed (config : DetectorConfig F) :
    (fftThreshold floats [] config).crossed =
      compare floats floats.zero config.threshold config.operator := by
  cases htarget : config.targetFrequencyHz with
  | none => simp [fftThreshold, compared, result, downsample, values, dominantBin, htarget]
  | some target => simp [fftThreshold, compared, result, downsample, values, binMagnitude, htarget]

end Detectors

theorem mem_supportedTypes {detectorType : List Char} {points : List (MetricPoint F)}
    {config : DetectorConfig F} {result : DetectionResult F}
    (h : evaluate floats detectorType points config = .ok result) :
    detectorType ∈ supportedTypes := by
  unfold evaluate at h
  cases hfind : findBy Prod.fst detectorType (detectors floats) with
  | none => simp [hfind] at h
  | some entry =>
    obtain ⟨hmem, rfl⟩ := mem_of_findBy hfind
    rw [← detectors_types floats]
    exact List.mem_map_of_mem hmem

theorem supportedTypes_cases {detectorType : List Char} (h : detectorType ∈ supportedTypes) :
    detectorType ∈ zeroScoredTypes ∨ detectorType ∈ countTypes ∨
      detectorType = "threshold".toList ∨ detectorType = "range".toList ∨
      detectorType = "flatline".toList ∨ detectorType = "stuck_at".toList := by
  revert detectorType
  decide

theorem evaluate_nil_zeroScored (floats : Floats F) {detectorType : List Char}
    (h : detectorType ∈ zeroScoredTypes) (config : DetectorConfig F) :
    ∃ result, evaluate floats detectorType [] config = .ok result ∧
      result.crossed = compare floats floats.zero config.threshold config.operator := by
  simp only [zeroScoredTypes, List.map_cons, List.map_nil, List.mem_cons, List.not_mem_nil,
    or_false] at h
  obtain rfl | rfl | rfl | rfl | rfl | rfl | rfl | rfl | rfl | rfl := h
  iterate 9 exact ⟨_, rfl, rfl⟩
  exact ⟨_, rfl, Detectors.fftThreshold_nil_crossed config⟩

/-- Whether a rule about values fires without a value is a matter of its configuration. -/
theorem evaluate_nil_not_crossed_iff (hfloats : floats.Bounded) {detectorType : List Char}
    (hvalues : detectorType ∉ countTypes) (config : DetectorConfig F) :
    (∀ result, evaluate floats detectorType [] config = .ok result → result.crossed = false) ↔
      SilentOnEmpty floats detectorType config := by
  unfold SilentOnEmpty
  split
  case isTrue hzero =>
    obtain ⟨result, hresult, hcrossed⟩ := evaluate_nil_zeroScored floats hzero config
    simp [hresult, hcrossed]
  case isFalse hzero =>
  split
  case isTrue hthreshold =>
    subst hthreshold
    rw [← Detectors.threshold_nil_crossed hfloats]
    exact ⟨fun h => h _ rfl, fun h _ hresult => by cases hresult; exact h⟩
  case isFalse hthreshold =>
  split
  case isTrue hflatline =>
    subst hflatline
    rw [← Detectors.flatline_nil_crossed]
    exact ⟨fun h => h _ rfl, fun h _ hresult => by cases hresult; exact h⟩
  case isFalse hflatline =>
  split
  case isTrue hstuck =>
    subst hstuck
    rw [← Detectors.stuckAt_nil_crossed]
    exact ⟨fun h => h _ rfl, fun h _ hresult => by cases hresult; exact h⟩
  case isFalse hstuck =>
    refine iff_of_true (fun result hresult => ?_) trivial
    obtain h | h | h | rfl | h | h := supportedTypes_cases (mem_supportedTypes hresult)
    · exact absurd h hzero
    · exact absurd h hvalues
    · exact absurd h hthreshold
    · cases hresult
      exact Detectors.range_nil_crossed hfloats config
    · exact absurd h hflatline
    · exact absurd h hstuck

/-! Whole numbers that compare like the infinities from there on -/

def saturate (n : Int) : Int := max (-10 ^ 100) (min n (10 ^ 100))

def saturatedFloats : Floats Int :=
  { wholeFloats with
    lt := fun a b => saturate a < saturate b
    le := fun a b => saturate a ≤ saturate b
    infinity := 10 ^ 100
    negInfinity := -10 ^ 100 }

theorem saturatedFloats_bounded : saturatedFloats.Bounded where
  not_infinity_lt x := by
    have h : saturate x ≤ saturate (10 ^ 100) := by unfold saturate; omega
    exact decide_eq_false (Int.not_lt.mpr h)
  not_lt_negInfinity x := by
    have h : saturate (-10 ^ 100) ≤ saturate x := by unfold saturate; omega
    exact decide_eq_false (Int.not_lt.mpr h)
  max_zero := rfl
  not_zero_lt_zero := by decide

def lowMeanConfig : DetectorConfig Int :=
  { DetectorConfig.default ⟨id, fun _ => 0⟩ with threshold := 5, operator := "lt".toList }

theorem lowMean_fires_without_points :
    ¬∀ (detectorType : List Char) (config : DetectorConfig Int) (result : DetectionResult Int),
      detectorType ∉ countTypes → evaluate saturatedFloats detectorType [] config = .ok result →
        result.crossed = false := by
  intro h
  have hquiet := h "mean_threshold".toList lowMeanConfig _ (by decide) rfl
  exact absurd hquiet (by decide)

theorem evaluate_nil_not_crossed_iff_lowMean :
    (∀ result, evaluate saturatedFloats "mean_threshold".toList [] lowMeanConfig = .ok result →
      result.crossed = false) ↔
        SilentOnEmpty saturatedFloats "mean_threshold".toList lowMeanConfig :=
  evaluate_nil_not_crossed_iff saturatedFloats_bounded (by decide) lowMeanConfig

end Aetus.Anomaly
