import Aetus.Anomaly.EmptyWindows
import Mathlib.Data.EReal.Operations

/-!
The detectors that fold the points of a window into an extremum or a number of points: what
they say of the single points, and that the order of the points is nothing to them.
-/

set_option autoImplicit false

namespace Aetus.Anomaly
open Aetus.Base

variable {F : Type} {floats : Floats F}

/-- What IEEE 754 says of the comparisons, of the extrema and of differences. A difference of
two doubles is rounded, but never to zero. -/
structure Floats.Ieee (floats : Floats F) where
  real : F → EReal
  isNaN : F → Prop
  round : EReal → EReal
  lt : ∀ a b, floats.lt a b = true ↔ ¬isNaN a ∧ ¬isNaN b ∧ real a < real b
  le : ∀ a b, floats.le a b = true ↔ ¬isNaN a ∧ ¬isNaN b ∧ real a ≤ real b
  min : ∀ a b, ¬isNaN a → ¬isNaN b →
    ¬isNaN (floats.min a b) ∧ real (floats.min a b) = Min.min (real a) (real b)
  max : ∀ a b, ¬isNaN a → ¬isNaN b →
    ¬isNaN (floats.max a b) ∧ real (floats.max a b) = Max.max (real a) (real b)
  sub : ∀ a b, ¬isNaN a → ¬isNaN b → real b < real a →
    ¬isNaN (floats.sub a b) ∧ real (floats.sub a b) = round (real a - real b) ∧
      0 < real (floats.sub a b)
  isFinite : ∀ a, floats.isFinite a = true ↔ ¬isNaN a ∧ real a ≠ ⊥ ∧ real a ≠ ⊤
  infinity : ¬isNaN floats.infinity ∧ real floats.infinity = ⊤
  negInfinity : ¬isNaN floats.negInfinity ∧ real floats.negInfinity = ⊥
  zero : ¬isNaN floats.zero ∧ real floats.zero = 0

/-! Folds -/

/-- A fold has a property that its operation takes from either side if the start or one of the
elements has it. -/
theorem foldl_iff {α : Type} {op : α → α → α} {P : α → Prop}
    (hop : ∀ a b, P (op a b) ↔ P a ∨ P b) (start : α) (xs : List α) :
    P (xs.foldl op start) ↔ P start ∨ ∃ x ∈ xs, P x := by
  induction xs generalizing start with
  | nil => simp
  | cons x xs ih =>
    rw [List.foldl_cons, ih, hop, or_assoc, List.exists_mem_cons_iff]

namespace Floats.Ieee

variable {points points' : List (MetricPoint F)}

def Numbers (ieee : floats.Ieee) (points : List (MetricPoint F)) : Prop :=
  ∀ point ∈ points, ¬ieee.isNaN point.value

theorem numbers_of_isFinite (ieee : floats.Ieee)
    (h : ∀ point ∈ points, floats.isFinite point.value = true) : ieee.Numbers points :=
  fun point hpoint => ((ieee.isFinite _).mp (h point hpoint)).1

theorem real_foldl (ieee : floats.Ieee) {op : F → F → F} {f : EReal → EReal → EReal}
    (hop : ∀ a b, ¬ieee.isNaN a → ¬ieee.isNaN b →
      ¬ieee.isNaN (op a b) ∧ ieee.real (op a b) = f (ieee.real a) (ieee.real b))
    {xs : List F} (hxs : ∀ x ∈ xs, ¬ieee.isNaN x) {start : F} (hstart : ¬ieee.isNaN start) :
    ¬ieee.isNaN (xs.foldl op start) ∧
      ieee.real (xs.foldl op start) = (xs.map ieee.real).foldl f (ieee.real start) := by
  induction xs generalizing start with
  | nil => exact ⟨hstart, rfl⟩
  | cons x xs ih =>
    obtain ⟨hnumber, hreal⟩ := hop start x hstart (hxs x List.mem_cons_self)
    rw [List.foldl_cons, List.map_cons, List.foldl_cons, ← hreal]
    exact ih (fun y hy => hxs y (List.mem_cons_of_mem x hy)) hnumber

theorem real_minValue (ieee : floats.Ieee) (h : ieee.Numbers points) :
    ¬ieee.isNaN (minValue floats points) ∧
      ieee.real (minValue floats points) = ((values points).map ieee.real).foldl Min.min ⊤ := by
  rw [← ieee.infinity.2]
  refine ieee.real_foldl ieee.min (fun x hx => ?_) ieee.infinity.1
  obtain ⟨point, hpoint, rfl⟩ := List.mem_map.mp hx
  exact h point hpoint

theorem real_maxValue (ieee : floats.Ieee) (h : ieee.Numbers points) :
    ¬ieee.isNaN (maxValue floats points) ∧
      ieee.real (maxValue floats points) = ((values points).map ieee.real).foldl Max.max ⊥ := by
  rw [← ieee.negInfinity.2]
  refine ieee.real_foldl ieee.max (fun x hx => ?_) ieee.negInfinity.1
  obtain ⟨point, hpoint, rfl⟩ := List.mem_map.mp hx
  exact h point hpoint

/-- A test of an extremum is a test of the points, and of the infinity the fold starts from. -/
theorem test_fold_iff (ieee : floats.Ieee) (h : ieee.Numbers points) {P : EReal → Prop}
    {f : EReal → EReal → EReal} (hf : ∀ x y, P (f x y) ↔ P x ∨ P y) {t : F → Bool}
    (htest : ∀ a, ¬ieee.isNaN a → (t a = true ↔ P (ieee.real a))) {folded : F} {start : EReal}
    (hfolded : ¬ieee.isNaN folded ∧
      ieee.real folded = ((values points).map ieee.real).foldl f start) :
    t folded = true ↔ P start ∨ ∃ point ∈ points, t point.value = true := by
  rw [htest folded hfolded.1, hfolded.2, foldl_iff hf]
  refine or_congr_right ?_
  constructor
  · rintro ⟨x, hx, hcrossed⟩
    obtain ⟨_, hvalue, rfl⟩ := List.mem_map.mp hx
    obtain ⟨point, hpoint, rfl⟩ := List.mem_map.mp hvalue
    exact ⟨point, hpoint, (htest _ (h point hpoint)).mpr hcrossed⟩
  · rintro ⟨point, hpoint, hcrossed⟩
    exact ⟨_, List.mem_map_of_mem (List.mem_map_of_mem hpoint),
      (htest _ (h point hpoint)).mp hcrossed⟩

theorem lt_minValue_iff (ieee : floats.Ieee) (h : ieee.Numbers points) (bound : F) :
    floats.lt (minValue floats points) bound = true ↔
      ∃ point ∈ points, floats.lt point.value bound = true := by
  have hiff := ieee.test_fold_iff h (P := fun x => ¬ieee.isNaN bound ∧ x < ieee.real bound)
    (fun x y => by rw [min_lt_iff, and_or_left])
    (t := fun a => floats.lt a bound) (fun a ha => by rw [ieee.lt, and_iff_right ha])
    (ieee.real_minValue h)
  rw [hiff]
  exact or_iff_right fun hstart => absurd hstart.2 not_top_lt

theorem lt_maxValue_iff (ieee : floats.Ieee) (h : ieee.Numbers points) (bound : F) :
    floats.lt bound (maxValue floats points) = true ↔
      ∃ point ∈ points, floats.lt bound point.value = true := by
  have hiff := ieee.test_fold_iff h (P := fun x => ¬ieee.isNaN bound ∧ ieee.real bound < x)
    (fun x y => by rw [lt_max_iff, and_or_left])
    (t := fun a => floats.lt bound a)
    (fun a ha => by rw [ieee.lt, and_congr_right_iff]; exact fun _ => and_iff_right ha)
    (ieee.real_maxValue h)
  rw [hiff]
  exact or_iff_right fun hstart => absurd hstart.2 not_lt_bot

theorem le_minValue_iff (ieee : floats.Ieee) (h : ieee.Numbers points) (bound : F) :
    floats.le (minValue floats points) bound = true ↔
      floats.le floats.infinity bound = true ∨
        ∃ point ∈ points, floats.le point.value bound = true := by
  have hiff := ieee.test_fold_iff h (P := fun x => ¬ieee.isNaN bound ∧ x ≤ ieee.real bound)
    (fun x y => by rw [min_le_iff, and_or_left])
    (t := fun a => floats.le a bound) (fun a ha => by rw [ieee.le, and_iff_right ha])
    (ieee.real_minValue h)
  rw [hiff, ieee.le, and_iff_right ieee.infinity.1, ieee.infinity.2]

theorem le_maxValue_iff (ieee : floats.Ieee) (h : ieee.Numbers points) (bound : F) :
    floats.le bound (maxValue floats points) = true ↔
      floats.le bound floats.negInfinity = true ∨
        ∃ point ∈ points, floats.le bound point.value = true := by
  have hiff := ieee.test_fold_iff h (P := fun x => ¬ieee.isNaN bound ∧ ieee.real bound ≤ x)
    (fun x y => by rw [le_max_iff, and_or_left])
    (t := fun a => floats.le bound a)
    (fun a ha => by rw [ieee.le, and_congr_right_iff]; exact fun _ => and_iff_right ha)
    (ieee.real_maxValue h)
  rw [hiff, ieee.le, and_iff_right ieee.negInfinity.1, ieee.negInfinity.2]

/-- A comparison that holds of the infinity a fold starts from holds of every number. -/
theorem le_of_le_infinity (ieee : floats.Ieee) {a bound : F} (ha : ¬ieee.isNaN a)
    (h : floats.le floats.infinity bound = true) : floats.le a bound = true := by
  obtain ⟨-, hbound, hle⟩ := (ieee.le _ _).mp h
  rw [ieee.infinity.2] at hle
  exact (ieee.le _ _).mpr ⟨ha, hbound, le_top.trans hle⟩

theorem le_of_le_negInfinity (ieee : floats.Ieee) {a bound : F} (ha : ¬ieee.isNaN a)
    (h : floats.le bound floats.negInfinity = true) : floats.le bound a = true := by
  obtain ⟨hbound, -, hle⟩ := (ieee.le _ _).mp h
  rw [ieee.negInfinity.2] at hle
  exact (ieee.le _ _).mpr ⟨hbound, ha, hle.trans bot_le⟩

end Floats.Ieee

/-! What the detectors say of the points -/

namespace Detectors

variable {points points' : List (MetricPoint F)}

def foldStart (floats : Floats F) (operator : List Char) : F :=
  if operator = "lt".toList ∨ operator = "lte".toList then floats.infinity else floats.negInfinity

theorem or_iff_of_nil {α : Type} {xs : List α} {P : α → Prop} {start : Prop}
    (h : start → ∀ x ∈ xs, P x) : (start ∨ ∃ x ∈ xs, P x) ↔ (∃ x ∈ xs, P x) ∨ xs = [] ∧ start := by
  cases xs with
  | nil => simp
  | cons x xs =>
    have hfirst : start → ∃ y ∈ x :: xs, P y := fun hs =>
      ⟨x, List.mem_cons_self, h hs x List.mem_cons_self⟩
    simp only [List.cons_ne_nil, false_and, or_false]
    exact or_iff_right_of_imp hfirst

theorem threshold_crossed_iff (ieee : floats.Ieee) (h : ieee.Numbers points)
    (config : DetectorConfig F) :
    (threshold floats points config).crossed = true ↔
      (∃ point ∈ points, compare floats point.value config.threshold config.operator = true) ∨
        points = [] ∧ compare floats (foldStart floats config.operator) config.threshold
          config.operator = true := by
  by_cases hgte : config.operator = "gte".toList
  · simp only [threshold, compared, result, compare, foldStart, hgte]
    have hiff := ieee.le_maxValue_iff h config.threshold
    have hnil := or_iff_of_nil       (P := fun point => floats.le config.threshold point.value = true)
      fun hstart point hpoint => ieee.le_of_le_negInfinity (h point hpoint) hstart
    simpa using hiff.trans hnil
  by_cases hlt : config.operator = "lt".toList
  · simp only [threshold, compared, result, compare, foldStart, hlt]
    have hiff := ieee.lt_minValue_iff h config.threshold
    have hstart : floats.lt floats.infinity config.threshold = false := by
      rw [Bool.eq_false_iff, Ne, ieee.lt, ieee.infinity.2]
      exact fun hall => not_top_lt hall.2.2
    simpa [hstart] using hiff
  by_cases hlte : config.operator = "lte".toList
  · simp only [threshold, compared, result, compare, foldStart, hlte]
    have hiff := ieee.le_minValue_iff h config.threshold
    have hnil := or_iff_of_nil       (P := fun point => floats.le point.value config.threshold = true)
      fun hstart point hpoint => ieee.le_of_le_infinity (h point hpoint) hstart
    simpa using hiff.trans hnil
  · simp only [threshold, compared, result, compare, foldStart, hgte, hlt, hlte, or_self]
    have hiff := ieee.lt_maxValue_iff h config.threshold
    have hstart : floats.lt config.threshold floats.negInfinity = false := by
      rw [Bool.eq_false_iff, Ne, ieee.lt, ieee.negInfinity.2]
      exact fun hall => not_lt_bot hall.2.2
    simpa [hstart] using hiff

def distance (floats : Floats F) (a b : F) : F :=
  if floats.lt b a then floats.sub a b else floats.zero

theorem distance_spec (ieee : floats.Ieee) (a b : F) :
    ¬ieee.isNaN (distance floats a b) ∧
      ieee.real (distance floats a b) =
        (if floats.lt b a then ieee.round (ieee.real a - ieee.real b) else 0) ∧
      (0 < ieee.real (distance floats a b) ↔ floats.lt b a = true) := by
  unfold distance
  by_cases hlt : floats.lt b a = true
  · obtain ⟨hb, ha, hless⟩ := (ieee.lt b a).mp hlt
    obtain ⟨hnumber, hround, hpos⟩ := ieee.sub a b ha hb hless
    rw [if_pos hlt, if_pos hlt]
    exact ⟨hnumber, hround, iff_of_true hpos hlt⟩
  · rw [if_neg hlt, if_neg hlt, ieee.zero.2]
    exact ⟨ieee.zero.1, rfl, iff_of_false (lt_irrefl _) hlt⟩

theorem distance_congr (ieee : floats.Ieee) {a a' b b' : F}
    (hnumber : ieee.isNaN a ↔ ieee.isNaN a') (hnumber' : ieee.isNaN b ↔ ieee.isNaN b')
    (ha : ieee.real a = ieee.real a') (hb : ieee.real b = ieee.real b') :
    ieee.real (distance floats a b) = ieee.real (distance floats a' b') := by
  have hlt : floats.lt b a = floats.lt b' a' := by
    rw [Bool.eq_iff_iff, ieee.lt, ieee.lt, hnumber, hnumber', ha, hb]
  rw [(distance_spec ieee a b).2.1, (distance_spec ieee a' b').2.1, hlt, ha, hb]

theorem range_score (floats : Floats F) (points : List (MetricPoint F)) (config : DetectorConfig F) :
    range floats points config = result floats "range".toList
      (floats.lt floats.zero (floats.max
        (distance floats (config.min.getD floats.negInfinity) (minValue floats points))
        (distance floats (maxValue floats points) (config.max.getD floats.infinity))))
      (floats.max
        (distance floats (config.min.getD floats.negInfinity) (minValue floats points))
        (distance floats (maxValue floats points) (config.max.getD floats.infinity)))
      floats.zero points := rfl

theorem range_crossed_iff (ieee : floats.Ieee) (h : ieee.Numbers points)
    (config : DetectorConfig F) :
    (range floats points config).crossed = true ↔
      ∃ point ∈ points, (∃ least ∈ config.min, floats.lt point.value least = true) ∨
        ∃ greatest ∈ config.max, floats.lt greatest point.value = true := by
  rw [range_score]
  show floats.lt floats.zero _ = true ↔ _
  obtain ⟨hlow, -, hlowpos⟩ :=
    distance_spec ieee (config.min.getD floats.negInfinity) (minValue floats points)
  obtain ⟨hhigh, -, hhighpos⟩ :=
    distance_spec ieee (maxValue floats points) (config.max.getD floats.infinity)
  obtain ⟨hscore, hreal⟩ := ieee.max _ _ hlow hhigh
  rw [ieee.lt, and_iff_right ieee.zero.1, and_iff_right hscore, hreal, ieee.zero.2, lt_max_iff,
    hlowpos, hhighpos, ieee.lt_minValue_iff h, ieee.lt_maxValue_iff h, ← exists_or]
  refine exists_congr fun point => ?_
  rw [← and_or_left]
  refine and_congr_right fun hpoint => or_congr ?_ ?_
  · cases config.min with
    | none =>
      have hnot : ¬floats.lt point.value floats.negInfinity = true := by
        rw [ieee.lt, ieee.negInfinity.2]
        exact fun hall => not_lt_bot hall.2.2
      simpa using hnot
    | some least => simp
  · cases config.max with
    | none =>
      have hnot : ¬floats.lt floats.infinity point.value = true := by
        rw [ieee.lt, ieee.infinity.2]
        exact fun hall => not_top_lt hall.2.2
      simpa using hnot
    | some greatest => simp

def withinTolerance (floats : Floats F) (config : DetectorConfig F) (value : F) : Bool :=
  floats.le (floats.abs (floats.sub value (config.expectedValue.getD config.threshold)))
    (floats.abs (config.tolerance.getD floats.zero))

def aboveBaseline (floats : Floats F) (config : DetectorConfig F) (value : F) : Bool :=
  floats.lt (config.baseline.getD (floats.ratio 1 2)) value

structure SameOutcome (floats : Floats F) (ieee : floats.Ieee) (a b : DetectionResult F) : Prop where
  crossed : a.crossed = b.crossed
  score : ieee.real a.score = ieee.real b.score
  threshold : a.threshold = b.threshold

theorem stuckAt_congr (ieee : floats.Ieee) (config : DetectorConfig F)
    (h : (values points).countP (withinTolerance floats config) =
      (values points').countP (withinTolerance floats config)) :
    SameOutcome floats ieee (stuckAt floats points config) (stuckAt floats points' config) := by
  unfold withinTolerance at h
  refine ⟨?_, ?_, rfl⟩
  · simp only [stuckAt, result, h]
  · simp only [stuckAt, result, h]

theorem dutyCycle_congr (ieee : floats.Ieee) (config : DetectorConfig F)
    (hlength : points.length = points'.length)
    (h : (values points).countP (aboveBaseline floats config) =
      (values points').countP (aboveBaseline floats config)) :
    SameOutcome floats ieee (dutyCycle floats points config) (dutyCycle floats points' config) := by
  unfold aboveBaseline at h
  have hempty : points.isEmpty = points'.isEmpty := by
    rw [Bool.eq_iff_iff, List.isEmpty_iff, List.isEmpty_iff, ← List.length_eq_zero_iff,
      ← List.length_eq_zero_iff, hlength]
  refine ⟨?_, ?_, rfl⟩
  · simp only [dutyCycle, compared, result, h, hlength, hempty]
  · simp only [dutyCycle, compared, result, h, hlength, hempty]

theorem result_sameOutcome (ieee : floats.Ieee) (detectorType : List Char) {crossed crossed' : Bool}
    (threshold : F) {a b : F} (hcrossed : crossed = crossed') (ha : ¬ieee.isNaN a)
    (hb : ¬ieee.isNaN b) (hreal : ieee.real a = ieee.real b) :
    SameOutcome floats ieee (result floats detectorType crossed a threshold points)
      (result floats detectorType crossed' b threshold points') := by
  have hfinite : floats.isFinite a = floats.isFinite b := by
    rw [Bool.eq_iff_iff, ieee.isFinite, ieee.isFinite, and_iff_right ha, and_iff_right hb, hreal]
  refine ⟨hcrossed, ?_, rfl⟩
  simp only [result, hfinite]
  split
  · exact hreal
  · rfl

section order
variable (ieee : floats.Ieee) (hnumbers : ieee.Numbers points) (hperm : points.Perm points')
include hnumbers hperm

theorem numbers_perm : ieee.Numbers points' := fun point hpoint =>
  hnumbers point (hperm.mem_iff.mpr hpoint)

theorem real_minValue_perm :
    ieee.real (minValue floats points) = ieee.real (minValue floats points') := by
  rw [(ieee.real_minValue hnumbers).2,
    (ieee.real_minValue (numbers_perm ieee hnumbers hperm)).2]
  exact ((hperm.map _).map _).foldl_eq ⊤

theorem real_maxValue_perm :
    ieee.real (maxValue floats points) = ieee.real (maxValue floats points') := by
  rw [(ieee.real_maxValue hnumbers).2,
    (ieee.real_maxValue (numbers_perm ieee hnumbers hperm)).2]
  exact ((hperm.map _).map _).foldl_eq ⊥

theorem threshold_perm (config : DetectorConfig F) :
    SameOutcome floats ieee (threshold floats points config)
      (threshold floats points' config) := by
  have hnumbers' := numbers_perm ieee hnumbers hperm
  have hcrossed : (threshold floats points config).crossed =
      (threshold floats points' config).crossed := by
    have hnil : points = [] ↔ points' = [] := by
      rw [← List.length_eq_zero_iff, ← List.length_eq_zero_iff, hperm.length_eq]
    rw [Bool.eq_iff_iff, threshold_crossed_iff ieee hnumbers,
      threshold_crossed_iff ieee hnumbers', hnil]
    simp only [hperm.mem_iff]
  by_cases huses : config.operator = "lt".toList ∨ config.operator = "lte".toList
  · simp only [threshold, compared, huses, decide_true] at hcrossed ⊢
    exact result_sameOutcome ieee _ _ hcrossed (ieee.real_minValue hnumbers).1
      (ieee.real_minValue hnumbers').1 (real_minValue_perm ieee hnumbers hperm)
  · simp only [threshold, compared, huses, decide_false] at hcrossed ⊢
    exact result_sameOutcome ieee _ _ hcrossed (ieee.real_maxValue hnumbers).1
      (ieee.real_maxValue hnumbers').1 (real_maxValue_perm ieee hnumbers hperm)

theorem range_perm (config : DetectorConfig F) :
    SameOutcome floats ieee (range floats points config) (range floats points' config) := by
  have hnumbers' := numbers_perm ieee hnumbers hperm
  have hcrossed : (range floats points config).crossed = (range floats points' config).crossed := by
    rw [Bool.eq_iff_iff, range_crossed_iff ieee hnumbers, range_crossed_iff ieee hnumbers']
    simp only [hperm.mem_iff]
  have hleast := ieee.real_minValue hnumbers
  have hleast' := ieee.real_minValue hnumbers'
  have hgreatest := ieee.real_maxValue hnumbers
  have hgreatest' := ieee.real_maxValue hnumbers'
  have hlow := distance_congr ieee (a := config.min.getD floats.negInfinity) Iff.rfl
    (iff_of_false hleast.1 hleast'.1) rfl (real_minValue_perm ieee hnumbers hperm)
  have hhigh := distance_congr ieee (b := config.max.getD floats.infinity)
    (iff_of_false hgreatest.1 hgreatest'.1) Iff.rfl (real_maxValue_perm ieee hnumbers hperm) rfl
  rw [range_score, range_score] at hcrossed ⊢
  obtain ⟨hscore, hreal⟩ := ieee.max _ _
    (distance_spec ieee (config.min.getD floats.negInfinity) (minValue floats points)).1
    (distance_spec ieee (maxValue floats points) (config.max.getD floats.infinity)).1
  obtain ⟨hscore', hreal'⟩ := ieee.max _ _
    (distance_spec ieee (config.min.getD floats.negInfinity) (minValue floats points')).1
    (distance_spec ieee (maxValue floats points') (config.max.getD floats.infinity)).1
  refine result_sameOutcome ieee _ _ hcrossed hscore hscore' ?_
  rw [hreal, hreal', hlow, hhigh]

end order

/-- The folded detectors and their points. The threshold detector alone says something of no
points: that an infinite threshold is reached. -/
theorem folded_pointwise (ieee : floats.Ieee)
    (h : ∀ point ∈ points, floats.isFinite point.value = true) (config : DetectorConfig F) :
    ((threshold floats points config).crossed = true ↔
      (∃ point ∈ points, compare floats point.value config.threshold config.operator = true) ∨
        points = [] ∧ compare floats (foldStart floats config.operator) config.threshold
          config.operator = true) ∧
    ((range floats points config).crossed = true ↔
      ∃ point ∈ points, (∃ least ∈ config.min, floats.lt point.value least = true) ∨
        ∃ greatest ∈ config.max, floats.lt greatest point.value = true) ∧
    (∀ points', (values points).countP (withinTolerance floats config) =
        (values points').countP (withinTolerance floats config) →
      SameOutcome floats ieee (stuckAt floats points config) (stuckAt floats points' config)) ∧
    (∀ points', (values points).countP (aboveBaseline floats config) =
        (values points').countP (aboveBaseline floats config) → points.length = points'.length →
      SameOutcome floats ieee (dutyCycle floats points config)
        (dutyCycle floats points' config)) ∧
    ∀ points', points.Perm points' →
      SameOutcome floats ieee (threshold floats points config) (threshold floats points' config) ∧
      SameOutcome floats ieee (range floats points config) (range floats points' config) ∧
      SameOutcome floats ieee (stuckAt floats points config) (stuckAt floats points' config) ∧
      SameOutcome floats ieee (dutyCycle floats points config)
        (dutyCycle floats points' config) := by
  have hnumbers := ieee.numbers_of_isFinite h
  refine ⟨threshold_crossed_iff ieee hnumbers config, range_crossed_iff ieee hnumbers config,
    fun _ hcount => stuckAt_congr ieee config hcount,
    fun _ hcount hlength => dutyCycle_congr ieee config hlength hcount, fun points' hperm => ?_⟩
  have hvalues : (values points).Perm (values points') := hperm.map _
  exact ⟨threshold_perm ieee hnumbers hperm config, range_perm ieee hnumbers hperm config,
    stuckAt_congr ieee config (hvalues.countP_eq _),
    dutyCycle_congr ieee config hperm.length_eq (hvalues.countP_eq _)⟩

end Detectors

/-! Exact arithmetic between infinities -/

inductive Extended where
  | negInfinity
  | finite (q : ℚ)
  | infinity
  deriving DecidableEq

namespace Extended

def lt : Extended → Extended → Bool
  | _, .negInfinity | .infinity, _ => false
  | .negInfinity, _ | _, .infinity => true
  | .finite p, .finite q => p < q

/-- An operation on finite numbers; beyond them only the differences matter here. -/
def lift (f : ℚ → ℚ → ℚ) : Extended → Extended → Extended
  | .finite p, .finite q => .finite (f p q)
  | a, .negInfinity => if a = .negInfinity then .finite 0 else .infinity
  | .infinity, _ => .infinity
  | _, _ => .finite 0

def isFinite : Extended → Bool
  | .finite _ => true
  | _ => false

def abs : Extended → Extended
  | .finite q => .finite |q|
  | _ => .infinity

end Extended

def exactFloats : Floats Extended where
  ofInt n := .finite n
  ofFloat32 := fun _ => .finite 0
  mul := .lift (· * ·)
  add := .lift (· + ·)
  sub := .lift (· - ·)
  div := .lift (· / ·)
  lt := Extended.lt
  le := fun a b => !b.lt a
  min := fun a b => if b.lt a then b else a
  max := fun a b => if a.lt b then b else a
  abs := .abs
  sqrt := id
  mulAdd := fun a b c => .lift (· + ·) (.lift (· * ·) a b) c
  cos := fun _ => .finite 1
  sin := fun _ => .finite 0
  isFinite := Extended.isFinite
  infinity := .infinity
  negInfinity := .negInfinity
  epsilon := .finite (1 / 2 ^ 52)
  tau := .finite 6
  roundToUsize := fun _ => 0

noncomputable def Extended.real : Extended → EReal
  | .negInfinity => ⊥
  | .finite q => ((q : ℝ) : EReal)
  | .infinity => ⊤

theorem Extended.lt_iff (a b : Extended) : a.lt b = true ↔ a.real < b.real := by
  cases a <;> cases b <;> simp [lt, real, EReal.coe_lt_coe_iff, EReal.bot_lt_coe, EReal.coe_lt_top]

noncomputable def exactFloats_ieee : exactFloats.Ieee where
  real := Extended.real
  isNaN := fun _ => False
  round := id
  lt a b := by simpa [exactFloats] using a.lt_iff b
  le a b := by
    have h := (b.lt_iff a).not
    simpa [exactFloats] using h
  min a b _ _ := by
    refine ⟨id, ?_⟩
    show (if b.lt a then b else a).real = _
    by_cases h : b.lt a = true
    · rw [if_pos h, min_eq_right ((b.lt_iff a).mp h).le]
    · rw [if_neg h, min_eq_left (not_lt.mp (mt (b.lt_iff a).mpr h))]
  max a b _ _ := by
    refine ⟨id, ?_⟩
    show (if a.lt b then b else a).real = _
    by_cases h : a.lt b = true
    · rw [if_pos h, max_eq_right ((a.lt_iff b).mp h).le]
    · rw [if_neg h, max_eq_left (not_lt.mp (mt (a.lt_iff b).mpr h))]
  sub a b _ _ h := by
    refine ⟨id, ?_⟩
    cases a <;> cases b
    case finite.finite p q =>
      have hlt : q < p := by simpa [Extended.real] using h
      have hpos : (0 : ℝ) < ((p - q : ℚ) : ℝ) := by exact_mod_cast sub_pos.mpr hlt
      refine ⟨?_, EReal.coe_pos.mpr hpos⟩
      show (((p - q : ℚ) : ℝ) : EReal) = (p : ℝ) - (q : ℝ)
      rw [Rat.cast_sub, EReal.coe_sub]
    all_goals simp [Extended.real, exactFloats, Extended.lift] at h ⊢
  isFinite a := by
    cases a <;> simp [exactFloats, Extended.isFinite, Extended.real]
  infinity := ⟨id, rfl⟩
  negInfinity := ⟨id, rfl⟩
  zero := ⟨id, by simp [Floats.zero, exactFloats, Extended.real]⟩

def pointsOf (values : List ℚ) : List (MetricPoint Extended) :=
  values.zipIdx.map fun (value, index) => ⟨index, .finite value⟩

def limitConfig (operator : List Char) (limit : Extended) : DetectorConfig Extended :=
  { DetectorConfig.default ⟨fun n => .finite n, fun _ => .finite 0⟩ with
    threshold := limit, operator := operator }

/-- A second point below the baseline takes a share of a half from one that is whole, and
no points reach an infinite threshold. -/
theorem not_pointwise :
    (¬∀ (points points' : List (MetricPoint Extended)) (config : DetectorConfig Extended),
      (values points).countP (Detectors.aboveBaseline exactFloats config) =
        (values points').countP (Detectors.aboveBaseline exactFloats config) →
      (Detectors.dutyCycle exactFloats points config).crossed =
        (Detectors.dutyCycle exactFloats points' config).crossed) ∧
    ¬∀ (points : List (MetricPoint Extended)) (config : DetectorConfig Extended),
      (Detectors.threshold exactFloats points config).crossed = true ↔
        ∃ point ∈ points, compare exactFloats point.value config.threshold config.operator = true := by
  constructor
  · intro h
    have hsame := h (pointsOf [1]) (pointsOf [1, 0]) (limitConfig "gt".toList (.finite (3 / 5)))
      (by decide +kernel)
    exact absurd hsame (by decide +kernel)
  · intro h
    obtain ⟨_, hmem, -⟩ := (h [] (limitConfig "lte".toList .infinity)).mp rfl
    cases hmem

/-- Two finite points and a threshold between them. -/
theorem folded_pointwise_exact :
    (Detectors.threshold exactFloats (pointsOf [4, 12])
        (limitConfig "lt".toList (.finite 5))).crossed = true ↔
      (∃ point ∈ pointsOf [4, 12], compare exactFloats point.value (.finite 5) "lt".toList = true) ∨
        pointsOf [4, 12] = [] ∧ compare exactFloats .infinity (.finite 5) "lt".toList = true :=
  (Detectors.folded_pointwise exactFloats_ieee (by decide +kernel)
    (limitConfig "lt".toList (.finite 5))).1

end Aetus.Anomaly
