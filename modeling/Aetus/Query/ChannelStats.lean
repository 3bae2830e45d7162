import Mathlib.Analysis.Real.Sqrt
import Aetus.Base.Moments
import Aetus.Query.Envelope
import Aetus.Query.SummaryFaithful

/-!
The statistics of `compute_channel_stats` in exact arithmetic, and how they bound each other.
-/

set_option autoImplicit false

namespace Aetus.Query
open Aetus.Base

variable {K : Type} [Field K] [LinearOrder K]

/-- Floats that do not round, with square roots. -/
structure Floats.ExactRoots (floats : Floats K) : Prop extends floats.Exact where
  sub : ∀ a b, floats.sub a b = a - b
  mul : ∀ a b, floats.mul a b = a * b
  abs : ∀ a, floats.abs a = |a|
  square : ∀ a, floats.square a = some (a ^ 2)
  sqrt_nonneg : ∀ a, 0 ≤ a → 0 ≤ floats.sqrt a
  sq_sqrt : ∀ a, 0 ≤ a → floats.sqrt a ^ 2 = a

structure StatsLaws (values : List K) (row : ChannelStats K) : Prop where
  sampleCount : row.sampleCount = values.length
  minimum : IsLeast {v | v ∈ values} row.minimum
  maximum : IsGreatest {v | v ∈ values} row.maximum
  average : row.average * values.length = values.sum
  minimum_le_average : row.minimum ≤ row.average
  average_le_maximum : row.average ≤ row.maximum
  peakAbs : row.peakAbs = max |row.minimum| |row.maximum|
  rms_sq : row.rms ^ 2 = row.average ^ 2 + row.stddev ^ 2
  rms_le_peakAbs : row.rms ≤ row.peakAbs
  stddev_sq_le : row.stddev ^ 2 ≤ (row.maximum - row.minimum) ^ 2 / 4

def LawfulStats (items : List (List Char × List K)) (stats : List (ChannelStats K)) : Prop :=
  List.Forall₂ (fun item row => row.key = item.1 ∧ StatsLaws item.2 row)
    (items.filter fun item => item.2 ≠ []) stats

variable {floats : Floats K} {values : List K}

theorem averageOf_eq (hexact : floats.Exact) (values : List K) :
    averageOf floats values = mean id values := by
  rw [averageOf, hexact.div, hexact.sum, hexact.ofInt, mean, List.map_id, Int.cast_natCast]

theorem squaredDeviations_eq (hexact : floats.ExactRoots) (values : List K) :
    squaredDeviations floats values =
      some (values.map fun value => (value - mean id values) ^ 2) := by
  simp only [squaredDeviations, hexact.square, hexact.sub, averageOf_eq hexact.toExact]
  exact List.mapM_pure

variable [IsStrictOrderedRing K]

theorem channelStats_laws (hexact : floats.ExactRoots) (key : List Char)
    (unit : Option (List Char)) {first : K} {rest squares : List K}
    (hsquares : squaredDeviations floats (first :: rest) = some squares) :
    StatsLaws (first :: rest) (channelStats floats key unit first rest squares) := by
  have hne : first :: rest ≠ [] := List.cons_ne_nil first rest
  obtain rfl := Option.some.inj ((squaredDeviations_eq hexact (first :: rest)).symm.trans hsquares)
  let row := channelStats floats key unit first rest
    ((first :: rest).map fun value => (value - mean id (first :: rest)) ^ 2)
  have hminimum : IsLeast {v | v ∈ first :: rest} row.minimum := by
    show IsLeast _ (minFrom floats first rest)
    rw [minFrom_eq hexact.toExact.lt]
    exact isLeast_foldl_min first rest
  have hmaximum : IsGreatest {v | v ∈ first :: rest} row.maximum := by
    show IsGreatest _ (maxFrom floats first rest)
    rw [maxFrom_eq hexact.toExact.lt]
    exact isGreatest_foldl_max first rest
  have haverage : row.average = mean id (first :: rest) := averageOf_eq hexact.toExact _
  have hpeak : IsGreatest {v | v ∈ (first :: rest).map fun value => |value|} row.peakAbs := by
    have habs : floats.abs = fun value => |value| := funext hexact.abs
    show IsGreatest _ (maxFrom floats (floats.abs first) (rest.map floats.abs))
    rw [maxFrom_eq hexact.toExact.lt, habs]
    exact isGreatest_foldl_max _ _
  have hmeanSq : 0 ≤ mean (· ^ 2) (first :: rest) := mean_nonneg fun _ _ => sq_nonneg _
  have hrms : row.rms ^ 2 = mean (· ^ 2) (first :: rest) ∧ 0 ≤ row.rms := by
    have hroot : row.rms = floats.sqrt (mean (· ^ 2) (first :: rest)) := by
      show floats.sqrt (averageOf floats ((first :: rest).map fun value => floats.mul value value)) = _
      rw [averageOf_eq hexact.toExact, mean_id_map]
      simp only [hexact.mul, ← sq]
    rw [hroot]
    exact ⟨hexact.sq_sqrt _ hmeanSq, hexact.sqrt_nonneg _ hmeanSq⟩
  have hstddev : row.stddev ^ 2 = variance (first :: rest) := by
    show floats.sqrt (averageOf floats _) ^ 2 = _
    rw [averageOf_eq hexact.toExact, mean_id_map]
    exact hexact.sq_sqrt _ (variance_nonneg _)
  have hbounds : ∀ value ∈ first :: rest, row.minimum ≤ value ∧ value ≤ row.maximum :=
    fun value hvalue => ⟨hminimum.2 hvalue, hmaximum.2 hvalue⟩
  have habsLe : ∀ value ∈ first :: rest, |value| ≤ row.peakAbs := fun value hvalue =>
    hpeak.2 (List.mem_map_of_mem hvalue)
  refine {
    sampleCount := rfl
    minimum := hminimum
    maximum := hmaximum
    average := ?_
    minimum_le_average := haverage ▸ le_mean hne fun value hvalue => (hbounds value hvalue).1
    average_le_maximum := haverage ▸ mean_le hne fun value hvalue => (hbounds value hvalue).2
    peakAbs := le_antisymm ?_ ?_
    rms_sq := ?_
    rms_le_peakAbs := ?_
    stddev_sq_le := hstddev.le.trans (variance_le_sq hne hbounds) }
  · show row.average * ((first :: rest).length : K) = (first :: rest).sum
    have hlength : ((first :: rest).length : K) ≠ 0 :=
      Nat.cast_ne_zero.mpr (List.length_pos_iff.mpr hne).ne'
    rw [haverage, mean, List.map_id, div_mul_cancel₀ _ hlength]
  · -- the greatest absolute value is that of some value between the extremes
    obtain ⟨value, hvalue, heq⟩ := List.mem_map.mp hpeak.1
    have hbetween := hbounds value hvalue
    exact heq.symm.le.trans (abs_le_max_abs_abs hbetween.1 hbetween.2)
  · exact max_le (habsLe _ hminimum.1) (habsLe _ hmaximum.1)
  · show row.rms ^ 2 = row.average ^ 2 + row.stddev ^ 2
    rw [hrms.1, hstddev, haverage, variance_eq hne]
    ring
  · show row.rms ≤ row.peakAbs
    have hpeakNonneg : 0 ≤ row.peakAbs := (abs_nonneg first).trans (habsLe first List.mem_cons_self)
    refine (pow_le_pow_iff_left₀ hrms.2 hpeakNonneg two_ne_zero).mp (hrms.1.le.trans ?_)
    exact mean_le hne fun value hvalue => sq_le_sq' (neg_le_of_abs_le (habsLe value hvalue))
      ((le_abs_self value).trans (habsLe value hvalue))

theorem computeChannelStats_laws (hexact : floats.ExactRoots) {channels : List (Channel K)}
    {valuesByChannel : OrderedDict (List Char) (List K)}
    (hkeys : ∀ item ∈ valuesByChannel, item.2 ≠ [] → ∃ channel ∈ channels, channel.key = item.1) :
    ∃ stats, computeChannelStats floats valuesByChannel channels = .ok stats ∧
      LawfulStats valuesByChannel stats := by
  have hnone : LawfulStats (K := K) [] [] := .nil
  refine foldlM_invariant LawfulStats (fun before item hitem stats h => ?_) hnone
  obtain ⟨key, _ | ⟨first, rest⟩⟩ := item
  · exact ⟨stats, rfl, by simpa [LawfulStats] using h⟩
  · obtain ⟨channel, hchannel, hkey⟩ := hkeys _ hitem (List.cons_ne_nil first rest)
    obtain ⟨found, hfound⟩ := exists_updateChannels hchannel hkey
    obtain ⟨squares, hsquares⟩ : ∃ squares, squaredDeviations floats (first :: rest) = some squares :=
      ⟨_, squaredDeviations_eq hexact (first :: rest)⟩
    refine ⟨stats ++ [channelStats floats key found.unit first rest squares], ?_, ?_⟩
    · simp only [appendStats, hsquares, hfound]
    · have hlast : [(key, first :: rest)].filter (fun item => item.2 ≠ []) = [(key, first :: rest)] := by
        simp
      rw [LawfulStats, List.filter_append, hlast]
      exact List.rel_append h (.cons ⟨rfl, channelStats_laws hexact key found.unit hsquares⟩ .nil)

/-! Real numbers -/

noncomputable def realFloats : Floats ℝ where
  ofInt := fun n => n
  ofFloat32 := fun _ => 0
  mul := (· * ·)
  add := (· + ·)
  sub := (· - ·)
  div := (· / ·)
  lt := fun a b => a < b
  abs := fun a => |a|
  sqrt := Real.sqrt
  square := fun a => some (a ^ 2)
  sum := List.sum

theorem realFloats_exactRoots : realFloats.ExactRoots where
  lt := fun _ _ => rfl
  div := fun _ _ => rfl
  sum := fun _ => rfl
  ofInt := fun _ => rfl
  sub := fun _ _ => rfl
  mul := fun _ _ => rfl
  abs := fun _ => rfl
  square := fun _ => rfl
  sqrt_nonneg := fun a _ => Real.sqrt_nonneg a
  sq_sqrt := fun _ h => Real.sq_sqrt h

noncomputable def twoChannels : OrderedDict (List Char) (List ℝ) := [(['x'], [3, -4]), (['y'], [])]

theorem computeChannelStats_laws_twoChannels :
    ∃ stats, computeChannelStats realFloats twoChannels [⟨['x'], none, none, none⟩] = .ok stats ∧
      LawfulStats twoChannels stats :=
  computeChannelStats_laws realFloats_exactRoots (by simp [twoChannels])

end Aetus.Query
