import Mathlib.Algebra.Order.BigOperators.Group.List
import Mathlib.Algebra.Order.Field.Rat
import Mathlib.Tactic.Linarith
import Aetus.Query.SeriesFaithful

/-!
The envelope of a raw series in exact arithmetic: its buckets split the positions of the range,
and each has the least, the greatest and the mean value of its own positions.
-/

set_option autoImplicit false

namespace Aetus.Query
open Aetus.Base Aetus.Postgres

variable {K : Type} [Field K] [LinearOrder K] [IsStrictOrderedRing K]

/-- Floats that do not round. -/
structure Floats.Exact (floats : Floats K) : Prop where
  lt : ∀ a b, floats.lt a b = decide (a < b)
  div : ∀ a b, floats.div a b = a / b
  sum : ∀ values, floats.sum values = values.sum
  ofInt : ∀ n : Int, floats.ofInt n = n

/-! Extremes and mean -/

omit [Field K] [IsStrictOrderedRing K] in
theorem isLeast_foldl_min (first : K) (values : List K) :
    IsLeast {v | v ∈ first :: values} (values.foldl min first) := by
  induction values generalizing first with
  | nil => simp
  | cons value values ih =>
    obtain ⟨hmem, hlow⟩ := ih (min first value)
    rw [List.foldl_cons]
    refine ⟨?_, fun v hv => ?_⟩
    · rcases List.mem_cons.mp hmem with heq | hrest
      · show values.foldl min (min first value) ∈ first :: value :: values
        rw [heq]
        rcases min_choice first value with h | h <;> simp [h]
      · exact List.mem_cons_of_mem _ (List.mem_cons_of_mem _ hrest)
    · have hfirst : values.foldl min (min first value) ≤ min first value := hlow List.mem_cons_self
      rcases List.mem_cons.mp hv with rfl | hv
      · exact hfirst.trans (min_le_left _ _)
      · rcases List.mem_cons.mp hv with rfl | hv
        · exact hfirst.trans (min_le_right _ _)
        · exact hlow (List.mem_cons_of_mem _ hv)

omit [Field K] [IsStrictOrderedRing K] in
theorem isGreatest_foldl_max (first : K) (values : List K) :
    IsGreatest {v | v ∈ first :: values} (values.foldl max first) :=
  isLeast_foldl_min (K := Kᵒᵈ) first values

variable {floats : Floats K}

omit [Field K] [IsStrictOrderedRing K] in
theorem minFrom_eq (hlt : ∀ a b, floats.lt a b = decide (a < b)) (first : K) (values : List K) :
    minFrom floats first values = values.foldl min first := by
  have hstep : (fun least value => if floats.lt value least then value else least) = min := by
    funext least value
    rw [hlt, min_comm, min_def_lt]
    simp
  rw [minFrom, hstep]

omit [Field K] [IsStrictOrderedRing K] in
theorem maxFrom_eq (hlt : ∀ a b, floats.lt a b = decide (a < b)) (first : K) (values : List K) :
    maxFrom floats first values = values.foldl max first := by
  have hstep : (fun greatest value => if floats.lt greatest value then value else greatest) = max := by
    funext greatest value
    rw [hlt, max_def_lt]
    simp
  rw [maxFrom, hstep]

/-- The point stands for exactly these values. -/
structure Summarises (values : List K) (point : EnvelopePoint K) : Prop where
  least : IsLeast {v | v ∈ values} point.min
  greatest : IsGreatest {v | v ∈ values} point.max
  mean : point.avg * values.length = values.sum
  min_le_avg : point.min ≤ point.avg
  avg_le_max : point.avg ≤ point.max

theorem summarises_of_mean {values : List K} {point : EnvelopePoint K} (hne : values ≠ [])
    (hleast : IsLeast {v | v ∈ values} point.min) (hgreatest : IsGreatest {v | v ∈ values} point.max)
    (hmean : point.avg * values.length = values.sum) : Summarises values point := by
  have hlength : (0 : K) < values.length := Nat.cast_pos.mpr (List.length_pos_iff.mpr hne)
  refine ⟨hleast, hgreatest, hmean, ?_, ?_⟩
  · refine le_of_mul_le_mul_right ?_ hlength
    have hlow := List.card_nsmul_le_sum values point.min fun v hv => hleast.2 hv
    rwa [nsmul_eq_mul, mul_comm, ← hmean] at hlow
  · refine le_of_mul_le_mul_right ?_ hlength
    have hhigh := List.sum_le_card_nsmul values point.max fun v hv => hgreatest.2 hv
    rwa [nsmul_eq_mul, mul_comm, ← hmean] at hhigh

theorem envelopePoint_summarises (hexact : floats.Exact) (ts : Timestamptz) {values : List K}
    (hne : values ≠ []) :
    ∃ point, envelopePoint floats ts values = some point ∧ point.ts = ts ∧
      Summarises values point := by
  obtain ⟨first, rest, rfl⟩ := List.exists_cons_of_ne_nil hne
  refine ⟨_, rfl, rfl, summarises_of_mean hne ?_ ?_ ?_⟩
  · show IsLeast _ (minFrom floats first rest)
    rw [minFrom_eq hexact.lt]
    exact isLeast_foldl_min first rest
  · show IsGreatest _ (maxFrom floats first rest)
    rw [maxFrom_eq hexact.lt]
    exact isGreatest_foldl_max first rest
  · show floats.div (floats.sum (first :: rest)) (floats.ofInt (rest.length + 1)) *
      ((first :: rest).length : K) = (first :: rest).sum
    rw [hexact.div, hexact.sum, hexact.ofInt, List.length_cons]
    push_cast
    exact div_mul_cancel₀ _ (by positivity)

/-! Buckets -/

section split
variable {total n b : Nat}

theorem startIndex_lt (hn : 0 < n) (hle : n ≤ total) :
    startIndex total n b < startIndex total n (b + 1) := cutPoint_lt_succ hn hle

/-- The buckets from `startIndex b` to `startIndex (b + 1)` split the positions below `total`. -/
structure Splits (total n : Nat) : Prop where
  zero : startIndex total n 0 = 0
  last : startIndex total n n = total
  nonempty : ∀ b < n, startIndex total n b < startIndex total n (b + 1)
  unique : ∀ p < total, ∃! b, b < n ∧ startIndex total n b ≤ p ∧ p < startIndex total n (b + 1)

theorem splits (hn : 0 < n) (hle : n ≤ total) : Splits total n := by
  have hmono := startIndex_mono total n
  refine ⟨startIndex_zero, startIndex_self hn.ne', fun b _ => startIndex_lt hn hle, fun p hp => ?_⟩
  rw [← @startIndex_self total n hn.ne'] at hp
  obtain ⟨b, hb, hlow, hhigh⟩ := exists_range startIndex_zero hp
  refine ⟨b, ⟨hb, hlow, hhigh⟩, fun c ⟨_, hclow, hchigh⟩ => ?_⟩
  -- a bucket before or behind the one of `p` ends before it or begins behind it
  rcases Nat.lt_trichotomy c b with hlt | heq | hgt
  · have hend := hmono (Nat.succ_le_of_lt hlt)
    exact absurd (hchigh.trans_le (hend.trans hlow)) (Nat.lt_irrefl p)
  · exact heq
  · have hend := hmono (Nat.succ_le_of_lt hgt)
    exact absurd (hhigh.trans_le (hend.trans hclow)) (Nat.lt_irrefl p)

theorem bucketSlice_ne_nil {α : Type} {values : List α} (hn : 0 < n) (hle : n ≤ values.length)
    (hb : b < n) : bucketSlice values.length n b values ≠ [] := by
  have hstart := startIndex_lt (b := b) hn hle
  have hend : startIndex values.length n (b + 1) ≤ startIndex values.length n n :=
    startIndex_mono values.length n hb
  rw [startIndex_self hn.ne'] at hend
  rw [← List.length_pos_iff, bucketSlice, List.length_drop, List.length_take]
  omega

theorem flatMap_bucketSlice {α : Type} {values : List α} (hn : 0 < n) :
    (List.range n).flatMap (fun b => bucketSlice values.length n b values) = values := by
  have hslices := flatMap_slices (startIndex_mono values.length n) startIndex_zero values n
  rw [startIndex_self hn.ne', List.take_length] at hslices
  exact hslices

theorem bucketCount_eq {maxPoints : Int} (htotal : 0 < total) (hmax : 1 ≤ maxPoints) :
    (bucketCount total maxPoints : Int) = min (total : Int) maxPoints ∧
      0 < bucketCount total maxPoints ∧ bucketCount total maxPoints ≤ total := by
  unfold bucketCount
  omega

end split

/-- One point for each bucket, in order, and with these the extremes of the whole range. -/
structure Enveloped (timestamps : List Timestamptz) (n : Nat) (values : List K)
    (points : List (EnvelopePoint K)) : Prop where
  slices : (List.range n).flatMap (fun b => bucketSlice timestamps.length n b values) = values
  bucketwise : List.Forall₂ (fun b point =>
    timestamps[startIndex timestamps.length n b]? = some point.ts ∧
      Summarises (bucketSlice timestamps.length n b values) point) (List.range n) points
  least : ∀ v, IsLeast {v | v ∈ values} v → IsLeast {v | ∃ point ∈ points, point.min = v} v
  greatest : ∀ v, IsGreatest {v | v ∈ values} v → IsGreatest {v | ∃ point ∈ points, point.max = v} v

theorem bucketedPoints_forall₂ (hexact : floats.Exact) {timestamps : List Timestamptz} {n : Nat}
    {values : List K} (hn : 0 < n) (hle : n ≤ timestamps.length)
    (hvalues : values.length = timestamps.length) :
    List.Forall₂ (fun b point => timestamps[startIndex timestamps.length n b]? = some point.ts ∧
      Summarises (bucketSlice timestamps.length n b values) point) (List.range n)
      (bucketedPoints floats timestamps n values) := by
  refine forall₂_filterMap fun b hb => ?_
  have hb := List.mem_range.mp hb
  have hstart : startIndex timestamps.length n b < timestamps.length := by
    have hlt := startIndex_lt (b := b) hn hle
    have hend : startIndex timestamps.length n (b + 1) ≤ startIndex timestamps.length n n :=
      startIndex_mono timestamps.length n hb
    rw [startIndex_self hn.ne'] at hend
    omega
  have hslice : bucketSlice timestamps.length n b values ≠ [] := by
    rw [← hvalues] at hle ⊢
    exact bucketSlice_ne_nil hn hle hb
  obtain ⟨point, hpoint, hts, hsummary⟩ :=
    envelopePoint_summarises hexact timestamps[startIndex timestamps.length n b] hslice
  rw [List.getElem?_eq_getElem hstart]
  exact ⟨point, hpoint, by rw [hts], hsummary⟩

omit [IsStrictOrderedRing K] in
theorem enveloped_of_bucketwise {timestamps : List Timestamptz} {n : Nat} {values : List K}
    {points : List (EnvelopePoint K)}
    (hslices : (List.range n).flatMap (fun b => bucketSlice timestamps.length n b values) = values)
    (hpoints : List.Forall₂ (fun b point =>
      timestamps[startIndex timestamps.length n b]? = some point.ts ∧
        Summarises (bucketSlice timestamps.length n b values) point) (List.range n) points) :
    Enveloped timestamps n values points := by
  have hmem {v : K} : v ∈ values ↔
      ∃ b ∈ List.range n, v ∈ bucketSlice timestamps.length n b values := by
    rw [← List.mem_flatMap, hslices]
  refine ⟨hslices, hpoints, fun v hv => ?_, fun v hv => ?_⟩
  · have hlow : ∀ point ∈ points, v ≤ point.min := fun point hpoint => by
      obtain ⟨b, hb, -, hsummary⟩ := forall₂_exists_left hpoints hpoint
      exact hv.2 (hmem.mpr ⟨b, hb, hsummary.least.1⟩)
    obtain ⟨b, hb, hvb⟩ := hmem.mp hv.1
    obtain ⟨point, hpoint, -, hsummary⟩ := forall₂_exists_right hpoints hb
    refine ⟨⟨point, hpoint, (hsummary.least.2 hvb).antisymm (hlow point hpoint)⟩, ?_⟩
    rintro _ ⟨point, hpoint, rfl⟩
    exact hlow point hpoint
  · have hhigh : ∀ point ∈ points, point.max ≤ v := fun point hpoint => by
      obtain ⟨b, hb, -, hsummary⟩ := forall₂_exists_left hpoints hpoint
      exact hv.2 (hmem.mpr ⟨b, hb, hsummary.greatest.1⟩)
    obtain ⟨b, hb, hvb⟩ := hmem.mp hv.1
    obtain ⟨point, hpoint, -, hsummary⟩ := forall₂_exists_right hpoints hb
    refine ⟨⟨point, hpoint, (hhigh point hpoint).antisymm (hsummary.greatest.2 hvb)⟩, ?_⟩
    rintro _ ⟨point, hpoint, rfl⟩
    exact hhigh point hpoint

/-- The channels of an envelope, for values and times of one length. -/
theorem bucketedEnvelopeChannels_enveloped (hexact : floats.Exact)
    {channelSamples : List (ChannelSamples K)} {timestamps : List Timestamptz} {maxPoints : Int}
    (htimes : timestamps ≠ []) (hmax : 1 ≤ maxPoints)
    (hvalues : ∀ channel ∈ channelSamples, channel.values.length = timestamps.length) :
    let n := bucketCount timestamps.length maxPoints
    (n : Int) = min (timestamps.length : Int) maxPoints ∧ Splits timestamps.length n ∧
      List.Forall₂ (fun channel out => out.name = channel.name ∧ out.unit = channel.unit ∧
          ∃ points, out.points = .envelope points ∧ points.length = n ∧
            Enveloped timestamps n channel.values points)
        channelSamples (bucketedEnvelopeChannels floats channelSamples timestamps maxPoints) := by
  intro n
  obtain ⟨hcount, hn, hle⟩ := bucketCount_eq (List.length_pos_iff.mpr htimes) hmax
  refine ⟨hcount, splits hn hle, ?_⟩
  rw [bucketedEnvelopeChannels, List.forall₂_map_right_iff, List.forall₂_same]
  intro channel hchannel
  have hlength := hvalues channel hchannel
  have hpoints := bucketedPoints_forall₂ hexact hn hle hlength
  have hslices := @flatMap_bucketSlice n K channel.values hn
  rw [hlength] at hslices
  refine ⟨rfl, rfl, _, rfl, ?_, enveloped_of_bucketwise hslices hpoints⟩
  rw [← hpoints.length_eq, List.length_range]

def rationalFloats : Floats ℚ where
  ofInt := fun n => n
  ofFloat32 := fun _ => 0
  mul := (· * ·)
  add := (· + ·)
  sub := (· - ·)
  div := (· / ·)
  lt := fun a b => a < b
  abs := fun a => |a|
  sqrt := fun a => a.num.toNat.sqrt / a.den.sqrt
  square := fun a => some (a * a)
  sum := List.sum

theorem rationalFloats_exact : rationalFloats.Exact :=
  ⟨fun _ _ => rfl, fun _ _ => rfl, fun _ => rfl, fun _ => rfl⟩

/-- Five values in two buckets. -/
theorem bucketedEnvelopeChannels_five :
    (bucketedEnvelopeChannels rationalFloats [⟨"ax".toList, none, [3, 1, 2, 5, 4]⟩]
        [0, 10, 20, 30, 40] 2).map (·.points) =
      [.envelope [⟨0, 1, 3, 2⟩, ⟨20, 2, 5, 11 / 3⟩]] ∧ Splits 5 2 := by
  refine ⟨by decide +kernel, ?_⟩
  exact (@bucketedEnvelopeChannels_enveloped ℚ _ _ _ rationalFloats rationalFloats_exact
    [⟨"ax".toList, none, [3, 1, 2, 5, 4]⟩] [0, 10, 20, 30, 40] 2 (by simp) (by decide) (by simp)).2.1

end Aetus.Query
