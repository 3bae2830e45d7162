import Aetus.Base.Lists
import Aetus.EndToEnd.SignalDecoding
import Aetus.Query.Series

/-!
The samples of an accepted frame with their times, as the query API and the anomaly service
have them. The one divides nanoseconds by a thousand to a double, and rounds that to microseconds;
the other cuts the quotient.
-/

set_option autoImplicit false

namespace Aetus
open Aetus.Base Aetus.Ingest

variable {F : Type}

/-- For every channel entry and sample index both services have one value and one time. The
anomaly service counts nanoseconds. -/
def SameSamples (doubles : Doubles F) (number : Double → F) (n : NormalizedSignalFrame)
    (samples : List UInt8) (eventTime : Postgres.Timestamptz) (windowStart windowEnd : Int)
    (maxPoints : Nat) : Prop :=
  ∃ values windows, Query.decodeSamples doubles samples n.encoding n.layout
      (n.channels.map (queryChannel number)) n.sampleCount = .ok values ∧
    Anomaly.appendSignalFramePoints doubles []
      (signalFrameRow number n samples (1000 * eventTime)) [] windowStart windowEnd maxPoints =
        .ok windows ∧
    ∀ channel ∈ n.channels, ∃ decoded, values.lookup channel.key = some decoded ∧
      decoded.length = n.sampleCount ∧
      Anomaly.pointsUnder windows channel.key = List.zipWith Anomaly.MetricPoint.mk
        ((Query.sampleTimestamps binary64 eventTime n.sampleIntervalNs n.sampleCount).map (1000 * ·))
        decoded

/-- The nanoseconds behind whole microseconds from which on the nearest double, rounded to a whole
number, is no longer those microseconds. Beyond small numbers it is not the half: a quotient of just
less can be rounded to the half, one of just more too, and the half goes to the even number. -/
def agreeingNs (micros : Nat) : Nat :=
  if micros < 2 ^ 51 then
    let steps := 2 ^ (52 - Nat.log 2 micros)
    if micros % 2 = 0 then 501 + 500 / steps else 500 - 500 / steps
  else if micros < 2 ^ 52 then if micros % 2 = 0 then 750 else 251
  else if micros < 2 ^ 53 then if micros % 2 = 0 then 501 else 500
  else if micros % 2 = 0 then 1000 else 0

/-- The microseconds that lie behind a sample are the same rounded and cut, and their
nanoseconds fit 64 bits. -/
def TimesAgree (sampleIntervalNs sampleIndex : Nat) : Prop :=
  let elapsedNs := sampleIndex * sampleIntervalNs
  elapsedNs < 2 ^ 63 ∧ elapsedNs % 1000 < agreeingNs (elapsedNs / 1000)

instance (sampleIntervalNs sampleIndex : Nat) : Decidable (TimesAgree sampleIntervalNs sampleIndex) :=
  inferInstanceAs (Decidable (_ ∧ _))

/-! Nanoseconds, rounded to microseconds by way of a double -/

section rounded
variable {n s : Nat}

/-- Where the doubles have `s` binary places, the quotient is rounded to these places first. -/
theorem roundHalfEven_binary64_div (hs : s ≤ 1000) (hlow : (2 : ℚ) ^ (52 - s : ℤ) ≤ n / 1000)
    (hhigh : (n / 1000 : ℚ) < 2 ^ (53 - s : ℤ)) :
    roundHalfEven (binary64 (n / 1000)) =
      divRoundHalfEven (divRoundHalfEven (n * 2 ^ s) 1000) (2 ^ s) := by
  have hscale : (2 : ℚ) ^ (52 - s - 52 : ℤ) = ((2 ^ s : ℤ) : ℚ)⁻¹ := by
    rw [Int.cast_pow, Int.cast_ofNat, ← zpow_natCast, ← zpow_neg]
    congr 1
    omega
  have hplaces : (n / 1000 : ℚ) / ((2 ^ s : ℤ) : ℚ)⁻¹ = ((n * 2 ^ s : ℤ) : ℚ) / (1000 : ℤ) := by
    push_cast
    rw [div_inv_eq_mul]
    ring
  rw [binary64_of_binade (e := 52 - s) (by omega) hlow (by rwa [show (52 - s + 1 : ℤ) = 53 - s by ring]),
    hscale, hplaces, roundHalfEven_div _ (by decide), ← div_eq_mul_inv,
    roundHalfEven_div _ (by positivity)]

/-- Rounded to a quarter or less of a whole number, and then to a whole number: the quotient stays
below the half by as much as the first rounding can add to it, and over it by as much as it can take
away. -/
theorem twiceRounded_eq_iff {g : Nat} (hg : 0 < g) :
    divRoundHalfEven (divRoundHalfEven (n * (4 * g)) 1000) (4 * g) = (n / 1000 : Nat) ↔
      n % 1000 < if n / 1000 % 2 = 0 then 501 + 500 / (4 * g) else 500 - 500 / (4 * g) := by
  have hn : n = 1000 * (n / 1000) + n % 1000 := (Nat.div_add_mod n 1000).symm
  have hsteps := Nat.div_add_mod 500 (4 * g)
  have hrest := Nat.mod_lt 500 (show 0 < 4 * g by omega)
  generalize n / 1000 = k at hn ⊢
  generalize n % 1000 = r at hn ⊢
  generalize 500 / (4 * g) = f at hsteps ⊢
  have hgf : 4 * g * f = 4 * (f * g) := by ring
  have hng : (n : Int) * (4 * g) = 4000 * (k * g : Nat) + 4 * (r * g : Nat) := by
    rw [hn]
    push_cast
    ring
  have hplaces := fun z => le_divRoundHalfEven_iff (n := n * (4 * g)) (d := 1000) (z := z) (by decide)
  have hwhole := fun z => le_divRoundHalfEven_iff (n := divRoundHalfEven (n * (4 * g)) 1000)
    (d := 4 * g) (z := z) (by omega)
  generalize divRoundHalfEven (n * (4 * g)) 1000 = m at hplaces hwhole ⊢
  rw [hng] at hplaces
  -- The whole number is reached, and the next one from the half on.
  have hreached : (k : Int) ≤ divRoundHalfEven m (4 * g) := by
    have hfloor := (hplaces (4 * (k * g : Nat))).mpr (.inl (by omega))
    have hprod : (2 * (k : Int) - 1) * (4 * g) = 8 * (k * g : Nat) - 4 * g := by push_cast; ring
    exact (hwhole k).mpr (.inl (by omega))
  have hnext : (k : Int) + 1 ≤ divRoundHalfEven m (4 * g) ↔
      4 * (k * g : Nat) + 2 * (g : Int) + 1 ≤ m ∨ 4 * (k * g : Nat) + 2 * (g : Int) ≤ m ∧ k % 2 = 1 := by
    have hprod : (2 * ((k : Int) + 1) - 1) * (4 * g) = 8 * (k * g : Nat) + 4 * g := by push_cast; ring
    rw [hwhole, hprod]
    omega
  have hhalf := hplaces (4 * (k * g : Nat) + 2 * g)
  have habove := hplaces (4 * (k * g : Nat) + 2 * g + 1)
  have hagree : divRoundHalfEven m (4 * g) = k ↔ ¬(k : Int) + 1 ≤ divRoundHalfEven m (4 * g) := by omega
  rw [hagree, hnext]
  have hlow : r + f ≤ 499 → r * g + f * g ≤ 499 * g := fun h => by
    rw [← Nat.add_mul]
    exact Nat.mul_le_mul_right g h
  have hhigh : 500 ≤ r + f → 500 * g ≤ r * g + f * g := fun h => by
    rw [← Nat.add_mul]
    exact Nat.mul_le_mul_right g h
  have hunder : r ≤ 500 + f → r * g ≤ 500 * g + f * g := fun h => by
    rw [← Nat.add_mul]
    exact Nat.mul_le_mul_right g h
  have hover : 501 + f ≤ r → 501 * g + f * g ≤ r * g := fun h => by
    rw [← Nat.add_mul]
    exact Nat.mul_le_mul_right g h
  split
  · omega
  · omega

theorem binade_of_micros {e : Nat} (hlow : 2 ^ e ≤ n / 1000) (hhigh : n / 1000 < 2 ^ (e + 1)) :
    (2 : ℚ) ^ (e : ℤ) ≤ n / 1000 ∧ (n / 1000 : ℚ) < 2 ^ (e + 1 : ℤ) := by
  have hle : 2 ^ e * 1000 ≤ n := (Nat.le_div_iff_mul_le (by decide)).mp hlow
  have hlt : n < 2 ^ (e + 1) * 1000 := (Nat.div_lt_iff_lt_mul (by decide)).mp hhigh
  refine ⟨(le_div_iff₀ (by norm_num)).mpr ?_, (div_lt_iff₀ (by norm_num)).mpr ?_⟩
  · exact_mod_cast hle
  · exact_mod_cast hlt

theorem rounded_eq_iff_of_places {e g : Nat} (hscale : 2 ^ (52 - e) = 4 * g) (he : e ≤ 52)
    (hlow : 2 ^ e ≤ n / 1000) (hhigh : n / 1000 < 2 ^ (e + 1)) :
    roundHalfEven (binary64 (n / 1000)) = (n / 1000 : Nat) ↔
      n % 1000 < if n / 1000 % 2 = 0 then 501 + 500 / 2 ^ (52 - e) else 500 - 500 / 2 ^ (52 - e) := by
  have hpos : 0 < g := by
    have hpower := Nat.two_pow_pos (52 - e)
    omega
  obtain ⟨hbelow, habove⟩ := binade_of_micros hlow hhigh
  have hcast : (2 : ℤ) ^ (52 - e) = 4 * g := by exact_mod_cast hscale
  have hsub : ((52 - e : Nat) : ℤ) = 52 - e := by omega
  rw [roundHalfEven_binary64_div (s := 52 - e) (by omega) (by rwa [hsub, sub_sub_cancel])
    (by rwa [hsub, show (53 - (52 - e) : ℤ) = e + 1 by ring]), hcast, hscale]
  exact twiceRounded_eq_iff hpos

theorem rounded_eq_iff_of_lt (h : n < 1000) :
    roundHalfEven (binary64 (n / 1000)) = (n / 1000 : Nat) ↔ n % 1000 < agreeingNs (n / 1000) := by
  rw [Nat.div_eq_of_lt h, Nat.mod_eq_of_lt h, show agreeingNs 0 = 501 by decide]
  rcases Nat.lt_or_ge n 501 with hhalf | hhalf
  · refine iff_of_true ?_ hhalf
    have hle : (n / 1000 : ℚ) ≤ 2 ^ (-1 : ℤ) := by
      rw [zpow_neg_one, div_le_iff₀ (by norm_num)]
      have hcast : (n : ℚ) ≤ 500 := by exact_mod_cast Nat.le_of_lt_succ hhalf
      linarith
    have hdouble := binary64_le_zpow (by decide) (by positivity) hle
    rw [zpow_neg_one] at hdouble
    refine le_antisymm (Int.le_of_lt_add_one (Int.not_le.mp fun hone => ?_))
      (le_roundHalfEven (by exact_mod_cast binary64_nonneg (by positivity)))
    rcases le_roundHalfEven_iff.mp hone with hlt | ⟨-, hodd⟩
    · norm_num at hlt
      linarith
    · exact absurd hodd (by decide)
  · refine iff_of_false (fun hzero => ?_) (by omega)
    have hlow : (2 : ℚ) ^ (52 - (53 : ℕ) : ℤ) ≤ n / 1000 := by
      rw [show (52 - (53 : ℕ) : ℤ) = -1 by norm_num, zpow_neg_one, le_div_iff₀ (by norm_num)]
      have hcast : (501 : ℚ) ≤ n := by exact_mod_cast hhalf
      linarith
    have hhigh : (n / 1000 : ℚ) < 2 ^ (53 - (53 : ℕ) : ℤ) := by
      rw [show (53 - (53 : ℕ) : ℤ) = 0 by norm_num, zpow_zero, div_lt_iff₀ (by norm_num), one_mul]
      exact_mod_cast h
    rw [roundHalfEven_binary64_div (by decide) hlow hhigh] at hzero
    have htwice := (twiceRounded_eq_iff (n := n) (g := 2 ^ 51) (by decide)).mp
      (by rw [Nat.div_eq_of_lt h]; exact_mod_cast hzero)
    rw [Nat.div_eq_of_lt h, Nat.mod_eq_of_lt h] at htwice
    norm_num at htwice
    omega

theorem rounded_eq_iff_of_even (hlow : 2 ^ 53 ≤ n / 1000) (hhigh : n / 1000 < 2 ^ 54) :
    roundHalfEven (binary64 (n / 1000)) = (n / 1000 : Nat) ↔ n / 1000 % 2 = 0 := by
  obtain ⟨hbelow, habove⟩ := binade_of_micros hlow hhigh
  have hhalved : (n / 1000 : ℚ) / 2 ^ ((53 : ℕ) - 52 : ℤ) = ((n : ℤ) : ℚ) / (2000 : ℤ) := by
    norm_num
    ring
  have hdouble : binary64 (n / 1000) = ((divRoundHalfEven n 2000 * 2 : ℤ) : ℚ) := by
    rw [binary64_of_binade (by decide) hbelow habove, hhalved, roundHalfEven_div _ (by decide)]
    norm_num
  rw [hdouble, roundHalfEven_intCast]
  unfold divRoundHalfEven
  split <;> omega

theorem rounded_eq_iff (h : n < 2 ^ 63) :
    roundHalfEven (binary64 (n / 1000)) = (n / 1000 : Nat) ↔ n % 1000 < agreeingNs (n / 1000) := by
  rcases Nat.lt_or_ge n 1000 with hsmall | hmicros
  · exact rounded_eq_iff_of_lt hsmall
  have hpos : n / 1000 ≠ 0 := by omega
  have hrest := Nat.mod_lt n (show 0 < 1000 by decide)
  rcases Nat.lt_or_ge (n / 1000) (2 ^ 51) with hplaces | h51
  · have hlog : Nat.log 2 (n / 1000) < 51 := Nat.log_lt_of_lt_pow hpos hplaces
    have hscale : 2 ^ (52 - Nat.log 2 (n / 1000)) = 4 * 2 ^ (50 - Nat.log 2 (n / 1000)) := by
      rw [show 52 - Nat.log 2 (n / 1000) = 2 + (50 - Nat.log 2 (n / 1000)) by omega, Nat.pow_add]
    rw [agreeingNs, if_pos hplaces]
    exact rounded_eq_iff_of_places hscale (by omega) (Nat.pow_log_le_self 2 hpos)
      (Nat.lt_pow_succ_log_self (by decide) _)
  rcases Nat.lt_or_ge (n / 1000) (2 ^ 52) with hplace | h52
  · obtain ⟨hlow, hhigh⟩ := binade_of_micros h51 hplace
    rw [roundHalfEven_binary64_div (s := 1) (by decide) (by exact hlow) (by exact hhigh), agreeingNs,
      if_neg (by omega), if_pos hplace]
    unfold divRoundHalfEven
    split <;> split <;> split <;> omega
  rcases Nat.lt_or_ge (n / 1000) (2 ^ 53) with hwhole | h53
  · obtain ⟨hlow, hhigh⟩ := binade_of_micros h52 hwhole
    rw [roundHalfEven_binary64_div (s := 0) (by decide) (by exact hlow) (by exact hhigh), agreeingNs,
      if_neg (by omega), if_neg (by omega), if_pos hwhole]
    unfold divRoundHalfEven
    split <;> split <;> split <;> omega
  · rw [rounded_eq_iff_of_even h53 (by omega), agreeingNs, if_neg (by omega), if_neg (by omega),
      if_neg (by omega)]
    split <;> omega

theorem zpow_le_rounded {e : Nat} (h : 2 ^ e * 1000 ≤ n) :
    (2 : ℤ) ^ e ≤ roundHalfEven (binary64 (n / 1000)) := by
  have hlow : (2 : ℚ) ^ (e : ℤ) ≤ n / 1000 := by
    rw [le_div_iff₀ (by norm_num), zpow_natCast]
    exact_mod_cast h
  refine le_roundHalfEven ?_
  have hdouble := zpow_le_binary64 (by omega) hlow
  rw [zpow_natCast] at hdouble
  exact_mod_cast hdouble

end rounded

theorem elapsedMicros_of_lt {sampleIntervalNs sampleIndex : Nat}
    (h : sampleIndex * sampleIntervalNs < 2 ^ 63) :
    Anomaly.elapsedMicros sampleIntervalNs sampleIndex =
      ((sampleIndex * sampleIntervalNs / 1000 : Nat) : Int) := by
  have hfits : Int.bmod ((sampleIndex * sampleIntervalNs : Nat) : Int) (2 ^ 64) =
      (sampleIndex * sampleIntervalNs : Nat) := by
    refine Int.bmod_eq_of_le ?_ ?_
    · exact Int.le_trans (by decide) (Int.natCast_nonneg _)
    · exact Int.ofNat_lt.mpr h
  rw [Anomaly.elapsedMicros, ← Int.natCast_mul, hfits]
  rfl

theorem elapsedMicros_lt_of_le {sampleIntervalNs sampleIndex : Nat}
    (h : 2 ^ 63 ≤ sampleIndex * sampleIntervalNs) :
    Anomaly.elapsedMicros sampleIntervalNs sampleIndex <
      Query.sampleDelta binary64 sampleIntervalNs sampleIndex := by
  rw [Anomaly.elapsedMicros, ← Int.natCast_mul, Query.sampleDelta]
  generalize sampleIndex * sampleIntervalNs = elapsed at h ⊢
  have hlow : -2 ^ 63 ≤ Int.bmod (elapsed : Int) (2 ^ 64) := Int.le_bmod (by decide)
  have hhigh : Int.bmod (elapsed : Int) (2 ^ 64) < 2 ^ 63 := Int.bmod_lt (by decide)
  have hcongr : Int.bmod (elapsed : Int) (2 ^ 64) % 2 ^ 64 = (elapsed : Int) % 2 ^ 64 :=
    Int.bmod_emod
  generalize Int.bmod (elapsed : Int) (2 ^ 64) = wrapped at hlow hhigh hcongr ⊢
  have hlate : (2 : ℤ) ^ 53 ≤ roundHalfEven (binary64 (elapsed / 1000)) :=
    zpow_le_rounded ((by decide : 2 ^ 53 * 1000 ≤ 2 ^ 63).trans h)
  rcases Int.le_total 0 wrapped with hpos | hneg
  · -- Twice around: what is left is less than one round.
    have hlater : (2 : ℤ) ^ 54 ≤ roundHalfEven (binary64 (elapsed / 1000)) :=
      zpow_le_rounded ((by decide : 2 ^ 54 * 1000 ≤ 2 ^ 64).trans (by omega))
    rw [Int.tdiv_eq_ediv_of_nonneg hpos]
    omega
  · have hbefore : wrapped.tdiv 1000 ≤ (0 : Int).tdiv 1000 := Int.tdiv_le_tdiv (by decide) hneg
    rw [Int.zero_tdiv] at hbefore
    omega

theorem sampleDelta_bounds {sampleIntervalNs sampleIndex : Nat}
    (h : sampleIndex * sampleIntervalNs < 2 ^ 63) :
    0 ≤ Query.sampleDelta binary64 sampleIntervalNs sampleIndex ∧
      Query.sampleDelta binary64 sampleIntervalNs sampleIndex ≤ 2 ^ 54 := by
  have hnonneg : (0 : ℚ) ≤ (sampleIndex * sampleIntervalNs : Nat) / 1000 := by positivity
  have hle : ((sampleIndex * sampleIntervalNs : Nat) / 1000 : ℚ) ≤ 2 ^ (54 : ℤ) := by
    have hcast : ((sampleIndex * sampleIntervalNs : Nat) : ℚ) ≤ 2 ^ 63 := by exact_mod_cast h.le
    rw [div_le_iff₀ (by norm_num)]
    exact hcast.trans (by norm_num)
  have hlow := binary64_nonneg hnonneg
  have hhigh := binary64_le_zpow (by decide) hnonneg hle
  exact ⟨le_roundHalfEven (by exact_mod_cast hlow), roundHalfEven_le (by exact_mod_cast hhigh)⟩

theorem timesAgree_iff {sampleIntervalNs sampleIndex : Nat} :
    Anomaly.elapsedMicros sampleIntervalNs sampleIndex =
        Query.sampleDelta binary64 sampleIntervalNs sampleIndex ↔
      TimesAgree sampleIntervalNs sampleIndex := by
  rcases Nat.lt_or_ge (sampleIndex * sampleIntervalNs) (2 ^ 63) with hfits | hwraps
  · rw [elapsedMicros_of_lt hfits, eq_comm, TimesAgree, and_iff_right hfits, ← rounded_eq_iff hfits]
    rfl
  · exact iff_of_false (Int.ne_of_lt (elapsedMicros_lt_of_le hwraps)) fun hagree =>
      Nat.not_lt.mpr hwraps hagree.1

variable {doubles : Doubles F} {number : Double → F} {n : NormalizedSignalFrame}
  {samples : List UInt8}

theorem sameSamples_iff_of_decodable (h : Decodable n samples)
    (hnodup : (n.channels.map (·.key)).Nodup) {eventTime : Postgres.Timestamptz}
    {windowStart windowEnd : Int} {maxPoints : Nat}
    (hwindow : ∀ j < n.sampleCount, (signalFrameRow number n samples (1000 * eventTime)).inWindow
      windowStart windowEnd j = true)
    (hroom : n.sampleCount ≤ maxPoints) :
    SameSamples doubles number n samples eventTime windowStart windowEnd maxPoints ↔
      ∀ j < n.sampleCount, TimesAgree n.sampleIntervalNs j := by
  let frame := signalFrameRow number n samples (1000 * eventTime)
  let anomalyTimes := (List.range n.sampleCount).map frame.sampleTime
  let queryTimes :=
    (Query.sampleTimestamps binary64 eventTime n.sampleIntervalNs n.sampleCount).map (1000 * ·)
  obtain ⟨values, hdecode, hown⟩ : ∃ values, Query.decodeSamples doubles samples n.encoding n.layout
        (n.channels.map (queryChannel number)) n.sampleCount = .ok values ∧
      ∀ i channel, n.channels[i]? = some channel →
        values.lookup channel.key = some (ownValues doubles number n samples i channel) :=
    (query_exact_iff h).mpr hnodup
  obtain ⟨windows, happend, hpoints⟩ := anomaly_points doubles number h hnodup []
    hwindow (fun channel _ => (Nat.zero_add _).trans_le hroom)
  have htimes : anomalyTimes = queryTimes ↔ ∀ j < n.sampleCount, TimesAgree n.sampleIntervalNs j := by
    rw [show queryTimes = _ from List.map_map, List.map_inj_left]
    simp only [List.mem_range]
    refine forall₂_congr fun j _ => ?_
    rw [← timesAgree_iff]
    simp only [frame, Anomaly.SignalFrameRow.sampleTime, signalFrameRow, Function.comp]
    omega
  rw [← htimes]
  constructor
  · rintro ⟨values', windows', hdecode', happend', hsame⟩
    obtain rfl := Except.ok.inj (hdecode.symm.trans hdecode')
    obtain rfl := Except.ok.inj (happend.symm.trans happend')
    obtain ⟨channel, hchannel⟩ := List.exists_mem_of_ne_nil _ h.hasChannels
    obtain ⟨i, hi⟩ := List.mem_iff_getElem?.mp hchannel
    obtain ⟨decoded, -, hlength, hsame⟩ := hsame channel hchannel
    have hzip := congrArg (List.map (·.eventTime)) ((hpoints i channel hi).symm.trans hsame)
    rw [show Anomaly.pointsUnder [] channel.key = ([] : List (Anomaly.MetricPoint F)) from rfl,
      List.nil_append, List.map_zipWith, List.map_zipWith, zipWith_left, zipWith_left] at hzip
    · exact hzip
    · rw [List.length_map, Query.length_sampleTimestamps, hlength]
    · rw [List.length_map, List.length_range, length_ownValues]
  · intro hagree
    refine ⟨values, windows, hdecode, happend, fun channel hchannel => ?_⟩
    obtain ⟨i, hi⟩ := List.mem_iff_getElem?.mp hchannel
    refine ⟨_, hown i channel hi, length_ownValues, ?_⟩
    rw [hpoints i channel hi]
    exact congrArg (List.zipWith _ · _) hagree

/-- Of an accepted frame whose channels have distinct keys, both services have all samples alike
if and only if rounding to microseconds and cutting to them agree at each sample. -/
theorem sameSamples_iff (doubles : Doubles F) (number : Double → F) {frame : SignalFrame}
    (hnormal : normalizeSignalFrame frame = .ok n) (hkeys : (frame.channels.map (·.key)).Nodup)
    {eventTime : Postgres.Timestamptz} {windowStart windowEnd : Int} {maxPoints : Nat}
    (hwindow : ∀ j < n.sampleCount, (signalFrameRow number n frame.samples (1000 * eventTime)).inWindow
      windowStart windowEnd j = true)
    (hroom : n.sampleCount ≤ maxPoints) :
    ∃ samples, b64decode n.samplesB64 = some samples ∧
      (SameSamples doubles number n samples eventTime windowStart windowEnd maxPoints ↔
        ∀ j < n.sampleCount, TimesAgree n.sampleIntervalNs j) := by
  have haccepted := normalizeSignalFrame_ok hnormal
  refine ⟨frame.samples, ?_, ?_⟩
  · rw [haccepted.samplesB64, b64decode_b64encode]
  · refine sameSamples_iff_of_decodable (decodable_of_accepted haccepted) ?_ hwindow hroom
    rw [haccepted.channels, List.map_map]
    exact hkeys

def pairFrame (sampleIntervalNs : UInt64) : SignalFrame where
  streamKey := "imu".toList
  sampleIntervalNs := sampleIntervalNs
  sampleCount := 2
  encoding := SIGNAL_SAMPLE_ENCODING_INT16_LE
  layout := SIGNAL_SAMPLE_LAYOUT_INTERLEAVED
  channels := [⟨"x".toList, [], none, none⟩]
  samples := [1, 0, 2, 0]

def pairNormalized (sampleIntervalNs : Nat) : NormalizedSignalFrame where
  streamKey := "imu".toList
  sampleIntervalNs := sampleIntervalNs
  sampleCount := 2
  encoding := "int16_le".toList
  layout := "interleaved".toList
  channels := [⟨"x".toList, none, none, none⟩]
  samplesB64 := b64encode [1, 0, 2, 0]

theorem sameSamples_wholeMicros :
    ∃ samples, b64decode (pairNormalized 2000).samplesB64 = some samples ∧
      (SameSamples wholeDoubles (fun _ => 0) (pairNormalized 2000) samples 0 0 2000 2 ↔
        ∀ j < 2, TimesAgree 2000 j) := by
  have hnormal : normalizeSignalFrame (pairFrame 2000) = .ok (pairNormalized 2000) := rfl
  exact sameSamples_iff wholeDoubles (fun _ => 0) hnormal (by decide) (by decide +kernel) (by decide)

/-- The second sample is 1500 ns after the first: for the query API two microseconds, for the
anomaly service one. -/
theorem halfMicros_notSame :
    let n := pairNormalized 1500
    let samples : List UInt8 := [1, 0, 2, 0]
    normalizeSignalFrame (pairFrame 1500) = .ok n ∧ b64decode n.samplesB64 = some samples ∧
      Query.sampleTimestamps binary64 0 n.sampleIntervalNs n.sampleCount = [0, 2] ∧
      (List.range 2).map (signalFrameRow (fun _ => (0 : Int)) n samples 0).sampleTime = [0, 1000] ∧
      ¬SameSamples wholeDoubles (fun _ => 0) n samples 0 0 2000 2 := by
  intro n samples
  have hnormal : normalizeSignalFrame (pairFrame 1500) = .ok n := rfl
  refine ⟨hnormal, by decide +kernel, by decide +kernel, by decide +kernel, ?_⟩
  have hdecodable : Decodable n samples := decodable_of_accepted (normalizeSignalFrame_ok hnormal)
  rw [sameSamples_iff_of_decodable hdecodable (by decide) (by decide +kernel) (by decide)]
  exact fun hagree => absurd (hagree 1 (by decide)) (by decide)

end Aetus
