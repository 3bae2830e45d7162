import Aetus.Base.Quote
import Aetus.Ingest.TimeSync
import Aetus.Postgres.Staging

/-!
The query API's time_utils.py: the text of a `datetime` in UTC, from which the time can be read
off again.
-/

set_option autoImplicit false

namespace Aetus.Query
open Aetus.Base Aetus.Postgres Aetus.Ingest

/-- The first of January of the year 1. -/
def datetimeMin : Timestamptz := -62135596800000000

/-- The last microsecond of the year 9999. -/
def datetimeMax : Timestamptz := 253402300799999999

/-- A `datetime` in UTC. -/
structure DateTime where
  time : Timestamptz
  min_le : datetimeMin ≤ time
  le_max : time ≤ datetimeMax
  deriving DecidableEq

/-- The microseconds are left out where there are none. -/
def microsecondText (micros : Nat) : List Char :=
  if micros = 0 then [] else '.' :: zeroPadded 6 micros

/-- `isoformat()` without the offset. -/
def isoBody (time : Timestamptz) : List Char :=
  let micros := (time - datetimeMin).toNat
  let date := ordToYmd (micros / 86400000000 + 1)
  let second := micros / 1000000 % 86400
  zeroPadded 4 date.year ++ '-' :: (zeroPadded 2 date.month ++ '-' :: (zeroPadded 2 date.day ++
    'T' :: (zeroPadded 2 (second / 3600) ++ ':' :: (zeroPadded 2 (second / 60 % 60) ++
      ':' :: (zeroPadded 2 (second % 60) ++ microsecondText (micros % 1000000))))))

/-- `value.astimezone(timezone.utc).isoformat().replace("+00:00", "Z")`; the offset is at the end
and nowhere else. -/
def toIso8601 (time : Timestamptz) : List Char := isoBody time ++ ['Z']

example : toIso8601 1583020799000000 = "2020-02-29T23:59:59Z".toList := by decide +kernel

example : toIso8601 (-1) = "1969-12-31T23:59:59.999999Z".toList := by decide +kernel

/-! Numbers -/

theorem not_mem_zeroPadded {width n : Nat} {c : Char} (hc : c.isDigit = false) :
    c ∉ zeroPadded width n := by
  intro hmem
  have hdigit : c.isDigit = true := by
    rcases List.mem_append.mp hmem with hzero | hdigit
    · obtain rfl := List.eq_of_mem_replicate hzero
      rfl
    · exact Nat.isDigit_of_mem_toDigits (by decide) (by decide) hdigit
  rw [hc] at hdigit
  cases hdigit

theorem zeroPadded_inj {width m n : Nat} (h : zeroPadded width m = zeroPadded width n) : m = n := by
  have hvalue (k : Nat) : Nat.ofDigitChars 10 (zeroPadded width k) 0 = k := by
    rw [zeroPadded, Nat.ofDigitChars_append, Nat.ofDigitChars_replicate_zero, Nat.mul_zero,
      Nat.ofDigitChars_ten_toDigits]
  rw [← hvalue m, h, hvalue n]

theorem zeroPadded_append_inj {width m n : Nat} {c : Char} {xs ys : List Char}
    (hc : c.isDigit = false) (h : zeroPadded width m ++ c :: xs = zeroPadded width n ++ c :: ys) :
    m = n ∧ xs = ys := by
  obtain ⟨hnumber, hrest⟩ := append_sep_inj (not_mem_zeroPadded hc) (not_mem_zeroPadded hc) h
  exact ⟨zeroPadded_inj hnumber, hrest⟩

theorem seconds_inj {m n micros micros' : Nat}
    (h : zeroPadded 2 m ++ microsecondText micros = zeroPadded 2 n ++ microsecondText micros') :
    m = n ∧ micros = micros' := by
  have hdot : '.' ∉ zeroPadded 2 m ∧ '.' ∉ zeroPadded 2 n :=
    ⟨not_mem_zeroPadded rfl, not_mem_zeroPadded rfl⟩
  unfold microsecondText at h
  split at h <;> split at h
  · next hzero hzero' =>
    rw [List.append_nil, List.append_nil] at h
    exact ⟨zeroPadded_inj h, hzero.trans hzero'.symm⟩
  · rw [List.append_nil] at h
    exact absurd (h ▸ List.mem_append_right _ List.mem_cons_self) hdot.1
  · rw [List.append_nil] at h
    exact absurd (h ▸ List.mem_append_right _ List.mem_cons_self) hdot.2
  · obtain ⟨hsecond, hmicros⟩ := zeroPadded_append_inj rfl h
    exact ⟨hsecond, zeroPadded_inj hmicros⟩

/-! Dates -/

/-- `_ymd2ord`, the inverse of `_ord2ymd`. -/
def ymdToOrd (date : Date) : Nat :=
  let y := date.year - 1
  let leapyear := date.year % 4 = 0 ∧ (date.year % 100 ≠ 0 ∨ date.year % 400 = 0)
  y * 365 + y / 4 - y / 100 + y / 400 + daysBeforeMonth date.month +
    (if 2 < date.month ∧ leapyear then 1 else 0) + date.day

theorem daysBeforeYear {a b c d : Nat} (hb : b ≤ 3) (hc : c ≤ 24) (hd : d ≤ 3) :
    let y := 400 * a + 100 * b + 4 * c + d
    y * 365 + y / 4 - y / 100 + y / 400 = 146097 * a + 36524 * b + 1461 * c + 365 * d := by
  intro y
  have hfour : y / 4 = 100 * a + 25 * b + c := by omega
  have hcentury : y / 100 = 4 * a + b := by omega
  have hera : y / 400 = a := by omega
  omega

theorem leapyear_iff {a b c d : Nat} (hb : b ≤ 3) (hc : c ≤ 24) (hd : d ≤ 3) :
    let year := 400 * a + 100 * b + 4 * c + d + 1
    (year % 4 = 0 ∧ (year % 100 ≠ 0 ∨ year % 400 = 0)) ↔ d = 3 ∧ (c ≠ 24 ∨ b = 3) := by
  intro year
  have hfour : year % 4 = 0 ↔ d = 3 := by omega
  have hcentury : year % 100 = 0 ↔ c = 24 ∧ d = 3 := by omega
  have hera : year % 400 = 0 ↔ b = 3 ∧ c = 24 ∧ d = 3 := by omega
  rw [ne_eq, hfour, hcentury, hera]
  omega

theorem ymdToOrd_eq {a b c d : Nat} (hb : b ≤ 3) (hc : c ≤ 24) (hd : d ≤ 3) (month day : Nat) :
    ymdToOrd ⟨400 * a + 100 * b + 4 * c + d + 1, month, day⟩ =
      146097 * a + 36524 * b + 1461 * c + 365 * d + daysBeforeMonth month +
        (if 2 < month ∧ d = 3 ∧ (c ≠ 24 ∨ b = 3) then 1 else 0) + day := by
  simp only [ymdToOrd, leapyear_iff hb hc hd, Nat.add_sub_cancel, daysBeforeYear hb hc hd]

/-- The month of the day `n` of a year, counted from 0, begins at most `n` days into the year. -/
theorem month_day : ∀ n < 365, ∀ leapyear : Bool,
    let month := (n + 50) / 32
    let preceding := daysBeforeMonth month + if 2 < month ∧ leapyear = true then 1 else 0
    if n < preceding then
      let preceding := preceding -
        (daysInMonth (month - 1) + if month - 1 = 2 ∧ leapyear = true then 1 else 0)
      preceding ≤ n ∧
        daysBeforeMonth (month - 1) + (if 2 < month - 1 ∧ leapyear = true then 1 else 0) = preceding
    else preceding ≤ n := by
  decide +kernel

theorem ymdToOrd_ordToYmd {ordinal : Nat} (h : 1 ≤ ordinal) : ymdToOrd (ordToYmd ordinal) = ordinal := by
  unfold ordToYmd
  dsimp only
  have hordinal : ordinal = 146097 * ((ordinal - 1) / 146097) +
      36524 * ((ordinal - 1) % 146097 / 36524) +
      1461 * ((ordinal - 1) % 146097 % 36524 / 1461) +
      365 * ((ordinal - 1) % 146097 % 36524 % 1461 / 365) +
      (ordinal - 1) % 146097 % 36524 % 1461 % 365 + 1 := by omega
  have hcentury : (ordinal - 1) % 146097 / 36524 ≤ 3 ∨ (ordinal - 1) % 146097 / 36524 = 4 ∧
      (ordinal - 1) % 146097 % 36524 / 1461 = 0 ∧
      (ordinal - 1) % 146097 % 36524 % 1461 / 365 = 0 ∧
      (ordinal - 1) % 146097 % 36524 % 1461 % 365 = 0 := by omega
  have hfour : (ordinal - 1) % 146097 % 36524 / 1461 ≤ 24 := by omega
  have hyear : (ordinal - 1) % 146097 % 36524 % 1461 / 365 ≤ 3 ∨
      (ordinal - 1) % 146097 % 36524 % 1461 / 365 = 4 ∧
      (ordinal - 1) % 146097 % 36524 % 1461 % 365 = 0 ∧
      (ordinal - 1) % 146097 % 36524 / 1461 ≤ 23 := by omega
  have hday : (ordinal - 1) % 146097 % 36524 % 1461 % 365 < 365 := Nat.mod_lt _ (by decide)
  generalize (ordinal - 1) / 146097 = a at *
  generalize (ordinal - 1) % 146097 / 36524 = b at *
  generalize (ordinal - 1) % 146097 % 36524 / 1461 = c at *
  generalize (ordinal - 1) % 146097 % 36524 % 1461 / 365 = d at *
  generalize (ordinal - 1) % 146097 % 36524 % 1461 % 365 = n at *
  split
  · next hlast =>
    -- the last day of a leap year, which the division counts to the next one
    rcases hcentury with hb | ⟨rfl, rfl, rfl, rfl⟩
    · obtain ⟨rfl, rfl, hc⟩ : d = 4 ∧ n = 0 ∧ c ≤ 23 := by omega
      have hdate : a * 400 + 1 + b * 100 + c * 4 + 4 - 1 = 400 * a + 100 * b + 4 * c + 3 + 1 := by
        omega
      rw [hdate, ymdToOrd_eq hb hfour (le_refl 3), if_pos ⟨by decide, rfl, .inl (by omega)⟩]
      show _ + 334 + 1 + 31 = ordinal
      omega
    · have hdate : a * 400 + 1 + 4 * 100 + 0 * 4 + 0 - 1 = 400 * a + 100 * 3 + 4 * 24 + 3 + 1 := by
        omega
      rw [hdate, ymdToOrd_eq (le_refl 3) (le_refl 24) (le_refl 3),
        if_pos ⟨by decide, rfl, .inr rfl⟩]
      show _ + 334 + 1 + 31 = ordinal
      omega
  · next hlast =>
    obtain ⟨hb, hd⟩ : b ≤ 3 ∧ d ≤ 3 := by omega
    have hmonth := month_day n hday (decide (d = 3 ∧ (c ≠ 24 ∨ b = 3)))
    have hdate : a * 400 + 1 + b * 100 + c * 4 + d = 400 * a + 100 * b + 4 * c + d + 1 := by omega
    simp only [decide_eq_true_eq] at hmonth
    rw [hdate]
    generalize hpreceding : daysBeforeMonth ((n + 50) / 32) +
      (if 2 < (n + 50) / 32 ∧ d = 3 ∧ (c ≠ 24 ∨ b = 3) then 1 else 0) = preceding at hmonth ⊢
    by_cases hbefore : n < preceding
    · rw [if_pos hbefore] at hmonth ⊢
      rw [ymdToOrd_eq hb hfour hd]
      omega
    · rw [if_neg hbefore] at hmonth ⊢
      rw [ymdToOrd_eq hb hfour hd]
      omega

/-! Times -/

theorem isoBody_inj {s t : Timestamptz} (hs : datetimeMin ≤ s) (ht : datetimeMin ≤ t)
    (h : isoBody s = isoBody t) : s = t := by
  unfold isoBody at h
  dsimp only at h
  generalize hm : (s - datetimeMin).toNat = m at h
  generalize hn : (t - datetimeMin).toNat = n at h
  obtain ⟨hyear, h⟩ := zeroPadded_append_inj rfl h
  obtain ⟨hmonth, h⟩ := zeroPadded_append_inj rfl h
  obtain ⟨hday, h⟩ := zeroPadded_append_inj rfl h
  obtain ⟨hhour, h⟩ := zeroPadded_append_inj rfl h
  obtain ⟨hminute, h⟩ := zeroPadded_append_inj rfl h
  obtain ⟨hsecond, hmicros⟩ := seconds_inj h
  have hdate : ordToYmd (m / 86400000000 + 1) = ordToYmd (n / 86400000000 + 1) := by
    rw [Date.mk.injEq]
    exact ⟨hyear, hmonth, hday⟩
  have hdays : m / 86400000000 + 1 = n / 86400000000 + 1 := by
    rw [← ymdToOrd_ordToYmd (Nat.le_add_left 1 (m / 86400000000)), hdate,
      ymdToOrd_ordToYmd (Nat.le_add_left 1 _)]
  have hsame : m = n := by omega
  have hs' : (m : Int) = s - datetimeMin := hm ▸ Int.toNat_of_nonneg (Int.sub_nonneg_of_le hs)
  have ht' : (n : Int) = t - datetimeMin := hn ▸ Int.toNat_of_nonneg (Int.sub_nonneg_of_le ht)
  exact (Int.sub_left_inj datetimeMin).mp (hs'.symm.trans (hsame ▸ ht'))

theorem z_not_mem_isoBody (time : Timestamptz) : 'Z' ∉ isoBody time := by
  have hpadded (width n : Nat) : 'Z' ∉ zeroPadded width n := not_mem_zeroPadded rfl
  have hmicros (n : Nat) : 'Z' ∉ microsecondText n := by
    unfold microsecondText
    split <;> simp [hpadded]
  simp [isoBody, hpadded, hmicros]

theorem toIso8601_append_inj {s t : DateTime} {xs ys : List Char}
    (h : toIso8601 s.time ++ xs = toIso8601 t.time ++ ys) : s = t ∧ xs = ys := by
  rw [toIso8601, toIso8601, List.append_assoc, List.append_assoc, List.singleton_append,
    List.singleton_append] at h
  obtain ⟨hbody, hrest⟩ := append_sep_inj (z_not_mem_isoBody _) (z_not_mem_isoBody _) h
  have htime := isoBody_inj s.min_le t.min_le hbody
  obtain ⟨s, _, _⟩ := s
  obtain ⟨t, _, _⟩ := t
  obtain rfl : s = t := htime
  exact ⟨rfl, hrest⟩

end Aetus.Query
