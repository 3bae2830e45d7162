import Aetus.Base.Json

/-!
The answer of the ingest service's `GET /v1/time` at a time in whole nanoseconds: app.py's
`time_sync` with the calendar of Python's `datetime`.
-/

set_option autoImplicit false

namespace Aetus.Ingest
open Aetus.Base

def RTC_VALID_AFTER_UNIX_S : Nat := 1577836800

/-! Calendar -/

/-- Entry 0 is not used. -/
def daysInMonth (month : Nat) : Nat :=
  [0, 31, 28, 31, 30, 31, 30, 31, 31, 30, 31, 30, 31].getD month 0

def daysBeforeMonth (month : Nat) : Nat :=
  [0, 0, 31, 59, 90, 120, 151, 181, 212, 243, 273, 304, 334].getD month 0

structure Date where
  year : Nat
  month : Nat
  day : Nat
  deriving DecidableEq

/-- `_ord2ymd`: the date of a day, counted from 1 at the first of January of the year 1. -/
def ordToYmd (ordinal : Nat) : Date :=
  let n := ordinal - 1
  let n400 := n / 146097
  let n := n % 146097
  let n100 := n / 36524
  let n := n % 36524
  let n4 := n / 1461
  let n := n % 1461
  let n1 := n / 365
  let n := n % 365
  let year := n400 * 400 + 1 + n100 * 100 + n4 * 4 + n1
  if n1 = 4 ∨ n100 = 4 then ⟨year - 1, 12, 31⟩
  else
    let leapyear := n1 = 3 ∧ (n4 ≠ 24 ∨ n100 = 3)
    let month := (n + 50) / 32
    let preceding := daysBeforeMonth month + if 2 < month ∧ leapyear then 1 else 0
    if n < preceding then
      let preceding := preceding - (daysInMonth (month - 1) + if month - 1 = 2 ∧ leapyear then 1 else 0)
      ⟨year, month - 1, n - preceding + 1⟩
    else ⟨year, month, n - preceding + 1⟩

def EPOCH_ORDINAL : Nat := 719163

def zeroPadded (width n : Nat) : List Char :=
  List.replicate (width - (Nat.toDigits 10 n).length) '0' ++ Nat.toDigits 10 n

/-- `datetime.fromtimestamp(unix_time_s, timezone.utc).isoformat()`, whose offset `+00:00` at the
end is replaced by `Z`. -/
def iso8601 (unixTimeS : Nat) : List Char :=
  let date := ordToYmd (EPOCH_ORDINAL + unixTimeS / 86400)
  let second := unixTimeS % 86400
  zeroPadded 4 date.year ++ '-' :: zeroPadded 2 date.month ++ '-' :: zeroPadded 2 date.day ++
    'T' :: zeroPadded 2 (second / 3600) ++ ':' :: zeroPadded 2 (second / 60 % 60) ++
    ':' :: zeroPadded 2 (second % 60) ++ ['Z']

example : iso8601 1583020799 = "2020-02-29T23:59:59Z".toList := by decide

/-! Response -/

structure TimeSyncResponse where
  unixTimeS : Nat
  unixTimeMs : Nat
  unixTimeNs : List Char
  iso8601 : List Char
  source : List Char
  validAfterUnixS : Nat

def timeSync (unixTimeNs : Nat) : TimeSyncResponse :=
  let unixTimeS := unixTimeNs / 1000000000
  { unixTimeS := unixTimeS
    unixTimeMs := unixTimeNs / 1000000
    unixTimeNs := Nat.toDigits 10 unixTimeNs
    iso8601 := iso8601 unixTimeS
    source := "ingest-api".toList
    validAfterUnixS := RTC_VALID_AFTER_UNIX_S }

def TimeSyncResponse.json (response : TimeSyncResponse) : Json :=
  .object [("unix_time_s".toList, .int response.unixTimeS),
    ("unix_time_ms".toList, .int response.unixTimeMs),
    ("unix_time_ns".toList, .string response.unixTimeNs),
    ("iso8601".toList, .string response.iso8601),
    ("source".toList, .string response.source),
    ("valid_after_unix_s".toList, .int response.validAfterUnixS)]

def timeSyncBody (unixTimeNs : Nat) : List UInt8 := utf8 (timeSync unixTimeNs).json.dumps

/-! Text -/

theorem isPlain_zeroPadded (width n : Nat) : ∀ c ∈ zeroPadded width n, Json.isPlain c = true := by
  intro c hc
  rcases List.mem_append.mp hc with hzero | hdigit
  · obtain rfl := List.eq_of_mem_replicate hzero
    rfl
  · exact Json.isPlain_toDigits n c hdigit

theorem isPlain_iso8601 (unixTimeS : Nat) : ∀ c ∈ iso8601 unixTimeS, Json.isPlain c = true := by
  intro c hc
  simp only [iso8601, List.mem_append, List.mem_cons, List.not_mem_nil, or_false] at hc
  have hpadded (width n : Nat) (h : c ∈ zeroPadded width n) := isPlain_zeroPadded width n c h
  rcases hc with ((((((h | rfl | h) | rfl | h) | rfl | h) | rfl | h) | rfl | h) | rfl)
  all_goals first | exact hpadded _ _ h | rfl

def textAfterNs (unixTimeS : Nat) : List Char :=
  ",\"iso8601\":\"".toList ++ (iso8601 unixTimeS ++
    "\",\"source\":\"ingest-api\",\"valid_after_unix_s\":1577836800\x7d".toList)

/-- Stated because unfolding the definition would evaluate its literals. -/
theorem textAfterNs_eq (unixTimeS : Nat) : textAfterNs unixTimeS =
    ",\"iso8601\":\"".toList ++ (iso8601 unixTimeS ++
      "\",\"source\":\"ingest-api\",\"valid_after_unix_s\":1577836800\x7d".toList) := rfl

theorem timeSync_text (t : Nat) : (timeSync t).json.dumps =
    "\x7b\"unix_time_s\":".toList ++ (Nat.toDigits 10 (t / 1000000000) ++
      (",\"unix_time_ms\":".toList ++ (Nat.toDigits 10 (t / 1000000) ++
        (",\"unix_time_ns\":\"".toList ++ (Nat.toDigits 10 t ++
          '"' :: textAfterNs (t / 1000000000)))))) := by
  have hns := Json.dumpsString_plain (Json.isPlain_toDigits t)
  have hiso := Json.dumpsString_plain (isPlain_iso8601 (t / 1000000000))
  have hint (n : Nat) : Json.dumpsInt n = Nat.toDigits 10 n := rfl
  have hafter : Nat.toDigits 10 RTC_VALID_AFTER_UNIX_S = "1577836800".toList := by decide +kernel
  simp only [timeSync, TimeSyncResponse.json, Json.dumps, Json.dumpsMembers, hns, hiso, hint, hafter]
  have hliteral (s : String) (h : s.toList.all Json.isPlain = true) :=
    Json.dumpsString_plain (List.all_eq_true.mp h)
  rw [hliteral "unix_time_s" (by decide), hliteral "unix_time_ms" (by decide),
    hliteral "unix_time_ns" (by decide), hliteral "iso8601" (by decide),
    hliteral "source" (by decide), hliteral "ingest-api" (by decide),
    hliteral "valid_after_unix_s" (by decide)]
  rw [textAfterNs_eq]
  -- only the text between the values is evaluated
  generalize Nat.toDigits 10 (t / 1000000000) = s, Nat.toDigits 10 (t / 1000000) = ms,
    Nat.toDigits 10 t = ns, iso8601 (t / 1000000000) = iso
  simp

/-! Length -/

theorem length_zeroPadded_le {width n k : Nat} (hwidth : width ≤ k) (hk : 0 < k) (hn : n < 10 ^ k) :
    (zeroPadded width n).length ≤ k := by
  have hdigits : (Nat.toDigits 10 n).length ≤ k :=
    (Nat.length_toDigits_le_iff (by decide) hk).mpr hn
  simp only [zeroPadded, List.length_append, List.length_replicate]
  omega

/-- The fields of a date up to November 2738; the bounds are not sharp. -/
theorem ordToYmd_bounds {ordinal : Nat} (h : ordinal < 1000000) :
    (ordToYmd ordinal).year < 10000 ∧ (ordToYmd ordinal).month < 100 ∧
      (ordToYmd ordinal).day < 1000 := by
  unfold ordToYmd
  dsimp only
  split
  · exact ⟨show _ - 1 < 10000 by omega, show 12 < 100 by omega, show 31 < 1000 by omega⟩
  · generalize daysBeforeMonth _ + _ = preceding
    split <;> refine ⟨?_, ?_, ?_⟩ <;> simp only <;> omega

theorem length_iso8601_le {unixTimeS : Nat} (h : unixTimeS < 2 ^ 34) :
    (iso8601 unixTimeS).length ≤ 40 := by
  obtain ⟨hyear, hmonth, hday⟩ :=
    ordToYmd_bounds (h := show EPOCH_ORDINAL + unixTimeS / 86400 < 1000000 by
      unfold EPOCH_ORDINAL; omega)
  have hy := length_zeroPadded_le (le_refl 4) (by decide) hyear
  have hm := length_zeroPadded_le (le_refl 2) (by decide) hmonth
  have hd := length_zeroPadded_le (show 2 ≤ 3 by decide) (by decide) hday
  have htime (n : Nat) (hn : n < 100) :=
    length_zeroPadded_le (le_refl 2) (by decide) hn
  have hhour := htime (unixTimeS % 86400 / 3600) (by omega)
  have hminute := htime (unixTimeS % 86400 / 60 % 60) (by omega)
  have hsecond := htime (unixTimeS % 86400 % 60) (by omega)
  simp only [iso8601, List.length_append, List.length_cons, List.length_nil]
  omega

theorem ascii_timeSync (t : Nat) : ∀ c ∈ (timeSync t).json.dumps, c.toNat < 128 := by
  have hdigits (n : Nat) : ∀ c ∈ Nat.toDigits 10 n, c.toNat < 128 := fun c hc =>
    Json.toNat_lt_of_isPlain (Json.isPlain_toDigits n c hc)
  have hiso : ∀ c ∈ iso8601 (t / 1000000000), c.toNat < 128 := fun c hc =>
    Json.toNat_lt_of_isPlain (isPlain_iso8601 _ c hc)
  have hliteral {s : String} (h : s.toList.all (fun c => decide (c.toNat < 128)) = true) :
      ∀ c ∈ s.toList, c.toNat < 128 := fun c hc => of_decide_eq_true (List.all_eq_true.mp h c hc)
  rw [timeSync_text, textAfterNs_eq]
  simp only [List.forall_mem_append, List.forall_mem_cons]
  exact ⟨hliteral (by decide), hdigits _, hliteral (by decide), hdigits _, hliteral (by decide),
    hdigits _, by decide, hliteral (by decide), hiso, hliteral (by decide)⟩

theorem length_timeSyncBody_lt {t : Nat} (h : t < 2 ^ 63) : (timeSyncBody t).length < 512 := by
  have hdigits (n : Nat) (hn : n < 10 ^ 19) : (Nat.toDigits 10 n).length ≤ 19 :=
    (Nat.length_toDigits_le_iff (by decide) (by decide)).mpr hn
  have hs := hdigits (t / 1000000000) (by omega)
  have hms := hdigits (t / 1000000) (by omega)
  have hns := hdigits t (by omega)
  have hiso := length_iso8601_le (show t / 1000000000 < 2 ^ 34 by omega)
  rw [timeSyncBody, length_utf8_of_ascii (ascii_timeSync t), timeSync_text, textAfterNs_eq]
  simp only [List.length_append, List.length_cons]
  have hliterals : "\x7b\"unix_time_s\":".toList.length + ",\"unix_time_ms\":".toList.length +
    ",\"unix_time_ns\":\"".toList.length + ",\"iso8601\":\"".toList.length +
    "\",\"source\":\"ingest-api\",\"valid_after_unix_s\":1577836800\x7d".toList.length ≤ 200 := by
    decide
  omega

end Aetus.Ingest
