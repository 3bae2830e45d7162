import Aetus.Firmware.TimeSync
import Aetus.Ingest.TimeSync

/-!
The time of the ingest service on its way into the clock of a device: the body of the
response, its pieces, the number in it and the clock that is set from it.
-/

set_option autoImplicit false

namespace Aetus
open Aetus.Base Aetus.Firmware

theorem timeSyncBody_eq (t : Nat) : Ingest.timeSyncBody t =
    utf8 "\x7b\"unix_time_s\":".toList ++ (decimalBytes (t / 1000000000) ++
      (utf8 ",\"unix_time_ms\":".toList ++ (decimalBytes (t / 1000000) ++
        (utf8 ",".toList ++ (unixTimeNsKey ++ (utf8 ":\"".toList ++ (decimalBytes t ++
          34 :: utf8 (Ingest.textAfterNs (t / 1000000000))))))))) := by
  have hkey : utf8 ",\"unix_time_ns\":\"".toList =
      utf8 ",".toList ++ (unixTimeNsKey ++ utf8 ":\"".toList) := by decide
  have hquote (text : List Char) : utf8 ('"' :: text) = 34 :: utf8 text := rfl
  simp only [Ingest.timeSyncBody, Ingest.timeSync_text, utf8_append, hkey, hquote, List.append_assoc,
    decimalBytes]

theorem strstr_unixTimeNsKey (s ms : Nat) (text : List UInt8) :
    strstr unixTimeNsKey (utf8 "\x7b\"unix_time_s\":".toList ++ (decimalBytes s ++
      (utf8 ",\"unix_time_ms\":".toList ++ (decimalBytes ms ++ (utf8 ",".toList ++
        (unixTimeNsKey ++ text)))))) = some (unixTimeNsKey ++ text) := by
  have hdigits (n : Nat) (rest : List UInt8) :
      strstr unixTimeNsKey (decimalBytes n ++ rest) = strstr unixTimeNsKey rest := by
    have hquote : (34 : UInt8) ∉ decimalBytes n := fun hmem =>
      absurd (isDigit_decimalBytes n 34 hmem) (by decide)
    exact strstr_skip hquote rest
  rw [strstr_pass (by decide), hdigits, strstr_pass (by decide), hdigits, strstr_pass (by decide),
    strstr_hit (by decide)]

theorem parseUnixTimeNs_text {t : Nat} (h : t < 2 ^ 64) (s ms : Nat) (after : List UInt8) :
    parseUnixTimeNs (.ofBytes (utf8 "\x7b\"unix_time_s\":".toList ++ (decimalBytes s ++
      (utf8 ",\"unix_time_ms\":".toList ++ (decimalBytes ms ++ (utf8 ",".toList ++
        (unixTimeNsKey ++ (utf8 ":\"".toList ++ (decimalBytes t ++ 34 :: after))))))))) =
      .ok (UInt64.ofNat t) := by
  have hdigits (n : Nat) : (0 : UInt8) ∉ decimalBytes n := fun hmem =>
    absurd (isDigit_decimalBytes n 0 hmem) (by decide)
  have hquote : (CString.ofBytes (34 :: after)).bytes = 34 :: (CString.ofBytes after).bytes :=
    CString.ofBytes_append (show 0 ∉ [34] by decide) after
  unfold parseUnixTimeNs
  rw [CString.ofBytes_append (by decide), CString.ofBytes_append (hdigits s),
    CString.ofBytes_append (by decide), CString.ofBytes_append (hdigits ms),
    CString.ofBytes_append (by decide), CString.ofBytes_append (by decide),
    CString.ofBytes_append (by decide), CString.ofBytes_append (hdigits t), hquote,
    strstr_unixTimeNsKey]
  have hvalue := strtoull_decimalBytes h (b := 34) (by decide) (CString.ofBytes after).bytes
  have hseparator (text : List UInt8) : utf8 ":\"".toList ++ text = 58 :: 34 :: text := rfl
  have hblank (text : List UInt8) : (34 :: text).dropWhile isValueBlank = 34 :: text := rfl
  have hchr (text : List UInt8) : strchr 58 (58 :: text) = some (58 :: text) := rfl
  simp only [List.drop_left, hseparator, hchr, List.drop_succ_cons, List.drop_zero, hblank,
    List.head?_cons, if_true, hvalue]
  rfl

def TimeAnswered (network : Request → Option HttpExchange) (c : Config CString)
    (body : List UInt8) : Prop :=
  ∃ request exchange, timeRequest c = .ok request ∧ network request = some exchange ∧
    exchange.err = .ok ∧ 200 ≤ exchange.status ∧ exchange.status < 300 ∧
    exchange.events.flatMap HttpEvent.bytes = body

theorem fetchServerTimeNs_eq {network : Request → Option HttpExchange} {c : Config CString}
    {t : Nat} (h : TimeAnswered network c (Ingest.timeSyncBody t)) (ht : t < 2 ^ 63) :
    fetchServerTimeNs network c = .ok (UInt64.ofNat t) := by
  obtain ⟨request, exchange, hrequest, hexchange, herr, hge, hlt, hbody⟩ := h
  have hfits : (exchange.events.flatMap HttpEvent.bytes).length < 512 := by
    rw [hbody]
    exact Ingest.length_timeSyncBody_lt ht
  obtain ⟨hdata, hover⟩ : (exchange.events.foldl collectHttpBody .empty).data =
      Ingest.timeSyncBody t ∧ (exchange.events.foldl collectHttpBody .empty).overflow = false := by
    rw [← hbody]
    exact foldl_collectHttpBody exchange.events .empty ((Nat.zero_add _).symm ▸ hfits)
  have hparse : parseUnixTimeNs (.ofBytes (Ingest.timeSyncBody t)) = .ok (UInt64.ofNat t) := by
    rw [timeSyncBody_eq]
    exact parseUnixTimeNs_text (by omega) _ _ _
  simp [fetchServerTimeNs, hrequest, bind, Except.bind, hexchange, herr, hge, hlt, hover, hdata, hparse,
    espReturnOnError, espReturnOnFalse]

/-- The device reads the time that the service wrote, and its clock then shows it in whole
microseconds; a time before the threshold does not reach the clock. -/
theorem timeSync_exact (network : Request → Option HttpExchange) (c : Config CString) (t : Nat)
    (ht : t < 2 ^ 63) (h : TimeAnswered network c (Ingest.timeSyncBody t)) (rtc : Timeval) :
    fetchServerTimeNs network c = .ok (UInt64.ofNat t) ∧
      (AETUS_RTC_VALID_AFTER_UNIX_S.toNat * 1000000000 ≤ t →
        (setRtcFromUnixTimeNs true (UInt64.ofNat t) rtc).1 = .ok () ∧
        aetusRtcTimestampNs (some (setRtcFromUnixTimeNs true (UInt64.ofNat t) rtc).2) =
          .ok (UInt64.ofNat (t / 1000 * 1000))) ∧
      (t < AETUS_RTC_VALID_AFTER_UNIX_S.toNat * 1000000000 → ∀ written,
        (∃ e, (setRtcFromUnixTimeNs written (UInt64.ofNat t) rtc).1 = .error e) ∧
        (setRtcFromUnixTimeNs written (UInt64.ofNat t) rtc).2 = rtc) := by
  have hsecond : (1000000000 : UInt64).toNat = 1000000000 := rfl
  have hmicro : (1000 : UInt64).toNat = 1000 := rfl
  have htNat : (UInt64.ofNat t).toNat = t := by
    rw [UInt64.toNat_ofNat', Nat.mod_eq_of_lt (by omega)]
  have hseconds : (UInt64.ofNat t / 1000000000).toNat = t / 1000000000 := by
    rw [UInt64.toNat_div, htNat, hsecond]
  have hrounded : UInt64.ofNat t / 1000 * 1000 = UInt64.ofNat (t / 1000 * 1000) := by
    refine UInt64.toNat_inj.mp ?_
    rw [UInt64.toNat_mul, UInt64.toNat_div, htNat, hmicro, UInt64.toNat_ofNat']
  refine ⟨fetchServerTimeNs_eq h ht, fun hvalid => ?_, fun hearly written => ?_⟩
  · rw [← hrounded]
    refine setRtcFromUnixTimeNs_read ?_
    rw [UInt64.le_iff_toNat_le, hseconds]
    exact (Nat.le_div_iff_mul_le (by decide)).mpr hvalid
  · have hlt : UInt64.ofNat t / 1000000000 < AETUS_RTC_VALID_AFTER_UNIX_S := by
      rw [UInt64.lt_iff_toNat_lt, hseconds]
      exact (Nat.div_lt_iff_lt_mul (by decide)).mpr hearly
    rw [setRtcFromUnixTimeNs, if_pos hlt]
    exact ⟨⟨_, rfl⟩, rfl⟩

def twoPieces (body : List UInt8) (_ : Request) : Option HttpExchange :=
  some ⟨[.other, .onData (some (body.take 100)), .onData none, .onData (some (body.drop 100))], .ok, 200⟩

def timedConfig : Config CString :=
  { (labConfig .bearer).text with timeUrl := .lit "http://10.0.0.2/v1/time" }

theorem twoPieces_answered (body : List UInt8) : TimeAnswered (twoPieces body) timedConfig body := by
  have hurl : timedConfig.timeUrl ≠ .empty := by decide
  have hresolve : resolveTimeUrl timedConfig 160 = .ok timedConfig.timeUrl := if_pos hurl
  have hrequest : ∃ request, timeRequest timedConfig = .ok request := by
    rw [timeRequest, hresolve]
    exact ⟨_, rfl⟩
  obtain ⟨request, hrequest⟩ := hrequest
  refine ⟨request, _, hrequest, rfl, rfl, Int.le_refl 200, show (200 : Int) < 300 by decide, ?_⟩
  simp [HttpEvent.bytes]

theorem timeSync_exact_pieces :
    fetchServerTimeNs (twoPieces (Ingest.timeSyncBody 1790000000123456789)) timedConfig =
        .ok (UInt64.ofNat 1790000000123456789) ∧
      aetusRtcTimestampNs
          (some (setRtcFromUnixTimeNs true (UInt64.ofNat 1790000000123456789) ⟨0, 0⟩).2) =
        .ok (UInt64.ofNat 1790000000123456000) := by
  obtain ⟨hfetch, hset, -⟩ := timeSync_exact (twoPieces (Ingest.timeSyncBody 1790000000123456789))
    timedConfig 1790000000123456789 (by decide) (twoPieces_answered _) ⟨0, 0⟩
  exact ⟨hfetch, (hset (by decide)).2⟩

end Aetus
