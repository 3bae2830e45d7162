import Aetus.Base.Search
import Aetus.Firmware.ProvisioningNumbers
import Aetus.Firmware.Requests

/-!
The RTC set from the time of the ingest service: the body of the response collected piece by
piece, its number found and read, and the clock of `settimeofday` and `gettimeofday`.
-/

set_option autoImplicit false

namespace Aetus.Firmware
open Aetus.Base

def AETUS_TIME_RESPONSE_BUFFER_BYTES : Nat := 512
def AETUS_RTC_VALID_AFTER_UNIX_S : UInt64 := 1577836800

def ESP_ERR_INVALID_RESPONSE : EspErr := .driver 0x108

/-! Body -/

inductive HttpEvent where
  | onData (data : Option (List UInt8))
  | other

/-- The bytes of `data` that are in use. Behind them there is room for the terminator. -/
structure HttpBody where
  data : List UInt8
  capacity : Nat
  overflow : Bool
  room : data.length < capacity

def HttpBody.empty : HttpBody where
  data := []
  capacity := AETUS_TIME_RESPONSE_BUFFER_BYTES
  overflow := false
  room := by decide

def collectHttpBody (body : HttpBody) : HttpEvent → HttpBody
  | .other | .onData none => body
  | .onData (some bytes) =>
    if h : body.capacity ≤ body.data.length + bytes.length then
      let incoming := body.capacity - body.data.length - 1
      { body with
        data := body.data ++ bytes.take incoming
        overflow := true
        room := by have := body.room; simp only [List.length_append, List.length_take]; omega }
    else
      { body with
        data := body.data ++ bytes
        room := by rw [List.length_append]; exact Nat.lt_of_not_le h }

def HttpEvent.bytes : HttpEvent → List UInt8
  | .onData (some bytes) => bytes
  | .onData none | .other => []

/-! Number -/

structure Strtoull where
  value : UInt64
  outOfRange : Bool
  converted : Bool

/-- `strtoull` in base 10, with an `unsigned long long` of 64 bits. -/
def strtoull (text : List UInt8) : Strtoull :=
  let body := text.dropWhile isSpace
  let negative := body.head? = some 45
  let body := if body.head? = some 45 || body.head? = some 43 then body.drop 1 else body
  let digits := body.takeWhile isDigit
  let magnitude := digitsValue digits
  { value := if 2 ^ 64 ≤ magnitude then 0xFFFFFFFFFFFFFFFF
      else if negative then 0 - UInt64.ofNat magnitude else UInt64.ofNat magnitude
    outOfRange := 2 ^ 64 ≤ magnitude
    converted := digits ≠ [] }

def isValueBlank (b : UInt8) : Bool := b = 32 || b = 9 || b = 13 || b = 10

def unixTimeNsKey : List UInt8 := utf8 "\"unix_time_ns\"".toList

def parseUnixTimeNs (body : CString) : Except Failure UInt64 :=
  match strstr unixTimeNsKey body.bytes with
  | none => .error ⟨ESP_ERR_INVALID_RESPONSE, "unix_time_ns missing"⟩
  | some cursor =>
    match strchr 58 (cursor.drop unixTimeNsKey.length) with
    | none => .error ⟨ESP_ERR_INVALID_RESPONSE, "unix_time_ns separator missing"⟩
    | some cursor =>
      let cursor := (cursor.drop 1).dropWhile isValueBlank
      let cursor := if cursor.head? = some 34 then cursor.drop 1 else cursor
      let parsed := strtoull cursor
      if !parsed.outOfRange && parsed.converted then .ok parsed.value
      else .error ⟨ESP_ERR_INVALID_RESPONSE, "unix_time_ns invalid"⟩

/-- What `esp_http_client_perform` returns, the events during the call and the status after it. -/
structure HttpExchange where
  events : List HttpEvent
  err : EspErr
  status : Int

/-- `network` gives the exchange of a request, `none` when there is no client for it. -/
def fetchServerTimeNs (network : Request → Option HttpExchange) (c : Config CString) :
    Except Failure UInt64 := do
  let request ← timeRequest c
  match network request with
  | none => .error ⟨.fail, ""⟩
  | some exchange =>
    espReturnOnError exchange.err "time sync http failed"
    espReturnOnFalse (200 ≤ exchange.status && exchange.status < 300) .fail "time sync rejected"
    let body := exchange.events.foldl collectHttpBody .empty
    espReturnOnFalse (!body.overflow) .noMem "time response too large"
    parseUnixTimeNs (.ofBytes body.data)

/-! Clock -/

/-- `struct timeval`: `time_t` has 64 bits and `suseconds_t` 32. -/
structure Timeval where
  tvSec : Int64
  tvUsec : Int32
  deriving DecidableEq

/-- `written` is whether `settimeofday` succeeds. -/
def setRtcFromUnixTimeNs (written : Bool) (unixTimeNs : UInt64) (rtc : Timeval) :
    Except Failure Unit × Timeval :=
  let unixTimeS := unixTimeNs / 1000000000
  if unixTimeS < AETUS_RTC_VALID_AFTER_UNIX_S then
    (.error ⟨ESP_ERR_INVALID_RESPONSE, "server time is before valid rtc threshold"⟩, rtc)
  else if !written then (.error ⟨.fail, "rtc write failed"⟩, rtc)
  else (.ok (), ⟨unixTimeS.toInt64, (unixTimeNs % 1000000000 / 1000).toUInt32.toInt32⟩)

/-- `read` is what `gettimeofday` answers. -/
def aetusRtcTimestampNs (read : Option Timeval) : Except Failure UInt64 := do
  match read with
  | none => .error ⟨.fail, "rtc read failed"⟩
  | some now =>
    espReturnOnFalse (AETUS_RTC_VALID_AFTER_UNIX_S ≤ now.tvSec.toUInt64) .invalidState
      "rtc is not initialized"
    return now.tvSec.toUInt64 * 1000000000 + now.tvUsec.toInt64.toUInt64 * 1000

/-! Collecting -/

theorem collectHttpBody_kept (body : HttpBody) (event : HttpEvent) :
    (collectHttpBody body event).data =
        body.data ++ event.bytes.take (body.capacity - body.data.length - 1) ∧
      (collectHttpBody body event).capacity = body.capacity ∧
      (collectHttpBody body event).overflow =
        (body.overflow || decide (body.capacity ≤ body.data.length + event.bytes.length)) := by
  have hroom : ¬body.capacity ≤ body.data.length := Nat.not_le.mpr body.room
  match event with
  | .other => simp [collectHttpBody, HttpEvent.bytes, hroom]
  | .onData none => simp [collectHttpBody, HttpEvent.bytes, hroom]
  | .onData (some bytes) =>
    rw [collectHttpBody, HttpEvent.bytes]
    by_cases hfull : body.capacity ≤ body.data.length + bytes.length
    · rw [dif_pos hfull]
      exact ⟨rfl, rfl, by simp [hfull]⟩
    · rw [dif_neg hfull, List.take_of_length_le (by omega)]
      exact ⟨rfl, rfl, by simp [hfull]⟩

/-- Of all pieces together as much is kept as there is room for. -/
theorem foldl_collectHttpBody_kept (events : List HttpEvent) (body : HttpBody) :
    (events.foldl collectHttpBody body).data = body.data ++
        (events.flatMap HttpEvent.bytes).take (body.capacity - body.data.length - 1) ∧
      (events.foldl collectHttpBody body).overflow = (body.overflow ||
        decide (body.capacity ≤ body.data.length + (events.flatMap HttpEvent.bytes).length)) := by
  induction events generalizing body with
  | nil =>
    have hroom : ¬body.capacity ≤ body.data.length := Nat.not_le.mpr body.room
    simp [hroom]
  | cons event events ih =>
    obtain ⟨hdata, hcapacity, hoverflow⟩ := collectHttpBody_kept body event
    obtain ⟨ihdata, ihoverflow⟩ := ih (collectHttpBody body event)
    have hroom := (collectHttpBody body event).room
    rw [hdata, hcapacity, List.length_append, List.length_take] at hroom
    rw [List.foldl_cons, List.flatMap_cons, ihdata, ihoverflow, hdata, hcapacity, hoverflow,
      List.length_append, List.length_append, List.length_take, List.append_assoc,
      List.take_append]
    constructor
    · congr 3
      omega
    · rw [Bool.or_assoc, ← Bool.decide_or]
      congr 2
      exact propext (by omega)

theorem foldl_collectHttpBody (events : List HttpEvent) (body : HttpBody)
    (hfits : body.data.length + (events.flatMap HttpEvent.bytes).length < body.capacity) :
    (events.foldl collectHttpBody body).data = body.data ++ events.flatMap HttpEvent.bytes ∧
      (events.foldl collectHttpBody body).overflow = body.overflow := by
  obtain ⟨hdata, hoverflow⟩ := foldl_collectHttpBody_kept events body
  rw [List.take_of_length_le (by omega)] at hdata
  rw [decide_eq_false (Nat.not_le.mpr hfits), Bool.or_false] at hoverflow
  exact ⟨hdata, hoverflow⟩

/-! Digits -/

theorem digit_byte_toNat {c : Char} (h : c.isDigit = true) :
    (UInt8.ofNat c.toNat).toNat = c.toNat := by
  have hcode := isDigit_toNat h
  rw [UInt8.toNat_ofNat', Nat.mod_eq_of_lt (by omega)]

def decimalBytes (n : Nat) : List UInt8 := utf8 (Nat.toDigits 10 n)

theorem decimalBytes_eq (n : Nat) :
    decimalBytes n = (Nat.toDigits 10 n).map fun c => UInt8.ofNat c.toNat :=
  utf8_of_ascii (ascii_toDigits n)

theorem decimalBytes_ne_nil (n : Nat) : decimalBytes n ≠ [] := by
  have hpos := Nat.length_toDigits_pos (b := 10) (n := n)
  rw [decimalBytes_eq, ← List.length_pos_iff, List.length_map]
  exact hpos

theorem isDigit_decimalBytes (n : Nat) : ∀ b ∈ decimalBytes n, isDigit b = true := by
  intro b hb
  rw [decimalBytes_eq] at hb
  obtain ⟨c, hc, rfl⟩ := List.mem_map.mp hb
  have hdigit : c.isDigit = true := Nat.isDigit_of_mem_toDigits (by decide) (by decide) hc
  simp only [isDigit, Bool.and_eq_true, decide_eq_true_eq, UInt8.le_iff_toNat_le,
    digit_byte_toNat hdigit]
  exact isDigit_toNat hdigit

theorem digitsValue_decimalBytes (n : Nat) : digitsValue (decimalBytes n) = n := by
  have hstep : ∀ (cs : List Char) (value : Nat), (∀ c ∈ cs, c.isDigit = true) →
      (cs.map fun c => UInt8.ofNat c.toNat).foldl (fun n b => 10 * n + (b.toNat - 48)) value =
        Nat.ofDigitChars 10 cs value := by
    intro cs
    induction cs with
    | nil => intro value _; rfl
    | cons c cs ih =>
      intro value h
      rw [List.map_cons, List.foldl_cons, Nat.ofDigitChars_cons,
        digit_byte_toNat (h c List.mem_cons_self)]
      exact ih _ fun d hd => h d (List.mem_cons_of_mem _ hd)
  rw [decimalBytes_eq, digitsValue,
    hstep _ 0 fun c hc => Nat.isDigit_of_mem_toDigits (by decide) (by decide) hc]
  exact Nat.ofDigitChars_ten_toDigits

/-- The digits end at the first other byte, and the number is their value while it fits. -/
theorem strtoull_decimalBytes {n : Nat} (hn : n < 2 ^ 64) {b : UInt8} (hb : isDigit b = false)
    (text : List UInt8) :
    strtoull (decimalBytes n ++ b :: text) = ⟨UInt64.ofNat n, false, true⟩ := by
  have hdigits : (decimalBytes n ++ b :: text).takeWhile isDigit = decimalBytes n := by
    rw [List.takeWhile_append_of_pos (isDigit_decimalBytes n), List.takeWhile_cons_of_neg (by simp [hb]),
      List.append_nil]
  have hvalue := digitsValue_decimalBytes n
  have hne := decimalBytes_ne_nil n
  obtain ⟨d, ds, hcons⟩ := List.exists_cons_of_ne_nil hne
  have hd : isDigit d = true := isDigit_decimalBytes n d (by rw [hcons]; exact List.mem_cons_self)
  have hbounds := isDigit_bounds hd
  have hplus : d ≠ 43 := fun h => by subst h; simp at hbounds
  have hminus : d ≠ 45 := fun h => by subst h; simp at hbounds
  have hspace : (decimalBytes n ++ b :: text).dropWhile isSpace = decimalBytes n ++ b :: text := by
    rw [hcons, List.cons_append, List.dropWhile_cons_of_neg (by simp [not_isSpace_of_isDigit hd])]
  have hhead : (decimalBytes n ++ b :: text).head? = some d := by rw [hcons]; rfl
  unfold strtoull
  simp only [hspace, hhead, hdigits, hvalue, Option.some.injEq, hplus, hminus, decide_false,
    Bool.or_self, Bool.false_eq_true, if_false, hne, Nat.not_le.mpr hn, ne_eq, not_false_eq_true,
    decide_true]

/-! Round trip of the clock -/

/-- A number below 2^31 survives the signed microseconds. -/
theorem toUInt64_suseconds {x : UInt64} (h : x.toNat < 2 ^ 31) :
    x.toUInt32.toInt32.toInt64.toUInt64 = x := by
  have hmsb : (x.toBitVec.setWidth 32).msb = false := by
    rw [BitVec.msb_eq_false_iff_two_mul_lt, BitVec.toNat_setWidth, UInt64.toNat_toBitVec]
    omega
  refine UInt64.toBitVec_inj.mp ?_
  change (x.toBitVec.setWidth 32).signExtend 64 = x.toBitVec
  rw [BitVec.signExtend_eq_setWidth_of_msb_false hmsb]
  refine BitVec.eq_of_toNat_eq ?_
  rw [BitVec.toNat_setWidth, BitVec.toNat_setWidth, UInt64.toNat_toBitVec]
  omega

/-- From the threshold on, the clock reads back the time it was set to, less what is below a
microsecond. -/
theorem setRtcFromUnixTimeNs_read {t : UInt64} {rtc : Timeval}
    (h : AETUS_RTC_VALID_AFTER_UNIX_S ≤ t / 1000000000) :
    (setRtcFromUnixTimeNs true t rtc).1 = .ok () ∧
      aetusRtcTimestampNs (some (setRtcFromUnixTimeNs true t rtc).2) = .ok (t / 1000 * 1000) := by
  have hsecond : (1000000000 : UInt64).toNat = 1000000000 := rfl
  have hmicro : (1000 : UInt64).toNat = 1000 := rfl
  have husec : (t % 1000000000 / 1000).toNat < 2 ^ 31 := by
    rw [UInt64.toNat_div, UInt64.toNat_mod, hsecond, hmicro]
    omega
  have hsum : t / 1000000000 * 1000000000 + t % 1000000000 / 1000 * 1000 = t / 1000 * 1000 := by
    refine UInt64.toNat_inj.mp ?_
    have hlt := t.toNat_lt
    simp only [UInt64.toNat_add, UInt64.toNat_mul, UInt64.toNat_div, UInt64.toNat_mod, hsecond,
      hmicro]
    omega
  rw [setRtcFromUnixTimeNs, if_neg (UInt64.not_lt.mpr h)]
  refine ⟨rfl, ?_⟩
  simp only [Bool.not_true, Bool.false_eq_true, if_false, aetusRtcTimestampNs,
    UInt64.toUInt64_toInt64, toUInt64_suseconds husec, hsum, h, decide_true]
  rfl

end Aetus.Firmware
