import Aetus.Firmware.RunningConfig

/-!
The numeric characteristics of the provisioning service: the texts they accept, what a
read returns, and what a refused write leaves of the pending configuration.
-/

set_option autoImplicit false

namespace Aetus.Firmware
open Aetus.Base

inductive NumericField where
  | firmwareVersion | uploadIntervalMs | queueDepth | ledGpio
  deriving DecidableEq

def NumericField.characteristic : NumericField → ProvField
  | .firmwareVersion => .firmwareVersion
  | .uploadIntervalMs => .uploadIntervalMs
  | .queueDepth => .queueDepth
  | .ledGpio => .ledGpio

def NumericField.pending (c : Config CharPtr) : NumericField → UInt32
  | .firmwareVersion => c.firmwareVersion
  | .uploadIntervalMs => c.uploadIntervalMs
  | .queueDepth => c.queueDepth
  | .ledGpio => c.connectedLedGpio.toUInt32

def NumericField.store (c : Config CharPtr) (number : UInt32) : NumericField → Config CharPtr
  | .firmwareVersion => { c with firmwareVersion := number }
  | .uploadIntervalMs => { c with uploadIntervalMs := number }
  | .queueDepth => { c with queueDepth := number }
  | .ledGpio => { c with connectedLedGpio := number.toInt32 }

@[simp] theorem pending_store (c : Config CharPtr) (n : UInt32) (f : NumericField) :
    f.pending (f.store c n) = n := by
  cases f <;> rfl

theorem store_eq_self_iff {c : Config CharPtr} {n : UInt32} {f : NumericField} :
    f.store c n = c ↔ f.pending c = n := by
  constructor
  · intro h
    rw [← h, pending_store]
  · intro h
    subst h
    cases f <;> rfl

def Device.storeNumber (d : Device) (f : NumericField) (number : UInt32) : Device :=
  { d with provisioning.config := f.store d.provisioning.config number }

/-- Whatever `read_u32_from_mbuf` answers, its number is stored. -/
theorem provisioningWrite_numeric (a : UpdateAnswers) (f : NumericField) (payload : List UInt8)
    (d : Device) : provisioningWrite a f.characteristic payload d =
      ((readU32FromMbuf payload).1, d.storeNumber f (readU32FromMbuf payload).2) := by
  cases f <;> rfl

inductive ReadError where
  | readNotPermitted | insufficientRes
  deriving DecidableEq

/-- `room` is the answer of `os_mbuf_append`. -/
def appendText (room : Bool) (text : CString) : Except ReadError CString :=
  if room then .ok text else .error .insufficientRes

def decimalText (n : UInt32) : CString := .ofBytes (utf8 (Nat.toDigits 10 n.toNat))

def appendU32 (room : Bool) (value : UInt32) : Except ReadError CString :=
  appendText room (snprintf 16 (decimalText value)).1

def appendBool (room : Bool) (value : Bool) : Except ReadError CString :=
  appendText room (if value then .lit "1" else .lit "0")

def provisioningRead (room : Bool) (field : ProvField) (p : Provisioning) :
    Except ReadError CString :=
  match field with
  | .wifiSsid => appendText room (p.text .wifiSsid)
  | .wifiAuth => appendText room (if p.config.wifiAuth = .peap then .lit "peap" else .lit "psk")
  | .wifiId => appendText room (p.text .wifiIdentity)
  | .ingestUrl => appendText room (p.text .ingestUrl)
  | .timeUrl => appendText room (p.text .timeUrl)
  | .deviceId => appendText room (p.text .deviceId)
  | .firmwareVersion => appendU32 room p.config.firmwareVersion
  | .uploadIntervalMs => appendU32 room p.config.uploadIntervalMs
  | .queueDepth => appendU32 room p.config.queueDepth
  | .ledEnabled => appendBool room p.config.connectedLedEnabled
  | .ledGpio => appendU32 room p.config.connectedLedGpio.toUInt32
  | _ => .error .readNotPermitted

theorem provisioningRead_numeric (room : Bool) (f : NumericField) (p : Provisioning) :
    provisioningRead room f.characteristic p = appendU32 room (f.pending p.config) := by
  cases f <;> rfl

theorem decimalText_strlen_lt (n : UInt32) : (decimalText n).strlen < 16 := by
  have hlen : (Nat.toDigits 10 n.toNat).length ≤ 10 := by
    have hlt := n.toNat_lt
    rw [Nat.length_toDigits_le_iff (by decide) (by decide)]
    omega
  have hle := (List.takeWhile_prefix (l := utf8 (Nat.toDigits 10 n.toNat))
    (· ≠ (0 : UInt8))).length_le
  rw [length_utf8_of_ascii (ascii_toDigits n.toNat)] at hle
  simp only [CString.strlen, decimalText, CString.ofBytes]
  omega

theorem appendU32_room (n : UInt32) : appendU32 true n = .ok (decimalText n) := by
  rw [appendU32, snprintf_fits (decimalText_strlen_lt n)]
  rfl

inductive Sign where
  | none | plus | minus
  deriving DecidableEq

def Sign.bytes : Sign → List UInt8
  | .none => []
  | .plus => [43]
  | .minus => [45]

def digitsValue (digits : List UInt8) : Nat := digits.foldl (fun n b => 10 * n + (b.toNat - 48)) 0

/-- A minus sign negates in the 32 bits of the result. -/
def Sign.number (sign : Sign) (digits : List UInt8) : UInt32 :=
  match sign with
  | .minus => 0 - UInt32.ofNat (digitsValue digits)
  | _ => UInt32.ofNat (digitsValue digits)

/-- The text of the payload is white space, the sign and the digits of a number below 2^32. -/
structure NumberText (payload : List UInt8) (sign : Sign) (digits : List UInt8) : Prop where
  short : payload.length < 16
  text : ∃ space, (∀ b ∈ space, isSpace b = true) ∧
    (writtenText payload).bytes = space ++ (sign.bytes ++ digits)
  digit : ∀ b ∈ digits, isDigit b = true
  nonempty : digits ≠ []
  bound : digitsValue digits < 2 ^ 32

theorem isDigit_bounds {b : UInt8} (hb : isDigit b = true) : 48 ≤ b.toNat ∧ b.toNat ≤ 57 := by
  simp only [isDigit, Bool.and_eq_true, decide_eq_true_eq, UInt8.le_iff_toNat_le] at hb
  exact hb

theorem not_isSpace_of_isDigit {b : UInt8} (hb : isDigit b = true) : isSpace b = false := by
  have hbounds := isDigit_bounds hb
  have hsp : b ≠ 32 := fun h => by subst h; simp at hbounds
  have hle : ¬ b ≤ 13 := by
    rw [UInt8.le_iff_toNat_le]
    have h13 : (13 : UInt8).toNat = 13 := rfl
    omega
  simp [isSpace, hsp, hle]

theorem strtoul_signed {space digits : List UInt8} (sign : Sign)
    (hspace : ∀ b ∈ space, isSpace b = true) (hdigit : ∀ b ∈ digits, isDigit b = true)
    (hne : digits ≠ []) (hbound : digitsValue digits < 2 ^ 32) :
    strtoul (space ++ (sign.bytes ++ digits)) = ⟨sign.number digits, false, true, []⟩ := by
  obtain ⟨d, ds, rfl⟩ := List.exists_cons_of_ne_nil hne
  have hd := hdigit d List.mem_cons_self
  have hnotSpace := not_isSpace_of_isDigit hd
  have hbounds := isDigit_bounds hd
  have hplus : d ≠ 43 := fun h => by subst h; simp at hbounds
  have hminus : d ≠ 45 := fun h => by subst h; simp at hbounds
  have hbody : (space ++ (sign.bytes ++ d :: ds)).dropWhile isSpace = sign.bytes ++ d :: ds := by
    rw [List.dropWhile_append_of_pos hspace]
    cases sign with
    | none => simp [Sign.bytes, hnotSpace]
    | plus => rfl
    | minus => rfl
  have htake : (d :: ds).takeWhile isDigit = d :: ds := List.takeWhile_eq_self_iff.mpr hdigit
  have hmag : List.foldl (fun n b => 10 * n + (UInt8.toNat b - 48)) 0 (d :: ds) =
    digitsValue (d :: ds) := rfl
  have hsmall : ¬ 2 ^ 32 ≤ digitsValue (d :: ds) := by omega
  unfold strtoul
  rw [hbody]
  cases sign with
  | none => simp [Sign.bytes, Sign.number, hminus, hplus, htake, hmag]; omega
  | plus => simp [Sign.bytes, Sign.number, htake, hmag]; omega
  | minus => simp [Sign.bytes, Sign.number, htake, hmag]; omega

/-- Behind the sign, a text that `strtoul` uses up is a sequence of digits. -/
theorem digits_of_rest_nil {body text : List UInt8}
    (hconv : body.takeWhile isDigit ≠ [])
    (hrest : (if body.takeWhile isDigit = [] then text
      else body.drop (body.takeWhile isDigit).length) = []) : body.takeWhile isDigit = body := by
  rw [if_neg hconv, List.drop_eq_nil_iff] at hrest
  exact (List.takeWhile_prefix isDigit).eq_of_length_le hrest

theorem strtoul_accepts {text : List UInt8} (hrange : (strtoul text).outOfRange = false)
    (hconv : (strtoul text).converted = true) (hrest : (strtoul text).rest = []) :
    ∃ space digits, ∃ sign : Sign, (∀ b ∈ space, isSpace b = true) ∧
      text = space ++ (sign.bytes ++ digits) ∧ (∀ b ∈ digits, isDigit b = true) ∧
      digits ≠ [] ∧ digitsValue digits < 2 ^ 32 := by
  have hspace : ∀ b ∈ text.takeWhile isSpace, isSpace b = true := fun b hb =>
    List.mem_takeWhile_imp hb
  have hsplit : text.takeWhile isSpace ++ text.dropWhile isSpace = text :=
    List.takeWhile_append_dropWhile
  -- the sign is what stands between the white space and the digits
  obtain ⟨sign, body, hbody, hread⟩ : ∃ (sign : Sign) (body : List UInt8),
      text.dropWhile isSpace = sign.bytes ++ body ∧
      (if (text.dropWhile isSpace).head? = some 45 || (text.dropWhile isSpace).head? = some 43
        then (text.dropWhile isSpace).drop 1 else text.dropWhile isSpace) = body := by
    cases hb : text.dropWhile isSpace with
    | nil => exact ⟨.none, [], rfl, rfl⟩
    | cons b bs =>
      by_cases h45 : b = 45
      · exact ⟨.minus, bs, by simp [Sign.bytes, h45], by simp [h45]⟩
      · by_cases h43 : b = 43
        · exact ⟨.plus, bs, by simp [Sign.bytes, h43], by simp [h43]⟩
        · exact ⟨.none, b :: bs, rfl, by simp [h45, h43]⟩
  simp only [strtoul, hread, decide_eq_true_eq, decide_eq_false_iff_not,
    Nat.not_le] at hrange hconv hrest
  have hall := digits_of_rest_nil hconv hrest
  rw [hall] at hconv hrange
  refine ⟨_, body, sign, hspace, ?_, ?_, hconv, hrange⟩
  · rw [← hbody, hsplit]
  · intro b hb
    rw [← hall] at hb
    exact List.mem_takeWhile_imp hb

theorem writeText_eq (payload : List UInt8) (target : CString) (n : Nat) :
    writeText payload target (n + 1) =
      if payload.length < n + 1 then (.ok (), writtenText payload)
      else (.error .invalidAttrValueLen, target) := by
  by_cases h : payload.length < n + 1
  · have hle : ¬ n + 1 ≤ payload.length := by omega
    simp [writeText, h, hle]
  · have hle : n + 1 ≤ payload.length := by omega
    simp [writeText, h, hle]

theorem NumberText.read {payload digits : List UInt8} {sign : Sign}
    (h : NumberText payload sign digits) :
    readU32FromMbuf payload = (.ok (), sign.number digits) := by
  obtain ⟨space, hspace, htext⟩ := h.text
  have hparse := strtoul_signed sign hspace h.digit h.nonempty h.bound
  simp [readU32FromMbuf, writeText_eq, h.short, htext, hparse]

theorem readU32FromMbuf_ok {payload : List UInt8} (h : (readU32FromMbuf payload).1 = .ok ()) :
    ∃ sign digits, NumberText payload sign digits := by
  rw [readU32FromMbuf, writeText_eq] at h
  by_cases hlen : payload.length < 16
  · simp only [hlen, if_true] at h
    split at h
    · simp at h
    · next hok =>
      simp only [Bool.or_eq_true, Bool.not_eq_true', decide_eq_true_eq, not_or, Bool.not_eq_true,
        Bool.not_eq_false, Decidable.not_not] at hok
      obtain ⟨space, digits, sign, hspace, htext, hdigit, hne, hbound⟩ :=
        strtoul_accepts hok.1.1 hok.1.2 hok.2
      exact ⟨sign, digits, hlen, ⟨space, hspace, htext⟩, hdigit, hne, hbound⟩
  · simp [hlen] at h

theorem readU32FromMbuf_error {payload : List UInt8} {e : AttError}
    (h : (readU32FromMbuf payload).1 = .error e) : (readU32FromMbuf payload).2 = 0 := by
  unfold readU32FromMbuf at *
  split
  · rfl
  · next hw =>
    simp only [hw] at h
    dsimp only
    split
    · rfl
    · next hok =>
      rw [if_neg hok] at h
      simp at h

/-- For which payloads the write is accepted, and what the next read then prints. -/
theorem numericWrite_accepts (a : UpdateAnswers) (f : NumericField) (payload : List UInt8)
    (d : Device) :
    ((provisioningWrite a f.characteristic payload d).1 = .ok () ↔
      ∃ sign digits, NumberText payload sign digits) ∧
    ∀ sign digits, NumberText payload sign digits →
      provisioningRead true f.characteristic
          (provisioningWrite a f.characteristic payload d).2.provisioning =
        .ok (decimalText (sign.number digits)) := by
  rw [provisioningWrite_numeric]
  refine ⟨⟨readU32FromMbuf_ok, fun ⟨sign, digits, h⟩ => by rw [h.read]⟩, fun sign digits h => ?_⟩
  rw [h.read, provisioningRead_numeric, Device.storeNumber, pending_store, appendU32_room]

def PlainNumber (payload : List UInt8) : Prop :=
  stripNewlines payload ≠ [] ∧ (∀ b ∈ stripNewlines payload, isDigit b = true) ∧
    digitsValue (stripNewlines payload) < 2 ^ 32

instance (payload : List UInt8) : Decidable (PlainNumber payload) := by
  have := List.decidableBAll (fun b => isDigit b = true) (stripNewlines payload)
  unfold PlainNumber; infer_instance

def provisioned : Device := (booted.device.perform (.startProvisioning .granted)).2

/-- The buffer of the parser refuses sixteen digits, and `strtoul` takes a sign. -/
theorem numericWrite_not_plain :
    PlainNumber (utf8 "0000000000000005".toList) ∧
      (provisioningWrite .granted .firmwareVersion (utf8 "0000000000000005".toList)
        provisioned).1 = .error .invalidAttrValueLen ∧
      ¬ PlainNumber (utf8 "+5".toList) ∧
      (provisioningWrite .granted .firmwareVersion (utf8 "+5".toList) provisioned).1 = .ok () := by
  decide +kernel

def RefusalKeepsPending (a : UpdateAnswers) (field : ProvField) (payload : List UInt8)
    (d : Device) : Prop :=
  ∀ e, (provisioningWrite a field payload d).1 = .error e →
    (provisioningWrite a field payload d).2.provisioning = d.provisioning

theorem writeTextField_refused {f : TextField} {payload : List UInt8} {p : Provisioning}
    {e : AttError} (h : (writeTextField f payload p).1 = .error e) :
    (writeTextField f payload p).2 = p := by
  unfold writeTextField writeText at *
  split at h
  · next hlen => simp [hlen, Provisioning.setText]
  · simp at h

theorem readAuthFromMbuf_refused {payload : List UInt8} {auth : WifiAuth} {e : AttError}
    (h : (readAuthFromMbuf payload auth).1 = .error e) :
    (readAuthFromMbuf payload auth).2 = auth := by
  unfold readAuthFromMbuf at *
  split
  · rfl
  · next hw =>
    simp only [hw] at h
    split
    · next hpsk => simp [hpsk] at h
    · next hpsk =>
      split
      · next hpeap => simp [hpsk, hpeap] at h
      · rfl

theorem readBoolFromMbuf_refused {payload : List UInt8} {value : Bool} {e : AttError}
    (h : (readBoolFromMbuf payload value).1 = .error e) :
    (readBoolFromMbuf payload value).2 = value := by
  unfold readBoolFromMbuf at *
  split
  · rfl
  · next hw =>
    simp only [hw] at h
    split
    · next hon => simp [hon] at h
    · next hon =>
      split
      · next hoff => simp [hon, hoff] at h
      · rfl

theorem numeric_or (field : ProvField) : (∃ f : NumericField, f.characteristic = field) ∨
    ∀ f : NumericField, f.characteristic ≠ field := by
  by_cases h : ∃ f : NumericField, f.characteristic = field
  · exact .inl h
  · exact .inr fun f hf => h ⟨f, hf⟩

/-- The fields with a parser of their own write only on success. -/
theorem refusalKeepsPending_of_not_numeric {a : UpdateAnswers} {field : ProvField}
    {payload : List UInt8} {d : Device} (hf : ∀ f : NumericField, f.characteristic ≠ field) :
    RefusalKeepsPending a field payload d := by
  intro e he
  cases field with
  | wifiSsid => exact writeTextField_refused (p := d.provisioning) he
  | wifiId => exact writeTextField_refused (p := d.provisioning) he
  | wifiPassword => exact writeTextField_refused (p := d.provisioning) he
  | ingestUrl => exact writeTextField_refused (p := d.provisioning) he
  | timeUrl => exact writeTextField_refused (p := d.provisioning) he
  | deviceId => exact writeTextField_refused (p := d.provisioning) he
  | deviceToken => exact writeTextField_refused (p := d.provisioning) he
  | wifiAuth =>
    have hkept := readAuthFromMbuf_refused he
    simp only [provisioningWrite, stageField, hkept]
  | ledEnabled =>
    have hkept := readBoolFromMbuf_refused he
    simp only [provisioningWrite, stageField, hkept]
  | firmwareVersion => exact absurd rfl (hf .firmwareVersion)
  | uploadIntervalMs => exact absurd rfl (hf .uploadIntervalMs)
  | queueDepth => exact absurd rfl (hf .queueDepth)
  | ledGpio => exact absurd rfl (hf .ledGpio)
  | apply =>
    unfold provisioningWrite
    dsimp only
    split <;> rfl
  | other v => rfl

theorem refusalKeepsPending_iff (a : UpdateAnswers) (field : ProvField) (payload : List UInt8)
    (d : Device) : RefusalKeepsPending a field payload d ↔
      ∀ f : NumericField, f.characteristic = field →
        f.pending d.provisioning.config = 0 ∨ ∃ sign digits, NumberText payload sign digits := by
  rcases numeric_or field with ⟨f, rfl⟩ | hnot
  · have hinj : ∀ g : NumericField, g.characteristic = f.characteristic → g = f := by
      intro g hg
      cases f <;> cases g <;> first | rfl | cases hg
    rw [RefusalKeepsPending, provisioningWrite_numeric]
    constructor
    · intro h g hg
      obtain rfl := hinj g hg
      cases hr : (readU32FromMbuf payload).1 with
      | ok u => exact .inr (readU32FromMbuf_ok hr)
      | error e =>
        have hkept := h e hr
        have hzero := readU32FromMbuf_error hr
        rw [hzero] at hkept
        exact .inl (store_eq_self_iff.mp (congrArg Provisioning.config hkept))
    · intro h e he
      rcases h f rfl with hzero | ⟨sign, digits, htext⟩
      · have hnumber := readU32FromMbuf_error he
        rw [hnumber]
        simp only [Device.storeNumber, store_eq_self_iff.mpr hzero]
      · rw [htext.read] at he
        simp at he
  · exact ⟨fun _ f hf => absurd hf (hnot f),
      fun _ => refusalKeepsPending_of_not_numeric hnot⟩

def versionSeven : Device :=
  (provisioned.perform (.write .granted .firmwareVersion (utf8 "7".toList))).2

theorem versionSeven_lost :
    versionSeven.provisioning.config.firmwareVersion = 7 ∧
      (provisioningWrite .granted .firmwareVersion (utf8 "x".toList)
        versionSeven).2.provisioning.config.firmwareVersion = 0 ∧
      ¬ RefusalKeepsPending .granted .firmwareVersion (utf8 "x".toList) versionSeven := by
  have hzero : (provisioningWrite .granted .firmwareVersion (utf8 "x".toList)
      versionSeven).2.provisioning.config.firmwareVersion = 0 := by decide +kernel
  have hseven : versionSeven.provisioning.config.firmwareVersion = 7 := by decide +kernel
  have herror : (provisioningWrite .granted .firmwareVersion (utf8 "x".toList) versionSeven).1 =
      .error .invalidAttrValueLen := by decide +kernel
  refine ⟨hseven, hzero, fun h => ?_⟩
  have hkept := congrArg (fun p => p.config.firmwareVersion) (h _ herror)
  rw [hzero, hseven] at hkept
  exact absurd hkept (by decide)

end Aetus.Firmware
