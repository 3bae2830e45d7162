import Mathlib.Data.Set.Basic
import Aetus.Firmware.RunningConfig

/-!
What a provisioning session leaves of the fields it does not write: the staged copy of
the running configuration, the writes over it, and the assignment back.
-/

set_option autoImplicit false

namespace Aetus.Firmware
open Aetus.Base

inductive FieldValue where
  | none
  | text (s : CString)
  | auth (a : WifiAuth)
  | number (n : UInt32)
  | flag (b : Bool)
  | gpio (n : Int32)
  deriving DecidableEq

def ProvField.value (c : Config CString) : ProvField → FieldValue
  | .wifiSsid => .text c.wifiSsid
  | .wifiAuth => .auth c.wifiAuth
  | .wifiId => .text c.wifiIdentity
  | .wifiPassword => .text c.wifiPassword
  | .ingestUrl => .text c.ingestUrl
  | .timeUrl => .text c.timeUrl
  | .deviceId => .text c.deviceId
  | .deviceToken => .text c.deviceToken
  | .firmwareVersion => .number c.firmwareVersion
  | .uploadIntervalMs => .number c.uploadIntervalMs
  | .queueDepth => .number c.queueDepth
  | .ledEnabled => .flag c.connectedLedEnabled
  | .ledGpio => .gpio c.connectedLedGpio
  | .apply | .other _ => .none

structure KeepsOutside (S : Set ProvField) (c c' : Config CString) : Prop where
  authMode : c'.authMode = c.authMode
  fields : ∀ f, f ∉ S → f.value c' = f.value c

theorem KeepsOutside.refl (S : Set ProvField) (c : Config CString) : KeepsOutside S c c :=
  ⟨rfl, fun _ _ => rfl⟩

theorem KeepsOutside.symm {S : Set ProvField} {c c' : Config CString} (h : KeepsOutside S c c') :
    KeepsOutside S c' c :=
  ⟨h.authMode.symm, fun f hf => (h.fields f hf).symm⟩

theorem KeepsOutside.trans {S : Set ProvField} {c c' c'' : Config CString}
    (h : KeepsOutside S c c') (h' : KeepsOutside S c' c'') : KeepsOutside S c c'' :=
  ⟨h'.authMode.trans h.authMode, fun f hf => (h'.fields f hf).trans (h.fields f hf)⟩

def Device.performAll (d : Device) (as : List DeviceAction) : Device :=
  as.foldl (fun d a => (d.perform a).2) d

/-- What happens while a client writes fields of `S`: the writes, accepted or not, applies
in between, and the uploader that starts Wi-Fi. -/
inductive Stages (S : Set ProvField) : DeviceAction → Prop where
  | write {a : UpdateAnswers} {field : ProvField} {payload : List UInt8} (h : field ∈ S) :
      Stages S (.write a field payload)
  | apply {a : UpdateAnswers} {payload : List UInt8} : Stages S (.write a .apply payload)
  | wifiStart : Stages S .wifiStart

/-- A start accepts the caller's `cfg`; provisioning starts; a client writes fields of `S`
and applies them. -/
inductive Session (S : Set ProvField) (cfg : TextConfig) : Device → Device → Prop where
  | mk {d before opened after : Device} {startAnswers : StartAnswers} {provAnswers : ProvAnswers}
      {applyAnswers : UpdateAnswers} {idle writes : List DeviceAction} {payload : List UInt8}
      (start : d.perform (.start startAnswers (some (cfg.map CharPtr.ofText))) = (true, before))
      (idleOnly : ∀ a ∈ idle, a = .wifiStart)
      (provision : (before.performAll idle).perform (.startProvisioning provAnswers) =
        (true, opened))
      (inside : ∀ a ∈ writes, Stages S a)
      (apply : (opened.performAll writes).perform (.write applyAnswers .apply payload) =
        (true, after)) :
      Session S cfg before after

def Provisioning.view (p : Provisioning) : Config CString :=
  (p.config.map (CharPtr.deref p.text)).text

/-- What loading the buffers makes of a configuration: each text is cut to its buffer,
the authentication mode is lost. -/
def stagedCopy (c : Config CString) : Config CString :=
  { c with
    wifiSsid := c.wifiSsid.take AETUS_WIFI_SSID_MAX
    wifiPassword := c.wifiPassword.take AETUS_WIFI_PASSWORD_MAX
    wifiIdentity := c.wifiIdentity.take AETUS_WIFI_IDENTITY_MAX
    ingestUrl := c.ingestUrl.take AETUS_URL_MAX
    timeUrl := c.timeUrl.take AETUS_URL_MAX
    deviceId := c.deviceId.take AETUS_DEVICE_ID_MAX
    deviceToken := c.deviceToken.take AETUS_DEVICE_TOKEN_MAX
    authMode := .bearer }

theorem copyString_empty {n : Nat} (hn : n ≠ 0) (source : Option CString) :
    copyString .empty n source = (source.getD .empty).take (n - 1) := by
  cases source with
  | none => simp [copyString, hn, CString.empty, CString.take]
  | some s => simp [copyString, hn]

theorem map_ofText_deref (texts : TextField → CString) (c : TextConfig) :
    (c.map CharPtr.ofText).map (CharPtr.deref texts) = c := by
  simp [Config.map]

theorem sync_view {rt : Runtime CharPtr} {c : TextConfig} (hqueue : rt.queue = true)
    (hconfig : rt.config = c.map CharPtr.ofText) :
    (syncPendingFromRuntime rt .zero).view = stagedCopy c.text := by
  simp [syncPendingFromRuntime, hqueue, hconfig, Provisioning.view, bindPendingConfig, Config.map,
    Config.text, Config.pointer, copyString_empty, TextField.size,
    Provisioning.zero, zeroConfig, stagedCopy]

def Provisioning.bound (p : Provisioning) : Prop := ∀ f, p.config.pointer f = .staged f

theorem sync_bound (rt : Runtime CharPtr) (p : Provisioning) :
    (syncPendingFromRuntime rt p).bound := by
  intro f
  cases hqueue : rt.queue <;> cases f <;>
    simp [syncPendingFromRuntime, bindPendingConfig, hqueue] <;> rfl

section Stage

variable {p : Provisioning}

theorem view_of_bound (hp : p.bound) : p.view =
    { p.config with
      wifiSsid := p.text .wifiSsid
      wifiPassword := p.text .wifiPassword
      wifiIdentity := p.text .wifiIdentity
      ingestUrl := p.text .ingestUrl
      timeUrl := p.text .timeUrl
      deviceId := p.text .deviceId
      deviceToken := p.text .deviceToken } := by
  have hssid : p.config.wifiSsid = _ := hp .wifiSsid
  have hpassword : p.config.wifiPassword = _ := hp .wifiPassword
  have hidentity : p.config.wifiIdentity = _ := hp .wifiIdentity
  have hingest : p.config.ingestUrl = _ := hp .ingestUrl
  have htime : p.config.timeUrl = _ := hp .timeUrl
  have hid : p.config.deviceId = _ := hp .deviceId
  have htoken : p.config.deviceToken = _ := hp .deviceToken
  simp [Provisioning.view, Config.map, Config.text, *]

theorem value_setText (hp : p.bound) {t : TextField} {s : CString} {f : ProvField}
    (hf : f.textField ≠ some t) : f.value (p.setText t s).view = f.value p.view := by
  have hset : (p.setText t s).bound := hp
  rw [view_of_bound hp, view_of_bound hset]
  cases f <;> simp_all [ProvField.value, ProvField.textField, Provisioning.setText, eq_comm]

theorem stageField_bound (field : ProvField) (payload : List UInt8) (hp : p.bound) :
    (stageField field payload p).2.bound := by
  intro f
  rw [← hp f]
  cases field <;> cases f <;> rfl

theorem textField_injective {f g : ProvField} {t : TextField} (hf : f.textField = some t)
    (hg : g.textField = some t) : f = g := by
  cases t <;> cases f <;> simp [ProvField.textField] at hf <;>
    cases g <;> simp [ProvField.textField] at hg <;> rfl

theorem stageField_value (hp : p.bound) {field f : ProvField} (hf : f ≠ field)
    (payload : List UInt8) : f.value (stageField field payload p).2.view = f.value p.view := by
  have hstaged := stageField_bound field payload hp
  cases htext : field.textField with
  | some t =>
    have hother : f.textField ≠ some t := fun h => hf (textField_injective h htext)
    cases field <;> cases htext <;> exact value_setText hp hother
  | none =>
    rw [view_of_bound hstaged, view_of_bound hp]
    cases field <;> simp [ProvField.textField] at htext <;>
      cases f <;> first | rfl | exact absurd rfl hf

theorem stageField_authMode (field : ProvField) (payload : List UInt8) (p : Provisioning) :
    (stageField field payload p).2.view.authMode = p.view.authMode := by
  cases field <;> rfl

end Stage

theorem perform_apply_provisioning (d : Device) (a : UpdateAnswers) (payload : List UInt8) :
    (d.perform (.write a .apply payload)).2.provisioning = d.provisioning := by
  simp only [Device.perform, provisioningWrite]
  split <;> rfl

theorem perform_keepsOutside {S : Set ProvField} {d : Device} {a : DeviceAction} (ha : Stages S a)
    (hp : d.provisioning.bound) :
    (d.perform a).2.provisioning.bound ∧
      KeepsOutside S d.provisioning.view (d.perform a).2.provisioning.view := by
  cases ha with
  | wifiStart => exact ⟨hp, .refl S _⟩
  | apply =>
    rw [perform_apply_provisioning]
    exact ⟨hp, .refl S _⟩
  | write h =>
    rename_i a field payload
    by_cases hfield : field = .apply
    · subst hfield
      rw [perform_apply_provisioning]
      exact ⟨hp, .refl S _⟩
    · rw [perform_write hfield]
      refine ⟨stageField_bound field payload hp, stageField_authMode field payload _, ?_⟩
      intro f hf
      have hother : f ≠ field := by
        rintro rfl
        exact hf h
      exact stageField_value hp hother payload

theorem performAll_keepsOutside {S : Set ProvField} {d : Device} {as : List DeviceAction}
    (has : ∀ a ∈ as, Stages S a) (hp : d.provisioning.bound) :
    (d.performAll as).provisioning.bound ∧
      KeepsOutside S d.provisioning.view (d.performAll as).provisioning.view := by
  induction as generalizing d with
  | nil => exact ⟨hp, .refl S _⟩
  | cons a as ih =>
    obtain ⟨hbound, hkeeps⟩ := perform_keepsOutside (has a List.mem_cons_self) hp
    obtain ⟨hbound', hkeeps'⟩ := ih (fun x hx => has x (List.mem_cons_of_mem _ hx)) hbound
    exact ⟨hbound', hkeeps.trans hkeeps'⟩

theorem performAll_idle {d : Device} {as : List DeviceAction} (has : ∀ a ∈ as, a = .wifiStart) :
    (d.performAll as).runtime.config = d.runtime.config ∧
      (d.performAll as).runtime.queue = d.runtime.queue := by
  induction as generalizing d with
  | nil => exact ⟨rfl, rfl⟩
  | cons a as ih =>
    obtain rfl := has a List.mem_cons_self
    exact ih fun x hx => has x (List.mem_cons_of_mem _ hx)

theorem perform_start_ok {d after : Device} {a : StartAnswers} {c : Config CharPtr}
    (h : d.perform (.start a (some c)) = (true, after)) :
    ValidConfig (c.map d.deref) ∧ after.runtime.config = startDefaults c ∧
      after.runtime.queue = true := by
  obtain ⟨e, herror, _⟩ | ⟨_, hc, _, hvalid, heq⟩ := aetusStart_cases d.deref a d.runtime (some c)
  · simp [Device.perform, herror, isOk] at h
  · cases hc
    simp only [Device.perform, heq, Prod.mk.injEq, isOk_eq_true] at h
    obtain ⟨hok, rfl⟩ := h
    exact ⟨hvalid, createResources_config _ _, createResources_queue hok⟩

theorem perform_provision_ok {d after : Device} {a : ProvAnswers}
    (h : d.perform (.startProvisioning a) = (true, after)) :
    after.provisioning.view = (syncPendingFromRuntime d.runtime .zero).view ∧
      after.provisioning.bound := by
  simp only [Device.perform, aetusStartProvisioning] at h
  split at h
  · simp [isOk] at h
  · split at h
    · simp [isOk] at h
    · obtain ⟨-, rfl⟩ := Prod.mk.inj h
      exact ⟨rfl, sync_bound d.runtime .zero⟩

theorem perform_apply_ok {d after : Device} {a : UpdateAnswers} {payload : List UInt8}
    (h : d.perform (.write a .apply payload) = (true, after)) :
    after.view.text = updateDefaults d.view.text d.provisioning.view := by
  obtain ⟨e, herror, _⟩ | ⟨_, hc, _, _, heq⟩ :=
    aetusUpdateConfig_cases d.deref a d.runtime (some d.provisioning.config)
  · simp [Device.perform, provisioningWrite, herror, isOk] at h
  · cases hc
    cases hresult : applyConfig d.deref a
        { d.runtime with config := updateDefaults d.runtime.config d.provisioning.config } with
    | error e => simp [Device.perform, provisioningWrite, heq, hresult, isOk] at h
    | ok u =>
      simp only [Device.perform, provisioningWrite, heq, hresult] at h
      obtain ⟨-, rfl⟩ := Prod.mk.inj h
      rfl

theorem take_of_required {value : Option CString} {n : Nat} (h : stringRequiredFits value n = true) :
    (value.getD .empty).take n = value.getD .empty := by
  obtain ⟨s, rfl, _, hlen⟩ := stringRequiredFits_iff.mp h
  exact CString.take_of_strlen_le hlen

theorem take_of_fits {value : Option CString} {n : Nat} (h : stringFits value (n + 1) = true) :
    (value.getD .empty).take n = value.getD .empty := by
  refine CString.take_of_strlen_le ?_
  cases value with
  | none => simp
  | some s => simpa [stringFits, Nat.lt_succ_iff] using h

/-- What loading keeps of a valid configuration: all of it but the authentication mode and
the part of an identity that its buffer has no room for. -/
theorem stagedCopy_eq {cfg : TextConfig} (h : ValidConfig cfg) :
    stagedCopy cfg.text = { cfg.text with
      wifiIdentity := cfg.text.wifiIdentity.take AETUS_WIFI_IDENTITY_MAX, authMode := .bearer } := by
  simp only [stagedCopy, Config.text, Config.map, take_of_required h.wifiSsid,
    take_of_required h.wifiPassword, take_of_required h.ingestUrl, take_of_fits h.timeUrl,
    take_of_required h.deviceId, take_of_required h.deviceToken]

theorem keepsOutside_stagedCopy_iff {S : Set ProvField} {cfg : TextConfig} (h : ValidConfig cfg) :
    KeepsOutside S cfg.text (stagedCopy cfg.text) ↔
      cfg.authMode = .bearer ∧
        (.wifiId ∈ S ∨ cfg.text.wifiIdentity.strlen ≤ AETUS_WIFI_IDENTITY_MAX) := by
  rw [stagedCopy_eq h, ← CString.take_eq_self_iff]
  constructor
  · intro hkeeps
    refine ⟨hkeeps.authMode.symm, or_iff_not_imp_left.mpr fun hS => ?_⟩
    exact FieldValue.text.inj (hkeeps.fields .wifiId hS)
  · rintro ⟨hmode, hidentity⟩
    refine ⟨hmode.symm, fun f hf => ?_⟩
    by_cases hid : f = .wifiId
    · subst hid
      exact congrArg FieldValue.text (hidentity.resolve_left hf)
    · cases f <;> first | rfl | exact absurd rfl hid

/-- Applying assigns the staged fields. A number that is 0 is filled in, but none of those
outside `S` is. -/
theorem KeepsOutside.updateDefaults {S : Set ProvField} {running c c' : Config CString}
    (h : KeepsOutside S c c') (hinterval : c.uploadIntervalMs ≠ 0) (hdepth : c.queueDepth ≠ 0) :
    KeepsOutside S c (Firmware.updateDefaults running c') := by
  refine ⟨h.authMode, fun f hf => ?_⟩
  have hvalue := h.fields f hf
  cases f with
  | uploadIntervalMs =>
    have hsame : c'.uploadIntervalMs = c.uploadIntervalMs := FieldValue.number.inj hvalue
    simp [ProvField.value, Firmware.updateDefaults, hsame, hinterval]
  | queueDepth =>
    have hsame : c'.queueDepth = c.queueDepth := FieldValue.number.inj hvalue
    simp [ProvField.value, Firmware.updateDefaults, hsame, hdepth]
  | _ => exact hvalue

theorem startDefaults_interval {σ : Type} (c : Config σ) :
    (startDefaults c).uploadIntervalMs ≠ 0 := by
  by_cases h : c.uploadIntervalMs = 0
  · simp [startDefaults, h, AETUS_UPLOAD_DEFAULT_INTERVAL_MS]
  · simp [startDefaults, h]

theorem startDefaults_depth {σ : Type} (c : Config σ) : (startDefaults c).queueDepth ≠ 0 := by
  by_cases h : c.queueDepth = 0 <;> simp [startDefaults, h]

/-- The running configuration after the session is the staged copy of the one before, with
the fields of `S` written over. -/
theorem Session.keepsStaged {S : Set ProvField} {cfg : TextConfig} {before after : Device}
    (h : Session S cfg before after) :
    ValidConfig cfg ∧ before.view = startDefaults cfg ∧
      KeepsOutside S (stagedCopy (startDefaults cfg).text) after.view.text := by
  obtain ⟨hstart, hidle, hprovision, hinside, happly⟩ := h
  obtain ⟨hvalid, hconfig, hqueue⟩ := perform_start_ok hstart
  obtain ⟨hidleConfig, hidleQueue⟩ := performAll_idle hidle
  obtain ⟨hopened, hbound⟩ := perform_provision_ok hprovision
  have hloaded := sync_view (c := startDefaults cfg) (hidleQueue.trans hqueue)
    (hidleConfig.trans hconfig)
  have hstaged := (performAll_keepsOutside hinside hbound).2
  rw [hopened, hloaded] at hstaged
  rw [Device.deref, map_ofText_deref] at hvalid
  refine ⟨hvalid, ?_, ?_⟩
  · rw [Device.view, hconfig, map_startDefaults, Device.deref, map_ofText_deref]
  · rw [perform_apply_ok happly]
    exact hstaged.updateDefaults (startDefaults_interval cfg) (startDefaults_depth cfg)

/-- A session keeps what it does not write exactly when the device was in bearer mode and
its identity, unless written, fits the buffer. -/
theorem session_keepsOutside_iff {S : Set ProvField} {cfg : TextConfig} {before after : Device}
    (h : Session S cfg before after) :
    KeepsOutside S before.view.text after.view.text ↔
      cfg.authMode = .bearer ∧
        (.wifiId ∈ S ∨ cfg.text.wifiIdentity.strlen ≤ AETUS_WIFI_IDENTITY_MAX) := by
  obtain ⟨hvalid, hbefore, hkeeps⟩ := h.keepsStaged
  have hcopy := keepsOutside_stagedCopy_iff (S := S) (validConfig_startDefaults.mpr hvalid)
  rw [hbefore]
  exact ⟨fun hall => hcopy.mp (hall.trans hkeeps.symm), fun hc => (hcopy.mpr hc).trans hkeeps⟩

section SsidSession

variable (cfg : TextConfig)

def ssidBefore : Device :=
  (booted.device.perform (.start (.granted 0) (some (cfg.map CharPtr.ofText)))).2

def ssidOpened : Device := ((ssidBefore cfg).perform (.startProvisioning .granted)).2

def ssidStaged : Device :=
  (ssidOpened cfg).performAll [.write .granted .wifiSsid (utf8 "attic".toList)]

def ssidAfter : Device := ((ssidStaged cfg).perform (.write .granted .apply [])).2

theorem ssidSession
    (hstart : (booted.device.perform (.start (.granted 0) (some (cfg.map CharPtr.ofText)))).1 = true)
    (hopen : ((ssidBefore cfg).perform (.startProvisioning .granted)).1 = true)
    (happly : ((ssidStaged cfg).perform (.write .granted .apply [])).1 = true) :
    Session {.wifiSsid} cfg (ssidBefore cfg) (ssidAfter cfg) := by
  have hinside : ∀ a ∈ [DeviceAction.write .granted .wifiSsid (utf8 "attic".toList)],
      Stages {.wifiSsid} a := by
    intro a ha
    obtain rfl := List.mem_singleton.mp ha
    exact .write rfl
  have hidle : ∀ a ∈ ([] : List DeviceAction), a = .wifiStart := by simp
  exact .mk (Prod.ext hstart rfl) hidle (Prod.ext hopen rfl) hinside (Prod.ext happly rfl)

end SsidSession

theorem bearerSession_keepsOutside : ∃ before after,
    Session {.wifiSsid} (labConfig .bearer) before after ∧
      KeepsOutside {.wifiSsid} before.view.text after.view.text := by
  have hsession := ssidSession (labConfig .bearer) (by decide +kernel) (by decide +kernel)
    (by decide +kernel)
  exact ⟨_, _, hsession, (session_keepsOutside_iff hsession).mpr ⟨rfl, .inr (by decide +kernel)⟩⟩

/-- A device that signs its uploads is back in bearer mode after a session that writes the
SSID alone. -/
theorem hmacSession_losesMode : ∃ before after,
    Session {.wifiSsid} (labConfig .hmacSha256) before after ∧
      ¬ KeepsOutside {.wifiSsid} before.view.text after.view.text := by
  refine ⟨_, _, ssidSession (labConfig .hmacSha256) (by decide +kernel) (by decide +kernel)
    (by decide +kernel), fun hkeeps => ?_⟩
  exact absurd hkeeps.authMode (by decide +kernel)

end Aetus.Firmware
