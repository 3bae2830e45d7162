import Mathlib.Tactic.MkIffOfInductiveProp
import Aetus.Firmware.Types

/-!
The checks a configuration passes in `aetus_start` and in `aetus_update_config`, and
the defaults each of them fills in.
-/

set_option autoImplicit false

namespace Aetus.Firmware
open Aetus.Base

/-- A configuration with the texts its pointers lead to; `none` is `NULL`. -/
abbrev TextConfig := Config (Option CString)

/-- An absent string read as an empty one. -/
def Config.text (c : TextConfig) : Config CString := c.map (·.getD .empty)

def checkNetwork (c : TextConfig) : Except Failure Unit := do
  espReturnOnFalse (stringRequiredFits c.wifiSsid AETUS_WIFI_SSID_MAX)
    .invalidArg "wifi ssid is required or too long"
  espReturnOnFalse (stringRequiredFits c.wifiPassword AETUS_WIFI_PASSWORD_MAX)
    .invalidArg "wifi password is required or too long"
  espReturnOnFalse (c.wifiAuth = .psk || c.wifiAuth = .peap) .invalidArg "unsupported wifi auth"
  espReturnOnFalse (c.authMode = .bearer || c.authMode = .hmacSha256)
    .invalidArg "unsupported auth mode"

def checkPeapIdentity (c : TextConfig) : Except Failure Unit :=
  espReturnOnFalse (stringRequiredFits c.wifiIdentity AETUS_WIFI_IDENTITY_MAX)
    .invalidArg "wifi peap id is required or too long"

def checkService (c : TextConfig) : Except Failure Unit := do
  espReturnOnFalse (stringRequiredFits c.ingestUrl AETUS_URL_MAX)
    .invalidArg "ingest url is required or too long"
  espReturnOnFalse (stringFits c.timeUrl (AETUS_URL_MAX + 1)) .invalidArg "time url too long"
  espReturnOnFalse (stringRequiredFits c.deviceId AETUS_DEVICE_ID_MAX)
    .invalidArg "device id is required or too long"
  espReturnOnFalse (stringRequiredFits c.deviceToken AETUS_DEVICE_TOKEN_MAX)
    .invalidArg "device token is required or too long"

/-- `aetus_start` also looks at the first byte of the PEAP password. -/
def checkStart (started : Bool) (c : TextConfig) : Except Failure Unit := do
  checkNetwork c
  if c.wifiAuth = .peap then
    checkPeapIdentity c
    espReturnOnFalse (c.wifiPassword ≠ some .empty) .invalidArg "wifi peap password is empty"
  checkService c
  espReturnOnFalse (!started) .invalidState "aetus already started"

def checkUpdate (c : TextConfig) : Except Failure Unit := do
  checkNetwork c
  if c.wifiAuth = .peap then
    checkPeapIdentity c
  checkService c

section Defaults

variable {σ : Type}

def startDefaults (c : Config σ) : Config σ :=
  { c with
    uploadIntervalMs := if c.uploadIntervalMs = 0 then AETUS_UPLOAD_DEFAULT_INTERVAL_MS
      else c.uploadIntervalMs
    queueDepth := if c.queueDepth = 0 then 16 else c.queueDepth }

def updateDefaults (running c : Config σ) : Config σ :=
  { c with
    uploadIntervalMs := if c.uploadIntervalMs = 0 then AETUS_UPLOAD_DEFAULT_INTERVAL_MS
      else c.uploadIntervalMs
    queueDepth := if c.queueDepth = 0 then running.queueDepth else c.queueDepth }

theorem map_startDefaults {τ : Type} (f : σ → τ) (c : Config σ) :
    (startDefaults c).map f = startDefaults (c.map f) := rfl

end Defaults

@[mk_iff] structure ValidConfig (c : TextConfig) : Prop where
  wifiSsid : stringRequiredFits c.wifiSsid AETUS_WIFI_SSID_MAX = true
  wifiPassword : stringRequiredFits c.wifiPassword AETUS_WIFI_PASSWORD_MAX = true
  wifiAuth : c.wifiAuth = .psk ∨ c.wifiAuth = .peap
  authMode : c.authMode = .bearer ∨ c.authMode = .hmacSha256
  wifiIdentity : c.wifiAuth = .peap →
    stringRequiredFits c.wifiIdentity AETUS_WIFI_IDENTITY_MAX = true
  ingestUrl : stringRequiredFits c.ingestUrl AETUS_URL_MAX = true
  timeUrl : stringFits c.timeUrl (AETUS_URL_MAX + 1) = true
  deviceId : stringRequiredFits c.deviceId AETUS_DEVICE_ID_MAX = true
  deviceToken : stringRequiredFits c.deviceToken AETUS_DEVICE_TOKEN_MAX = true

instance (c : TextConfig) : Decidable (ValidConfig c) := decidable_of_iff _ (validConfig_iff c).symm

theorem checkNetwork_eq_ok {c : TextConfig} :
    checkNetwork c = .ok () ↔
      stringRequiredFits c.wifiSsid AETUS_WIFI_SSID_MAX = true ∧
      stringRequiredFits c.wifiPassword AETUS_WIFI_PASSWORD_MAX = true ∧
      (c.wifiAuth = .psk ∨ c.wifiAuth = .peap) ∧
      (c.authMode = .bearer ∨ c.authMode = .hmacSha256) := by
  simp [checkNetwork, bind_eq_ok]

theorem checkService_eq_ok {c : TextConfig} :
    checkService c = .ok () ↔
      stringRequiredFits c.ingestUrl AETUS_URL_MAX = true ∧
      stringFits c.timeUrl (AETUS_URL_MAX + 1) = true ∧
      stringRequiredFits c.deviceId AETUS_DEVICE_ID_MAX = true ∧
      stringRequiredFits c.deviceToken AETUS_DEVICE_TOKEN_MAX = true := by
  simp [checkService, bind_eq_ok]

theorem checkUpdate_eq_ok {c : TextConfig} : checkUpdate c = .ok () ↔ ValidConfig c := by
  rw [validConfig_iff]
  by_cases hpeap : c.wifiAuth = .peap
  · simp [checkUpdate, hpeap, bind_eq_ok, checkNetwork_eq_ok, checkService_eq_ok, checkPeapIdentity]
    tauto
  · simp [checkUpdate, hpeap, bind_eq_ok, checkNetwork_eq_ok, checkService_eq_ok]
    tauto

theorem stringRequiredFits_ne_empty {value : Option CString} {n : Nat}
    (h : stringRequiredFits value n = true) : value ≠ some .empty := by
  obtain ⟨s, rfl, hs, _⟩ := stringRequiredFits_iff.mp h
  simpa using hs

/-- The second look at the PEAP password refuses nothing that the first let through. -/
theorem checkStart_eq_ok {started : Bool} {c : TextConfig} :
    checkStart started c = .ok () ↔ ValidConfig c ∧ started = false := by
  rw [validConfig_iff]
  by_cases hpeap : c.wifiAuth = .peap
  · simp [checkStart, hpeap, bind_eq_ok, checkNetwork_eq_ok, checkService_eq_ok, checkPeapIdentity]
    have hpassword := @stringRequiredFits_ne_empty c.wifiPassword AETUS_WIFI_PASSWORD_MAX
    tauto
  · simp [checkStart, hpeap, bind_eq_ok, checkNetwork_eq_ok, checkService_eq_ok]
    tauto

def sampleConfig (authMode : AuthMode) (deviceId deviceToken wifiSsid wifiPassword : CString) :
    TextConfig where
  wifiSsid := some wifiSsid
  wifiPassword := some wifiPassword
  wifiAuth := .psk
  wifiIdentity := none
  ingestUrl := some (.lit "http://10.0.0.2/v1/ingest")
  timeUrl := none
  deviceId := some deviceId
  deviceToken := some deviceToken
  authMode := authMode
  firmwareVersion := 1
  uploadIntervalMs := 0
  queueDepth := 0
  connectedLedEnabled := false
  connectedLedGpio := 0

def labConfig (authMode : AuthMode) : TextConfig :=
  sampleConfig authMode (.lit "esp32-001") (.lit "token") (.lit "lab") (.lit "password")

end Aetus.Firmware
