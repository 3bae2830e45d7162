import Mathlib.Data.List.DropRight
import Mathlib.Logic.Function.Basic
import Aetus.Firmware.Runtime

/-!
The BLE provisioning of aetus_provisioning.c: the staged configuration, whose pointers
lead into buffers of the module itself, and the characteristic writes that fill it.
-/

set_option autoImplicit false

namespace Aetus.Firmware
open Aetus.Base

/-- The buffers of `s_prov`. -/
inductive TextField where
  | wifiSsid | wifiPassword | wifiIdentity | ingestUrl | timeUrl | deviceId | deviceToken
  deriving DecidableEq

def TextField.size : TextField → Nat
  | .wifiSsid => AETUS_WIFI_SSID_MAX + 1
  | .wifiPassword => AETUS_WIFI_PASSWORD_MAX + 1
  | .wifiIdentity => AETUS_WIFI_IDENTITY_MAX + 1
  | .ingestUrl => AETUS_URL_MAX + 1
  | .timeUrl => AETUS_URL_MAX + 1
  | .deviceId => AETUS_DEVICE_ID_MAX + 1
  | .deviceToken => AETUS_DEVICE_TOKEN_MAX + 1

def Config.pointer {σ : Type} (c : Config σ) : TextField → σ
  | .wifiSsid => c.wifiSsid
  | .wifiPassword => c.wifiPassword
  | .wifiIdentity => c.wifiIdentity
  | .ingestUrl => c.ingestUrl
  | .timeUrl => c.timeUrl
  | .deviceId => c.deviceId
  | .deviceToken => c.deviceToken

/-- A string pointer: into memory of the caller, which stays as it is, or into a buffer
of `s_prov`. -/
inductive CharPtr where
  | null
  | caller (text : CString)
  | staged (field : TextField)
  deriving DecidableEq

def CharPtr.ofText : Option CString → CharPtr
  | none => .null
  | some s => .caller s

def CharPtr.deref (texts : TextField → CString) : CharPtr → Option CString
  | .null => none
  | .caller s => some s
  | .staged f => some (texts f)

@[simp] theorem deref_staged (texts : TextField → CString) (f : TextField) :
    (CharPtr.staged f).deref texts = some (texts f) := rfl

@[simp] theorem deref_ofText (texts : TextField → CString) (s : Option CString) :
    (CharPtr.ofText s).deref texts = s := by
  cases s <;> rfl

inductive AttError where
  | invalidAttrValueLen | unlikely | writeNotPermitted
  deriving DecidableEq

inductive ProvField where
  | wifiSsid | wifiAuth | wifiId | wifiPassword | ingestUrl | timeUrl | deviceId | deviceToken
  | firmwareVersion | uploadIntervalMs | queueDepth | ledEnabled | ledGpio | apply
  | other (value : UInt32)
  deriving DecidableEq

structure Provisioning where
  config : Config CharPtr
  text : TextField → CString
  started : Bool

def zeroConfig : Config CharPtr where
  wifiSsid := .null
  wifiPassword := .null
  wifiAuth := .psk
  wifiIdentity := .null
  ingestUrl := .null
  timeUrl := .null
  deviceId := .null
  deviceToken := .null
  authMode := .bearer
  firmwareVersion := 0
  uploadIntervalMs := 0
  queueDepth := 0
  connectedLedEnabled := false
  connectedLedGpio := 0

def Provisioning.zero : Provisioning := ⟨zeroConfig, fun _ => .empty, false⟩

def bindPendingConfig (c : Config CharPtr) : Config CharPtr :=
  { c with
    wifiSsid := .staged .wifiSsid
    wifiPassword := .staged .wifiPassword
    wifiIdentity := .staged .wifiIdentity
    ingestUrl := .staged .ingestUrl
    timeUrl := .staged .timeUrl
    deviceId := .staged .deviceId
    deviceToken := .staged .deviceToken }

/-- `aetus_get_config` fails while there is no queue. The list of copied fields is the
source's, which passes over `auth_mode`. -/
def syncPendingFromRuntime (rt : Runtime CharPtr) (p : Provisioning) : Provisioning :=
  let p := { p with config := bindPendingConfig p.config }
  if !rt.queue then p
  else
    { p with
      text := fun f => copyString (p.text f) f.size ((rt.config.pointer f).deref p.text)
      config := { p.config with
        wifiAuth := rt.config.wifiAuth
        firmwareVersion := rt.config.firmwareVersion
        uploadIntervalMs := rt.config.uploadIntervalMs
        queueDepth := rt.config.queueDepth
        connectedLedEnabled := rt.config.connectedLedEnabled
        connectedLedGpio := rt.config.connectedLedGpio } }

structure ProvAnswers where
  nvs : EspErr
  nimble : EspErr
  gattCount : Int32
  gattAdd : Int32
  gapName : Int32

def ProvAnswers.granted : ProvAnswers := ⟨.ok, .ok, 0, 0, 0⟩

def setupHost (a : ProvAnswers) : Except Failure Unit := do
  espReturnOnError a.nvs "nvs init failed"
  espReturnOnError a.nimble "nimble init failed"
  espReturnOnFalse (a.gattCount = 0) .fail "gatt count failed"
  espReturnOnFalse (a.gattAdd = 0) .fail "gatt service add failed"
  espReturnOnFalse (a.gapName = 0) .fail "gap device name failed"

def aetusStartProvisioning (a : ProvAnswers) (rt : Runtime CharPtr) (p : Provisioning) :
    Except Failure Unit × Provisioning :=
  if p.started then (.error ⟨.invalidState, "provisioning already started"⟩, p) else
  let p := syncPendingFromRuntime rt .zero
  match setupHost a with
  | .error e => (.error e, p)
  | .ok () => (.ok (), { p with started := true })

def stripNewlines (bytes : List UInt8) : List UInt8 := bytes.rdropWhile fun b => b = 10 || b = 13

def writtenText (payload : List UInt8) : CString := .ofBytes (stripNewlines payload)

/-- `ble_hs_mbuf_to_flat` only fails on a payload longer than the target, which is refused
before. -/
def writeText (payload : List UInt8) (target : CString) (targetSize : Nat) :
    Except AttError Unit × CString :=
  if targetSize = 0 || targetSize ≤ payload.length then (.error .invalidAttrValueLen, target)
  else (.ok (), writtenText payload)

def isSpace (b : UInt8) : Bool := b = 32 || (9 ≤ b && b ≤ 13)
def isDigit (b : UInt8) : Bool := 48 ≤ b && b ≤ 57

structure Strtoul where
  value : UInt32
  outOfRange : Bool
  converted : Bool
  rest : List UInt8

/-- `strtoul` in base 10, with an `unsigned long` of 32 bits. -/
def strtoul (text : List UInt8) : Strtoul :=
  let body := text.dropWhile isSpace
  let negative := body.head? = some 45
  let body := if body.head? = some 45 || body.head? = some 43 then body.drop 1 else body
  let digits := body.takeWhile isDigit
  let magnitude := digits.foldl (fun n b => 10 * n + (b.toNat - 48)) 0
  { value := if 2 ^ 32 ≤ magnitude then 0xFFFFFFFF
      else if negative then 0 - UInt32.ofNat magnitude else UInt32.ofNat magnitude
    outOfRange := 2 ^ 32 ≤ magnitude
    converted := digits ≠ []
    rest := if digits = [] then text else body.drop digits.length }

/-- The number stays 0 when the text is refused. -/
def readU32FromMbuf (payload : List UInt8) : Except AttError Unit × UInt32 :=
  match writeText payload .empty 16 with
  | (.error e, _) => (.error e, 0)
  | (.ok (), buffer) =>
    let parsed := strtoul buffer.bytes
    if parsed.outOfRange || !parsed.converted || parsed.rest ≠ [] then
      (.error .invalidAttrValueLen, 0)
    else (.ok (), parsed.value)

def readBoolFromMbuf (payload : List UInt8) (value : Bool) : Except AttError Unit × Bool :=
  match writeText payload .empty 8 with
  | (.error e, _) => (.error e, value)
  | (.ok (), buffer) =>
    if buffer = .lit "1" || buffer = .lit "true" || buffer = .lit "on" then (.ok (), true)
    else if buffer = .lit "0" || buffer = .lit "false" || buffer = .lit "off" then (.ok (), false)
    else (.error .invalidAttrValueLen, value)

def readAuthFromMbuf (payload : List UInt8) (auth : WifiAuth) : Except AttError Unit × WifiAuth :=
  match writeText payload .empty 8 with
  | (.error e, _) => (.error e, auth)
  | (.ok (), buffer) =>
    if buffer = .lit "psk" || buffer = .lit "0" then (.ok (), .psk)
    else if buffer = .lit "peap" || buffer = .lit "1" then (.ok (), .peap)
    else (.error .invalidAttrValueLen, auth)

def Provisioning.setText (p : Provisioning) (f : TextField) (s : CString) : Provisioning :=
  { p with text := Function.update p.text f s }

def writeTextField (f : TextField) (payload : List UInt8) (p : Provisioning) :
    Except AttError Unit × Provisioning :=
  let r := writeText payload (p.text f) f.size
  (r.1, p.setText f r.2)

/-- `provisioning_write` of every field but `APPLY`. -/
def stageField (field : ProvField) (payload : List UInt8) (p : Provisioning) :
    Except AttError Unit × Provisioning :=
  match field with
  | .wifiSsid => writeTextField .wifiSsid payload p
  | .wifiAuth =>
    let r := readAuthFromMbuf payload p.config.wifiAuth
    (r.1, { p with config.wifiAuth := r.2 })
  | .wifiId => writeTextField .wifiIdentity payload p
  | .wifiPassword => writeTextField .wifiPassword payload p
  | .ingestUrl => writeTextField .ingestUrl payload p
  | .timeUrl => writeTextField .timeUrl payload p
  | .deviceId => writeTextField .deviceId payload p
  | .deviceToken => writeTextField .deviceToken payload p
  | .firmwareVersion =>
    let r := readU32FromMbuf payload
    (r.1, { p with config.firmwareVersion := r.2 })
  | .uploadIntervalMs =>
    let r := readU32FromMbuf payload
    (r.1, { p with config.uploadIntervalMs := r.2 })
  | .queueDepth =>
    let r := readU32FromMbuf payload
    (r.1, { p with config.queueDepth := r.2 })
  | .ledEnabled =>
    let r := readBoolFromMbuf payload p.config.connectedLedEnabled
    (r.1, { p with config.connectedLedEnabled := r.2 })
  | .ledGpio =>
    let r := readU32FromMbuf payload
    (r.1, { p with config.connectedLedGpio := r.2.toInt32 })
  | .apply | .other _ => (.error .writeNotPermitted, p)

structure Device where
  runtime : Runtime CharPtr
  provisioning : Provisioning

def Device.deref (d : Device) : CharPtr → Option CString := CharPtr.deref d.provisioning.text

def Device.view (d : Device) : TextConfig := d.runtime.config.map d.deref

def provisioningWrite (a : UpdateAnswers) (field : ProvField) (payload : List UInt8) (d : Device) :
    Except AttError Unit × Device :=
  match field with
  | .apply =>
    match aetusUpdateConfig d.deref a d.runtime (some d.provisioning.config) with
    | (.error _, rt) => (.error .unlikely, { d with runtime := rt })
    | (.ok (), rt) => (.ok (), { d with runtime := rt })
  | field =>
    let r := stageField field payload d.provisioning
    (r.1, { d with provisioning := r.2 })

end Aetus.Firmware
