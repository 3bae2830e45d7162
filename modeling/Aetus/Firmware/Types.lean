import Aetus.Base.CString

/-!
Constants, error codes and records of `aetus.h` and `aetus_internal.h`, at the
default Kconfig values. `size_t` is 32 bits wide.
-/

set_option autoImplicit false

namespace Aetus.Firmware
open Aetus.Base

def AETUS_MAX_METRICS : Nat := 32
def AETUS_TELEMETRY_INLINE_METRICS : Nat := 4
def AETUS_METRIC_KEY_MAX : Nat := 20
def AETUS_METRIC_UNIT_MAX : Nat := 8
def AETUS_SIGNAL_STREAM_KEY_MAX : Nat := 32
def AETUS_SIGNAL_CHANNELS_MAX : UInt32 := 4
def AETUS_SIGNAL_SAMPLES_MAX : UInt32 := 2400
def AETUS_WIFI_SSID_MAX : Nat := 32
def AETUS_WIFI_PASSWORD_MAX : Nat := 64
def AETUS_WIFI_IDENTITY_MAX : Nat := 127
def AETUS_URL_MAX : Nat := 159
def AETUS_DEVICE_ID_MAX : Nat := 63
def AETUS_DEVICE_TOKEN_MAX : Nat := 127
def AETUS_UPLOAD_DEFAULT_INTERVAL_MS : UInt32 := 10 * 60 * 1000

def heapSlots : Nat := AETUS_MAX_METRICS - AETUS_TELEMETRY_INLINE_METRICS

inductive EspErr where
  | ok | fail | noMem | invalidArg | invalidState | invalidSize | timeout | notSupported
  | driver (code : UInt32)
  deriving DecidableEq, Repr

structure Failure where
  code : EspErr
  message : String
  deriving DecidableEq, Repr

def espReturnOnFalse (condition : Bool) (code : EspErr) (message : String) :
    Except Failure Unit :=
  if condition then .ok () else .error ⟨code, message⟩

/-- `ESP_RETURN_ON_ERROR` around a call whose own result is `err`. -/
def espReturnOnError (err : EspErr) (message : String) : Except Failure Unit :=
  if err = .ok then .ok () else .error ⟨err, message⟩

/-- `ESP_RETURN_ON_ERROR` around a modelled call: its code is kept, its text replaced. -/
def returnOnError {α : Type} (x : Except Failure α) (message : String) : Except Failure α :=
  x.mapError fun e => ⟨e.code, message⟩

/-- The code returned to the caller; the text only goes to the log. -/
def errorCode : Except Failure Unit → EspErr
  | .ok () => .ok
  | .error e => e.code

@[simp] theorem espReturnOnFalse_eq_ok {c : Bool} {code : EspErr} {message : String} :
    espReturnOnFalse c code message = .ok () ↔ c = true := by
  cases c <;> simp [espReturnOnFalse]

@[simp] theorem espReturnOnError_eq_ok {err : EspErr} {message : String} :
    espReturnOnError err message = .ok () ↔ err = .ok := by
  by_cases h : err = .ok <;> simp [espReturnOnError, h]

@[simp] theorem returnOnError_ok {α : Type} (a : α) (message : String) :
    returnOnError (.ok a) message = .ok a := rfl

@[simp] theorem returnOnError_eq_ok {α : Type} {x : Except Failure α} {message : String} {a : α} :
    returnOnError x message = .ok a ↔ x = .ok a := by
  cases x <;> simp [returnOnError, Except.mapError]

theorem bind_eq_ok {x : Except Failure Unit} {f : Unit → Except Failure Unit} :
    (x >>= f) = .ok () ↔ x = .ok () ∧ f () = .ok () := by
  cases x <;> simp [bind, Except.bind]

/-- The text `copy_string` leaves in a target array that held `target`. -/
def copyString (target : CString) (targetSize : Nat) (source : Option CString) : CString :=
  if targetSize = 0 then target
  else match source with
    | none => .empty
    | some s => s.take (targetSize - 1)

theorem copyString_eq_self_iff {target s : CString} {n : Nat} (hn : 0 < n) :
    copyString target n (some s) = s ↔ s.strlen < n := by
  rw [copyString, if_neg (by omega), CString.take_eq_self_iff]
  omega

def stringRequiredFits (value : Option CString) (maxLen : Nat) : Bool :=
  match value with
  | none => false
  | some s => s ≠ .empty && s.strlen ≤ maxLen

theorem stringRequiredFits_iff {value : Option CString} {n : Nat} :
    stringRequiredFits value n = true ↔ ∃ s, value = some s ∧ s ≠ .empty ∧ s.strlen ≤ n := by
  cases value <;> simp [stringRequiredFits]

def stringFits (value : Option CString) (targetSize : Nat) : Bool :=
  match value with
  | none => true
  | some s => if targetSize = 0 then false else s.strlen < targetSize

/-- The value union of a metric, by its type tag; `blobData` is a heap block or `NULL`. -/
inductive MetricValue where
  | int64 (value : Int64)
  | double (bits : UInt64)
  | bool (value : Bool)
  | string (blobData : Option Nat)
  | bytes (blobData : Option Nat)
  deriving DecidableEq

structure Metric where
  key : CString
  unit : CString
  value : MetricValue
  blobSize : UInt32
  deriving DecidableEq

/-- The heap block behind `heap_metrics`, with the array it holds. -/
structure MetricArray where
  block : Nat
  slots : List Metric
  deriving DecidableEq

structure Telemetry where
  timestampNs : UInt64
  metricCount : Nat
  capacity : Nat
  inlineMetrics : List Metric
  heapMetrics : Option MetricArray
  deriving DecidableEq

inductive DeviceStatus where
  | online | degraded | offline
  | other (value : UInt32)
  deriving DecidableEq

structure Status where
  status : DeviceStatus
  rssi : Int32
  freeHeap : UInt32
  rebootReason : CString
  timestampNs : UInt64
  deriving DecidableEq

inductive SignalEncoding where
  | float32Le | int16Le | uint16Le | int32Le
  | other (value : UInt32)
  deriving DecidableEq

inductive SignalLayout where
  | interleaved | planar
  | other (value : UInt32)
  deriving DecidableEq

/-- `scale` and `offset` are the bit patterns of the floats. -/
structure SignalChannel where
  key : CString
  unit : CString
  hasScale : Bool
  scale : UInt32
  hasOffset : Bool
  offset : UInt32
  deriving DecidableEq

/-- `samples` is the borrowed buffer, `none` for `NULL`. -/
structure SignalFrame where
  timestampNs : UInt64
  streamKey : CString
  sampleIntervalNs : UInt64
  sampleCount : UInt32
  encoding : SignalEncoding
  layout : SignalLayout
  channelCount : UInt32
  channels : List SignalChannel
  samples : Option (List UInt8)
  samplesSize : UInt32
  deriving DecidableEq

/-- The block of the sample pool that a queued frame owns. -/
structure SampleBlock where
  size : UInt32
  data : List UInt8
  deriving DecidableEq

inductive QueueItemKind where
  | telemetry | status | signalFrame
  deriving DecidableEq, Repr

inductive QueueBody where
  | telemetry (t : Telemetry)
  | status (s : Status)
  | signalFrame (f : SignalFrame)
  deriving DecidableEq

structure QueueItem where
  signalSampleOwner : Option SampleBlock
  body : QueueBody
  deriving DecidableEq

/-- The tag of the union, which the code stores beside it. -/
def QueueItem.kind (item : QueueItem) : QueueItemKind :=
  match item.body with
  | .telemetry _ => .telemetry
  | .status _ => .status
  | .signalFrame _ => .signalFrame

inductive WifiAuth where
  | psk | peap
  | other (value : UInt32)
  deriving DecidableEq

inductive AuthMode where
  | bearer | hmacSha256
  | other (value : UInt32)
  deriving DecidableEq

/-- `aetus_config_t` over the representation `σ` of its string pointers. -/
structure Config (σ : Type) where
  wifiSsid : σ
  wifiPassword : σ
  wifiAuth : WifiAuth
  wifiIdentity : σ
  ingestUrl : σ
  timeUrl : σ
  deviceId : σ
  deviceToken : σ
  authMode : AuthMode
  firmwareVersion : UInt32
  uploadIntervalMs : UInt32
  queueDepth : UInt32
  connectedLedEnabled : Bool
  connectedLedGpio : Int32
  deriving DecidableEq

def Config.map {σ τ : Type} (f : σ → τ) (c : Config σ) : Config τ where
  wifiSsid := f c.wifiSsid
  wifiPassword := f c.wifiPassword
  wifiAuth := c.wifiAuth
  wifiIdentity := f c.wifiIdentity
  ingestUrl := f c.ingestUrl
  timeUrl := f c.timeUrl
  deviceId := f c.deviceId
  deviceToken := f c.deviceToken
  authMode := c.authMode
  firmwareVersion := c.firmwareVersion
  uploadIntervalMs := c.uploadIntervalMs
  queueDepth := c.queueDepth
  connectedLedEnabled := c.connectedLedEnabled
  connectedLedGpio := c.connectedLedGpio

end Aetus.Firmware
