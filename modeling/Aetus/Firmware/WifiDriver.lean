import Mathlib.Tactic.Tauto
import Aetus.Firmware.Types

/-!
`wifi_apply_sta_config` as the calls it makes into the Wi-Fi driver. The driver is a
function that answers each call; `ssid` and `password` are arrays of 32 and 64 bytes.
-/

set_option autoImplicit false

namespace Aetus.Firmware
open Aetus.Base

inductive StaAuthMode where
  | openAuth | wpa2Psk | wpa2Enterprise
  deriving DecidableEq

structure StaConfig where
  ssid : CString
  password : CString
  thresholdAuthmode : StaAuthMode
  saePweBoth : Bool
  deriving DecidableEq

inductive DriverCall where
  | enterpriseDisable
  | setConfig (sta : StaConfig)
  | setIdentity (identity : CString)
  | setUsername (username : CString)
  | setPassword (password : CString)
  | setEapMethodsPeap
  | enterpriseEnable
  | connect
  deriving DecidableEq

abbrev Driver := DriverCall → EspErr

def SSID_SIZE : Nat := 32
def PASSWORD_SIZE : Nat := 64

def makeCalls (driver : Driver) : List (DriverCall × String) → List DriverCall × Except Failure Unit
  | [] => ([], .ok ())
  | (call, message) :: rest =>
    match espReturnOnError (driver call) message with
    | .error e => ([call], .error e)
    | .ok () => (call :: (makeCalls driver rest).1, (makeCalls driver rest).2)

def peapCalls (c : Config CString) : List (DriverCall × String) :=
  [(.setIdentity c.wifiIdentity, "wifi peap identity failed"),
   (.setUsername c.wifiIdentity, "wifi peap username failed"),
   (.setPassword c.wifiPassword, "wifi peap password failed"),
   (.setEapMethodsPeap, "wifi peap method failed"),
   (.enterpriseEnable, "wifi peap enable failed")]

def wifiConfigurePeap (driver : Driver) (c : Config CString) :
    List DriverCall × Except Failure Unit := makeCalls driver (peapCalls c)

def staConfig (c : Config CString) : StaConfig where
  ssid := copyString .empty SSID_SIZE (some c.wifiSsid)
  password := if c.wifiAuth = .psk then copyString .empty PASSWORD_SIZE (some c.wifiPassword)
    else .empty
  thresholdAuthmode := match c.wifiAuth with
    | .psk => .wpa2Psk
    | .peap => .wpa2Enterprise
    | .other _ => .openAuth
  saePweBoth := c.wifiAuth = .psk

def wifiApplyStaConfig (driver : Driver) (c : Config CString) :
    List DriverCall × Except Failure Unit :=
  let disable := if c.wifiAuth = .psk then [.enterpriseDisable] else []
  match makeCalls driver [(.setConfig (staConfig c), "wifi config failed")] with
  | (calls, .error e) => (disable ++ calls, .error e)
  | (calls, .ok ()) =>
    if c.wifiAuth = .peap then
      let peap := wifiConfigurePeap driver c
      (disable ++ calls ++ peap.1, returnOnError peap.2 "wifi peap config failed")
    else (disable ++ calls, .ok ())

theorem makeCalls_subset (driver : Driver) (steps : List (DriverCall × String)) :
    ∀ call ∈ (makeCalls driver steps).1, call ∈ steps.map Prod.fst := by
  induction steps with
  | nil => simp [makeCalls]
  | cons step rest ih =>
    obtain ⟨first, message⟩ := step
    intro call hcall
    unfold makeCalls at hcall
    split at hcall
    · simp_all
    · rcases List.mem_cons.mp hcall with rfl | hrest
      · simp
      · exact List.mem_cons_of_mem _ (ih call hrest)

theorem makeCalls_eq_ok {driver : Driver} {steps : List (DriverCall × String)} :
    (makeCalls driver steps).2 = .ok () ↔ ∀ call ∈ steps.map Prod.fst, driver call = .ok := by
  induction steps with
  | nil => simp [makeCalls]
  | cons step rest ih =>
    obtain ⟨first, message⟩ := step
    by_cases hfirst : driver first = .ok
    · simp [makeCalls, espReturnOnError, hfirst, ih]
    · simp [makeCalls, espReturnOnError, hfirst]

def checkedCalls (c : Config CString) : List DriverCall :=
  .setConfig (staConfig c) :: if c.wifiAuth = .peap then (peapCalls c).map Prod.fst else []

theorem wifiApplyStaConfig_eq_ok {driver : Driver} {c : Config CString} :
    (wifiApplyStaConfig driver c).2 = .ok () ↔ ∀ call ∈ checkedCalls c, driver call = .ok := by
  by_cases hset : driver (.setConfig (staConfig c)) = .ok
  · by_cases hauth : c.wifiAuth = .peap
    · simp [wifiApplyStaConfig, checkedCalls, makeCalls, espReturnOnError, hset, hauth,
        wifiConfigurePeap, makeCalls_eq_ok]
    · simp [wifiApplyStaConfig, checkedCalls, makeCalls, espReturnOnError, hset, hauth]
  · simp [wifiApplyStaConfig, checkedCalls, makeCalls, espReturnOnError, hset]

theorem wifiApplyStaConfig_subset (driver : Driver) (c : Config CString) :
    ∀ call ∈ (wifiApplyStaConfig driver c).1, call = .enterpriseDisable ∨ call ∈ checkedCalls c := by
  intro call hcall
  have hpeap := makeCalls_subset driver (peapCalls c) call
  by_cases hset : driver (.setConfig (staConfig c)) = .ok
  · by_cases hauth : c.wifiAuth = .peap
    · simp [wifiApplyStaConfig, makeCalls, espReturnOnError, hset, hauth, wifiConfigurePeap] at hcall
      simp only [checkedCalls, hauth, if_true, List.mem_cons]
      tauto
    · simp [wifiApplyStaConfig, makeCalls, espReturnOnError, hset, hauth] at hcall
      simp only [checkedCalls, List.mem_cons]
      tauto
  · simp [wifiApplyStaConfig, makeCalls, espReturnOnError, hset] at hcall
    simp only [checkedCalls, List.mem_cons]
    tauto

end Aetus.Firmware
