import Aetus.Base.Ascii
import Aetus.Firmware.Config
import Aetus.Firmware.WifiDriver

/-!
`aetus_start` and `aetus_update_config` on the fields of the context that they set. A
configuration holds pointers of a type `σ`, and `deref` reads the text behind one.
-/

set_option autoImplicit false

namespace Aetus.Firmware
open Aetus.Base

/-- The context, its handles as whether they exist. -/
structure Runtime (σ : Type) where
  config : Config σ
  queue : Bool
  events : Bool
  uploadTimer : Bool
  uploaderTask : Bool
  sequence : UInt64
  bootId : CString
  wifiStarted : Bool

structure StartAnswers where
  random : UInt32
  queue : Bool
  events : Bool
  gpio : EspErr
  timer : Bool
  task : Bool
  timerStart : Bool
  deriving DecidableEq

def StartAnswers.granted (random : UInt32) : StartAnswers :=
  ⟨random, true, true, .ok, true, true, true⟩

structure UpdateAnswers where
  gpio : EspErr
  driver : Driver

def UpdateAnswers.granted : UpdateAnswers := ⟨.ok, fun _ => .ok⟩

def bootIdText (random : UInt32) : CString :=
  .ofBytes (utf8 ("boot-".toList ++ hexText [(random >>> 24).toUInt8, (random >>> 16).toUInt8,
    (random >>> 8).toUInt8, random.toUInt8]))

section Calls

variable {σ : Type} (deref : σ → Option CString)

def configureConnectedLed (c : Config σ) (gpio : EspErr) : Except Failure Unit :=
  if c.connectedLedEnabled then espReturnOnError gpio "connected led gpio config failed" else .ok ()

/-- The context after the `memset` and the assignments that follow it. -/
def resetRuntime (random : UInt32) (c : Config σ) : Runtime σ where
  config := startDefaults c
  queue := false
  events := false
  uploadTimer := false
  uploaderTask := false
  sequence := 0
  bootId := bootIdText random
  wifiStarted := false

/-- Each refused resource ends the call and leaves those before it in place. -/
def createResources (a : StartAnswers) (rt : Runtime σ) : Except Failure Unit × Runtime σ :=
  if !a.queue then (.error ⟨.noMem, "queue allocation failed"⟩, rt) else
  let rt := { rt with queue := true }
  if !a.events then (.error ⟨.noMem, "event group allocation failed"⟩, rt) else
  let rt := { rt with events := true }
  match configureConnectedLed rt.config a.gpio with
  | .error e => (.error ⟨e.code, "connected led setup failed"⟩, rt)
  | .ok () =>
    if !a.timer then (.error ⟨.noMem, "timer allocation failed"⟩, rt) else
    let rt := { rt with uploadTimer := true }
    if !a.task then (.error ⟨.noMem, "task allocation failed"⟩, rt) else
    let rt := { rt with uploaderTask := true }
    (espReturnOnFalse a.timerStart .fail "timer start failed", rt)

def aetusStart (a : StartAnswers) (rt : Runtime σ) (config : Option (Config σ)) :
    Except Failure Unit × Runtime σ :=
  match config with
  | none => (.error ⟨.invalidArg, "config is required"⟩, rt)
  | some c =>
    match checkStart rt.queue (c.map deref) with
    | .error e => (.error e, rt)
    | .ok () => createResources a (resetRuntime a.random c)

/-- What follows the assignment of the new configuration: the LED, and a reconnect. -/
def applyConfig (a : UpdateAnswers) (rt : Runtime σ) : Except Failure Unit := do
  returnOnError (configureConnectedLed rt.config a.gpio) "connected led setup failed"
  if rt.wifiStarted then
    returnOnError (wifiApplyStaConfig a.driver (rt.config.map deref).text).2
      "wifi config update failed"
    espReturnOnError (a.driver .connect) "wifi reconnect after config update failed"

def aetusUpdateConfig (a : UpdateAnswers) (rt : Runtime σ) (config : Option (Config σ)) :
    Except Failure Unit × Runtime σ :=
  if !rt.queue then (.error ⟨.invalidState, "aetus not started"⟩, rt) else
  match config with
  | none => (.error ⟨.invalidArg, "config is required"⟩, rt)
  | some c =>
    let next := updateDefaults rt.config c
    match checkUpdate (next.map deref) with
    | .error e => (.error e, rt)
    | .ok () =>
      let rt := { rt with config := next }
      (applyConfig deref a rt, rt)

def StartAnswers.Grants (a : StartAnswers) (led : Bool) : Prop :=
  a.queue ∧ a.events ∧ (led → a.gpio = .ok) ∧ a.timer ∧ a.task ∧ a.timerStart

instance (a : StartAnswers) (led : Bool) : Decidable (a.Grants led) := by
  unfold StartAnswers.Grants; infer_instance

theorem configureConnectedLed_eq_ok {c : Config σ} {gpio : EspErr} :
    configureConnectedLed c gpio = .ok () ↔ (c.connectedLedEnabled = true → gpio = .ok) := by
  unfold configureConnectedLed
  by_cases hled : c.connectedLedEnabled = true <;> simp [hled]

theorem createResources_config (a : StartAnswers) (rt : Runtime σ) :
    (createResources a rt).2.config = rt.config := by
  unfold createResources
  by_cases hqueue : a.queue = true
  · by_cases hevents : a.events = true
    · cases hled : configureConnectedLed rt.config a.gpio <;> by_cases htimer : a.timer = true <;>
        by_cases htask : a.task = true <;> simp [hqueue, hevents, hled, htimer, htask]
    · simp [hqueue, hevents]
  · simp [hqueue]

theorem createResources_queue {a : StartAnswers} {rt : Runtime σ}
    (h : (createResources a rt).1 = .ok ()) : (createResources a rt).2.queue = true := by
  unfold createResources at h ⊢
  by_cases hqueue : a.queue = true
  · by_cases hevents : a.events = true
    · cases hled : configureConnectedLed rt.config a.gpio <;> by_cases htimer : a.timer = true <;>
        by_cases htask : a.task = true <;> simp_all
    · simp_all
  · simp_all

theorem createResources_eq_ok {a : StartAnswers} {rt : Runtime σ} :
    (createResources a rt).1 = .ok () ↔ a.Grants rt.config.connectedLedEnabled := by
  rw [StartAnswers.Grants, ← configureConnectedLed_eq_ok]
  unfold createResources
  by_cases hqueue : a.queue = true
  · by_cases hevents : a.events = true
    · simp only [hqueue, hevents, Bool.not_true, Bool.false_eq_true, if_false, true_and]
      cases hled : configureConnectedLed rt.config a.gpio with
      | error e => simp
      | ok u => by_cases htimer : a.timer = true <;> by_cases htask : a.task = true <;>
          simp [htimer, htask]
    · simp [hqueue, hevents]
  · simp [hqueue]

theorem aetusStart_cases (a : StartAnswers) (rt : Runtime σ) (config : Option (Config σ)) :
    (∃ e, aetusStart deref a rt config = (.error e, rt) ∧
      (rt.queue = false → ∀ c, config = some c → ¬ ValidConfig (c.map deref))) ∨
      ∃ c, config = some c ∧ rt.queue = false ∧ ValidConfig (c.map deref) ∧
        aetusStart deref a rt config = createResources a (resetRuntime a.random c) := by
  unfold aetusStart
  cases config with
  | none => exact .inl ⟨_, rfl, by simp⟩
  | some c =>
    cases hcheck : checkStart rt.queue (c.map deref) with
    | error e =>
      refine .inl ⟨e, by simp [hcheck], fun hqueue c' hc' hvalid => ?_⟩
      cases hc'
      simp [checkStart_eq_ok.mpr ⟨hvalid, hqueue⟩] at hcheck
    | ok u =>
      obtain ⟨hvalid, hqueue⟩ := checkStart_eq_ok.mp hcheck
      exact .inr ⟨c, rfl, hqueue, hvalid, by simp [hcheck]⟩

theorem aetusStart_valid (a : StartAnswers) {rt : Runtime σ} {c : Config σ}
    (hqueue : rt.queue = false) (hvalid : ValidConfig (c.map deref)) :
    aetusStart deref a rt (some c) = createResources a (resetRuntime a.random c) := by
  simp [aetusStart, checkStart_eq_ok.mpr ⟨hvalid, hqueue⟩]

def UpdateAnswers.Accept (a : UpdateAnswers) (wifiStarted : Bool) (c : TextConfig) : Prop :=
  (c.connectedLedEnabled = true → a.gpio = .ok) ∧
    (wifiStarted = true → ∀ call ∈ .connect :: checkedCalls c.text, a.driver call = .ok)

theorem applyConfig_eq_ok {a : UpdateAnswers} {rt : Runtime σ} :
    applyConfig deref a rt = .ok () ↔ a.Accept rt.wifiStarted (rt.config.map deref) := by
  unfold applyConfig UpdateAnswers.Accept
  by_cases hwifi : rt.wifiStarted = true
  · simp [hwifi, bind_eq_ok, configureConnectedLed_eq_ok, wifiApplyStaConfig_eq_ok, Config.map]
    tauto
  · simp [hwifi, configureConnectedLed_eq_ok, Config.map]

theorem aetusUpdateConfig_cases (a : UpdateAnswers) (rt : Runtime σ) (config : Option (Config σ)) :
    (∃ e, aetusUpdateConfig deref a rt config = (.error e, rt) ∧
      (rt.queue = true → ∀ c, config = some c →
        ¬ ValidConfig ((updateDefaults rt.config c).map deref))) ∨
      ∃ c, config = some c ∧ rt.queue = true ∧
        ValidConfig ((updateDefaults rt.config c).map deref) ∧
        aetusUpdateConfig deref a rt config =
          (applyConfig deref a { rt with config := updateDefaults rt.config c },
            { rt with config := updateDefaults rt.config c }) := by
  unfold aetusUpdateConfig
  by_cases hqueue : rt.queue = true
  · cases config with
    | none => exact .inl ⟨⟨.invalidArg, "config is required"⟩, by simp [hqueue], by simp⟩
    | some c =>
      cases hcheck : checkUpdate ((updateDefaults rt.config c).map deref) with
      | error e =>
        refine .inl ⟨e, by simp [hqueue, hcheck], fun _ c' hc' hvalid => ?_⟩
        cases hc'
        simp [checkUpdate_eq_ok.mpr hvalid] at hcheck
      | ok u => exact .inr ⟨c, rfl, hqueue, checkUpdate_eq_ok.mp hcheck, by simp [hqueue, hcheck]⟩
  · exact .inl ⟨⟨.invalidState, "aetus not started"⟩, by simp [hqueue], fun h => absurd h hqueue⟩

end Calls

theorem validConfig_startDefaults {c : TextConfig} :
    ValidConfig (startDefaults c) ↔ ValidConfig c := by
  simp only [validConfig_iff, startDefaults]

theorem validConfig_updateDefaults {running c : TextConfig} :
    ValidConfig (updateDefaults running c) ↔ ValidConfig c := by
  simp only [validConfig_iff, updateDefaults]

def Accepted (c : TextConfig) (rt : Runtime (Option CString)) : Prop :=
  (∃ answers before, aetusStart id answers before (some c) = (.ok (), rt)) ∨
    ∃ answers before, aetusUpdateConfig id answers before (some c) = (.ok (), rt)

def startedRuntime {σ : Type} (random : UInt32) (c : Config σ) : Runtime σ :=
  { resetRuntime random c with
    queue := true, events := true, uploadTimer := true, uploaderTask := true }

theorem createResources_granted {σ : Type} (random : UInt32) (c : Config σ) :
    createResources (.granted random) (resetRuntime random c) =
      (.ok (), startedRuntime random c) := by
  cases hled : c.connectedLedEnabled <;>
    simp [createResources, StartAnswers.granted, configureConnectedLed, resetRuntime, startDefaults,
      startedRuntime, espReturnOnFalse, espReturnOnError, hled]

theorem ValidConfig.accepted {c : TextConfig} (hc : ValidConfig c) (random : UInt32) :
    Accepted c (startedRuntime random c) := by
  refine .inl ⟨.granted random, resetRuntime random c, ?_⟩
  rw [aetusStart_valid id (.granted random) rfl hc]
  exact createResources_granted random c

/-- An accepted configuration is valid, and in use but for the two numbers with a default. -/
theorem Accepted.running {c : TextConfig} {rt : Runtime (Option CString)} (h : Accepted c rt) :
    ValidConfig c ∧ ∃ interval depth,
      rt.config = { c with uploadIntervalMs := interval, queueDepth := depth } := by
  rcases h with ⟨answers, before, h⟩ | ⟨answers, before, h⟩
  · obtain ⟨e, herror, _⟩ | ⟨_, hc, _, hvalid, hstart⟩ := aetusStart_cases id answers before (some c)
    · simp [herror] at h
    · cases hc
      rw [hstart] at h
      have hconfig := createResources_config answers (resetRuntime answers.random c)
      rw [h] at hconfig
      exact ⟨hvalid, _, _, hconfig⟩
  · obtain ⟨e, herror, _⟩ | ⟨_, hc, _, hvalid, hupdate⟩ :=
      aetusUpdateConfig_cases id answers before (some c)
    · simp [herror] at h
    · cases hc
      rw [hupdate] at h
      obtain ⟨-, rfl⟩ := Prod.mk.inj h
      exact ⟨validConfig_updateDefaults.mp hvalid, _, _, rfl⟩

def Runtime.text (rt : Runtime (Option CString)) : Runtime CString :=
  { rt with config := rt.config.text }

end Aetus.Firmware
