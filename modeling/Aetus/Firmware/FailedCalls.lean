import Aetus.Firmware.Runtime
import Aetus.Firmware.Uploader

/-!
What `aetus_start` and `aetus_update_config` leave behind when they return an error, and how
the other calls find it.
-/

set_option autoImplicit false

namespace Aetus.Firmware
open Aetus.Base

variable {σ : Type}

/-! A start that fails -/

def notStarted : Failure := ⟨.invalidState, "aetus not started"⟩

/-- The two checks with which a call on the started module begins. -/
def checkStarted {α : Type} (rt : Runtime σ) (arg : Option α) (message : String) :
    Except Failure α :=
  match arg with
  | none => .error ⟨.invalidArg, message⟩
  | some a => if rt.queue then .ok a else .error notStarted

def aetusEnqueueTelemetry (rt : Runtime σ) (telemetry : Option Telemetry) (s : State) :
    Except Failure Unit × State :=
  match checkStarted rt telemetry "telemetry is required" with
  | .error e => (.error e, s)
  | .ok t => enqueueTelemetry (some t) s

def aetusEnqueueSignalFrame (rt : Runtime σ) (P : Params) (frame : Option SignalFrame)
    (granted : Bool) (s : State) : Except Failure Unit × State :=
  match checkStarted rt frame "signal frame is required" with
  | .error e => (.error e, s)
  | .ok f => enqueueSignalFrame P (some f) granted s

def aetusEnqueueStatus (rt : Runtime σ) (status : Option Status) (s : State) :
    Except Failure Unit × State :=
  match checkStarted rt status "status is required" with
  | .error e => (.error e, s)
  | .ok st => enqueueStatus (some st) s

/-- `config` is the structure that the caller wants filled. -/
def aetusGetConfig (rt : Runtime σ) (config : Option (Config σ)) : Except Failure (Config σ) :=
  match checkStarted rt config "config output is required" with
  | .error e => .error e
  | .ok _ => .ok rt.config

def aetusFlush (rt : Runtime σ) (s : State) : Except Failure Unit × State :=
  if rt.events then (.ok (), (stepFlush s .beginFlush).getD s) else (.error notStarted, s)

section Start

variable (deref : σ → Option CString)

structure NotStarted (rt : Runtime σ) : Prop where
  enqueueTelemetry : ∀ t s, aetusEnqueueTelemetry rt (some t) s = (.error notStarted, s)
  enqueueSignalFrame : ∀ P f granted s,
    aetusEnqueueSignalFrame rt P (some f) granted s = (.error notStarted, s)
  enqueueStatus : ∀ st s, aetusEnqueueStatus rt (some st) s = (.error notStarted, s)
  flush : ∀ s, aetusFlush rt s = (.error notStarted, s)
  getConfig : ∀ c, aetusGetConfig rt (some c) = .error notStarted
  updateConfig : ∀ a c, aetusUpdateConfig deref a rt c = (.error notStarted, rt)
  noTask : rt.uploaderTask = false
  restart : ∀ a c, ValidConfig (c.map deref) → a.Grants c.connectedLedEnabled →
    (aetusStart deref a rt (some c)).1 = .ok ()

theorem notStarted_iff {rt : Runtime σ} :
    NotStarted deref rt ↔ rt.queue = false ∧ rt.events = false ∧ rt.uploaderTask = false := by
  constructor
  · intro h
    have hstatus := h.enqueueStatus onlineStatus oneSlotStart
    have hflush := h.flush oneSlotStart
    refine ⟨?_, ?_, h.noTask⟩
    · cases hqueue : rt.queue with
      | false => rfl
      | true => simp [aetusEnqueueStatus, checkStarted, hqueue, enqueueStatus] at hstatus
    · cases hevents : rt.events with
      | false => rfl
      | true => simp [aetusFlush, hevents] at hflush
  · rintro ⟨hqueue, hevents, htask⟩
    have hcheck {α : Type} (a : α) (message : String) :
        checkStarted rt (some a) message = .error notStarted := by simp [checkStarted, hqueue]
    refine ⟨fun t s => ?_, fun P f granted s => ?_, fun st s => ?_, fun s => ?_, fun c => ?_,
      fun a c => ?_, htask, fun a c hvalid hgrants => ?_⟩
    · rw [aetusEnqueueTelemetry, hcheck]
    · rw [aetusEnqueueSignalFrame, hcheck]
    · rw [aetusEnqueueStatus, hcheck]
    · simp [aetusFlush, hevents]
    · rw [aetusGetConfig, hcheck]
    · simp [aetusUpdateConfig, hqueue, notStarted]
    · rw [aetusStart_valid deref a hqueue hvalid]
      exact createResources_eq_ok.mpr hgrants

/-- A queue that is refused is the first resource; any later one finds the queue in place. -/
theorem createResources_handles (a : StartAnswers) (rt : Runtime σ) :
    (a.queue = false → (createResources a rt).2 = rt) ∧
      (a.queue = true → (createResources a rt).2.queue = true) := by
  refine ⟨fun hqueue => by simp [createResources, hqueue], fun hqueue => ?_⟩
  unfold createResources
  by_cases hevents : a.events = true
  · cases hled : configureConnectedLed rt.config a.gpio <;> by_cases htimer : a.timer = true <;>
      by_cases htask : a.task = true <;> simp [hqueue, hevents, hled, htimer, htask]
  · simp [hqueue, hevents]

def FailsClean (a : StartAnswers) (rt : Runtime σ) (c : Config σ) : Prop :=
  ∀ e, (aetusStart deref a rt (some c)).1 = .error e →
    NotStarted deref (aetusStart deref a rt (some c)).2

theorem failsClean_iff (a : StartAnswers) (rt : Runtime σ) (c : Config σ)
    (hvalid : ValidConfig (c.map deref)) :
    FailsClean deref a rt c ↔
      rt.queue = false ∧ (a.queue = false ∨ a.Grants c.connectedLedEnabled) := by
  unfold FailsClean
  cases hstarted : rt.queue with
  | true =>
    have hcheck : ∃ e, checkStart true (c.map deref) = .error e := by
      cases hc : checkStart true (c.map deref) with
      | error e => exact ⟨e, rfl⟩
      | ok u => exact absurd (checkStart_eq_ok.mp hc).2 (by decide)
    obtain ⟨e, he⟩ := hcheck
    have hstart : aetusStart deref a rt (some c) = (.error e, rt) := by
      simp [aetusStart, hstarted, he]
    simp only [hstart, notStarted_iff, hstarted]
    simp
  | false =>
    rw [aetusStart_valid deref a hstarted hvalid]
    have hhandles := createResources_handles a (resetRuntime a.random c)
    cases hqueue : a.queue with
    | false =>
      simp only [hhandles.1 hqueue, notStarted_iff]
      simp [resetRuntime]
    | true =>
      have hok : (createResources a (resetRuntime a.random c)).1 = .ok () ↔
          a.Grants c.connectedLedEnabled := createResources_eq_ok
      simp only [notStarted_iff, hhandles.2 hqueue, Bool.true_eq_false, false_and, true_and, ← hok]
      cases (createResources a (resetRuntime a.random c)).1 <;> simp

end Start

def idleRuntime : Runtime (Option CString) := resetRuntime 0 (labConfig .bearer)

theorem queueRefused_failsClean :
    FailsClean id { StartAnswers.granted 0 with queue := false } idleRuntime (labConfig .bearer) :=
  (failsClean_iff id _ _ _ (by decide)).mpr ⟨rfl, .inl rfl⟩

/-- Without a timer the queue stays, so that the module counts as started. -/
theorem timerRefused_not_failsClean :
    ¬ FailsClean id { StartAnswers.granted 0 with timer := false } idleRuntime
      (labConfig .bearer) := by
  intro h
  have hstart : (aetusStart id { StartAnswers.granted 0 with timer := false } idleRuntime
      (some (labConfig .bearer))).1 = .error ⟨.noMem, "timer allocation failed"⟩ := by rfl
  have hqueue := ((notStarted_iff id).mp (h _ hstart)).1
  exact absurd hqueue (by decide)

/-! An update that fails -/

structure TimedRuntime (σ : Type) extends Runtime σ where
  timerPeriod : UInt32

section Update

variable (deref : σ → Option CString) (pdMsToTicks : UInt32 → UInt32)

/-- `xTimerChangePeriod`, by its answer; nobody looks at it. -/
def changeTimerPeriod (answer : Bool) (rt : TimedRuntime σ) : TimedRuntime σ :=
  if rt.uploadTimer && answer then
    { rt with timerPeriod := pdMsToTicks rt.config.uploadIntervalMs }
  else rt

def updateConfigTimed (a : UpdateAnswers) (timerAnswer : Bool) (rt : TimedRuntime σ)
    (config : Option (Config σ)) : Except Failure Unit × TimedRuntime σ :=
  if !rt.queue then (.error notStarted, rt) else
  match config with
  | none => (.error ⟨.invalidArg, "config is required"⟩, rt)
  | some c =>
    let next := updateDefaults rt.config c
    match checkUpdate (next.map deref) with
    | .error e => (.error e, rt)
    | .ok () =>
      let rt := { rt with config := next }
      -- the period is changed between the LED and the reconnect
      match configureConnectedLed rt.config a.gpio with
      | .error _ => (applyConfig deref a rt.toRuntime, rt)
      | .ok () => (applyConfig deref a rt.toRuntime, changeTimerPeriod pdMsToTicks timerAnswer rt)

def UpdateKeeps (a : UpdateAnswers) (timerAnswer : Bool) (rt : TimedRuntime σ)
    (config : Option (Config σ)) : Prop :=
  ∀ e, (updateConfigTimed deref pdMsToTicks a timerAnswer rt config).1 = .error e →
    (updateConfigTimed deref pdMsToTicks a timerAnswer rt config).2.config = rt.config ∧
    (updateConfigTimed deref pdMsToTicks a timerAnswer rt config).2.timerPeriod = rt.timerPeriod

def PeriodSet (a : UpdateAnswers) (timerAnswer : Bool) (rt : TimedRuntime σ) (c : Config σ) : Prop :=
  (c.connectedLedEnabled = true → a.gpio = .ok) ∧ rt.uploadTimer = true ∧ timerAnswer = true

instance (a : UpdateAnswers) (timerAnswer : Bool) (rt : TimedRuntime σ) (c : Config σ) :
    Decidable (PeriodSet a timerAnswer rt c) := by
  unfold PeriodSet; infer_instance

theorem updateConfigTimed_valid (a : UpdateAnswers) (timerAnswer : Bool) {rt : TimedRuntime σ}
    {c : Config σ} (hqueue : rt.queue = true)
    (hvalid : ValidConfig ((updateDefaults rt.config c).map deref)) :
    ((updateConfigTimed deref pdMsToTicks a timerAnswer rt (some c)).1 = .ok () ↔
        a.Accept rt.wifiStarted ((updateDefaults rt.config c).map deref)) ∧
      (updateConfigTimed deref pdMsToTicks a timerAnswer rt (some c)).2.config =
        updateDefaults rt.config c ∧
      (updateConfigTimed deref pdMsToTicks a timerAnswer rt (some c)).2.timerPeriod =
        if PeriodSet a timerAnswer rt c then
          pdMsToTicks (updateDefaults rt.config c).uploadIntervalMs
        else rt.timerPeriod := by
  have hcheck := checkUpdate_eq_ok.mpr hvalid
  have happly : applyConfig deref a { rt.toRuntime with config := updateDefaults rt.config c } =
      .ok () ↔ a.Accept rt.wifiStarted ((updateDefaults rt.config c).map deref) :=
    applyConfig_eq_ok deref
  have hled : configureConnectedLed (updateDefaults rt.config c) a.gpio = .ok () ↔
      (c.connectedLedEnabled = true → a.gpio = .ok) := configureConnectedLed_eq_ok
  have hset : PeriodSet a timerAnswer rt c ↔
      configureConnectedLed (updateDefaults rt.config c) a.gpio = .ok () ∧
        (rt.uploadTimer && timerAnswer) = true := by
    rw [hled, Bool.and_eq_true, PeriodSet]
  rw [← happly]
  unfold updateConfigTimed
  cases hgpio : configureConnectedLed (updateDefaults rt.config c) a.gpio with
  | error e => simp [hqueue, hcheck, hgpio, hset]
  | ok u => by_cases htimer : (rt.uploadTimer && timerAnswer) = true <;>
      simp [hqueue, hcheck, hgpio, changeTimerPeriod, htimer, hset]

def UpdateHarmless (a : UpdateAnswers) (timerAnswer : Bool) (rt : TimedRuntime σ)
    (c : Config σ) : Prop :=
  let next := updateDefaults rt.config c
  rt.queue = true → ValidConfig (next.map deref) →
    a.Accept rt.wifiStarted (next.map deref) ∨
    (next = rt.config ∧
      (PeriodSet a timerAnswer rt c → pdMsToTicks next.uploadIntervalMs = rt.timerPeriod))

theorem updateKeeps_iff (a : UpdateAnswers) (timerAnswer : Bool) (rt : TimedRuntime σ)
    (config : Option (Config σ)) :
    UpdateKeeps deref pdMsToTicks a timerAnswer rt config ↔
      ∀ c ∈ config, UpdateHarmless deref pdMsToTicks a timerAnswer rt c := by
  cases config with
  | none =>
    refine iff_of_true (fun e _ => ?_) nofun
    cases hqueue : rt.queue <;> simp [updateConfigTimed, hqueue]
  | some c =>
    simp only [Option.mem_some_iff, forall_eq', UpdateHarmless]
    by_cases hpasses : rt.queue = true ∧ ValidConfig ((updateDefaults rt.config c).map deref)
    · obtain ⟨hqueue, hvalid⟩ := hpasses
      obtain ⟨hok, hconfig, hperiod⟩ :=
        updateConfigTimed_valid deref pdMsToTicks a timerAnswer hqueue hvalid
      rw [UpdateKeeps, hconfig, hperiod, ← hok]
      cases hresult : (updateConfigTimed deref pdMsToTicks a timerAnswer rt (some c)).1 with
      | ok u => simp
      | error e =>
        simp only [Except.error.injEq, forall_eq', hqueue, hvalid, reduceCtorEq, false_or,
          forall_const, and_congr_right_iff]
        intro _
        split
        · next hchanged => simp [hchanged]
        · next hchanged => simp [hchanged]
    · refine iff_of_true (fun e _ => ?_) fun hqueue hvalid => absurd ⟨hqueue, hvalid⟩ hpasses
      cases hqueue : rt.queue with
      | false => simp [updateConfigTimed, hqueue]
      | true =>
        cases hcheck : checkUpdate ((updateDefaults rt.config c).map deref) with
        | error e => simp [updateConfigTimed, hqueue, hcheck]
        | ok u => exact absurd ⟨hqueue, checkUpdate_eq_ok.mp hcheck⟩ hpasses

end Update

def uploadingRuntime : TimedRuntime (Option CString) where
  toRuntime := { startedRuntime 0 (labConfig .bearer) with wifiStarted := true }
  timerPeriod := 60000

def refusesConnect : UpdateAnswers := ⟨.ok, fun call => if call = .connect then .fail else .ok⟩

/-- The network is gone, but nothing has changed. -/
theorem sameConfig_keeps : UpdateKeeps id (· / 10) refusesConnect true uploadingRuntime
    (some (labConfig .bearer)) :=
  (updateKeeps_iff id (· / 10) refusesConnect true uploadingRuntime (some (labConfig .bearer))).mpr
    (by
      rintro c ⟨⟩ - -
      exact .inr ⟨by decide, fun _ => by decide⟩)

/-- A new interval stays although the call reports the failed reconnect. -/
theorem newInterval_not_keeps : ¬ UpdateKeeps id (· / 10) refusesConnect true uploadingRuntime
    (some { labConfig .bearer with uploadIntervalMs := 1000 }) := by
  intro h
  have herror : (updateConfigTimed id (· / 10) refusesConnect true uploadingRuntime
      (some { labConfig .bearer with uploadIntervalMs := 1000 })).1 =
      .error ⟨.fail, "wifi reconnect after config update failed"⟩ := by rfl
  exact absurd (h _ herror).2 (by decide)

end Aetus.Firmware
