import Aetus.Base.Runs
import Aetus.Firmware.Provisioning

/-!
The calls and characteristic writes that reach the running configuration, as one
transition system, and which of them may change what the uploader reads.
-/

set_option autoImplicit false

namespace Aetus.Firmware
open Aetus.Base

inductive DeviceAction where
  | start (a : StartAnswers) (config : Option (Config CharPtr))
  | updateConfig (a : UpdateAnswers) (config : Option (Config CharPtr))
  | startProvisioning (a : ProvAnswers)
  | write (a : UpdateAnswers) (field : ProvField) (payload : List UInt8)
  | wifiStart

inductive CallKind where
  | start | updateConfig | apply | startProvisioning | write | wifiStart
  deriving DecidableEq

def DeviceAction.kind : DeviceAction → CallKind
  | .start _ _ => .start
  | .updateConfig _ _ => .updateConfig
  | .startProvisioning _ => .startProvisioning
  | .write _ .apply _ => .apply
  | .write _ _ _ => .write
  | .wifiStart => .wifiStart

def isOk {ε α : Type} : Except ε α → Bool
  | .ok _ => true
  | .error _ => false

def Device.perform (d : Device) : DeviceAction → Bool × Device
  | .start a config =>
    let r := aetusStart d.deref a d.runtime config
    (isOk r.1, { d with runtime := r.2 })
  | .updateConfig a config =>
    let r := aetusUpdateConfig d.deref a d.runtime config
    (isOk r.1, { d with runtime := r.2 })
  | .startProvisioning a =>
    let r := aetusStartProvisioning a d.runtime d.provisioning
    (isOk r.1, { d with provisioning := r.2 })
  | .write a field payload =>
    let r := provisioningWrite a field payload d
    (isOk r.1, r.2)
  | .wifiStart => (true, { d with runtime.wifiStarted := true })

def Config.pointers {σ : Type} (c : Config σ) : List σ :=
  [c.wifiSsid, c.wifiPassword, c.wifiIdentity, c.ingestUrl, c.timeUrl, c.deviceId, c.deviceToken]

def CharPtr.isStaged : CharPtr → Bool
  | .staged _ => true
  | _ => false

/-- Nobody outside holds a pointer into `s_prov` before provisioning runs, and the BLE
host delivers no write before. -/
def Device.enabled (d : Device) : DeviceAction → Prop
  | .start _ config | .updateConfig _ config =>
    ∀ c ∈ config, ∀ p ∈ c.pointers, p.isStaged = true → d.provisioning.started = true
  | .startProvisioning _ => True
  | .write _ _ _ => d.provisioning.started = true
  | .wifiStart => d.runtime.queue = true

instance (d : Device) (a : DeviceAction) : Decidable (d.enabled a) := by
  cases a <;> unfold Device.enabled <;> infer_instance

structure Change where
  kind : CallKind
  ok : Bool
  deriving DecidableEq

structure Watched where
  device : Device
  changes : List Change

def Watched.record (w : Watched) (a : DeviceAction) (r : Bool × Device) : Watched where
  device := r.2
  changes := if r.2.view = w.device.view then w.changes else w.changes ++ [⟨a.kind, r.1⟩]

def watch (w : Watched) (a : DeviceAction) : Option Watched :=
  if w.device.enabled a then some (w.record a (w.device.perform a)) else none

def booted : Watched where
  device :=
    { runtime := ⟨zeroConfig, false, false, false, false, 0, .empty, false⟩
      provisioning := .zero }
  changes := []

def changers : List CallKind := [.start, .updateConfig, .apply]

/-- Only a start or an update that succeeds has changed what the uploader reads, and what
it reads has passed the checks. -/
structure ConfigStable (w : Watched) : Prop where
  changes : ∀ c ∈ w.changes, c.ok = true ∧ c.kind ∈ changers
  valid : w.device.runtime.queue = true → ValidConfig w.device.view

def Device.updateKept (d : Device) (a : UpdateAnswers) (c : Config CharPtr) : Prop :=
  let next := (updateDefaults d.runtime.config c).map d.deref
  d.runtime.queue = true → ValidConfig next →
    a.Accept d.runtime.wifiStarted next ∨ next = d.view

def ProvField.textField : ProvField → Option TextField
  | .wifiSsid => some .wifiSsid
  | .wifiId => some .wifiIdentity
  | .wifiPassword => some .wifiPassword
  | .ingestUrl => some .ingestUrl
  | .timeUrl => some .timeUrl
  | .deviceId => some .deviceId
  | .deviceToken => some .deviceToken
  | _ => none

/-- The steps under which the running configuration keeps still: a call past its checks is
refused nothing that follows, and no text is written into a buffer that the running
configuration points to. Both unless the text stays the same. -/
def Device.keepsStill (d : Device) : DeviceAction → Prop
  | .start a config => ∀ c ∈ config, d.runtime.queue = false → ValidConfig (c.map d.deref) →
      a.Grants c.connectedLedEnabled ∨ (startDefaults c).map d.deref = d.view
  | .updateConfig a config => ∀ c ∈ config, d.updateKept a c
  | .startProvisioning _ => True
  | .write a field payload =>
    if field = .apply then d.updateKept a d.provisioning.config
    else ∀ f ∈ field.textField, payload.length < f.size → .staged f ∈ d.runtime.config.pointers →
      writtenText payload = d.provisioning.text f
  | .wifiStart => True

instance (a : UpdateAnswers) (wifiStarted : Bool) (c : TextConfig) :
    Decidable (a.Accept wifiStarted c) := by
  unfold UpdateAnswers.Accept; infer_instance

instance (d : Device) (a : UpdateAnswers) (c : Config CharPtr) : Decidable (d.updateKept a c) := by
  unfold Device.updateKept; infer_instance

instance (d : Device) (a : DeviceAction) : Decidable (d.keepsStill a) := by
  cases a <;> unfold Device.keepsStill <;> infer_instance

inductive Device.Effect (d : Device) : DeviceAction → Bool × Device → Prop where
  | refused (a : DeviceAction) (hkept : d.keepsStill a) : d.Effect a (false, d)
  | start {a : StartAnswers} {c : Config CharPtr} {rt : Runtime CharPtr} {ok : Bool}
      (queue : d.runtime.queue = false) (valid : ValidConfig (c.map d.deref))
      (config : rt.config = startDefaults c) (hok : ok = true ↔ a.Grants c.connectedLedEnabled) :
      d.Effect (.start a (some c)) (ok, { d with runtime := rt })
  | update {action : DeviceAction} {a : UpdateAnswers} {c : Config CharPtr} {ok : Bool}
      (call : action = .updateConfig a (some c) ∨
        ∃ payload, action = .write a .apply payload ∧ c = d.provisioning.config)
      (queue : d.runtime.queue = true)
      (valid : ValidConfig ((updateDefaults d.runtime.config c).map d.deref))
      (hok : ok = true ↔
        a.Accept d.runtime.wifiStarted ((updateDefaults d.runtime.config c).map d.deref)) :
      d.Effect action (ok, { d with runtime.config := updateDefaults d.runtime.config c })
  | provision {a : ProvAnswers} {p : Provisioning} {ok : Bool}
      (fresh : d.provisioning.started = false) :
      d.Effect (.startProvisioning a) (ok, { d with provisioning := p })
  | stage {a : UpdateAnswers} {field : ProvField} {payload : List UInt8} {p : Provisioning} {ok : Bool}
      (hfield : field ≠ .apply)
      (text : p.text = match field.textField with
        | none => d.provisioning.text
        | some f => if payload.length < f.size then
            Function.update d.provisioning.text f (writtenText payload) else d.provisioning.text)
      (started : p.started = d.provisioning.started) :
      d.Effect (.write a field payload) (ok, { d with provisioning := p })
  | wifiStart : d.Effect .wifiStart (true, { d with runtime.wifiStarted := true })

theorem kind_write {a : UpdateAnswers} {field : ProvField} {payload : List UInt8}
    (hfield : field ≠ .apply) : (DeviceAction.write a field payload).kind = .write := by
  cases field <;> first | rfl | exact absurd rfl hfield

theorem perform_write {d : Device} {a : UpdateAnswers} {field : ProvField} {payload : List UInt8}
    (hfield : field ≠ .apply) :
    d.perform (.write a field payload) =
      (isOk (stageField field payload d.provisioning).1,
        { d with provisioning := (stageField field payload d.provisioning).2 }) := by
  cases field <;> first | rfl | exact absurd rfl hfield

theorem isOk_eq_true {ε : Type} {x : Except ε Unit} : isOk x = true ↔ x = .ok () := by
  cases x <;> simp [isOk]

theorem writeTextField_text (f : TextField) (payload : List UInt8) (p : Provisioning) :
    (writeTextField f payload p).2.text =
      if payload.length < f.size then Function.update p.text f (writtenText payload)
      else p.text := by
  have hsize : f.size ≠ 0 := by cases f <;> decide
  by_cases hfits : payload.length < f.size
  · simp [writeTextField, writeText, Provisioning.setText, hfits, Nat.not_le.mpr hfits, hsize]
  · simp [writeTextField, writeText, Provisioning.setText, hfits, Nat.not_lt.mp hfits]

theorem stageField_text (field : ProvField) (payload : List UInt8) (p : Provisioning) :
    (stageField field payload p).2.text =
      match field.textField with
      | none => p.text
      | some f => if payload.length < f.size then Function.update p.text f (writtenText payload)
          else p.text := by
  cases field <;> first | rfl | exact writeTextField_text _ payload p

theorem stageField_started (field : ProvField) (payload : List UInt8) (p : Provisioning) :
    (stageField field payload p).2.started = p.started := by
  cases field <;> rfl

theorem updateConfig_effect (d : Device) (a : UpdateAnswers) (c : Config CharPtr)
    {action : DeviceAction} (call : action = .updateConfig a (some c) ∨
      ∃ payload, action = .write a .apply payload ∧ c = d.provisioning.config) :
    d.Effect action (isOk (aetusUpdateConfig d.deref a d.runtime (some c)).1,
      { d with runtime := (aetusUpdateConfig d.deref a d.runtime (some c)).2 }) := by
  obtain ⟨e, herror, hrefused⟩ | ⟨_, hc, hqueue, hvalid, heq⟩ :=
    aetusUpdateConfig_cases d.deref a d.runtime (some c)
  · rw [herror]
    refine .refused action ?_
    have hkept : d.updateKept a c := fun hqueue hvalid => absurd hvalid (hrefused hqueue c rfl)
    rcases call with rfl | ⟨payload, rfl, rfl⟩
    · intro c' hc'
      cases hc'
      exact hkept
    · exact hkept
  · cases hc
    rw [heq]
    exact .update call hqueue hvalid (isOk_eq_true.trans (applyConfig_eq_ok d.deref))

theorem start_effect (d : Device) (a : StartAnswers) (config : Option (Config CharPtr)) :
    d.Effect (.start a config) (d.perform (.start a config)) := by
  obtain ⟨e, herror, hrefused⟩ | ⟨c, rfl, hqueue, hvalid, heq⟩ :=
    aetusStart_cases d.deref a d.runtime config
  · simp only [Device.perform, herror]
    refine .refused _ fun c hc hqueue hvalid => ?_
    cases config with
    | none => cases hc
    | some _ =>
      cases hc
      exact absurd hvalid (hrefused hqueue _ rfl)
  · simp only [Device.perform, heq]
    refine .start hqueue hvalid (createResources_config _ _) ?_
    rw [isOk_eq_true, createResources_eq_ok]
    rfl

theorem perform_effect (d : Device) (a : DeviceAction) : d.Effect a (d.perform a) := by
  cases a with
  | start a config => exact start_effect d a config
  | updateConfig a config =>
    cases config with
    | none =>
      have hnone : ∃ e, aetusUpdateConfig d.deref a d.runtime none = (.error e, d.runtime) := by
        obtain herror | ⟨_, hc, _⟩ := aetusUpdateConfig_cases d.deref a d.runtime none
        · exact ⟨herror.choose, herror.choose_spec.1⟩
        · cases hc
      obtain ⟨e, herror⟩ := hnone
      simp only [Device.perform, herror]
      exact .refused _ fun c hc => nomatch hc
    | some c => exact updateConfig_effect d a c (.inl rfl)
  | startProvisioning a =>
    by_cases hstarted : d.provisioning.started = true
    · simp only [Device.perform, aetusStartProvisioning, hstarted, if_true]
      exact .refused _ trivial
    · exact .provision (Bool.eq_false_iff.mpr hstarted)
  | write a field payload =>
    by_cases hfield : field = .apply
    · subst hfield
      have hupdate := updateConfig_effect d a d.provisioning.config (.inr ⟨payload, rfl, rfl⟩)
      cases hr : aetusUpdateConfig d.deref a d.runtime (some d.provisioning.config) with
      | mk result rt =>
        rw [hr] at hupdate
        cases result <;> simpa only [Device.perform, provisioningWrite, hr, isOk] using hupdate
    · rw [perform_write hfield]
      exact .stage hfield (stageField_text _ _ _) (stageField_started _ _ _)
  | wifiStart => exact .wifiStart

section View

variable {σ τ : Type}

theorem map_eq_map_iff {c : Config σ} {g h : σ → τ} :
    c.map g = c.map h ↔ ∀ p ∈ c.pointers, g p = h p := by
  simp only [Config.pointers, List.forall_mem_cons, Config.map, Config.mk.injEq, true_and]
  simp

/-- New text in a buffer is seen through the pointers that lead there. -/
theorem map_update_eq_iff {c : Config CharPtr} {texts : TextField → CString} {f : TextField}
    {s : CString} :
    c.map (CharPtr.deref (Function.update texts f s)) = c.map (CharPtr.deref texts) ↔
      (.staged f ∈ c.pointers → s = texts f) := by
  rw [map_eq_map_iff]
  constructor
  · intro h hf
    simpa [CharPtr.deref] using h _ hf
  · intro h p hp
    cases p with
    | null => rfl
    | caller t => rfl
    | staged g =>
      by_cases hg : g = f
      · subst hg
        simpa [CharPtr.deref] using h hp
      · simp [CharPtr.deref, Function.update_of_ne hg]

end View

/-- Until provisioning runs, no pointer of the running configuration leads into `s_prov`. -/
def Device.noStrays (d : Device) : Prop :=
  d.provisioning.started = false → ∀ p ∈ d.runtime.config.pointers, p.isStaged = false

theorem map_deref_of_notStaged {c : Config CharPtr} (texts texts' : TextField → CString)
    (h : ∀ p ∈ c.pointers, p.isStaged = false) :
    c.map (CharPtr.deref texts) = c.map (CharPtr.deref texts') := by
  rw [map_eq_map_iff]
  intro p hp
  cases p with
  | null => rfl
  | caller t => rfl
  | staged g => exact absurd (h _ hp) (by simp [CharPtr.isStaged])

/-- The condition is the exact one: an action changes what the uploader reads without
being a successful start or update just when the condition fails. -/
theorem Device.Effect.still_iff {d : Device} {a : DeviceAction} {r : Bool × Device}
    (h : d.Effect a r) (hd : d.noStrays) :
    d.keepsStill a ↔ r.2.view = d.view ∨ (r.1 = true ∧ a.kind ∈ changers) := by
  cases h with
  | refused a still => exact ⟨fun _ => .inl rfl, fun _ => still⟩
  | start queue valid config hok =>
    rename_i a c rt ok
    have hview : Device.view { d with runtime := rt } = (startDefaults c).map d.deref :=
      congrArg (Config.map d.deref) config
    have hkind : CallKind.start ∈ changers := by decide
    simp only [Device.keepsStill, DeviceAction.kind, Option.mem_some_iff, forall_eq', queue, valid,
      true_implies, hview, hok, hkind, and_true]
    exact or_comm
  | update call queue valid hok =>
    rename_i a c ok
    have hview : Device.view { d with runtime.config := updateDefaults d.runtime.config c } =
      (updateDefaults d.runtime.config c).map d.deref := rfl
    have hkept : d.updateKept a c ↔ ok = true ∨
        (updateDefaults d.runtime.config c).map d.deref = d.view := by
      simp only [Device.updateKept, queue, valid, true_implies, hok]
    rw [hview, or_comm]
    rcases call with rfl | ⟨payload, rfl, rfl⟩
    · simpa [Device.keepsStill, DeviceAction.kind, changers] using hkept
    · simpa [Device.keepsStill, DeviceAction.kind, changers] using hkept
  | provision fresh =>
    exact ⟨fun _ => .inl (map_deref_of_notStaged _ _ (hd fresh)), fun _ => trivial⟩
  | stage hfield text started =>
    rename_i a field payload p ok
    have hnot : CallKind.write ∉ changers := by decide
    simp only [Device.keepsStill, if_neg hfield, kind_write hfield, hnot, and_false, or_false]
    change _ ↔ d.runtime.config.map (CharPtr.deref p.text) =
      d.runtime.config.map (CharPtr.deref d.provisioning.text)
    cases htext : field.textField with
    | none =>
      simp only [htext] at text
      simp [text]
    | some f =>
      simp only [htext] at text
      by_cases hfits : payload.length < f.size
      · rw [text, if_pos hfits, map_update_eq_iff]
        simp [hfits]
      · rw [text, if_neg hfits]
        simp [hfits]
  | wifiStart => exact ⟨fun _ => .inl rfl, fun _ => trivial⟩

theorem Device.Effect.noStrays {d : Device} {a : DeviceAction} {r : Bool × Device}
    (h : d.Effect a r) (hd : d.noStrays) (ha : d.enabled a) : r.2.noStrays := by
  have hcaller : ∀ c : Config CharPtr, (∀ p ∈ c.pointers, p.isStaged = true →
      d.provisioning.started = true) → d.provisioning.started = false →
      ∀ p ∈ c.pointers, p.isStaged = false := by
    intro c hc hfresh p hp
    cases hstaged : p.isStaged with
    | false => rfl
    | true => exact absurd (hfresh.symm.trans (hc p hp hstaged)) (by decide)
  cases h with
  | refused a still => exact hd
  | start queue valid config hok =>
    rename_i a c rt ok
    intro hfresh
    simp only [config]
    exact hcaller c (ha c rfl) hfresh
  | update call queue valid hok =>
    rename_i a c ok
    intro hfresh
    rcases call with rfl | ⟨payload, rfl, rfl⟩
    · exact hcaller c (ha c rfl) hfresh
    · exact absurd (hfresh.symm.trans ha) (by decide)
  | provision fresh => exact fun _ => hd fresh
  | stage hfield text started => exact fun hfresh => hd (started.symm.trans hfresh)
  | wifiStart => exact hd

theorem Device.Effect.valid {d : Device} {a : DeviceAction} {r : Bool × Device}
    (h : d.Effect a r) (hd : d.noStrays) (hstill : d.keepsStill a)
    (hvalid : d.runtime.queue = true → ValidConfig d.view) :
    r.2.runtime.queue = true → ValidConfig r.2.view := by
  have hsame := (h.still_iff hd).mp hstill
  cases h with
  | refused a still => exact hvalid
  | start queue valid config hok =>
    intro _
    rw [Device.view, config, map_startDefaults]
    exact validConfig_startDefaults.mpr valid
  | update call queue valid hok => exact fun _ => valid
  | provision fresh =>
    rcases hsame with hview | ⟨_, hkind⟩
    · rw [hview]
      exact hvalid
    · exact absurd hkind (by simp [DeviceAction.kind, changers])
  | stage hfield text started =>
    rename_i a field payload p ok
    rcases hsame with hview | ⟨_, hkind⟩
    · rw [hview]
      exact hvalid
    · rw [kind_write hfield] at hkind
      exact absurd hkind (by decide)
  | wifiStart => exact hvalid

theorem watch_stable {w w' : Watched} {a : DeviceAction}
    (hw : ConfigStable w ∧ w.device.noStrays) (hstill : w.device.keepsStill a)
    (h : watch w a = some w') : ConfigStable w' ∧ w'.device.noStrays := by
  obtain ⟨hstable, hd⟩ := hw
  unfold watch at h
  split at h
  · rename_i ha
    have heffect := perform_effect w.device a
    obtain rfl := Option.some.inj h
    refine ⟨⟨fun c hc => ?_, heffect.valid hd hstill hstable.valid⟩, heffect.noStrays hd ha⟩
    simp only [Watched.record] at hc
    split at hc
    · exact hstable.changes c hc
    · rename_i hview
      rcases List.mem_append.mp hc with hold | hnew
      · exact hstable.changes c hold
      · obtain rfl := List.mem_singleton.mp hnew
        exact ((heffect.still_iff hd).mp hstill).resolve_left hview
  · cases h

/-- In every run of steps that keep still, only successful starts and updates change what
the uploader reads, and it reads nothing unchecked. -/
theorem run_configStable {sched : List DeviceAction} {w : Watched}
    (h : run watch booted sched = some w)
    (hg : Guarded watch (fun w a => w.device.keepsStill a) booted sched) : ConfigStable w := by
  have hbooted : ConfigStable booted ∧ booted.device.noStrays := by
    refine ⟨⟨fun c hc => ?_, fun hq => ?_⟩, fun _ => by decide⟩
    · simp [booted] at hc
    · simp [booted] at hq
  exact (run_guarded_invariant (fun _ _ _ hw hstill hstep => watch_stable hw hstill hstep)
    hbooted hg h).1

def sampleCallerConfig : Config CharPtr := (labConfig .bearer).map CharPtr.ofText

def provisionOnce : List DeviceAction :=
  [.start (.granted 0) (some sampleCallerConfig), .wifiStart, .startProvisioning .granted,
    .write .granted .wifiSsid (utf8 "attic".toList), .write .granted .apply []]

theorem provisionOnce_stable : ∃ w, run watch booted provisionOnce = some w ∧
    w.device.view.wifiSsid = some (.lit "attic") ∧ ConfigStable w := by
  obtain ⟨w, hw⟩ : ∃ w, run watch booted provisionOnce = some w := ⟨_, rfl⟩
  refine ⟨w, hw, ?_, run_configStable hw (by decide +kernel)⟩
  have hssid : (run watch booted provisionOnce).map (fun w => w.device.view.wifiSsid) =
      some (some (.lit "attic")) := by decide +kernel
  simpa [hw] using hssid

/-- One write more goes into the buffer that the running configuration points to. -/
theorem lateWrite_changes : ∃ w, run watch booted (provisionOnce ++
    [.write .granted .wifiSsid (utf8 "rogue".toList)]) = some w ∧ ¬ ConfigStable w := by
  obtain ⟨w, hw⟩ : ∃ w, run watch booted (provisionOnce ++
    [.write .granted .wifiSsid (utf8 "rogue".toList)]) = some w := ⟨_, rfl⟩
  have hchanges : (run watch booted (provisionOnce ++
      [.write .granted .wifiSsid (utf8 "rogue".toList)])).map Watched.changes =
      some [⟨.start, true⟩, ⟨.apply, true⟩, ⟨.write, true⟩] := by decide +kernel
  rw [hw, Option.map_some, Option.some.injEq] at hchanges
  refine ⟨w, hw, fun hstable => ?_⟩
  have hwrite := (hstable.changes ⟨.write, true⟩ (by simp [hchanges])).2
  exact absurd hwrite (by decide)

end Aetus.Firmware
