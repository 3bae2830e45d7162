import Aetus.Base.Numbering
import Aetus.Base.Runs
import Aetus.Clients.Events

/-!
The send calls of the two clients with their sequence counters, over any answers of the
network, and the events that the server accepts under one device, boot and sequence.
-/

set_option autoImplicit false

namespace Aetus.Clients
open Aetus.Base Aetus.Ingest

structure EventKey where
  deviceId : List Char
  bootId : List Char
  sequence : UInt64
  deriving DecidableEq

def eventKey (event : IngestEvent) : EventKey := ⟨event.deviceId, event.bootId, event.sequence⟩

def sessionNumbering (deviceId bootId : List Char) : Numbering IngestEvent EventKey where
  number event :=
    if event.deviceId = deviceId ∧ event.bootId = bootId then some event.sequence.toNat else none
  key := eventKey
  number_of_key e e' h := by
    simp only [eventKey, EventKey.mk.injEq] at h
    simp only [h]

/-- What comes back from the POST: nothing, or a status and a body that decodes or not. -/
inductive Reply where
  | failed
  | response (status : Nat) (decodes : Bool)
  deriving DecidableEq

structure Outcome where
  accepted : Bool
  reply : Reply
  deriving DecidableEq

inductive SendError (B : Type) where
  | build (e : B)
  | http
  | rejected (status : Nat)
  | decode

namespace Python

structure Client where
  deviceId : List Char
  bootId : List Char
  firmwareVersion : Int
  sequence : Int
  deriving DecidableEq

/-- `self.sequence += 1` for an event of the client's own device and sequence. -/
def Client.advance (client : Client) (event : IngestEvent) : Client :=
  if event.deviceId = client.deviceId ∧ (event.sequence.toNat : Int) = client.sequence then
    { client with sequence := client.sequence + 1 }
  else client

def sendEvent (client : Client) (event : IngestEvent) (reply : Reply) :
    Except (SendError BuildError) Unit × Client :=
  match reply with
  | .failed => (.error .http, client)
  | .response status decodes =>
    if status < 200 ∨ 300 ≤ status then (.error (.rejected status), client)
    else (if decodes then .ok () else .error .decode, client.advance event)

inductive SendCall (F E : Type) where
  | sendEvent (event : IngestEvent)
  | sendMetrics (metrics : List MetricInput) (uptimeMs : Int) (timestampNs : Option Int)
  | sendSignalFrame (args : SignalFrameArgs F E) (uptimeMs : Int) (timestampNs : Option Int)
  | sendStatus (args : StatusArgs) (uptimeMs : Int) (timestampNs : Option Int)
  | sendAlert (args : AlertArgs) (uptimeMs : Int) (timestampNs : Option Int)

def Client.eventArgs (client : Client) (uptimeMs : Int) (timestampNs : Option Int) : EventArgs where
  deviceId := client.deviceId
  sequence := client.sequence
  bootId := client.bootId
  firmwareVersion := client.firmwareVersion
  uptimeMs := uptimeMs
  timestampNs := timestampNs
  schemaVersion := 1

variable {F E : Type}

def SendCall.build (numbers : Numbers F E) (client : Client) :
    SendCall F E → Except BuildError IngestEvent
  | .sendEvent event => .ok event
  | .sendMetrics metrics uptimeMs timestampNs =>
    buildMetricEvent (client.eventArgs uptimeMs timestampNs) metrics
  | .sendSignalFrame args uptimeMs timestampNs =>
    buildSignalFrameEvent numbers (client.eventArgs uptimeMs timestampNs) args
  | .sendStatus args uptimeMs timestampNs =>
    buildStatusEvent (client.eventArgs uptimeMs timestampNs) args
  | .sendAlert args uptimeMs timestampNs =>
    buildAlertEvent (client.eventArgs uptimeMs timestampNs) args

end Python

namespace Rust

structure Client where
  deviceId : List Char
  bootId : List Char
  firmwareVersion : UInt32
  sequence : UInt64
  deriving DecidableEq

/-- `self.sequence += 1`, which wraps in a release build. -/
def Client.advance (client : Client) (event : IngestEvent) : Client :=
  if event.deviceId = client.deviceId ∧ event.sequence = client.sequence then
    { client with sequence := client.sequence + 1 }
  else client

/-- The body is decoded before the counter moves. -/
def sendEvent (client : Client) (event : IngestEvent) (reply : Reply) :
    Except (SendError Error) Unit × Client :=
  match reply with
  | .failed => (.error .http, client)
  | .response status decodes =>
    if status < 200 ∨ 300 ≤ status then (.error (.rejected status), client)
    else if decodes then (.ok (), client.advance event)
    else (.error .decode, client)

inductive SendCall where
  | sendEvent (event : IngestEvent)
  | sendMetrics (metrics : List Metric) (timestampNs : Option UInt64)
  | sendSignalFrame (args : SignalFrameArgs) (timestampNs : Option UInt64)
  | sendStatus (status : DeviceStatus) (rssi : Int32) (freeHeap : UInt32) (rebootReason : List Char)
      (timestampNs : Option UInt64)
  | sendAlert (code : List Char) (severity : Severity) (message : List Char)
      (timestampNs : Option UInt64)

def Client.eventArgs (client : Client) (timestampNs : Option UInt64) : EventArgs where
  deviceId := client.deviceId
  sequence := client.sequence
  bootId := client.bootId
  firmwareVersion := client.firmwareVersion
  uptimeMs := 0
  timestampNs := timestampNs

def SendCall.build (widen : UInt32 → Double) (client : Client) :
    SendCall → Except Error IngestEvent
  | .sendEvent event => .ok event
  | .sendMetrics metrics timestampNs => buildMetricEvent (client.eventArgs timestampNs) metrics
  | .sendSignalFrame args timestampNs =>
    buildSignalFrameEvent widen (client.eventArgs timestampNs) args
  | .sendStatus status rssi freeHeap rebootReason timestampNs =>
    buildStatusEvent (client.eventArgs timestampNs) status rssi freeHeap rebootReason
  | .sendAlert code severity message timestampNs =>
    buildAlertEvent (client.eventArgs timestampNs) code severity message

end Rust

/-- A client with the events that the server has accepted from it; `unseen` is the last event
accepted under the client's own key, until the counter moves. -/
structure World (C : Type) where
  client : C
  server : List IngestEvent
  unseen : Option IngestEvent
  deriving DecidableEq

/-- The two clients by what a run needs of them; `wraps` tells the last value of the counter. -/
structure ClientModel (C Call : Type) where
  deviceId : C → List Char
  bootId : C → List Char
  counter : C → Int
  wraps : C → Bool
  build : C → Call → Option IngestEvent
  sent : C → IngestEvent → Reply → C

def pythonModel {F E : Type} (numbers : Python.Numbers F E) :
    ClientModel Python.Client (Python.SendCall F E) where
  deviceId := Python.Client.deviceId
  bootId := Python.Client.bootId
  counter client := client.sequence
  wraps _ := false
  build client call := (call.build numbers client).toOption
  sent client event reply := (Python.sendEvent client event reply).2

def rustModel (widen : UInt32 → Double) : ClientModel Rust.Client Rust.SendCall where
  deviceId := Rust.Client.deviceId
  bootId := Rust.Client.bootId
  counter client := client.sequence.toNat
  wraps client := client.sequence.toNat + 1 = 2 ^ 64
  build client call := (call.build widen client).toOption
  sent client event reply := (Rust.sendEvent client event reply).2

namespace ClientModel

variable {C Call : Type} (model : ClientModel C Call)

def session (client : C) : Numbering IngestEvent EventKey :=
  sessionNumbering (model.deviceId client) (model.bootId client)

def view (w : World C) : Sender IngestEvent := ⟨model.counter w.client, w.server, w.unseen⟩

def record (w : World C) (event : IngestEvent) (accepted : Bool) (client : C) : World C :=
  let s := (model.view w).send (model.session w.client) event accepted
    (model.counter client ≠ model.counter w.client)
  ⟨client, s.taken, s.unseen⟩

def step (w : World C) (a : Call × Outcome) : Option (World C) :=
  match model.build w.client a.1 with
  | none => some w
  | some event =>
    some (model.record w event a.2.accepted (model.sent w.client event a.2.reply))

def start (client : C) : World C := ⟨client, [], none⟩

def Safe (w : World C) (a : Call × Outcome) : Prop :=
  ∀ event ∈ model.build w.client a.1, model.wraps w.client = false ∧
    (model.view w).Allowed (model.session w.client) event

instance (w : World C) (a : Call × Outcome) : Decidable (model.Safe w a) := by
  unfold Safe; infer_instance

structure Lawful : Prop where
  session : ∀ client event reply, model.session (model.sent client event reply) =
    model.session client
  counter : ∀ client event reply, model.wraps client = false →
    model.counter (model.sent client event reply) = model.counter client ∨
      model.counter (model.sent client event reply) = model.counter client + 1

variable {model}

theorem view_record {w : World C} {event : IngestEvent} {accepted : Bool} {client : C}
    (h : model.counter client = model.counter w.client ∨
      model.counter client = model.counter w.client + 1) :
    model.view (model.record w event accepted client) =
      (model.view w).send (model.session w.client) event accepted
        (model.counter client ≠ model.counter w.client) := by
  rcases h with heq | hnext
  · simp [view, record, Sender.send, heq]
  · simp [view, record, Sender.send, hnext]

theorem Lawful.step_inOrder (hlaw : model.Lawful) {w w' : World C} {a : Call × Outcome}
    (hw : (model.view w).InOrder (model.session w.client)) (hsafe : model.Safe w a)
    (h : model.step w a = some w') : (model.view w').InOrder (model.session w'.client) := by
  unfold step at h
  split at h
  · cases h
    exact hw
  · next event hbuild =>
    obtain ⟨hwraps, hallowed⟩ := hsafe event hbuild
    cases h
    rw [view_record (hlaw.counter w.client event a.2.reply hwraps)]
    have hsession : model.session (model.record w event a.2.accepted
        (model.sent w.client event a.2.reply)).client = model.session w.client :=
      hlaw.session w.client event a.2.reply
    rw [hsession]
    exact hw.send hallowed _ _

end ClientModel

def KeysUnique (server : List IngestEvent) : Prop :=
  ∀ event ∈ server, ∀ event' ∈ server, eventKey event = eventKey event' → event = event'

instance (server : List IngestEvent) : Decidable (KeysUnique server) := by
  unfold KeysUnique; infer_instance

theorem ClientModel.Lawful.run_keysUnique {C Call : Type} {model : ClientModel C Call}
    (hlaw : model.Lawful) {client : C} {calls : List (Call × Outcome)} {w : World C}
    (hsafe : Guarded model.step model.Safe (start client) calls)
    (h : run model.step (start client) calls = some w) : KeysUnique w.server := by
  have hstart : (model.view (start client)).InOrder (model.session client) :=
    Sender.inOrder_nil _ _
  have hend := run_guarded_invariant (I := fun w => (model.view w).InOrder (model.session w.client))
    (fun _ _ _ hw hs hstep => hlaw.step_inOrder hw hs hstep) hstart hsafe h
  exact fun event he event' he' hkey => hend.unique event he event' he' hkey

theorem Python.Client.advance_cases (client : Client) (event : IngestEvent) :
    client.advance event = client ∨
      client.advance event = { client with sequence := client.sequence + 1 } := by
  unfold Client.advance
  split
  · exact .inr rfl
  · exact .inl rfl

theorem pythonModel_lawful {F E : Type} (numbers : Python.Numbers F E) :
    (pythonModel numbers).Lawful := by
  have hsent : ∀ (client : Python.Client) event reply,
      (Python.sendEvent client event reply).2 = client ∨
        (Python.sendEvent client event reply).2 =
          { client with sequence := client.sequence + 1 } := by
    intro client event reply
    unfold Python.sendEvent
    split
    · exact .inl rfl
    · split
      · exact .inl rfl
      · exact client.advance_cases event
  constructor
  · intro client event reply
    rcases hsent client event reply with h | h <;> simp [ClientModel.session, pythonModel, h]
  · intro client event reply _
    rcases hsent client event reply with h | h <;> simp [pythonModel, h]

theorem Rust.Client.advance_cases (client : Client) (event : IngestEvent) :
    client.advance event = client ∨
      client.advance event = { client with sequence := client.sequence + 1 } := by
  unfold Client.advance
  split
  · exact .inr rfl
  · exact .inl rfl

theorem rustModel_lawful (widen : UInt32 → Double) : (rustModel widen).Lawful := by
  have hsent : ∀ (client : Rust.Client) event reply,
      (Rust.sendEvent client event reply).2 = client ∨
        (Rust.sendEvent client event reply).2 =
          { client with sequence := client.sequence + 1 } := by
    intro client event reply
    unfold Rust.sendEvent
    split
    · exact .inl rfl
    · split
      · exact .inl rfl
      · split
        · exact client.advance_cases event
        · exact .inl rfl
  constructor
  · intro client event reply
    rcases hsent client event reply with h | h <;> simp [ClientModel.session, rustModel, h]
  · intro client event reply hwraps
    have hlt := client.sequence.toNat_lt
    have hnext : (client.sequence + 1).toNat = client.sequence.toNat + 1 := by
      have hne : client.sequence.toNat + 1 ≠ 2 ^ 64 := by simpa [rustModel] using hwraps
      rw [UInt64.toNat_add]
      exact Nat.mod_eq_of_lt (by simp; omega)
    rcases hsent client event reply with h | h <;> simp [rustModel, h, hnext]

namespace Python

def EventArgs.Names (args : EventArgs) (event : IngestEvent) : Prop :=
  event.deviceId = args.deviceId ∧ event.bootId = args.bootId ∧
    (event.sequence.toNat : Int) = args.sequence

theorem baseEvent_names {args : EventArgs} {eventType : Int32} {event : IngestEvent}
    (h : baseEvent args eventType = .ok event) : args.Names event := by
  simp only [baseEvent, except_bind_eq_ok, require_eq_ok] at h
  obtain ⟨_, -, _, -, _, -, _, -, sequence, hsequence, _, -, _, -, _, -, h⟩ := h
  obtain ⟨hnonneg, hvalue⟩ := uint64Field_ok hsequence
  cases h
  exact ⟨rfl, rfl, by dsimp only; omega⟩

variable {F E : Type} {numbers : Numbers F E}

theorem SendCall.build_names {client : Client} {call : SendCall F E} {event : IngestEvent}
    (hcall : ∀ e, call ≠ .sendEvent e) (h : call.build numbers client = .ok event) :
    event.deviceId = client.deviceId ∧ event.bootId = client.bootId ∧
      (event.sequence.toNat : Int) = client.sequence := by
  cases call with
  | sendEvent e => exact absurd rfl (hcall e)
  | sendMetrics metrics uptimeMs timestampNs =>
    simp only [build, buildMetricEvent, except_bind_eq_ok] at h
    obtain ⟨base, hbase, _, -, _, -, h⟩ := h
    cases h
    exact baseEvent_names hbase
  | sendSignalFrame args uptimeMs timestampNs =>
    simp only [build, buildSignalFrameEvent, except_bind_eq_ok] at h
    obtain ⟨_, -, _, -, _, -, _, -, _, -, base, hbase, _, -, _, -, _, -, h⟩ := h
    cases h
    exact baseEvent_names hbase
  | sendStatus args uptimeMs timestampNs =>
    simp only [build, buildStatusEvent] at h
    split at h
    · cases h
    · simp only [except_bind_eq_ok] at h
      obtain ⟨base, hbase, _, -, _, -, h⟩ := h
      cases h
      exact baseEvent_names hbase
  | sendAlert args uptimeMs timestampNs =>
    simp only [build, buildAlertEvent] at h
    split at h
    · cases h
    · simp only [except_bind_eq_ok] at h
      obtain ⟨base, hbase, h⟩ := h
      cases h
      exact baseEvent_names hbase

end Python

namespace Rust

theorem baseEvent_names {args : EventArgs} {eventType : Int32} {event : IngestEvent}
    (h : baseEvent args eventType = .ok event) : event.deviceId = args.deviceId ∧
      event.bootId = args.bootId ∧ event.sequence = args.sequence := by
  simp only [baseEvent, except_bind_eq_ok] at h
  obtain ⟨_, -, _, -, h⟩ := h
  cases h
  exact ⟨rfl, rfl, rfl⟩

theorem SendCall.build_names {widen : UInt32 → Double} {client : Client} {call : SendCall}
    {event : IngestEvent} (hcall : ∀ e, call ≠ .sendEvent e)
    (h : call.build widen client = .ok event) : event.deviceId = client.deviceId ∧
      event.bootId = client.bootId ∧ event.sequence = client.sequence := by
  cases call with
  | sendEvent e => exact absurd rfl (hcall e)
  | sendMetrics metrics timestampNs =>
    simp only [build, buildMetricEvent, except_bind_eq_ok] at h
    obtain ⟨_, -, base, hbase, h⟩ := h
    cases h
    exact baseEvent_names hbase
  | sendSignalFrame args timestampNs =>
    simp only [build, buildSignalFrameEvent, except_bind_eq_ok] at h
    obtain ⟨_, -, _, -, _, -, _, -, base, hbase, h⟩ := h
    cases h
    exact baseEvent_names hbase
  | sendStatus status rssi freeHeap rebootReason timestampNs =>
    simp only [build, buildStatusEvent, except_bind_eq_ok] at h
    obtain ⟨base, hbase, h⟩ := h
    cases h
    exact baseEvent_names hbase
  | sendAlert code severity message timestampNs =>
    simp only [build, buildAlertEvent, except_bind_eq_ok] at h
    obtain ⟨base, hbase, h⟩ := h
    cases h
    exact baseEvent_names hbase

end Rust

/-- The events of all calls but `send_event` go out under the present number, so that they are
safe when nothing else has been accepted under it. -/
theorem pythonModel_safe_iff {F E : Type} {numbers : Python.Numbers F E}
    {w : World Python.Client} {call : Python.SendCall F E} {outcome : Outcome}
    (hcall : ∀ e, call ≠ .sendEvent e) : (pythonModel numbers).Safe w (call, outcome) ↔
      ∀ event, call.build numbers w.client = .ok event →
        w.unseen = none ∨ w.unseen = some event := by
  have hbuilt : ∀ event, event ∈ (pythonModel numbers).build w.client call ↔
      call.build numbers w.client = .ok event := by
    intro event
    cases hb : call.build numbers w.client <;> simp [pythonModel, hb, Except.toOption]
  simp only [ClientModel.Safe, hbuilt]
  refine forall_congr' fun event => forall_congr' fun hevent => ?_
  obtain ⟨hdevice, hboot, hsequence⟩ := Python.SendCall.build_names hcall hevent
  simp [pythonModel, ClientModel.view, ClientModel.session, sessionNumbering, Sender.Allowed,
    hdevice, hboot, hsequence]

theorem rustModel_safe_iff {widen : UInt32 → Double} {w : World Rust.Client}
    {call : Rust.SendCall} {outcome : Outcome} (hcall : ∀ e, call ≠ .sendEvent e) :
    (rustModel widen).Safe w (call, outcome) ↔
      ∀ event, call.build widen w.client = .ok event →
        w.client.sequence.toNat + 1 ≠ 2 ^ 64 ∧ (w.unseen = none ∨ w.unseen = some event) := by
  have hbuilt : ∀ event, event ∈ (rustModel widen).build w.client call ↔
      call.build widen w.client = .ok event := by
    intro event
    cases hb : call.build widen w.client <;> simp [rustModel, hb, Except.toOption]
  simp only [ClientModel.Safe, hbuilt]
  refine forall_congr' fun event => forall_congr' fun hevent => ?_
  obtain ⟨hdevice, hboot, hsequence⟩ := Rust.SendCall.build_names hcall hevent
  simp [rustModel, ClientModel.view, ClientModel.session, sessionNumbering, Sender.Allowed,
    hdevice, hboot, hsequence]

/-- For both clients: if every call is safe in the state it is made in, no key is used twice. -/
theorem clients_keysUnique {F E : Type} (numbers : Python.Numbers F E) (widen : UInt32 → Double) :
    (∀ client calls w,
      Guarded (pythonModel numbers).step (pythonModel numbers).Safe (ClientModel.start client)
        calls →
      run (pythonModel numbers).step (ClientModel.start client) calls = some w →
      KeysUnique w.server) ∧
    (∀ client calls w,
      Guarded (rustModel widen).step (rustModel widen).Safe (ClientModel.start client) calls →
      run (rustModel widen).step (ClientModel.start client) calls = some w →
      KeysUnique w.server) :=
  ⟨fun _ _ _ => (pythonModel_lawful numbers).run_keysUnique,
    fun _ _ _ => (rustModel_lawful widen).run_keysUnique⟩

def plainNumbers : Python.Numbers Int Int := ⟨fun _ => none, id, fun _ _ => none, by simp⟩

def pythonClient : Python.Client := ⟨"device".toList, "boot".toList, 0, 0⟩
def rustClient : Rust.Client := ⟨"device".toList, "boot".toList, 0, 0⟩

def pythonStatus (status : String) (reply : Reply) : Python.SendCall Int Int × Outcome :=
  (.sendStatus ⟨status.toList, 0, 0, []⟩ 0 none, ⟨true, reply⟩)

def rustStatus (status : Rust.DeviceStatus) (reply : Reply) : Rust.SendCall × Outcome :=
  (.sendStatus status 0 0 [] none, ⟨true, reply⟩)

def pythonResend : List (Python.SendCall Int Int × Outcome) :=
  [pythonStatus "online" .failed, pythonStatus "online" (.response 202 true),
    pythonStatus "degraded" (.response 202 true)]

def rustResend : List (Rust.SendCall × Outcome) :=
  [rustStatus .online (.response 202 false), rustStatus .online (.response 202 true),
    rustStatus .degraded (.response 202 true)]

theorem clients_keysUnique_resend :
    ∃ p r, run (pythonModel plainNumbers).step (ClientModel.start pythonClient) pythonResend =
        some p ∧
      run (rustModel fun _ => .nan).step (ClientModel.start rustClient) rustResend = some r ∧
      KeysUnique p.server ∧ KeysUnique r.server := by
  refine ⟨_, _, rfl, rfl, ?_, ?_⟩
  · exact (clients_keysUnique plainNumbers fun _ => .nan).1 pythonClient pythonResend _
      (by decide +kernel) rfl
  · exact (clients_keysUnique plainNumbers fun _ => .nan).2 rustClient rustResend _
      (by decide +kernel) rfl

/-- Another status follows instead, in Python after a lost response and in Rust after one whose
body does not decode. -/
theorem clients_reuse_key :
    ∃ p r, run (pythonModel plainNumbers).step (ClientModel.start pythonClient)
        [pythonStatus "online" .failed, pythonStatus "degraded" (.response 202 true)] = some p ∧
      run (rustModel fun _ => .nan).step (ClientModel.start rustClient)
        [rustStatus .online (.response 202 false), rustStatus .degraded (.response 202 true)] =
          some r ∧
      ¬ KeysUnique p.server ∧ ¬ KeysUnique r.server := by
  refine ⟨_, _, rfl, rfl, ?_, ?_⟩
  · decide +kernel
  · decide +kernel

end Aetus.Clients
