import Aetus.Anomaly.Worker
import Aetus.Base.Upserts

/-!
The tables that a detection run writes: anomaly_scores, anomaly_events, webhook_outbox and
anomaly_job_state. Columns with the times of writing are left out.
-/

set_option autoImplicit false

namespace Aetus.Anomaly
open Aetus.Base Aetus.Postgres

variable {F : Type}

/-- The columns of `uq_anomaly_events_start`; no channel is the empty one. -/
structure EventKey where
  jobId : Nat
  deviceId : List Char
  streamKey : List Char
  channelKeyNorm : List Char
  start : Timestamptz
  deriving DecidableEq

def EventInsert.key (e : EventInsert F) : EventKey where
  jobId := e.jobId
  deviceId := e.deviceId
  streamKey := e.streamKey
  channelKeyNorm := e.channelKey.getD []
  start := toTimestamptz e.windowStart

/-- A row of anomaly_scores, with the columns of `uq_anomaly_scores_window` first. -/
structure ScoreRow (F : Type) where
  event : EventKey
  windowEnd : Timestamptz
  channelKey : Option (List Char)
  score : F
  threshold : F
  severity : List Char
  detectorType : List Char
  detectorVersion : List Char
  details : EventDetails F

/-- A row of anomaly_events; of the summary, the two numbers that its text gives with three decimals
each, so that rows with different numbers may have one text. -/
structure EventRow (F : Type) where
  eventId : Nat
  key : EventKey
  channelKey : Option (List Char)
  eventEnd : Timestamptz
  severity : List Char
  status : String
  score : F
  threshold : F
  summary : F × F
  details : EventDetails F

structure WebhookEndpoint where
  endpointId : Nat
  enabled : Bool

/-- A row of webhook_outbox, with the event as it was when it was enqueued. -/
structure OutboxRow (F : Type) where
  endpointId : Nat
  payload : EventRow F

structure JobStateRow where
  jobId : Nat
  lastWindowEnd : Option Timestamptz

/-- `GREATEST`, of scores that are finite. -/
def Floats.greatest (floats : Floats F) (a b : F) : F := if floats.lt a b then b else a

def scoreUpserts : Upserts (EventInsert F) (ScoreRow F) (EventKey × Timestamptz) where
  key := fun row => (row.event, row.windowEnd)
  keyOf := fun e => (e.key, toTimestamptz e.windowEnd)
  fresh := fun e _ => {
    event := e.key
    windowEnd := toTimestamptz e.windowEnd
    channelKey := e.channelKey
    score := e.score
    threshold := e.threshold
    severity := e.severity
    detectorType := e.detectorType
    detectorVersion := e.detectorVersion
    details := e.details }
  change := fun e row => { row with
    score := e.score, threshold := e.threshold, severity := e.severity, details := e.details }
  key_fresh := fun _ _ => rfl
  key_change := fun _ _ => rfl

/-- `gen_random_uuid()`: one that no event has. -/
def freshEventId (rows : List (EventRow F)) : Nat := (rows.map (·.eventId)).foldr max 0 + 1

def eventUpserts (floats : Floats F) : Upserts (EventInsert F) (EventRow F) EventKey where
  key := (·.key)
  keyOf := EventInsert.key
  fresh := fun e rows => {
    eventId := freshEventId rows
    key := e.key
    channelKey := e.channelKey
    eventEnd := toTimestamptz e.windowEnd
    severity := e.severity
    status := "open"
    score := e.score
    threshold := e.threshold
    summary := (e.score, e.threshold)
    details := e.details }
  change := fun e row => { row with
    eventEnd := max row.eventEnd (toTimestamptz e.windowEnd)
    score := floats.greatest row.score e.score
    threshold := e.threshold
    summary := (e.score, e.threshold)
    details := e.details }
  key_fresh := fun _ _ => rfl
  key_change := fun _ _ => rfl

/-- `ON CONFLICT (endpoint_id, event_id) DO NOTHING` -/
def outboxUpserts : Upserts (OutboxRow F) (OutboxRow F) (Nat × Nat) where
  key := fun row => (row.endpointId, row.payload.eventId)
  keyOf := fun row => (row.endpointId, row.payload.eventId)
  fresh := fun row _ => row
  change := fun _ row => row
  key_fresh := fun _ _ => rfl
  key_change := fun _ _ => rfl

def jobStateUpserts : Upserts (Nat × Timestamptz) JobStateRow Nat where
  key := (·.jobId)
  keyOf := Prod.fst
  fresh := fun (jobId, windowEnd) _ => ⟨jobId, some windowEnd⟩
  change := fun (_, windowEnd) row => { row with lastWindowEnd := some windowEnd }
  key_fresh := fun _ _ => rfl
  key_change := fun _ _ => rfl

structure Tables (floats : Floats F) where
  scores : Keyed (scoreUpserts (F := F)).key
  events : Keyed (eventUpserts floats).key
  outbox : Keyed (outboxUpserts (F := F)).key
  jobState : Keyed jobStateUpserts.key
  endpoints : List WebhookEndpoint

namespace Tables
variable {floats : Floats F}

def deliveries (tables : Tables floats) (row : EventRow F) : List (OutboxRow F) :=
  (tables.endpoints.filter (·.enabled)).map fun endpoint => ⟨endpoint.endpointId, row⟩

def enqueueWebhooks (tables : Tables floats) (key : EventKey) : Tables floats :=
  match findBy (·.key) key tables.events.rows with
  | none => tables
  | some row => { tables with
      outbox := (tables.deliveries row).foldl outboxUpserts.upsert tables.outbox }

def upsertDetectionEvent (tables : Tables floats) (e : EventInsert F) : Tables floats :=
  enqueueWebhooks { tables with
    scores := scoreUpserts.upsert tables.scores e
    events := (eventUpserts floats).upsert tables.events e } e.key

def updateJobStateSuccess (tables : Tables floats) (jobId : Nat) (windowEnd : Int) : Tables floats :=
  { tables with
    jobState := jobStateUpserts.upsert tables.jobState (jobId, toTimestamptz windowEnd) }

def perform (tables : Tables floats) : Step F → Tables floats
  | .event e => tables.upsertDetectionEvent e
  | .jobState jobId windowEnd => tables.updateJobStateSuccess jobId windowEnd
  | _ => tables

def after (tables : Tables floats) (run : Run F) : Tables floats := run.done.foldl perform tables

def record (tables : Tables floats) (es : List (EventInsert F)) : Tables floats :=
  es.foldl upsertDetectionEvent tables

end Tables

/-! What is recorded twice -/

/-- `<` as IEEE 754 has it, also where an operand is NaN. -/
structure StrictLt (floats : Floats F) : Prop where
  irrefl : ∀ a, floats.lt a a = false
  trans : ∀ a b c, floats.lt a b = true → floats.lt b c = true → floats.lt a c = true

section
variable {floats : Floats F}

theorem greatest_of_not_lt {a b : F} (h : floats.lt a b = false) : floats.greatest a b = a := by
  simp [Floats.greatest, h]

theorem StrictLt.not_lt_greatest_right (h : StrictLt floats) (a b : F) :
    floats.lt (floats.greatest a b) b = false := by
  unfold Floats.greatest
  cases hlt : floats.lt a b with
  | false => simpa using hlt
  | true => simpa using h.irrefl b

theorem StrictLt.not_lt_greatest (h : StrictLt floats) {a c : F} (b : F)
    (hac : floats.lt a c = false) : floats.lt (floats.greatest a b) c = false := by
  unfold Floats.greatest
  cases hab : floats.lt a b with
  | false => simpa using hac
  | true =>
    cases hbc : floats.lt b c with
    | false => simpa using hbc
    | true => rw [h.trans a b c hab hbc] at hac; cases hac

theorem scoreUpserts_absorbs : (scoreUpserts (F := F)).Absorbs fun _ _ => True where
  covers_fresh := fun _ _ => trivial
  covers_change := fun _ _ => trivial
  covers_of_change := fun _ _ _ _ => trivial
  overwrite := fun _ _ _ _ => rfl
  change_fresh := fun _ _ => rfl
  change_change := fun _ _ => rfl

def EventRow.covers (floats : Floats F) (row : EventRow F) (e : EventInsert F) : Prop :=
  toTimestamptz e.windowEnd ≤ row.eventEnd ∧ floats.lt row.score e.score = false

theorem eventUpserts_absorbs (h : StrictLt floats) :
    (eventUpserts floats).Absorbs (EventRow.covers floats) where
  covers_fresh := fun e _ => ⟨le_refl _, h.irrefl e.score⟩
  covers_change := fun e row => ⟨le_max_right _ _, h.not_lt_greatest_right row.score e.score⟩
  covers_of_change := fun _ e row hcovers =>
    ⟨le_max_of_le_left hcovers.1, h.not_lt_greatest e.score hcovers.2⟩
  overwrite := fun _ e row ⟨hend, hscore⟩ => by
    simp only [eventUpserts, max_eq_left hend, greatest_of_not_lt hscore]
  change_fresh := fun e _ => by
    simp only [eventUpserts, max_self, greatest_of_not_lt (h.irrefl e.score)]
  change_change := fun e row => by
    simp only [eventUpserts, max_assoc, max_self,
      greatest_of_not_lt (h.not_lt_greatest_right row.score e.score)]

end

namespace Tables
variable {floats : Floats F} {tables : Tables floats} {e : EventInsert F} {es : List (EventInsert F)}
  {key : EventKey}

theorem enqueueWebhooks_scores : (tables.enqueueWebhooks key).scores = tables.scores := by
  unfold enqueueWebhooks
  split <;> rfl

theorem enqueueWebhooks_events : (tables.enqueueWebhooks key).events = tables.events := by
  unfold enqueueWebhooks
  split <;> rfl

theorem enqueueWebhooks_endpoints : (tables.enqueueWebhooks key).endpoints = tables.endpoints := by
  unfold enqueueWebhooks
  split <;> rfl

theorem upsertDetectionEvent_scores :
    (tables.upsertDetectionEvent e).scores = scoreUpserts.upsert tables.scores e :=
  enqueueWebhooks_scores

theorem upsertDetectionEvent_events :
    (tables.upsertDetectionEvent e).events = (eventUpserts floats).upsert tables.events e :=
  enqueueWebhooks_events

theorem upsertDetectionEvent_endpoints :
    (tables.upsertDetectionEvent e).endpoints = tables.endpoints :=
  enqueueWebhooks_endpoints

theorem record_cons : tables.record (e :: es) = (tables.upsertDetectionEvent e).record es := rfl

theorem record_scores : (tables.record es).scores = es.foldl scoreUpserts.upsert tables.scores :=
  (List.foldl_hom scores fun _ _ => upsertDetectionEvent_scores.symm).symm

theorem record_events :
    (tables.record es).events = es.foldl (eventUpserts floats).upsert tables.events :=
  (List.foldl_hom Tables.events fun _ _ => upsertDetectionEvent_events.symm).symm

theorem mem_key_record : key ∈ (tables.record es).events.rows.map (·.key) ↔
    key ∈ tables.events.rows.map (·.key) ∨ ∃ e ∈ es, e.key = key := by
  rw [record_events, Upserts.rows_foldl_upsert]
  exact Upserts.mem_key_foldl (u := eventUpserts floats)

/-! The states of the jobs do not bear on what is recorded -/

def withState (tables : Tables floats) (state : Keyed jobStateUpserts.key) : Tables floats :=
  { tables with jobState := state }

variable {state : Keyed jobStateUpserts.key}

theorem upsertDetectionEvent_withState :
    (tables.withState state).upsertDetectionEvent e =
      (tables.upsertDetectionEvent e).withState state := by
  unfold upsertDetectionEvent enqueueWebhooks withState
  dsimp only
  split <;> rfl

theorem record_withState : (tables.withState state).record es = (tables.record es).withState state :=
  List.foldl_hom (withState · state) fun _ _ => upsertDetectionEvent_withState

/-- But for the states of the jobs, a run leaves its events recorded. -/
theorem after_eq_record (tables : Tables floats) (run : Run F) :
    ∃ state, tables.after run = (tables.record (Anomaly.events run)).withState state := by
  obtain ⟨done, failure⟩ := run
  show ∃ state, done.foldl perform tables =
    (tables.record (done.filterMap Step.event?)).withState state
  induction done generalizing tables with
  | nil => exact ⟨tables.jobState, rfl⟩
  | cons step done ih =>
    obtain ⟨state, hrest⟩ := ih (tables.perform step)
    refine ⟨state, hrest.trans ?_⟩
    cases step with
    | jobState jobId windowEnd =>
      show ((tables.withState _).record _).withState state = (tables.record _).withState state
      rw [record_withState]
      rfl
    | event | jobScanned | jobSkipped | windowScanned => rfl

structure Enqueued (tables : Tables floats) (key : EventKey) : Prop where
  found : ∃ row ∈ tables.events.rows, row.key = key
  enqueued : ∀ row ∈ tables.events.rows, row.key = key →
    ∀ endpoint ∈ tables.endpoints, endpoint.enabled = true →
      (endpoint.endpointId, row.eventId) ∈ tables.outbox.rows.map outboxUpserts.key

theorem mem_deliveries {row : EventRow F} {d : OutboxRow F} : d ∈ tables.deliveries row ↔
    ∃ endpoint ∈ tables.endpoints, endpoint.enabled = true ∧ ⟨endpoint.endpointId, row⟩ = d := by
  simp [deliveries, and_assoc]

theorem findBy_of_mem {row : EventRow F} (hrow : row ∈ tables.events.rows) (hkey : row.key = key) :
    findBy (·.key) key tables.events.rows = some row :=
  hkey ▸ tables.events.unique.findBy hrow

theorem enqueueWebhooks_enqueued (h : ∃ row ∈ tables.events.rows, row.key = key) :
    Enqueued (tables.enqueueWebhooks key) key := by
  refine ⟨by rwa [enqueueWebhooks_events], fun row hrow hkey endpoint hendpoint henabled => ?_⟩
  rw [enqueueWebhooks_events] at hrow
  rw [enqueueWebhooks_endpoints] at hendpoint
  rw [enqueueWebhooks, findBy_of_mem hrow hkey]
  dsimp only
  rw [Upserts.rows_foldl_upsert, Upserts.mem_key_foldl]
  exact .inr ⟨_, mem_deliveries.mpr ⟨endpoint, hendpoint, henabled, rfl⟩, rfl⟩

theorem outbox_key_mono {k : Nat × Nat} (h : k ∈ tables.outbox.rows.map outboxUpserts.key) :
    k ∈ (tables.enqueueWebhooks key).outbox.rows.map outboxUpserts.key := by
  unfold enqueueWebhooks
  split
  · exact h
  · rw [Upserts.rows_foldl_upsert]
    exact Upserts.mem_key_foldl.mpr (.inl h)

theorem enqueueWebhooks_outbox (h : Enqueued tables key) :
    (tables.enqueueWebhooks key).outbox = tables.outbox := by
  obtain ⟨row, hrow, hkey⟩ := h.found
  have hkeys : ∀ d ∈ tables.deliveries row,
      outboxUpserts.keyOf d ∈ tables.outbox.rows.map outboxUpserts.key := by
    intro d hd
    obtain ⟨endpoint, hendpoint, henabled, rfl⟩ := mem_deliveries.mp hd
    exact h.enqueued row hrow hkey endpoint hendpoint henabled
  rw [enqueueWebhooks, findBy_of_mem hrow hkey]
  ext1
  show ((tables.deliveries row).foldl outboxUpserts.upsert tables.outbox).rows = _
  rw [Upserts.rows_foldl_upsert, Upserts.foldl_of_mem hkeys]
  refine (List.map_congr_left fun r _ => ?_).trans (List.map_id _)
  exact List.foldl_fixed _

theorem upsertDetectionEvent_enqueued (h : Enqueued tables key ∨ e.key = key) :
    Enqueued (tables.upsertDetectionEvent e) key := by
  by_cases hkey : e.key = key
  · subst hkey
    refine enqueueWebhooks_enqueued ?_
    have hmem : e.key ∈ ((eventUpserts floats).upsertRows tables.events.rows e).map
        (eventUpserts floats).key := Upserts.mem_key_upsertRows.mpr (.inr rfl)
    exact List.mem_map.mp hmem
  · obtain ⟨⟨row, hrow, hrowkey⟩, henqueued⟩ := h.resolve_right hkey
    have hkept (row : EventRow F) (hrowkey : row.key = key) :
        row ∈ (tables.upsertDetectionEvent e).events.rows ↔ row ∈ tables.events.rows := by
      rw [upsertDetectionEvent_events]
      refine Upserts.mem_upsertRows_of_ne fun heq => hkey ?_
      exact heq.symm.trans hrowkey
    refine ⟨⟨row, (hkept row hrowkey).mpr hrow, hrowkey⟩, fun row hrow hrowkey endpoint hendpoint
      henabled => ?_⟩
    rw [upsertDetectionEvent_endpoints] at hendpoint
    exact outbox_key_mono (henqueued row ((hkept row hrowkey).mp hrow) hrowkey endpoint hendpoint
      henabled)

theorem upsertDetectionEvent_outbox (h : Enqueued tables e.key) :
    (tables.upsertDetectionEvent e).outbox = tables.outbox := by
  obtain ⟨⟨found, hfound, hkey⟩, henqueued⟩ := h
  have hrows : (eventUpserts floats).upsertRows tables.events.rows e = tables.events.rows.map
      fun row => if row.key = e.key then (eventUpserts floats).change e row else row :=
    Upserts.upsertRows_of_mem (List.mem_map.mpr ⟨found, hfound, hkey⟩)
  refine enqueueWebhooks_outbox ⟨⟨(eventUpserts floats).change e found, ?_, hkey⟩, fun row hrow
    hrowkey => ?_⟩
  · show _ ∈ (eventUpserts floats).upsertRows tables.events.rows e
    rw [hrows]
    exact List.mem_map.mpr ⟨found, hfound, if_pos hkey⟩
  · -- the row is one that was there, with the identifier that it had
    have hafter : row ∈ (eventUpserts floats).upsertRows tables.events.rows e := hrow
    rw [hrows] at hafter
    obtain ⟨before, hbefore, rfl⟩ := List.mem_map.mp hafter
    split
    · next hsame => exact henqueued before hbefore hsame
    · next hother =>
      rw [if_neg hother] at hrowkey
      exact absurd hrowkey hother

theorem record_enqueued (h : Enqueued tables key ∨ ∃ e ∈ es, e.key = key) :
    Enqueued (tables.record es) key := by
  induction es generalizing tables with
  | nil => simpa [record] using h
  | cons e es ih =>
    rw [record_cons]
    refine ih ?_
    rcases h with hbefore | ⟨e', he', hkey⟩
    · exact .inl (upsertDetectionEvent_enqueued (.inl hbefore))
    · rcases List.mem_cons.mp he' with rfl | hmem
      · exact .inl (upsertDetectionEvent_enqueued (.inr hkey))
      · exact .inr ⟨e', hmem, hkey⟩

theorem record_outbox (h : ∀ e ∈ es, Enqueued tables e.key) :
    (tables.record es).outbox = tables.outbox := by
  induction es generalizing tables with
  | nil => rfl
  | cons e es ih =>
    obtain ⟨he, hes⟩ := List.forall_mem_cons.mp h
    rw [record_cons,
      ih fun e' he' => upsertDetectionEvent_enqueued (.inl (hes e' he')),
      upsertDetectionEvent_outbox he]

/-- Detections that are recorded a second time change no score, no event and no delivery. -/
theorem record_record (h : StrictLt floats) (tables : Tables floats) (es : List (EventInsert F)) :
    ((tables.record es).record es).scores = (tables.record es).scores ∧
      ((tables.record es).record es).events = (tables.record es).events ∧
      ((tables.record es).record es).outbox = (tables.record es).outbox := by
  refine ⟨?_, ?_, record_outbox fun e he => record_enqueued (.inr ⟨e, he, rfl⟩)⟩
  · simp only [record_scores, scoreUpserts_absorbs.settles.foldl_upsert]
  · simp only [record_events, (eventUpserts_absorbs h).settles.foldl_upsert]

end Tables

end Aetus.Anomaly
