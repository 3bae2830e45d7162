import Aetus.Anomaly.Events
import Aetus.Base.Attempts

/-!
The tables that the webhook dispatcher reads and writes, and its SQL statements: the claim of
pending deliveries and what records a delivery. The url, secret and timeout of an endpoint and
the payload bear on no statement but the sending.
-/

set_option autoImplicit false

namespace Aetus.Anomaly
open Aetus.Base Aetus.Postgres

variable {F : Type}

inductive OutboxStatus where
  | pending
  | retry
  | delivered
  | deadLetter
  deriving DecidableEq

def OutboxStatus.standing : OutboxStatus → Standing
  | .pending => .untried
  | .retry => .failed
  | .delivered => .succeeded
  | .deadLetter => .exhausted

/-- `status IN ('pending', 'retry')` -/
def OutboxStatus.isOpen (status : OutboxStatus) : Bool := status = .pending ∨ status = .retry

theorem OutboxStatus.isOpen_standing (status : OutboxStatus) :
    status.standing.isOpen = status.isOpen := by
  cases status <;> rfl

/-- A row of webhook_outbox with the columns that a delivery changes. The count stays below
`max_attempts` while the row is open, so that it does not leave an INTEGER. -/
structure OutboxEntry (F : Type) where
  outboxId : Nat
  row : OutboxRow F
  status : OutboxStatus
  attemptCount : Int
  nextAttemptAt : Timestamptz
  lastAttemptAt : Option Timestamptz
  lastError : Option (List Char)

structure EndpointRow where
  endpoint : WebhookEndpoint
  endpointKey : List Char
  maxAttempts : Int32

def EndpointRow.endpointId (e : EndpointRow) : Nat := e.endpoint.endpointId

structure WebhookDelivery where
  outboxId : Nat
  endpointId : Nat
  eventId : Nat
  attemptNumber : Int
  statusCode : Option Nat
  success : Bool
  error : Option (List Char)

structure WebhookTables (F : Type) where
  endpoints : Keyed EndpointRow.endpointId
  outbox : Keyed (OutboxEntry.outboxId (F := F))
  deliveries : List WebhookDelivery

structure WebhookEndpointRequest where
  endpointKey : List Char
  enabled : Bool
  maxAttempts : Option Int32

structure PendingDelivery where
  outboxId : Nat
  endpointId : Nat
  eventId : Nat
  attemptCount : Int
  maxAttempts : Int32
  deriving DecidableEq

/-- What comes of a POST: a status and how it is shown, or the error of the client. -/
inductive SendResult where
  | response (status : Nat) (shown : List Char)
  | error (text : List Char)
  deriving DecidableEq

def SendResult.isSuccess : SendResult → Bool
  | .response status _ => 200 ≤ status ∧ status < 300
  | .error _ => false

def SendResult.statusCode : SendResult → Option Nat
  | .response status _ => some status
  | .error _ => none

def SendResult.errorText : SendResult → List Char
  | .response _ shown => "webhook returned ".toList ++ shown
  | .error text => text

def nextBackoffSeconds (attemptCount : Int) : Int :=
  min (2 ^ (max 0 (min attemptCount 8)).toNat) 300

namespace WebhookTables

variable (db : WebhookTables F) (now : Timestamptz)

/-- `ON CONFLICT (endpoint_key) DO UPDATE` -/
def createWebhookEndpoint (request : WebhookEndpointRequest) : WebhookTables F :=
  let maxAttempts := request.maxAttempts.getD 8
  if (findBy (·.endpointKey) request.endpointKey db.endpoints.rows).isSome then
    { db with
      endpoints := db.endpoints.update (·.endpointKey) request.endpointKey
        (fun e => { e with endpoint := { e.endpoint with enabled := request.enabled }, maxAttempts })
        fun _ => rfl }
  else
    { db with
      endpoints := db.endpoints.push
        { endpoint := ⟨serial EndpointRow.endpointId db.endpoints.rows, request.enabled⟩
          endpointKey := request.endpointKey
          maxAttempts }
        findBy_serial }

def enqueue (row : OutboxRow F) : Option (WebhookTables F) :=
  if (findBy EndpointRow.endpointId row.endpointId db.endpoints.rows).isNone then none
  else if (findBy (fun e : OutboxEntry F => outboxUpserts.key e.row) (outboxUpserts.key row)
      db.outbox.rows).isSome then some db
  else some { db with
    outbox := db.outbox.push
      { outboxId := serial OutboxEntry.outboxId db.outbox.rows
        row
        status := .pending
        attemptCount := 0
        nextAttemptAt := now
        lastAttemptAt := none
        lastError := none }
      findBy_serial }

/-- `JOIN webhook_endpoints e ... AND e.enabled = TRUE` -/
def pendingDelivery (entry : OutboxEntry F) : Option PendingDelivery :=
  (findBy EndpointRow.endpointId entry.row.endpointId db.endpoints.rows).bind fun e =>
    if e.endpoint.enabled then some {
      outboxId := entry.outboxId
      endpointId := entry.row.endpointId
      eventId := entry.row.payload.eventId
      attemptCount := entry.attemptCount
      maxAttempts := e.maxAttempts }
    else none

/-- None for a negative LIMIT, which the server refuses. -/
def claimPendingDeliveries (limit : Int) : Option (List PendingDelivery) :=
  if limit < 0 then none
  else
    let due := db.outbox.rows.filter fun entry => entry.status.isOpen ∧ entry.nextAttemptAt ≤ now
    let ordered := due.insertionSort fun a b => a.nextAttemptAt < b.nextAttemptAt ∨
      a.nextAttemptAt = b.nextAttemptAt ∧ a.outboxId ≤ b.outboxId
    some ((ordered.filterMap db.pendingDelivery).take limit.toNat)

def insertDelivery (delivery : PendingDelivery) (result : SendResult) : WebhookTables F :=
  { db with
    deliveries := db.deliveries ++ [{
      outboxId := delivery.outboxId
      endpointId := delivery.endpointId
      eventId := delivery.eventId
      attemptNumber := delivery.attemptCount + 1
      statusCode := result.statusCode
      success := result.isSuccess
      error := if result.isSuccess then none else some result.errorText }] }

/-- The UPDATE of record_delivery_success. -/
def markDelivered (entry : OutboxEntry F) : OutboxEntry F :=
  { entry with
    status := .delivered
    attemptCount := entry.attemptCount + 1
    lastAttemptAt := some now }

/-- The UPDATE of record_delivery_failure. -/
def markFailed (delivery : PendingDelivery) (error : List Char) (entry : OutboxEntry F) :
    OutboxEntry F :=
  { entry with
    status :=
      if delivery.maxAttempts.toInt ≤ delivery.attemptCount + 1 then .deadLetter else .retry
    attemptCount := entry.attemptCount + 1
    lastAttemptAt := some now
    nextAttemptAt := now + nextBackoffSeconds delivery.attemptCount * 1000000
    lastError := some error }

def mark (delivery : PendingDelivery) (result : SendResult) (entry : OutboxEntry F) :
    OutboxEntry F :=
  if result.isSuccess then markDelivered now entry
  else markFailed now delivery result.errorText entry

def updateOutbox (delivery : PendingDelivery) (result : SendResult) : WebhookTables F :=
  { db with
    outbox := db.outbox.update OutboxEntry.outboxId delivery.outboxId (mark now delivery result)
      fun entry => by
        unfold mark
        split <;> rfl }

/-! What the statements do -/

variable {db now} {db' : WebhookTables F} {row : OutboxRow F} {entry : OutboxEntry F}
  {delivery : PendingDelivery} {result : SendResult} {limit : Int} {claimed : List PendingDelivery}

theorem pendingDelivery_eq_some (h : db.pendingDelivery entry = some delivery) :
    ∃ e ∈ db.endpoints.rows, e.endpointId = entry.row.endpointId ∧
      delivery.outboxId = entry.outboxId ∧ delivery.attemptCount = entry.attemptCount ∧
      delivery.maxAttempts = e.maxAttempts := by
  simp only [pendingDelivery, Option.bind_eq_some_iff] at h
  obtain ⟨e, hfind, h⟩ := h
  obtain ⟨hmem, hid⟩ := mem_of_findBy hfind
  split at h
  · cases h
    exact ⟨e, hmem, hid, rfl, rfl, rfl⟩
  · cases h

theorem mem_claimPendingDeliveries (h : db.claimPendingDeliveries now limit = some claimed)
    (hd : delivery ∈ claimed) : ∃ entry ∈ db.outbox.rows, entry.status.isOpen = true ∧
      entry.nextAttemptAt ≤ now ∧ db.pendingDelivery entry = some delivery := by
  unfold claimPendingDeliveries at h
  split at h
  · cases h
  · cases h
    obtain ⟨entry, hentry, hpending⟩ := List.mem_filterMap.mp (List.mem_of_mem_take hd)
    rw [List.mem_insertionSort, List.mem_filter] at hentry
    obtain ⟨hmem, hdue⟩ := hentry
    have ⟨hopen, htime⟩ := of_decide_eq_true hdue
    exact ⟨entry, hmem, hopen, htime, hpending⟩

variable (db) in
theorem map_outboxId_pendingDelivery (entries : List (OutboxEntry F)) :
    ((entries.filterMap db.pendingDelivery).map (·.outboxId)).Sublist
      (entries.map (·.outboxId)) := by
  induction entries with
  | nil => simp
  | cons entry entries ih =>
    cases hpending : db.pendingDelivery entry with
    | none =>
      rw [List.filterMap_cons_none hpending]
      exact ih.cons _
    | some delivery =>
      obtain ⟨_, _, _, hid, _, _⟩ := pendingDelivery_eq_some hpending
      rw [List.filterMap_cons_some hpending, List.map_cons, List.map_cons, hid]
      exact ih.cons_cons _

theorem claimPendingDeliveries_nodup (h : db.claimPendingDeliveries now limit = some claimed) :
    (claimed.map (·.outboxId)).Nodup := by
  unfold claimPendingDeliveries at h
  split at h
  · cases h
  · cases h
    have hdue := (db.outbox.unique).sublist (List.filter_sublist
      (p := fun entry => decide (entry.status.isOpen ∧ entry.nextAttemptAt ≤ now)) |>.map _)
    have hordered := ((List.perm_insertionSort (fun a b : OutboxEntry F =>
      a.nextAttemptAt < b.nextAttemptAt ∨ a.nextAttemptAt = b.nextAttemptAt ∧
        a.outboxId ≤ b.outboxId) _).map OutboxEntry.outboxId).nodup_iff.mpr hdue
    have hjoined := hordered.sublist (map_outboxId_pendingDelivery db _)
    exact hjoined.sublist ((List.take_sublist _ _).map _)

theorem enqueue_cases (h : db.enqueue now row = some db') :
    (∃ e ∈ db.endpoints.rows, e.endpointId = row.endpointId) ∧
      db'.endpoints = db.endpoints ∧ db'.deliveries = db.deliveries ∧
      (db'.outbox = db.outbox ∨ db'.outbox.rows = db.outbox.rows ++
        [⟨serial OutboxEntry.outboxId db.outbox.rows, row, .pending, 0, now, none, none⟩]) := by
  unfold enqueue at h
  split at h
  · cases h
  · next hsome =>
    obtain ⟨e, hfind⟩ := Option.ne_none_iff_exists'.mp (by simpa using hsome)
    refine ⟨⟨e, mem_of_findBy hfind⟩, ?_⟩
    split at h
    · cases h
      exact ⟨rfl, rfl, .inl rfl⟩
    · cases h
      exact ⟨rfl, rfl, .inr rfl⟩

theorem enqueue_rows (h : db.enqueue now row = some db') :
    db'.outbox.rows.map (·.row) = outboxUpserts.upsertRows (db.outbox.rows.map (·.row)) row := by
  have hfind : (findBy outboxUpserts.key (outboxUpserts.key row)
      (db.outbox.rows.map (·.row))).isSome =
      (findBy (fun e : OutboxEntry F => outboxUpserts.key e.row) (outboxUpserts.key row)
        db.outbox.rows).isSome := by
    rw [findBy, List.find?_map, Option.isSome_map]
    rfl
  have hkeyOf : outboxUpserts.keyOf row = outboxUpserts.key row := rfl
  unfold enqueue at h
  rw [Upserts.upsertRows, hkeyOf, hfind]
  split at h
  · cases h
  · split at h
    · next hthere =>
      cases h
      rw [if_pos hthere, updateBy]
      simp [outboxUpserts]
    · next hnew =>
      cases h
      rw [if_neg hnew]
      simp [outboxUpserts, Keyed.push]

theorem createWebhookEndpoint_outbox (request : WebhookEndpointRequest) :
    (db.createWebhookEndpoint request).outbox = db.outbox ∧
      (db.createWebhookEndpoint request).deliveries = db.deliveries := by
  unfold createWebhookEndpoint
  dsimp only
  split <;> exact ⟨rfl, rfl⟩

/-- An endpoint of the request's key takes on its limit, the others keep theirs; a new one has a
number of its own. -/
theorem mem_createWebhookEndpoint {request : WebhookEndpointRequest} {e' : EndpointRow}
    (h : e' ∈ (db.createWebhookEndpoint request).endpoints.rows) :
    (∃ e ∈ db.endpoints.rows, e.endpointId = e'.endpointId ∧ (e'.maxAttempts = e.maxAttempts ∨
      e.endpointKey = request.endpointKey ∧ e'.maxAttempts = request.maxAttempts.getD 8)) ∨
      ∀ e ∈ db.endpoints.rows, e.endpointId ≠ e'.endpointId := by
  unfold createWebhookEndpoint at h
  dsimp only at h
  split at h
  · obtain ⟨e, he, rfl⟩ := List.mem_map.mp h
    left
    refine ⟨e, he, ?_⟩
    split
    · next hkey => exact ⟨rfl, .inr ⟨hkey, rfl⟩⟩
    · exact ⟨rfl, .inl rfl⟩
  · rcases List.mem_append.mp h with hold | hnew
    · exact .inl ⟨e', hold, rfl, .inl rfl⟩
    · obtain rfl := List.mem_singleton.mp hnew
      exact .inr fun e he => Nat.ne_of_lt (lt_serial he)

theorem exists_createWebhookEndpoint (request : WebhookEndpointRequest) {e : EndpointRow}
    (h : e ∈ db.endpoints.rows) : ∃ e' ∈ (db.createWebhookEndpoint request).endpoints.rows,
      e'.endpointId = e.endpointId := by
  unfold createWebhookEndpoint
  dsimp only
  split
  · refine ⟨_, List.mem_map_of_mem h, ?_⟩
    split <;> rfl
  · exact ⟨e, List.mem_append_left _ h, rfl⟩

theorem mark_outboxId : (mark now delivery result entry).outboxId = entry.outboxId := by
  unfold mark
  split <;> rfl

theorem mark_row : (mark now delivery result entry).row = entry.row := by
  unfold mark
  split <;> rfl

theorem mark_attemptCount :
    (mark now delivery result entry).attemptCount = entry.attemptCount + 1 := by
  unfold mark
  split <;> rfl

theorem of_mem_updateOutbox (h : entry ∈ (db.updateOutbox now delivery result).outbox.rows) :
    ∃ before ∈ db.outbox.rows, before.outboxId = entry.outboxId ∧
      entry = if before.outboxId = delivery.outboxId then mark now delivery result before
        else before := by
  obtain ⟨before, hbefore, heq⟩ := List.mem_map.mp h
  refine ⟨before, hbefore, ?_, heq.symm⟩
  rw [← heq]
  split
  · exact mark_outboxId.symm
  · rfl

theorem mem_updateOutbox_of_ne (h : entry.outboxId ≠ delivery.outboxId) :
    entry ∈ (db.updateOutbox now delivery result).outbox.rows ↔ entry ∈ db.outbox.rows :=
  mem_updateBy_of_ne (fun _ => mark_outboxId) h

theorem mem_updateOutbox (hentry : entry ∈ db.outbox.rows)
    (h : entry.outboxId = delivery.outboxId) : mark now delivery result entry ∈
      (db.updateOutbox now delivery result).outbox.rows := by
  have hmem : mark now delivery result entry ∈ updateBy OutboxEntry.outboxId entry.outboxId
      (mark now delivery result) db.outbox.rows := mem_updateBy_of_mem hentry
  rwa [h] at hmem

end WebhookTables

end Aetus.Anomaly
