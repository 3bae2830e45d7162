import Aetus.Anomaly.Rerun

/-!
A detection that stops between two of the statements that record it, and what later runs make of
it: the event that is left without its deliveries.
-/

set_option autoImplicit false

namespace Aetus.Anomaly
open Aetus.Base Aetus.Postgres

variable {F : Type} {floats : Floats F}

deriving instance DecidableEq for WindowAnchorConfig
deriving instance DecidableEq for EventDetails
deriving instance DecidableEq for EventInsert
deriving instance DecidableEq for Step

inductive Change (F : Type) where
  | detected (run : Run F)
  | endpoints (endpoints : List WebhookEndpoint)

def Change.Records (key : EventKey) : Change F → Prop
  | .detected run => ∃ e ∈ events run, e.key = key
  | .endpoints _ => False

def Throughout (endpoints : List WebhookEndpoint) (changes : List (Change F)) (endpointId : Nat) :
    Prop :=
  ⟨endpointId, true⟩ ∈ endpoints ∧ ∀ later, .endpoints later ∈ changes → ⟨endpointId, true⟩ ∈ later

namespace Tables

def fresh (floats : Floats F) (endpoints : List WebhookEndpoint) : Tables floats :=
  ⟨.empty _, .empty _, .empty _, .empty _, endpoints⟩

def apply (tables : Tables floats) : Change F → Tables floats
  | .detected run => tables.after run
  | .endpoints endpoints => { tables with endpoints }

def history (tables : Tables floats) (changes : List (Change F)) : Tables floats :=
  changes.foldl apply tables

/-- The two upserts of upsert_detection_event. -/
def recordEvent (tables : Tables floats) (e : EventInsert F) : Tables floats :=
  { tables with
    scores := scoreUpserts.upsert tables.scores e
    events := (eventUpserts floats).upsert tables.events e }

def enqueueFirst (tables : Tables floats) (key : EventKey) (count : Nat) : Tables floats :=
  match findBy (·.key) key tables.events.rows with
  | none => tables
  | some row => { tables with
      outbox := ((tables.deliveries row).take count).foldl outboxUpserts.upsert tables.outbox }

/-- The tables behind `n` statements of upsert_detection_event: the two upserts, the SELECT of
enqueue_webhooks and the INSERTs for its rows. -/
def upsertCutOff (tables : Tables floats) (e : EventInsert F) (n : Nat) : Tables floats :=
  if n = 0 then tables
  else if n = 1 then { tables with scores := scoreUpserts.upsert tables.scores e }
  else (tables.recordEvent e).enqueueFirst e.key (n - 3)

def insertedFor (tables : Tables floats) (n : Nat) : List Nat :=
  ((tables.endpoints.filter (·.enabled)).take (n - 3)).map (·.endpointId)

def Delivered (tables : Tables floats) (endpointId : Nat) (key : EventKey) : Prop :=
  ∀ row ∈ tables.events.rows, row.key = key →
    (endpointId, row.eventId) ∈ tables.outbox.rows.map outboxUpserts.key

def Complete (tables : Tables floats) (endpointId : Nat) : Prop :=
  ∀ row ∈ tables.events.rows,
    (endpointId, row.eventId) ∈ tables.outbox.rows.map outboxUpserts.key

/-- `event_id UUID PRIMARY KEY`, and the reference to it. -/
structure Linked (tables : Tables floats) : Prop where
  eventIds : UniqueBy (·.eventId) tables.events.rows
  references : ∀ k ∈ tables.outbox.rows.map outboxUpserts.key,
    ∃ row ∈ tables.events.rows, row.eventId = k.2

variable {tables : Tables floats} {e : EventInsert F} {es : List (EventInsert F)} {key : EventKey}
  {endpointId n : Nat}

theorem complete_iff : tables.Complete endpointId ↔ ∀ key, tables.Delivered endpointId key :=
  ⟨fun h _ row hrow _ => h row hrow, fun h row hrow => h row.key row hrow rfl⟩

theorem linked_fresh (endpoints : List WebhookEndpoint) : (fresh floats endpoints).Linked where
  eventIds := .nil _
  references := fun _ h => by cases h

theorem upsertCutOff_all (h : 3 + (tables.endpoints.filter (·.enabled)).length ≤ n) :
    tables.upsertCutOff e n = tables.upsertDetectionEvent e := by
  rw [upsertCutOff, if_neg (by omega), if_neg (by omega)]
  show _ = (tables.recordEvent e).enqueueWebhooks e.key
  unfold enqueueFirst enqueueWebhooks
  cases findBy (·.key) e.key (tables.recordEvent e).events.rows with
  | none => rfl
  | some row =>
    have hall : ((tables.recordEvent e).deliveries row).length ≤ n - 3 := by
      rw [deliveries, List.length_map]
      exact Nat.le_sub_of_add_le' h
    dsimp only
    rw [List.take_of_length_le hall]

/-! The rows of the events, by their identifiers -/

/-- A row is one that was there, with the identifier that it had, or it is new. -/
theorem mem_recordEvent {row : EventRow F} (h : row ∈ (tables.recordEvent e).events.rows) :
    (∃ before ∈ tables.events.rows, before.key = row.key ∧ before.eventId = row.eventId) ∨
      row.key = e.key ∧ (∀ before ∈ tables.events.rows, before.key ≠ e.key) ∧
        ∀ before ∈ tables.events.rows, before.eventId < row.eventId := by
  have hrow : row ∈ (eventUpserts floats).upsertRows tables.events.rows e := h
  unfold Upserts.upsertRows at hrow
  split at hrow
  · obtain ⟨before, hbefore, rfl⟩ := List.mem_map.mp hrow
    refine .inl ⟨before, hbefore, ?_⟩
    split <;> exact ⟨rfl, rfl⟩
  · next hnone =>
    rcases List.mem_append.mp hrow with hold | hnew
    · exact .inl ⟨row, hold, rfl, rfl⟩
    · obtain rfl := List.mem_singleton.mp hnew
      have hothers := findBy_eq_none.mp (Option.not_isSome_iff_eq_none.mp hnone)
      exact .inr ⟨rfl, hothers, fun before hbefore =>
        (lt_serial hbefore : before.eventId < serial EventRow.eventId _)⟩

theorem exists_recordEvent {before : EventRow F} (h : before ∈ tables.events.rows) :
    ∃ row ∈ (tables.recordEvent e).events.rows,
      row.key = before.key ∧ row.eventId = before.eventId := by
  show ∃ row ∈ (eventUpserts floats).upsertRows tables.events.rows e, _
  unfold Upserts.upsertRows
  split
  · refine ⟨_, List.mem_map_of_mem h, ?_⟩
    split <;> exact ⟨rfl, rfl⟩
  · exact ⟨before, List.mem_append_left _ h, rfl, rfl⟩

theorem exists_recorded : ∃ row ∈ (tables.recordEvent e).events.rows, row.key = e.key := by
  have hmem : e.key ∈ ((eventUpserts floats).upsertRows tables.events.rows e).map
      (eventUpserts floats).key := Upserts.mem_key_upsertRows.mpr (.inr rfl)
  exact List.mem_map.mp hmem

theorem eventIds_recordEvent (h : tables.Linked) :
    UniqueBy (·.eventId) (tables.recordEvent e).events.rows := by
  show UniqueBy (·.eventId) ((eventUpserts floats).upsertRows tables.events.rows e)
  unfold Upserts.upsertRows
  split
  · exact h.eventIds.updateBy fun _ => rfl
  · have hfresh : findBy EventRow.eventId (serial EventRow.eventId tables.events.rows)
        tables.events.rows = none := findBy_serial
    exact h.eventIds.append_row hfresh

theorem Linked.recordEvent (h : tables.Linked) : (tables.recordEvent e).Linked where
  eventIds := eventIds_recordEvent h
  references := fun k hk => by
    obtain ⟨before, hbefore, hid⟩ := h.references k hk
    obtain ⟨row, hrow, -, hsame⟩ := exists_recordEvent (e := e) hbefore
    exact ⟨row, hrow, hsame.trans hid⟩

theorem delivered_recordEvent (h : tables.Linked) : (tables.recordEvent e).Delivered endpointId key ↔
    tables.Delivered endpointId key ∧ (key ≠ e.key ∨ key ∈ tables.events.rows.map (·.key)) := by
  constructor
  · intro hdelivered
    constructor
    · intro before hbefore hkey
      obtain ⟨row, hrow, hrowKey, hid⟩ := exists_recordEvent (e := e) hbefore
      exact hid ▸ hdelivered row hrow (hrowKey.trans hkey)
    · by_contra hnew
      simp only [not_or, not_not] at hnew
      obtain ⟨rfl, hnew⟩ := hnew
      obtain ⟨row, hrow, hkey⟩ : ∃ row ∈ (tables.recordEvent e).events.rows, row.key = e.key :=
        exists_recorded
      rcases mem_recordEvent hrow with ⟨before, hbefore, hsame, -⟩ | ⟨-, -, hlt⟩
      · exact hnew (List.mem_map.mpr ⟨before, hbefore, hsame.trans hkey⟩)
      · obtain ⟨before, hbefore, hid⟩ := h.references _ (hdelivered row hrow hkey)
        exact (hlt before hbefore).ne hid
  · intro ⟨hdelivered, hkind⟩ row hrow hkey
    rcases mem_recordEvent hrow with ⟨before, hbefore, hsame, hid⟩ | ⟨hrowKey, hothers, -⟩
    · exact hid ▸ hdelivered before hbefore (hsame.trans hkey)
    · rcases hkind with hne | hmem
      · exact absurd (hkey.symm.trans hrowKey) hne
      · obtain ⟨before, hbefore, hsame⟩ := List.mem_map.mp hmem
        exact absurd (hsame.trans (hkey.symm.trans hrowKey)) (hothers before hbefore)

/-! The rows of the outbox -/

theorem enqueueFirst_events {count : Nat} :
    (tables.enqueueFirst key count).events = tables.events := by
  unfold enqueueFirst
  split <;> rfl

theorem enqueueFirst_endpoints {count : Nat} :
    (tables.enqueueFirst key count).endpoints = tables.endpoints := by
  unfold enqueueFirst
  split <;> rfl

theorem mem_key_enqueueFirst {count : Nat} {row : EventRow F} (hrow : row ∈ tables.events.rows)
    (hkey : row.key = key) {k : Nat × Nat} :
    k ∈ (tables.enqueueFirst key count).outbox.rows.map outboxUpserts.key ↔
      k ∈ tables.outbox.rows.map outboxUpserts.key ∨ k.2 = row.eventId ∧
        k.1 ∈ ((tables.endpoints.filter (·.enabled)).take count).map (·.endpointId) := by
  rw [enqueueFirst, findBy_of_mem hrow hkey]
  dsimp only
  rw [Upserts.rows_foldl_upsert, Upserts.mem_key_foldl, deliveries, ← List.map_take]
  refine or_congr_right ?_
  constructor
  · rintro ⟨d, hd, hk⟩
    obtain ⟨endpoint, hendpoint, rfl⟩ := List.mem_map.mp hd
    subst hk
    exact ⟨rfl, List.mem_map_of_mem hendpoint⟩
  · rintro ⟨hid, hmem⟩
    obtain ⟨endpoint, hendpoint, hendpointId⟩ := List.mem_map.mp hmem
    exact ⟨_, List.mem_map_of_mem hendpoint, Prod.ext hendpointId hid.symm⟩

theorem Linked.enqueueFirst {count : Nat} (h : tables.Linked)
    (hfound : ∃ row ∈ tables.events.rows, row.key = key) :
    (tables.enqueueFirst key count).Linked := by
  obtain ⟨row, hrow, hkey⟩ := hfound
  refine ⟨by rw [enqueueFirst_events]; exact h.eventIds, fun k hk => ?_⟩
  rw [enqueueFirst_events]
  rcases (mem_key_enqueueFirst hrow hkey).mp hk with hold | ⟨hid, -⟩
  · exact h.references k hold
  · exact ⟨row, hrow, hid.symm⟩

theorem delivered_enqueueFirst {count : Nat} {newKey : EventKey} (h : tables.Linked)
    (hfound : ∃ row ∈ tables.events.rows, row.key = newKey) :
    (tables.enqueueFirst newKey count).Delivered endpointId key ↔
      tables.Delivered endpointId key ∨ key = newKey ∧
        endpointId ∈ ((tables.endpoints.filter (·.enabled)).take count).map (·.endpointId) := by
  obtain ⟨found, hfoundRow, hfoundKey⟩ := hfound
  unfold Delivered
  rw [enqueueFirst_events]
  simp only [mem_key_enqueueFirst hfoundRow hfoundKey]
  constructor
  · intro hdelivered
    by_cases hkey : key = newKey
    · rcases hdelivered found hfoundRow (hfoundKey.trans hkey.symm) with hold | ⟨-, hmem⟩
      · left
        intro row hrow hrowKey
        obtain rfl := tables.events.unique.eq hrow hfoundRow
          (hrowKey.trans (hkey.trans hfoundKey.symm))
        exact hold
      · exact .inr ⟨hkey, hmem⟩
    · left
      intro row hrow hrowKey
      refine (hdelivered row hrow hrowKey).resolve_right fun ⟨hid, _⟩ => hkey ?_
      obtain rfl := h.eventIds.eq hrow hfoundRow hid
      exact hrowKey.symm.trans hfoundKey
  · intro hdelivered row hrow hrowKey
    rcases hdelivered with hold | ⟨hkey, hmem⟩
    · exact .inl (hold row hrow hrowKey)
    · obtain rfl := tables.events.unique.eq hrow hfoundRow
        (hrowKey.trans (hkey.trans hfoundKey.symm))
      exact .inr ⟨rfl, hmem⟩

/-! What a detection leaves behind -/

theorem Linked.upsertCutOff (h : tables.Linked) : (tables.upsertCutOff e n).Linked := by
  unfold Tables.upsertCutOff
  split
  · exact h
  · split
    · exact ⟨h.eventIds, h.references⟩
    · exact h.recordEvent.enqueueFirst exists_recorded

theorem delivered_upsertCutOff (h : tables.Linked) :
    (tables.upsertCutOff e n).Delivered endpointId key ↔
      tables.Delivered endpointId key ∧
          (n < 2 ∨ key ≠ e.key ∨ key ∈ tables.events.rows.map (·.key)) ∨
        2 ≤ n ∧ key = e.key ∧ endpointId ∈ tables.insertedFor n := by
  unfold upsertCutOff
  split
  · next hn => simp [hn]
  · split
    · next hn =>
      subst hn
      simp [Delivered]
    · have hn : 2 ≤ n := by omega
      have hlt : ¬n < 2 := by omega
      rw [delivered_enqueueFirst h.recordEvent exists_recorded, delivered_recordEvent h]
      simp only [hn, hlt, true_and, false_or]
      rfl

theorem mem_insertedFor_all (h : ⟨endpointId, true⟩ ∈ tables.endpoints) :
    endpointId ∈ tables.insertedFor (3 + (tables.endpoints.filter (·.enabled)).length) := by
  rw [insertedFor, Nat.add_sub_cancel_left, List.take_length, List.mem_map]
  exact ⟨_, List.mem_filter.mpr ⟨h, rfl⟩, rfl⟩

theorem Linked.upsertDetectionEvent (h : tables.Linked) :
    (tables.upsertDetectionEvent e).Linked := by
  rw [← upsertCutOff_all (le_refl _)]
  exact h.upsertCutOff

theorem delivered_upsertDetectionEvent (h : tables.Linked)
    (henabled : ⟨endpointId, true⟩ ∈ tables.endpoints) :
    (tables.upsertDetectionEvent e).Delivered endpointId key ↔
      tables.Delivered endpointId key ∨ e.key = key := by
  have hn : 2 ≤ 3 + (tables.endpoints.filter (·.enabled)).length := by omega
  rw [← upsertCutOff_all (le_refl _), delivered_upsertCutOff h]
  by_cases hkey : key = e.key
  · simp [hkey, hn, mem_insertedFor_all henabled]
  · simp [hkey, Ne.symm hkey]

theorem record_endpoints : (tables.record es).endpoints = tables.endpoints := by
  induction es generalizing tables with
  | nil => rfl
  | cons e es ih => rw [record_cons, ih, upsertDetectionEvent_endpoints]

theorem Linked.record (h : tables.Linked) : (tables.record es).Linked := by
  induction es generalizing tables with
  | nil => exact h
  | cons e es ih => exact ih h.upsertDetectionEvent

theorem delivered_record (h : tables.Linked) (henabled : ⟨endpointId, true⟩ ∈ tables.endpoints) :
    (tables.record es).Delivered endpointId key ↔
      tables.Delivered endpointId key ∨ ∃ e ∈ es, e.key = key := by
  induction es generalizing tables with
  | nil => simp [record]
  | cons e es ih =>
    have hstill : ⟨endpointId, true⟩ ∈ (tables.upsertDetectionEvent e).endpoints := by
      rw [upsertDetectionEvent_endpoints]
      exact henabled
    rw [record_cons, ih h.upsertDetectionEvent hstill,
      delivered_upsertDetectionEvent h henabled, or_assoc]
    simp

/-! Runs and changes of the endpoints -/

theorem after_endpoints (run : Run F) : (tables.after run).endpoints = tables.endpoints := by
  obtain ⟨state, hafter⟩ := after_eq_record tables run
  rw [hafter]
  exact record_endpoints

theorem Linked.after (h : tables.Linked) (run : Run F) : (tables.after run).Linked := by
  obtain ⟨state, hafter⟩ := after_eq_record tables run
  have hrecord : (tables.record (Anomaly.events run)).Linked := h.record
  rw [hafter]
  exact ⟨hrecord.eventIds, hrecord.references⟩

theorem Linked.apply (h : tables.Linked) (change : Change F) : (tables.apply change).Linked := by
  cases change with
  | detected run => exact h.after run
  | endpoints endpoints => exact ⟨h.eventIds, h.references⟩

theorem Linked.history {changes : List (Change F)} (h : tables.Linked) :
    (tables.history changes).Linked := by
  induction changes generalizing tables with
  | nil => exact h
  | cons change changes ih => exact ih (h.apply change)

theorem delivered_apply {change : Change F} (h : tables.Linked)
    (henabled : ⟨endpointId, true⟩ ∈ tables.endpoints) :
    (tables.apply change).Delivered endpointId key ↔
      tables.Delivered endpointId key ∨ change.Records key := by
  cases change with
  | detected run =>
    obtain ⟨state, hafter⟩ := after_eq_record tables run
    show (tables.after run).Delivered endpointId key ↔ _
    rw [hafter]
    exact delivered_record h henabled
  | endpoints endpoints => exact (or_false _).symm.to_iff

theorem throughout_cons {change : Change F} {changes : List (Change F)}
    (h : Throughout tables.endpoints (change :: changes) endpointId) :
    Throughout (tables.apply change).endpoints changes endpointId := by
  refine ⟨?_, fun later hlater => h.2 later (List.mem_cons_of_mem _ hlater)⟩
  cases change with
  | detected run =>
    show _ ∈ (tables.after run).endpoints
    rw [after_endpoints]
    exact h.1
  | endpoints endpoints => exact h.2 endpoints List.mem_cons_self

theorem throughout_history {before after : List (Change F)}
    (h : Throughout tables.endpoints (before ++ after) endpointId) :
    Throughout (tables.history before).endpoints after endpointId := by
  induction before generalizing tables with
  | nil => exact h
  | cons change before ih => exact ih (throughout_cons h)

theorem delivered_history {changes : List (Change F)} (h : tables.Linked)
    (henabled : Throughout tables.endpoints changes endpointId) :
    (tables.history changes).Delivered endpointId key ↔
      tables.Delivered endpointId key ∨ ∃ change ∈ changes, change.Records key := by
  induction changes generalizing tables with
  | nil => simp [history]
  | cons change changes ih =>
    show ((tables.apply change).history changes).Delivered endpointId key ↔ _
    rw [ih (h.apply change) (throughout_cons henabled), delivered_apply h henabled.1, or_assoc]
    simp

theorem complete_history_fresh {endpoints : List WebhookEndpoint} {changes : List (Change F)}
    (henabled : Throughout endpoints changes endpointId) :
    ((fresh floats endpoints).history changes).Complete endpointId := by
  rw [complete_iff]
  intro key
  refine (delivered_history (linked_fresh endpoints) henabled).mpr (.inl ?_)
  intro row hrow
  cases hrow

def reached (floats : Floats F) (endpoints : List WebhookEndpoint) (before : List (Change F))
    (done : List (Step F)) : Tables floats :=
  ((fresh floats endpoints).history before).after ⟨done, none⟩

section
variable {endpoints : List WebhookEndpoint} {before after : List (Change F)} {done : List (Step F)}

theorem reached_eq_history : reached floats endpoints before done =
    (fresh floats endpoints).history (before ++ [.detected ⟨done, none⟩]) := by
  simp [reached, history, apply]

theorem upsertCutOff_endpoints : (tables.upsertCutOff e n).endpoints = tables.endpoints := by
  unfold upsertCutOff
  split
  · rfl
  · split
    · rfl
    · exact enqueueFirst_endpoints

theorem complete_cutOff (henabled : Throughout endpoints (before ++ after) endpointId) :
    (((reached floats endpoints before done).upsertCutOff e n).history after).Complete endpointId ↔
      n < 2 ∨ e.key ∈ (reached floats endpoints before done).events.rows.map (·.key) ∨
        (∃ change ∈ after, change.Records e.key) ∨
          endpointId ∈ (reached floats endpoints before done).insertedFor n := by
  have hfirst : Throughout endpoints (before ++ [.detected ⟨done, none⟩]) endpointId := by
    refine ⟨henabled.1, fun later hlater => henabled.2 later ?_⟩
    simp only [List.mem_append, List.mem_singleton, reduceCtorEq, or_false] at hlater
    exact List.mem_append_left _ hlater
  have hlinked : (reached floats endpoints before done).Linked := by
    rw [reached_eq_history]
    exact (linked_fresh endpoints).history
  have hall : ∀ key, (reached floats endpoints before done).Delivered endpointId key := by
    rw [← complete_iff, reached_eq_history]
    exact complete_history_fresh hfirst
  have hlater : Throughout ((reached floats endpoints before done).upsertCutOff e n).endpoints after
      endpointId := by
    rw [upsertCutOff_endpoints, reached, after_endpoints]
    exact throughout_history henabled
  rw [complete_iff]
  simp only [delivered_history hlinked.upsertCutOff hlater, delivered_upsertCutOff hlinked, hall,
    true_and]
  constructor
  · intro h
    rcases h e.key with ((hn | hne | hbefore) | ⟨-, -, hinserted⟩) | hrecorded
    · exact .inl hn
    · exact absurd rfl hne
    · exact .inr (.inl hbefore)
    · exact .inr (.inr (.inr hinserted))
    · exact .inr (.inr (.inl hrecorded))
  · intro h key
    by_cases hkey : key = e.key
    · subst hkey
      by_cases hn : n < 2
      · exact .inl (.inl (.inl hn))
      · rcases h with hlt | hbefore | hrecorded | hinserted
        · exact absurd hlt hn
        · exact .inl (.inl (.inr (.inr hbefore)))
        · exact .inr hrecorded
        · exact .inl (.inr ⟨by omega, rfl, hinserted⟩)
    · exact .inl (.inl (.inr (.inl hkey)))

end

/-- A run is cut off in one of its detections, behind any changes and before any others. Each
event has its deliveries for the endpoints that were enabled throughout, exactly if the event was
not inserted by then or had been before, if a later run records it, or if the INSERTs for these
endpoints had been made. -/
theorem cutOff_complete_iff (endpoints : List WebhookEndpoint) (before after : List (Change F))
    (done : List (Step F)) (e : EventInsert F) (n : Nat) :
    (∀ endpointId, Throughout endpoints (before ++ after) endpointId →
        (((reached floats endpoints before done).upsertCutOff e n).history after).Complete
          endpointId) ↔
      n < 2 ∨ e.key ∈ (reached floats endpoints before done).events.rows.map (·.key) ∨
        (∃ change ∈ after, change.Records e.key) ∨
          ∀ endpointId, Throughout endpoints (before ++ after) endpointId →
            endpointId ∈ (reached floats endpoints before done).insertedFor n := by
  constructor
  · intro h
    by_cases hsaved : n < 2 ∨ e.key ∈ (reached floats endpoints before done).events.rows.map (·.key) ∨
        ∃ change ∈ after, change.Records e.key
    · rcases hsaved with hn | hbefore | hrecorded
      · exact .inl hn
      · exact .inr (.inl hbefore)
      · exact .inr (.inr (.inl hrecorded))
    · simp only [not_or] at hsaved
      obtain ⟨hn, hbefore, hrecorded⟩ := hsaved
      refine .inr (.inr (.inr fun endpointId henabled => ?_))
      simpa [hn, hbefore, hrecorded] using (complete_cutOff henabled).mp (h endpointId henabled)
  · intro h endpointId henabled
    refine (complete_cutOff henabled).mpr ?_
    rcases h with hn | hbefore | hrecorded | hinserted
    · exact .inl hn
    · exact .inr (.inl hbefore)
    · exact .inr (.inr (.inl hrecorded))
    · exact .inr (.inr (.inr (hinserted endpointId henabled)))

/-! A point over the limit, and one an hour later -/

def limitEvent : EventInsert Int where
  jobId := 1
  deviceId := "device".toList
  streamKey := "imu".toList
  channelKey := none
  windowStart := 1699999940000000000
  windowEnd := 1700000000000000000
  severity := "warning".toList
  score := 7
  threshold := 5
  detectorType := "threshold".toList
  detectorVersion := detectorVersion
  details := {
    detector := "threshold".toList
    jobKey := "limit".toList
    windowSeconds := 60
    stepSeconds := 60
    lookbackSeconds := 0
    sourceKind := "metric"
    channelKey := none
    truncated := false
    anchor := none
    result := ⟨"threshold".toList, 1, some 1700000000000000000, some 1700000000000000000⟩ }

/-- The stop comes between the INSERT of the event and the SELECT for its deliveries, and the
later run finds an event of another window. -/
theorem cutOff_event_unsent :
    let points := [pointOf "imu" 1700000000000000]
    let newer := points ++ [pointOf "imu" 1700003600000000]
    let later := runDetectionOnce wholeService (metricStore newer) hourLater limitJobs none
    (runDetectionOnce wholeService (metricStore points) firstClock limitJobs none).done =
        [.jobScanned, .windowScanned, .event limitEvent, .jobState 1 1700000000000000000] ∧
      later.failure = none ∧
      ¬∀ endpointId, Throughout [⟨1, true⟩] [.detected later] endpointId →
        (((reached wholeService.floats [⟨1, true⟩] [] [.jobScanned, .windowScanned]).upsertCutOff
          limitEvent 2).history [.detected later]).Complete endpointId := by
  intro points newer later
  refine ⟨by decide +kernel, by decide +kernel, fun h => ?_⟩
  have hcomplete := h 1 ⟨List.mem_singleton_self _, by simp⟩
  unfold Complete at hcomplete
  revert hcomplete
  decide +kernel

end Tables

end Aetus.Anomaly
