import Aetus.EndToEnd.DeviceMetrics
import Aetus.EndToEnd.DeviceUploads
import Aetus.Firmware.SequenceNumbers

/-!
Uploads that are made again after a lost response, in the table of raw events: every item that
the device counts as uploaded has one row, under the number of its upload.
-/

set_option autoImplicit false

namespace Aetus.Firmware
open Aetus.Base

def OrderView.log (v : OrderView) : List (Nat × Entry) :=
  v.server.map fun x => (x.1.sequence.toNat, x.2)

theorem OrderStep.recorded {v w : OrderView} {d : Option Entry} (h : OrderStep v d w)
    (hv : Ordered v) (hlog : v.pipe.Recorded v.log) (hlt : v.pipe.delivered.length < 2 ^ 64) :
    w.pipe.Recorded w.log := by
  cases h with
  | quiet sending stamp hs hstamp => exact hlog
  | begin item => exact hlog
  | accept e sending hs => exact hlog
  | acceptNew item => exact hlog
  | deliver e rest stamp hstamp hp =>
    obtain rfl := hv.stamp stamp hstamp
    have hrecorded := hlog.deliver e rest
    rwa [← hv.sequence_toNat hlt] at hrecorded
  | lost e rest stamp hstamp hp => exact hlog.cons _
  | drop e rest d hp hd hstamp => exact hlog

/-- In a run that spares the items the server has accepted, the server's log holds every upload
under its number, and beside these at most the item at the head of the queue. -/
theorem run_recorded {P : Params} {bootId : CString} {heap : Heap} {as : List Action} {s : State}
    (hspares : Guarded (step P) (SparesAccepted P) (started bootId heap) as)
    (h : run (step P) (started bootId heap) as = some s) :
    Keyed (orderView s) ∧ s.pipeline.Recorded (orderView s).log := by
  refine run_guarded_invariant
    (I := fun s => Keyed (orderView s) ∧ s.pipeline.Recorded (orderView s).log)
    (fun s a t hs hc hstep => ⟨step_keyed hs.1 hc hstep, ?_⟩)
    ⟨started_keyed bootId heap, Pipeline.empty_recorded⟩ hspares h
  obtain ⟨_, _, horder⟩ := step_order hstep
  exact horder.recorded hs.1.ordered hs.2 hc.2

/-- The body of the event that an item becomes; neither configuration nor clock changes it. -/
def QueueItem.eventBody (item : QueueItem) : EventBody :=
  match item.body with
  | .telemetry t =>
    .metricSet ((t.slots.take (min t.metricCount AETUS_MAX_METRICS)).map fillMetric)
  | .signalFrame f => .signalFrame (eventFrame f)
  | .status st => .status
      { status := mapDeviceStatus st.status
        rssi := st.rssi
        freeHeap := st.freeHeap
        rebootReason := copyString .empty EVENT_REBOOT_REASON_SIZE (some st.rebootReason) }

theorem encodeQueueItem_body {rt : Runtime CString} {uptimeMs : UInt64} {item : QueueItem}
    {event : IngestEvent} (hencode : encodeQueueItem rt uptimeMs item = some event) :
    event.body = item.eventBody := by
  unfold encodeQueueItem at hencode
  unfold QueueItem.eventBody
  cases hbody : item.body with
  | telemetry t =>
    rw [hbody] at hencode
    cases hencode
    rfl
  | status st =>
    rw [hbody] at hencode
    cases hencode
    rfl
  | signalFrame f =>
    rw [hbody] at hencode
    obtain ⟨-, rfl⟩ := encodeSignalFrame_eq_some hencode
    rfl

theorem itemMessage_body {floats : FloatBits} {h : Heap} {rt : Runtime CString} {uptimeMs : UInt64}
    {item : QueueItem} {m : EventMessage} {event : Ingest.IngestEvent}
    (hm : itemMessage h rt uptimeMs item = some m) (hdecode : m.decode floats = some event) :
    ∃ message body, item.eventBody.wire h = some message ∧ message.decode floats = some body ∧
      event.body = some body := by
  obtain ⟨deviceEvent, hencode, hwire⟩ := Option.bind_eq_some_iff.mp hm
  obtain ⟨message, hmessage, rfl⟩ := Option.map_eq_some_iff.mp hwire
  rw [encodeQueueItem_body hencode] at hmessage
  simp only [EventMessage.decode, IngestEvent.around, Option.bind_eq_bind,
    Option.bind_eq_some_iff] at hdecode
  obtain ⟨_, -, _, -, _, hbody, hevent⟩ := hdecode
  obtain ⟨body, hdecoded, rfl⟩ := Option.map_eq_some_iff.mp hbody
  cases hevent
  exact ⟨message, body, hmessage, hdecoded, rfl⟩

end Aetus.Firmware

namespace Aetus
open Aetus.Base Aetus.Base.Protobuf Aetus.Firmware Aetus.Ingest Aetus.Postgres

theorem normalizePayload_congr {event event' : Ingest.IngestEvent} (h : event.body = event'.body) :
    normalizePayload event = normalizePayload event' := by
  rw [normalizePayload, normalizePayload, h]

def RowTells (floats : FloatBits) (h : Heap) (item : QueueItem) (row : RawRecord) : Prop :=
  ∃ message body payload, item.eventBody.wire h = some message ∧
    message.decode floats = some body ∧
    (∀ event : Ingest.IngestEvent, event.body = some body → normalizePayload event = .ok payload) ∧
    row.payloadJson = payload.json.dumps

section Attempts

variable {floats : FloatBits} {parseFromString : List UInt8 → Option Ingest.IngestEvent}
  {memory : Entry → Heap} {deviceId bootId : List Char} {x : Stamp × Entry} {attempt : Attempt}

/-- The attempt is with the bytes that a device of this id makes of the item under the stamp;
`memory` is what the pointers of an item lead to for as long as it is in the queue. -/
def Attempt.Uploads (parseFromString : List UInt8 → Option Ingest.IngestEvent)
    (memory : Entry → Heap) (deviceId : List Char) (x : Stamp × Entry) (attempt : Attempt) : Prop :=
  ∃ (rt : Runtime CString) (uptimeMs : UInt64) (bufferSize : Nat) (payload : List UInt8),
    (copyString .empty EVENT_DEVICE_ID_SIZE (some rt.config.deviceId)).bytes = utf8 deviceId ∧
    rt.bootId = x.1.bootId ∧ rt.sequence = x.1.sequence ∧
    queueItemPayload (memory x.2) rt uptimeMs x.2.item bufferSize = some payload ∧
    parseFromString payload = some attempt.event

theorem Attempt.Uploads.key (h : attempt.Uploads parseFromString memory deviceId x)
    (hreads : ReadsMessages floats parseFromString) (hwhole : x.2.item.WholeFrame)
    (hboot : (copyString .empty EVENT_BOOT_ID_SIZE (some x.1.bootId)).bytes = utf8 bootId) :
    eventKey attempt.event = (deviceId, bootId, x.1.sequence.toNat) := by
  obtain ⟨rt, uptimeMs, bufferSize, payload, hid, hrtBoot, hsequence, hpayload, hparse⟩ := h
  obtain ⟨m, hm, hdecode⟩ := parse_payload hreads hwhole hpayload hparse
  have hread := itemRead_of_decode hm hdecode
  have hdevice : attempt.event.deviceId = deviceId := utf8_injective (hread.deviceId.trans hid)
  have hbootId : attempt.event.bootId = bootId :=
    utf8_injective (hread.bootId.trans (hrtBoot ▸ hboot))
  rw [eventKey, hdevice, hbootId, hread.sequence, hsequence]

theorem Attempt.Uploads.tells (h : attempt.Uploads parseFromString memory deviceId x)
    (hreads : ReadsMessages floats parseFromString) (hwhole : x.2.item.WholeFrame)
    {n : NormalizedEvent} (hn : normalizeEvent attempt.envelope attempt.event = .ok n) :
    RowTells floats (memory x.2) x.2.item (buildSinkRecord n) := by
  obtain ⟨rt, uptimeMs, bufferSize, payload, -, -, -, hpayload, hparse⟩ := h
  obtain ⟨m, hm, hdecode⟩ := parse_payload hreads hwhole hpayload hparse
  obtain ⟨message, body, hmessage, hbody, hevent⟩ := itemMessage_body hm hdecode
  obtain ⟨normalized, hnormalized, rfl⟩ := normalizeEvent_ok hn
  refine ⟨message, body, normalized, hmessage, hbody, fun event heq => ?_, rfl⟩
  rw [normalizePayload_congr (heq.trans hevent.symm), hnormalized]

/-- The records of an attempt are a beginning of those of its event. -/
theorem Attempt.publish_normalized (h : attempt.publish.1 ≠ []) :
    ∃ n, normalizeEvent attempt.envelope attempt.event = .ok n ∧
      attempt.publish.1 <+: topicRecords n := by
  unfold Attempt.publish at h ⊢
  cases hn : normalizeEvent attempt.envelope attempt.event with
  | error e =>
    rw [hn] at h
    exact absurd rfl h
  | ok n => exact ⟨n, rfl, publishSync_initial attempt.broker n⟩

theorem raw_mem_of_initial {records : List TopicRecord} {n : NormalizedEvent} (h : records ≠ [])
    (hinitial : records <+: topicRecords n) : .raw (buildSinkRecord n) ∈ records := by
  cases records with
  | nil => exact absurd rfl h
  | cons first rest =>
    obtain ⟨hfirst, -⟩ := List.cons_prefix_cons.mp hinitial
    rw [hfirst]
    exact List.mem_cons_self

theorem raw_mem_topicRecords {n : NormalizedEvent} {row : RawRecord}
    (h : .raw row ∈ topicRecords n) : row = buildSinkRecord n := by
  simpa [topicRecords] using h

theorem mem_rawDeviceEvents_run {c : Conversions} {upserts : List TopicRecord} {row : RawRecord}
    (h : row ∈ (Database.run c upserts).rawDeviceEvents.rows) : .raw row ∈ upserts := by
  induction upserts using List.reverseRecOn with
  | nil => cases h
  | append_singleton upserts last ih =>
    have hrun : Database.run c (upserts ++ [last]) = (Database.run c upserts).apply c last :=
      List.foldl_concat ..
    rw [hrun] at h
    rcases rawDeviceEvents_apply c (Database.run c upserts) last with ⟨heq, -⟩ | ⟨raw, rfl, heq⟩
    · exact List.mem_append_left _ (ih (heq ▸ h))
    · rw [heq, Base.Keyed.upsert] at h
      rcases mem_upsertBy.mp h with rfl | ⟨hold, -⟩
      · exact List.mem_append_right _ List.mem_cons_self
      · exact List.mem_append_left _ (ih hold)

end Attempts

/-- The log of the device's run is what the broker saw of the device: the attempts of which a
record reached its topic. -/
structure Witnessed (parseFromString : List UInt8 → Option Ingest.IngestEvent)
    (memory : Entry → Heap) (deviceId bootId : List Char) (server : List (Stamp × Entry))
    (attempts : List Attempt) : Prop where
  each : ∀ x ∈ server, ∃ attempt ∈ attempts, attempt.publish.1 ≠ [] ∧
    attempt.Uploads parseFromString memory deviceId x
  only : ∀ attempt ∈ attempts, attempt.publish.1 ≠ [] → attempt.event.deviceId = deviceId →
    attempt.event.bootId = bootId →
    ∃ x ∈ server, attempt.Uploads parseFromString memory deviceId x

/-- The raw events of one boot of the device: one row for each upload, under its number and with
its payload, and beside these at most one of the item that is to be uploaded next. -/
structure StoredExactlyOnce (floats : FloatBits) (memory : Entry → Heap)
    (deviceId bootId : List Char) (s : State) (rows : List RawRecord) : Prop where
  uploaded : ∀ k e, s.history.uploaded[k]? = some e →
    rows.countP (fun row => rawKey row = (deviceId, bootId, k)) = 1 ∧
      ∀ row ∈ rows, rawKey row = (deviceId, bootId, k) → RowTells floats (memory e) e.item row
  only : ∀ row ∈ rows, row.header.deviceId = deviceId → row.header.bootId = bootId →
    row.header.sequence < s.history.uploaded.length ∨
      row.header.sequence = s.history.uploaded.length ∧ ∃ e, s.pipeline.pending.head? = some e ∧
        RowTells floats (memory e) e.item row

section Run

variable {floats : FloatBits} {parseFromString : List UInt8 → Option Ingest.IngestEvent}
  {memory : Entry → Heap} {deviceId bootText : List Char} {P : Params} {bootId : CString}
  {heap : Heap} {as : List Action} {s : State} {c : Conversions} {attempts : List Attempt}
  {upserts : List TopicRecord}

theorem row_of_log (hreads : ReadsMessages floats parseFromString) (hkeyed : Keyed (orderView s))
    (hboot : (copyString .empty EVENT_BOOT_ID_SIZE (some s.ctx.bootId)).bytes = utf8 bootText)
    (hwhole : ∀ x ∈ s.history.server, x.2.item.WholeFrame)
    (hlog : Witnessed parseFromString memory deviceId bootText s.history.server attempts)
    (hdelivers : Delivers c (topics attempts) upserts) {row : RawRecord}
    (hrow : row ∈ (Database.run c upserts).rawDeviceEvents.rows)
    (hdevice : row.header.deviceId = deviceId) (hbootId : row.header.bootId = bootText) :
    ∃ x ∈ s.history.server, row.header.sequence = x.1.sequence.toNat ∧
      RowTells floats (memory x.2) x.2.item row := by
  have htopics := hdelivers.only _ (mem_rawDeviceEvents_run hrow)
  obtain ⟨attempt, hattempt, hpublished⟩ := List.mem_flatMap.mp htopics
  have hne : attempt.publish.1 ≠ [] := List.ne_nil_of_mem hpublished
  obtain ⟨n, hn, hinitial⟩ := Attempt.publish_normalized hne
  obtain rfl := raw_mem_topicRecords (hinitial.subset hpublished)
  have hkey : rawKey (buildSinkRecord n) = eventKey attempt.event := normalizeEvent_key hn
  simp only [rawKey, eventKey, Prod.mk.injEq] at hkey
  obtain ⟨x, hx, huploads⟩ := hlog.only attempt hattempt hne (hkey.1.symm.trans hdevice)
    (hkey.2.1.symm.trans hbootId)
  have hxboot : (copyString .empty EVENT_BOOT_ID_SIZE (some x.1.bootId)).bytes = utf8 bootText :=
    (hkeyed.boot x hx : x.1.bootId = s.ctx.bootId) ▸ hboot
  have hevent := huploads.key hreads (hwhole x hx) hxboot
  simp only [eventKey, Prod.mk.injEq] at hevent
  exact ⟨x, hx, hkey.2.2.trans hevent.2.2, huploads.tells hreads (hwhole x hx) hn⟩

theorem row_of_witnessed (hreads : ReadsMessages floats parseFromString)
    (hkeyed : Keyed (orderView s))
    (hboot : (copyString .empty EVENT_BOOT_ID_SIZE (some s.ctx.bootId)).bytes = utf8 bootText)
    (hwhole : ∀ x ∈ s.history.server, x.2.item.WholeFrame)
    (hlog : Witnessed parseFromString memory deviceId bootText s.history.server attempts)
    (hdelivers : Delivers c (topics attempts) upserts) {x : Stamp × Entry}
    (hx : x ∈ s.history.server) :
    (Database.run c upserts).rawDeviceEvents.rows.countP
      (fun row => rawKey row = (deviceId, bootText, x.1.sequence.toNat)) = 1 := by
  obtain ⟨attempt, hattempt, hne, huploads⟩ := hlog.each x hx
  obtain ⟨n, hn, hinitial⟩ := Attempt.publish_normalized hne
  have htopics : .raw (buildSinkRecord n) ∈ topics attempts :=
    List.mem_flatMap.mpr ⟨attempt, hattempt, raw_mem_of_initial hne hinitial⟩
  have hrow := exists_raw_run c (hdelivers.mem htopics) (hdelivers.fitsColumns htopics)
  have hxboot : (copyString .empty EVENT_BOOT_ID_SIZE (some x.1.bootId)).bytes = utf8 bootText :=
    (hkeyed.boot x hx : x.1.bootId = s.ctx.bootId) ▸ hboot
  have hkey : rawKey (buildSinkRecord n) = (deviceId, bootText, x.1.sequence.toNat) :=
    (normalizeEvent_key hn).trans (huploads.key hreads (hwhole x hx) hxboot)
  exact Base.Keyed.countP_eq_one (hkey ▸ hrow)

theorem run_storedExactlyOnce (hreads : ReadsMessages floats parseFromString)
    (hspares : Guarded (step P) (SparesAccepted P) (started bootId heap) as)
    (hrun : run (step P) (started bootId heap) as = some s)
    (hboot : (copyString .empty EVENT_BOOT_ID_SIZE (some s.ctx.bootId)).bytes = utf8 bootText)
    (hwhole : ∀ x ∈ s.history.server, x.2.item.WholeFrame)
    (hlog : Witnessed parseFromString memory deviceId bootText s.history.server attempts)
    (hdelivers : Delivers c (topics attempts) upserts) :
    StoredExactlyOnce floats memory deviceId bootText s
      (Database.run c upserts).rawDeviceEvents.rows := by
  obtain ⟨hkeyed, hrecorded⟩ := run_recorded hspares hrun
  have hnumbered (x : Stamp × Entry) (hx : x ∈ s.history.server) :=
    hkeyed.numbered (x.1.sequence.toNat, x.2) (List.mem_map_of_mem hx)
  constructor
  · intro k e hk
    obtain ⟨x, hx, hxe⟩ := List.mem_map.mp (hrecorded k e hk)
    obtain ⟨rfl, rfl⟩ := Prod.mk.inj hxe
    refine ⟨row_of_witnessed hreads hkeyed hboot hwhole hlog hdelivers hx, fun row hrow hkey => ?_⟩
    simp only [rawKey, Prod.mk.injEq] at hkey
    obtain ⟨y, hy, hsequence, htells⟩ :=
      row_of_log hreads hkeyed hboot hwhole hlog hdelivers hrow hkey.1 hkey.2.1
    -- the number is the place of one item only
    have hyx : y.2 = x.2 := by
      have hmx := List.mem_map_of_mem (f := fun x : Stamp × Entry => (x.1.sequence.toNat, x.2)) hx
      have hmy := List.mem_map_of_mem (f := fun x : Stamp × Entry => (x.1.sequence.toNat, x.2)) hy
      rw [← hsequence, hkey.2.2] at hmy
      exact hkeyed.numbered.unique hmy hmx
    exact hyx ▸ htells
  · intro row hrow hdevice hbootId
    obtain ⟨x, hx, hsequence, htells⟩ :=
      row_of_log hreads hkeyed hboot hwhole hlog hdelivers hrow hdevice hbootId
    rw [hsequence]
    rcases hnumbered x hx with hdelivered | ⟨hlast, hhead⟩
    · exact .inl (List.getElem?_eq_some_iff.mp hdelivered).1
    · exact .inr ⟨hlast, x.2, hhead, htells⟩

end Run

/-! One status, sent a second time because the first response was lost. -/

def onlineRuntime : Runtime CString := { labRuntime with bootId := .lit "boot-0000002a" }

def onlineMessage : EventMessage where
  schemaVersion := 1
  deviceId := utf8 "esp32-001".toList
  sequence := 0
  eventType := 2
  bootId := utf8 "boot-0000002a".toList
  firmwareVersion := 1
  uptimeMs := 1000
  timestampNs := 0
  body := some (.status 1 (-40) 120000 (utf8 []))

def onlineEvent : Ingest.IngestEvent where
  schemaVersion := 1
  deviceId := "esp32-001".toList
  sequence := 0
  eventType := 2
  bootId := "boot-0000002a".toList
  firmwareVersion := 1
  uptimeMs := 1000
  timestampNs := 0
  body := some (.status 1 (-40) 120000 [])

theorem onlineMessage_decode : onlineMessage.decode noFloats = some onlineEvent := by
  simp [onlineMessage, EventMessage.decode, BodyMessage.decode, decodeText_utf8, onlineEvent,
    -utf8_nil]

def onlineAttempt (requestId : List Char) : Attempt :=
  ⟨onlineEvent, ⟨requestId, "t".toList, "::1".toList⟩, ⟨fun _ => .acked, true⟩⟩

def onlineEntry : Entry := (statusCall 0).entry

theorem onlineAttempt_uploads (requestId : List Char) :
    (onlineAttempt requestId).Uploads Firmware.readEvent (fun _ => .empty fun _ => true)
      "esp32-001".toList (⟨.lit "boot-0000002a", 0⟩, onlineEntry) := by
  refine ⟨onlineRuntime, 1000, AETUS_ENCODE_BUFFER_BYTES, write onlineMessage.fields,
    by decide +kernel, rfl, rfl, by decide +kernel, ?_⟩
  rw [Firmware.readEvent, readMessage_write, Option.bind_some, onlineMessage_decode]
  rfl

theorem run_storedExactlyOnce_online : ∃ s, run (step oneSlot) oneSlotStart oneUpload = some s ∧
    StoredExactlyOnce noFloats (fun _ => .empty fun _ => true) "esp32-001".toList
      "boot-0000002a".toList s (Database.run epochConversions
        (topics [onlineAttempt "r1".toList, onlineAttempt "r2".toList])).rawDeviceEvents.rows := by
  have hspares : Guarded (step oneSlot) (SparesAccepted oneSlot) oneSlotStart oneUpload := by
    decide +kernel
  obtain ⟨s, hs, hserver, hboot⟩ : ∃ s, run (step oneSlot) oneSlotStart oneUpload = some s ∧
      s.history.server = List.replicate 2 (⟨.lit "boot-0000002a", 0⟩, onlineEntry) ∧
      s.ctx.bootId = .lit "boot-0000002a" := ⟨_, rfl, rfl, rfl⟩
  have hentry {x : Stamp × Entry} (hx : x ∈ s.history.server) :
      x = (⟨.lit "boot-0000002a", 0⟩, onlineEntry) := List.eq_of_mem_replicate (hserver ▸ hx)
  refine ⟨s, hs, run_storedExactlyOnce (readMessage_reads noFloats) hspares hs
    (by rw [hboot]; decide +kernel) (fun x hx => ?_) ⟨fun x hx => ?_, fun attempt hattempt _ _ _ => ?_⟩
    (metricAttempts_delivered _ (by decide +kernel))⟩
  · rw [hentry hx]
    intro f hf
    cases hf
  · rw [hentry hx]
    exact ⟨_, List.mem_cons_self, by decide +kernel, onlineAttempt_uploads _⟩
  · refine ⟨(⟨.lit "boot-0000002a", 0⟩, onlineEntry), by simp [hserver], ?_⟩
    rcases List.mem_cons.mp hattempt with rfl | hattempt
    · exact onlineAttempt_uploads _
    · rw [List.mem_singleton.mp hattempt]
      exact onlineAttempt_uploads _

end Aetus
