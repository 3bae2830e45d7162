import Aetus.Postgres.FinalTables
import Mathlib.Algebra.Order.BigOperators.Group.List

/-!
An event that is sent and published more than once, and what is stored of it.
-/

set_option autoImplicit false

namespace Aetus
open Aetus.Base Aetus.Ingest Aetus.Postgres

/-- One time that an event gets to the publisher: with an envelope of its own, and the answers
of the broker. -/
structure Attempt where
  event : IngestEvent
  envelope : Envelope
  broker : Broker

def Attempt.publish (attempt : Attempt) : List TopicRecord × Bool :=
  match normalizeEvent attempt.envelope attempt.event with
  | .ok n => publishSync attempt.broker n
  | .error _ => ([], false)

def topics (attempts : List Attempt) : List TopicRecord :=
  attempts.flatMap fun attempt => attempt.publish.1

/-- The key by which the documentation tells events apart. -/
def eventKey (event : IngestEvent) : List Char × List Char × Nat :=
  (event.deviceId, event.bootId, event.sequence.toNat)

def headerKey (header : RecordHeader) : List Char × List Char × Nat :=
  (header.deviceId, header.bootId, header.sequence)

structure StoredOnce (db : Database) (event : IngestEvent) : Prop where
  raw : db.rawDeviceEvents.rows.countP (fun row => rawKey row = eventKey event) = 1
  points : ∀ metrics, event.body = some (.telemetry (some (.metricSet metrics))) →
    ∀ index < metrics.length, db.points.countP (fun point =>
      (point.boot.1, point.boot.2, point.sequence) = eventKey event ∧ point.metricIndex = index) = 1
  frames : ∀ frame, event.body = some (.telemetry (some (.signalFrame frame))) →
    db.frames.countP (fun row =>
      (row.boot.1, row.boot.2, row.sequence) = eventKey event) = 1

/-- The publish gets past the raw record: this is acknowledged, and the next one reaches its
topic. -/
def passesRaw (broker : Broker) : Bool :=
  broker.send 0 = .acked ∧ broker.send 1 ≠ .failed false

def Attempt.expands (event : IngestEvent) (attempt : Attempt) : Bool :=
  eventKey attempt.event = eventKey event ∧ passesRaw attempt.broker

def isMetricOf (event : IngestEvent) (index : Nat) : TopicRecord → Bool
  | .metric record => headerKey record.header = eventKey event ∧ record.metricIndex = index
  | _ => false

def isFrameOf (event : IngestEvent) : TopicRecord → Bool
  | .signalFrame record => headerKey record.header = eventKey event
  | _ => false

theorem publishSync_initial (broker : Broker) (n : NormalizedEvent) :
    (publishSync broker n).1 <+: topicRecords n := by
  suffices h : ∀ k records, (sendFrom broker k records).1 <+: records from h 0 _
  intro k records
  induction records generalizing k with
  | nil => exact List.prefix_rfl
  | cons record records ih =>
    rw [sendFrom]
    split
    · exact (List.prefix_cons_inj record).mpr (ih (k + 1))
    · split
      · exact (List.prefix_cons_inj record).mpr List.nil_prefix
      · exact List.nil_prefix

theorem publishSync_raw {broker : Broker} {n : NormalizedEvent} (h : passesRaw broker = false) :
    ∀ record ∈ (publishSync broker n).1, record = .raw (buildSinkRecord n) := by
  obtain ⟨records, hrecords⟩ : ∃ records, topicRecords n = .raw (buildSinkRecord n) :: records :=
    ⟨_, rfl⟩
  rw [publishSync, hrecords]
  simp only [sendFrom]
  cases hfirst : broker.send 0 with
  | failed delivered => cases delivered <;> simp
  | acked =>
    have hsecond : broker.send 1 = .failed false := by
      by_contra hne
      exact absurd (decide_eq_true ⟨hfirst, hne⟩) (Bool.eq_false_iff.mp h)
    cases records <;> simp [sendFrom, hsecond]

theorem publishSync_second {broker : Broker} {n : NormalizedEvent} {record : TopicRecord}
    {records : List TopicRecord} (h : passesRaw broker = true)
    (hrecords : topicRecords n = .raw (buildSinkRecord n) :: record :: records) :
    record ∈ (publishSync broker n).1 := by
  obtain ⟨hacked, hreached⟩ := of_decide_eq_true h
  rw [publishSync, hrecords]
  simp only [sendFrom, hacked]
  cases hsend : broker.send 1 with
  | acked => simp
  | failed delivered => cases delivered <;> simp_all

theorem normalizeEvent_of_accepted {attempt : Attempt} (h : attempt.publish.2 = true) :
    ∃ n, normalizeEvent attempt.envelope attempt.event = .ok n := by
  unfold Attempt.publish at h
  split at h
  · next n hn => exact ⟨n, hn⟩
  · cases h

theorem normalizeEvent_anyEnvelope {envelope : Envelope} {event : IngestEvent} {n : NormalizedEvent}
    (h : normalizeEvent envelope event = .ok n) (envelope' : Envelope) :
    ∃ n', normalizeEvent envelope' event = .ok n' := by
  obtain ⟨payload, hpayload, -⟩ := normalizeEvent_ok h
  exact ⟨_, by rw [normalizeEvent, hpayload]⟩

/-- `p` picks at most one record of an event, neither the raw one nor one of another event. -/
structure Picks (event : IngestEvent) (p : TopicRecord → Bool) : Prop where
  raw : ∀ record, p (.raw record) = false
  key : ∀ n, ∀ record ∈ topicRecords n, p record = true → headerKey n.header = eventKey event
  once : ∀ n, (topicRecords n).countP p ≤ 1

variable {event : IngestEvent} {p : TopicRecord → Bool}

theorem normalizeEvent_key {envelope : Envelope} {n : NormalizedEvent}
    (h : normalizeEvent envelope event = .ok n) : headerKey n.header = eventKey event := by
  obtain ⟨payload, -, rfl⟩ := normalizeEvent_ok h
  rfl

theorem Picks.countP_le (h : Picks event p) (attempt : Attempt) :
    attempt.publish.1.countP p ≤ if attempt.expands event then 1 else 0 := by
  unfold Attempt.publish
  split
  · next n hn =>
    have hle := (publishSync_initial attempt.broker n).sublist.countP_le (p := p)
    split
    · exact hle.trans (h.once n)
    · next hexpands =>
      refine (List.countP_eq_zero.mpr fun record hrecord hp => ?_).le
      have hkey := h.key n record ((publishSync_initial attempt.broker n).subset hrecord) hp
      rw [normalizeEvent_key hn] at hkey
      have hraw : passesRaw attempt.broker = false := by
        by_contra hpass
        exact hexpands (decide_eq_true ⟨hkey, by simpa using hpass⟩)
      rw [publishSync_raw hraw record hrecord, h.raw] at hp
      cases hp
  · exact Nat.zero_le _

theorem countP_accepted {attempt : Attempt} {n : NormalizedEvent}
    (hn : normalizeEvent attempt.envelope attempt.event = .ok n)
    (haccepted : attempt.publish.2 = true) :
    attempt.publish.1.countP p = (topicRecords n).countP p := by
  simp only [Attempt.publish, hn] at haccepted ⊢
  rw [publishSync_true haccepted]

theorem countP_topics (attempts : List Attempt) :
    (topics attempts).countP p = (attempts.map fun attempt => attempt.publish.1.countP p).sum :=
  List.countP_flatMap

theorem mem_buildMetricRecords {n : NormalizedEvent} {record : MetricRecord}
    (h : record ∈ buildMetricRecords n) : record.header = n.header := by
  unfold buildMetricRecords at h
  split at h
  · cases h
  · split at h
    · obtain ⟨index, hindex, rfl⟩ := List.mem_mapIdx.mp h
      rfl
    · cases h

theorem map_metricIndex (n : NormalizedEvent) :
    (buildMetricRecords n).map (·.metricIndex) = List.range (buildMetricRecords n).length := by
  unfold buildMetricRecords
  split
  · rfl
  · split
    · refine List.ext_getElem (by simp) fun index hindex _ => ?_
      simp [buildMetricRecord]
    · rfl

theorem mem_buildSignalFrameRecords {n : NormalizedEvent} {record : SignalFrameRecord}
    (h : record ∈ buildSignalFrameRecords n) : record.header = n.header := by
  unfold buildSignalFrameRecords at h
  split at h
  · cases h
  · split at h
    · rw [List.mem_singleton.mp h]
      rfl
    · cases h

theorem length_buildSignalFrameRecords (n : NormalizedEvent) :
    (buildSignalFrameRecords n).length ≤ 1 := by
  unfold buildSignalFrameRecords
  split
  · exact Nat.zero_le _
  · split
    · exact Nat.le_refl _
    · exact Nat.zero_le _

theorem picks_frame (event : IngestEvent) : Picks event (isFrameOf event) where
  raw := fun _ => rfl
  key := by
    intro n record hrecord hp
    cases record with
    | raw record => cases hp
    | metric record => cases hp
    | signalFrame record =>
      rw [← mem_signalFrameRecords, signalFrameRecords_topicRecords] at hrecord
      rw [← mem_buildSignalFrameRecords hrecord]
      exact of_decide_eq_true hp
  once := by
    intro n
    have hcount : (topicRecords n).countP (isFrameOf event) =
        (buildSignalFrameRecords n).countP fun record => headerKey record.header = eventKey event := by
      simp [topicRecords, List.countP_map, Function.comp_def, isFrameOf]
    rw [hcount]
    exact List.countP_le_length.trans (length_buildSignalFrameRecords n)

theorem picks_metric (event : IngestEvent) (index : Nat) : Picks event (isMetricOf event index) where
  raw := fun _ => rfl
  key := by
    intro n record hrecord hp
    cases record with
    | raw record => cases hp
    | signalFrame record => cases hp
    | metric record =>
      rw [← mem_metricRecords, metricRecords_topicRecords] at hrecord
      rw [← mem_buildMetricRecords hrecord]
      exact (of_decide_eq_true hp).1
  once := by
    intro n
    have hcount : (topicRecords n).countP (isMetricOf event index) =
        (buildMetricRecords n).countP fun record =>
          headerKey record.header = eventKey event ∧ record.metricIndex = index := by
      simp [topicRecords, List.countP_map, Function.comp_def, isMetricOf]
    rw [hcount]
    calc (buildMetricRecords n).countP (fun record =>
          headerKey record.header = eventKey event ∧ record.metricIndex = index)
        ≤ (buildMetricRecords n).countP (fun record => record.metricIndex == index) :=
          List.countP_mono_left fun record _ hp => by simpa using (of_decide_eq_true hp).2
      _ = ((buildMetricRecords n).map (·.metricIndex)).count index := by
        rw [List.count, List.countP_map]
        rfl
      _ ≤ 1 := by
        rw [map_metricIndex]
        exact List.nodup_iff_count_le_one.mp List.nodup_range index

/-! The staging keys of the records on the topics -/

theorem normalizeEvent_requestId {envelope : Envelope} {n : NormalizedEvent}
    (h : normalizeEvent envelope event = .ok n) : n.header.requestId = envelope.requestId := by
  obtain ⟨payload, -, rfl⟩ := normalizeEvent_ok h
  rfl

theorem metricRecords_topics (attempts : List Attempt) : metricRecords (topics attempts) =
    attempts.flatMap fun attempt => metricRecords attempt.publish.1 := by
  rw [metricRecords, topics, List.filterMap_flatMap]
  rfl

theorem metricRecords_publish (attempt : Attempt) :
    UniqueBy metricStagingKey (metricRecords attempt.publish.1) ∧
      ∀ record ∈ metricRecords attempt.publish.1,
        record.header.requestId = attempt.envelope.requestId := by
  unfold Attempt.publish
  split
  · next n hn =>
    have hsublist : (metricRecords (publishSync attempt.broker n).1).Sublist (buildMetricRecords n) := by
      rw [← metricRecords_topicRecords]
      exact (publishSync_initial attempt.broker n).sublist.filterMap _
    refine ⟨?_, fun record hrecord => ?_⟩
    · refine List.Nodup.sublist (hsublist.map _) ?_
      refine List.Nodup.of_map Prod.snd ?_
      rw [List.map_map]
      have hindex := map_metricIndex n
      exact hindex ▸ List.nodup_range
    · rw [mem_buildMetricRecords (hsublist.subset hrecord), normalizeEvent_requestId hn]
  · exact ⟨List.nodup_nil, fun _ hrecord => absurd hrecord List.not_mem_nil⟩

theorem frameRecords_publish (attempt : Attempt) :
    UniqueBy frameStagingKey (signalFrameRecords attempt.publish.1) ∧
      ∀ record ∈ signalFrameRecords attempt.publish.1,
        record.header.requestId = attempt.envelope.requestId := by
  unfold Attempt.publish
  split
  · next n hn =>
    have hsublist : (signalFrameRecords (publishSync attempt.broker n).1).Sublist
        (buildSignalFrameRecords n) := by
      rw [← signalFrameRecords_topicRecords]
      exact (publishSync_initial attempt.broker n).sublist.filterMap _
    refine ⟨?_, fun record hrecord => ?_⟩
    · refine List.Nodup.sublist (hsublist.map _) ?_
      match buildSignalFrameRecords n, length_buildSignalFrameRecords n with
      | [], _ => exact List.nodup_nil
      | [record], _ => exact List.nodup_singleton _
    · rw [mem_buildSignalFrameRecords (hsublist.subset hrecord), normalizeEvent_requestId hn]
  · exact ⟨List.nodup_nil, fun _ hrecord => absurd hrecord List.not_mem_nil⟩

/-- Attempts with request ids of their own publish no two records under one staging key. -/
theorem unique_flatMap {ρ κ : Type} {key : ρ → κ} {records : Attempt → List ρ}
    {attempts : List Attempt} (requestId : κ → List Char)
    (hfresh : (attempts.map (·.envelope.requestId)).Nodup)
    (hrecords : ∀ attempt, UniqueBy key (records attempt) ∧ ∀ record ∈ records attempt,
      requestId (key record) = attempt.envelope.requestId) :
    UniqueBy key (attempts.flatMap records) := by
  rw [UniqueBy, List.map_flatMap, List.nodup_flatMap]
  refine ⟨fun attempt _ => (hrecords attempt).1, ?_⟩
  refine (List.pairwise_map.mp hfresh).imp fun {a b} hne => ?_
  refine List.disjoint_left.mpr fun k ha hb => ?_
  obtain ⟨record, hrecord, rfl⟩ := List.mem_map.mp ha
  obtain ⟨record', hrecord', heq⟩ := List.mem_map.mp hb
  exact hne (((hrecords a).2 record hrecord).symm.trans
    ((congrArg requestId heq).symm.trans ((hrecords b).2 record' hrecord')))

theorem unique_metricRecords {attempts : List Attempt}
    (hfresh : (attempts.map (·.envelope.requestId)).Nodup) :
    UniqueBy metricStagingKey (metricRecords (topics attempts)) := by
  rw [metricRecords_topics]
  exact unique_flatMap Prod.fst hfresh metricRecords_publish

theorem unique_frameRecords {attempts : List Attempt}
    (hfresh : (attempts.map (·.envelope.requestId)).Nodup) :
    UniqueBy frameStagingKey (signalFrameRecords (topics attempts)) := by
  have htopics : signalFrameRecords (topics attempts) =
      attempts.flatMap fun attempt => signalFrameRecords attempt.publish.1 := by
    rw [signalFrameRecords, topics, List.filterMap_flatMap]
    rfl
  rw [htopics]
  exact unique_flatMap id hfresh frameRecords_publish

/-! The counts in the tables -/

variable {c : Conversions} {attempts : List Attempt} {upserts : List TopicRecord}

theorem countP_points (hfresh : (attempts.map (·.envelope.requestId)).Nodup)
    (hdelivers : Delivers c (topics attempts) upserts) (event : IngestEvent) (index : Nat) :
    (Database.run c upserts).points.countP (fun point =>
      (point.boot.1, point.boot.2, point.sequence) = eventKey event ∧ point.metricIndex = index) =
      (topics attempts).countP (isMetricOf event index) := by
  rw [(points_run (unique_metricRecords hfresh) (unique_frameRecords hfresh) hdelivers).countP_eq,
    List.countP_filterMap]
  refine List.countP_congr fun record hrecord => ?_
  cases record with
  | raw record => exact Iff.rfl
  | signalFrame record => exact Iff.rfl
  | metric record =>
    obtain ⟨hpoint, hsome⟩ := hdelivers.pointOf hrecord
    obtain ⟨joined, hjoined⟩ := Option.isSome_iff_exists.mp hsome
    obtain ⟨receivedAt, -, rfl⟩ := Option.map_eq_some_iff.mp hjoined
    rw [hpoint, hjoined]
    exact Iff.rfl

theorem countP_frames (hfresh : (attempts.map (·.envelope.requestId)).Nodup)
    (hdelivers : Delivers c (topics attempts) upserts) (event : IngestEvent) :
    (Database.run c upserts).frames.countP (fun row =>
      (row.boot.1, row.boot.2, row.sequence) = eventKey event) =
      (topics attempts).countP (isFrameOf event) := by
  rw [(frames_run (unique_metricRecords hfresh) (unique_frameRecords hfresh) hdelivers).countP_eq,
    List.countP_filterMap]
  refine List.countP_congr fun record hrecord => ?_
  cases record with
  | raw record => exact Iff.rfl
  | metric record => exact Iff.rfl
  | signalFrame record =>
    obtain ⟨hframe, hsome⟩ := hdelivers.frameOf hrecord
    obtain ⟨joined, hjoined⟩ := Option.isSome_iff_exists.mp hsome
    obtain ⟨receivedAt, -, hdecoded⟩ := Option.bind_eq_some_iff.mp hjoined
    obtain ⟨decodedSamples, -, rfl⟩ := Option.map_eq_some_iff.mp hdecoded
    rw [hframe, hjoined]
    exact Iff.rfl

theorem countP_raw (hdelivers : Delivers c (topics attempts) upserts) {attempt : Attempt}
    {n : NormalizedEvent} (hmem : attempt ∈ attempts)
    (hn : normalizeEvent attempt.envelope attempt.event = .ok n)
    (haccepted : attempt.publish.2 = true) :
    (Database.run c upserts).rawDeviceEvents.rows.countP
      (fun row => rawKey row = eventKey attempt.event) = 1 := by
  have htopics : .raw (buildSinkRecord n) ∈ topics attempts := by
    refine List.mem_flatMap.mpr ⟨attempt, hmem, ?_⟩
    simp only [Attempt.publish, hn] at haccepted ⊢
    rw [publishSync_true haccepted]
    exact List.mem_cons_self
  have hrow := exists_raw_run c (hdelivers.mem htopics) (hdelivers.fitsColumns htopics)
  have hkey : rawKey (buildSinkRecord n) = eventKey attempt.event := normalizeEvent_key hn
  exact Keyed.countP_eq_one (hkey ▸ hrow)

/-- The first record after the raw one is what `p` picks, if the type of the event lets it
have any. -/
def LeadsExpansion (event : IngestEvent) (p : TopicRecord → Bool) : Prop :=
  ∀ envelope n, normalizeEvent envelope event = .ok n →
    if event.eventType = EVENT_TYPE_TELEMETRY then
      ∃ record records, topicRecords n = .raw (buildSinkRecord n) :: record :: records ∧
        p record = true
    else (topicRecords n).countP p = 0

theorem Picks.countP_attempt (h : Picks event p) (hleads : LeadsExpansion event p)
    (hnormal : ∀ envelope, ∃ n, normalizeEvent envelope event = .ok n) {attempt : Attempt}
    (hsame : eventKey attempt.event = eventKey event → attempt.event = event) :
    attempt.publish.1.countP p =
      if event.eventType = EVENT_TYPE_TELEMETRY ∧ attempt.expands event = true then 1 else 0 := by
  have hle := h.countP_le attempt
  by_cases hexpands : attempt.expands event = true
  · obtain ⟨hkey, hpasses⟩ := of_decide_eq_true hexpands
    obtain ⟨n, hn⟩ := hnormal attempt.envelope
    have hpublish : attempt.publish = publishSync attempt.broker n := by
      rw [Attempt.publish, hsame hkey, hn]
    have hexpansion := hleads attempt.envelope n hn
    rw [hpublish] at hle ⊢
    split at hexpansion
    · next htype =>
      obtain ⟨record, records, hrecords, hp⟩ := hexpansion
      rw [if_pos hexpands] at hle
      rw [if_pos ⟨htype, hexpands⟩]
      exact Nat.le_antisymm hle
        (List.countP_pos_iff.mpr ⟨record, publishSync_second hpasses hrecords, hp⟩)
    · next htype =>
      rw [if_neg fun hboth => htype hboth.1]
      have hsublist := (publishSync_initial attempt.broker n).sublist.countP_le (p := p)
      omega
  · rw [if_neg hexpands] at hle
    rw [if_neg fun hboth => hexpands hboth.2]
    exact Nat.le_zero.mp hle

/-- The records that `p` picks on the topics are as many as the attempts that expand. -/
theorem Picks.countP_topics (h : Picks event p) (hleads : LeadsExpansion event p)
    (hnormal : ∀ envelope, ∃ n, normalizeEvent envelope event = .ok n)
    (hsame : ∀ attempt ∈ attempts, eventKey attempt.event = eventKey event → attempt.event = event) :
    (topics attempts).countP p =
      if event.eventType = EVENT_TYPE_TELEMETRY then attempts.countP (·.expands event) else 0 := by
  rw [Aetus.countP_topics]
  split
  · next htype =>
    refine sum_eq_countP fun attempt hmem => ?_
    rw [h.countP_attempt hleads hnormal (hsame attempt hmem)]
    simp [htype]
  · next htype =>
    refine List.sum_eq_zero fun count hcount => ?_
    obtain ⟨attempt, hmem, rfl⟩ := List.mem_map.mp hcount
    rw [h.countP_attempt hleads hnormal (hsame attempt hmem), if_neg fun hboth => htype hboth.1]

theorem Picks.countP_topics_eq_one_iff (h : Picks event p) (hleads : LeadsExpansion event p)
    (hnormal : ∀ envelope, ∃ n, normalizeEvent envelope event = .ok n)
    (hsame : ∀ attempt ∈ attempts, eventKey attempt.event = eventKey event → attempt.event = event) :
    (topics attempts).countP p = 1 ↔
      event.eventType = EVENT_TYPE_TELEMETRY ∧ attempts.countP (·.expands event) = 1 := by
  rw [h.countP_topics hleads hnormal hsame]
  split
  · next htype => exact (and_iff_right htype).symm
  · next htype => exact iff_of_false Nat.zero_ne_one fun hboth => htype hboth.1

theorem normalizePayload_metricSet {metrics : List Metric} {payload : NormalizedPayload}
    (hbody : event.body = some (.telemetry (some (.metricSet metrics))))
    (h : normalizePayload event = .ok payload) :
    ∃ normalized, payload = .metricSet normalized ∧ normalized.length = metrics.length := by
  rw [normalizePayload, hbody] at h
  cases hmetrics : metrics.mapM normalizeMetric with
  | error e =>
    simp only [hmetrics] at h
    cases h
  | ok normalized =>
    simp only [hmetrics] at h
    exact ⟨normalized, (Except.ok.inj h).symm, (mapM_ok hmetrics).length_eq.symm⟩

theorem normalizePayload_signalFrame {frame : SignalFrame} {payload : NormalizedPayload}
    (hbody : event.body = some (.telemetry (some (.signalFrame frame))))
    (h : normalizePayload event = .ok payload) : ∃ normalized, payload = .signalFrame normalized := by
  rw [normalizePayload, hbody] at h
  cases hframe : normalizeSignalFrame frame with
  | error e =>
    simp only [hframe] at h
    cases h
  | ok normalized =>
    simp only [hframe] at h
    exact ⟨normalized, (Except.ok.inj h).symm⟩

theorem leadsExpansion_frame {frame : SignalFrame}
    (hbody : event.body = some (.telemetry (some (.signalFrame frame)))) :
    LeadsExpansion event (isFrameOf event) := by
  intro envelope n hn
  have hkey := normalizeEvent_key hn
  obtain ⟨payload, hpayload, rfl⟩ := normalizeEvent_ok hn
  obtain ⟨normalized, rfl⟩ := normalizePayload_signalFrame hbody hpayload
  have hmetrics : buildMetricRecords (normalizedEvent envelope event (.signalFrame normalized)) = [] :=
    buildMetricRecords_eq_nil nofun
  rw [topicRecords, hmetrics, buildSignalFrameRecords_signalFrame]
  split
  · exact ⟨_, _, rfl, decide_eq_true hkey⟩
  · rfl

theorem leadsExpansion_metric {metrics : List Metric} (hmetrics : metrics ≠ [])
    (hbody : event.body = some (.telemetry (some (.metricSet metrics)))) :
    LeadsExpansion event (isMetricOf event 0) := by
  intro envelope n hn
  have hkey := normalizeEvent_key hn
  obtain ⟨payload, hpayload, rfl⟩ := normalizeEvent_ok hn
  obtain ⟨normalized, rfl, hlength⟩ := normalizePayload_metricSet hbody hpayload
  have hframes :
      buildSignalFrameRecords (normalizedEvent envelope event (.metricSet normalized)) = [] :=
    buildSignalFrameRecords_eq_nil nofun
  rw [topicRecords, buildMetricRecords_metricSet, hframes]
  split
  · cases normalized with
    | nil => exact absurd (List.eq_nil_of_length_eq_zero hlength.symm) hmetrics
    | cons metric normalized =>
      rw [List.mapIdx_cons, List.map_cons]
      exact ⟨_, _, rfl, decide_eq_true ⟨hkey, rfl⟩⟩
  · rfl

theorem countP_topicRecords_metric {metrics : List Metric} {envelope : Envelope} {n : NormalizedEvent}
    {index : Nat} (hbody : event.body = some (.telemetry (some (.metricSet metrics))))
    (htype : event.eventType = EVENT_TYPE_TELEMETRY) (hindex : index < metrics.length)
    (hn : normalizeEvent envelope event = .ok n) :
    0 < (topicRecords n).countP (isMetricOf event index) := by
  have hkey := normalizeEvent_key hn
  obtain ⟨payload, hpayload, rfl⟩ := normalizeEvent_ok hn
  obtain ⟨normalized, rfl, hlength⟩ := normalizePayload_metricSet hbody hpayload
  rw [← hlength] at hindex
  refine List.countP_pos_iff.mpr ⟨.metric (buildMetricRecord _ index normalized[index]), ?_,
    decide_eq_true ⟨hkey, rfl⟩⟩
  rw [← mem_metricRecords, metricRecords_topicRecords, buildMetricRecords_metricSet, if_pos htype]
  exact List.mem_mapIdx.mpr ⟨index, hindex, rfl⟩

theorem body_cases (event : IngestEvent) :
    (∃ metrics, event.body = some (.telemetry (some (.metricSet metrics)))) ∨
      (∃ frame, event.body = some (.telemetry (some (.signalFrame frame)))) ∨
      (∀ payload, event.body ≠ some (.telemetry (some payload))) ∧ ¬CarriesData event := by
  unfold CarriesData
  split
  · next metrics hbody => exact .inl ⟨metrics, hbody⟩
  · next frame hbody => exact .inr (.inl ⟨frame, hbody⟩)
  · next hmetrics hframe =>
    refine .inr (.inr ⟨fun payload hbody => ?_, id⟩)
    cases payload with
    | metricSet metrics => exact hmetrics metrics hbody
    | signalFrame frame => exact hframe frame hbody

/-- With an accepted attempt, the points of an index are as many as the attempts that expand, if
these are one. -/
theorem countP_metric_eq_one {accepted : Attempt} {metrics : List Metric} {n : NormalizedEvent}
    {index : Nat} (hbody : accepted.event.body = some (.telemetry (some (.metricSet metrics))))
    (htype : accepted.event.eventType = EVENT_TYPE_TELEMETRY) (hindex : index < metrics.length)
    (hmem : accepted ∈ attempts) (hn : normalizeEvent accepted.envelope accepted.event = .ok n)
    (haccepted : accepted.publish.2 = true)
    (hone : attempts.countP (·.expands accepted.event) = 1) :
    (topics attempts).countP (isMetricOf accepted.event index) = 1 := by
  have hpicks := picks_metric accepted.event index
  rw [countP_topics]
  refine Nat.le_antisymm (hone ▸ sum_le_countP fun attempt _ => hpicks.countP_le attempt) ?_
  have hpos := countP_topicRecords_metric hbody htype hindex hn
  rw [← countP_accepted hn haccepted] at hpos
  exact hpos.trans_le (List.single_le_sum (fun _ _ => Nat.zero_le _) _ (List.mem_map_of_mem hmem))

/-- An accepted event is stored once if and only if it has nothing to expand, or it can be
expanded and exactly one attempt at it gets past the raw record. -/
theorem resend_storedOnce_iff (hfresh : (attempts.map (·.envelope.requestId)).Nodup)
    (hsame : ∀ a ∈ attempts, ∀ b ∈ attempts, eventKey a.event = eventKey b.event →
      a.event = b.event)
    (hdelivers : Delivers c (topics attempts) upserts) {accepted : Attempt}
    (hmem : accepted ∈ attempts) (haccepted : accepted.publish.2 = true) :
    StoredOnce (Database.run c upserts) accepted.event ↔ ¬CarriesData accepted.event ∨
      accepted.event.eventType = EVENT_TYPE_TELEMETRY ∧
        attempts.countP (·.expands accepted.event) = 1 := by
  obtain ⟨n, hn⟩ := normalizeEvent_of_accepted haccepted
  have hnormal := normalizeEvent_anyEnvelope hn
  have hraw := countP_raw hdelivers hmem hn haccepted
  have hpoints := countP_points hfresh hdelivers accepted.event
  have hframes := countP_frames hfresh hdelivers accepted.event
  have hkeyed (attempt : Attempt) (hattempt : attempt ∈ attempts) :=
    hsame attempt hattempt accepted hmem
  rcases body_cases accepted.event with ⟨metrics, hbody⟩ | ⟨frame, hbody⟩ | ⟨hbody, hcarries⟩
  · by_cases hmetrics : metrics = []
    · refine iff_of_true ⟨hraw, fun metrics' hbody' index hindex => ?_, fun frame hbody' => ?_⟩
        (.inl (by simp [CarriesData, hbody, hmetrics]))
      · obtain rfl : metrics = metrics' := by simpa [hbody] using hbody'
        simp [hmetrics] at hindex
      · simp [hbody] at hbody'
    · have hcount := (picks_metric accepted.event 0).countP_topics_eq_one_iff
        (leadsExpansion_metric hmetrics hbody) hnormal hkeyed
      rw [or_iff_right (by simp [CarriesData, hbody, hmetrics])]
      constructor
      · intro hstored
        have hone := hstored.points metrics hbody 0 (List.length_pos_iff.mpr hmetrics)
        rw [hpoints] at hone
        exact hcount.mp hone
      · rintro ⟨htype, hone⟩
        refine ⟨hraw, fun metrics' hbody' index hindex => ?_, fun frame hbody' => ?_⟩
        · obtain rfl : metrics = metrics' := by simpa [hbody] using hbody'
          rw [hpoints]
          exact countP_metric_eq_one hbody htype hindex hmem hn haccepted hone
        · simp [hbody] at hbody'
  · have hcount := (picks_frame accepted.event).countP_topics_eq_one_iff
      (leadsExpansion_frame hbody) hnormal hkeyed
    rw [or_iff_right (by simp [CarriesData, hbody])]
    constructor
    · intro hstored
      have hone := hstored.frames frame hbody
      rw [hframes] at hone
      exact hcount.mp hone
    · intro hone
      refine ⟨hraw, fun metrics hbody' => ?_, fun _ _ => ?_⟩
      · simp [hbody] at hbody'
      · rw [hframes]
        exact hcount.mpr hone
  · refine iff_of_true ⟨hraw, fun metrics hbody' => ?_, fun frame hbody' => ?_⟩ (.inl hcarries)
    · exact absurd hbody' (hbody _)
    · exact absurd hbody' (hbody _)

def metricAttempt (requestId : List Char) : Attempt :=
  ⟨oneMetricEvent EVENT_TYPE_TELEMETRY, ⟨requestId, "t".toList, "::1".toList⟩,
    ⟨fun _ => .acked, true⟩⟩

/-- The broker takes the raw record and nothing more. -/
def rawAttempt (requestId : List Char) : Attempt :=
  { metricAttempt requestId with
    broker := ⟨fun i => if i = 0 then .acked else .failed false, true⟩ }

theorem metricAttempts_delivered (attempts : List Attempt)
    (h : (topics attempts).all
      (fun record => (Database.empty.upsert epochConversions record).isSome) = true) :
    Delivers epochConversions (topics attempts) (topics attempts) :=
  delivers_of_mem (fun _ => Iff.rfl) (List.all_eq_true.mp h)

/-- The device is told of a failure and sends the event again. What reaches the topics comes twice,
the second time from the end. -/
theorem resend_storedOnce_retried :
    let attempts := [rawAttempt "r1".toList, metricAttempt "r2".toList]
    (rawAttempt "r1".toList).publish.2 = false ∧
      StoredOnce (Database.run epochConversions (topics attempts ++ (topics attempts).reverse))
        (oneMetricEvent EVENT_TYPE_TELEMETRY) := by
  intro attempts
  have hdelivers : Delivers epochConversions (topics attempts)
      (topics attempts ++ (topics attempts).reverse) :=
    delivers_of_mem (fun record => by simp) (List.all_eq_true.mp (by decide +kernel))
  have hsame : ∀ a ∈ attempts, a.event = oneMetricEvent EVENT_TYPE_TELEMETRY := by
    simp [attempts, rawAttempt, metricAttempt]
  have hmem : metricAttempt "r2".toList ∈ attempts := List.mem_cons_of_mem _ List.mem_cons_self
  have haccepted : (metricAttempt "r2".toList).publish.2 = true := by decide +kernel
  refine ⟨by decide +kernel, (resend_storedOnce_iff (by decide +kernel) (fun a ha b hb _ => ?_)
    hdelivers hmem haccepted).mpr (.inr ⟨rfl, by decide +kernel⟩)⟩
  rw [hsame a ha, hsame b hb]

/-- The response is lost and the event sent again: its one metric is stored twice. -/
theorem lostResponse_storedTwice :
    let attempts := [metricAttempt "r1".toList, metricAttempt "r2".toList]
    (attempts.map (·.envelope.requestId)).Nodup ∧ (∀ a ∈ attempts, a.publish.2 = true) ∧
      (∀ a ∈ attempts, ∀ b ∈ attempts, a.event = b.event) ∧
      Delivers epochConversions (topics attempts) (topics attempts) ∧
      ∀ a ∈ attempts, ¬StoredOnce (Database.run epochConversions (topics attempts)) a.event := by
  intro attempts
  have hevent : ∀ a ∈ attempts, a.event = oneMetricEvent EVENT_TYPE_TELEMETRY := by
    simp [attempts, metricAttempt]
  refine ⟨by decide +kernel, List.all_eq_true.mp (by decide +kernel), fun a ha b hb => ?_,
    metricAttempts_delivered attempts (by decide +kernel), fun a ha hstored => ?_⟩
  · rw [hevent a ha, hevent b hb]
  · rw [hevent a ha] at hstored
    have hone := hstored.points _ rfl 0 (by decide)
    revert hone
    decide +kernel

end Aetus
