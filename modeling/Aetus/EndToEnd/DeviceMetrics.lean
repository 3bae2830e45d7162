import Aetus.EndToEnd.DeviceEvents
import Aetus.EndToEnd.Resend

/-!
The metrics of a telemetry structure on their way from the add calls to the rows of the database.
-/

set_option autoImplicit false

namespace Aetus
open Aetus.Base Aetus.Base.Protobuf Aetus.Firmware

def Postgres.MetricPoint.valueColumns {δ β μ : Type} (point : Postgres.MetricPoint δ β μ) :
    List (String × Ingest.NormalizedValue) :=
  [("double", point.valueDouble), ("int", point.valueInt), ("bool", point.valueBool),
    ("string", point.valueString), ("bytes_hex", point.valueBytesHex)].filterMap
      fun column => column.2.map (column.1, ·)

structure PointTells (floats : FloatBits) (r : ReportMetric)
    (point : Postgres.MetricPoint (List Char) (List Char × List Char) Postgres.MetricDefinition) :
    Prop where
  key : utf8 point.metric.metricKey = r.key
  unit : utf8 point.metric.metricUnit = r.unit
  value : ∃ added value, r.value = some added ∧
    added.sent.bind (decodeValue floats) = some value ∧ point.valueColumns = [value.column] ∧
    point.metric.valueType = value.column.1.toList

structure PointStamped (rt : Runtime CString) (timestampNs : UInt64)
    (point : Postgres.MetricPoint (List Char) (List Char × List Char) Postgres.MetricDefinition) :
    Prop where
  device : utf8 point.device =
    (copyString .empty EVENT_DEVICE_ID_SIZE (some rt.config.deviceId)).bytes
  boot : point.boot.1 = point.device ∧
    utf8 point.boot.2 = (copyString .empty EVENT_BOOT_ID_SIZE (some rt.bootId)).bytes
  sequence : point.sequence = rt.sequence.toNat
  eventTimeNs : point.eventTimeNs = Ingest.numberOrNone timestampNs.toNat

structure MetricRead (floats : FloatBits) (r : ReportMetric) (metric : Ingest.Metric) : Prop where
  key : utf8 metric.key = r.key
  unit : utf8 metric.unit = r.unit
  value : ∃ added, r.value = some added ∧ metric.value = added.sent.bind (decodeValue floats)

theorem metricRead_of_decode {floats : FloatBits} {r s : ReportMetric} {metric : Ingest.Metric}
    {added : ReportValue} (hvalue : r.value = some added) (hsent : r.sent = some s)
    (hdecode : decodeMetric floats s = some metric) : MetricRead floats r metric := by
  rw [ReportMetric.sent, hvalue] at hsent
  obtain ⟨v, hv, rfl⟩ := Option.map_eq_some_iff.mp hsent
  simp only [decodeMetric, Option.bind_eq_bind, Option.bind_eq_some_iff] at hdecode
  obtain ⟨key, hkey, unit, hunit, value, hdecoded, hmetric⟩ := hdecode
  cases hmetric
  obtain ⟨value, hone, rfl⟩ := Option.map_eq_some_iff.mp hdecoded
  refine ⟨decodeText_eq_some_iff.mp hkey, decodeText_eq_some_iff.mp hunit, added, hvalue, ?_⟩
  rw [hv, Option.bind_some, hone]

theorem reported_read {floats : FloatBits}
    {parseFromString : List UInt8 → Option Ingest.IngestEvent}
    (hreads : ReadsMessages floats parseFromString) {metrics : List ReportMetric} {c : Telemetry}
    {l : Heap} {rt : Runtime CString} {uptimeMs : UInt64} {bufferSize : Nat} {payload : List UInt8}
    {event : Ingest.IngestEvent} (hcount : c.metricCount ≤ AETUS_MAX_METRICS)
    (hall : List.Forall₂ (Firmware.Holds l) metrics (c.slots.take c.metricCount))
    (hpayload : telemetryPayload l rt uptimeMs c bufferSize = some payload)
    (hparse : parseFromString payload = some event) :
    ∃ read, event.body = some (.telemetry (some (.metricSet read))) ∧
      List.Forall₂ (MetricRead floats) metrics read ∧
      event.eventType = Ingest.EVENT_TYPE_TELEMETRY ∧
      utf8 event.deviceId = (copyString .empty EVENT_DEVICE_ID_SIZE (some rt.config.deviceId)).bytes ∧
      utf8 event.bootId = (copyString .empty EVENT_BOOT_ID_SIZE (some rt.bootId)).bytes ∧
      event.sequence = rt.sequence ∧ event.timestampNs = c.timestampNs := by
  rw [telemetryPayload_eq hcount hall] at hpayload
  obtain ⟨sent, hsent, hpayload⟩ := Option.bind_eq_some_iff.mp hpayload
  obtain ⟨-, hbytes⟩ := Option.ite_none_right_eq_some.mp hpayload
  have hwrite : payload = write ((encodeTelemetry rt uptimeMs c).around (.metricSet sent)).fields := by
    rw [← Option.some.inj hbytes, IngestEvent.around_fields]
    rfl
  rw [hwrite, hreads] at hparse
  simp only [EventMessage.decode, IngestEvent.around, BodyMessage.decode, Option.bind_eq_bind,
    Option.bind_eq_some_iff] at hparse
  obtain ⟨deviceId, hdevice, bootId, hboot, body, hbody, hevent⟩ := hparse
  obtain ⟨payload, hdecode, rfl⟩ := Option.map_eq_some_iff.mp hbody
  obtain ⟨read, hread, rfl⟩ := Option.map_eq_some_iff.mp hdecode
  cases hevent
  refine ⟨read, rfl, ?_, rfl, decodeText_eq_some_iff.mp hdevice, decodeText_eq_some_iff.mp hboot,
    rfl, rfl⟩
  have hvalues : ∀ r ∈ metrics, ∃ added, r.value = some added := by
    intro r hr
    obtain ⟨m, -, hm⟩ := forall₂_exists_right hall hr
    obtain ⟨added, hadded, -⟩ := hm.value
    exact ⟨added, hadded⟩
  refine forall₂_trans (fun r s metric hs hm => ?_)
    ((List.forall₂_and_left _ _).mpr ⟨hvalues, mapM_some hsent⟩) (mapM_some hread)
  obtain ⟨⟨added, hadded⟩, hs⟩ := hs
  exact metricRead_of_decode hadded hs hm

section Rows
open Aetus.Ingest Aetus.Postgres

variable {conv : Conversions} {attempts : List Attempt} {upserts : List TopicRecord}

theorem pointOf_requestId {attempt : Attempt} {record : TopicRecord}
    {point : MetricPoint (List Char) (List Char × List Char) MetricDefinition}
    (hrecord : record ∈ attempt.publish.1) (hpoint : pointOf conv record = some point) :
    point.requestId = attempt.envelope.requestId := by
  obtain ⟨metric, rfl, -, hcontent, -⟩ := pointOf_some hpoint
  obtain ⟨receivedAt, -, rfl⟩ := Option.map_eq_some_iff.mp hcontent
  exact (metricRecords_publish attempt).2 metric (mem_metricRecords.mpr hrecord)

theorem filter_points_of_ne {attempt : Attempt} {requestId : List Char}
    (hne : attempt.envelope.requestId ≠ requestId) :
    (attempt.publish.1.filterMap (pointOf conv)).filter (fun p => p.requestId = requestId) = [] := by
  refine List.filter_eq_nil_iff.mpr fun point hpoint => ?_
  obtain ⟨record, hrecord, hpoint⟩ := List.mem_filterMap.mp hpoint
  rw [pointOf_requestId hrecord hpoint]
  simpa using hne

/-- Of all that is published under fresh request ids, an attempt's own part has its id. -/
theorem filter_points_topics (hfresh : (attempts.map (·.envelope.requestId)).Nodup)
    {attempt : Attempt} (hmem : attempt ∈ attempts) :
    ((topics attempts).filterMap (pointOf conv)).filter
        (fun p => p.requestId = attempt.envelope.requestId) =
      attempt.publish.1.filterMap (pointOf conv) := by
  obtain ⟨before, after, rfl⟩ := List.append_of_mem hmem
  have hothers : ∀ others : List Attempt, (∀ other ∈ others,
      other.envelope.requestId ≠ attempt.envelope.requestId) →
      ((topics others).filterMap (pointOf conv)).filter
        (fun p => p.requestId = attempt.envelope.requestId) = [] := by
    intro others hne
    rw [topics, List.filterMap_flatMap, List.filter_flatMap]
    exact List.flatMap_eq_nil_iff.mpr fun other hother => filter_points_of_ne (hne other hother)
  rw [List.map_append, List.map_cons, List.nodup_append] at hfresh
  obtain ⟨-, hafter, hbefore⟩ := hfresh
  have hown : (attempt.publish.1.filterMap (pointOf conv)).filter
      (fun p => p.requestId = attempt.envelope.requestId) =
        attempt.publish.1.filterMap (pointOf conv) := by
    refine List.filter_eq_self.mpr fun point hpoint => ?_
    obtain ⟨record, hrecord, hpoint⟩ := List.mem_filterMap.mp hpoint
    exact decide_eq_true (pointOf_requestId hrecord hpoint)
  have hsplit : topics (before ++ attempt :: after) =
      topics before ++ (attempt.publish.1 ++ topics after) := by
    simp [topics]
  rw [hsplit, List.filterMap_append, List.filterMap_append, List.filter_append, List.filter_append,
    hown, hothers before fun other hother => hbefore _ (List.mem_map_of_mem hother) _
      List.mem_cons_self, hothers after fun other hother heq =>
      (List.nodup_cons.mp hafter).1 (heq ▸ List.mem_map_of_mem hother)]
  simp

theorem points_of_attempt (hfresh : (attempts.map (·.envelope.requestId)).Nodup)
    (hdelivers : Delivers conv (topics attempts) upserts) {attempt : Attempt} {n : NormalizedEvent}
    (hmem : attempt ∈ attempts) (hn : normalizeEvent attempt.envelope attempt.event = .ok n)
    (haccepted : attempt.publish.2 = true) :
    ∃ points, ((Database.run conv upserts).points.filter fun p =>
        p.requestId = attempt.envelope.requestId).Perm points ∧
      List.Forall₂ (fun record point => pointContent conv record = some point)
        (buildMetricRecords n) points := by
  have hpublish : attempt.publish.1 = topicRecords n := by
    simp only [Attempt.publish, hn] at haccepted ⊢
    exact publishSync_true haccepted
  have htopics : ∀ record ∈ topicRecords n, record ∈ topics attempts := by
    intro record hrecord
    exact List.mem_flatMap.mpr ⟨attempt, hmem, hpublish ▸ hrecord⟩
  have hrows := points_run (unique_metricRecords hfresh) (unique_frameRecords hfresh) hdelivers
  refine ⟨(topicRecords n).filterMap (pointOf conv), ?_, ?_⟩
  · rw [← hpublish, ← filter_points_topics hfresh hmem]
    exact hrows.filter _
  · rw [← metricRecords_topicRecords]
    exact points_forall₂ fun record hrecord => hdelivers.pointOf (htopics _ hrecord)

theorem records_of_metrics {envelope : Envelope} {event : Ingest.IngestEvent} {n : NormalizedEvent}
    {read : List Ingest.Metric}
    (hbody : event.body = some (.telemetry (some (.metricSet read))))
    (htype : event.eventType = EVENT_TYPE_TELEMETRY) (hn : normalizeEvent envelope event = .ok n) :
    List.Forall₂ (fun metric record => ∃ index, MetricRecord.Of event index metric record) read
      (buildMetricRecords n) := by
  have hlossless := (topicRecords_lossless_iff hn).mpr (.inl htype)
  simp only [Lossless, hbody, metricRecords_topicRecords] at hlossless
  obtain ⟨hlength, hall⟩ := hlossless
  refine List.forall₂_iff_get.mpr ⟨hlength.symm, fun index hindex hrecord => ⟨index, ?_⟩⟩
  obtain ⟨record, hget, hof⟩ := hall index hindex
  obtain ⟨_, hsame⟩ := List.getElem?_eq_some_iff.mp hget
  rw [List.get_eq_getElem, List.get_eq_getElem, hsame]
  exact hof

theorem getD_textOrNone (text : List Char) : (textOrNone text).getD [] = text := by
  unfold textOrNone
  split
  · next h => exact h.symm
  · rfl

theorem pointTells_of_record {floats : FloatBits} {r : ReportMetric} {event : Ingest.IngestEvent}
    {index : Nat} {metric : Ingest.Metric} {record : MetricRecord}
    {point : MetricPoint (List Char) (List Char × List Char) MetricDefinition}
    (hread : MetricRead floats r metric) (hof : MetricRecord.Of event index metric record)
    (hcontent : pointContent conv record = some point) : PointTells floats r point := by
  obtain ⟨receivedAt, -, rfl⟩ := Option.map_eq_some_iff.mp hcontent
  obtain ⟨added, hadded, hsame⟩ := hread.value
  obtain ⟨value, hvalue, hcolumns, htype⟩ := hof.value
  refine ⟨?_, ?_, added, value, hadded, hsame.symm.trans hvalue, hcolumns, htype⟩
  · rw [← hread.key, ← hof.metricKey]
    rfl
  · rw [← hread.unit, ← getD_textOrNone metric.unit, ← hof.metricUnit]
    rfl

theorem reported_stored {floats : FloatBits}
    {parseFromString : List UInt8 → Option Ingest.IngestEvent}
    (hreads : ReadsMessages floats parseFromString) {metrics : List ReportMetric}
    {t c : Firmware.Telemetry} {h k l : Heap} {item : QueueItem} {rt : Runtime CString}
    {uptimeMs : UInt64} {bufferSize : Nat} {payload : List UInt8} {attempt : Attempt}
    (hr : Reported metrics t h)
    (hcopy : copyTelemetryToQueueItem (some t) (some item) h =
      (.ok, some ⟨none, .telemetry c⟩, k))
    (hkeeps : k.Keeps l c.blocks)
    (hpayload : telemetryPayload l rt uptimeMs c bufferSize = some payload)
    (hparse : parseFromString payload = some attempt.event)
    (hfresh : (attempts.map (·.envelope.requestId)).Nodup)
    (hdelivers : Delivers conv (topics attempts) upserts) (hmem : attempt ∈ attempts)
    (haccepted : attempt.publish.2 = true) :
    ∃ n points, ((Database.run conv upserts).points.filter fun p =>
        p.requestId = attempt.envelope.requestId).Perm points ∧
      List.Forall₂ (fun record point => pointContent conv record = some point)
        (buildMetricRecords n) points ∧
      List.Forall₂ (fun r point => PointTells floats r point ∧
        PointStamped rt t.timestampNs point) metrics points := by
  obtain ⟨hcount, hall⟩ := hr.copy_holds hcopy hkeeps
  obtain ⟨read, hbody, hread, htype, hdevice, hboot, hsequence, htime⟩ :=
    reported_read hreads hcount hall hpayload hparse
  obtain ⟨n, hn⟩ := normalizeEvent_of_accepted haccepted
  obtain ⟨points, hperm, hpoints⟩ := points_of_attempt hfresh hdelivers hmem hn haccepted
  have hrecords := records_of_metrics hbody htype hn
  have htimestamp : c.timestampNs = t.timestampNs :=
    (copyTelemetry_ownCopy hr.holds.1 hcopy).scalars.1
  refine ⟨n, points, hperm, hpoints, ?_⟩
  refine forall₂_trans (fun r metric point hmetric hpoint => ?_) hread
    (forall₂_trans (fun metric record point hof hcontent =>
      (⟨record, hof, hcontent⟩ :
        ∃ record, (∃ index, MetricRecord.Of attempt.event index metric record) ∧
          pointContent conv record = some point)) hrecords hpoints)
  obtain ⟨record, ⟨index, hof⟩, hcontent⟩ := hpoint
  refine ⟨pointTells_of_record hmetric hof hcontent, ?_⟩
  obtain ⟨receivedAt, -, rfl⟩ := Option.map_eq_some_iff.mp hcontent
  refine ⟨?_, ⟨rfl, ?_⟩, ?_, ?_⟩
  · rw [← hdevice, ← hof.header.deviceId]
    rfl
  · rw [← hboot, ← hof.header.bootId]
    rfl
  · rw [← hsequence, ← hof.header.sequence]
    rfl
  · rw [← htimestamp, ← htime, ← hof.header.timestampNs]
    rfl

/-- What was added to a telemetry structure ends up as the rows of the request that carried it:
one for each metric, in the order of their indices, and no others. -/
theorem deviceMetrics_stored {floats : FloatBits}
    {parseFromString : List UInt8 → Option Ingest.IngestEvent}
    (hreads : ReadsMessages floats parseFromString) {metrics : List ReportMetric}
    {t c : Firmware.Telemetry} {h k l : Heap} {item : QueueItem} {rt : Runtime CString}
    {uptimeMs : UInt64} {bufferSize : Nat} {payload : List UInt8} {attempt : Attempt}
    (hr : Reported metrics t h)
    (hcopy : copyTelemetryToQueueItem (some t) (some item) h =
      (.ok, some ⟨none, .telemetry c⟩, k))
    (hkeeps : k.Keeps l c.blocks)
    (hpayload : telemetryPayload l rt uptimeMs c bufferSize = some payload)
    (hparse : parseFromString payload = some attempt.event)
    (hfresh : (attempts.map (·.envelope.requestId)).Nodup)
    (hdelivers : Delivers conv (topics attempts) upserts) (hmem : attempt ∈ attempts)
    (haccepted : attempt.publish.2 = true) :
    ∃ points, ((Database.run conv upserts).points.filter fun p =>
        p.requestId = attempt.envelope.requestId).Perm points ∧
      points.map (·.metricIndex) = List.range metrics.length ∧
      List.Forall₂ (fun r point => PointTells floats r point ∧
        PointStamped rt t.timestampNs point) metrics points := by
  obtain ⟨n, points, hperm, hpoints, hall⟩ :=
    reported_stored hreads hr hcopy hkeeps hpayload hparse hfresh hdelivers hmem haccepted
  refine ⟨points, hperm, ?_, hall⟩
  have hindices : points.map (·.metricIndex) = (buildMetricRecords n).map (·.metricIndex) := by
    rw [← List.forall₂_eq_eq_eq, List.forall₂_map_left_iff, List.forall₂_map_right_iff]
    refine hpoints.flip.imp fun point record hcontent => ?_
    obtain ⟨receivedAt, -, rfl⟩ := Option.map_eq_some_iff.mp hcontent
    rfl
  rw [hindices, map_metricIndex, hpoints.length_eq, hall.length_eq]

end Rows

theorem roomState_fits : ([111, 107] : List UInt8).length + 1 < 2 ^ 32 := by decide

def roomReport : List BuilderCall := [addCount, addState ⟨[111, 107], roomState_fits⟩]

def roomMessage : EventMessage where
  schemaVersion := 1
  deviceId := utf8 "esp32-001".toList
  sequence := 0
  eventType := 1
  bootId := utf8 "boot-00000007".toList
  firmwareVersion := 1
  uptimeMs := 1000
  timestampNs := 0
  body := some (.metricSet [⟨utf8 "count".toList, utf8 [], some (.int (-5))⟩,
    ⟨utf8 "state".toList, utf8 [], some (.string (utf8 "ok".toList))⟩])

def roomEvent : Ingest.IngestEvent where
  schemaVersion := 1
  deviceId := "esp32-001".toList
  sequence := 0
  eventType := 1
  bootId := "boot-00000007".toList
  firmwareVersion := 1
  uptimeMs := 1000
  timestampNs := 0
  body := some (.telemetry (some (.metricSet [⟨"count".toList, some (.int (-5)), []⟩,
    ⟨"state".toList, some (.string "ok".toList), []⟩])))

theorem roomMessage_decode : roomMessage.decode noFloats = some roomEvent := by
  simp [roomMessage, EventMessage.decode, BodyMessage.decode, decodeMetric, decodeValue,
    decodeText_utf8, roomEvent, -utf8_nil]

def roomAttempt : Attempt :=
  ⟨roomEvent, ⟨"r1".toList, "t".toList, "::1".toList⟩, ⟨fun _ => .acked, true⟩⟩

theorem deviceMetrics_stored_room : ∃ points,
    ((Postgres.Database.run Postgres.epochConversions (topics [roomAttempt])).points.filter fun p =>
      p.requestId = roomAttempt.envelope.requestId).Perm points ∧
    points.map (·.metricIndex) = List.range (roomReport.filterMap BuilderCall.metric).length ∧
    List.Forall₂ (fun r point => PointTells noFloats r point ∧
      PointStamped labRuntime (reportOf roomReport).1.timestampNs point)
      (roomReport.filterMap BuilderCall.metric) points := by
  have hall : allAdded (builderStart fun _ => true) roomReport = true := by decide +kernel
  have hcopy : copyTelemetryToQueueItem (some (reportOf roomReport).1)
      (some ⟨none, .telemetry .zero⟩) (reportOf roomReport).2 =
        (.ok, some ⟨none, .telemetry (queuedCopy (reportOf roomReport)).1⟩,
          (queuedCopy (reportOf roomReport)).2) := rfl
  have hpayload : telemetryPayload (queuedCopy (reportOf roomReport)).2 labRuntime 1000
      (queuedCopy (reportOf roomReport)).1 AETUS_ENCODE_BUFFER_BYTES =
        some (write roomMessage.fields) := by
    decide +kernel
  have hparse : readEvent (write roomMessage.fields) = some roomAttempt.event := by
    rw [readEvent, readMessage_write, Option.bind_some, roomMessage_decode]
    rfl
  exact deviceMetrics_stored (readMessage_reads noFloats) (reported_reportOf hall) hcopy
    ⟨Nat.le_refl _, fun _ _ => rfl⟩ hpayload hparse (by decide +kernel)
    (metricAttempts_delivered [roomAttempt] (by decide +kernel)) List.mem_cons_self
    (by decide +kernel)

end Aetus
