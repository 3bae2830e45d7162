import Aetus.Ingest.Admission
import Aetus.Ingest.Publisher

/-!
What reaches the topics of an event that the service has accepted.
-/

set_option autoImplicit false

namespace Aetus.Ingest
open Aetus.Base

def TopicRecord.metricRecord : TopicRecord → Option MetricRecord
  | .metric record => some record
  | _ => none

def TopicRecord.signalFrameRecord : TopicRecord → Option SignalFrameRecord
  | .signalFrame record => some record
  | _ => none

def metricRecords (records : List TopicRecord) : List MetricRecord :=
  records.filterMap TopicRecord.metricRecord

def signalFrameRecords (records : List TopicRecord) : List SignalFrameRecord :=
  records.filterMap TopicRecord.signalFrameRecord

def MetricValue.column : MetricValue → String × NormalizedValue
  | .int value => ("int", .int value.toInt)
  | .double value => ("double", .double value)
  | .bool value => ("bool", .bool value)
  | .string value => ("string", .string value)
  | .bytes value => ("bytes_hex", .string (hexText value))

def MetricRecord.valueColumns (record : MetricRecord) : List (String × NormalizedValue) :=
  [("double", record.valueDouble), ("int", record.valueInt), ("bool", record.valueBool),
    ("string", record.valueString), ("bytes_hex", record.valueBytesHex)].filterMap
      fun column => column.2.map (column.1, ·)

structure RecordHeader.Of (event : IngestEvent) (header : RecordHeader) : Prop where
  schemaVersion : header.schemaVersion = event.schemaVersion.toNat
  deviceId : header.deviceId = event.deviceId
  bootId : header.bootId = event.bootId
  sequence : header.sequence = event.sequence.toNat
  eventType : header.eventType = eventTypeName event.eventType
  firmwareVersion : header.firmwareVersion = numberOrNone event.firmwareVersion.toNat
  uptimeMs : header.uptimeMs = numberOrNone event.uptimeMs.toNat
  timestampNs : header.timestampNs = numberOrNone event.timestampNs.toNat

/-- The record tells all of this metric, the one at `index` of the event. -/
structure MetricRecord.Of (event : IngestEvent) (index : Nat) (metric : Metric)
    (record : MetricRecord) : Prop where
  header : record.header.Of event
  metricIndex : record.metricIndex = index
  metricKey : record.metricKey = metric.key
  metricUnit : record.metricUnit = textOrNone metric.unit
  value : ∃ value, metric.value = some value ∧ record.valueColumns = [value.column] ∧
    record.valueType = value.column.1.toList

structure SignalFrameRecord.Of (event : IngestEvent) (frame : SignalFrame)
    (record : SignalFrameRecord) : Prop where
  header : record.header.Of event
  streamKey : record.streamKey = frame.streamKey
  sampleIntervalNs : record.sampleIntervalNs = frame.sampleIntervalNs.toNat
  sampleCount : record.sampleCount = frame.sampleCount.toNat
  encoding : SIGNAL_ENCODING_NAMES.lookup frame.encoding = some record.encoding
  layout : SIGNAL_LAYOUT_NAMES.lookup frame.layout = some record.layout
  channelsJson : record.channelsJson =
    (Json.array (frame.channels.map fun channel => channel.normalized.json)).dumps
  samplesB64 : record.samplesB64 = b64encode frame.samples

/-- The records on the topics hold each metric of the event once and in order, or its frame. -/
def Lossless (event : IngestEvent) (records : List TopicRecord) : Prop :=
  match event.body with
  | some (.telemetry (some (.metricSet metrics))) =>
    (metricRecords records).length = metrics.length ∧
      ∀ index (h : index < metrics.length), ∃ record, (metricRecords records)[index]? = some record ∧
        record.Of event index metrics[index]
  | some (.telemetry (some (.signalFrame frame))) =>
    ∃ record, signalFrameRecords records = [record] ∧ record.Of event frame
  | _ => True

def CarriesData (event : IngestEvent) : Prop :=
  match event.body with
  | some (.telemetry (some (.metricSet metrics))) => metrics ≠ []
  | some (.telemetry (some (.signalFrame _))) => True
  | _ => False

def IngestService.publishingTo (service : IngestService) (broker : Broker) : IngestService :=
  { service with publish := fun n => (publishSync broker n).2 }

theorem sendFrom_true {broker : Broker} {n : Nat} {records : List TopicRecord}
    (h : (sendFrom broker n records).2 = true) : (sendFrom broker n records).1 = records := by
  induction records generalizing n with
  | nil => rfl
  | cons record records ih =>
    unfold sendFrom at h ⊢
    split at h
    · exact congrArg (record :: ·) (ih h)
    · cases h

theorem publishSync_true {broker : Broker} {n : NormalizedEvent}
    (h : (publishSync broker n).2 = true) : (publishSync broker n).1 = topicRecords n :=
  sendFrom_true ((Bool.and_eq_true _ _).mp h).1

theorem metricRecords_topicRecords (n : NormalizedEvent) :
    metricRecords (topicRecords n) = buildMetricRecords n := by
  simp [metricRecords, topicRecords, List.filterMap_cons, List.filterMap_map, Function.comp_def,
    TopicRecord.metricRecord]

theorem signalFrameRecords_topicRecords (n : NormalizedEvent) :
    signalFrameRecords (topicRecords n) = buildSignalFrameRecords n := by
  simp [signalFrameRecords, topicRecords, List.filterMap_cons, List.filterMap_map, Function.comp_def,
    TopicRecord.signalFrameRecord]

theorem eventTypeName_telemetry {value : Int32} :
    eventTypeName value = "telemetry".toList ↔ value = EVENT_TYPE_TELEMETRY := by
  unfold eventTypeName
  split
  · next h => exact iff_of_true rfl h
  · next h =>
    refine iff_of_false ?_ h
    split
    · decide
    · split <;> decide

theorem header_of (envelope : Envelope) (event : IngestEvent) (payload : NormalizedPayload) :
    (normalizedEvent envelope event payload).header.Of event :=
  ⟨rfl, rfl, rfl, rfl, rfl, rfl, rfl, rfl⟩

theorem normalizeMetric_ok {metric : Metric} {normalized : NormalizedMetric}
    (h : normalizeMetric metric = .ok normalized) :
    ∃ value, metric.value = some value ∧
      normalized = ⟨metric.key, value.column.1.toList, value.column.2, textOrNone metric.unit⟩ := by
  cases hvalue : metric.value with
  | none => simp [normalizeMetric, metricValue, hvalue] at h
  | some value =>
    refine ⟨value, rfl, ?_⟩
    cases value <;> simpa [normalizeMetric, metricValue, hvalue, MetricValue.column] using h.symm

theorem buildMetricRecord_of {event : IngestEvent} {n : NormalizedEvent} {metric : Metric}
    {normalized : NormalizedMetric} (index : Nat) (hheader : n.header.Of event)
    (h : normalizeMetric metric = .ok normalized) :
    (buildMetricRecord n index normalized).Of event index metric := by
  obtain ⟨value, hvalue, rfl⟩ := normalizeMetric_ok h
  refine ⟨hheader, rfl, rfl, rfl, value, hvalue, ?_, rfl⟩
  cases value <;> simp [MetricRecord.valueColumns, buildMetricRecord, valueColumn,
    MetricValue.column]

theorem buildMetricRecords_metricSet (envelope : Envelope) (event : IngestEvent)
    (metrics : List NormalizedMetric) :
    buildMetricRecords (normalizedEvent envelope event (.metricSet metrics)) =
      if event.eventType = EVENT_TYPE_TELEMETRY then
        metrics.mapIdx (buildMetricRecord (normalizedEvent envelope event (.metricSet metrics)))
      else [] := by
  simp only [buildMetricRecords, normalizedEvent, ne_eq, eventTypeName_telemetry, ite_not]

theorem lossless_metricSet {event : IngestEvent} {metrics : List Metric}
    {normalized : List NormalizedMetric} (envelope : Envelope)
    (hbody : event.body = some (.telemetry (some (.metricSet metrics))))
    (h : metrics.mapM normalizeMetric = .ok normalized) :
    Lossless event (topicRecords (normalizedEvent envelope event (.metricSet normalized))) ↔
      event.eventType = EVENT_TYPE_TELEMETRY ∨ metrics = [] := by
  have hall := mapM_ok h
  simp only [Lossless, hbody, metricRecords_topicRecords, buildMetricRecords_metricSet]
  split
  · next htype =>
    refine iff_of_true ⟨by simp [hall.length_eq], fun index hindex => ?_⟩ (.inl htype)
    have hlt : index < normalized.length := hall.length_eq ▸ hindex
    have hmetric := (List.forall₂_iff_get.mp hall).2 index hindex hlt
    exact ⟨_, by simp [hlt]; rfl, buildMetricRecord_of index (header_of envelope event _) hmetric⟩
  · next htype =>
    constructor
    · rintro ⟨hlength, -⟩
      exact .inr (List.eq_nil_of_length_eq_zero hlength.symm)
    · rintro (htelemetry | rfl)
      · exact absurd htelemetry htype
      · exact ⟨rfl, fun index hindex => absurd hindex (Nat.not_lt_zero index)⟩

theorem buildSignalFrameRecords_signalFrame (envelope : Envelope) (event : IngestEvent)
    (frame : NormalizedSignalFrame) :
    buildSignalFrameRecords (normalizedEvent envelope event (.signalFrame frame)) =
      if event.eventType = EVENT_TYPE_TELEMETRY then
        [buildSignalFrameRecord (normalizedEvent envelope event (.signalFrame frame)) frame]
      else [] := by
  simp only [buildSignalFrameRecords, normalizedEvent, ne_eq, eventTypeName_telemetry, ite_not]

theorem lossless_signalFrame {event : IngestEvent} {frame : SignalFrame}
    {normalized : NormalizedSignalFrame} (envelope : Envelope)
    (hbody : event.body = some (.telemetry (some (.signalFrame frame))))
    (h : normalizeSignalFrame frame = .ok normalized) :
    Lossless event (topicRecords (normalizedEvent envelope event (.signalFrame normalized))) ↔
      event.eventType = EVENT_TYPE_TELEMETRY := by
  have hframe := normalizeSignalFrame_ok h
  simp only [Lossless, hbody, signalFrameRecords_topicRecords, buildSignalFrameRecords_signalFrame]
  split
  · next htype =>
    refine iff_of_true ⟨_, rfl, header_of envelope event (.signalFrame normalized), hframe.streamKey,
      hframe.sampleIntervalNs, hframe.sampleCount, hframe.encoding, hframe.layout, ?_,
      hframe.samplesB64⟩ htype
    simp [buildSignalFrameRecord, hframe.channels, Function.comp_def]
  · next htype => exact iff_of_false (by simp) htype

theorem topicRecords_lossless_iff {envelope : Envelope} {event : IngestEvent} {n : NormalizedEvent}
    (h : normalizeEvent envelope event = .ok n) :
    Lossless event (topicRecords n) ↔
      event.eventType = EVENT_TYPE_TELEMETRY ∨ ¬CarriesData event := by
  obtain ⟨payload, hpayload, rfl⟩ := normalizeEvent_ok h
  unfold normalizePayload at hpayload
  split at hpayload
  · next metrics hbody =>
    split at hpayload
    · cases hpayload
    · next normalized hmetrics =>
      obtain rfl := Except.ok.inj hpayload
      rw [lossless_metricSet envelope hbody hmetrics]
      simp [CarriesData, hbody]
  · next frame hbody =>
    split at hpayload
    · cases hpayload
    · next normalized hframe =>
      obtain rfl := Except.ok.inj hpayload
      rw [lossless_signalFrame envelope hbody hframe]
      simp [CarriesData, hbody]
  all_goals next hbody => simp [Lossless, CarriesData, hbody]

/-- Of an event that the service accepts, all is on the topics if and only if its type says
telemetry or there is nothing in it to expand. -/
theorem accepted_lossless_iff (service : IngestService) (settings : IngestSettings)
    (store : ControlStore) (buckets : Buckets) (request : IngestRequest) (broker : Broker)
    (event : IngestEvent) (hparse : service.parseFromString request.body = some event) :
    let result := ingest (service.publishingTo broker) settings store buckets request
    result.reply.isAccepted = true →
      ∃ n, result.published = [n] ∧ (Lossless event (publishSync broker n).1 ↔
        event.eventType = EVENT_TYPE_TELEMETRY ∨ ¬CarriesData event) := by
  intro result haccepted
  rcases ingest_cases (service.publishingTo broker) settings store buckets request with
    ⟨-, hrejected⟩ | hone
  · exact absurd (haccepted.symm.trans hrejected) Bool.noConfusion
  · obtain ⟨xDeviceId, after, ip, n, -, -, hread, hpublished, hreply⟩ := hone
    refine ⟨n, hpublished, ?_⟩
    split at hreply
    · next hsent =>
      obtain ⟨-, -, parsed, hparsed, -, hnormalize⟩ := readEvent_ok hread
      obtain rfl : event = parsed := Option.some.inj (hparse.symm.trans hparsed)
      rw [publishSync_true hsent, topicRecords_lossless_iff hnormalize]
    · exact absurd (haccepted.symm.trans (congrArg IngestReply.isAccepted hreply))
        Bool.noConfusion

def oneMetricEvent (eventType : Int32) : IngestEvent :=
  ⟨1, "dev".toList, 0, eventType, "boot".toList, 0, 0, 0,
    some (.telemetry (some (.metricSet [⟨"temp".toList, some (.int 21), []⟩])))⟩

def oneEventService (event : IngestEvent) : IngestService :=
  ⟨fun _ => some (.v4 0), fun _ => ⟨List.replicate 32 0, rfl⟩, fun _ => some event, binary64,
    fun _ => true⟩

def bearerSettings : IngestSettings := ⟨[.v4 0 0], [], 1024, 2, 10, 20, 20, true, false⟩

def oneDeviceStore : ControlStore :=
  ⟨⟨[⟨"dev".toList, "hw".toList, "tok".toList, none, none, none, [], []⟩], by decide, by decide⟩, []⟩

def bearerRequest : IngestRequest :=
  ⟨none, "POST".toList, "/v1/ingest".toList, some "dev".toList, some "Bearer tok".toList, none,
    some "application/x-protobuf".toList, [], 0, [], []⟩

theorem accepted_lossless_oneMetric :
    let event := oneMetricEvent EVENT_TYPE_TELEMETRY
    let broker : Broker := ⟨fun _ => .acked, true⟩
    let result := ingest ((oneEventService event).publishingTo broker) bearerSettings oneDeviceStore ∅
      bearerRequest
    result.reply.isAccepted = true ∧ ∃ n, result.published = [n] ∧
      (Lossless event (publishSync broker n).1 ↔
        event.eventType = EVENT_TYPE_TELEMETRY ∨ ¬CarriesData event) := by
  intro event broker result
  have haccepted : result.reply.isAccepted = true := by decide +kernel
  exact ⟨haccepted, accepted_lossless_iff (oneEventService event) bearerSettings oneDeviceStore ∅
    bearerRequest broker event rfl haccepted⟩

/-- A metric in an event of type status: the event is accepted, and no metric record is made. -/
theorem statusMetric_lost :
    let event := oneMetricEvent EVENT_TYPE_STATUS
    let broker : Broker := ⟨fun _ => .acked, true⟩
    let result := ingest ((oneEventService event).publishingTo broker) bearerSettings oneDeviceStore ∅
      bearerRequest
    result.reply.isAccepted = true ∧
      ∀ n ∈ result.published, ¬Lossless event (publishSync broker n).1 := by
  intro event broker result
  refine ⟨by decide +kernel, fun n hn hlossless => ?_⟩
  have hlength : ∀ n ∈ result.published, (metricRecords (publishSync broker n).1).length = 0 := by
    have hall : result.published.all
        (fun n => (metricRecords (publishSync broker n).1).length = 0) = true := by decide +kernel
    simpa using hall
  exact absurd ((hlength n hn).symm.trans hlossless.1) (by decide)

end Aetus.Ingest
