import Aetus.Ingest.Delivery
import Mathlib.Algebra.Group.Nat.Defs
import Mathlib.Tactic.MkIffOfInductiveProp

/-!
Whether the published records are what their schemas say.
-/

set_option autoImplicit false

namespace Aetus.Ingest
open Aetus.Base

def FieldType.accepts : FieldType → FieldValue → Bool
  | .string, .string _ => true
  | .int32, .int n => -2 ^ 31 ≤ n ∧ n < 2 ^ 31
  | .int64, .int n => -2 ^ 63 ≤ n ∧ n < 2 ^ 63
  | .double, .double x => x.isFinite
  | .boolean, .bool _ => true
  | _, _ => false

/-- An optional field may be absent or null, the others neither. -/
def SchemaField.accepts (field : SchemaField) : Option FieldValue → Bool
  | none | some .null => field.optional
  | some value => field.type.accepts value

def RecordSchema.Conforms (schema : RecordSchema) (fields : List (String × FieldValue)) : Prop :=
  ∀ field ∈ schema.fields, field.accepts (fields.lookup field.field) = true

/-- The record is what its schema says, its payload_json JSON. -/
def TopicRecord.Conforms (record : TopicRecord) : Prop :=
  record.schema.Conforms record.fields ∧
    match record with
    | .raw ⟨_, payloadJson⟩ => isJson payloadJson = true
    | _ => True

def Below (bound : Nat) : Option Nat → Prop
  | none => True
  | some n => n < bound

@[mk_iff]
structure RecordHeader.Fits (header : RecordHeader) : Prop where
  schemaVersion : header.schemaVersion < 2 ^ 31
  sequence : header.sequence < 2 ^ 63
  firmwareVersion : Below (2 ^ 31) header.firmwareVersion
  uptimeMs : Below (2 ^ 63) header.uptimeMs
  timestampNs : Below (2 ^ 63) header.timestampNs

def MetricValue.isFinite : MetricValue → Bool
  | .double value => value.isFinite
  | _ => true

@[simp] theorem accepts_string (text : List Char) (optional : Bool) (name : String) :
    SchemaField.accepts ⟨.string, optional, name⟩ (some (.string text)) = true := rfl

@[simp] theorem accepts_ofText (text : Option (List Char)) (name : String) :
    SchemaField.accepts ⟨.string, true, name⟩ (some (.ofText text)) = true := by
  cases text <;> rfl

@[simp] theorem accepts_int32 (n : Nat) (optional : Bool) (name : String) :
    SchemaField.accepts ⟨.int32, optional, name⟩ (some (.int n)) = true ↔ n < 2 ^ 31 := by
  simp [SchemaField.accepts, FieldType.accepts]

@[simp] theorem accepts_int64 (n : Nat) (optional : Bool) (name : String) :
    SchemaField.accepts ⟨.int64, optional, name⟩ (some (.int n)) = true ↔ n < 2 ^ 63 := by
  simp [SchemaField.accepts, FieldType.accepts]

@[simp] theorem accepts_ofNumber_int32 (n : Option Nat) (name : String) :
    SchemaField.accepts ⟨.int32, true, name⟩ (some (.ofNumber n)) = true ↔ Below (2 ^ 31) n := by
  cases n with
  | none => exact iff_of_true rfl trivial
  | some n => exact accepts_int32 n true name

@[simp] theorem accepts_ofNumber_int64 (n : Option Nat) (name : String) :
    SchemaField.accepts ⟨.int64, true, name⟩ (some (.ofNumber n)) = true ↔ Below (2 ^ 63) n := by
  cases n with
  | none => exact iff_of_true rfl trivial
  | some n => exact accepts_int64 n true name

@[simp] theorem accepts_noValue (type : FieldType) (name : String) :
    SchemaField.accepts ⟨type, true, name⟩ (some (.ofValue none)) = true := rfl

@[simp] theorem accepts_intValue (value : Int64) (name : String) :
    SchemaField.accepts ⟨.int64, true, name⟩ (some (.ofValue (some (.int value.toInt)))) = true :=
  decide_eq_true ⟨value.le_toInt, value.toInt_lt⟩

@[simp] theorem accepts_doubleValue (value : Double) (name : String) :
    SchemaField.accepts ⟨.double, true, name⟩ (some (.ofValue (some (.double value)))) =
      value.isFinite := rfl

@[simp] theorem accepts_boolValue (value : Bool) (name : String) :
    SchemaField.accepts ⟨.boolean, true, name⟩ (some (.ofValue (some (.bool value)))) = true := rfl

@[simp] theorem accepts_stringValue (value : List Char) (name : String) :
    SchemaField.accepts ⟨.string, true, name⟩ (some (.ofValue (some (.string value)))) = true := rfl

theorem raw_conforms_iff (record : RawRecord) :
    (TopicRecord.raw record).Conforms ↔ record.header.Fits ∧ isJson record.payloadJson = true := by
  simp [TopicRecord.Conforms, RecordSchema.Conforms, TopicRecord.schema, TopicRecord.fields,
    RAW_EVENT_SCHEMA, RawRecord.fields, RecordHeader.fields, List.lookup_cons, RecordHeader.fits_iff]

theorem signalFrame_conforms_iff (record : SignalFrameRecord) :
    (TopicRecord.signalFrame record).Conforms ↔ record.header.Fits ∧
      record.sampleIntervalNs < 2 ^ 63 ∧ record.sampleCount < 2 ^ 31 := by
  simp [TopicRecord.Conforms, RecordSchema.Conforms, TopicRecord.schema, TopicRecord.fields,
    SIGNAL_FRAME_EVENT_SCHEMA, SignalFrameRecord.fields, RecordHeader.fields, List.lookup_cons,
    RecordHeader.fits_iff, and_assoc]

theorem metricRecord_conforms_iff (record : MetricRecord) :
    (TopicRecord.metric record).Conforms ↔ record.metricIndex < 2 ^ 31 ∧ record.header.Fits ∧
      SchemaField.accepts ⟨.double, true, "value_double"⟩ (some (.ofValue record.valueDouble)) ∧
      SchemaField.accepts ⟨.int64, true, "value_int"⟩ (some (.ofValue record.valueInt)) ∧
      SchemaField.accepts ⟨.boolean, true, "value_bool"⟩ (some (.ofValue record.valueBool)) ∧
      SchemaField.accepts ⟨.string, true, "value_string"⟩ (some (.ofValue record.valueString)) ∧
      SchemaField.accepts ⟨.string, true, "value_bytes_hex"⟩
        (some (.ofValue record.valueBytesHex)) := by
  simp [TopicRecord.Conforms, RecordSchema.Conforms, TopicRecord.schema, TopicRecord.fields,
    METRIC_EVENT_SCHEMA, MetricRecord.fields, RecordHeader.fields, List.lookup_cons,
    RecordHeader.fits_iff, and_assoc]

theorem metric_conforms_iff (n : NormalizedEvent) (index : Nat) (key : List Char)
    (value : MetricValue) (unit : Option (List Char)) :
    (TopicRecord.metric (buildMetricRecord n index
      ⟨key, value.column.1.toList, value.column.2, unit⟩)).Conforms ↔
      index < 2 ^ 31 ∧ n.header.Fits ∧ value.isFinite = true := by
  rw [metricRecord_conforms_iff]
  cases value <;> simp [buildMetricRecord, MetricValue.column, valueColumn, MetricValue.isFinite]

/-- The doubles of the payload are finite, and the numbers of a metric set or a frame that
gets columns are in the range of these. -/
def IngestEvent.PayloadRepresentable (event : IngestEvent) : Prop :=
  match event.body with
  | some (.telemetry (some (.metricSet metrics))) =>
    (∀ metric ∈ metrics, ∀ value ∈ metric.value, value.isFinite = true) ∧
      (event.eventType = EVENT_TYPE_TELEMETRY → metrics.length ≤ 2 ^ 31)
  | some (.telemetry (some (.signalFrame frame))) =>
    (∀ channel ∈ frame.channels, ∀ x, channel.scale = some x ∨ channel.offset = some x →
      x.isFinite = true) ∧
    (event.eventType = EVENT_TYPE_TELEMETRY →
      frame.sampleIntervalNs.toNat < 2 ^ 63 ∧ frame.sampleCount.toNat < 2 ^ 31)
  | _ => True

structure IngestEvent.Representable (event : IngestEvent) : Prop where
  schemaVersion : event.schemaVersion.toNat < 2 ^ 31
  sequence : event.sequence.toNat < 2 ^ 63
  firmwareVersion : event.firmwareVersion.toNat < 2 ^ 31
  uptimeMs : event.uptimeMs.toNat < 2 ^ 63
  timestampNs : event.timestampNs.toNat < 2 ^ 63
  payload : event.PayloadRepresentable

theorem below_numberOrNone {bound n : Nat} (hbound : 0 < bound) :
    Below bound (numberOrNone n) ↔ n < bound := by
  unfold numberOrNone
  split
  · next h => exact iff_of_true trivial (h ▸ hbound)
  · exact Iff.rfl

theorem header_fits_iff (envelope : Envelope) (event : IngestEvent) (payload : NormalizedPayload) :
    (normalizedEvent envelope event payload).header.Fits ↔ event.schemaVersion.toNat < 2 ^ 31 ∧
      event.sequence.toNat < 2 ^ 63 ∧ event.firmwareVersion.toNat < 2 ^ 31 ∧
      event.uptimeMs.toNat < 2 ^ 63 ∧ event.timestampNs.toNat < 2 ^ 63 := by
  simp only [RecordHeader.fits_iff, NormalizedEvent.header, normalizedEvent]
  rw [below_numberOrNone (by decide), below_numberOrNone (by decide),
    below_numberOrNone (by decide)]

theorem value_isFinite (value : MetricValue) : value.column.2.json.isFinite = value.isFinite := by
  cases value <;> rfl

@[simp] theorem optionalTextJson_isFinite (text : Option (List Char)) :
    (optionalTextJson text).isFinite = true := by cases text <;> rfl

theorem metricSet_isFinite {metrics : List Metric} {normalized : List NormalizedMetric}
    (h : List.Forall₂ (fun metric m => normalizeMetric metric = .ok m) metrics normalized) :
    (NormalizedPayload.metricSet normalized).json.isFinite = true ↔
      ∀ metric ∈ metrics, ∀ value ∈ metric.value, value.isFinite = true := by
  simp only [NormalizedPayload.json, Json.isFinite, Json.membersFinite, Json.itemsFinite_eq_all,
    Bool.true_and, Bool.and_true, List.all_map]
  induction h with
  | nil => simp
  | cons hmetric _ ih =>
    obtain ⟨value, hvalue, rfl⟩ := normalizeMetric_ok hmetric
    rw [List.all_cons, Bool.and_eq_true, ih, List.forall_mem_cons]
    simp [hvalue, NormalizedMetric.json, Json.isFinite, Json.membersFinite, value_isFinite]

theorem channel_isFinite (channel : SignalChannel) :
    channel.normalized.json.isFinite = true ↔
      ∀ x, channel.scale = some x ∨ channel.offset = some x → x.isFinite = true := by
  simp only [NormalizedChannel.json, SignalChannel.normalized]
  cases channel.scale <;> cases channel.offset <;>
    simp [Json.isFinite, Json.membersFinite, or_imp, forall_and]

theorem signalFrame_isFinite {frame : SignalFrame} {normalized : NormalizedSignalFrame}
    (h : FrameAccepted frame normalized) :
    (NormalizedPayload.signalFrame normalized).json.isFinite = true ↔
      ∀ channel ∈ frame.channels, ∀ x, channel.scale = some x ∨ channel.offset = some x →
        x.isFinite = true := by
  simp [NormalizedPayload.json, NormalizedSignalFrame.json, Json.isFinite, Json.membersFinite,
    Json.itemsFinite_eq_all, h.channels, channel_isFinite]

/-- The metric records of a fitting header and finite values: only their index may not fit. -/
theorem metricRecords_conform_iff {n : NormalizedEvent} {metrics : List Metric}
    {normalized : List NormalizedMetric} (hfits : n.header.Fits)
    (h : List.Forall₂ (fun metric m => normalizeMetric metric = .ok m) metrics normalized)
    (hfinite : ∀ metric ∈ metrics, ∀ value ∈ metric.value, value.isFinite = true) :
    (∀ record ∈ normalized.mapIdx (buildMetricRecord n), (TopicRecord.metric record).Conforms) ↔
      metrics.length ≤ 2 ^ 31 := by
  have hrecord (index : Nat) (hindex : index < normalized.length) :
      (TopicRecord.metric (buildMetricRecord n index normalized[index])).Conforms ↔
        index < 2 ^ 31 := by
    have hlt : index < metrics.length := h.length_eq ▸ hindex
    obtain ⟨value, hvalue, heq⟩ := normalizeMetric_ok ((List.forall₂_iff_get.mp h).2 index hlt hindex)
    have hnormalized : normalized[index] = _ := heq
    have hmem := hfinite metrics[index] (List.getElem_mem hlt) value hvalue
    rw [hnormalized, metric_conforms_iff]
    exact ⟨And.left, fun hrange => ⟨hrange, hfits, hmem⟩⟩
  rw [h.length_eq]
  constructor
  · intro hall
    by_contra hlong
    have hindex : 2 ^ 31 < normalized.length := not_le.mp hlong
    have hconforms := hall _ (List.mem_mapIdx.mpr ⟨2 ^ 31, hindex, rfl⟩)
    exact Nat.lt_irrefl _ ((hrecord _ hindex).mp hconforms)
  · rintro hshort record hmem
    obtain ⟨index, hindex, rfl⟩ := List.mem_mapIdx.mp hmem
    exact (hrecord index hindex).mpr (hindex.trans_le hshort)

theorem topicRecords_conform_iff (n : NormalizedEvent) :
    (∀ record ∈ topicRecords n, record.Conforms) ↔
      (n.header.Fits ∧ isJson n.payloadJson = true) ∧
        (∀ record ∈ buildMetricRecords n, (TopicRecord.metric record).Conforms) ∧
        ∀ record ∈ buildSignalFrameRecords n, (TopicRecord.signalFrame record).Conforms := by
  simp only [topicRecords, List.cons_append, List.forall_mem_cons, List.forall_mem_append,
    List.forall_mem_map, raw_conforms_iff, buildSinkRecord]

theorem metricSet_conform_iff {envelope : Envelope} {event : IngestEvent} {metrics : List Metric}
    {normalized : List NormalizedMetric}
    (hfits : (normalizedEvent envelope event (.metricSet normalized)).header.Fits)
    (hbody : event.body = some (.telemetry (some (.metricSet metrics))))
    (h : metrics.mapM normalizeMetric = .ok normalized) :
    ((NormalizedPayload.metricSet normalized).json.isFinite = true ∧
      ∀ record ∈ buildMetricRecords (normalizedEvent envelope event (.metricSet normalized)),
        (TopicRecord.metric record).Conforms) ↔ event.PayloadRepresentable := by
  simp only [IngestEvent.PayloadRepresentable, hbody]
  rw [metricSet_isFinite (mapM_ok h), buildMetricRecords_metricSet]
  refine and_congr_right fun hfinite => ?_
  split
  · next htype =>
    rw [metricRecords_conform_iff hfits (mapM_ok h) hfinite]
    exact (imp_iff_right htype).symm
  · next htype =>
    refine iff_of_true ?_ fun htelemetry => absurd htelemetry htype
    exact fun record hmem => absurd hmem List.not_mem_nil

theorem signalFrame_event_conform_iff {envelope : Envelope} {event : IngestEvent}
    {frame : SignalFrame} {normalized : NormalizedSignalFrame}
    (hfits : (normalizedEvent envelope event (.signalFrame normalized)).header.Fits)
    (hbody : event.body = some (.telemetry (some (.signalFrame frame))))
    (h : normalizeSignalFrame frame = .ok normalized) :
    ((NormalizedPayload.signalFrame normalized).json.isFinite = true ∧
      ∀ record ∈ buildSignalFrameRecords (normalizedEvent envelope event (.signalFrame normalized)),
        (TopicRecord.signalFrame record).Conforms) ↔ event.PayloadRepresentable := by
  have hframe := normalizeSignalFrame_ok h
  simp only [IngestEvent.PayloadRepresentable, hbody]
  rw [signalFrame_isFinite hframe]
  refine and_congr_right fun _ => ?_
  rw [buildSignalFrameRecords_signalFrame]
  split
  · next htype =>
    rw [List.forall_mem_singleton, signalFrame_conforms_iff]
    simp only [buildSignalFrameRecord, hframe.sampleIntervalNs, hframe.sampleCount,
      imp_iff_right htype]
    exact and_iff_right hfits
  · next htype =>
    refine iff_of_true ?_ fun htelemetry => absurd htelemetry htype
    exact fun record hmem => absurd hmem List.not_mem_nil

theorem payload_conform_iff {envelope : Envelope} {event : IngestEvent} {payload : NormalizedPayload}
    (h : normalizePayload event = .ok payload)
    (hfits : (normalizedEvent envelope event payload).header.Fits) :
    (payload.json.isFinite = true ∧
      (∀ record ∈ buildMetricRecords (normalizedEvent envelope event payload),
        (TopicRecord.metric record).Conforms) ∧
      ∀ record ∈ buildSignalFrameRecords (normalizedEvent envelope event payload),
        (TopicRecord.signalFrame record).Conforms) ↔ event.PayloadRepresentable := by
  unfold normalizePayload at h
  split at h
  · next metrics hbody =>
    split at h
    · cases h
    · next normalized hmetrics =>
      obtain rfl := Except.ok.inj h
      rw [← metricSet_conform_iff hfits hbody hmetrics]
      simp [buildSignalFrameRecords_eq_nil]
  · next frame hbody =>
    split at h
    · cases h
    · next normalized hframe =>
      obtain rfl := Except.ok.inj h
      rw [← signalFrame_event_conform_iff hfits hbody hframe]
      simp [buildMetricRecords_eq_nil]
  · cases h
  · next hbody =>
    obtain rfl := Except.ok.inj h
    simp [IngestEvent.PayloadRepresentable, hbody, buildMetricRecords_eq_nil,
      buildSignalFrameRecords_eq_nil, NormalizedPayload.json, Json.isFinite, Json.membersFinite]
  · next hbody =>
    obtain rfl := Except.ok.inj h
    simp [IngestEvent.PayloadRepresentable, hbody, buildMetricRecords_eq_nil,
      buildSignalFrameRecords_eq_nil, NormalizedPayload.json, Json.isFinite, Json.membersFinite]
  · cases h

/-- All records of an event that passes normalization are what their schemas say exactly when
its values are in the range of their columns. -/
theorem records_conform_iff {envelope : Envelope} {event : IngestEvent} {n : NormalizedEvent}
    (h : normalizeEvent envelope event = .ok n) :
    (∀ record ∈ topicRecords n, record.Conforms) ↔ event.Representable := by
  obtain ⟨payload, hpayload, rfl⟩ := normalizeEvent_ok h
  have hjson : isJson (normalizedEvent envelope event payload).payloadJson = payload.json.isFinite :=
    Json.isJson_dumps payload.json
  rw [topicRecords_conform_iff, hjson, and_assoc]
  constructor
  · rintro ⟨hfits, hconform⟩
    obtain ⟨hschema, hsequence, hfirmware, huptime, htimestamp⟩ :=
      (header_fits_iff envelope event payload).mp hfits
    exact ⟨hschema, hsequence, hfirmware, huptime, htimestamp,
      (payload_conform_iff hpayload hfits).mp hconform⟩
  · intro hevent
    have hfits := (header_fits_iff envelope event payload).mpr ⟨hevent.schemaVersion,
      hevent.sequence, hevent.firmwareVersion, hevent.uptimeMs, hevent.timestampNs⟩
    exact ⟨hfits, (payload_conform_iff hpayload hfits).mpr hevent.payload⟩

def temperatureEvent (value : Double) : IngestEvent :=
  ⟨1, "dev".toList, 0, EVENT_TYPE_TELEMETRY, "boot".toList, 0, 0, 0,
    some (.telemetry (some (.metricSet [⟨"temp".toList, some (.double value), []⟩])))⟩

def zeroDouble : FiniteDouble := ⟨"0.0".toList, by decide⟩

theorem records_conform_zero :
    ∃ n, normalizeEvent ⟨[], [], []⟩ (temperatureEvent (.finite zeroDouble)) = .ok n ∧
      ((∀ record ∈ topicRecords n, record.Conforms) ↔
        (temperatureEvent (.finite zeroDouble)).Representable) :=
  ⟨_, rfl, records_conform_iff rfl⟩

/-- The payload of a NaN is dumped as text that is not JSON. -/
theorem nan_not_conforming :
    ∃ n, normalizeEvent ⟨[], [], []⟩ (temperatureEvent .nan) = .ok n ∧
      ∃ record ∈ topicRecords n, ¬record.Conforms := by
  refine ⟨_, rfl, _, List.mem_cons_self, fun hconforms => ?_⟩
  have hjson := ((raw_conforms_iff _).mp hconforms).2
  revert hjson
  decide +kernel

end Aetus.Ingest
