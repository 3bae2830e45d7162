import Aetus.Anomaly.ValueAlarms
import Aetus.EndToEnd.DeviceMetrics

/-!
A value on its way from the add calls of a device to the deliveries that are queued for the
webhook endpoints.
-/

set_option autoImplicit false

namespace Aetus
open Aetus.Base Aetus.Base.Protobuf Aetus.Firmware Aetus.Ingest Aetus.Postgres

/-! What is computed with of an added value -/

def Anomaly.Service.numberOf {F : Type} (service : Anomaly.Service F) (floats : FloatBits) :
    ReportValue → Option F
  | .int value => some (service.floats.ofInt value.toInt)
  | .double bits => some (service.number (floats.double bits))
  | .bool value => some (service.floats.ofInt (if value then 1 else 0))
  | .string _ | .bytes _ => none

section
variable {F : Type} {service : Anomaly.Service F} {floats : FloatBits} {point : StoredPoint}

theorem value_of_valueColumns {column : String} {value : NormalizedValue}
    (hcolumn : column = "double" ∨ column = "int" ∨ column = "bool")
    (h : point.valueColumns = [(column, value)]) :
    service.reader.value point = some (service.reader.columnValue value) := by
  unfold Postgres.MetricPoint.valueColumns at h
  unfold Anomaly.Reader.value
  rcases hcolumn with rfl | rfl | rfl <;>
    cases hdouble : point.valueDouble <;> cases hint : point.valueInt <;>
    cases hbool : point.valueBool <;> cases hstring : point.valueString <;>
    cases hbytes : point.valueBytesHex <;>
    simp_all

theorem PointTells.read {r : ReportMetric} (h : PointTells floats r point) {added : ReportValue}
    {x : F} (hvalue : r.value = some added) (hnumber : service.numberOf floats added = some x) :
    service.reader.value point = some x := by
  obtain ⟨_, value, hadded, hsent, hcolumns, -⟩ := h.value
  obtain rfl := Option.some.inj (hvalue.symm.trans hadded)
  cases added with
  | int n =>
    obtain rfl := Option.some.inj hsent
    obtain rfl := Option.some.inj hnumber
    exact value_of_valueColumns (.inr (.inl rfl)) hcolumns
  | double bits =>
    obtain rfl := Option.some.inj hsent
    obtain rfl := Option.some.inj hnumber
    exact value_of_valueColumns (.inl rfl) hcolumns
  | bool b =>
    obtain rfl := Option.some.inj hsent
    obtain rfl := Option.some.inj hnumber
    exact value_of_valueColumns (.inr (.inr rfl)) hcolumns
  | string text => cases hnumber
  | bytes content => cases hnumber

end

section
open Aetus.Anomaly

variable {F : Type} {service : Service F} {floats : FloatBits} {conv : Conversions}
  {attempts : List Attempt} {upserts : List TopicRecord}

/-- A number that is added on a device, and that is out of bounds while its window lasts, is queued
for delivery to each enabled endpoint. -/
theorem deviceMetric_alerted {ieee : service.floats.Ieee} (hskips : ieee.SkipsNaN)
    {parseFromString : List UInt8 → Option Ingest.IngestEvent}
    (hreads : ReadsMessages floats parseFromString) {metrics : List ReportMetric}
    {t c : Firmware.Telemetry} {h k l : Heap} {item : QueueItem} {rt : Runtime CString}
    {uptimeMs : UInt64} {bufferSize : Nat} {payload : List UInt8} {attempt : Attempt}
    (hr : Reported metrics t h)
    (hcopy : copyTelemetryToQueueItem (some t) (some item) h =
      (.ok, some ⟨none, .telemetry c⟩, k))
    (hkeeps : k.Keeps l c.blocks)
    (hpayload : telemetryPayload l rt uptimeMs c bufferSize = some payload)
    (hparse : parseFromString payload = some attempt.event)
    (hfresh : (attempts.map (·.envelope.requestId)).Nodup)
    (hdelivers : Delivers conv (topics attempts) upserts) (hmem : attempt ∈ attempts)
    (haccepted : attempt.publish.2 = true)
    {r : ReportMetric} {added : ReportValue} {x : F} (hmetric : r ∈ metrics)
    (hvalue : r.value = some added) (hnumber : service.numberOf floats added = some x)
    {clock : Clock} {jobs : Jobs} {job : JobRecord} {config : DetectorConfig F}
    {deviceId streamKey : List Char} (hjob : job ∈ jobs.enabledJobs) (hanchor : config.anchor = none)
    (hcomes : Comes service (Database.run conv upserts).telemetry jobs job config deviceId streamKey)
    (hdevice : utf8 deviceId =
      (copyString .empty EVENT_DEVICE_ID_SIZE (some rt.config.deviceId)).bytes)
    (hstream : utf8 streamKey = r.key)
    (hcovers : ∀ point ∈ (Database.run conv upserts).points,
      point.requestId = attempt.envelope.requestId →
      Covers (Database.run conv upserts).telemetry deviceId streamKey job.windowSeconds
        config.maxPoints (ofTimestamptz point.eventTime))
    (hstores : service.storesEvent deviceId streamKey none = true)
    (hbounds : OutOfBounds service.floats job.detectorType config x)
    (tables : Tables service.floats) :
    let run := runDetectionOnce service (Database.run conv upserts).telemetry clock jobs none
    ∃ e ∈ events run, (e.jobId = job.jobId ∧ e.deviceId = deviceId ∧ e.streamKey = streamKey) ∧
      (tables.after run).Enqueued e.key := by
  intro run
  obtain ⟨-, points, hperm, -, hall⟩ :=
    reported_stored hreads hr hcopy hkeeps hpayload hparse hfresh hdelivers hmem haccepted
  obtain ⟨point, hpoint, htells, hstamped⟩ := forall₂_exists_right hall hmetric
  obtain ⟨hstored, hrequest⟩ := List.mem_filter.mp (hperm.mem_iff.mpr hpoint)
  have hread : service.reader.value point = some x := htells.read hvalue hnumber
  have hrow : point ∈ numericPoints (Database.run conv upserts).telemetry deviceId streamKey := by
    refine List.mem_filter.mpr ⟨hstored, decide_eq_true ⟨?_, ?_, ?_⟩⟩
    · exact utf8_injective (hstamped.device.trans hdevice.symm)
    · exact utf8_injective (htells.key.trans hstream.symm)
    · exact isNumeric_of_value hread
  obtain ⟨stop, hlatest, hwindow⟩ :=
    (hcovers point hstored (of_decide_eq_true hrequest)).mem_metricPoints hrow hread
  have htype : job.detectorType = "threshold".toList ∨ job.detectorType = "range".toList :=
    hbounds.imp And.left And.left
  have hne : job.detectorType ≠ "missing_data".toList := by
    rcases htype with h | h <;> rw [h] <;> decide
  have hload : StreamStores service (Database.run conv upserts).telemetry job config
      (deviceId, streamKey) := by
    obtain ⟨window, hread, hkey⟩ : ∃ window, numericWindows service.reader
        (Database.run conv upserts).telemetry deviceId streamKey job.channels job.windowSeconds
          config.maxPoints 0 = .ok [window] ∧ window.channelKey = none :=
      numericWindows_of_mem hlatest hwindow
    refine ⟨[window], by rw [loadWindows, hanchor]; exact hread, fun first hfirst => ?_⟩
    rw [windowsToScan_of_ne fun h => hne h.2] at hfirst
    obtain rfl := List.mem_singleton.mp (List.mem_of_find?_eq_some hfirst)
    rw [hkey]
    exact hstores
  have hdetected : Detected service (Database.run conv upserts).telemetry job config deviceId
      streamKey :=
    ⟨_, .metric hlatest (List.ne_nil_of_mem hwindow),
      (evaluate_outOfBounds hskips htype config).mpr (.inr ⟨_, hwindow, hbounds⟩)⟩
  obtain ⟨e, he, hof⟩ := (events_stream_iff hjob hne hcomes.configured hanchor).mpr
    ⟨hcomes, hload, hdetected⟩
  exact ⟨e, he, hof, tables.after_enqueued he⟩

/-! A count of -5, with a job for counts below 0 -/

def countConfig : Json :=
  .object [("threshold".toList, .int 0), ("operator".toList, .string "lt".toList)]

def countRequest : CreateJobRequest where
  jobKey := "count".toList
  enabled := true
  deviceSelector := ⟨["esp32-001".toList], [], []⟩
  streamSelector := ⟨[], ["count".toList], []⟩
  detectorType := "threshold".toList
  detectorConfig := countConfig
  windowSeconds := 60
  stepSeconds := 60
  lookbackSeconds := 0
  severity := "warning".toList

def roomTables : Tables exactFloats where
  scores := .empty _
  events := .empty _
  outbox := .empty _
  jobState := .empty _
  endpoints := [⟨1, true⟩]

def roomDatabase : Database := Database.run epochConversions (topics [roomAttempt])

/-- The run records the one event of the stream. -/
theorem deviceMetric_alerted_room : ∃ e ∈ events (runDetectionOnce exactService roomDatabase.telemetry
    firstClock (.created some [countRequest]) none),
    (e.jobId = 1 ∧ e.deviceId = "esp32-001".toList ∧ e.streamKey = "count".toList) ∧
      (roomTables.after (runDetectionOnce exactService roomDatabase.telemetry firstClock
        (.created some [countRequest]) none)).Enqueued e.key := by
  have hadded : allAdded (builderStart fun _ => true) roomReport = true := by decide +kernel
  have hcopy : copyTelemetryToQueueItem (some (reportOf roomReport).1)
      (some ⟨none, .telemetry .zero⟩) (reportOf roomReport).2 =
        (.ok, some ⟨none, .telemetry (queuedCopy (reportOf roomReport)).1⟩,
          (queuedCopy (reportOf roomReport)).2) := rfl
  have hpayload : telemetryPayload (queuedCopy (reportOf roomReport)).2 labRuntime 1000
      (queuedCopy (reportOf roomReport)).1 AETUS_ENCODE_BUFFER_BYTES =
        some (write roomMessage.fields) := by
    decide +kernel
  have hparse : Firmware.readEvent (write roomMessage.fields) = some roomAttempt.event := by
    rw [Firmware.readEvent, readMessage_write, Option.bind_some, roomMessage_decode]
    rfl
  have hjob : firstJob countRequest ∈ (Jobs.created some [countRequest]).enabledJobs := by
    rw [enabledJobs_created rfl]
    exact List.mem_singleton_self _
  have htime : (roomDatabase.points.all fun point => decide (point.eventTime = 0)) = true := by
    decide +kernel
  have hlatest : latestPoint roomDatabase.telemetry "esp32-001".toList "count".toList = some 0 := by
    decide +kernel
  have hcovers : Covers roomDatabase.telemetry "esp32-001".toList "count".toList 60 defaultMaxPoints
      (ofTimestamptz 0) := by
    constructor
    · intro stop hstop
      obtain rfl := Option.some.inj (hlatest.symm.trans hstop)
      decide
    · intro stop hstop
      obtain rfl := Option.some.inj (hlatest.symm.trans hstop)
      decide +kernel
  refine deviceMetric_alerted exactFloats_skipsNaN (readMessage_reads noFloats)
    (reported_reportOf hadded) hcopy ⟨Nat.le_refl _, fun _ _ => rfl⟩ hpayload hparse
    (by decide +kernel) (metricAttempts_delivered [roomAttempt] (by decide +kernel))
    List.mem_cons_self (by decide +kernel) List.mem_cons_self rfl rfl hjob rfl
    ⟨.inl rfl, rfl, rfl, .inl rfl⟩ rfl rfl (fun point hpoint _ => ?_) (by decide)
    (.inl ⟨rfl, ?_⟩) _
  · have hzero := of_decide_eq_true (List.all_eq_true.mp htime point hpoint)
    rw [hzero]
    exact hcovers
  · decide +kernel

end

end Aetus
