import Aetus.Postgres.Staging

/-!
The final tables hold what has been delivered, in whatever order and however often.
-/

set_option autoImplicit false

namespace Aetus.Postgres
open Aetus.Base Aetus.Ingest

/-- Whatever a number leads to in `db` it still leads to in `db'`. -/
structure Database.Grows (db db' : Database) : Prop where
  devices : ∀ pk k, db.devices.keyOf pk = some k → db'.devices.keyOf pk = some k
  sessions : ∀ pk k, db.deviceBootSessions.keyOf pk = some k →
    db'.deviceBootSessions.keyOf pk = some k
  metrics : ∀ pk k, db.metricDefinitions.keyOf pk = some k → db'.metricDefinitions.keyOf pk = some k
  streams : ∀ pk k, db.signalStreamDefinitions.keyOf pk = some k →
    db'.signalStreamDefinitions.keyOf pk = some k

theorem Database.Grows.bootOf {db db' : Database} (h : db.Grows db') {pk : Nat}
    {boot : List Char × List Char} (hboot : db.bootOf pk = some boot) :
    db'.bootOf pk = some boot := by
  obtain ⟨session, hsession, howner⟩ := Option.bind_eq_some_iff.mp hboot
  obtain ⟨device, hdevice, rfl⟩ := Option.map_eq_some_iff.mp howner
  rw [Database.bootOf, h.sessions _ _ hsession, Option.bind_some, h.devices _ _ hdevice,
    Option.map_some]

theorem Database.joinPoint_eq_some {db : Database} {point : MetricPoint Nat Nat Nat}
    {device : List Char} {boot : List Char × List Char} {metric : MetricDefinition}
    (hdevice : db.devices.keyOf point.device = some device) (hboot : db.bootOf point.boot = some boot)
    (hmetric : db.metricDefinitions.keyOf point.metric = some metric) :
    db.joinPoint point = some { point with device := device, boot := boot, metric := metric } := by
  rw [Database.joinPoint, hdevice, Option.bind_some, hboot, Option.bind_some, hmetric,
    Option.map_some]

theorem Database.Grows.joinPoint {db db' : Database} (h : db.Grows db')
    (point : MetricPoint Nat Nat Nat)
    (joined : MetricPoint (List Char) (List Char × List Char) MetricDefinition)
    (hjoin : db.joinPoint point = some joined) : db'.joinPoint point = some joined := by
  obtain ⟨device, hdevice, hjoin⟩ := Option.bind_eq_some_iff.mp hjoin
  obtain ⟨boot, hboot, hjoin⟩ := Option.bind_eq_some_iff.mp hjoin
  obtain ⟨metric, hmetric, rfl⟩ := Option.map_eq_some_iff.mp hjoin
  exact Database.joinPoint_eq_some (h.devices _ _ hdevice) (h.bootOf hboot) (h.metrics _ _ hmetric)

theorem Database.joinFrame_eq_some {db : Database} {row : FrameRow Nat Nat Nat}
    {device : List Char} {boot : List Char × List Char} {signal : StreamDefinition}
    (hdevice : db.devices.keyOf row.device = some device) (hboot : db.bootOf row.boot = some boot)
    (hsignal : db.signalStreamDefinitions.keyOf row.signal = some signal) :
    db.joinFrame row = some { row with device := device, boot := boot, signal := signal } := by
  rw [Database.joinFrame, hdevice, Option.bind_some, hboot, Option.bind_some, hsignal,
    Option.map_some]

theorem Database.Grows.joinFrame {db db' : Database} (h : db.Grows db')
    (row : FrameRow Nat Nat Nat)
    (joined : FrameRow (List Char) (List Char × List Char) StreamDefinition)
    (hjoin : db.joinFrame row = some joined) : db'.joinFrame row = some joined := by
  obtain ⟨device, hdevice, hjoin⟩ := Option.bind_eq_some_iff.mp hjoin
  obtain ⟨boot, hboot, hjoin⟩ := Option.bind_eq_some_iff.mp hjoin
  obtain ⟨signal, hsignal, rfl⟩ := Option.map_eq_some_iff.mp hjoin
  exact Database.joinFrame_eq_some (h.devices _ _ hdevice) (h.bootOf hboot) (h.streams _ _ hsignal)

theorem Database.resolveBoot_spec (db : Database) (header : RecordHeader)
    (receivedAt : Timestamptz) :
    ∃ devices sessions devicePk bootPk,
      let db' := { db with devices := devices, deviceBootSessions := sessions }
      db.resolveBoot header receivedAt = some (db', devicePk, bootPk) ∧ db.Grows db' ∧
        db'.devices.keyOf devicePk = some header.deviceId ∧
        db'.bootOf bootPk = some (header.deviceId, header.bootId) := by
  obtain ⟨devicePk, hdevice⟩ := db.devices.exists_pkOf_insertOrIgnore header.deviceId ()
  obtain ⟨bootPk, hboot⟩ := db.deviceBootSessions.exists_pkOf_insertOrIgnore
    (devicePk, header.bootId) receivedAt
  have hkey := Dimension.keyOf_pkOf hdevice
  refine ⟨db.devices.insertOrIgnore header.deviceId (),
    db.deviceBootSessions.insertOrIgnore (devicePk, header.bootId) receivedAt, devicePk,
    bootPk, ?_, ⟨fun _ _ => Dimension.keyOf_insertOrIgnore (),
      fun _ _ => Dimension.keyOf_insertOrIgnore receivedAt, fun _ _ => id, fun _ _ => id⟩, hkey, ?_⟩
  · simp only [Database.resolveBoot, hdevice, hboot]
  · rw [Database.bootOf, Dimension.keyOf_pkOf hboot, Option.bind_some, hkey, Option.map_some]

/-- The row of device_metric_points, joined, that a record is to end up as. -/
def pointContent (c : Conversions) (record : MetricRecord) :
    Option (MetricPoint (List Char) (List Char × List Char) MetricDefinition) :=
  (c.timestamptz record.header.receivedAt).map fun receivedAt =>
    metricPoint c record receivedAt record.header.deviceId
      (record.header.deviceId, record.header.bootId) (metricDefinition record)

def frameContent (c : Conversions) (record : SignalFrameRecord) :
    Option (FrameRow (List Char) (List Char × List Char) StreamDefinition) :=
  (c.timestamptz record.header.receivedAt).bind fun receivedAt =>
    (b64decode record.samplesB64).map fun decodedSamples =>
      frameRow c record receivedAt decodedSamples record.header.deviceId
        (record.header.deviceId, record.header.bootId) (streamDefinition record)

theorem ingestMetricStagingRow_spec (c : Conversions) (db : Database) {new : MetricRecord}
    {joined : MetricPoint (List Char) (List Char × List Char) MetricDefinition}
    (hcontent : pointContent c new = some joined) :
    ∃ db' point, ingestMetricStagingRow c db new = some db' ∧ db.Grows db' ∧
      db'.joinPoint point = some joined ∧
      db'.deviceMetricPoints = db.deviceMetricPoints.upsert point ∧
      db'.deviceSignalFrames = db.deviceSignalFrames ∧ db'.rawDeviceEvents = db.rawDeviceEvents := by
  obtain ⟨receivedAt, hreceived, rfl⟩ := Option.map_eq_some_iff.mp hcontent
  obtain ⟨devices, sessions, devicePk, bootPk, hresolve, hgrows, hdevice, hboot⟩ :=
    db.resolveBoot_spec new.header receivedAt
  obtain ⟨metricPk, hmetric⟩ :=
    db.metricDefinitions.exists_pkOf_insertOrIgnore (metricDefinition new) ()
  refine ⟨{ db with
    devices := devices
    deviceBootSessions := sessions
    metricDefinitions := db.metricDefinitions.insertOrIgnore (metricDefinition new) ()
    deviceMetricPoints := db.deviceMetricPoints.upsert
      (metricPoint c new receivedAt devicePk bootPk metricPk) },
    metricPoint c new receivedAt devicePk bootPk metricPk, ?_, ?_, ?_, rfl, rfl, rfl⟩
  · simp only [ingestMetricStagingRow, hreceived, hresolve, hmetric]
  · exact ⟨hgrows.devices, hgrows.sessions, fun _ _ => Dimension.keyOf_insertOrIgnore (),
      hgrows.streams⟩
  · exact Database.joinPoint_eq_some hdevice hboot (Dimension.keyOf_pkOf hmetric)

theorem ingestSignalFrameStagingRow_spec (c : Conversions) (db : Database) {new : SignalFrameRecord}
    {joined : FrameRow (List Char) (List Char × List Char) StreamDefinition}
    (hcontent : frameContent c new = some joined) :
    ∃ db' row, ingestSignalFrameStagingRow c db new = some db' ∧ db.Grows db' ∧
      db'.joinFrame row = some joined ∧
      db'.deviceSignalFrames = db.deviceSignalFrames.upsert row ∧
      db'.deviceMetricPoints = db.deviceMetricPoints ∧ db'.rawDeviceEvents = db.rawDeviceEvents := by
  obtain ⟨receivedAt, hreceived, hdecoded⟩ := Option.bind_eq_some_iff.mp hcontent
  obtain ⟨decodedSamples, hdecode, rfl⟩ := Option.map_eq_some_iff.mp hdecoded
  obtain ⟨devices, sessions, devicePk, bootPk, hresolve, hgrows, hdevice, hboot⟩ :=
    db.resolveBoot_spec new.header receivedAt
  obtain ⟨signalPk, hsignal⟩ :=
    db.signalStreamDefinitions.exists_pkOf_insertOrIgnore (streamDefinition new) ()
  refine ⟨{ db with
    devices := devices
    deviceBootSessions := sessions
    signalStreamDefinitions := db.signalStreamDefinitions.insertOrIgnore (streamDefinition new) ()
    deviceSignalFrames := db.deviceSignalFrames.upsert
      (frameRow c new receivedAt decodedSamples devicePk bootPk signalPk) },
    frameRow c new receivedAt decodedSamples devicePk bootPk signalPk, ?_, ?_, ?_, rfl, rfl, rfl⟩
  · simp only [ingestSignalFrameStagingRow, hreceived, hdecode, hresolve, hsignal]
  · exact ⟨hgrows.devices, hgrows.sessions, hgrows.metrics,
      fun _ _ => Dimension.keyOf_insertOrIgnore ()⟩
  · exact Database.joinFrame_eq_some hdevice hboot (Dimension.keyOf_pkOf hsignal)

def pointOf (c : Conversions) :
    TopicRecord → Option (MetricPoint (List Char) (List Char × List Char) MetricDefinition)
  | .metric record => if FitsColumns (.metric record) then pointContent c record else none
  | _ => none

def frameOf (c : Conversions) :
    TopicRecord → Option (FrameRow (List Char) (List Char × List Char) StreamDefinition)
  | .signalFrame record =>
    if FitsColumns (.signalFrame record) then frameContent c record else none
  | _ => none

/-- The abstraction: the joined final tables are the records that have been upserted. -/
structure Stores (c : Conversions) (db : Database) (S : Set TopicRecord) : Prop where
  points : Holds MetricPoint.key db.joinPoint db.deviceMetricPoints.rows (collect (pointOf c) S)
  frames : Holds FrameRow.key db.joinFrame db.deviceSignalFrames.rows (collect (frameOf c) S)

theorem stores_empty (c : Conversions) : Stores c .empty ∅ where
  points := ⟨List.nodup_nil, fun _ hrow => absurd hrow List.not_mem_nil,
    fun _ ⟨_, hr, _⟩ => absurd hr (Set.notMem_empty _)⟩
  frames := ⟨List.nodup_nil, fun _ hrow => absurd hrow List.not_mem_nil,
    fun _ ⟨_, hr, _⟩ => absurd hr (Set.notMem_empty _)⟩

theorem joinPoint_key {db : Database} (point : MetricPoint Nat Nat Nat)
    (joined : MetricPoint (List Char) (List Char × List Char) MetricDefinition)
    (h : db.joinPoint point = some joined) : joined.key = point.key := by
  obtain ⟨device, -, hboot⟩ := Option.bind_eq_some_iff.mp h
  obtain ⟨boot, -, hmetric⟩ := Option.bind_eq_some_iff.mp hboot
  obtain ⟨metric, -, rfl⟩ := Option.map_eq_some_iff.mp hmetric
  rfl

theorem joinFrame_key {db : Database} (row : FrameRow Nat Nat Nat)
    (joined : FrameRow (List Char) (List Char × List Char) StreamDefinition)
    (h : db.joinFrame row = some joined) : joined.key = row.key := by
  obtain ⟨device, -, hboot⟩ := Option.bind_eq_some_iff.mp h
  obtain ⟨boot, -, hsignal⟩ := Option.bind_eq_some_iff.mp hboot
  obtain ⟨signal, -, rfl⟩ := Option.map_eq_some_iff.mp hsignal
  rfl

theorem pointContent_key {c : Conversions} {record : MetricRecord}
    {joined : MetricPoint (List Char) (List Char × List Char) MetricDefinition}
    (h : pointContent c record = some joined) : metricStagingKey record = joined.key.2 := by
  obtain ⟨receivedAt, -, rfl⟩ := Option.map_eq_some_iff.mp h
  rfl

theorem frameContent_key {c : Conversions} {record : SignalFrameRecord}
    {joined : FrameRow (List Char) (List Char × List Char) StreamDefinition}
    (h : frameContent c record = some joined) : frameStagingKey record = joined.key.2 := by
  obtain ⟨receivedAt, -, hdecoded⟩ := Option.bind_eq_some_iff.mp h
  obtain ⟨decodedSamples, -, rfl⟩ := Option.map_eq_some_iff.mp hdecoded
  rfl

theorem pointOf_some {c : Conversions} {record : TopicRecord}
    {joined : MetricPoint (List Char) (List Char × List Char) MetricDefinition}
    (h : pointOf c record = some joined) :
    ∃ metric, record = .metric metric ∧ FitsColumns record ∧ pointContent c metric = some joined ∧
      metricStagingKey metric = joined.key.2 := by
  cases record with
  | raw record => cases h
  | signalFrame record => cases h
  | metric metric =>
    rw [pointOf] at h
    split at h
    · next hfits => exact ⟨metric, rfl, hfits, h, pointContent_key h⟩
    · cases h

theorem frameOf_some {c : Conversions} {record : TopicRecord}
    {joined : FrameRow (List Char) (List Char × List Char) StreamDefinition}
    (h : frameOf c record = some joined) :
    ∃ frame, record = .signalFrame frame ∧ FitsColumns record ∧ frameContent c frame = some joined ∧
      frameStagingKey frame = joined.key.2 := by
  cases record with
  | raw record => cases h
  | metric record => cases h
  | signalFrame frame =>
    rw [frameOf] at h
    split at h
    · next hfits => exact ⟨frame, rfl, hfits, h, frameContent_key h⟩
    · cases h

theorem upsert_metric_none {c : Conversions} (db : Database) {record : MetricRecord}
    (h : pointOf c (.metric record) = none) : db.upsert c (.metric record) = none := by
  rw [pointOf] at h
  rw [Database.upsert]
  split at h
  · next hfits =>
    have hreceived := Option.map_eq_none_iff.mp h
    rw [if_pos hfits, Database.upsertRow, ingestMetricStagingRow, hreceived]
  · next hfits => rw [if_neg hfits]

theorem upsert_signalFrame_none {c : Conversions} (db : Database) {record : SignalFrameRecord}
    (h : frameOf c (.signalFrame record) = none) : db.upsert c (.signalFrame record) = none := by
  rw [frameOf] at h
  rw [Database.upsert]
  split at h
  · next hfits =>
    rw [if_pos hfits, Database.upsertRow, ingestSignalFrameStagingRow]
    cases hreceived : c.timestamptz record.header.receivedAt with
    | none => rfl
    | some receivedAt =>
      rw [frameContent, hreceived, Option.bind_some, Option.map_eq_none_iff] at h
      simp only [h]
  · next hfits => rw [if_neg hfits]

theorem upsert_metric_some {c : Conversions} (db : Database) {record : MetricRecord}
    {joined : MetricPoint (List Char) (List Char × List Char) MetricDefinition}
    (h : pointOf c (.metric record) = some joined) :
    ∃ db' point, db.upsert c (.metric record) = some db' ∧ db.Grows db' ∧
      db'.joinPoint point = some joined ∧
      db'.deviceMetricPoints = db.deviceMetricPoints.upsert point ∧
      db'.deviceSignalFrames = db.deviceSignalFrames ∧ db'.rawDeviceEvents = db.rawDeviceEvents := by
  obtain ⟨metric, heq, hfits, hcontent, -⟩ := pointOf_some h
  obtain rfl := TopicRecord.metric.inj heq
  obtain ⟨db', point, hrow, hgrows, hspec⟩ := ingestMetricStagingRow_spec c
    { db with metricIngestStaging := db.metricIngestStaging.upsert record } hcontent
  refine ⟨db', point, ?_, ⟨hgrows.devices, hgrows.sessions, hgrows.metrics, hgrows.streams⟩, hspec⟩
  rw [Database.upsert, if_pos hfits, Database.upsertRow, hrow]

theorem upsert_signalFrame_some {c : Conversions} (db : Database) {record : SignalFrameRecord}
    {joined : FrameRow (List Char) (List Char × List Char) StreamDefinition}
    (h : frameOf c (.signalFrame record) = some joined) :
    ∃ db' row, db.upsert c (.signalFrame record) = some db' ∧ db.Grows db' ∧
      db'.joinFrame row = some joined ∧
      db'.deviceSignalFrames = db.deviceSignalFrames.upsert row ∧
      db'.deviceMetricPoints = db.deviceMetricPoints ∧ db'.rawDeviceEvents = db.rawDeviceEvents := by
  obtain ⟨frame, heq, hfits, hcontent, -⟩ := frameOf_some h
  obtain rfl := TopicRecord.signalFrame.inj heq
  obtain ⟨db', row, hrow, hgrows, hspec⟩ := ingestSignalFrameStagingRow_spec c
    { db with signalFrameIngestStaging := db.signalFrameIngestStaging.upsert record } hcontent
  refine ⟨db', row, ?_, ⟨hgrows.devices, hgrows.sessions, hgrows.metrics, hgrows.streams⟩, hspec⟩
  rw [Database.upsert, if_pos hfits, Database.upsertRow, hrow]

/-- No two records of `S` share their key in a staging table. -/
structure Fixed (S : Set TopicRecord) : Prop where
  metrics : ∀ r r', .metric r ∈ S → .metric r' ∈ S → metricStagingKey r = metricStagingKey r' → r = r'
  frames : ∀ r r', .signalFrame r ∈ S → .signalFrame r' ∈ S →
    frameStagingKey r = frameStagingKey r' → r = r'

theorem Fixed.pointOf_eq {c : Conversions} {S : Set TopicRecord} (hfixed : Fixed S)
    {r r' : TopicRecord} (hr : r ∈ S) (hr' : r' ∈ S)
    {joined joined' : MetricPoint (List Char) (List Char × List Char) MetricDefinition}
    (h : pointOf c r = some joined) (h' : pointOf c r' = some joined')
    (hkey : joined.key = joined'.key) : joined = joined' := by
  obtain ⟨metric, rfl, -, -, hmetric⟩ := pointOf_some h
  obtain ⟨metric', rfl, -, -, hmetric'⟩ := pointOf_some h'
  have hsame : metric = metric' := hfixed.metrics metric metric' hr hr'
    (hmetric.trans ((congrArg Prod.snd hkey).trans hmetric'.symm))
  rw [hsame, h'] at h
  exact (Option.some.inj h).symm

theorem Fixed.frameOf_eq {c : Conversions} {S : Set TopicRecord} (hfixed : Fixed S)
    {r r' : TopicRecord} (hr : r ∈ S) (hr' : r' ∈ S)
    {joined joined' : FrameRow (List Char) (List Char × List Char) StreamDefinition}
    (h : frameOf c r = some joined) (h' : frameOf c r' = some joined')
    (hkey : joined.key = joined'.key) : joined = joined' := by
  obtain ⟨frame, rfl, -, -, hkeyed⟩ := frameOf_some h
  obtain ⟨frame', rfl, -, -, hkeyed'⟩ := frameOf_some h'
  have hsame : frame = frame' := hfixed.frames frame frame' hr hr'
    (hkeyed.trans ((congrArg Prod.snd hkey).trans hkeyed'.symm))
  rw [hsame, h'] at h
  exact (Option.some.inj h).symm

theorem Stores.ignore {c : Conversions} {db : Database} {S : Set TopicRecord} {record : TopicRecord}
    (h : Stores c db S) (hpoint : pointOf c record = none) (hframe : frameOf c record = none) :
    Stores c db (insert record S) where
  points := by
    rw [collect_insert_none S hpoint]
    exact h.points
  frames := by
    rw [collect_insert_none S hframe]
    exact h.frames

theorem Stores.apply {c : Conversions} {db : Database} {S : Set TopicRecord} {record : TopicRecord}
    (h : Stores c db S) (hfixed : Fixed (insert record S)) :
    Stores c (db.apply c record) (insert record S) := by
  cases record with
  | raw record =>
    have hignore : Stores c db (insert (.raw record) S) := h.ignore rfl rfl
    rw [Database.apply, Database.upsert]
    split
    · exact ⟨hignore.points, hignore.frames⟩
    · exact hignore
  | metric record =>
    cases hpoint : pointOf c (.metric record) with
    | none =>
      rw [Database.apply, upsert_metric_none db hpoint]
      exact h.ignore hpoint rfl
    | some joined =>
      obtain ⟨db', point, hupsert, hgrows, hjoin, hpoints, hframes, -⟩ := upsert_metric_some db hpoint
      rw [Database.apply, hupsert, Option.getD_some]
      constructor
      · rw [collect_insert_some S hpoint, hpoints]
        refine (h.points.mono hgrows.joinPoint).upsert hjoin joinPoint_key ?_
        rintro other ⟨r, hr, hother⟩ hkey
        exact hfixed.pointOf_eq (.inr hr) (.inl rfl) hother hpoint hkey
      · rw [collect_insert_none S (f := frameOf c) rfl, hframes]
        exact h.frames.mono hgrows.joinFrame
  | signalFrame record =>
    cases hframe : frameOf c (.signalFrame record) with
    | none =>
      rw [Database.apply, upsert_signalFrame_none db hframe]
      exact h.ignore rfl hframe
    | some joined =>
      obtain ⟨db', row, hupsert, hgrows, hjoin, hframes, hpoints, -⟩ :=
        upsert_signalFrame_some db hframe
      rw [Database.apply, hupsert, Option.getD_some]
      constructor
      · rw [collect_insert_none S (f := pointOf c) rfl, hpoints]
        exact h.points.mono hgrows.joinPoint
      · rw [collect_insert_some S hframe, hframes]
        refine (h.frames.mono hgrows.joinFrame).upsert hjoin joinFrame_key ?_
        rintro other ⟨r, hr, hother⟩ hkey
        exact hfixed.frameOf_eq (.inr hr) (.inl rfl) hother hframe hkey

def Database.run (c : Conversions) (upserts : List TopicRecord) : Database :=
  upserts.foldl (Database.apply c) .empty

theorem stores_run (c : Conversions) (upserts : List TopicRecord)
    (hfixed : Fixed {record | record ∈ upserts}) :
    Stores c (Database.run c upserts) {record | record ∈ upserts} := by
  induction upserts using List.reverseRecOn with
  | nil =>
    have hset : {r : TopicRecord | r ∈ []} = ∅ := by simp
    rw [hset]
    exact stores_empty c
  | append_singleton upserts record ih =>
    have hset : {r | r ∈ upserts ++ [record]} = insert record {r | r ∈ upserts} := by
      ext r
      simp [or_comm]
    rw [hset] at hfixed ⊢
    rw [Database.run, List.foldl_concat]
    refine (ih ⟨fun r r' hr hr' => ?_, fun r r' hr hr' => ?_⟩).apply hfixed
    · exact hfixed.metrics r r' (.inr hr) (.inr hr')
    · exact hfixed.frames r r' (.inr hr) (.inr hr')

theorem rawDeviceEvents_apply (c : Conversions) (db : Database) (record : TopicRecord) :
    (db.apply c record).rawDeviceEvents = db.rawDeviceEvents ∧
        (∀ raw, record = .raw raw → ¬FitsColumns record) ∨
      ∃ raw, record = .raw raw ∧
        (db.apply c record).rawDeviceEvents = db.rawDeviceEvents.upsert raw := by
  cases record with
  | raw record =>
    by_cases hfits : FitsColumns (.raw record)
    · refine .inr ⟨record, rfl, ?_⟩
      rw [Database.apply, Database.upsert, if_pos hfits]
      rfl
    · refine .inl ⟨?_, fun _ _ => hfits⟩
      rw [Database.apply, Database.upsert, if_neg hfits]
      rfl
  | metric record =>
    refine .inl ⟨?_, nofun⟩
    rw [Database.apply]
    cases hpoint : pointOf c (.metric record) with
    | none => rw [upsert_metric_none db hpoint, Option.getD_none]
    | some joined =>
      obtain ⟨db', point, hupsert, -, -, -, -, hraw⟩ := upsert_metric_some db hpoint
      rw [hupsert, Option.getD_some, hraw]
  | signalFrame record =>
    refine .inl ⟨?_, nofun⟩
    rw [Database.apply]
    cases hframe : frameOf c (.signalFrame record) with
    | none => rw [upsert_signalFrame_none db hframe, Option.getD_none]
    | some joined =>
      obtain ⟨db', row, hupsert, -, -, -, -, hraw⟩ := upsert_signalFrame_some db hframe
      rw [hupsert, Option.getD_some, hraw]

theorem exists_raw_run (c : Conversions) {upserts : List TopicRecord} {record : RawRecord}
    (hmem : .raw record ∈ upserts) (hfits : FitsColumns (.raw record)) :
    ∃ row ∈ (Database.run c upserts).rawDeviceEvents.rows, rawKey row = rawKey record := by
  induction upserts using List.reverseRecOn with
  | nil => cases hmem
  | append_singleton upserts last ih =>
    have hrun : Database.run c (upserts ++ [last]) = (Database.run c upserts).apply c last :=
      List.foldl_concat ..
    rw [hrun]
    rcases rawDeviceEvents_apply c (Database.run c upserts) last with ⟨heq, hlast⟩ | ⟨raw, rfl, heq⟩
    · rw [heq]
      rcases List.mem_append.mp hmem with hmem | hmem
      · exact ih hmem
      · obtain rfl := List.mem_singleton.mp hmem
        exact absurd hfits (hlast record rfl)
    · rw [heq, Keyed.exists_upsert]
      rcases List.mem_append.mp hmem with hmem | hmem
      · exact .inr (ih hmem)
      · obtain rfl := TopicRecord.raw.inj (List.mem_singleton.mp hmem)
        exact .inl rfl

/-- Only these records are upserted, and of each at least one upsert goes through. -/
structure Delivers (c : Conversions) (published upserts : List TopicRecord) : Prop where
  only : ∀ record ∈ upserts, record ∈ published
  each : ∀ record ∈ published, ∃ before after, upserts = before ++ record :: after ∧
    ((Database.run c before).upsert c record).isSome = true

/-- Whether an upsert goes through depends on the record alone. -/
theorem upsert_isSome (c : Conversions) (db db' : Database) (record : TopicRecord) :
    (db.upsert c record).isSome = (db'.upsert c record).isSome := by
  cases record with
  | raw record =>
    rw [Database.upsert, Database.upsert]
    split <;> rfl
  | metric record =>
    cases hpoint : pointOf c (.metric record) with
    | none => rw [upsert_metric_none db hpoint, upsert_metric_none db' hpoint]
    | some joined =>
      obtain ⟨_, _, hupsert, -⟩ := upsert_metric_some db hpoint
      obtain ⟨_, _, hupsert', -⟩ := upsert_metric_some db' hpoint
      rw [hupsert, hupsert', Option.isSome_some, Option.isSome_some]
  | signalFrame record =>
    cases hframe : frameOf c (.signalFrame record) with
    | none => rw [upsert_signalFrame_none db hframe, upsert_signalFrame_none db' hframe]
    | some joined =>
      obtain ⟨_, _, hupsert, -⟩ := upsert_signalFrame_some db hframe
      obtain ⟨_, _, hupsert', -⟩ := upsert_signalFrame_some db' hframe
      rw [hupsert, hupsert', Option.isSome_some, Option.isSome_some]

theorem delivers_of_mem {c : Conversions} {published upserts : List TopicRecord}
    (hmem : ∀ record, record ∈ upserts ↔ record ∈ published)
    (hupsert : ∀ record ∈ published, (Database.empty.upsert c record).isSome = true) :
    Delivers c published upserts where
  only := fun record => (hmem record).mp
  each := by
    intro record hrecord
    obtain ⟨before, after, hsplit⟩ := List.append_of_mem ((hmem record).mpr hrecord)
    exact ⟨before, after, hsplit, (upsert_isSome c _ _ record).trans (hupsert record hrecord)⟩

/-- The natural keys of the dimensions are unique, those of the boot sessions also when the
device is named by its id. -/
structure Database.NoDuplicates (db : Database) : Prop where
  devices : (db.devices.rows.map (·.key)).Nodup
  sessions : (db.deviceBootSessions.rows.map (·.key)).Nodup
  boots : ∀ pk pk' boot, db.bootOf pk = some boot → db.bootOf pk' = some boot → pk = pk'
  metrics : (db.metricDefinitions.rows.map (·.key)).Nodup
  streams : (db.signalStreamDefinitions.rows.map (·.key)).Nodup

theorem Database.noDuplicates (db : Database) : db.NoDuplicates where
  devices := db.devices.uniqueKey
  sessions := db.deviceBootSessions.uniqueKey
  boots := by
    intro pk pk' boot h h'
    obtain ⟨session, hsession, howner⟩ := Option.bind_eq_some_iff.mp h
    obtain ⟨session', hsession', howner'⟩ := Option.bind_eq_some_iff.mp h'
    obtain ⟨device, hdevice, rfl⟩ := Option.map_eq_some_iff.mp howner
    obtain ⟨device', hdevice', heq⟩ := Option.map_eq_some_iff.mp howner'
    obtain ⟨rfl, hbootId⟩ := Prod.mk.inj heq
    have hsame : session = session' := Prod.ext (Dimension.keyOf_inj hdevice hdevice') hbootId.symm
    exact Dimension.keyOf_inj hsession (hsame ▸ hsession')
  metrics := db.metricDefinitions.uniqueKey
  streams := db.signalStreamDefinitions.uniqueKey

variable {c : Conversions} {published upserts : List TopicRecord}

theorem mem_metricRecords {records : List TopicRecord} {record : MetricRecord} :
    record ∈ metricRecords records ↔ .metric record ∈ records := by
  rw [metricRecords, List.mem_filterMap]
  constructor
  · rintro ⟨found, hmem, heq⟩
    cases found <;> cases heq
    exact hmem
  · exact fun hmem => ⟨_, hmem, rfl⟩

theorem mem_signalFrameRecords {records : List TopicRecord} {record : SignalFrameRecord} :
    record ∈ signalFrameRecords records ↔ .signalFrame record ∈ records := by
  rw [signalFrameRecords, List.mem_filterMap]
  constructor
  · rintro ⟨found, hmem, heq⟩
    cases found <;> cases heq
    exact hmem
  · exact fun hmem => ⟨_, hmem, rfl⟩

theorem fixed_of_unique (hmetrics : UniqueBy metricStagingKey (metricRecords published))
    (hframes : UniqueBy frameStagingKey (signalFrameRecords published)) :
    Fixed {record | record ∈ published} where
  metrics := fun _ _ hr hr' =>
    hmetrics.eq (mem_metricRecords.mpr hr) (mem_metricRecords.mpr hr')
  frames := fun _ _ hr hr' =>
    hframes.eq (mem_signalFrameRecords.mpr hr) (mem_signalFrameRecords.mpr hr')

theorem Delivers.mem (h : Delivers c published upserts) {record : TopicRecord}
    (hmem : record ∈ published) : record ∈ upserts := by
  obtain ⟨before, after, rfl, -⟩ := h.each record hmem
  simp

theorem Delivers.set_eq (h : Delivers c published upserts) :
    {record | record ∈ upserts} = {record | record ∈ published} :=
  Set.ext fun record => ⟨h.only record, h.mem⟩

theorem Delivers.pointOf (h : Delivers c published upserts) {record : MetricRecord}
    (hmem : .metric record ∈ published) :
    pointOf c (.metric record) = pointContent c record ∧ (pointContent c record).isSome := by
  obtain ⟨before, after, -, hupsert⟩ := h.each _ hmem
  cases hpoint : Postgres.pointOf c (.metric record) with
  | none =>
    rw [upsert_metric_none _ hpoint] at hupsert
    cases hupsert
  | some joined =>
    obtain ⟨metric, heq, -, hcontent, -⟩ := pointOf_some hpoint
    obtain rfl := TopicRecord.metric.inj heq
    exact ⟨hcontent.symm, by rw [hcontent]; rfl⟩

theorem Delivers.frameOf (h : Delivers c published upserts) {record : SignalFrameRecord}
    (hmem : .signalFrame record ∈ published) :
    frameOf c (.signalFrame record) = frameContent c record ∧ (frameContent c record).isSome := by
  obtain ⟨before, after, -, hupsert⟩ := h.each _ hmem
  cases hframe : Postgres.frameOf c (.signalFrame record) with
  | none =>
    rw [upsert_signalFrame_none _ hframe] at hupsert
    cases hupsert
  | some joined =>
    obtain ⟨frame, heq, -, hcontent, -⟩ := frameOf_some hframe
    obtain rfl := TopicRecord.signalFrame.inj heq
    exact ⟨hcontent.symm, by rw [hcontent]; rfl⟩

theorem Delivers.fitsColumns (h : Delivers c published upserts) {record : TopicRecord}
    (hmem : record ∈ published) : FitsColumns record := by
  obtain ⟨before, after, -, hupsert⟩ := h.each record hmem
  by_contra hfits
  rw [Database.upsert, if_neg hfits] at hupsert
  cases hupsert

theorem points_forall₂ (h : ∀ record, .metric record ∈ published →
      pointOf c (.metric record) = pointContent c record ∧ (pointContent c record).isSome) :
    List.Forall₂ (fun record joined => pointContent c record = some joined)
      (metricRecords published) (published.filterMap (pointOf c)) := by
  refine forall₂_filterMap_filterMap fun record hmem => ?_
  cases record with
  | raw record => exact .inl ⟨rfl, rfl⟩
  | signalFrame record => exact .inl ⟨rfl, rfl⟩
  | metric record =>
    obtain ⟨hpoint, hsome⟩ := h record hmem
    obtain ⟨joined, hjoined⟩ := Option.isSome_iff_exists.mp hsome
    exact .inr ⟨record, joined, rfl, hpoint.trans hjoined, hjoined⟩

theorem frames_forall₂ (h : ∀ record, .signalFrame record ∈ published →
      frameOf c (.signalFrame record) = frameContent c record ∧ (frameContent c record).isSome) :
    List.Forall₂ (fun record joined => frameContent c record = some joined)
      (signalFrameRecords published) (published.filterMap (frameOf c)) := by
  refine forall₂_filterMap_filterMap fun record hmem => ?_
  cases record with
  | raw record => exact .inl ⟨rfl, rfl⟩
  | metric record => exact .inl ⟨rfl, rfl⟩
  | signalFrame record =>
    obtain ⟨hframe, hsome⟩ := h record hmem
    obtain ⟨joined, hjoined⟩ := Option.isSome_iff_exists.mp hsome
    exact .inr ⟨record, joined, rfl, hframe.trans hjoined, hjoined⟩

theorem points_run (hmetrics : UniqueBy metricStagingKey (metricRecords published))
    (hframes : UniqueBy frameStagingKey (signalFrameRecords published))
    (hdelivers : Delivers c published upserts) :
    (Database.run c upserts).points.Perm (published.filterMap (pointOf c)) := by
  have hset := hdelivers.set_eq
  have hstores := stores_run c upserts (hset ▸ fixed_of_unique hmetrics hframes)
  have hcontents := points_forall₂ fun _ => hdelivers.pointOf
  have hkeys : (metricRecords published).map metricStagingKey =
      (published.filterMap (pointOf c)).map fun joined => joined.key.2 := by
    rw [← List.forall₂_eq_eq_eq, List.forall₂_map_left_iff, List.forall₂_map_right_iff]
    exact hcontents.imp fun _ _ => pointContent_key
  refine hstores.points.perm joinPoint_key ?_ fun joined => ?_
  · refine List.Nodup.of_map Prod.snd ?_
    rw [List.map_map]
    exact hkeys ▸ hmetrics
  · rw [hset, List.mem_filterMap]
    rfl

theorem frames_run (hmetrics : UniqueBy metricStagingKey (metricRecords published))
    (hframes : UniqueBy frameStagingKey (signalFrameRecords published))
    (hdelivers : Delivers c published upserts) :
    (Database.run c upserts).frames.Perm (published.filterMap (frameOf c)) := by
  have hset := hdelivers.set_eq
  have hstores := stores_run c upserts (hset ▸ fixed_of_unique hmetrics hframes)
  have hcontents := frames_forall₂ fun _ => hdelivers.frameOf
  have hkeys : (signalFrameRecords published).map frameStagingKey =
      (published.filterMap (frameOf c)).map fun joined => joined.key.2 := by
    rw [← List.forall₂_eq_eq_eq, List.forall₂_map_left_iff, List.forall₂_map_right_iff]
    exact hcontents.imp fun _ _ => frameContent_key
  refine hstores.frames.perm joinFrame_key ?_ fun joined => ?_
  · refine List.Nodup.of_map Prod.snd ?_
    rw [List.map_map]
    exact hkeys ▸ hframes
  · rw [hset, List.mem_filterMap]
    rfl

/-- Any upserts that deliver each of the published records leave one row for each in the joined
final tables, the same for all such sequences, and no duplicates in the dimensions. -/
theorem finalTables_run (hmetrics : UniqueBy metricStagingKey (metricRecords published))
    (hframes : UniqueBy frameStagingKey (signalFrameRecords published))
    (hdelivers : Delivers c published upserts) :
    let db := Database.run c upserts
    (db.points.map some).Perm ((metricRecords published).map (pointContent c)) ∧
      (db.frames.map some).Perm ((signalFrameRecords published).map (frameContent c)) ∧
      db.NoDuplicates ∧
      ∀ upserts', Delivers c published upserts' →
        db.points.Perm (Database.run c upserts').points ∧
          db.frames.Perm (Database.run c upserts').frames := by
  intro db
  have hpoints := points_run hmetrics hframes hdelivers
  have hrows := frames_run hmetrics hframes hdelivers
  refine ⟨?_, ?_, db.noDuplicates, fun upserts' hdelivers' => ?_⟩
  · have hcontents : (metricRecords published).map (pointContent c) =
        (published.filterMap (pointOf c)).map some := by
      rw [← List.forall₂_eq_eq_eq, List.forall₂_map_left_iff, List.forall₂_map_right_iff]
      exact points_forall₂ fun _ => hdelivers.pointOf
    rw [hcontents]
    exact hpoints.map some
  · have hcontents : (signalFrameRecords published).map (frameContent c) =
        (published.filterMap (frameOf c)).map some := by
      rw [← List.forall₂_eq_eq_eq, List.forall₂_map_left_iff, List.forall₂_map_right_iff]
      exact frames_forall₂ fun _ => hdelivers.frameOf
    rw [hcontents]
    exact hrows.map some
  · exact ⟨hpoints.trans (points_run hmetrics hframes hdelivers').symm,
      hrows.trans (frames_run hmetrics hframes hdelivers').symm⟩

def epochConversions : Conversions := ⟨fun _ => some 0, fun ns => ns / 1000, fun _ => none⟩

def bootHeader : RecordHeader :=
  ⟨"r1".toList, "t".toList, "::1".toList, 1, "dev".toList, "boot".toList, 0, "telemetry".toList,
    none, none, some 5000⟩

def temperatureRecord : MetricRecord :=
  ⟨bootHeader, 0, "temp".toList, none, "int".toList, none, some (.int 21), none, none, none⟩

def sampleRecord : SignalFrameRecord :=
  ⟨bootHeader, "imu".toList, 1000, 1, "int16_le".toList, "interleaved".toList, "[]".toList,
    "AAA=".toList⟩

theorem finalTables_twoRecords :
    let db := Database.run epochConversions
      [.signalFrame sampleRecord, .metric temperatureRecord, .signalFrame sampleRecord]
    (db.points.map some).Perm [pointContent epochConversions temperatureRecord] ∧
      (db.frames.map some).Perm [frameContent epochConversions sampleRecord] := by
  have hdelivers : Delivers epochConversions
      [.metric temperatureRecord, .signalFrame sampleRecord]
      [.signalFrame sampleRecord, .metric temperatureRecord, .signalFrame sampleRecord] :=
    delivers_of_mem (by simp [or_comm]) (by
      rw [List.forall_mem_cons, List.forall_mem_singleton]
      decide +kernel)
  have hrun := finalTables_run (by decide +kernel) (by decide +kernel) hdelivers
  exact ⟨hrun.1, hrun.2.1⟩

end Aetus.Postgres
