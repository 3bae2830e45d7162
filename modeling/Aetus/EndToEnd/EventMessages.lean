import Aetus.Base.Merging
import Aetus.Firmware.MetricReports
import Aetus.Ingest.Normalize

/-!
The messages of ingest.proto as they stand on the wire, and the event that the ingest service
makes of one: texts as bytes and numbers as bits on one side, Python's values on the other.
-/

set_option autoImplicit false

namespace Aetus
open Aetus.Base Aetus.Base.Protobuf Aetus.Firmware

structure ChannelMessage where
  key : List UInt8
  unit : List UInt8
  scale : Option UInt32
  offset : Option UInt32

structure FrameMessage where
  streamKey : List UInt8
  sampleIntervalNs : UInt64
  sampleCount : UInt32
  encoding : Int32
  layout : Int32
  channels : List ChannelMessage
  samples : List UInt8

inductive BodyMessage where
  | telemetry
  | metricSet (metrics : List ReportMetric)
  | signalFrame (frame : FrameMessage)
  | status (deviceStatus rssi : Int32) (freeHeap : UInt32) (rebootReason : List UInt8)
  | alert (code : List UInt8) (severity : Int32) (message : List UInt8)

structure EventMessage where
  schemaVersion : UInt32
  deviceId : List UInt8
  sequence : UInt64
  eventType : Int32
  bootId : List UInt8
  firmwareVersion : UInt32
  uptimeMs : UInt64
  timestampNs : UInt64
  body : Option BodyMessage

/-- An enumeration is a varint of 64 bits, also where it is negative. -/
def enumVarint (value : Int32) : Nat := (value.toInt % 2 ^ 64).toNat

def ChannelMessage.fields (c : ChannelMessage) : List Field :=
  unlessDefault 1 (.bytes c.key) ++ (unlessDefault 2 (.bytes c.unit) ++
    ((c.scale.map fun bits => (⟨3, .fixed32 bits⟩ : Field)).toList ++
      (c.offset.map fun bits => (⟨4, .fixed32 bits⟩ : Field)).toList))

def FrameMessage.fields (f : FrameMessage) : List Field :=
  unlessDefault 1 (.bytes f.streamKey) ++ (unlessDefault 2 (.varint f.sampleIntervalNs.toNat) ++
    (unlessDefault 3 (.varint f.sampleCount.toNat) ++
      (unlessDefault 4 (.varint (enumVarint f.encoding)) ++
        (unlessDefault 5 (.varint (enumVarint f.layout)) ++
          (f.channels.map (fun c => message 6 c.fields) ++
            unlessDefault 7 (.bytes f.samples))))))

def BodyMessage.field : BodyMessage → Field
  | .telemetry => message 10 []
  | .metricSet metrics => metricSetField metrics
  | .signalFrame frame => message 10 [message 2 frame.fields]
  | .status deviceStatus rssi freeHeap rebootReason => message 11
      (unlessDefault 1 (.varint (enumVarint deviceStatus)) ++
        (unlessDefault 2 (.varint (zigzag rssi.toInt)) ++
          (unlessDefault 3 (.varint freeHeap.toNat) ++ unlessDefault 4 (.bytes rebootReason))))
  | .alert code severity text => message 12
      (unlessDefault 1 (.bytes code) ++ (unlessDefault 2 (.varint (enumVarint severity)) ++
        unlessDefault 3 (.bytes text)))

/-- The message as a serializer writes it: the fields by their numbers, defaults left out. -/
def EventMessage.fields (e : EventMessage) : List Field :=
  unlessDefault 1 (.varint e.schemaVersion.toNat) ++ (unlessDefault 2 (.bytes e.deviceId) ++
    (unlessDefault 3 (.varint e.sequence.toNat) ++
      (unlessDefault 4 (.varint (enumVarint e.eventType)) ++
        (unlessDefault 5 (.bytes e.bootId) ++
          (unlessDefault 6 (.varint e.firmwareVersion.toNat) ++
            (unlessDefault 7 (.varint e.uptimeMs.toNat) ++
              (unlessDefault 8 (.varint e.timestampNs.toNat) ++
                (e.body.map BodyMessage.field).toList)))))))

/-! The event in Python -/

/-- The values of the bits of a `double` and of a `float`. -/
structure FloatBits where
  double : UInt64 → Double
  float : UInt32 → Double

/-- A text has to be UTF-8. -/
def decodeText (bytes : List UInt8) : Option (List Char) :=
  bytes.toByteArray.utf8Decode?.map Array.toList

def decodeValue (floats : FloatBits) : ReportValue → Option Ingest.MetricValue
  | .int value => some (.int value)
  | .double bits => some (.double (floats.double bits))
  | .bool value => some (.bool value)
  | .string text => (decodeText text).map .string
  | .bytes content => some (.bytes content)

def decodeMetric (floats : FloatBits) (m : ReportMetric) : Option Ingest.Metric := do
  let key ← decodeText m.key
  let unit ← decodeText m.unit
  let value ← match m.value with
    | none => some none
    | some v => (decodeValue floats v).map some
  return ⟨key, value, unit⟩

def ChannelMessage.decode (floats : FloatBits) (c : ChannelMessage) : Option Ingest.SignalChannel := do
  let key ← decodeText c.key
  let unit ← decodeText c.unit
  return ⟨key, unit, c.scale.map floats.float, c.offset.map floats.float⟩

def FrameMessage.decode (floats : FloatBits) (f : FrameMessage) : Option Ingest.SignalFrame := do
  let streamKey ← decodeText f.streamKey
  let channels ← f.channels.mapM (ChannelMessage.decode floats)
  return ⟨streamKey, f.sampleIntervalNs, f.sampleCount, f.encoding, f.layout, channels, f.samples⟩

def BodyMessage.decode (floats : FloatBits) : BodyMessage → Option Ingest.Body
  | .telemetry => some (.telemetry none)
  | .metricSet metrics =>
    (metrics.mapM (decodeMetric floats)).map fun metrics => .telemetry (some (.metricSet metrics))
  | .signalFrame frame =>
    (frame.decode floats).map fun frame => .telemetry (some (.signalFrame frame))
  | .status deviceStatus rssi freeHeap rebootReason =>
    (decodeText rebootReason).map (.status deviceStatus rssi freeHeap)
  | .alert code severity text => do
    let code ← decodeText code
    let text ← decodeText text
    return .alert code severity text

def EventMessage.decode (floats : FloatBits) (e : EventMessage) : Option Ingest.IngestEvent := do
  let deviceId ← decodeText e.deviceId
  let bootId ← decodeText e.bootId
  let body ← match e.body with
    | none => some none
    | some body => (body.decode floats).map some
  return { schemaVersion := e.schemaVersion, deviceId := deviceId, sequence := e.sequence,
           eventType := e.eventType, bootId := bootId, firmwareVersion := e.firmwareVersion,
           uptimeMs := e.uptimeMs, timestampNs := e.timestampNs, body := body }

/-- `ParseFromString` on what serializers write: the message they were given, unless one of its
texts is not UTF-8. -/
def ReadsMessages (floats : FloatBits)
    (parseFromString : List UInt8 → Option Ingest.IngestEvent) : Prop :=
  ∀ e : EventMessage, parseFromString (write e.fields) = e.decode floats

theorem decodeText_eq_some_iff {bytes : List UInt8} {text : List Char} :
    decodeText bytes = some text ↔ utf8 text = bytes := by
  have hencode (cs : List Char) : cs.utf8Encode = (utf8 cs).toByteArray := rfl
  constructor
  · intro h
    obtain ⟨chars, hchars, rfl⟩ := Option.map_eq_some_iff.mp h
    have hsome : bytes.toByteArray.utf8Decode?.isSome = true := by rw [hchars]; rfl
    have hback := ByteArray.utf8Encode_get_utf8Decode? (h := hsome)
    simp only [hchars, Option.get_some, hencode] at hback
    have hbytes := congrArg (fun b : ByteArray => b.data.toList) hback
    simpa using hbytes
  · rintro rfl
    rw [decodeText, ← hencode, List.utf8Decode?_utf8Encode]
    rfl

theorem decodeText_utf8 (text : List Char) : decodeText (utf8 text) = some text :=
  decodeText_eq_some_iff.mpr rfl

/-! A reader of the messages -/

def readAs {M : Type} (merge : M → Field → Option M) (blank : M) (content : List UInt8) :
    Option M :=
  (read content).bind fun fields => fields.foldlM merge blank

def ChannelMessage.merge (c : ChannelMessage) (f : Field) : Option ChannelMessage :=
  match f.number, f.value with
  | 1, .bytes key => some { c with key := key }
  | 2, .bytes unit => some { c with unit := unit }
  | 3, .fixed32 bits => some { c with scale := some bits }
  | 4, .fixed32 bits => some { c with offset := some bits }
  | _, _ => some c

def FrameMessage.merge (m : FrameMessage) (f : Field) : Option FrameMessage :=
  match f.number, f.value with
  | 1, .bytes streamKey => some { m with streamKey := streamKey }
  | 2, .varint n => some { m with sampleIntervalNs := UInt64.ofNat n }
  | 3, .varint n => some { m with sampleCount := UInt32.ofNat n }
  | 4, .varint n => some { m with encoding := Int32.ofNat n }
  | 5, .varint n => some { m with layout := Int32.ofNat n }
  | 6, .bytes content => (readAs ChannelMessage.merge ⟨[], [], none, none⟩ content).map fun c =>
      { m with channels := m.channels ++ [c] }
  | 7, .bytes samples => some { m with samples := samples }
  | _, _ => some m

structure StatusMessage where
  status : Int32
  rssi : Int32
  freeHeap : UInt32
  rebootReason : List UInt8

def StatusMessage.merge (m : StatusMessage) (f : Field) : Option StatusMessage :=
  match f.number, f.value with
  | 1, .varint n => some { m with status := Int32.ofNat n }
  | 2, .varint n => some { m with rssi := Int32.ofInt (unzigzag n) }
  | 3, .varint n => some { m with freeHeap := UInt32.ofNat n }
  | 4, .bytes rebootReason => some { m with rebootReason := rebootReason }
  | _, _ => some m

structure AlertMessage where
  code : List UInt8
  severity : Int32
  text : List UInt8

def AlertMessage.merge (m : AlertMessage) (f : Field) : Option AlertMessage :=
  match f.number, f.value with
  | 1, .bytes code => some { m with code := code }
  | 2, .varint n => some { m with severity := Int32.ofNat n }
  | 3, .bytes text => some { m with text := text }
  | _, _ => some m

def readTelemetry (content : List UInt8) : Option BodyMessage := do
  let fields ← read content
  match lastOf [1, 2] fields with
  | none => some .telemetry
  | some f =>
    match f.number, f.value with
    | 1, .bytes content => do
      let set ← read content
      let metrics ← (set.filter (·.number = 1)).mapM fun f => (f.asMessage 1).bind readMetric
      return .metricSet metrics
    | 2, .bytes content =>
      (readAs FrameMessage.merge ⟨[], 0, 0, 0, 0, [], []⟩ content).map .signalFrame
    | _, _ => none

def EventMessage.merge (e : EventMessage) (f : Field) : Option EventMessage :=
  match f.number, f.value with
  | 1, .varint n => some { e with schemaVersion := UInt32.ofNat n }
  | 2, .bytes deviceId => some { e with deviceId := deviceId }
  | 3, .varint n => some { e with sequence := UInt64.ofNat n }
  | 4, .varint n => some { e with eventType := Int32.ofNat n }
  | 5, .bytes bootId => some { e with bootId := bootId }
  | 6, .varint n => some { e with firmwareVersion := UInt32.ofNat n }
  | 7, .varint n => some { e with uptimeMs := UInt64.ofNat n }
  | 8, .varint n => some { e with timestampNs := UInt64.ofNat n }
  | 10, .bytes content => (readTelemetry content).map fun body => { e with body := some body }
  | 11, .bytes content => (readAs StatusMessage.merge ⟨0, 0, 0, []⟩ content).map fun m =>
      { e with body := some (.status m.status m.rssi m.freeHeap m.rebootReason) }
  | 12, .bytes content => (readAs AlertMessage.merge ⟨[], 0, []⟩ content).map fun m =>
      { e with body := some (.alert m.code m.severity m.text) }
  | _, _ => some e

def readMessage (bytes : List UInt8) : Option EventMessage :=
  readAs EventMessage.merge ⟨0, [], 0, 0, [], 0, 0, 0, none⟩ bytes

theorem ofNat_enumVarint (value : Int32) : Int32.ofNat (enumVarint value) = value := by
  have hmod : ((enumVarint value : Nat) : Int) = value.toInt % 2 ^ 64 :=
    Int.toNat_of_nonneg (Int.emod_nonneg _ (by decide))
  apply Int32.toInt_inj.mp
  rw [Int32.toInt_ofNat', hmod]
  have hle := value.le_toInt
  have hlt := value.toInt_lt
  simp only [Int32.size, Int.bmod]
  omega

theorem enumVarint_eq_zero {value : Int32} (h : enumVarint value = 0) : value = 0 := by
  rw [← ofNat_enumVarint value, h]
  rfl

theorem readAs_write {M : Type} {merge : M → Field → Option M} {blank m : M} {fields : List Field}
    (h : fields.foldlM merge blank = some m) : readAs merge blank (write fields) = some m := by
  rw [readAs, read_write]
  exact h

theorem readChannel_write (c : ChannelMessage) :
    readAs ChannelMessage.merge ⟨[], [], none, none⟩ (write c.fields) = some c := by
  refine readAs_write ?_
  refine foldlM_then (foldlM_bytes (g := fun key => (⟨key, [], none, none⟩ : ChannelMessage))
    (fun _ => rfl) c.key) ?_
  refine foldlM_then (foldlM_bytes (g := fun unit => (⟨c.key, unit, none, none⟩ : ChannelMessage))
    (fun _ => rfl) c.unit) ?_
  refine foldlM_then (foldlM_optional
    (g := fun scale => (⟨c.key, c.unit, scale, none⟩ : ChannelMessage)) (fun _ => rfl) c.scale) ?_
  exact foldlM_optional (g := fun offset => (⟨c.key, c.unit, c.scale, offset⟩ : ChannelMessage))
    (fun _ => rfl) c.offset

theorem toNat_eq_zero32 {value : UInt32} (h : value.toNat = 0) : value = 0 := UInt32.toNat_inj.mp h

theorem toNat_eq_zero64 {value : UInt64} (h : value.toNat = 0) : value = 0 := UInt64.toNat_inj.mp h

theorem readFrame_write (f : FrameMessage) :
    readAs FrameMessage.merge ⟨[], 0, 0, 0, 0, [], []⟩ (write f.fields) = some f := by
  refine readAs_write ?_
  refine foldlM_then (foldlM_bytes (g := fun key => (⟨key, 0, 0, 0, 0, [], []⟩ : FrameMessage))
    (fun _ => rfl) f.streamKey) ?_
  refine foldlM_then (foldlM_varint (g := fun n => (⟨f.streamKey, n, 0, 0, 0, [], []⟩ : FrameMessage))
    (fun _ => toNat_eq_zero64) (fun n => by simp [FrameMessage.merge]) f.sampleIntervalNs) ?_
  refine foldlM_then (foldlM_varint
    (g := fun n => (⟨f.streamKey, f.sampleIntervalNs, n, 0, 0, [], []⟩ : FrameMessage))
    (fun _ => toNat_eq_zero32) (fun n => by simp [FrameMessage.merge]) f.sampleCount) ?_
  refine foldlM_then (foldlM_varint
    (g := fun n => (⟨f.streamKey, f.sampleIntervalNs, f.sampleCount, n, 0, [], []⟩ : FrameMessage))
    (fun _ => enumVarint_eq_zero) (fun n => by simp [FrameMessage.merge, ofNat_enumVarint])
    f.encoding) ?_
  refine foldlM_then (foldlM_varint
    (g := fun n =>
      (⟨f.streamKey, f.sampleIntervalNs, f.sampleCount, f.encoding, n, [], []⟩ : FrameMessage))
    (fun _ => enumVarint_eq_zero) (fun n => by simp [FrameMessage.merge, ofNat_enumVarint])
    f.layout) ?_
  refine foldlM_then (foldlM_repeated
    (g := fun cs => (⟨f.streamKey, f.sampleIntervalNs, f.sampleCount, f.encoding, f.layout, cs,
      []⟩ : FrameMessage))
    (fun cs c => by simp [FrameMessage.merge, message, readChannel_write]) f.channels []) ?_
  exact foldlM_bytes
    (g := fun b => (⟨f.streamKey, f.sampleIntervalNs, f.sampleCount, f.encoding, f.layout,
      f.channels, b⟩ : FrameMessage))
    (fun _ => rfl) f.samples

theorem readTelemetry_empty : readTelemetry (write []) = some .telemetry := by
  simp [readTelemetry, lastOf]

theorem readTelemetry_metricSet (metrics : List ReportMetric) :
    readTelemetry (write [message 1 (metrics.map fun m => message 1 m.fields)]) =
      some (.metricSet metrics) := by
  have hlast : lastOf [1, 2] [message 1 (metrics.map fun m => message 1 m.fields)] =
      some (message 1 (metrics.map fun m => message 1 m.fields)) :=
    lastOf_append_singleton (by simp) []
  simp only [readTelemetry, read_write, Option.bind_eq_bind, Option.bind_some, hlast]
  simp only [message, read_write, Option.bind_some]
  rw [show (metrics.map fun m => (⟨1, .bytes (write m.fields)⟩ : Field)) =
    metrics.map fun m => message 1 m.fields from rfl, readMetrics_messages]
  rfl

theorem readTelemetry_signalFrame (frame : FrameMessage) :
    readTelemetry (write [message 2 frame.fields]) = some (.signalFrame frame) := by
  have hlast : lastOf [1, 2] [message 2 frame.fields] = some (message 2 frame.fields) :=
    lastOf_append_singleton (by simp) []
  simp only [readTelemetry, read_write, Option.bind_eq_bind, Option.bind_some, hlast]
  simp only [message, readFrame_write, Option.map_some]

theorem zigzag_eq_zero {value : Int32} (h : zigzag value.toInt = 0) : value = 0 := by
  have hzero := unzigzag_zigzag value.toInt
  rw [h] at hzero
  exact Int32.toInt_inj.mp hzero.symm

theorem readStatus_write (m : StatusMessage) :
    readAs StatusMessage.merge ⟨0, 0, 0, []⟩ (write
      (unlessDefault 1 (.varint (enumVarint m.status)) ++
        (unlessDefault 2 (.varint (zigzag m.rssi.toInt)) ++
          (unlessDefault 3 (.varint m.freeHeap.toNat) ++
            unlessDefault 4 (.bytes m.rebootReason))))) = some m := by
  refine readAs_write ?_
  refine foldlM_then (foldlM_varint (g := fun n => (⟨n, 0, 0, []⟩ : StatusMessage))
    (fun _ => enumVarint_eq_zero) (fun n => by simp [StatusMessage.merge, ofNat_enumVarint])
    m.status) ?_
  refine foldlM_then (foldlM_varint (g := fun n => (⟨m.status, n, 0, []⟩ : StatusMessage))
    (fun _ => zigzag_eq_zero) (fun n => by simp [StatusMessage.merge]) m.rssi) ?_
  refine foldlM_then (foldlM_varint (g := fun n => (⟨m.status, m.rssi, n, []⟩ : StatusMessage))
    (fun _ => toNat_eq_zero32) (fun n => by simp [StatusMessage.merge]) m.freeHeap) ?_
  exact foldlM_bytes (g := fun b => (⟨m.status, m.rssi, m.freeHeap, b⟩ : StatusMessage))
    (fun _ => rfl) m.rebootReason

theorem readAlert_write (m : AlertMessage) :
    readAs AlertMessage.merge ⟨[], 0, []⟩ (write (unlessDefault 1 (.bytes m.code) ++
      (unlessDefault 2 (.varint (enumVarint m.severity)) ++ unlessDefault 3 (.bytes m.text)))) =
      some m := by
  refine readAs_write ?_
  refine foldlM_then (foldlM_bytes (g := fun b => (⟨b, 0, []⟩ : AlertMessage)) (fun _ => rfl)
    m.code) ?_
  refine foldlM_then (foldlM_varint (g := fun n => (⟨m.code, n, []⟩ : AlertMessage))
    (fun _ => enumVarint_eq_zero) (fun n => by simp [AlertMessage.merge, ofNat_enumVarint])
    m.severity) ?_
  exact foldlM_bytes (g := fun b => (⟨m.code, m.severity, b⟩ : AlertMessage)) (fun _ => rfl) m.text

theorem merge_body (e : EventMessage) (body : BodyMessage) :
    e.merge body.field = some { e with body := some body } := by
  cases body with
  | telemetry => simp [BodyMessage.field, message, EventMessage.merge, readTelemetry_empty]
  | metricSet metrics =>
    have hread := readTelemetry_metricSet metrics
    simp [BodyMessage.field, metricSetField, message, EventMessage.merge] at hread ⊢
    simp [hread]
  | signalFrame frame =>
    have hread := readTelemetry_signalFrame frame
    simp [BodyMessage.field, message, EventMessage.merge] at hread ⊢
    simp [hread]
  | status deviceStatus rssi freeHeap rebootReason =>
    have hread := readStatus_write ⟨deviceStatus, rssi, freeHeap, rebootReason⟩
    simp [BodyMessage.field, message, EventMessage.merge, hread]
  | alert code severity text =>
    have hread := readAlert_write ⟨code, severity, text⟩
    simp [BodyMessage.field, message, EventMessage.merge, hread]

theorem readMessage_write (e : EventMessage) : readMessage (write e.fields) = some e := by
  refine readAs_write ?_
  refine foldlM_then (foldlM_varint
    (g := fun n => (⟨n, [], 0, 0, [], 0, 0, 0, none⟩ : EventMessage))
    (fun _ => toNat_eq_zero32) (fun n => by simp [EventMessage.merge]) e.schemaVersion) ?_
  refine foldlM_then (foldlM_bytes
    (g := fun b => (⟨e.schemaVersion, b, 0, 0, [], 0, 0, 0, none⟩ : EventMessage))
    (fun _ => rfl) e.deviceId) ?_
  refine foldlM_then (foldlM_varint
    (g := fun n => (⟨e.schemaVersion, e.deviceId, n, 0, [], 0, 0, 0, none⟩ : EventMessage))
    (fun _ => toNat_eq_zero64) (fun n => by simp [EventMessage.merge]) e.sequence) ?_
  refine foldlM_then (foldlM_varint
    (g := fun n => (⟨e.schemaVersion, e.deviceId, e.sequence, n, [], 0, 0, 0, none⟩ : EventMessage))
    (fun _ => enumVarint_eq_zero) (fun n => by simp [EventMessage.merge, ofNat_enumVarint])
    e.eventType) ?_
  refine foldlM_then (foldlM_bytes
    (g := fun b => (⟨e.schemaVersion, e.deviceId, e.sequence, e.eventType, b, 0, 0, 0, none⟩ :
      EventMessage)) (fun _ => rfl) e.bootId) ?_
  refine foldlM_then (foldlM_varint
    (g := fun n => (⟨e.schemaVersion, e.deviceId, e.sequence, e.eventType, e.bootId, n, 0, 0, none⟩ :
      EventMessage))
    (fun _ => toNat_eq_zero32) (fun n => by simp [EventMessage.merge]) e.firmwareVersion) ?_
  refine foldlM_then (foldlM_varint
    (g := fun n => (⟨e.schemaVersion, e.deviceId, e.sequence, e.eventType, e.bootId,
      e.firmwareVersion, n, 0, none⟩ : EventMessage))
    (fun _ => toNat_eq_zero64) (fun n => by simp [EventMessage.merge]) e.uptimeMs) ?_
  refine foldlM_then (foldlM_varint
    (g := fun n => (⟨e.schemaVersion, e.deviceId, e.sequence, e.eventType, e.bootId,
      e.firmwareVersion, e.uptimeMs, n, none⟩ : EventMessage))
    (fun _ => toNat_eq_zero64) (fun n => by simp [EventMessage.merge]) e.timestampNs) ?_
  exact foldlM_optional (g := fun b => { e with body := b }) (fun b => merge_body _ b) e.body

/-- There is a parser of the messages, so no more is asked of the library than it can do. -/
theorem readMessage_reads (floats : FloatBits) :
    ReadsMessages floats fun bytes => (readMessage bytes).bind (·.decode floats) := by
  intro e
  dsimp only
  rw [readMessage_write, Option.bind_some]

end Aetus
