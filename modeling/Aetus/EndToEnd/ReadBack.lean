import Aetus.EndToEnd.RangeSelection
import Aetus.Postgres.FinalTables
import Aetus.Query.TimeUtils

/-!
The sample times of a stored frame within the ranges of the types that its readers count them in:
`i64` and chrono's `DateTime` in the anomaly service, `timedelta` and `datetime` in the query API.
-/

set_option autoImplicit false

namespace Aetus
open Aetus.Base Aetus.Ingest Aetus.Postgres

variable {δ β σ : Type}

namespace Anomaly

/-- The times of `DateTime<Utc>`, in nanoseconds: from the first of January of the year -262143 to
the end of the year 262142. -/
def dateTimeMin : Int := -8334601228800000000000

def dateTimeMax : Int := 8210266876799999999999

/-- The product of two `i64`, if it is one. -/
def checkedMul (a b : Int) : Option Int :=
  if -2 ^ 63 ≤ a * b ∧ a * b < 2 ^ 63 then some (a * b) else none

/-- A `DateTime` and a `Duration`, if they have a sum. -/
def checkedAdd (time duration : Int) : Option Int :=
  if dateTimeMin ≤ time + duration ∧ time + duration ≤ dateTimeMax then some (time + duration)
  else none

/-- `event_time + Duration::microseconds((sample_index as i64 * sample_interval_ns) / 1000)` -/
def checkedSampleTime (eventTime sampleIntervalNs : Int) (sampleIndex : Nat) : Option Int :=
  (checkedMul sampleIndex sampleIntervalNs).bind fun elapsedNs =>
    checkedAdd eventTime (1000 * elapsedNs.tdiv 1000)

end Anomaly

namespace Query

/-- A `timedelta` has at most 999999999 days besides the microseconds of one. -/
def timedeltaMax : Int := 86399999999999999999

/-- `event_time + timedelta(microseconds=(sample_index * sample_interval_ns) / 1000)` -/
def checkedTimestamp (eventTime : Timestamptz) (sampleIntervalNs sampleIndex : Nat) :
    Option Timestamptz :=
  let delta := sampleDelta binary64 sampleIntervalNs sampleIndex
  if delta ≤ timedeltaMax ∧ datetimeMin ≤ eventTime + delta ∧ eventTime + delta ≤ datetimeMax then
    some (eventTime + delta)
  else none

end Query

/-- Both readers have a time for every sample of the frame. -/
structure ReadsBack (frame : FrameRow δ β σ) : Prop where
  anomaly : ∀ j < frame.sampleCount, (Anomaly.checkedSampleTime
    (Anomaly.ofTimestamptz frame.eventTime) frame.sampleIntervalNs j).isSome = true
  query : ∀ j < frame.sampleCount,
    (Query.checkedTimestamp frame.eventTime frame.sampleIntervalNs j).isSome = true

/-! What the checked times are -/

theorem Anomaly.checkedMul_isSome {a b : Int} :
    (checkedMul a b).isSome = true ↔ -2 ^ 63 ≤ a * b ∧ a * b < 2 ^ 63 := by
  unfold checkedMul
  split <;> simp_all

/-- Where the arithmetic is checked, the times are those of the loops over frames. -/
theorem Anomaly.checkedSampleTime_eq {F : Type} {row : SignalFrameRow F} {j : Nat} {time : Int}
    (h : checkedSampleTime row.eventTime row.sampleIntervalNs j = some time) :
    time = row.sampleTime j := by
  obtain ⟨elapsedNs, hmul, hadd⟩ := Option.bind_eq_some_iff.mp h
  unfold checkedMul at hmul
  split at hmul
  · next hfits =>
    obtain rfl := Option.some.inj hmul
    unfold checkedAdd at hadd
    split at hadd
    · obtain rfl := Option.some.inj hadd
      have hwrap : Int.bmod (j * row.sampleIntervalNs) (2 ^ 64) = j * row.sampleIntervalNs :=
        Int.bmod_eq_of_le (by exact hfits.1) (by exact hfits.2)
      rw [SignalFrameRow.sampleTime, elapsedMicros, hwrap]
    · cases hadd
  · cases hmul

theorem Query.checkedTimestamp_eq {eventTime time : Timestamptz} {sampleIntervalNs sampleCount j : Nat}
    (hj : j < sampleCount) (h : checkedTimestamp eventTime sampleIntervalNs j = some time) :
    (sampleTimestamps binary64 eventTime sampleIntervalNs sampleCount)[j]? = some time := by
  unfold checkedTimestamp at h
  dsimp only at h
  split at h
  · obtain rfl := Option.some.inj h
    simp [sampleTimestamps, hj]
  · cases h

/-! Times of clocks -/

/-- A clock that counts nanoseconds in 64 bits, from which the microseconds are taken. -/
def IsClockTime (time : Timestamptz) : Prop := -2 ^ 63 ≤ 1000 * time ∧ 1000 * time < 2 ^ 63

/-- `TO_TIMESTAMP` is off by less than a second. -/
def Postgres.Conversions.ReadsUnixTime (c : Conversions) : Prop :=
  ∀ ns : Nat, ns < 2 ^ 64 → (ns : Int) - 1000000000 ≤ 1000 * c.toTimestamp ns ∧
    1000 * c.toTimestamp ns ≤ ns + 1000000000

/-- An event is at most six centuries away from 1970. -/
def IsEventTime (time : Timestamptz) : Prop :=
  -2 ^ 63 - 1000000000 ≤ 1000 * time ∧ 1000 * time ≤ 2 ^ 64 + 1000000000

theorem checkedSampleTime_isSome {eventTime : Timestamptz} (htime : IsEventTime eventTime)
    {sampleIntervalNs j : Nat} (h : j * sampleIntervalNs < 2 ^ 63) :
    (Anomaly.checkedSampleTime (Anomaly.ofTimestamptz eventTime) sampleIntervalNs j).isSome = true := by
  obtain ⟨hlow, hhigh⟩ := htime
  have hfits : -2 ^ 63 ≤ (j : Int) * sampleIntervalNs ∧ (j : Int) * sampleIntervalNs < 2 ^ 63 := by
    rw [← Int.natCast_mul]
    omega
  have helapsed : ((j : Int) * sampleIntervalNs).tdiv 1000 = ((j * sampleIntervalNs / 1000 : Nat) : Int) := by
    rw [← Int.natCast_mul]
    rfl
  rw [Anomaly.checkedSampleTime, Anomaly.checkedMul, if_pos hfits, Option.bind_some, helapsed,
    Anomaly.checkedAdd, if_pos]
  · rfl
  · unfold Anomaly.ofTimestamptz Anomaly.dateTimeMin Anomaly.dateTimeMax Timestamptz at *
    omega

theorem checkedTimestamp_isSome {eventTime : Timestamptz} (htime : IsEventTime eventTime)
    {sampleIntervalNs j : Nat} (h : j * sampleIntervalNs < 2 ^ 63) :
    (Query.checkedTimestamp eventTime sampleIntervalNs j).isSome = true := by
  obtain ⟨hlow, hhigh⟩ := htime
  obtain ⟨hbelow, habove⟩ := sampleDelta_bounds h
  unfold Query.checkedTimestamp
  generalize Query.sampleDelta binary64 sampleIntervalNs j = delta at hbelow habove ⊢
  dsimp only
  rw [if_pos]
  · rfl
  · unfold Query.timedeltaMax Query.datetimeMin Query.datetimeMax Timestamptz at *
    omega

/-- Times of events leave room for products of 64 bits. -/
theorem readsBack_iff_of_eventTime {frame : FrameRow δ β σ} (htime : IsEventTime frame.eventTime)
    (hcount : frame.sampleCount ≠ 0) :
    ReadsBack frame ↔ (frame.sampleCount - 1) * frame.sampleIntervalNs < 2 ^ 63 := by
  constructor
  · intro h
    obtain ⟨time, htime⟩ := Option.isSome_iff_exists.mp
      (h.anomaly (frame.sampleCount - 1) (Nat.sub_one_lt hcount))
    obtain ⟨elapsedNs, hmul, -⟩ := Option.bind_eq_some_iff.mp htime
    have hfits := (Anomaly.checkedMul_isSome.mp (Option.isSome_iff_exists.mpr ⟨elapsedNs, hmul⟩)).2
    rw [← Int.natCast_mul] at hfits
    exact Int.ofNat_lt.mp hfits
  · intro hlast
    have hall : ∀ j < frame.sampleCount, j * frame.sampleIntervalNs < 2 ^ 63 := fun j hj =>
      (Nat.mul_le_mul_right _ (Nat.le_sub_one_of_lt hj)).trans_lt hlast
    exact ⟨fun j hj => checkedSampleTime_isSome htime (hall j hj),
      fun j hj => checkedTimestamp_isSome htime (hall j hj)⟩

/-! Accepted frames -/

theorem signalFrameRecord_of_accepted {envelope : Envelope} {event : IngestEvent}
    {normalized : NormalizedEvent} {record : SignalFrameRecord}
    (haccepted : normalizeEvent envelope event = .ok normalized)
    (hrecord : record ∈ buildSignalFrameRecords normalized) :
    record.header.receivedAt = envelope.receivedAt ∧
      record.header.timestampNs = numberOrNone event.timestampNs.toNat ∧
      ∃ frame : SignalFrame, ∃ n, normalizeSignalFrame frame = .ok n ∧
        record.sampleIntervalNs = n.sampleIntervalNs ∧ record.sampleCount = n.sampleCount := by
  obtain ⟨payload, hpayload, rfl⟩ := normalizeEvent_ok haccepted
  unfold buildSignalFrameRecords at hrecord
  split at hrecord
  · cases hrecord
  · split at hrecord
    · next n hn =>
      obtain rfl := List.mem_singleton.mp hrecord
      obtain rfl : payload = .signalFrame n := hn
      unfold normalizePayload at hpayload
      split at hpayload
      · split at hpayload <;> cases hpayload
      · next frame _ =>
        split at hpayload
        · cases hpayload
        · next accepted hframe =>
          obtain rfl : accepted = n := NormalizedPayload.signalFrame.inj (Except.ok.inj hpayload)
          exact ⟨rfl, rfl, frame, accepted, hframe, rfl, rfl⟩
      all_goals cases hpayload
    · cases hrecord

theorem isEventTime_resolvedEventTime {c : Conversions} (hc : c.ReadsUnixTime) {header : RecordHeader}
    {receivedAt : Timestamptz} {ns : Nat} (hns : ns < 2 ^ 64)
    (htimestamp : header.timestampNs = numberOrNone ns) (hclock : IsClockTime receivedAt) :
    IsEventTime (resolvedEventTime c header receivedAt) := by
  unfold resolvedEventTime
  rw [htimestamp, numberOrNone]
  split
  · next given hgiven =>
    obtain rfl : ns = given := by
      split at hgiven
      · cases hgiven
      · exact Option.some.inj hgiven
    obtain ⟨hlow, hhigh⟩ := hc ns hns
    unfold IsEventTime Timestamptz at *
    omega
  · obtain ⟨hlow, hhigh⟩ := hclock
    unfold IsEventTime Timestamptz at *
    omega

/-- What is stored of an accepted frame can be read back exactly when the time of its last sample,
in nanoseconds after the first, is less than 2^63. -/
theorem readsBack_iff (c : Conversions) (hc : c.ReadsUnixTime) {envelope : Envelope}
    {event : IngestEvent} {normalized : NormalizedEvent} {record : SignalFrameRecord}
    {row : FrameRow (List Char) (List Char × List Char) StreamDefinition}
    (haccepted : normalizeEvent envelope event = .ok normalized)
    (hrecord : record ∈ buildSignalFrameRecords normalized)
    (hclock : ∀ time, c.timestamptz envelope.receivedAt = some time → IsClockTime time)
    (hrow : frameContent c record = some row) :
    ReadsBack row ↔ (row.sampleCount - 1) * row.sampleIntervalNs < 2 ^ 63 := by
  obtain ⟨hreceived, htimestamp, frame, n, hframe, -, hcount⟩ :=
    signalFrameRecord_of_accepted haccepted hrecord
  obtain ⟨receivedAt, hread, hdecoded⟩ := Option.bind_eq_some_iff.mp hrow
  obtain ⟨samples, -, rfl⟩ := Option.map_eq_some_iff.mp hdecoded
  rw [hreceived] at hread
  refine readsBack_iff_of_eventTime ?_ ?_
  · exact isEventTime_resolvedEventTime hc event.timestampNs.toNat_lt htimestamp (hclock _ hread)
  · have hnonzero := (normalizeSignalFrame_ok hframe).hasCount
    show record.sampleCount ≠ 0
    rw [hcount, (normalizeSignalFrame_ok hframe).sampleCount]
    exact fun hzero => hnonzero (UInt32.toNat_inj.mp hzero)

/-! Frames of silence -/

def silentFrame (sampleIntervalNs : UInt64) (sampleCount : UInt32) : SignalFrame :=
  { pairFrame sampleIntervalNs with
    sampleCount := sampleCount, samples := List.replicate (2 * sampleCount.toNat) 0 }

def silentFrameEvent (sampleIntervalNs : UInt64) (sampleCount : UInt32) : IngestEvent :=
  ⟨1, "dev".toList, 0, EVENT_TYPE_TELEMETRY, "boot".toList, 0, 0, 0,
    some (.telemetry (some (.signalFrame (silentFrame sampleIntervalNs sampleCount))))⟩

def silentEnvelope : Envelope := ⟨"r1".toList, "t".toList, "::1".toList⟩

theorem epochConversions_readsUnixTime : epochConversions.ReadsUnixTime := by
  intro ns _
  show (ns : Int) - 1000000000 ≤ 1000 * (ns / 1000 : Int) ∧ 1000 * (ns / 1000 : Int) ≤ ns + 1000000000
  omega

theorem silentFrame_stored {sampleIntervalNs : UInt64} {sampleCount : UInt32}
    (hinterval : sampleIntervalNs ≠ 0) (hcount : sampleCount ≠ 0) :
    ∃ normalized record row,
      normalizeEvent silentEnvelope (silentFrameEvent sampleIntervalNs sampleCount) = .ok normalized ∧
      record ∈ buildSignalFrameRecords normalized ∧
      record.sampleIntervalNs = sampleIntervalNs.toNat ∧ record.sampleCount = sampleCount.toNat ∧
      frameContent epochConversions record = some row ∧
      row.sampleIntervalNs = sampleIntervalNs.toNat ∧ row.sampleCount = sampleCount.toNat := by
  have haccepts : ∃ n, normalizeSignalFrame (silentFrame sampleIntervalNs sampleCount) = .ok n := by
    have hwidth : SIGNAL_ENCODING_SAMPLE_BYTES.lookup SIGNAL_SAMPLE_ENCODING_INT16_LE = some 2 := rfl
    refine (normalizeSignalFrame_accepts (show "imu".toList ≠ [] by decide) hinterval hcount
      (List.cons_ne_nil _ _) rfl hwidth rfl).mpr ⟨?_, ?_⟩
    · exact List.forall_mem_singleton.mpr (show "x".toList ≠ [] by decide)
    · show (List.replicate (2 * sampleCount.toNat) (0 : UInt8)).length = sampleCount.toNat * 1 * 2
      rw [List.length_replicate]
      omega
  obtain ⟨n, hn⟩ := haccepts
  have haccepted := normalizeSignalFrame_ok hn
  have hpayload : normalizePayload (silentFrameEvent sampleIntervalNs sampleCount) =
      .ok (.signalFrame n) := by
    simp only [normalizePayload, silentFrameEvent, hn]
  let normalized := normalizedEvent silentEnvelope (silentFrameEvent sampleIntervalNs sampleCount)
    (.signalFrame n)
  let record := buildSignalFrameRecord normalized n
  let row := frameRow epochConversions record 0 (silentFrame sampleIntervalNs sampleCount).samples
    record.header.deviceId (record.header.deviceId, record.header.bootId) (streamDefinition record)
  have hdecode : b64decode n.samplesB64 = some (silentFrame sampleIntervalNs sampleCount).samples := by
    rw [haccepted.samplesB64, b64decode_b64encode]
  refine ⟨normalized, record, row, ?_, List.mem_singleton_self _,
    haccepted.sampleIntervalNs, haccepted.sampleCount, ?_, haccepted.sampleIntervalNs,
    haccepted.sampleCount⟩
  · simp only [normalizeEvent, hpayload]
    rfl
  · show (b64decode n.samplesB64).map _ = some row
    rw [hdecode]
    rfl

/-- Two samples, a millisecond apart. -/
theorem readsBack_iff_silentPair :
    ∃ row : FrameRow (List Char) (List Char × List Char) StreamDefinition,
      row.sampleCount = 2 ∧ row.sampleIntervalNs = 1000000 ∧
        (ReadsBack row ↔ (row.sampleCount - 1) * row.sampleIntervalNs < 2 ^ 63) := by
  obtain ⟨normalized, record, row, hnormalized, hrecord, -, -, hrow, hinterval, hcount⟩ :=
    silentFrame_stored (show (1000000 : UInt64) ≠ 0 by decide) (show (2 : UInt32) ≠ 0 by decide)
  refine ⟨row, hcount, hinterval, readsBack_iff epochConversions epochConversions_readsUnixTime
    hnormalized hrecord ?_ hrow⟩
  rintro time ⟨⟩
  exact ⟨by decide, by decide⟩

/-- The last of 64 samples comes some 9200 years after the first. -/
theorem silentMillennia_not_readsBack :
    ¬∀ (event : IngestEvent) (normalized : NormalizedEvent) (record : SignalFrameRecord)
        (row : FrameRow (List Char) (List Char × List Char) StreamDefinition),
      normalizeEvent silentEnvelope event = .ok normalized →
      record ∈ buildSignalFrameRecords normalized → record.sampleIntervalNs < 2 ^ 63 →
      record.sampleCount < 2 ^ 31 → frameContent epochConversions record = some row →
      ReadsBack row := by
  intro h
  obtain ⟨normalized, record, row, hnormalized, hrecord, hinterval, hcount, hrow, hrowInterval,
    hrowCount⟩ := silentFrame_stored (show (4611686018427387904 : UInt64) ≠ 0 by decide)
      (show (64 : UInt32) ≠ 0 by decide)
  have hreads := h _ normalized record row hnormalized hrecord (by rw [hinterval]; decide)
    (by rw [hcount]; decide) hrow
  have hlast := hreads.anomaly 63 (by rw [hrowCount]; decide)
  obtain ⟨time, htime⟩ := Option.isSome_iff_exists.mp hlast
  obtain ⟨elapsedNs, hmul, -⟩ := Option.bind_eq_some_iff.mp htime
  rw [hrowInterval, Anomaly.checkedMul, if_neg (by decide)] at hmul
  cases hmul

end Aetus
