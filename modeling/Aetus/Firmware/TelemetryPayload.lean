import Aetus.Base.Lists
import Aetus.Firmware.BuilderCalls
import Aetus.Firmware.CopyOwnership
import Aetus.Firmware.MetricReports

/-!
What becomes of the metrics that the add calls put into a telemetry structure: through the
slots and blobs, the queue copy and the callbacks, to what a reader of the payload gets.
-/

set_option autoImplicit false

namespace Aetus.Firmware
open Aetus.Base Aetus.Base.Protobuf

/-- A null pointer counts as the empty text. -/
def argText (arg : Option CString) : List UInt8 := (arg.getD .empty).bytes

def BuilderCall.metric : BuilderCall → Option ReportMetric
  | .addInt64 v _ key unit => some ⟨argText key, argText unit, some (.int v)⟩
  | .addDouble bits _ key unit => some ⟨argText key, argText unit, some (.double bits)⟩
  | .addBool v _ key unit => some ⟨argText key, argText unit, some (.bool v)⟩
  | .addString v _ key unit =>
    v.map fun b => ⟨argText key, argText unit, some (.string b.text.bytes)⟩
  | .addStringN v _ key unit => some ⟨argText key, argText unit, some (.string v.bytes)⟩
  | .addBytes v _ key unit => some ⟨argText key, argText unit, some (.bytes v.bytes)⟩
  | .setTimestamp _ | .deinit => none

/-- A structure with the metrics that were added to it. Other tasks use the heap too, and a
refused call may come between. -/
inductive Reported : List ReportMetric → Telemetry → Heap → Prop where
  | init (h : Heap) : Reported [] telemetryInit h
  | add {ms : List ReportMetric} {t t' : Telemetry} {h h' : Heap} {m : ReportMetric}
      (c : BuilderCall) : Reported ms t h → c.metric = some m →
      builderResult t h c = (.ok (), t', h') → Reported (ms ++ [m]) t' h'
  | refused {ms : List ReportMetric} {t t' : Telemetry} {h h' : Heap} {e : Failure}
      (c : BuilderCall) : Reported ms t h → c.isAdd = true →
      builderResult t h c = (.error e, t', h') → Reported ms t' h'
  | setTimestamp {ms : List ReportMetric} {t : Telemetry} {h : Heap} (ns : UInt64) :
      Reported ms t h → Reported ms { t with timestampNs := ns } h
  | environment {ms : List ReportMetric} {t : Telemetry} {h k : Heap} :
      Reported ms t h → h.Keeps k t.blocks → Reported ms t k

/-- How a slot keeps a value. Bytes of length zero have no block. -/
def ReportValue.InSlot (h : Heap) (m : Metric) : ReportValue → Prop
  | .int v => m.value = .int64 v
  | .double bits => m.value = .double bits
  | .bool v => m.value = .bool v
  | .string text => ∃ p, m.value = .string (some p) ∧ h.block p = some (text ++ [0])
  | .bytes content => (content = [] ∧ m.value = .bytes none) ∨
      (content ≠ [] ∧ ∃ p, m.value = .bytes (some p) ∧ h.block p = some content ∧
        m.blobSize.toNat = content.length)

structure Holds (h : Heap) (r : ReportMetric) (m : Metric) : Prop where
  key : (fillMetric m).key.bytes = r.key
  unit : (fillMetric m).unit.bytes = r.unit
  value : ∃ v, r.value = some v ∧ v.InSlot h m

theorem SameContents.cases {h k : Heap} {m m' : Metric} (hs : SameContents h k m m') :
    m'.key = m.key ∧ m'.unit = m.unit ∧ m'.blobSize = m.blobSize ∧
    (m'.value = m.value ∧ m.blob = none ∨
      (∃ p q, m.value = .string (some p) ∧ m'.value = .string (some q) ∧
        k.block q = h.block p) ∨
      ∃ p q, m.value = .bytes (some p) ∧ m'.value = .bytes (some q) ∧ k.block q = h.block p) := by
  obtain ⟨key, unit, value, size⟩ := m
  obtain ⟨key', unit', value', size'⟩ := m'
  obtain ⟨hshape, hblock⟩ := hs
  cases value <;> cases value' <;> simp [Metric.withBlob] at hshape
  case int64 => simp [hshape, Metric.blob]
  case double => simp [hshape, Metric.blob]
  case bool => simp [hshape, Metric.blob]
  case string p q =>
    cases p <;> cases q <;> simp [Metric.blob] at hblock
    · simp [hshape, Metric.blob]
    · simp [hshape, hblock]
  case bytes p q =>
    cases p <;> cases q <;> simp [Metric.blob] at hblock
    · simp [hshape, Metric.blob]
    · simp [hshape, hblock]

theorem ReportValue.InSlot.same {h k : Heap} {m m' : Metric} {v : ReportValue}
    (hv : v.InSlot h m) (hs : SameContents h k m m') : v.InSlot k m' := by
  obtain ⟨-, -, hsize, hvalue⟩ := hs.cases
  cases v with
  | string text =>
    obtain ⟨p, hp, hblock⟩ := hv
    obtain ⟨-, hnone⟩ | ⟨p', q, hm, hm', hq⟩ | ⟨p', q, hm, -, -⟩ := hvalue
    · simp [Metric.blob, hp] at hnone
    · obtain rfl : p = p' := by simpa [hp] using hm
      exact ⟨q, hm', hq.trans hblock⟩
    · simp [hp] at hm
  | bytes content =>
    obtain ⟨hnil, hm⟩ | ⟨hne, p, hp, hblock, hlen⟩ := hv
    · obtain ⟨heq, -⟩ | ⟨p', q, hm', -, -⟩ | ⟨p', q, hm', -, -⟩ := hvalue
      · exact .inl ⟨hnil, heq.trans hm⟩
      · simp [hm] at hm'
      · simp [hm] at hm'
    · obtain ⟨-, hnone⟩ | ⟨p', q, hm, -, -⟩ | ⟨p', q, hm, hm', hq⟩ := hvalue
      · simp [Metric.blob, hp] at hnone
      · simp [hp] at hm
      · obtain rfl : p = p' := by simpa [hp] using hm
        exact .inr ⟨hne, q, hm', hq.trans hblock, hsize ▸ hlen⟩
  | _ =>
    obtain ⟨heq, -⟩ | ⟨p, q, hm, -, -⟩ | ⟨p, q, hm, -, -⟩ := hvalue
    · exact heq.trans hv
    · cases hm.symm.trans hv
    · cases hm.symm.trans hv

theorem Holds.same {h k : Heap} {r : ReportMetric} {m m' : Metric} (hr : Holds h r m)
    (hs : SameContents h k m m') : Holds k r m' := by
  obtain ⟨hkey, hunit, -, -⟩ := hs.cases
  obtain ⟨v, hv, hslot⟩ := hr.value
  exact ⟨by rw [← hr.key, fillMetric, fillMetric, hkey],
    by rw [← hr.unit, fillMetric, fillMetric, hunit], v, hv, hslot.same hs⟩

theorem SameContents.of_frame {h k : Heap} {m : Metric}
    (hm : ∀ p, m.blob = some p → k.block p = h.block p) : SameContents h k m m := by
  refine ⟨rfl, ?_⟩
  cases hb : m.blob with
  | none => rfl
  | some p => simp [hm p hb]

/-- The blocks behind the used slots are all that matters. -/
theorem holds_frame {h k : Heap} {t : Telemetry} {rs : List ReportMetric} {n : Nat}
    (hk : ∀ p ∈ t.blocks, k.block p = h.block p)
    (hall : List.Forall₂ (Holds h) rs (t.slots.take n)) :
    List.Forall₂ (Holds k) rs (t.slots.take n) := by
  have hslots : List.Forall₂ (SameContents h k) (t.slots.take n) (t.slots.take n) :=
    List.forall₂_same.mpr fun m hm => .of_frame fun p hp => hk p
      (List.mem_append_right _ (mem_blobs.mpr ⟨m, List.mem_of_mem_take hm, hp⟩))
  exact forall₂_trans (fun _ _ _ hr hs => hr.same hs) hall hslots

theorem copyString_of_fits {value : Option CString} {n : Nat} (hn : 0 < n)
    (h : stringFits value n = true) :
    copyString .empty n (some (copyString .empty n value)) = value.getD .empty := by
  cases value with
  | none =>
    have hnone : copyString .empty n none = .empty := by
      unfold copyString
      split <;> rfl
    rw [hnone]
    exact (copyString_eq_self_iff hn).mpr (by simpa using hn)
  | some s =>
    have hs : s.strlen < n := by simpa [stringFits, Nat.ne_of_gt hn] using h
    rw [(copyString_eq_self_iff hn).mpr hs, (copyString_eq_self_iff hn).mpr hs]
    rfl

theorem appendMetric_holds {inIsr : Bool} {t t1 : Telemetry} {h h1 k : Heap}
    {key unit : Option CString} (happ : appendMetric inIsr t h key unit = (.ok (), t1, h1))
    {value : MetricValue} {size : UInt32} {v : ReportValue}
    (hv : v.InSlot k { blankMetric key unit with value := value, blobSize := size }) :
    Holds k ⟨argText key, argText unit, some v⟩
      { blankMetric key unit with value := value, blobSize := size } := by
  have hcheck : checkMetric t key unit = .ok () := by
    unfold appendMetric at happ
    split at happ
    · cases happ
    · next hcheck => exact hcheck
  obtain ⟨-, hkey, hunit, -⟩ := checkMetric_eq_ok.mp hcheck
  exact ⟨congrArg CString.bytes (copyString_of_fits (by decide) hkey),
    congrArg CString.bytes (copyString_of_fits (by decide) hunit), v, rfl, hv⟩

theorem setSlot_last {t : Telemetry} {h : Heap} {old : Metric} (ho : Owned t h)
    (hold : t.slots[t.metricCount - 1]? = some old) (m : Metric) :
    (t.setSlot (t.metricCount - 1) m).slots[(t.setSlot (t.metricCount - 1) m).metricCount - 1]? =
      some m := by
  have hlen := (List.getElem?_eq_some_iff.mp hold).1
  rw [setSlot_metricCount, setSlot_slots _ _ ho.inline_length, List.getElem?_set_self hlen]

theorem AddOutcome.holds {v : ReportValue} {inIsr : Bool} {t t' : Telemetry} {h h' : Heap}
    {key unit : Option CString} (ho : Owned t h)
    (ha : AddOutcome (fun k m => v.InSlot k m) inIsr t h key unit (.ok ()) t' h') :
    ∃ m, t'.slots[t'.metricCount - 1]? = some m ∧
      Holds h' ⟨argText key, argText unit, some v⟩ m := by
  cases ha with
  | inPlace value size happ hv hfilled =>
    obtain ⟨ho1, hslot⟩ := appendMetric_owned ho happ
    obtain ⟨_, old, hold, _⟩ := hslot rfl
    exact ⟨_, setSlot_last ho1 hold _, appendMetric_holds happ hfilled⟩
  | withBlob value size b happ hv hback hfilled =>
    obtain ⟨ho1, hslot⟩ := appendMetric_owned ho happ
    obtain ⟨_, old, hold, _⟩ := hslot rfl
    exact ⟨_, setSlot_last ho1 hold _, appendMetric_holds happ hfilled⟩

theorem BuilderCall.isAdd_of_metric {c : BuilderCall} {r : ReportMetric}
    (h : c.metric = some r) : c.isAdd = true := by
  cases c with
  | setTimestamp ns => cases h
  | deinit => cases h
  | _ => rfl

theorem builderResult_holds {t t' : Telemetry} {h h' : Heap} {c : BuilderCall} {r : ReportMetric}
    (ho : Owned t h) (hc : c.metric = some r) (hr : builderResult t h c = (.ok (), t', h')) :
    ∃ m, t'.slots[t'.metricCount - 1]? = some m ∧ Holds h' r m := by
  cases c with
  | setTimestamp ns => cases hc
  | addInt64 v inIsr key unit =>
    cases hc
    exact AddOutcome.holds ho (addScalar_outcome rfl hr)
  | addDouble bits inIsr key unit =>
    cases hc
    exact AddOutcome.holds ho (addScalar_outcome rfl hr)
  | addBool v inIsr key unit =>
    cases hc
    exact AddOutcome.holds ho (addScalar_outcome rfl hr)
  | addString v inIsr key unit =>
    cases v with
    | none => cases hc
    | some b =>
      cases hc
      change telemetryAddStringN (.buffer b.text) inIsr t h key unit = _ at hr
      exact AddOutcome.holds ho (telemetryAddStringN_outcome hr)
  | addStringN v inIsr key unit =>
    cases hc
    exact AddOutcome.holds ho (telemetryAddStringN_outcome hr)
  | addBytes v inIsr key unit =>
    cases hc
    exact AddOutcome.holds ho (telemetryAddBytes_outcome hr)
  | deinit => cases hc

theorem Reported.holds {rs : List ReportMetric} {t : Telemetry} {h : Heap}
    (hr : Reported rs t h) :
    Owned t h ∧ List.Forall₂ (Holds h) rs (t.slots.take t.metricCount) := by
  induction hr with
  | init h => exact ⟨.init h, .nil⟩
  | @add ms t t' h h' m c _ hm hcall ih =>
    obtain ⟨ho, hall⟩ := ih
    have heff := builderResult_effect ho (BuilderCall.isAdd_of_metric hm) hcall
    have ho' := callBuilder_owned c ho
    rw [callBuilder_eq, hcall] at ho'
    have hcount : t'.metricCount = t.metricCount + 1 := heff.count
    obtain ⟨slot, hslot, hholds⟩ := builderResult_holds ho hm hcall
    have hold := holds_frame (fun p hp => heff.gains.extends_heap.block (ho.live p hp)) hall
    rw [hcount, Nat.add_sub_cancel] at hslot
    have htake : t'.slots.take t'.metricCount = t.slots.take t.metricCount ++ [slot] := by
      rw [hcount, List.take_add_one, hslot, heff.same]
      rfl
    rw [htake]
    exact ⟨ho', List.rel_append hold (.cons hholds .nil)⟩
  | @refused ms t t' h h' e c _ hadd hcall ih =>
    obtain ⟨ho, hall⟩ := ih
    have heff := builderResult_effect ho hadd hcall
    have ho' := callBuilder_owned c ho
    rw [callBuilder_eq, hcall] at ho'
    have hcount : t'.metricCount = t.metricCount := heff.count
    have hold := holds_frame (fun p hp => heff.gains.extends_heap.block (ho.live p hp)) hall
    rw [hcount, heff.same]
    exact ⟨ho', hold⟩
  | setTimestamp ns _ ih =>
    obtain ⟨ho, hall⟩ := ih
    exact ⟨callBuilder_owned (.setTimestamp ns) ho, hall⟩
  | environment _ hkeeps ih =>
    obtain ⟨ho, hall⟩ := ih
    exact ⟨ho.frame hkeeps.block, holds_frame hkeeps.block hall⟩

theorem copyTelemetry_ownCopy {t c : Telemetry} {h k : Heap} {item : QueueItem} (ho : Owned t h)
    (hcopy : copyTelemetryToQueueItem (some t) (some item) h =
      (.ok, some ⟨none, .telemetry c⟩, k)) : OwnCopy t h c k := by
  simp only [copyTelemetryToQueueItem] at hcopy
  split at hcopy
  · cases hcopy
  · next b l hm =>
    have hcases : b = t ∧ l = h ∧ t.heapMetrics = none ∨ ∃ a, t.heapMetrics = some a ∧
        b = { t with heapMetrics := some { a with block := h.next } } ∧ l = h.push [] := by
      unfold copyHeapMetrics at hm
      cases ha : t.heapMetrics with
      | none =>
        rw [ha] at hm
        cases hm
        exact .inl ⟨rfl, rfl, rfl⟩
      | some a =>
        by_cases hg : h.grant h.asked = true
        · simp only [ha, BlockHeap.alloc_granted _ hg] at hm
          cases hm
          exact .inr ⟨a, rfl, rfl, rfl⟩
        · simp [ha, BlockHeap.alloc_refused _ (by simpa using hg)] at hm
    have hext : h.Extends l := by
      obtain ⟨-, rfl, -⟩ | ⟨a, -, -, rfl⟩ := hcases
      · exact .refl l
      · exact h.extends_push []
    have hown := copyAllSlots_ownCopy ho hext hcases
    generalize copyAllSlots b l = r at hcopy hown
    obtain ⟨failed, c', k'⟩ := r
    cases failed with
    | true => cases hcopy
    | false =>
      cases hcopy
      exact hown rfl

/-- The item holds the metrics that were added, as long as its blocks are left alone. -/
theorem Reported.copy_holds {rs : List ReportMetric} {t c : Telemetry} {h k l : Heap}
    {item : QueueItem} (hr : Reported rs t h)
    (hcopy : copyTelemetryToQueueItem (some t) (some item) h =
      (.ok, some ⟨none, .telemetry c⟩, k))
    (hkeeps : k.Keeps l c.blocks) :
    c.metricCount ≤ AETUS_MAX_METRICS ∧
      List.Forall₂ (Holds l) rs (c.slots.take c.metricCount) := by
  obtain ⟨ho, hall⟩ := hr.holds
  have hown := copyTelemetry_ownCopy ho hcopy
  have hcount : c.metricCount = t.metricCount := hown.scalars.2.1
  have hsame := List.forall₂_take t.metricCount hown.same
  rw [← hcount] at hall hsame
  refine ⟨hcount ▸ ho.count_le, holds_frame hkeeps.block ?_⟩
  exact forall₂_trans (fun _ _ _ hr hs => hr.same hs) hall hsame

/-- What the payload says of a value: a text ends at its first zero byte, and for bytes of
length zero no payload is made. -/
def ReportValue.sent : ReportValue → Option ReportValue
  | .string text => some (.string (text.takeWhile (· ≠ 0)))
  | .bytes content => if content = [] then none else some (.bytes content)
  | v => some v

def ReportMetric.sent (m : ReportMetric) : Option ReportMetric :=
  match m.value with
  | none => some m
  | some v => v.sent.map fun v => { m with value := some v }

theorem ReportValue.InSlot.fields {h : Heap} {m : Metric} {v : ReportValue} (hv : v.InSlot h m) :
    ((fillMetric m).value.part h).fields = v.sent.map fun v => [v.field] := by
  cases v with
  | int v =>
    have hm : m.value = .int64 v := hv
    simp [fillMetric, hm, EventMetricValue.part, Part.fields, sent, field]
  | double bits =>
    have hm : m.value = .double bits := hv
    simp [fillMetric, hm, EventMetricValue.part, Part.fields, sent, field]
  | bool v =>
    have hm : m.value = .bool v := hv
    simp [fillMetric, hm, EventMetricValue.part, Part.fields, sent, field]
  | string text =>
    obtain ⟨p, hm, hblock⟩ := hv
    have htext : (CString.ofBytes (h.bytesAt p)).bytes = text.takeWhile (· ≠ 0) := by
      rw [Heap.bytesAt, hblock, Option.getD_some, CString.ofBytes_terminated]
      rfl
    simp [fillMetric, hm, EventMetricValue.part, encodeStringCallback, htext, Part.fields, sent,
      field]
  | bytes content =>
    obtain ⟨rfl, hm⟩ | ⟨hne, p, hm, hblock, hlen⟩ := hv
    · simp [fillMetric, hm, EventMetricValue.part, encodeBytesCallback, Part.fields, sent]
    · simp [fillMetric, hm, EventMetricValue.part, encodeBytesCallback, Heap.bytesAt, hblock, hlen,
        Part.fields, sent, hne, field]

theorem Holds.fields {h : Heap} {r : ReportMetric} {m : Metric} (hr : Holds h r m) :
    partFields ((fillMetric m).parts h) = r.sent.map ReportMetric.fields := by
  obtain ⟨key, unit, value⟩ := r
  obtain ⟨rfl, rfl, v, hv, hslot⟩ := hr
  obtain rfl : value = some v := hv
  simp only [EventMetric.parts, partFields, hslot.fields, ReportMetric.sent]
  cases v.sent <;> simp [Part.fields, ReportMetric.fields]

theorem holds_fields {h : Heap} {rs : List ReportMetric} {ms : List Metric}
    (hall : List.Forall₂ (Holds h) rs ms) :
    partFields ((ms.map fillMetric).map fun m => .submessage 1 (m.parts h)) =
      (rs.mapM ReportMetric.sent).map fun sent => sent.map fun m => message 1 m.fields := by
  induction hall with
  | nil => rfl
  | @cons r m rs ms hr _ ih =>
    simp only [List.map_cons, partFields, Part.fields, hr.fields, ih, List.mapM_cons]
    cases r.sent with
    | none => rfl
    | some first => cases rs.mapM ReportMetric.sent <;> simp

def reportBytes (event : IngestEvent) (metrics : List ReportMetric) : List UInt8 :=
  write (event.headerFields ++ [metricSetField metrics])

theorem telemetryPayload_eq {h : Heap} {rs : List ReportMetric} {c : Telemetry}
    (hcount : c.metricCount ≤ AETUS_MAX_METRICS)
    (hall : List.Forall₂ (Holds h) rs (c.slots.take c.metricCount)) (rt : Runtime CString)
    (uptimeMs : UInt64) (bufferSize : Nat) :
    telemetryPayload h rt uptimeMs c bufferSize =
      (rs.mapM ReportMetric.sent).bind fun sent =>
        let bytes := reportBytes (encodeTelemetry rt uptimeMs c) sent
        if bytes.length ≤ bufferSize then some bytes else none := by
  have hmin : min c.metricCount AETUS_MAX_METRICS = c.metricCount := Nat.min_eq_left hcount
  have hparts : metricSetParts h ((c.slots.take c.metricCount).map fillMetric) =
      ((c.slots.take c.metricCount).map fillMetric).map fun m => .submessage 1 (m.parts h) := by
    refine if_neg ?_
    rw [List.length_map, List.length_take]
    omega
  have hbody : ((encodeTelemetry rt uptimeMs c).body.part h).fields =
      (rs.mapM ReportMetric.sent).map fun sent => [metricSetField sent] := by
    simp only [encodeTelemetry, fillEventHeader, hmin, EventBody.part, Part.fields, partFields,
      hparts, holds_fields hall]
    cases rs.mapM ReportMetric.sent <;> simp [metricSetField]
  rw [telemetryPayload, pbEncodeEvent, pbEncode_fromBuffer, partFields_event, hbody]
  cases rs.mapM ReportMetric.sent <;> rfl

def ReportsExactly (payload : Option (List UInt8)) (metrics : List ReportMetric) : Prop :=
  ∃ bytes, payload = some bytes ∧ readMetrics bytes = some metrics

instance ReportsExactly.decidable (payload : Option (List UInt8)) (metrics : List ReportMetric) :
    Decidable (ReportsExactly payload metrics) :=
  decidable_of_iff (payload.bind readMetrics = some metrics) Option.bind_eq_some_iff

/-- Values that the callbacks write as they are. -/
def ReportMetric.Sendable (m : ReportMetric) : Prop :=
  match m.value with
  | some (.string text) => 0 ∉ text
  | some (.bytes content) => content ≠ []
  | _ => True

instance ReportMetric.decidableSendable (m : ReportMetric) : Decidable m.Sendable := by
  unfold ReportMetric.Sendable
  split <;> infer_instance

theorem ReportMetric.sent_eq_self_iff (m : ReportMetric) : m.sent = some m ↔ m.Sendable := by
  obtain ⟨key, unit, value⟩ := m
  cases value with
  | none => simp [sent, Sendable]
  | some v =>
    cases v with
    | string text =>
      have htext : text.takeWhile (· ≠ 0) = text ↔ 0 ∉ text := by
        simp only [List.takeWhile_eq_self_iff, decide_eq_true_eq]
        exact ⟨fun hall hmem => hall 0 hmem rfl, fun hnot x hx hzero => hnot (hzero ▸ hx)⟩
      simpa [sent, ReportValue.sent, Sendable] using htext
    | bytes content =>
      by_cases hnil : content = [] <;> simp [sent, ReportValue.sent, Sendable, hnil]
    | _ => simp [sent, ReportValue.sent, Sendable]

/-- A telemetry structure is reported as it was built unless it has bytes of length zero, which
drop the event, or a text with a zero byte, which is cut. -/
theorem telemetryPayload_exact_iff (rt : Runtime CString) (uptimeMs : UInt64)
    {metrics : List ReportMetric} {t c : Telemetry} {h k l : Heap} {item : QueueItem}
    {bufferSize : Nat} (hr : Reported metrics t h)
    (hcopy : copyTelemetryToQueueItem (some t) (some item) h =
      (.ok, some ⟨none, .telemetry c⟩, k))
    (hkeeps : k.Keeps l c.blocks)
    (hfits : (reportBytes (encodeTelemetry rt uptimeMs c) metrics).length ≤ bufferSize) :
    ReportsExactly (telemetryPayload l rt uptimeMs c bufferSize) metrics ↔
      ∀ m ∈ metrics, m.Sendable := by
  obtain ⟨hcount, hall⟩ := hr.copy_holds hcopy hkeeps
  rw [telemetryPayload_eq hcount hall]
  have hsent : metrics.mapM ReportMetric.sent = some metrics ↔ ∀ m ∈ metrics, m.Sendable :=
    mapM_eq_self_iff.trans (forall₂_congr fun m _ => m.sent_eq_self_iff)
  rw [← hsent]
  constructor
  · intro ⟨bytes, hbytes, hread⟩
    obtain ⟨sent, hmapM, hbytes⟩ := Option.bind_eq_some_iff.mp hbytes
    obtain ⟨-, hbytes⟩ := Option.ite_none_right_eq_some.mp hbytes
    rw [← Option.some.inj hbytes, reportBytes, readMetrics_write] at hread
    rw [hmapM, hread]
  · intro hmapM
    refine ⟨reportBytes (encodeTelemetry rt uptimeMs c) metrics, ?_, readMetrics_write _ _⟩
    rw [hmapM, Option.bind_some, if_pos hfits]

def allAdded : BuilderState → List BuilderCall → Bool
  | _, [] => true
  | s, c :: calls =>
    c.isAdd && (builderResult s.1 s.2 c).1.isOk && allAdded (callBuilder s.1 s.2 c) calls

theorem builderResult_metric {t t' : Telemetry} {h h' : Heap} {c : BuilderCall}
    (hadd : c.isAdd = true) (hr : builderResult t h c = (.ok (), t', h')) :
    ∃ m, c.metric = some m := by
  cases c with
  | setTimestamp ns => cases hadd
  | deinit => cases hadd
  | addString v inIsr key unit =>
    cases v with
    | none => cases hr
    | some b => exact ⟨_, rfl⟩
  | _ => exact ⟨_, rfl⟩

theorem Reported.calls {calls : List BuilderCall} {s : BuilderState} {ms : List ReportMetric}
    (hr : Reported ms s.1 s.2) (hall : allAdded s calls = true) :
    Reported (ms ++ calls.filterMap BuilderCall.metric)
      (calls.foldl (fun s c => callBuilder s.1 s.2 c) s).1
      (calls.foldl (fun s c => callBuilder s.1 s.2 c) s).2 := by
  induction calls generalizing s ms with
  | nil => simpa using hr
  | cons c calls ih =>
    simp only [allAdded, Bool.and_eq_true] at hall
    obtain ⟨⟨hadd, hok⟩, hrest⟩ := hall
    have hcall : builderResult s.1 s.2 c = (.ok (), callBuilder s.1 s.2 c) := by
      rw [callBuilder_eq]
      cases hres : (builderResult s.1 s.2 c).1 with
      | error e => simp [hres, Except.isOk, Except.toBool] at hok
      | ok => exact Prod.ext hres rfl
    obtain ⟨m, hm⟩ := builderResult_metric hadd hcall
    have hnext := ih (.add c hr hm hcall) hrest
    rw [List.append_assoc] at hnext
    rw [List.filterMap_cons_some hm]
    exact hnext

def reportOf (calls : List BuilderCall) : BuilderState :=
  calls.foldl (fun s c => callBuilder s.1 s.2 c) (builderStart fun _ => true)

theorem reported_reportOf {calls : List BuilderCall}
    (hall : allAdded (builderStart fun _ => true) calls = true) :
    Reported (calls.filterMap BuilderCall.metric) (reportOf calls).1 (reportOf calls).2 :=
  Reported.calls (.init _) hall

def queuedCopy (s : BuilderState) : BuilderState :=
  match copyTelemetryToQueueItem (some s.1) (some ⟨none, .telemetry .zero⟩) s.2 with
  | (.ok, some ⟨_, .telemetry c⟩, k) => (c, k)
  | _ => s

def labRuntime : Runtime CString := (resetRuntime 7 (labConfig .bearer)).text

def addCount : BuilderCall := .addInt64 (-5) false (some (.lit "count")) none

def addRaw (bytes : CBuffer) : BuilderCall :=
  .addBytes (.buffer bytes) false (some (.lit "raw")) (some (.lit "x"))

def addState (text : CBuffer) : BuilderCall :=
  .addStringN (.buffer text) false (some (.lit "state")) none

def sensorReport : List BuilderCall :=
  [addCount, addRaw ⟨[0, 255], by decide⟩, addState ⟨[111, 107], by decide⟩]

theorem telemetryPayload_exact_sensorReport :
    ReportsExactly (telemetryPayload (queuedCopy (reportOf sensorReport)).2 labRuntime 1000
      (queuedCopy (reportOf sensorReport)).1 AETUS_ENCODE_BUFFER_BYTES)
      (sensorReport.filterMap BuilderCall.metric) := by
  have hall : allAdded (builderStart fun _ => true) sensorReport = true := by decide +kernel
  have hcopy : copyTelemetryToQueueItem (some (reportOf sensorReport).1)
      (some ⟨none, .telemetry .zero⟩) (reportOf sensorReport).2 =
        (.ok, some ⟨none, .telemetry (queuedCopy (reportOf sensorReport)).1⟩,
          (queuedCopy (reportOf sensorReport)).2) := rfl
  exact (telemetryPayload_exact_iff labRuntime 1000 (reported_reportOf hall) hcopy
    ⟨Nat.le_refl _, fun _ _ => rfl⟩ (by decide +kernel)).mpr (by decide +kernel)

/-- The calls succeed, their copy is queued and its message would fit, but the reader does not
get what was added. -/
structure Misreported (calls : List BuilderCall) : Prop where
  added : Reported (calls.filterMap BuilderCall.metric) (reportOf calls).1 (reportOf calls).2
  copied : copyTelemetryToQueueItem (some (reportOf calls).1) (some ⟨none, .telemetry .zero⟩)
    (reportOf calls).2 = (.ok, some ⟨none, .telemetry (queuedCopy (reportOf calls)).1⟩,
      (queuedCopy (reportOf calls)).2)
  fits : (reportBytes (encodeTelemetry labRuntime 1000 (queuedCopy (reportOf calls)).1)
    (calls.filterMap BuilderCall.metric)).length ≤ AETUS_ENCODE_BUFFER_BYTES
  differs : ¬ ReportsExactly (telemetryPayload (queuedCopy (reportOf calls)).2 labRuntime 1000
    (queuedCopy (reportOf calls)).1 AETUS_ENCODE_BUFFER_BYTES) (calls.filterMap BuilderCall.metric)

/-- No payload is made of a count and bytes of length zero, and a text ends at its zero byte. -/
theorem telemetryPayload_loses :
    Misreported [addCount, addRaw ⟨[], by decide⟩] ∧
      Misreported [addState ⟨[111, 0, 107], by decide⟩] :=
  ⟨⟨reported_reportOf (by decide +kernel), rfl, by decide +kernel, by decide +kernel⟩,
    ⟨reported_reportOf (by decide +kernel), rfl, by decide +kernel, by decide +kernel⟩⟩

end Aetus.Firmware
