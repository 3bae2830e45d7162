import Aetus.Firmware.Telemetry

/-!
Who owns which heap block while telemetry is built: `Owned` holds after every
sequence of builder calls, whichever allocations are refused.
-/

set_option autoImplicit false

namespace Aetus.Firmware
open Aetus.Base

/-- The block behind a blob is as long as the metric says, with a terminator for a string. -/
def Metric.Backed (m : Metric) (h : Heap) : Prop :=
  match m.value with
  | .string (some p) => ∃ b, h.block p = some b ∧ b.length = m.blobSize.toNat + 1 ∧
      m.blobSize.toNat + 1 < 2 ^ 32
  | .bytes (some p) => ∃ b, h.block p = some b ∧ b.length = m.blobSize.toNat ∧ 0 < m.blobSize
  | _ => True

/-- The invariant of the builder: each block belongs to one slot, and unused slots own none. -/
structure Owned (t : Telemetry) (h : Heap) : Prop where
  inline_length : t.inlineMetrics.length = AETUS_TELEMETRY_INLINE_METRICS
  heap_length : ∀ a, t.heapMetrics = some a → a.slots.length = heapSlots
  count_le : t.metricCount ≤ AETUS_MAX_METRICS
  heap_of_count : AETUS_TELEMETRY_INLINE_METRICS < t.metricCount → t.heapMetrics ≠ none
  backed : ∀ m ∈ t.slots, m.Backed h
  unused : ∀ m ∈ t.slots.drop t.metricCount, m.blob = none
  nodup : t.blocks.Nodup
  live : ∀ p ∈ t.blocks, h.Live p

theorem Metric.Backed.frame {m : Metric} {h k : Heap} (hm : m.Backed h)
    (hk : ∀ p, m.blob = some p → k.block p = h.block p) : m.Backed k := by
  unfold Metric.Backed at *
  unfold Metric.blob at hk
  split at hm
  · next p hv =>
    rw [hv] at hk
    rw [hk p rfl]
    exact hm
  · next p hv =>
    rw [hv] at hk
    rw [hk p rfl]
    exact hm
  · trivial

theorem Metric.backed_of_blob_none {m : Metric} (h : Heap) (hm : m.blob = none) : m.Backed h := by
  unfold Metric.blob at hm
  unfold Metric.Backed
  split at hm <;> simp_all

theorem blobs_cons (m : Metric) (ms : List Metric) :
    blobs (m :: ms) = m.blob.toList ++ blobs ms := by
  cases hm : m.blob <;> simp [blobs, hm]

theorem blobs_append (xs ys : List Metric) : blobs (xs ++ ys) = blobs xs ++ blobs ys :=
  List.filterMap_append

theorem blobs_eq_nil {ms : List Metric} (h : ∀ m ∈ ms, m.blob = none) : blobs ms = [] := by
  simpa [blobs, List.filterMap_eq_nil_iff] using h

theorem mem_blobs {ms : List Metric} {p : Nat} : p ∈ blobs ms ↔ ∃ m ∈ ms, m.blob = some p := by
  simp [blobs]

theorem blobs_take {ms : List Metric} {n : Nat} (h : ∀ m ∈ ms.drop n, m.blob = none) :
    blobs (ms.take n) = blobs ms := by
  have hsplit : blobs (ms.take n ++ ms.drop n) = blobs ms := by rw [List.take_append_drop]
  rw [blobs_append, blobs_eq_nil h, List.append_nil] at hsplit
  exact hsplit

theorem blobs_set {ms : List Metric} {i : Nat} {old m : Metric} (hi : ms[i]? = some old)
    (hold : old.blob = none) : (blobs (ms.set i m)).Perm (m.blob.toList ++ blobs ms) := by
  induction ms generalizing i with
  | nil => simp at hi
  | cons x xs ih =>
    cases i with
    | zero =>
      obtain rfl : x = old := by simpa using hi
      simp [blobs_cons, hold]
    | succ i =>
      have hrec := ih (i := i) (by simpa using hi)
      simp only [List.set_cons_succ, blobs_cons]
      refine (hrec.append_left _).trans ?_
      rw [← List.append_assoc, ← List.append_assoc]
      exact (List.perm_append_comm).append_right _

theorem freeBlobs_eq (ms : List Metric) (h : Heap) : freeBlobs ms h = h.freeAll (blobs ms) := by
  induction ms generalizing h with
  | nil => rfl
  | cons m ms ih =>
    cases hm : m.blob with
    | none => simp [freeBlobs, hm, blobs_cons, ih]
    | some p => simp [freeBlobs, hm, blobs_cons, ih]

theorem Owned.init (h : Heap) : Owned telemetryInit h where
  inline_length := rfl
  heap_length a ha := by simp [telemetryInit, Telemetry.zero] at ha
  count_le := by decide
  heap_of_count hc := by simp [telemetryInit, Telemetry.zero] at hc
  backed m hm := Metric.backed_of_blob_none h (by
    simp [Telemetry.slots, telemetryInit, Telemetry.zero, Telemetry.heapArray] at hm
    simp [hm.2, Metric.zero, Metric.blob])
  unused m hm := by
    simp [Telemetry.slots, telemetryInit, Telemetry.zero, Telemetry.heapArray] at hm
    simp [hm.2, Metric.zero, Metric.blob]
  nodup := by decide
  live p hp := by
    have hnil : telemetryInit.blocks = [] := by decide
    simp [hnil] at hp

theorem Owned.frame {t : Telemetry} {h k : Heap} (ho : Owned t h)
    (hk : ∀ p ∈ t.blocks, k.block p = h.block p) : Owned t k := by
  refine { ho with backed := fun m hm => ?_, live := fun p hp => ?_ }
  · refine (ho.backed m hm).frame fun p hp => hk p ?_
    exact List.mem_append_right _ (mem_blobs.mpr ⟨m, hm, hp⟩)
  · rw [BlockHeap.Live, hk p hp]
    exact ho.live p hp

theorem Owned.extend {t : Telemetry} {h k : Heap} (ho : Owned t h) (he : h.Extends k) :
    Owned t k := ho.frame fun p hp => he.block (ho.live p hp)

theorem setSlot_slots {t : Telemetry} (i : Nat) (m : Metric)
    (hlen : t.inlineMetrics.length = AETUS_TELEMETRY_INLINE_METRICS) :
    (t.setSlot i m).slots = t.slots.set i m := by
  unfold Telemetry.setSlot
  split
  · next hi => simp [Telemetry.slots, Telemetry.heapArray, hlen, hi]
  · next hi =>
    cases ha : t.heapMetrics with
    | none =>
      have hle : t.inlineMetrics.length ≤ i := by omega
      simp [Telemetry.slots, Telemetry.heapArray, ha, List.set_eq_of_length_le hle]
    | some a => simp [Telemetry.slots, Telemetry.heapArray, ha, List.set_append, hlen, hi]

@[simp] theorem setSlot_metricCount (t : Telemetry) (i : Nat) (m : Metric) :
    (t.setSlot i m).metricCount = t.metricCount := by
  unfold Telemetry.setSlot; split <;> rfl

theorem setSlot_heapBlocks (t : Telemetry) (i : Nat) (m : Metric) :
    (t.setSlot i m).heapMetrics.toList.map MetricArray.block =
      t.heapMetrics.toList.map MetricArray.block := by
  unfold Telemetry.setSlot
  split
  · rfl
  · cases t.heapMetrics <;> rfl

theorem setSlot_heap_none (t : Telemetry) (i : Nat) (m : Metric) :
    (t.setSlot i m).heapMetrics = none ↔ t.heapMetrics = none := by
  unfold Telemetry.setSlot
  split
  · rfl
  · simp

theorem setSlot_blocks {t : Telemetry} {i : Nat} {old m : Metric}
    (hlen : t.inlineMetrics.length = AETUS_TELEMETRY_INLINE_METRICS)
    (hi : t.slots[i]? = some old) (hold : old.blob = none) :
    (t.setSlot i m).blocks.Perm (m.blob.toList ++ t.blocks) := by
  rw [Telemetry.blocks, setSlot_heapBlocks, setSlot_slots i m hlen, Telemetry.blocks]
  refine ((blobs_set hi hold).append_left _).trans ?_
  rw [← List.append_assoc, ← List.append_assoc]
  exact List.perm_append_comm.append_right _

theorem Owned.setSlot {t : Telemetry} {h : Heap} (ho : Owned t h) {i : Nat} {old m : Metric}
    (hi : t.slots[i]? = some old) (hold : old.blob = none) (hm : m.Backed h)
    (hnew : ∀ p, m.blob = some p → p ∉ t.blocks ∧ h.Live p ∧ i < t.metricCount) :
    Owned (t.setSlot i m) h := by
  have hslots := setSlot_slots i m ho.inline_length
  have hblocks := setSlot_blocks (m := m) ho.inline_length hi hold
  refine ⟨?_, ?_, by simpa using ho.count_le, ?_, ?_, ?_, ?_, ?_⟩
  · unfold Telemetry.setSlot
    split <;> simp [ho.inline_length]
  · intro a ha
    unfold Telemetry.setSlot at ha
    split at ha
    · exact ho.heap_length a ha
    · obtain ⟨b, hb, rfl⟩ := Option.map_eq_some_iff.mp ha
      simpa using ho.heap_length b hb
  · rw [setSlot_metricCount, ne_eq, setSlot_heap_none]
    exact ho.heap_of_count
  · intro x hx
    rw [hslots] at hx
    rcases List.mem_or_eq_of_mem_set hx with hx | rfl
    · exact ho.backed x hx
    · exact hm
  · intro x hx
    rw [hslots, setSlot_metricCount] at hx
    by_cases hlt : i < t.metricCount
    · rw [List.drop_set_of_lt hlt] at hx
      exact ho.unused x hx
    · rw [List.drop_set, if_neg hlt] at hx
      rcases List.mem_or_eq_of_mem_set hx with hx | rfl
      · exact ho.unused x hx
      · cases hb : x.blob with
        | none => rfl
        | some p => exact absurd (hnew p hb).2.2 hlt
  · refine hblocks.nodup_iff.mpr ?_
    cases hb : m.blob with
    | none => simpa using ho.nodup
    | some p => simpa using ⟨(hnew p hb).1, ho.nodup⟩
  · intro p hp
    rcases List.mem_append.mp (hblocks.mem_iff.mp hp) with hp | hp
    · exact (hnew p (by simpa using hp)).2.1
    · exact ho.live p hp

theorem Owned.setCount {t : Telemetry} {h : Heap} (ho : Owned t h) {n : Nat}
    (hn : n ≤ AETUS_MAX_METRICS)
    (hheap : AETUS_TELEMETRY_INLINE_METRICS < n → t.heapMetrics ≠ none)
    (hunused : ∀ m ∈ t.slots.drop n, m.blob = none) :
    Owned { t with metricCount := n } h :=
  ⟨ho.inline_length, ho.heap_length, hn, hheap, ho.backed, hunused, ho.nodup, ho.live⟩

theorem Owned.slots_length {t : Telemetry} {h : Heap} (ho : Owned t h)
    (hheap : t.heapMetrics ≠ none) : t.slots.length = AETUS_MAX_METRICS := by
  obtain ⟨a, ha⟩ := Option.ne_none_iff_exists'.mp hheap
  have hlen := ho.heap_length a ha
  simp only [Telemetry.slots, Telemetry.heapArray, ha, List.length_append, ho.inline_length, hlen]
  rfl

theorem Owned.next_slot {t : Telemetry} {h : Heap} (ho : Owned t h)
    (hcount : t.metricCount < AETUS_MAX_METRICS)
    (hheap : AETUS_TELEMETRY_INLINE_METRICS ≤ t.metricCount → t.heapMetrics ≠ none) :
    ∃ old, t.slots[t.metricCount]? = some old ∧ old.blob = none := by
  have hlt : t.metricCount < t.slots.length := by
    by_cases hin : t.metricCount < AETUS_TELEMETRY_INLINE_METRICS
    · have hlen := ho.inline_length
      simp only [Telemetry.slots, List.length_append]
      omega
    · rw [ho.slots_length (hheap (by omega))]
      exact hcount
  refine ⟨t.slots[t.metricCount], List.getElem?_eq_getElem hlt, ho.unused _ ?_⟩
  rw [List.drop_eq_getElem_cons hlt]
  exact List.mem_cons_self

theorem reserveHeapMetrics_owned {inIsr : Bool} {t t' : Telemetry} {h h' : Heap}
    {r : Except Failure Unit} (ho : Owned t h)
    (hr : reserveHeapMetrics inIsr t h = (r, t', h')) :
    Owned t' h' ∧ t'.metricCount = t.metricCount ∧
      (r = .ok () → AETUS_TELEMETRY_INLINE_METRICS ≤ t'.metricCount →
        t'.heapMetrics ≠ none) := by
  unfold reserveHeapMetrics at hr
  split at hr
  · next hneed =>
    obtain ⟨hcount, hnone⟩ := hneed
    split at hr
    · cases hr
      exact ⟨ho, rfl, by simp⟩
    · by_cases hg : h.grant h.asked = true
      · rw [BlockHeap.alloc_granted _ hg] at hr
        cases hr
        have hle : t.metricCount ≤ AETUS_TELEMETRY_INLINE_METRICS := by
          by_contra hgt
          exact ho.heap_of_count (by omega) hnone
        have hext := ho.extend (h.extends_push [])
        have hslots : t.slots = t.inlineMetrics := by
          simp [Telemetry.slots, Telemetry.heapArray, hnone]
        refine ⟨⟨ho.inline_length, ?_, ho.count_le, by simp, ?_, ?_, ?_, ?_⟩, rfl, by simp⟩
        · intro a ha
          cases ha
          simp
        · intro m hm
          simp only [Telemetry.slots, Telemetry.heapArray, List.mem_append] at hm
          rcases hm with hm | hm
          · exact hext.backed m (List.mem_append_left _ hm)
          · obtain rfl := List.eq_of_mem_replicate hm
            trivial
        · intro m hm
          simp only [Telemetry.slots, Telemetry.heapArray, List.drop_append] at hm
          rcases List.mem_append.mp hm with hm | hm
          · exact ho.unused m (by rw [hslots]; exact hm)
          · obtain rfl := List.eq_of_mem_replicate (List.mem_of_mem_drop hm)
            rfl
        · have hzero : blobs (List.replicate heapSlots Metric.zero) = [] := by decide
          have hnew : h.next ∉ t.blocks := fun hmem => by
            have hlt := (ho.live _ hmem).lt
            omega
          have hnd := ho.nodup
          simp only [Telemetry.blocks, hnone, hslots] at hnd hnew
          simpa [Telemetry.blocks, Telemetry.slots, Telemetry.heapArray, blobs_append, hzero]
            using ⟨by simpa using hnew, by simpa using hnd⟩
        · intro p hp
          have hzero : blobs (List.replicate heapSlots Metric.zero) = [] := by decide
          simp only [Telemetry.blocks, Telemetry.slots, Telemetry.heapArray, blobs_append, hzero,
            List.append_nil] at hp
          rcases List.mem_append.mp hp with hp | hp
          · obtain rfl : p = h.next := by simpa using hp
            simp [BlockHeap.Live]
          · refine hext.live p (List.mem_append_right _ ?_)
            rw [hslots]
            exact hp
      · rw [BlockHeap.alloc_refused _ (by simpa using hg)] at hr
        cases hr
        exact ⟨ho.extend h.extends_refuse, rfl, by simp⟩
  · next hneed =>
    cases hr
    exact ⟨ho, rfl, fun _ hle hnone => hneed ⟨hle, hnone⟩⟩

theorem blankMetric_blob (key unit : Option CString) : (blankMetric key unit).blob = none := rfl

/-- What `append_metric` leaves: on success the last used slot is there and owns nothing. -/
theorem appendMetric_owned {inIsr : Bool} {t t' : Telemetry} {h h' : Heap}
    {r : Except Failure Unit} {key unit : Option CString} (ho : Owned t h)
    (hr : appendMetric inIsr t h key unit = (r, t', h')) :
    Owned t' h' ∧ (r = .ok () → 0 < t'.metricCount ∧
      ∃ old, t'.slots[t'.metricCount - 1]? = some old ∧ old.blob = none) := by
  unfold appendMetric at hr
  split at hr
  · cases hr
    exact ⟨ho, by simp⟩
  · next hcheck =>
    obtain ⟨-, -, -, hlt⟩ := checkMetric_eq_ok.mp hcheck
    split at hr
    · next hres =>
      cases hr
      exact ⟨(reserveHeapMetrics_owned ho hres).1, by simp⟩
    · next t1 h1 hres =>
      obtain ⟨ho1, hcount, hheap⟩ := reserveHeapMetrics_owned ho hres
      obtain ⟨old, hold, hblob⟩ := ho1.next_slot (by omega) (hheap rfl)
      have hset := ho1.setSlot (m := blankMetric key unit) hold hblob
        (Metric.backed_of_blob_none _ (blankMetric_blob key unit))
        (by simp [blankMetric_blob])
      cases hr
      refine ⟨hset.setCount (by omega) ?_ ?_, fun _ => ⟨by simp, blankMetric key unit, ?_,
        blankMetric_blob key unit⟩⟩
      · intro hlt4
        rw [ne_eq, setSlot_heap_none]
        exact hheap rfl (by omega)
      · intro m hm
        refine hset.unused m ?_
        rw [setSlot_metricCount]
        exact List.drop_subset_drop_left _ (by omega) hm
      · have hlen := (List.getElem?_eq_some_iff.mp hold).1
        simpa [Telemetry.slots, Telemetry.heapArray] using
          (show (t1.setSlot t1.metricCount (blankMetric key unit)).slots[t1.metricCount]? = _ by
            rw [setSlot_slots _ _ ho1.inline_length, List.getElem?_set_self hlen])

theorem Owned.fill {t : Telemetry} {h : Heap} (ho : Owned t h) {old m : Metric}
    (hpos : 0 < t.metricCount) (hold : t.slots[t.metricCount - 1]? = some old)
    (hblob : old.blob = none) (hm : m.Backed h)
    (hnew : ∀ p, m.blob = some p → p ∉ t.blocks ∧ h.Live p) :
    Owned (t.setSlot (t.metricCount - 1) m) h :=
  ho.setSlot hold hblob hm fun p hp => ⟨(hnew p hp).1, (hnew p hp).2, by omega⟩

theorem Owned.undo {t : Telemetry} {h : Heap} (ho : Owned t h) {old : Metric}
    (hpos : 0 < t.metricCount) (hold : t.slots[t.metricCount - 1]? = some old)
    (hblob : old.blob = none) : Owned (undoAppend t) h := by
  have hzero : Metric.zero.blob = none := rfl
  have hset := ho.fill (m := .zero) hpos hold hblob (Metric.backed_of_blob_none _ hzero)
    (by simp [hzero])
  have hcount := ho.count_le
  refine hset.setCount (by omega) ?_ ?_
  · intro hlt
    rw [ne_eq, setSlot_heap_none]
    exact ho.heap_of_count (by omega)
  · intro m hm
    have hlen := (List.getElem?_eq_some_iff.mp hold).1
    rw [setSlot_slots _ _ ho.inline_length,
      List.drop_eq_getElem_cons (by simpa using hlen)] at hm
    rcases List.mem_cons.mp hm with rfl | hm
    · simp [hzero]
    · refine hset.unused m ?_
      rw [setSlot_slots _ _ ho.inline_length, setSlot_metricCount]
      rwa [show t.metricCount - 1 + 1 = t.metricCount by omega] at hm

theorem Owned.push_fresh {t : Telemetry} {h : Heap} (ho : Owned t h) (b : List UInt8) :
    h.next ∉ t.blocks ∧ (h.push b).Live h.next := by
  refine ⟨fun hmem => ?_, by simp [BlockHeap.Live]⟩
  have hlt := (ho.live _ hmem).lt
  omega

theorem BlobArg.size_toNat {value : BlobArg} (hv : value.valid = true) :
    value.size.toNat = value.bytes.length ∧ value.size.toNat + 1 < 2 ^ 32 := by
  cases value with
  | null size =>
    obtain rfl : size = 0 := by simpa [BlobArg.valid] using hv
    simp [BlobArg.size, BlobArg.bytes]
  | buffer b =>
    have hfits := b.fits
    have hsize : (UInt32.ofNat b.bytes.length).toNat = b.bytes.length := by
      rw [UInt32.toNat_ofNat']
      exact Nat.mod_eq_of_lt (by omega)
    refine ⟨hsize, ?_⟩
    rw [BlobArg.size, hsize]
    exact hfits

/-- The ways an add call can go. On success the last slot takes a metric of which `filled` holds,
without a block or with the one just allocated. -/
inductive AddOutcome (filled : Heap → Metric → Prop) (inIsr : Bool) (t : Telemetry) (h : Heap)
    (key unit : Option CString) : Except Failure Unit → Telemetry → Heap → Prop where
  | rejected (e : Failure) : AddOutcome filled inIsr t h key unit (.error e) t h
  | notAppended {e : Failure} {t1 : Telemetry} {h1 : Heap} :
      appendMetric inIsr t h key unit = (.error e, t1, h1) →
      AddOutcome filled inIsr t h key unit (.error e) t1 h1
  | noBlob {t1 : Telemetry} {h1 : Heap} (e : Failure) :
      appendMetric inIsr t h key unit = (.ok (), t1, h1) →
      AddOutcome filled inIsr t h key unit (.error e) (undoAppend t1) h1.refuse
  | inPlace {t1 : Telemetry} {h1 : Heap} (value : MetricValue) (size : UInt32) :
      appendMetric inIsr t h key unit = (.ok (), t1, h1) →
      ({ blankMetric key unit with value := value, blobSize := size } : Metric).blob = none →
      filled h1 { blankMetric key unit with value := value, blobSize := size } →
      AddOutcome filled inIsr t h key unit (.ok ()) (t1.setSlot (t1.metricCount - 1)
        { blankMetric key unit with value := value, blobSize := size }) h1
  | withBlob {t1 : Telemetry} {h1 : Heap} (value : MetricValue) (size : UInt32) (b : List UInt8) :
      appendMetric inIsr t h key unit = (.ok (), t1, h1) →
      ({ blankMetric key unit with value := value, blobSize := size } : Metric).blob =
        some h1.next →
      ({ blankMetric key unit with value := value, blobSize := size } : Metric).Backed
        (h1.push b) →
      filled (h1.push b) { blankMetric key unit with value := value, blobSize := size } →
      AddOutcome filled inIsr t h key unit (.ok ()) (t1.setSlot (t1.metricCount - 1)
        { blankMetric key unit with value := value, blobSize := size }) (h1.push b)

theorem addScalar_outcome {value : MetricValue} {inIsr : Bool} {t t' : Telemetry} {h h' : Heap}
    {r : Except Failure Unit} {key unit : Option CString}
    (hv : ({ blankMetric key unit with value := value } : Metric).blob = none)
    (hr : addScalar value inIsr t h key unit = (r, t', h')) :
    AddOutcome (fun _ m => m.value = value) inIsr t h key unit r t' h' := by
  unfold addScalar at hr
  split at hr
  · next happ =>
    cases hr
    exact .notAppended happ
  · next t1 h1 happ =>
    cases hr
    exact .inPlace value 0 happ hv rfl

theorem telemetryAddStringN_outcome {value : BlobArg} {inIsr : Bool} {t t' : Telemetry}
    {h h' : Heap} {r : Except Failure Unit} {key unit : Option CString}
    (hr : telemetryAddStringN value inIsr t h key unit = (r, t', h')) :
    AddOutcome (fun k m => ∃ p, m.value = .string (some p) ∧ k.block p = some (value.bytes ++ [0]))
      inIsr t h key unit r t' h' := by
  unfold telemetryAddStringN at hr
  split at hr
  · next hv =>
    obtain ⟨hsize, hfits⟩ := BlobArg.size_toNat hv
    split at hr
    · next happ =>
      cases hr
      exact .notAppended happ
    · next t1 h1 happ =>
      by_cases hg : h1.grant h1.asked = true
      · rw [BlockHeap.alloc_granted _ hg] at hr
        cases hr
        refine .withBlob (.string (some h1.next)) value.size _ happ rfl ?_ ⟨_, rfl, by simp⟩
        exact ⟨value.bytes ++ [0], by simp, by simp [hsize], hfits⟩
      · rw [BlockHeap.alloc_refused _ (by simpa using hg)] at hr
        cases hr
        exact .noBlob _ happ
  · cases hr
    exact .rejected _

theorem telemetryAddBytes_outcome {value : BlobArg} {inIsr : Bool} {t t' : Telemetry}
    {h h' : Heap} {r : Except Failure Unit} {key unit : Option CString}
    (hr : telemetryAddBytes value inIsr t h key unit = (r, t', h')) :
    AddOutcome (fun k m => (value.bytes = [] ∧ m.value = .bytes none) ∨
        (value.bytes ≠ [] ∧ ∃ p, m.value = .bytes (some p) ∧ k.block p = some value.bytes ∧
          m.blobSize.toNat = value.bytes.length))
      inIsr t h key unit r t' h' := by
  unfold telemetryAddBytes at hr
  split at hr
  · next hv =>
    obtain ⟨hsize, -⟩ := BlobArg.size_toNat hv
    split at hr
    · next happ =>
      cases hr
      exact .notAppended happ
    · next t1 h1 happ =>
      split at hr
      · next hpos =>
        have hne : value.bytes ≠ [] := fun hnil => by
          have hlt : 0 < value.size.toNat := hpos
          simp [hsize, hnil] at hlt
        by_cases hg : h1.grant h1.asked = true
        · rw [BlockHeap.alloc_granted _ hg] at hr
          cases hr
          refine .withBlob (.bytes (some h1.next)) value.size _ happ rfl ?_
            (.inr ⟨hne, _, rfl, by simp, hsize⟩)
          exact ⟨value.bytes, by simp, hsize.symm, hpos⟩
        · rw [BlockHeap.alloc_refused _ (by simpa using hg)] at hr
          cases hr
          exact .noBlob _ happ
      · next hzero =>
        have hnil : value.bytes = [] := by
          have hle : ¬ 0 < value.size.toNat := hzero
          exact List.length_eq_zero_iff.mp (by omega)
        cases hr
        exact .inPlace (.bytes none) value.size happ rfl (.inl ⟨hnil, rfl⟩)
  · cases hr
    exact .rejected _

theorem AddOutcome.owned {filled : Heap → Metric → Prop} {inIsr : Bool} {t t' : Telemetry}
    {h h' : Heap} {key unit : Option CString} {r : Except Failure Unit} (ho : Owned t h)
    (ha : AddOutcome filled inIsr t h key unit r t' h') : Owned t' h' := by
  cases ha with
  | rejected e => exact ho
  | notAppended happ => exact (appendMetric_owned ho happ).1
  | noBlob e happ =>
    obtain ⟨ho1, hslot⟩ := appendMetric_owned ho happ
    obtain ⟨hpos, old, hold, hblob⟩ := hslot rfl
    exact (ho1.extend (BlockHeap.extends_refuse _)).undo hpos hold hblob
  | inPlace value size happ hv =>
    obtain ⟨ho1, hslot⟩ := appendMetric_owned ho happ
    obtain ⟨hpos, old, hold, hblob⟩ := hslot rfl
    exact ho1.fill hpos hold hblob (Metric.backed_of_blob_none _ hv) (by simp [hv])
  | withBlob value size b happ hv hback =>
    obtain ⟨ho1, hslot⟩ := appendMetric_owned ho happ
    obtain ⟨hpos, old, hold, hblob⟩ := hslot rfl
    refine (ho1.extend (BlockHeap.extends_push _ b)).fill hpos hold hblob hback fun p hp => ?_
    obtain rfl := Option.some.inj (hv.symm.trans hp)
    exact ho1.push_fresh b

/-- `aetus_telemetry_deinit` releases exactly the blocks of the structure, in some order. -/
theorem telemetryDeinit_frees {t : Telemetry} {h : Heap} (ho : Owned t h) :
    ∃ fs, (telemetryDeinit t h).2 = h.freeAll fs ∧ fs.Perm t.blocks := by
  have hinl : ∀ m ∈ t.inlineMetrics.drop t.metricCount, m.blob = none := fun m hm =>
    ho.unused m (by simp only [Telemetry.slots, List.drop_append]; exact List.mem_append_left _ hm)
  unfold telemetryDeinit
  cases ha : t.heapMetrics with
  | none =>
    refine ⟨blobs t.inlineMetrics, ?_, ?_⟩
    · simp [freeBlobs_eq, blobs_take hinl]
    · simp [Telemetry.blocks, Telemetry.slots, Telemetry.heapArray, ha]
  | some a =>
    have hheap : ∀ m ∈ a.slots.drop (t.metricCount - AETUS_TELEMETRY_INLINE_METRICS),
        m.blob = none := fun m hm => ho.unused m (by
      simp only [Telemetry.slots, Telemetry.heapArray, ha, List.drop_append, ho.inline_length]
      exact List.mem_append_right _ hm)
    refine ⟨blobs t.inlineMetrics ++ blobs a.slots ++ [a.block], ?_, ?_⟩
    · simp [freeBlobs_eq, blobs_take hinl, blobs_take hheap, BlockHeap.freeAll_append]
    · simp only [Telemetry.blocks, Telemetry.slots, Telemetry.heapArray, ha, blobs_append]
      exact List.perm_append_comm

theorem Owned.zero (h : Heap) : Owned Telemetry.zero h :=
  { Owned.init h with }

theorem callBuilder_owned {t : Telemetry} {h : Heap} (c : BuilderCall) (ho : Owned t h) :
    Owned (callBuilder t h c).1 (callBuilder t h c).2 := by
  cases c with
  | setTimestamp ns => exact { ho with }
  | addInt64 v inIsr key unit => exact (addScalar_outcome rfl rfl).owned ho
  | addDouble bits inIsr key unit => exact (addScalar_outcome rfl rfl).owned ho
  | addBool v inIsr key unit => exact (addScalar_outcome rfl rfl).owned ho
  | addString v inIsr key unit =>
    cases v with
    | none => exact ho
    | some b =>
      have hr : telemetryAddStringN (.buffer b.text) inIsr t h key unit = _ := rfl
      exact (telemetryAddStringN_outcome hr).owned ho
  | addStringN v inIsr key unit => exact (telemetryAddStringN_outcome rfl).owned ho
  | addBytes v inIsr key unit => exact (telemetryAddBytes_outcome rfl).owned ho
  | deinit =>
    have hzero : (callBuilder t h .deinit).1 = Telemetry.zero := by
      simp only [callBuilder, telemetryDeinit]
      split <;> rfl
    rw [hzero]
    exact Owned.zero _

theorem Built.owned {t : Telemetry} {h : Heap} (hb : Built t h) : Owned t h := by
  induction hb with
  | init h => exact Owned.init h
  | call c _ ih => exact callBuilder_owned c ih
  | environment _ hk ih => exact ih.frame hk.block

end Aetus.Firmware
