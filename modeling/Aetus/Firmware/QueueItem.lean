import Aetus.Firmware.Ownership

/-!
aetus_queue_item.c: the deep copy of a telemetry structure into a queue item, and
the release of such an item.
-/

set_option autoImplicit false

namespace Aetus.Firmware
open Aetus.Base

def Metric.withBlob (m : Metric) (p : Option Nat) : Metric :=
  match m.value with
  | .string _ => { m with value := .string p }
  | .bytes _ => { m with value := .bytes p }
  | _ => m

/-- `blob_data = NULL; blob_size = 0`. -/
def Metric.clearBlob (m : Metric) : Metric :=
  match m.blob with
  | none => m
  | some _ => { m.withBlob none with blobSize := 0 }

def releaseSlots : Nat → List Metric → Heap → List Metric × Heap
  | 0, ms, h => (ms, h)
  | _ + 1, [], h => ([], h)
  | n + 1, m :: ms, h =>
    let r := releaseSlots n ms (match m.blob with | some p => h.free p | none => h)
    (m.clearBlob :: r.1, r.2)

def releaseTelemetry (t : Telemetry) (h : Heap) : Telemetry × Heap :=
  let inl := releaseSlots t.metricCount t.inlineMetrics h
  match t.heapMetrics with
  | none => ({ t with inlineMetrics := inl.1 }, inl.2)
  | some a =>
    let hs := releaseSlots (t.metricCount - AETUS_TELEMETRY_INLINE_METRICS) a.slots inl.2
    ({ t with inlineMetrics := inl.1, heapMetrics := none }, hs.2.free a.block)

def releaseTelemetryQueueItem (item : QueueItem) (h : Heap) : QueueItem × Heap :=
  match item.body with
  | .telemetry t =>
    let r := releaseTelemetry t h
    ({ item with body := .telemetry r.1 }, r.2)
  | _ => (item, h)

/-- The source block and the number of bytes, when the metric's blob is one to copy. -/
def Metric.copySource (m : Metric) : Option (Nat × UInt32) :=
  match m.value with
  | .string (some p) => some (p, m.blobSize + 1)
  | .bytes (some p) => if 0 < m.blobSize then some (p, m.blobSize) else none
  | _ => none

/-- One turn of the copy loop; `none` when the allocation is refused. -/
def copyBlob (m : Metric) (h : Heap) : Option Metric × Heap :=
  match m.copySource with
  | none => (some m, h)
  | some (p, size) =>
    match h.alloc (((h.block p).getD []).take size.toNat) with
    | (none, h) => (none, h)
    | (some q, h) => (some (m.withBlob (some q)), h)

/-- The copy loop over the first `n` slots; the flag is `alloc_failed`. -/
def copySlots : Nat → List Metric → Heap → Bool × List Metric × Heap
  | 0, ms, h => (false, ms, h)
  | _ + 1, [], h => (false, [], h)
  | n + 1, m :: ms, h =>
    match copyBlob m h with
    | (none, h) => (true, m :: ms, h)
    | (some m', h) =>
      let r := copySlots n ms h
      (r.1, m' :: r.2.1, r.2.2)

/-- Both parts of the loop, over a body that starts as the bitwise copy `c`. -/
def copyAllSlots (c : Telemetry) (h : Heap) : Bool × Telemetry × Heap :=
  let inl := copySlots c.metricCount c.inlineMetrics h
  if inl.1 then (true, { c with inlineMetrics := inl.2.1 }, inl.2.2)
  else
    match c.heapMetrics with
    | none => (false, { c with inlineMetrics := inl.2.1 }, inl.2.2)
    | some a =>
      let hs := copySlots (c.metricCount - AETUS_TELEMETRY_INLINE_METRICS) a.slots inl.2.2
      (hs.1, { c with inlineMetrics := inl.2.1, heapMetrics := some { a with slots := hs.2.1 } },
        hs.2.2)

/-- The allocation of the copy's own `heap_metrics`; `none` when it is refused. -/
def copyHeapMetrics (t : Telemetry) (h : Heap) : Option Telemetry × Heap :=
  match t.heapMetrics with
  | none => (some t, h)
  | some a =>
    match h.alloc [] with
    | (none, h) => (none, h)
    | (some q, h) => (some { t with heapMetrics := some { a with block := q } }, h)

def copyTelemetryToQueueItem (telemetry : Option Telemetry) (item : Option QueueItem) (h : Heap) :
    EspErr × Option QueueItem × Heap :=
  match telemetry, item with
  | none, _ => (.invalidArg, item, h)
  | some _, none => (.invalidArg, none, h)
  | some t, some _ =>
    match copyHeapMetrics t h with
    | (none, h) => (.noMem, some ⟨none, .telemetry { t with heapMetrics := none }⟩, h)
    | (some c, h) =>
      match copyAllSlots c h with
      | (false, c, h) => (.ok, some ⟨none, .telemetry c⟩, h)
      | (true, c, h) =>
        let r := releaseTelemetryQueueItem ⟨none, .telemetry c⟩ h
        (.noMem, some r.1, r.2)

def Metric.copies (m : Metric) : Bool := m.copySource.isSome

def copyCount (n : Nat) (ms : List Metric) : Nat := (ms.take n).countP Metric.copies

theorem Metric.Backed.live {m : Metric} {h : Heap} (hm : m.Backed h) {p : Nat}
    (hp : m.blob = some p) : h.Live p := by
  unfold Metric.Backed at hm
  unfold Metric.blob at hp
  split at hm
  · next q hv =>
    obtain ⟨b, hb, _⟩ := hm
    obtain rfl : q = p := by simpa [hv] using hp
    simp [BlockHeap.Live, hb]
  · next q hv =>
    obtain ⟨b, hb, _⟩ := hm
    obtain rfl : q = p := by simpa [hv] using hp
    simp [BlockHeap.Live, hb]
  · next hs hbs =>
    split at hp
    · next q hv => exact absurd (hp ▸ hv) (hs p)
    · next q hv => exact absurd (hp ▸ hv) (hbs p)
    · cases hp

theorem live_of_backed {ms : List Metric} {h : Heap} (hms : ∀ m ∈ ms, m.Backed h) :
    ∀ p ∈ blobs ms, h.Live p := by
  intro p hp
  obtain ⟨m, hm, hmp⟩ := mem_blobs.mp hp
  exact (hms m hm).live hmp

theorem Metric.Backed.copySource {m : Metric} {h : Heap} (hm : m.Backed h) {p : Nat}
    (hp : m.blob = some p) : ∃ size b, m.copySource = some (p, size) ∧ h.block p = some b ∧
      ((h.block p).getD []).take size.toNat = b := by
  unfold Metric.Backed at hm
  unfold Metric.blob at hp
  split at hm
  · next q hv =>
    obtain ⟨b, hb, hlen, hfits⟩ := hm
    obtain rfl : q = p := by simpa [hv] using hp
    refine ⟨m.blobSize + 1, b, by rw [Metric.copySource, hv], hb, ?_⟩
    have hsize : (m.blobSize + 1).toNat = m.blobSize.toNat + 1 := by
      rw [UInt32.toNat_add]
      exact Nat.mod_eq_of_lt (by simpa using hfits)
    simp [hb, hsize, ← hlen]
  · next q hv =>
    obtain ⟨b, hb, hlen, hpos⟩ := hm
    obtain rfl : q = p := by simpa [hv] using hp
    refine ⟨m.blobSize, b, by simp only [Metric.copySource, hv, hpos, if_true], hb, ?_⟩
    simp [hb, ← hlen]
  · next hs hbs =>
    split at hp
    · next q hv => exact absurd (hp ▸ hv) (hs p)
    · next q hv => exact absurd (hp ▸ hv) (hbs p)
    · cases hp

theorem Metric.copySource_none {m : Metric} (hm : m.blob = none) : m.copySource = none := by
  unfold Metric.blob at hm
  unfold Metric.copySource
  split <;> simp_all

theorem Metric.withBlob_blob {m : Metric} {p : Nat} (hm : m.blob = some p) (q : Nat) :
    (m.withBlob (some q)).blob = some q := by
  unfold Metric.blob at hm
  unfold Metric.withBlob
  split <;> simp_all [Metric.blob]

theorem Metric.withBlob_shape (m : Metric) (p q : Option Nat) :
    (m.withBlob p).withBlob q = m.withBlob q := by
  obtain ⟨key, unit, value, size⟩ := m
  cases value <;> rfl

theorem copyCount_cons (n : Nat) (m : Metric) (ms : List Metric) :
    copyCount (n + 1) (m :: ms) = (if m.copies then 1 else 0) + copyCount n ms := by
  simp [copyCount, List.countP_cons, Nat.add_comm]

theorem copyBlob_cases (m : Metric) (h : Heap) :
    (m.copies = false ∧ copyBlob m h = (some m, h)) ∨
    (∃ p size, m.copySource = some (p, size) ∧ h.grant h.asked = true ∧
      copyBlob m h = (some (m.withBlob (some h.next)),
        h.push (((h.block p).getD []).take size.toNat))) ∨
    (m.copies = true ∧ h.grant h.asked = false ∧ copyBlob m h = (none, h.refuse)) := by
  unfold copyBlob Metric.copies
  cases hs : m.copySource with
  | none => exact .inl ⟨rfl, rfl⟩
  | some src =>
    obtain ⟨p, size⟩ := src
    cases hg : h.grant h.asked with
    | true => exact .inr (.inl ⟨p, size, rfl, rfl, by simp [BlockHeap.alloc_granted _ hg]⟩)
    | false => exact .inr (.inr ⟨rfl, rfl, by simp [BlockHeap.alloc_refused _ hg]⟩)

theorem copySlots_extends (n : Nat) (ms : List Metric) (h : Heap) :
    h.Extends (copySlots n ms h).2.2 := by
  induction ms generalizing n h with
  | nil => cases n <;> exact .refl h
  | cons m ms ih =>
    cases n with
    | zero => exact .refl h
    | succ n =>
      rcases copyBlob_cases m h with ⟨_, hc⟩ | ⟨p, size, _, _, hc⟩ | ⟨_, _, hc⟩
      · simp only [copySlots, hc]
        exact ih n h
      · simp only [copySlots, hc]
        exact (h.extends_push _).trans (ih n _)
      · simp only [copySlots, hc]
        exact h.extends_refuse

/-- The loop succeeds exactly when each of its requests is granted. -/
theorem copySlots_served (n : Nat) (ms : List Metric) (h : Heap) :
    ((copySlots n ms h).1 = false ↔
      ∀ i < copyCount n ms, h.grant (h.asked + i) = true) ∧
    ((copySlots n ms h).1 = false →
      (copySlots n ms h).2.2.asked = h.asked + copyCount n ms) := by
  induction ms generalizing n h with
  | nil => cases n <;> simp [copySlots, copyCount]
  | cons m ms ih =>
    cases n with
    | zero => simp [copySlots, copyCount]
    | succ n =>
      rcases copyBlob_cases m h with ⟨hm, hc⟩ | ⟨p, size, hs, hg, hc⟩ | ⟨hm, hg, hc⟩
      · simpa [copySlots, hc, copyCount_cons, hm] using ih n h
      · have hm : m.copies = true := by simp [Metric.copies, hs]
        have hrec := ih n (h.push (((h.block p).getD []).take size.toNat))
        simp only [copySlots, hc, copyCount_cons, hm, if_true]
        refine ⟨hrec.1.trans ⟨fun hall i hi => ?_, fun hall i hi => ?_⟩, fun hok => ?_⟩
        · cases i with
          | zero => exact hg
          | succ i =>
            have hgi := hall i (by omega)
            rwa [show (h.push _).asked + i = h.asked + (i + 1) by simp [BlockHeap.push]; omega]
              at hgi
        · have hgi := hall (i + 1) (by omega)
          rwa [show h.asked + (i + 1) = (h.push _).asked + i by simp [BlockHeap.push]; omega]
            at hgi
        · rw [hrec.2 hok]
          simp [BlockHeap.push]; omega
      · simp only [copySlots, hc, copyCount_cons, hm, if_true]
        refine ⟨⟨by simp, fun hall => ?_⟩, by simp⟩
        have hg0 := hall 0 (by omega)
        simp [hg] at hg0

/-- `m'` in the heap `k` reads as `m` does in `h`. -/
def SameContents (h k : Heap) (m m' : Metric) : Prop :=
  m.withBlob none = m'.withBlob none ∧ m.blob.map h.block = m'.blob.map k.block

/-- The slots `ms'` have copies in `k`, under consecutive new names, of all the blobs
that the slots `ms` have in `h`. -/
structure SlotsCopied (ms : List Metric) (h : Heap) (ms' : List Metric) (k : Heap) : Prop where
  blobs_eq : blobs ms' = List.range' h.next (k.next - h.next)
  live : ∀ p ∈ blobs ms', k.Live p
  same : List.Forall₂ (SameContents h k) ms ms'

theorem SameContents.refl_of_blob_none {m : Metric} (h k : Heap) (hm : m.blob = none) :
    SameContents h k m m := by simp [SameContents, hm]

theorem SlotsCopied.unused {ms : List Metric} (h : Heap) (hms : ∀ m ∈ ms, m.blob = none) :
    SlotsCopied ms h ms h where
  blobs_eq := by simp [blobs_eq_nil hms]
  live := by simp [blobs_eq_nil hms]
  same := List.forall₂_same.mpr fun m hm => .refl_of_blob_none h h (hms m hm)

theorem SameContents.frame {h h' k k' : Heap} {m m' : Metric}
    (hm : ∀ p, m.blob = some p → h'.block p = h.block p)
    (hm' : ∀ p, m'.blob = some p → k'.block p = k.block p) (hs : SameContents h k m m') :
    SameContents h' k' m m' := by
  refine ⟨hs.1, ?_⟩
  have hleft : m.blob.map h'.block = m.blob.map h.block := by
    cases hb : m.blob with
    | none => rfl
    | some p => simp [hm p hb]
  have hright : m'.blob.map k'.block = m'.blob.map k.block := by
    cases hb : m'.blob with
    | none => rfl
    | some p => simp [hm' p hb]
  rw [hleft, hright, hs.2]

theorem sameContents_frame {h h' k k' : Heap} {ms ms' : List Metric}
    (hm : ∀ p ∈ blobs ms, h'.block p = h.block p)
    (hm' : ∀ p ∈ blobs ms', k'.block p = k.block p)
    (hs : List.Forall₂ (SameContents h k) ms ms') :
    List.Forall₂ (SameContents h' k') ms ms' := by
  induction hs with
  | nil => exact .nil
  | cons hx _ ih =>
    simp only [blobs_cons, List.mem_append, Option.mem_toList] at hm hm'
    refine .cons (hx.frame ?_ ?_) (ih ?_ ?_)
    · exact fun p hp => hm p (.inl hp)
    · exact fun p hp => hm' p (.inl hp)
    · exact fun p hp => hm p (.inr hp)
    · exact fun p hp => hm' p (.inr hp)

theorem SlotsCopied.cons_pushed {m : Metric} {ms ms' : List Metric} {h l : Heap} {p : Nat}
    {b : List UInt8} (hlive : ∀ p ∈ blobs ms, h.Live p) (hp : m.blob = some p)
    (hb : h.block p = some b) (hext : (h.push b).Extends l)
    (hs : SlotsCopied ms (h.push b) ms' l) :
    SlotsCopied (m :: ms) h (m.withBlob (some h.next) :: ms') l := by
  have hnext : (h.push b).next = h.next + 1 := rfl
  have hle := hext.next_le
  have hhead : l.block h.next = some b := by
    rw [hext.old _ (by omega), BlockHeap.push_block_self]
  refine ⟨?_, ?_, .cons ⟨by rw [Metric.withBlob_shape], ?_⟩ ?_⟩
  · rw [blobs_cons, Metric.withBlob_blob hp, hs.blobs_eq, hnext]
    have hd : l.next - h.next = (l.next - (h.next + 1)) + 1 := by omega
    rw [hd, List.range'_succ]
    rfl
  · intro r hr
    rw [blobs_cons, Metric.withBlob_blob hp] at hr
    rcases List.mem_append.mp hr with hr | hr
    · obtain rfl : r = h.next := by simpa using hr
      simp [BlockHeap.Live, hhead]
    · exact hs.live r hr
  · rw [hp, Metric.withBlob_blob hp, Option.map_some, Option.map_some, hb, hhead]
  · refine sameContents_frame (fun r hr => ?_) (fun _ _ => rfl) hs.same
    exact ((h.extends_push b).block (hlive r hr)).symm

theorem copySlots_copied {n : Nat} {ms : List Metric} {h : Heap}
    (hback : ∀ m ∈ ms, m.Backed h) (hunused : ∀ m ∈ ms.drop n, m.blob = none)
    (hok : (copySlots n ms h).1 = false) :
    SlotsCopied ms h (copySlots n ms h).2.1 (copySlots n ms h).2.2 := by
  induction ms generalizing n h with
  | nil => cases n <;> exact .unused h (by simp)
  | cons m ms ih =>
    cases n with
    | zero => exact .unused h hunused
    | succ n =>
      have hbm := hback m List.mem_cons_self
      have hbms : ∀ x ∈ ms, x.Backed h := fun x hx => hback x (List.mem_cons_of_mem m hx)
      rcases copyBlob_cases m h with ⟨hm, hc⟩ | ⟨p, size, hs, hg, hc⟩ | ⟨hm, hg, hc⟩
      · simp only [copySlots, hc] at hok ⊢
        have hnone : m.blob = none := by
          cases hb : m.blob with
          | none => rfl
          | some p =>
            obtain ⟨size, b, hsrc, _⟩ := hbm.copySource hb
            simp [Metric.copies, hsrc] at hm
        obtain ⟨hbl, hlive, hsame⟩ := ih hbms hunused hok
        refine ⟨by rw [blobs_cons, hnone]; exact hbl, ?_, .cons ?_ hsame⟩
        · intro q hq
          rw [blobs_cons, hnone] at hq
          exact hlive q hq
        · exact .refl_of_blob_none _ _ hnone
      · simp only [copySlots, hc] at hok ⊢
        obtain ⟨q, hq⟩ : ∃ q, m.blob = some q := by
          cases hb : m.blob with
          | some q => exact ⟨q, rfl⟩
          | none => simp [Metric.copySource_none hb] at hs
        obtain ⟨size', b, hsrc, hblk, hcontent⟩ := hbm.copySource hq
        obtain ⟨rfl, rfl⟩ : p = q ∧ size = size' := by simpa [hs] using hsrc
        rw [hcontent] at hok ⊢
        have hbms' : ∀ x ∈ ms, x.Backed (h.push b) := fun x hx =>
          (hbms x hx).frame fun r hr => (h.extends_push b).block ((hbms x hx).live hr)
        exact .cons_pushed (live_of_backed hbms) hq hblk (copySlots_extends n ms _)
          (ih hbms' hunused hok)
      · simp only [copySlots, hc] at hok
        cases hok

theorem SlotsCopied.append {ms ns ms' ns' : List Metric} {h k l : Heap} (h1 : h.Extends k)
    (h2 : k.Extends l) (hlive : ∀ p ∈ blobs ns, h.Live p) (hm : SlotsCopied ms h ms' k)
    (hn : SlotsCopied ns k ns' l) : SlotsCopied (ms ++ ns) h (ms' ++ ns') l := by
  refine ⟨?_, ?_, List.rel_append ?_ ?_⟩
  · rw [blobs_append, hm.blobs_eq, hn.blobs_eq]
    have hle1 := h1.next_le
    have hle2 := h2.next_le
    have hk : k.next = h.next + (k.next - h.next) := by omega
    have hl : l.next - h.next = (k.next - h.next) + (l.next - k.next) := by omega
    rw [hl, ← List.range'_append_1, ← hk]
  · intro p hp
    rw [blobs_append] at hp
    rcases List.mem_append.mp hp with hp | hp
    · exact h2.live (hm.live p hp)
    · exact hn.live p hp
  · exact sameContents_frame (fun _ _ => rfl) (fun p hp => h2.block (hm.live p hp)) hm.same
  · exact sameContents_frame (fun p hp => (h1.block (hlive p hp)).symm) (fun _ _ => rfl) hn.same

/-- When the loop fails, a slot it did not reach still names a block of the source. -/
theorem copySlots_failed {n : Nat} {ms : List Metric} {h : Heap}
    (hf : (copySlots n ms h).1 = true) :
    ∃ p ∈ blobs ((copySlots n ms h).2.1.take n), p ∈ blobs ms := by
  induction ms generalizing n h with
  | nil => cases n <;> simp [copySlots] at hf
  | cons m ms ih =>
    cases n with
    | zero => simp [copySlots] at hf
    | succ n =>
      have hlater {m' : Metric} {h' : Heap} (hc : copyBlob m h = (some m', h')) :
          ∃ p ∈ blobs ((copySlots (n + 1) (m :: ms) h).2.1.take (n + 1)), p ∈ blobs (m :: ms) := by
        simp only [copySlots, hc] at hf ⊢
        obtain ⟨p, hp, hps⟩ := ih hf
        simp only [List.take_succ_cons, blobs_cons, List.mem_append]
        exact ⟨p, .inr hp, .inr hps⟩
      rcases copyBlob_cases m h with ⟨_, hc⟩ | ⟨p, size, _, _, hc⟩ | ⟨hm, _, hc⟩
      · exact hlater hc
      · exact hlater hc
      · simp only [copySlots, hc]
        cases hb : m.blob with
        | none => simp [Metric.copies, Metric.copySource_none hb] at hm
        | some p => exact ⟨p, by simp [blobs_cons, hb], by simp [blobs_cons, hb]⟩

theorem releaseSlots_frees (n : Nat) (ms : List Metric) (h : Heap) :
    (releaseSlots n ms h).2 = h.freeAll (blobs (ms.take n)) := by
  induction ms generalizing n h with
  | nil => cases n <;> rfl
  | cons m ms ih =>
    cases n with
    | zero => rfl
    | succ n => cases hb : m.blob <;> simp [releaseSlots, ih, blobs_cons, hb]

def released (t : Telemetry) : List Nat :=
  blobs (t.inlineMetrics.take t.metricCount) ++ match t.heapMetrics with
    | none => []
    | some a => blobs (a.slots.take (t.metricCount - AETUS_TELEMETRY_INLINE_METRICS)) ++ [a.block]

theorem releaseTelemetry_frees (t : Telemetry) (h : Heap) :
    (releaseTelemetry t h).2 = h.freeAll (released t) := by
  unfold releaseTelemetry released
  cases t.heapMetrics with
  | none => simp [releaseSlots_frees]
  | some a => simp [releaseSlots_frees, BlockHeap.freeAll_append]

theorem copyAllSlots_extends (c : Telemetry) (h : Heap) : h.Extends (copyAllSlots c h).2.2 := by
  have hinl := copySlots_extends c.metricCount c.inlineMetrics h
  simp only [copyAllSlots]
  split
  · exact hinl
  · split
    · exact hinl
    · exact hinl.trans (copySlots_extends _ _ _)

def slotRequests (t : Telemetry) : Nat :=
  copyCount t.metricCount t.inlineMetrics +
    copyCount (t.metricCount - AETUS_TELEMETRY_INLINE_METRICS) t.heapArray

theorem copyAllSlots_served (c : Telemetry) (h : Heap) :
    (copyAllSlots c h).1 = false ↔ ∀ i < slotRequests c, h.grant (h.asked + i) = true := by
  obtain ⟨hinl, hasked⟩ := copySlots_served c.metricCount c.inlineMetrics h
  have hgrant := (copySlots_extends c.metricCount c.inlineMetrics h).grant
  cases hf : (copySlots c.metricCount c.inlineMetrics h).1 with
  | true =>
    simp only [hf, Bool.true_eq_false, false_iff] at hinl
    simp only [copyAllSlots, hf, if_true, Bool.true_eq_false, false_iff]
    exact fun hall => hinl fun i hi => hall i (by unfold slotRequests; omega)
  | false =>
    have hserved := hinl.mp hf
    cases ha : c.heapMetrics with
    | none =>
      simp only [copyAllSlots, hf, ha, Bool.false_eq_true, if_false, true_iff]
      intro i hi
      exact hserved i (by simpa [slotRequests, Telemetry.heapArray, ha, copyCount] using hi)
    | some a =>
      obtain ⟨hheap, _⟩ := copySlots_served (c.metricCount - AETUS_TELEMETRY_INLINE_METRICS)
        a.slots (copySlots c.metricCount c.inlineMetrics h).2.2
      rw [hgrant, hasked hf] at hheap
      simp only [copyAllSlots, hf, ha, Bool.false_eq_true, if_false, hheap, slotRequests,
        Telemetry.heapArray]
      refine ⟨fun hall i hi => ?_, fun hall i hi => ?_⟩
      · by_cases hlt : i < copyCount c.metricCount c.inlineMetrics
        · exact hserved i hlt
        · obtain ⟨j, rfl⟩ := Nat.exists_eq_add_of_le (Nat.le_of_not_lt hlt)
          rw [← Nat.add_assoc]
          exact hall j (by omega)
      · rw [Nat.add_assoc]
        exact hall _ (by omega)

theorem copyAllSlots_failed {c : Telemetry} {h : Heap} (hf : (copyAllSlots c h).1 = true) :
    ∃ p ∈ released (copyAllSlots c h).2.1, p ∈ blobs c.slots := by
  cases hinl : (copySlots c.metricCount c.inlineMetrics h).1 with
  | true =>
    obtain ⟨p, hp, hps⟩ := copySlots_failed hinl
    refine ⟨p, ?_, by simp [Telemetry.slots, blobs_append, hps]⟩
    simp only [copyAllSlots, hinl, if_true, released]
    exact List.mem_append_left _ hp
  | false =>
    cases ha : c.heapMetrics with
    | none => simp [copyAllSlots, hinl, ha] at hf
    | some a =>
      simp only [copyAllSlots, hinl, ha, Bool.false_eq_true, if_false] at hf ⊢
      obtain ⟨p, hp, hps⟩ := copySlots_failed hf
      refine ⟨p, ?_, by simp [Telemetry.slots, Telemetry.heapArray, ha, blobs_append, hps]⟩
      exact List.mem_append_right _ (List.mem_append_left _ hp)

theorem copyAllSlots_frame (c : Telemetry) (h : Heap) :
    (copyAllSlots c h).2.1.timestampNs = c.timestampNs ∧
    (copyAllSlots c h).2.1.metricCount = c.metricCount ∧
    (copyAllSlots c h).2.1.capacity = c.capacity ∧
    (copyAllSlots c h).2.1.heapMetrics.map MetricArray.block =
      c.heapMetrics.map MetricArray.block := by
  simp only [copyAllSlots]
  split
  · exact ⟨rfl, rfl, rfl, rfl⟩
  · split
    · exact ⟨rfl, rfl, rfl, rfl⟩
    · next a ha => exact ⟨rfl, rfl, rfl, by simp [ha]⟩

theorem copyAllSlots_copied {c : Telemetry} {h : Heap} (hback : ∀ m ∈ c.slots, m.Backed h)
    (hlen : c.inlineMetrics.length = AETUS_TELEMETRY_INLINE_METRICS)
    (hunused : ∀ m ∈ c.slots.drop c.metricCount, m.blob = none)
    (hok : (copyAllSlots c h).1 = false) :
    SlotsCopied c.slots h (copyAllSlots c h).2.1.slots (copyAllSlots c h).2.2 := by
  simp only [Telemetry.slots, List.drop_append, hlen, List.mem_append] at hback hunused
  have hinl := @copySlots_copied c.metricCount c.inlineMetrics h
    (fun m hm => hback m (.inl hm)) (fun m hm => hunused m (.inl hm))
  have hext := copySlots_extends c.metricCount c.inlineMetrics h
  cases hf : (copySlots c.metricCount c.inlineMetrics h).1 with
  | true => simp [copyAllSlots, hf] at hok
  | false =>
    cases ha : c.heapMetrics with
    | none => simpa [copyAllSlots, hf, ha, Telemetry.slots, Telemetry.heapArray] using hinl hf
    | some a =>
      simp only [copyAllSlots, hf, ha, Bool.false_eq_true, if_false, Telemetry.slots,
        Telemetry.heapArray] at hok hback hunused ⊢
      have hslots : ∀ m ∈ a.slots, m.Backed h := fun m hm => hback m (.inr hm)
      refine (hinl hf).append hext (copySlots_extends _ _ _) (live_of_backed hslots) ?_
      refine copySlots_copied (fun m hm => ?_) (fun m hm => hunused m (.inr hm)) hok
      exact (hslots m hm).frame fun p hp => hext.block ((hslots m hm).live hp)

end Aetus.Firmware
