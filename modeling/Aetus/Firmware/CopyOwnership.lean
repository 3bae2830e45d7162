import Aetus.Firmware.QueueItem

/-!
When the deep copy keeps the ownership of the source and of the item apart.
-/

set_option autoImplicit false

namespace Aetus.Firmware
open Aetus.Base

/-- `c` in the heap `k` is a deep copy of `t`, made of blocks that were new after `h`. -/
structure OwnCopy (t : Telemetry) (h : Heap) (c : Telemetry) (k : Heap) : Prop where
  fresh : ∀ p ∈ c.blocks, h.next ≤ p ∧ k.Live p
  nodup : c.blocks.Nodup
  distinct : ∀ p ∈ c.blocks, p ∉ t.blocks
  untouched : ∀ p ∈ t.blocks, k.block p = h.block p
  same : List.Forall₂ (SameContents h k) t.slots c.slots
  scalars : c.timestampNs = t.timestampNs ∧ c.metricCount = t.metricCount ∧
    c.capacity = t.capacity ∧ c.heapMetrics.isSome = t.heapMetrics.isSome

/-- Between `h` and `k` exactly the blocks that were new have been released, and the source
`t` can still be released as a whole, each block once. -/
structure RolledBack (t : Telemetry) (h k : Heap) : Prop where
  freed : ∃ fs, k.freed = h.freed ++ fs ∧ fs.Perm (List.range' h.next (k.next - h.next))
  live : ∀ p ∈ t.blocks, k.Live p
  deinit : ∃ fs, (telemetryDeinit t k).2.freed = k.freed ++ fs ∧ ∀ p ∈ t.blocks, fs.count p = 1

def CopyKeepsOwnership (t : Telemetry) (item : Option QueueItem) (h : Heap) : Prop :=
  match copyTelemetryToQueueItem (some t) item h with
  | (.ok, some ⟨_, .telemetry c⟩, k) => OwnCopy t h c k
  | (.ok, _, _) => False
  | (_, _, k) => RolledBack t h k

theorem Owned.rolledBack {t : Telemetry} {h k : Heap} (ho : Owned t h) (he : h.Extends k)
    (hnext : k.next = h.next) : RolledBack t h k where
  freed := ⟨[], by simp [he.freed], by simp [hnext]⟩
  live p hp := he.live (ho.live p hp)
  deinit := by
    obtain ⟨fs, hfs, hperm⟩ := telemetryDeinit_frees (ho.extend he)
    refine ⟨fs, by rw [hfs, BlockHeap.freeAll_freed], fun p hp => ?_⟩
    rw [hperm.count_eq]
    exact List.count_eq_one_of_mem ho.nodup hp

/-- Releasing a half-replaced item also releases a block of the source. -/
theorem not_rolledBack_of_failed {t c : Telemetry} {h k : Heap} (ho : Owned t h)
    (he : h.Extends k) (hslots : blobs c.slots = blobs t.slots)
    (hf : (copyAllSlots c k).1 = true) :
    ¬ RolledBack t h (releaseTelemetry (copyAllSlots c k).2.1 (copyAllSlots c k).2.2).2 := by
  intro hrb
  obtain ⟨p, hp, hps⟩ := copyAllSlots_failed hf
  obtain ⟨fs, hfs, hperm⟩ := hrb.freed
  have hall := he.trans (copyAllSlots_extends c k)
  rw [releaseTelemetry_frees, BlockHeap.freeAll_freed, hall.freed, List.append_cancel_left_eq]
    at hfs
  have hnew : p ∈ List.range' h.next _ := hperm.mem_iff.mp (hfs ▸ hp)
  have hold : h.Live p := ho.live p (List.mem_append_right _ (hslots ▸ hps))
  have hlt := hold.lt
  have hle := (List.mem_range'_1.mp hnew).1
  omega

/-- The copy loop, over a body `c` that differs from the source in the heap array's name only. -/
theorem copyAllSlots_ownCopy {t c : Telemetry} {h k : Heap} (ho : Owned t h) (he : h.Extends k)
    (hc : c = t ∧ k = h ∧ t.heapMetrics = none ∨
      ∃ a, t.heapMetrics = some a ∧ c = { t with heapMetrics := some { a with block := h.next } } ∧
        k = h.push [])
    (hok : (copyAllSlots c k).1 = false) :
    OwnCopy t h (copyAllSlots c k).2.1 (copyAllSlots c k).2.2 := by
  have hslots : c.slots = t.slots := by
    rcases hc with ⟨rfl, _, _⟩ | ⟨a, ha, rfl, _⟩
    · rfl
    · simp [Telemetry.slots, Telemetry.heapArray, ha]
  have hinl : c.inlineMetrics = t.inlineMetrics ∧ c.metricCount = t.metricCount ∧
      c.timestampNs = t.timestampNs ∧ c.capacity = t.capacity := by
    rcases hc with ⟨rfl, _, _⟩ | ⟨a, ha, rfl, _⟩ <;> exact ⟨rfl, rfl, rfl, rfl⟩
  have hext := copyAllSlots_extends c k
  have hall := he.trans hext
  have hcopied := copyAllSlots_copied (c := c) (h := k)
    (fun m hm => (ho.extend he).backed m (hslots ▸ hm)) (by rw [hinl.1]; exact ho.inline_length)
    (fun m hm => ho.unused m (by rw [hslots, hinl.2.1] at hm; exact hm)) hok
  obtain ⟨hts, hcount, hcap, hheap⟩ := copyAllSlots_frame c k
  -- the item's blocks are the names handed out since `h`, in order
  have hblocks : (copyAllSlots c k).2.1.blocks =
      List.range' h.next ((copyAllSlots c k).2.2.next - h.next) := by
    have hle := hext.next_le
    rw [Telemetry.blocks, hcopied.blobs_eq, ← Option.toList_map, hheap]
    rcases hc with ⟨rfl, rfl, hnone⟩ | ⟨a, ha, rfl, rfl⟩
    · simp [hnone]
    · have hnext : (h.push []).next = h.next + 1 := rfl
      have hsub : ∀ n, h.next + 1 ≤ n → n - h.next = (n - (h.next + 1)) + 1 := by omega
      rw [hnext] at hle ⊢
      rw [hsub _ hle, List.range'_succ]
      rfl
  refine ⟨fun p hp => ⟨?_, ?_⟩, ?_, fun p hp hpt => ?_, fun p hp => ?_, ?_, ?_⟩
  · rw [hblocks] at hp
    exact (List.mem_range'_1.mp hp).1
  · rcases List.mem_append.mp hp with harr | hblob
    · rw [← Option.toList_map, hheap] at harr
      rcases hc with ⟨rfl, _, hnone⟩ | ⟨a, ha, rfl, rfl⟩
      · simp [hnone] at harr
      · obtain rfl : p = h.next := by simpa using harr
        exact hext.live (by simp [BlockHeap.Live])
    · exact hcopied.live p hblob
  · rw [hblocks]
    exact List.nodup_range'
  · rw [hblocks] at hp
    have hle := (List.mem_range'_1.mp hp).1
    have hlt := (ho.live p hpt).lt
    omega
  · exact hall.block (ho.live p hp)
  · have hsame := hcopied.same
    rw [hslots] at hsame
    refine sameContents_frame (fun p hp => ?_) (fun _ _ => rfl) hsame
    exact (he.block (ho.live p (List.mem_append_right _ hp))).symm
  · refine ⟨hts.trans hinl.2.2.1, hcount.trans hinl.2.1, hcap.trans hinl.2.2.2, ?_⟩
    have hsome := congrArg Option.isSome hheap
    simp only [Option.isSome_map] at hsome
    rw [hsome]
    rcases hc with ⟨rfl, _, _⟩ | ⟨a, ha, rfl, _⟩
    · rfl
    · simp [ha]

/-- The allocations that a copy makes when none of them is refused. -/
def copyRequests (t : Telemetry) : Nat :=
  t.heapMetrics.toList.length + slotRequests t

/-- Once the item has its own array, everything hangs on the loop. -/
theorem copyKeepsOwnership_of_heapMetrics {t c : Telemetry} {h k : Heap} (ho : Owned t h)
    (he : h.Extends k) (item : QueueItem) (hm : copyHeapMetrics t h = (some c, k))
    (hc : c = t ∧ k = h ∧ t.heapMetrics = none ∨
      ∃ a, t.heapMetrics = some a ∧ c = { t with heapMetrics := some { a with block := h.next } } ∧
        k = h.push []) :
    CopyKeepsOwnership t (some item) h ↔ (copyAllSlots c k).1 = false := by
  have hslots : blobs c.slots = blobs t.slots := by
    rcases hc with ⟨rfl, _, _⟩ | ⟨a, ha, rfl, _⟩
    · rfl
    · simp [Telemetry.slots, Telemetry.heapArray, ha]
  have hown := copyAllSlots_ownCopy ho he hc
  have hnot := not_rolledBack_of_failed ho he hslots
  simp only [CopyKeepsOwnership, copyTelemetryToQueueItem, hm]
  generalize copyAllSlots c k = r at hown hnot ⊢
  obtain ⟨failed, c', k'⟩ := r
  cases failed with
  | false => exact ⟨fun _ => rfl, fun _ => hown rfl⟩
  | true => exact ⟨fun hrb => absurd hrb (hnot rfl), fun hf => by cases hf⟩

/-- Ownership stays apart unless a blob's allocation is refused; a refused `heap_metrics` is
harmless. -/
theorem copyKeepsOwnership_iff {t : Telemetry} {h : Heap} (hb : Built t h)
    (item : Option QueueItem) :
    CopyKeepsOwnership t item h ↔
      item = none ∨ (t.heapMetrics ≠ none ∧ h.grant h.asked = false) ∨
        ∀ i < copyRequests t, h.grant (h.asked + i) = true := by
  have ho := hb.owned
  cases item with
  | none =>
    simp only [CopyKeepsOwnership, copyTelemetryToQueueItem, true_or, iff_true]
    exact ho.rolledBack (.refl h) rfl
  | some item =>
    simp only [reduceCtorEq, false_or]
    cases ha : t.heapMetrics with
    | none =>
      have hm : copyHeapMetrics t h = (some t, h) := by simp [copyHeapMetrics, ha]
      rw [copyKeepsOwnership_of_heapMetrics ho (.refl h) item hm (.inl ⟨rfl, rfl, ha⟩),
        copyAllSlots_served]
      simp [copyRequests, ha]
    | some a =>
      cases hg : h.grant h.asked with
      | false =>
        have hm : copyHeapMetrics t h = (none, h.refuse) := by
          simp [copyHeapMetrics, ha, BlockHeap.alloc_refused _ hg]
        simp only [CopyKeepsOwnership, copyTelemetryToQueueItem, hm]
        simpa using ho.rolledBack h.extends_refuse rfl
      | true =>
        have hm : copyHeapMetrics t h =
            (some { t with heapMetrics := some { a with block := h.next } }, h.push []) := by
          simp [copyHeapMetrics, ha, BlockHeap.alloc_granted _ hg]
        rw [copyKeepsOwnership_of_heapMetrics ho (h.extends_push []) item hm
          (.inr ⟨a, ha, rfl, rfl⟩), copyAllSlots_served]
        have hreq : copyRequests t = 1 + slotRequests { t with
            heapMetrics := some { a with block := h.next } } := by
          simp [copyRequests, slotRequests, Telemetry.heapArray, ha]
        simp only [ne_eq, reduceCtorEq, not_false_eq_true, Bool.true_eq_false, and_false,
          false_or, hreq]
        refine ⟨fun hall i hi => ?_, fun hall i hi => ?_⟩
        · cases i with
          | zero => exact hg
          | succ i =>
            have hi' := hall i (by omega)
            rwa [show (h.push []).asked + i = h.asked + (i + 1) by simp [BlockHeap.push]; omega]
              at hi'
        · have hi' := hall (1 + i) (by omega)
          rwa [show h.asked + (1 + i) = (h.push []).asked + i by simp [BlockHeap.push]; omega]
            at hi'

def stateReport (grant : Nat → Bool) : Telemetry × Heap :=
  callBuilder telemetryInit (.empty grant)
    (.addString (some ⟨utf8 "idle".toList, by decide⟩) false (some (.lit "state")) none)

theorem copyKeepsOwnership_granted :
    CopyKeepsOwnership (stateReport fun _ => true).1 (some ⟨none, .telemetry .zero⟩)
      (stateReport fun _ => true).2 := by
  have hb : Built (stateReport fun _ => true).1 (stateReport fun _ => true).2 :=
    .call _ (.init _)
  refine (copyKeepsOwnership_iff hb _).mpr (.inr (.inr fun i hi => ?_))
  rfl

/-- The report's own block is released when its copy is refused. -/
theorem stateReport_blob_released :
    Built (stateReport (· == 0)).1 (stateReport (· == 0)).2 ∧
    (stateReport (· == 0)).1.blocks = [0] ∧
    (copyTelemetryToQueueItem (some (stateReport (· == 0)).1) (some ⟨none, .telemetry .zero⟩)
      (stateReport (· == 0)).2).2.2.freed = [0] ∧
    ¬ CopyKeepsOwnership (stateReport (· == 0)).1 (some ⟨none, .telemetry .zero⟩)
      (stateReport (· == 0)).2 := by
  have hb : Built (stateReport (· == 0)).1 (stateReport (· == 0)).2 := .call _ (.init _)
  refine ⟨hb, by decide, by decide, fun hkeeps => ?_⟩
  have hok := (copyKeepsOwnership_of_heapMetrics hb.owned (.refl _) _ rfl
    (.inl ⟨rfl, rfl, rfl⟩)).mp hkeeps
  exact absurd hok (by decide)

end Aetus.Firmware
