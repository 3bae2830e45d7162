import Aetus.Firmware.BuilderCalls
import Aetus.Firmware.Uploader

/-!
Ownership after `aetus_enqueue_telemetry_from_isr`, which queues a bitwise copy: its checks
look at the metrics in use, and a spill array can outlive the metric it was allocated for.
-/

set_option autoImplicit false

namespace Aetus.Firmware
open Aetus.Base

def QueueItem.blocks (item : QueueItem) : List Nat :=
  match item.body with
  | .telemetry t => t.blocks
  | _ => []

/-- Between them the two structures own each block once, and releasing both, in either order,
releases each of these blocks once. -/
structure ReleasedApart (t : Telemetry) (item : QueueItem) (h : Heap) : Prop where
  shared : ∀ p ∈ item.blocks, p ∉ t.blocks
  item_first : ∃ fs, (telemetryDeinit t (releaseTelemetryQueueItem item h).2).2.freed =
    h.freed ++ fs ∧ fs.Perm (t.blocks ++ item.blocks) ∧ fs.Nodup
  caller_first : ∃ fs, (releaseTelemetryQueueItem item (telemetryDeinit t h).2).2.freed =
    h.freed ++ fs ∧ fs.Perm (t.blocks ++ item.blocks) ∧ fs.Nodup

def IsrItemApart (P : Params) (t : Telemetry) (s : State) : Prop :=
  ∃ e, (enqueueTelemetryFromIsr P (some t) s).2.ctx.queue = s.ctx.queue ++ [e] ∧
    ReleasedApart t e.item s.heap

theorem enqueueTelemetryFromIsr_ok {P : Params} {t : Telemetry} {s : State}
    (h : (enqueueTelemetryFromIsr P (some t) s).1 = .ok) :
    (∀ m ∈ t.inlineMetrics.take t.metricCount, m.isBlob = false) ∧
      (enqueueTelemetryFromIsr P (some t) s).2.ctx.queue =
        s.ctx.queue ++ [⟨s.history.nextTicket, none, .telemetry t⟩] := by
  unfold enqueueTelemetryFromIsr at *
  dsimp only at *
  split at h
  · simp at h
  · next hcount =>
    split at h
    · simp at h
    · next hblob =>
      unfold sendFromIsr at *
      split at h
      · next hroom =>
        refine ⟨by simpa using hblob, ?_⟩
        simp only [hcount, hblob, hroom, if_true, if_false]
        rfl
      · simp at h

theorem Metric.blob_of_not_isBlob {m : Metric} (hm : m.isBlob = false) : m.blob = none := by
  unfold Metric.isBlob at hm
  unfold Metric.blob
  split at hm <;> simp_all

theorem Owned.blocks_nil {t : Telemetry} {h : Heap} (ho : Owned t h)
    (hnone : t.heapMetrics = none)
    (hscalar : ∀ m ∈ t.inlineMetrics.take t.metricCount, m.isBlob = false) : t.blocks = [] := by
  have hslots : t.slots = t.inlineMetrics := by
    simp [Telemetry.slots, Telemetry.heapArray, hnone]
  have hunused := ho.unused
  rw [hslots] at hunused
  have hnil : blobs t.inlineMetrics = [] := by
    rw [← blobs_take hunused]
    exact blobs_eq_nil fun m hm => Metric.blob_of_not_isBlob (hscalar m hm)
  simp [Telemetry.blocks, hnone, hslots, hnil]

theorem telemetryDeinit_freed_nil {t : Telemetry} {h : Heap} (ho : Owned t h)
    (hnil : t.blocks = []) : (telemetryDeinit t h).2.freed = h.freed := by
  obtain ⟨fs, hfs, hperm⟩ := telemetryDeinit_frees ho
  rw [hnil] at hperm
  rw [hfs, BlockHeap.freeAll_freed, List.Perm.eq_nil hperm, List.append_nil]

theorem releaseTelemetryQueueItem_nil {t : Telemetry} (h : Heap) (hnil : t.blocks = []) :
    (releaseTelemetryQueueItem ⟨none, .telemetry t⟩ h).2 = h := by
  have hblobs : blobs t.slots = [] := (List.append_eq_nil_iff.mp hnil).2
  have hnone : t.heapMetrics = none := by
    have harr := (List.append_eq_nil_iff.mp hnil).1
    cases ha : t.heapMetrics with
    | none => rfl
    | some a => simp [ha] at harr
  have hinl : blobs (t.inlineMetrics.take t.metricCount) = [] := by
    have hslots : t.slots = t.inlineMetrics := by
      simp [Telemetry.slots, Telemetry.heapArray, hnone]
    rw [hslots] at hblobs
    refine blobs_eq_nil fun m hm => ?_
    cases hb : m.blob with
    | none => rfl
    | some p =>
      have hp : p ∈ blobs t.inlineMetrics := mem_blobs.mpr ⟨m, List.mem_of_mem_take hm, hb⟩
      simp [hblobs] at hp
  simp [releaseTelemetryQueueItem, releaseTelemetry_frees, released, hnone, hinl]

/-- The copy of a structure with a spill array has its name too. -/
theorem not_isrItemApart {P : Params} {t : Telemetry} {s : State}
    (hok : (enqueueTelemetryFromIsr P (some t) s).1 = .ok) (hspill : t.heapMetrics ≠ none) :
    ¬ IsrItemApart P t s := by
  intro ⟨e, he, hapart⟩
  obtain ⟨_, hqueue⟩ := enqueueTelemetryFromIsr_ok hok
  obtain ⟨a, ha⟩ := Option.ne_none_iff_exists'.mp hspill
  rw [hqueue, List.append_cancel_left_eq] at he
  obtain rfl : (⟨s.history.nextTicket, none, .telemetry t⟩ : Entry) = e := by simpa using he
  have hmem : a.block ∈ t.blocks := by simp [Telemetry.blocks, ha]
  exact hapart.shared a.block hmem hmem

theorem isrItemApart_iff (P : Params) (t : Telemetry) (s : State) (hb : Built t s.heap)
    (hok : (enqueueTelemetryFromIsr P (some t) s).1 = .ok) :
    IsrItemApart P t s ↔ t.heapMetrics = none := by
  obtain ⟨hscalar, hqueue⟩ := enqueueTelemetryFromIsr_ok hok
  have ho := hb.owned
  constructor
  · intro hapart
    by_contra hspill
    exact not_isrItemApart hok hspill hapart
  · intro hnone
    have hnil := ho.blocks_nil hnone hscalar
    have hitem : QueueItem.blocks ⟨none, .telemetry t⟩ = [] := hnil
    refine ⟨_, hqueue, ⟨by simp [hitem], ⟨[], ?_, by simp [hnil, hitem]⟩,
      ⟨[], ?_, by simp [hnil, hitem]⟩⟩⟩
    · rw [releaseTelemetryQueueItem_nil s.heap hnil, telemetryDeinit_freed_nil ho hnil,
        List.append_nil]
    · rw [releaseTelemetryQueueItem_nil _ hnil, telemetryDeinit_freed_nil ho hnil,
        List.append_nil]

theorem Built.calls {t : Telemetry} {h : Heap} (hb : Built t h) (cs : List BuilderCall) :
    Built (cs.foldl (fun s c => callBuilder s.1 s.2 c) (t, h)).1
      (cs.foldl (fun s c => callBuilder s.1 s.2 c) (t, h)).2 := by
  induction cs generalizing t h with
  | nil => exact hb
  | cons c cs ih => exact ih (.call c hb)

def fourNumbers : List BuilderCall :=
  List.replicate 4 (.addInt64 1 false (some (.lit "count")) none)

theorem seven_fits : [(7 : UInt8)].length + 1 < 2 ^ 32 := by decide

def refusedFifth : List BuilderCall :=
  fourNumbers ++ [.addBytes (.buffer ⟨[7], seven_fits⟩) false (some (.lit "raw")) none]

def builtBy (cs : List BuilderCall) : BuilderState :=
  cs.foldl (fun s c => callBuilder s.1 s.2 c) (builderStart fun n => n ≠ 1)

def deviceAfter (cs : List BuilderCall) : State := started (.lit "boot-0000002a") (builtBy cs).2

theorem builtBy_built (cs : List BuilderCall) :
    Built (builtBy cs).1 (deviceAfter cs).heap := Built.calls (.init _) cs

theorem fourNumbers_apart :
    IsrItemApart oneSlot (builtBy fourNumbers).1 (deviceAfter fourNumbers) :=
  (isrItemApart_iff oneSlot _ _ (builtBy_built fourNumbers) (by decide +kernel)).mpr
    (by decide +kernel)

/-- The spill array that the refused metric has left is released twice. -/
theorem refusedFifth_not_apart :
    Built (builtBy refusedFifth).1 (deviceAfter refusedFifth).heap ∧
      (enqueueTelemetryFromIsr oneSlot (some (builtBy refusedFifth).1)
        (deviceAfter refusedFifth)).1 = .ok ∧
      ¬ IsrItemApart oneSlot (builtBy refusedFifth).1 (deviceAfter refusedFifth) ∧
      (telemetryDeinit (builtBy refusedFifth).1 (releaseTelemetryQueueItem
        ⟨none, .telemetry (builtBy refusedFifth).1⟩ (deviceAfter refusedFifth).heap).2).2.freed =
          [0, 0] := by
  have hok : (enqueueTelemetryFromIsr oneSlot (some (builtBy refusedFifth).1)
      (deviceAfter refusedFifth)).1 = .ok := by decide +kernel
  refine ⟨builtBy_built refusedFifth, hok, not_isrItemApart hok ?_, ?_⟩
  · decide +kernel
  · decide +kernel

end Aetus.Firmware
