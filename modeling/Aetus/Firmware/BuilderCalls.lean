import Aetus.Base.Runs
import Aetus.Firmware.Ownership

/-!
Whole runs of `aetus_telemetry_init`, the add calls and `aetus_telemetry_deinit` on one
structure: every live block has one owner, and a refused call changes no metric.
-/

set_option autoImplicit false

namespace Aetus.Firmware
open Aetus.Base

def builderResult (t : Telemetry) (h : Heap) : BuilderCall → BuilderResult
  | .setTimestamp ns => (.ok (), { t with timestampNs := ns }, h)
  | .addInt64 v inIsr key unit => telemetryAddInt64 v inIsr t h key unit
  | .addDouble v inIsr key unit => telemetryAddDouble v inIsr t h key unit
  | .addBool v inIsr key unit => telemetryAddBool v inIsr t h key unit
  | .addString v inIsr key unit => telemetryAddString v inIsr t h key unit
  | .addStringN v inIsr key unit => telemetryAddStringN v inIsr t h key unit
  | .addBytes v inIsr key unit => telemetryAddBytes v inIsr t h key unit
  | .deinit => (.ok (), telemetryDeinit t h)

theorem callBuilder_eq (t : Telemetry) (h : Heap) (c : BuilderCall) :
    callBuilder t h c = (builderResult t h c).2 := by
  cases c <;> rfl

abbrev BuilderState := Telemetry × Heap

inductive StructureCall where
  | init
  | builder (c : BuilderCall)

/-- `aetus_telemetry_init` is called only on a structure that owns nothing. -/
def structureStep (s : BuilderState) : StructureCall → Option BuilderState
  | .init => if s.1.blocks = [] then some (telemetryInit, s.2) else none
  | .builder c => some (callBuilder s.1 s.2 c)

/-- How a call changes the live blocks: it keeps the old ones, and the structure owns the
new ones. -/
structure GainsBlocks (t : Telemetry) (h : Heap) (t' : Telemetry) (h' : Heap) : Prop where
  extends_heap : h.Extends h'
  keeps : ∀ p ∈ t.blocks, p ∈ t'.blocks
  owns : ∀ p, h'.Live p → h.Live p ∨ p ∈ t'.blocks

theorem GainsBlocks.refl (t : Telemetry) (h : Heap) : GainsBlocks t h t h :=
  ⟨.refl h, fun _ hp => hp, fun _ hp => .inl hp⟩

theorem GainsBlocks.trans {t t' t'' : Telemetry} {h h' h'' : Heap} (h1 : GainsBlocks t h t' h')
    (h2 : GainsBlocks t' h' t'' h'') : GainsBlocks t h t'' h'' where
  extends_heap := h1.extends_heap.trans h2.extends_heap
  keeps p hp := h2.keeps p (h1.keeps p hp)
  owns p hp := by
    rcases h2.owns p hp with hp | hp
    · exact (h1.owns p hp).imp_right (h2.keeps p)
    · exact .inr hp

def SameMetrics (t t' : Telemetry) : Prop :=
  t'.slots.take t.metricCount = t.slots.take t.metricCount

theorem SameMetrics.setSlot {t t' : Telemetry} (hs : SameMetrics t t')
    (hlen : t'.inlineMetrics.length = AETUS_TELEMETRY_INLINE_METRICS) {i : Nat}
    (hi : t.metricCount ≤ i) (m : Metric) : SameMetrics t (t'.setSlot i m) := by
  rw [SameMetrics, setSlot_slots i m hlen, List.take_set_of_le hi]
  exact hs

theorem live_push {h : Heap} {b : List UInt8} {p : Nat} (hp : (h.push b).Live p) :
    h.Live p ∨ p = h.next := by
  by_cases hpn : p = h.next
  · exact .inr hpn
  · refine .inl ?_
    simpa [BlockHeap.Live, BlockHeap.push, Function.update_of_ne hpn] using hp

/-- A free slot that takes a metric without a blob, on a heap that has at most counted a
refused request. -/
theorem GainsBlocks.setSlot {t : Telemetry} {h h' : Heap} {i : Nat} {old m : Metric}
    (hlen : t.inlineMetrics.length = AETUS_TELEMETRY_INLINE_METRICS)
    (hi : t.slots[i]? = some old) (hold : old.blob = none) (he : h.Extends h')
    (hlive : ∀ p, h'.Live p → h.Live p ∨ m.blob = some p) : GainsBlocks t h (t.setSlot i m) h' where
  extends_heap := he
  keeps p hp := by
    rw [(setSlot_blocks hlen hi hold).mem_iff]
    exact List.mem_append_right _ hp
  owns p hp := by
    rw [(setSlot_blocks hlen hi hold).mem_iff]
    refine (hlive p hp).imp_right fun hm => ?_
    simp [hm]

structure AddEffect (t : Telemetry) (h : Heap) (r : Except Failure Unit) (t' : Telemetry)
    (h' : Heap) : Prop where
  gains : GainsBlocks t h t' h'
  same : SameMetrics t t'
  count : match r with
    | .ok () => t'.metricCount = t.metricCount + 1
    | .error _ => t'.metricCount = t.metricCount

theorem AddEffect.refused (t : Telemetry) (h : Heap) (e : Failure) :
    AddEffect t h (.error e) t h := ⟨.refl t h, rfl, rfl⟩

theorem reserveHeapMetrics_gains {inIsr : Bool} {t t' : Telemetry} {h h' : Heap}
    {r : Except Failure Unit} (ho : Owned t h)
    (hr : reserveHeapMetrics inIsr t h = (r, t', h')) :
    GainsBlocks t h t' h' ∧ SameMetrics t t' ∧ (∀ e, r = .error e → t' = t) := by
  unfold reserveHeapMetrics at hr
  split at hr
  · next hneed =>
    split at hr
    · cases hr
      exact ⟨.refl t h, rfl, by simp⟩
    · by_cases hg : h.grant h.asked = true
      · rw [BlockHeap.alloc_granted _ hg] at hr
        cases hr
        have hzero : blobs (List.replicate heapSlots Metric.zero) = [] := by decide
        have hle : t.metricCount ≤ t.inlineMetrics.length := by
          have hspill := ho.heap_of_count
          rw [ho.inline_length]
          by_contra hgt
          exact hspill (by omega) hneed.2
        refine ⟨⟨h.extends_push [], fun p hp => ?_, fun p hp => ?_⟩, ?_, by simp⟩
        · simp [Telemetry.blocks, Telemetry.slots, Telemetry.heapArray, hneed.2] at hp
          simp [Telemetry.blocks, Telemetry.slots, Telemetry.heapArray, blobs_append, hp]
        · refine (live_push hp).imp_right fun hp => ?_
          simp [Telemetry.blocks, hp]
        · simp [SameMetrics, Telemetry.slots, Telemetry.heapArray, hneed.2,
            List.take_append_of_le_length hle]
      · rw [BlockHeap.alloc_refused _ (by simpa using hg)] at hr
        cases hr
        exact ⟨⟨h.extends_refuse, fun _ hp => hp, fun _ hp => .inl hp⟩, rfl, by simp⟩
  · cases hr
    exact ⟨.refl t h, rfl, by simp⟩

theorem appendMetric_effect {inIsr : Bool} {t t' : Telemetry} {h h' : Heap}
    {r : Except Failure Unit} {key unit : Option CString} (ho : Owned t h)
    (hr : appendMetric inIsr t h key unit = (r, t', h')) : AddEffect t h r t' h' := by
  unfold appendMetric at hr
  split at hr
  · cases hr
    exact .refused t h _
  · next hcheck =>
    obtain ⟨-, -, -, hlt⟩ := checkMetric_eq_ok.mp hcheck
    split at hr
    · next e t1 h1 hres =>
      obtain ⟨hgains, hsame, hkept⟩ := reserveHeapMetrics_gains ho hres
      cases hr
      exact ⟨hgains, hsame, by rw [hkept e rfl]⟩
    · next t1 h1 hres =>
      obtain ⟨hgains, hsame, -⟩ := reserveHeapMetrics_gains ho hres
      obtain ⟨ho1, hcount, hheap⟩ := reserveHeapMetrics_owned ho hres
      obtain ⟨old, hold, hblob⟩ := ho1.next_slot (by omega) (hheap rfl)
      have hset := GainsBlocks.setSlot (m := blankMetric key unit) ho1.inline_length hold hblob
        (.refl h1) fun _ hp => .inl hp
      have hsame' := hsame.setSlot ho1.inline_length hcount.ge (blankMetric key unit)
      cases hr
      exact ⟨⟨(hgains.trans hset).extends_heap, (hgains.trans hset).keeps,
        (hgains.trans hset).owns⟩, hsame', by simp [hcount]⟩

theorem AddEffect.fill {t t1 : Telemetry} {h h1 h2 : Heap} {old m : Metric}
    (ha : AddEffect t h (.ok ()) t1 h1) (ho : Owned t1 h1)
    (hold : t1.slots[t1.metricCount - 1]? = some old) (hblob : old.blob = none)
    (he : h1.Extends h2) (hlive : ∀ p, h2.Live p → h1.Live p ∨ m.blob = some p) :
    AddEffect t h (.ok ()) (t1.setSlot (t1.metricCount - 1) m) h2 := by
  have hcount : t1.metricCount = t.metricCount + 1 := ha.count
  refine ⟨ha.gains.trans (.setSlot ho.inline_length hold hblob he hlive), ?_, ?_⟩
  · exact ha.same.setSlot ho.inline_length (by omega) m
  · simp [hcount]

theorem AddEffect.undo {t t1 : Telemetry} {h h1 : Heap} {old : Metric} (e : Failure)
    (ha : AddEffect t h (.ok ()) t1 h1) (ho : Owned t1 h1)
    (hold : t1.slots[t1.metricCount - 1]? = some old) (hblob : old.blob = none) :
    AddEffect t h (.error e) (undoAppend t1) h1.refuse := by
  have hcount : t1.metricCount = t.metricCount + 1 := ha.count
  have hset := GainsBlocks.setSlot (m := Metric.zero) ho.inline_length hold hblob h1.extends_refuse
    fun _ hp => .inl hp
  have hgains := ha.gains.trans hset
  refine ⟨⟨hgains.extends_heap, hgains.keeps, hgains.owns⟩, ?_, ?_⟩
  · exact ha.same.setSlot ho.inline_length (by omega) .zero
  · simp [undoAppend, hcount]

theorem AddOutcome.effect {filled : Heap → Metric → Prop} {inIsr : Bool} {t t' : Telemetry}
    {h h' : Heap} {key unit : Option CString} {r : Except Failure Unit} (ho : Owned t h)
    (ha : AddOutcome filled inIsr t h key unit r t' h') : AddEffect t h r t' h' := by
  cases ha with
  | rejected e => exact .refused t h e
  | notAppended happ => exact appendMetric_effect ho happ
  | noBlob e happ =>
    obtain ⟨ho1, hslot⟩ := appendMetric_owned ho happ
    obtain ⟨_, old, hold, hblob⟩ := hslot rfl
    exact (appendMetric_effect ho happ).undo e ho1 hold hblob
  | inPlace value size happ hv =>
    obtain ⟨ho1, hslot⟩ := appendMetric_owned ho happ
    obtain ⟨_, old, hold, hblob⟩ := hslot rfl
    exact (appendMetric_effect ho happ).fill ho1 hold hblob (.refl _) fun _ hp => .inl hp
  | withBlob value size b happ hv =>
    obtain ⟨ho1, hslot⟩ := appendMetric_owned ho happ
    obtain ⟨_, old, hold, hblob⟩ := hslot rfl
    exact (appendMetric_effect ho happ).fill ho1 hold hblob (BlockHeap.extends_push _ b)
      fun p hp => (live_push hp).imp_right fun heq => hv.trans (congrArg some heq.symm)

def BuilderCall.isAdd : BuilderCall → Bool
  | .setTimestamp _ => false
  | .deinit => false
  | _ => true

theorem builderResult_effect {t t' : Telemetry} {h h' : Heap} {r : Except Failure Unit}
    {c : BuilderCall} (ho : Owned t h) (hc : c.isAdd = true)
    (hr : builderResult t h c = (r, t', h')) : AddEffect t h r t' h' := by
  cases c with
  | setTimestamp ns => simp [BuilderCall.isAdd] at hc
  | addInt64 v inIsr key unit => exact (addScalar_outcome rfl hr).effect ho
  | addDouble bits inIsr key unit => exact (addScalar_outcome rfl hr).effect ho
  | addBool v inIsr key unit => exact (addScalar_outcome rfl hr).effect ho
  | addString v inIsr key unit =>
    cases v with
    | none =>
      cases hr
      exact .refused t h _
    | some b =>
      change telemetryAddStringN (.buffer b.text) inIsr t h key unit = _ at hr
      exact (telemetryAddStringN_outcome hr).effect ho
  | addStringN v inIsr key unit => exact (telemetryAddStringN_outcome hr).effect ho
  | addBytes v inIsr key unit => exact (telemetryAddBytes_outcome hr).effect ho
  | deinit => simp [BuilderCall.isAdd] at hc

inductive Owner where
  | slot (i : Nat)
  | heapMetrics
  deriving DecidableEq

def Telemetry.pointer (t : Telemetry) : Owner → Option Nat
  | .slot i => t.slots[i]?.bind Metric.blob
  | .heapMetrics => t.heapMetrics.map MetricArray.block

theorem mem_blobs_of_slot {ms : List Metric} {i p : Nat}
    (hi : ms[i]?.bind Metric.blob = some p) : p ∈ blobs ms := by
  obtain ⟨m, hm, hmp⟩ := Option.bind_eq_some_iff.mp hi
  exact mem_blobs.mpr ⟨m, List.mem_of_getElem? hm, hmp⟩

theorem mem_blocks {t : Telemetry} {p : Nat} : p ∈ t.blocks ↔ ∃ o, t.pointer o = some p := by
  constructor
  · intro hp
    rcases List.mem_append.mp hp with hp | hp
    · refine ⟨.heapMetrics, ?_⟩
      cases ha : t.heapMetrics <;> simp_all [Telemetry.pointer]
    · obtain ⟨m, hm, hmp⟩ := mem_blobs.mp hp
      obtain ⟨i, hi⟩ := List.mem_iff_getElem?.mp hm
      exact ⟨.slot i, by simp [Telemetry.pointer, hi, hmp]⟩
  · intro ⟨o, ho⟩
    cases o with
    | slot i => exact List.mem_append_right _ (mem_blobs_of_slot ho)
    | heapMetrics =>
      obtain ⟨a, ha, hap⟩ := Option.map_eq_some_iff.mp ho
      refine List.mem_append_left _ ?_
      simp [ha, hap]

theorem blobs_index {ms : List Metric} {i j p : Nat} (hnd : (blobs ms).Nodup)
    (hi : ms[i]?.bind Metric.blob = some p) (hj : ms[j]?.bind Metric.blob = some p) : i = j := by
  induction ms generalizing i j with
  | nil => simp at hi
  | cons m ms ih =>
    rw [blobs_cons, List.nodup_append] at hnd
    obtain ⟨-, hnd, hdisj⟩ := hnd
    cases i with
    | zero =>
      cases j with
      | zero => rfl
      | succ j =>
        have hmem : p ∈ blobs ms := mem_blobs_of_slot (i := j) (by simpa using hj)
        exact absurd rfl (hdisj p (by simpa using hi) p hmem)
    | succ i =>
      cases j with
      | zero =>
        have hmem : p ∈ blobs ms := mem_blobs_of_slot (i := i) (by simpa using hi)
        exact absurd rfl (hdisj p (by simpa using hj) p hmem)
      | succ j =>
        have hij : i = j := ih hnd (by simpa using hi) (by simpa using hj)
        rw [hij]

theorem Owned.pointer_unique {t : Telemetry} {h : Heap} (ho : Owned t h) {o o' : Owner} {p : Nat}
    (hp : t.pointer o = some p) (hp' : t.pointer o' = some p) : o = o' := by
  have hnd := List.nodup_append.mp ho.nodup
  have harray : t.pointer .heapMetrics = some p →
      p ∈ t.heapMetrics.toList.map MetricArray.block := fun ha => by
    obtain ⟨a, ha, hap⟩ := Option.map_eq_some_iff.mp ha
    simp [ha, hap]
  cases o with
  | slot i =>
    cases o' with
    | slot j => exact congrArg Owner.slot (blobs_index hnd.2.1 hp hp')
    | heapMetrics => exact absurd rfl (hnd.2.2 p (harray hp') p (mem_blobs_of_slot hp))
  | heapMetrics =>
    cases o' with
    | slot j => exact absurd rfl (hnd.2.2 p (harray hp) p (mem_blobs_of_slot hp'))
    | heapMetrics => rfl

/-- The invariant of the runs: `Owned`, and no live block lies outside the structure. -/
structure SoleOwner (s : BuilderState) : Prop where
  owned : Owned s.1 s.2
  covers : ∀ p, s.2.Live p → p ∈ s.1.blocks

theorem freeAll_live {h : Heap} {fs : List Nat} {p : Nat} (hp : (h.freeAll fs).Live p) :
    h.Live p ∧ p ∉ fs := by
  induction fs generalizing h with
  | nil => exact ⟨hp, by simp⟩
  | cons q fs ih =>
    obtain ⟨hlive, hnot⟩ := ih hp
    by_cases hpq : p = q
    · simp [hpq, BlockHeap.Live, BlockHeap.free] at hlive
    · refine ⟨?_, by simp [hpq, hnot]⟩
      simpa [BlockHeap.Live, BlockHeap.free, Function.update_of_ne hpq] using hlive

theorem SoleOwner.builder {s : BuilderState} (hs : SoleOwner s) (c : BuilderCall) :
    SoleOwner (callBuilder s.1 s.2 c) := by
  refine ⟨callBuilder_owned c hs.owned, fun p hp => ?_⟩
  by_cases hc : c.isAdd = true
  · rw [callBuilder_eq] at hp ⊢
    have heff := builderResult_effect (t := s.1) (h := s.2) hs.owned hc rfl
    rcases heff.gains.owns p hp with hp | hp
    · exact heff.gains.keeps p (hs.covers p hp)
    · exact hp
  · cases c with
    | setTimestamp ns => exact hs.covers p hp
    | deinit =>
      obtain ⟨fs, hfs, hperm⟩ := telemetryDeinit_frees hs.owned
      have hlive : (s.2.freeAll fs).Live p := hfs ▸ hp
      obtain ⟨hlive, hnot⟩ := freeAll_live hlive
      exact absurd (hperm.mem_iff.mpr (hs.covers p hlive)) hnot
    | _ => simp [BuilderCall.isAdd] at hc

theorem structureStep_soleOwner (s : BuilderState) (a : StructureCall) (s' : BuilderState)
    (hs : SoleOwner s) (h : structureStep s a = some s') : SoleOwner s' := by
  cases a with
  | init =>
    obtain ⟨hnil, rfl⟩ : s.1.blocks = [] ∧ (telemetryInit, s.2) = s' := by
      simpa [structureStep] using h
    refine ⟨Owned.init s.2, fun p hp => ?_⟩
    have hmem := hs.covers p hp
    simp [hnil] at hmem
  | builder c =>
    obtain rfl : callBuilder s.1 s.2 c = s' := by simpa [structureStep] using h
    exact hs.builder c

def builderStart (grant : Nat → Bool) : BuilderState := (telemetryInit, .empty grant)

theorem builderStart_soleOwner (grant : Nat → Bool) : SoleOwner (builderStart grant) :=
  ⟨Owned.init _, fun _ hp => absurd rfl hp⟩

def RefusalKeepsMetrics (t : Telemetry) (h : Heap) : Prop :=
  ∀ c e t' h', c.isAdd = true → builderResult t h c = (.error e, t', h') →
    t'.metricCount = t.metricCount ∧ SameMetrics t t' ∧ ∀ p ∈ t.blocks, h'.block p = h.block p

def DeinitFreesLive (t : Telemetry) (h : Heap) : Prop :=
  ∃ fs, (telemetryDeinit t h).2.freed = h.freed ++ fs ∧ fs.Nodup ∧ ∀ p, p ∈ fs ↔ h.Live p

structure BuilderSafe (t : Telemetry) (h : Heap) : Prop where
  count_le : t.metricCount ≤ AETUS_MAX_METRICS
  spilled : AETUS_TELEMETRY_INLINE_METRICS < t.metricCount →
    ∃ a, t.heapMetrics = some a ∧ h.Live a.block ∧ a.slots.length = heapSlots
  owner : ∀ p, h.Live p ↔ ∃ o, t.pointer o = some p
  owner_unique : ∀ o o' p, t.pointer o = some p → t.pointer o' = some p → o = o'
  used : ∀ i p, t.pointer (.slot i) = some p → i < t.metricCount
  refusal : RefusalKeepsMetrics t h
  deinit : DeinitFreesLive t h

theorem SoleOwner.safe {s : BuilderState} (hs : SoleOwner s) : BuilderSafe s.1 s.2 where
  count_le := hs.owned.count_le
  spilled hlt := by
    obtain ⟨a, ha⟩ := Option.ne_none_iff_exists'.mp (hs.owned.heap_of_count hlt)
    refine ⟨a, ha, hs.owned.live _ ?_, hs.owned.heap_length a ha⟩
    simp [Telemetry.blocks, ha]
  owner p := by
    rw [← mem_blocks]
    exact ⟨hs.covers p, hs.owned.live p⟩
  owner_unique o o' p ho ho' := hs.owned.pointer_unique ho ho'
  used i p hp := by
    obtain ⟨m, hm, hmp⟩ := Option.bind_eq_some_iff.mp hp
    by_contra hle
    have hdrop : m ∈ s.1.slots.drop s.1.metricCount := by
      refine List.mem_iff_getElem?.mpr ⟨i - s.1.metricCount, ?_⟩
      rw [List.getElem?_drop, Nat.add_sub_cancel' (by omega)]
      exact hm
    simp [hs.owned.unused m hdrop] at hmp
  refusal c e t' h' hc hr := by
    have heff := builderResult_effect hs.owned hc hr
    exact ⟨heff.count, heff.same, fun p hp => heff.gains.extends_heap.block (hs.owned.live p hp)⟩
  deinit := by
    obtain ⟨fs, hfs, hperm⟩ := telemetryDeinit_frees hs.owned
    refine ⟨fs, by rw [hfs, BlockHeap.freeAll_freed], hperm.nodup_iff.mpr hs.owned.nodup, ?_⟩
    intro p
    rw [hperm.mem_iff]
    exact ⟨hs.owned.live p, hs.covers p⟩

theorem structure_run_safe (grant : Nat → Bool) (calls : List StructureCall) (s : BuilderState)
    (h : run structureStep (builderStart grant) calls = some s) : BuilderSafe s.1 s.2 :=
  (run_invariant structureStep_soleOwner (builderStart_soleOwner grant) h).safe

def spillAfterRefusal : List StructureCall :=
  List.replicate 4 (.builder (.addInt64 1 false (some (.lit "count")) none)) ++
  [.builder (.addBytes (.buffer ⟨[7], by decide⟩) false (some (.lit "raw")) none),
   .builder (.addBytes (.buffer ⟨[7], by decide⟩) false (some (.lit "raw")) none)]

theorem spillAfterRefusal_safe : ∃ s,
    run structureStep (builderStart fun n => n ≠ 1) spillAfterRefusal = some s ∧
      s.1.metricCount = 5 ∧ BuilderSafe s.1 s.2 := by
  obtain ⟨s, hs⟩ : ∃ s, run structureStep (builderStart fun n => n ≠ 1) spillAfterRefusal =
    some s := ⟨_, rfl⟩
  have hcount : (run structureStep (builderStart fun n => n ≠ 1) spillAfterRefusal).map
      (fun s => s.1.metricCount) = some 5 := by decide +kernel
  rw [hs] at hcount
  exact ⟨s, hs, Option.some.inj hcount, structure_run_safe _ spillAfterRefusal s hs⟩

end Aetus.Firmware
