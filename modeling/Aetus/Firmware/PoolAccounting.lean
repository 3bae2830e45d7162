import Mathlib.Algebra.GroupWithZero.Nat
import Mathlib.Algebra.Order.BigOperators.Group.List
import Aetus.Firmware.UploaderSteps

/-!
The counters of the sample pool against the frames that really own a block, whatever
is enqueued, sent, refused, encoded, posted or dropped, and in whichever order.
-/

set_option autoImplicit false

namespace Aetus.Firmware
open Aetus.Base

def UploaderPc.held : UploaderPc → Option Entry
  | .encoding e => some e
  | .posting e _ => some e
  | .requeueing e => some e
  | .noting e _ _ => some e
  | .releasing e _ => some e
  | _ => none

def QueueItem.isFrame (item : QueueItem) : Bool := item.kind = .signalFrame

def EnqueueCall.unreleased (c : EnqueueCall) : Bool :=
  c.phase = .releasing && c.entry.item.isFrame

def UploaderPc.unreleased : UploaderPc → Nat
  | .releasing e _ => if e.item.isFrame then 1 else 0
  | _ => 0

def State.inflight (s : State) : List QueueItem :=
  (s.ctx.queue ++ s.uploader.held.toList).map Entry.item ++
    s.calls.map fun c => c.entry.item

/-- `unreleased` counts the frames whose fate is counted and whose block is not yet released. -/
structure PoolView where
  items : List QueueItem
  pool : SamplePool
  unreleased : Nat

def poolView (s : State) : PoolView where
  items := s.inflight
  pool := s.ctx.pool
  unreleased := s.uploader.unreleased + s.calls.countP EnqueueCall.unreleased

inductive PoolStep (P : Params) (v : PoolView) : PoolView → Prop where
  | quiet (items : List QueueItem) (hi : v.items.Perm items) : PoolStep P v { v with items := items }
  | refuse : PoolStep P v { v with pool := v.pool.noteFailure }
  | enter (item : QueueItem) (items : List QueueItem) (hitem : item.Frameless)
      (hi : items.Perm (item :: v.items)) : PoolStep P v { v with items := items }
  | alloc (b : SampleBlock) (f : SignalFrame) (items : List QueueItem)
      (hroom : v.pool.heapUsed + b.footprint ≤ P.heapSize) (hsize : b.size = f.samplesSize)
      (hi : items.Perm (⟨some b, .signalFrame f⟩ :: v.items)) :
      PoolStep P v { v with items := items, pool := v.pool.push b }
  | leave (item : QueueItem) (items : List QueueItem) (hitem : item.isFrame = false)
      (hi : v.items.Perm (item :: items)) : PoolStep P v { v with items := items }
  | note (n : PoolNote) (items : List QueueItem) (hi : v.items.Perm items) :
      PoolStep P v ⟨items, v.pool.note n, v.unreleased + 1⟩
  | release (item : QueueItem) (items : List QueueItem) (unreleased : Nat)
      (hitem : item.isFrame = true) (hi : v.items.Perm (item :: items))
      (hu : v.unreleased = unreleased + 1) :
      PoolStep P v ⟨items, v.pool.release item.signalSampleOwner, unreleased⟩

structure NotesFrames (s : State) : Prop where
  uploader : ∀ e n stopped, s.uploader = .noting e n stopped → e.item.isFrame = true
  calls : ∀ c ∈ s.calls, c.phase = .noting → c.entry.item.isFrame = true

theorem settle_cases (e : Entry) (n : PoolNote) (stopped : Bool) :
    (e.item.isFrame = true ∧ settle e n stopped = .noting e n stopped) ∨
      (e.item.isFrame = false ∧ settle e n stopped = .releasing e stopped) := by
  unfold settle QueueItem.isFrame
  cases e.item.kind <;> simp

theorem settle_held (e : Entry) (n : PoolNote) (stopped : Bool) :
    (settle e n stopped).held = some e ∧ (settle e n stopped).unreleased = 0 := by
  rcases settle_cases e n stopped with ⟨hf, hs⟩ | ⟨hf, hs⟩ <;>
    simp [hs, UploaderPc.held, UploaderPc.unreleased, hf]

@[simp] theorem poolView_releaseQueueItem (item : QueueItem) (s : State) :
    poolView (releaseQueueItem item s) = { poolView s with
      pool := if item.isFrame then s.ctx.pool.release item.signalSampleOwner else s.ctx.pool } := by
  unfold releaseQueueItem QueueItem.isFrame QueueItem.kind
  cases item.body <;> rfl

@[simp] theorem poolView_setDone (s : State) : poolView s.setDone = poolView s := by
  unfold State.setDone
  split <;> rfl

theorem poolView_setUploadBit (s : State) (due : Bool) :
    poolView (s.setUploadBit due) = poolView s := by
  unfold State.setUploadBit
  split
  · next hpc => simp [poolView, State.inflight, hpc, UploaderPc.held, UploaderPc.unreleased]
  · split <;> rfl

theorem items_perm_erase {calls : List EnqueueCall} {c : EnqueueCall} (hc : c ∈ calls) :
    (calls.map fun c => c.entry.item).Perm
      (c.entry.item :: (calls.erase c).map fun c => c.entry.item) :=
  (List.perm_cons_erase hc).map _

theorem countP_erase {calls : List EnqueueCall} {c : EnqueueCall} (hc : c ∈ calls) :
    calls.countP EnqueueCall.unreleased =
      (calls.erase c).countP EnqueueCall.unreleased + if c.unreleased then 1 else 0 := by
  rw [(List.perm_cons_erase hc).countP_eq, List.countP_cons]

theorem callStep_pool {P : Params} {s t : State} (hn : NotesFrames s) (h : CallStep P s t) :
    PoolStep P (poolView s) (poolView t) := by
  have hmove {c : EnqueueCall} (hc : c ∈ s.calls) : s.inflight.Perm
      ((s.ctx.queue ++ s.uploader.held.toList).map Entry.item ++
        c.entry.item :: (s.calls.erase c).map fun c => c.entry.item) :=
    (items_perm_erase hc).append_left _
  cases h with
  | refused heap => exact .quiet _ (.refl _)
  | refusedBlock => exact .refuse
  | beginSend heap item hitem => exact .enter item _ hitem List.perm_middle
  | beginFrame b f hroom hsize => exact .alloc b f _ hroom hsize List.perm_middle
  | acceptFromIsr item hitem hroom =>
    refine .enter item _ hitem ?_
    simp [poolView, State.inflight, State.accept, List.perm_middle]
  | send c hc hphase hroom =>
    have hstep := PoolStep.quiet (P := P) (v := poolView s)
      ((s.ctx.queue ++ [c.entry] ++ s.uploader.held.toList).map Entry.item ++
        (s.calls.erase c).map fun c => c.entry.item) ((hmove hc).trans (by
          simpa using (List.perm_middle (a := c.entry.item)).append_left _))
    simpa [poolView, State.inflight, State.accept, countP_erase hc, EnqueueCall.unreleased, hphase]
      using hstep
  | timeoutFrame c hc hphase hkind =>
    have hstep := PoolStep.quiet (P := P) (v := poolView s) _ (hmove hc)
    simpa [poolView, State.inflight, countP_erase hc, EnqueueCall.unreleased, hphase]
      using hstep
  | timeoutTelemetry c hc hphase hkind =>
    have hstep := PoolStep.quiet (P := P) (v := poolView s) _ (hmove hc)
    simpa [poolView, State.inflight, countP_erase hc, EnqueueCall.unreleased, hphase,
      QueueItem.isFrame, hkind] using hstep
  | timeoutStatus c hc hphase hkind =>
    have hstep := PoolStep.leave (P := P) (v := poolView s) c.entry.item
      ((s.ctx.queue ++ s.uploader.held.toList).map Entry.item ++
        (s.calls.erase c).map fun c => c.entry.item) (by simp [QueueItem.isFrame, hkind])
      ((hmove hc).trans List.perm_middle)
    simpa [poolView, State.inflight, countP_erase hc, EnqueueCall.unreleased, hphase]
      using hstep
  | note c hc hphase =>
    have hframe := hn.calls c hc hphase
    have hstep := PoolStep.note (P := P) (v := poolView s) .queueSendFailure _ (hmove hc)
    simpa [poolView, State.inflight, countP_erase hc, EnqueueCall.unreleased, hphase, hframe,
      Nat.add_assoc] using hstep
  | release c hc hphase =>
    have hi := (hmove hc).trans List.perm_middle
    rw [poolView_releaseQueueItem]
    cases hframe : c.entry.item.isFrame with
    | true =>
      have hstep := PoolStep.release (P := P) (v := poolView s) c.entry.item _
        (s.uploader.unreleased + (s.calls.erase c).countP EnqueueCall.unreleased) hframe hi
        (by simp [poolView, countP_erase hc, EnqueueCall.unreleased, hphase, hframe, Nat.add_assoc])
      simpa [poolView, State.inflight, hframe] using hstep
    | false =>
      have hstep := PoolStep.leave (P := P) (v := poolView s) c.entry.item _ hframe hi
      simpa [poolView, State.inflight, countP_erase hc, EnqueueCall.unreleased, hphase, hframe]
        using hstep

theorem uploaderStep_pool {P : Params} {s t : State} {d : Option Entry} (hn : NotesFrames s)
    (h : UploaderStep P s d t) : PoolStep P (poolView s) (poolView t) := by
  have hsame {v : PoolView} (hv : v = poolView s) : PoolStep P (poolView s) v :=
    hv ▸ .quiet _ (.refl _)
  have hsettle {e : Entry} (n : PoolNote) (stopped : Bool) (hheld : s.uploader.held = some e)
      (hun : s.uploader.unreleased = 0) :
      poolView { s with uploader := settle e n stopped } = poolView s := by
    obtain ⟨h1, h2⟩ := settle_held e n stopped
    simp only [poolView, State.inflight, h1, h2, hheld, hun]
  cases h with
  | waitSet hpc | waitBlock hpc | beginPass hpc =>
    apply hsame
    simp [poolView, State.inflight, hpc, UploaderPc.held, UploaderPc.unreleased]
  | connect hpc ok =>
    apply hsame
    cases ok <;> simp [poolView, State.inflight, hpc, UploaderPc.held, UploaderPc.unreleased]
  | receiveNone hpc hq =>
    apply hsame
    simp [poolView, State.inflight, hpc, UploaderPc.held, UploaderPc.unreleased]
  | receive e rest hpc hq =>
    have hperm : (e :: rest).Perm (rest ++ [e]) := (List.perm_append_singleton e rest).symm
    have hstep := PoolStep.quiet (P := P) (v := poolView s)
      ((rest ++ [e]).map Entry.item ++ s.calls.map fun c => c.entry.item) (by
        simpa [poolView, State.inflight, hpc, hq, UploaderPc.held] using
          (hperm.map Entry.item).append_right _)
    simpa [poolView, State.inflight, hpc, UploaderPc.held, UploaderPc.unreleased] using hstep
  | encode e hpc =>
    apply hsame
    simp [poolView, State.inflight, hpc, UploaderPc.held, UploaderPc.unreleased]
  | encodeFailed e hpc | requeueFull e hpc =>
    exact hsame (hsettle _ _ (by simp [hpc, UploaderPc.held]) (by simp [hpc, UploaderPc.unreleased]))
  | posted e stamp hpc =>
    exact hsame (hsettle _ _ (by simp [hpc, UploaderPc.held]) (by simp [hpc, UploaderPc.unreleased]))
  | postLost e stamp hpc | postFailed e stamp hpc =>
    apply hsame
    simp [poolView, State.inflight, hpc, UploaderPc.held, UploaderPc.unreleased]
  | requeue e hpc hroom =>
    have hstep := PoolStep.quiet (P := P) (v := poolView s)
      ((e :: s.ctx.queue).map Entry.item ++ s.calls.map fun c => c.entry.item)
      (by simp [poolView, State.inflight, hpc, UploaderPc.held])
    simpa [poolView, State.inflight, hpc, UploaderPc.held, UploaderPc.unreleased] using hstep
  | note e n stopped hpc =>
    have hstep := PoolStep.note (P := P) (v := poolView s) n _ (.refl _)
    simpa [poolView, State.inflight, hpc, UploaderPc.held, UploaderPc.unreleased,
      hn.uploader e n stopped hpc, Nat.add_comm] using hstep
  | release e stopped hpc =>
    have hafter : (afterRelease stopped).held = none ∧ (afterRelease stopped).unreleased = 0 := by
      cases stopped <;> exact ⟨rfl, rfl⟩
    have hi : s.inflight.Perm (e.item :: (s.ctx.queue.map Entry.item ++
        s.calls.map fun c => c.entry.item)) := by
      simp [State.inflight, hpc, UploaderPc.held, List.perm_middle]
    rw [poolView_releaseQueueItem]
    cases hframe : e.item.isFrame with
    | true =>
      have hstep := PoolStep.release (P := P) (v := poolView s) e.item _
        (s.calls.countP EnqueueCall.unreleased) hframe hi
        (by simp [poolView, hpc, UploaderPc.unreleased, hframe, Nat.add_comm])
      simpa [poolView, State.inflight, hframe, hafter] using hstep
    | false =>
      have hstep := PoolStep.leave (P := P) (v := poolView s) e.item _ hframe hi
      simp only [poolView, State.inflight, hafter.1, hafter.2]
      simpa [poolView, State.inflight, hpc, UploaderPc.unreleased, hframe] using hstep
  | finishPass stopped hpc =>
    apply hsame
    rw [poolView_setDone]
    simp [poolView, State.inflight, hpc, UploaderPc.held, UploaderPc.unreleased]

theorem flushStep_pool {s t : State} {a : Action} (h : FlushStep s a t) :
    poolView t = poolView s := by
  cases h with
  | flag f hf hphase => exact poolView_setUploadBit s false
  | _ => rfl

theorem step_pool {P : Params} {s t : State} {a : Action} (hn : NotesFrames s)
    (h : step P s a = some t) : PoolStep P (poolView s) (poolView t) := by
  cases step_system h with
  | timer ha ht =>
    subst ht
    exact poolView_setUploadBit s true ▸ .quiet _ (.refl _)
  | call hc => exact callStep_pool hn hc
  | uploader hu => exact uploaderStep_pool hn hu
  | flush hf => exact flushStep_pool hf ▸ .quiet _ (.refl _)

theorem callStep_notesFrames {P : Params} {s t : State} (hs : NotesFrames s)
    (h : CallStep P s t) : NotesFrames t := by
  have herase {c : EnqueueCall} {d : EnqueueCall} (hd : d ∈ s.calls.erase c)
      (hphase : d.phase = .noting) : d.entry.item.isFrame = true :=
    hs.calls d (List.mem_of_mem_erase hd) hphase
  have hbegin {k : Heap} {p : SamplePool} {item : QueueItem} :
      NotesFrames ({ s with heap := k, ctx.pool := p }.beginSend item) := by
    refine ⟨hs.uploader, fun d hd hphase => ?_⟩
    rcases List.mem_cons.mp hd with rfl | hd
    · cases hphase
    · exact hs.calls d hd hphase
  cases h with
  | refused heap => exact ⟨hs.uploader, hs.calls⟩
  | refusedBlock => exact ⟨hs.uploader, hs.calls⟩
  | beginSend heap item hitem => exact hbegin
  | beginFrame b f hroom hsize => exact hbegin
  | acceptFromIsr item hitem hroom => exact ⟨hs.uploader, hs.calls⟩
  | send c hc hphase hroom => exact ⟨hs.uploader, fun d hd => herase hd⟩
  | timeoutFrame c hc hphase hkind =>
    refine ⟨hs.uploader, fun d hd hphase => ?_⟩
    rcases List.mem_cons.mp hd with rfl | hd
    · simp [QueueItem.isFrame, hkind]
    · exact herase hd hphase
  | timeoutTelemetry c hc hphase hkind =>
    refine ⟨hs.uploader, fun d hd hphase => ?_⟩
    rcases List.mem_cons.mp hd with rfl | hd
    · cases hphase
    · exact herase hd hphase
  | timeoutStatus c hc hphase hkind => exact ⟨hs.uploader, fun d hd => herase hd⟩
  | note c hc hphase =>
    refine ⟨hs.uploader, fun d hd hphase => ?_⟩
    rcases List.mem_cons.mp hd with rfl | hd
    · cases hphase
    · exact herase hd hphase
  | release c hc hphase =>
    refine ⟨?_, ?_⟩
    · rw [releaseQueueItem_uploader]
      exact hs.uploader
    · rw [releaseQueueItem_calls]
      exact fun d hd => herase hd

theorem uploaderStep_calls {P : Params} {s t : State} {d : Option Entry}
    (h : UploaderStep P s d t) : t.calls = s.calls := by
  cases h with
  | release e stopped hpc => simp
  | finishPass stopped hpc => simp
  | _ => rfl

theorem uploaderStep_notesFrames {P : Params} {s t : State} {d : Option Entry}
    (hs : NotesFrames s) (h : UploaderStep P s d t) : NotesFrames t := by
  refine ⟨fun e n stopped hpc => ?_, by rw [uploaderStep_calls h]; exact hs.calls⟩
  have hsettle {x : Entry} {k : PoolNote} {b : Bool}
      (hx : settle x k b = .noting e n stopped) : e.item.isFrame = true := by
    rcases settle_cases x k b with ⟨hf, heq⟩ | ⟨hf, heq⟩
    · obtain ⟨rfl, -, -⟩ : x = e ∧ k = n ∧ b = stopped := by simpa [heq] using hx
      exact hf
    · simp [heq] at hx
  cases h with
  | encodeFailed x hx => exact hsettle hpc
  | posted x stamp hx => exact hsettle hpc
  | requeueFull x hx => exact hsettle hpc
  | connect hx ok => cases ok <;> cases hpc
  | release x b hx =>
    rw [releaseQueueItem_uploader] at hpc
    cases b <;> cases hpc
  | finishPass b hx =>
    rw [setDone_uploader] at hpc
    cases hpc
  | _ => cases hpc

theorem setUploadBit_notesFrames {s : State} (hs : NotesFrames s) (due : Bool) :
    NotesFrames (s.setUploadBit due) := by
  unfold State.setUploadBit
  split
  · exact ⟨by simp, hs.calls⟩
  · split <;> exact ⟨hs.uploader, hs.calls⟩

theorem step_notesFrames {P : Params} {s t : State} {a : Action} (hs : NotesFrames s)
    (h : step P s a = some t) : NotesFrames t := by
  cases step_system h with
  | timer ha ht =>
    subst ht
    exact setUploadBit_notesFrames hs true
  | call hc => exact callStep_notesFrames hs hc
  | uploader hu => exact uploaderStep_notesFrames hs hu
  | flush hf =>
    cases hf with
    | flag f hf hphase =>
      have hset := setUploadBit_notesFrames hs false
      exact ⟨hset.uploader, hset.calls⟩
    | _ => exact ⟨hs.uploader, hs.calls⟩

def QueueItem.ownedBlocks (item : QueueItem) : Nat :=
  match item.signalSampleOwner with
  | none => 0
  | some _ => 1

def QueueItem.ownedBytes (item : QueueItem) : Nat :=
  match item.signalSampleOwner with
  | none => 0
  | some b => b.size.toNat

/-- Exactly the signal frames own a block, of the size that they declare. -/
def QueueItem.Tracked (item : QueueItem) : Prop :=
  item.Frameless ∨ ∃ b f, item = ⟨some b, .signalFrame f⟩ ∧ b.size = f.samplesSize

/-- The disposals counted so far, under whichever of the four counts. -/
def PoolStats.disposals (stats : PoolStats) : UInt32 :=
  stats.queueSendFailureReleaseCount + stats.validationFailureReleaseCount +
    stats.uploadSuccessReleaseCount + stats.finalDropReleaseCount

/-- The invariant of the pool; `heap` and `room` keep the counters from wrapping. -/
structure PoolInv (P : Params) (v : PoolView) : Prop where
  tracked : ∀ item ∈ v.items, item.Tracked
  heap : v.pool.heapUsed = 4 * (v.items.map QueueItem.ownedBlocks).sum +
    (v.items.map QueueItem.ownedBytes).sum
  room : v.pool.heapUsed ≤ P.heapSize
  blocks : v.pool.stats.allocatedBlocks.toNat = (v.items.map QueueItem.ownedBlocks).sum
  bytes : v.pool.stats.allocatedBytes.toNat = (v.items.map QueueItem.ownedBytes).sum
  balance : v.pool.stats.allocationCount =
    v.pool.stats.releaseCount + v.pool.stats.allocatedBlocks
  disposals : v.pool.stats.disposals = v.pool.stats.releaseCount + UInt32.ofNat v.unreleased
  peakBlocks : v.pool.stats.allocatedBlocks ≤ v.pool.stats.peakAllocatedBlocks
  peakBytes : v.pool.stats.allocatedBytes ≤ v.pool.stats.peakAllocatedBytes

theorem sum_perm_cons {f : QueueItem → Nat} {items rest : List QueueItem} {item : QueueItem}
    (hi : items.Perm (item :: rest)) : (items.map f).sum = f item + (rest.map f).sum := by
  simpa using (hi.map f).sum_eq

theorem PoolInv.perm {P : Params} {v : PoolView} (hv : PoolInv P v) {items : List QueueItem}
    (hi : v.items.Perm items) : PoolInv P { v with items := items } where
  tracked item hitem := hv.tracked item (hi.mem_iff.mpr hitem)
  heap := by
    rw [← (hi.map QueueItem.ownedBlocks).sum_eq, ← (hi.map QueueItem.ownedBytes).sum_eq]
    exact hv.heap
  room := hv.room
  blocks := hv.blocks.trans (hi.map _).sum_eq
  bytes := hv.bytes.trans (hi.map _).sum_eq
  balance := hv.balance
  disposals := hv.disposals
  peakBlocks := hv.peakBlocks
  peakBytes := hv.peakBytes

theorem PoolInv.alloc {P : Params} {v : PoolView} (hv : PoolInv P v) {b : SampleBlock}
    {f : SignalFrame} (hroom : v.pool.heapUsed + b.footprint ≤ P.heapSize)
    (hsize : b.size = f.samplesSize) :
    PoolInv P { v with items := ⟨some b, .signalFrame f⟩ :: v.items, pool := v.pool.push b } := by
  have hlt := P.heapSize_lt
  have hheap := hv.heap
  have hblocks := hv.blocks
  have hbytes := hv.bytes
  simp only [SampleBlock.footprint] at hroom
  have hnewBlocks : (v.pool.stats.allocatedBlocks + 1).toNat =
      v.pool.stats.allocatedBlocks.toNat + 1 := by
    rw [UInt32.toNat_add]
    simp only [UInt32.toNat_one]
    omega
  have hnewBytes : (v.pool.stats.allocatedBytes + b.size).toNat =
      v.pool.stats.allocatedBytes.toNat + b.size.toNat := by
    rw [UInt32.toNat_add]
    omega
  refine ⟨?_, ?_, ?_, ?_, ?_, ?_, ?_, ?_, ?_⟩
  · intro item hitem
    rcases List.mem_cons.mp hitem with rfl | hitem
    · exact .inr ⟨b, f, rfl, hsize⟩
    · exact hv.tracked item hitem
  · simp only [SamplePool.push, SampleBlock.footprint, List.map_cons, List.sum_cons,
      QueueItem.ownedBlocks, QueueItem.ownedBytes]
    omega
  · simpa [SamplePool.push, SampleBlock.footprint] using hroom
  · simp only [SamplePool.push, PoolStats.noteAlloc, List.map_cons, List.sum_cons,
      QueueItem.ownedBlocks]
    omega
  · simp only [SamplePool.push, PoolStats.noteAlloc, List.map_cons, List.sum_cons,
      QueueItem.ownedBytes]
    omega
  · simp only [SamplePool.push, PoolStats.noteAlloc]
    rw [hv.balance, UInt32.add_assoc]
  · exact hv.disposals
  · simp only [SamplePool.push, PoolStats.noteAlloc]
    split
    · exact UInt32.le_refl _
    · next hle => exact UInt32.not_lt.mp hle
  · simp only [SamplePool.push, PoolStats.noteAlloc]
    split
    · exact UInt32.le_refl _
    · next hle => exact UInt32.not_lt.mp hle

theorem QueueItem.Tracked.frame {item : QueueItem} (hi : item.Tracked)
    (hf : item.isFrame = true) : ∃ b, item.signalSampleOwner = some b := by
  rcases hi with ⟨-, hk⟩ | ⟨b, f, rfl, -⟩
  · simp [QueueItem.isFrame, hk] at hf
  · exact ⟨b, rfl⟩

theorem QueueItem.Tracked.frameless {item : QueueItem} (hi : item.Tracked)
    (hf : item.isFrame = false) : item.signalSampleOwner = none := by
  rcases hi with ⟨ho, -⟩ | ⟨b, f, rfl, -⟩
  · exact ho
  · simp [QueueItem.isFrame, QueueItem.kind] at hf

theorem PoolInv.covers {P : Params} {v : PoolView} (hv : PoolInv P v) {item : QueueItem}
    (hitem : item ∈ v.items) {b : SampleBlock} (hb : item.signalSampleOwner = some b) :
    0 < v.pool.stats.allocatedBlocks ∧ b.size ≤ v.pool.stats.allocatedBytes := by
  obtain ⟨rest, hi⟩ : ∃ rest, v.items.Perm (item :: rest) := by
    obtain ⟨xs, ys, hxy⟩ := List.append_of_mem hitem
    exact ⟨xs ++ ys, hxy ▸ List.perm_middle⟩
  have hblocks := hv.blocks.trans (sum_perm_cons hi)
  have hbytes := hv.bytes.trans (sum_perm_cons hi)
  simp only [QueueItem.ownedBlocks, QueueItem.ownedBytes, hb] at hblocks hbytes
  rw [UInt32.lt_iff_toNat_lt, UInt32.le_iff_toNat_le, UInt32.toNat_zero]
  omega

theorem PoolInv.leave {P : Params} {v : PoolView} (hv : PoolInv P v) {item : QueueItem}
    {items : List QueueItem} (hi : v.items.Perm (item :: items)) (hf : item.isFrame = false) :
    PoolInv P { v with items := items } := by
  have hnone : item.signalSampleOwner = none :=
    (hv.tracked item (hi.mem_iff.mpr List.mem_cons_self)).frameless hf
  have hblocks : (v.items.map QueueItem.ownedBlocks).sum =
      (items.map QueueItem.ownedBlocks).sum := by
    rw [sum_perm_cons hi, QueueItem.ownedBlocks, hnone, Nat.zero_add]
  have hbytes : (v.items.map QueueItem.ownedBytes).sum =
      (items.map QueueItem.ownedBytes).sum := by
    rw [sum_perm_cons hi, QueueItem.ownedBytes, hnone, Nat.zero_add]
  exact ⟨fun x hx => hv.tracked x (hi.mem_iff.mpr (List.mem_cons_of_mem _ hx)),
    hblocks ▸ hbytes ▸ hv.heap, hv.room, hblocks ▸ hv.blocks, hbytes ▸ hv.bytes, hv.balance,
    hv.disposals, hv.peakBlocks, hv.peakBytes⟩

theorem PoolInv.enter {P : Params} {v : PoolView} (hv : PoolInv P v) {item : QueueItem}
    (hitem : item.Frameless) : PoolInv P { v with items := item :: v.items } := by
  have hblocks : ((item :: v.items).map QueueItem.ownedBlocks).sum =
      (v.items.map QueueItem.ownedBlocks).sum := by
    rw [List.map_cons, List.sum_cons, QueueItem.ownedBlocks, hitem.1, Nat.zero_add]
  have hbytes : ((item :: v.items).map QueueItem.ownedBytes).sum =
      (v.items.map QueueItem.ownedBytes).sum := by
    rw [List.map_cons, List.sum_cons, QueueItem.ownedBytes, hitem.1, Nat.zero_add]
  refine ⟨fun x hx => ?_, hblocks ▸ hbytes ▸ hv.heap, hv.room, hblocks ▸ hv.blocks,
    hbytes ▸ hv.bytes, hv.balance, hv.disposals, hv.peakBlocks, hv.peakBytes⟩
  rcases List.mem_cons.mp hx with rfl | hx
  · exact .inl hitem
  · exact hv.tracked x hx

theorem UInt32.ofNat_succ (n : Nat) : UInt32.ofNat (n + 1) = UInt32.ofNat n + 1 := by
  rw [UInt32.ofNat_add]
  rfl

theorem PoolStats.note_disposals (stats : PoolStats) (n : PoolNote) :
    (stats.note n).disposals = stats.disposals + 1 := by
  cases n <;> simp only [PoolStats.note, PoolStats.disposals] <;> grind

theorem PoolStats.note_frame (stats : PoolStats) (n : PoolNote) :
    (stats.note n).allocatedBlocks = stats.allocatedBlocks ∧
    (stats.note n).allocatedBytes = stats.allocatedBytes ∧
    (stats.note n).peakAllocatedBlocks = stats.peakAllocatedBlocks ∧
    (stats.note n).peakAllocatedBytes = stats.peakAllocatedBytes ∧
    (stats.note n).allocationCount = stats.allocationCount ∧
    (stats.note n).releaseCount = stats.releaseCount := by
  cases n <;> exact ⟨rfl, rfl, rfl, rfl, rfl, rfl⟩

theorem PoolInv.note {P : Params} {v : PoolView} (hv : PoolInv P v) (n : PoolNote) :
    PoolInv P { v with pool := v.pool.note n, unreleased := v.unreleased + 1 } := by
  obtain ⟨hb, hy, hpb, hpy, hac, hrc⟩ := v.pool.stats.note_frame n
  refine ⟨hv.tracked, hv.heap, hv.room, ?_, ?_, ?_, ?_, ?_, ?_⟩ <;>
    simp only [SamplePool.note, hb, hy, hpb, hpy, hac, hrc]
  · exact hv.blocks
  · exact hv.bytes
  · exact hv.balance
  · rw [PoolStats.note_disposals, hv.disposals, UInt32.ofNat_succ, UInt32.add_assoc]
  · exact hv.peakBlocks
  · exact hv.peakBytes

/-- A release takes one block off each counter; neither saturates. -/
theorem PoolInv.release {P : Params} {v : PoolView} (hv : PoolInv P v) {item : QueueItem}
    {items : List QueueItem} {unreleased : Nat} (hf : item.isFrame = true)
    (hi : v.items.Perm (item :: items)) (hu : v.unreleased = unreleased + 1) :
    PoolInv P ⟨items, v.pool.release item.signalSampleOwner, unreleased⟩ := by
  have hmem := hi.mem_iff.mpr List.mem_cons_self
  obtain ⟨b, hb⟩ := (hv.tracked item hmem).frame hf
  obtain ⟨hpos, hle⟩ := hv.covers hmem hb
  have hblocks := hv.blocks.trans (sum_perm_cons hi)
  have hbytes := hv.bytes.trans (sum_perm_cons hi)
  have hheap := hv.heap
  have hroom := hv.room
  rw [sum_perm_cons hi, sum_perm_cons hi] at hheap
  simp only [QueueItem.ownedBlocks, QueueItem.ownedBytes, hb] at hblocks hbytes hheap
  have hone : (1 : UInt32) ≤ v.pool.stats.allocatedBlocks := by
    rw [UInt32.lt_iff_toNat_lt, UInt32.toNat_zero] at hpos
    rw [UInt32.le_iff_toNat_le, UInt32.toNat_one]
    omega
  have hsubBlocks := UInt32.toNat_sub_of_le _ _ hone
  have hsubBytes := UInt32.toNat_sub_of_le _ _ hle
  rw [UInt32.toNat_one] at hsubBlocks
  refine ⟨?_, ?_, ?_, ?_, ?_, ?_, ?_, ?_, ?_⟩ <;>
    simp only [SamplePool.release, hb, SampleBlock.footprint, PoolStats.noteRelease, hpos, hle,
      if_true]
  · exact fun x hx => hv.tracked x (hi.mem_iff.mpr (List.mem_cons_of_mem _ hx))
  · omega
  · omega
  · omega
  · omega
  · have hbal := hv.balance
    grind
  · have hdis := hv.disposals
    rw [hu, UInt32.ofNat_succ] at hdis
    simp only [PoolStats.disposals] at hdis ⊢
    grind
  · have hpeak := hv.peakBlocks
    rw [UInt32.le_iff_toNat_le] at hpeak ⊢
    omega
  · have hpeak := hv.peakBytes
    rw [UInt32.le_iff_toNat_le] at hpeak ⊢
    omega

theorem PoolStep.inv {P : Params} {v w : PoolView} (h : PoolStep P v w) (hv : PoolInv P v) :
    PoolInv P w := by
  cases h with
  | quiet items hi => exact hv.perm hi
  | refuse => exact { hv with }
  | enter item items hitem hi => exact (hv.enter hitem).perm hi.symm
  | alloc b f items hroom hsize hi => exact (hv.alloc hroom hsize).perm hi.symm
  | leave item items hitem hi => exact hv.leave hi hitem
  | note n items hi => exact (hv.note n).perm hi
  | release item items unreleased hitem hi hu => exact hv.release hitem hi hu

structure PoolTracked (P : Params) (s : State) : Prop where
  notes : NotesFrames s
  inv : PoolInv P (poolView s)

theorem started_poolTracked (P : Params) (bootId : CString) (heap : Heap) :
    PoolTracked P (started bootId heap) where
  notes := ⟨by simp [started], by simp [started]⟩
  inv := ⟨by simp [poolView, started, State.inflight, UploaderPc.held], rfl, Nat.zero_le _, rfl,
    rfl, rfl, rfl, UInt32.le_refl _, UInt32.le_refl _⟩

theorem run_poolTracked {P : Params} {bootId : CString} {heap : Heap} {as : List Action}
    {s : State} (h : run (step P) (started bootId heap) as = some s) : PoolTracked P s :=
  run_invariant (I := PoolTracked P)
    (fun _ _ _ hs h => ⟨step_notesFrames hs.notes h, (step_pool hs.notes h).inv hs.inv⟩)
    (started_poolTracked P bootId heap) h

def QueueItem.frame (item : QueueItem) : Option SignalFrame :=
  match item.body with
  | .signalFrame f => some f
  | _ => none

def frames (items : List QueueItem) : List SignalFrame := items.filterMap QueueItem.frame

theorem QueueItem.Frameless.frame {item : QueueItem} (hi : item.Frameless) :
    item.frame = none := by
  obtain ⟨-, hk⟩ := hi
  unfold QueueItem.frame
  split
  · next f hb => simp [QueueItem.kind, hb] at hk
  · rfl

theorem sums_of_tracked {items : List QueueItem} (hi : ∀ item ∈ items, item.Tracked) :
    (items.map QueueItem.ownedBlocks).sum = (frames items).length ∧
    (items.map QueueItem.ownedBytes).sum = ((frames items).map fun f => f.samplesSize.toNat).sum := by
  induction items with
  | nil => exact ⟨rfl, rfl⟩
  | cons item items ih =>
    obtain ⟨ih1, ih2⟩ := ih fun x hx => hi x (List.mem_cons_of_mem _ hx)
    rcases hi item List.mem_cons_self with hf | ⟨b, f, rfl, hsize⟩
    · have hcons : frames (item :: items) = frames items := by simp [frames, hf.frame]
      simp [hcons, QueueItem.ownedBlocks, QueueItem.ownedBytes, hf.1, ih1, ih2]
    · have hcons : frames (⟨some b, .signalFrame f⟩ :: items) = f :: frames items := rfl
      simp [hcons, QueueItem.ownedBlocks, QueueItem.ownedBytes, ih1, ih2, hsize, Nat.add_comm]

/-- The statistics between enqueue calls: they describe the frames in the queue and in the
uploader's hand. The uploader counts a disposal just before it releases the block. -/
structure PoolConsistent (s : State) : Prop where
  blocks : s.ctx.pool.stats.allocatedBlocks.toNat =
    (frames ((s.ctx.queue ++ s.uploader.held.toList).map Entry.item)).length
  bytes : s.ctx.pool.stats.allocatedBytes.toNat =
    ((frames ((s.ctx.queue ++ s.uploader.held.toList).map Entry.item)).map
      fun f => f.samplesSize.toNat).sum
  balance : s.ctx.pool.stats.allocationCount - s.ctx.pool.stats.releaseCount =
    s.ctx.pool.stats.allocatedBlocks
  releases : s.ctx.pool.stats.releaseCount + UInt32.ofNat s.uploader.unreleased =
    s.ctx.pool.stats.queueSendFailureReleaseCount + s.ctx.pool.stats.validationFailureReleaseCount +
      s.ctx.pool.stats.uploadSuccessReleaseCount + s.ctx.pool.stats.finalDropReleaseCount
  peakBlocks : s.ctx.pool.stats.allocatedBlocks ≤ s.ctx.pool.stats.peakAllocatedBlocks
  peakBytes : s.ctx.pool.stats.allocatedBytes ≤ s.ctx.pool.stats.peakAllocatedBytes

/-- At any moment, whichever block is released next, the release does not saturate. -/
def ReleasesCovered (s : State) : Prop :=
  ∀ item ∈ s.inflight, ∀ b, item.signalSampleOwner = some b →
    0 < s.ctx.pool.stats.allocatedBlocks ∧ b.size ≤ s.ctx.pool.stats.allocatedBytes

theorem run_pool_consistent (P : Params) (bootId : CString) (heap : Heap) (as : List Action)
    (s : State) (h : run (step P) (started bootId heap) as = some s) :
    ReleasesCovered s ∧ (s.calls = [] → PoolConsistent s) := by
  have hinv := (run_poolTracked h).inv
  refine ⟨fun item hitem b hb => hinv.covers hitem hb, fun hcalls => ?_⟩
  have hitems : s.inflight = (s.ctx.queue ++ s.uploader.held.toList).map Entry.item := by
    simp [State.inflight, hcalls]
  obtain ⟨hblocks, hbytes⟩ := sums_of_tracked hinv.tracked
  have hbal := hinv.balance
  have hdis := hinv.disposals
  simp only [poolView, hitems, hcalls, List.countP_nil, Nat.add_zero] at hblocks hbytes hdis hbal
  refine ⟨?_, ?_, ?_, hdis.symm, hinv.peakBlocks, hinv.peakBytes⟩
  · rw [← hblocks, ← hitems]
    exact hinv.blocks
  · rw [← hbytes, ← hitems]
    exact hinv.bytes
  · rw [hbal]
    grind

def imuCall : EnqueueCall :=
  ⟨.sending, 0, some ⟨4, [1, 0, 2, 0]⟩, .signalFrame imuFrame⟩

def frameUpload : List Action :=
  [.enqueueSignalFrame (some imuFrame) true, .send imuCall] ++ passToPost ++
    [.post .accepted, .note, .release, .receive, .finishPass]

theorem frameUpload_pool : ∃ s, run (step oneSlot) oneSlotStart frameUpload = some s ∧
    ReleasesCovered s ∧ (s.calls = [] → PoolConsistent s) := by
  obtain ⟨s, hs⟩ : ∃ s, run (step oneSlot) oneSlotStart frameUpload = some s := ⟨_, rfl⟩
  exact ⟨s, hs, run_pool_consistent oneSlot _ _ frameUpload s hs⟩

end Aetus.Firmware
