import Aetus.Firmware.Uploader

/-!
What a step of the uploader system can do, with its guards: one constructor for each
effect. The invariants of the later modules are proved from these lists.
-/

set_option autoImplicit false

namespace Aetus.Firmware
open Aetus.Base

section Frames

variable (item : QueueItem) (s : State)

theorem releaseQueueItem_frame : releaseQueueItem item s =
    { s with heap := (releaseQueueItem item s).heap
             ctx.pool := (releaseQueueItem item s).ctx.pool } := by
  unfold releaseQueueItem
  split <;> rfl

@[simp] theorem releaseQueueItem_uploader : (releaseQueueItem item s).uploader = s.uploader := by
  rw [releaseQueueItem_frame]

@[simp] theorem releaseQueueItem_calls : (releaseQueueItem item s).calls = s.calls := by
  rw [releaseQueueItem_frame]

@[simp] theorem releaseQueueItem_flushes : (releaseQueueItem item s).flushes = s.flushes := by
  rw [releaseQueueItem_frame]

@[simp] theorem releaseQueueItem_history : (releaseQueueItem item s).history = s.history := by
  rw [releaseQueueItem_frame]

@[simp] theorem releaseQueueItem_uploadDone :
    (releaseQueueItem item s).ctx.uploadDone = s.ctx.uploadDone := by
  rw [releaseQueueItem_frame]

@[simp] theorem setDone_uploader : s.setDone.uploader = s.uploader := by
  unfold State.setDone
  split <;> rfl

@[simp] theorem setDone_calls : s.setDone.calls = s.calls := by
  unfold State.setDone
  split <;> rfl

@[simp] theorem setDone_history : s.setDone.history = s.history := by
  unfold State.setDone
  split <;> rfl

end Frames

def QueueItem.Frameless (item : QueueItem) : Prop :=
  item.signalSampleOwner = none ∧ item.kind ≠ .signalFrame

inductive CallStep (P : Params) (s : State) : State → Prop where
  | refused (heap : Heap) : CallStep P s { s with heap := heap }
  | refusedBlock : CallStep P s { s with ctx.pool := s.ctx.pool.noteFailure }
  | beginSend (heap : Heap) (item : QueueItem) (hitem : item.Frameless) :
      CallStep P s ({ s with heap := heap }.beginSend item)
  | beginFrame (b : SampleBlock) (f : SignalFrame)
      (hroom : s.ctx.pool.heapUsed + b.footprint ≤ P.heapSize) (hsize : b.size = f.samplesSize) :
      CallStep P s ({ s with ctx.pool := s.ctx.pool.push b }.beginSend ⟨some b, .signalFrame f⟩)
  | acceptFromIsr (item : QueueItem) (hitem : item.Frameless)
      (hroom : s.ctx.queue.length < P.queueDepth) :
      CallStep P s { s.accept ⟨s.history.nextTicket, item⟩ with
        history.nextTicket := s.history.nextTicket + 1 }
  | send (c : EnqueueCall) (hc : c ∈ s.calls) (hphase : c.phase = .sending)
      (hroom : s.ctx.queue.length < P.queueDepth) :
      CallStep P s ({ s with calls := s.calls.erase c }.accept c.entry)
  | timeoutFrame (c : EnqueueCall) (hc : c ∈ s.calls) (hphase : c.phase = .sending)
      (hkind : c.entry.item.kind = .signalFrame) :
      CallStep P s { s with calls := ⟨.noting, c.entry⟩ :: s.calls.erase c }
  | timeoutTelemetry (c : EnqueueCall) (hc : c ∈ s.calls) (hphase : c.phase = .sending)
      (hkind : c.entry.item.kind = .telemetry) :
      CallStep P s { s with calls := ⟨.releasing, c.entry⟩ :: s.calls.erase c }
  | timeoutStatus (c : EnqueueCall) (hc : c ∈ s.calls) (hphase : c.phase = .sending)
      (hkind : c.entry.item.kind = .status) :
      CallStep P s { s with calls := s.calls.erase c }
  | note (c : EnqueueCall) (hc : c ∈ s.calls) (hphase : c.phase = .noting) :
      CallStep P s { s with
        calls := ⟨.releasing, c.entry⟩ :: s.calls.erase c
        ctx.pool := s.ctx.pool.note .queueSendFailure }
  | release (c : EnqueueCall) (hc : c ∈ s.calls) (hphase : c.phase = .releasing) :
      CallStep P s (releaseQueueItem c.entry.item { s with calls := s.calls.erase c })

theorem copyTelemetryToQueueItem_frameless {t : Telemetry} {old item : QueueItem}
    {h h' : Heap} {err : EspErr}
    (hc : copyTelemetryToQueueItem (some t) (some old) h = (err, some item, h')) :
    item.Frameless := by
  simp only [copyTelemetryToQueueItem] at hc
  split at hc
  · cases hc
    exact ⟨rfl, by simp [QueueItem.kind]⟩
  · split at hc
    · cases hc
      exact ⟨rfl, by simp [QueueItem.kind]⟩
    · cases hc
      exact ⟨rfl, by simp [QueueItem.kind, releaseTelemetryQueueItem]⟩

theorem enqueueTelemetry_step (P : Params) (t : Option Telemetry) (s : State) :
    CallStep P s (enqueueTelemetry t s).2 := by
  unfold enqueueTelemetry
  split
  · exact .refused s.heap
  · split
    · next item heap hc => exact .beginSend heap item (copyTelemetryToQueueItem_frameless hc)
    · exact .refused _

theorem enqueueSignalFrame_step (P : Params) (f : Option SignalFrame) (granted : Bool)
    (s : State) : CallStep P s (enqueueSignalFrame P f granted s).2 := by
  unfold enqueueSignalFrame
  split
  · exact .refused s.heap
  · next f =>
    split
    · exact .refused s.heap
    · rcases s.ctx.pool.alloc_cases P.heapSize granted f.samplesSize (f.samples.getD [])
        with ha | ⟨ha, hroom⟩
      · simp only [ha]
        exact .refusedBlock
      · simp only [ha]
        exact .beginFrame _ _ hroom rfl

theorem sendFromIsr_step (P : Params) {item : QueueItem} (hitem : item.Frameless) (s : State) :
    CallStep P s (sendFromIsr P item s).2 := by
  unfold sendFromIsr
  split
  · next hroom => exact .acceptFromIsr item hitem hroom
  · exact .refused s.heap

theorem stepCall_step {P : Params} {s t : State} {a : Action} (h : stepCall P s a = some t) :
    CallStep P s t := by
  have hframeless (tel : Telemetry) : (⟨none, .telemetry tel⟩ : QueueItem).Frameless :=
    ⟨rfl, by simp [QueueItem.kind]⟩
  have hstatus (st : Status) : (⟨none, .status st⟩ : QueueItem).Frameless :=
    ⟨rfl, by simp [QueueItem.kind]⟩
  cases a <;> simp only [stepCall, Option.ite_none_right_eq_some, Option.some.injEq,
    reduceCtorEq] at h
  case enqueueTelemetry tel =>
    subst h
    exact enqueueTelemetry_step P tel s
  case enqueueSignalFrame f granted =>
    subst h
    exact enqueueSignalFrame_step P f granted s
  case enqueueStatus st =>
    subst h
    cases st with
    | none => exact .refused s.heap
    | some st => exact .beginSend s.heap _ (hstatus st)
  case enqueueTelemetryFromIsr tel =>
    subst h
    unfold enqueueTelemetryFromIsr
    split
    · exact .refused s.heap
    · split
      · exact .refused s.heap
      · split
        · exact .refused s.heap
        · exact sendFromIsr_step P (hframeless _) s
  case enqueueStatusFromIsr st =>
    subst h
    cases st with
    | none => exact .refused s.heap
    | some st => exact sendFromIsr_step P (hstatus st) s
  case send c =>
    obtain ⟨⟨hc, hphase, hroom⟩, rfl⟩ := h
    exact .send c hc hphase hroom
  case sendTimeout c =>
    obtain ⟨⟨hc, hphase, _⟩, ht⟩ := h
    split at ht
    · next hkind =>
      cases ht
      exact .timeoutTelemetry c hc hphase hkind
    · next hkind =>
      cases ht
      exact .timeoutFrame c hc hphase hkind
    · next hkind =>
      cases ht
      exact .timeoutStatus c hc hphase hkind
  case noteCall c =>
    obtain ⟨⟨hc, hphase⟩, rfl⟩ := h
    exact .note c hc hphase
  case releaseCall c =>
    obtain ⟨⟨hc, hphase⟩, rfl⟩ := h
    exact .release c hc hphase

/-- The item a step of the uploader gives up without having seen an upload of it. -/
def droppedBy (P : Params) (s : State) (a : Action) : Option Entry :=
  match s.uploader, a with
  | .encoding e, .encode ok => if encodeSucceeds e.item ok then none else some e
  | .requeueing e, .requeue => if s.ctx.queue.length < P.queueDepth then none else some e
  | _, _ => none

/-- The second index is the item dropped by the step. -/
inductive UploaderStep (P : Params) (s : State) : Option Entry → State → Prop where
  | waitSet (hpc : s.uploader = .looping) :
      UploaderStep P s none
        { s with uploader := .woken, ctx.uploadDue := false, ctx.uploadFlush := false }
  | waitBlock (hpc : s.uploader = .looping) :
      UploaderStep P s none { s with uploader := .blocked }
  | beginPass (hpc : s.uploader = .woken) :
      UploaderStep P s none { s with
        uploader := .connecting
        history.passesStarted := s.history.passesStarted + 1 }
  | connect (hpc : s.uploader = .connecting) (ok : Bool) :
      UploaderStep P s none { s with uploader := if ok then .receiving else .finishing true }
  | receiveNone (hpc : s.uploader = .receiving) (hq : s.ctx.queue = []) :
      UploaderStep P s none { s with uploader := .finishing false }
  | receive (e : Entry) (rest : List Entry) (hpc : s.uploader = .receiving)
      (hq : s.ctx.queue = e :: rest) :
      UploaderStep P s none { s with uploader := .encoding e, ctx.queue := rest }
  | encode (e : Entry) (hpc : s.uploader = .encoding e) :
      UploaderStep P s none
        { s with uploader := .posting e ⟨s.ctx.bootId, s.ctx.sequence⟩ }
  | encodeFailed (e : Entry) (hpc : s.uploader = .encoding e) :
      UploaderStep P s (some e) { s with
        uploader := settle e .validationFailure false
        history.droppedEncode := e :: s.history.droppedEncode }
  | posted (e : Entry) (stamp : Stamp) (hpc : s.uploader = .posting e stamp) :
      UploaderStep P s none { s with
        uploader := settle e .uploadSuccess false
        ctx.sequence := s.ctx.sequence + 1
        history.uploaded := s.history.uploaded ++ [e]
        history.server := (stamp, e) :: s.history.server }
  | postLost (e : Entry) (stamp : Stamp) (hpc : s.uploader = .posting e stamp) :
      UploaderStep P s none { s with
        uploader := .requeueing e
        history.server := (stamp, e) :: s.history.server }
  | postFailed (e : Entry) (stamp : Stamp) (hpc : s.uploader = .posting e stamp) :
      UploaderStep P s none { s with uploader := .requeueing e }
  | requeue (e : Entry) (hpc : s.uploader = .requeueing e)
      (hroom : s.ctx.queue.length < P.queueDepth) :
      UploaderStep P s none
        { s with uploader := .finishing true, ctx.queue := e :: s.ctx.queue }
  | requeueFull (e : Entry) (hpc : s.uploader = .requeueing e) :
      UploaderStep P s (some e) { s with
        uploader := settle e .finalDrop true
        history.droppedFull := e :: s.history.droppedFull }
  | note (e : Entry) (n : PoolNote) (stopped : Bool) (hpc : s.uploader = .noting e n stopped) :
      UploaderStep P s none
        { s with uploader := .releasing e stopped, ctx.pool := s.ctx.pool.note n }
  | release (e : Entry) (stopped : Bool) (hpc : s.uploader = .releasing e stopped) :
      UploaderStep P s none
        (releaseQueueItem e.item { s with uploader := afterRelease stopped })
  | finishPass (stopped : Bool) (hpc : s.uploader = .finishing stopped) :
      UploaderStep P s none ({ s with
        uploader := .looping
        history.finishedPasses :=
          ⟨s.history.passesStarted, stopped⟩ :: s.history.finishedPasses }.setDone)

theorem stepUploader_step {P : Params} {s t : State} {a : Action}
    (h : stepUploader P s a = some t) : UploaderStep P s (droppedBy P s a) t := by
  unfold stepUploader at h
  unfold droppedBy
  split at h <;> simp only [*]
  case h_1 hpc =>
    split at h <;> cases h
    · exact .waitSet hpc
    · exact .waitBlock hpc
  case h_2 hpc =>
    cases h
    exact .beginPass hpc
  case h_3 ok hpc =>
    cases h
    exact .connect hpc ok
  case h_4 hpc =>
    split at h <;> cases h
    · next hq => exact .receiveNone hpc hq
    · next e rest hq => exact .receive e rest hpc hq
  case h_5 e ok hpc =>
    split at h <;> cases h
    · next hok =>
      rw [if_pos hok]
      exact .encode e hpc
    · next hok =>
      rw [if_neg hok]
      exact .encodeFailed e hpc
  case h_6 e stamp hpc =>
    cases h
    exact .posted e stamp hpc
  case h_7 e stamp hpc =>
    cases h
    exact .postLost e stamp hpc
  case h_8 e stamp hpc =>
    cases h
    exact .postFailed e stamp hpc
  case h_9 e hpc =>
    split at h <;> cases h
    · next hroom =>
      rw [if_pos hroom]
      exact .requeue e hpc hroom
    · next hroom =>
      rw [if_neg hroom]
      exact .requeueFull e hpc
  case h_10 e n stopped hpc =>
    cases h
    exact .note e n stopped hpc
  case h_11 e stopped hpc =>
    cases h
    exact .release e stopped hpc
  case h_12 stopped hpc =>
    cases h
    exact .finishPass stopped hpc
  case h_13 => cases h

inductive FlushStep (s : State) : Action → State → Prop where
  | begin : FlushStep s .beginFlush { s with
      flushes := ⟨.entered, s.history.passesStarted, s.history.accepted.length⟩ :: s.flushes }
  | clear (f : FlushCall) (hf : f ∈ s.flushes) (hphase : f.phase = .entered) :
      FlushStep s (.flushClear f)
        ({ s with ctx.uploadDone := false }.moveFlush f { f with phase := .cleared })
  | flag (f : FlushCall) (hf : f ∈ s.flushes) (hphase : f.phase = .cleared) :
      FlushStep s (.flushFlag f)
        ((s.setUploadBit false).moveFlush f { f with phase := .flagged })
  | waitDone (f : FlushCall) (hf : f ∈ s.flushes) (hphase : f.phase = .flagged)
      (hdone : s.ctx.uploadDone = true) :
      FlushStep s (.flushWait f)
        ({ s with ctx.uploadDone := false }.moveFlush f { f with phase := .woken })
  | wait (f : FlushCall) (hf : f ∈ s.flushes) (hphase : f.phase = .flagged) :
      FlushStep s (.flushWait f) (s.moveFlush f { f with phase := .waiting })
  | expire (f : FlushCall) (hf : f ∈ s.flushes) (hphase : f.phase = .waiting) :
      FlushStep s (.flushExpire f) (s.moveFlush f { f with phase := .expired })
  | returnWoken (f : FlushCall) (hf : f ∈ s.flushes) (hphase : f.phase = .woken) :
      FlushStep s (.flushReturn f) (s.returnFlush f)
  | returnDone (f : FlushCall) (hf : f ∈ s.flushes) (hphase : f.phase = .expired)
      (hdone : s.ctx.uploadDone = true) :
      FlushStep s (.flushReturn f) ({ s with ctx.uploadDone := false }.returnFlush f)
  | returnTimeout (f : FlushCall) (hf : f ∈ s.flushes) (hphase : f.phase = .expired) :
      FlushStep s (.flushReturn f) { s with flushes := s.flushes.erase f }

theorem stepFlush_step {s t : State} {a : Action} (h : stepFlush s a = some t) :
    FlushStep s a t := by
  cases a <;> simp only [stepFlush, Option.ite_none_right_eq_some, Option.some.injEq,
    reduceCtorEq] at h
  case beginFlush =>
    subst h
    exact .begin
  case flushClear f =>
    obtain ⟨⟨hf, hphase⟩, rfl⟩ := h
    exact .clear f hf hphase
  case flushFlag f =>
    obtain ⟨⟨hf, hphase⟩, rfl⟩ := h
    exact .flag f hf hphase
  case flushWait f =>
    obtain ⟨⟨hf, hphase⟩, ht⟩ := h
    split at ht <;> cases ht
    · next hdone => exact .waitDone f hf hphase hdone
    · exact .wait f hf hphase
  case flushExpire f =>
    obtain ⟨⟨hf, hphase⟩, rfl⟩ := h
    exact .expire f hf hphase
  case flushReturn f =>
    split at h
    · next hw =>
      cases h
      exact .returnWoken f hw.1 hw.2
    · split at h
      · next he =>
        split at h <;> cases h
        · next hdone => exact .returnDone f he.1 he.2 hdone
        · exact .returnTimeout f he.1 he.2
      · cases h

inductive SystemStep (P : Params) (s : State) (a : Action) (t : State) : Prop where
  | timer (ha : a = .uploadTimer) (ht : t = s.setUploadBit true)
  | call (h : CallStep P s t)
  | uploader (h : UploaderStep P s (droppedBy P s a) t)
  | flush (h : FlushStep s a t)

theorem step_system {P : Params} {s t : State} {a : Action} (h : step P s a = some t) :
    SystemStep P s a t := by
  unfold step at h
  split at h
  · cases h
    exact .timer rfl rfl
  · rcases Option.or_eq_some_iff.mp h with h | ⟨_, h⟩
    · rcases Option.or_eq_some_iff.mp h with h | ⟨_, h⟩
      · exact .call (stepCall_step h)
      · exact .uploader (stepUploader_step h)
    · exact .flush (stepFlush_step h)

end Aetus.Firmware
