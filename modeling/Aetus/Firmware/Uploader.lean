import Aetus.Base.Runs
import Aetus.Firmware.QueueItem
import Aetus.Firmware.SamplePool
import Aetus.Firmware.SignalFrame

/-!
The started module as one transition system: tasks and interrupts that enqueue items,
tasks that flush, the upload timer, and the uploader task with its passes over the
queue. A step of a task is one call into FreeRTOS, the heap, the pool or the network.
-/

set_option autoImplicit false

namespace Aetus.Firmware
open Aetus.Base

structure Params where
  queueDepth : Nat
  heapSize : Nat
  heapSize_lt : heapSize < 2 ^ 32

structure Entry where
  ticket : Nat
  item : QueueItem
  deriving DecidableEq

/-- The part of an encoded event that the server keys it by. -/
structure Stamp where
  bootId : CString
  sequence : UInt64
  deriving DecidableEq

/-- Where the uploader task stands; a pass of `drain_queue` is every place from
`connecting` on. `stopped` tells a pass that broke off from one that emptied the queue. -/
inductive UploaderPc where
  | looping
  | blocked
  | woken
  | connecting
  | receiving
  | encoding (e : Entry)
  | posting (e : Entry) (stamp : Stamp)
  | requeueing (e : Entry)
  | noting (e : Entry) (note : PoolNote) (stopped : Bool)
  | releasing (e : Entry) (stopped : Bool)
  | finishing (stopped : Bool)
  deriving DecidableEq

inductive CallPhase where
  | sending | noting | releasing
  deriving DecidableEq

/-- An enqueue call past its allocation. -/
structure EnqueueCall where
  phase : CallPhase
  entry : Entry
  deriving DecidableEq

/-- What had happened when a flush call began: the passes started, the items accepted. -/
structure Mark where
  passes : Nat
  accepted : Nat
  deriving DecidableEq

inductive FlushPhase where
  | entered | cleared | flagged | waiting | woken | expired
  deriving DecidableEq

structure FlushCall where
  phase : FlushPhase
  mark : Mark
  deriving DecidableEq

structure Pass where
  number : Nat
  stopped : Bool
  deriving DecidableEq

/-- The fields of `aetus_ctx_t` that the tasks share. -/
structure Ctx where
  queue : List Entry
  uploadDue : Bool
  uploadFlush : Bool
  uploadDone : Bool
  sequence : UInt64
  bootId : CString
  pool : SamplePool

/-- What an observer records; no step reads it. -/
structure History where
  nextTicket : Nat
  accepted : List Entry
  uploaded : List Entry
  droppedEncode : List Entry
  droppedFull : List Entry
  server : List (Stamp × Entry)
  passesStarted : Nat
  finishedPasses : List Pass
  flushed : List Mark

structure State where
  ctx : Ctx
  heap : Heap
  uploader : UploaderPc
  calls : List EnqueueCall
  flushes : List FlushCall
  history : History

def started (bootId : CString) (heap : Heap) : State where
  ctx := ⟨[], false, false, false, 0, bootId, .reset⟩
  heap := heap
  uploader := .looping
  calls := []
  flushes := []
  history := ⟨0, [], [], [], [], [], 0, [], []⟩

/-- `accepted` is a POST the device sees succeed, `lost` one whose response it does not see. -/
inductive PostOutcome where
  | accepted | lost | failed
  deriving DecidableEq

inductive Action where
  | enqueueTelemetry (telemetry : Option Telemetry)
  | enqueueSignalFrame (frame : Option SignalFrame) (granted : Bool)
  | enqueueStatus (status : Option Status)
  | enqueueTelemetryFromIsr (telemetry : Option Telemetry)
  | enqueueStatusFromIsr (status : Option Status)
  | send (c : EnqueueCall)
  | sendTimeout (c : EnqueueCall)
  | noteCall (c : EnqueueCall)
  | releaseCall (c : EnqueueCall)
  | uploadTimer
  | uploaderWait
  | beginPass
  | connect (ok : Bool)
  | receive
  | encode (ok : Bool)
  | post (outcome : PostOutcome)
  | requeue
  | note
  | release
  | finishPass
  | beginFlush
  | flushClear (f : FlushCall)
  | flushFlag (f : FlushCall)
  | flushWait (f : FlushCall)
  | flushExpire (f : FlushCall)
  | flushReturn (f : FlushCall)

def State.beginSend (s : State) (item : QueueItem) : State :=
  { s with
    calls := ⟨.sending, s.history.nextTicket, item⟩ :: s.calls
    history.nextTicket := s.history.nextTicket + 1 }

/-- `xQueueSend` with room in the queue. -/
def State.accept (s : State) (e : Entry) : State :=
  { s with
    ctx.queue := s.ctx.queue ++ [e]
    history.accepted := s.history.accepted ++ [e] }

def enqueueTelemetry (telemetry : Option Telemetry) (s : State) :
    Except Failure Unit × State :=
  match telemetry with
  | none => (.error ⟨.invalidArg, "telemetry is required"⟩, s)
  | some t =>
    match copyTelemetryToQueueItem (some t) (some ⟨none, .telemetry .zero⟩) s.heap with
    | (.ok, some item, heap) => (.ok (), { s with heap := heap }.beginSend item)
    | (err, _, heap) => (.error ⟨err, "telemetry copy failed"⟩, { s with heap := heap })

def enqueueSignalFrame (P : Params) (frame : Option SignalFrame) (granted : Bool) (s : State) :
    Except Failure Unit × State :=
  match frame with
  | none => (.error ⟨.invalidArg, "signal frame is required"⟩, s)
  | some f =>
    match validateSignalFrame (some f) with
    | .error e => (.error ⟨e.code, "signal frame validation failed"⟩, s)
    | .ok () =>
      let samples := f.samples.getD []
      match s.ctx.pool.alloc P.heapSize granted f.samplesSize samples with
      | (none, pool) =>
        (.error ⟨.noMem, "signal sample pool allocation failed"⟩, { s with ctx.pool := pool })
      | (some block, pool) =>
        (.ok (), { s with ctx.pool := pool }.beginSend
          ⟨some block, .signalFrame { f with samples := some samples }⟩)

def enqueueStatus (status : Option Status) (s : State) : Except Failure Unit × State :=
  match status with
  | none => (.error ⟨.invalidArg, "status is required"⟩, s)
  | some st => (.ok (), s.beginSend ⟨none, .status st⟩)

/-- `xQueueSendFromISR`, which does not wait. -/
def sendFromIsr (P : Params) (item : QueueItem) (s : State) : EspErr × State :=
  if s.ctx.queue.length < P.queueDepth then
    (.ok, { s.accept ⟨s.history.nextTicket, item⟩ with
            history.nextTicket := s.history.nextTicket + 1 })
  else (.timeout, s)

def Metric.isBlob (m : Metric) : Bool :=
  match m.value with
  | .string _ => true
  | .bytes _ => true
  | _ => false

def enqueueTelemetryFromIsr (P : Params) (telemetry : Option Telemetry) (s : State) :
    EspErr × State :=
  match telemetry with
  | none => (.invalidArg, s)
  | some t =>
    if AETUS_TELEMETRY_INLINE_METRICS < t.metricCount then (.invalidArg, s)
    else if (t.inlineMetrics.take t.metricCount).any Metric.isBlob then (.invalidArg, s)
    else sendFromIsr P ⟨none, .telemetry t⟩ s

def enqueueStatusFromIsr (P : Params) (status : Option Status) (s : State) : EspErr × State :=
  match status with
  | none => (.invalidArg, s)
  | some st => sendFromIsr P ⟨none, .status st⟩ s

def releaseQueueItem (item : QueueItem) (s : State) : State :=
  match item.body with
  | .telemetry _ => { s with heap := (releaseTelemetryQueueItem item s.heap).2 }
  | .signalFrame _ => { s with ctx.pool := s.ctx.pool.release item.signalSampleOwner }
  | .status _ => s

def encodeSucceeds (item : QueueItem) (pbEncode : Bool) : Bool :=
  match item.body with
  | .signalFrame f => errorCode (validateSignalFrame (some f)) = .ok && pbEncode
  | _ => pbEncode

/-- Where `drain_queue` goes with an item it is done with: only a signal frame is counted. -/
def settle (e : Entry) (note : PoolNote) (stopped : Bool) : UploaderPc :=
  match e.item.kind with
  | .signalFrame => .noting e note stopped
  | _ => .releasing e stopped

/-- `xEventGroupSetBits` of a bit the uploader task waits for. -/
def State.setUploadBit (s : State) (due : Bool) : State :=
  match s.uploader with
  | .blocked => { s with uploader := .woken, ctx.uploadDue := false, ctx.uploadFlush := false }
  | _ => if due then { s with ctx.uploadDue := true } else { s with ctx.uploadFlush := true }

def FlushCall.wake (f : FlushCall) : FlushCall :=
  if f.phase = .waiting then { f with phase := .woken } else f

/-- `xEventGroupSetBits` of the done bit: it wakes every waiting flush call, and stays set
only when there is none. -/
def State.setDone (s : State) : State :=
  if s.flushes.any fun f => f.phase = .waiting then
    { s with flushes := s.flushes.map FlushCall.wake, ctx.uploadDone := false }
  else { s with ctx.uploadDone := true }

/-- The place after a released item: the head of the loop, or behind its `break`. -/
def afterRelease (stopped : Bool) : UploaderPc :=
  if stopped then .finishing true else .receiving

def stepCall (P : Params) (s : State) : Action → Option State
  | .enqueueTelemetry t => some (enqueueTelemetry t s).2
  | .enqueueSignalFrame f granted => some (enqueueSignalFrame P f granted s).2
  | .enqueueStatus st => some (enqueueStatus st s).2
  | .enqueueTelemetryFromIsr t => some (enqueueTelemetryFromIsr P t s).2
  | .enqueueStatusFromIsr st => some (enqueueStatusFromIsr P st s).2
  | .send c =>
    if c ∈ s.calls ∧ c.phase = .sending ∧ s.ctx.queue.length < P.queueDepth then
      some ({ s with calls := s.calls.erase c }.accept c.entry)
    else none
  | .sendTimeout c =>
    if c ∈ s.calls ∧ c.phase = .sending ∧ P.queueDepth ≤ s.ctx.queue.length then
      match c.entry.item.kind with
      | .telemetry => some { s with calls := ⟨.releasing, c.entry⟩ :: s.calls.erase c }
      | .signalFrame => some { s with calls := ⟨.noting, c.entry⟩ :: s.calls.erase c }
      | .status => some { s with calls := s.calls.erase c }
    else none
  | .noteCall c =>
    if c ∈ s.calls ∧ c.phase = .noting then
      some { s with
        calls := ⟨.releasing, c.entry⟩ :: s.calls.erase c
        ctx.pool := s.ctx.pool.note .queueSendFailure }
    else none
  | .releaseCall c =>
    if c ∈ s.calls ∧ c.phase = .releasing then
      some (releaseQueueItem c.entry.item { s with calls := s.calls.erase c })
    else none
  | _ => none

def stepUploader (P : Params) (s : State) (a : Action) : Option State :=
  match s.uploader, a with
  | .looping, .uploaderWait =>
    if s.ctx.uploadDue ∨ s.ctx.uploadFlush then
      some { s with uploader := .woken, ctx.uploadDue := false, ctx.uploadFlush := false }
    else some { s with uploader := .blocked }
  | .woken, .beginPass =>
    some { s with
      uploader := .connecting
      history.passesStarted := s.history.passesStarted + 1 }
  | .connecting, .connect ok =>
    some { s with uploader := if ok then .receiving else .finishing true }
  | .receiving, .receive =>
    match s.ctx.queue with
    | [] => some { s with uploader := .finishing false }
    | e :: rest => some { s with uploader := .encoding e, ctx.queue := rest }
  | .encoding e, .encode ok =>
    if encodeSucceeds e.item ok then
      some { s with uploader := .posting e ⟨s.ctx.bootId, s.ctx.sequence⟩ }
    else
      some { s with
        uploader := settle e .validationFailure false
        history.droppedEncode := e :: s.history.droppedEncode }
  | .posting e stamp, .post .accepted =>
    some { s with
      uploader := settle e .uploadSuccess false
      ctx.sequence := s.ctx.sequence + 1
      history.uploaded := s.history.uploaded ++ [e]
      history.server := (stamp, e) :: s.history.server }
  | .posting e stamp, .post .lost =>
    some { s with
      uploader := .requeueing e
      history.server := (stamp, e) :: s.history.server }
  | .posting e _, .post .failed => some { s with uploader := .requeueing e }
  | .requeueing e, .requeue =>
    if s.ctx.queue.length < P.queueDepth then
      some { s with uploader := .finishing true, ctx.queue := e :: s.ctx.queue }
    else
      some { s with
        uploader := settle e .finalDrop true
        history.droppedFull := e :: s.history.droppedFull }
  | .noting e n stopped, .note =>
    some { s with uploader := .releasing e stopped, ctx.pool := s.ctx.pool.note n }
  | .releasing e stopped, .release =>
    some (releaseQueueItem e.item { s with uploader := afterRelease stopped })
  | .finishing stopped, .finishPass =>
    some ({ s with
      uploader := .looping
      history.finishedPasses := ⟨s.history.passesStarted, stopped⟩ :: s.history.finishedPasses
      }.setDone)
  | _, _ => none

def State.moveFlush (s : State) (f f' : FlushCall) : State :=
  { s with flushes := f' :: s.flushes.erase f }

def State.returnFlush (s : State) (f : FlushCall) : State :=
  { s with flushes := s.flushes.erase f, history.flushed := f.mark :: s.history.flushed }

/-- `aetus_flush`, one FreeRTOS call at a time. -/
def stepFlush (s : State) : Action → Option State
  | .beginFlush =>
    let mark : Mark := ⟨s.history.passesStarted, s.history.accepted.length⟩
    some { s with flushes := ⟨.entered, mark⟩ :: s.flushes }
  | .flushClear f =>
    if f ∈ s.flushes ∧ f.phase = .entered then
      some ({ s with ctx.uploadDone := false }.moveFlush f { f with phase := .cleared })
    else none
  | .flushFlag f =>
    if f ∈ s.flushes ∧ f.phase = .cleared then
      some ((s.setUploadBit false).moveFlush f { f with phase := .flagged })
    else none
  | .flushWait f =>
    if f ∈ s.flushes ∧ f.phase = .flagged then
      if s.ctx.uploadDone then
        some ({ s with ctx.uploadDone := false }.moveFlush f { f with phase := .woken })
      else some (s.moveFlush f { f with phase := .waiting })
    else none
  | .flushExpire f =>
    if f ∈ s.flushes ∧ f.phase = .waiting then
      some (s.moveFlush f { f with phase := .expired })
    else none
  | .flushReturn f =>
    if f ∈ s.flushes ∧ f.phase = .woken then some (s.returnFlush f)
    else if f ∈ s.flushes ∧ f.phase = .expired then
      -- a call that timed out still looks at the bit once more
      if s.ctx.uploadDone then some ({ s with ctx.uploadDone := false }.returnFlush f)
      else some { s with flushes := s.flushes.erase f }
    else none
  | _ => none

def step (P : Params) (s : State) : Action → Option State
  | .uploadTimer => some (s.setUploadBit true)
  | a => ((stepCall P s a).or (stepUploader P s a)).or (stepFlush s a)

def oneSlot : Params := ⟨1, 65536, by decide⟩

def oneSlotStart : State := started (.lit "boot-0000002a") (.empty fun _ => true)

def onlineStatus : Status := ⟨.online, -40, 120000, .empty, 0⟩

def statusCall (ticket : Nat) : EnqueueCall := ⟨.sending, ticket, none, .status onlineStatus⟩

def passToPost : List Action :=
  [.uploadTimer, .uploaderWait, .beginPass, .connect true, .receive, .encode true]

end Aetus.Firmware
