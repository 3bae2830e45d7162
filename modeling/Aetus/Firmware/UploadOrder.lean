import Aetus.Base.Pipeline
import Aetus.Firmware.UploaderSteps

/-!
The queue and the uploader as a first-in first-out pipeline: what becomes of each
accepted item, in which order items are uploaded, and under which sequence numbers.
-/

set_option autoImplicit false

namespace Aetus.Firmware
open Aetus.Base

/-- The item the uploader has taken out of the queue and not yet disposed of. -/
def UploaderPc.hand : UploaderPc → Option Entry
  | .encoding e => some e
  | .posting e _ => some e
  | .requeueing e => some e
  | _ => none

def UploaderPc.stamp : UploaderPc → Option Stamp
  | .posting _ stamp => some stamp
  | _ => none

def State.sending (s : State) : List Entry :=
  (s.calls.filter fun c => c.phase = .sending).map EnqueueCall.entry

def State.pipeline (s : State) : Pipeline Entry where
  entered := s.history.accepted
  pending := s.uploader.hand.toList ++ s.ctx.queue
  delivered := s.history.uploaded
  dropped := s.history.droppedEncode ++ s.history.droppedFull

structure OrderView where
  pipe : Pipeline Entry
  sending : List Entry
  nextTicket : Nat
  bootId : CString
  sequence : UInt64
  stamp : Option Stamp
  server : List (Stamp × Entry)

def orderView (s : State) : OrderView where
  pipe := s.pipeline
  sending := s.sending
  nextTicket := s.history.nextTicket
  bootId := s.ctx.bootId
  sequence := s.ctx.sequence
  stamp := s.uploader.stamp
  server := s.history.server

inductive OrderStep (v : OrderView) : Option Entry → OrderView → Prop where
  | quiet (sending : List Entry) (stamp : Option Stamp) (hs : sending.Sublist v.sending)
      (hstamp : ∀ st, stamp = some st → v.stamp = some st ∨ st = ⟨v.bootId, v.sequence⟩) :
      OrderStep v none { v with sending := sending, stamp := stamp }
  | begin (item : QueueItem) :
      OrderStep v none { v with
        sending := ⟨v.nextTicket, item⟩ :: v.sending
        nextTicket := v.nextTicket + 1 }
  | accept (e : Entry) (sending : List Entry) (hs : v.sending.Perm (e :: sending)) :
      OrderStep v none { v with
        pipe := { v.pipe with
          entered := v.pipe.entered ++ [e]
          pending := v.pipe.pending ++ [e] }
        sending := sending }
  | acceptNew (item : QueueItem) :
      OrderStep v none { v with
        pipe := { v.pipe with
          entered := v.pipe.entered ++ [⟨v.nextTicket, item⟩]
          pending := v.pipe.pending ++ [⟨v.nextTicket, item⟩] }
        nextTicket := v.nextTicket + 1 }
  | deliver (e : Entry) (rest : List Entry) (stamp : Stamp) (hstamp : v.stamp = some stamp)
      (hp : v.pipe.pending = e :: rest) :
      OrderStep v none { v with
        pipe := { v.pipe with pending := rest, delivered := v.pipe.delivered ++ [e] }
        sequence := v.sequence + 1
        stamp := none
        server := (stamp, e) :: v.server }
  | lost (e : Entry) (rest : List Entry) (stamp : Stamp) (hstamp : v.stamp = some stamp)
      (hp : v.pipe.pending = e :: rest) :
      OrderStep v none { v with stamp := none, server := (stamp, e) :: v.server }
  | drop (e : Entry) (rest d : List Entry) (hp : v.pipe.pending = e :: rest)
      (hd : d.Perm (e :: v.pipe.dropped)) (hstamp : v.stamp = none) :
      OrderStep v (some e) { v with pipe := { v.pipe with pending := rest, dropped := d } }

theorem OrderStep.refl (v : OrderView) : OrderStep v none v :=
  .quiet v.sending v.stamp (.refl _) fun _ h => .inl h

@[simp] theorem orderView_releaseQueueItem (item : QueueItem) (s : State) :
    orderView (releaseQueueItem item s) = orderView s := by
  unfold releaseQueueItem
  split <;> rfl

@[simp] theorem orderView_setDone (s : State) : orderView s.setDone = orderView s := by
  unfold State.setDone
  split <;> rfl

theorem orderView_setUploadBit (s : State) (due : Bool) :
    orderView (s.setUploadBit due) = orderView s := by
  unfold State.setUploadBit
  split
  · next hpc =>
    simp [orderView, State.pipeline, State.sending, hpc, UploaderPc.hand, UploaderPc.stamp]
  · split <;> rfl

theorem settle_hand (e : Entry) (n : PoolNote) (stopped : Bool) :
    (settle e n stopped).hand = none ∧ (settle e n stopped).stamp = none := by
  unfold settle
  split <;> exact ⟨rfl, rfl⟩

theorem sending_erase_sublist (s : State) (c : EnqueueCall) :
    (((s.calls.erase c).filter fun c => c.phase = .sending).map EnqueueCall.entry).Sublist
      s.sending :=
  ((List.erase_sublist.filter _).map _)

theorem sending_erase_perm {s : State} {c : EnqueueCall} (hc : c ∈ s.calls)
    (hphase : c.phase = .sending) :
    s.sending.Perm (c.entry ::
      ((s.calls.erase c).filter fun c => c.phase = .sending).map EnqueueCall.entry) := by
  have hperm := ((List.perm_cons_erase hc).filter fun c => c.phase = .sending).map
    EnqueueCall.entry
  simpa [State.sending, hphase] using hperm

theorem callStep_order {P : Params} {s t : State} (h : CallStep P s t) :
    OrderStep (orderView s) none (orderView t) := by
  have hcancel (c : EnqueueCall) := OrderStep.quiet (v := orderView s) _ _
    (sending_erase_sublist s c) fun _ h => .inl h
  cases h with
  | refused heap => exact .refl _
  | refusedBlock => exact .refl _
  | beginSend heap item => exact .begin item
  | beginFrame b f => exact .begin _
  | acceptFromIsr item hitem hroom =>
    have hv := OrderStep.acceptNew (v := orderView s) item
    simpa [orderView, State.pipeline, State.accept, State.sending, List.append_assoc] using hv
  | send c hc hphase hroom =>
    have hv := OrderStep.accept (v := orderView s) c.entry _ (sending_erase_perm hc hphase)
    simpa [orderView, State.pipeline, State.accept, State.sending, List.append_assoc] using hv
  | timeoutFrame c hc hphase hkind | timeoutTelemetry c hc hphase hkind
  | timeoutStatus c hc hphase hkind => exact hcancel c
  | note c hc hphase => exact hcancel c
  | release c hc hphase =>
    rw [orderView_releaseQueueItem]
    exact hcancel c

theorem uploaderStep_order {P : Params} {s t : State} {d : Option Entry}
    (h : UploaderStep P s d t) : OrderStep (orderView s) d (orderView t) := by
  have hquiet {v : OrderView} (hv : v = orderView s) : OrderStep (orderView s) none v :=
    hv ▸ .refl _
  -- an item in hand is the head of the pipeline
  have hhand {e : Entry} (he : s.uploader.hand = some e) :
      (orderView s).pipe.pending = e :: s.ctx.queue := by
    simp [orderView, State.pipeline, he]
  cases h with
  | waitSet hpc | waitBlock hpc | beginPass hpc =>
    apply hquiet
    simp [orderView, State.pipeline, State.sending, hpc, UploaderPc.hand, UploaderPc.stamp]
  | connect hpc ok =>
    apply hquiet
    cases ok <;>
      simp [orderView, State.pipeline, State.sending, hpc, UploaderPc.hand, UploaderPc.stamp]
  | receiveNone hpc hq =>
    apply hquiet
    simp [orderView, State.pipeline, State.sending, hpc, UploaderPc.hand, UploaderPc.stamp]
  | receive e rest hpc hq =>
    apply hquiet
    simp [orderView, State.pipeline, State.sending, hpc, hq, UploaderPc.hand, UploaderPc.stamp]
  | encode e hpc =>
    have hstep := OrderStep.quiet (v := orderView s) s.sending
      (some ⟨s.ctx.bootId, s.ctx.sequence⟩) (.refl _)
      (by rintro st ⟨⟩; exact .inr rfl)
    simpa [orderView, State.pipeline, State.sending, hpc, UploaderPc.hand, UploaderPc.stamp]
      using hstep
  | encodeFailed e hpc =>
    obtain ⟨hsh, hss⟩ := settle_hand e .validationFailure false
    have hstep := OrderStep.drop (v := orderView s) e s.ctx.queue
      (e :: (s.history.droppedEncode ++ s.history.droppedFull))
      (hhand (by simp [hpc, UploaderPc.hand])) (.refl _)
      (by simp [orderView, hpc, UploaderPc.stamp])
    simp only [orderView, State.pipeline, hsh, hss]
    simpa [orderView, State.pipeline, State.sending, hpc, UploaderPc.stamp] using hstep
  | posted e stamp hpc =>
    obtain ⟨hsh, hss⟩ := settle_hand e .uploadSuccess false
    have hstep := OrderStep.deliver (v := orderView s) e s.ctx.queue stamp
      (by simp [orderView, hpc, UploaderPc.stamp]) (hhand (by simp [hpc, UploaderPc.hand]))
    simp only [orderView, State.pipeline, hsh, hss]
    simpa [orderView, State.pipeline, State.sending, hpc, UploaderPc.stamp] using hstep
  | postLost e stamp hpc =>
    have hstep := OrderStep.lost (v := orderView s) e s.ctx.queue stamp
      (by simp [orderView, hpc, UploaderPc.stamp]) (hhand (by simp [hpc, UploaderPc.hand]))
    simpa [orderView, State.pipeline, State.sending, hpc, UploaderPc.stamp, UploaderPc.hand]
      using hstep
  | postFailed e stamp hpc =>
    have hstep := OrderStep.quiet (v := orderView s) s.sending none (.refl _) (by simp)
    simpa [orderView, State.pipeline, State.sending, hpc, UploaderPc.hand, UploaderPc.stamp]
      using hstep
  | requeue e hpc hroom =>
    apply hquiet
    simp [orderView, State.pipeline, State.sending, hpc, UploaderPc.hand, UploaderPc.stamp]
  | requeueFull e hpc =>
    obtain ⟨hsh, hss⟩ := settle_hand e .finalDrop true
    have hstep := OrderStep.drop (v := orderView s) e s.ctx.queue
      (s.history.droppedEncode ++ e :: s.history.droppedFull)
      (hhand (by simp [hpc, UploaderPc.hand])) List.perm_middle
      (by simp [orderView, hpc, UploaderPc.stamp])
    simp only [orderView, State.pipeline, hsh, hss]
    simpa [orderView, State.pipeline, State.sending, hpc, UploaderPc.stamp] using hstep
  | note e n stopped hpc =>
    apply hquiet
    simp [orderView, State.pipeline, State.sending, hpc, UploaderPc.hand, UploaderPc.stamp]
  | release e stopped hpc =>
    apply hquiet
    rw [orderView_releaseQueueItem]
    cases stopped <;> simp [orderView, State.pipeline, State.sending, hpc, afterRelease,
      UploaderPc.hand, UploaderPc.stamp]
  | finishPass stopped hpc =>
    apply hquiet
    rw [orderView_setDone]
    simp [orderView, State.pipeline, State.sending, hpc, UploaderPc.hand, UploaderPc.stamp]

theorem flushStep_order {s t : State} {a : Action} (h : FlushStep s a t) :
    orderView t = orderView s := by
  cases h with
  | flag f hf hphase => exact orderView_setUploadBit s false
  | _ => rfl

theorem step_order {P : Params} {s t : State} {a : Action} (h : step P s a = some t) :
    ∃ d, (∀ e, d = some e → droppedBy P s a = some e) ∧
      OrderStep (orderView s) d (orderView t) := by
  cases step_system h with
  | timer ha ht =>
    subst ht
    exact ⟨none, by simp, orderView_setUploadBit s true ▸ .refl _⟩
  | call hc => exact ⟨none, by simp, callStep_order hc⟩
  | uploader hu => exact ⟨_, fun _ he => he, uploaderStep_order hu⟩
  | flush hf => exact ⟨none, by simp, flushStep_order hf ▸ .refl _⟩

/-- The invariant of the order: items are told apart by their tickets, each accepted item is
accounted for, and the sequence number counts the uploads. -/
structure Ordered (v : OrderView) : Prop where
  tickets : ((v.pipe.entered ++ v.sending).map Entry.ticket).Nodup
  fresh : ∀ e ∈ v.pipe.entered ++ v.sending, e.ticket < v.nextTicket
  accounted : v.pipe.Accounted
  sequence : v.sequence = UInt64.ofNat v.pipe.delivered.length
  stamp : ∀ st, v.stamp = some st → st = ⟨v.bootId, v.sequence⟩

theorem started_ordered (bootId : CString) (heap : Heap) :
    Ordered (orderView (started bootId heap)) where
  tickets := List.nodup_nil
  fresh e he := by simp [orderView, started, State.pipeline, State.sending] at he
  accounted := Pipeline.empty_accounted
  sequence := rfl
  stamp st hst := by simp [orderView, started, UploaderPc.stamp] at hst

theorem Ordered.enter_new {v : OrderView} (hv : Ordered v) {e : Entry}
    (he : e ∈ v.sending ∨ v.nextTicket ≤ e.ticket) : e ∉ v.pipe.entered := by
  intro hmem
  rcases he with he | he
  · have hnd := hv.tickets
    rw [List.map_append, List.nodup_append] at hnd
    exact hnd.2.2 _ (List.mem_map_of_mem hmem) _ (List.mem_map_of_mem he) rfl
  · have hlt := hv.fresh e (List.mem_append_left _ hmem)
    omega

/-- Every step of the module is a step of the pipeline, or none. -/
theorem OrderStep.refines {v w : OrderView} {d : Option Entry} (h : OrderStep v d w)
    (hv : Ordered v) : w.pipe = v.pipe ∨ Pipeline.Step v.pipe w.pipe := by
  cases h with
  | quiet sending stamp hs hstamp => exact .inl rfl
  | begin item => exact .inl rfl
  | accept e sending hs =>
    have he : e ∈ v.sending := hs.mem_iff.mpr List.mem_cons_self
    exact .inr (.enter _ e (hv.enter_new (.inl he)))
  | acceptNew item => exact .inr (.enter _ _ (hv.enter_new (.inr (Nat.le_refl _))))
  | deliver e rest stamp hstamp hp => exact .inr (.deliver _ e rest hp)
  | lost e rest stamp hstamp hp => exact .inl rfl
  | drop e rest d hp hd hstamp => exact .inr (.drop _ e rest d hp hd)

theorem OrderStep.accounted {v w : OrderView} {d : Option Entry} (h : OrderStep v d w)
    (hv : Ordered v) : w.pipe.Accounted := by
  rcases h.refines hv with heq | hstep
  · exact heq ▸ hv.accounted
  · exact hstep.accounted hv.accounted

theorem Ordered.new_ticket {v : OrderView} (hv : Ordered v) (item : QueueItem) {es : List Entry}
    (hes : es.Perm (⟨v.nextTicket, item⟩ :: (v.pipe.entered ++ v.sending))) :
    (es.map Entry.ticket).Nodup ∧ ∀ e ∈ es, e.ticket < v.nextTicket + 1 := by
  constructor
  · refine (hes.map Entry.ticket).nodup_iff.mpr ?_
    rw [List.map_cons, List.nodup_cons]
    refine ⟨fun hmem => ?_, hv.tickets⟩
    obtain ⟨e, he, htick⟩ := List.mem_map.mp hmem
    have hlt := hv.fresh e he
    dsimp only at htick
    omega
  · intro e he
    rcases List.mem_cons.mp (hes.mem_iff.mp he) with rfl | he
    · exact Nat.lt_succ_self _
    · have hlt := hv.fresh e he
      omega

theorem OrderStep.ordered {v w : OrderView} {d : Option Entry} (h : OrderStep v d w)
    (hv : Ordered v) : Ordered w := by
  have hacc := h.accounted hv
  cases h with
  | quiet sending stamp hs hstamp =>
    have hsub := hs.append_left v.pipe.entered
    refine ⟨hv.tickets.sublist (hsub.map _), fun e he => hv.fresh e (hsub.subset he), hacc,
      hv.sequence, fun st hst => ?_⟩
    rcases hstamp st hst with h1 | h1
    · exact hv.stamp st h1
    · exact h1
  | begin item =>
    obtain ⟨htickets, hfresh⟩ := hv.new_ticket item List.perm_middle
    exact ⟨htickets, hfresh, hacc, hv.sequence, hv.stamp⟩
  | accept e sending hs =>
    have hperm : (v.pipe.entered ++ v.sending).Perm ((v.pipe.entered ++ [e]) ++ sending) := by
      simpa using hs.append_left v.pipe.entered
    refine ⟨(hperm.map _).nodup_iff.mp hv.tickets, fun x hx => ?_, hacc, hv.sequence, hv.stamp⟩
    exact hv.fresh x (hperm.mem_iff.mpr hx)
  | acceptNew item =>
    have hperm : ((v.pipe.entered ++ [(⟨v.nextTicket, item⟩ : Entry)]) ++ v.sending).Perm
        (⟨v.nextTicket, item⟩ :: (v.pipe.entered ++ v.sending)) := by
      simp [List.perm_middle]
    obtain ⟨htickets, hfresh⟩ := hv.new_ticket item hperm
    exact ⟨htickets, hfresh, hacc, hv.sequence, hv.stamp⟩
  | deliver e rest stamp hstamp hp =>
    refine ⟨hv.tickets, hv.fresh, hacc, ?_, by simp⟩
    simp only [List.length_append, List.length_singleton]
    rw [hv.sequence, UInt64.ofNat_add]
    rfl
  | lost e rest stamp hstamp hp => exact ⟨hv.tickets, hv.fresh, hacc, hv.sequence, by simp⟩
  | drop e rest d hp hd hstamp => exact ⟨hv.tickets, hv.fresh, hacc, hv.sequence, hv.stamp⟩

theorem step_ordered {P : Params} {s t : State} {a : Action} (hs : Ordered (orderView s))
    (h : step P s a = some t) : Ordered (orderView t) := by
  obtain ⟨_, _, hstep⟩ := step_order h
  exact hstep.ordered hs

theorem run_ordered {P : Params} {bootId : CString} {heap : Heap} {as : List Action} {s : State}
    (h : run (step P) (started bootId heap) as = some s) : Ordered (orderView s) :=
  run_invariant (I := fun s => Ordered (orderView s)) (fun _ _ _ hs h => step_ordered hs h)
    (started_ordered bootId heap) h

/-- As long as the counter has not wrapped, it is the number of uploads itself. -/
theorem Ordered.sequence_toNat {v : OrderView} (hv : Ordered v)
    (hlt : v.pipe.delivered.length < 2 ^ 64) :
    v.sequence.toNat = v.pipe.delivered.length := by
  rw [hv.sequence, UInt64.toNat_ofNat']
  exact Nat.mod_eq_of_lt hlt

/-- The runs of the module are runs of the pipeline. -/
theorem run_refines_pipeline {P : Params} {bootId : CString} {heap : Heap} {as : List Action}
    {s : State} (h : run (step P) (started bootId heap) as = some s) :
    Relation.ReflTransGen Pipeline.Step Pipeline.empty s.pipeline := by
  refine run_simulation (I := fun s => Ordered (orderView s)) State.pipeline
    (fun _ _ _ hs h => step_ordered hs h) (fun s a t hs h => ?_) (started_ordered bootId heap) h
  obtain ⟨_, _, hstep⟩ := step_order h
  rcases hstep.refines hs with heq | hpipe
  · exact (show t.pipeline = s.pipeline from heq) ▸ .refl
  · exact .single hpipe

/-- What has become of the items accepted so far. -/
structure UploadsAccounted (s : State) : Prop where
  fates : s.history.accepted.Perm (s.history.uploaded ++ s.ctx.queue ++ s.uploader.hand.toList ++
    s.history.droppedEncode ++ s.history.droppedFull)
  nodup : (s.history.accepted.map Entry.ticket).Nodup
  order : s.history.uploaded.Sublist s.history.accepted
  sequence : s.ctx.sequence = UInt64.ofNat s.history.uploaded.length
  counted : s.history.uploaded.length < 2 ^ 64 →
    s.ctx.sequence.toNat = s.history.uploaded.length

theorem run_uploads_accounted (P : Params) (bootId : CString) (heap : Heap) (as : List Action)
    (s : State) (h : run (step P) (started bootId heap) as = some s) : UploadsAccounted s := by
  have hacc : s.pipeline.Accounted :=
    closure_invariant (fun _ _ hp hstep => hstep.accounted hp) Pipeline.empty_accounted
      (run_refines_pipeline h)
  have hord := run_ordered h
  refine ⟨hacc.perm.trans ?_, ?_, hacc.delivered_sublist, hord.sequence, hord.sequence_toNat⟩
  · simp only [State.pipeline, List.append_assoc]
    refine List.Perm.append_left _ ?_
    have hpending : (s.uploader.hand.toList ++ s.ctx.queue).Perm
        (s.ctx.queue ++ s.uploader.hand.toList) := List.perm_append_comm
    have hswap := (List.perm_append_comm.trans
      (hpending.append_right (s.history.droppedEncode ++ s.history.droppedFull)))
    simpa using hswap
  · have hnd := hord.tickets
    rw [List.map_append] at hnd
    exact (List.nodup_append.mp hnd).1

def statusUpload : List Action :=
  [.enqueueStatus (some onlineStatus), .send (statusCall 0)] ++ passToPost ++ [.post .accepted]

theorem statusUpload_accounted : ∃ s, run (step oneSlot) oneSlotStart statusUpload = some s ∧
    UploadsAccounted s := by
  obtain ⟨s, hs⟩ : ∃ s, run (step oneSlot) oneSlotStart statusUpload = some s := ⟨_, rfl⟩
  exact ⟨s, hs, run_uploads_accounted oneSlot _ _ statusUpload s hs⟩

end Aetus.Firmware
