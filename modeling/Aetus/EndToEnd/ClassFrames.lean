import Aetus.EndToEnd.DeviceEvents
import Aetus.Firmware.FrameCalls
import Aetus.Firmware.UploadOrder

/-!
The signal frames of an application that makes them with the class SignalFrame, over whole runs
of the device: what is in the queue or has left it was described by one chain of calls.
-/

set_option autoImplicit false

namespace Aetus.Firmware
open Aetus.Base

def State.entries (s : State) : List Entry := s.calls.map EnqueueCall.entry ++ s.history.accepted

def Action.Makes (a : Action) (item : QueueItem) : Prop :=
  item.Frameless ∨ ∃ f granted, a = .enqueueSignalFrame (some f) granted ∧
    f.Admissible AETUS_SIGNAL_SAMPLES_MAX ∧ item.body = .signalFrame f

def Brings (s : State) (a : Action) (t : State) : Prop :=
  ∀ e ∈ t.entries, e ∈ s.entries ∨ a.Makes e.item

section Steps

variable {P : Params} {s t : State} {a : Action}

theorem Brings.same (hcalls : t.calls = s.calls) (haccepted : t.history.accepted = s.history.accepted) :
    Brings s a t := by
  intro e he
  rw [State.entries, hcalls, haccepted] at he
  exact .inl he

theorem Brings.less {calls : List EnqueueCall} (hsub : calls ⊆ s.calls) (hcalls : t.calls = calls)
    (haccepted : t.history.accepted = s.history.accepted) : Brings s a t := by
  intro e he
  rw [State.entries, hcalls, haccepted, List.mem_append] at he
  exact .inl (List.mem_append.mpr (he.imp_left fun h => List.map_subset _ hsub h))

theorem Brings.call {phase : CallPhase} {item : Entry} (hitem : a.Makes item.item ∨ item ∈ s.entries)
    {calls : List EnqueueCall} (hsub : calls ⊆ s.calls) (hcalls : t.calls = ⟨phase, item⟩ :: calls)
    (haccepted : t.history.accepted = s.history.accepted) : Brings s a t := by
  intro e he
  rw [State.entries, hcalls, haccepted, List.map_cons, List.cons_append, List.mem_cons,
    List.mem_append] at he
  rcases he with rfl | he
  · exact hitem.symm
  · exact .inl (List.mem_append.mpr (he.imp_left fun h => List.map_subset _ hsub h))

theorem Brings.accepted {item : Entry} (hitem : a.Makes item.item ∨ item ∈ s.entries)
    {calls : List EnqueueCall} (hsub : calls ⊆ s.calls) (hcalls : t.calls = calls)
    (haccepted : t.history.accepted = s.history.accepted ++ [item]) : Brings s a t := by
  intro e he
  rw [State.entries, hcalls, haccepted, List.mem_append, List.mem_append, List.mem_singleton] at he
  rcases he with he | he | rfl
  · exact .inl (List.mem_append_left _ (List.map_subset _ hsub he))
  · exact .inl (List.mem_append_right _ he)
  · exact hitem.symm

theorem mem_entries_of_call {c : EnqueueCall} (hc : c ∈ s.calls) : c.entry ∈ s.entries :=
  List.mem_append_left _ (List.mem_map_of_mem hc)

theorem CallStep.brings (h : CallStep P s t)
    (hframe : ∀ b f, t.calls = ⟨.sending, s.history.nextTicket, some b, .signalFrame f⟩ :: s.calls →
      a.Makes ⟨some b, .signalFrame f⟩) : Brings s a t := by
  cases h with
  | refused heap => exact .same rfl rfl
  | refusedBlock => exact .same rfl rfl
  | beginSend heap item hitem => exact .call (.inl (.inl hitem)) (List.Subset.refl _) rfl rfl
  | beginFrame b f hroom hsize => exact .call (.inl (hframe b f rfl)) (List.Subset.refl _) rfl rfl
  | acceptFromIsr item hitem hroom =>
    exact .accepted (.inl (.inl hitem)) (List.Subset.refl _) rfl rfl
  | send c hc hphase hroom =>
    exact .accepted (.inr (mem_entries_of_call hc)) List.erase_subset rfl rfl
  | timeoutFrame c hc hphase hkind =>
    exact .call (.inr (mem_entries_of_call hc)) List.erase_subset rfl rfl
  | timeoutTelemetry c hc hphase hkind =>
    exact .call (.inr (mem_entries_of_call hc)) List.erase_subset rfl rfl
  | timeoutStatus c hc hphase hkind => exact .less List.erase_subset rfl rfl
  | note c hc hphase => exact .call (.inr (mem_entries_of_call hc)) List.erase_subset rfl rfl
  | release c hc hphase =>
    exact .less List.erase_subset (releaseQueueItem_calls _ _) (by rw [releaseQueueItem_history])

theorem sendFromIsr_calls (item : QueueItem) : (sendFromIsr P item s).2.calls = s.calls := by
  unfold sendFromIsr
  split <;> rfl

theorem enqueueTelemetry_calls (telemetry : Option Telemetry) :
    (enqueueTelemetry telemetry s).2.calls = s.calls ∨ ∃ item : QueueItem, item.Frameless ∧
      (enqueueTelemetry telemetry s).2.calls = ⟨.sending, s.history.nextTicket, item⟩ :: s.calls := by
  unfold enqueueTelemetry
  split
  · exact .inl rfl
  · split
    · next item heap hc => exact .inr ⟨item, copyTelemetryToQueueItem_frameless hc, rfl⟩
    · exact .inl rfl

theorem length_cons_erase {α : Type} [DecidableEq α] {xs : List α} {x : α} (y : α) (hx : x ∈ xs) :
    (y :: xs.erase x).length = xs.length := by
  have hpos := List.length_pos_of_mem hx
  rw [List.length_cons, List.length_erase_of_mem hx]
  omega

theorem makes_of_stepCall (h : stepCall P s a = some t) {b : SampleBlock} {f : SignalFrame}
    (hcalls : t.calls = ⟨.sending, s.history.nextTicket, some b, .signalFrame f⟩ :: s.calls) :
    a.Makes ⟨some b, .signalFrame f⟩ := by
  have hlonger : ¬t.calls.length ≤ s.calls.length := by
    rw [hcalls, List.length_cons]
    omega
  cases a with
  | enqueueTelemetry telemetry =>
    obtain rfl := Option.some.inj h
    rcases enqueueTelemetry_calls (s := s) telemetry with hnone | ⟨item, hitem, hnew⟩
    · exact absurd (hnone ▸ Nat.le_refl _) hlonger
    · have hhead := List.head_eq_of_cons_eq (hnew.symm.trans hcalls)
      simp only [EnqueueCall.mk.injEq, Entry.mk.injEq, true_and] at hhead
      exact .inl (hhead ▸ hitem)
  | enqueueSignalFrame frame granted =>
    obtain rfl := Option.some.inj h
    cases frame with
    | none => exact absurd (Nat.le_refl _) hlonger
    | some frame =>
      rcases enqueueSignalFrame_cases P frame granted s with
        ⟨hall, -, hnew⟩ | ⟨-, -, hnone⟩
      · have hhead := List.head_eq_of_cons_eq (hnew.symm.trans hcalls)
        simp only [EnqueueCall.mk.injEq, Entry.mk.injEq, QueueItem.mk.injEq,
          QueueBody.signalFrame.injEq] at hhead
        exact .inr ⟨frame, granted, rfl, hall.1, by rw [hhead.2.2.2]⟩
      · exact absurd (hnone ▸ Nat.le_refl _) hlonger
  | enqueueStatus status =>
    obtain rfl := Option.some.inj h
    cases status with
    | none => exact absurd (Nat.le_refl _) hlonger
    | some st =>
      have hhead := List.head_eq_of_cons_eq hcalls
      simp only [EnqueueCall.mk.injEq, Entry.mk.injEq, QueueItem.mk.injEq, reduceCtorEq, and_false]
        at hhead
  | enqueueTelemetryFromIsr telemetry =>
    obtain rfl := Option.some.inj h
    refine absurd (Nat.le_of_eq (congrArg List.length ?_)) hlonger
    unfold enqueueTelemetryFromIsr
    split
    · rfl
    · split
      · rfl
      · split
        · rfl
        · exact sendFromIsr_calls _
  | enqueueStatusFromIsr status =>
    obtain rfl := Option.some.inj h
    refine absurd (Nat.le_of_eq (congrArg List.length ?_)) hlonger
    unfold enqueueStatusFromIsr
    split
    · rfl
    · exact sendFromIsr_calls _
  | send c =>
    obtain ⟨-, h⟩ := Option.ite_none_right_eq_some.mp h
    obtain rfl := Option.some.inj h
    exact absurd List.length_erase_le hlonger
  | sendTimeout c =>
    obtain ⟨⟨hc, -⟩, h⟩ := Option.ite_none_right_eq_some.mp h
    split at h
    · obtain rfl := Option.some.inj h
      exact absurd (length_cons_erase _ hc).le hlonger
    · obtain rfl := Option.some.inj h
      exact absurd (length_cons_erase _ hc).le hlonger
    · obtain rfl := Option.some.inj h
      exact absurd List.length_erase_le hlonger
  | noteCall c =>
    obtain ⟨⟨hc, -⟩, h⟩ := Option.ite_none_right_eq_some.mp h
    obtain rfl := Option.some.inj h
    exact absurd (length_cons_erase _ hc).le hlonger
  | releaseCall c =>
    obtain ⟨-, h⟩ := Option.ite_none_right_eq_some.mp h
    obtain rfl := Option.some.inj h
    rw [releaseQueueItem_calls] at hlonger
    exact absurd List.length_erase_le hlonger
  | _ => cases h

theorem setUploadBit_same (s : State) (due : Bool) : (s.setUploadBit due).calls = s.calls ∧
    (s.setUploadBit due).history = s.history := by
  unfold State.setUploadBit
  split
  · exact ⟨rfl, rfl⟩
  · split <;> exact ⟨rfl, rfl⟩

theorem UploaderStep.same {dropped : Option Entry} (h : UploaderStep P s dropped t) :
    t.calls = s.calls ∧ t.history.accepted = s.history.accepted := by
  cases h with
  | release e stopped hpc => exact ⟨releaseQueueItem_calls _ _, by rw [releaseQueueItem_history]⟩
  | finishPass stopped hpc => exact ⟨setDone_calls _, by rw [setDone_history]⟩
  | _ => exact ⟨rfl, rfl⟩

theorem FlushStep.same (h : FlushStep s a t) :
    t.calls = s.calls ∧ t.history.accepted = s.history.accepted := by
  cases h with
  | flag f hf hphase =>
    obtain ⟨hcalls, hhistory⟩ := setUploadBit_same s false
    exact ⟨hcalls, by rw [State.moveFlush, hhistory]⟩
  | _ => exact ⟨rfl, rfl⟩

theorem step_brings (h : step P s a = some t) : Brings s a t := by
  unfold step at h
  split at h
  · obtain rfl := Option.some.inj h
    obtain ⟨hcalls, hhistory⟩ := setUploadBit_same s true
    exact .same hcalls (by rw [hhistory])
  · rcases Option.or_eq_some_iff.mp h with h | ⟨-, h⟩
    · rcases Option.or_eq_some_iff.mp h with h | ⟨-, h⟩
      · exact (stepCall_step h).brings fun b f hcalls => makes_of_stepCall h hcalls
      · obtain ⟨hcalls, haccepted⟩ := (stepUploader_step h).same
        exact .same hcalls haccepted
    · obtain ⟨hcalls, haccepted⟩ := (stepFlush_step h).same
      exact .same hcalls haccepted

theorem OrderStep.server_entered {v w : OrderView} {dropped : Option Entry} (h : OrderStep v dropped w)
    (hv : Ordered v) (hserver : ∀ x ∈ v.server, x.2 ∈ v.pipe.entered) :
    ∀ x ∈ w.server, x.2 ∈ w.pipe.entered := by
  have hhead {e : Entry} {rest : List Entry} (hp : v.pipe.pending = e :: rest) :
      e ∈ v.pipe.entered :=
    hv.accounted.perm.mem_iff.mpr (List.mem_append_right _ (hp ▸ List.mem_cons_self))
  cases h with
  | quiet sending stamp hs hstamp => exact hserver
  | begin item => exact hserver
  | accept e sending hs => exact fun x hx => List.mem_append_left _ (hserver x hx)
  | acceptNew item => exact fun x hx => List.mem_append_left _ (hserver x hx)
  | deliver e rest stamp hstamp hp =>
    intro x hx
    rcases List.mem_cons.mp hx with rfl | hx
    · exact hhead hp
    · exact hserver x hx
  | lost e rest stamp hstamp hp =>
    intro x hx
    rcases List.mem_cons.mp hx with rfl | hx
    · exact hhead hp
    · exact hserver x hx
  | drop e rest d hp hd hstamp => exact hserver

end Steps

/-! Runs -/

/-- The application enqueues a signal frame with `enqueue` of the class only, which does not come
to the library after a call that failed. -/
def Action.UsesClass (a : Action) : Prop :=
  ∀ f granted, a = .enqueueSignalFrame f granted →
    ∃ calls, (frameCalls calls).error = .ok ∧ f = some (frameCalls calls).value

structure DescribedBy (calls : List FrameCall) (f : SignalFrame) : Prop where
  fits : ChainFits calls
  frame : f = describedFrame calls
  admissible : f.Admissible AETUS_SIGNAL_SAMPLES_MAX
  whole : f.Whole

def Described (item : QueueItem) : Prop :=
  ∀ f, item.body = .signalFrame f → ∃ calls, DescribedBy calls f

theorem described_of_makes {a : Action} (ha : a.UsesClass) {item : QueueItem} (h : a.Makes item) :
    Described item := by
  rintro f hbody
  rcases h with hframeless | ⟨g, granted, haction, hadmissible, hg⟩
  · rw [QueueItem.Frameless, QueueItem.kind, hbody] at hframeless
    exact absurd rfl hframeless.2
  · obtain rfl : f = g := by simpa using hbody.symm.trans hg
    obtain ⟨calls, hok, hvalue⟩ := ha _ _ haction
    have hfits := (frameCalls_ok_iff calls).mp hok
    have hdescribed : f = describedFrame calls :=
      (Option.some.inj hvalue).trans (frameCalls_value hok).1
    refine ⟨calls, hfits, hdescribed, hadmissible, ?_⟩
    rw [hdescribed]
    exact ⟨hfits.counts.1, hfits.counts.2⟩

structure FramesDescribed (s : State) : Prop where
  ordered : Ordered (orderView s)
  entries : ∀ e ∈ s.entries, Described e.item
  server : ∀ x ∈ s.history.server, x.2 ∈ s.history.accepted

theorem FramesDescribed.step {P : Params} {s t : State} {a : Action} (hs : FramesDescribed s)
    (ha : a.UsesClass) (h : step P s a = some t) : FramesDescribed t := by
  obtain ⟨dropped, -, hstep⟩ := step_order h
  refine ⟨step_ordered hs.ordered h, fun e he => ?_, hstep.server_entered hs.ordered hs.server⟩
  rcases step_brings h e he with hold | hnew
  · exact hs.entries e hold
  · exact described_of_makes ha hnew

theorem guarded_of_forall_mem {P : Params} {C : Action → Prop} {s : State} {as : List Action}
    (h : ∀ a ∈ as, C a) : Guarded (Firmware.step P) (fun _ a => C a) s as := by
  induction as generalizing s with
  | nil => trivial
  | cons a as ih =>
    exact ⟨h a List.mem_cons_self, fun t _ => ih fun b hb => h b (List.mem_cons_of_mem a hb)⟩

/-- Every frame that an application has queued with the class, and every frame that has come to the
server, was described by one chain of calls of which none failed. -/
theorem run_frames_described {P : Params} {bootId : CString} {heap : Heap} {as : List Action}
    {s : State} (hclass : ∀ a ∈ as, a.UsesClass)
    (h : run (step P) (started bootId heap) as = some s) :
    (∀ e ∈ s.history.accepted, Described e.item) ∧
      ∀ x ∈ s.history.server, Described x.2.item := by
  have hstart : FramesDescribed (started bootId heap) :=
    ⟨started_ordered bootId heap, by simp [State.entries, started], by simp [started]⟩
  have hs := run_guarded_invariant (fun _ _ _ hs ha h => FramesDescribed.step hs ha h) hstart
    (guarded_of_forall_mem hclass) h
  have haccepted (e : Entry) (he : e ∈ s.history.accepted) : Described e.item :=
    hs.entries e (List.mem_append_right _ he)
  exact ⟨haccepted, fun x hx => haccepted x.2 (hs.server x hx)⟩

theorem imuSamples_fit : ([1, 0, 2, 0] : List UInt8).length + 1 < 2 ^ 32 := by decide

def imuCalls : List FrameCall :=
  [.streamKey (utf8 "imu".toList), .sampleIntervalNs 1000000, .sampleCount 2, .encodingInt16Le,
    .addChannel (utf8 "x".toList) (utf8 "g".toList) none none,
    .setSampleBytes (some ⟨[1, 0, 2, 0], imuSamples_fit⟩)]

def imuUpload : List Action :=
  [.enqueueSignalFrame (some (frameCalls imuCalls).value) true,
    .send ⟨.sending, 0, some ⟨4, [1, 0, 2, 0]⟩, .signalFrame (frameCalls imuCalls).value⟩] ++
  passToPost ++ [.post .accepted]

theorem run_frames_described_imu : ∃ s, run (step oneSlot) oneSlotStart imuUpload = some s ∧
    s.history.server.length = 1 ∧ (∀ e ∈ s.history.accepted, Described e.item) ∧
    ∀ x ∈ s.history.server, Described x.2.item := by
  have hclass : ∀ a ∈ imuUpload, a.UsesClass := by
    intro a ha f granted hf
    subst hf
    simp only [imuUpload, passToPost, List.cons_append, List.nil_append, List.mem_cons, reduceCtorEq,
      Action.enqueueSignalFrame.injEq, List.not_mem_nil, or_false] at ha
    exact ⟨imuCalls, by decide, ha.1⟩
  have hserver : ((run (step oneSlot) oneSlotStart imuUpload).map fun s => s.history.server.length) =
      some 1 := by decide +kernel
  obtain ⟨s, hs, hlength⟩ := Option.map_eq_some_iff.mp hserver
  exact ⟨s, hs, hlength, run_frames_described hclass hs⟩

end Aetus.Firmware
