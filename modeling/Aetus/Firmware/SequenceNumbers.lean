import Aetus.Firmware.UploadOrder

/-!
The server keys an event by boot id and sequence number. A number is used again for
another item when an item is dropped that the server had already accepted.
-/

set_option autoImplicit false

namespace Aetus.Firmware
open Aetus.Base

structure Keyed (v : OrderView) : Prop where
  ordered : Ordered v
  boot : ∀ x ∈ v.server, x.1.bootId = v.bootId
  numbered : v.pipe.Numbered (v.server.map fun x => (x.1.sequence.toNat, x.2))

theorem Keyed.receive {v : OrderView} (hv : Keyed v) {e : Entry} {rest : List Entry}
    {stamp : Stamp} (hstamp : v.stamp = some stamp) (hp : v.pipe.pending = e :: rest)
    (hlt : v.pipe.delivered.length < 2 ^ 64) :
    (∀ x ∈ (stamp, e) :: v.server, x.1.bootId = v.bootId) ∧
      v.pipe.Numbered (((stamp, e) :: v.server).map fun x => (x.1.sequence.toNat, x.2)) := by
  obtain rfl := hv.ordered.stamp stamp hstamp
  refine ⟨fun x hx => ?_, ?_⟩
  · rcases List.mem_cons.mp hx with rfl | hx
    · rfl
    · exact hv.boot x hx
  · have hnum := hv.numbered.receive hp
    rwa [← hv.ordered.sequence_toNat hlt] at hnum

theorem OrderStep.keyed {v w : OrderView} {d : Option Entry} (h : OrderStep v d w)
    (hv : Keyed v) (hspares : ∀ e, d = some e → ∀ x ∈ v.server, x.2 ≠ e)
    (hlt : v.pipe.delivered.length < 2 ^ 64) : Keyed w := by
  have hord := h.ordered hv.ordered
  cases h with
  | quiet sending stamp hs hstamp => exact ⟨hord, hv.boot, hv.numbered⟩
  | begin item => exact ⟨hord, hv.boot, hv.numbered⟩
  | accept e sending hs => exact ⟨hord, hv.boot, hv.numbered.enter e⟩
  | acceptNew item => exact ⟨hord, hv.boot, hv.numbered.enter _⟩
  | deliver e rest stamp hstamp hp =>
    obtain ⟨hboot, hnum⟩ := hv.receive hstamp hp hlt
    exact ⟨hord, hboot, hnum.deliver hp⟩
  | lost e rest stamp hstamp hp =>
    obtain ⟨hboot, hnum⟩ := hv.receive hstamp hp hlt
    exact ⟨hord, hboot, hnum⟩
  | drop e rest d hp hd hstamp =>
    refine ⟨hord, hv.boot, hv.numbered.drop hp fun y hy => ?_⟩
    obtain ⟨x, hx, rfl⟩ := List.mem_map.mp hy
    exact hspares e rfl x hx

def SparesAccepted (P : Params) (s : State) (a : Action) : Prop :=
  (∀ e ∈ droppedBy P s a, ∀ x ∈ s.history.server, x.2 ≠ e) ∧
    s.history.uploaded.length < 2 ^ 64

instance (P : Params) (s : State) (a : Action) : Decidable (SparesAccepted P s a) :=
  inferInstanceAs (Decidable (_ ∧ _))

theorem step_keyed {P : Params} {s t : State} {a : Action} (hs : Keyed (orderView s))
    (hspares : SparesAccepted P s a) (h : step P s a = some t) : Keyed (orderView t) := by
  obtain ⟨d, hd, hstep⟩ := step_order h
  exact hstep.keyed hs (fun e he => hspares.1 e (hd e he)) hspares.2

theorem started_keyed (bootId : CString) (heap : Heap) :
    Keyed (orderView (started bootId heap)) where
  ordered := started_ordered bootId heap
  boot x hx := by simp [orderView, started] at hx
  numbered := Pipeline.empty_numbered

/-- No stamp is the server's key for two items. -/
def StampsUnique (s : State) : Prop :=
  ∀ x ∈ s.history.server, ∀ y ∈ s.history.server, x.1 = y.1 → x.2 = y.2

theorem Keyed.stampsUnique {s : State} (hs : Keyed (orderView s)) : StampsUnique s := by
  intro x hx y hy hxy
  have hmx := List.mem_map_of_mem (f := fun x : Stamp × Entry => (x.1.sequence.toNat, x.2)) hx
  have hmy := List.mem_map_of_mem (f := fun x : Stamp × Entry => (x.1.sequence.toNat, x.2)) hy
  rw [← hxy] at hmy
  exact hs.numbered.unique hmx hmy

theorem run_stampsUnique (P : Params) (bootId : CString) (heap : Heap) (as : List Action)
    (s : State) (hspares : Guarded (step P) (SparesAccepted P) (started bootId heap) as)
    (h : run (step P) (started bootId heap) as = some s) : StampsUnique s :=
  (run_guarded_invariant (I := fun s => Keyed (orderView s))
    (fun _ _ _ hs hc hstep => step_keyed hs hc hstep) (started_keyed bootId heap)
    hspares h).stampsUnique

def oneUpload : List Action :=
  [.enqueueStatus (some onlineStatus), .send (statusCall 0)] ++ passToPost ++ [.post .lost,
    .requeue, .finishPass] ++ passToPost ++ [.post .accepted]

theorem oneUpload_stampsUnique : ∃ s, run (step oneSlot) oneSlotStart oneUpload = some s ∧
    StampsUnique s := by
  have hspares : Guarded (step oneSlot) (SparesAccepted oneSlot) oneSlotStart oneUpload := by
    decide +kernel
  obtain ⟨s, hs⟩ : ∃ s, run (step oneSlot) oneSlotStart oneUpload = some s := ⟨_, rfl⟩
  exact ⟨s, hs, run_stampsUnique oneSlot _ _ oneUpload s hspares hs⟩

/-- The response to the first status is lost and a second status takes its place in the queue
before it is put back, so it is dropped, and the second goes out under its number. -/
def lostThenRefilled : List Action :=
  [.enqueueStatus (some onlineStatus), .send (statusCall 0)] ++ passToPost ++
  [.post .lost, .enqueueStatus (some onlineStatus), .send (statusCall 1), .requeue, .release,
    .finishPass] ++ passToPost ++ [.post .accepted]

theorem lostThenRefilled_reuses_stamp :
    ∃ s, run (step oneSlot) oneSlotStart lostThenRefilled = some s ∧
      ∃ x ∈ s.history.server, ∃ y ∈ s.history.server, x.1 = y.1 ∧ x.2.ticket ≠ y.2.ticket := by
  refine ⟨_, rfl, ?_⟩
  decide +kernel

end Aetus.Firmware
