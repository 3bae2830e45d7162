import Aetus.Firmware.UploadOrder

/-!
What a flush call that returns `ESP_OK` may conclude. The done bit carries no word of
which pass set it, so a pass already under way can answer for one that has yet to begin.
-/

set_option autoImplicit false

namespace Aetus.Firmware
open Aetus.Base

def UploaderPc.running : UploaderPc → Bool
  | .looping => false
  | .blocked => false
  | .woken => false
  | _ => true

/-- The call has cleared the done bit and may still take one for its own. -/
def FlushPhase.armed : FlushPhase → Bool
  | .entered => false
  | .woken => false
  | _ => true

def State.disposed (s : State) : List Entry :=
  s.history.uploaded ++ s.history.droppedEncode ++ s.history.droppedFull

/-- Every item accepted before the mark has been offered for upload and disposed of. -/
def Settled (s : State) (m : Mark) : Prop :=
  ∀ e ∈ s.history.accepted.take m.accepted, e ∈ s.disposed

def Served (s : State) (m : Mark) : Prop :=
  ∃ p ∈ s.history.finishedPasses, m.passes < p.number ∧ (p.stopped = true ∨ Settled s m)

/-- What no step takes back. -/
structure Grows (s t : State) : Prop where
  accepted : s.history.accepted <+: t.history.accepted
  disposed : ∀ e ∈ s.disposed, e ∈ t.disposed
  finished : ∀ p ∈ s.history.finishedPasses, p ∈ t.history.finishedPasses
  started : s.history.passesStarted ≤ t.history.passesStarted

theorem Grows.of_eq {s t : State} (ha : t.history.accepted = s.history.accepted)
    (hd : t.disposed = s.disposed)
    (hf : t.history.finishedPasses = s.history.finishedPasses)
    (hp : t.history.passesStarted = s.history.passesStarted) : Grows s t :=
  ⟨ha ▸ List.prefix_rfl, fun _ he => hd ▸ he, fun _ hx => hf ▸ hx, Nat.le_of_eq hp.symm⟩

theorem Settled.mono {s t : State} {m : Mark} (hg : Grows s t)
    (hm : m.accepted ≤ s.history.accepted.length) (h : Settled s m) : Settled t m := by
  intro e he
  obtain ⟨rest, hrest⟩ := hg.accepted
  rw [← hrest, List.take_append_of_le_length hm] at he
  exact hg.disposed e (h e he)

theorem Served.mono {s t : State} {m : Mark} (hg : Grows s t)
    (hm : m.accepted ≤ s.history.accepted.length) (h : Served s m) : Served t m := by
  obtain ⟨p, hp, hlt, hdone⟩ := h
  exact ⟨p, hg.finished p hp, hlt, hdone.imp_right (Settled.mono hg hm)⟩

/-- The invariant of the done bit. `current` is what a racing flush call breaks. -/
structure FlushInv (s : State) : Prop where
  marks : ∀ f ∈ s.flushes, f.mark.passes ≤ s.history.passesStarted ∧
    f.mark.accepted ≤ s.history.accepted.length
  current : s.uploader.running = true → ∀ f ∈ s.flushes, f.phase.armed = true →
    f.mark.passes < s.history.passesStarted
  drained : s.uploader = .finishing false → ∀ f ∈ s.flushes,
    f.mark.passes < s.history.passesStarted → Settled s f.mark
  done : s.ctx.uploadDone = true → ∀ f ∈ s.flushes, f.phase.armed = true → Served s f.mark
  woken : ∀ f ∈ s.flushes, f.phase = .woken → Served s f.mark
  flushed : ∀ m ∈ s.history.flushed, m.accepted ≤ s.history.accepted.length ∧ Served s m

theorem FlushInv.frame {s t : State} (hs : FlushInv s) (hg : Grows s t)
    (hflushes : t.flushes = s.flushes) (hdone : t.ctx.uploadDone = s.ctx.uploadDone)
    (hflushed : t.history.flushed = s.history.flushed)
    (hcurrent : t.uploader.running = true → ∀ f ∈ s.flushes, f.phase.armed = true →
      f.mark.passes < t.history.passesStarted)
    (hdrained : t.uploader = .finishing false → ∀ f ∈ s.flushes,
      f.mark.passes < t.history.passesStarted → Settled t f.mark) : FlushInv t := by
  refine ⟨?_, ?_, ?_, ?_, ?_, ?_⟩
  · intro f hf
    rw [hflushes] at hf
    obtain ⟨h1, h2⟩ := hs.marks f hf
    exact ⟨Nat.le_trans h1 hg.started, Nat.le_trans h2 hg.accepted.length_le⟩
  · rw [hflushes]
    exact hcurrent
  · rw [hflushes]
    exact hdrained
  · intro hd f hf harmed
    rw [hdone] at hd
    rw [hflushes] at hf
    exact (hs.done hd f hf harmed).mono hg (hs.marks f hf).2
  · intro f hf hw
    rw [hflushes] at hf
    exact (hs.woken f hf hw).mono hg (hs.marks f hf).2
  · intro m hm
    rw [hflushed] at hm
    obtain ⟨h1, h2⟩ := hs.flushed m hm
    exact ⟨Nat.le_trans h1 hg.accepted.length_le, h2.mono hg h1⟩

theorem FlushInv.quiet {s t : State} (hs : FlushInv s) (hg : Grows s t)
    (hflushes : t.flushes = s.flushes) (hdone : t.ctx.uploadDone = s.ctx.uploadDone)
    (hflushed : t.history.flushed = s.history.flushed)
    (huploader : t.uploader = s.uploader)
    (hpasses : t.history.passesStarted = s.history.passesStarted) : FlushInv t := by
  refine hs.frame hg hflushes hdone hflushed ?_ ?_
  · rw [huploader, hpasses]
    exact hs.current
  · rw [huploader, hpasses]
    exact fun hpc f hf hlt => (hs.drained hpc f hf hlt).mono hg (hs.marks f hf).2

theorem callStep_flush {P : Params} {s t : State} (hs : FlushInv s) (h : CallStep P s t) :
    FlushInv t := by
  have hsame {u : State} (hu : u.history = s.history) : Grows s u :=
    .of_eq (by rw [hu]) (by rw [State.disposed, hu]; rfl) (by rw [hu]) (by rw [hu])
  have hmore {u : State} (e : Entry) (n : Nat)
      (hu : u.history = { s.history with accepted := s.history.accepted ++ [e], nextTicket := n }) :
      Grows s u := by
    refine ⟨?_, ?_, ?_, ?_⟩
    · rw [hu]
      exact List.prefix_append _ _
    · rw [State.disposed, State.disposed, hu]
      exact fun _ he => he
    · rw [hu]
      exact fun _ hp => hp
    · rw [hu]
  cases h with
  | beginSend heap item hitem =>
    exact hs.quiet (.of_eq rfl rfl rfl rfl) rfl rfl rfl rfl rfl
  | beginFrame b f hroom hsize => exact hs.quiet (.of_eq rfl rfl rfl rfl) rfl rfl rfl rfl rfl
  | acceptFromIsr item hitem hroom => exact hs.quiet (hmore _ _ rfl) rfl rfl rfl rfl rfl
  | send c hc hphase hroom => exact hs.quiet (hmore _ _ rfl) rfl rfl rfl rfl rfl
  | release c hc hphase =>
    exact hs.quiet (hsame (by simp)) (by simp) (by simp) (by simp) (by simp) (by simp)
  | _ => exact hs.quiet (hsame rfl) rfl rfl rfl rfl rfl

theorem FlushInv.move {s t : State} (hs : FlushInv s) (hg : Grows s t)
    (hflushes : t.flushes = s.flushes) (hdone : t.ctx.uploadDone = s.ctx.uploadDone)
    (hflushed : t.history.flushed = s.history.flushed)
    (hpasses : t.history.passesStarted = s.history.passesStarted)
    (hrun : t.uploader.running = true → s.uploader.running = true)
    (hne : t.uploader ≠ .finishing false) : FlushInv t := by
  refine hs.frame hg hflushes hdone hflushed ?_ ?_
  · rw [hpasses]
    exact fun hr => hs.current (hrun hr)
  · exact fun hpc => absurd hpc hne

theorem settle_ne_finishing (e : Entry) (n : PoolNote) (stopped b : Bool) :
    settle e n stopped ≠ .finishing b := by
  unfold settle
  split <;> simp

theorem FlushCall.wake_eq (f : FlushCall) :
    f.wake.mark = f.mark ∧ (f.wake = f ∨ f.phase = .waiting ∧ f.wake.phase = .woken) := by
  unfold FlushCall.wake
  split
  · next hw => exact ⟨rfl, .inr ⟨hw, rfl⟩⟩
  · exact ⟨rfl, .inl rfl⟩

/-- The end of a pass answers every armed call, by waking it or by the done bit. -/
theorem FlushInv.setDone {s : State} (hs : FlushInv s)
    (hserved : ∀ f ∈ s.flushes, f.phase.armed = true → Served s f.mark)
    (hrun : s.uploader.running = false) : FlushInv s.setDone := by
  have hne : s.uploader ≠ .finishing false := by
    intro hpc
    simp [hpc, UploaderPc.running] at hrun
  unfold State.setDone
  split
  · refine ⟨?_, ?_, fun hpc => absurd hpc hne, by simp, ?_, hs.flushed⟩
    · intro f hf
      obtain ⟨g, hg, rfl⟩ := List.mem_map.mp hf
      rw [g.wake_eq.1]
      exact hs.marks g hg
    · intro hr
      exact absurd hr (by simp [hrun])
    · intro f hf hw
      obtain ⟨g, hg, rfl⟩ := List.mem_map.mp hf
      rw [g.wake_eq.1]
      rcases g.wake_eq.2 with heq | ⟨hphase, _⟩
      · exact hs.woken g hg (heq ▸ hw)
      · exact hserved g hg (by simp [hphase, FlushPhase.armed])
  · exact ⟨hs.marks, hs.current, hs.drained, fun _ => hserved, hs.woken, hs.flushed⟩

theorem uploaderStep_flush {P : Params} {s t : State} {d : Option Entry} (hs : FlushInv s)
    (hord : Ordered (orderView s)) (h : UploaderStep P s d t) : FlushInv t := by
  have hquiet {u : State} (hu : u.history = s.history) : Grows s u :=
    .of_eq (by rw [hu]) (by rw [State.disposed, hu]; rfl) (by rw [hu]) (by rw [hu])
  cases h with
  | waitSet hpc | waitBlock hpc =>
    exact hs.move (hquiet rfl) rfl rfl rfl rfl (by simp [UploaderPc.running]) (by simp)
  | beginPass hpc =>
    refine hs.frame ⟨List.prefix_rfl, fun _ he => he, fun _ hp => hp, Nat.le_succ _⟩ rfl rfl rfl
      (fun _ f hf _ => ?_) (by simp)
    exact Nat.lt_succ_of_le (hs.marks f hf).1
  | connect hpc ok =>
    exact hs.move (hquiet rfl) rfl rfl rfl rfl (by simp [hpc, UploaderPc.running])
      (by cases ok <;> simp)
  | receiveNone hpc hq =>
    refine hs.frame (hquiet rfl) rfl rfl rfl ?_ (fun _ f hf _ e he => ?_)
    · exact fun _ f hf harmed => hs.current (by simp [hpc, UploaderPc.running]) f hf harmed
    · have hempty : (orderView s).pipe.pending = [] := by
        simp [orderView, State.pipeline, hpc, hq, UploaderPc.hand]
      have hgone := hord.accounted.settled hempty (List.mem_of_mem_take he)
      simpa [orderView, State.pipeline, State.disposed] using hgone
  | receive e rest hpc hq =>
    exact hs.move (hquiet rfl) rfl rfl rfl rfl (by simp [hpc, UploaderPc.running]) (by simp)
  | encode e hpc =>
    exact hs.move (hquiet rfl) rfl rfl rfl rfl (by simp [hpc, UploaderPc.running]) (by simp)
  | encodeFailed e hpc | requeueFull e hpc =>
    refine hs.move ⟨List.prefix_rfl, fun x hx => ?_, fun _ hp => hp, Nat.le_refl _⟩ rfl rfl rfl rfl
      (by simp [hpc, UploaderPc.running]) (settle_ne_finishing e _ _ _)
    simp only [State.disposed, List.mem_append, List.mem_cons] at hx ⊢
    tauto
  | posted e stamp hpc =>
    refine hs.move ⟨List.prefix_rfl, fun x hx => ?_, fun _ hp => hp, Nat.le_refl _⟩ rfl rfl rfl rfl
      (by simp [hpc, UploaderPc.running]) (settle_ne_finishing e _ _ _)
    simp only [State.disposed, List.mem_append] at hx ⊢
    tauto
  | postLost e stamp hpc =>
    exact hs.move (.of_eq rfl rfl rfl rfl) rfl rfl rfl rfl (by simp [hpc, UploaderPc.running])
      (by simp)
  | postFailed e stamp hpc =>
    exact hs.move (hquiet rfl) rfl rfl rfl rfl (by simp [hpc, UploaderPc.running]) (by simp)
  | requeue e hpc hroom =>
    exact hs.move (hquiet rfl) rfl rfl rfl rfl (by simp [hpc, UploaderPc.running]) (by simp)
  | note e n stopped hpc =>
    exact hs.move (hquiet rfl) rfl rfl rfl rfl (by simp [hpc, UploaderPc.running]) (by simp)
  | release e stopped hpc =>
    refine hs.move (hquiet (by simp)) (by simp) (by simp) (by simp) (by simp)
      (by simp [hpc, UploaderPc.running]) ?_
    rw [releaseQueueItem_uploader]
    cases stopped <;> simp [afterRelease]
  | finishPass stopped hpc =>
    have hgrows : Grows s { s with
        uploader := .looping
        history.finishedPasses :=
          ⟨s.history.passesStarted, stopped⟩ :: s.history.finishedPasses } :=
      ⟨List.prefix_rfl, fun _ he => he, fun _ hp => List.mem_cons_of_mem _ hp, Nat.le_refl _⟩
    have hlooping := hs.move hgrows rfl rfl rfl rfl (by simp [UploaderPc.running]) (by simp)
    refine hlooping.setDone (fun f hf harmed => ?_) rfl
    have hlt := hs.current (by simp [hpc, UploaderPc.running]) f hf harmed
    refine ⟨_, List.mem_cons_self, hlt, ?_⟩
    cases stopped with
    | true => exact .inl rfl
    | false => exact .inr ((hs.drained hpc f hf hlt).mono hgrows (hs.marks f hf).2)

theorem setUploadBit_flush {s : State} (hs : FlushInv s) (due : Bool) :
    FlushInv (s.setUploadBit due) := by
  unfold State.setUploadBit
  split
  · exact hs.move (.of_eq rfl rfl rfl rfl) rfl rfl rfl rfl (by simp [UploaderPc.running]) (by simp)
  · split <;> exact hs.quiet (.of_eq rfl rfl rfl rfl) rfl rfl rfl rfl rfl

theorem FlushInv.clearDone {s : State} (hs : FlushInv s) :
    FlushInv { s with ctx.uploadDone := false } :=
  ⟨hs.marks, hs.current, hs.drained, by simp, hs.woken, hs.flushed⟩

theorem FlushInv.moveFlush {s : State} (hs : FlushInv s) {f : FlushCall} {phase : FlushPhase}
    (hf : f ∈ s.flushes)
    (hcurrent : s.uploader.running = true → phase.armed = true →
      f.mark.passes < s.history.passesStarted)
    (hdone : s.ctx.uploadDone = true → phase.armed = true → Served s f.mark)
    (hwoken : phase = .woken → Served s f.mark) :
    FlushInv (s.moveFlush f { f with phase := phase }) := by
  have hcases {g : FlushCall} {Q : FlushCall → Prop}
      (hg : g ∈ { f with phase := phase } :: s.flushes.erase f)
      (hnew : Q { f with phase := phase }) (hold : ∀ g ∈ s.flushes, Q g) : Q g := by
    rcases List.mem_cons.mp hg with rfl | hg
    · exact hnew
    · exact hold g (List.mem_of_mem_erase hg)
  refine ⟨fun g hg => ?_, fun hr g hg => ?_, fun hpc g hg => ?_, fun hd g hg => ?_,
    fun g hg => ?_, hs.flushed⟩
  · exact hcases (Q := fun g => g.mark.passes ≤ _ ∧ g.mark.accepted ≤ _) hg (hs.marks f hf)
      hs.marks
  · exact hcases (Q := fun g => g.phase.armed = true → g.mark.passes < _) hg (hcurrent hr)
      (hs.current hr)
  · exact hcases (Q := fun g => g.mark.passes < s.history.passesStarted → Settled s g.mark) hg
      (hs.drained hpc f hf) (hs.drained hpc)
  · exact hcases (Q := fun g => g.phase.armed = true → Served s g.mark) hg (hdone hd) (hs.done hd)
  · exact hcases (Q := fun g => g.phase = .woken → Served s g.mark) hg hwoken hs.woken

theorem FlushInv.erase {s : State} (hs : FlushInv s) (f : FlushCall) :
    FlushInv { s with flushes := s.flushes.erase f } :=
  ⟨fun g hg => hs.marks g (List.mem_of_mem_erase hg),
    fun hr g hg => hs.current hr g (List.mem_of_mem_erase hg),
    fun hpc g hg => hs.drained hpc g (List.mem_of_mem_erase hg),
    fun hd g hg => hs.done hd g (List.mem_of_mem_erase hg),
    fun g hg => hs.woken g (List.mem_of_mem_erase hg), hs.flushed⟩

theorem FlushInv.returnFlush {s : State} (hs : FlushInv s) {f : FlushCall} (hf : f ∈ s.flushes)
    (hserved : Served s f.mark) : FlushInv (s.returnFlush f) := by
  obtain ⟨hmarks, hcurrent, hdrained, hdone, hwoken, -⟩ := hs.erase f
  refine ⟨hmarks, hcurrent, hdrained, hdone, hwoken, fun m hm => ?_⟩
  rcases List.mem_cons.mp hm with rfl | hm
  · exact ⟨(hs.marks f hf).2, hserved⟩
  · exact hs.flushed m hm

/-- A flush call does not clear the done bit while a pass older than itself is under way. -/
def ClearsBetweenPasses (s : State) : Action → Prop
  | .flushClear f => s.uploader.running = true → f.mark.passes < s.history.passesStarted
  | _ => True

instance (s : State) (a : Action) : Decidable (ClearsBetweenPasses s a) := by
  unfold ClearsBetweenPasses
  split <;> infer_instance

theorem flushStep_flush {s t : State} {a : Action} (hs : FlushInv s)
    (hclear : ClearsBetweenPasses s a) (h : FlushStep s a t) : FlushInv t := by
  cases h with
  | begin =>
    refine ⟨fun g hg => ?_, fun hr g hg harmed => ?_, fun hpc g hg hlt => ?_,
      fun hd g hg harmed => ?_, fun g hg hw => ?_, hs.flushed⟩
    all_goals rcases List.mem_cons.mp hg with rfl | hg
    · exact ⟨Nat.le_refl _, Nat.le_refl _⟩
    · exact hs.marks g hg
    · cases harmed
    · exact hs.current hr g hg harmed
    · exact absurd hlt (Nat.lt_irrefl _)
    · exact hs.drained hpc g hg hlt
    · cases harmed
    · exact hs.done hd g hg harmed
    · cases hw
    · exact hs.woken g hg hw
  | clear f hf hphase =>
    exact hs.clearDone.moveFlush hf (fun hr _ => hclear hr) (by simp) (by simp)
  | flag f hf hphase =>
    have harmed : f.phase.armed = true := by simp [hphase, FlushPhase.armed]
    have hset := setUploadBit_flush hs false
    have hf' : f ∈ (s.setUploadBit false).flushes := by
      unfold State.setUploadBit
      split
      · exact hf
      · exact hf
    exact hset.moveFlush hf' (fun hr _ => hset.current hr f hf' harmed)
      (fun hd _ => hset.done hd f hf' harmed) (by simp)
  | waitDone f hf hphase hdone =>
    have harmed : f.phase.armed = true := by simp [hphase, FlushPhase.armed]
    exact hs.clearDone.moveFlush hf (by simp [FlushPhase.armed]) (by simp)
      fun _ => hs.done hdone f hf harmed
  | wait f hf hphase =>
    have harmed : f.phase.armed = true := by simp [hphase, FlushPhase.armed]
    exact hs.moveFlush hf (fun hr _ => hs.current hr f hf harmed)
      (fun hd _ => hs.done hd f hf harmed) (by simp)
  | expire f hf hphase =>
    have harmed : f.phase.armed = true := by simp [hphase, FlushPhase.armed]
    exact hs.moveFlush hf (fun hr _ => hs.current hr f hf harmed)
      (fun hd _ => hs.done hd f hf harmed) (by simp)
  | returnWoken f hf hphase => exact hs.returnFlush hf (hs.woken f hf hphase)
  | returnDone f hf hphase hdone =>
    exact hs.clearDone.returnFlush hf (hs.done hdone f hf (by simp [hphase, FlushPhase.armed]))
  | returnTimeout f hf hphase => exact hs.erase f

structure FlushSafe (s : State) : Prop where
  ordered : Ordered (orderView s)
  inv : FlushInv s

theorem step_flushSafe {P : Params} {s t : State} {a : Action} (hs : FlushSafe s)
    (hclear : ClearsBetweenPasses s a) (h : step P s a = some t) : FlushSafe t := by
  refine ⟨step_ordered hs.ordered h, ?_⟩
  cases step_system h with
  | timer ha ht =>
    subst ht
    exact setUploadBit_flush hs.inv true
  | call hc => exact callStep_flush hs.inv hc
  | uploader hu => exact uploaderStep_flush hs.inv hs.ordered hu
  | flush hf => exact flushStep_flush hs.inv hclear hf

theorem started_flushSafe (bootId : CString) (heap : Heap) : FlushSafe (started bootId heap) where
  ordered := started_ordered bootId heap
  inv := by constructor <;> simp [started, UploaderPc.running]

/-- Every flush call that has returned `ESP_OK` has been served. -/
def FlushesServed (s : State) : Prop := ∀ m ∈ s.history.flushed, Served s m

theorem run_flushesServed (P : Params) (bootId : CString) (heap : Heap) (as : List Action)
    (s : State) (hclear : Guarded (step P) ClearsBetweenPasses (started bootId heap) as)
    (h : run (step P) (started bootId heap) as = some s) : FlushesServed s := by
  have hsafe := run_guarded_invariant (I := FlushSafe)
    (fun _ _ _ hs hc hstep => step_flushSafe hs hc hstep) (started_flushSafe bootId heap) hclear h
  exact fun m hm => (hsafe.inv.flushed m hm).2

def flushCall (m : Mark) : List Action :=
  [.beginFlush, .flushClear ⟨.entered, m⟩, .flushFlag ⟨.cleared, m⟩, .flushWait ⟨.flagged, m⟩]

def quietFlush : List Action :=
  [.enqueueStatus (some onlineStatus), .send (statusCall 0)] ++ flushCall ⟨0, 1⟩ ++
  [.uploaderWait, .beginPass, .connect true, .receive, .encode true, .post .accepted, .release,
    .receive, .finishPass, .flushReturn ⟨.woken, ⟨0, 1⟩⟩]

theorem quietFlush_served : ∃ s, run (step oneSlot) oneSlotStart quietFlush = some s ∧
    FlushesServed s := by
  have hclear : Guarded (step oneSlot) ClearsBetweenPasses oneSlotStart quietFlush := by
    decide +kernel
  obtain ⟨s, hs⟩ : ∃ s, run (step oneSlot) oneSlotStart quietFlush = some s := ⟨_, rfl⟩
  exact ⟨s, hs, run_flushesServed oneSlot _ _ quietFlush s hclear hs⟩

def lateFlush : List Action :=
  [.uploadTimer, .uploaderWait, .beginPass, .connect true, .receive,
    .enqueueStatus (some onlineStatus), .send (statusCall 0)] ++ flushCall ⟨1, 1⟩ ++
  [.finishPass, .flushReturn ⟨.woken, ⟨1, 1⟩⟩]

theorem lateFlush_not_served : ∃ s, run (step oneSlot) oneSlotStart lateFlush = some s ∧
    s.history.flushed = [⟨1, 1⟩] ∧ s.history.finishedPasses = [⟨1, false⟩] ∧
    s.ctx.queue = [⟨0, none, .status onlineStatus⟩] ∧ ¬ FlushesServed s := by
  refine ⟨_, rfl, rfl, rfl, rfl, fun hserved => ?_⟩
  obtain ⟨p, hp, hlt, _⟩ := hserved ⟨1, 1⟩ List.mem_cons_self
  obtain rfl : p = ⟨1, false⟩ := List.mem_singleton.mp hp
  exact absurd hlt (by decide)

end Aetus.Firmware
