import Aetus.Base.Progress
import Aetus.Firmware.UploaderSteps
import Aetus.Firmware.UploadOrder

/-!
The uploader gets on: with the network up, an item in the queue is uploaded after a number of
steps of the uploader task that depends on its place only, whatever the other tasks do.
-/

set_option autoImplicit false

namespace Aetus.Firmware
open Aetus.Base

def Action.isUploader : Action → Bool
  | .uploaderWait | .beginPass | .connect _ | .receive | .encode _ | .post _ | .requeue | .note
  | .release | .finishPass => true
  | _ => false

def Action.online : Action → Bool
  | .connect ok => ok
  | .post outcome => outcome = .accepted
  | _ => true

/-- The most steps of the uploader that it takes from here to the upload of the head. -/
def UploaderPc.rank : UploaderPc → Nat
  | .posting _ _ => 1
  | .encoding _ => 2
  | .receiving => 3
  | .connecting => 4
  | .woken => 5
  | .blocked => 5
  | .looping => 6
  | .finishing _ => 7
  | .requeueing _ => 8
  | .releasing _ stopped => if stopped then 8 else 4
  | .noting _ _ stopped => if stopped then 9 else 5

/-- Each item in front takes five steps: receive, encode, post, note and release. -/
def uploadDistance (e : Entry) (s : State) : Nat :=
  s.uploader.rank + 5 * s.pipeline.pending.idxOf e

theorem rank_le (pc : UploaderPc) : pc.rank ≤ 9 := by
  unfold UploaderPc.rank
  split <;> first | omega | (split <;> omega)

variable {P : Params} {s t : State} {a : Action} {e : Entry}

theorem stepCall_of_isUploader (h : a.isUploader = true) : stepCall P s a = none := by
  cases a with
  | uploaderWait | beginPass | connect ok | receive | encode ok | post outcome | requeue | note
  | release | finishPass => rfl
  | _ => cases h

theorem stepFlush_of_isUploader (h : a.isUploader = true) : stepFlush s a = none := by
  cases a with
  | uploaderWait | beginPass | connect ok | receive | encode ok | post outcome | requeue | note
  | release | finishPass => rfl
  | _ => cases h

theorem step_of_isUploader (h : a.isUploader = true) : step P s a = stepUploader P s a := by
  have hne : a ≠ .uploadTimer := by
    rintro rfl
    cases h
  rw [step.eq_2 P s a hne, stepCall_of_isUploader h, stepFlush_of_isUploader h, Option.none_or,
    Option.or_none]

theorem stepUploader_isUploader (h : stepUploader P s a = some t) : a.isUploader = true := by
  unfold stepUploader at h
  split at h <;> first | rfl | cases h

structure OthersStep (s t : State) : Prop where
  rank : t.uploader.rank ≤ s.uploader.rank
  hand : t.uploader.hand = s.uploader.hand
  queue : s.ctx.queue <+: t.ctx.queue
  uploaded : t.history.uploaded = s.history.uploaded

theorem OthersStep.of_eq (hpc : t.uploader = s.uploader) (hqueue : t.ctx.queue = s.ctx.queue)
    (huploaded : t.history.uploaded = s.history.uploaded) : OthersStep s t where
  rank := by rw [hpc]
  hand := by rw [hpc]
  queue := hqueue ▸ List.prefix_rfl
  uploaded := huploaded

theorem setUploadBit_others (s : State) (due : Bool) : OthersStep s (s.setUploadBit due) := by
  unfold State.setUploadBit
  split
  · next hpc => exact ⟨by simp [hpc, UploaderPc.rank], by simp [hpc, UploaderPc.hand],
      List.prefix_rfl, rfl⟩
  · split <;> exact .of_eq rfl rfl rfl

theorem callStep_others (h : CallStep P s t) : OthersStep s t := by
  cases h with
  | acceptFromIsr item hitem hroom => exact ⟨Nat.le_refl _, rfl, List.prefix_append _ _, rfl⟩
  | send c hc hphase hroom => exact ⟨Nat.le_refl _, rfl, List.prefix_append _ _, rfl⟩
  | release c hc hphase =>
    rw [releaseQueueItem_frame]
    exact .of_eq rfl rfl rfl
  | _ => exact .of_eq rfl rfl rfl

theorem flushStep_others (h : FlushStep s a t) : OthersStep s t := by
  cases h with
  | flag f hf hphase =>
    have hbit := setUploadBit_others s false
    exact ⟨hbit.rank, hbit.hand, hbit.queue, hbit.uploaded⟩
  | _ => exact .of_eq rfl rfl rfl

theorem step_others (ha : a.isUploader = false) (h : step P s a = some t) : OthersStep s t := by
  unfold step at h
  split at h
  · cases h
    exact setUploadBit_others s true
  · rcases Option.or_eq_some_iff.mp h with h | ⟨-, h⟩
    · rcases Option.or_eq_some_iff.mp h with h | ⟨-, h⟩
      · exact callStep_others (stepCall_step h)
      · exact absurd (stepUploader_isUploader h) (by simp [ha])
    · exact flushStep_others (stepFlush_step h)

theorem OthersStep.pending (h : OthersStep s t) :
    s.pipeline.pending <+: t.pipeline.pending := by
  rw [State.pipeline, State.pipeline, h.hand]
  exact (List.prefix_append_right_inj _).mpr h.queue

theorem stepUploader_posting {stamp : Stamp} (hpc : s.uploader = .posting e stamp)
    (hon : a.online = true) (h : stepUploader P s a = some t) :
    t.history.uploaded = s.history.uploaded ++ [e] ∧ t.uploader = settle e .uploadSuccess false ∧
      t.ctx.queue = s.ctx.queue := by
  unfold stepUploader at h
  rw [hpc] at h
  split at h
  case h_6 hpost =>
    cases hpost
    cases h
    exact ⟨rfl, rfl, rfl⟩
  all_goals simp_all [Action.online]

theorem stepUploader_connecting (hpc : s.uploader = .connecting) (hon : a.online = true)
    (h : stepUploader P s a = some t) : t.uploader = .receiving := by
  unfold stepUploader at h
  rw [hpc] at h
  split at h
  case h_3 ok hconnecting =>
    obtain rfl : ok = true := hon
    cases h
    rfl
  all_goals simp_all

theorem pending_eq (s : State) :
    s.pipeline.pending = s.uploader.hand.toList ++ s.ctx.queue := rfl

theorem settle_rank (e : Entry) (n : PoolNote) (stopped : Bool) :
    (settle e n stopped).rank ≤ if stopped then 9 else 5 := by
  unfold settle
  split <;> simp only [UploaderPc.rank] <;> split <;> omega

theorem stepUploader_uploaded (h : stepUploader P s a = some t) :
    s.history.uploaded <+: t.history.uploaded := by
  have hstep := stepUploader_step h
  generalize droppedBy P s a = d at hstep
  cases hstep with
  | posted x stamp hpc => exact List.prefix_append _ _
  | release x stopped hpc => simp
  | finishPass stopped hpc => simp
  | _ => exact List.prefix_rfl

/-- The step leads the task on with every item where it was. -/
theorem pays_of_rank (hmem : e ∈ s.pipeline.pending)
    (hpending : t.pipeline.pending = s.pipeline.pending)
    (hrank : t.uploader.rank + 1 ≤ s.uploader.rank) :
    e ∈ t.pipeline.pending ∧ uploadDistance e t + 1 ≤ uploadDistance e s := by
  rw [uploadDistance, uploadDistance, hpending]
  exact ⟨hmem, by omega⟩

/-- The step is done with the head, and what comes after that is paid by the place gained. -/
theorem pays_of_head {x : Entry} (hmem : e ∈ s.pipeline.pending)
    (hpending : s.pipeline.pending = x :: t.pipeline.pending) (hne : x ≠ e)
    (hrank : t.uploader.rank ≤ s.uploader.rank + 4) :
    e ∈ t.pipeline.pending ∧ uploadDistance e t + 1 ≤ uploadDistance e s := by
  rw [hpending] at hmem
  rw [uploadDistance, uploadDistance, hpending, List.idxOf_cons_ne _ hne]
  exact ⟨(List.mem_cons.mp hmem).resolve_left (Ne.symm hne), by omega⟩

/-- Every step of the uploader brings a waiting item nearer to its upload. -/
theorem stepUploader_pays (hmem : e ∈ s.pipeline.pending) (hon : a.online = true)
    (hspared : droppedBy P s a ≠ some e) (h : stepUploader P s a = some t) :
    e ∈ t.history.uploaded ∨
      e ∈ t.pipeline.pending ∧ uploadDistance e t + 1 ≤ uploadDistance e s := by
  have hstep := stepUploader_step h
  -- with the network up, a post has one outcome
  have hpost {x : Entry} {stamp : Stamp} (hpc : s.uploader = .posting x stamp) :
      e ∈ t.history.uploaded ∨
        e ∈ t.pipeline.pending ∧ uploadDistance e t + 1 ≤ uploadDistance e s := by
    obtain ⟨huploaded, hsettled, hqueue⟩ := stepUploader_posting hpc hon h
    by_cases hxe : x = e
    · exact .inl (by simp [huploaded, hxe])
    · refine .inr (pays_of_head hmem ?_ hxe ?_)
      · rw [pending_eq, pending_eq, hsettled, (settle_hand x _ false).1, hpc, hqueue]
        rfl
      · rw [hsettled, hpc]
        exact settle_rank x .uploadSuccess false
  generalize droppedBy P s a = d at hstep hspared
  cases hstep with
  | waitSet hpc | waitBlock hpc | beginPass hpc =>
    exact .inr (pays_of_rank hmem (by simp [State.pipeline, hpc, UploaderPc.hand])
      (by simp [hpc, UploaderPc.rank]))
  | connect hpc ok =>
    have hreceiving := stepUploader_connecting hpc hon h
    refine .inr (pays_of_rank hmem ?_ ?_)
    · rw [pending_eq, pending_eq, hreceiving, hpc]
      rfl
    · rw [hreceiving, hpc]
      exact Nat.le_refl _
  | receiveNone hpc hq => simp [State.pipeline, hpc, hq, UploaderPc.hand] at hmem
  | receive x rest hpc hq =>
    exact .inr (pays_of_rank hmem (by simp [State.pipeline, hpc, hq, UploaderPc.hand])
      (by simp [hpc, UploaderPc.rank]))
  | encode x hpc =>
    exact .inr (pays_of_rank hmem (by simp [State.pipeline, hpc, UploaderPc.hand])
      (by simp [hpc, UploaderPc.rank]))
  | encodeFailed x hpc =>
    have hxe : x ≠ e := fun heq => hspared (congrArg some heq)
    refine .inr (pays_of_head hmem ?_ hxe ?_)
    · rw [pending_eq, pending_eq, hpc, (settle_hand x _ false).1]
      rfl
    · have hrank := settle_rank x .validationFailure false
      rw [hpc]
      exact hrank.trans (by simp [UploaderPc.rank])
  | posted x stamp hpc => exact hpost hpc
  | postLost x stamp hpc => exact hpost hpc
  | postFailed x stamp hpc => exact hpost hpc
  | requeue x hpc hroom =>
    exact .inr (pays_of_rank hmem (by simp [State.pipeline, hpc, UploaderPc.hand])
      (by simp [hpc, UploaderPc.rank]))
  | requeueFull x hpc =>
    have hxe : x ≠ e := fun heq => hspared (congrArg some heq)
    refine .inr (pays_of_head hmem ?_ hxe ?_)
    · rw [pending_eq, pending_eq, hpc, (settle_hand x _ true).1]
      rfl
    · have hrank := settle_rank x .finalDrop true
      rw [hpc]
      exact hrank.trans (by simp [UploaderPc.rank])
  | note x n stopped hpc =>
    refine .inr (pays_of_rank hmem (by simp [State.pipeline, hpc, UploaderPc.hand]) ?_)
    cases stopped <;> simp [hpc, UploaderPc.rank]
  | release x stopped hpc =>
    refine .inr (pays_of_rank hmem ?_ ?_)
    · rw [releaseQueueItem_frame]
      cases stopped <;> simp [State.pipeline, hpc, UploaderPc.hand, afterRelease]
    · rw [releaseQueueItem_uploader]
      cases stopped <;> simp [hpc, UploaderPc.rank, afterRelease]
  | finishPass stopped hpc =>
    refine .inr (pays_of_rank hmem ?_ ?_)
    · have hpending := congrArg (fun v => v.pipe.pending) (orderView_setDone { s with
        uploader := .looping
        history.finishedPasses :=
          ⟨s.history.passesStarted, stopped⟩ :: s.history.finishedPasses })
      refine hpending.trans ?_
      simp [orderView, State.pipeline, hpc, UploaderPc.hand]
    · rw [setDone_uploader]
      simp [hpc, UploaderPc.rank]

theorem OthersStep.waits (h : OthersStep s t) (hmem : e ∈ s.pipeline.pending) :
    e ∈ t.pipeline.pending ∧ uploadDistance e t ≤ uploadDistance e s := by
  obtain ⟨rest, hrest⟩ := h.pending
  have hrank := h.rank
  rw [uploadDistance, uploadDistance, ← hrest, List.idxOf_append_of_mem hmem]
  exact ⟨List.mem_append_left rest hmem, by omega⟩

def UploadsItem (P : Params) (e : Entry) (s : State) (a : Action) : Prop :=
  a.online = true ∧ droppedBy P s a ≠ some e

instance (P : Params) (e : Entry) (s : State) (a : Action) : Decidable (UploadsItem P e s a) :=
  inferInstanceAs (Decidable (_ ∧ _))

theorem uploader_advances (P : Params) (e : Entry) :
    Advances (step P) (UploadsItem P e) (fun s => e ∈ s.pipeline.pending)
      (fun s => e ∈ s.history.uploaded) (uploadDistance e) Action.isUploader where
  stays := by
    intro s a t hmem h
    cases hworks : a.isUploader with
    | false => exact (step_others hworks h).uploaded ▸ hmem
    | true =>
      rw [step_of_isUploader hworks] at h
      exact (stepUploader_uploaded h).subset hmem
  pays := by
    intro s a t hmem hguard h
    cases hworks : a.isUploader with
    | false => exact .inr ((step_others hworks h).waits hmem)
    | true =>
      rw [step_of_isUploader hworks] at h
      exact stepUploader_pays hmem hguard.1 hguard.2 h

/-- Where the uploader task is not waiting to be woken, it has a step to take. -/
theorem uploader_enabled (P : Params) (s : State) (hpc : s.uploader ≠ .blocked) :
    ∃ a t, a.isUploader = true ∧ a.online = true ∧ step P s a = some t := by
  suffices h : ∃ a t, a.isUploader = true ∧ a.online = true ∧ stepUploader P s a = some t by
    obtain ⟨a, t, hworks, hon, ht⟩ := h
    exact ⟨a, t, hworks, hon, (step_of_isUploader hworks).trans ht⟩
  unfold stepUploader
  cases hs : s.uploader with
  | looping =>
    refine ⟨.uploaderWait, ?_⟩
    dsimp only
    split <;> exact ⟨_, rfl, rfl, rfl⟩
  | blocked => exact absurd hs hpc
  | woken => exact ⟨.beginPass, _, rfl, rfl, rfl⟩
  | connecting => exact ⟨.connect true, _, rfl, rfl, rfl⟩
  | receiving =>
    refine ⟨.receive, ?_⟩
    dsimp only
    split <;> exact ⟨_, rfl, rfl, rfl⟩
  | encoding x =>
    refine ⟨.encode true, ?_⟩
    dsimp only
    split <;> exact ⟨_, rfl, rfl, rfl⟩
  | posting x stamp => exact ⟨.post .accepted, _, rfl, rfl, rfl⟩
  | requeueing x =>
    refine ⟨.requeue, ?_⟩
    dsimp only
    split <;> exact ⟨_, rfl, rfl, rfl⟩
  | noting x n stopped => exact ⟨.note, _, rfl, rfl, rfl⟩
  | releasing x stopped => exact ⟨.release, _, rfl, rfl, rfl⟩
  | finishing stopped => exact ⟨.finishPass, _, rfl, rfl, rfl⟩

theorem uploadTimer_wakes (P : Params) {s : State} (hpc : s.uploader = .blocked) :
    ∃ t, step P s .uploadTimer = some t ∧ t.uploader = .woken :=
  ⟨s.setUploadBit true, rfl, by simp [State.setUploadBit, hpc]⟩

theorem idxOf_le_of_getElem? {xs : List Entry} {i : Nat} (h : xs[i]? = some e) :
    xs.idxOf e ≤ i := by
  obtain ⟨hlt, rfl⟩ := List.getElem?_eq_some_iff.mp h
  have hmem : xs[i] ∈ xs.take (i + 1) := List.mem_take_iff_getElem.mpr ⟨i, by omega, rfl⟩
  have hbelow := ((List.take_prefix (i + 1) xs).mem_iff_idxOf_lt_length xs[i]).mp hmem
  rw [List.length_take] at hbelow
  omega

/-- The uploader task is never stuck, and an item with `i` items before it is uploaded after
`5 * i + 10` steps of that task, whatever comes between them. -/
theorem run_pending_uploaded (P : Params) (s : State) :
    (s.uploader = .blocked → ∃ t, step P s .uploadTimer = some t ∧ t.uploader = .woken) ∧
    (s.uploader ≠ .blocked →
      ∃ a t, a.isUploader = true ∧ a.online = true ∧ step P s a = some t) ∧
    ∀ i e, s.pipeline.pending[i]? = some e → ∀ as t, Guarded (step P) (UploadsItem P e) s as →
      run (step P) s as = some t → 5 * i + 10 ≤ as.countP Action.isUploader →
      e ∈ t.history.uploaded := by
  refine ⟨uploadTimer_wakes P, uploader_enabled P s, ?_⟩
  intro i e hpending as t hguard hrun hsteps
  refine run_reaches (uploader_advances P e) (List.mem_of_getElem? hpending) hguard hrun ?_
  have hplace := idxOf_le_of_getElem? hpending
  have hrank := rank_le s.uploader
  rw [uploadDistance]
  omega

def twoSlots : Params := { oneSlot with queueDepth := 2 }

def secondWaiting : List Action :=
  [.enqueueStatus (some onlineStatus), .send (statusCall 0), .enqueueStatus (some onlineStatus),
    .send (statusCall 1)] ++ passToPost ++ [.post .lost, .requeue]

def bothUploaded : List Action :=
  [.finishPass, .uploadTimer, .uploaderWait, .beginPass, .connect true, .receive, .encode true,
    .post .accepted, .release, .receive, .encode true, .post .accepted, .release, .receive,
    .finishPass, .uploaderWait]

def secondWaitingState : State :=
  (run (step twoSlots) oneSlotStart secondWaiting).getD oneSlotStart

theorem run_pending_uploaded_second :
    run (step twoSlots) oneSlotStart secondWaiting = some secondWaitingState ∧
      ∃ t, run (step twoSlots) secondWaitingState bothUploaded = some t ∧
        (statusCall 1).entry ∈ t.history.uploaded := by
  refine ⟨rfl, _, rfl, ?_⟩
  exact (run_pending_uploaded twoSlots secondWaitingState).2.2 1 (statusCall 1).entry rfl
    bothUploaded _ (by decide +kernel) rfl (by decide +kernel)

end Aetus.Firmware
