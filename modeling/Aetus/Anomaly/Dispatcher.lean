import Aetus.Anomaly.Webhooks
import Aetus.Base.Custody
import Aetus.Base.Runs
import Mathlib.Data.Fintype.Basic

/-!
Any number of dispatchers that run dispatch_once against one database, one SQL statement and
one end of a POST at a time: what keeps a row from being sent again once a POST of it succeeded.
-/

set_option autoImplicit false

namespace Aetus.Anomaly
open Aetus.Base Aetus.Postgres

variable {W F : Type}

/-- Where a dispatcher stands with the delivery it has come to, and what is left of its claim. -/
inductive Phase where
  | idle
  | sending (delivery : PendingDelivery) (rest : List PendingDelivery)
  | awaiting (delivery : PendingDelivery) (rest : List PendingDelivery)
  | received (delivery : PendingDelivery) (result : SendResult) (rest : List PendingDelivery)
  | recorded (delivery : PendingDelivery) (result : SendResult) (rest : List PendingDelivery)
  deriving DecidableEq

namespace Phase

/-- The loop of dispatch_once. -/
def loop : List PendingDelivery → Phase
  | [] => .idle
  | delivery :: rest => .sending delivery rest

def held : Phase → List PendingDelivery
  | .idle => []
  | .sending delivery rest | .awaiting delivery rest => delivery :: rest
  | .received delivery _ rest | .recorded delivery _ rest => delivery :: rest

def confirmed : Phase → Option PendingDelivery
  | .received delivery result _ | .recorded delivery result _ =>
    if result.isSuccess then some delivery else none
  | _ => none

@[simp] theorem held_loop (rest : List PendingDelivery) : (loop rest).held = rest := by
  cases rest <;> rfl

@[simp] theorem confirmed_loop (rest : List PendingDelivery) : (loop rest).confirmed = none := by
  cases rest <;> rfl

theorem mem_held_of_confirmed {phase : Phase} {delivery : PendingDelivery}
    (h : phase.confirmed = some delivery) : delivery ∈ phase.held := by
  cases phase with
  | received d result rest | recorded d result rest =>
    simp only [confirmed] at h
    split at h
    · cases h
      simp [held]
    · cases h
  | idle | sending | awaiting => cases h

end Phase

inductive Post where
  | sent (outboxId : Nat)
  | answered (outboxId : Nat) (success : Bool)
  deriving DecidableEq

/-- The posts stand with the latest one first. -/
structure World (W F : Type) where
  db : WebhookTables F
  now : Timestamptz
  phase : W → Phase
  posts : List Post

inductive Action (W F : Type) where
  | clock (now : Timestamptz)
  | enqueue (row : OutboxRow F)
  | createEndpoint (request : WebhookEndpointRequest)
  | claim (w : W) (limit : Int)
  | send (w : W)
  | answer (w : W) (result : SendResult)
  | insert (w : W)
  | update (w : W)
  | stop (w : W)

namespace World

def start (db : WebhookTables F) (now : Timestamptz) : World W F := ⟨db, now, fun _ => .idle, []⟩

variable [DecidableEq W]

def setPhase (s : World W F) (w : W) (phase : Phase) : World W F :=
  { s with phase := Function.update s.phase w phase }

/-- A dispatcher may stop anywhere, also because a statement of its own fails. -/
def step (s : World W F) : Action W F → Option (World W F)
  | .clock now => some { s with now }
  | .enqueue row => (s.db.enqueue s.now row).map fun db => { s with db }
  | .createEndpoint request => some { s with db := s.db.createWebhookEndpoint request }
  | .claim w limit =>
    match s.phase w with
    | .idle => (s.db.claimPendingDeliveries s.now limit).map fun claimed =>
      s.setPhase w (.loop claimed)
    | _ => none
  | .send w =>
    match s.phase w with
    | .sending delivery rest => some { s.setPhase w (.awaiting delivery rest) with
        posts := .sent delivery.outboxId :: s.posts }
    | _ => none
  | .answer w result =>
    match s.phase w with
    | .awaiting delivery rest => some { s.setPhase w (.received delivery result rest) with
        posts := .answered delivery.outboxId result.isSuccess :: s.posts }
    | _ => none
  | .insert w =>
    match s.phase w with
    | .received delivery result rest => some { s.setPhase w (.recorded delivery result rest) with
        db := s.db.insertDelivery delivery result }
    | _ => none
  | .update w =>
    match s.phase w with
    | .recorded delivery result rest => some { s.setPhase w (.loop rest) with
        db := s.db.updateOutbox s.now delivery result }
    | _ => none
  | .stop w => some (s.setPhase w .idle)

inductive Move (s : World W F) : Action W F → World W F → Prop
  | clock (now : Timestamptz) : Move s (.clock now) { s with now }
  | enqueue {row : OutboxRow F} {db : WebhookTables F} (h : s.db.enqueue s.now row = some db) :
    Move s (.enqueue row) { s with db }
  | createEndpoint (request : WebhookEndpointRequest) :
    Move s (.createEndpoint request) { s with db := s.db.createWebhookEndpoint request }
  | claim {w : W} {limit : Int} {claimed : List PendingDelivery} (hphase : s.phase w = .idle)
    (h : s.db.claimPendingDeliveries s.now limit = some claimed) :
    Move s (.claim w limit) (s.setPhase w (.loop claimed))
  | send {w : W} {delivery : PendingDelivery} {rest : List PendingDelivery}
    (hphase : s.phase w = .sending delivery rest) :
    Move s (.send w) { s.setPhase w (.awaiting delivery rest) with
      posts := .sent delivery.outboxId :: s.posts }
  | answer {w : W} {delivery : PendingDelivery} {rest : List PendingDelivery}
    (result : SendResult) (hphase : s.phase w = .awaiting delivery rest) :
    Move s (.answer w result) { s.setPhase w (.received delivery result rest) with
      posts := .answered delivery.outboxId result.isSuccess :: s.posts }
  | insert {w : W} {delivery : PendingDelivery} {result : SendResult}
    {rest : List PendingDelivery} (hphase : s.phase w = .received delivery result rest) :
    Move s (.insert w) { s.setPhase w (.recorded delivery result rest) with
      db := s.db.insertDelivery delivery result }
  | update {w : W} {delivery : PendingDelivery} {result : SendResult}
    {rest : List PendingDelivery} (hphase : s.phase w = .recorded delivery result rest) :
    Move s (.update w) { s.setPhase w (.loop rest) with
      db := s.db.updateOutbox s.now delivery result }
  | stop (w : W) : Move s (.stop w) (s.setPhase w .idle)

variable {s s' : World W F} {a : Action W F}

theorem move_of_step (h : s.step a = some s') : s.Move a s' := by
  cases a with
  | clock now =>
    cases h
    exact .clock now
  | enqueue row =>
    obtain ⟨db, hdb, rfl⟩ := Option.map_eq_some_iff.mp h
    exact .enqueue hdb
  | createEndpoint request =>
    cases h
    exact .createEndpoint request
  | claim w limit =>
    simp only [step] at h
    split at h
    · next hphase =>
      obtain ⟨claimed, hclaim, rfl⟩ := Option.map_eq_some_iff.mp h
      exact .claim hphase hclaim
    · cases h
  | send w =>
    simp only [step] at h
    split at h
    · next hphase =>
      cases h
      exact .send hphase
    · cases h
  | answer w result =>
    simp only [step] at h
    split at h
    · next hphase =>
      cases h
      exact .answer result hphase
    · cases h
  | insert w =>
    simp only [step] at h
    split at h
    · next hphase =>
      cases h
      exact .insert hphase
    · cases h
  | update w =>
    simp only [step] at h
    split at h
    · next hphase =>
      cases h
      exact .update hphase
    · cases h
  | stop w =>
    cases h
    exact .stop w

/-! Who holds which rows -/

omit [DecidableEq W] in
def IsOpen (s : World W F) (outboxId : Nat) : Prop :=
  ∃ entry ∈ s.db.outbox.rows, entry.outboxId = outboxId ∧ entry.status.isOpen = true

def custody (s : World W F) : Custody W Nat where
  held w := (s.phase w).held.map (·.outboxId)
  isOpen := s.IsOpen

omit [DecidableEq W] in
theorem ne_of_isOpen {entry : OutboxEntry F} {outboxId : Nat} (hentry : entry ∈ s.db.outbox.rows)
    (hclosed : entry.status.isOpen = false) (h : s.IsOpen outboxId) :
    entry.outboxId ≠ outboxId := by
  intro heq
  obtain ⟨other, hother, hid, hopen⟩ := h
  obtain rfl := s.db.outbox.unique.eq hentry hother (heq.trans hid.symm)
  rw [hclosed] at hopen
  cases hopen

omit [DecidableEq W] in
theorem isOpen_of_outbox {db : WebhookTables F} (h : db.outbox = s.db.outbox) :
    IsOpen { s with db } = s.IsOpen := by
  funext outboxId
  simp [IsOpen, h]

theorem custody_setPhase {w : W} {phase : Phase} (h : phase.held = (s.phase w).held) :
    (s.setPhase w phase).custody = s.custody := by
  have hheld : ∀ v, ((s.setPhase w phase).phase v).held = (s.phase v).held := by
    intro v
    by_cases hv : v = w
    · subst hv
      simpa [setPhase] using h
    · simp [setPhase, hv]
  unfold custody
  simp only [hheld]
  rfl

theorem held_setPhase (w : W) (phase : Phase) : (s.setPhase w phase).custody.held =
    Function.update s.custody.held w (phase.held.map (·.outboxId)) := by
  funext v
  by_cases hv : v = w
  · subst hv
    simp [custody, setPhase]
  · simp [custody, setPhase, hv]

omit [DecidableEq W] in
theorem isOpen_enqueue {row : OutboxRow F} {db : WebhookTables F} {outboxId : Nat}
    (hdb : s.db.enqueue s.now row = some db) (h : s.IsOpen outboxId) :
    IsOpen { s with db } outboxId := by
  obtain ⟨entry, hentry, hid, hopen⟩ := h
  obtain ⟨-, -, -, hrows⟩ := WebhookTables.enqueue_cases hdb
  refine ⟨entry, ?_, hid, hopen⟩
  rcases hrows with hsame | hnew
  · exact hsame ▸ hentry
  · rw [show ({ s with db } : World W F).db.outbox.rows = db.outbox.rows from rfl, hnew]
    exact List.mem_append_left _ hentry

def Free (s : World W F) (limit : Int) : Prop :=
  ∀ claimed ∈ s.db.claimPendingDeliveries s.now limit, ∀ delivery ∈ claimed,
    ∀ w, delivery.outboxId ∉ s.custody.held w

/-- Dispatchers work on rows of their own, if their claims read such rows only. -/
theorem Move.exclusive (h : s.Move a s') (hs : s.custody.Exclusive)
    (hfree : ∀ w limit, a = .claim w limit → s.Free limit) : s'.custody.Exclusive := by
  cases h with
  | clock now => exact hs
  | enqueue hdb => exact hs.shrink (fun _ => .refl _) fun _ _ _ hopen => isOpen_enqueue hdb hopen
  | createEndpoint request =>
    have hsame := isOpen_of_outbox (s := s) (s.db.createWebhookEndpoint_outbox request).1
    refine hs.shrink (fun _ => .refl _) fun _ outboxId _ hopen => ?_
    exact (congrFun hsame outboxId).mpr hopen
  | @claim w limit claimed hphase hclaim =>
    have hitems : ∀ outboxId ∈ claimed.map (·.outboxId),
        s.IsOpen outboxId ∧ ∀ w', outboxId ∉ s.custody.held w' := by
      intro outboxId hid
      obtain ⟨delivery, hd, rfl⟩ := List.mem_map.mp hid
      refine ⟨?_, hfree w limit rfl claimed hclaim delivery hd⟩
      obtain ⟨entry, hentry, hopen, -, hpending⟩ :=
        WebhookTables.mem_claimPendingDeliveries hclaim hd
      obtain ⟨_, _, _, hid, _, _⟩ := WebhookTables.pendingDelivery_eq_some hpending
      exact ⟨entry, hentry, hid.symm, hopen⟩
    have htake := hs.take (w := w) (WebhookTables.claimPendingDeliveries_nodup hclaim) hitems
    refine htake.shrink (fun v => ?_) fun _ _ _ hopen => hopen
    rw [held_setPhase, Phase.held_loop]
  | @send w delivery rest hphase =>
    have hsame : (s.setPhase w (.awaiting delivery rest)).custody = s.custody :=
      custody_setPhase (by rw [hphase]; rfl)
    exact hsame ▸ hs
  | @answer w delivery rest result hphase =>
    have hsame : (s.setPhase w (.received delivery result rest)).custody = s.custody :=
      custody_setPhase (by rw [hphase]; rfl)
    exact hsame ▸ hs
  | @insert w delivery result rest hphase =>
    have hsame : (s.setPhase w (.recorded delivery result rest)).custody = s.custody :=
      custody_setPhase (by rw [hphase]; rfl)
    exact hsame ▸ hs
  | @update w delivery result rest hphase =>
    have hw : s.custody.held w = delivery.outboxId :: rest.map (·.outboxId) := by
      simp [custody, hphase, Phase.held]
    have hothers : ∀ outboxId, outboxId ≠ delivery.outboxId → s.IsOpen outboxId →
        IsOpen { s with db := s.db.updateOutbox s.now delivery result } outboxId := by
      intro outboxId hne ⟨entry, hentry, hid, hopen⟩
      refine ⟨entry, ?_, hid, hopen⟩
      exact (WebhookTables.mem_updateOutbox_of_ne (by rw [hid]; exact hne)).mpr hentry
    have hfinish := hs.finish hw hothers
    refine hfinish.shrink (fun v => ?_) fun _ _ _ hopen => hopen
    show ((s.setPhase w (.loop rest)).custody.held v).Sublist _
    rw [held_setPhase, Phase.held_loop]
  | stop w =>
    refine hs.shrink (fun v => ?_) fun _ _ _ hopen => hopen
    rw [held_setPhase]
    by_cases hv : v = w
    · simp [hv, Phase.held]
    · simp [hv]

omit [DecidableEq W] in
theorem isOpen_of_held (hs : s.custody.Exclusive) {w : W} {delivery : PendingDelivery}
    (h : delivery ∈ (s.phase w).held) : s.IsOpen delivery.outboxId :=
  hs.isOpen w _ (List.mem_map_of_mem h)

theorem Move.keeps_closed (h : s.Move a s') (hs : s.custody.Exclusive) {entry : OutboxEntry F}
    (hentry : entry ∈ s.db.outbox.rows) (hclosed : entry.status.isOpen = false) :
    entry ∈ s'.db.outbox.rows := by
  cases h with
  | clock | claim | send | answer | insert | stop => exact hentry
  | enqueue hdb =>
    obtain ⟨-, -, -, hrows⟩ := WebhookTables.enqueue_cases hdb
    rcases hrows with hsame | hnew
    · exact hsame ▸ hentry
    · dsimp only
      rw [hnew]
      exact List.mem_append_left _ hentry
  | createEndpoint request =>
    dsimp only
    rw [(s.db.createWebhookEndpoint_outbox request).1]
    exact hentry
  | @update w delivery result rest hphase =>
    have hheld : delivery ∈ (s.phase w).held := by simp [hphase, Phase.held]
    have hne := ne_of_isOpen hentry hclosed (isOpen_of_held hs hheld)
    exact (WebhookTables.mem_updateOutbox_of_ne hne).mpr hentry

def Known (s : World W F) : Prop :=
  ∀ outboxId, .answered outboxId true ∈ s.posts →
    (∃ entry ∈ s.db.outbox.rows, entry.outboxId = outboxId ∧ entry.status.isOpen = false) ∨
      ∃ w delivery, (s.phase w).confirmed = some delivery ∧ delivery.outboxId = outboxId

def NotResent (posts : List Post) : Prop :=
  posts.Pairwise fun later earlier =>
    ∀ outboxId, earlier = .answered outboxId true → later ≠ .sent outboxId

omit [DecidableEq W] in
theorem Known.transfer (hs : s.Known)
    (hposts : ∀ outboxId, .answered outboxId true ∈ s'.posts → .answered outboxId true ∈ s.posts)
    (hrows : ∀ entry ∈ s.db.outbox.rows, entry.status.isOpen = false →
      entry ∈ s'.db.outbox.rows)
    (hphase : ∀ w delivery, (s.phase w).confirmed = some delivery →
      (s'.phase w).confirmed = some delivery) : s'.Known := by
  intro outboxId hpost
  rcases hs outboxId (hposts outboxId hpost) with ⟨entry, hentry, hid, hclosed⟩ | hconfirmed
  · exact .inl ⟨entry, hrows entry hentry hclosed, hid, hclosed⟩
  · obtain ⟨w, delivery, hconfirmed, hid⟩ := hconfirmed
    exact .inr ⟨w, delivery, hphase w delivery hconfirmed, hid⟩

theorem confirmed_setPhase {w v : W} {phase : Phase} {delivery : PendingDelivery}
    (h : (s.phase w).confirmed = none ∨ (s.phase w).confirmed = phase.confirmed)
    (hv : (s.phase v).confirmed = some delivery) :
    ((s.setPhase w phase).phase v).confirmed = some delivery := by
  by_cases hvw : v = w
  · subst hvw
    rcases h with hnone | hsame
    · rw [hnone] at hv
      cases hv
    · simpa [setPhase, ← hsame] using hv
  · simpa [setPhase, hvw] using hv

/-- No claim reads a row that a dispatcher holds, and none stops between a POST that succeeded
and the update of the row. -/
def Undisturbed (s : World W F) : Action W F → Prop
  | .claim _ limit => s.Free limit
  | .stop w => (s.phase w).confirmed = none
  | _ => True

structure Sound (s : World W F) : Prop where
  exclusive : s.custody.Exclusive
  known : s.Known
  notResent : NotResent s.posts

omit [DecidableEq W] in
theorem sound_start (db : WebhookTables F) (now : Timestamptz) :
    (start db now : World W F).Sound where
  exclusive := Custody.exclusive_of_idle fun _ => rfl
  known := fun _ h => by cases h
  notResent := .nil

theorem Move.known (h : s.Move a s') (hs : s.Sound) (hok : s.Undisturbed a) : s'.Known := by
  have hclosed : ∀ entry ∈ s.db.outbox.rows, entry.status.isOpen = false →
      entry ∈ s'.db.outbox.rows := fun _ hentry hdone => h.keeps_closed hs.exclusive hentry hdone
  cases h with
  | clock | enqueue | createEndpoint =>
    exact hs.known.transfer (fun _ h => h) hclosed fun _ _ h => h
  | @claim w limit claimed hphase hclaim =>
    refine hs.known.transfer (fun _ h => h) hclosed fun _ _ => confirmed_setPhase (.inl ?_)
    rw [hphase]
    rfl
  | @send w delivery rest hphase =>
    refine hs.known.transfer (fun _ h => ?_) hclosed fun _ _ => confirmed_setPhase (.inl ?_)
    · simpa using h
    · rw [hphase]
      rfl
  | @answer w delivery rest result hphase =>
    have hkept : World.Known { s.setPhase w (.received delivery result rest) with
        posts := s.posts } := by
      refine hs.known.transfer (fun _ h => h) hclosed fun _ _ => confirmed_setPhase (.inl ?_)
      rw [hphase]
      rfl
    intro outboxId hpost
    rcases List.mem_cons.mp hpost with hnew | hold
    · cases hresult : result.isSuccess with
      | false =>
        rw [hresult] at hnew
        cases hnew
      | true =>
        rw [hresult] at hnew
        cases hnew
        exact .inr ⟨w, delivery, by simp [setPhase, Phase.confirmed, hresult], rfl⟩
    · exact hkept outboxId hold
  | @insert w delivery result rest hphase =>
    refine hs.known.transfer (fun _ h => h) hclosed fun _ _ => confirmed_setPhase (.inr ?_)
    rw [hphase]
    rfl
  | @update w delivery result rest hphase =>
    cases hresult : result.isSuccess with
    | false =>
      refine hs.known.transfer (fun _ h => h) hclosed fun _ _ => confirmed_setPhase (.inl ?_)
      simp [hphase, Phase.confirmed, hresult]
    | true =>
      intro outboxId hpost
      rcases hs.known outboxId hpost with ⟨entry, hentry, hid, hdone⟩ | hconfirmed
      · exact .inl ⟨entry, hclosed entry hentry hdone, hid, hdone⟩
      · obtain ⟨v, other, hconfirmed, hid⟩ := hconfirmed
        by_cases hv : v = w
        · subst hv
          obtain rfl : delivery = other := by simpa [hphase, Phase.confirmed, hresult] using hconfirmed
          obtain ⟨entry, hentry, hrow, -⟩ := isOpen_of_held hs.exclusive
            (Phase.mem_held_of_confirmed hconfirmed)
          refine .inl ⟨_, WebhookTables.mem_updateOutbox hentry hrow, ?_, ?_⟩
          · rw [WebhookTables.mark_outboxId, hrow, hid]
          · simp [WebhookTables.mark, hresult, WebhookTables.markDelivered, OutboxStatus.isOpen]
        · exact .inr ⟨v, other, by simpa [setPhase, hv] using hconfirmed, hid⟩
  | stop w =>
    exact hs.known.transfer (fun _ h => h) hclosed fun _ _ => confirmed_setPhase (.inl hok)

theorem Move.notResent (h : s.Move a s') (hs : s.Sound) : NotResent s'.posts := by
  cases h with
  | clock | enqueue | createEndpoint | claim | insert | update | stop => exact hs.notResent
  | answer =>
    refine List.pairwise_cons.mpr ⟨fun _ _ _ _ hsent => ?_, hs.notResent⟩
    cases hsent
  | @send w delivery rest hphase =>
    refine List.pairwise_cons.mpr ⟨?_, hs.notResent⟩
    intro earlier hearlier outboxId hpost hsent
    cases hsent
    subst hpost
    have hheld : delivery ∈ (s.phase w).held := by simp [hphase, Phase.held]
    rcases hs.known _ hearlier with ⟨entry, hentry, hid, hclosed⟩ | ⟨v, other, hconfirmed, hid⟩
    · exact ne_of_isOpen hentry hclosed (isOpen_of_held hs.exclusive hheld) hid
    · -- the one who knows of the success holds the row, and is past the sending of it
      have hvw : v = w := hs.exclusive.holder v w delivery.outboxId
        (List.mem_map.mpr ⟨other, Phase.mem_held_of_confirmed hconfirmed, hid⟩)
        (List.mem_map_of_mem hheld)
      rw [hvw, hphase] at hconfirmed
      cases hconfirmed

theorem Move.sound (h : s.Move a s') (hs : s.Sound) (hok : s.Undisturbed a) : s'.Sound where
  exclusive := h.exclusive hs.exclusive fun _ _ ha => by
    subst ha
    exact hok
  known := h.known hs hok
  notResent := h.notResent hs

/-- In runs that are undisturbed, no row is sent again once a POST of it succeeded, and a row that
is delivered or dead never changes again. -/
theorem undisturbed_settles (db : WebhookTables F) (now : Timestamptz)
    (before after : List (Action W F)) (s t : World W F)
    (hbefore : Guarded step Undisturbed (start db now) before)
    (hs : run step (start db now) before = some s)
    (hafter : Guarded step Undisturbed s after) (ht : run step s after = some t) :
    NotResent t.posts ∧
      ∀ entry ∈ s.db.outbox.rows, entry.status = .delivered ∨ entry.status = .deadLetter →
        entry ∈ t.db.outbox.rows := by
  have hstep : ∀ (u : World W F) a v, u.Sound → u.Undisturbed a → u.step a = some v → v.Sound :=
    fun u a v hu hok h => (move_of_step h).sound hu hok
  have hsound := run_guarded_invariant hstep (sound_start db now) hbefore hs
  refine ⟨(run_guarded_invariant hstep hsound hafter ht).notResent, ?_⟩
  intro entry hentry hstatus
  have hclosed : entry.status.isOpen = false := by
    rcases hstatus with h | h <;> simp [h, OutboxStatus.isOpen]
  have hkept := run_guarded_invariant
    (I := fun u : World W F => u.Sound ∧ entry ∈ u.db.outbox.rows)
    (fun u a v hu hok h => ⟨hstep u a v hu.1 hok h,
      (move_of_step h).keeps_closed hu.1.exclusive hu.2 hclosed⟩) ⟨hsound, hentry⟩ hafter ht
  exact hkept.2

/-! Two dispatchers and one row -/

instance [Fintype W] (s : World W F) (limit : Int) : Decidable (s.Free limit) := by
  unfold Free custody; infer_instance

instance [Fintype W] (s : World W F) (a : Action W F) : Decidable (s.Undisturbed a) := by
  cases a <;> unfold Undisturbed <;> infer_instance

def noTables : WebhookTables Int := ⟨.empty _, .empty _, []⟩

def alarmRow : OutboxRow Int where
  endpointId := 1
  payload := {
    eventId := 1
    key := ⟨1, "device".toList, "imu".toList, [], 0⟩
    channelKey := none
    eventEnd := 1000000
    severity := "warning".toList
    status := "open"
    score := 7
    threshold := 5
    summary := (7, 5)
    details := ⟨"threshold".toList, "limit".toList, 1, 1, 0, "metric", none, false, none,
      ⟨"threshold".toList, 1, none, none⟩⟩ }

def enqueued (maxAttempts : Option Int32) : List (Action W Int) :=
  [.createEndpoint ⟨"line".toList, true, maxAttempts⟩, .enqueue alarmRow]

def attempt (w : W) (result : SendResult) : List (Action W Int) :=
  [.send w, .answer w result, .insert w, .update w]

def serverError : SendResult := .response 500 "500 Internal Server Error".toList
def accepted : SendResult := .response 200 "200 OK".toList

def inTurn : List (Action Bool Int) :=
  enqueued none ++ .claim true 100 :: attempt true serverError ++
    .clock 2000000 :: .claim false 100 :: attempt false accepted

theorem undisturbed_settles_inTurn :
    ∃ s t, run step (start noTables 0) inTurn = some s ∧ run step s [.claim true 100] = some t ∧
      s.db.outbox.rows.map (·.status) = [.delivered] ∧ NotResent t.posts ∧
      ∀ entry ∈ s.db.outbox.rows, entry.status = .delivered ∨ entry.status = .deadLetter →
        entry ∈ t.db.outbox.rows := by
  refine ⟨_, _, rfl, rfl, by decide +kernel, ?_⟩
  exact undisturbed_settles noTables 0 inTurn [.claim true 100] _ _ (by decide +kernel) rfl
    (by decide +kernel) rfl

/-- Both have claimed the row: one delivers it, and the other one sends it again and fails. -/
theorem claimedTwice_resent :
    ∃ s t, run step (start noTables 0)
        (enqueued none ++ .claim true 100 :: .claim false 100 :: attempt true accepted) =
          some s ∧
      run step s (attempt false serverError) = some t ∧ ¬NotResent t.posts ∧
      ¬∀ entry ∈ s.db.outbox.rows, entry.status = .delivered ∨ entry.status = .deadLetter →
        entry ∈ t.db.outbox.rows := by
  refine ⟨_, _, rfl, rfl, ?_, ?_⟩
  · intro h
    have hposts : NotResent [.answered 1 false, .sent 1, .answered 1 true, .sent 1] := h
    have hlater := (List.pairwise_cons.mp (List.pairwise_cons.mp hposts).2).1
    exact hlater (.answered 1 true) (by simp) 1 rfl rfl
  · intro h
    have hkept := h _ List.mem_cons_self (.inl rfl)
    have hstatus := congrArg OutboxEntry.status (List.mem_singleton.mp hkept)
    exact absurd hstatus (by decide)

end World

end Aetus.Anomaly
