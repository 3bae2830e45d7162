import Aetus.Anomaly.Dispatcher

/-!
One dispatcher alone, over any runs of dispatch_once, any clock and any answers: what the rows of
the outbox say of the attempts that are logged for them.
-/

set_option autoImplicit false

namespace Aetus.Anomaly
open Aetus.Base Aetus.Postgres

variable {F : Type}

namespace WebhookTables
variable {db : WebhookTables F} {delivery : PendingDelivery} {result : SendResult}
  {outboxId : Nat}

def logged (db : WebhookTables F) (outboxId : Nat) : List WebhookDelivery :=
  db.deliveries.filter (·.outboxId = outboxId)

def outcomes (db : WebhookTables F) (outboxId : Nat) : List (Int × Bool) :=
  (db.logged outboxId).map fun d => (d.attemptNumber, d.success)

theorem outcomes_insertDelivery_self : (db.insertDelivery delivery result).outcomes
    delivery.outboxId = db.outcomes delivery.outboxId ++
      [(delivery.attemptCount + 1, result.isSuccess)] := by
  simp [outcomes, logged, insertDelivery]

theorem outcomes_insertDelivery_of_ne (h : outboxId ≠ delivery.outboxId) :
    (db.insertDelivery delivery result).outcomes outboxId = db.outcomes outboxId := by
  simp [outcomes, logged, insertDelivery, h.symm]

/-- The row counts the attempts that were made for it under a limit, and its status says how the
last one ended; those in `waiting` are logged and not counted yet. -/
def Tally (db : WebhookTables F) (limit : Int) (entry : OutboxEntry F) (waiting : List Bool) :
    Prop :=
  ∃ made, Attempts.Made limit made ∧ entry.status.standing = Attempts.standing limit made ∧
    entry.attemptCount = made.length ∧
    db.outcomes entry.outboxId = Attempts.numbered (made ++ waiting)

structure Counted (db : WebhookTables F) (limit : Int) (entry : OutboxEntry F) : Prop where
  count : entry.attemptCount = (db.logged entry.outboxId).length
  numbers : (db.logged entry.outboxId).map (·.attemptNumber) =
    (List.range (db.logged entry.outboxId).length).map fun (i : Nat) => (i : Int) + 1
  atMost : ((db.logged entry.outboxId).length : Int) ≤ max 1 limit
  deadLetter : entry.status = .deadLetter ↔
    ((db.logged entry.outboxId).map (·.success)).getLast? = some false ∧
      limit ≤ (db.logged entry.outboxId).length
  delivered : entry.status = .delivered ↔
    ((db.logged entry.outboxId).map (·.success)).getLast? = some true ∧
      true ∉ ((db.logged entry.outboxId).map (·.success)).dropLast

theorem Tally.counted {limit : Int} {entry : OutboxEntry F} (h : db.Tally limit entry []) :
    db.Counted limit entry := by
  obtain ⟨made, hmade, hstanding, hcount, houtcomes⟩ := h
  rw [List.append_nil] at houtcomes
  have hfst := congrArg (List.map Prod.fst) houtcomes
  have hsnd := congrArg (List.map Prod.snd) houtcomes
  rw [Attempts.map_fst_numbered, outcomes, List.map_map] at hfst
  rw [Attempts.map_snd_numbered, outcomes, List.map_map] at hsnd
  have hlength : (db.logged entry.outboxId).length = made.length := by
    simpa using congrArg List.length hsnd
  have hsuccess : (db.logged entry.outboxId).map (·.success) = made := hsnd
  constructor
  · rw [hcount, hlength]
  · rw [hlength]
    exact hfst
  · rw [hlength]
    exact hmade.length_le
  · rw [hsuccess, hlength, ← Attempts.standing_eq_exhausted_iff, ← hstanding]
    cases entry.status <;> simp [OutboxStatus.standing]
  · rw [hsuccess, ← hmade.standing_eq_succeeded_iff, ← hstanding]
    cases entry.status <;> simp [OutboxStatus.standing]

theorem Tally.mark {now : Timestamptz} {entry : OutboxEntry F}
    (h : db.Tally delivery.maxAttempts.toInt entry [result.isSuccess])
    (hopen : entry.status.isOpen = true) (hcurrent : entry.attemptCount = delivery.attemptCount) :
    db.Tally delivery.maxAttempts.toInt (mark now delivery result entry) [] := by
  obtain ⟨made, hmade, hstanding, hcount, houtcomes⟩ := h
  refine ⟨made ++ [result.isSuccess], .snoc _ hmade ?_, ?_, ?_, ?_⟩
  · rw [← hstanding, OutboxStatus.isOpen_standing, hopen]
  · rw [Attempts.standing_snoc, WebhookTables.mark]
    cases hresult : result.isSuccess with
    | true => simp [markDelivered, OutboxStatus.standing]
    | false =>
      simp only [markFailed, ← hcurrent, hcount, Bool.false_eq_true, if_false]
      split <;> rfl
  · rw [mark_attemptCount, hcount]
    simp
  · rw [List.append_nil, mark_outboxId]
    exact houtcomes

end WebhookTables

def Phase.waiting : Phase → Nat → List Bool
  | .recorded delivery result _, outboxId =>
    if outboxId = delivery.outboxId then [result.isSuccess] else []
  | _, _ => []

@[simp] theorem Phase.waiting_loop (rest : List PendingDelivery) (outboxId : Nat) :
    (Phase.loop rest).waiting outboxId = [] := by
  cases rest <;> rfl

theorem Phase.waiting_eq_nil {phase : Phase} {outboxId : Nat}
    (h : ∀ d ∈ phase.held, d.outboxId ≠ outboxId) : phase.waiting outboxId = [] := by
  cases phase with
  | recorded delivery result rest =>
    have hne := h delivery (by simp [held])
    simp [waiting, hne.symm]
  | idle | sending | awaiting | received => rfl

def Phase.isRecorded : Phase → Bool
  | .recorded _ _ _ => true
  | _ => false

theorem Phase.waiting_of_not_recorded {phase : Phase} (h : phase.isRecorded = false)
    (outboxId : Nat) : phase.waiting outboxId = [] := by
  cases phase with
  | recorded => cases h
  | idle | sending | awaiting | received => rfl

namespace World
variable {s s' : World Unit F} {a : Action Unit F}

/-- The limits of the endpoints stay, and the dispatcher does not stop between the two statements
of a record call. -/
def Whole (s : World Unit F) : Action Unit F → Prop
  | .createEndpoint request => ∀ e ∈ s.db.endpoints.rows, e.endpointKey = request.endpointKey →
    request.maxAttempts.getD 8 = e.maxAttempts
  | .stop w => (s.phase w).isRecorded = false
  | _ => True

def Limited (s : World Unit F) (entry : OutboxEntry F) (limit : Int32) : Prop :=
  ∃ e ∈ s.db.endpoints.rows, e.endpointId = entry.row.endpointId ∧ e.maxAttempts = limit

structure Tallied (s : World Unit F) : Prop where
  exclusive : s.custody.Exclusive
  logged : ∀ d ∈ s.db.deliveries, ∃ entry ∈ s.db.outbox.rows, entry.outboxId = d.outboxId
  limited : ∀ entry ∈ s.db.outbox.rows, ∃ limit, s.Limited entry limit
  /-- What is held of a row is what the row says. -/
  current : ∀ d ∈ (s.phase ()).held, ∀ entry ∈ s.db.outbox.rows, entry.outboxId = d.outboxId →
    entry.attemptCount = d.attemptCount ∧ s.Limited entry d.maxAttempts
  tally : ∀ entry ∈ s.db.outbox.rows, ∀ limit, s.Limited entry limit →
    s.db.Tally limit.toInt entry ((s.phase ()).waiting entry.outboxId)

theorem Limited.eq {entry : OutboxEntry F} {limit limit' : Int32} (h : s.Limited entry limit)
    (h' : s.Limited entry limit') : limit = limit' := by
  obtain ⟨e, he, hid, rfl⟩ := h
  obtain ⟨e', he', hid', rfl⟩ := h'
  rw [s.db.endpoints.unique.eq he he' (hid.trans hid'.symm)]

theorem tallied_start (endpoints : Keyed EndpointRow.endpointId) (now : Timestamptz) :
    (start ⟨endpoints, .empty _, []⟩ now : World Unit F).Tallied where
  exclusive := Custody.exclusive_of_idle fun _ => rfl
  logged := fun _ h => by cases h
  limited := fun _ h => by cases h
  current := fun _ h => by cases h
  tally := fun _ h => by cases h

theorem Tallied.of_db (hs : s.Tallied) (hexclusive : s'.custody.Exclusive) (hdb : s'.db = s.db)
    (hheld : ∀ d ∈ (s'.phase ()).held, d ∈ (s.phase ()).held)
    (hwaiting : ∀ outboxId, (s'.phase ()).waiting outboxId = (s.phase ()).waiting outboxId) :
    s'.Tallied := by
  obtain ⟨db, now, phase, posts⟩ := s'
  obtain rfl : db = s.db := hdb
  refine ⟨hexclusive, hs.logged, hs.limited, fun d hd => hs.current d (hheld d hd), ?_⟩
  intro entry hentry limit hlimit
  rw [hwaiting]
  exact hs.tally entry hentry limit hlimit

/-- A row that comes in has a number that nothing refers to. -/
theorem Tallied.enqueue {row : OutboxRow F} {db : WebhookTables F} (hs : s.Tallied)
    (hexclusive : World.custody { s with db } |>.Exclusive)
    (hdb : s.db.enqueue s.now row = some db) : World.Tallied { s with db } := by
  obtain ⟨⟨endpoint, hendpoint, hid⟩, hendpoints, hdeliveries, hrows⟩ :=
    WebhookTables.enqueue_cases hdb
  obtain ⟨endpoints, outbox, deliveries⟩ := db
  obtain rfl : endpoints = s.db.endpoints := hendpoints
  obtain rfl : deliveries = s.db.deliveries := hdeliveries
  rcases hrows with hsame | hnew
  · obtain rfl : outbox = s.db.outbox := hsame
    exact hs.of_db hexclusive rfl (fun _ hd => hd) fun _ => rfl
  · -- whatever refers to a row has the number of one that was there
    have hfresh : ∀ entry ∈ s.db.outbox.rows,
        entry.outboxId ≠ serial OutboxEntry.outboxId s.db.outbox.rows :=
      fun entry hentry => Nat.ne_of_lt (lt_serial hentry)
    have hheld : ∀ d ∈ (s.phase ()).held,
        d.outboxId ≠ serial OutboxEntry.outboxId s.db.outbox.rows := by
      intro d hd
      obtain ⟨entry, hentry, hid, -⟩ := isOpen_of_held hs.exclusive hd
      exact hid ▸ hfresh entry hentry
    have hmem : ∀ entry, entry ∈ outbox.rows ↔ entry ∈ s.db.outbox.rows ∨ entry =
        ⟨serial OutboxEntry.outboxId s.db.outbox.rows, row, .pending, 0, s.now, none, none⟩ := by
      intro entry
      rw [hnew, List.mem_append, List.mem_singleton]
    refine ⟨hexclusive, ?_, ?_, ?_, ?_⟩
    · intro d hd
      obtain ⟨entry, hentry, hid⟩ := hs.logged d hd
      exact ⟨entry, (hmem entry).mpr (.inl hentry), hid⟩
    · intro entry hentry
      rcases (hmem entry).mp hentry with hold | rfl
      · exact hs.limited entry hold
      · exact ⟨_, endpoint, hendpoint, hid, rfl⟩
    · intro d hd entry hentry hid
      rcases (hmem entry).mp hentry with hold | rfl
      · exact hs.current d hd entry hold hid
      · exact absurd hid.symm (hheld d hd)
    · intro entry hentry limit hlimit
      rcases (hmem entry).mp hentry with hold | rfl
      · exact hs.tally entry hold limit hlimit
      · refine ⟨[], .nil, rfl, rfl, ?_⟩
        have hnone : s.db.logged (serial OutboxEntry.outboxId s.db.outbox.rows) = [] := by
          refine List.filter_eq_nil_iff.mpr fun d hd => ?_
          obtain ⟨entry, hentry, hid⟩ := hs.logged d hd
          simpa using hid ▸ hfresh entry hentry
        show (s.db.logged _).map _ = _
        rw [hnone, Phase.waiting_eq_nil hheld]
        rfl

theorem Tallied.createEndpoint {request : WebhookEndpointRequest} (hs : s.Tallied)
    (hexclusive : World.custody { s with db := s.db.createWebhookEndpoint request } |>.Exclusive)
    (hkept : s.Whole (.createEndpoint request)) :
    World.Tallied { s with db := s.db.createWebhookEndpoint request } := by
  obtain ⟨houtbox, hdeliveries⟩ := s.db.createWebhookEndpoint_outbox request
  -- the endpoint of a row was there before, and it has kept its limit
  have hbefore : ∀ entry ∈ s.db.outbox.rows, ∀ limit,
      World.Limited { s with db := s.db.createWebhookEndpoint request } entry limit →
        s.Limited entry limit := by
    intro entry hentry limit ⟨e', he', hid, hlimit⟩
    rcases WebhookTables.mem_createWebhookEndpoint he' with ⟨e, he, hsame, hkind⟩ | hnew
    · refine ⟨e, he, hsame.trans hid, ?_⟩
      rw [← hlimit]
      rcases hkind with hold | ⟨hkey, hnewLimit⟩
      · exact hold.symm
      · rw [hnewLimit, hkept e he hkey]
    · obtain ⟨limit, e, he, hid', -⟩ := hs.limited entry hentry
      exact absurd (hid'.trans hid.symm) (hnew e he)
  have hlimited : ∀ entry ∈ s.db.outbox.rows, ∃ limit,
      World.Limited { s with db := s.db.createWebhookEndpoint request } entry limit := by
    intro entry hentry
    obtain ⟨limit, e, he, hid, -⟩ := hs.limited entry hentry
    obtain ⟨e', he', hid'⟩ := WebhookTables.exists_createWebhookEndpoint request he
    exact ⟨e'.maxAttempts, e', he', hid'.trans hid, rfl⟩
  refine ⟨hexclusive, ?_, ?_, ?_, ?_⟩
  · dsimp only
    rw [houtbox, hdeliveries]
    exact hs.logged
  · dsimp only
    rw [houtbox]
    exact hlimited
  · dsimp only
    rw [houtbox]
    intro d hd entry hentry hid
    obtain ⟨hcount, hheld⟩ := hs.current d hd entry hentry hid
    obtain ⟨limit, hlimit⟩ := hlimited entry hentry
    obtain rfl := hheld.eq (hbefore entry hentry limit hlimit)
    exact ⟨hcount, hlimit⟩
  · dsimp only
    rw [houtbox]
    intro entry hentry limit hlimit
    obtain ⟨made, hmade, hstanding, hcount, houtcomes⟩ :=
      hs.tally entry hentry limit (hbefore entry hentry limit hlimit)
    refine ⟨made, hmade, hstanding, hcount, ?_⟩
    rw [← houtcomes, WebhookTables.outcomes, WebhookTables.logged, hdeliveries]
    rfl

theorem Tallied.claim {limit : Int} {claimed : List PendingDelivery} (hs : s.Tallied)
    (hexclusive : (s.setPhase () (.loop claimed)).custody.Exclusive) (hphase : s.phase () = .idle)
    (hclaim : s.db.claimPendingDeliveries s.now limit = some claimed) :
    (s.setPhase () (.loop claimed)).Tallied := by
  refine ⟨hexclusive, hs.logged, hs.limited, ?_, ?_⟩
  · intro d hd entry hentry hid
    have hmem : d ∈ claimed := by simpa [setPhase] using hd
    obtain ⟨source, hsource, -, -, hpending⟩ := WebhookTables.mem_claimPendingDeliveries hclaim hmem
    obtain ⟨e, he, hendpoint, hnumber, hcount, hlimit⟩ :=
      WebhookTables.pendingDelivery_eq_some hpending
    obtain rfl := s.db.outbox.unique.eq hentry hsource (hid.trans hnumber)
    exact ⟨hcount.symm, e, he, hendpoint, hlimit.symm⟩
  · intro entry hentry limit hlimit
    have htally := hs.tally entry hentry limit hlimit
    have hidle : Phase.idle.waiting entry.outboxId = [] := rfl
    rw [hphase, hidle] at htally
    simpa [setPhase] using htally

theorem Tallied.insert {delivery : PendingDelivery} {result : SendResult}
    {rest : List PendingDelivery} (hs : s.Tallied)
    (hphase : s.phase () = .received delivery result rest)
    (hexclusive : World.custody { s.setPhase () (.recorded delivery result rest) with
      db := s.db.insertDelivery delivery result } |>.Exclusive) :
    World.Tallied { s.setPhase () (.recorded delivery result rest) with
      db := s.db.insertDelivery delivery result } := by
  have hheld : delivery ∈ (s.phase ()).held := by simp [hphase, Phase.held]
  refine ⟨hexclusive, ?_, hs.limited, ?_, ?_⟩
  · intro d hd
    rcases List.mem_append.mp hd with hold | hnew
    · exact hs.logged d hold
    · obtain rfl := List.mem_singleton.mp hnew
      obtain ⟨entry, hentry, hid, -⟩ := isOpen_of_held hs.exclusive hheld
      exact ⟨entry, hentry, hid⟩
  · intro d hd
    refine hs.current d ?_
    rw [hphase]
    simpa [setPhase, Phase.held] using hd
  · intro entry hentry limit hlimit
    obtain ⟨made, hmade, hstanding, hcount, houtcomes⟩ := hs.tally entry hentry limit hlimit
    refine ⟨made, hmade, hstanding, hcount, ?_⟩
    rw [hphase] at houtcomes
    by_cases hid : entry.outboxId = delivery.outboxId
    · have hcurrent := (hs.current delivery hheld entry hentry hid).1
      rw [hid] at houtcomes ⊢
      dsimp only
      rw [WebhookTables.outcomes_insertDelivery_self, houtcomes, ← hcurrent, hcount]
      simp [setPhase, Phase.waiting]
    · dsimp only
      rw [WebhookTables.outcomes_insertDelivery_of_ne hid, houtcomes]
      simp [setPhase, Phase.waiting, hid]

theorem Tallied.update {delivery : PendingDelivery} {result : SendResult}
    {rest : List PendingDelivery} (hs : s.Tallied)
    (hphase : s.phase () = .recorded delivery result rest)
    (hexclusive : World.custody { s.setPhase () (.loop rest) with
      db := s.db.updateOutbox s.now delivery result } |>.Exclusive) :
    World.Tallied { s.setPhase () (.loop rest) with
      db := s.db.updateOutbox s.now delivery result } := by
  have hheld : delivery ∈ (s.phase ()).held := by simp [hphase, Phase.held]
  have hlist : s.custody.held () = delivery.outboxId :: rest.map (·.outboxId) := by
    simp [custody, hphase, Phase.held]
  have hnext := (hs.exclusive.next_not_mem hlist).1
  obtain ⟨found, hfound, hfoundId, hopen⟩ := isOpen_of_held hs.exclusive hheld
  refine ⟨hexclusive, ?_, ?_, ?_, ?_⟩
  · intro d hd
    obtain ⟨entry, hentry, hid⟩ := hs.logged d hd
    by_cases hsame : entry.outboxId = delivery.outboxId
    · exact ⟨_, WebhookTables.mem_updateOutbox hentry hsame, WebhookTables.mark_outboxId.trans hid⟩
    · exact ⟨entry, (WebhookTables.mem_updateOutbox_of_ne hsame).mpr hentry, hid⟩
  · intro entry hentry
    obtain ⟨before, hbefore, -, heq⟩ := WebhookTables.of_mem_updateOutbox hentry
    have hrow : entry.row = before.row := by
      rw [heq]
      split
      · exact WebhookTables.mark_row
      · rfl
    obtain ⟨limit, e, he, hid, hlimit⟩ := hs.limited before hbefore
    exact ⟨limit, e, he, hrow ▸ hid, hlimit⟩
  · intro d hd entry hentry hid
    have hrest : d ∈ rest := by simpa [setPhase] using hd
    have hne : entry.outboxId ≠ delivery.outboxId := by
      intro heq
      exact hnext (List.mem_map.mpr ⟨d, hrest, hid.symm.trans heq⟩)
    have hold := (WebhookTables.mem_updateOutbox_of_ne hne).mp hentry
    exact hs.current d (by simp [hphase, Phase.held, hrest]) entry hold hid
  · intro entry hentry limit hlimit
    have hdone : ((World.setPhase s () (.loop rest)).phase ()).waiting entry.outboxId = [] := by
      simp [setPhase]
    obtain ⟨before, hbefore, hid, heq⟩ := WebhookTables.of_mem_updateOutbox hentry
    by_cases hsame : before.outboxId = delivery.outboxId
    · rw [if_pos hsame] at heq
      subst heq
      obtain ⟨hcurrent, hheldLimit⟩ := hs.current delivery hheld before hbefore hsame
      have hbeforeLimit : s.Limited before limit := by
        obtain ⟨e, he, hendpoint, hlimit⟩ := hlimit
        exact ⟨e, he, WebhookTables.mark_row ▸ hendpoint, hlimit⟩
      obtain rfl := hheldLimit.eq hbeforeLimit
      have htally := hs.tally before hbefore delivery.maxAttempts hbeforeLimit
      have hwaiting : (s.phase ()).waiting before.outboxId = [result.isSuccess] := by
        simp [hphase, Phase.waiting, hsame]
      obtain rfl := s.db.outbox.unique.eq hbefore hfound (hsame.trans hfoundId.symm)
      rw [hwaiting] at htally
      rw [hdone]
      exact htally.mark hopen hcurrent
    · rw [if_neg hsame] at heq
      subst heq
      obtain ⟨made, hmade, hstanding, hcount, houtcomes⟩ := hs.tally entry hbefore limit hlimit
      refine ⟨made, hmade, hstanding, hcount, ?_⟩
      rw [hdone]
      refine houtcomes.trans ?_
      simp [hphase, Phase.waiting, hsame]

/-- One dispatcher never reads a row that is held: it claims when it holds none. -/
theorem Tallied.move (hs : s.Tallied) (h : s.Move a s') (hwhole : s.Whole a) : s'.Tallied := by
  have hexclusive : s'.custody.Exclusive := by
    refine h.exclusive hs.exclusive ?_
    intro w limit ha claimed hclaimed delivery hdelivery v
    subst ha
    cases h with
    | claim hphase hclaim => simp [custody, show v = w from rfl, hphase, Phase.held]
  cases h with
  | clock now => exact hs.of_db hexclusive rfl (fun _ hd => hd) fun _ => rfl
  | enqueue hdb => exact hs.enqueue hexclusive hdb
  | createEndpoint request => exact hs.createEndpoint hexclusive hwhole
  | claim hphase hclaim => exact hs.claim hexclusive hphase hclaim
  | @send w delivery rest hphase =>
    refine hs.of_db hexclusive rfl ?_ ?_ <;> simp [setPhase, hphase, Phase.held, Phase.waiting]
  | @answer w delivery rest result hphase =>
    refine hs.of_db hexclusive rfl ?_ ?_ <;> simp [setPhase, hphase, Phase.held, Phase.waiting]
  | insert hphase => exact hs.insert hphase hexclusive
  | update hphase => exact hs.update hphase hexclusive
  | stop w =>
    refine hs.of_db hexclusive rfl ?_ ?_
    · simp [setPhase, Phase.held]
    · intro outboxId
      rw [Phase.waiting_of_not_recorded hwhole]
      rfl

/-- In every state that one dispatcher reaches, each row that is not between the two statements of
a record call counts its attempts, and no row is claimed before its time. -/
theorem oneDispatcher_counts (endpoints : Keyed EndpointRow.endpointId) (now : Timestamptz)
    (actions : List (Action Unit F)) (s : World Unit F)
    (hwhole : Guarded step Whole (start ⟨endpoints, .empty _, []⟩ now) actions)
    (hrun : run step (start ⟨endpoints, .empty _, []⟩ now) actions = some s) :
    (∀ entry ∈ s.db.outbox.rows, (s.phase ()).waiting entry.outboxId = [] →
      ∃ e ∈ s.db.endpoints.rows, e.endpointId = entry.row.endpointId ∧
        s.db.Counted e.maxAttempts.toInt entry) ∧
    ∀ limit claimed, s.db.claimPendingDeliveries s.now limit = some claimed →
      ∀ delivery ∈ claimed, ∀ entry ∈ s.db.outbox.rows, entry.outboxId = delivery.outboxId →
        entry.nextAttemptAt ≤ s.now := by
  have htallied := run_guarded_invariant
    (fun u _ _ (hu : u.Tallied) hw h => hu.move (move_of_step h) hw)
    (tallied_start endpoints now) hwhole hrun
  constructor
  · intro entry hentry hwaiting
    obtain ⟨limit, e, he, hid, rfl⟩ := htallied.limited entry hentry
    have htally := htallied.tally entry hentry e.maxAttempts ⟨e, he, hid, rfl⟩
    rw [hwaiting] at htally
    exact ⟨e, he, hid, htally.counted⟩
  · intro limit claimed hclaim delivery hdelivery entry hentry hid
    obtain ⟨source, hsource, -, hdue, hpending⟩ :=
      WebhookTables.mem_claimPendingDeliveries hclaim hdelivery
    obtain ⟨_, _, _, hnumber, _, _⟩ := WebhookTables.pendingDelivery_eq_some hpending
    obtain rfl := s.db.outbox.unique.eq hentry hsource (hid.trans hnumber)
    exact hdue

instance (s : World Unit F) (a : Action Unit F) : Decidable (s.Whole a) := by
  cases a <;> unfold Whole <;> infer_instance

def twoFailures : List (Action Unit Int) :=
  enqueued (some 2) ++ .claim () 100 :: attempt () serverError ++
    .clock 1000000 :: .claim () 100 :: attempt () serverError

theorem oneDispatcher_counts_twoFailures :
    ∃ s, run step (start noTables 0) twoFailures = some s ∧
      s.db.outbox.rows.map (fun entry => (entry.status, entry.attemptCount)) =
        [(.deadLetter, 2)] ∧
      (∀ entry ∈ s.db.outbox.rows, (s.phase ()).waiting entry.outboxId = [] →
        ∃ e ∈ s.db.endpoints.rows, e.endpointId = entry.row.endpointId ∧
          s.db.Counted e.maxAttempts.toInt entry) ∧
      ∀ limit claimed, s.db.claimPendingDeliveries s.now limit = some claimed →
        ∀ delivery ∈ claimed, ∀ entry ∈ s.db.outbox.rows, entry.outboxId = delivery.outboxId →
          entry.nextAttemptAt ≤ s.now := by
  refine ⟨_, rfl, by decide +kernel, ?_⟩
  exact oneDispatcher_counts (.empty _) 0 twoFailures _ (by decide +kernel) rfl

end World

end Aetus.Anomaly
