import Aetus.Anomaly.Dispatcher
import Aetus.Base.Lists
import Aetus.Base.Progress

/-!
How long a delivery that is due waits for a dispatcher. Rows are claimed in the order in which they
became due, so no row that is enqueued later or put off after a failure is claimed before one that
is due already.
-/

set_option autoImplicit false

namespace Aetus.Anomaly
open Aetus.Base Aetus.Postgres

variable {W F : Type}

/-- `ORDER BY o.next_attempt_at ASC, o.outbox_id ASC` -/
def OutboxEntry.Before (row entry : OutboxEntry F) : Prop :=
  row.nextAttemptAt < entry.nextAttemptAt ∨
    row.nextAttemptAt = entry.nextAttemptAt ∧ row.outboxId < entry.outboxId

instance (row entry : OutboxEntry F) : Decidable (row.Before entry) :=
  inferInstanceAs (Decidable (_ ∨ _))

/-! The order by a time and then by a number -/

theorem turn_total (s t : Int) (m n : Nat) :
    (s < t ∨ s = t ∧ m ≤ n) ∨ (t < s ∨ t = s ∧ n ≤ m) := by
  omega

theorem turn_trans {s t u : Int} {k m n : Nat} (h : s < t ∨ s = t ∧ k ≤ m)
    (h' : t < u ∨ t = u ∧ m ≤ n) : s < u ∨ s = u ∧ k ≤ n := by
  omega

theorem turn_strict {s t : Int} {m n : Nat} (h : s < t ∨ s = t ∧ m ≤ n) (hne : m ≠ n) :
    s < t ∨ s = t ∧ m < n := by
  omega

theorem not_turn {s t : Int} {m n : Nat} (h : t ≤ s) (hn : n < m) : ¬(s < t ∨ s = t ∧ m < n) := by
  omega

theorem not_turn_later {s t : Int} {m n : Nat} (h : t < s) : ¬(s < t ∨ s = t ∧ m < n) := by
  omega

theorem nextBackoffSeconds_pos (attemptCount : Int) : 0 < nextBackoffSeconds attemptCount := by
  unfold nextBackoffSeconds
  have hpow : (0 : Int) < 2 ^ (max 0 (min attemptCount 8)).toNat := Int.pow_pos (by decide)
  omega

namespace WebhookTables

def ahead (db : WebhookTables F) (entry : OutboxEntry F) : List Nat :=
  (db.outbox.rows.filter fun row => row.status.isOpen ∧ row.Before entry).map (·.outboxId)

variable {db db' : WebhookTables F} {now : Timestamptz} {entry : OutboxEntry F}
  {row : OutboxRow F} {delivery : PendingDelivery} {result : SendResult}

theorem nodup_ahead (db : WebhookTables F) (entry : OutboxEntry F) : (db.ahead entry).Nodup :=
  db.outbox.unique.sublist (List.filter_sublist.map _)

theorem mem_ahead {first : OutboxEntry F} (hfirst : first ∈ db.outbox.rows)
    (hopen : first.status.isOpen = true) (hbefore : first.Before entry) :
    first.outboxId ∈ db.ahead entry :=
  List.mem_map_of_mem (List.mem_filter.mpr ⟨hfirst, decide_eq_true ⟨hopen, hbefore⟩⟩)

/-- A row that is claimed before another one has its turn before it. -/
def ClaimedBefore (db : WebhookTables F) (first later : PendingDelivery) : Prop :=
  ∃ a ∈ db.outbox.rows, ∃ b ∈ db.outbox.rows, a.outboxId = first.outboxId ∧
    b.outboxId = later.outboxId ∧ a.status.isOpen = true ∧ a.Before b

theorem claimPendingDeliveries_ordered {limit : Int} {claimed : List PendingDelivery}
    (h : db.claimPendingDeliveries now limit = some claimed) :
    ∃ due : List (OutboxEntry F), (∀ row, row ∈ due ↔ row ∈ db.outbox.rows ∧
        row.status.isOpen = true ∧ row.nextAttemptAt ≤ now) ∧
      (due.filterMap db.pendingDelivery).Pairwise db.ClaimedBefore ∧
      claimed = (due.filterMap db.pendingDelivery).take limit.toNat := by
  unfold claimPendingDeliveries at h
  split at h
  · cases h
  · let order (a b : OutboxEntry F) : Prop := a.nextAttemptAt < b.nextAttemptAt ∨
      a.nextAttemptAt = b.nextAttemptAt ∧ a.outboxId ≤ b.outboxId
    have htotal : Std.Total order := ⟨fun _ _ => turn_total _ _ _ _⟩
    have htrans : IsTrans (OutboxEntry F) order := ⟨fun _ _ _ => turn_trans⟩
    let due := db.outbox.rows.filter fun row => row.status.isOpen ∧ row.nextAttemptAt ≤ now
    have hperm : (due.insertionSort order).Perm due := List.perm_insertionSort order due
    have hmem (row : OutboxEntry F) : row ∈ due.insertionSort order ↔ row ∈ db.outbox.rows ∧
        row.status.isOpen = true ∧ row.nextAttemptAt ≤ now := by
      rw [hperm.mem_iff, List.mem_filter, decide_eq_true_eq]
    have hids : ((due.insertionSort order).map (·.outboxId)).Nodup :=
      (hperm.map _).nodup_iff.mpr (db.outbox.unique.sublist (List.filter_sublist.map _))
    have hsorted := (List.pairwise_insertionSort order due).and (List.pairwise_map.mp hids)
    refine ⟨due.insertionSort order, hmem, ?_, (Option.some.inj h).symm⟩
    rw [List.pairwise_filterMap]
    refine (List.Pairwise.and_mem.mp hsorted).imp ?_
    intro a b hab first hfirst later hlater
    obtain ⟨ha, hb, horder, hne⟩ := hab
    obtain ⟨_, _, _, hfirstId, _, _⟩ := pendingDelivery_eq_some hfirst
    obtain ⟨_, _, _, hlaterId, _, _⟩ := pendingDelivery_eq_some hlater
    exact ⟨a, ((hmem a).mp ha).1, b, ((hmem b).mp hb).1, hfirstId.symm, hlaterId.symm,
      ((hmem a).mp ha).2.1, turn_strict horder hne⟩

/-- A claim takes the entry when it is due, or else as many rows as it may whose turn is before
that of the entry. -/
theorem claimPendingDeliveries_takes {n : Nat} {claimed : List PendingDelivery}
    (h : db.claimPendingDeliveries now n = some claimed) (hentry : entry ∈ db.outbox.rows)
    (hopen : entry.status.isOpen = true) (hdue : entry.nextAttemptAt ≤ now)
    (henabled : (db.pendingDelivery entry).isSome = true) :
    entry.outboxId ∈ claimed.map (·.outboxId) ∨
      claimed.length = n ∧ ∀ first ∈ claimed, first.outboxId ∈ db.ahead entry := by
  obtain ⟨delivery, hdelivery⟩ := Option.isSome_iff_exists.mp henabled
  obtain ⟨due, hmem, hordered, rfl⟩ := claimPendingDeliveries_ordered h
  obtain ⟨_, _, _, hid, _, _⟩ := pendingDelivery_eq_some hdelivery
  have hdelivers : delivery ∈ due.filterMap db.pendingDelivery :=
    List.mem_filterMap.mpr ⟨entry, (hmem entry).mpr ⟨hentry, hopen, hdue⟩, hdelivery⟩
  rcases mem_take_or_before hordered hdelivers (n : Int).toNat with htaken | ⟨hlength, hbefore⟩
  · exact .inl (hid ▸ List.mem_map_of_mem htaken)
  · refine .inr ⟨hlength, fun first hfirst => ?_⟩
    obtain ⟨a, ha, b, hb, hfirstId, hlaterId, haOpen, hab⟩ := hbefore first hfirst
    obtain rfl := db.outbox.unique.eq hb hentry (hlaterId.trans hid)
    exact hfirstId ▸ mem_ahead ha haOpen hab

/-! Nothing gets ahead of a row that is due -/

theorem ahead_of_outbox (h : db'.outbox = db.outbox) : db'.ahead entry = db.ahead entry := by
  rw [ahead, ahead, h]

theorem ahead_enqueue (h : db.enqueue now row = some db') (hentry : entry ∈ db.outbox.rows)
    (hdue : entry.nextAttemptAt ≤ now) : db'.ahead entry = db.ahead entry := by
  obtain ⟨-, -, -, hrows⟩ := enqueue_cases h
  rcases hrows with hsame | hnew
  · exact ahead_of_outbox hsame
  · have hserial : entry.outboxId < serial OutboxEntry.outboxId db.outbox.rows :=
      lt_serial hentry
    have hlast : ∀ first ∈ [(⟨serial OutboxEntry.outboxId db.outbox.rows, row, .pending, 0, now,
        none, none⟩ : OutboxEntry F)],
        ¬decide (first.status.isOpen = true ∧ first.Before entry) = true := by
      intro first hfirst
      obtain rfl := List.mem_singleton.mp hfirst
      rw [decide_eq_true_eq]
      exact fun hbefore => not_turn hdue hserial hbefore.2
    rw [ahead, hnew, List.filter_append, List.filter_eq_nil_iff.mpr hlast, List.append_nil, ahead]

/-- A row that is recorded has had its turn. -/
theorem not_before_mark (hdue : entry.nextAttemptAt ≤ now) (first : OutboxEntry F) :
    ¬((mark now delivery result first).status.isOpen = true ∧
      (mark now delivery result first).Before entry) := by
  rintro ⟨hopen, hbefore⟩
  unfold mark at hopen hbefore
  split at hopen
  · cases hopen
  · next hfailed =>
    rw [if_neg hfailed] at hbefore
    have hlater : now < now + nextBackoffSeconds delivery.attemptCount * 1000000 :=
      Int.lt_add_of_pos_right now
        (Int.mul_pos (nextBackoffSeconds_pos delivery.attemptCount) (by decide))
    exact not_turn_later (lt_of_le_of_lt hdue hlater) hbefore

theorem ahead_updateOutbox (hdue : entry.nextAttemptAt ≤ now) :
    (db.updateOutbox now delivery result).ahead entry =
      (db.ahead entry).filter fun outboxId => outboxId ≠ delivery.outboxId := by
  have hrow (first : OutboxEntry F) :
      (if first.outboxId = delivery.outboxId then mark now delivery result first
        else first).outboxId = first.outboxId := by
    split
    · exact mark_outboxId
    · rfl
  have hrows : (db.updateOutbox now delivery result).outbox.rows = db.outbox.rows.map fun first =>
      if first.outboxId = delivery.outboxId then mark now delivery result first else first := rfl
  rw [ahead, ahead, hrows, List.filter_map, List.map_map, List.filter_map, List.filter_filter]
  have hids : ((fun row : OutboxEntry F => row.outboxId) ∘ fun first =>
      if first.outboxId = delivery.outboxId then mark now delivery result first else first) =
        fun row => row.outboxId := funext hrow
  rw [hids]
  refine congrArg _ (List.filter_congr fun first _ => ?_)
  simp only [Function.comp_apply]
  by_cases hid : first.outboxId = delivery.outboxId
  · have hturn : ¬((mark now delivery result first).status.isOpen = true ∧
        (mark now delivery result first).Before entry) := not_before_mark hdue first
    rw [if_pos hid, decide_eq_false hturn, hid]
    simp
  · simp [hid]

end WebhookTables

/-! The turns of one dispatcher -/

def Phase.unsent : Phase → List PendingDelivery
  | .idle => []
  | .sending delivery rest => delivery :: rest
  | .awaiting _ rest | .received _ _ rest | .recorded _ _ rest => rest

@[simp] theorem Phase.unsent_loop (rest : List PendingDelivery) : (loop rest).unsent = rest := by
  cases rest <;> rfl

namespace World

def unclaimed (w : W) (entry : OutboxEntry F) (s : World W F) : List Nat :=
  (s.db.ahead entry).filter fun outboxId => !((s.phase w).held.map (·.outboxId)).contains outboxId

def claimsLeft (w : W) (n : Nat) (entry : OutboxEntry F) (s : World W F) : Nat :=
  if ((s.phase w).unsent.map (·.outboxId)).contains entry.outboxId then 0
  else (s.unclaimed w entry).length / n + 1

structure Waiting (posts : List Post) (entry : OutboxEntry F) (s : World W F) : Prop where
  mem : entry ∈ s.db.outbox.rows
  isOpen : entry.status.isOpen = true
  due : entry.nextAttemptAt ≤ s.now
  enabled : (s.db.pendingDelivery entry).isSome = true
  posts : posts.count (.sent entry.outboxId) ≤ s.posts.count (.sent entry.outboxId)

/-- A POST of the row has gone out since, or the outcome of one that was already out is recorded. -/
def Attempted (posts : List Post) (entry : OutboxEntry F) (s : World W F) : Prop :=
  posts.count (.sent entry.outboxId) < s.posts.count (.sent entry.outboxId) ∨
    ∃ row ∈ s.db.outbox.rows, row.outboxId = entry.outboxId ∧ entry.attemptCount < row.attemptCount

variable [DecidableEq W]

/-- The clock does not go back, the dispatcher is not stopped and claims up to `n` rows, and the
endpoint stays enabled. What the other dispatchers do is left open. -/
def Serves (w : W) (n : Nat) (entry : OutboxEntry F) (s : World W F) : Action W F → Prop
  | .clock now => s.now ≤ now
  | .claim v limit => v = w → limit = n
  | .stop v => v ≠ w
  | .createEndpoint request =>
    ((s.db.createWebhookEndpoint request).pendingDelivery entry).isSome = true
  | _ => True

def isClaimOf (w : W) : Action W F → Bool
  | .claim v _ => v = w
  | _ => false

variable {s s' : World W F} {a : Action W F} {w : W} {n : Nat} {entry : OutboxEntry F}
  {posts : List Post}

theorem Move.attempted (h : s.Move a s') (hs : s.Attempted posts entry) :
    s'.Attempted posts entry := by
  rcases hs with hsent | ⟨row, hrow, hid, hcount⟩
  · refine .inl (hsent.trans_le ?_)
    cases h with
    | send | answer => exact List.count_le_count_cons
    | _ => exact Nat.le_refl _
  · refine .inr ?_
    cases h with
    | clock | claim | send | answer | insert | stop => exact ⟨row, hrow, hid, hcount⟩
    | enqueue hdb =>
      obtain ⟨-, -, -, hrows⟩ := WebhookTables.enqueue_cases hdb
      refine ⟨row, ?_, hid, hcount⟩
      rcases hrows with hsame | hnew
      · exact hsame ▸ hrow
      · dsimp only
        rw [hnew]
        exact List.mem_append_left _ hrow
    | createEndpoint request =>
      refine ⟨row, ?_, hid, hcount⟩
      dsimp only
      rw [(s.db.createWebhookEndpoint_outbox request).1]
      exact hrow
    | @update v delivery result rest hphase =>
      by_cases hsame : row.outboxId = delivery.outboxId
      · refine ⟨_, WebhookTables.mem_updateOutbox hrow hsame, ?_, ?_⟩
        · rw [WebhookTables.mark_outboxId, hid]
        · rw [WebhookTables.mark_attemptCount]
          omega
      · exact ⟨row, (WebhookTables.mem_updateOutbox_of_ne hsame).mpr hrow, hid, hcount⟩

theorem Move.waiting (h : s.Move a s') (hs : s.Waiting posts entry)
    (hserves : s.Serves w n entry a) : s'.Attempted posts entry ∨ s'.Waiting posts entry := by
  have henabled {db : WebhookTables F} (hdb : db.endpoints = s.db.endpoints) :
      (db.pendingDelivery entry).isSome = true := by
    rw [WebhookTables.pendingDelivery, hdb]
    exact hs.enabled
  cases h with
  | clock now => exact .inr ⟨hs.mem, hs.isOpen, hs.due.trans hserves, hs.enabled, hs.posts⟩
  | enqueue hdb =>
    obtain ⟨-, hendpoints, -, hrows⟩ := WebhookTables.enqueue_cases hdb
    refine .inr ⟨?_, hs.isOpen, hs.due, henabled hendpoints, hs.posts⟩
    rcases hrows with hsame | hnew
    · exact hsame ▸ hs.mem
    · dsimp only
      rw [hnew]
      exact List.mem_append_left _ hs.mem
  | createEndpoint request =>
    refine .inr ⟨?_, hs.isOpen, hs.due, hserves, hs.posts⟩
    dsimp only
    rw [(s.db.createWebhookEndpoint_outbox request).1]
    exact hs.mem
  | claim | stop | insert =>
    exact .inr ⟨hs.mem, hs.isOpen, hs.due, henabled rfl, hs.posts⟩
  | @send v delivery rest hphase =>
    by_cases hid : delivery.outboxId = entry.outboxId
    · left
      left
      dsimp only
      rw [hid, List.count_cons_self]
      exact Nat.lt_succ_of_le hs.posts
    · refine .inr ⟨hs.mem, hs.isOpen, hs.due, henabled rfl, ?_⟩
      exact hs.posts.trans List.count_le_count_cons
  | answer =>
    exact .inr ⟨hs.mem, hs.isOpen, hs.due, henabled rfl,
      hs.posts.trans List.count_le_count_cons⟩
  | @update v delivery result rest hphase =>
    by_cases hid : entry.outboxId = delivery.outboxId
    · refine .inl (.inr ⟨_, WebhookTables.mem_updateOutbox hs.mem hid, ?_, ?_⟩)
      · exact WebhookTables.mark_outboxId
      · rw [WebhookTables.mark_attemptCount]
        omega
    · exact .inr ⟨(WebhookTables.mem_updateOutbox_of_ne hid).mpr hs.mem, hs.isOpen, hs.due,
        henabled rfl, hs.posts⟩

omit [DecidableEq W] in
theorem claimsLeft_le
    (hunsent : entry.outboxId ∈ (s.phase w).unsent.map (·.outboxId) →
      entry.outboxId ∈ (s'.phase w).unsent.map (·.outboxId))
    (hlength : (s'.unclaimed w entry).length ≤ (s.unclaimed w entry).length) :
    s'.claimsLeft w n entry ≤ s.claimsLeft w n entry := by
  unfold claimsLeft
  by_cases hmem : entry.outboxId ∈ (s.phase w).unsent.map (·.outboxId)
  · rw [if_pos (List.contains_iff_mem.mpr (hunsent hmem))]
    exact Nat.zero_le _
  · rw [if_neg (fun h => hmem (List.contains_iff_mem.mp h))]
    split
    · exact Nat.zero_le _
    · exact Nat.succ_le_succ (Nat.div_le_div_right hlength)

theorem claimsLeft_setPhase {v : W} {phase : Phase} {db : WebhookTables F} {now : Timestamptz}
    {later : List Post} (hahead : (db.ahead entry).Sublist (s.db.ahead entry))
    (hheld : v = w → phase.held = (s.phase v).held)
    (hunsent : v = w → entry.outboxId ∈ (s.phase v).unsent.map (·.outboxId) →
      entry.outboxId ∈ phase.unsent.map (·.outboxId)) :
    claimsLeft w n entry ⟨db, now, (s.setPhase v phase).phase, later⟩ ≤
      s.claimsLeft w n entry := by
  by_cases hv : v = w
  · subst hv
    refine claimsLeft_le (fun hmem => ?_) ?_
    · simpa [setPhase] using hunsent rfl (by simpa using hmem)
    · simpa [unclaimed, setPhase, hheld rfl] using (hahead.filter _).length_le
  · have hphase : (s.setPhase v phase).phase w = s.phase w := by simp [setPhase, Ne.symm hv]
    refine claimsLeft_le (fun hmem => ?_) ?_
    · exact hphase.symm ▸ hmem
    · unfold unclaimed
      dsimp only
      rw [hphase]
      exact (hahead.filter _).length_le

/-- A claim leads on: it takes the entry, or as much of what is ahead of it as it may. -/
theorem claimsLeft_claim (hn : 0 < n) (hs : s.Waiting posts entry) (hphase : s.phase w = .idle)
    {claimed : List PendingDelivery} (hclaim : s.db.claimPendingDeliveries s.now n = some claimed) :
    claimsLeft w n entry (s.setPhase w (.loop claimed)) + 1 ≤ s.claimsLeft w n entry := by
  have hleft : s.claimsLeft w n entry = (s.db.ahead entry).length / n + 1 := by
    simp [claimsLeft, unclaimed, hphase, Phase.unsent, Phase.held]
  have hphase' : (s.setPhase w (.loop claimed)).phase w = .loop claimed := by simp [setPhase]
  rw [hleft]
  unfold claimsLeft
  split
  · exact Nat.succ_le_succ (Nat.zero_le _)
  · next hnot =>
    rw [hphase', Phase.unsent_loop, List.contains_iff_mem] at hnot
    rcases WebhookTables.claimPendingDeliveries_takes hclaim hs.mem hs.isOpen hs.due
      hs.enabled with htaken | ⟨hfull, hahead⟩
    · exact absurd htaken hnot
    · have hcount := length_filter_notContains (WebhookTables.nodup_ahead s.db entry)
        (WebhookTables.claimPendingDeliveries_nodup hclaim) fun outboxId hid => by
          obtain ⟨first, hfirst, rfl⟩ := List.mem_map.mp hid
          exact hahead first hfirst
      rw [List.length_map, hfull] at hcount
      rw [← hcount, Nat.add_div_right _ hn, unclaimed, hphase', Phase.held_loop]
      exact Nat.le_refl _

/-- What has been recorded is neither ahead nor held any more. -/
theorem claimsLeft_update (hs : s.Waiting posts entry) {delivery : PendingDelivery}
    {result : SendResult} {rest : List PendingDelivery}
    (hphase : s.phase w = .recorded delivery result rest) :
    claimsLeft w n entry { s.setPhase w (.loop rest) with
      db := s.db.updateOutbox s.now delivery result } ≤ s.claimsLeft w n entry := by
  have hphase' : (s.setPhase w (.loop rest)).phase w = .loop rest := by simp [setPhase]
  refine claimsLeft_le (fun hmem => ?_) (le_of_eq ?_)
  · dsimp only
    rw [hphase', Phase.unsent_loop]
    rwa [hphase] at hmem
  · unfold unclaimed
    dsimp only
    rw [hphase', Phase.held_loop, hphase, WebhookTables.ahead_updateOutbox hs.due,
      List.filter_filter]
    refine congrArg _ (List.filter_congr fun outboxId _ => ?_)
    by_cases hid : outboxId = delivery.outboxId <;> simp [Phase.held, hid]

theorem Move.claimsLeft (h : s.Move a s') (hn : 0 < n) (hs : s.Waiting posts entry)
    (hserves : s.Serves w n entry a) : s'.Attempted posts entry ∨
      s'.claimsLeft w n entry + (if isClaimOf w a then 1 else 0) ≤ s.claimsLeft w n entry := by
  cases h with
  | clock => exact .inr (Nat.le_refl _)
  | enqueue hdb =>
    refine .inr (claimsLeft_le id (le_of_eq ?_))
    unfold unclaimed
    dsimp only
    rw [WebhookTables.ahead_enqueue hdb hs.mem hs.due]
  | createEndpoint request =>
    refine .inr (claimsLeft_le id (le_of_eq ?_))
    unfold unclaimed
    dsimp only
    rw [WebhookTables.ahead_of_outbox (s.db.createWebhookEndpoint_outbox request).1]
  | @claim v limit claimed hphase hclaim =>
    right
    by_cases hv : v = w
    · subst hv
      obtain rfl : limit = n := hserves rfl
      simpa [isClaimOf] using claimsLeft_claim hn hs hphase hclaim
    · rw [isClaimOf, decide_eq_false hv]
      exact claimsLeft_setPhase (.refl _) (fun h => absurd h hv) fun h => absurd h hv
  | @send v delivery rest hphase =>
    by_cases hid : delivery.outboxId = entry.outboxId
    · left
      left
      dsimp only
      rw [hid, List.count_cons_self]
      exact Nat.lt_succ_of_le hs.posts
    · refine .inr (claimsLeft_setPhase (.refl _) (fun _ => by rw [hphase]; rfl) fun _ hmem => ?_)
      rw [hphase] at hmem
      exact (List.mem_cons.mp hmem).resolve_left (Ne.symm hid)
  | @answer v delivery rest result hphase =>
    refine .inr (claimsLeft_setPhase (.refl _) (fun _ => by rw [hphase]; rfl) fun _ hmem => ?_)
    rwa [hphase] at hmem
  | @insert v delivery result rest hphase =>
    refine .inr (claimsLeft_setPhase (.refl _) (fun _ => by rw [hphase]; rfl) fun _ hmem => ?_)
    rwa [hphase] at hmem
  | @update v delivery result rest hphase =>
    right
    by_cases hv : v = w
    · subst hv
      exact claimsLeft_update hs hphase
    · refine claimsLeft_setPhase ?_ (fun h => absurd h hv) fun h => absurd h hv
      rw [WebhookTables.ahead_updateOutbox hs.due]
      exact List.filter_sublist
  | stop v =>
    exact .inr (claimsLeft_setPhase (.refl _) (fun h => absurd h hserves) fun h => absurd h hserves)

theorem advances (w : W) (hn : 0 < n) (posts : List Post) (entry : OutboxEntry F) :
    Advances step (Serves w n entry) (Waiting posts entry) (Attempted posts entry)
      (claimsLeft w n entry) (isClaimOf w) where
  stays s a t hs h := (move_of_step h).attempted hs
  pays s a t hs hserves h := by
    rcases (move_of_step h).waiting hs hserves with hdone | hwaiting
    · exact .inl hdone
    · exact ((move_of_step h).claimsLeft hn hs hserves).imp id fun hleft => ⟨hwaiting, hleft⟩

/-- While a dispatcher is at work, a delivery that is due is attempted before the dispatcher makes
one claim more than it takes to claim all that is ahead of it and then the delivery, whatever is
enqueued, fails or is done by others meanwhile. -/
theorem run_due_attempted (w : W) (hn : 0 < n) (s t : World W F) (entry : OutboxEntry F)
    (hentry : entry ∈ s.db.outbox.rows) (hopen : entry.status.isOpen = true)
    (hdue : entry.nextAttemptAt ≤ s.now) (henabled : (s.db.pendingDelivery entry).isSome = true)
    (as : List (Action W F)) (hserves : Guarded step (Serves w n entry) s as)
    (hrun : run step s as = some t)
    (hclaims : (s.db.ahead entry).length / n + 2 ≤ as.countP (isClaimOf w)) :
    t.Attempted s.posts entry := by
  refine run_reaches (advances w hn s.posts entry)
    ⟨hentry, hopen, hdue, henabled, Nat.le_refl _⟩ hserves hrun (Nat.lt_of_lt_of_le ?_ hclaims)
  unfold World.claimsLeft
  split
  · exact Nat.succ_pos _
  · have hle := Nat.div_le_div_right (c := n) (List.length_filter_le
      (fun outboxId => !((s.phase w).held.map (·.outboxId)).contains outboxId) (s.db.ahead entry))
    unfold unclaimed
    omega

/-! Three rows, claimed one by one -/

instance (s : World W F) (a : Action W F) : Decidable (s.Serves w n entry a) :=
  match a with
  | .clock now => inferInstanceAs (Decidable (s.now ≤ now))
  | .claim v limit => inferInstanceAs (Decidable (v = w → limit = n))
  | .stop v => inferInstanceAs (Decidable (v ≠ w))
  | .createEndpoint request =>
    inferInstanceAs (Decidable (((s.db.createWebhookEndpoint request).pendingDelivery entry).isSome =
      true))
  | .enqueue _ | .send _ | .answer _ _ | .insert _ | .update _ => .isTrue trivial

def alarmOf (eventId : Nat) : OutboxRow Int :=
  { alarmRow with payload := { alarmRow.payload with eventId } }

def threeDue : List (Action Bool Int) :=
  enqueued none ++ [.enqueue (alarmOf 2), .enqueue (alarmOf 3)]

def rounds : List (Action Bool Int) :=
  .claim true 1 :: attempt true serverError ++ .enqueue (alarmOf 4) :: .claim true 1 ::
    attempt true accepted ++ .claim true 1 :: attempt true accepted ++ [.claim true 1]

theorem run_due_attempted_third : ∃ s t entry, run step (start noTables 0) threeDue = some s ∧
    entry ∈ s.db.outbox.rows ∧ s.db.ahead entry = [1, 2] ∧ run step s rounds = some t ∧
    t.Attempted s.posts entry := by
  refine ⟨_, _, ⟨3, alarmOf 3, .pending, 0, 0, none, none⟩, rfl, .tail _ (.tail _ (.head _)),
    by decide +kernel, rfl, ?_⟩
  exact run_due_attempted true Nat.one_pos _ _ _ (.tail _ (.tail _ (.head _))) (by decide)
    (by decide) (by decide +kernel) rounds (by decide +kernel) rfl (by decide +kernel)

end World

end Aetus.Anomaly
