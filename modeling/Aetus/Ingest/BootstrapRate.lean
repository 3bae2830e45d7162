import Aetus.Ingest.TokenCustody
import Mathlib.Data.List.Perm.Basic
import Mathlib.Tactic.Linarith
import Mathlib.Tactic.FieldSimp
import Mathlib.Tactic.Ring

/-!
How many tokens whoever holds the bootstrap token can have issued from one address, whatever the
other requests do to the limiter meanwhile.
-/

set_option autoImplicit false

namespace Aetus.Ingest
open Aetus.Base

def ServiceAction.now : ServiceAction → Option ℚ
  | .request (.ingest upload) | .request (.time upload _) => some upload.now
  | .request (.provision call) => some call.now
  | _ => none

def ServiceAction.isStart : ServiceAction → Bool
  | .start _ _ => true
  | _ => false

def ProvisionCall.inWindow (ip : List Char) (a b : ℚ) (call : ProvisionCall) : Bool :=
  decide (sourceIp call.clientHost = ip) && decide (a ≤ call.now) && decide (call.now ≤ b)

def LedgerEntry.provisioned (ip : List Char) (a b : ℚ) : LedgerEntry → Bool
  | .issued (.bootstrap call) _ => call.inWindow ip a b
  | _ => false

def Waiting.provisions (ip : List Char) (a b : ℚ) : Waiting → Bool
  | .provisioning call | .issuing (.bootstrap call) => call.inWindow ip a b
  | _ => false

section
variable {backend : Backend} {unicode : Unicode} {service : IngestService}
  {settings : ServiceSettings} {s t : ServiceState} {ip : List Char} {a b : ℚ}
  {rounding : Rounding} {plan : RateLimitPlan} {before : Nat} {nows : List ℚ}
  {calls : List LimiterCall}

def ServiceState.provisions (ip : List Char) (a b : ℚ) (s : ServiceState) : Nat :=
  s.ledger.countP (LedgerEntry.provisioned ip a b) + s.waiting.countP (Waiting.provisions ip a b)

theorem ServiceState.provisions_record (s : ServiceState) (entry : LedgerEntry) :
    (s.record entry).provisions ip a b =
      s.provisions ip a b + if entry.provisioned ip a b then 1 else 0 := by
  simp only [provisions, record, List.countP_cons]
  omega

theorem ServiceState.provisions_reply (s : ServiceState) (reply : ServiceReply) :
    (s.reply reply).provisions ip a b = s.provisions ip a b :=
  s.provisions_record _

theorem ServiceState.provisions_wait (s : ServiceState) (waiting : Waiting) :
    (s.wait waiting).provisions ip a b =
      s.provisions ip a b + if waiting.provisions ip a b then 1 else 0 := by
  simp only [provisions, wait, List.countP_cons]
  omega

theorem ServiceState.provisions_eraseIdx {i : Nat} {waiting : Waiting}
    (h : s.waiting[i]? = some waiting) :
    ({ s with waiting := s.waiting.eraseIdx i } : ServiceState).provisions ip a b +
      (if waiting.provisions ip a b then 1 else 0) = s.provisions ip a b := by
  obtain ⟨hi, rfl⟩ := List.getElem?_eq_some_iff.mp h
  have hcount := (List.getElem_cons_eraseIdx_perm hi).countP_eq (Waiting.provisions ip a b)
  rw [List.countP_cons] at hcount
  simp only [provisions]
  omega

/-- The limiter is as these calls have left it, and for each provisioning beyond `before` it has
allowed one of them. -/
structure Limited (rounding : Rounding) (ip : List Char) (a b : ℚ) (plan : RateLimitPlan)
    (before : Nat) (nows : List ℚ) (calls : List LimiterCall) (s : ServiceState) : Prop where
  buckets : s.buckets = bucketsAfter rounding ∅ calls
  plan : UsesPlan (bootstrapKey ip) plan calls
  readings : (calls.filterMap LimiterCall.reading).Sublist nows
  allowed : s.provisions ip a b ≤
    before + (decisions rounding ∅ calls).countP (allowedIn (bootstrapKey ip) a b)

theorem Limited.quiet (h : Limited rounding ip a b plan before nows calls s)
    (hbuckets : t.buckets = s.buckets) (hprovisions : t.provisions ip a b ≤ s.provisions ip a b)
    (later : List ℚ) : Limited rounding ip a b plan before (nows ++ later) calls t :=
  ⟨hbuckets.trans h.buckets, h.plan, h.readings.trans (List.sublist_append_left _ _),
    hprovisions.trans h.allowed⟩

theorem Limited.reply (h : Limited rounding ip a b plan before nows calls s) (reply : ServiceReply)
    (later : List ℚ) : Limited rounding ip a b plan before (nows ++ later) calls (s.reply reply) := by
  have hprovisions : (s.reply reply).provisions ip a b = s.provisions ip a b :=
    s.provisions_reply reply
  refine h.quiet ?_ hprovisions.le later
  rfl

/-- A step with a call, which may let one more provisioning begin. -/
theorem Limited.consume (h : Limited rounding ip a b plan before nows calls s) {key : List Char}
    {used : RateLimitPlan} {now : ℚ} {decision : RateLimitDecision} {after : Buckets}
    (hconsume : Ingest.consume rounding s.buckets key used now = .ok (decision, after))
    (hused : key = bootstrapKey ip → used = plan) (hbuckets : t.buckets = after)
    (hprovisions : t.provisions ip a b ≤ s.provisions ip a b +
      if allowedIn (bootstrapKey ip) a b (.consume key used now, some decision) then 1 else 0) :
    Limited rounding ip a b plan before (nows ++ [now]) (calls ++ [.consume key used now]) t := by
  have hperform : (LimiterCall.consume key used now).perform rounding (bucketsAfter rounding ∅ calls) =
      (some decision, after) := by
    rw [LimiterCall.perform, ← h.buckets, hconsume]
  constructor
  · rw [hbuckets, bucketsAfter, List.foldl_append]
    exact (congrArg Prod.snd hperform).symm
  · intro used' now' hmem
    rcases List.mem_append.mp hmem with hold | hnew
    · exact h.plan used' now' hold
    · obtain ⟨hkey, rfl, -⟩ := LimiterCall.consume.inj (List.mem_singleton.mp hnew)
      exact hused hkey.symm
  · rw [List.filterMap_append]
    refine h.readings.append ?_
    rw [List.filterMap_cons, LimiterCall.reading, if_pos (consume_cases hconsume).1]
    exact .refl _
  · have hsnoc : decisions rounding ∅ (calls ++ [.consume key used now]) =
        decisions rounding ∅ calls ++ [(.consume key used now, some decision)] := by
      rw [decisions_append, decisions, decisions, hperform]
    rw [hsnoc, List.countP_append, List.countP_singleton]
    have hallowed := h.allowed
    omega

/-! The calls of the handlers -/

theorem rateLimitKey_ne_bootstrapKey {c : Char} {rest xDeviceId sourceIp : List Char}
    (hc : c ≠ 'b') : rateLimitKey (c :: rest) xDeviceId sourceIp ≠ bootstrapKey ip := by
  intro h
  exact hc (List.cons.inj h).1

theorem prepareDeviceIngest_buckets {settings : IngestSettings} {buckets after : Buckets}
    {request : IngestRequest} {xDeviceId rateLimitPrefix : List Char}
    {outcome : Except IngestReply (List Char)}
    (h : prepareDeviceIngest service settings buckets request xDeviceId rateLimitPrefix =
      (outcome, after)) :
    after = buckets ∨ ∃ decision, consume service.rounding buckets
      (rateLimitKey rateLimitPrefix xDeviceId (sourceIp request.clientHost))
      (ingestRatePlan settings xDeviceId) request.now = .ok (decision, after) := by
  simp only [prepareDeviceIngest] at h
  split at h
  · exact .inl (Prod.mk.inj h).2.symm
  · split at h
    · exact .inl (Prod.mk.inj h).2.symm
    · next decision buckets hconsume =>
      have hafter : buckets = after := by
        split at h
        · exact (Prod.mk.inj h).2
        · exact (Prod.mk.inj h).2
      exact .inr ⟨decision, hafter ▸ hconsume⟩

theorem prepareProvision_buckets {buckets after : Buckets} {call : ProvisionCall}
    {outcome : Except IngestReply Unit}
    (h : prepareProvision service settings buckets call = (outcome, after)) :
    (after = buckets ∧ ∃ reply, outcome = .error reply) ∨ ∃ plan decision,
      bootstrapPlan service.rounding settings = some plan ∧
      consume service.rounding buckets (bootstrapKey (sourceIp call.clientHost)) plan call.now =
        .ok (decision, after) ∧ (outcome = .ok () → decision.allowed = true) := by
  simp only [prepareProvision] at h
  split at h
  · exact .inl ⟨(Prod.mk.inj h).2.symm, _, (Prod.mk.inj h).1.symm⟩
  · split at h
    · exact .inl ⟨(Prod.mk.inj h).2.symm, _, (Prod.mk.inj h).1.symm⟩
    · split at h
      · exact .inl ⟨(Prod.mk.inj h).2.symm, _, (Prod.mk.inj h).1.symm⟩
      · split at h
        · exact .inl ⟨(Prod.mk.inj h).2.symm, _, (Prod.mk.inj h).1.symm⟩
        · next plan hplan =>
          split at h
          · exact .inl ⟨(Prod.mk.inj h).2.symm, _, (Prod.mk.inj h).1.symm⟩
          · next decision buckets hconsume =>
            refine .inr ⟨plan, decision, hplan, ?_⟩
            split at h
            · next hallowed =>
              obtain ⟨-, rfl⟩ := Prod.mk.inj h
              exact ⟨hconsume, fun _ => hallowed⟩
            · obtain ⟨rfl, rfl⟩ := Prod.mk.inj h
              refine ⟨hconsume, fun hok => ?_⟩
              cases hok

/-- A request to one of the two endpoints of a device uses the limiter under another key. -/
theorem Limited.device (h : Limited service.rounding ip a b plan before nows calls s)
    {request : IngestRequest} {xDeviceId rest : List Char} {c : Char} (hc : c ≠ 'b') {after : Buckets}
    {outcome : Except IngestReply (List Char)}
    (hprepare : prepareDeviceIngest service settings.ingest s.buckets request xDeviceId (c :: rest) =
      (outcome, after))
    (hbuckets : t.buckets = after) (hprovisions : t.provisions ip a b = s.provisions ip a b) :
    ∃ calls', Limited service.rounding ip a b plan before (nows ++ [request.now]) calls' t := by
  rcases prepareDeviceIngest_buckets hprepare with rfl | ⟨decision, hconsume⟩
  · exact ⟨calls, h.quiet hbuckets hprovisions.le _⟩
  · refine ⟨_, h.consume hconsume (fun hkey => ?_) hbuckets
      (hprovisions.le.trans (Nat.le_add_right _ _))⟩
    exact absurd hkey (rateLimitKey_ne_bootstrapKey hc)

theorem inWindow_le_allowedIn {call : ProvisionCall} {used : RateLimitPlan}
    {decision : RateLimitDecision} (hallowed : decision.allowed = true) :
    (if call.inWindow ip a b then 1 else 0) ≤
      if allowedIn (bootstrapKey ip) a b (.consume (bootstrapKey (sourceIp call.clientHost)) used
        call.now, some decision) then 1 else 0 := by
  by_cases hin : call.inWindow ip a b = true
  · have hsame := hin
    simp only [ProvisionCall.inWindow, Bool.and_eq_true, decide_eq_true_eq] at hsame
    obtain ⟨⟨rfl, ha⟩, hb⟩ := hsame
    simp [allowedIn, hallowed, ha, hb, hin]
  · simp [hin]

theorem Limited.provision (h : Limited service.rounding ip a b plan before nows calls s)
    (hplan : bootstrapPlan service.rounding settings = some plan) (call : ProvisionCall) :
    ∃ calls', Limited service.rounding ip a b plan before (nows ++ [call.now]) calls'
      (s.receive backend unicode service settings (.provision call)) := by
  unfold ServiceState.receive
  dsimp only
  split
  · next reply after hprepare =>
    have hsame : (({ s with buckets := after } : ServiceState).reply (.ingest reply)).provisions
        ip a b = s.provisions ip a b := ServiceState.provisions_reply _ _
    rcases prepareProvision_buckets hprepare with ⟨rfl, -⟩ | ⟨used, decision, hused, hconsume, -⟩
    · exact ⟨calls, h.reply _ _⟩
    · refine ⟨_, h.consume hconsume (fun _ => ?_) rfl (hsame.le.trans (Nat.le_add_right _ _))⟩
      exact Option.some.inj (hused.symm.trans hplan)
  · next after hprepare =>
    rcases prepareProvision_buckets hprepare with
      ⟨-, reply, hreply⟩ | ⟨used, decision, hused, hconsume, hallowed⟩
    · cases hreply
    · refine ⟨_, h.consume hconsume (fun _ => ?_) rfl ?_⟩
      · exact Option.some.inj (hused.symm.trans hplan)
      · rw [ServiceState.provisions_wait]
        exact Nat.add_le_add_left (inWindow_le_allowedIn (hallowed rfl)) _

theorem receiveAdmin_provisions (s : ServiceState) (request : AdminRequest) :
    (s.receive backend unicode service settings (.admin request)).buckets = s.buckets ∧
      (s.receive backend unicode service settings (.admin request)).provisions ip a b =
        s.provisions ip a b := by
  unfold ServiceState.receive
  dsimp only
  split
  · split
    · refine ⟨rfl, ?_⟩
      rw [ServiceState.provisions_wait, ServiceState.provisions_record]
      exact s.provisions_record _
    · refine ⟨rfl, ?_⟩
      rw [ServiceState.provisions_reply]
      exact s.provisions_record _
  · refine ⟨rfl, ?_⟩
    rw [ServiceState.provisions_reply]
    exact s.provisions_record _

theorem Limited.receive (h : Limited service.rounding ip a b plan before nows calls s)
    (hplan : bootstrapPlan service.rounding settings = some plan) (request : HttpRequest) :
    ∃ calls', Limited service.rounding ip a b plan before
      (nows ++ (ServiceAction.request request).now.toList) calls'
      (s.receive backend unicode service settings request) := by
  cases request with
  | admin request =>
    obtain ⟨hbuckets, hprovisions⟩ := receiveAdmin_provisions s request
    exact ⟨calls, h.quiet hbuckets hprovisions.le _⟩
  | provision call => exact h.provision hplan call
  | ingest request =>
    unfold ServiceState.receive
    dsimp only
    split
    · exact ⟨calls, h.reply _ _⟩
    · split
      · exact ⟨calls, h.reply _ _⟩
      · split
        · next hprepare => exact h.device (by decide) hprepare rfl (s.provisions_reply _)
        · next hprepare => exact h.device (by decide) hprepare rfl (s.provisions_wait _)
  | time request unixTimeNs =>
    unfold ServiceState.receive
    dsimp only
    split
    · exact ⟨calls, h.reply _ _⟩
    · split
      · next hprepare => exact h.device (by decide) hprepare rfl (s.provisions_reply _)
      · next hprepare => exact h.device (by decide) hprepare rfl (s.provisions_wait _)

theorem resume_provisions (s : ServiceState) (published : Bool) (waiting : Waiting) :
    (s.resume backend unicode service settings published waiting).buckets = s.buckets ∧
      (s.resume backend unicode service settings published waiting).settings = s.settings ∧
      (s.resume backend unicode service settings published waiting).provisions ip a b ≤
        s.provisions ip a b + if waiting.provisions ip a b then 1 else 0 := by
  have hreply (reply : ServiceReply) : (s.reply reply).provisions ip a b ≤
      s.provisions ip a b + if waiting.provisions ip a b then 1 else 0 :=
    (s.provisions_reply reply).le.trans (Nat.le_add_right _ _)
  cases waiting with
  | ingesting request xDeviceId ip =>
    unfold ServiceState.resume
    dsimp only
    split
    · exact ⟨rfl, rfl, hreply _⟩
    · refine ⟨rfl, rfl, ?_⟩
      rw [ServiceState.provisions_wait, ServiceState.provisions_record]
      exact Nat.le_add_right _ _
  | publishing event =>
    refine ⟨rfl, rfl, ?_⟩
    rw [ServiceState.resume, ServiceState.provisions_reply, ServiceState.provisions_record]
    exact Nat.le_add_right _ _
  | syncing request xDeviceId unixTimeNs =>
    unfold ServiceState.resume
    dsimp only
    split
    · exact ⟨rfl, rfl, hreply _⟩
    · exact ⟨rfl, rfl, hreply _⟩
  | provisioning call =>
    unfold ServiceState.resume
    dsimp only
    split
    · exact ⟨rfl, rfl, hreply _⟩
    · split
      · exact ⟨rfl, rfl, hreply _⟩
      · refine ⟨rfl, rfl, ?_⟩
        rw [ServiceState.provisions_wait, ServiceState.provisions_record]
        exact Nat.le_refl _
  | issuing authority =>
    unfold ServiceState.resume
    dsimp only
    split
    · exact ⟨rfl, rfl, hreply _⟩
    · refine ⟨rfl, rfl, ?_⟩
      rw [ServiceState.provisions_wait, ServiceState.provisions_record]
      cases authority with
      | bootstrap call => exact Nat.le_refl _
      | admin request payload => exact Nat.le_refl _
  | answering authority issued =>
    unfold ServiceState.resume
    dsimp only
    split
    · exact ⟨rfl, rfl, hreply _⟩
    · exact ⟨rfl, rfl, hreply _⟩

theorem receive_settings (s : ServiceState) (request : HttpRequest) :
    (s.receive backend unicode service settings request).settings = s.settings := by
  unfold ServiceState.receive
  cases request with
  | admin request =>
    dsimp only
    split
    · split <;> rfl
    · rfl
  | provision call =>
    dsimp only
    split <;> rfl
  | ingest request =>
    dsimp only
    split
    · rfl
    · split
      · rfl
      · split <;> rfl
  | time request unixTimeNs =>
    dsimp only
    split
    · rfl
    · split <;> rfl

theorem Limited.step (h : Limited service.rounding ip a b plan before nows calls s)
    (hsettings : s.settings = some settings)
    (hplan : bootstrapPlan service.rounding settings = some plan)
    {action : ServiceAction} (haction : action.isStart = false)
    (hstep : s.step backend unicode service action = some t) :
    t.settings = some settings ∧
      ∃ calls', Limited service.rounding ip a b plan before (nows ++ action.now.toList) calls' t := by
  cases action with
  | start settings now => cases haction
  | request request =>
    obtain ⟨current, hcurrent, rfl⟩ := Option.map_eq_some_iff.mp hstep
    obtain rfl := Option.some.inj (hsettings.symm.trans hcurrent)
    exact ⟨(receive_settings s request).trans hsettings, h.receive hplan request⟩
  | resume i published =>
    obtain ⟨current, hcurrent, hresume⟩ := Option.bind_eq_some_iff.mp hstep
    obtain rfl := Option.some.inj (hsettings.symm.trans hcurrent)
    obtain ⟨waiting, hwaiting, rfl⟩ := Option.map_eq_some_iff.mp hresume
    have herase : ({ s with waiting := s.waiting.eraseIdx i } : ServiceState).provisions ip a b +
        (if waiting.provisions ip a b then 1 else 0) = s.provisions ip a b :=
      ServiceState.provisions_eraseIdx hwaiting
    obtain ⟨hbuckets, hsame, hprovisions⟩ :=
      @resume_provisions backend unicode service settings ip a b
        { s with waiting := s.waiting.eraseIdx i } published waiting
    exact ⟨hsame.trans hsettings, calls, h.quiet hbuckets (hprovisions.trans herase.le) _⟩

theorem run_limited {actions : List ServiceAction}
    (hplan : bootstrapPlan service.rounding settings = some plan)
    (hactions : ∀ action ∈ actions, action.isStart = false)
    (hrun : run (ServiceState.step backend unicode service) s actions = some t)
    (hsettings : s.settings = some settings)
    (h : Limited service.rounding ip a b plan before nows calls s) :
    ∃ calls', Limited service.rounding ip a b plan before
      (nows ++ actions.filterMap ServiceAction.now) calls' t := by
  induction actions generalizing s nows calls with
  | nil =>
    obtain rfl : s = t := Option.some.inj hrun
    exact ⟨calls, h.quiet rfl (Nat.le_refl _) _⟩
  | cons action actions ih =>
    obtain ⟨u, hstep, hrest⟩ := run_cons.mp hrun
    obtain ⟨haction, hactions⟩ := List.forall_mem_cons.mp hactions
    obtain ⟨hup, calls', hlimited⟩ := h.step hsettings hplan haction hstep
    obtain ⟨calls'', hdone⟩ := ih hactions hrest hup hlimited
    refine ⟨calls'', ?_⟩
    cases hnow : action.now with
    | none =>
      rw [List.filterMap_cons_none hnow]
      simpa [hnow] using hdone
    | some now =>
      rw [List.filterMap_cons_some hnow]
      simpa [hnow] using hdone

theorem start_limits (s : ServiceState) (settings : ServiceSettings) (now : List Char) :
    (s.start backend settings now).buckets = ∅ ∧
      (s.start backend settings now).provisions ip a b =
        s.ledger.countP (LedgerEntry.provisioned ip a b) := by
  unfold ServiceState.start
  dsimp only
  split
  · exact ⟨rfl, rfl⟩
  · split
    · exact ⟨rfl, rfl⟩
    · exact ⟨rfl, rfl⟩

/-- From one start to the next, an address has at most as many tokens issued by means of the
bootstrap token as its plan provides for the time between the readings. -/
theorem run_provisioned_le {actions : List ServiceAction} {now : List Char}
    (hexact : service.rounding = unrounded)
    (hup : (s.start backend settings now).settings = some settings)
    (hactions : ∀ action ∈ actions, action.isStart = false)
    (hrun : run (ServiceState.step backend unicode service) (s.start backend settings now) actions =
      some t)
    (hclock : (actions.filterMap ServiceAction.now).Pairwise (· ≤ ·))
    (hrequests : 0 < settings.bootstrapRequestsPerWindow)
    (hwindow : 0 < settings.bootstrapWindowSeconds ∧
      settings.bootstrapWindowSeconds ≤ DEFAULT_MAX_IDLE_SECONDS)
    (ip : List Char) (hab : a ≤ b) :
    (t.ledger.countP (LedgerEntry.provisioned ip a b) : ℚ) ≤
      s.ledger.countP (LedgerEntry.provisioned ip a b) +
        settings.bootstrapRequestsPerWindow * (1 + (b - a) / settings.bootstrapWindowSeconds) := by
  have hplan : bootstrapPlan service.rounding settings = some
      ⟨settings.bootstrapRequestsPerWindow / settings.bootstrapWindowSeconds,
        settings.bootstrapRequestsPerWindow⟩ := by
    rw [hexact]
    exact if_neg hwindow.1.ne'
  generalize hp : RateLimitPlan.mk _ _ = plan at hplan
  obtain ⟨hbuckets, hprovisions⟩ := @start_limits backend ip a b s settings now
  have hstart : Limited service.rounding ip a b plan
      (s.ledger.countP (LedgerEntry.provisioned ip a b)) [] [] (s.start backend settings now) :=
    ⟨hbuckets, nofun, .refl _, hprovisions.le.trans (Nat.le_add_right _ _)⟩
  obtain ⟨calls, hlimited⟩ := run_limited hplan hactions hrun hup hstart
  rw [hexact] at hlimited
  have hrate : (0 : ℚ) < settings.bootstrapRequestsPerWindow := Int.cast_pos.mpr hrequests
  have haccepted : plan.Accepted := by
    rw [← hp]
    exact ⟨div_pos hrate hwindow.1, hrequests⟩
  have hburst : (plan.burst : ℚ) ≤ plan.ratePerSecond * (DEFAULT_MAX_IDLE_SECONDS - 2 * 0) := by
    rw [← hp, mul_zero, sub_zero, div_mul_eq_mul_div, le_div_iff₀ hwindow.1]
    exact mul_le_mul_of_nonneg_left hwindow.2 hrate.le
  have hordered : (calls.filterMap LimiterCall.reading).Pairwise fun r r' => r - 0 ≤ r' :=
    (hclock.sublist hlimited.readings).imp fun hle => by rwa [sub_zero]
  have hallowed := countP_allowedIn_le hlimited.plan haccepted (le_refl 0) hordered hburst hab
  have hcount : t.ledger.countP (LedgerEntry.provisioned ip a b) ≤
      s.ledger.countP (LedgerEntry.provisioned ip a b) +
        (decisions unrounded ∅ calls).countP (allowedIn (bootstrapKey ip) a b) :=
    (Nat.le_add_right _ _).trans hlimited.allowed
  have hplanned : (plan.burst : ℚ) + plan.ratePerSecond * (b - a) =
      settings.bootstrapRequestsPerWindow * (1 + (b - a) / settings.bootstrapWindowSeconds) := by
    rw [← hp]
    ring
  calc (t.ledger.countP (LedgerEntry.provisioned ip a b) : ℚ)
      ≤ (s.ledger.countP (LedgerEntry.provisioned ip a b) : ℚ) +
          (decisions unrounded ∅ calls).countP (allowedIn (bootstrapKey ip) a b) := by
        exact_mod_cast hcount
    _ ≤ _ := by
      rw [← hplanned]
      exact add_le_add_right hallowed _

end

/-! Three calls, of which the second one comes too early: the bound is met. -/

def cameraCall (now : ℚ) (fresh : List Char) : ProvisionCall :=
  ⟨none, some "Bearer boot".toList, ⟨"cam-hw".toList, "m".toList, none, none⟩, now, fresh, []⟩

def cameraCalls : List ServiceAction :=
  [.request (.provision (cameraCall 0 "x".toList)), .resume 0 true,
    .request (.provision (cameraCall 5 "y".toList)), .resume 0 true,
    .request (.provision (cameraCall 10 "z".toList)), .resume 0 true, .resume 0 true]

theorem run_provisioned_le_two :
    let unicode : Unicode := ⟨fun text => text.map Char.toLower, fun c => c = ' ', id⟩
    let backend : Backend := ⟨.sqlite, fun _ => true, id, fun _ _ => true⟩
    let service : IngestService := { cameraService with rounding := unrounded }
    let ip := "0.0.0.0".toList
    ∃ t, run (ServiceState.step backend unicode service)
        (ServiceState.installed.start backend cameraSettings []) cameraCalls = some t ∧
      t.ledger.countP (LedgerEntry.provisioned ip 0 10) = 2 ∧
      (t.ledger.countP (LedgerEntry.provisioned ip 0 10) : ℚ) ≤
        ([] : List LedgerEntry).countP (LedgerEntry.provisioned ip 0 10) + (1 : Int) *
          (1 + (10 - 0) / 10) := by
  intro unicode backend service ip
  have hsome : ((run (ServiceState.step backend unicode service)
      (ServiceState.installed.start backend cameraSettings []) cameraCalls).map fun t =>
        t.ledger.countP (LedgerEntry.provisioned ip 0 10)) = some 2 := by
    decide +kernel
  obtain ⟨t, ht, hcount⟩ := Option.map_eq_some_iff.mp hsome
  have hup : (ServiceState.installed.start backend cameraSettings []).settings =
      some cameraSettings := rfl
  exact ⟨t, ht, hcount, run_provisioned_le (s := .installed) rfl hup (by decide) ht
    (by decide +kernel) (by decide) (by decide +kernel) ip (by decide +kernel)⟩

end Aetus.Ingest
