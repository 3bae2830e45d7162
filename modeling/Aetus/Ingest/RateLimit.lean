import Mathlib.Data.Rat.Floor
import Aetus.Base.Binary64
import Aetus.Base.Dict
import Aetus.Base.TokenBucket

/-!
The in-memory limiter of the ingest service's rate_limit.py. A call that reads the clock takes the
reading as an argument; the result of each operation on floats goes through `rounding`.
-/

set_option autoImplicit false

namespace Aetus.Ingest
open Aetus.Base

structure RateLimitPlan where
  ratePerSecond : ℚ
  burst : ℤ
  deriving DecidableEq

structure RateLimitDecision where
  allowed : Bool
  retryAfterSeconds : ℚ
  deriving DecidableEq

structure BucketState where
  tokens : ℚ
  lastRefill : ℚ
  lastAccess : ℚ
  deriving DecidableEq

abbrev Buckets := Dict (List Char) BucketState

def DEFAULT_MAX_IDLE_SECONDS : ℚ := 3600
def DEFAULT_MAX_BUCKETS : Nat := 50000

def deleteStale (buckets : Buckets) (threshold : ℚ) : Buckets :=
  buckets.eraseAll (buckets.keysWhere fun state => state.lastAccess < threshold)

def maybeEvict (rounding : Rounding) (buckets : Buckets) (now : ℚ) : Buckets :=
  if buckets.entries.length ≤ DEFAULT_MAX_BUCKETS then buckets
  else deleteStale buckets (rounding (now - DEFAULT_MAX_IDLE_SECONDS))

/-- An error is the message of the `ValueError`, raised before the clock is read. -/
def consume (rounding : Rounding) (buckets : Buckets) (key : List Char) (plan : RateLimitPlan)
    (now : ℚ) : Except String (RateLimitDecision × Buckets) :=
  if plan.ratePerSecond ≤ 0 then .error "rate_per_second must be greater than 0"
  else if plan.burst ≤ 0 then .error "burst must be greater than 0"
  else
    match buckets.lookup key with
    | none =>
      .ok (⟨true, 0⟩, maybeEvict rounding (buckets.insert key ⟨plan.burst - 1, now, now⟩) now)
    | some state =>
      let elapsed := rounding (now - state.lastRefill)
      let replenished := rounding (elapsed * plan.ratePerSecond)
      -- the tokens of a new or full bucket are an `int`, which the sum makes a float
      let tokens := min (plan.burst : ℚ) (rounding (rounding state.tokens + replenished))
      if tokens < 1 then
        .ok (⟨false, rounding (rounding (1 - tokens) / plan.ratePerSecond)⟩,
          buckets.insert key ⟨tokens, now, now⟩)
      else
        let left := if tokens = plan.burst then tokens - 1 else rounding (tokens - 1)
        .ok (⟨true, 0⟩, buckets.insert key ⟨left, now, now⟩)

def cleanup (rounding : Rounding) (buckets : Buckets) (maxIdleSeconds : Option ℚ) (now : ℚ) :
    Nat × Buckets :=
  let idle := match maxIdleSeconds with
    | none => DEFAULT_MAX_IDLE_SECONDS
    | some seconds => if seconds = 0 then DEFAULT_MAX_IDLE_SECONDS else seconds
  let threshold := rounding (now - idle)
  let stale := buckets.keysWhere fun state => state.lastAccess < threshold
  (stale.length, deleteStale buckets threshold)

inductive LimiterCall where
  | consume (key : List Char) (plan : RateLimitPlan) (now : ℚ)
  | cleanup (now : ℚ)
  deriving DecidableEq

def RateLimitPlan.Accepted (plan : RateLimitPlan) : Prop :=
  0 < plan.ratePerSecond ∧ 0 < plan.burst

instance (plan : RateLimitPlan) : Decidable plan.Accepted :=
  inferInstanceAs (Decidable (_ ∧ _))

/-- The reading of a call; a refused plan is refused before the clock is read. -/
def LimiterCall.reading : LimiterCall → Option ℚ
  | .consume _ plan now => if plan.Accepted then some now else none
  | .cleanup now => some now

/-- The decision of a `consume` that returns, and the buckets after the call. -/
def LimiterCall.perform (rounding : Rounding) (buckets : Buckets) :
    LimiterCall → Option RateLimitDecision × Buckets
  | .consume key plan now =>
    match Ingest.consume rounding buckets key plan now with
    | .error _ => (none, buckets)
    | .ok (decision, buckets) => (some decision, buckets)
  | .cleanup now => (none, (Ingest.cleanup rounding buckets none now).2)

def decisions (rounding : Rounding) :
    Buckets → List LimiterCall → List (LimiterCall × Option RateLimitDecision)
  | _, [] => []
  | buckets, call :: calls =>
    let result := call.perform rounding buckets
    (call, result.1) :: decisions rounding result.2 calls

def allowedIn (key : List Char) (a b : ℚ) : LimiterCall × Option RateLimitDecision → Bool
  | (.consume key' _ now, some decision) =>
    decide (key' = key) && decision.allowed && decide (a ≤ now) && decide (now ≤ b)
  | _ => false

def RateLimitPlan.bucketPlan (plan : RateLimitPlan) : TokenBucket.Plan ℚ :=
  ⟨plan.ratePerSecond, plan.burst⟩

def BucketState.bucket (state : BucketState) : TokenBucket.Bucket ℚ :=
  ⟨state.tokens, state.lastRefill⟩

def BucketState.refill (rounding : Rounding) (plan : RateLimitPlan) (now : ℚ)
    (state : BucketState) : ℚ :=
  min (plan.burst : ℚ) (rounding (rounding state.tokens +
    rounding (rounding (now - state.lastRefill) * plan.ratePerSecond)))

def RateLimitPlan.take (rounding : Rounding) (plan : RateLimitPlan) (tokens : ℚ) : ℚ :=
  if tokens = plan.burst then tokens - 1 else rounding (tokens - 1)

section
variable {rounding : Rounding}

theorem BucketState.refill_unrounded (state : BucketState) (plan : RateLimitPlan) (now : ℚ) :
    state.refill unrounded plan now = state.bucket.refill plan.bucketPlan now := rfl

theorem RateLimitPlan.take_unrounded (plan : RateLimitPlan) (tokens : ℚ) :
    plan.take unrounded tokens = tokens - 1 :=
  ite_self _

theorem consume_cases {buckets after : Buckets} {key : List Char} {plan : RateLimitPlan} {now : ℚ}
    {decision : RateLimitDecision}
    (h : consume rounding buckets key plan now = .ok (decision, after)) :
    plan.Accepted ∧
      ((buckets.lookup key = none ∧ decision.allowed = true ∧
        after = maybeEvict rounding (buckets.insert key ⟨plan.burst - 1, now, now⟩) now) ∨
      ∃ state, buckets.lookup key = some state ∧
        ((state.refill rounding plan now < 1 ∧ decision.allowed = false ∧
          decision.retryAfterSeconds =
            rounding (rounding (1 - state.refill rounding plan now) / plan.ratePerSecond) ∧
          after = buckets.insert key ⟨state.refill rounding plan now, now, now⟩) ∨
        (1 ≤ state.refill rounding plan now ∧ decision.allowed = true ∧ after =
          buckets.insert key ⟨plan.take rounding (state.refill rounding plan now), now, now⟩))) := by
  unfold consume at h
  by_cases hrate : plan.ratePerSecond ≤ 0
  · simp [hrate] at h
  · by_cases hburst : plan.burst ≤ 0
    · simp [hrate, hburst] at h
    · refine ⟨⟨not_le.mp hrate, not_le.mp hburst⟩, ?_⟩
      rw [if_neg hrate, if_neg hburst] at h
      cases hlook : buckets.lookup key with
      | none =>
        simp only [hlook, Except.ok.injEq, Prod.mk.injEq] at h
        obtain ⟨rfl, rfl⟩ := h
        exact .inl ⟨rfl, rfl, rfl⟩
      | some state =>
        right
        refine ⟨state, rfl, ?_⟩
        have hrefill : min (plan.burst : ℚ) (rounding (rounding state.tokens +
            rounding (rounding (now - state.lastRefill) * plan.ratePerSecond))) =
            state.refill rounding plan now := rfl
        simp only [hlook, hrefill] at h
        by_cases hlow : state.refill rounding plan now < 1
        · simp only [if_pos hlow, Except.ok.injEq, Prod.mk.injEq] at h
          obtain ⟨rfl, rfl⟩ := h
          exact .inl ⟨hlow, rfl, rfl, rfl⟩
        · simp only [if_neg hlow, Except.ok.injEq, Prod.mk.injEq] at h
          obtain ⟨rfl, rfl⟩ := h
          exact .inr ⟨not_lt.mp hlow, rfl, rfl⟩

/-- Some buckets that were last accessed before the threshold are gone, and nothing else differs. -/
def Evicts (threshold : ℚ) (buckets after : Buckets) : Prop :=
  ∀ key, after.lookup key = buckets.lookup key ∨
    ∃ state, buckets.lookup key = some state ∧ state.lastAccess < threshold ∧
      after.lookup key = none

theorem deleteStale_evicts (buckets : Buckets) (threshold : ℚ) :
    Evicts threshold buckets (deleteStale buckets threshold) := by
  intro key
  have hlook : (deleteStale buckets threshold).lookup key = _ := Dict.lookup_eraseAll_keysWhere
  rw [hlook]
  cases hstate : buckets.lookup key with
  | none => exact .inl rfl
  | some state =>
    by_cases hold : state.lastAccess < threshold
    · exact .inr ⟨state, rfl, hold, by simp [Option.filter, hold]⟩
    · exact .inl (by simp [Option.filter, hold])

theorem maybeEvict_evicts (rounding : Rounding) (buckets : Buckets) (now : ℚ) :
    Evicts (rounding (now - DEFAULT_MAX_IDLE_SECONDS)) buckets (maybeEvict rounding buckets now) := by
  unfold maybeEvict
  split
  · exact fun _ => .inl rfl
  · exact deleteStale_evicts buckets _

/-- Every bucket was last refilled when it was last accessed. -/
def InStep (buckets : Buckets) : Prop :=
  ∀ key state, buckets.lookup key = some state → state.lastAccess = state.lastRefill

theorem InStep.empty : InStep ∅ := by
  intro key state hstate
  simp at hstate

theorem InStep.insert {buckets : Buckets} (hb : InStep buckets) (key : List Char) (tokens now : ℚ) :
    InStep (buckets.insert key ⟨tokens, now, now⟩) := by
  intro key' state hstate
  by_cases hkey : key' = key
  · subst hkey
    rw [AList.lookup_insert] at hstate
    obtain rfl := Option.some.inj hstate
    rfl
  · rw [AList.lookup_insert_ne hkey] at hstate
    exact hb key' state hstate

theorem InStep.evicts {buckets after : Buckets} {threshold : ℚ} (hb : InStep buckets)
    (h : Evicts threshold buckets after) : InStep after := by
  intro key state hstate
  rcases h key with heq | ⟨_, _, _, hnone⟩
  · exact hb key state (heq ▸ hstate)
  · rw [hnone] at hstate
    cases hstate

def bucketAt (key : List Char) (buckets : Buckets) : Option (TokenBucket.Bucket ℚ) :=
  (buckets.lookup key).map BucketState.bucket

/-- A bucket that an eviction drops. -/
def Idle (rounding : Rounding) (b : TokenBucket.Bucket ℚ) (now : ℚ) : Prop :=
  b.last < rounding (now - DEFAULT_MAX_IDLE_SECONDS)

theorem Evicts.step {buckets after : Buckets} {now : ℚ}
    (h : Evicts (rounding (now - DEFAULT_MAX_IDLE_SECONDS)) buckets after) (hb : InStep buckets)
    (p : TokenBucket.Plan ℚ) (key : List Char) :
    TokenBucket.Step p (Idle rounding) (bucketAt key buckets) (.other now) (bucketAt key after) := by
  rcases h key with heq | ⟨state, hstate, hold, hnone⟩
  · rw [bucketAt, bucketAt, heq]
    exact .keep _ now
  · rw [bucketAt, bucketAt, hstate, hnone]
    refine .forget ?_
    have hlast := hb key state hstate
    show state.lastRefill < rounding (now - DEFAULT_MAX_IDLE_SECONDS)
    rwa [← hlast]

/-- A new bucket outlives the eviction that its creation sets off. -/
theorem lookup_maybeEvict_insert (buckets : Buckets) (key : List Char) (tokens now : ℚ) :
    (maybeEvict unrounded (buckets.insert key ⟨tokens, now, now⟩) now).lookup key =
      some ⟨tokens, now, now⟩ := by
  have hnew := AList.lookup_insert (a := key) (b := (⟨tokens, now, now⟩ : BucketState)) buckets
  rcases maybeEvict_evicts unrounded (buckets.insert key ⟨tokens, now, now⟩) now key with
    heq | hgone
  · rw [heq, hnew]
  · obtain ⟨state, hstate, hold, -⟩ := hgone
    obtain rfl : (⟨tokens, now, now⟩ : BucketState) = state := Option.some.inj (hnew ▸ hstate)
    have hidle : (0 : ℚ) < DEFAULT_MAX_IDLE_SECONDS := by norm_num [DEFAULT_MAX_IDLE_SECONDS]
    have hself : now < now - DEFAULT_MAX_IDLE_SECONDS := hold
    linarith

theorem consume_inStep {buckets after : Buckets} {key : List Char} {plan : RateLimitPlan} {now : ℚ}
    {decision : RateLimitDecision} (hb : InStep buckets)
    (h : consume rounding buckets key plan now = .ok (decision, after)) : InStep after := by
  obtain ⟨-, ⟨-, -, rfl⟩ | ⟨state, -, ⟨-, -, -, rfl⟩ | ⟨-, -, rfl⟩⟩⟩ := consume_cases h
  · exact (hb.insert key _ now).evicts (maybeEvict_evicts rounding _ now)
  · exact hb.insert key _ now
  · exact hb.insert key _ now

def outcome (rounding : Rounding) (buckets : Buckets) (key : List Char) (plan : RateLimitPlan)
    (now : ℚ) : Except String (RateLimitDecision × Option BucketState) :=
  (consume rounding buckets key plan now).map fun (decision, after) => (decision, after.lookup key)

/-- The consume has the outcome that it has in exact arithmetic. -/
def ConsumesExactly (rounding : Rounding) (buckets : Buckets) (key : List Char)
    (plan : RateLimitPlan) (now : ℚ) : Prop :=
  outcome rounding buckets key plan now = outcome unrounded buckets key plan now

theorem ConsumesExactly.unrounded {buckets after : Buckets} {key : List Char} {plan : RateLimitPlan}
    {now : ℚ} {decision : RateLimitDecision}
    (hexact : ConsumesExactly rounding buckets key plan now)
    (h : consume rounding buckets key plan now = .ok (decision, after)) :
    ∃ after', consume unrounded buckets key plan now = .ok (decision, after') ∧
      bucketAt key after' = bucketAt key after := by
  rw [ConsumesExactly, outcome, h, outcome] at hexact
  cases hcall : consume Base.unrounded buckets key plan now with
  | error message =>
    rw [hcall] at hexact
    cases hexact
  | ok result =>
    obtain ⟨decision', after'⟩ := result
    rw [hcall] at hexact
    obtain ⟨rfl, hlook⟩ := Prod.mk.inj (Except.ok.inj hexact)
    exact ⟨after', rfl, congrArg (Option.map BucketState.bucket) hlook.symm⟩

/-- On its own key a `consume` without rounding takes from the token bucket. -/
theorem consume_step {buckets after : Buckets} {key : List Char} {plan : RateLimitPlan} {now : ℚ}
    {decision : RateLimitDecision} (hexact : ConsumesExactly rounding buckets key plan now)
    (h : consume rounding buckets key plan now = .ok (decision, after)) :
    TokenBucket.Step plan.bucketPlan (Idle rounding) (bucketAt key buckets)
      (.take now decision.allowed) (bucketAt key after) := by
  obtain ⟨after', hcall, hbucket⟩ := hexact.unrounded h
  rw [← hbucket]
  obtain ⟨-, ⟨hlook, hallowed, rfl⟩ | ⟨state, hlook, hcase⟩⟩ := consume_cases hcall
  · rw [bucketAt, hlook, hallowed, bucketAt, lookup_maybeEvict_insert]
    exact .create now
  · rw [state.refill_unrounded] at hcase
    rcases hcase with ⟨hlow, hallowed, -, rfl⟩ | ⟨henough, hallowed, rfl⟩
    · rw [bucketAt, hlook, hallowed, bucketAt, AList.lookup_insert]
      exact .refuse hlow
    · rw [bucketAt, hlook, hallowed, bucketAt, AList.lookup_insert, plan.take_unrounded]
      exact .grant henough

/-- On the other keys it evicts at most. -/
theorem consume_step_ne {buckets after : Buckets} {key other : List Char} {plan : RateLimitPlan}
    {now : ℚ} {decision : RateLimitDecision} (hb : InStep buckets) (hkey : other ≠ key)
    (p : TokenBucket.Plan ℚ) (h : consume rounding buckets key plan now = .ok (decision, after)) :
    TokenBucket.Step p (Idle rounding) (bucketAt other buckets) (.other now)
      (bucketAt other after) := by
  have hframe (state : BucketState) :
      bucketAt other (buckets.insert key state) = bucketAt other buckets := by
    rw [bucketAt, AList.lookup_insert_ne hkey, bucketAt]
  obtain ⟨-, ⟨-, -, rfl⟩ | ⟨state, -, ⟨-, -, -, rfl⟩ | ⟨-, -, rfl⟩⟩⟩ := consume_cases h
  · rw [← hframe ⟨plan.burst - 1, now, now⟩]
    exact (maybeEvict_evicts rounding _ now).step (hb.insert key _ now) p other
  · rw [hframe]
    exact .keep _ now
  · rw [hframe]
    exact .keep _ now

/-- What the bucket of `key` sees of a call. -/
def eventAt (key : List Char) : LimiterCall × Option RateLimitDecision → Option (TokenBucket.Event ℚ)
  | (.consume key' _ now, some decision) =>
    if key' = key then some (.take now decision.allowed) else some (.other now)
  | (.consume _ _ _, none) => none
  | (.cleanup now, _) => some (.other now)

/-- Every use of `key` is with this plan. -/
def UsesPlan (key : List Char) (plan : RateLimitPlan) (calls : List LimiterCall) : Prop :=
  ∀ plan' now, .consume key plan' now ∈ calls → plan' = plan

/-- Each consume of `key` does what it does in exact arithmetic. -/
def ExactFor (rounding : Rounding) (key : List Char) : Buckets → List LimiterCall → Prop
  | _, [] => True
  | buckets, call :: calls =>
    (∀ plan now, call = .consume key plan now → ConsumesExactly rounding buckets key plan now) ∧
      ExactFor rounding key (call.perform rounding buckets).2 calls

theorem exactFor_unrounded (key : List Char) (buckets : Buckets) (calls : List LimiterCall) :
    ExactFor unrounded key buckets calls := by
  induction calls generalizing buckets with
  | nil => exact trivial
  | cons call calls ih => exact ⟨fun _ _ _ => rfl, ih _⟩

/-- The limiter refines one token bucket for each key, as long as it does not round. -/
theorem decisions_run {key : List Char} {plan : RateLimitPlan} {buckets : Buckets}
    {calls : List LimiterCall} (hb : InStep buckets) (huse : UsesPlan key plan calls)
    (hexact : ExactFor rounding key buckets calls) :
    TokenBucket.Run plan.bucketPlan (Idle rounding) (bucketAt key buckets)
      ((decisions rounding buckets calls).filterMap (eventAt key)) := by
  induction calls generalizing buckets with
  | nil => exact trivial
  | cons call calls ih =>
    have hrest : UsesPlan key plan calls := fun plan' now hcall =>
      huse plan' now (List.mem_cons_of_mem _ hcall)
    obtain ⟨hfirst, hexact⟩ := hexact
    cases call with
    | cleanup now =>
      have hevict := deleteStale_evicts buckets (rounding (now - DEFAULT_MAX_IDLE_SECONDS))
      exact ⟨_, hevict.step hb _ key, ih (hb.evicts hevict) hrest hexact⟩
    | consume key' plan' now =>
      cases hcall : consume rounding buckets key' plan' now with
      | error message =>
        have hskip : decisions rounding buckets (.consume key' plan' now :: calls) =
            (.consume key' plan' now, none) :: decisions rounding buckets calls := by
          simp [decisions, LimiterCall.perform, hcall]
        rw [hskip, List.filterMap_cons_none rfl]
        rw [LimiterCall.perform, hcall] at hexact
        exact ih hb hrest hexact
      | ok result =>
        obtain ⟨decision, after⟩ := result
        rw [LimiterCall.perform, hcall] at hexact
        have hrun := ih (consume_inStep hb hcall) hrest hexact
        by_cases hkey : key' = key
        · subst hkey
          obtain rfl := huse plan' now List.mem_cons_self
          simpa [decisions, LimiterCall.perform, hcall, eventAt, TokenBucket.Run] using
            ⟨_, consume_step (hfirst _ _ rfl) hcall, hrun⟩
        · simpa [decisions, LimiterCall.perform, hcall, eventAt, hkey, TokenBucket.Run] using
            ⟨_, consume_step_ne hb (Ne.symm hkey) _ hcall, hrun⟩

theorem consume_returns {buckets : Buckets} {key : List Char} {plan : RateLimitPlan} {now : ℚ}
    (hplan : plan.Accepted) :
    ∃ decision after, consume rounding buckets key plan now = .ok (decision, after) := by
  unfold consume
  rw [if_neg (not_le.mpr hplan.1), if_neg (not_le.mpr hplan.2)]
  cases buckets.lookup key with
  | none => exact ⟨_, _, rfl⟩
  | some state =>
    simp only
    split
    · exact ⟨_, _, rfl⟩
    · exact ⟨_, _, rfl⟩

theorem consume_error {buckets : Buckets} {key : List Char} {plan : RateLimitPlan} {now : ℚ}
    {message : String} (h : consume rounding buckets key plan now = .error message) :
    ¬plan.Accepted := by
  intro hplan
  obtain ⟨decision, after, hok⟩ := @consume_returns rounding buckets key plan now hplan
  rw [h] at hok
  cases hok

theorem decisions_readings (key : List Char) (buckets : Buckets) (calls : List LimiterCall) :
    ((decisions rounding buckets calls).filterMap (eventAt key)).map TokenBucket.Event.now =
      calls.filterMap LimiterCall.reading := by
  induction calls generalizing buckets with
  | nil => rfl
  | cons call calls ih =>
    cases call with
    | cleanup now => simp [decisions, LimiterCall.perform, eventAt, LimiterCall.reading,
        TokenBucket.Event.now, ih]
    | consume key' plan now =>
      cases hcall : consume rounding buckets key' plan now with
      | error message =>
        have hplan : ¬plan.Accepted := consume_error hcall
        simp [decisions, LimiterCall.perform, hcall, eventAt, LimiterCall.reading, hplan,
          List.filterMap_cons, ih]
      | ok result =>
        have hplan : plan.Accepted := (consume_cases hcall).1
        have hstep : decisions rounding buckets (.consume key' plan now :: calls) =
            (.consume key' plan now, some result.1) :: decisions rounding result.2 calls := by
          simp [decisions, LimiterCall.perform, hcall]
        rw [hstep]
        by_cases hkey : key' = key <;>
          simp [eventAt, LimiterCall.reading, hplan, hkey, TokenBucket.Event.now, ih]

theorem countP_allowedIn (key : List Char) (a b : ℚ)
    (results : List (LimiterCall × Option RateLimitDecision)) :
    results.countP (allowedIn key a b) =
      (results.filterMap (eventAt key)).countP (TokenBucket.Event.grantedIn a b) := by
  rw [List.countP_filterMap]
  congr 1
  funext result
  obtain ⟨call, decision⟩ := result
  cases call with
  | cleanup now => rfl
  | consume key' plan now =>
    cases decision with
    | none => rfl
    | some decision =>
      by_cases hkey : key' = key <;>
        simp [allowedIn, eventAt, TokenBucket.Event.grantedIn, hkey]

theorem mem_decisions {buckets : Buckets} {calls : List LimiterCall} {key : List Char}
    {plan : RateLimitPlan} {now : ℚ} {decision : RateLimitDecision}
    (h : (.consume key plan now, some decision) ∈ decisions rounding buckets calls) :
    .consume key plan now ∈ calls ∧ plan.Accepted := by
  induction calls generalizing buckets with
  | nil => simp [decisions] at h
  | cons call calls ih =>
    rcases List.mem_cons.mp h with heq | htail
    · obtain ⟨rfl, hdecision⟩ := Prod.mk.inj heq
      refine ⟨List.mem_cons_self, ?_⟩
      cases hcall : consume rounding buckets key plan now with
      | error message => simp [LimiterCall.perform, hcall] at hdecision
      | ok result => exact (consume_cases hcall).1
    · obtain ⟨hcall, hplan⟩ := ih htail
      exact ⟨List.mem_cons_of_mem _ hcall, hplan⟩

end

theorem countP_allowedIn_le {key : List Char} {plan : RateLimitPlan} {calls : List LimiterCall}
    {D a b : ℚ} (huse : UsesPlan key plan calls) (hplan : plan.Accepted) (hD : 0 ≤ D)
    (hskew : (calls.filterMap LimiterCall.reading).Pairwise fun r r' => r - D ≤ r')
    (hburst : plan.burst ≤ plan.ratePerSecond * (DEFAULT_MAX_IDLE_SECONDS - 2 * D)) (hab : a ≤ b) :
    ((decisions unrounded ∅ calls).countP (allowedIn key a b) : ℚ) ≤
      plan.burst + plan.ratePerSecond * (b - a) := by
  have hrun : TokenBucket.Run plan.bucketPlan (TokenBucket.IdleFor DEFAULT_MAX_IDLE_SECONDS) _ _ :=
    decisions_run InStep.empty huse (exactFor_unrounded key ∅ calls)
  have hfit : TokenBucket.Fits plan.bucketPlan DEFAULT_MAX_IDLE_SECONDS D :=
    ⟨hplan.1, Int.cast_one_le_of_pos hplan.2, hD, hburst⟩
  have hskewed : TokenBucket.Skewed D ((decisions unrounded ∅ calls).filterMap (eventAt key)) := by
    rw [← @decisions_readings unrounded key ∅ calls] at hskew
    exact List.pairwise_map.mp hskew
  rw [countP_allowedIn]
  exact hrun.count_le hfit hab hskewed

/-- In a closed window a key is allowed its burst and what its rate adds, over any run
from an empty limiter whose readings are at most `D` seconds out of order. A plan that
the limiter refuses is allowed nothing. -/
theorem allowed_in_window_le {key : List Char} {plan : RateLimitPlan} {calls : List LimiterCall}
    {D a b : ℚ} (huse : UsesPlan key plan calls) (hD : 0 ≤ D)
    (hskew : (calls.filterMap LimiterCall.reading).Pairwise fun r r' => r - D ≤ r')
    (hburst : plan.burst ≤ plan.ratePerSecond * (DEFAULT_MAX_IDLE_SECONDS - 2 * D)) (hab : a ≤ b) :
    let allowed := (decisions unrounded ∅ calls).countP (allowedIn key a b)
    if plan.Accepted then (allowed : ℚ) ≤ plan.burst + plan.ratePerSecond * (b - a)
    else allowed = 0 := by
  intro allowed
  split
  · next hplan => exact countP_allowedIn_le huse hplan hD hskew hburst hab
  · next hplan =>
    rw [List.countP_eq_zero]
    rintro ⟨call, decision⟩ hmem hallowed
    match call, decision, hallowed with
    | .consume key' plan' now, some decision, hallowed =>
      simp only [allowedIn, Bool.and_eq_true, decide_eq_true_eq] at hallowed
      obtain ⟨⟨⟨rfl, -⟩, -⟩, -⟩ := hallowed
      obtain ⟨hcall, hplan'⟩ := mem_decisions hmem
      exact hplan (huse plan' now hcall ▸ hplan')

/-- The bound is met: the second request is refused for its late reading, the others not. -/
theorem allowed_in_window_le_three :
    let key := "ingest:dev:127.0.0.1".toList
    let calls := [LimiterCall.consume key ⟨1, 2⟩ 10, .consume key ⟨1, 2⟩ 9, .consume key ⟨1, 2⟩ 10,
      .cleanup 11, .consume key ⟨1, 2⟩ 11]
    (decisions unrounded ∅ calls).countP (allowedIn key 10 11) = 3 ∧ RateLimitPlan.Accepted ⟨1, 2⟩ ∧
      ((decisions unrounded ∅ calls).countP (allowedIn key 10 11) : ℚ) ≤ 2 + 1 * (11 - 10) := by
  intro key calls
  have huse : UsesPlan key ⟨1, 2⟩ calls := by
    intro plan now hcall
    simp only [calls, List.mem_cons, LimiterCall.consume.injEq, List.not_mem_nil] at hcall
    grind
  have hplan : RateLimitPlan.Accepted ⟨1, 2⟩ := by decide +kernel
  have hle := allowed_in_window_le (D := 1) (a := 10) (b := 11) huse (by norm_num)
    (by decide +kernel) (by decide +kernel) (by norm_num)
  rw [if_pos hplan] at hle
  exact ⟨by decide +kernel, hplan, hle⟩

/-! Refusals -/

def bucketsAfter (rounding : Rounding) (buckets : Buckets) (calls : List LimiterCall) : Buckets :=
  calls.foldl (fun buckets call => (call.perform rounding buckets).2) buckets

def retryAfter (decision : RateLimitDecision) : ℤ := max 1 ⌈decision.retryAfterSeconds⌉

section
variable {rounding : Rounding}

theorem decisions_append (buckets : Buckets) (calls calls' : List LimiterCall) :
    decisions rounding buckets (calls ++ calls') =
      decisions rounding buckets calls ++
        decisions rounding (bucketsAfter rounding buckets calls) calls' := by
  induction calls generalizing buckets with
  | nil => rfl
  | cons call calls ih =>
    rw [List.cons_append, decisions, ih, decisions]
    rfl

end

end Aetus.Ingest
