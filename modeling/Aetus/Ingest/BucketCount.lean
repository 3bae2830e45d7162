import Mathlib.Data.List.Induction
import Aetus.Ingest.RateLimit

/-!
How many buckets the limiter holds. A key that is seen for the first time gets a bucket in any
case, and only buckets that were idle for an hour make room for it.
-/

set_option autoImplicit false

namespace Aetus.Ingest
open Aetus.Base

/-- An eviction at `now` finds no bucket that was last accessed before its threshold. -/
def NoneStale (rounding : Rounding) (buckets : Buckets) (now : ℚ) : Prop :=
  ∀ key state, buckets.lookup key = some state →
    rounding (now - DEFAULT_MAX_IDLE_SECONDS) ≤ state.lastAccess

/-- The call makes a bucket while the limit is reached and there is no stale one. -/
def Overfills (rounding : Rounding) (buckets : Buckets) : LimiterCall → Prop
  | .consume key plan now => plan.Accepted ∧ buckets.lookup key = none ∧
      DEFAULT_MAX_BUCKETS ≤ buckets.entries.length ∧
      NoneStale rounding (buckets.insert key ⟨plan.burst - 1, now, now⟩) now
  | .cleanup _ => False

def WithinLimit (rounding : Rounding) (calls : List LimiterCall) : Prop :=
  ∀ done, done <+: calls → (bucketsAfter rounding ∅ done).entries.length ≤ DEFAULT_MAX_BUCKETS

section
variable {rounding : Rounding}

theorem bucketsAfter_append (buckets : Buckets) (calls calls' : List LimiterCall) :
    bucketsAfter rounding buckets (calls ++ calls') =
      bucketsAfter rounding (bucketsAfter rounding buckets calls) calls' :=
  List.foldl_append

theorem NoneStale.insert {buckets : Buckets} {now : ℚ} (h : NoneStale rounding buckets now)
    (hself : rounding (now - DEFAULT_MAX_IDLE_SECONDS) ≤ now) (key : List Char) (tokens : ℚ) :
    NoneStale rounding (buckets.insert key ⟨tokens, now, now⟩) now := by
  intro key' state hstate
  by_cases hkey : key' = key
  · subst hkey
    rw [AList.lookup_insert] at hstate
    obtain rfl := Option.some.inj hstate
    exact hself
  · rw [AList.lookup_insert_ne hkey] at hstate
    exact h key' state hstate

theorem maybeEvict_noneStale {buckets : Buckets} {now : ℚ} (h : NoneStale rounding buckets now) :
    maybeEvict rounding buckets now = buckets := by
  have hnone : Dict.keysWhere buckets
      (fun state => state.lastAccess < rounding (now - DEFAULT_MAX_IDLE_SECONDS)) = [] :=
    Dict.keysWhere_eq_nil fun key state hstate =>
      decide_eq_false_iff_not.mpr (not_lt.mpr (h key state hstate))
  unfold maybeEvict
  split
  · rfl
  · rw [deleteStale, hnone]
    rfl

/-- Of a limiter that is one bucket above the limit at most, an eviction makes one within it unless
there is no stale bucket. -/
theorem length_maybeEvict_le_iff {buckets : Buckets} {now : ℚ}
    (h : buckets.entries.length ≤ DEFAULT_MAX_BUCKETS + 1) :
    (maybeEvict rounding buckets now).entries.length ≤ DEFAULT_MAX_BUCKETS ↔
      ¬ (DEFAULT_MAX_BUCKETS < buckets.entries.length ∧ NoneStale rounding buckets now) := by
  constructor
  · rintro hle ⟨hfull, hnone⟩
    rw [maybeEvict_noneStale hnone] at hle
    exact absurd hle (not_le.mpr hfull)
  · intro hnot
    unfold maybeEvict
    split
    · assumption
    · next hfull =>
      have hstale := not_and.mp hnot (not_le.mp hfull)
      simp only [NoneStale, not_forall, not_le] at hstale
      obtain ⟨key, state, hstate, hidle⟩ := hstale
      have hmem : key ∈ Dict.keysWhere buckets
          (fun state => state.lastAccess < rounding (now - DEFAULT_MAX_IDLE_SECONDS)) :=
        Dict.mem_keysWhere.mpr ⟨state, hstate, decide_eq_true hidle⟩
      have hless := Dict.length_eraseAll_lt hmem hstate
      rw [deleteStale]
      omega

theorem length_perform_le_iff {buckets : Buckets}
    (h : buckets.entries.length ≤ DEFAULT_MAX_BUCKETS) (call : LimiterCall) :
    (call.perform rounding buckets).2.entries.length ≤ DEFAULT_MAX_BUCKETS ↔
      ¬ Overfills rounding buckets call := by
  cases call with
  | cleanup now =>
    refine ⟨fun _ hfalse => hfalse, fun _ => ?_⟩
    exact (Dict.length_eraseAll_le buckets _).trans h
  | consume key plan now =>
    cases hcall : consume rounding buckets key plan now with
    | error message =>
      have hplan : ¬ plan.Accepted := consume_error hcall
      simp [LimiterCall.perform, hcall, Overfills, hplan, h]
    | ok result =>
      obtain ⟨decision, after⟩ := result
      obtain ⟨hplan, ⟨hnew, -, rfl⟩ | ⟨state, hlook, hcase⟩⟩ := consume_cases hcall
      · have hlength := Dict.length_insert_of_lookup_none hnew ⟨plan.burst - 1, now, now⟩
        simp only [LimiterCall.perform, hcall, Overfills, hplan, hnew, true_and]
        rw [length_maybeEvict_le_iff (hlength.trans_le (Nat.succ_le_succ h)), hlength,
          Nat.lt_succ_iff]
      · have hsame : after.entries.length = buckets.entries.length := by
          rcases hcase with ⟨-, -, -, rfl⟩ | ⟨-, -, rfl⟩
          · exact Dict.length_insert_of_lookup_some hlook _
          · exact Dict.length_insert_of_lookup_some hlook _
        simp [LimiterCall.perform, hcall, Overfills, hlook, hsame, h]

/-- The limit holds throughout a run exactly when no call of it makes a bucket while the limit is
reached and there is no stale one. -/
theorem withinLimit_iff (calls : List LimiterCall) :
    WithinLimit rounding calls ↔ ∀ done call, done ++ [call] <+: calls →
      ¬ Overfills rounding (bucketsAfter rounding ∅ done) call := by
  constructor
  · intro h done call hprefix
    have hbefore := h done ((List.prefix_append done [call]).trans hprefix)
    have hafter := h _ hprefix
    rw [bucketsAfter_append] at hafter
    exact (length_perform_le_iff hbefore call).mp hafter
  · intro h done
    induction done using List.reverseRecOn with
    | nil => exact fun _ => Nat.zero_le _
    | append_singleton done call ih =>
      intro hprefix
      have hbefore := ih ((List.prefix_append done [call]).trans hprefix)
      rw [bucketsAfter_append]
      exact (length_perform_le_iff hbefore call).mpr (h done call hprefix)

/-! New devices -/

def firstCalls (plan : RateLimitPlan) (now : ℚ) (keys : List (List Char)) : List LimiterCall :=
  keys.map fun key => .consume key plan now

theorem length_firstCalls {plan : RateLimitPlan} (hplan : plan.Accepted) {now : ℚ}
    {keys : List (List Char)} (hnodup : keys.Nodup) {buckets : Buckets}
    (hself : rounding (now - DEFAULT_MAX_IDLE_SECONDS) ≤ now)
    (hnew : ∀ key ∈ keys, buckets.lookup key = none) (hnone : NoneStale rounding buckets now) :
    (bucketsAfter rounding buckets (firstCalls plan now keys)).entries.length =
      buckets.entries.length + keys.length := by
  induction keys generalizing buckets with
  | nil => rfl
  | cons key keys ih =>
    obtain ⟨hkey, hrest⟩ := List.nodup_cons.mp hnodup
    have hlook := hnew key List.mem_cons_self
    have hinsert := hnone.insert hself key (plan.burst - 1)
    have hstep : ((LimiterCall.consume key plan now).perform rounding buckets).2 =
        buckets.insert key ⟨plan.burst - 1, now, now⟩ := by
      have hcall : consume rounding buckets key plan now = .ok (⟨true, 0⟩,
          maybeEvict rounding (buckets.insert key ⟨plan.burst - 1, now, now⟩) now) := by
        rw [consume, if_neg (not_le.mpr hplan.1), if_neg (not_le.mpr hplan.2), hlook]
      rw [LimiterCall.perform, hcall]
      exact maybeEvict_noneStale hinsert
    have hothers : ∀ key' ∈ keys,
        (buckets.insert key ⟨plan.burst - 1, now, now⟩).lookup key' = none := by
      intro key' hmem
      have hne : key' ≠ key := fun heq => hkey (heq ▸ hmem)
      rw [AList.lookup_insert_ne hne, hnew key' (List.mem_cons_of_mem _ hmem)]
    calc (bucketsAfter rounding buckets (firstCalls plan now (key :: keys))).entries.length
        = (bucketsAfter rounding (buckets.insert key ⟨plan.burst - 1, now, now⟩)
            (firstCalls plan now keys)).entries.length := by rw [← hstep]; rfl
      _ = (buckets.entries.length + 1) + keys.length := by
          rw [ih hrest hothers hinsert, Dict.length_insert_of_lookup_none hlook]
      _ = buckets.entries.length + (key :: keys).length := by rw [List.length_cons]; omega

def deviceKeys (n : Nat) : List (List Char) :=
  (List.range n).map fun i => "ingest:".toList ++ Nat.toDigits 10 i ++ ":10.0.0.7".toList

theorem nodup_deviceKeys (n : Nat) : (deviceKeys n).Nodup := by
  refine List.Nodup.map (fun i j h => ?_) List.nodup_range
  have hdigits : Nat.toDigits 10 i = Nat.toDigits 10 j :=
    List.append_cancel_left (List.append_cancel_right h)
  rw [← Nat.ofDigitChars_ten_toDigits (n := i), hdigits, Nat.ofDigitChars_ten_toDigits]

/-- Requests without a valid token make as many buckets as they name devices. -/
theorem length_deviceKeys {plan : RateLimitPlan} (hplan : plan.Accepted) {now : ℚ}
    (hself : rounding (now - DEFAULT_MAX_IDLE_SECONDS) ≤ now) (n : Nat) :
    (bucketsAfter rounding ∅ (firstCalls plan now (deviceKeys n))).entries.length = n := by
  rw [length_firstCalls hplan (nodup_deviceKeys n) hself (fun key _ => AList.lookup_empty key)
    (fun key state h => by rw [AList.lookup_empty] at h; cases h), deviceKeys, List.length_map,
    List.length_range]
  exact Nat.zero_add n

/-- 50001 device ids at one reading. -/
theorem newDevices_not_withinLimit :
    ¬ WithinLimit binary64 (firstCalls ⟨5, 10⟩ 0 (deviceKeys 50001)) := by
  intro h
  have hle := h _ (List.prefix_refl _)
  rw [length_deviceKeys (by decide +kernel) (by decide +kernel)] at hle
  exact absurd hle (by decide)

end

end Aetus.Ingest
