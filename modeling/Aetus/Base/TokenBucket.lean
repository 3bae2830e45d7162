import Mathlib.Algebra.Order.Field.Basic
import Mathlib.Data.List.Pairwise
import Mathlib.Tactic.Linarith

/-!
A token bucket whose clock may be read out of order and which may be forgotten
after an idle time, to be made anew at full burst. In every window it grants at
most its burst and what the rate adds.
-/

set_option autoImplicit false

namespace Aetus.Base.TokenBucket

variable {K : Type} [Field K] [LinearOrder K] [IsStrictOrderedRing K]

structure Plan (K : Type) where
  rate : K
  burst : K

structure Bucket (K : Type) where
  tokens : K
  last : K

def Bucket.refill (p : Plan K) (b : Bucket K) (now : K) : K :=
  min p.burst (b.tokens + (now - b.last) * p.rate)

/-- A request for a token with its outcome, or any other event that reads the clock. -/
inductive Event (K : Type) where
  | take (now : K) (granted : Bool)
  | other (now : K)

def Event.now : Event K → K
  | .take now _ => now
  | .other now => now

inductive Step (p : Plan K) (Idle : Bucket K → K → Prop) :
    Option (Bucket K) → Event K → Option (Bucket K) → Prop where
  | create (now : K) : Step p Idle none (.take now true) (some ⟨p.burst - 1, now⟩)
  | grant {b : Bucket K} {now : K} (h : 1 ≤ b.refill p now) :
      Step p Idle (some b) (.take now true) (some ⟨b.refill p now - 1, now⟩)
  | refuse {b : Bucket K} {now : K} (h : b.refill p now < 1) :
      Step p Idle (some b) (.take now false) (some ⟨b.refill p now, now⟩)
  | keep (s : Option (Bucket K)) (now : K) : Step p Idle s (.other now) s
  | forget {b : Bucket K} {now : K} (h : Idle b now) :
      Step p Idle (some b) (.other now) none

def Run (p : Plan K) (Idle : Bucket K → K → Prop) : Option (Bucket K) → List (Event K) → Prop
  | _, [] => True
  | s, e :: es => ∃ t, Step p Idle s e t ∧ Run p Idle t es

def IdleFor (idle : K) (b : Bucket K) (now : K) : Prop := b.last < now - idle

/-- No event is handled more than `D` behind one handled before it. -/
def Skewed (D : K) (es : List (Event K)) : Prop :=
  es.Pairwise fun e f => e.now - D ≤ f.now

def Event.grantedIn (a b : K) : Event K → Bool
  | .take now granted => granted && decide (a ≤ now) && decide (now ≤ b)
  | .other _ => false

/-- The plan refills a whole burst in the time after which a bucket may be forgotten. -/
structure Fits (p : Plan K) (idle D : K) : Prop where
  rate_pos : 0 < p.rate
  one_le_burst : 1 ≤ p.burst
  skew_nonneg : 0 ≤ D
  burst_le : p.burst ≤ p.rate * (idle - 2 * D)

def NotBehind (D now : K) (es : List (Event K)) : Prop := ∀ e ∈ es, now - D ≤ e.now

/-- What `count` grants since the reading `start` leave, with the events `rest` to come.
The reading `m` is that of the last grant: tokens below zero come from readings behind it. -/
def Accounted (p : Plan K) (idle D start count : K) (rest : List (Event K)) :
    Option (Bucket K) → Prop
  | some b => count + b.tokens ≤ p.burst + p.rate * (b.last - start) ∧
      ∃ m, NotBehind D m rest ∧ m ≤ b.last + D ∧ p.rate * (b.last - m) ≤ b.tokens
  | none => ∃ c, NotBehind D c rest ∧ count ≤ p.burst + p.rate * (c + D - idle - start)

variable {p : Plan K} {idle D start count : K} {e : Event K} {es : List (Event K)}

omit [IsStrictOrderedRing K] in
theorem NotBehind.tail {now : K} (h : NotBehind D now (e :: es)) : NotBehind D now es := by
  intro f hf
  exact h f (List.mem_cons_of_mem _ hf)

omit [IsStrictOrderedRing K] in
theorem Accounted.tail {s : Option (Bucket K)} (h : Accounted p idle D start count (e :: es) s) :
    Accounted p idle D start count es s := by
  cases s with
  | none =>
    obtain ⟨c, hc, hcount⟩ := h
    exact ⟨c, hc.tail, hcount⟩
  | some b =>
    obtain ⟨htokens, m, hm, hlast, hlow⟩ := h
    exact ⟨htokens, m, hm.tail, hlast, hlow⟩

omit [IsStrictOrderedRing K] in
theorem Bucket.refill_le (p : Plan K) (b : Bucket K) (now : K) :
    b.refill p now ≤ b.tokens + p.rate * (now - b.last) := by
  rw [mul_comm]
  exact min_le_right _ _

theorem accounted_grant (hfit : Fits p idle D) {tokens now : K} (hnow : NotBehind D now es)
    (htokens : 0 ≤ tokens) (hcount : count + tokens ≤ p.burst + p.rate * (now - start)) :
    Accounted p idle D start count es (some ⟨tokens, now⟩) := by
  have hskew := hfit.skew_nonneg
  refine ⟨hcount, now, hnow, ?_, ?_⟩
  · show now ≤ now + D
    linarith
  · show p.rate * (now - now) ≤ tokens
    simpa using htokens

theorem Step.accounted_granted (hfit : Fits p idle D) {s t : Option (Bucket K)} {now : K}
    (h : Step p (IdleFor idle) s (.take now true) t)
    (hs : Accounted p idle D start count (.take now true :: es) s)
    (hnow : NotBehind D now es) :
    Accounted p idle D start (count + 1) es t ∧
      count + 1 ≤ p.burst + p.rate * (now - start) := by
  have hone := hfit.one_le_burst
  cases h with
  | create =>
    obtain ⟨c, hc, hcount⟩ := hs
    have hback : c - D ≤ now := hc _ List.mem_cons_self
    have hgap : p.rate * (c + D - idle - start) ≤ p.rate * (now + 2 * D - idle - start) :=
      mul_le_mul_of_nonneg_left (by linarith) hfit.rate_pos.le
    have hfull : p.burst + p.rate * (now + 2 * D - idle - start) ≤ p.rate * (now - start) := by
      have := hfit.burst_le
      linarith
    have htotal : count + p.burst ≤ p.burst + p.rate * (now - start) := by linarith
    refine ⟨accounted_grant hfit hnow (by linarith) (by linarith), by linarith⟩
  | @grant b _ henough =>
    obtain ⟨hcount, -⟩ := hs
    have hrefill := b.refill_le p now
    have htotal : count + b.refill p now ≤ p.burst + p.rate * (now - start) := by linarith
    refine ⟨accounted_grant hfit hnow (by linarith) (by linarith), by linarith⟩

theorem Step.accounted_refused (hfit : Fits p idle D) {s t : Option (Bucket K)} {now : K}
    (h : Step p (IdleFor idle) s (.take now false) t)
    (hs : Accounted p idle D start count (.take now false :: es) s) :
    Accounted p idle D start count es t := by
  cases h with
  | @refuse b _ hlow =>
    obtain ⟨hcount, m, hm, -, htokens⟩ := hs
    have hone := hfit.one_le_burst
    have hrefill : b.refill p now = b.tokens + (now - b.last) * p.rate := by
      refine min_eq_right (le_of_not_gt fun hlt => ?_)
      have : b.refill p now = p.burst := min_eq_left hlt.le
      linarith
    have hback : m - D ≤ now := hm _ List.mem_cons_self
    refine ⟨?_, m, hm.tail, ?_, ?_⟩
    · show count + b.refill p now ≤ p.burst + p.rate * (now - start)
      linarith
    · show m ≤ now + D
      linarith
    · show p.rate * (now - m) ≤ b.refill p now
      linarith

theorem Step.accounted_other (hfit : Fits p idle D) {s t : Option (Bucket K)} {now : K}
    (h : Step p (IdleFor idle) s (.other now) t)
    (hs : Accounted p idle D start count (.other now :: es) s)
    (hnow : NotBehind D now es) : Accounted p idle D start count es t := by
  cases h with
  | keep => exact hs.tail
  | @forget b _ hforget =>
    obtain ⟨hcount, m, -, hlast, htokens⟩ := hs
    have hidle : b.last < now - idle := hforget
    refine ⟨now, hnow, ?_⟩
    have hgap : p.rate * (m - start) ≤ p.rate * (now + D - idle - start) :=
      mul_le_mul_of_nonneg_left (by linarith) hfit.rate_pos.le
    linarith

/-- From a grant on: `count` grants since `start`, of which `seen` are in the window. -/
theorem Run.count_le_of_accounted (hfit : Fits p idle D) {a b seen : K} (hstart : a ≤ start)
    {s : Option (Bucket K)} (hrun : Run p (IdleFor idle) s es) (hskew : Skewed D es)
    (hs : Accounted p idle D start count es s) (hseen : seen ≤ count)
    (hle : seen ≤ p.burst + p.rate * (b - a)) :
    seen + (es.countP (Event.grantedIn a b) : K) ≤ p.burst + p.rate * (b - a) := by
  induction es generalizing s count seen with
  | nil => simpa using hle
  | cons e es ih =>
    obtain ⟨t, hstep, hrest⟩ := hrun
    obtain ⟨hnow, hskews⟩ := List.pairwise_cons.mp hskew
    cases e with
    | other now =>
      rw [List.countP_cons_of_neg (by simp [Event.grantedIn])]
      exact ih hrest hskews (hstep.accounted_other hfit hs hnow) hseen hle
    | take now granted =>
      cases granted with
      | false =>
        rw [List.countP_cons_of_neg (by simp [Event.grantedIn])]
        exact ih hrest hskews (hstep.accounted_refused hfit hs) hseen hle
      | true =>
        obtain ⟨ht, hcount⟩ := hstep.accounted_granted hfit hs hnow
        by_cases hin : Event.grantedIn a b (.take now true) = true
        · have hb : now ≤ b := by
            simp only [Event.grantedIn, Bool.true_and, Bool.and_eq_true, decide_eq_true_eq] at hin
            exact hin.2
          have hwindow : p.rate * (now - start) ≤ p.rate * (b - a) :=
            mul_le_mul_of_nonneg_left (by linarith) hfit.rate_pos.le
          have hmore := ih hrest hskews ht (by linarith : seen + 1 ≤ count + 1) (by linarith)
          rw [List.countP_cons_of_pos hin]
          push_cast
          linarith
        · rw [List.countP_cons_of_neg hin]
          exact ih hrest hskews ht (by linarith) hle

theorem Step.accounted_first (hfit : Fits p idle D) {s t : Option (Bucket K)} {now : K}
    (h : Step p (IdleFor idle) s (.take now true) t) (hnow : NotBehind D now es) :
    Accounted p idle D now 1 es t := by
  have hone := hfit.one_le_burst
  cases h with
  | create => exact accounted_grant hfit hnow (by linarith) (by simp)
  | @grant b _ henough =>
    have hfull : b.refill p now ≤ p.burst := min_le_left _ _
    exact accounted_grant hfit hnow (by linarith) (by simpa using hfull)

/-- The window bound, from any state of the bucket. -/
theorem Run.count_le (hfit : Fits p idle D) {a b : K} (hab : a ≤ b) {s : Option (Bucket K)}
    (hrun : Run p (IdleFor idle) s es) (hskew : Skewed D es) :
    (es.countP (Event.grantedIn a b) : K) ≤ p.burst + p.rate * (b - a) := by
  have hone := hfit.one_le_burst
  have hwindow : 0 ≤ p.rate * (b - a) := mul_nonneg hfit.rate_pos.le (by linarith)
  induction es generalizing s with
  | nil =>
    rw [List.countP_nil, Nat.cast_zero]
    linarith
  | cons e es ih =>
    obtain ⟨t, hstep, hrest⟩ := hrun
    obtain ⟨hnow, hskews⟩ := List.pairwise_cons.mp hskew
    by_cases hin : e.grantedIn a b = true
    · rw [List.countP_cons_of_pos hin]
      push_cast
      cases e with
      | other now => simp [Event.grantedIn] at hin
      | take now granted =>
        simp only [Event.grantedIn, Bool.and_eq_true, decide_eq_true_eq] at hin
        obtain ⟨⟨rfl, ha⟩, -⟩ := hin
        have hmore := Run.count_le_of_accounted (b := b) hfit ha hrest hskews
          (hstep.accounted_first hfit hnow) le_rfl (by linarith)
        linarith
    · rw [List.countP_cons_of_neg hin]
      exact ih hrest hskews

/-! Refusals -/

/-- From some reading on, the bucket holds at least what a full one would after the same grants. -/
def Backed (p : Plan K) (past : List (Event K)) : Option (Bucket K) → Prop
  | none => True
  | some b => (∃ e ∈ past, e.now = b.last) ∧ ∃ a ≤ b.last,
      p.burst + p.rate * (b.last - a) ≤ b.tokens + (past.countP (Event.grantedIn a b.last) : K)

variable {past : List (Event K)} {Idle : Bucket K → K → Prop}

theorem countP_grantedIn_mono {a b c : K} (h : b ≤ c) :
    (past.countP (Event.grantedIn a b) : K) ≤ past.countP (Event.grantedIn a c) := by
  refine Nat.cast_le.mpr (List.countP_mono_left fun e _ he => ?_)
  cases e with
  | other now => simp [Event.grantedIn] at he
  | take now granted =>
    simp only [Event.grantedIn, Bool.and_eq_true, decide_eq_true_eq] at he ⊢
    exact ⟨he.1, he.2.trans h⟩

/-- A bucket that the refill fills up starts anew at this reading. -/
theorem Backed.refill {b : Bucket K} {now : K} (h : Backed p past (some b)) (hnow : b.last ≤ now) :
    ∃ a ≤ now, p.burst + p.rate * (now - a) ≤
      b.refill p now + (past.countP (Event.grantedIn a now) : K) := by
  obtain ⟨-, a, ha, hbacked⟩ := h
  by_cases hfull : p.burst ≤ b.tokens + (now - b.last) * p.rate
  · refine ⟨now, le_rfl, ?_⟩
    rw [Bucket.refill, min_eq_left hfull, sub_self, mul_zero]
    exact add_le_add_right (Nat.cast_nonneg _) _
  · refine ⟨a, ha.trans hnow, ?_⟩
    have hmore : (past.countP (Event.grantedIn a b.last) : K) ≤ _ := countP_grantedIn_mono hnow
    rw [Bucket.refill, min_eq_right (not_le.mp hfull).le]
    linarith

theorem Step.backed {s t : Option (Bucket K)} (h : Step p Idle s e t) (hs : Backed p past s)
    (hpast : ∀ f ∈ past, f.now ≤ e.now) : Backed p (past ++ [e]) t := by
  have hlast {b : Bucket K} (hb : Backed p past (some b)) : b.last ≤ e.now := by
    obtain ⟨⟨f, hf, hread⟩, -⟩ := hb
    exact hread ▸ hpast f hf
  have hself (now : K) (granted : Bool) : ∃ f ∈ past ++ [.take now granted], f.now = now :=
    ⟨_, List.mem_append_right _ List.mem_cons_self, rfl⟩
  have hgrant {a now : K} (ha : a ≤ now) :
      ((past ++ [Event.take now true]).countP (Event.grantedIn a now) : K) =
        past.countP (Event.grantedIn a now) + 1 := by
    simp [List.countP_append, Event.grantedIn, ha]
  cases h with
  | create now =>
    refine ⟨hself now true, now, le_rfl, ?_⟩
    have hcount : (0 : K) ≤ past.countP (Event.grantedIn now now) := Nat.cast_nonneg _
    rw [hgrant le_rfl]
    linarith
  | @grant b now henough =>
    have hlast : b.last ≤ now := hlast hs
    obtain ⟨a, ha, hbacked⟩ := hs.refill hlast
    refine ⟨hself now true, a, ha, ?_⟩
    show p.burst + p.rate * (now - a) ≤ b.refill p now - 1 + _
    rw [hgrant ha]
    linarith
  | @refuse b now hlow =>
    obtain ⟨a, ha, hbacked⟩ := hs.refill (hlast hs)
    refine ⟨hself now false, a, ha, ?_⟩
    rw [List.countP_append, List.countP_cons_of_neg (by simp [Event.grantedIn]), List.countP_nil]
    exact hbacked
  | keep s now =>
    cases s with
    | none => trivial
    | some b =>
      obtain ⟨⟨f, hf, hread⟩, a, ha, hbacked⟩ := hs
      refine ⟨⟨f, List.mem_append_left _ hf, hread⟩, a, ha, ?_⟩
      rw [List.countP_append, List.countP_cons_of_neg (by simp [Event.grantedIn]), List.countP_nil]
      exact hbacked
  | forget => trivial

/-- With readings in order, a refusal means that the grants since some reading and one more would
exceed what the plan allows from there. -/
theorem Run.refused {s : Option (Bucket K)} {now : K}
    (hrun : Run p Idle s (es ++ [.take now false])) (hs : Backed p past s)
    (hsorted : (past ++ (es ++ [Event.take now false])).Pairwise fun e f => e.now ≤ f.now) :
    ∃ a ≤ now, p.burst + p.rate * (now - a) <
      ((past ++ es).countP (Event.grantedIn a now) : K) + 1 := by
  induction es generalizing past s with
  | nil =>
    obtain ⟨t, hstep, -⟩ := hrun
    cases hstep with
    | @refuse b _ hlow =>
      obtain ⟨f, hf, hread⟩ := hs.1
      have hlast : b.last ≤ now :=
        hread ▸ (List.pairwise_append.mp hsorted).2.2 f hf _ List.mem_cons_self
      obtain ⟨a, ha, hbacked⟩ := hs.refill hlast
      rw [List.append_nil]
      exact ⟨a, ha, by linarith⟩
  | cons e es ih =>
    obtain ⟨t, hstep, hrest⟩ := hrun
    have hpast : ∀ f ∈ past, f.now ≤ e.now := fun f hf =>
      (List.pairwise_append.mp hsorted).2.2 f hf e List.mem_cons_self
    rw [List.append_cons]
    exact ih hrest (hstep.backed hs hpast) (by rw [List.append_assoc]; exact hsorted)

end Aetus.Base.TokenBucket
