import Mathlib.Order.Bounds.Basic
import Mathlib.Order.WithBot
import Mathlib.Data.List.Induction
import Mathlib.Data.List.Pairwise

/-!
A register that is overwritten by some of the steps of a run. It never goes back exactly when what
is written to it is in ascending order.
-/

set_option autoImplicit false

namespace Aetus.Base

variable {α ω : Type}

def written (write : ω → Option α) (v : WithBot α) (steps : List ω) : WithBot α :=
  steps.foldl (fun v step => (write step).elim v (↑·)) v

section
variable {write : ω → Option α} {v : WithBot α} {steps steps' : List ω} {a : α}

@[simp] theorem written_nil : written write v [] = v := rfl

theorem written_append : written write v (steps ++ steps') =
    written write (written write v steps) steps' :=
  List.foldl_append

theorem written_eq_getLast? : written write v steps =
    (steps.filterMap write).getLast?.elim v (↑·) := by
  induction steps using List.reverseRecOn with
  | nil => rfl
  | append_singleton steps step ih =>
    rw [written_append, ih, List.filterMap_append]
    cases hstep : write step with
    | none => simp [written, hstep]
    | some a => simp [written, hstep]

end

variable [LinearOrder α] {write : ω → Option α} {v : WithBot α} {steps : List ω} {a : α}
  {as bs : List α}

def Ascends (v : WithBot α) (as : List α) : Prop :=
  (∀ a ∈ as, v ≤ a) ∧ as.Pairwise (· ≤ ·)

theorem ascends_nil : Ascends v ([] : List α) :=
  ⟨fun _ h => absurd h List.not_mem_nil, .nil⟩

theorem ascends_cons : Ascends v (a :: as) ↔ v ≤ a ∧ Ascends (a : WithBot α) as := by
  simp only [Ascends, List.forall_mem_cons, List.pairwise_cons, WithBot.coe_le_coe]
  constructor
  · rintro ⟨⟨hfirst, -⟩, hrest⟩
    exact ⟨hfirst, hrest⟩
  · rintro ⟨hfirst, hbelow, hsorted⟩
    exact ⟨⟨hfirst, fun b hb => hfirst.trans (WithBot.coe_le_coe.mpr (hbelow b hb))⟩, hbelow, hsorted⟩

theorem ascends_append :
    Ascends v (as ++ bs) ↔ Ascends v as ∧ Ascends (as.getLast?.elim v (↑·)) bs := by
  induction as generalizing v with
  | nil => simp [ascends_nil]
  | cons a as ih =>
    rw [List.cons_append, ascends_cons, ascends_cons, ih, and_assoc]
    cases as with
    | nil => rfl
    | cons b as =>
      obtain ⟨last, hlast⟩ : ∃ last, (b :: as).getLast? = some last :=
        Option.isSome_iff_exists.mp (List.getLast?_isSome.mpr (List.cons_ne_nil b as))
      rw [List.getLast?_cons_cons, hlast]
      rfl

/-- What is in the register never decreases exactly when the writes ascend. -/
theorem monotone_written_iff :
    Monotone (fun n => written write v (steps.take n)) ↔ Ascends v (steps.filterMap write) := by
  induction steps generalizing v with
  | nil => exact iff_of_true (fun _ _ _ => by simp) ascends_nil
  | cons step steps ih =>
    have hshift (n : Nat) : written write v ((step :: steps).take (n + 1)) =
        written write ((write step).elim v (↑·)) (steps.take n) := rfl
    have hsteps : Monotone (fun n => written write v ((step :: steps).take n)) ↔
        v ≤ (write step).elim v (↑·) ∧
          Monotone fun n => written write ((write step).elim v (↑·)) (steps.take n) := by
      constructor
      · intro h
        exact ⟨h (Nat.zero_le 1), fun m n hmn => h (Nat.succ_le_succ hmn)⟩
      · rintro ⟨hfirst, hrest⟩
        refine monotone_nat_of_le_succ fun n => ?_
        cases n with
        | zero => exact hfirst
        | succ n =>
          rw [hshift, hshift]
          exact hrest (Nat.le_succ n)
    rw [hsteps, ih]
    cases hwrite : write step with
    | none => simp [hwrite]
    | some a => rw [List.filterMap_cons_some hwrite, ascends_cons, Option.elim_some]

/-- The writes of several runs ascend if those of each do, from what the runs before it leave. -/
theorem ascends_flatMap_iff {γ : Type} {f : γ → List ω} {xs : List γ} :
    Ascends v ((xs.flatMap f).filterMap write) ↔ ∀ before x later, xs = before ++ x :: later →
      Ascends (written write v (before.flatMap f)) ((f x).filterMap write) := by
  induction xs generalizing v with
  | nil =>
    refine iff_of_true ascends_nil fun before x later h => ?_
    exact absurd h.symm (List.append_ne_nil_of_right_ne_nil before (List.cons_ne_nil x later))
  | cons x xs ih =>
    rw [List.flatMap_cons, List.filterMap_append, ascends_append, ← written_eq_getLast?, ih]
    constructor
    · rintro ⟨hfirst, hrest⟩ before y later hsplit
      cases before with
      | nil =>
        obtain ⟨rfl, rfl⟩ := List.cons.inj hsplit
        exact hfirst
      | cons z before =>
        obtain ⟨rfl, htail⟩ := List.cons.inj hsplit
        rw [List.flatMap_cons, written_append]
        exact hrest before y later htail
    · intro h
      refine ⟨h [] x xs rfl, fun before y later hsplit => ?_⟩
      rw [← written_append, ← List.flatMap_cons]
      exact h (x :: before) y later (by rw [hsplit, List.cons_append])

theorem Ascends.isGreatest (h : Ascends v as) (hlast : as.getLast? = some a) :
    IsGreatest {b | b ∈ as} a := by
  obtain ⟨before, rfl⟩ := List.getLast?_eq_some_iff.mp hlast
  refine ⟨List.mem_append_right _ (List.mem_singleton_self a), fun b hb => ?_⟩
  rcases List.mem_append.mp hb with hbefore | hb
  · exact (List.pairwise_append.mp h.2).2.2 b hbefore a (List.mem_singleton_self a)
  · exact le_of_eq (List.mem_singleton.mp hb)

theorem ascends_flatten {groups : List (List α)} (h : ∀ group ∈ groups, group.Pairwise (· ≥ ·)) :
    Ascends v groups.flatten ↔ (∀ group ∈ groups, ∀ a ∈ group, v ≤ a) ∧
      (∀ group ∈ groups, ∀ a ∈ group, ∀ b ∈ group, a = b) ∧
      groups.Pairwise fun group group' => ∀ a ∈ group, ∀ b ∈ group', a ≤ b := by
  have hgroup (group : List α) (hgroup : group ∈ groups) :
      group.Pairwise (· ≤ ·) ↔ ∀ a ∈ group, ∀ b ∈ group, a = b := by
    constructor
    · intro hle
      have heq : group.Pairwise (· = ·) :=
        hle.imp₂ (fun _ _ hle hge => le_antisymm hle hge) (h group hgroup)
      exact fun a ha b hb => heq.forall_of_forall (fun _ _ => rfl) ha hb
    · intro heq
      exact List.pairwise_of_forall_mem_list fun a ha b hb => le_of_eq (heq a ha b hb)
  rw [Ascends, List.pairwise_flatten, List.forall_mem_flatten]
  refine and_congr_right fun _ => and_congr_left fun _ => ?_
  exact forall₂_congr hgroup

end Aetus.Base
