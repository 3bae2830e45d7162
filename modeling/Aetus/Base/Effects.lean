import Mathlib.Data.List.Basic

/-!
Procedures that act and may fail on the way: what was done before the failure stays done.
-/

set_option autoImplicit false

namespace Aetus.Base

structure Effects (ω ε : Type) where
  done : List ω
  failure : Option ε

namespace Effects
variable {α β ω ε : Type}

def acts (done : List ω) : Effects ω ε := ⟨done, none⟩

def attempt (result : Except ε α) (next : α → Effects ω ε) : Effects ω ε :=
  match result with
  | .error e => ⟨[], some e⟩
  | .ok value => next value

def andThen (first second : Effects ω ε) : Effects ω ε :=
  match first.failure with
  | some e => ⟨first.done, some e⟩
  | none => ⟨first.done ++ second.done, second.failure⟩

def forEach (f : α → Effects ω ε) : List α → Effects ω ε
  | [] => acts []
  | x :: xs => (f x).andThen (forEach f xs)

/-- An element that a loop comes to, if it goes on only where `passes` holds. -/
def Reached (passes : α → Prop) : List α → α → Prop
  | [], _ => False
  | x :: xs, y => y = x ∨ passes x ∧ Reached passes xs y

def seen (view : ω → Option β) (effects : Effects ω ε) : List β := effects.done.filterMap view

variable {first second third : Effects ω ε} {f g : α → Effects ω ε} {view : ω → Option β}
  {passes passes' : α → Prop} {w : ω} {x y : α} {xs ys : List α}

@[simp] theorem failure_acts (done : List ω) : (acts done : Effects ω ε).failure = none := rfl

@[simp] theorem done_acts (done : List ω) : (acts done : Effects ω ε).done = done := rfl

theorem attempt_ok (value : α) (next : α → Effects ω ε) : attempt (.ok value) next = next value := rfl

theorem failure_andThen : (first.andThen second).failure = none ↔
    first.failure = none ∧ second.failure = none := by
  unfold andThen
  cases h : first.failure <;> simp

theorem mem_done_andThen : w ∈ (first.andThen second).done ↔
    w ∈ first.done ∨ first.failure = none ∧ w ∈ second.done := by
  unfold andThen
  cases h : first.failure <;> simp

theorem seen_andThen : (first.andThen second).seen view =
    first.seen view ++ if first.failure.isNone then second.seen view else [] := by
  unfold andThen seen
  cases h : first.failure <;> simp

theorem mem_of_reached (h : Reached passes xs x) : x ∈ xs := by
  induction xs with
  | nil => cases h
  | cons y xs ih =>
    rcases h with rfl | ⟨-, h⟩
    · exact List.mem_cons_self
    · exact List.mem_cons_of_mem y (ih h)

theorem Reached.imp (himp : ∀ x ∈ xs, passes x → passes' x) (h : Reached passes xs y) :
    Reached passes' xs y := by
  induction xs with
  | nil => cases h
  | cons x xs ih =>
    rcases h with rfl | ⟨hx, h⟩
    · exact .inl rfl
    · exact .inr ⟨himp x List.mem_cons_self hx,
        ih (fun x hx => himp x (List.mem_cons_of_mem _ hx)) h⟩

theorem reached_congr (h : ∀ x ∈ xs, passes x ↔ passes' x) :
    Reached passes xs y ↔ Reached passes' xs y :=
  ⟨.imp fun x hx => (h x hx).mp, .imp fun x hx => (h x hx).mpr⟩

/-- A loop goes past the elements before the first one that stops it. -/
theorem mem_takeWhile_iff {p : α → Bool} :
    x ∈ xs.takeWhile p ↔ Reached (fun x => p x = true) xs x ∧ p x = true := by
  induction xs with
  | nil => simp [Reached]
  | cons y xs ih =>
    rw [List.takeWhile_cons]
    cases hy : p y with
    | false =>
      simp only [Bool.false_eq_true, if_false, List.not_mem_nil, Reached, hy, false_and, or_false,
        false_iff, not_and, Bool.not_eq_true]
      rintro rfl
      exact hy
    | true =>
      rw [if_pos rfl, List.mem_cons, ih, Reached, and_iff_right hy]
      constructor
      · rintro (rfl | ⟨hreached, hx⟩)
        · exact ⟨.inl rfl, hy⟩
        · exact ⟨.inr hreached, hx⟩
      · rintro ⟨rfl | hreached, hx⟩
        · exact .inl rfl
        · exact .inr ⟨hreached, hx⟩

/-- In a list that is sorted by a key, a loop comes to an element past those with smaller keys. -/
theorem reached_iff_of_sorted {key : α → Nat} (hsorted : xs.Pairwise fun a b => key a < key b)
    (hx : x ∈ xs) : Reached passes xs x ↔ ∀ y ∈ xs, key y < key x → passes y := by
  induction xs with
  | nil => cases hx
  | cons z xs ih =>
    obtain ⟨hz, hsorted⟩ := List.pairwise_cons.mp hsorted
    rw [List.forall_mem_cons]
    rcases List.mem_cons.mp hx with rfl | hx
    · refine iff_of_true (.inl rfl) ⟨fun h => absurd h (Nat.lt_irrefl _), fun y hy h => ?_⟩
      exact absurd (hz y hy) (Nat.lt_asymm h)
    · have hlt := hz x hx
      rw [← ih hsorted hx]
      refine ⟨?_, fun ⟨hpass, h⟩ => .inr ⟨hpass hlt, h⟩⟩
      rintro (rfl | ⟨hpass, h⟩)
      · exact absurd hlt (Nat.lt_irrefl _)
      · exact ⟨fun _ => hpass, h⟩

theorem failure_forEach : (forEach f xs).failure = none ↔ ∀ x ∈ xs, (f x).failure = none := by
  induction xs with
  | nil => simp [forEach]
  | cons x xs ih => rw [forEach, failure_andThen, ih, List.forall_mem_cons]

theorem failure_forEach_singleton (h : (f x).failure = (g y).failure) :
    (forEach f [x]).failure = (forEach g [y]).failure := by
  simp only [forEach, andThen, h]
  cases (g y).failure <;> rfl

/-- A loop has done what it does for the elements that it came to. -/
theorem mem_done_forEach : w ∈ (forEach f xs).done ↔
    ∃ x, Reached (fun x => (f x).failure = none) xs x ∧ w ∈ (f x).done := by
  induction xs with
  | nil => simp [forEach, Reached]
  | cons x xs ih =>
    rw [forEach, mem_done_andThen, ih]
    simp only [Reached]
    constructor
    · rintro (hw | ⟨hx, y, hy, hw⟩)
      · exact ⟨x, .inl rfl, hw⟩
      · exact ⟨y, .inr ⟨hx, hy⟩, hw⟩
    · rintro ⟨y, rfl | ⟨hx, hy⟩, hw⟩
      · exact .inl hw
      · exact .inr ⟨hx, y, hy, hw⟩

/-- Of a loop that shows nothing of the element that stops it, the elements before this one are
seen. -/
theorem seen_forEach_takeWhile {p : α → Bool}
    (hfailure : ∀ x ∈ xs, (f x).failure = none ↔ p x = true)
    (hstops : ∀ x ∈ xs, p x = false → (f x).seen view = []) :
    (forEach f xs).seen view = (xs.takeWhile p).flatMap fun x => (f x).seen view := by
  induction xs with
  | nil => rfl
  | cons x xs ih =>
    obtain ⟨hx, hxs⟩ := List.forall_mem_cons.mp hfailure
    obtain ⟨hstop, hstops⟩ := List.forall_mem_cons.mp hstops
    rw [forEach, seen_andThen, ih hxs hstops]
    cases hp : p x with
    | false =>
      have hfails : (f x).failure ≠ none := fun hnone => by
        rw [hx.mp hnone] at hp
        cases hp
      rw [List.takeWhile_cons_of_neg (by rw [hp]; exact Bool.false_ne_true), hstop hp,
        Option.isNone_eq_false_iff.mpr (Option.isSome_iff_ne_none.mpr hfails)]
      rfl
    | true =>
      rw [List.takeWhile_cons_of_pos hp, List.flatMap_cons, hx.mpr hp]
      rfl

theorem seen_forEach_of_silent (h : ∀ x ∈ xs, (f x).seen view = []) :
    (forEach f xs).seen view = [] := by
  induction xs with
  | nil => rfl
  | cons x xs ih =>
    obtain ⟨hx, hxs⟩ := List.forall_mem_cons.mp h
    rw [forEach, seen_andThen, hx, ih hxs]
    simp

/-- Where the others do nothing that is seen, one element's actions are seen or, if the loop does
not come to it, nothing is. -/
theorem seen_forEach_of_others_silent (hnodup : xs.Nodup)
    (h : ∀ y ∈ xs, y ≠ x → (f y).seen view = []) :
    (Reached (fun y => (f y).failure = none) xs x → (forEach f xs).seen view = (f x).seen view) ∧
    (¬Reached (fun y => (f y).failure = none) xs x → (forEach f xs).seen view = []) := by
  induction xs with
  | nil => exact ⟨False.elim, fun _ => rfl⟩
  | cons y xs ih =>
    obtain ⟨hy, hxs⟩ := List.forall_mem_cons.mp h
    obtain ⟨hnew, hnodup⟩ := List.nodup_cons.mp hnodup
    rw [forEach, seen_andThen]
    by_cases heq : y = x
    · subst heq
      have hrest : (forEach f xs).seen view = [] := seen_forEach_of_silent fun z hz =>
        hxs z hz fun hzy => hnew (hzy ▸ hz)
      refine ⟨fun _ => by simp [hrest], fun hnot => absurd (.inl rfl) hnot⟩
    · rw [hy heq, List.nil_append]
      obtain ⟨hreached, hmissed⟩ := ih hnodup hxs
      cases hfail : (f y).failure with
      | none =>
        refine ⟨fun hr => hreached ?_, fun hnot => hmissed fun hr => hnot (.inr ⟨hfail, hr⟩)⟩
        exact hr.elim (fun hxy => absurd hxy.symm heq) And.right
      | some e =>
        refine ⟨fun hr => ?_, fun _ => rfl⟩
        rcases hr with hxy | ⟨hnone, -⟩
        · exact absurd hxy.symm heq
        · rw [hfail] at hnone
          cases hnone

def Agree (view : ω → Option β) (first second : Effects ω ε) : Prop :=
  first.failure = second.failure ∧ first.seen view = second.seen view

theorem Agree.refl (effects : Effects ω ε) : Agree view effects effects := ⟨rfl, rfl⟩

theorem Agree.andThen (h : Agree view second third) :
    Agree view (first.andThen second) (first.andThen third) := by
  obtain ⟨hfailure, hseen⟩ := h
  refine ⟨?_, by rw [seen_andThen, seen_andThen, hseen]⟩
  unfold Effects.andThen
  cases first.failure with
  | some e => rfl
  | none => exact hfailure

theorem agree_forEach (h : ∀ x, Reached (fun x => (f x).failure = none) xs x →
    Agree view (f x) (g x)) : Agree view (forEach f xs) (forEach g xs) := by
  induction xs with
  | nil => exact .refl _
  | cons x xs ih =>
    obtain ⟨hfailure, hseen⟩ := h x (.inl rfl)
    simp only [forEach, andThen, ← hfailure]
    cases hx : (f x).failure with
    | some e => exact ⟨rfl, hseen⟩
    | none =>
      obtain ⟨hfailures, hseens⟩ := ih fun y hy => h y (.inr ⟨hx, hy⟩)
      refine ⟨hfailures, ?_⟩
      rw [seen, seen] at hseen hseens ⊢
      rw [List.filterMap_append, List.filterMap_append, hseen, hseens]

end Effects

end Aetus.Base
