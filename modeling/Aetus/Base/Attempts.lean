import Mathlib.Data.List.Induction
import Mathlib.Order.Lattice

/-!
Attempts at one item, made until the first success or until so many have failed.
-/

set_option autoImplicit false

namespace Aetus.Base

inductive Standing where
  | untried
  | failed
  | succeeded
  | exhausted
  deriving DecidableEq

def Standing.isOpen : Standing → Bool
  | .untried | .failed => true
  | .succeeded | .exhausted => false

namespace Attempts
variable {limit : Int} {attempts : List Bool} {success : Bool}

def standing (limit : Int) (attempts : List Bool) : Standing :=
  match attempts.getLast? with
  | none => .untried
  | some true => .succeeded
  | some false => if limit ≤ attempts.length then .exhausted else .failed

inductive Made (limit : Int) : List Bool → Prop
  | nil : Made limit []
  | snoc {attempts : List Bool} (success : Bool) : Made limit attempts →
      (standing limit attempts).isOpen = true → Made limit (attempts ++ [success])

@[simp] theorem standing_nil : standing limit [] = .untried := rfl

@[simp] theorem standing_snoc : standing limit (attempts ++ [success]) =
    if success then .succeeded
    else if limit ≤ attempts.length + 1 then .exhausted else .failed := by
  cases success <;> simp [standing]

theorem length_lt_of_isOpen (h : (standing limit attempts).isOpen = true) :
    attempts = [] ∨ (attempts.length : Int) < limit := by
  induction attempts using List.reverseRecOn with
  | nil => exact .inl rfl
  | append_singleton attempts success =>
    right
    rw [standing_snoc] at h
    cases success with
    | true => cases h
    | false =>
      simp only [Bool.false_eq_true, if_false] at h
      split at h
      · cases h
      · simp
        omega

theorem not_mem_of_isOpen (hmade : Made limit attempts)
    (h : (standing limit attempts).isOpen = true) : true ∉ attempts := by
  induction hmade with
  | nil => simp
  | snoc success _ hopen ih =>
    rw [standing_snoc] at h
    cases success with
    | true => cases h
    | false => simpa using ih hopen

/-- At least one attempt is made, also under a limit of zero or less. -/
theorem Made.length_le (h : Made limit attempts) : (attempts.length : Int) ≤ max 1 limit := by
  cases h with
  | nil => simp
  | @snoc attempts success _ hopen =>
    rcases length_lt_of_isOpen hopen with rfl | hlt
    · simp
    · simp
      omega

theorem Made.not_mem_dropLast (h : Made limit attempts) : true ∉ attempts.dropLast := by
  cases h with
  | nil => simp
  | @snoc attempts success hmade hopen => simpa using not_mem_of_isOpen hmade hopen

theorem standing_eq_exhausted_iff : standing limit attempts = .exhausted ↔
    attempts.getLast? = some false ∧ limit ≤ attempts.length := by
  induction attempts using List.reverseRecOn with
  | nil => simp
  | append_singleton attempts success => cases success <;> simp

theorem Made.standing_eq_succeeded_iff (h : Made limit attempts) :
    standing limit attempts = .succeeded ↔
      attempts.getLast? = some true ∧ true ∉ attempts.dropLast := by
  have hearlier := h.not_mem_dropLast
  induction attempts using List.reverseRecOn with
  | nil => simp
  | append_singleton attempts success =>
    cases success
    · simp only [standing_snoc, Bool.false_eq_true, if_false]
      split <;> simp
    · simpa using hearlier

def numbered (attempts : List Bool) : List (Int × Bool) :=
  attempts.zipIdx.map fun (success, i) => ((i : Int) + 1, success)

@[simp] theorem numbered_nil : numbered [] = [] := rfl

@[simp] theorem numbered_snoc : numbered (attempts ++ [success]) =
    numbered attempts ++ [((attempts.length : Int) + 1, success)] := by
  simp [numbered, List.zipIdx_append]

theorem map_fst_numbered : (numbered attempts).map Prod.fst =
    (List.range attempts.length).map fun (i : Nat) => (i : Int) + 1 := by
  induction attempts using List.reverseRecOn with
  | nil => rfl
  | append_singleton attempts success ih => simp [ih, List.range_succ]

theorem map_snd_numbered : (numbered attempts).map Prod.snd = attempts := by
  induction attempts using List.reverseRecOn with
  | nil => rfl
  | append_singleton attempts success ih => simp [ih]

end Attempts

end Aetus.Base
