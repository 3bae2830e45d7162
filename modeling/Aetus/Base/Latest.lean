import Mathlib.Data.List.Induction

/-!
Slots in a row, some of which have a value: the last value, and how filling a slot changes it.
-/

set_option autoImplicit false

namespace Aetus.Base

variable {α : Type}

def latest (initial : α) (slots : List (Option α)) : α :=
  slots.foldl (fun value slot => slot.getD value) initial

@[simp] theorem latest_append_none (initial : α) (slots : List (Option α)) :
    latest initial (slots ++ [none]) = latest initial slots := by
  simp [latest]

@[simp] theorem latest_append_some (initial value : α) (slots : List (Option α)) :
    latest initial (slots ++ [some value]) = value := by
  simp [latest]

/-- Behind a value there are only empty slots. -/
theorem latest_eq {initial value : α} {slots : List (Option α)} {i : Nat}
    (hvalue : slots[i]? = some (some value))
    (hafter : ∀ j, i < j → ∀ slot, slots[j]? = some slot → slot = none) :
    latest initial slots = value := by
  induction slots using List.reverseRecOn with
  | nil => simp at hvalue
  | append_singleton slots slot ih =>
    have hi := (List.getElem?_eq_some_iff.mp hvalue).1
    rw [List.length_append, List.length_singleton] at hi
    rcases Nat.lt_succ_iff_lt_or_eq.mp hi with hlt | heq
    · have hempty : slot = none := hafter slots.length hlt slot (by simp)
      rw [hempty, latest_append_none]
      rw [List.getElem?_append_left hlt] at hvalue
      refine ih hvalue fun j hj other hother => hafter j hj other ?_
      rw [List.getElem?_append_left (List.getElem?_eq_some_iff.mp hother).1]
      exact hother
    · rw [heq, List.getElem?_concat_length] at hvalue
      rw [Option.some.inj hvalue, latest_append_some]

end Aetus.Base
