import Mathlib.Data.List.Nodup
import Mathlib.Logic.Function.Basic

/-!
Workers that take open items from a common stock and work through them one by one. Nothing marks
an item that is taken; what is shown here is what follows where no item is taken twice.
-/

set_option autoImplicit false

namespace Aetus.Base

structure Custody (ω ι : Type) where
  held : ω → List ι
  isOpen : ι → Prop

namespace Custody
variable {ω ι : Type} {c c' : Custody ω ι} {w w' : ω} {i j : ι} {items rest : List ι}

structure Exclusive (c : Custody ω ι) : Prop where
  nodup : ∀ w, (c.held w).Nodup
  holder : ∀ w w' i, i ∈ c.held w → i ∈ c.held w' → w = w'
  isOpen : ∀ w i, i ∈ c.held w → c.isOpen i

theorem exclusive_of_idle (h : ∀ w, c.held w = []) : c.Exclusive where
  nodup := fun w => by simp [h w]
  holder := fun w w' i hi => by simp [h w] at hi
  isOpen := fun w i hi => by simp [h w] at hi

/-- Workers may put items back, and items that nobody holds may open or close. -/
theorem Exclusive.shrink (h : c.Exclusive) (hheld : ∀ w, (c'.held w).Sublist (c.held w))
    (hopen : ∀ w i, i ∈ c'.held w → c.isOpen i → c'.isOpen i) : c'.Exclusive where
  nodup := fun w => (h.nodup w).sublist (hheld w)
  holder := fun w w' i hi hi' => h.holder w w' i ((hheld w).subset hi) ((hheld w').subset hi')
  isOpen := fun w i hi => hopen w i hi (h.isOpen w i ((hheld w).subset hi))

variable [DecidableEq ω]

/-- A worker takes open items that nobody holds. -/
theorem Exclusive.take (h : c.Exclusive) (hnodup : items.Nodup)
    (hfree : ∀ i ∈ items, c.isOpen i ∧ ∀ w', i ∉ c.held w') :
    Exclusive ⟨Function.update c.held w items, c.isOpen⟩ where
  nodup := fun v => by
    by_cases hv : v = w
    · subst hv
      simpa using hnodup
    · simpa [hv] using h.nodup v
  holder := fun v v' i hi hi' => by
    by_cases hv : v = w <;> by_cases hv' : v' = w
    · exact hv.trans hv'.symm
    · subst hv
      simp [hv'] at hi hi'
      exact absurd hi' ((hfree i hi).2 v')
    · subst hv'
      simp [hv] at hi hi'
      exact absurd hi ((hfree i hi').2 v)
    · simp [hv, hv'] at hi hi'
      exact h.holder v v' i hi hi'
  isOpen := fun v i hi => by
    by_cases hv : v = w
    · subst hv
      simp at hi
      exact (hfree i hi).1
    · simp [hv] at hi
      exact h.isOpen v i hi

omit [DecidableEq ω] in
theorem Exclusive.next_not_mem (h : c.Exclusive) (hw : c.held w = i :: rest) :
    i ∉ rest ∧ ∀ w', w' ≠ w → i ∉ c.held w' := by
  have hi : i ∈ c.held w := by simp [hw]
  have hnodup := h.nodup w
  rw [hw, List.nodup_cons] at hnodup
  exact ⟨hnodup.1, fun w' hne hi' => hne (h.holder w' w i hi' hi)⟩

/-- A worker finishes the item that it has come to, and leaves it open or closed. -/
theorem Exclusive.finish (h : c.Exclusive) (hw : c.held w = i :: rest) {isOpen' : ι → Prop}
    (hopen : ∀ j, j ≠ i → c.isOpen j → isOpen' j) :
    Exclusive ⟨Function.update c.held w rest, isOpen'⟩ := by
  obtain ⟨hrest, hothers⟩ := h.next_not_mem hw
  apply h.shrink
  · intro v
    by_cases hv : v = w
    · subst hv
      simp [hw]
    · simp [hv]
  · intro v j hj
    apply hopen
    intro heq
    subst heq
    by_cases hv : v = w
    · subst hv
      simp at hj
      exact hrest hj
    · simp [hv] at hj
      exact hothers v hv hj

end Custody

end Aetus.Base
