import Mathlib.Data.List.Infix

/-!
Ledgers, the latest entry first: what each entry rests on is in the ledger before it.
-/

set_option autoImplicit false

namespace Aetus.Base

variable {E : Type} {rests : List E → E → Prop}

def Founded (rests : List E → E → Prop) : List E → Prop
  | [] => True
  | entry :: before => rests before entry ∧ Founded rests before

theorem Founded.tail {later before : List E} (h : Founded rests (later ++ before)) :
    Founded rests before := by
  induction later with
  | nil => exact h
  | cons entry later ih => exact ih h.2

theorem Founded.head {later before : List E} {entry : E}
    (h : Founded rests (later ++ entry :: before)) : rests before entry :=
  h.tail.1

/-- Induction over a founded ledger: what an entry has when all entries before it have it, every
entry has. -/
theorem Founded.forall_entry {P : List E → E → Prop}
    (hstep : ∀ entry before, rests before entry →
      (∀ later other earlier, before = later ++ other :: earlier → P earlier other) →
      P before entry)
    {later before : List E} {entry : E} (h : Founded rests (later ++ entry :: before)) :
    P before entry := by
  induction hn : before.length using Nat.strong_induction_on generalizing later entry before with
  | h n ih =>
    refine hstep entry before h.head fun middle other earlier hbefore => ?_
    subst hbefore
    have hearlier : Founded rests ((later ++ entry :: middle) ++ other :: earlier) := by
      simpa using h
    refine ih earlier.length ?_ hearlier rfl
    simp only [List.length_append, List.length_cons] at hn
    omega

end Aetus.Base
