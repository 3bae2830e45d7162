import Mathlib.Data.List.Lex
import Mathlib.Data.Nat.Basic
import Mathlib.Tactic.Positivity

/-!
Decimal numbers of a fixed width. Texts that begin with them are ordered as the numbers are.
-/

set_option autoImplicit false

namespace Aetus.Base

/-- A number below `10 ^ width`, with zeros in front. -/
def paddedDigits : (width : Nat) → Nat → List Char
  | 0, _ => []
  | width + 1, n => Nat.digitChar (n / 10 ^ width) :: paddedDigits width (n % 10 ^ width)

@[simp] theorem length_paddedDigits (width n : Nat) : (paddedDigits width n).length = width := by
  induction width generalizing n with
  | zero => rfl
  | succ width ih => rw [paddedDigits, List.length_cons, ih]

theorem digitChar_lt_iff {m n : Nat} (hm : m < 10) (hn : n < 10) :
    Nat.digitChar m < Nat.digitChar n ↔ m < n := by
  have hall : ∀ m < 10, ∀ n < 10, Nat.digitChar m < Nat.digitChar n ↔ m < n := by decide
  exact hall m hm n hn

theorem digitChar_inj {m n : Nat} (hm : m < 10) (hn : n < 10) :
    Nat.digitChar m = Nat.digitChar n ↔ m = n := by
  have hall : ∀ m < 10, ∀ n < 10, Nat.digitChar m = Nat.digitChar n ↔ m = n := by decide
  exact hall m hm n hn

theorem div_lt_ten {width n : Nat} (h : n < 10 ^ (width + 1)) : n / 10 ^ width < 10 := by
  rw [Nat.div_lt_iff_lt_mul (by positivity), Nat.mul_comm]
  exact h

theorem paddedDigits_isDigit {width n : Nat} (hn : n < 10 ^ width) {c : Char}
    (h : c ∈ paddedDigits width n) : c.isDigit = true := by
  induction width generalizing n with
  | zero => cases h
  | succ width ih =>
    rcases List.mem_cons.mp h with rfl | hrest
    · have hall : ∀ d < 10, (Nat.digitChar d).isDigit = true := by decide
      exact hall _ (div_lt_ten hn)
    · exact ih (Nat.mod_lt n (by positivity)) hrest

theorem lt_iff_div_mod (base m n : Nat) :
    m < n ↔ m / base < n / base ∨ m / base = n / base ∧ m % base < n % base := by
  have hm := Nat.div_add_mod m base
  have hn := Nat.div_add_mod n base
  constructor
  · intro h
    rcases (Nat.div_le_div_right (c := base) h.le).lt_or_eq with hlt | heq
    · exact .inl hlt
    · rw [heq] at hm
      exact .inr ⟨heq, by omega⟩
  · rintro (hlt | ⟨heq, hlt⟩)
    · exact Nat.lt_of_div_lt_div hlt
    · rw [heq] at hm
      omega

theorem eq_iff_div_mod (base m n : Nat) :
    m = n ↔ m / base = n / base ∧ m % base = n % base := by
  constructor
  · rintro rfl
    exact ⟨rfl, rfl⟩
  · intro ⟨hdiv, hmod⟩
    rw [← Nat.div_add_mod m base, ← Nat.div_add_mod n base, hdiv, hmod]

/-- Two texts that begin with numbers of one width: the numbers decide, then the rest. -/
theorem paddedDigits_append_lt_iff {width m n : Nat} (hm : m < 10 ^ width) (hn : n < 10 ^ width)
    (x y : List Char) :
    paddedDigits width m ++ x < paddedDigits width n ++ y ↔ m < n ∨ m = n ∧ x < y := by
  induction width generalizing m n with
  | zero =>
    rw [Nat.pow_zero, Nat.lt_one_iff] at hm hn
    rw [hm, hn]
    simp [paddedDigits]
  | succ width ih =>
    have hpos : 10 ^ width > 0 := by positivity
    have hrest := ih (Nat.mod_lt m hpos) (Nat.mod_lt n hpos)
    rw [paddedDigits, paddedDigits, List.cons_append, List.cons_append, List.cons_lt_cons_iff,
      digitChar_lt_iff (div_lt_ten hm) (div_lt_ten hn),
      digitChar_inj (div_lt_ten hm) (div_lt_ten hn), hrest, lt_iff_div_mod (10 ^ width) m n,
      eq_iff_div_mod (10 ^ width) m n]
    tauto

end Aetus.Base
