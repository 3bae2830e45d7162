import Aetus.Base.Ascii
import Aetus.Base.Json

/-!
Percent-encoded texts, and texts that are joined by a separator that they do not have.
-/

set_option autoImplicit false

namespace Aetus.Base

def isUnreserved (c : Char) : Bool :=
  c.isAlphanum || c = '_' || c = '.' || c = '-' || c = '~'

def upperHexDigit (n : Nat) : Char :=
  if n < 10 then Char.ofNat (48 + n) else Char.ofNat (55 + n)

def quoteByte (b : UInt8) : List Char :=
  if isUnreserved (Char.ofUInt8 b) then [Char.ofUInt8 b]
  else ['%', upperHexDigit (b.toNat / 16), upperHexDigit (b.toNat % 16)]

/-- `urllib.parse.quote(text, safe="")` -/
def quote (text : List Char) : List Char := (utf8 text).flatMap quoteByte

def upperHexValue (c : Char) : Nat := if c.toNat < 58 then c.toNat - 48 else c.toNat - 55

def unquote : List Char → List UInt8
  | '%' :: high :: low :: text =>
    UInt8.ofNat (16 * upperHexValue high + upperHexValue low) :: unquote text
  | c :: text => UInt8.ofNat c.toNat :: unquote text
  | [] => []

theorem quoteByte_cases (b : UInt8) :
    (∃ c, quoteByte b = [c] ∧ c ≠ '%' ∧ c ≠ ':' ∧ UInt8.ofNat c.toNat = b) ∨
    ∃ high low, quoteByte b = ['%', high, low] ∧ high ≠ ':' ∧ low ≠ ':' ∧
      UInt8.ofNat (16 * upperHexValue high + upperHexValue low) = b := by
  have hall : ∀ n : Fin 256, let b := UInt8.ofFin n
      (isUnreserved (Char.ofUInt8 b) = true → Char.ofUInt8 b ≠ '%' ∧ Char.ofUInt8 b ≠ ':' ∧
        UInt8.ofNat (Char.ofUInt8 b).toNat = b) ∧
      upperHexDigit (b.toNat / 16) ≠ ':' ∧ upperHexDigit (b.toNat % 16) ≠ ':' ∧
      UInt8.ofNat (16 * upperHexValue (upperHexDigit (b.toNat / 16)) +
        upperHexValue (upperHexDigit (b.toNat % 16))) = b := by decide +kernel
  obtain ⟨hplain, hhigh, hlow, hvalue⟩ := hall b.toFin
  unfold quoteByte
  split
  · next hc => exact .inl ⟨_, rfl, hplain hc⟩
  · exact .inr ⟨_, _, rfl, hhigh, hlow, hvalue⟩

theorem unquote_quoteByte (b : UInt8) (text : List Char) :
    unquote (quoteByte b ++ text) = b :: unquote text := by
  rcases quoteByte_cases b with ⟨c, hquote, hne, -, hvalue⟩ | ⟨high, low, hquote, -, -, hvalue⟩
  · rw [hquote, List.singleton_append, unquote, hvalue]
    simp [hne]
  · rw [hquote]
    simp [unquote, hvalue]

theorem unquote_quote (text : List Char) : unquote (quote text) = utf8 text := by
  rw [quote]
  induction utf8 text with
  | nil => rfl
  | cons b bytes ih => rw [List.flatMap_cons, unquote_quoteByte, ih]

theorem quote_injective : Function.Injective quote := fun s t h => by
  apply utf8_injective
  rw [← unquote_quote, h, unquote_quote]

theorem colon_not_mem_quote (text : List Char) : ':' ∉ quote text := by
  intro hmem
  obtain ⟨b, -, hb⟩ := List.mem_flatMap.mp hmem
  rcases quoteByte_cases b with ⟨c, hquote, -, hcolon, -⟩ | ⟨high, low, hquote, hhigh, hlow, -⟩
  · simp [hquote, Ne.symm hcolon] at hb
  · simp [hquote, Ne.symm hhigh, Ne.symm hlow] at hb

variable {α : Type} {sep : α}

/-- The first separator ends the first text. -/
theorem append_sep_inj {xs ys xs' ys' : List α} (hxs : sep ∉ xs) (hys : sep ∉ ys)
    (h : xs ++ sep :: xs' = ys ++ sep :: ys') : xs = ys ∧ xs' = ys' := by
  induction xs generalizing ys with
  | nil =>
    cases ys with
    | nil => simpa using h
    | cons y ys =>
      rw [List.nil_append, List.cons_append] at h
      exact absurd (List.cons.inj h).1 (List.ne_of_not_mem_cons hys)
  | cons x xs ih =>
    cases ys with
    | nil =>
      rw [List.nil_append, List.cons_append] at h
      exact absurd (List.cons.inj h).1.symm (List.ne_of_not_mem_cons hxs)
    | cons y ys =>
      simp only [List.cons_append, List.cons.injEq, List.mem_cons, not_or] at h hxs hys
      obtain ⟨rfl, hrest⟩ := ih hxs.2 hys.2 h.2
      exact ⟨by rw [h.1], hrest⟩

/-- The last separator begins the last text. -/
theorem append_sep_inj_right {xs ys xs' ys' : List α} (hxs : sep ∉ xs') (hys : sep ∉ ys')
    (h : xs ++ sep :: xs' = ys ++ sep :: ys') : xs = ys ∧ xs' = ys' := by
  have hrev := congrArg List.reverse h
  simp only [List.reverse_append, List.reverse_cons, List.append_assoc, List.singleton_append] at hrev
  obtain ⟨hlast, hfirst⟩ := append_sep_inj (by simpa using hxs) (by simpa using hys) hrev
  exact ⟨List.reverse_injective hfirst, List.reverse_injective hlast⟩

theorem dumpsInt_injective : Function.Injective Json.dumpsInt := by
  have hminus (n : Nat) : '-' ∉ Nat.toDigits 10 n := fun hmem =>
    absurd (Nat.isDigit_of_mem_toDigits (by decide) (by decide) hmem) (by decide)
  have hdigits {m n : Nat} (h : Nat.toDigits 10 m = Nat.toDigits 10 n) : m = n := by
    rw [← Nat.ofDigitChars_ten_toDigits (n := m), h, Nat.ofDigitChars_ten_toDigits]
  intro m n h
  unfold Json.dumpsInt at h
  split at h <;> split at h
  · have := hdigits (List.cons.inj h).2
    omega
  · exact absurd (h ▸ List.mem_cons_self) (hminus _)
  · exact absurd (h ▸ List.mem_cons_self) (hminus _)
  · have := hdigits h
    omega

theorem colon_not_mem_dumpsInt (n : Int) : ':' ∉ Json.dumpsInt n := by
  have hdigits (n : Nat) : ':' ∉ Nat.toDigits 10 n := fun hmem =>
    absurd (Nat.isDigit_of_mem_toDigits (by decide) (by decide) hmem) (by decide)
  unfold Json.dumpsInt
  split <;> simp [hdigits]

end Aetus.Base
