import Aetus.Base.CString

/-!
Base64 with padding, as RFC 4648 writes it.
-/

set_option autoImplicit false

namespace Aetus.Base

def BASE64_ALPHABET : List Char :=
  "ABCDEFGHIJKLMNOPQRSTUVWXYZabcdefghijklmnopqrstuvwxyz0123456789+/".toList

def base64Char (n : Nat) : Char := BASE64_ALPHABET.getD n 'A'

def b64encode : List UInt8 → List Char
  | [] => []
  | [a] => [base64Char (a.toNat / 4), base64Char (a.toNat % 4 * 16), '=', '=']
  | [a, b] =>
    [base64Char (a.toNat / 4), base64Char (a.toNat % 4 * 16 + b.toNat / 16),
      base64Char (b.toNat % 16 * 4), '=']
  | a :: b :: c :: rest =>
    base64Char (a.toNat / 4) :: base64Char (a.toNat % 4 * 16 + b.toNat / 16) ::
      base64Char (b.toNat % 16 * 4 + c.toNat / 64) :: base64Char (c.toNat % 64) :: b64encode rest

def base64Value (c : Char) : Option Nat := BASE64_ALPHABET.idxOf? c

def b64decodeQuads : List Char → Option (List UInt8)
  | [] => some []
  | a :: b :: c :: d :: rest => do
    let x ← base64Value a
    let y ← base64Value b
    let first := UInt8.ofNat (x * 4 + y / 16)
    if rest = [] ∧ c = '=' ∧ d = '=' then return [first]
    let z ← base64Value c
    let second := UInt8.ofNat (y % 16 * 16 + z / 4)
    if rest = [] ∧ d = '=' then return [first, second]
    let w ← base64Value d
    let bytes ← b64decodeQuads rest
    return first :: second :: UInt8.ofNat (z % 4 * 64 + w) :: bytes
  | _ => none

def isBlank (c : Char) : Bool := c = ' ' ∨ c = '\t' ∨ c = '\n' ∨ c = '\r'

/-- Blanks are skipped, as RFC 2045 has it. -/
def b64decode (text : List Char) : Option (List UInt8) :=
  b64decodeQuads (text.filter fun c => !isBlank c)

@[simp] theorem base64Value_base64Char {n : Nat} (h : n < 64) :
    base64Value (base64Char n) = some n := by
  have hall : ∀ n < 64, base64Value (base64Char n) = some n := by decide +kernel
  exact hall n h

theorem base64Char_mem (n : Nat) : base64Char n ∈ BASE64_ALPHABET := by
  unfold base64Char
  cases h : BASE64_ALPHABET[n]? with
  | none =>
    rw [List.getD_eq_getElem?_getD, h]
    decide
  | some c =>
    rw [List.getD_eq_getElem?_getD, h]
    exact List.mem_of_getElem? h

@[simp] theorem isBlank_base64Char (n : Nat) : isBlank (base64Char n) = false := by
  have hall : BASE64_ALPHABET.all (fun c => !isBlank c) = true := by decide +kernel
  simpa using List.all_eq_true.mp hall _ (base64Char_mem n)

@[simp] theorem isBlank_pad : isBlank '=' = false := rfl

@[simp] theorem base64Char_ne_pad (n : Nat) : base64Char n ≠ '=' := by
  have hall : BASE64_ALPHABET.all (· ≠ '=') = true := by decide +kernel
  simpa using List.all_eq_true.mp hall _ (base64Char_mem n)

theorem not_isBlank_b64encode (bytes : List UInt8) :
    ∀ c ∈ b64encode bytes, isBlank c = false := by
  fun_induction b64encode bytes with
  | case1 => simp
  | case2 a => simp
  | case3 a b => simp
  | case4 a b c rest ih => simpa using ih

theorem b64decodeQuads_b64encode (bytes : List UInt8) :
    b64decodeQuads (b64encode bytes) = some bytes := by
  fun_induction b64encode bytes with
  | case1 => rfl
  | case2 a =>
    have ha := a.toNat_lt
    have hx : a.toNat / 4 < 64 := by omega
    have hy : a.toNat % 4 * 16 < 64 := by omega
    have hfirst : a.toNat / 4 * 4 + a.toNat % 4 * 16 / 16 = a.toNat := by omega
    simp only [b64decodeQuads, base64Value_base64Char hx, base64Value_base64Char hy,
      Option.bind_eq_bind, Option.bind_some, hfirst, UInt8.ofNat_toNat, and_self, if_true]
    rfl
  | case3 a b => 
    have ha := a.toNat_lt
    have hb := b.toNat_lt
    have hx : a.toNat / 4 < 64 := by omega
    have hy : a.toNat % 4 * 16 + b.toNat / 16 < 64 := by omega
    have hz : b.toNat % 16 * 4 < 64 := by omega
    have hfirst : a.toNat / 4 * 4 + (a.toNat % 4 * 16 + b.toNat / 16) / 16 = a.toNat := by omega
    have hsecond : (a.toNat % 4 * 16 + b.toNat / 16) % 16 * 16 + b.toNat % 16 * 4 / 4 = b.toNat := by
      omega
    simp only [b64decodeQuads, base64Value_base64Char hx, base64Value_base64Char hy,
      base64Value_base64Char hz, base64Char_ne_pad, Option.bind_eq_bind, Option.bind_some, hfirst,
      hsecond, UInt8.ofNat_toNat, and_self, false_and, and_false, if_true, if_false]
    rfl
  | case4 a b c rest ih =>
    have ha := a.toNat_lt
    have hb := b.toNat_lt
    have hc := c.toNat_lt
    have hx : a.toNat / 4 < 64 := by omega
    have hy : a.toNat % 4 * 16 + b.toNat / 16 < 64 := by omega
    have hz : b.toNat % 16 * 4 + c.toNat / 64 < 64 := by omega
    have hw : c.toNat % 64 < 64 := by omega
    have hfirst : a.toNat / 4 * 4 + (a.toNat % 4 * 16 + b.toNat / 16) / 16 = a.toNat := by omega
    have hsecond : (a.toNat % 4 * 16 + b.toNat / 16) % 16 * 16 +
        (b.toNat % 16 * 4 + c.toNat / 64) / 4 = b.toNat := by omega
    have hthird : (b.toNat % 16 * 4 + c.toNat / 64) % 4 * 64 + c.toNat % 64 = c.toNat := by omega
    simp only [b64decodeQuads, base64Value_base64Char hx, base64Value_base64Char hy,
      base64Value_base64Char hz, base64Value_base64Char hw, base64Char_ne_pad, Option.bind_eq_bind,
      Option.bind_some, hfirst, hsecond, hthird, ih, UInt8.ofNat_toNat, and_false, if_false]
    rfl

theorem b64decode_b64encode (bytes : List UInt8) : b64decode (b64encode bytes) = some bytes := by
  have hkept : (b64encode bytes).filter (fun c => !isBlank c) = b64encode bytes :=
    List.filter_eq_self.mpr fun c hc => by rw [not_isBlank_b64encode bytes c hc, Bool.not_false]
  rw [b64decode, hkept, b64decodeQuads_b64encode]

end Aetus.Base
