import Aetus.Base.CString

/-!
ASCII text as bytes and as characters, and lower-case hexadecimal.
-/

set_option autoImplicit false

namespace Aetus.Base

def latin1 (bytes : List UInt8) : List Char := bytes.map Char.ofUInt8

@[simp] theorem utf8_nil : utf8 [] = [] := rfl

@[simp] theorem utf8_append (xs ys : List Char) : utf8 (xs ++ ys) = utf8 xs ++ utf8 ys :=
  List.flatMap_append

theorem utf8_cons (c : Char) (cs : List Char) :
    utf8 (c :: cs) = String.utf8EncodeChar c ++ utf8 cs := rfl

/-- Decoding the first character back, UTF-8 is read in one way only. -/
theorem utf8_injective : Function.Injective utf8 := by
  intro cs
  induction cs with
  | nil =>
    intro ds h
    cases ds with
    | nil => rfl
    | cons d ds => simp [utf8_cons] at h
  | cons c cs ih =>
    intro ds h
    cases ds with
    | nil => simp [utf8_cons] at h
    | cons d ds =>
      have hbytes := congrArg List.toByteArray h
      rw [utf8_cons, utf8_cons, List.toByteArray_append, List.toByteArray_append] at hbytes
      have hdecode := congrArg (fun b => b.utf8DecodeChar? 0) hbytes
      simp only [ByteArray.utf8DecodeChar?_utf8EncodeChar_append, Option.some.injEq] at hdecode
      subst hdecode
      rw [utf8_cons, utf8_cons, List.append_cancel_left_eq] at h
      rw [ih h]

@[simp] theorem ofUInt8_val_toNat (b : UInt8) : (Char.ofUInt8 b).val.toNat = b.toNat :=
  UInt8.toNat_toUInt32 b

theorem ofUInt8_utf8Size_eq_one_iff {b : UInt8} : (Char.ofUInt8 b).utf8Size = 1 ↔ b < 128 := by
  have hmax : (127 : UInt32).toNat = 127 := rfl
  have hbound : (128 : UInt8).toNat = 128 := rfl
  rw [Char.utf8Size_eq_one_iff, UInt32.le_iff_toNat_le, ofUInt8_val_toNat, UInt8.lt_iff_toNat_lt]
  omega

theorem utf8EncodeChar_ofUInt8 {b : UInt8} (hb : b < 128) :
    String.utf8EncodeChar (Char.ofUInt8 b) = [b] := by
  have hbyte : (Char.ofUInt8 b).val.toUInt8 = b := by
    have hlt := b.toNat_lt
    apply UInt8.toNat_inj.mp
    rw [UInt32.toNat_toUInt8, ofUInt8_val_toNat]
    omega
  rw [String.utf8EncodeChar_eq_singleton (ofUInt8_utf8Size_eq_one_iff.mpr hb), hbyte]

theorem utf8_latin1 {bytes : List UInt8} (h : ∀ b ∈ bytes, b < 128) :
    utf8 (latin1 bytes) = bytes := by
  induction bytes with
  | nil => rfl
  | cons b bytes ih =>
    have hrest := ih fun x hx => h x (List.mem_cons_of_mem _ hx)
    rw [latin1, List.map_cons, utf8_cons, utf8EncodeChar_ofUInt8 (h b List.mem_cons_self)]
    rw [latin1] at hrest
    rw [hrest]
    rfl

theorem length_le_utf8_latin1 (bytes : List UInt8) :
    bytes.length ≤ (utf8 (latin1 bytes)).length := by
  induction bytes with
  | nil => simp [latin1]
  | cons b bytes ih =>
    have hpos := (Char.ofUInt8 b).utf8Size_pos
    rw [latin1, List.map_cons, utf8_cons, List.length_append, String.length_utf8EncodeChar]
    rw [latin1] at ih
    rw [List.length_cons]
    omega

/-- Outside ASCII the encoding is longer than the text was. -/
theorem ascii_of_length_utf8_latin1 {bytes : List UInt8}
    (h : (utf8 (latin1 bytes)).length = bytes.length) : ∀ b ∈ bytes, b < 128 := by
  induction bytes with
  | nil => simp
  | cons b bytes ih =>
    have hpos := (Char.ofUInt8 b).utf8Size_pos
    have hrest := length_le_utf8_latin1 bytes
    rw [latin1, List.map_cons, utf8_cons, List.length_append, String.length_utf8EncodeChar,
      List.length_cons] at h
    rw [latin1] at hrest ih
    intro x hx
    rcases List.mem_cons.mp hx with rfl | hx
    · exact ofUInt8_utf8Size_eq_one_iff.mp (by omega)
    · exact ih (by omega) x hx

/-- UTF-8 and Latin-1 read the same text from `bytes` exactly when it is in ASCII. -/
theorem eq_latin1_iff {cs : List Char} {bytes : List UInt8} (h : utf8 cs = bytes) :
    cs = latin1 bytes ↔ ∀ b ∈ bytes, b < 128 := by
  constructor
  · intro hcs
    exact ascii_of_length_utf8_latin1 (congrArg List.length (hcs ▸ h))
  · intro hascii
    exact utf8_injective (h.trans (utf8_latin1 hascii).symm)

theorem latin1_utf8EncodeChar {c : Char} (hc : c.toNat < 128) :
    latin1 (String.utf8EncodeChar c) = [c] := by
  have hbyte : c.toNat.toUInt8 < 128 := by
    rw [UInt8.lt_iff_toNat_lt]
    have hmod : c.toNat.toUInt8.toNat = c.toNat % 256 := by simp
    have hbound : (128 : UInt8).toNat = 128 := rfl
    omega
  have hchar : Char.ofUInt8 c.toNat.toUInt8 = c := by
    apply Char.ext
    apply UInt32.toNat_inj.mp
    rw [ofUInt8_val_toNat]
    have hmod : c.toNat.toUInt8.toNat = c.toNat % 256 := by simp
    have hval : c.toNat = c.val.toNat := rfl
    omega
  rw [← hchar, utf8EncodeChar_ofUInt8 hbyte]
  rfl

theorem latin1_utf8 {cs : List Char} (h : ∀ c ∈ cs, c.toNat < 128) : latin1 (utf8 cs) = cs := by
  induction cs with
  | nil => rfl
  | cons c cs ih =>
    have hhead := latin1_utf8EncodeChar (h c List.mem_cons_self)
    have htail := ih fun x hx => h x (List.mem_cons_of_mem _ hx)
    rw [latin1] at hhead htail
    rw [utf8_cons, latin1, List.map_append, hhead, htail]
    rfl

theorem utf8_of_ascii {cs : List Char} (h : ∀ c ∈ cs, c.toNat < 128) :
    utf8 cs = cs.map fun c => UInt8.ofNat c.toNat := by
  have hcode (b : UInt8) : UInt8.ofNat (Char.ofUInt8 b).toNat = b := UInt8.ofNat_toNat
  have hback : (latin1 (utf8 cs)).map (fun c => UInt8.ofNat c.toNat) = utf8 cs := by
    simp [latin1, Function.comp_def, hcode]
  rw [latin1_utf8 h] at hback
  exact hback.symm

theorem length_utf8_of_ascii {cs : List Char} (h : ∀ c ∈ cs, c.toNat < 128) :
    (utf8 cs).length = cs.length := by
  rw [utf8_of_ascii h, List.length_map]

theorem isDigit_toNat {c : Char} (h : c.isDigit = true) : 48 ≤ c.toNat ∧ c.toNat ≤ 57 := by
  simp only [Char.isDigit, Bool.and_eq_true, decide_eq_true_eq, ge_iff_le,
    UInt32.le_iff_toNat_le] at h
  exact h

theorem ascii_toDigits (n : Nat) : ∀ c ∈ Nat.toDigits 10 n, c.toNat < 128 := by
  intro c hc
  have hcode := isDigit_toNat (Nat.isDigit_of_mem_toDigits (by decide) (by decide) hc)
  omega

def hexDigit (n : Nat) : Char := "0123456789abcdef".toList.getD n '0'

def hexByte (b : UInt8) : List Char := [hexDigit (b.toNat / 16), hexDigit (b.toNat % 16)]

def hexText (bytes : List UInt8) : List Char := bytes.flatMap hexByte

def isHexDigit (c : Char) : Bool :=
  ('0' ≤ c && c ≤ '9') || ('a' ≤ c && c ≤ 'f') || ('A' ≤ c && c ≤ 'F')

theorem hexText_length (bytes : List UInt8) : (hexText bytes).length = 2 * bytes.length := by
  induction bytes with
  | nil => rfl
  | cons b bytes ih =>
    simp only [hexText, List.flatMap_cons, List.length_append] at ih ⊢
    simp only [hexByte, List.length_cons, List.length_nil, ih]
    omega

theorem hexText_forall {Q : Char → Prop} (h : ∀ n < 16, Q (hexDigit n)) (bytes : List UInt8) :
    ∀ c ∈ hexText bytes, Q c := by
  intro c hc
  obtain ⟨b, _, hb⟩ := List.mem_flatMap.mp hc
  have hlt := b.toNat_lt
  rcases List.mem_cons.mp hb with rfl | hb
  · exact h _ (by omega)
  · obtain rfl := List.mem_singleton.mp hb
    exact h _ (by omega)

theorem hexText_isHexDigit (bytes : List UInt8) : ∀ c ∈ hexText bytes, isHexDigit c = true :=
  hexText_forall (by decide) bytes

theorem toLower_toNat (c : Char) : c.toLower.toNat =
    if 65 ≤ c.toNat ∧ c.toNat ≤ 90 then c.toNat + 32 else c.toNat := by
  unfold Char.toLower
  split
  · next h =>
    obtain ⟨hlow, hhigh⟩ := h
    have hlow' : 65 ≤ c.val.toNat := hlow
    have hhigh' : c.val.toNat ≤ 90 := hhigh
    rw [if_pos ⟨hlow', hhigh'⟩]
    show (c.val + 32).toNat = c.val.toNat + 32
    rw [UInt32.toNat_add]
    have h32 : (32 : UInt32).toNat = 32 := rfl
    omega
  · next h => rw [if_neg fun hc => h ⟨hc.1, hc.2⟩]

theorem hexText_toLower (bytes : List UInt8) :
    (hexText bytes).map Char.toLower = hexText bytes := by
  have hlower := hexText_forall (Q := fun c => c.toLower = c) (by decide) bytes
  exact (List.map_congr_left hlower).trans (List.map_id _)

theorem utf8_hexText_length (bytes : List UInt8) :
    (utf8 (hexText bytes)).length = 2 * bytes.length := by
  have hone := hexText_forall (Q := fun c => (String.utf8EncodeChar c).length = 1) (by decide) bytes
  rw [← hexText_length]
  generalize hexText bytes = cs at hone
  induction cs with
  | nil => rfl
  | cons c cs ih =>
    rw [utf8_cons, List.length_append, hone c List.mem_cons_self,
      ih fun x hx => hone x (List.mem_cons_of_mem _ hx), List.length_cons]
    omega

theorem utf8_hexText_nonzero (bytes : List UInt8) : (0 : UInt8) ∉ utf8 (hexText bytes) := by
  have hne := hexText_forall (Q := fun c => (0 : UInt8) ∉ String.utf8EncodeChar c) (by decide) bytes
  intro h0
  obtain ⟨c, hc, hb⟩ := List.mem_flatMap.mp h0
  exact hne c hc hb

end Aetus.Base
