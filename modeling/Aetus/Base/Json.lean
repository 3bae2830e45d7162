import Aetus.Base.Ascii

/-!
JSON values with IEEE doubles, the text that Python's `json.dumps` makes of them with
compact separators and ASCII output, and a recognizer of RFC 8259 texts.
-/

set_option autoImplicit false

namespace Aetus.Base

namespace JsonText

def digits : List Char → Option (List Char)
  | c :: rest => if c.isDigit then some (rest.dropWhile Char.isDigit) else none
  | [] => none

def int : List Char → Option (List Char)
  | '0' :: rest => some rest
  | text => digits text

def frac : List Char → Option (List Char)
  | '.' :: rest => digits rest
  | text => some text

def sign : List Char → List Char
  | '+' :: rest | '-' :: rest => rest
  | text => text

def exp : List Char → Option (List Char)
  | 'e' :: rest | 'E' :: rest => digits (sign rest)
  | text => some text

def unsigned (text : List Char) : Option (List Char) :=
  (int text).bind fun text => (frac text).bind exp

def number : List Char → Option (List Char)
  | '-' :: rest => unsigned rest
  | text => unsigned text

/-- What is left of a text after a string whose opening quote has been read. -/
def string : List Char → Option (List Char)
  | '"' :: rest => some rest
  | '\\' :: 'u' :: a :: b :: c :: d :: rest =>
    if [a, b, c, d].all isHexDigit then string rest else none
  | '\\' :: c :: rest => if c ∈ "\"\\/bfnrt".toList then string rest else none
  | c :: rest => if ' ' ≤ c ∧ c ≠ '\\' then string rest else none
  | [] => none

def skipBlanks (text : List Char) : List Char :=
  text.dropWhile fun c => c = ' ' || c = '\t' || c = '\n' || c = '\r'

inductive Part where
  | value
  | items
  | members

def rest : Nat → Part → List Char → Option (List Char)
  | 0, _, _ => none
  | fuel + 1, .value, text =>
    match skipBlanks text with
    | 'n' :: 'u' :: 'l' :: 'l' :: text => some text
    | 't' :: 'r' :: 'u' :: 'e' :: text => some text
    | 'f' :: 'a' :: 'l' :: 's' :: 'e' :: text => some text
    | '"' :: text => string text
    | '[' :: text =>
      match skipBlanks text with
      | ']' :: text => some text
      | text => rest fuel .items text
    | '{' :: text =>
      match skipBlanks text with
      | '}' :: text => some text
      | text => rest fuel .members text
    | text => number text
  | fuel + 1, .items, text =>
    (rest fuel .value text).bind fun text =>
      match skipBlanks text with
      | ',' :: text => rest fuel .items text
      | ']' :: text => some text
      | _ => none
  | fuel + 1, .members, text =>
    match skipBlanks text with
    | '"' :: text =>
      (string text).bind fun text =>
        match skipBlanks text with
        | ':' :: text =>
          (rest fuel .value text).bind fun text =>
            match skipBlanks text with
            | ',' :: text => rest fuel .members text
            | '}' :: text => some text
            | _ => none
        | _ => none
    | _ => none

end JsonText

/-- A text of RFC 8259. A value takes at most two calls for each of its characters. -/
def isJson (text : List Char) : Bool :=
  ((JsonText.rest (2 * text.length) .value text).map JsonText.skipBlanks) = some []

/-- A finite double, as the text that `repr` gives it. -/
structure FiniteDouble where
  repr : List Char
  isNumber : JsonText.number repr = some []
  deriving DecidableEq

inductive Double where
  | finite (x : FiniteDouble)
  | infinity
  | negInfinity
  | nan
  deriving DecidableEq

def Double.isFinite : Double → Bool
  | .finite _ => true
  | _ => false

inductive Json where
  | null
  | bool (b : Bool)
  | int (n : Int)
  | float (x : Double)
  | string (text : List Char)
  | array (items : List Json)
  | object (members : List (List Char × Json))

namespace Json

def hex4 (n : Nat) : List Char :=
  [hexDigit (n / 4096 % 16), hexDigit (n / 256 % 16), hexDigit (n / 16 % 16), hexDigit (n % 16)]

/-- A character beyond 16 bits is escaped as a surrogate pair. -/
def escape (c : Char) : List Char :=
  if c = '"' then "\\\"".toList
  else if c = '\\' then "\\\\".toList
  else if c = '\n' then "\\n".toList
  else if c = '\r' then "\\r".toList
  else if c = '\t' then "\\t".toList
  else if c = '\x0c' then "\\f".toList
  else if c = '\x08' then "\\b".toList
  else if ' ' ≤ c ∧ c ≤ '~' then [c]
  else if c.toNat < 0x10000 then '\\' :: 'u' :: hex4 c.toNat
  else
    let n := c.toNat - 0x10000
    '\\' :: 'u' :: hex4 (0xd800 + n / 0x400) ++ '\\' :: 'u' :: hex4 (0xdc00 + n % 0x400)

def dumpsString (text : List Char) : List Char :=
  '"' :: (text.flatMap escape ++ ['"'])

def dumpsDouble : Double → List Char
  | .finite x => x.repr
  | .infinity => "Infinity".toList
  | .negInfinity => "-Infinity".toList
  | .nan => "NaN".toList

def dumpsInt (n : Int) : List Char :=
  if n < 0 then '-' :: Nat.toDigits 10 n.natAbs else Nat.toDigits 10 n.natAbs

mutual
def dumps : Json → List Char
  | .null => "null".toList
  | .bool b => if b then "true".toList else "false".toList
  | .int n => dumpsInt n
  | .float x => dumpsDouble x
  | .string text => dumpsString text
  | .array items => '[' :: (dumpsItems items ++ [']'])
  | .object members => '{' :: (dumpsMembers members ++ ['}'])

def dumpsItems : List Json → List Char
  | [] => []
  | [item] => item.dumps
  | item :: next :: items => item.dumps ++ ',' :: dumpsItems (next :: items)

def dumpsMembers : List (List Char × Json) → List Char
  | [] => []
  | [(key, item)] => dumpsString key ++ ':' :: item.dumps
  | (key, item) :: next :: members =>
    dumpsString key ++ ':' :: (item.dumps ++ ',' :: dumpsMembers (next :: members))
end

mutual
def isFinite : Json → Bool
  | .float x => x.isFinite
  | .array items => itemsFinite items
  | .object members => membersFinite members
  | _ => true

def itemsFinite : List Json → Bool
  | [] => true
  | item :: items => item.isFinite && itemsFinite items

def membersFinite : List (List Char × Json) → Bool
  | [] => true
  | (_, item) :: members => item.isFinite && membersFinite members
end

end Json

/-! Numbers -/

def Delimited (tail : List Char) : Prop :=
  ∀ c rest, tail = c :: rest → c = ',' ∨ c = ']' ∨ c = '}'

theorem Delimited.nil : Delimited [] := by
  intro c rest h
  cases h

theorem Delimited.cons {c : Char} (hc : c = ',' ∨ c = ']' ∨ c = '}') (tail : List Char) :
    Delimited (c :: tail) := by
  intro d rest h
  cases h
  exact hc

namespace JsonText

theorem dropWhile_delimited {tail : List Char} (htail : Delimited tail) :
    tail.dropWhile Char.isDigit = tail := by
  cases tail with
  | nil => rfl
  | cons c rest =>
    rw [List.dropWhile_cons_of_neg]
    rcases htail c rest rfl with rfl | rfl | rfl <;> decide

theorem digits_append {text left tail : List Char} (htail : Delimited tail)
    (h : digits text = some left) : digits (text ++ tail) = some (left ++ tail) := by
  cases text with
  | nil => cases h
  | cons c rest =>
    simp only [digits] at h
    split at h
    · next hc =>
      obtain rfl := Option.some.inj h
      rw [List.cons_append, digits, if_pos hc, List.dropWhile_append]
      split
      · next hall => rw [dropWhile_delimited htail, List.isEmpty_iff.mp hall, List.nil_append]
      · rfl
    · cases h

theorem int_append {text left tail : List Char} (htail : Delimited tail)
    (h : int text = some left) : int (text ++ tail) = some (left ++ tail) := by
  unfold int at h
  split at h
  · obtain rfl := Option.some.inj h
    rfl
  · next hzero =>
    have happend := digits_append htail h
    unfold int
    split
    · next rest heq =>
      cases text with
      | nil => cases h
      | cons c cs =>
        obtain ⟨rfl, rfl⟩ := List.cons.inj heq
        exact absurd rfl (hzero cs)
    · exact happend

theorem frac_append {text left tail : List Char} (htail : Delimited tail)
    (h : frac text = some left) : frac (text ++ tail) = some (left ++ tail) := by
  cases text with
  | nil =>
    obtain rfl := Option.some.inj h
    cases tail with
    | nil => rfl
    | cons c rest => rcases htail c rest rfl with rfl | rfl | rfl <;> rfl
  | cons c cs =>
    by_cases hc : c = '.'
    · subst hc
      exact digits_append htail h
    · have hleft : c :: cs = left := by simpa [frac, hc] using h
      subst hleft
      simp [frac, hc]

theorem sign_append {text left tail : List Char} (h : digits (sign text) = some left) :
    sign (text ++ tail) = sign text ++ tail := by
  cases text with
  | nil => cases h
  | cons c cs =>
    by_cases hplus : c = '+'
    · subst hplus
      rfl
    · by_cases hminus : c = '-'
      · subst hminus
        rfl
      · simp [sign, hplus, hminus]

theorem exp_append {text left tail : List Char} (htail : Delimited tail)
    (h : exp text = some left) : exp (text ++ tail) = some (left ++ tail) := by
  cases text with
  | nil =>
    obtain rfl := Option.some.inj h
    cases tail with
    | nil => rfl
    | cons c rest => rcases htail c rest rfl with rfl | rfl | rfl <;> rfl
  | cons c cs =>
    by_cases hc : c = 'e' ∨ c = 'E'
    · have hdigits : digits (sign cs) = some left := by
        rcases hc with rfl | rfl <;> exact h
      have happend : digits (sign (cs ++ tail)) = some (left ++ tail) := by
        rw [sign_append hdigits]
        exact digits_append htail hdigits
      rcases hc with rfl | rfl <;> exact happend
    · rw [not_or] at hc
      have hleft : c :: cs = left := by simpa [exp, hc.1, hc.2] using h
      subst hleft
      simp [exp, hc.1, hc.2]

theorem unsigned_append {text left tail : List Char} (htail : Delimited tail)
    (h : unsigned text = some left) : unsigned (text ++ tail) = some (left ++ tail) := by
  simp only [unsigned, Option.bind_eq_some_iff] at h ⊢
  obtain ⟨afterInt, hint, afterFrac, hfrac, hexp⟩ := h
  exact ⟨_, int_append htail hint, _, frac_append htail hfrac, exp_append htail hexp⟩

theorem number_append {text left tail : List Char} (htail : Delimited tail)
    (h : number text = some left) : number (text ++ tail) = some (left ++ tail) := by
  cases text with
  | nil => cases h
  | cons c cs =>
    by_cases hc : c = '-'
    · subst hc
      exact unsigned_append htail h
    · have hunsigned : unsigned (c :: cs) = some left := by simpa [number, hc] using h
      have happend := unsigned_append htail hunsigned
      simpa [number, hc] using happend

theorem head_of_digits {text left : List Char} (h : digits text = some left) :
    ∃ c cs, text = c :: cs ∧ c.isDigit = true := by
  cases text with
  | nil => cases h
  | cons c cs =>
    simp only [digits] at h
    split at h
    · next hc => exact ⟨c, cs, rfl, hc⟩
    · cases h

theorem head_of_int {text left : List Char} (h : int text = some left) :
    ∃ c cs, text = c :: cs ∧ c.isDigit = true := by
  unfold int at h
  split at h
  · exact ⟨'0', _, rfl, rfl⟩
  · exact head_of_digits h

theorem head_of_number {text left : List Char} (h : number text = some left) :
    ∃ c cs, text = c :: cs ∧ (c = '-' ∨ c.isDigit = true) := by
  unfold number at h
  split at h
  · exact ⟨'-', _, rfl, .inl rfl⟩
  · simp only [unsigned, Option.bind_eq_some_iff] at h
    obtain ⟨left, hint, -⟩ := h
    obtain ⟨c, cs, rfl, hc⟩ := head_of_int hint
    exact ⟨c, cs, rfl, .inr hc⟩

theorem number_digits {c : Char} {cs : List Char} (hdigits : ∀ d ∈ c :: cs, d.isDigit = true)
    (hzero : c = '0' → cs = []) : unsigned (c :: cs) = some [] := by
  have hint : int (c :: cs) = some [] := by
    by_cases hc : c = '0'
    · subst hc
      rw [hzero rfl]
      rfl
    · have hall : cs.dropWhile Char.isDigit = [] := by
        rw [List.dropWhile_eq_nil_iff]
        exact fun d hd => hdigits d (List.mem_cons_of_mem _ hd)
      simp [int, hc, digits, hdigits c List.mem_cons_self, hall]
  rw [unsigned, hint]
  rfl

end JsonText

theorem digitChar_ne_zero : ∀ n < 10, n ≠ 0 → Nat.digitChar n ≠ '0' := by decide

theorem head_toDigits_ne_zero {n : Nat} (hn : n ≠ 0) {c : Char} {cs : List Char}
    (h : Nat.toDigits 10 n = c :: cs) : c ≠ '0' := by
  induction n using Nat.strongRecOn generalizing cs with
  | ind n ih =>
    by_cases hlt : n < 10
    · rw [Nat.toDigits_of_lt_base hlt] at h
      obtain ⟨rfl, -⟩ := List.cons.inj h
      exact digitChar_ne_zero n hlt hn
    · rw [Nat.toDigits_of_base_le (by decide) (by omega)] at h
      cases hdiv : Nat.toDigits 10 (n / 10) with
      | nil => exact absurd hdiv Nat.toDigits_ne_nil
      | cons d ds =>
        rw [hdiv, List.cons_append] at h
        obtain ⟨rfl, -⟩ := List.cons.inj h
        exact ih (n / 10) (by omega) (by omega) hdiv

namespace Json

theorem number_dumpsInt (n : Int) : JsonText.number (dumpsInt n) = some [] := by
  have hunsigned : JsonText.unsigned (Nat.toDigits 10 n.natAbs) = some [] := by
    cases htext : Nat.toDigits 10 n.natAbs with
    | nil => exact absurd htext Nat.toDigits_ne_nil
    | cons c cs =>
      refine JsonText.number_digits (fun d hd => ?_) fun hc => ?_
      · rw [← htext] at hd
        exact Nat.isDigit_of_mem_toDigits (by decide) (by decide) hd
      · by_cases hzero : n.natAbs = 0
        · rw [hzero, Nat.toDigits_zero] at htext
          exact (List.cons.inj htext).2.symm
        · exact absurd hc (head_toDigits_ne_zero hzero htext)
  unfold dumpsInt
  split
  · exact hunsigned
  · cases htext : Nat.toDigits 10 n.natAbs with
    | nil => exact absurd htext Nat.toDigits_ne_nil
    | cons c cs =>
      have hc : c.isDigit = true := by
        refine Nat.isDigit_of_mem_toDigits (b := 10) (n := n.natAbs) (by decide) (by decide) ?_
        rw [htext]
        exact List.mem_cons_self
      have hminus : c ≠ '-' := by
        rintro rfl
        revert hc
        decide
      rw [htext] at hunsigned
      simpa [JsonText.number, hminus] using hunsigned

/-! Strings -/

theorem isHexDigit_hexDigit : ∀ n < 16, isHexDigit (hexDigit n) = true := by decide

theorem string_hex4 (n : Nat) (tail : List Char) :
    JsonText.string ('\\' :: 'u' :: hex4 n ++ tail) = JsonText.string tail := by
  have hhex : (hex4 n).all isHexDigit = true := by
    simp [hex4, isHexDigit_hexDigit _ (Nat.mod_lt _ (by decide : 0 < 16))]
  rw [hex4] at hhex
  rw [hex4, List.cons_append, List.cons_append]
  simp only [List.cons_append, List.nil_append, JsonText.string, hhex, if_true]

theorem string_escape (c : Char) (tail : List Char) :
    JsonText.string (escape c ++ tail) = JsonText.string tail := by
  by_cases hquote : c = '"'
  · subst hquote
    rfl
  by_cases hbackslash : c = '\\'
  · subst hbackslash
    rfl
  by_cases hn : c = '\n'
  · subst hn
    rfl
  by_cases hr : c = '\r'
  · subst hr
    rfl
  by_cases ht : c = '\t'
  · subst ht
    rfl
  by_cases hf : c = '\x0c'
  · subst hf
    rfl
  by_cases hb : c = '\x08'
  · subst hb
    rfl
  rw [escape, if_neg hquote, if_neg hbackslash, if_neg hn, if_neg hr, if_neg ht, if_neg hf,
    if_neg hb]
  split
  · next hprintable => simp [JsonText.string, hbackslash, hprintable.1]
  split
  · exact string_hex4 _ tail
  · simp only [List.append_assoc]
    rw [string_hex4]
    exact string_hex4 _ tail

theorem string_flatMap_escape (text tail : List Char) :
    JsonText.string (text.flatMap escape ++ '"' :: tail) = some tail := by
  induction text with
  | nil => rfl
  | cons c cs ih => rw [List.flatMap_cons, List.append_assoc, string_escape, ih]

/-! Values -/

/-- No value starts with a blank or with what closes a list. -/
def startsValue (c : Char) : Bool :=
  !(c = ' ' || c = '\t' || c = '\n' || c = '\r' || c = ']' || c = '}')

theorem startsValue_number {c : Char} (hc : c = '-' ∨ c.isDigit = true) : startsValue c = true := by
  rcases hc with rfl | hdigit
  · rfl
  · have hne (d : Char) (hd : d.isDigit = false) : c ≠ d := by
      rintro rfl
      rw [hdigit] at hd
      cases hd
    simp [startsValue, hne ' ' rfl, hne '\t' rfl, hne '\n' rfl, hne '\r' rfl, hne ']' rfl,
      hne '}' rfl]

theorem dumps_head (j : Json) : ∃ c cs, j.dumps = c :: cs ∧ startsValue c = true := by
  cases j with
  | null => exact ⟨'n', _, rfl, rfl⟩
  | bool b => cases b <;> exact ⟨_, _, rfl, rfl⟩
  | int n =>
    obtain ⟨c, cs, hcs, hc⟩ := JsonText.head_of_number (number_dumpsInt n)
    exact ⟨c, cs, hcs, startsValue_number hc⟩
  | float x =>
    cases x with
    | finite x =>
      obtain ⟨c, cs, hcs, hc⟩ := JsonText.head_of_number x.isNumber
      exact ⟨c, cs, hcs, startsValue_number hc⟩
    | infinity => exact ⟨'I', _, rfl, rfl⟩
    | negInfinity => exact ⟨'-', _, rfl, rfl⟩
    | nan => exact ⟨'N', _, rfl, rfl⟩
  | string text => exact ⟨'"', _, rfl, rfl⟩
  | array items => exact ⟨'[', _, by rw [dumps], rfl⟩
  | object members => exact ⟨'{', _, by rw [dumps], rfl⟩

theorem skipBlanks_startsValue {c : Char} (hc : startsValue c = true) (cs : List Char) :
    JsonText.skipBlanks (c :: cs) = c :: cs := by
  rw [JsonText.skipBlanks, List.dropWhile_cons_of_neg]
  simp only [startsValue, Bool.not_eq_true', Bool.or_eq_false_iff] at hc
  simp [hc]

theorem rest_number {c : Char} (hc : c = '-' ∨ c.isDigit = true) (fuel : Nat) (cs : List Char) :
    JsonText.rest (fuel + 1) .value (c :: cs) = JsonText.number (c :: cs) := by
  have hne (d : Char) (hd : d.isDigit = false) (hminus : d ≠ '-') : c ≠ d := by
    rintro rfl
    rcases hc with hc | hc
    · exact hminus hc
    · rw [hc] at hd
      cases hd
  rw [JsonText.rest, skipBlanks_startsValue (startsValue_number hc)]
  split
  all_goals first
    | rfl
    | next heq => exact absurd (List.cons.inj heq).1 (hne _ rfl (by decide))

theorem rest_scalar {text left : List Char} {fuel : Nat} {tail : List Char}
    (hnumber : JsonText.number text = some left) (htail : Delimited tail) :
    JsonText.rest (fuel + 1) .value (text ++ tail) = some (left ++ tail) := by
  have happend := JsonText.number_append htail hnumber
  obtain ⟨c, cs, rfl, hc⟩ := JsonText.head_of_number hnumber
  rw [List.cons_append, rest_number hc]
  exact happend

theorem rest_dumpsDouble (x : Double) {fuel : Nat} {tail : List Char} (htail : Delimited tail) :
    JsonText.rest (fuel + 1) .value (dumpsDouble x ++ tail) =
      if x.isFinite then some tail else none := by
  cases x with
  | finite x => exact rest_scalar x.isNumber htail
  | infinity => rfl
  | negInfinity => rfl
  | nan => rfl

theorem skipBlanks_quote (cs : List Char) : JsonText.skipBlanks ('"' :: cs) = '"' :: cs := rfl

theorem dumpsItems_head (item : Json) (items : List Json) :
    ∃ tail, dumpsItems (item :: items) = item.dumps ++ tail := by
  cases items with
  | nil => exact ⟨[], by simp [dumpsItems]⟩
  | cons next items => exact ⟨_, by rw [dumpsItems]⟩

theorem rest_array (item : Json) (items : List Json) (fuel : Nat) (tail : List Char) :
    JsonText.rest (fuel + 1) .value ('[' :: (dumpsItems (item :: items) ++ tail)) =
      JsonText.rest fuel .items (dumpsItems (item :: items) ++ tail) := by
  obtain ⟨more, hmore⟩ := dumpsItems_head item items
  obtain ⟨c, cs, hcs, hc⟩ := item.dumps_head
  have hopen : JsonText.skipBlanks ('[' :: (dumpsItems (item :: items) ++ tail)) =
      '[' :: (dumpsItems (item :: items) ++ tail) := rfl
  rw [JsonText.rest, hopen]
  simp only [hmore, hcs, List.cons_append, skipBlanks_startsValue hc]
  split
  · next heq =>
    obtain ⟨rfl, -⟩ := List.cons.inj heq
    cases hc
  · rfl

theorem dumpsMembers_head (key : List Char) (item : Json) (members : List (List Char × Json)) :
    ∃ tail, dumpsMembers ((key, item) :: members) = '"' :: tail := by
  cases members with
  | nil => exact ⟨_, by rw [dumpsMembers, dumpsString, List.cons_append]⟩
  | cons next members => exact ⟨_, by rw [dumpsMembers, dumpsString, List.cons_append]⟩

theorem rest_object (member : List Char × Json) (members : List (List Char × Json)) (fuel : Nat)
    (tail : List Char) :
    JsonText.rest (fuel + 1) .value ('{' :: (dumpsMembers (member :: members) ++ tail)) =
      JsonText.rest fuel .members (dumpsMembers (member :: members) ++ tail) := by
  obtain ⟨more, hmore⟩ := dumpsMembers_head member.1 member.2 members
  have hopen : JsonText.skipBlanks ('{' :: (dumpsMembers (member :: members) ++ tail)) =
      '{' :: (dumpsMembers (member :: members) ++ tail) := rfl
  rw [JsonText.rest, hopen, hmore]
  rfl

theorem rest_member (key text : List Char) (fuel : Nat) :
    JsonText.rest (fuel + 1) .members (dumpsString key ++ ':' :: text) =
      (JsonText.rest fuel .value text).bind fun text =>
        match JsonText.skipBlanks text with
        | ',' :: text => JsonText.rest fuel .members text
        | '}' :: text => some text
        | _ => none := by
  have hstring := string_flatMap_escape key (':' :: text)
  rw [dumpsString, List.cons_append, List.append_assoc, List.cons_append, List.nil_append,
    JsonText.rest, skipBlanks_quote]
  simp only [hstring, Option.bind_some]
  rfl

mutual
/-- The recognizer reads a dumped value to its end, unless it meets a double without a
JSON number. -/
theorem rest_dumps (j : Json) (fuel : Nat) (tail : List Char)
    (hfuel : 2 * j.dumps.length ≤ fuel) (htail : Delimited tail) :
    JsonText.rest fuel .value (j.dumps ++ tail) = if j.isFinite then some tail else none := by
  obtain ⟨fuel, rfl⟩ : ∃ n, fuel = n + 1 := by
    obtain ⟨c, cs, hcs, -⟩ := j.dumps_head
    rw [hcs, List.length_cons] at hfuel
    exact ⟨fuel - 1, by omega⟩
  cases j with
  | null => rfl
  | bool b => cases b <;> rfl
  | int n => exact rest_scalar (number_dumpsInt n) htail
  | float x => exact rest_dumpsDouble x htail
  | string text =>
    have hstring := string_flatMap_escape text tail
    simpa [dumps, dumpsString, JsonText.rest, skipBlanks_quote, isFinite] using hstring
  | array items =>
    cases items with
    | nil => rfl
    | cons item items =>
      have hlen : 2 * (dumpsItems (item :: items)).length + 1 ≤ fuel := by
        simp only [dumps, List.length_cons, List.length_append, List.length_nil] at hfuel
        omega
      have hitems := rest_dumpsItems item items fuel tail hlen
      rw [dumps, List.cons_append, List.append_assoc, rest_array]
      exact hitems
  | object members =>
    cases members with
    | nil => rfl
    | cons member members =>
      have hlen : 2 * (dumpsMembers (member :: members)).length + 1 ≤ fuel := by
        simp only [dumps, List.length_cons, List.length_append, List.length_nil] at hfuel
        omega
      have hmembers := rest_dumpsMembers member members fuel tail hlen
      rw [dumps, List.cons_append, List.append_assoc, rest_object]
      exact hmembers
termination_by fuel

theorem rest_dumpsItems (item : Json) (items : List Json) (fuel : Nat) (tail : List Char)
    (hfuel : 2 * (dumpsItems (item :: items)).length + 1 ≤ fuel) :
    JsonText.rest fuel .items (dumpsItems (item :: items) ++ ']' :: tail) =
      if itemsFinite (item :: items) then some tail else none := by
  obtain ⟨fuel, rfl⟩ : ∃ n, fuel = n + 1 := ⟨fuel - 1, by omega⟩
  cases items with
  | nil =>
    simp only [dumpsItems] at hfuel
    have hitem := rest_dumps item fuel _ (by omega)
      (Delimited.cons (.inr (.inl rfl)) tail)
    rw [dumpsItems, JsonText.rest, hitem]
    by_cases hfinite : item.isFinite = true <;>
      simp [hfinite, itemsFinite, JsonText.skipBlanks]
  | cons next items =>
    simp only [dumpsItems, List.length_append, List.length_cons] at hfuel
    have hitem := rest_dumps item fuel _ (by omega)
      (Delimited.cons (.inl rfl) (dumpsItems (next :: items) ++ ']' :: tail))
    have hitems := rest_dumpsItems next items fuel tail (by omega)
    rw [dumpsItems, List.append_assoc, List.cons_append, JsonText.rest, hitem]
    by_cases hfinite : item.isFinite = true
    · simpa [hfinite, itemsFinite, JsonText.skipBlanks] using hitems
    · simp [hfinite, itemsFinite]
termination_by fuel

theorem rest_dumpsMembers (member : List Char × Json) (members : List (List Char × Json))
    (fuel : Nat) (tail : List Char)
    (hfuel : 2 * (dumpsMembers (member :: members)).length + 1 ≤ fuel) :
    JsonText.rest fuel .members (dumpsMembers (member :: members) ++ '}' :: tail) =
      if membersFinite (member :: members) then some tail else none := by
  obtain ⟨fuel, rfl⟩ : ∃ n, fuel = n + 1 := ⟨fuel - 1, by omega⟩
  obtain ⟨key, item⟩ := member
  cases members with
  | nil =>
    simp only [dumpsMembers, List.length_append, List.length_cons] at hfuel
    have hitem := rest_dumps item fuel _ (by omega)
      (Delimited.cons (.inr (.inr rfl)) tail)
    rw [dumpsMembers, List.append_assoc, List.cons_append, rest_member, hitem]
    by_cases hfinite : item.isFinite = true <;>
      simp [hfinite, membersFinite, JsonText.skipBlanks]
  | cons next members =>
    simp only [dumpsMembers, List.length_append, List.length_cons] at hfuel
    have hitem := rest_dumps item fuel _ (by omega)
      (Delimited.cons (.inl rfl) (dumpsMembers (next :: members) ++ '}' :: tail))
    have hmembers := rest_dumpsMembers next members fuel tail (by omega)
    rw [dumpsMembers, List.append_assoc, List.cons_append, List.append_assoc, List.cons_append,
      rest_member, hitem]
    by_cases hfinite : item.isFinite = true
    · simpa [hfinite, membersFinite, JsonText.skipBlanks] using hmembers
    · simp [hfinite, membersFinite]
termination_by fuel
end

theorem itemsFinite_eq_all (items : List Json) : itemsFinite items = items.all isFinite := by
  induction items with
  | nil => rfl
  | cons item items ih => rw [itemsFinite, ih, List.all_cons]

/-- The dumped text is JSON exactly when all doubles are finite. -/
theorem isJson_dumps (j : Json) : isJson j.dumps = j.isFinite := by
  have hrest := rest_dumps j _ [] (Nat.le_refl _) Delimited.nil
  rw [List.append_nil] at hrest
  rw [isJson, hrest]
  cases j.isFinite <;> rfl

/-! Plain text -/

def isPlain (c : Char) : Bool := ' ' ≤ c && c ≤ '~' && c ≠ '"' && c ≠ '\\'

theorem escape_plain {c : Char} (h : isPlain c = true) : escape c = [c] := by
  simp only [isPlain, Bool.and_eq_true, decide_eq_true_eq] at h
  obtain ⟨⟨⟨hle, hge⟩, hquote⟩, hslash⟩ := h
  have hlow (d : Char) (hd : ¬ ' ' ≤ d) : c ≠ d := fun heq => hd (heq ▸ hle)
  simp [escape, hquote, hslash, hlow '\n' (by decide), hlow '\r' (by decide), hlow '\t' (by decide),
    hlow '\x0c' (by decide), hlow '\x08' (by decide), hle, hge]

theorem dumpsString_plain {text : List Char} (h : ∀ c ∈ text, isPlain c = true) :
    dumpsString text = '"' :: (text ++ ['"']) := by
  have hmap : text.flatMap escape = text := by
    induction text with
    | nil => rfl
    | cons c text ih =>
      rw [List.flatMap_cons, escape_plain (h c List.mem_cons_self),
        ih fun d hd => h d (List.mem_cons_of_mem _ hd)]
      rfl
  rw [dumpsString, hmap]

theorem isPlain_of_isDigit {c : Char} (h : c.isDigit = true) : isPlain c = true := by
  have hspace : ' '.val.toNat = 32 := rfl
  have htilde : '~'.val.toNat = 126 := rfl
  have hval : c.toNat = c.val.toNat := rfl
  obtain ⟨hge, hle⟩ := isDigit_toNat h
  have hquote : c ≠ '"' := fun heq => absurd (heq ▸ hge) (by decide)
  have hslash : c ≠ '\\' := fun heq => absurd (heq ▸ hle) (by decide)
  simp only [isPlain, Bool.and_eq_true, decide_eq_true_eq, Char.le_def, UInt32.le_iff_toNat_le]
  exact ⟨⟨⟨by omega, by omega⟩, hquote⟩, hslash⟩

theorem isPlain_toDigits (n : Nat) : ∀ c ∈ Nat.toDigits 10 n, isPlain c = true := fun _ hc =>
  isPlain_of_isDigit (Nat.isDigit_of_mem_toDigits (by decide) (by decide) hc)

theorem toNat_lt_of_isPlain {c : Char} (h : isPlain c = true) : c.toNat < 128 := by
  simp only [isPlain, Bool.and_eq_true, decide_eq_true_eq, Char.le_def, UInt32.le_iff_toNat_le] at h
  have htilde : '~'.val.toNat = 126 := rfl
  have hval : c.toNat = c.val.toNat := rfl
  omega

end Json

end Aetus.Base
