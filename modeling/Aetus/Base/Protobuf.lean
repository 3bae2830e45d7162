import Aetus.Base.LittleEndian

/-!
The protobuf wire format. A message is the list of its fields in the order in which they
are written, and reading back what was written gives that list.
-/

set_option autoImplicit false

namespace Aetus.Base.Protobuf

/-- Seven bits in each byte, the lowest first; all bytes but the last have the high bit. -/
def varintWithin : Nat → Nat → List UInt8
  | 0, n => [UInt8.ofNat n]
  | fuel + 1, n =>
    if n < 128 then [UInt8.ofNat n] else UInt8.ofNat (n % 128 + 128) :: varintWithin fuel (n / 128)

def varint (n : Nat) : List UInt8 := varintWithin n n

def readVarint : List UInt8 → Option (Nat × List UInt8)
  | [] => none
  | b :: bytes =>
    if b.toNat < 128 then some (b.toNat, bytes)
    else (readVarint bytes).map fun r => (b.toNat - 128 + 128 * r.1, r.2)

theorem readVarint_varintWithin {fuel n : Nat} (h : n ≤ fuel) (rest : List UInt8) :
    readVarint (varintWithin fuel n ++ rest) = some (n, rest) := by
  induction fuel generalizing n with
  | zero =>
    obtain rfl : n = 0 := by omega
    rfl
  | succ fuel ih =>
    by_cases hn : n < 128
    · have hb : (UInt8.ofNat n).toNat = n := by rw [UInt8.toNat_ofNat']; omega
      simp [varintWithin, hn, readVarint, hb]
    · have hb : (UInt8.ofNat (n % 128 + 128)).toNat = n % 128 + 128 := by
        rw [UInt8.toNat_ofNat']; omega
      have hrec := ih (n := n / 128) (by omega)
      have hvalue : n % 128 + 128 - 128 + 128 * (n / 128) = n := by omega
      simp only [varintWithin, if_neg hn, List.cons_append, readVarint, hb, hrec, Option.map_some,
        hvalue, if_neg (show ¬ n % 128 + 128 < 128 by omega)]

@[simp] theorem readVarint_varint (n : Nat) (rest : List UInt8) :
    readVarint (varint n ++ rest) = some (n, rest) := readVarint_varintWithin (Nat.le_refl n) rest

theorem varint_ne_nil (n : Nat) : varint n ≠ [] := by
  intro h
  have hread := readVarint_varint n []
  simp [h, readVarint] at hread

def zigzag (v : Int) : Nat := if v < 0 then (-2 * v - 1).toNat else (2 * v).toNat

def unzigzag (n : Nat) : Int := if n % 2 = 0 then n / 2 else -(n / 2) - 1

@[simp] theorem unzigzag_zigzag (v : Int) : unzigzag (zigzag v) = v := by
  unfold unzigzag zigzag
  split <;> split <;> omega

inductive Value where
  | varint (n : Nat)
  | fixed64 (bits : UInt64)
  | bytes (content : List UInt8)
  | fixed32 (bits : UInt32)
  deriving DecidableEq

structure Field where
  number : Nat
  value : Value
  deriving DecidableEq

def Value.wireType : Value → Nat
  | .varint _ => 0
  | .fixed64 _ => 1
  | .bytes _ => 2
  | .fixed32 _ => 5

def Value.write : Value → List UInt8
  | .varint n => Protobuf.varint n
  | .fixed64 bits => leBytes 8 bits.toNat
  | .bytes content => Protobuf.varint content.length ++ content
  | .fixed32 bits => leBytes 4 bits.toNat

def tag (number wireType : Nat) : List UInt8 := varint (8 * number + wireType)

def Field.write (f : Field) : List UInt8 := tag f.number f.value.wireType ++ f.value.write

def write (fields : List Field) : List UInt8 := fields.flatMap Field.write

/-- The first `count` bytes, unless there are fewer. -/
def splitAt? (count : Nat) (bytes : List UInt8) : Option (List UInt8 × List UInt8) :=
  if count ≤ bytes.length then some (bytes.take count, bytes.drop count) else none

def readValue (wireType : Nat) (bytes : List UInt8) : Option (Value × List UInt8) :=
  match wireType with
  | 0 => (readVarint bytes).map fun r => (.varint r.1, r.2)
  | 1 => (splitAt? 8 bytes).map fun r => (.fixed64 (UInt64.ofNat (leNat r.1)), r.2)
  | 2 => (readVarint bytes).bind fun r => (splitAt? r.1 r.2).map fun r => (.bytes r.1, r.2)
  | 5 => (splitAt? 4 bytes).map fun r => (.fixed32 (UInt32.ofNat (leNat r.1)), r.2)
  | _ => none

def readField (bytes : List UInt8) : Option (Field × List UInt8) :=
  (readVarint bytes).bind fun r =>
    (readValue (r.1 % 8) r.2).map fun v => (⟨r.1 / 8, v.1⟩, v.2)

def readWithin : Nat → List UInt8 → Option (List Field)
  | _, [] => some []
  | 0, _ :: _ => none
  | fuel + 1, b :: bytes =>
    (readField (b :: bytes)).bind fun r => (readWithin fuel r.2).map (r.1 :: ·)

def read (bytes : List UInt8) : Option (List Field) := readWithin bytes.length bytes

theorem splitAt?_append (xs ys : List UInt8) : splitAt? xs.length (xs ++ ys) = some (xs, ys) := by
  simp [splitAt?]

theorem readValue_write (v : Value) (rest : List UInt8) :
    readValue v.wireType (v.write ++ rest) = some (v, rest) := by
  cases v with
  | varint n => simp [Value.wireType, Value.write, readValue]
  | fixed64 bits =>
    have hsplit := splitAt?_append (leBytes 8 bits.toNat) rest
    have hbits : UInt64.ofNat (leNat (leBytes 8 bits.toNat)) = bits := by
      rw [leNat_leBytes, Nat.mod_eq_of_lt (show bits.toNat < 256 ^ 8 from bits.toNat_lt),
        UInt64.ofNat_toNat]
    rw [length_leBytes] at hsplit
    simp [Value.wireType, Value.write, readValue, hsplit, hbits]
  | bytes content => simp [Value.wireType, Value.write, readValue, splitAt?_append]
  | fixed32 bits =>
    have hsplit := splitAt?_append (leBytes 4 bits.toNat) rest
    have hbits : UInt32.ofNat (leNat (leBytes 4 bits.toNat)) = bits := by
      rw [leNat_leBytes, Nat.mod_eq_of_lt (show bits.toNat < 256 ^ 4 from bits.toNat_lt),
        UInt32.ofNat_toNat]
    rw [length_leBytes] at hsplit
    simp [Value.wireType, Value.write, readValue, hsplit, hbits]

theorem Value.wireType_lt (v : Value) : v.wireType < 8 := by cases v <;> simp [wireType]

theorem readField_write (f : Field) (rest : List UInt8) :
    readField (f.write ++ rest) = some (f, rest) := by
  have hlt := f.value.wireType_lt
  have hmod : (8 * f.number + f.value.wireType) % 8 = f.value.wireType := by omega
  have hdiv : (8 * f.number + f.value.wireType) / 8 = f.number := by omega
  rw [readField, Field.write, tag, List.append_assoc, readVarint_varint, Option.bind_some, hmod,
    readValue_write, Option.map_some, hdiv]

theorem Field.write_ne_nil (f : Field) : f.write ≠ [] := fun h =>
  varint_ne_nil _ (List.append_eq_nil_iff.mp h).1

theorem readWithin_write {fields : List Field} {fuel : Nat} (h : fields.length ≤ fuel) :
    readWithin fuel (write fields) = some fields := by
  induction fields generalizing fuel with
  | nil => cases fuel <;> rfl
  | cons f fields ih =>
    cases fuel with
    | zero => cases h
    | succ fuel =>
      have hfield := readField_write f (write fields)
      have hrest := ih (Nat.le_of_succ_le_succ h)
      have hwrite : write (f :: fields) = f.write ++ write fields := rfl
      obtain ⟨b, bytes, hcons⟩ := List.exists_cons_of_ne_nil f.write_ne_nil
      rw [hcons, List.cons_append] at hfield
      rw [hwrite, hcons, List.cons_append, readWithin, hfield, Option.bind_some, hrest,
        Option.map_some]

theorem length_le_write (fields : List Field) : fields.length ≤ (write fields).length := by
  induction fields with
  | nil => exact Nat.zero_le _
  | cons f fields ih =>
    have hpos := List.length_pos_iff.mpr f.write_ne_nil
    have hwrite : write (f :: fields) = f.write ++ write fields := rfl
    rw [hwrite, List.length_append, List.length_cons]
    omega

@[simp] theorem read_write (fields : List Field) : read (write fields) = some fields :=
  readWithin_write (length_le_write fields)

theorem write_append (xs ys : List Field) : write (xs ++ ys) = write xs ++ write ys :=
  List.flatMap_append

def message (number : Nat) (fields : List Field) : Field := ⟨number, .bytes (write fields)⟩

def Field.asMessage (f : Field) (number : Nat) : Option (List Field) :=
  match f.value with
  | .bytes content => if f.number = number then read content else none
  | _ => none

@[simp] theorem message_number (number : Nat) (fields : List Field) :
    (message number fields).number = number := rfl

@[simp] theorem asMessage_message (number : Nat) (fields : List Field) :
    (message number fields).asMessage number = some fields := by
  simp [message, Field.asMessage]

def Value.isDefault : Value → Bool
  | .varint n => n = 0
  | .fixed64 bits => bits = 0
  | .bytes content => content = []
  | .fixed32 bits => bits = 0

def unlessDefault (number : Nat) (v : Value) : List Field :=
  if v.isDefault then [] else [⟨number, v⟩]

/-- Of the members of a oneof, and of several fields of one number, the last counts. -/
def lastOf (numbers : List Nat) (fields : List Field) : Option Field :=
  (fields.filter (·.number ∈ numbers)).getLast?

theorem lastOf_append_singleton {numbers : List Nat} {f : Field} (h : f.number ∈ numbers)
    (fields : List Field) : lastOf numbers (fields ++ [f]) = some f := by
  simp [lastOf, h]

/-! Sizes -/

theorem length_varintWithin_le {fuel n k : Nat} (hk : 0 < k) (h : n < 128 ^ k) :
    (varintWithin fuel n).length ≤ k := by
  induction fuel generalizing n k with
  | zero => exact hk
  | succ fuel ih =>
    by_cases hn : n < 128
    · rw [varintWithin, if_pos hn]
      exact hk
    · obtain ⟨k, rfl⟩ := Nat.exists_eq_succ_of_ne_zero (Nat.ne_of_gt hk)
      have hk0 : 0 < k := by
        refine Nat.pos_of_ne_zero fun hzero => hn ?_
        simpa [hzero] using h
      have hdiv : n / 128 < 128 ^ k :=
        Nat.div_lt_of_lt_mul (by rwa [Nat.pow_succ, Nat.mul_comm] at h)
      rw [varintWithin, if_neg hn, List.length_cons]
      exact Nat.succ_le_succ (ih hk0 hdiv)

theorem length_varint_le {n k : Nat} (hk : 0 < k) (h : n < 128 ^ k) : (varint n).length ≤ k :=
  length_varintWithin_le hk h

theorem length_tag_le {number wireType : Nat} (hnumber : number < 16) (hwire : wireType < 8) :
    (tag number wireType).length ≤ 1 :=
  length_varint_le Nat.one_pos (by omega)

theorem length_write_field_le {f : Field} (hnumber : f.number < 16) :
    (write [f]).length ≤ 1 + f.value.write.length := by
  have htag := length_tag_le hnumber f.value.wireType_lt
  simp only [write, List.flatMap_cons, List.flatMap_nil, List.append_nil, Field.write,
    List.length_append]
  omega

theorem length_write_unlessDefault_le (number : Nat) (v : Value) :
    (write (unlessDefault number v)).length ≤ (write [⟨number, v⟩]).length := by
  unfold unlessDefault
  split
  · exact Nat.zero_le _
  · exact Nat.le_refl _

theorem length_varintField_le {number n : Nat} (k : Nat) (hnumber : number < 16) (hk : 0 < k)
    (h : n < 128 ^ k) : (write (unlessDefault number (.varint n))).length ≤ 1 + k :=
  calc (write (unlessDefault number (.varint n))).length
      ≤ (write [⟨number, .varint n⟩]).length := length_write_unlessDefault_le _ _
    _ ≤ 1 + (varint n).length := length_write_field_le hnumber
    _ ≤ 1 + k := Nat.add_le_add_left (length_varint_le hk h) 1

theorem length_bytesField_le {number m : Nat} {content : List UInt8} (k : Nat)
    (hnumber : number < 16) (hk : 0 < k) (hcontent : content.length ≤ m) (hm : m < 128 ^ k) :
    (write [⟨number, .bytes content⟩]).length ≤ 1 + k + m := by
  have hlength := length_varint_le hk (Nat.lt_of_le_of_lt hcontent hm)
  have hfield := length_write_field_le (f := ⟨number, .bytes content⟩) hnumber
  simp only [Value.write, List.length_append] at hfield
  omega

theorem length_fixed32Field_le {number : Nat} (hnumber : number < 16) (bits : UInt32) :
    (write [⟨number, .fixed32 bits⟩]).length ≤ 5 := by
  have hfield := length_write_field_le (f := ⟨number, .fixed32 bits⟩) hnumber
  rwa [Value.write, length_leBytes] at hfield

theorem length_message_le {m : Nat} {fields : List Field} (number k : Nat) (hnumber : number < 16)
    (hk : 0 < k) (hfields : (write fields).length ≤ m) (hm : m < 128 ^ k) :
    (write [message number fields]).length ≤ 1 + k + m :=
  length_bytesField_le k hnumber hk hfields hm

theorem length_write_map_le {α : Type} {m : Nat} (f : α → Field)
    (h : ∀ a, (write [f a]).length ≤ m) (items : List α) :
    (write (items.map f)).length ≤ m * items.length := by
  induction items with
  | nil => exact Nat.zero_le _
  | cons a items ih =>
    have hcons : write ((a :: items).map f) = write [f a] ++ write (items.map f) :=
      write_append [f a] (items.map f)
    have hfirst := h a
    rw [hcons, List.length_append, List.length_cons, Nat.mul_succ]
    omega

end Aetus.Base.Protobuf
