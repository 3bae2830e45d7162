import Aetus.Base.Protobuf
import Mathlib.Data.List.Basic

/-!
nanopb's pb_encode.c on the kinds of fields that ingest.proto has: the output stream, the
sizing pass before each submessage, and the bytes that come of it.
-/

set_option autoImplicit false

namespace Aetus.Firmware
open Aetus.Base Aetus.Base.Protobuf

/-- `pb_ostream_t`. `state` is what the buffer holds so far; a sizing stream has no buffer. -/
structure Ostream where
  state : Option (List UInt8)
  maxSize : Nat
  bytesWritten : Nat
  deriving DecidableEq

def Ostream.sizing : Ostream := ⟨none, 0, 0⟩

def Ostream.fromBuffer (size : Nat) : Ostream := ⟨some [], size, 0⟩

/-- The stream after a call; `none` when the call returns false. -/
abbrev Encoder := Ostream → Option Ostream

def pbWrite (buf : List UInt8) : Encoder := fun stream =>
  match stream.state with
  | none => some { stream with bytesWritten := stream.bytesWritten + buf.length }
  | some held =>
    if 0 < buf.length ∧ stream.maxSize < stream.bytesWritten + buf.length then none
    else some { stream with state := some (held ++ buf)
                            bytesWritten := stream.bytesWritten + buf.length }

def pbEncodeVarint (value : Nat) : Encoder := pbWrite (varint value)

def pbEncodeTag (wireType fieldNumber : Nat) : Encoder := pbWrite (tag fieldNumber wireType)

def pbEncodeString (buffer : List UInt8) : Encoder := fun stream =>
  (pbEncodeVarint buffer.length stream).bind (pbWrite buffer)

/-- `pb_encode_submessage` of the message that `fields` encodes. -/
def pbEncodeSubmessage (fields : Encoder) : Encoder := fun stream =>
  (fields .sizing).bind fun counted =>
    let size := counted.bytesWritten
    (pbEncodeVarint size stream).bind fun stream =>
      match stream.state with
      | none => some { stream with bytesWritten := stream.bytesWritten + size }
      | some held =>
        if stream.maxSize < stream.bytesWritten + size then none
        else (fields ⟨some held, size, 0⟩).bind fun sub =>
          if sub.bytesWritten = size then
            some { stream with state := sub.state
                               bytesWritten := stream.bytesWritten + sub.bytesWritten }
          else none

/-- `encode_basic_field` on anything but a message. -/
def encodeBasicField (number : Nat) (v : Value) : Encoder := fun stream =>
  (pbEncodeTag v.wireType number stream).bind fun stream =>
    match v with
    | .varint n => pbEncodeVarint n stream
    | .fixed64 bits => pbWrite (leBytes 8 bits.toNat) stream
    | .bytes content => pbEncodeString content stream
    | .fixed32 bits => pbWrite (leBytes 4 bits.toNat) stream

/-- A field as the iterator meets it. `present` is a set member of a oneof, a set optional field
or what a callback writes; `refused` is a callback that returns false or too long an array. -/
inductive Part where
  | singular (number : Nat) (v : Value)
  | present (number : Nat) (v : Value)
  | submessage (number : Nat) (parts : List Part)
  | refused

mutual

def encodeField : Part → Encoder
  | .singular number v => fun stream =>
    if v.isDefault then some stream else encodeBasicField number v stream
  | .present number v => encodeBasicField number v
  | .submessage number parts => fun stream =>
    (pbEncodeTag 2 number stream).bind (pbEncodeSubmessage (pbEncode parts))
  | .refused => fun _ => none

def pbEncode : List Part → Encoder
  | [] => some
  | part :: parts => fun stream => (encodeField part stream).bind (pbEncode parts)

end

mutual

def Part.fields : Part → Option (List Field)
  | .singular number v => some (unlessDefault number v)
  | .present number v => some [⟨number, v⟩]
  | .submessage number parts => (partFields parts).map fun fields => [message number fields]
  | .refused => none

def partFields : List Part → Option (List Field)
  | [] => some []
  | part :: parts =>
    part.fields.bind fun fields => (partFields parts).map (fields ++ ·)

end

theorem pbWrite_nil (stream : Ostream) : pbWrite [] stream = some stream := by
  obtain ⟨state, maxSize, bytesWritten⟩ := stream
  cases state <;> simp [pbWrite]

theorem pbWrite_buffer (buf held : List UInt8) (maxSize bytesWritten : Nat) :
    pbWrite buf ⟨some held, maxSize, bytesWritten⟩ =
      if 0 < buf.length ∧ maxSize < bytesWritten + buf.length then none
      else some ⟨some (held ++ buf), maxSize, bytesWritten + buf.length⟩ := rfl

theorem pbWrite_append (xs ys : List UInt8) (stream : Ostream) :
    (pbWrite xs stream).bind (pbWrite ys) = pbWrite (xs ++ ys) stream := by
  obtain ⟨state, maxSize, bytesWritten⟩ := stream
  cases state with
  | none => simp [pbWrite, Nat.add_assoc]
  | some held =>
    simp only [pbWrite_buffer, List.length_append]
    by_cases hx : 0 < xs.length ∧ maxSize < bytesWritten + xs.length
    · rw [if_pos hx, if_pos (by omega)]
      rfl
    · rw [if_neg hx, Option.bind_some, pbWrite_buffer]
      by_cases hy : 0 < ys.length ∧ maxSize < bytesWritten + xs.length + ys.length
      · rw [if_pos hy, if_pos (by omega)]
      · rw [if_neg hy, if_neg (by omega)]
        simp [Nat.add_assoc]

theorem pbEncodeString_eq (buffer : List UInt8) :
    pbEncodeString buffer = pbWrite (varint buffer.length ++ buffer) :=
  funext fun stream => pbWrite_append _ _ stream

theorem encodeBasicField_eq (number : Nat) (v : Value) (stream : Ostream) :
    encodeBasicField number v stream = pbWrite (write [⟨number, v⟩]) stream := by
  have hwrite : write [⟨number, v⟩] = tag number v.wireType ++ v.write := by
    simp [write, Field.write]
  rw [hwrite, ← pbWrite_append]
  cases v with
  | bytes content => simp [encodeBasicField, pbEncodeTag, pbEncodeString_eq, Value.write]
  | _ => rfl

/-- The sizing pass and the second pass agree, so the size in front is the right one. -/
theorem pbEncodeSubmessage_eq {fields : Encoder} {content : Option (List UInt8)}
    (h : ∀ stream, fields stream = content.bind (pbWrite · stream)) (stream : Ostream) :
    pbEncodeSubmessage fields stream =
      content.bind fun bytes => pbWrite (varint bytes.length ++ bytes) stream := by
  cases content with
  | none => simp [pbEncodeSubmessage, h]
  | some bytes =>
    have hsizing : fields .sizing = some { Ostream.sizing with bytesWritten := bytes.length } := by
      simp [h, pbWrite, Ostream.sizing]
    have hcopy (held : List UInt8) : fields ⟨some held, bytes.length, 0⟩ =
        some ⟨some (held ++ bytes), bytes.length, bytes.length⟩ := by
      simp [h, pbWrite]
    have hpos := List.length_pos_iff.mpr (varint_ne_nil bytes.length)
    rw [Option.bind_some, ← pbWrite_append, pbEncodeSubmessage, hsizing, Option.bind_some]
    obtain ⟨state, maxSize, bytesWritten⟩ := stream
    cases state with
    | none => simp [pbEncodeVarint, pbWrite]
    | some held =>
      by_cases hfull : maxSize < bytesWritten + (varint bytes.length).length
      · simp [pbEncodeVarint, pbWrite, hfull, hpos]
      · by_cases hroom : maxSize < bytesWritten + (varint bytes.length).length + bytes.length
        · have hbytes : 0 < bytes.length := by omega
          simp [pbEncodeVarint, pbWrite, hfull, hroom, hbytes]
        · simp [pbEncodeVarint, pbWrite, hfull, hroom, hcopy]

mutual

theorem encodeField_eq (part : Part) (stream : Ostream) :
    encodeField part stream = part.fields.bind fun fields => pbWrite (write fields) stream := by
  cases part with
  | singular number v =>
    by_cases hv : v.isDefault = true
    · simp [encodeField, Part.fields, unlessDefault, hv, write, pbWrite_nil]
    · simp [encodeField, Part.fields, unlessDefault, hv, encodeBasicField_eq]
  | present number v => simp [encodeField, Part.fields, encodeBasicField_eq]
  | submessage number parts =>
    have hparts (s : Ostream) :
        pbEncode parts s = ((partFields parts).map write).bind (pbWrite · s) := by
      rw [pbEncode_eq parts s, Option.bind_map]
      rfl
    have hsub : pbEncodeSubmessage (pbEncode parts) = fun s =>
        ((partFields parts).map write).bind fun bytes =>
          pbWrite (varint bytes.length ++ bytes) s :=
      funext fun s => pbEncodeSubmessage_eq hparts s
    simp only [encodeField, Part.fields, hsub]
    cases partFields parts with
    | none => simp
    | some fields =>
      have hwrite : write [message number fields] =
          tag number 2 ++ (varint (write fields).length ++ write fields) := by
        simp [write, message, Field.write, Value.write, Value.wireType]
      simp only [Option.map_some, Option.bind_some, hwrite]
      exact pbWrite_append _ _ stream
  | refused => rfl

theorem pbEncode_eq (parts : List Part) (stream : Ostream) :
    pbEncode parts stream =
      (partFields parts).bind fun fields => pbWrite (write fields) stream := by
  cases parts with
  | nil => simp [pbEncode, partFields, write, pbWrite_nil]
  | cons part parts =>
    simp only [pbEncode, partFields, encodeField_eq part stream]
    cases part.fields with
    | none => rfl
    | some fields =>
      have hrest : pbEncode parts =
          fun s => (partFields parts).bind fun fields => pbWrite (write fields) s :=
        funext fun s => pbEncode_eq parts s
      simp only [Option.bind_some, hrest]
      cases partFields parts with
      | none => simp
      | some rest => simp [write_append, pbWrite_append]

end

theorem pbEncode_fromBuffer (parts : List Part) (size : Nat) :
    (pbEncode parts (.fromBuffer size)).bind Ostream.state =
      (partFields parts).bind fun fields =>
        if (write fields).length ≤ size then some (write fields) else none := by
  rw [pbEncode_eq]
  cases partFields parts with
  | none => rfl
  | some fields =>
    simp only [Option.bind_some, Ostream.fromBuffer, pbWrite, Nat.zero_add]
    by_cases hfits : (write fields).length ≤ size
    · rw [if_neg (by omega), if_pos hfits]
      rfl
    · rw [if_pos (by omega), if_neg hfits]
      rfl

end Aetus.Firmware
