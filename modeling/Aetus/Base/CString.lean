import Mathlib.Algebra.Group.Nat.Defs
import Mathlib.Data.List.Basic
import Mathlib.Data.List.TakeWhile

/-!
C strings by their text: the bytes before the terminator. The subtype excludes a
zero byte, so `strlen` is the length and a text never ends early.
-/

set_option autoImplicit false

namespace Aetus.Base

def utf8 (cs : List Char) : List UInt8 := cs.flatMap String.utf8EncodeChar

structure CString where
  bytes : List UInt8
  nonzero : (0 : UInt8) ∉ bytes
  deriving DecidableEq

namespace CString

@[ext] theorem ext {s t : CString} (h : s.bytes = t.bytes) : s = t := by
  cases s; cases t; simpa using h

/-- The text a reader sees in a buffer that holds `buffer` and then a terminator. -/
def ofBytes (buffer : List UInt8) : CString where
  bytes := buffer.takeWhile (· ≠ 0)
  nonzero h := by simpa using List.mem_takeWhile_imp h

theorem ofBytes_terminated_append (buffer rest : List UInt8) :
    ofBytes (buffer ++ ([0] ++ rest)) = ofBytes buffer := by
  refine ext ?_
  induction buffer with
  | nil => rfl
  | cons b buffer ih =>
    by_cases hb : b = 0
    · simp [ofBytes, hb]
    · simpa [ofBytes, hb] using ih

theorem ofBytes_terminated (buffer : List UInt8) : ofBytes (buffer ++ [0]) = ofBytes buffer :=
  ofBytes_terminated_append buffer []

theorem ofBytes_append {front : List UInt8} (h : (0 : UInt8) ∉ front) (rest : List UInt8) :
    (ofBytes (front ++ rest)).bytes = front ++ (ofBytes rest).bytes :=
  List.takeWhile_append_of_pos fun b hb => by
    simpa using fun hzero : b = 0 => h (hzero ▸ hb)

def empty : CString := ⟨[], by simp⟩

def lit (s : String) : CString := ofBytes (utf8 s.toList)

def strlen (s : CString) : Nat := s.bytes.length

def take (s : CString) (n : Nat) : CString :=
  ⟨s.bytes.take n, fun h => s.nonzero (List.mem_of_mem_take h)⟩

def append (s t : CString) : CString :=
  ⟨s.bytes ++ t.bytes, fun h => (List.mem_append.mp h).elim s.nonzero t.nonzero⟩

instance : Append CString := ⟨append⟩

@[simp] theorem bytes_append (s t : CString) : (s ++ t).bytes = s.bytes ++ t.bytes := rfl

@[simp] theorem strlen_append (s t : CString) : (s ++ t).strlen = s.strlen + t.strlen := by
  simp [strlen]

@[simp] theorem strlen_empty : empty.strlen = 0 := rfl

theorem take_eq_self_iff (s : CString) (n : Nat) : s.take n = s ↔ s.strlen ≤ n := by
  rw [CString.ext_iff]
  refine ⟨fun h => ?_, List.take_of_length_le⟩
  have hlen := congrArg List.length h
  simp only [take, List.length_take] at hlen
  simp only [strlen]; omega

theorem take_of_strlen_le {s : CString} {n : Nat} (h : s.strlen ≤ n) : s.take n = s :=
  (take_eq_self_iff s n).mpr h

end CString

/-- What `snprintf` leaves in a buffer of `size` bytes, and the length it returns. -/
def snprintf (size : Nat) (text : CString) : CString × Nat := (text.take (size - 1), text.strlen)

theorem snprintf_fits {size : Nat} {text : CString} (h : text.strlen < size) :
    snprintf size text = (text, text.strlen) := by
  rw [snprintf, CString.take_of_strlen_le (by omega)]

end Aetus.Base
