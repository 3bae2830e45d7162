import Mathlib.Algebra.Group.Int.Defs
import Mathlib.Algebra.Group.Nat.Defs

/-!
Numbers as little-endian bytes, and the doubles that they are read as.
-/

set_option autoImplicit false

namespace Aetus.Base

def leBytes : Nat → Nat → List UInt8
  | 0, _ => []
  | width + 1, n => UInt8.ofNat n :: leBytes width (n / 256)

def leNat : List UInt8 → Nat
  | [] => 0
  | b :: bytes => b.toNat + 256 * leNat bytes

@[simp] theorem length_leBytes (width n : Nat) : (leBytes width n).length = width := by
  induction width generalizing n with
  | zero => rfl
  | succ width ih => rw [leBytes, List.length_cons, ih]

theorem leNat_leBytes (width n : Nat) : leNat (leBytes width n) = n % 256 ^ width := by
  induction width generalizing n with
  | zero => rw [Nat.pow_zero, Nat.mod_one, leBytes, leNat]
  | succ width ih =>
    have hlow : (UInt8.ofNat n).toNat = n % 256 := UInt8.toNat_ofNat'
    rw [leBytes, leNat, ih, hlow, Nat.pow_succ', Nat.mod_mul]

/-- The binary64 arithmetic that the languages share. -/
structure Doubles (F : Type) where
  ofInt : Int → F
  ofFloat32 : UInt32 → F
  mul : F → F → F
  add : F → F → F

/-- Arithmetic on whole numbers, which is that of doubles while they are small. -/
def wholeDoubles : Doubles Int := ⟨id, fun _ => 0, (· * ·), (· + ·)⟩

inductive NumberFormat where
  | float32
  | int16
  | uint16
  | int32
  deriving DecidableEq

namespace NumberFormat
variable {F : Type}

def size : NumberFormat → Nat
  | .float32 | .int32 => 4
  | .int16 | .uint16 => 2

def read (doubles : Doubles F) : NumberFormat → List UInt8 → F
  | .float32, bytes => doubles.ofFloat32 (UInt32.ofNat (leNat bytes))
  | .int16, bytes => doubles.ofInt (Int.bmod (leNat bytes) (2 ^ 16))
  | .uint16, bytes => doubles.ofInt (leNat bytes)
  | .int32, bytes => doubles.ofInt (Int.bmod (leNat bytes) (2 ^ 32))

def holds : NumberFormat → Int → Bool
  | .float32, _ => false
  | .int16, value => -2 ^ 15 ≤ value ∧ value < 2 ^ 15
  | .uint16, value => 0 ≤ value ∧ value < 2 ^ 16
  | .int32, value => -2 ^ 31 ≤ value ∧ value < 2 ^ 31

/-- Two's complement. -/
def write (format : NumberFormat) (value : Int) : List UInt8 :=
  leBytes format.size (value % 256 ^ format.size).toNat

@[simp] theorem length_write (format : NumberFormat) (value : Int) :
    (format.write value).length = format.size := length_leBytes _ _

theorem leNat_write (format : NumberFormat) (value : Int) :
    (leNat (format.write value) : Int) = value % 256 ^ format.size := by
  have hpos : (0 : Int) < 256 ^ format.size := by cases format <;> decide
  have hlow := Int.emod_nonneg value (Int.ne_of_gt hpos)
  have hhigh := Int.emod_lt_of_pos value hpos
  rw [write, leNat_leBytes, Int.natCast_emod, Int.toNat_of_nonneg hlow, Int.natCast_pow]
  exact Int.emod_eq_of_lt hlow hhigh

theorem read_write {format : NumberFormat} {value : Int} (h : format.holds value = true)
    (doubles : Doubles F) : format.read doubles (format.write value) = doubles.ofInt value := by
  cases format with
  | float32 => cases h
  | int16 =>
    obtain ⟨hlow, hhigh⟩ := of_decide_eq_true h
    have hvalue : Int.bmod (value % 256 ^ 2) (2 ^ 16) = value :=
      (Int.emod_bmod value (2 ^ 16)).trans (Int.bmod_eq_of_le hlow hhigh)
    rw [read, leNat_write, size, hvalue]
  | uint16 =>
    obtain ⟨hlow, hhigh⟩ := of_decide_eq_true h
    have hvalue : value % 256 ^ 2 = value := by omega
    rw [read, leNat_write, size, hvalue]
  | int32 =>
    obtain ⟨hlow, hhigh⟩ := of_decide_eq_true h
    have hvalue : Int.bmod (value % 256 ^ 4) (2 ^ 32) = value :=
      (Int.emod_bmod value (2 ^ 32)).trans (Int.bmod_eq_of_le hlow hhigh)
    rw [read, leNat_write, size, hvalue]

end NumberFormat

end Aetus.Base
