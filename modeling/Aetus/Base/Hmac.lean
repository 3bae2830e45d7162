import Aetus.Base.CString

/-!
The keyed hash of RFC 2104 over an arbitrary hash function.
-/

set_option autoImplicit false

namespace Aetus.Base

/-- A hash value of `n` bytes. -/
structure Digest (n : Nat) where
  bytes : List UInt8
  length_eq : bytes.length = n

abbrev HashFunction (n : Nat) := List UInt8 → Digest n

section Rfc2104

variable {n : Nat} (hash : HashFunction n) (blockSize : Nat)

/-- The key, hashed first when it exceeds a block, filled up with zeros. -/
def hmacKey (key : List UInt8) : List UInt8 :=
  let k := if blockSize < key.length then (hash key).bytes else key
  k ++ List.replicate (blockSize - k.length) 0

def xorPad (pad : UInt8) (block : List UInt8) : List UInt8 := block.map (· ^^^ pad)

def hmac (key message : List UInt8) : Digest n :=
  let k := hmacKey hash blockSize key
  hash (xorPad 0x5c k ++ (hash (xorPad 0x36 k ++ message)).bytes)

end Rfc2104

end Aetus.Base
