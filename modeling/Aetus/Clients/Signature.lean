import Aetus.Base.Ascii
import Aetus.Base.Hmac

/-!
The request signature of the Python client (client.py) and of the Rust client (lib.rs).
Both hand the key and the message to an HMAC library: Python's own, and a crate.
-/

set_option autoImplicit false

namespace Aetus.Clients
open Aetus.Base

def HMAC_SIGNATURE_SCHEME : List Char := "hmac-sha256-v1".toList
def HMAC_SIGNATURE_PREFIX : List Char := "AETUS-HMAC-SHA256-V1".toList

namespace Python

def hmacSignature (sha256 : HashFunction 32) (token deviceId : List Char) (body : List UInt8) :
    List Char :=
  let bodySha256Hex := hexText (sha256 body).bytes
  let signingInput := utf8 (HMAC_SIGNATURE_PREFIX ++ "\nPOST\n/v1/ingest\n".toList ++ deviceId ++
    ['\n'] ++ bodySha256Hex)
  let signature := hexText (hmac sha256 64 (utf8 token) signingInput).bytes
  HMAC_SIGNATURE_SCHEME ++ '=' :: signature

end Python

namespace Rust

/-- `Hmac::new_from_slice` of the hmac crate, by the code its result gives a message. -/
abbrev NewFromSlice := List UInt8 → Except String (List UInt8 → Digest 32)

/-- The crate takes a key of any length and computes RFC 2104. -/
def NewFromSlice.Documented (newFromSlice : NewFromSlice) (sha256 : HashFunction 32) : Prop :=
  ∀ key, newFromSlice key = .ok (hmac sha256 64 key)

def hmacSignature (sha256 : HashFunction 32) (newFromSlice : NewFromSlice)
    (token deviceId : List Char) (body : List UInt8) : Except String (List Char) := do
  let bodySha256Hex := hexText (sha256 body).bytes
  let signingInput := HMAC_SIGNATURE_PREFIX ++ "\nPOST\n/v1/ingest\n".toList ++ deviceId ++
    ['\n'] ++ bodySha256Hex
  let mac ← newFromSlice (utf8 token)
  let signature := hexText (mac (utf8 signingInput)).bytes
  return HMAC_SIGNATURE_SCHEME ++ '=' :: signature

end Rust

theorem hmacSignature_rust_eq_python {sha256 : HashFunction 32} {newFromSlice : Rust.NewFromSlice}
    (hcrate : newFromSlice.Documented sha256) (token deviceId : List Char) (body : List UInt8) :
    Rust.hmacSignature sha256 newFromSlice token deviceId body =
      .ok (Python.hmacSignature sha256 token deviceId body) := by
  simp only [Rust.hmacSignature, hcrate (utf8 token)]
  rfl

end Aetus.Clients
