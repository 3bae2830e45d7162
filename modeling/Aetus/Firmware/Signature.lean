import Aetus.Base.Ascii
import Aetus.Base.Hmac
import Aetus.Firmware.Types

/-!
The request signature of aetus.c: SHA-256 over separately fed parts, HMAC written
out over it, and the header that carries the result.
-/

set_option autoImplicit false

namespace Aetus.Firmware
open Aetus.Base

def AETUS_HMAC_SCHEME : CString := .lit "hmac-sha256-v1"
def AETUS_HMAC_PREFIX : CString := .lit "AETUS-HMAC-SHA256-V1\nPOST\n/v1/ingest\n"

/-- mbedTLS's SHA-256: the hash, whether its md info is there, and the code that a
computation fed with the given updates ends with. -/
structure MdLibrary where
  hash : HashFunction 32
  infoAvailable : Bool
  rc : List (List UInt8) → Int32

structure MdLibrary.Works (md : MdLibrary) : Prop where
  info : md.infoAvailable = true
  rc_zero : ∀ updates, md.rc updates = 0

def bytesToHex (bytes : List UInt8) (hex : CString) (hexSize : Nat) : CString :=
  if hexSize < 2 * bytes.length + 1 then
    if 0 < hexSize then .empty else hex
  else ⟨utf8 (hexText bytes), utf8_hexText_nonzero bytes⟩

def sumLibrary : MdLibrary where
  hash bytes := ⟨List.replicate 32 (bytes.foldl (· + ·) 0), List.length_replicate⟩
  infoAvailable := true
  rc _ := 0

theorem sumLibrary_works : sumLibrary.Works := ⟨rfl, fun _ => rfl⟩

/-- The updates that are made: a part that is `NULL` or empty is passed over. -/
def fedParts (part0 part1 part2 : Option (List UInt8)) : List (List UInt8) :=
  ([part0, part1, part2].filterMap id).filter fun part => !part.isEmpty

def sha256DigestParts (md : MdLibrary) (part0 part1 part2 : Option (List UInt8)) :
    Except Failure (Digest 32) := do
  espReturnOnFalse md.infoAvailable .fail "sha256 md info unavailable"
  let updates := fedParts part0 part1 part2
  let rc := md.rc updates
  espReturnOnFalse (rc = 0) .fail ("sha256 failed rc=" ++ toString rc)
  return md.hash updates.flatten

def sha256Hex (md : MdLibrary) (payload : List UInt8) (hex : CString) (hexSize : Nat) :
    Except Failure CString := do
  let digest ← returnOnError (sha256DigestParts md (some payload) none none) "sha256 digest failed"
  return bytesToHex digest.bytes hex hexSize

def memcpy (target source : List UInt8) : List UInt8 := source ++ target.drop source.length

def hmacKeyBlock (md : MdLibrary) (key : List UInt8) : Except Failure (List UInt8) :=
  let keyBlock := List.replicate 64 0
  if keyBlock.length < key.length then do
    let digest ← returnOnError (sha256DigestParts md (some key) none none) "hmac key hash failed"
    return memcpy keyBlock digest.bytes
  else .ok (memcpy keyBlock key)

def hmacSha256Digest (md : MdLibrary) (key message0 message1 : List UInt8) :
    Except Failure (Digest 32) := do
  let keyBlock ← hmacKeyBlock md key
  let ipad := keyBlock.map (· ^^^ 0x36)
  let opad := keyBlock.map (· ^^^ 0x5c)
  let innerDigest ← returnOnError
    (sha256DigestParts md (some ipad) (some message0) (some message1)) "hmac inner hash failed"
  returnOnError (sha256DigestParts md (some opad) (some innerDigest.bytes) none)
    "hmac outer hash failed"

def signingPrefix (deviceId : CString) : CString := AETUS_HMAC_PREFIX ++ deviceId ++ .lit "\n"

def hmacSignatureHeader (md : MdLibrary) (config : Config CString) (payload : List UInt8)
    (headerSize : Nat) : Except Failure CString := do
  let bodySha256Hex ← returnOnError (sha256Hex md payload .empty 65) "body sha256 failed"
  let (signingPrefix, prefixLen) := snprintf 128 (signingPrefix config.deviceId)
  espReturnOnFalse (0 < prefixLen && prefixLen < 128) .invalidSize "hmac signing prefix too long"
  let digest ← returnOnError
    (hmacSha256Digest md config.deviceToken.bytes (signingPrefix.bytes.take prefixLen)
      bodySha256Hex.bytes) "hmac digest failed"
  let signatureHex := bytesToHex digest.bytes .empty 65
  let (header, written) := snprintf headerSize (AETUS_HMAC_SCHEME ++ .lit "=" ++ signatureHex)
  espReturnOnFalse (0 < written && written < headerSize) .invalidSize "hmac signature header too long"
  return header

theorem memcpy_replicate (n : Nat) (source : List UInt8) :
    memcpy (List.replicate n 0) source = source ++ List.replicate (n - source.length) 0 := by
  rw [memcpy, List.drop_replicate]

theorem flatten_fedParts (p0 p1 p2 : Option (List UInt8)) :
    (fedParts p0 p1 p2).flatten = p0.getD [] ++ p1.getD [] ++ p2.getD [] := by
  rw [fedParts, List.flatten_filter_not_isEmpty]
  cases p0 <;> cases p1 <;> cases p2 <;> simp

section Working

variable {md : MdLibrary}

theorem sha256DigestParts_eq (hmd : md.Works) (p0 p1 p2 : Option (List UInt8)) :
    sha256DigestParts md p0 p1 p2 = .ok (md.hash (p0.getD [] ++ p1.getD [] ++ p2.getD [])) := by
  simp only [sha256DigestParts, hmd.info, hmd.rc_zero, flatten_fedParts]
  rfl

theorem bytesToHex_digest (digest : Digest 32) (hex : CString) :
    (bytesToHex digest.bytes hex 65).bytes = utf8 (hexText digest.bytes) := by
  simp [bytesToHex, digest.length_eq]

theorem sha256Hex_eq (hmd : md.Works) (payload : List UInt8) (hex : CString) (hexSize : Nat) :
    sha256Hex md payload hex hexSize = .ok (bytesToHex (md.hash payload).bytes hex hexSize) := by
  simp only [sha256Hex, sha256DigestParts_eq hmd, Option.getD_some, Option.getD_none,
    List.append_nil, returnOnError_ok]
  rfl

theorem hmacKeyBlock_eq (hmd : md.Works) (key : List UInt8) :
    hmacKeyBlock md key = .ok (hmacKey md.hash 64 key) := by
  simp only [hmacKeyBlock, hmacKey, List.length_replicate, memcpy_replicate]
  by_cases hlong : 64 < key.length
  · simp only [if_pos hlong, sha256DigestParts_eq hmd, Option.getD_some, Option.getD_none,
      List.append_nil, returnOnError_ok]
    rfl
  · simp only [if_neg hlong]

/-- The written-out HMAC is the one of RFC 2104, over the two message parts in turn. -/
theorem hmacSha256Digest_eq (hmd : md.Works) (key message0 message1 : List UInt8) :
    hmacSha256Digest md key message0 message1 =
      .ok (hmac md.hash 64 key (message0 ++ message1)) := by
  simp only [hmacSha256Digest, hmacKeyBlock_eq hmd, sha256DigestParts_eq hmd]
  simp [bind, Except.bind, hmac, xorPad]

theorem strlen_signingPrefix (deviceId : CString) :
    (signingPrefix deviceId).strlen = 38 + deviceId.strlen := by
  have hprefix : AETUS_HMAC_PREFIX.strlen = 37 := by decide +kernel
  have hnewline : (CString.lit "\n").strlen = 1 := by decide +kernel
  simp only [signingPrefix, CString.strlen_append]
  omega

theorem strlen_signatureHeader (digest : Digest 32) :
    (AETUS_HMAC_SCHEME ++ .lit "=" ++ bytesToHex digest.bytes .empty 65).strlen = 79 := by
  have hscheme : AETUS_HMAC_SCHEME.strlen = 14 := by decide +kernel
  have hequals : (CString.lit "=").strlen = 1 := by decide +kernel
  have hhex := utf8_hexText_length digest.bytes
  rw [← bytesToHex_digest digest .empty, digest.length_eq] at hhex
  rw [CString.strlen_append, CString.strlen_append, hscheme, hequals, CString.strlen, hhex]

/-- What the header carries, as RFC 2104 has it: the whole prefix and the hash of the
body signed with the device token. -/
def signature (hash : HashFunction 32) (config : Config CString) (payload : List UInt8) :
    Digest 32 :=
  hmac hash 64 config.deviceToken.bytes
    ((signingPrefix config.deviceId).bytes ++ utf8 (hexText (hash payload).bytes))

theorem hmacSignatureHeader_eq (hmd : md.Works) (config : Config CString) (payload : List UInt8)
    (hid : config.deviceId.strlen < 90) :
    hmacSignatureHeader md config payload 96 =
      .ok (AETUS_HMAC_SCHEME ++ .lit "=" ++
        bytesToHex (signature md.hash config payload).bytes .empty 65) := by
  have hprefix := strlen_signingPrefix config.deviceId
  have htake : (signingPrefix config.deviceId).bytes.take (signingPrefix config.deviceId).strlen =
      (signingPrefix config.deviceId).bytes := List.take_length
  have hbody := bytesToHex_digest (md.hash payload) .empty
  have hwritten := strlen_signatureHeader (signature md.hash config payload)
  simp only [hmacSignatureHeader, sha256Hex_eq hmd, returnOnError_ok]
  simp only [bind, Except.bind]
  rw [snprintf_fits (by omega)]
  simp only [htake, hbody, hmacSha256Digest_eq hmd, returnOnError_ok]
  rw [snprintf_fits (by rw [← signature]; omega), ← signature]
  simp only [espReturnOnFalse, hprefix, hwritten]
  rw [if_pos (by simp; omega)]
  rfl

theorem signatureHeader_bytes (digest : Digest 32) :
    (AETUS_HMAC_SCHEME ++ .lit "=" ++ bytesToHex digest.bytes .empty 65).bytes =
      AETUS_HMAC_SCHEME.bytes ++ (CString.lit "=").bytes ++ utf8 (hexText digest.bytes) := by
  rw [CString.bytes_append, bytesToHex_digest, CString.bytes_append]

end Working

end Aetus.Firmware
