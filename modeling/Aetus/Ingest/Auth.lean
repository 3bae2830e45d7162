import Aetus.Base.Ascii
import Aetus.Base.Hmac

/-!
The signature check of the ingest service's auth.py. A Python `str` is its list
of characters; a raised `ValueError` is its message.
-/

set_option autoImplicit false

namespace Aetus.Ingest
open Aetus.Base

def HMAC_SIGNATURE_SCHEME : List Char := "hmac-sha256-v1".toList
def HMAC_SIGNATURE_PREFIX : List Char := "AETUS-HMAC-SHA256-V1".toList

inductive IpAddress where
  | v4 (bits : BitVec 32)
  | v6 (bits : BitVec 128)

inductive IpNetwork where
  | v4 (networkAddress netmask : BitVec 32)
  | v6 (networkAddress netmask : BitVec 128)

/-- `ip in network`. -/
def IpNetwork.contains : IpNetwork → IpAddress → Bool
  | .v4 networkAddress netmask, .v4 ip => ip &&& netmask = networkAddress
  | .v6 networkAddress netmask, .v6 ip => ip &&& netmask = networkAddress
  | _, _ => false

/-- `ipAddress` is `ipaddress.ip_address`, none for a `ValueError`. -/
def isSourceIpAllowed (ipAddress : List Char → Option IpAddress) (sourceIp : List Char)
    (allowedSourceCidrs : List IpNetwork) : Bool :=
  match ipAddress sourceIp with
  | none => false
  | some ip => allowedSourceCidrs.any fun network => network.contains ip

/-- `controlDb` is `get_device_token_readonly`. -/
def verifyDeviceToken (deviceId token : List Char) (controlDb : List Char → Option (List Char)) :
    Bool :=
  match controlDb deviceId with
  | none => false
  | some expected => expected = token

/-- `str.partition` at a one-character separator. -/
def partition (text : List Char) (sep : Char) : List Char × List Char × List Char :=
  match text.dropWhile (· ≠ sep) with
  | [] => (text, [], [])
  | s :: rest => (text.takeWhile (· ≠ sep), [s], rest)

def extractBearerToken (authorization : Option (List Char)) : Except String (List Char) :=
  match authorization with
  | none | some [] => .error "missing authorization"
  | some authorization =>
    let (scheme, _, token) := partition authorization ' '
    if scheme.map Char.toLower ≠ "bearer".toList || token = [] then
      .error "invalid authorization scheme"
    else .ok token

def isHexSha256 (text : List Char) : Bool := text.length = 64 && text.all isHexDigit

def parseHmacSignature (signatureHeader : Option (List Char)) : Except String (List Char) :=
  match signatureHeader with
  | none | some [] => .error "missing hmac signature"
  | some header =>
    let (scheme, sep, signatureHex) := partition header '='
    if sep ≠ ['='] || scheme ≠ HMAC_SIGNATURE_SCHEME || !isHexSha256 signatureHex then
      .error "invalid hmac signature"
    else .ok (signatureHex.map Char.toLower)

def buildHmacSigningInput (sha256 : HashFunction 32) (method path deviceId : List Char)
    (body : List UInt8) : List UInt8 :=
  let bodySha256Hex := hexText (sha256 body).bytes
  let signingPrefix := HMAC_SIGNATURE_PREFIX ++ ['\n'] ++ method.map Char.toUpper ++ ['\n'] ++
    path ++ ['\n'] ++ deviceId ++ ['\n']
  utf8 signingPrefix ++ utf8 bodySha256Hex

def verifyHmacSignature (sha256 : HashFunction 32) (deviceId method path : List Char)
    (body : List UInt8) (signatureHeader : Option (List Char))
    (controlDb : List Char → Option (List Char)) : Bool :=
  match parseHmacSignature signatureHeader with
  | .error _ => false
  | .ok signatureHex =>
    match controlDb deviceId with
    | none => false
    | some secret =>
      let expected := hexText
        (hmac sha256 64 (utf8 secret) (buildHmacSigningInput sha256 method path deviceId body)).bytes
      expected = signatureHex

theorem partition_append {left right : List Char} {sep : Char} (h : sep ∉ left) :
    partition (left ++ sep :: right) sep = (left, [sep], right) := by
  have hall : ∀ c ∈ left, decide (c ≠ sep) = true := by
    intro c hc
    simpa using fun he : c = sep => h (he ▸ hc)
  rw [partition, List.dropWhile_append_of_pos hall, List.takeWhile_append_of_pos hall]
  simp

theorem isHexSha256_hexText (digest : Digest 32) : isHexSha256 (hexText digest.bytes) = true := by
  simp [isHexSha256, hexText_length, digest.length_eq]
  exact hexText_isHexDigit digest.bytes

theorem parseHmacSignature_digest (digest : Digest 32) :
    parseHmacSignature (some (HMAC_SIGNATURE_SCHEME ++ '=' :: hexText digest.bytes)) =
      .ok (hexText digest.bytes) := by
  have hscheme : '=' ∉ HMAC_SIGNATURE_SCHEME := by decide
  have hcons : HMAC_SIGNATURE_SCHEME ++ '=' :: hexText digest.bytes ≠ [] := by simp
  obtain ⟨c, cs, hheader⟩ := List.exists_cons_of_ne_nil hcons
  rw [hheader, parseHmacSignature, ← hheader, partition_append hscheme]
  · simp [isHexSha256_hexText, hexText_toLower]
  · simp

/-- The server takes the signature it would compute itself, and no other digest. -/
theorem verifyHmacSignature_digest (sha256 : HashFunction 32)
    (deviceId method path secret : List Char) (body : List UInt8) (digest : Digest 32)
    (controlDb : List Char → Option (List Char)) (hsecret : controlDb deviceId = some secret) :
    verifyHmacSignature sha256 deviceId method path body
        (some (HMAC_SIGNATURE_SCHEME ++ '=' :: hexText digest.bytes)) controlDb =
      decide (hexText (hmac sha256 64 (utf8 secret)
        (buildHmacSigningInput sha256 method path deviceId body)).bytes = hexText digest.bytes) := by
  simp only [verifyHmacSignature, parseHmacSignature_digest, hsecret]

end Aetus.Ingest
