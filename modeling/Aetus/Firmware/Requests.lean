import Aetus.Firmware.Signature

/-!
The two HTTP requests of aetus.c with their headers: the upload of `post_payload`
and the time request of `fetch_server_time_ns`.
-/

set_option autoImplicit false

namespace Aetus.Firmware
open Aetus.Base

def AETUS_INGEST_PATH : CString := .lit "/v1/ingest"
def AETUS_TIME_PATH : CString := .lit "/v1/time"

structure Request where
  url : CString
  headers : List (String × CString)
  body : List UInt8
  deriving DecidableEq

def Request.header (r : Request) (name : String) : Option CString := r.headers.lookup name

def endsWith (value suffix : CString) : Bool :=
  suffix.strlen ≤ value.strlen && value.bytes.drop (value.strlen - suffix.strlen) = suffix.bytes

def resolveTimeUrl (c : Config CString) (bufferSize : Nat) : Except Failure CString := do
  if c.timeUrl ≠ .empty then
    return c.timeUrl
  else
    espReturnOnFalse (endsWith c.ingestUrl AETUS_INGEST_PATH) .invalidState
      "time_url is required when ingest_url does not end with /v1/ingest"
    let prefixLen := c.ingestUrl.strlen - AETUS_INGEST_PATH.strlen
    let required := prefixLen + AETUS_TIME_PATH.strlen + 1
    espReturnOnFalse (required ≤ bufferSize) .noMem "time url buffer too small"
    return c.ingestUrl.take prefixLen ++ AETUS_TIME_PATH

/-- The `Authorization` value, cut off where its buffer of 128 bytes ends. -/
def authorization (c : Config CString) : CString :=
  (snprintf 128 (.lit "Bearer " ++ c.deviceToken)).1

def postRequest (md : MdLibrary) (c : Config CString) (payload : List UInt8) :
    Except Failure Request := do
  let headers := [("Content-Type", .lit "application/x-protobuf"), ("X-Device-Id", c.deviceId)]
  if c.authMode = .hmacSha256 then
    let signatureHeader ← hmacSignatureHeader md c payload 96
    return ⟨c.ingestUrl, headers ++ [("X-Aetus-Signature", signatureHeader)], payload⟩
  else
    return ⟨c.ingestUrl, headers ++ [("Authorization", authorization c)], payload⟩

def timeRequest (c : Config CString) : Except Failure Request := do
  let timeUrl ← returnOnError (resolveTimeUrl c 160) "time url failed"
  return ⟨timeUrl, [("X-Device-Id", c.deviceId), ("Authorization", authorization c)], []⟩

section Post

variable {md : MdLibrary} {c : Config CString} {payload : List UInt8} {r : Request}

theorem postRequest_bearer (hmode : c.authMode = .bearer) :
    postRequest md c payload = .ok ⟨c.ingestUrl, [("Content-Type", .lit "application/x-protobuf"),
      ("X-Device-Id", c.deviceId), ("Authorization", authorization c)], payload⟩ := by
  have hne : c.authMode ≠ .hmacSha256 := by simp [hmode]
  simp only [postRequest, if_neg hne]
  rfl

theorem postRequest_hmac (hmode : c.authMode = .hmacSha256) (h : postRequest md c payload = .ok r) :
    ∃ signatureHeader, hmacSignatureHeader md c payload 96 = .ok signatureHeader ∧
      r = ⟨c.ingestUrl, [("Content-Type", .lit "application/x-protobuf"),
        ("X-Device-Id", c.deviceId), ("X-Aetus-Signature", signatureHeader)], payload⟩ := by
  simp only [postRequest, if_pos hmode] at h
  cases hheader : hmacSignatureHeader md c payload 96 with
  | error e => simp [hheader, bind, Except.bind] at h
  | ok signatureHeader =>
    simp [hheader, bind, Except.bind, pure, Except.pure] at h
    exact ⟨signatureHeader, rfl, h.symm⟩

theorem postRequest_signed (hmd : md.Works) (hmode : c.authMode = .hmacSha256)
    (hid : c.deviceId.strlen < 90) (payload : List UInt8) :
    postRequest md c payload = .ok ⟨c.ingestUrl, [("Content-Type", .lit "application/x-protobuf"),
      ("X-Device-Id", c.deviceId), ("X-Aetus-Signature", AETUS_HMAC_SCHEME ++ .lit "=" ++
        bytesToHex (signature md.hash c payload).bytes .empty 65)], payload⟩ := by
  simp only [postRequest, if_pos hmode, hmacSignatureHeader_eq hmd c payload hid]
  rfl

theorem postRequest_total (hmd : md.Works) (hmode : c.authMode = .bearer ∨ c.authMode = .hmacSha256)
    (hid : c.deviceId.strlen < 90) (payload : List UInt8) :
    ∃ request, postRequest md c payload = .ok request := by
  rcases hmode with hbearer | hhmac
  · exact ⟨_, postRequest_bearer hbearer⟩
  · exact ⟨_, postRequest_signed hmd hhmac hid payload⟩

theorem postRequest_deviceId (hmode : c.authMode = .bearer ∨ c.authMode = .hmacSha256)
    (h : postRequest md c payload = .ok r) : r.header "X-Device-Id" = some c.deviceId := by
  rcases hmode with hbearer | hhmac
  · rw [postRequest_bearer hbearer] at h
    cases h
    rfl
  · obtain ⟨_, _, rfl⟩ := postRequest_hmac hhmac h
    rfl

end Post

theorem authorization_eq_iff {c : Config CString} :
    authorization c = .lit "Bearer " ++ c.deviceToken ↔ c.deviceToken.strlen ≤ 120 := by
  have hbearer : (CString.lit "Bearer ").strlen = 7 := by decide +kernel
  rw [authorization, snprintf, CString.take_eq_self_iff, CString.strlen_append]
  omega

end Aetus.Firmware
