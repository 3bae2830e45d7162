import Aetus.Clients.Signature
import Aetus.Firmware.Config
import Aetus.Firmware.Signature
import Aetus.Ingest.Auth

/-!
The firmware, both clients and the ingest service sign the same bytes.
-/

set_option autoImplicit false

namespace Aetus
open Aetus.Base

def POST : List Char := "POST".toList
def INGEST_PATH : List Char := "/v1/ingest".toList

def expectedSignature (hash : HashFunction 32) (token deviceId : List Char) (body : List UInt8) :
    Digest 32 :=
  hmac hash 64 (utf8 token) (Ingest.buildHmacSigningInput hash POST INGEST_PATH deviceId body)

def signatureText (digest : Digest 32) : List Char :=
  Ingest.HMAC_SIGNATURE_SCHEME ++ '=' :: hexText digest.bytes

/-- The firmware's two message parts are the service's signing input. -/
theorem signingInput_firmware (hash : HashFunction 32) {deviceId : CString} (body : List UInt8)
    (hascii : ∀ b ∈ deviceId.bytes, b < 128) :
    (Firmware.signingPrefix deviceId).bytes ++ utf8 (hexText (hash body).bytes) =
      Ingest.buildHmacSigningInput hash POST INGEST_PATH (latin1 deviceId.bytes) body := by
  have hprefix : Firmware.AETUS_HMAC_PREFIX.bytes = utf8 (Ingest.HMAC_SIGNATURE_PREFIX ++ ['\n'] ++
      POST.map Char.toUpper ++ ['\n'] ++ INGEST_PATH ++ ['\n']) := by decide +kernel
  have hnewline : (CString.lit "\n").bytes = utf8 ['\n'] := by decide +kernel
  simp only [Firmware.signingPrefix, Ingest.buildHmacSigningInput, CString.bytes_append, hprefix,
    hnewline, utf8_append, utf8_latin1 hascii]

theorem signature_firmware (hash : HashFunction 32) (config : Firmware.Config CString)
    (payload : List UInt8) (hid : ∀ b ∈ config.deviceId.bytes, b < 128)
    (htoken : ∀ b ∈ config.deviceToken.bytes, b < 128) :
    Firmware.signature hash config payload =
      expectedSignature hash (latin1 config.deviceToken.bytes) (latin1 config.deviceId.bytes)
        payload := by
  rw [Firmware.signature, expectedSignature, signingInput_firmware hash payload hid,
    utf8_latin1 htoken]

theorem hmacSignature_python (hash : HashFunction 32) (token deviceId : List Char)
    (body : List UInt8) :
    Clients.Python.hmacSignature hash token deviceId body =
      signatureText (expectedSignature hash token deviceId body) := by
  have hinput : utf8 (Clients.HMAC_SIGNATURE_PREFIX ++ "\nPOST\n/v1/ingest\n".toList ++ deviceId ++
      ['\n'] ++ hexText (hash body).bytes) =
      Ingest.buildHmacSigningInput hash POST INGEST_PATH deviceId body := by
    have hprefix : Clients.HMAC_SIGNATURE_PREFIX ++ "\nPOST\n/v1/ingest\n".toList =
        Ingest.HMAC_SIGNATURE_PREFIX ++ ['\n'] ++ POST.map Char.toUpper ++ ['\n'] ++
          INGEST_PATH ++ ['\n'] := by decide
    simp only [Ingest.buildHmacSigningInput, hprefix, utf8_append]
  simp only [Clients.Python.hmacSignature, hinput]
  rfl

/-- On the wire the text is one byte a character, and the service reads it back as it was. -/
theorem latin1_utf8_signatureText (digest : Digest 32) :
    latin1 (utf8 (signatureText digest)) = signatureText digest := by
  refine latin1_utf8 fun c hc => ?_
  have hall : Ingest.HMAC_SIGNATURE_SCHEME.all (fun c => c.toNat < 128) = true := by decide
  rcases List.mem_append.mp hc with hscheme | hrest
  · simpa using List.all_eq_true.mp hall c hscheme
  · rcases List.mem_cons.mp hrest with rfl | hhex
    · decide
    · exact hexText_forall (Q := fun c => c.toNat < 128) (by decide) _ c hhex

theorem header_firmware (digest : Digest 32) :
    (Firmware.AETUS_HMAC_SCHEME ++ .lit "=" ++
      Firmware.bytesToHex digest.bytes .empty 65).bytes = utf8 (signatureText digest) := by
  have hscheme : Firmware.AETUS_HMAC_SCHEME.bytes ++ (CString.lit "=").bytes =
      utf8 (Ingest.HMAC_SIGNATURE_SCHEME ++ ['=']) := by decide +kernel
  rw [Firmware.signatureHeader_bytes, hscheme, ← utf8_append, signatureText, List.append_assoc]
  rfl

theorem verify_signatureText (hash : HashFunction 32) (token deviceId : List Char)
    (body : List UInt8) (controlDb : List Char → Option (List Char))
    (hstored : controlDb deviceId = some token) :
    Ingest.verifyHmacSignature hash deviceId POST INGEST_PATH body
      (some (signatureText (expectedSignature hash token deviceId body))) controlDb = true := by
  rw [signatureText, Ingest.verifyHmacSignature_digest hash _ _ _ token _ _ _ hstored]
  simp [expectedSignature]

/-- One signature on all sides, for every id and token in ASCII that the firmware can hold. -/
theorem signatures_agree (md : Firmware.MdLibrary) (hmd : md.Works)
    (newFromSlice : Clients.Rust.NewFromSlice) (hcrate : newFromSlice.Documented md.hash)
    (config : Firmware.Config CString) (payload : List UInt8)
    (controlDb : List Char → Option (List Char)) (hidFits : config.deviceId.strlen ≤ 63)
    (hidAscii : ∀ b ∈ config.deviceId.bytes, b < 128)
    (htokenAscii : ∀ b ∈ config.deviceToken.bytes, b < 128)
    (hstored : controlDb (latin1 config.deviceId.bytes) =
      some (latin1 config.deviceToken.bytes)) :
    let deviceId := latin1 config.deviceId.bytes
    let token := latin1 config.deviceToken.bytes
    let expected := expectedSignature md.hash token deviceId payload
    let verify := fun header => Ingest.verifyHmacSignature md.hash deviceId POST INGEST_PATH payload
      (some header) controlDb
    (Firmware.hmacSha256Digest md config.deviceToken.bytes
        (Firmware.signingPrefix config.deviceId).bytes
        (Firmware.bytesToHex (md.hash payload).bytes .empty 65).bytes = .ok expected) ∧
    (∃ header, Firmware.hmacSignatureHeader md config payload 96 = .ok header ∧
      header.bytes = utf8 (signatureText expected) ∧ verify (latin1 header.bytes) = true) ∧
    (Clients.Python.hmacSignature md.hash token deviceId payload = signatureText expected ∧
      verify (Clients.Python.hmacSignature md.hash token deviceId payload) = true) ∧
    ∃ header, Clients.Rust.hmacSignature md.hash newFromSlice token deviceId payload = .ok header ∧
      header = signatureText expected ∧ verify header = true := by
  intro deviceId token expected verify
  have hexpected : Firmware.signature md.hash config payload = expected :=
    signature_firmware md.hash config payload hidAscii htokenAscii
  have haccepted : verify (signatureText expected) = true :=
    verify_signatureText md.hash token deviceId payload controlDb hstored
  have hpython : Clients.Python.hmacSignature md.hash token deviceId payload =
      signatureText expected := hmacSignature_python md.hash token deviceId payload
  refine ⟨?_, ?_, ?_, ?_⟩
  · rw [Firmware.hmacSha256Digest_eq hmd, Firmware.bytesToHex_digest, ← hexpected]
    rfl
  · refine ⟨_, Firmware.hmacSignatureHeader_eq hmd config payload (by omega), ?_, ?_⟩
    · rw [header_firmware, hexpected]
    · rw [header_firmware, hexpected, latin1_utf8_signatureText, haccepted]
  · exact ⟨hpython, hpython ▸ haccepted⟩
  · exact ⟨_, Clients.hmacSignature_rust_eq_python hcrate _ _ _, hpython, hpython ▸ haccepted⟩

def longTokenConfig : Firmware.Config CString :=
  (Firmware.sampleConfig .hmacSha256 (.lit "esp32-001") (.ofBytes (List.replicate 70 97))
    (.lit "lab") (.lit "password")).text

theorem longToken_accepted : ∃ header,
    Firmware.hmacSignatureHeader Firmware.sumLibrary longTokenConfig [1, 2, 3] 96 = .ok header ∧
    Ingest.verifyHmacSignature Firmware.sumLibrary.hash "esp32-001".toList POST INGEST_PATH [1, 2, 3]
      (some (latin1 header.bytes)) (fun _ => some (List.replicate 70 'a')) = true := by
  obtain ⟨_, ⟨header, hheader, _, haccepted⟩, _⟩ := signatures_agree Firmware.sumLibrary
    Firmware.sumLibrary_works (fun key => .ok (hmac Firmware.sumLibrary.hash 64 key))
    (fun _ => rfl) longTokenConfig [1, 2, 3] (fun _ => some (List.replicate 70 'a'))
    (by decide +kernel) (by decide +kernel) (by decide +kernel) (by decide +kernel)
  have hid : latin1 longTokenConfig.deviceId.bytes = "esp32-001".toList := by decide +kernel
  exact ⟨header, hheader, hid ▸ haccepted⟩

end Aetus
