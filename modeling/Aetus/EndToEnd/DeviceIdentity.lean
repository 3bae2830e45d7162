import Aetus.Firmware.Event
import Aetus.Firmware.Requests
import Aetus.Ingest.App

/-!
The device id on its three ways to the ingest service: in the event, in the
`X-Device-Id` header and in the signed prefix.
-/

set_option autoImplicit false

namespace Aetus
open Aetus.Base Aetus.Firmware

/-- Every way carries `id`, and the service's comparison lets every event through. A
protobuf `str` is what the bytes decode to, a header what they are in Latin-1. -/
structure IdAgrees (md : MdLibrary) (rt : Runtime CString) (id : CString) : Prop where
  event : ∀ item uptimeMs event, encodeQueueItem rt uptimeMs item = some event →
    event.deviceId = id
  header : ∀ payload request, postRequest md rt.config payload = .ok request →
    request.header "X-Device-Id" = some id
  signed : rt.config.authMode = .hmacSha256 → ∀ payload, ∃ request,
    postRequest md rt.config payload = .ok request ∧
      request.header "X-Aetus-Signature" = some (AETUS_HMAC_SCHEME ++ .lit "=" ++
        bytesToHex (hmac md.hash 64 rt.config.deviceToken.bytes
          ((AETUS_HMAC_PREFIX ++ id ++ .lit "\n").bytes ++
            utf8 (hexText (md.hash payload).bytes))).bytes .empty 65)
  accepted : ∀ item uptimeMs event payload request header deviceId bootId hasBody,
    encodeQueueItem rt uptimeMs item = some event →
      postRequest md rt.config payload = .ok request →
      request.header "X-Device-Id" = some header → utf8 deviceId = event.deviceId.bytes →
      Ingest.checkEvent deviceId bootId hasBody (latin1 header.bytes) ≠
        .error ⟨400, "device id mismatch"⟩

/-- The service reads the id of an event as UTF-8 and that of a header as Latin-1. -/
def ReadsAlike (id : CString) : Prop :=
  ∀ text, utf8 text = id.bytes → ∀ b ∈ id.bytes, b < 128

def onlineItem : QueueItem := ⟨none, .status ⟨.online, 0, 0, .empty, 0⟩⟩

section Id

variable {md : MdLibrary} {c : TextConfig} {rt : Runtime (Option CString)}

theorem event_deviceId_iff {rt : Runtime CString} :
    (∀ item uptimeMs event, encodeQueueItem rt uptimeMs item = some event →
      event.deviceId = rt.config.deviceId) ↔ rt.config.deviceId.strlen ≤ 31 := by
  have hcopy := @copyString_eq_self_iff .empty rt.config.deviceId EVENT_DEVICE_ID_SIZE (by decide)
  rw [EVENT_DEVICE_ID_SIZE] at hcopy
  constructor
  · intro h
    have hstatus := h onlineItem 0 _ rfl
    exact Nat.lt_succ_iff.mp (hcopy.mp hstatus)
  · intro hfits item uptimeMs event hencode
    rw [encodeQueueItem_deviceId rt uptimeMs hencode]
    exact hcopy.mpr (by omega)

/-- Once the id arrives whole, the service lets every event through exactly when it reads
the two copies alike. -/
theorem accepted_iff {rt : Runtime CString} {id : CString}
    (hevent : ∀ item uptimeMs event, encodeQueueItem rt uptimeMs item = some event →
      event.deviceId = id)
    (hheader : ∀ payload request, postRequest md rt.config payload = .ok request →
      request.header "X-Device-Id" = some id)
    (hposts : ∃ payload request, postRequest md rt.config payload = .ok request) :
    (∀ item uptimeMs event payload request header deviceId bootId hasBody,
      encodeQueueItem rt uptimeMs item = some event →
        postRequest md rt.config payload = .ok request →
        request.header "X-Device-Id" = some header → utf8 deviceId = event.deviceId.bytes →
        Ingest.checkEvent deviceId bootId hasBody (latin1 header.bytes) ≠
          .error ⟨400, "device id mismatch"⟩) ↔ ReadsAlike id := by
  constructor
  · intro haccepted text htext
    obtain ⟨payload, request, hpost⟩ := hposts
    have hstatus := hevent onlineItem 0 _ rfl
    have hpassed := haccepted onlineItem 0 _ payload request id text [] true rfl hpost
      (hheader payload request hpost) (htext.trans (congrArg CString.bytes hstatus.symm))
    rw [ne_eq, Ingest.checkEvent_mismatch_iff, ne_eq, not_not] at hpassed
    exact (eq_latin1_iff htext).mp hpassed
  · intro halike item uptimeMs event payload request header deviceId bootId hasBody hencode hpost
      hsent hdecoded hmismatch
    rw [hheader payload request hpost, Option.some.injEq] at hsent
    rw [hevent item uptimeMs event hencode] at hdecoded
    rw [Ingest.checkEvent_mismatch_iff, ← hsent] at hmismatch
    exact hmismatch ((eq_latin1_iff hdecoded).mpr (halike deviceId hdecoded))

/-- The three ways agree, and nothing is rejected, exactly for ids of at most 31 bytes that
are read alike. -/
theorem idAgrees_iff (hmd : md.Works) (h : Accepted c rt) :
    IdAgrees md rt.text c.text.deviceId ↔
      c.text.deviceId.strlen ≤ 31 ∧ ReadsAlike c.text.deviceId := by
  obtain ⟨hvalid, interval, depth, hrunning⟩ := h.running
  have hid : rt.text.config.deviceId = c.text.deviceId := by
    simp only [Runtime.text, hrunning, Config.text, Config.map]
  have hmode : rt.text.config.authMode = .bearer ∨ rt.text.config.authMode = .hmacSha256 := by
    simpa only [Runtime.text, hrunning, Config.text, Config.map] using hvalid.authMode
  have hroom : rt.text.config.deviceId.strlen < 90 := by
    obtain ⟨s, hs, _, hlen⟩ := stringRequiredFits_iff.mp hvalid.deviceId
    rw [hid, Config.text, Config.map, hs]
    exact Nat.lt_of_le_of_lt hlen (by decide)
  rw [← hid]
  have hheader : ∀ payload request, postRequest md rt.text.config payload = .ok request →
      request.header "X-Device-Id" = some rt.text.config.deviceId := by
    intro payload request hpost
    exact postRequest_deviceId hmode hpost
  have hposts := postRequest_total hmd hmode hroom []
  constructor
  · intro hagrees
    exact ⟨event_deviceId_iff.mp hagrees.event,
      (accepted_iff hagrees.event hheader ⟨_, hposts⟩).mp hagrees.accepted⟩
  · rintro ⟨hfits, halike⟩
    have hevent := event_deviceId_iff.mpr hfits
    refine ⟨hevent, hheader, fun hhmac payload => ?_, ?_⟩
    · exact ⟨_, postRequest_signed hmd hhmac hroom payload, rfl⟩
    · exact (accepted_iff hevent hheader ⟨_, hposts⟩).mpr halike

def deviceConfig (deviceId : CString) : TextConfig :=
  sampleConfig .hmacSha256 deviceId (.lit "token") (.lit "lab") (.lit "password")

theorem shortId_agrees : ∃ rt, Accepted (deviceConfig (.lit "esp32-001")) rt ∧
    IdAgrees sumLibrary rt.text (.lit "esp32-001") := by
  have hvalid : ValidConfig (deviceConfig (.lit "esp32-001")) := by decide +kernel
  exact ⟨_, hvalid.accepted 0, (idAgrees_iff sumLibrary_works (hvalid.accepted 0)).mpr
    ⟨by decide +kernel, fun _ _ => by decide +kernel⟩⟩

def longId : CString := .ofBytes (List.replicate 32 97)

/-- An id of 32 bytes is accepted, its events arrive with 31 of them and are rejected. -/
theorem longId_rejected : ∃ rt, Accepted (deviceConfig longId) rt ∧
    ¬ IdAgrees sumLibrary rt.text longId := by
  have hvalid : ValidConfig (deviceConfig longId) := by decide +kernel
  refine ⟨_, hvalid.accepted 0, fun hagrees => ?_⟩
  have hpost := postRequest_signed (c := (startedRuntime 0 (deviceConfig longId)).text.config)
    sumLibrary_works rfl (by decide +kernel) []
  exact hagrees.accepted onlineItem 0 _ [] _ longId (List.replicate 31 'a') ['b'] true rfl hpost rfl
    (by decide +kernel) (by decide +kernel)

end Id

end Aetus
