import Aetus.EndToEnd.DeviceFrames
import Aetus.EndToEnd.SignatureAgreement
import Aetus.Firmware.Requests
import Aetus.Ingest.Handler

/-!
The device's upload request in front of the ingest service: the request that `post_payload`
makes of a queue item's payload passes every check of the handler.
-/

set_option autoImplicit false

namespace Aetus
open Aetus.Base Aetus.Base.Protobuf

structure Arrival where
  clientHost : Option (List Char)
  now : ℚ
  requestId : List Char
  receivedAt : List Char

def received (arrival : Arrival) (r : Firmware.Request) : Ingest.IngestRequest where
  clientHost := arrival.clientHost
  method := POST
  path := INGEST_PATH
  xDeviceId := (r.header "X-Device-Id").map fun value => latin1 value.bytes
  authorization := (r.header "Authorization").map fun value => latin1 value.bytes
  xAetusSignature := (r.header "X-Aetus-Signature").map fun value => latin1 value.bytes
  contentType := (r.header "Content-Type").map fun value => latin1 value.bytes
  body := r.body
  now := arrival.now
  requestId := arrival.requestId
  receivedAt := arrival.receivedAt

/-- A text that a header carries unchanged: visible ASCII. -/
def Visible (s : CString) : Prop := ∀ b ∈ s.bytes, 33 ≤ b ∧ b < 127

theorem Visible.ascii {s : CString} (h : Visible s) : ∀ b ∈ s.bytes, b < 128 := by
  intro b hb
  have hlt := UInt8.lt_iff_toNat_lt.mp (h b hb).2
  exact UInt8.lt_iff_toNat_lt.mpr (hlt.trans (by decide))

variable {service : Ingest.IngestService} {settings : Ingest.IngestSettings}
  {store : Ingest.ControlStore} {md : Firmware.MdLibrary} {rt : Firmware.Runtime CString}

structure ItemRead (rt : Firmware.Runtime CString) (event : Ingest.IngestEvent) : Prop where
  deviceId : utf8 event.deviceId =
    (Firmware.copyString .empty Firmware.EVENT_DEVICE_ID_SIZE (some rt.config.deviceId)).bytes
  bootId : utf8 event.bootId =
    (Firmware.copyString .empty Firmware.EVENT_BOOT_ID_SIZE (some rt.bootId)).bytes
  sequence : event.sequence = rt.sequence
  body : event.body.isSome = true

theorem itemRead_of_decode {floats : FloatBits} {h : Firmware.Heap} {uptimeMs : UInt64}
    {item : Firmware.QueueItem} {m : EventMessage} {event : Ingest.IngestEvent}
    (hm : Firmware.itemMessage h rt uptimeMs item = some m)
    (hdecode : m.decode floats = some event) : ItemRead rt event := by
  obtain ⟨deviceEvent, hencode, hwire⟩ := Option.bind_eq_some_iff.mp hm
  obtain ⟨_, _, _, rfl⟩ := Firmware.encodeQueueItem_header rt uptimeMs hencode
  obtain ⟨body, -, rfl⟩ := Option.map_eq_some_iff.mp hwire
  simp only [EventMessage.decode, Firmware.IngestEvent.around, Option.bind_eq_bind,
    Option.bind_eq_some_iff] at hdecode
  obtain ⟨deviceId, hdevice, bootId, hboot, body, hbody, hevent⟩ := hdecode
  obtain ⟨_, -, rfl⟩ := Option.map_eq_some_iff.mp hbody
  cases hevent
  exact ⟨decodeText_eq_some_iff.mp hdevice, decodeText_eq_some_iff.mp hboot, rfl, rfl⟩

theorem prepareDeviceIngest_ok {request : Ingest.IngestRequest} {xDeviceId rateLimitPrefix : List Char}
    {buckets after : Ingest.Buckets} {decision : Ingest.RateLimitDecision}
    (haddress : Ingest.isSourceIpAllowed service.ipAddress (Ingest.sourceIp request.clientHost)
      settings.allowedSourceCidrs = true)
    (hrate : Ingest.consume service.rounding buckets (Ingest.rateLimitKey rateLimitPrefix xDeviceId
        (Ingest.sourceIp request.clientHost))
      (Ingest.ingestRatePlan settings xDeviceId) request.now = .ok (decision, after))
    (hallowed : decision.allowed = true) :
    Ingest.prepareDeviceIngest service settings buckets request xDeviceId rateLimitPrefix =
      (.ok (Ingest.sourceIp request.clientHost), after) := by
  rw [Ingest.prepareDeviceIngest]
  simp only [haddress, hrate, hallowed, Bool.not_true, Bool.false_eq_true, if_false, if_true]

end Aetus
