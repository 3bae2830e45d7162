import Aetus.Base.CString

/-!
The ingest endpoint of the service's app.py: what it asks of an event it has parsed.
-/

set_option autoImplicit false

namespace Aetus.Ingest

structure HttpException where
  statusCode : Nat
  detail : String
  deriving DecidableEq

/-- The checks between `ParseFromString` and `normalize_event`. -/
def checkEvent (deviceId bootId : List Char) (hasBody : Bool) (xDeviceId : List Char) :
    Except HttpException Unit :=
  if deviceId ≠ xDeviceId then .error ⟨400, "device id mismatch"⟩
  else if bootId = [] then .error ⟨400, "boot_id required"⟩
  else if !hasBody then .error ⟨400, "body missing"⟩
  else .ok ()

theorem checkEvent_mismatch_iff {deviceId bootId xDeviceId : List Char} {hasBody : Bool} :
    checkEvent deviceId bootId hasBody xDeviceId = .error ⟨400, "device id mismatch"⟩ ↔
      deviceId ≠ xDeviceId := by
  unfold checkEvent
  by_cases hid : deviceId = xDeviceId
  · by_cases hboot : bootId = [] <;> cases hasBody <;> simp [hid, hboot]
  · simp [hid]

end Aetus.Ingest
