import Aetus.Firmware.Requests
import Aetus.Firmware.Runtime

/-!
The credentials where they are used: the `Authorization` header of both requests and
the strings handed to the Wi-Fi driver.
-/

set_option autoImplicit false

namespace Aetus.Firmware
open Aetus.Base

def DriverCall.HandsWhole (c : Config CString) : DriverCall → Prop
  | .setConfig sta => sta.ssid = c.wifiSsid ∧ (c.wifiAuth = .psk → sta.password = c.wifiPassword)
  | .setIdentity identity => identity = c.wifiIdentity
  | .setUsername username => username = c.wifiIdentity
  | .setPassword password => password = c.wifiPassword
  | .enterpriseDisable | .setEapMethodsPeap | .enterpriseEnable | .connect => True

structure CredentialsWhole (md : MdLibrary) (running c : Config CString) : Prop where
  post : ∀ payload request, postRequest md running payload = .ok request →
    running.authMode = .bearer →
      request.header "Authorization" = some (.lit "Bearer " ++ c.deviceToken)
  time : ∀ request, timeRequest running = .ok request →
    request.header "Authorization" = some (.lit "Bearer " ++ c.deviceToken)
  wifi : ∀ driver, ∀ call ∈ (wifiApplyStaConfig driver running).1, call.HandsWhole c

def timeUrlResolves (c : Config CString) : Prop :=
  c.timeUrl ≠ .empty ∨ endsWith c.ingestUrl AETUS_INGEST_PATH = true

structure CredentialsFit (c : Config CString) : Prop where
  token : c.authMode = .bearer ∨ timeUrlResolves c → c.deviceToken.strlen ≤ 120
  ssid : c.wifiSsid.strlen ≤ 31
  password : c.wifiAuth = .psk → c.wifiPassword.strlen ≤ 63

section Uses

variable {md : MdLibrary} {c : Config CString}

/-- The buffer of 160 bytes is never the reason that no time URL is found. -/
theorem resolveTimeUrl_isOk_iff (hurl : c.ingestUrl.strlen ≤ AETUS_URL_MAX) :
    (∃ url, resolveTimeUrl c 160 = .ok url) ↔ timeUrlResolves c := by
  have hmax : AETUS_URL_MAX = 159 := rfl
  have hingest : AETUS_INGEST_PATH.strlen = 10 := by decide +kernel
  have htime : AETUS_TIME_PATH.strlen = 8 := by decide +kernel
  have hfits : c.ingestUrl.strlen - AETUS_INGEST_PATH.strlen + AETUS_TIME_PATH.strlen + 1 ≤ 160 := by
    omega
  unfold resolveTimeUrl timeUrlResolves
  by_cases hset : c.timeUrl ≠ .empty
  · simp only [if_pos hset]
    exact ⟨fun _ => .inl hset, fun _ => ⟨_, rfl⟩⟩
  · simp only [hset, false_or]
    by_cases hends : endsWith c.ingestUrl AETUS_INGEST_PATH = true
    · simp only [hends, hfits, decide_true, iff_true]
      exact ⟨_, rfl⟩
    · simp [hends, espReturnOnFalse, bind, Except.bind]

theorem timeRequest_isOk_iff (hurl : c.ingestUrl.strlen ≤ AETUS_URL_MAX) :
    (∃ request, timeRequest c = .ok request) ↔ timeUrlResolves c := by
  rw [← resolveTimeUrl_isOk_iff hurl]
  unfold timeRequest
  cases hresolve : resolveTimeUrl c 160 with
  | error e => simp [returnOnError, Except.mapError, bind, Except.bind]
  | ok url => simp [bind, Except.bind, pure, Except.pure]

theorem timeRequest_authorization {request : Request} (h : timeRequest c = .ok request) :
    request.header "Authorization" = some (authorization c) := by
  unfold timeRequest at h
  cases hurl : resolveTimeUrl c 160 with
  | error e => simp [hurl, returnOnError, Except.mapError, bind, Except.bind] at h
  | ok url =>
    simp [hurl, bind, Except.bind, pure, Except.pure] at h
    subst h
    rfl

theorem wifiApplyStaConfig_setConfig (driver : Driver) (c : Config CString) :
    .setConfig (staConfig c) ∈ (wifiApplyStaConfig driver c).1 := by
  by_cases hset : driver (.setConfig (staConfig c)) = .ok
  · by_cases hauth : c.wifiAuth = .peap <;>
      simp [wifiApplyStaConfig, makeCalls, espReturnOnError, hset, hauth]
  · simp [wifiApplyStaConfig, makeCalls, espReturnOnError, hset]

/-- The two arrays of the station configuration hold the strings exactly when a terminator
fits behind them. -/
theorem staConfig_handsWhole_iff :
    (DriverCall.setConfig (staConfig c)).HandsWhole c ↔
      c.wifiSsid.strlen ≤ 31 ∧ (c.wifiAuth = .psk → c.wifiPassword.strlen ≤ 63) := by
  have hssid := @copyString_eq_self_iff .empty c.wifiSsid SSID_SIZE (by decide)
  have hpassword := @copyString_eq_self_iff .empty c.wifiPassword PASSWORD_SIZE (by decide)
  rw [SSID_SIZE] at hssid
  rw [PASSWORD_SIZE] at hpassword
  simp only [DriverCall.HandsWhole, staConfig, SSID_SIZE, PASSWORD_SIZE]
  by_cases hpsk : c.wifiAuth = .psk
  · simp only [hpsk, if_true, hssid, hpassword, true_implies]
    omega
  · simp only [hpsk, hssid, false_implies, and_true]
    omega

theorem peapCalls_handWhole : ∀ call ∈ (peapCalls c).map Prod.fst, call.HandsWhole c := by
  simp [peapCalls, DriverCall.HandsWhole]

theorem wifi_handsWhole_iff :
    (∀ driver, ∀ call ∈ (wifiApplyStaConfig driver c).1, call.HandsWhole c) ↔
      c.wifiSsid.strlen ≤ 31 ∧ (c.wifiAuth = .psk → c.wifiPassword.strlen ≤ 63) := by
  rw [← staConfig_handsWhole_iff]
  constructor
  · intro h
    exact h (fun _ => .ok) _ (wifiApplyStaConfig_setConfig _ c)
  · intro hsta driver call hcall
    rcases wifiApplyStaConfig_subset driver c call hcall with rfl | hchecked
    · trivial
    · rcases List.mem_cons.mp hchecked with rfl | hpeap
      · exact hsta
      · split at hpeap
        · exact peapCalls_handWhole call hpeap
        · simp at hpeap

theorem credentialsWhole_self_iff (hurl : c.ingestUrl.strlen ≤ AETUS_URL_MAX) :
    CredentialsWhole md c c ↔ CredentialsFit c := by
  have htime := timeRequest_isOk_iff hurl
  constructor
  · intro h
    refine ⟨fun hsent => ?_, (wifi_handsWhole_iff.mp h.wifi).1, (wifi_handsWhole_iff.mp h.wifi).2⟩
    rw [← authorization_eq_iff]
    rcases hsent with hbearer | hresolves
    · exact Option.some.inj (h.post [] _ (postRequest_bearer hbearer) hbearer)
    · obtain ⟨request, hrequest⟩ := htime.mpr hresolves
      have hwhole := h.time request hrequest
      rw [timeRequest_authorization hrequest] at hwhole
      exact Option.some.inj hwhole
  · intro h
    refine ⟨fun payload request hpost hbearer => ?_, fun request hrequest => ?_,
      wifi_handsWhole_iff.mpr ⟨h.ssid, h.password⟩⟩
    · rw [postRequest_bearer hbearer] at hpost
      cases hpost
      exact congrArg some (authorization_eq_iff.mpr (h.token (.inl hbearer)))
    · rw [timeRequest_authorization hrequest]
      exact congrArg some (authorization_eq_iff.mpr (h.token (.inr (htime.mp ⟨request, hrequest⟩))))

end Uses

/-- The credentials of an accepted configuration are used whole exactly when they fit. -/
theorem credentialsWhole_iff {md : MdLibrary} {c : TextConfig} {rt : Runtime (Option CString)}
    (h : Accepted c rt) :
    CredentialsWhole md rt.text.config c.text ↔ CredentialsFit c.text := by
  obtain ⟨hvalid, interval, depth, hrunning⟩ := h.running
  have hurl : rt.text.config.ingestUrl.strlen ≤ AETUS_URL_MAX := by
    obtain ⟨s, hs, _, hlen⟩ := stringRequiredFits_iff.mp hvalid.ingestUrl
    simp only [Runtime.text, hrunning, Config.text, Config.map, hs]
    exact hlen
  have hwhole : CredentialsWhole md rt.text.config c.text ↔
      CredentialsWhole md rt.text.config rt.text.config := by
    simp only [Runtime.text, hrunning]
    exact ⟨fun h => ⟨h.post, h.time, h.wifi⟩, fun h => ⟨h.post, h.time, h.wifi⟩⟩
  have hfit : CredentialsFit rt.text.config ↔ CredentialsFit c.text := by
    simp only [Runtime.text, hrunning]
    exact ⟨fun h => ⟨h.token, h.ssid, h.password⟩, fun h => ⟨h.token, h.ssid, h.password⟩⟩
  rw [hwhole, credentialsWhole_self_iff hurl, hfit]

theorem shortCredentials_whole : ∃ rt, Accepted (labConfig .bearer) rt ∧
    CredentialsWhole sumLibrary rt.text.config (labConfig .bearer).text := by
  have hvalid : ValidConfig (labConfig .bearer) := by decide +kernel
  refine ⟨_, hvalid.accepted 0, (credentialsWhole_iff (hvalid.accepted 0)).mpr ?_⟩
  exact ⟨fun _ => by decide +kernel, by decide +kernel, fun _ => by decide +kernel⟩

def longSecrets : TextConfig :=
  sampleConfig .bearer (.lit "esp32-001") (.ofBytes (List.replicate 121 97))
    (.ofBytes (List.replicate 32 98)) (.ofBytes (List.replicate 64 99))

/-- A token of 121 bytes, an SSID of 32 and a password of 64 are accepted, and each loses
its last byte in use. -/
theorem longSecrets_cut : ∃ rt, Accepted longSecrets rt ∧
    ¬ CredentialsWhole sumLibrary rt.text.config longSecrets.text := by
  have hvalid : ValidConfig longSecrets := by decide +kernel
  refine ⟨_, hvalid.accepted 0, fun hwhole => ?_⟩
  have hpost := hwhole.post [] _ (postRequest_bearer rfl) rfl
  exact absurd hpost (by decide +kernel)

end Aetus.Firmware
