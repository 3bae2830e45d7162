import Aetus.Ingest.Handler

/-!
What has held of a request whose event is handed to the publisher.
-/

set_option autoImplicit false

namespace Aetus.Ingest
open Aetus.Base

/-- The credentials that a request carries for a device with this stored token: a signature
over exactly its body, or, when none is required and no text of one is sent, the token. -/
def Credentials (service : IngestService) (settings : IngestSettings) (request : IngestRequest)
    (xDeviceId token : List Char) : Prop :=
  (settings.hmacAuthEnabled = true ∧ ∃ signature signatureHex,
      request.xAetusSignature = some signature ∧ signature ≠ [] ∧
      parseHmacSignature (some signature) = .ok signatureHex ∧
      hexText (hmac service.sha256 64 (utf8 token) (buildHmacSigningInput service.sha256
        request.method request.path xDeviceId request.body)).bytes = signatureHex) ∨
    (settings.hmacAuthRequired = false ∧
      (request.xAetusSignature = none ∨ request.xAetusSignature = some []) ∧
      extractBearerToken request.authorization = .ok token)

theorem verifyHmacSignature_true {sha256 : HashFunction 32} {deviceId method path : List Char}
    {body : List UInt8} {signature : List Char} {controlDb : List Char → Option (List Char)}
    (h : verifyHmacSignature sha256 deviceId method path body (some signature) controlDb = true) :
    ∃ secret signatureHex, controlDb deviceId = some secret ∧
      parseHmacSignature (some signature) = .ok signatureHex ∧
      hexText (hmac sha256 64 (utf8 secret)
        (buildHmacSigningInput sha256 method path deviceId body)).bytes = signatureHex := by
  unfold verifyHmacSignature at h
  split at h
  · cases h
  · next signatureHex hparse =>
    split at h
    · cases h
    · next secret hsecret => exact ⟨secret, signatureHex, hsecret, hparse, of_decide_eq_true h⟩

theorem requireBearerDeviceAuth_ok {store : ControlStore} {xDeviceId : List Char}
    {authorization : Option (List Char)}
    (h : requireBearerDeviceAuth store xDeviceId authorization = .ok ()) :
    ∃ token, store.getDeviceTokenReadonly xDeviceId = some token ∧
      extractBearerToken authorization = .ok token := by
  unfold requireBearerDeviceAuth at h
  split at h
  · cases h
  · next token hextract =>
    split at h
    · next hverify =>
      refine ⟨token, ?_, hextract⟩
      unfold verifyDeviceToken at hverify
      split at hverify
      · cases hverify
      · next expected hexpected => rw [hexpected, of_decide_eq_true hverify]
    · cases h

theorem requireIngestAuth_ok {service : IngestService} {settings : IngestSettings}
    {store : ControlStore} {request : IngestRequest} {xDeviceId : List Char}
    (h : requireIngestAuth service settings store request xDeviceId = .ok ()) :
    ∃ token, store.getDeviceTokenReadonly xDeviceId = some token ∧
      Credentials service settings request xDeviceId token := by
  have hbearer (hnone : request.xAetusSignature = none ∨ request.xAetusSignature = some [])
      (h : (if settings.hmacAuthRequired then .error ⟨401, "hmac authentication required"⟩
        else requireBearerDeviceAuth store xDeviceId request.authorization) = .ok ()) :
      ∃ token, store.getDeviceTokenReadonly xDeviceId = some token ∧
        Credentials service settings request xDeviceId token := by
    split at h
    · cases h
    · next hrequired =>
      obtain ⟨token, htoken, hextract⟩ := requireBearerDeviceAuth_ok h
      exact ⟨token, htoken, .inr ⟨Bool.eq_false_iff.mpr hrequired, hnone, hextract⟩⟩
  unfold requireIngestAuth at h
  split at h
  · next hnone => exact hbearer (.inl hnone) h
  · next hempty => exact hbearer (.inr hempty) h
  · next signature hne hsignature =>
    split at h
    · cases h
    · next henabled =>
      split at h
      · next hverify =>
        obtain ⟨token, signatureHex, htoken, hparse, hhmac⟩ := verifyHmacSignature_true hverify
        refine ⟨token, htoken, .inl ⟨by simpa using henabled, signature, signatureHex, hsignature,
          ?_, hparse, hhmac⟩⟩
        rintro rfl
        exact hne rfl
      · cases h

theorem prepareDeviceIngest_ok {service : IngestService} {settings : IngestSettings}
    {buckets after : Buckets} {request : IngestRequest} {xDeviceId rateLimitPrefix ip : List Char}
    (h : prepareDeviceIngest service settings buckets request xDeviceId rateLimitPrefix =
      (.ok ip, after)) :
    ip = sourceIp request.clientHost ∧
      isSourceIpAllowed service.ipAddress ip settings.allowedSourceCidrs = true ∧
      ∃ decision, consume service.rounding buckets (rateLimitKey rateLimitPrefix xDeviceId ip)
        (ingestRatePlan settings xDeviceId) request.now = .ok (decision, after) ∧
        decision.allowed = true := by
  simp only [prepareDeviceIngest] at h
  split at h
  · cases h
  · next hallowed =>
    split at h
    · cases h
    · next decision buckets hconsume =>
      split at h
      · next hdecision =>
        obtain ⟨hip, rfl⟩ := Prod.mk.inj h
        obtain rfl := Except.ok.inj hip
        exact ⟨rfl, by simpa using hallowed, decision, hconsume, hdecision⟩
      · cases h

theorem checkEvent_ok {deviceId bootId xDeviceId : List Char} {hasBody : Bool}
    (h : checkEvent deviceId bootId hasBody xDeviceId = .ok ()) : deviceId = xDeviceId := by
  by_contra hne
  rw [checkEvent, if_pos hne] at h
  cases h

theorem readEvent_ok {service : IngestService} {settings : IngestSettings} {store : ControlStore}
    {request : IngestRequest} {xDeviceId ip : List Char} {normalized : NormalizedEvent}
    (h : readEvent service settings store request xDeviceId ip = .ok normalized) :
    (request.body.length : Int) ≤ settings.maxBodyBytes ∧
      requireIngestAuth service settings store request xDeviceId = .ok () ∧
      ∃ event, service.parseFromString request.body = some event ∧ event.deviceId = xDeviceId ∧
        normalizeEvent ⟨request.requestId, request.receivedAt, ip⟩ event = .ok normalized := by
  unfold readEvent at h
  split at h
  · cases h
  · next hsize =>
    split at h
    · cases h
    · next hauth =>
      split at h
      · cases h
      · next event hparse =>
        split at h
        · cases h
        · next hcheck =>
          exact ⟨not_lt.mp hsize, hauth, event, hparse, checkEvent_ok hcheck, h⟩

structure Admitted (service : IngestService) (settings : IngestSettings) (store : ControlStore)
    (buckets : Buckets) (request : IngestRequest) (published : NormalizedEvent) : Prop where
  address : isSourceIpAllowed service.ipAddress (sourceIp request.clientHost)
    settings.allowedSourceCidrs = true
  limiter : ∃ decision after,
    consume service.rounding buckets
      (rateLimitKey "ingest".toList published.deviceId (sourceIp request.clientHost))
      (ingestRatePlan settings published.deviceId) request.now = .ok (decision, after) ∧
      decision.allowed = true
  size : (request.body.length : Int) ≤ settings.maxBodyBytes
  parsed : ∃ event, service.parseFromString request.body = some event ∧
    normalizeEvent ⟨request.requestId, request.receivedAt, sourceIp request.clientHost⟩ event =
      .ok published
  device : request.xDeviceId = some published.deviceId
  credentials : ∃ token, store.getDeviceTokenReadonly published.deviceId = some token ∧
    Credentials service settings request published.deviceId token

theorem prepareDeviceIngest_error {service : IngestService} {settings : IngestSettings}
    {buckets after : Buckets} {request : IngestRequest} {xDeviceId rateLimitPrefix : List Char}
    {reply : IngestReply}
    (h : prepareDeviceIngest service settings buckets request xDeviceId rateLimitPrefix =
      (.error reply, after)) : reply.isAccepted = false := by
  simp only [prepareDeviceIngest] at h
  split at h
  · obtain rfl := Except.error.inj (Prod.mk.inj h).1
    rfl
  · split at h
    · obtain rfl := Except.error.inj (Prod.mk.inj h).1
      rfl
    · split at h
      · cases h
      · obtain rfl := Except.error.inj (Prod.mk.inj h).1
        rfl

/-- The handler stops without publishing, or it publishes the one event it has read. -/
theorem ingest_cases (service : IngestService) (settings : IngestSettings) (store : ControlStore)
    (buckets : Buckets) (request : IngestRequest) :
    let result := ingest service settings store buckets request
    (result.published = [] ∧ result.reply.isAccepted = false) ∨
      ∃ xDeviceId after ip normalized,
      request.xDeviceId = some xDeviceId ∧
      prepareDeviceIngest service settings buckets request xDeviceId "ingest".toList =
        (.ok ip, after) ∧
      readEvent service settings store request xDeviceId ip = .ok normalized ∧
      result.published = [normalized] ∧
      if service.publish normalized then
        result.reply = .accepted normalized.requestId normalized.deviceId normalized.sequence
      else result.reply = .error ⟨503, "event publisher unavailable"⟩ := by
  simp only [ingest]
  split
  · exact .inl ⟨rfl, rfl⟩
  · next xDeviceId hdevice =>
    split
    · exact .inl ⟨rfl, rfl⟩
    · split
      · next hprepare => exact .inl ⟨rfl, prepareDeviceIngest_error hprepare⟩
      · next ip after hprepare =>
        split
        · exact .inl ⟨rfl, rfl⟩
        · next normalized hread =>
          refine .inr ⟨xDeviceId, after, ip, normalized, hdevice, hprepare, hread, ?_⟩
          split <;> exact ⟨rfl, rfl⟩

/-- The publisher is called at most once, only for a request that has passed every check,
and never for one that is answered with a client error. -/
theorem ingest_admitted (service : IngestService) (settings : IngestSettings)
    (store : ControlStore) (buckets : Buckets) (request : IngestRequest) :
    let result := ingest service settings store buckets request
    result.published.length ≤ 1 ∧
      (∀ event ∈ result.published, Admitted service settings store buckets request event) ∧
      (400 ≤ result.reply.statusCode ∧ result.reply.statusCode < 500 → result.published = []) := by
  intro result
  rcases ingest_cases service settings store buckets request with hnone | hone
  · have hpublished : result.published = [] := hnone.1
    simp [hpublished]
  · obtain ⟨xDeviceId, after, ip, normalized, hdevice, hprepare, hread, hpublished, hreply⟩ := hone
    obtain ⟨rfl, haddress, decision, hconsume, hallowed⟩ := prepareDeviceIngest_ok hprepare
    obtain ⟨hsize, hauth, event, hparse, rfl, hnormalize⟩ := readEvent_ok hread
    obtain ⟨payload, -, rfl⟩ := normalizeEvent_ok hnormalize
    have hone : result.published = [_] := hpublished
    refine ⟨by simp [hone], fun published hmem => ?_, fun hstatus => ?_⟩
    · rw [hone, List.mem_singleton] at hmem
      subst hmem
      exact ⟨haddress, ⟨decision, after, hconsume, hallowed⟩, hsize, ⟨event, hparse, hnormalize⟩,
        hdevice, requireIngestAuth_ok hauth⟩
    · exfalso
      split at hreply
      · have hcode : result.reply.statusCode = 202 := congrArg IngestReply.statusCode hreply
        omega
      · have hcode : result.reply.statusCode = 503 := congrArg IngestReply.statusCode hreply
        omega

/-- An empty signature header counts as none: it is sent, and the bearer token is taken. -/
theorem ingest_empty_signature :
    let event : IngestEvent := ⟨1, "dev".toList, 0, EVENT_TYPE_STATUS, "boot".toList, 0, 0, 0,
      some (.status 1 0 0 [])⟩
    let service : IngestService := ⟨fun _ => some (.v4 0), fun _ => ⟨List.replicate 32 0, rfl⟩,
      fun _ => some event, binary64, fun _ => true⟩
    let settings : IngestSettings := ⟨[.v4 0 0], [], 1024, 2, 10, 20, 20, true, false⟩
    let store : ControlStore := ⟨⟨[⟨"dev".toList, "hw".toList, "tok".toList, none, none, none, [], []⟩],
      by decide, by decide⟩, []⟩
    let request : IngestRequest := ⟨none, "POST".toList, "/v1/ingest".toList, some "dev".toList,
      some "Bearer tok".toList, some [], some "application/x-protobuf".toList, [], 0, [], []⟩
    (ingest service settings store ∅ request).published.length = 1 ∧
      ¬((settings.hmacAuthEnabled = true ∧ ∃ signature signatureHex,
          request.xAetusSignature = some signature ∧
          parseHmacSignature (some signature) = .ok signatureHex) ∨
        (settings.hmacAuthRequired = false ∧ request.xAetusSignature = none ∧
          extractBearerToken request.authorization = .ok "tok".toList)) := by
  intro event service settings store request
  refine ⟨by decide +kernel, ?_⟩
  rintro (⟨-, signature, signatureHex, hsignature, hparse⟩ | ⟨-, hnone, -⟩)
  · obtain rfl := Option.some.inj hsignature
    cases hparse
  · cases hnone

end Aetus.Ingest
