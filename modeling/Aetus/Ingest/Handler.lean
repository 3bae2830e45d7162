import Aetus.Ingest.Auth
import Aetus.Ingest.ControlDb
import Aetus.Ingest.Normalize
import Aetus.Ingest.RateLimit

/-!
The handler of POST /v1/ingest in the service's app.py: its checks in their order, and
the events that it hands to the publisher.
-/

set_option autoImplicit false

namespace Aetus.Ingest
open Aetus.Base

structure IngestSettings where
  allowedSourceCidrs : List IpNetwork
  allowlistDeviceIds : List (List Char)
  maxBodyBytes : Int
  ingestRequestsPerSecond : ℚ
  ingestBurst : Int
  allowlistRequestsPerSecond : ℚ
  allowlistBurst : Int
  hmacAuthEnabled : Bool
  hmacAuthRequired : Bool

/-- A request with its headers, none for one that is not sent, the reading of the limiter's
clock, and the request id and time that go into the envelope. -/
structure IngestRequest where
  clientHost : Option (List Char)
  method : List Char
  path : List Char
  xDeviceId : Option (List Char)
  authorization : Option (List Char)
  xAetusSignature : Option (List Char)
  contentType : Option (List Char)
  body : List UInt8
  now : ℚ
  requestId : List Char
  receivedAt : List Char

/-- The libraries behind the handler, `ParseFromString` among them, what its floats are rounded to,
and the publisher: whether `publish` returns. -/
structure IngestService where
  ipAddress : List Char → Option IpAddress
  sha256 : HashFunction 32
  parseFromString : List UInt8 → Option IngestEvent
  rounding : Rounding
  publish : NormalizedEvent → Bool

inductive IngestReply where
  | accepted (requestId deviceId : List Char) (sequence : Nat)
  | error (exception : HttpException)
  | rateLimited (detail : String) (retryAfter : Int)
  | unprocessable
  | serverError

def IngestReply.statusCode : IngestReply → Nat
  | .accepted _ _ _ => 202
  | .error exception => exception.statusCode
  | .rateLimited _ _ => 429
  | .unprocessable => 422
  | .serverError => 500

def IngestReply.isAccepted : IngestReply → Bool
  | .accepted _ _ _ => true
  | _ => false

structure IngestResult where
  reply : IngestReply
  buckets : Buckets
  published : List NormalizedEvent

def raiseRateLimited (decision : RateLimitDecision) (detail : String) : IngestReply :=
  .rateLimited detail (max 1 decision.retryAfterSeconds.ceil)

def ingestRatePlan (settings : IngestSettings) (deviceId : List Char) : RateLimitPlan :=
  if deviceId ∈ settings.allowlistDeviceIds then
    ⟨settings.allowlistRequestsPerSecond, settings.allowlistBurst⟩
  else ⟨settings.ingestRequestsPerSecond, settings.ingestBurst⟩

def sourceIp (clientHost : Option (List Char)) : List Char := clientHost.getD "0.0.0.0".toList

def rateLimitKey (rateLimitPrefix xDeviceId sourceIp : List Char) : List Char :=
  rateLimitPrefix ++ ':' :: (xDeviceId ++ ':' :: sourceIp)

def prepareDeviceIngest (service : IngestService) (settings : IngestSettings) (buckets : Buckets)
    (request : IngestRequest) (xDeviceId rateLimitPrefix : List Char) :
    Except IngestReply (List Char) × Buckets :=
  let ip := sourceIp request.clientHost
  if !isSourceIpAllowed service.ipAddress ip settings.allowedSourceCidrs then
    (.error (.error ⟨403, "source ip not allowed"⟩), buckets)
  else
    match consume service.rounding buckets (rateLimitKey rateLimitPrefix xDeviceId ip)
      (ingestRatePlan settings xDeviceId) request.now with
    | .error _ => (.error .serverError, buckets)
    | .ok (decision, buckets) =>
      if decision.allowed then (.ok ip, buckets)
      else (.error (raiseRateLimited decision "rate limit exceeded"), buckets)

def requireBearerDeviceAuth (store : ControlStore) (xDeviceId : List Char)
    (authorization : Option (List Char)) : Except HttpException Unit :=
  match extractBearerToken authorization with
  | .error message => .error ⟨401, message⟩
  | .ok token =>
    if verifyDeviceToken xDeviceId token store.getDeviceTokenReadonly then .ok ()
    else .error ⟨401, "invalid device token"⟩

def requireIngestAuth (service : IngestService) (settings : IngestSettings)
    (store : ControlStore) (request : IngestRequest) (xDeviceId : List Char) :
    Except HttpException Unit :=
  match request.xAetusSignature with
  | none | some [] =>
    if settings.hmacAuthRequired then .error ⟨401, "hmac authentication required"⟩
    else requireBearerDeviceAuth store xDeviceId request.authorization
  | some signature =>
    if !settings.hmacAuthEnabled then .error ⟨401, "hmac authentication disabled"⟩
    else if verifyHmacSignature service.sha256 xDeviceId request.method request.path request.body
        (some signature) store.getDeviceTokenReadonly then .ok ()
    else .error ⟨401, "invalid hmac signature"⟩

/-- `"application/x-protobuf" in content_type`. -/
def isProtobuf (contentType : Option (List Char)) : Bool :=
  match contentType with
  | none => false
  | some contentType => contentType.tails.any ("application/x-protobuf".toList.isPrefixOf ·)

def readEvent (service : IngestService) (settings : IngestSettings) (store : ControlStore)
    (request : IngestRequest) (xDeviceId ip : List Char) : Except HttpException NormalizedEvent :=
  if (request.body.length : Int) > settings.maxBodyBytes then
    .error ⟨413, "request body too large"⟩
  else
    match requireIngestAuth service settings store request xDeviceId with
    | .error e => .error e
    | .ok () =>
      match service.parseFromString request.body with
      | none => .error ⟨400, "invalid protobuf"⟩
      | some event =>
        match checkEvent event.deviceId event.bootId event.body.isSome xDeviceId with
        | .error e => .error e
        | .ok () => normalizeEvent ⟨request.requestId, request.receivedAt, ip⟩ event

def ingest (service : IngestService) (settings : IngestSettings) (store : ControlStore)
    (buckets : Buckets) (request : IngestRequest) : IngestResult :=
  match request.xDeviceId with
  | none => ⟨.unprocessable, buckets, []⟩
  | some xDeviceId =>
    if !isProtobuf request.contentType then
      ⟨.error ⟨415, "content-type must be application/x-protobuf"⟩, buckets, []⟩
    else
      match prepareDeviceIngest service settings buckets request xDeviceId "ingest".toList with
      | (.error reply, buckets) => ⟨reply, buckets, []⟩
      | (.ok ip, buckets) =>
        match readEvent service settings store request xDeviceId ip with
        | .error e => ⟨.error e, buckets, []⟩
        | .ok normalized =>
          if service.publish normalized then
            ⟨.accepted normalized.requestId normalized.deviceId normalized.sequence, buckets,
              [normalized]⟩
          else ⟨.error ⟨503, "event publisher unavailable"⟩, buckets, [normalized]⟩

end Aetus.Ingest
