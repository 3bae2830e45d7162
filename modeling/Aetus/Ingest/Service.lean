import Aetus.Base.Runs
import Aetus.Ingest.AdminAccess
import Aetus.Ingest.Handler
import Aetus.Ingest.TimeSync

/-!
The ingest service between its start and the next: the requests of many clients, whose handlers
give way to one another where they wait for the control store or for the publisher.
-/

set_option autoImplicit false

namespace Aetus.Ingest
open Aetus.Base

structure ServiceSettings where
  ingest : IngestSettings
  admin : AdminSettings
  bootstrapToken : List Char
  bootstrapRequestsPerWindow : Int
  bootstrapWindowSeconds : ℚ
  allowedHardwareIds : List (List Char)
  deviceTokens : Dict (List Char) (List Char)

structure ProvisionRequest where
  hardwareId : List Char
  model : List Char
  firmwareVersion : Option Int
  siteCode : Option (List Char)

/-- A request to `/v1/provision` with the reading of the limiter's clock, and what
`issue_device_token` reads of `secrets` and of the clock. -/
structure ProvisionCall where
  clientHost : Option (List Char)
  authorization : Option (List Char)
  payload : ProvisionRequest
  now : ℚ
  fresh : List Char
  utcNow : List Char

structure ProvisionConfig where
  ingestUrl : String
  maxBatchSize : Nat
  retryBackoffMs : Nat

structure ProvisionResponse where
  deviceId : List Char
  tokenType : String
  accessToken : List Char
  config : ProvisionConfig

inductive ServiceReply where
  | ingest (reply : IngestReply)
  | time (response : TimeSyncResponse)
  | provisioned (response : ProvisionResponse)
  | admin (response : AdminResponse)

inductive Authority where
  | bootstrap (call : ProvisionCall)
  | admin (request : AdminRequest) (payload : DeviceIssueRequest)

def Authority.issue : Authority → IssueRequest
  | .bootstrap call => ⟨call.payload.hardwareId, some call.payload.model,
      call.payload.firmwareVersion, call.payload.siteCode, "devtok_".toList ++ call.fresh,
      call.utcNow⟩
  | .admin request payload => payload.issue request

/-- A handler that waits, for the store or for the publisher, with what it goes on with. -/
inductive Waiting where
  | ingesting (request : IngestRequest) (xDeviceId ip : List Char)
  | publishing (normalized : NormalizedEvent)
  | syncing (request : IngestRequest) (xDeviceId : List Char) (unixTimeNs : Nat)
  | provisioning (call : ProvisionCall)
  | issuing (authority : Authority)
  | answering (authority : Authority) (issued : DeviceRecord)

inductive LedgerEntry where
  | allowlisted (hardwareIds : List (List Char))
  | seeded (deviceTokens : Dict (List Char) (List Char))
  | started (settings : ServiceSettings)
  | admin (request : AdminRequest)
  | cleared (authority : Authority)
  | issued (authority : Authority) (record : DeviceRecord)
  | admitted (request : IngestRequest) (event : NormalizedEvent)
  | published (event : NormalizedEvent)
  | replied (reply : ServiceReply)

/-- The service, with settings while it is up, and with all that has happened, the latest first. -/
structure ServiceState where
  settings : Option ServiceSettings
  store : ControlStore
  buckets : Buckets
  sessions : AdminSessions
  waiting : List Waiting
  ledger : List LedgerEntry

namespace ServiceState

def installed : ServiceState := ⟨none, .initialized, ∅, ∅, [], []⟩

def record (s : ServiceState) (entry : LedgerEntry) : ServiceState :=
  { s with ledger := entry :: s.ledger }

def reply (s : ServiceState) (reply : ServiceReply) : ServiceState := s.record (.replied reply)

def wait (s : ServiceState) (waiting : Waiting) : ServiceState :=
  { s with waiting := waiting :: s.waiting }

end ServiceState

def seedHardwareAllowlist (store : ControlStore) (hardwareIds : List (List Char)) : ControlStore :=
  ⟨store.devices, hardwareIds.foldl (fun allowlist hardwareId => allowlist.insert hardwareId)
    store.hardwareAllowlist⟩

def ControlStore.isHardwareAllowedReadonly (store : ControlStore) (hardwareId : List Char) : Bool :=
  store.hardwareAllowlist.contains hardwareId

/-- A parameter that psycopg does not send. -/
def textRefused (backend : Backend) (text : List Char) : Bool :=
  backend.dialect = .postgres && text.contains '\x00'

/-- The plan of one source address; none for a `ZeroDivisionError`. -/
def bootstrapPlan (rounding : Rounding) (settings : ServiceSettings) : Option RateLimitPlan :=
  if settings.bootstrapWindowSeconds = 0 then none
  else some ⟨rounding (rounding settings.bootstrapRequestsPerWindow / settings.bootstrapWindowSeconds),
    settings.bootstrapRequestsPerWindow⟩

def bootstrapKey (sourceIp : List Char) : List Char := "bootstrap:".toList ++ sourceIp

section
variable (backend : Backend) (unicode : Unicode) (service : IngestService)
  (settings : ServiceSettings)

/-- `create_app` in a new process: what it has seeded stays when it raises after that. -/
def ServiceState.start (s : ServiceState) (now : List Char) : ServiceState :=
  let store := seedHardwareAllowlist s.store settings.allowedHardwareIds
  let stopped : ServiceState :=
    ⟨none, store, ∅, ∅, [], .allowlisted settings.allowedHardwareIds :: s.ledger⟩
  match seedDevices backend store settings.deviceTokens now with
  | .error _ => stopped
  | .ok store =>
    let seeded := { stopped with store }.record (.seeded settings.deviceTokens)
    if settings.ingest.hmacAuthRequired && !settings.ingest.hmacAuthEnabled then seeded
    else { seeded with settings := some settings }.record (.started settings)

/-- `provision` up to its first `await`. -/
def prepareProvision (buckets : Buckets) (call : ProvisionCall) :
    Except IngestReply Unit × Buckets :=
  let ip := sourceIp call.clientHost
  if !isSourceIpAllowed service.ipAddress ip settings.ingest.allowedSourceCidrs then
    (.error (.error ⟨403, "source ip not allowed"⟩), buckets)
  else
    match extractBearerToken call.authorization with
    | .error message => (.error (.error ⟨401, message⟩), buckets)
    | .ok token =>
      if token ≠ settings.bootstrapToken then
        (.error (.error ⟨401, "invalid bootstrap token"⟩), buckets)
      else
        match bootstrapPlan service.rounding settings with
        | none => (.error .serverError, buckets)
        | some plan =>
          match consume service.rounding buckets (bootstrapKey ip) plan call.now with
          | .error _ => (.error .serverError, buckets)
          | .ok (decision, buckets) =>
            if decision.allowed then (.ok (), buckets)
            else (.error (raiseRateLimited decision "bootstrap rate limit exceeded"), buckets)

inductive HttpRequest where
  | ingest (request : IngestRequest)
  | time (request : IngestRequest) (unixTimeNs : Nat)
  | provision (call : ProvisionCall)
  | admin (request : AdminRequest)

def AdminEndpoint.issuePayload : AdminEndpoint → Option DeviceIssueRequest
  | .controlIssueDevice payload => some payload
  | .adminIssueDevice form _ _ => some form
  | _ => none

def AdminEndpoint.issueRefused : AdminEndpoint → AdminReply
  | .adminIssueDevice _ _ _ => .loginPage (some "Session expired. Please log in again.")
  | _ => .error ⟨401, "authentication required"⟩

def AdminEndpoint.issueReply (store : ControlStore) (issued : DeviceRecord) :
    AdminEndpoint → AdminReply
  | .adminIssueDevice _ page searchQuery => renderAdminDevicesPage backend unicode store
      (some "Device token has been issued successfully.") (some issued) page searchQuery
  | _ => .deviceSummary issued

def Authority.reply (store : ControlStore) (issued : DeviceRecord) : Authority → ServiceReply
  | .bootstrap _ =>
    .provisioned ⟨issued.deviceId, "Bearer", issued.token, ⟨"/v1/ingest", 1, 3000⟩⟩
  | .admin request _ => .admin ⟨request.endpoint.issueReply backend unicode store issued, none⟩

def Authority.failed : Authority → ServiceReply
  | .bootstrap _ => .ingest .serverError
  | .admin _ _ => .admin ⟨.serverError, none⟩

/-- A handler from the arrival of its request to its first `await`. -/
def ServiceState.receive (s : ServiceState) : HttpRequest → ServiceState
  | .ingest request =>
    match request.xDeviceId with
    | none => s.reply (.ingest .unprocessable)
    | some xDeviceId =>
      if !isProtobuf request.contentType then
        s.reply (.ingest (.error ⟨415, "content-type must be application/x-protobuf"⟩))
      else
        match prepareDeviceIngest service settings.ingest s.buckets request xDeviceId
          "ingest".toList with
        | (.error reply, buckets) => { s with buckets }.reply (.ingest reply)
        | (.ok ip, buckets) => { s with buckets }.wait (.ingesting request xDeviceId ip)
  | .time request unixTimeNs =>
    match request.xDeviceId with
    | none => s.reply (.ingest .unprocessable)
    | some xDeviceId =>
      match prepareDeviceIngest service settings.ingest s.buckets request xDeviceId
        "time".toList with
      | (.error reply, buckets) => { s with buckets }.reply (.ingest reply)
      | (.ok _, buckets) => { s with buckets }.wait (.syncing request xDeviceId unixTimeNs)
  | .provision call =>
    match prepareProvision service settings s.buckets call with
    | (.error reply, buckets) => { s with buckets }.reply (.ingest reply)
    | (.ok (), buckets) => { s with buckets }.wait (.provisioning call)
  | .admin request =>
    let s := s.record (.admin request)
    match request.endpoint.issuePayload with
    | some payload =>
      match requireAdminSession unicode settings.admin ⟨s.sessions, s.store⟩ request with
      | (true, state) => ({ s with sessions := state.sessions }.record
          (.cleared (.admin request payload))).wait (.issuing (.admin request payload))
      | (false, state) => { s with sessions := state.sessions }.reply
          (.admin ⟨request.endpoint.issueRefused, none⟩)
    | none =>
      let (response, state) := request.handle backend unicode settings.admin ⟨s.sessions, s.store⟩
      { s with sessions := state.sessions, store := state.store }.reply (.admin response)

/-- The record that is read back: SQLite has committed before it reads. -/
def readBack (store : ControlStore) (issued : DeviceRecord) : Option DeviceRecord :=
  match backend.dialect with
  | .sqlite => findBy DeviceRecord.hardwareId issued.hardwareId store.devices.rows
  | .postgres => some issued

/-- A handler from one `await` to the next; `published` is whether `publish` returns. -/
def ServiceState.resume (s : ServiceState) (published : Bool) : Waiting → ServiceState
  | .ingesting request xDeviceId ip =>
    match readEvent service settings.ingest s.store request xDeviceId ip with
    | .error e => s.reply (.ingest (.error e))
    | .ok normalized => (s.record (.admitted request normalized)).wait (.publishing normalized)
  | .publishing normalized =>
    (s.record (.published normalized)).reply (.ingest (if published then
      .accepted normalized.requestId normalized.deviceId normalized.sequence
    else .error ⟨503, "event publisher unavailable"⟩))
  | .syncing request xDeviceId unixTimeNs =>
    match requireBearerDeviceAuth s.store xDeviceId request.authorization with
    | .error e => s.reply (.ingest (.error e))
    | .ok () => s.reply (.time (timeSync unixTimeNs))
  | .provisioning call =>
    if textRefused backend call.payload.hardwareId then s.reply (.ingest .serverError)
    else if !s.store.isHardwareAllowedReadonly call.payload.hardwareId then
      s.reply (.ingest (.error ⟨403, "hardware id not allowlisted"⟩))
    else (s.record (.cleared (.bootstrap call))).wait (.issuing (.bootstrap call))
  | .issuing authority =>
    match issueDeviceToken backend unicode s.store authority.issue with
    | .error _ => s.reply authority.failed
    | .ok (issued, store) =>
      ({ s with store }.record (.issued authority issued)).wait (.answering authority issued)
  | .answering authority issued =>
    match readBack backend s.store issued with
    | none => s.reply authority.failed
    | some saved => s.reply (authority.reply backend unicode s.store saved)

end

/-- A new process, a request that arrives, or the `i`-th of the handlers that wait goes on. -/
inductive ServiceAction where
  | start (settings : ServiceSettings) (now : List Char)
  | request (request : HttpRequest)
  | resume (i : Nat) (published : Bool)

def ServiceState.step (backend : Backend) (unicode : Unicode) (service : IngestService)
    (s : ServiceState) : ServiceAction → Option ServiceState
  | .start settings now => some (s.start backend settings now)
  | .request request =>
    s.settings.map fun settings => s.receive backend unicode service settings request
  | .resume i published => s.settings.bind fun settings => s.waiting[i]?.map fun waiting =>
      { s with waiting := s.waiting.eraseIdx i }.resume backend unicode service settings published
        waiting

end Aetus.Ingest
