import Aetus.Base.Ledger
import Aetus.Ingest.Admission
import Aetus.Ingest.DeviceIds
import Aetus.Ingest.Service

/-!
Where the tokens come from that open the ingest endpoint, however the requests of the clients
interleave: from the configuration, or from an admin or a holder of the bootstrap token who was
entitled to have them issued.
-/

set_option autoImplicit false

namespace Aetus.Ingest
open Aetus.Base

/-! What a ledger tells -/

def LedgerEntry.startedWith : LedgerEntry → Option ServiceSettings
  | .started settings => some settings
  | _ => none

def LedgerEntry.tokenGiven (deviceId : List Char) : LedgerEntry → Option (List Char)
  | .seeded deviceTokens => deviceTokens.lookup deviceId
  | .issued _ record => if record.deviceId = deviceId then some record.token else none
  | _ => none

def settingsIn (ledger : List LedgerEntry) : Option ServiceSettings :=
  ledger.findSome? LedgerEntry.startedWith

def tokenIn (ledger : List LedgerEntry) (deviceId : List Char) : Option (List Char) :=
  ledger.findSome? (LedgerEntry.tokenGiven deviceId)

def adminRequests : List LedgerEntry → List AdminRequest
  | [] => []
  | .started _ :: _ => []
  | .admin request :: before => request :: adminRequests before
  | _ :: before => adminRequests before

/-- The hardware is listed in the settings of a start, or a token was issued for it. -/
def Allowlisted (ledger : List LedgerEntry) (hardwareId : List Char) : Prop :=
  (∃ hardwareIds, .allowlisted hardwareIds ∈ ledger ∧ hardwareId ∈ hardwareIds) ∨
    ∃ authority record, .issued authority record ∈ ledger ∧ record.hardwareId = hardwareId

section
variable (unicode : Unicode) (service : IngestService)

/-- The call comes from an allowed address and bears the bootstrap token. -/
def Bootstraps (settings : ServiceSettings) (call : ProvisionCall) : Prop :=
  isSourceIpAllowed service.ipAddress (sourceIp call.clientHost)
      settings.ingest.allowedSourceCidrs = true ∧
    extractBearerToken call.authorization = .ok settings.bootstrapToken

/-- Whoever has a token issued may do so: with the bootstrap token for listed hardware, or in a
session that a login created, that no logout revoked and that has not run out. -/
def Entitled (before : List LedgerEntry) : Authority → Prop
  | .bootstrap call => ∃ settings, settingsIn before = some settings ∧
      Bootstraps service settings call ∧ Allowlisted before call.payload.hardwareId
  | .admin request _ => ∃ settings, settingsIn before = some settings ∧
      (isAdminAuthEnabled unicode settings.admin = true → ∃ cookie deadline,
        request.cookie = some cookie ∧
        SessionUntil settings.admin (adminRequests before) cookie deadline ∧ request.now < deadline)

def AdmittedWith (before : List LedgerEntry) (request : IngestRequest) (event : NormalizedEvent) :
    Prop :=
  ∃ settings token, settingsIn before = some settings ∧
    tokenIn before event.deviceId = some token ∧
    Credentials service settings.ingest request event.deviceId token

def Rests (before : List LedgerEntry) : LedgerEntry → Prop
  | .cleared authority => Entitled unicode service before authority
  | .issued authority record =>
    .cleared authority ∈ before ∧ record.hardwareId = authority.issue.hardwareId
  | .admitted request event => AdmittedWith service before request event
  | .published event => ∃ request, .admitted request event ∈ before
  | _ => True

def Waits (settings : ServiceSettings) (ledger : List LedgerEntry) : Waiting → Prop
  | .publishing event => ∃ request, .admitted request event ∈ ledger
  | .provisioning call => Bootstraps service settings call
  | .issuing authority => .cleared authority ∈ ledger
  | _ => True

structure Serving (settings : ServiceSettings) (s : ServiceState) : Prop where
  latest : settingsIn s.ledger = some settings
  sessions : isAdminAuthEnabled unicode settings.admin = true → ∀ cookie deadline, cookie ≠ [] →
    s.sessions.lookup cookie = some deadline →
      SessionUntil settings.admin (adminRequests s.ledger) cookie deadline
  waiting : ∀ w ∈ s.waiting, Waits service settings s.ledger w

/-- The store is what the ledger says. -/
structure Accounted (s : ServiceState) : Prop where
  founded : Founded (Rests unicode service) s.ledger
  tokens : ∀ deviceId, s.store.getDeviceTokenReadonly deviceId = tokenIn s.ledger deviceId
  allowlist : ∀ hardwareId ∈ s.store.hardwareAllowlist, Allowlisted s.ledger hardwareId
  serving : ∀ settings, s.settings = some settings → Serving unicode service settings s

end

/-! Entries that change nothing that the ledger tells -/

def LedgerEntry.quiet : LedgerEntry → Bool
  | .cleared _ | .admitted _ _ | .published _ | .replied _ => true
  | _ => false

variable {backend : Backend} {unicode : Unicode} {service : IngestService}
  {settings : ServiceSettings} {s t : ServiceState} {ledger : List LedgerEntry}

theorem settingsIn_cons_of_quiet {entry : LedgerEntry} (h : entry.quiet = true) :
    settingsIn (entry :: ledger) = settingsIn ledger := by
  cases entry <;> first | rfl | cases h

theorem tokenIn_cons_of_quiet {entry : LedgerEntry} (h : entry.quiet = true)
    (deviceId : List Char) : tokenIn (entry :: ledger) deviceId = tokenIn ledger deviceId := by
  cases entry <;> first | rfl | cases h

theorem adminRequests_cons_of_quiet {entry : LedgerEntry} (h : entry.quiet = true) :
    adminRequests (entry :: ledger) = adminRequests ledger := by
  cases entry <;> first | rfl | cases h

theorem Allowlisted.cons {hardwareId : List Char} (h : Allowlisted ledger hardwareId)
    (entry : LedgerEntry) : Allowlisted (entry :: ledger) hardwareId := by
  rcases h with ⟨ids, hids, hmem⟩ | ⟨authority, record, hissued, hrecord⟩
  · exact .inl ⟨ids, .tail _ hids, hmem⟩
  · exact .inr ⟨authority, record, .tail _ hissued, hrecord⟩

theorem Waits.cons {waiting : Waiting} (h : Waits service settings ledger waiting)
    (entry : LedgerEntry) : Waits service settings (entry :: ledger) waiting := by
  cases waiting with
  | publishing event =>
    obtain ⟨request, hadmitted⟩ := h
    exact ⟨request, .tail _ hadmitted⟩
  | issuing authority => exact List.Mem.tail _ h
  | provisioning call => exact h
  | ingesting | syncing | answering => trivial

theorem Serving.record (h : Serving unicode service settings s) {entry : LedgerEntry}
    (hquiet : entry.quiet = true) : Serving unicode service settings (s.record entry) := by
  constructor
  · exact (settingsIn_cons_of_quiet hquiet).trans h.latest
  · intro hauth cookie deadline hne hlook
    have hsession := h.sessions hauth cookie deadline hne hlook
    rwa [← adminRequests_cons_of_quiet hquiet] at hsession
  · intro w hw
    exact (h.waiting w hw).cons entry

theorem Accounted.record (h : Accounted unicode service s) {entry : LedgerEntry}
    (hquiet : entry.quiet = true) (hrests : Rests unicode service s.ledger entry) :
    Accounted unicode service (s.record entry) := by
  constructor
  · exact ⟨hrests, h.founded⟩
  · intro deviceId
    exact (h.tokens deviceId).trans (tokenIn_cons_of_quiet hquiet deviceId).symm
  · intro hardwareId hmem
    exact (h.allowlist hardwareId hmem).cons entry
  · intro settings hsettings
    exact (h.serving settings hsettings).record hquiet

theorem Accounted.reply (h : Accounted unicode service s) (reply : ServiceReply) :
    Accounted unicode service (s.reply reply) :=
  h.record rfl trivial

theorem Accounted.wait (h : Accounted unicode service s) {waiting : Waiting}
    (hwaits : ∀ settings, s.settings = some settings → Waits service settings s.ledger waiting) :
    Accounted unicode service (s.wait waiting) := by
  refine ⟨h.founded, h.tokens, h.allowlist, fun settings hsettings => ?_⟩
  have hserving := h.serving settings hsettings
  refine ⟨hserving.latest, hserving.sessions, fun w hw => ?_⟩
  rcases List.mem_cons.mp hw with rfl | hw
  · exact hwaits settings hsettings
  · exact hserving.waiting w hw

theorem Accounted.buckets (h : Accounted unicode service s) (buckets : Buckets) :
    Accounted unicode service { s with buckets } :=
  ⟨h.founded, h.tokens, h.allowlist, fun settings hsettings =>
    ⟨(h.serving settings hsettings).latest, (h.serving settings hsettings).sessions,
      (h.serving settings hsettings).waiting⟩⟩

theorem Accounted.eraseIdx (h : Accounted unicode service s) (i : Nat) :
    Accounted unicode service { s with waiting := s.waiting.eraseIdx i } :=
  ⟨h.founded, h.tokens, h.allowlist, fun settings hsettings =>
    ⟨(h.serving settings hsettings).latest, (h.serving settings hsettings).sessions,
      fun w hw => (h.serving settings hsettings).waiting w (List.mem_of_mem_eraseIdx hw)⟩⟩

/-! The start -/

theorem mem_seedHardwareAllowlist {store : ControlStore} {hardwareIds : List (List Char)}
    {hardwareId : List Char}
    (h : hardwareId ∈ (seedHardwareAllowlist store hardwareIds).hardwareAllowlist) :
    hardwareId ∈ hardwareIds ∨ hardwareId ∈ store.hardwareAllowlist := by
  unfold seedHardwareAllowlist at h
  dsimp only at h
  generalize store.hardwareAllowlist = allowlist at h ⊢
  induction hardwareIds generalizing allowlist with
  | nil => exact .inr h
  | cons first hardwareIds ih =>
    rcases ih _ h with hrest | hinsert
    · exact .inl (.tail _ hrest)
    · rcases List.mem_insert_iff.mp hinsert with rfl | hold
      · exact .inl List.mem_cons_self
      · exact .inr hold

theorem seedDevices_hardwareAllowlist {store after : ControlStore}
    {deviceTokens : Dict (List Char) (List Char)} {now : List Char}
    (h : seedDevices backend store deviceTokens now = .ok after) :
    after.hardwareAllowlist = store.hardwareAllowlist := by
  unfold seedDevices at h
  split at h
  · cases h
  · obtain rfl := Except.ok.inj h
    rfl

theorem Accounted.seedHardwareAllowlist (h : Accounted unicode service s)
    (hardwareIds : List (List Char)) :
    Accounted unicode service ⟨none, Ingest.seedHardwareAllowlist s.store hardwareIds, ∅, ∅, [],
      .allowlisted hardwareIds :: s.ledger⟩ := by
  constructor
  · exact ⟨trivial, h.founded⟩
  · exact h.tokens
  · intro hardwareId hmem
    rcases mem_seedHardwareAllowlist hmem with hnew | hold
    · exact .inl ⟨hardwareIds, List.mem_cons_self, hnew⟩
    · exact (h.allowlist hardwareId hold).cons _
  · rintro settings ⟨⟩

theorem Accounted.seedDevices (h : Accounted unicode service s) (hstopped : s.settings = none)
    {after : ControlStore} {deviceTokens : Dict (List Char) (List Char)} {now : List Char}
    (hseed : seedDevices backend s.store deviceTokens now = .ok after) :
    Accounted unicode service ({ s with store := after }.record (.seeded deviceTokens)) := by
  constructor
  · exact ⟨trivial, h.founded⟩
  · intro deviceId
    have hgiven := (seedDevices_ok hseed).2 deviceId
    have htoken : tokenIn (.seeded deviceTokens :: s.ledger) deviceId =
        (deviceTokens.lookup deviceId).or (tokenIn s.ledger deviceId) := by
      rw [tokenIn, List.findSome?_cons, LedgerEntry.tokenGiven]
      cases deviceTokens.lookup deviceId <;> rfl
    cases hlook : deviceTokens.lookup deviceId with
    | some token =>
      rw [hlook] at hgiven htoken
      exact hgiven.trans htoken.symm
    | none =>
      rw [hlook] at hgiven htoken
      have hsame := congrArg (Option.map DeviceRecord.token) hgiven
      exact (hsame.trans (h.tokens deviceId)).trans htoken.symm
  · intro hardwareId hmem
    rw [ServiceState.record, seedDevices_hardwareAllowlist hseed] at hmem
    exact (h.allowlist hardwareId hmem).cons _
  · intro settings hsettings
    exact absurd (hstopped.symm.trans hsettings) (by simp)

theorem Accounted.started (h : Accounted unicode service s) (hsessions : s.sessions = ∅)
    (hwaiting : s.waiting = []) (settings : ServiceSettings) :
    Accounted unicode service
      ({ s with settings := some settings }.record (.started settings)) := by
  constructor
  · exact ⟨trivial, h.founded⟩
  · exact h.tokens
  · intro hardwareId hmem
    exact (h.allowlist hardwareId hmem).cons _
  · intro current hcurrent
    obtain rfl := Option.some.inj hcurrent
    refine ⟨rfl, fun _ cookie deadline _ hlook => ?_, fun w hw => ?_⟩
    · rw [ServiceState.record, hsessions, AList.lookup_empty] at hlook
      cases hlook
    · rw [ServiceState.record, hwaiting] at hw
      cases hw

theorem Accounted.start (h : Accounted unicode service s) (settings : ServiceSettings)
    (now : List Char) : Accounted unicode service (s.start backend settings now) := by
  have hlisted := h.seedHardwareAllowlist settings.allowedHardwareIds
  unfold ServiceState.start
  dsimp only
  split
  · exact hlisted
  · next store hseed =>
    have hseeded := hlisted.seedDevices rfl hseed
    split
    · exact hseeded
    · exact hseeded.started rfl rfl settings

/-! Admin requests -/

theorem AdminRequest.not_revokes_of_issuePayload {request : AdminRequest}
    {payload : DeviceIssueRequest} (h : request.endpoint.issuePayload = some payload)
    (token : List Char) : ¬request.Revokes token := by
  rintro ⟨hlogout | hlogout, -⟩
  · rw [hlogout] at h
    cases h
  · rw [hlogout] at h
    cases h

theorem handle_store {settings : AdminSettings} {state : AdminState} {request : AdminRequest}
    (h : request.endpoint.issuePayload = none) :
    (request.handle backend unicode settings state).2.store = state.store := by
  have hguarded {refused : AdminReply} {body : AdminState → AdminResponse × AdminState}
      (hbody : ∀ state, (body state).2.store = state.store) :
      (guarded unicode settings refused body state request).2.store = state.store := by
    have hstore := @requireAdminSession_store unicode settings state request
    unfold guarded
    split
    · next hcheck => exact (congrArg (fun r => r.2.store) hcheck).symm.trans hstore
    · next checked hcheck =>
      rw [hbody checked]
      exact (congrArg (fun r => r.2.store) hcheck).symm.trans hstore
  unfold AdminRequest.handle
  cases hend : request.endpoint with
  | unprocessable => rfl
  | controlIssueDevice | adminIssueDevice =>
    rw [hend] at h
    cases h
  | controlStatus => exact hguarded fun _ => rfl
  | controlLogout | adminLogout =>
    dsimp only [logout]
    split <;> rfl
  | controlLogin body =>
    dsimp only [controlLogin]
    split
    · rfl
    · split
      · rfl
      · split <;> rfl
  | adminLogin password redirect =>
    dsimp only [adminLogin]
    split
    · rfl
    · split <;> rfl
  | adminDevices page q =>
    dsimp only [adminDevices]
    split
    · rfl
    · exact hguarded fun _ => rfl
  | controlDevices page pageSize q =>
    dsimp only [controlDevices]
    split
    · rfl
    · refine hguarded fun state => ?_
      split <;> rfl

/-- The request goes into the ledger, and of the sessions only those stay that it accounts for. -/
theorem Accounted.admin (h : Accounted unicode service s) {sessions : AdminSessions}
    {request : AdminRequest}
    (hsessions : ∀ settings, s.settings = some settings →
      isAdminAuthEnabled unicode settings.admin = true → ∀ cookie deadline, cookie ≠ [] →
        sessions.lookup cookie = some deadline →
          (request.Creates settings.admin cookie ∧
            deadline = request.now + settings.admin.adminSessionTtlSeconds) ∨
          s.sessions.lookup cookie = some deadline ∧ ¬request.Revokes cookie) :
    Accounted unicode service { s.record (.admin request) with sessions } := by
  refine ⟨⟨trivial, h.founded⟩, h.tokens, fun hardwareId hmem =>
    (h.allowlist hardwareId hmem).cons _, fun settings hsettings => ?_⟩
  have hserving := h.serving settings hsettings
  refine ⟨hserving.latest, fun hauth cookie deadline hne hlook => ?_, fun w hw =>
    (hserving.waiting w hw).cons _⟩
  rcases hsessions settings hsettings hauth cookie deadline hne hlook with
    ⟨hcreates, rfl⟩ | ⟨hold, hkept⟩
  · exact .created hcreates
  · exact (hserving.sessions hauth cookie deadline hne hold).kept hkept

theorem Accounted.issueChecked (h : Accounted unicode service s)
    (hsettings : s.settings = some settings) {request : AdminRequest}
    {payload : DeviceIssueRequest} (hpayload : request.endpoint.issuePayload = some payload) :
    let checked := requireAdminSession unicode settings.admin ⟨s.sessions, s.store⟩ request
    Accounted unicode service { s.record (.admin request) with sessions := checked.2.sessions } ∧
      (checked.1 = true → Entitled unicode service (s.record (.admin request)).ledger
        (.admin request payload)) := by
  have hkept := AdminRequest.not_revokes_of_issuePayload hpayload
  refine ⟨h.admin fun current hcurrent hauth cookie deadline hne hlook => ?_, fun hpassed => ?_⟩
  · exact .inr ⟨requireAdminSession_lookup hlook, hkept cookie⟩
  · have hserving := h.serving settings hsettings
    refine ⟨settings, hserving.latest, fun hauth => ?_⟩
    obtain ⟨cookie, deadline, hcookie, hne, hlook, hnow⟩ := requireAdminSession_true hauth hpassed
    exact ⟨cookie, deadline, hcookie,
      (hserving.sessions hauth cookie deadline hne hlook).kept (hkept cookie), hnow⟩

theorem Accounted.receiveAdmin (h : Accounted unicode service s)
    (hsettings : s.settings = some settings) (request : AdminRequest) :
    Accounted unicode service (s.receive backend unicode service settings (.admin request)) := by
  unfold ServiceState.receive
  dsimp only
  split
  · next payload hpayload =>
    obtain ⟨hchecked, hentitled⟩ := h.issueChecked hsettings hpayload
    split
    · next state hcheck =>
      have hcheck' : requireAdminSession unicode settings.admin ⟨s.sessions, s.store⟩ request =
        (true, state) := hcheck
      rw [hcheck'] at hchecked hentitled
      have hrests : Rests unicode service (s.record (.admin request)).ledger
        (.cleared (.admin request payload)) := hentitled rfl
      exact (hchecked.record rfl hrests).wait fun _ _ => List.mem_cons_self
    · next state hcheck =>
      have hcheck' : requireAdminSession unicode settings.admin ⟨s.sessions, s.store⟩ request =
        (false, state) := hcheck
      rw [hcheck'] at hchecked
      exact hchecked.reply _
  · next hpayload =>
    have hstore : (request.handle backend unicode settings.admin ⟨s.sessions, s.store⟩).2.store =
      s.store := handle_store hpayload
    have hsound (hauth : isAdminAuthEnabled unicode settings.admin = true) :
        Sound backend unicode settings.admin ⟨s.sessions, s.store⟩ request
          (request.handle backend unicode settings.admin ⟨s.sessions, s.store⟩) := handle_sound hauth
    have hledger : (s.record (.admin request)).sessions = s.sessions ∧
      (s.record (.admin request)).store = s.store := ⟨rfl, rfl⟩
    rw [hledger.1, hledger.2]
    generalize request.handle backend unicode settings.admin ⟨s.sessions, s.store⟩ = result
      at hstore hsound ⊢
    obtain ⟨response, sessions, store⟩ := result
    obtain rfl : store = s.store := hstore
    refine (h.admin fun current hcurrent hauth => ?_).reply _
    obtain rfl := Option.some.inj (hsettings.symm.trans hcurrent)
    exact (hsound hauth).sessions

/-! Steps of the handlers -/

theorem issueDeviceToken_returned {store after : ControlStore} {request : IssueRequest}
    {saved : DeviceRecord}
    (h : issueDeviceToken backend unicode store request = .ok (saved, after)) :
    saved.hardwareId = request.hardwareId ∧ saved.token = request.token ∧
      after.hardwareAllowlist = store.hardwareAllowlist.insert request.hardwareId := by
  have htoken : after.getDeviceTokenReadonly saved.deviceId = some request.token :=
    (issueDeviceToken_ok h).2.1
  rw [issueDeviceToken_eq, issueAttempt] at h
  dsimp only at h
  split at h
  · cases h
  · next devices hwritten =>
    split at h
    · cases h
    · next found hfound =>
      obtain ⟨rfl, rfl⟩ := Prod.mk.inj (Except.ok.inj h)
      obtain ⟨hmem, hhardware⟩ := mem_of_findBy hfound
      refine ⟨hhardware, ?_, rfl⟩
      have hrow : findBy DeviceRecord.deviceId found.deviceId devices.rows = some found :=
        devices.deviceId_unique.findBy hmem
      rw [ControlStore.getDeviceTokenReadonly, ControlStore.device, hrow] at htoken
      exact Option.some.inj htoken

theorem Accounted.issued (h : Accounted unicode service s) {authority : Authority}
    (hcleared : .cleared authority ∈ s.ledger) {record : DeviceRecord} {after : ControlStore}
    (hissue : issueDeviceToken backend unicode s.store authority.issue = .ok (record, after)) :
    Accounted unicode service ({ s with store := after }.record (.issued authority record)) := by
  obtain ⟨hhardware, htoken, hallowlist⟩ := issueDeviceToken_returned hissue
  obtain ⟨-, hgiven, hothers⟩ := issueDeviceToken_ok hissue
  constructor
  · exact ⟨⟨hcleared, hhardware⟩, h.founded⟩
  · intro deviceId
    have hledger : tokenIn (.issued authority record :: s.ledger) deviceId =
        if record.deviceId = deviceId then some record.token else tokenIn s.ledger deviceId := by
      by_cases hid : record.deviceId = deviceId <;> simp [tokenIn, LedgerEntry.tokenGiven, hid]
    refine Eq.trans ?_ hledger.symm
    split
    · next hid => rw [← hid, htoken, ← hgiven, ServiceState.record]
    · next hid =>
      have hsame := congrArg (Option.map DeviceRecord.token) (hothers deviceId (Ne.symm hid))
      exact hsame.trans (h.tokens deviceId)
  · intro hardwareId hmem
    rw [ServiceState.record, hallowlist] at hmem
    rcases List.mem_insert_iff.mp hmem with rfl | hold
    · exact .inr ⟨authority, record, List.mem_cons_self, hhardware⟩
    · exact (h.allowlist hardwareId hold).cons _
  · intro settings hsettings
    have hserving := h.serving settings hsettings
    exact ⟨hserving.latest, hserving.sessions, fun w hw => (hserving.waiting w hw).cons _⟩

theorem prepareProvision_ok {buckets after : Buckets} {call : ProvisionCall}
    (h : prepareProvision service settings buckets call = (.ok (), after)) :
    Bootstraps service settings call := by
  simp only [prepareProvision] at h
  split at h
  · cases h
  · next haddress =>
    split at h
    · cases h
    · next token hextract =>
      split at h
      · cases h
      · next htoken =>
        rw [not_not.mp htoken] at hextract
        exact ⟨by simpa using haddress, hextract⟩

theorem Accounted.receive (h : Accounted unicode service s)
    (hsettings : s.settings = some settings) (request : HttpRequest) :
    Accounted unicode service (s.receive backend unicode service settings request) := by
  cases request with
  | admin request => exact h.receiveAdmin hsettings request
  | ingest request =>
    unfold ServiceState.receive
    dsimp only
    split
    · exact h.reply _
    · split
      · exact h.reply _
      · split
        · exact (h.buckets _).reply _
        · exact (h.buckets _).wait fun _ _ => trivial
  | time request unixTimeNs =>
    unfold ServiceState.receive
    dsimp only
    split
    · exact h.reply _
    · split
      · exact (h.buckets _).reply _
      · exact (h.buckets _).wait fun _ _ => trivial
  | provision call =>
    unfold ServiceState.receive
    dsimp only
    split
    · exact (h.buckets _).reply _
    · next buckets hprepare =>
      refine (h.buckets _).wait fun current hcurrent => ?_
      obtain rfl := Option.some.inj (hsettings.symm.trans hcurrent)
      exact prepareProvision_ok hprepare

theorem Accounted.admittedWith (h : Accounted unicode service s)
    (hsettings : s.settings = some settings) {request : IngestRequest} {xDeviceId ip : List Char}
    {event : NormalizedEvent}
    (hread : readEvent service settings.ingest s.store request xDeviceId ip = .ok event) :
    AdmittedWith service s.ledger request event := by
  obtain ⟨-, hauth, parsed, -, rfl, hnormalize⟩ := readEvent_ok hread
  obtain ⟨token, htoken, hcredentials⟩ := requireIngestAuth_ok hauth
  obtain ⟨payload, -, rfl⟩ := normalizeEvent_ok hnormalize
  exact ⟨settings, token, (h.serving settings hsettings).latest,
    (h.tokens parsed.deviceId).symm.trans htoken, hcredentials⟩

theorem Accounted.resume (h : Accounted unicode service s)
    (hsettings : s.settings = some settings) {waiting : Waiting}
    (hwaits : Waits service settings s.ledger waiting) (published : Bool) :
    Accounted unicode service
      (s.resume backend unicode service settings published waiting) := by
  cases waiting with
  | ingesting request xDeviceId ip =>
    unfold ServiceState.resume
    dsimp only
    split
    · exact h.reply _
    · next event hread =>
      have hrests : Rests unicode service s.ledger (.admitted request event) :=
        h.admittedWith hsettings hread
      exact (h.record rfl hrests).wait fun _ _ => ⟨request, List.mem_cons_self⟩
  | publishing event =>
    have hrests : Rests unicode service s.ledger (.published event) := hwaits
    exact (h.record rfl hrests).reply _
  | syncing request xDeviceId unixTimeNs =>
    unfold ServiceState.resume
    dsimp only
    split
    · exact h.reply _
    · exact h.reply _
  | provisioning call =>
    unfold ServiceState.resume
    dsimp only
    split
    · exact h.reply _
    · split
      · exact h.reply _
      · next hallowed =>
        have hmem : call.payload.hardwareId ∈ s.store.hardwareAllowlist := by
          simpa [ControlStore.isHardwareAllowedReadonly] using hallowed
        have hrests : Rests unicode service s.ledger (.cleared (.bootstrap call)) :=
          ⟨settings, (h.serving settings hsettings).latest, hwaits, h.allowlist _ hmem⟩
        exact (h.record rfl hrests).wait fun _ _ => List.mem_cons_self
  | issuing authority =>
    unfold ServiceState.resume
    dsimp only
    split
    · exact h.reply _
    · next record after hissue => exact (h.issued hwaits hissue).wait fun _ _ => trivial
  | answering authority issued =>
    unfold ServiceState.resume
    dsimp only
    split
    · exact h.reply _
    · exact h.reply _

theorem Accounted.step (h : Accounted unicode service s) {action : ServiceAction}
    (hstep : s.step backend unicode service action = some t) : Accounted unicode service t := by
  cases action with
  | start settings now =>
    obtain rfl := Option.some.inj hstep
    exact h.start settings now
  | request request =>
    obtain ⟨settings, hsettings, rfl⟩ := Option.map_eq_some_iff.mp hstep
    exact h.receive hsettings request
  | resume i published =>
    obtain ⟨settings, hsettings, hresume⟩ := Option.bind_eq_some_iff.mp hstep
    obtain ⟨waiting, hwaiting, rfl⟩ := Option.map_eq_some_iff.mp hresume
    have hwaits := (h.serving settings hsettings).waiting waiting (List.mem_of_getElem? hwaiting)
    exact (h.eraseIdx i).resume hsettings hwaits published

theorem installed_accounted : Accounted unicode service .installed where
  founded := trivial
  tokens _ := rfl
  allowlist hardwareId hmem := by cases hmem
  serving settings hsettings := by cases hsettings

theorem run_accounted {actions : List ServiceAction}
    (hrun : run (ServiceState.step backend unicode service) .installed actions = some s) :
    Accounted unicode service s :=
  run_invariant (fun _ _ _ hs hstep => hs.step hstep) installed_accounted hrun

/-! Where a token for a piece of hardware comes from in the first place -/

def Rooted (ledger : List LedgerEntry) (hardwareId : List Char) : Prop :=
  (∃ hardwareIds, .allowlisted hardwareIds ∈ ledger ∧ hardwareId ∈ hardwareIds) ∨
    ∃ request payload, .cleared (.admin request payload) ∈ ledger ∧ payload.hardwareId = hardwareId

theorem Rooted.mono {before ledger : List LedgerEntry} {hardwareId : List Char}
    (h : Rooted before hardwareId) (hsub : before ⊆ ledger) : Rooted ledger hardwareId := by
  rcases h with ⟨ids, hids, hmem⟩ | ⟨request, payload, hcleared, hpayload⟩
  · exact .inl ⟨ids, hsub hids, hmem⟩
  · exact .inr ⟨request, payload, hsub hcleared, hpayload⟩

/-- What the induction over the ledger carries: a clearance is rooted with itself, an issued
token in what is before it. -/
def RootedEntry (before : List LedgerEntry) : LedgerEntry → Prop
  | .cleared authority => Rooted (.cleared authority :: before) authority.issue.hardwareId
  | .issued _ record => Rooted before record.hardwareId
  | _ => True

theorem rootedEntry (h : Founded (Rests unicode service) ledger) {later before : List LedgerEntry}
    {entry : LedgerEntry} (hsplit : ledger = later ++ entry :: before) :
    RootedEntry before entry := by
  subst hsplit
  refine Founded.forall_entry (fun entry before hrests ih => ?_) h
  cases entry with
  | cleared authority =>
    cases authority with
    | admin request payload => exact .inr ⟨request, payload, List.mem_cons_self, rfl⟩
    | bootstrap call =>
      obtain ⟨settings, -, -, hallowed⟩ := hrests
      rcases hallowed with hlisted | ⟨authority, record, hissued, hrecord⟩
      · exact Rooted.mono (.inl hlisted) (List.subset_cons_self _ _)
      · obtain ⟨middle, earlier, rfl⟩ := List.append_of_mem hissued
        have hrooted : Rooted earlier record.hardwareId := ih middle _ earlier rfl
        rw [hrecord] at hrooted
        exact hrooted.mono fun e he => .tail _ (List.mem_append_right _ (.tail _ he))
  | issued authority record =>
    obtain ⟨hcleared, hhardware⟩ := hrests
    obtain ⟨middle, earlier, rfl⟩ := List.append_of_mem hcleared
    have hrooted : Rooted (.cleared authority :: earlier) authority.issue.hardwareId :=
      ih middle _ earlier rfl
    rw [RootedEntry, hhardware]
    exact hrooted.mono (List.subset_append_right _ _)
  | allowlisted | seeded | started | admin | admitted | published | replied => trivial

/-- Every device is known by the token it was given last; an event is published only for a request
with that token; and a token is issued only by whoever is entitled to it, for hardware that the
configuration lists or an admin was cleared for. -/
structure InCustody (unicode : Unicode) (service : IngestService) (s : ServiceState) : Prop where
  known : ∀ deviceId token,
    verifyDeviceToken deviceId token s.store.getDeviceTokenReadonly = true ↔
      tokenIn s.ledger deviceId = some token
  published : ∀ later event before, s.ledger = later ++ .published event :: before →
    ∃ middle request earlier, before = middle ++ .admitted request event :: earlier ∧
      AdmittedWith service earlier request event
  issued : ∀ later authority record before, s.ledger = later ++ .issued authority record :: before →
    Rooted before record.hardwareId ∧ ∃ middle earlier,
      before = middle ++ .cleared authority :: earlier ∧ Entitled unicode service earlier authority

/-- However the requests of all clients, the waits of their handlers and the starts of the service
interleave. -/
theorem run_inCustody {actions : List ServiceAction}
    (hrun : run (ServiceState.step backend unicode service) .installed actions = some s) :
    InCustody unicode service s := by
  have haccounted := run_accounted hrun
  have hrests {later before : List LedgerEntry} {entry : LedgerEntry}
      (hsplit : s.ledger = later ++ entry :: before) : Rests unicode service before entry :=
    Founded.head (hsplit ▸ haccounted.founded)
  constructor
  · intro deviceId token
    rw [verifyDeviceToken_iff, haccounted.tokens]
  · intro later event before hsplit
    obtain ⟨request, hadmitted⟩ : ∃ request, LedgerEntry.admitted request event ∈ before :=
      hrests hsplit
    obtain ⟨middle, earlier, rfl⟩ := List.append_of_mem hadmitted
    have hearlier : s.ledger =
        (later ++ .published event :: middle) ++ .admitted request event :: earlier := by
      rw [hsplit, List.append_assoc, List.cons_append]
    exact ⟨middle, request, earlier, rfl, hrests hearlier⟩
  · intro later authority record before hsplit
    obtain ⟨hcleared, -⟩ : LedgerEntry.cleared authority ∈ before ∧
      record.hardwareId = authority.issue.hardwareId := hrests hsplit
    have hrooted : Rooted before record.hardwareId := rootedEntry haccounted.founded hsplit
    obtain ⟨middle, earlier, rfl⟩ := List.append_of_mem hcleared
    have hearlier : s.ledger =
        (later ++ .issued authority record :: middle) ++ .cleared authority :: earlier := by
      rw [hsplit, List.append_assoc, List.cons_append]
    exact ⟨hrooted, middle, earlier, rfl, hrests hearlier⟩

/-! A device is provisioned and uploads with its token. -/

def cameraEvent : IngestEvent :=
  ⟨1, "cam-001".toList, 0, EVENT_TYPE_STATUS, "boot".toList, 0, 0, 0, some (.status 1 0 0 [])⟩

theorem length_cameraDigest : (List.replicate 32 (0 : UInt8)).length = 32 := List.length_replicate

def cameraService : IngestService :=
  ⟨fun _ => some (.v4 0), fun _ => ⟨List.replicate 32 0, length_cameraDigest⟩,
    fun _ => some cameraEvent, binary64, fun _ => true⟩

def cameraSettings : ServiceSettings where
  ingest := ⟨[.v4 0 0], [], 1024, 2, 10, 20, 20, true, false⟩
  admin := ⟨"secret".toList, 60⟩
  bootstrapToken := "boot".toList
  bootstrapRequestsPerWindow := 1
  bootstrapWindowSeconds := 10
  allowedHardwareIds := ["cam-hw".toList]
  deviceTokens := ∅

def cameraActions : List ServiceAction :=
  [.start cameraSettings "t0".toList,
    .request (.provision ⟨none, some "Bearer boot".toList,
      ⟨"cam-hw".toList, "m".toList, none, none⟩, 0, "x".toList, "t1".toList⟩),
    .resume 0 true, .resume 0 true,
    .request (.ingest ⟨none, "POST".toList, "/v1/ingest".toList, some "cam-001".toList,
      some "Bearer devtok_x".toList, none, some "application/x-protobuf".toList, [], 1, [], []⟩),
    .resume 0 true, .resume 1 true, .resume 0 true]

def LedgerEntry.publishedDevice : LedgerEntry → Option (List Char)
  | .published event => some event.deviceId
  | _ => none

theorem run_inCustody_camera :
    let unicode : Unicode := ⟨fun text => text.map Char.toLower, fun c => c = ' ', id⟩
    let backend : Backend := ⟨.sqlite, fun _ => true, id, fun _ _ => true⟩
    ∃ s, run (ServiceState.step backend unicode cameraService) .installed cameraActions = some s ∧
      s.ledger.filterMap LedgerEntry.publishedDevice = ["cam-001".toList] ∧
      InCustody unicode cameraService s := by
  intro unicode backend
  have hsome : ((run (ServiceState.step backend unicode cameraService) .installed
      cameraActions).map fun s => s.ledger.filterMap LedgerEntry.publishedDevice) =
        some ["cam-001".toList] := by
    decide +kernel
  obtain ⟨s, hs, hpublished⟩ := Option.map_eq_some_iff.mp hsome
  exact ⟨s, hs, hpublished, run_inCustody hs⟩

end Aetus.Ingest
