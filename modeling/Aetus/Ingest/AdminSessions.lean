import Aetus.Ingest.App
import Aetus.Ingest.ControlDb
import Mathlib.Algebra.Order.Field.Basic
import Mathlib.Data.Rat.Defs

/-!
The admin sessions of the service's app.py and the endpoints behind them. A clock
reading and the token that `secrets` generates come with the request they serve.
-/

set_option autoImplicit false

namespace Aetus.Ingest
open Aetus.Base

abbrev AdminSessions := Dict (List Char) ℚ

def AdminSessions.create (sessions : AdminSessions) (ttl now : ℚ) (token : List Char) :
    AdminSessions :=
  sessions.insert token (now + ttl)

def AdminSessions.validate (sessions : AdminSessions) (token : List Char) (now : ℚ) :
    Bool × AdminSessions :=
  let deadline := (sessions.lookup token).getD 0
  let popped := sessions.erase token
  if deadline ≠ 0 ∧ deadline > now then (true, popped.insert token deadline) else (false, popped)

def AdminSessions.revoke (sessions : AdminSessions) (token : List Char) : AdminSessions :=
  sessions.erase token

structure AdminSettings where
  adminPassword : List Char
  adminSessionTtlSeconds : Int

def isAdminAuthEnabled (unicode : Unicode) (settings : AdminSettings) : Bool :=
  !settings.adminPassword.isEmpty && !(strip unicode.isSpace settings.adminPassword).isEmpty

structure DeviceIssueRequest where
  hardwareId : List Char
  model : List Char
  firmwareVersion : Option Int
  siteCode : Option (List Char)

/-- The JSON that `control_login` reads: none, or none with a `get`, or an object whose
`password`, by default empty, may be no text. -/
inductive LoginBody where
  | unreadable
  | object (password : Option (List Char))

/-- A request to a control or admin endpoint with its parameters as FastAPI parsed them;
`unprocessable` is one that it refused to parse. -/
inductive AdminEndpoint where
  | controlLogin (body : LoginBody)
  | controlLogout
  | controlStatus
  | controlDevices (page pageSize : Int) (q : List Char)
  | controlIssueDevice (payload : DeviceIssueRequest)
  | adminDevices (page : Int) (q : List Char)
  | adminLogin (password redirect : List Char)
  | adminLogout
  | adminIssueDevice (form : DeviceIssueRequest) (page : Int) (searchQuery : List Char)
  | unprocessable

structure AdminRequest where
  endpoint : AdminEndpoint
  cookie : Option (List Char)
  now : ℚ
  /-- What `secrets.token_urlsafe` generates, for a session or a device. -/
  fresh : List Char
  /-- `utc_now_iso`. -/
  utcNow : List Char

structure DevicePage where
  items : List DeviceRecord
  page : Nat
  pageSize : Nat
  totalItems : Nat
  totalPages : Nat
  query : List Char

inductive AdminReply where
  | message (text : String)
  | error (exception : HttpException)
  | controlStatus
  | deviceList (page : DevicePage)
  | deviceSummary (issued : DeviceRecord)
  | devicesPage (flashMessage : Option String) (issued : Option DeviceRecord) (page : DevicePage)
  | loginPage (error : Option String)
  | redirect (location : List Char)
  | serverError
  | unprocessable

/-- A response and the session cookie that it sets, an empty one to delete it. -/
structure AdminResponse where
  reply : AdminReply
  setCookie : Option (List Char)

structure AdminState where
  sessions : AdminSessions
  store : ControlStore

section
variable (backend : Backend) (unicode : Unicode) (settings : AdminSettings)

/-- `_require_admin_session` and its copies in the admin endpoints. -/
def requireAdminSession (state : AdminState) (request : AdminRequest) : Bool × AdminState :=
  if !isAdminAuthEnabled unicode settings then (true, state)
  else
    match request.cookie with
    | none | some [] => (false, state)
    | some token =>
      let validated := state.sessions.validate token request.now
      (validated.1, { state with sessions := validated.2 })

/-- An endpoint behind the session check, with its answer to a request that fails it. -/
def guarded (refused : AdminReply) (body : AdminState → AdminResponse × AdminState)
    (state : AdminState) (request : AdminRequest) : AdminResponse × AdminState :=
  match requireAdminSession unicode settings state request with
  | (false, state) => (⟨refused, none⟩, state)
  | (true, state) => body state

def listPage (store : ControlStore) (page : Int) (pageSize : Nat) (query : List Char) :
    Option DevicePage :=
  if searchRefused backend unicode query then none
  else
    let totalItems := store.countDevicesReadonly backend unicode query
    let totalPages := max ((totalItems + pageSize - 1) / pageSize) 1
    let currentPage := min (max page 1).toNat totalPages
    let offset := (currentPage - 1) * pageSize
    some ⟨store.listDevicesReadonly backend unicode pageSize offset query, currentPage, pageSize,
      totalItems, totalPages, query⟩

def ADMIN_PAGE_SIZE : Nat := 10

def renderAdminDevicesPage (store : ControlStore) (flashMessage : Option String)
    (issuedDevice : Option DeviceRecord) (page : Int) (query : List Char) : AdminReply :=
  match listPage backend unicode store page ADMIN_PAGE_SIZE query with
  | none => .serverError
  | some listed => .devicesPage flashMessage issuedDevice listed

def DeviceIssueRequest.issue (payload : DeviceIssueRequest) (request : AdminRequest) :
    IssueRequest :=
  ⟨payload.hardwareId, some payload.model, payload.firmwareVersion, payload.siteCode,
    "devtok_".toList ++ request.fresh, request.utcNow⟩

def login (state : AdminState) (request : AdminRequest) : AdminState :=
  { state with sessions :=
      state.sessions.create settings.adminSessionTtlSeconds request.now request.fresh }

/-- The cookie is set on the injected response, which the returned `JSONResponse` replaces. -/
def controlLogin (state : AdminState) (request : AdminRequest) (body : LoginBody) :
    AdminResponse × AdminState :=
  if !isAdminAuthEnabled unicode settings then
    (⟨.message "admin auth not configured", none⟩, state)
  else
    match body with
    | .unreadable => (⟨.serverError, none⟩, state)
    | .object password =>
      if password ≠ some settings.adminPassword then
        (⟨.error ⟨401, "invalid password"⟩, none⟩, state)
      else (⟨.message "authenticated", none⟩, login settings state request)

def logout (state : AdminState) (request : AdminRequest) : AdminState :=
  match request.cookie with
  | none | some [] => state
  | some token => { state with sessions := state.sessions.revoke token }

def controlStatus : AdminState → AdminRequest → AdminResponse × AdminState :=
  guarded unicode settings (.error ⟨401, "authentication required"⟩) fun state =>
    (⟨.controlStatus, none⟩, state)

def controlDevices (page pageSize : Int) (q : List Char) (state : AdminState)
    (request : AdminRequest) : AdminResponse × AdminState :=
  if page < 1 ∨ pageSize < 1 ∨ 50 < pageSize ∨ 100 < q.length then
    (⟨.unprocessable, none⟩, state)
  else
    guarded unicode settings (.error ⟨401, "authentication required"⟩) (fun state =>
      match listPage backend unicode state.store page pageSize.toNat q with
      | none => (⟨.serverError, none⟩, state)
      | some listed => (⟨.deviceList listed, none⟩, state))
      state request

def controlIssueDevice (payload : DeviceIssueRequest) (state : AdminState)
    (request : AdminRequest) : AdminResponse × AdminState :=
  guarded unicode settings (.error ⟨401, "authentication required"⟩) (fun state =>
    match issueDeviceToken backend unicode state.store (payload.issue request) with
    | .error _ => (⟨.serverError, none⟩, state)
    | .ok (issued, store) => (⟨.deviceSummary issued, none⟩, { state with store }))
    state request

def adminDevices (page : Int) (q : List Char) (state : AdminState) (request : AdminRequest) :
    AdminResponse × AdminState :=
  if page < 1 ∨ 100 < q.length then (⟨.unprocessable, none⟩, state)
  else
    guarded unicode settings (.loginPage none) (fun state =>
      (⟨renderAdminDevicesPage backend unicode state.store none none page q, none⟩, state))
      state request

def adminLogin (state : AdminState) (request : AdminRequest) (password redirect : List Char) :
    AdminResponse × AdminState :=
  if !isAdminAuthEnabled unicode settings then (⟨.message "", none⟩, state)
  else if password ≠ settings.adminPassword then
    (⟨.loginPage (some "Invalid password"), none⟩, state)
  else (⟨.redirect redirect, some request.fresh⟩, login settings state request)

def adminIssueDevice (form : DeviceIssueRequest) (page : Int) (searchQuery : List Char)
    (state : AdminState) (request : AdminRequest) : AdminResponse × AdminState :=
  guarded unicode settings (.loginPage (some "Session expired. Please log in again."))
    (fun state =>
      match issueDeviceToken backend unicode state.store (form.issue request) with
      | .error _ => (⟨.serverError, none⟩, state)
      | .ok (issued, store) =>
        (⟨renderAdminDevicesPage backend unicode store
          (some "Device token has been issued successfully.") (some issued) page searchQuery, none⟩,
          { state with store }))
    state request

def AdminRequest.handle (state : AdminState) (request : AdminRequest) :
    AdminResponse × AdminState :=
  match request.endpoint with
  | .controlLogin body => controlLogin unicode settings state request body
  | .controlLogout => (⟨.message "logged out", none⟩, logout state request)
  | .controlStatus => controlStatus unicode settings state request
  | .controlDevices page pageSize q =>
    controlDevices backend unicode settings page pageSize q state request
  | .controlIssueDevice payload => controlIssueDevice backend unicode settings payload state request
  | .adminDevices page q => adminDevices backend unicode settings page q state request
  | .adminLogin password redirect => adminLogin unicode settings state request password redirect
  | .adminLogout => (⟨.message "", some []⟩, logout state request)
  | .adminIssueDevice form page searchQuery =>
    adminIssueDevice backend unicode settings form page searchQuery state request
  | .unprocessable => (⟨.unprocessable, none⟩, state)

end

end Aetus.Ingest
