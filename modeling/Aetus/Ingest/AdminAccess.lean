import Aetus.Ingest.AdminSessions

/-!
Over all histories of requests, device records and tokens go only to a session that a
login with the password created, that no logout has revoked and that has not run out.
-/

set_option autoImplicit false

namespace Aetus.Ingest
open Aetus.Base

def AdminRequest.Creates (settings : AdminSettings) (request : AdminRequest)
    (token : List Char) : Prop :=
  request.fresh = token ∧
    (request.endpoint = .controlLogin (.object (some settings.adminPassword)) ∨
      ∃ redirect, request.endpoint = .adminLogin settings.adminPassword redirect)

def AdminRequest.Revokes (request : AdminRequest) (token : List Char) : Prop :=
  (request.endpoint = .controlLogout ∨ request.endpoint = .adminLogout) ∧
    request.cookie = some token

def SessionUntil (settings : AdminSettings) (history : List AdminRequest) (token : List Char)
    (deadline : ℚ) : Prop :=
  ∃ later login earlier, history = later ++ login :: earlier ∧ login.Creates settings token ∧
    deadline = login.now + settings.adminSessionTtlSeconds ∧
    ∀ request ∈ later, ¬request.Revokes token

theorem SessionUntil.created {settings : AdminSettings} {history : List AdminRequest}
    {request : AdminRequest} {token : List Char} (h : request.Creates settings token) :
    SessionUntil settings (request :: history) token
      (request.now + settings.adminSessionTtlSeconds) :=
  ⟨[], request, history, rfl, h, rfl, by simp⟩

theorem SessionUntil.kept {settings : AdminSettings} {history : List AdminRequest}
    {request : AdminRequest} {token : List Char} {deadline : ℚ}
    (h : SessionUntil settings history token deadline) (hkept : ¬request.Revokes token) :
    SessionUntil settings (request :: history) token deadline := by
  obtain ⟨later, login, earlier, rfl, hlogin, hdeadline, hlater⟩ := h
  refine ⟨request :: later, login, earlier, rfl, hlogin, hdeadline, ?_⟩
  intro other hother
  rcases List.mem_cons.mp hother with rfl | hother
  · exact hkept
  · exact hlater other hother

theorem AdminSessions.validate_true {sessions : AdminSessions} {token : List Char} {now : ℚ}
    (h : (sessions.validate token now).1 = true) :
    ∃ deadline, sessions.lookup token = some deadline ∧ now < deadline := by
  unfold AdminSessions.validate at h
  cases hlook : sessions.lookup token with
  | none => simp [hlook] at h
  | some deadline =>
    refine ⟨deadline, rfl, ?_⟩
    by_contra hlate
    simp [hlook, hlate] at h

theorem AdminSessions.lookup_validate {sessions : AdminSessions} {token other : List Char}
    {now deadline : ℚ} (h : (sessions.validate token now).2.lookup other = some deadline) :
    sessions.lookup other = some deadline := by
  unfold AdminSessions.validate at h
  by_cases hother : other = token
  · subst hother
    cases hlook : sessions.lookup other with
    | none => simp [hlook] at h
    | some found =>
      simp only [hlook, Option.getD_some] at h
      split at h
      · simpa using h
      · simp at h
  · simp only at h
    split at h
    · simpa [AList.lookup_insert_ne hother, AList.lookup_erase_ne hother] using h
    · simpa [AList.lookup_erase_ne hother] using h

section
variable {backend : Backend} {unicode : Unicode} {settings : AdminSettings}
  {state : AdminState} {request : AdminRequest}

theorem requireAdminSession_store :
    (requireAdminSession unicode settings state request).2.store = state.store := by
  unfold requireAdminSession
  split
  · rfl
  · split <;> rfl

theorem requireAdminSession_lookup {token : List Char} {deadline : ℚ}
    (h : (requireAdminSession unicode settings state request).2.sessions.lookup token =
      some deadline) : state.sessions.lookup token = some deadline := by
  unfold requireAdminSession at h
  split at h
  · exact h
  · split at h
    · exact h
    · exact h
    · exact AdminSessions.lookup_validate h

theorem requireAdminSession_true (hauth : isAdminAuthEnabled unicode settings = true)
    (h : (requireAdminSession unicode settings state request).1 = true) :
    ∃ token deadline, request.cookie = some token ∧ token ≠ [] ∧
      state.sessions.lookup token = some deadline ∧ request.now < deadline := by
  unfold requireAdminSession at h
  simp only [hauth, Bool.not_true, Bool.false_eq_true, if_false] at h
  split at h
  · cases h
  · cases h
  · next token hne hcookie =>
    obtain ⟨deadline, hlook, hlate⟩ := AdminSessions.validate_true h
    refine ⟨token, deadline, hcookie, ?_, hlook, hlate⟩
    rintro rfl
    exact hne rfl

def AdminReply.returnsDevices : AdminReply → Bool
  | .deviceList _ | .deviceSummary _ | .devicesPage _ _ _ => true
  | _ => false

def Authenticated (state : AdminState) (request : AdminRequest) : Prop :=
  ∃ token deadline, request.cookie = some token ∧ token ≠ [] ∧
    state.sessions.lookup token = some deadline ∧ request.now < deadline

def AdminRequest.Issues (backend : Backend) (unicode : Unicode) (settings : AdminSettings)
    (state : AdminState) (request : AdminRequest) : Prop :=
  ∃ payload, (request.endpoint = .controlIssueDevice payload ∨
      ∃ page searchQuery, request.endpoint = .adminIssueDevice payload page searchQuery) ∧
    (requireAdminSession unicode settings state request).1 = true ∧
    ∃ issued, issueDeviceToken backend unicode state.store (payload.issue request) = .ok issued

structure Sound (backend : Backend) (unicode : Unicode) (settings : AdminSettings)
    (state : AdminState) (request : AdminRequest) (result : AdminResponse × AdminState) : Prop where
  sessions : ∀ token deadline, token ≠ [] → result.2.sessions.lookup token = some deadline →
    (request.Creates settings token ∧ deadline = request.now + settings.adminSessionTtlSeconds) ∨
      state.sessions.lookup token = some deadline ∧ ¬request.Revokes token
  devices : result.1.reply.returnsDevices = true → Authenticated state request
  quiet : ¬request.Issues backend unicode settings state →
    result.2.store.devices = state.store.devices

theorem Sound.unchanged {reply : AdminReply} {setCookie : Option (List Char)}
    (hreply : reply.returnsDevices = false) (hkept : ∀ token, ¬request.Revokes token) :
    Sound backend unicode settings state request (⟨reply, setCookie⟩, state) := by
  constructor
  · intro token deadline _ hlook
    exact .inr ⟨hlook, hkept token⟩
  · intro hdevices
    rw [hreply] at hdevices
    cases hdevices
  · intro _
    rfl

theorem Sound.guarded (hauth : isAdminAuthEnabled unicode settings = true) {refused : AdminReply}
    {body : AdminState → AdminResponse × AdminState} (hrefused : refused.returnsDevices = false)
    (hkept : ∀ token, ¬request.Revokes token)
    (hsessions : ∀ state, (body state).2.sessions = state.sessions)
    (hquiet : (requireAdminSession unicode settings state request).1 = true →
      ¬request.Issues backend unicode settings state → ∀ checked : AdminState,
        checked.store = state.store → (body checked).2.store.devices = checked.store.devices) :
    Sound backend unicode settings state request (guarded unicode settings refused body state request) := by
  have hlook {token : List Char} {deadline : ℚ} :=
    @requireAdminSession_lookup unicode settings state request token deadline
  have hstore := @requireAdminSession_store unicode settings state request
  have htrue := @requireAdminSession_true unicode settings state request hauth
  unfold Ingest.guarded
  split
  · next checked hcheck =>
    rw [hcheck] at hlook hstore
    constructor
    · intro token deadline _ h
      exact .inr ⟨hlook h, hkept token⟩
    · intro hdevices
      rw [hrefused] at hdevices
      cases hdevices
    · intro _
      exact congrArg ControlStore.devices hstore
  · next checked hcheck =>
    rw [hcheck] at hlook hstore htrue
    constructor
    · intro token deadline _ h
      rw [hsessions checked] at h
      exact .inr ⟨hlook h, hkept token⟩
    · intro _
      exact htrue rfl
    · intro hissues
      have hpassed := congrArg Prod.fst hcheck
      exact (hquiet hpassed hissues checked hstore).trans (congrArg ControlStore.devices hstore)

theorem Sound.login {reply : AdminReply} {setCookie : Option (List Char)}
    (hreply : reply.returnsDevices = false) (hcreates : request.Creates settings request.fresh)
    (hkept : ∀ token, ¬request.Revokes token) :
    Sound backend unicode settings state request (⟨reply, setCookie⟩, login settings state request) := by
  constructor
  · intro token deadline _ h
    by_cases htoken : token = request.fresh
    · subst htoken
      rw [Ingest.login, AdminSessions.create, AList.lookup_insert] at h
      exact .inl ⟨hcreates, (Option.some.inj h).symm⟩
    · rw [Ingest.login, AdminSessions.create, AList.lookup_insert_ne htoken] at h
      exact .inr ⟨h, hkept token⟩
  · intro hdevices
    rw [hreply] at hdevices
    cases hdevices
  · intro _
    rfl

theorem Sound.logout {reply : AdminReply} {setCookie : Option (List Char)}
    (hreply : reply.returnsDevices = false) :
    Sound backend unicode settings state request (⟨reply, setCookie⟩, logout state request) := by
  constructor
  · intro token deadline hne h
    right
    unfold Ingest.logout at h
    split at h
    · next hcookie =>
      exact ⟨h, fun hrevokes => nomatch hcookie.symm.trans hrevokes.2⟩
    · next hcookie =>
      refine ⟨h, fun hrevokes => hne ?_⟩
      exact (Option.some.inj (hcookie.symm.trans hrevokes.2)).symm
    · next revoked _ hcookie =>
      have hother : token ≠ revoked := by
        rintro rfl
        simp [AdminSessions.revoke] at h
      refine ⟨?_, fun hrevokes => hother ?_⟩
      · simpa [AdminSessions.revoke, AList.lookup_erase_ne hother] using h
      · exact (Option.some.inj (hcookie.symm.trans hrevokes.2)).symm
  · intro hdevices
    rw [hreply] at hdevices
    cases hdevices
  · intro _
    unfold Ingest.logout
    split <;> rfl

theorem handle_sound (hauth : isAdminAuthEnabled unicode settings = true) :
    Sound backend unicode settings state request (request.handle backend unicode settings state) := by
  have hother (hlogout : request.endpoint ≠ .controlLogout ∧ request.endpoint ≠ .adminLogout)
      (token : List Char) : ¬request.Revokes token := by
    rintro ⟨hend | hend, -⟩
    · exact hlogout.1 hend
    · exact hlogout.2 hend
  unfold AdminRequest.handle
  cases hend : request.endpoint with
  | controlLogout | adminLogout => exact .logout rfl
  | unprocessable => exact .unchanged rfl (hother (by simp [hend]))
  | controlLogin body =>
    have hkept := hother (by simp [hend])
    simp only [controlLogin, hauth]
    cases body with
    | unreadable => exact .unchanged rfl hkept
    | object password =>
      by_cases hpassword : password = some settings.adminPassword
      · subst hpassword
        simpa using Sound.login rfl ⟨rfl, .inl hend⟩ hkept
      · simpa [hpassword] using Sound.unchanged rfl hkept
  | adminLogin password redirect =>
    have hkept := hother (by simp [hend])
    simp only [adminLogin, hauth]
    by_cases hpassword : password = settings.adminPassword
    · subst hpassword
      simpa using Sound.login rfl ⟨rfl, .inr ⟨redirect, hend⟩⟩ hkept
    · simpa [hpassword] using Sound.unchanged rfl hkept
  | controlStatus =>
    exact .guarded hauth rfl (hother (by simp [hend])) (fun _ => rfl) fun _ _ _ _ => rfl
  | controlDevices page pageSize q =>
    have hkept := hother (by simp [hend])
    simp only [controlDevices]
    split
    · exact .unchanged rfl hkept
    · refine .guarded hauth rfl hkept (fun state => ?_) fun _ _ state _ => ?_
      · split <;> rfl
      · split <;> rfl
  | adminDevices page q =>
    have hkept := hother (by simp [hend])
    simp only [adminDevices]
    split
    · exact .unchanged rfl hkept
    · exact .guarded hauth rfl hkept (fun _ => rfl) fun _ _ _ _ => rfl
  | controlIssueDevice payload =>
    refine .guarded hauth rfl (hother (by simp [hend])) (fun state => ?_)
      fun hpassed hissues checked hstore => ?_
    · split <;> rfl
    · split
      · rfl
      · next hissue =>
        rw [hstore] at hissue
        exact absurd ⟨payload, .inl hend, hpassed, _, hissue⟩ hissues
  | adminIssueDevice form page searchQuery =>
    refine .guarded hauth rfl (hother (by simp [hend])) (fun state => ?_)
      fun hpassed hissues checked hstore => ?_
    · split <;> rfl
    · split
      · rfl
      · next hissue =>
        rw [hstore] at hissue
        exact absurd ⟨form, .inr ⟨page, searchQuery, hend⟩, hpassed, _, hissue⟩ hissues

end

/-- A request to the service. One to any other endpoint leaves the sessions alone, and
what it does to the device registry is left open. -/
inductive ServiceRequest where
  | admin (request : AdminRequest)
  | elsewhere (store : ControlStore)

/-- The service with the control and admin requests it has served, the latest first. -/
structure AdminRun where
  state : AdminState
  history : List AdminRequest

section
variable (backend : Backend) (unicode : Unicode) (settings : AdminSettings)

def AdminRun.step (r : AdminRun) : ServiceRequest → AdminRun
  | .admin request => ⟨(request.handle backend unicode settings r.state).2, request :: r.history⟩
  | .elsewhere store => ⟨{ r.state with store }, r.history⟩

def AdminRun.run (store : ControlStore) (requests : List ServiceRequest) : AdminRun :=
  requests.foldl (AdminRun.step backend unicode settings) ⟨⟨∅, store⟩, []⟩

end

section
variable {backend : Backend} {unicode : Unicode} {settings : AdminSettings}

def AdminRun.Accounted (settings : AdminSettings) (r : AdminRun) : Prop :=
  ∀ token deadline, token ≠ [] → r.state.sessions.lookup token = some deadline →
    SessionUntil settings r.history token deadline

theorem AdminRun.Accounted.step (hauth : isAdminAuthEnabled unicode settings = true)
    {r : AdminRun} (hr : r.Accounted settings) (request : ServiceRequest) :
    (r.step backend unicode settings request).Accounted settings := by
  cases request with
  | elsewhere store => exact hr
  | admin request =>
    intro token deadline hne hlook
    have hsound : Sound backend unicode settings r.state request
        (request.handle backend unicode settings r.state) := handle_sound hauth
    rcases hsound.sessions token deadline hne hlook with ⟨hcreates, rfl⟩ | hold
    · exact .created hcreates
    · exact (hr token deadline hne hold.1).kept hold.2

theorem AdminRun.run_accounted (hauth : isAdminAuthEnabled unicode settings = true)
    (store : ControlStore) (requests : List ServiceRequest) :
    (AdminRun.run backend unicode settings store requests).Accounted settings := by
  refine List.foldlRecOn requests (AdminRun.step backend unicode settings)
    (motive := AdminRun.Accounted settings) ?_ fun r hr request _ => hr.step hauth request
  intro token deadline _ hlook
  simp at hlook

/-- After any requests, one that is answered with device records or issues a token comes with
the cookie of a session that a login with the password created, that was not revoked since and
that is younger than the lifetime; one that issues none leaves the device table as it is. -/
theorem admin_access (hauth : isAdminAuthEnabled unicode settings = true) (store : ControlStore)
    (requests : List ServiceRequest) (request : AdminRequest) :
    let r := AdminRun.run backend unicode settings store requests
    let result := request.handle backend unicode settings r.state
    let issues := request.Issues backend unicode settings r.state
    (result.1.reply.returnsDevices = true ∨ issues → ∃ token deadline,
      request.cookie = some token ∧ SessionUntil settings r.history token deadline ∧
        request.now < deadline) ∧
    (¬issues → result.2.store.devices = r.state.store.devices) := by
  intro r result issues
  have hsound : Sound backend unicode settings r.state request result := handle_sound hauth
  refine ⟨fun hgiven => ?_, hsound.quiet⟩
  have hauthenticated : Authenticated r.state request := by
    rcases hgiven with hdevices | ⟨_, _, hpassed, _⟩
    · exact hsound.devices hdevices
    · exact requireAdminSession_true hauth hpassed
  obtain ⟨token, deadline, hcookie, hne, hlook, hnow⟩ := hauthenticated
  exact ⟨token, deadline, hcookie, AdminRun.run_accounted hauth store requests token deadline hne hlook,
    hnow⟩

end

/-- A login at second 0 and the device list at second 5. -/
theorem admin_access_listed :
    let unicode : Unicode := ⟨id, fun c => c = ' ', id⟩
    let backend : Backend := ⟨.sqlite, fun _ => true, id, fun _ _ => true⟩
    let settings : AdminSettings := ⟨"secret".toList, 60⟩
    let login : AdminRequest := ⟨.adminLogin "secret".toList [], none, 0, "t".toList, []⟩
    let list : AdminRequest := ⟨.controlDevices 1 10 [], some "t".toList, 5, [], []⟩
    let r := AdminRun.run backend unicode settings .initialized [.admin login]
    (list.handle backend unicode settings r.state).1.reply.returnsDevices = true ∧
      ∃ token deadline, list.cookie = some token ∧
        SessionUntil settings r.history token deadline ∧ list.now < deadline := by
  intro unicode backend settings login list r
  have hdevices :
      (list.handle backend unicode settings r.state).1.reply.returnsDevices = true := by
    decide +kernel
  exact ⟨hdevices, (@admin_access backend unicode settings (by decide +kernel)
    .initialized [.admin login] list).1 (.inl hdevices)⟩

end Aetus.Ingest
