import Aetus.Ingest.AdminAccess
import Mathlib.Algebra.Order.Ring.Rat

/-!
Clients that send back the cookies they were given: who has logged in is let in, until the
logout or the end of the lifetime.
-/

set_option autoImplicit false

namespace Aetus.Ingest
open Aetus.Base

/-- A request of a client, or one to any other endpoint. -/
inductive Visit (κ : Type) where
  | admin (client : κ) (request : AdminRequest)
  | elsewhere (store : ControlStore)

/-- The service and its clients: the session cookie that each has, the tokens that the answers
to it have carried, the tokens drawn for logins and the latest reading of the clock. -/
structure Visits (κ : Type) where
  state : AdminState
  jar : κ → Option (List Char)
  given : κ → List (List Char)
  drawn : List (List Char)
  latest : ℚ

def Visits.start (κ : Type) (store : ControlStore) : Visits κ :=
  ⟨⟨∅, store⟩, fun _ => none, fun _ => [], [], 0⟩

def cookieAfter (cookie : Option (List Char)) : Option (List Char) → Option (List Char)
  | none => cookie
  | some [] => none
  | some token => some token

def AdminEndpoint.isLogin : AdminEndpoint → Bool
  | .controlLogin _ | .adminLogin _ _ => true
  | _ => false

def AdminEndpoint.isLogout : AdminEndpoint → Bool
  | .controlLogout | .adminLogout => true
  | _ => false

section
variable {κ : Type} [DecidableEq κ] (backend : Backend) (unicode : Unicode)
  (settings : AdminSettings)

def Visits.step (w : Visits κ) : Visit κ → Visits κ
  | .elsewhere store => { w with state := { w.state with store } }
  | .admin client request =>
    let answer := request.handle backend unicode settings w.state
    { state := answer.2
      jar := Function.update w.jar client (cookieAfter (w.jar client) answer.1.setCookie)
      given := Function.update w.given client (answer.1.setCookie.toList ++ w.given client)
      drawn := if request.endpoint.isLogin then request.fresh :: w.drawn else w.drawn
      latest := request.now }

/-- One request as it can come: the clock goes on, a login draws a new token, the client in
question sends its own cookie, and the others none that it was given. -/
structure Plausible (c : κ) (w : Visits κ) (client : κ) (request : AdminRequest) : Prop where
  clock : w.latest ≤ request.now
  fresh : request.endpoint.isLogin = true → request.fresh ≠ [] ∧ request.fresh ∉ w.drawn
  own : client = c → request.cookie = w.jar c
  others : client ≠ c → ∀ token ∈ w.given c, request.cookie ≠ some token

instance Plausible.decidable (c : κ) (w : Visits κ) (client : κ) (request : AdminRequest) :
    Decidable (Plausible c w client request) :=
  decidable_of_iff (w.latest ≤ request.now ∧
      (request.endpoint.isLogin = true →
        request.fresh ≠ [] ∧ ¬w.drawn.contains request.fresh = true) ∧
      (client = c → request.cookie = w.jar c) ∧
      (client ≠ c → ∀ token ∈ w.given c, request.cookie ≠ some token)) (by
    rw [List.contains_iff_mem]
    exact ⟨fun ⟨clock, fresh, own, others⟩ => ⟨clock, fresh, own, others⟩,
      fun h => ⟨h.clock, h.fresh, h.own, h.others⟩⟩)

def PlausibleRun (c : κ) : Visits κ → List (Visit κ) → Prop
  | _, [] => True
  | w, .elsewhere store :: visits =>
    PlausibleRun c (w.step backend unicode settings (.elsewhere store)) visits
  | w, .admin client request :: visits =>
    Plausible c w client request ∧
      PlausibleRun c (w.step backend unicode settings (.admin client request)) visits

end

def AdminReply.refuses : AdminReply → Prop
  | .error exception => exception = ⟨401, "authentication required"⟩
  | .loginPage _ => True
  | _ => False

section
variable {backend : Backend} {unicode : Unicode} {settings : AdminSettings}
  {state : AdminState} {request : AdminRequest}

theorem AdminSessions.lookup_validate_self {sessions : AdminSessions} {token other : List Char}
    {now deadline : ℚ} (hnow : 0 ≤ now) (hlook : sessions.lookup token = some deadline)
    (htime : now < deadline) : (sessions.validate other now).2.lookup token = some deadline := by
  unfold AdminSessions.validate
  by_cases hother : token = other
  · subst hother
    have hpositive : deadline ≠ 0 := (hnow.trans_lt htime).ne'
    simp [hlook, hpositive, htime]
  · simp only
    split
    · rw [AList.lookup_insert_ne hother, AList.lookup_erase_ne hother, hlook]
    · rw [AList.lookup_erase_ne hother, hlook]

theorem requireAdminSession_keeps {token : List Char} {deadline : ℚ} (hnow : 0 ≤ request.now)
    (hlook : state.sessions.lookup token = some deadline) (htime : request.now < deadline) :
    (requireAdminSession unicode settings state request).2.sessions.lookup token =
      some deadline := by
  unfold requireAdminSession
  split
  · exact hlook
  · split
    · exact hlook
    · exact hlook
    · exact AdminSessions.lookup_validate_self hnow hlook htime

theorem guarded_keeps {refused : AdminReply} {body : AdminState → AdminResponse × AdminState}
    {token : List Char} {deadline : ℚ}
    (hsessions : ∀ state, (body state).2.sessions = state.sessions)
    (hnow : 0 ≤ request.now) (hlook : state.sessions.lookup token = some deadline)
    (htime : request.now < deadline) :
    (guarded unicode settings refused body state request).2.sessions.lookup token =
      some deadline := by
  have hkeeps := @requireAdminSession_keeps unicode settings state request token deadline hnow hlook
    htime
  unfold guarded
  split
  · next hcheck =>
    rw [hcheck] at hkeeps
    exact hkeeps
  · next checked hcheck =>
    rw [hcheck] at hkeeps
    rw [hsessions checked]
    exact hkeeps

structure GuardedBody (body : AdminState → AdminResponse × AdminState) : Prop where
  sessions : ∀ state, (body state).2.sessions = state.sessions
  setCookie : ∀ state, (body state).1.setCookie = none
  reply : ∀ state, ¬(body state).1.reply.refuses

theorem renderAdminDevicesPage_not_refuses (store : ControlStore) (flashMessage : Option String)
    (issuedDevice : Option DeviceRecord) (page : Int) (query : List Char) :
    ¬(renderAdminDevicesPage backend unicode store flashMessage issuedDevice page query).refuses := by
  unfold renderAdminDevicesPage
  split <;> exact id

theorem handle_cases (hlogin : request.endpoint.isLogin = false)
    (hlogout : request.endpoint.isLogout = false) :
    request.handle backend unicode settings state = (⟨.unprocessable, none⟩, state) ∨
      ∃ refused body, GuardedBody body ∧ request.handle backend unicode settings state =
        guarded unicode settings refused body state request := by
  unfold AdminRequest.handle
  cases hend : request.endpoint with
  | controlLogin | adminLogin =>
    rw [hend] at hlogin
    cases hlogin
  | controlLogout | adminLogout =>
    rw [hend] at hlogout
    cases hlogout
  | unprocessable => exact .inl rfl
  | controlStatus => exact .inr ⟨_, _, ⟨fun _ => rfl, fun _ => rfl, fun _ => id⟩, rfl⟩
  | controlDevices page pageSize q =>
    simp only [controlDevices]
    split
    · exact .inl rfl
    · refine .inr ⟨_, _, ⟨fun state => ?_, fun state => ?_, fun state => ?_⟩, rfl⟩
      · split <;> rfl
      · split <;> rfl
      · split <;> exact id
  | adminDevices page q =>
    simp only [adminDevices]
    split
    · exact .inl rfl
    · exact .inr ⟨_, _, ⟨fun _ => rfl, fun _ => rfl,
        fun _ => renderAdminDevicesPage_not_refuses _ _ _ _ _⟩, rfl⟩
  | controlIssueDevice payload =>
    refine .inr ⟨_, _, ⟨fun state => ?_, fun state => ?_, fun state => ?_⟩, rfl⟩
    · split <;> rfl
    · split <;> rfl
    · split <;> exact id
  | adminIssueDevice form page searchQuery =>
    refine .inr ⟨_, _, ⟨fun state => ?_, fun state => ?_, fun state => ?_⟩, rfl⟩
    · split <;> rfl
    · split <;> rfl
    · split
      · exact id
      · exact renderAdminDevicesPage_not_refuses _ _ _ _ _

theorem handle_login_cases (hlogin : request.endpoint.isLogin = true) :
    (request.handle backend unicode settings state).2 = state ∨
      (request.handle backend unicode settings state).2 = login settings state request := by
  unfold AdminRequest.handle
  cases hend : request.endpoint with
  | controlLogin body =>
    simp only [controlLogin]
    split
    · exact .inl rfl
    · split
      · exact .inl rfl
      · split
        · exact .inl rfl
        · exact .inr rfl
  | adminLogin password redirect =>
    simp only [adminLogin]
    split
    · exact .inl rfl
    · split
      · exact .inl rfl
      · exact .inr rfl
  | _ =>
    rw [hend] at hlogin
    cases hlogin

theorem handle_logout (hlogout : request.endpoint.isLogout = true) :
    (request.handle backend unicode settings state).2 = logout state request := by
  unfold AdminRequest.handle
  cases hend : request.endpoint with
  | controlLogout | adminLogout => rfl
  | _ =>
    rw [hend] at hlogout
    cases hlogout

theorem lookup_logout {token : List Char} (hcookie : request.cookie ≠ some token) :
    (logout state request).sessions.lookup token = state.sessions.lookup token := by
  unfold logout
  split
  · rfl
  · rfl
  · next revoked _ hrevoked =>
    have hother : token ≠ revoked := by
      rintro rfl
      exact hcookie hrevoked
    rw [AdminSessions.revoke, AList.lookup_erase_ne hother]

/-- A session that has not run out is kept by every request but its own logout. -/
theorem handle_keeps {token : List Char} {deadline : ℚ} (hnow : 0 ≤ request.now)
    (hlook : state.sessions.lookup token = some deadline) (htime : request.now < deadline)
    (hfresh : request.endpoint.isLogin = true → request.fresh ≠ token)
    (hstays : request.endpoint.isLogout = true → request.cookie ≠ some token) :
    (request.handle backend unicode settings state).2.sessions.lookup token = some deadline := by
  by_cases hlogin : request.endpoint.isLogin = true
  · rcases @handle_login_cases backend unicode settings state request hlogin with hsame | hnew
    · rw [hsame, hlook]
    · rw [hnew, login, AdminSessions.create, AList.lookup_insert_ne (hfresh hlogin).symm, hlook]
  by_cases hlogout : request.endpoint.isLogout = true
  · rw [handle_logout hlogout, lookup_logout (hstays hlogout), hlook]
  · rcases @handle_cases backend unicode settings state request (Bool.eq_false_iff.mpr hlogin)
      (Bool.eq_false_iff.mpr hlogout) with hsame | ⟨refused, body, hbody, hguarded⟩
    · rw [hsame, hlook]
    · rw [hguarded]
      exact guarded_keeps hbody.sessions hnow hlook htime

/-- Only `/admin/login` and `/admin/logout` answer with a cookie. -/
theorem handle_setCookie (hlogin : ∀ redirect,
      request.endpoint ≠ .adminLogin settings.adminPassword redirect)
    (hlogout : request.endpoint.isLogout = false) :
    (request.handle backend unicode settings state).1.setCookie = none := by
  by_cases hnot : request.endpoint.isLogin = false
  · rcases @handle_cases backend unicode settings state request hnot hlogout with
      hsame | ⟨refused, body, hbody, hguarded⟩
    · rw [hsame]
    · rw [hguarded, guarded]
      split
      · rfl
      · exact hbody.setCookie _
  unfold AdminRequest.handle
  cases hend : request.endpoint with
  | controlLogin body =>
    simp only [controlLogin]
    split
    · rfl
    · split
      · rfl
      · split <;> rfl
  | adminLogin password redirect =>
    have hpassword : password ≠ settings.adminPassword := by
      rintro rfl
      exact hlogin redirect hend
    simp only [adminLogin, if_pos hpassword]
    split <;> rfl
  | _ => exact absurd (by rw [hend]; rfl) hnot

theorem handle_adminLogin (hauth : isAdminAuthEnabled unicode settings = true)
    {redirect : List Char} (hend : request.endpoint = .adminLogin settings.adminPassword redirect) :
    request.handle backend unicode settings state =
      (⟨.redirect redirect, some request.fresh⟩, login settings state request) := by
  simp [AdminRequest.handle, hend, adminLogin, hauth]

theorem handle_not_refuses (hlogin : request.endpoint.isLogin = false)
    (hpassed : (requireAdminSession unicode settings state request).1 = true) :
    ¬(request.handle backend unicode settings state).1.reply.refuses := by
  by_cases hlogout : request.endpoint.isLogout = true
  · unfold AdminRequest.handle
    cases hend : request.endpoint with
    | controlLogout | adminLogout => exact id
    | _ =>
      rw [hend] at hlogout
      cases hlogout
  rcases @handle_cases backend unicode settings state request hlogin
    (Bool.eq_false_iff.mpr hlogout) with hsame | ⟨refused, body, hbody, hguarded⟩
  · rw [hsame]
    exact id
  · rw [hguarded, guarded]
    split
    · next hfailed =>
      rw [hfailed] at hpassed
      cases hpassed
    · exact hbody.reply _

end

/-! Runs -/

section
variable {κ : Type} [DecidableEq κ] {backend : Backend} {unicode : Unicode}
  {settings : AdminSettings} {c client : κ} {w : Visits κ} {request : AdminRequest} {limit : ℚ}

def Visits.LoggedIn (w : Visits κ) (c : κ) (limit : ℚ) : Prop :=
  ∃ token deadline, w.jar c = some token ∧ token ≠ [] ∧ token ∈ w.given c ∧ token ∈ w.drawn ∧
    w.state.sessions.lookup token = some deadline ∧ limit ≤ deadline

theorem cookieAfter_token {cookie : Option (List Char)} {token : List Char} (h : token ≠ []) :
    cookieAfter cookie (some token) = some token := by
  cases token with
  | nil => exact absurd rfl h
  | cons head tail => rfl

theorem Visits.loggedIn_login (hauth : isAdminAuthEnabled unicode settings = true)
    (hvisit : Plausible c w c request) {redirect : List Char}
    (hend : request.endpoint = .adminLogin settings.adminPassword redirect)
    (hlimit : limit ≤ request.now + settings.adminSessionTtlSeconds) :
    (w.step backend unicode settings (.admin c request)).LoggedIn c limit := by
  have hlogin : request.endpoint.isLogin = true := by rw [hend]; rfl
  have hne := (hvisit.fresh hlogin).1
  simp only [step, handle_adminLogin hauth hend, hlogin]
  refine ⟨request.fresh, request.now + settings.adminSessionTtlSeconds, ?_, hne, ?_, ?_, ?_, hlimit⟩
  · simp only [Function.update_self, cookieAfter_token hne]
  · simp only [Function.update_self]
    exact List.mem_append_left _ List.mem_cons_self
  · exact List.mem_cons_self
  · exact AList.lookup_insert _

/-- Until its time is over a client stays logged in through every request but its logout. -/
theorem Visits.LoggedIn.step (hauth : isAdminAuthEnabled unicode settings = true)
    (h : w.LoggedIn c limit) (hvisit : Plausible c w client request) (hnow : 0 ≤ request.now)
    (htime : request.now < limit) (hlimit : limit ≤ request.now + settings.adminSessionTtlSeconds)
    (hstays : client = c → request.endpoint.isLogout = false) :
    (w.step backend unicode settings (.admin client request)).LoggedIn c limit := by
  obtain ⟨token, deadline, hjar, hne, hgiven, hdrawn, hlook, hdeadline⟩ := h
  have hcookie : request.endpoint.isLogout = true → request.cookie ≠ some token := by
    intro hlogout
    by_cases hclient : client = c
    · exact absurd (hstays hclient) (by simp [hlogout])
    · exact hvisit.others hclient token hgiven
  have hfresh : request.endpoint.isLogin = true → request.fresh ≠ token := by
    rintro hlogin rfl
    exact (hvisit.fresh hlogin).2 hdrawn
  have hkept : (w.step backend unicode settings (.admin client request)).state.sessions.lookup token =
      some deadline := handle_keeps hnow hlook (htime.trans_le hdeadline) hfresh hcookie
  have hdrawn' : token ∈ (w.step backend unicode settings (.admin client request)).drawn := by
    simp only [Visits.step]
    split
    · exact List.mem_cons_of_mem _ hdrawn
    · exact hdrawn
  by_cases hclient : client = c
  · subst hclient
    by_cases hlogin : ∃ redirect, request.endpoint = .adminLogin settings.adminPassword redirect
    · obtain ⟨redirect, hend⟩ := hlogin
      exact Visits.loggedIn_login hauth hvisit hend hlimit
    · have hnone := @handle_setCookie backend unicode settings w.state request
        (not_exists.mp hlogin) (hstays rfl)
      refine ⟨token, deadline, ?_, hne, ?_, hdrawn', hkept, hdeadline⟩
      · simp only [Visits.step, Function.update_self, hnone]
        exact hjar
      · simp only [Visits.step, Function.update_self, hnone]
        exact hgiven
  · refine ⟨token, deadline, ?_, hne, ?_, hdrawn', hkept, hdeadline⟩
    · rw [← hjar]
      exact Function.update_of_ne (Ne.symm hclient) _ _
    · show token ∈ Function.update w.given client _ c
      rw [Function.update_of_ne (Ne.symm hclient)]
      exact hgiven

theorem PlausibleRun.append {visits later : List (Visit κ)} :
    PlausibleRun backend unicode settings c w (visits ++ later) ↔
      PlausibleRun backend unicode settings c w visits ∧
        PlausibleRun backend unicode settings c
          (visits.foldl (Visits.step backend unicode settings) w) later := by
  induction visits generalizing w with
  | nil => simp [PlausibleRun]
  | cons visit visits ih =>
    cases visit with
    | elsewhere store => exact ih
    | admin client request =>
      simp only [List.cons_append, PlausibleRun, List.foldl_cons, ih, and_assoc]

theorem PlausibleRun.latest_le {visits later : List (Visit κ)}
    (h : PlausibleRun backend unicode settings c w (visits ++ .admin client request :: later)) :
    w.latest ≤ request.now := by
  induction visits generalizing w with
  | nil => exact h.1.clock
  | cons visit visits ih =>
    cases visit with
    | elsewhere store =>
      have hrest : PlausibleRun backend unicode settings c
        (w.step backend unicode settings (.elsewhere store))
        (visits ++ .admin client request :: later) := h
      have hlatest := ih hrest
      exact hlatest
    | admin other earlier =>
      obtain ⟨hvisit, hrest⟩ := h
      exact hvisit.clock.trans (ih hrest)

theorem Visits.LoggedIn.run (hauth : isAdminAuthEnabled unicode settings = true)
    {visits later : List (Visit κ)} (h : w.LoggedIn c limit)
    (hrun : PlausibleRun backend unicode settings c w (visits ++ .admin c request :: later))
    (hstart : 0 ≤ w.latest) (htime : request.now < limit)
    (hlimit : limit ≤ w.latest + settings.adminSessionTtlSeconds)
    (hstays : ∀ other, .admin c other ∈ visits → other.endpoint.isLogout = false) :
    (visits.foldl (Visits.step backend unicode settings) w).LoggedIn c limit := by
  induction visits generalizing w with
  | nil => exact h
  | cons visit visits ih =>
    have hrest : ∀ other, .admin c other ∈ visits → other.endpoint.isLogout = false :=
      fun other hother => hstays other (List.mem_cons_of_mem _ hother)
    cases visit with
    | elsewhere store => exact ih h hrun hstart hlimit hrest
    | admin client earlier =>
      obtain ⟨hvisit, hlater⟩ := hrun
      have hbefore : earlier.now ≤ request.now := hlater.latest_le
      have hnow := hstart.trans hvisit.clock
      have hlimit' : limit ≤ earlier.now + settings.adminSessionTtlSeconds :=
        hlimit.trans (by simpa using hvisit.clock)
      have hstep : (w.step backend unicode settings (.admin client earlier)).LoggedIn c limit :=
        h.step hauth hvisit hnow (hbefore.trans_lt htime) hlimit' fun hclient =>
          hstays earlier (hclient ▸ List.mem_cons_self)
      exact ih hstep hlater hnow hlimit' hrest

theorem Visits.latest_nonneg {visits : List (Visit κ)} (hstart : 0 ≤ w.latest)
    (hrun : PlausibleRun backend unicode settings c w visits) :
    0 ≤ (visits.foldl (Visits.step backend unicode settings) w).latest := by
  induction visits generalizing w with
  | nil => exact hstart
  | cons visit visits ih =>
    cases visit with
    | elsewhere store =>
      have hrest : PlausibleRun backend unicode settings c
        (w.step backend unicode settings (.elsewhere store)) visits := hrun
      exact ih hstart hrest
    | admin client request => exact ih (hstart.trans hrun.1.clock) hrun.2

/-- Whenever a login of the client has succeeded, by either route, its requests are not refused
before its next logout and the end of the lifetime. -/
def Accepts (backend : Backend) (unicode : Unicode) (settings : AdminSettings) (c : κ)
    (w : Visits κ) (visits : List (Visit κ)) : Prop :=
  ∀ (before : List (Visit κ)) (login : AdminRequest) (between : List (Visit κ))
    (request : AdminRequest) (later : List (Visit κ)),
    visits = before ++ .admin c login :: (between ++ .admin c request :: later) →
      login.Creates settings login.fresh →
        (∀ other, .admin c other ∈ between → other.endpoint.isLogout = false) →
          request.endpoint.isLogin = false →
            request.now < login.now + (settings.adminSessionTtlSeconds : ℚ) →
              ¬(request.handle backend unicode settings ((before ++ .admin c login :: between).foldl
                (Visits.step backend unicode settings) w).state).1.reply.refuses

/-- A client that logs in through `/admin/login` is let in, whatever the others do. -/
theorem accepts_of_adminLogin (hauth : isAdminAuthEnabled unicode settings = true) (c : κ)
    (store : ControlStore) (visits : List (Visit κ))
    (hrun : PlausibleRun backend unicode settings c (.start κ store) visits)
    (hroute : ∀ login, .admin c login ∈ visits → login.Creates settings login.fresh →
      ∃ redirect, login.endpoint = .adminLogin settings.adminPassword redirect) :
    Accepts backend unicode settings c (.start κ store) visits := by
  rintro before login between request later rfl hcreates hstays hguarded htime
  obtain ⟨redirect, hend⟩ := hroute login (by simp) hcreates
  obtain ⟨hbefore, hvisit, hrest⟩ := PlausibleRun.append.mp hrun
  have hstart : 0 ≤ (Visits.start κ store).latest := le_rfl
  have hnow := (Visits.latest_nonneg hstart hbefore).trans hvisit.clock
  have hlogin := @Visits.loggedIn_login κ _ backend _ _ _ _ _ _ hauth hvisit _ hend le_rfl
  have hlogged := hlogin.run hauth hrest hnow htime le_rfl hstays
  obtain ⟨-, hlast, -⟩ := PlausibleRun.append.mp hrest
  obtain ⟨token, deadline, hjar, hne, -, -, hlook, hdeadline⟩ := hlogged
  have hlate := htime.trans_le hdeadline
  have hpositive : deadline ≠ 0 :=
    ((Visits.latest_nonneg hnow (PlausibleRun.append.mp hrest).1).trans hlast.clock |>.trans_lt
      hlate).ne'
  rw [List.foldl_append, List.foldl_cons]
  refine handle_not_refuses hguarded ?_
  have hcookie := (hlast.own rfl).trans hjar
  cases token with
  | nil => exact absurd rfl hne
  | cons head tail =>
    simp [requireAdminSession, hauth, hcookie, AdminSessions.validate, hlook, hpositive, hlate]

end

/-! Two routes -/

def passwordSettings : AdminSettings := ⟨"secret".toList, 60⟩

def asciiUnicode : Unicode := ⟨id, fun c => c = ' ', id⟩

def acceptingBackend : Backend := ⟨.sqlite, fun _ => true, id, fun _ _ => true⟩

def statusRequest (cookie : Option (List Char)) : AdminRequest :=
  ⟨.controlStatus, cookie, 5, [], []⟩

/-- The first client logs in at `/admin/login`, the second logs out with another cookie. -/
theorem accepts_of_adminLogin_two :
    Accepts acceptingBackend asciiUnicode passwordSettings true (.start Bool .initialized)
      [.admin true ⟨.adminLogin "secret".toList [], none, 0, "t".toList, []⟩,
        .admin false ⟨.controlLogout, some "u".toList, 1, [], []⟩,
        .admin true (statusRequest (some "t".toList))] := by
  refine accepts_of_adminLogin (by decide +kernel) true .initialized _ ?_ ?_
  · exact ⟨by decide +kernel, by decide +kernel, by decide +kernel, trivial⟩
  · intro login hlogin hcreates
    simp only [List.mem_cons, Visit.admin.injEq, List.not_mem_nil, or_false] at hlogin
    rcases hlogin with ⟨-, rfl⟩ | ⟨hother, -⟩ | ⟨-, rfl⟩
    · exact ⟨_, rfl⟩
    · cases hother
    · rcases hcreates.2 with hend | ⟨_, hend⟩ <;> cases hend

/-- The login at `/v1/control/login` succeeds, and the client comes back with no cookie. -/
theorem controlLogin_not_accepted :
    PlausibleRun acceptingBackend asciiUnicode passwordSettings () (.start Unit .initialized)
        [.admin () ⟨.controlLogin (.object (some "secret".toList)), none, 0, "t".toList, []⟩,
          .admin () (statusRequest none)] ∧
      ¬Accepts acceptingBackend asciiUnicode passwordSettings () (.start Unit .initialized)
        [.admin () ⟨.controlLogin (.object (some "secret".toList)), none, 0, "t".toList, []⟩,
          .admin () (statusRequest none)] := by
  constructor
  · exact ⟨by decide +kernel, by decide +kernel, trivial⟩
  · intro h
    refine h [] ⟨.controlLogin (.object (some "secret".toList)), none, 0, "t".toList, []⟩ []
      (statusRequest none) [] rfl ⟨rfl, .inl rfl⟩ (by simp) rfl ?_ ?_
    · decide +kernel
    · rfl

end Aetus.Ingest
