import Aetus.Query.CacheRequests

/-!
The tokens of the query API over a run of requests. What is answered with data was granted by an
administrator: the token was handed out for these devices and streams, and has not expired.
-/

set_option autoImplicit false

namespace Aetus.Query
open Aetus.Base Aetus.Postgres

variable {F : Type}

/-! What a token says -/

structure Grant where
  request : TokenRequest
  issuedAt : Timestamptz

def Grant.expiresIn (grant : Grant) (settings : Settings) : Int :=
  min (grant.request.expiresInSeconds.getD settings.queryJwtTtlSeconds)
    settings.queryJwtMaxTtlSeconds

def Grant.claims (grant : Grant) (settings : Settings) : Claims := [
  ("iss".toList, .string settings.queryJwtIssuer),
  ("aud".toList, .string settings.queryJwtAudience),
  ("sub".toList, .string grant.request.subject),
  ("scope".toList, texts (sortedSet grant.request.scopes)),
  ("devices".toList, texts (sortedSet grant.request.devices)),
  ("device_groups".toList, texts (sortedSet grant.request.deviceGroups)),
  ("streams".toList, texts (sortedSet grant.request.streams)),
  ("max_range_seconds".toList, optionalNumber grant.request.maxRangeSeconds),
  ("max_points".toList, .int (min (grant.request.maxPoints.getD settings.maxPointsLimit)
    settings.maxPointsLimit)),
  ("iat".toList, .int (grant.issuedAt / 1000000)),
  ("exp".toList, .int ((grant.issuedAt + 1000000 * grant.expiresIn settings) / 1000000))]

def Grant.token (grant : Grant) (tokens : Tokens) (settings : Settings) : List Char :=
  tokens.encode (grant.claims settings) settings.queryJwtSecret

def Grant.principal (grant : Grant) (settings : Settings) : QueryPrincipal where
  scopes := sortedSet grant.request.scopes
  devices := sortedSet grant.request.devices
  streams := sortedSet grant.request.streams
  maxRangeSeconds := grant.request.maxRangeSeconds
  maxPoints := some (min (grant.request.maxPoints.getD settings.maxPointsLimit)
    settings.maxPointsLimit)

/-- PyJWT gives back the claims of a token that it has signed, until the time of its `exp`. -/
def Tokens.Verifies (tokens : Tokens) : Prop :=
  ∀ claims secret audience issuer now decoded,
    tokens.decode (tokens.encode claims secret) secret audience issuer now = some decoded →
      decoded = claims ∧ ∀ exp, claims.lookup "exp".toList = some (.int exp) → now < 1000000 * exp

section
variable {tokens : Tokens} {unicode : Ingest.Unicode} {settings : Settings} {claims : Claims}
  {authorization : Option (List Char)} {scope : String} {now : Timestamptz} {q : QueryPrincipal}
  {grant : Grant}

theorem issueQueryToken_accessToken (tokens : Tokens) (settings : Settings) (grant : Grant) :
    (issueQueryToken tokens settings grant.request grant.issuedAt).accessToken =
      grant.token tokens settings := rfl

theorem claimList_texts {key : List Char} (items : List (List Char))
    (h : claims.lookup key = some (texts items)) : claimList tokens claims key = items := by
  unfold claimList
  rw [h]
  simp [texts, Function.comp_def]

theorem optionalInt_optionalNumber (n : Option Int) :
    optionalInt tokens (some (optionalNumber n)) = .ok n := by
  cases n <;> rfl

theorem principalFromClaims_claims :
    principalFromClaims tokens (grant.claims settings) = .ok (grant.principal settings) := by
  have hrange : (grant.claims settings).lookup "max_range_seconds".toList =
      some (optionalNumber grant.request.maxRangeSeconds) := rfl
  have hpoints : (grant.claims settings).lookup "max_points".toList = some (.int (min
      (grant.request.maxPoints.getD settings.maxPointsLimit) settings.maxPointsLimit)) := rfl
  unfold principalFromClaims
  rw [hrange, hpoints, optionalInt_optionalNumber]
  dsimp only [optionalInt]
  rw [claimList_texts (sortedSet grant.request.scopes) rfl,
    claimList_texts (sortedSet grant.request.devices) rfl,
    claimList_texts (sortedSet grant.request.streams) rfl]
  rfl

/-- Whole seconds are no more than the time that was asked for. -/
theorem lt_expires_of_exp (h : now < 1000000 *
      ((grant.issuedAt + 1000000 * grant.expiresIn settings) / 1000000)) :
    now < grant.issuedAt + 1000000 * grant.expiresIn settings :=
  Int.lt_of_lt_of_le h (Int.mul_ediv_self_le (by decide))

theorem authenticateQuery_ok (henabled : settings.queryAuthEnabled = true)
    (h : authenticateQuery tokens unicode settings authorization scope now = .ok q) :
    ∃ text claims, bearerToken authorization = some text ∧
      tokens.decode (Ingest.strip unicode.isSpace text) settings.queryJwtSecret
        settings.queryJwtAudience settings.queryJwtIssuer now = some claims ∧
      principalFromClaims tokens claims = .ok q ∧ q.hasScope scope.toList = true := by
  unfold authenticateQuery at h
  rw [henabled, Bool.not_true, if_neg Bool.false_ne_true] at h
  split at h
  · cases h
  · next text htext =>
    split at h
    · cases h
    · next claims hclaims =>
      split at h
      · cases h
      · next principal hprincipal =>
        split at h
        · cases h
        · next hscope =>
          obtain rfl := Except.ok.inj h
          exact ⟨text, claims, htext, hclaims, hprincipal, by simpa using hscope⟩

end

/-! What a handler has checked -/

def Endpoint.scope : Endpoint → Option String
  | .healthz | .readyz | .createQueryToken _ _ => none
  | .searchDevices _ _ | .listStreams _ => some "streams:list"
  | .getSeries _ _ _ _ _ | .getSummary _ _ _ _ => some "query:read"
  | .getFrames _ _ _ _ => some "frames:read"

def QueryPrincipal.Admits (principal : QueryPrincipal) (service : Service F) (from_ to_ : List Char)
    (maxPoints : Option Int) : Prop :=
  ∃ range, parseRange service from_ to_ = .ok range ∧
    (∀ n ∈ principal.maxRangeSeconds, range.2 - range.1 ≤ 1000000 * n) ∧
    ∀ points ∈ maxPoints, ∀ n ∈ principal.maxPoints, points ≤ n

def Endpoint.AdmittedBy (principal : QueryPrincipal) (service : Service F) (settings : Settings) :
    Endpoint → Prop
  | .getSeries _ _ from_ to_ param => ∃ first ∈ from_, ∃ last ∈ to_, ∃ maxPoints,
      param.value settings.maxPointsDefault (1 ≤ ·) = some maxPoints ∧
        principal.Admits service first last (some maxPoints)
  | .getSummary _ _ from_ to_ | .getFrames _ _ from_ to_ => ∃ first ∈ from_, ∃ last ∈ to_,
      principal.Admits service first last none
  | _ => True

def Body.tells : Body F → Bool
  | .devices _ | .streams _ _ | .stream _ => true
  | _ => false

section
variable {service : Service F} {settings : Settings} {moment : Moment} {state : State F}
  {request : Request} {principal q : QueryPrincipal} {authorization : Option (List Char)}
  {deviceId key from_ to_ : List Char} {range : Timestamptz × Timestamptz} {maxPoints : Option Int}

theorem enforceQueryLimits_ok {length : Int}
    (h : enforceQueryLimits principal length maxPoints = .ok ()) :
    (∀ n ∈ principal.maxRangeSeconds, length ≤ 1000000 * n) ∧
      ∀ points ∈ maxPoints, ∀ n ∈ principal.maxPoints, points ≤ n := by
  unfold enforceQueryLimits at h
  split at h
  · cases h
  · next hrange =>
    split at h
    · cases h
    · next hpoints =>
      refine ⟨fun n hn => ?_, fun points hmem n hn => ?_⟩
      · rw [Option.mem_def.mp hn] at hrange
        simpa using hrange
      · rw [Option.mem_def.mp hmem, Option.mem_def.mp hn] at hpoints
        simpa using hpoints

theorem admits_of_checked {α : Type} {result : α}
    {next : Timestamptz × Timestamptz → Except Failure α} (h : (do
      let range ← parseRange service from_ to_
      enforceQueryLimits q (range.2 - range.1) maxPoints
      next range) = .ok result) : q.Admits service from_ to_ maxPoints := by
  obtain ⟨range, hparse, h⟩ := except_bind_eq_ok.mp h
  obtain ⟨_, hlimits, -⟩ := except_bind_eq_ok.mp h
  obtain ⟨hrange, hpoints⟩ := enforceQueryLimits_ok hlimits
  exact ⟨range, hparse, hrange, hpoints⟩

theorem seriesRange_admits {maxPoints : Int}
    (h : seriesRange service settings moment authorization deviceId key from_ to_ maxPoints =
      .ok range) :
    ∃ q, authenticateQuery service.tokens service.unicode settings authorization "query:read"
        moment.tokenClock = .ok q ∧ q.Admits service from_ to_ (some maxPoints) := by
  obtain ⟨q, hauth, h⟩ := except_bind_eq_ok.mp h
  split at h
  · cases h
  · exact ⟨q, (authorize_ok hauth).1, admits_of_checked h⟩

theorem summaryRange_admits
    (h : summaryRange service settings moment authorization deviceId key from_ to_ = .ok range) :
    ∃ q, authenticateQuery service.tokens service.unicode settings authorization "query:read"
        moment.tokenClock = .ok q ∧ q.Admits service from_ to_ none := by
  obtain ⟨q, hauth, h⟩ := except_bind_eq_ok.mp h
  exact ⟨q, (authorize_ok hauth).1, admits_of_checked h⟩

theorem framesRange_admits
    (h : framesRange service settings moment authorization deviceId key from_ to_ = .ok range) :
    ∃ q, authenticateQuery service.tokens service.unicode settings authorization "frames:read"
        moment.tokenClock = .ok q ∧ q.Admits service from_ to_ none := by
  obtain ⟨q, hauth, h⟩ := except_bind_eq_ok.mp h
  exact ⟨q, (authorize_ok hauth).1, admits_of_checked h⟩

theorem failed_tells (e : Failure) : (failed e : Response F).body.tells = false := by
  cases e <;> rfl

theorem ok_of_respond_tells {result : Except Failure (Body F)}
    (h : (respond result).body.tells = true) : ∃ body, result = .ok body := by
  cases result with
  | error e => exact absurd h (by rw [respond, failed_tells]; exact Bool.false_ne_true)
  | ok body => exact ⟨body, rfl⟩

/-- Data are answered to a principal with the scope of the handler, in the limits of its token. -/
theorem serve_authenticated
    (h : (serve service settings moment state request).1.body.tells = true) :
    ∃ scope q, request.endpoint.scope = some scope ∧
      authenticateQuery service.tokens service.unicode settings request.authorization scope
        moment.tokenClock = .ok q ∧ request.endpoint.AdmittedBy q service settings := by
  obtain ⟨authorization, endpoint⟩ := request
  unfold serve at h
  cases endpoint with
  | healthz => cases h
  | readyz => cases h
  | createQueryToken body adminToken =>
    dsimp only at h
    split at h
    · cases h
    · obtain ⟨body, hbody⟩ := ok_of_respond_tells h
      obtain ⟨issued, rfl⟩ := createQueryToken_ok hbody
      rw [hbody] at h
      cases h
  | searchDevices search limit =>
    dsimp only at h
    split at h
    · obtain ⟨body, hbody⟩ := ok_of_respond_tells h
      obtain ⟨q, hauth, -⟩ := except_bind_eq_ok.mp hbody
      exact ⟨_, q, rfl, hauth, trivial⟩
    · cases h
  | listStreams deviceId =>
    obtain ⟨body, hbody⟩ := ok_of_respond_tells h
    obtain ⟨q, hauth, -⟩ := except_bind_eq_ok.mp hbody
    exact ⟨_, q, rfl, hauth, trivial⟩
  | getSeries deviceId key from_ to_ param =>
    dsimp only at h
    split at h
    · next first last maxPoints hparam =>
      unfold getSeries at h
      split at h
      · rw [failed_tells] at h
        cases h
      · next hrange =>
        obtain ⟨q, hauth, hadmits⟩ := seriesRange_admits hrange
        exact ⟨_, q, rfl, hauth, _, rfl, _, rfl, _, hparam, hadmits⟩
    · cases h
  | getSummary deviceId key from_ to_ =>
    dsimp only at h
    split at h
    · unfold getSummary at h
      split at h
      · rw [failed_tells] at h
        cases h
      · next hrange =>
        obtain ⟨q, hauth, hadmits⟩ := summaryRange_admits hrange
        exact ⟨_, q, rfl, hauth, _, rfl, _, rfl, hadmits⟩
    · cases h
  | getFrames deviceId key from_ to_ =>
    dsimp only at h
    split at h
    · obtain ⟨body, hbody⟩ := ok_of_respond_tells h
      obtain ⟨range, hrange, -⟩ := except_bind_eq_ok.mp hbody
      obtain ⟨q, hauth, hadmits⟩ := framesRange_admits hrange
      exact ⟨_, q, rfl, hauth, _, rfl, _, rfl, hadmits⟩
    · cases h

theorem failed_ne_token (e : Failure) (issued : IssuedToken) :
    (failed e : Response F).body ≠ .token issued := by
  intro h
  cases e <;> cases h

theorem respond_ne_token {result : Except Failure (Body F)}
    (h : ∀ body, result = .ok body → body.tells = true) (issued : IssuedToken) :
    (respond result).body ≠ .token issued := by
  cases result with
  | error e => exact failed_ne_token e issued
  | ok body =>
    intro hbody
    have htells := h body rfl
    rw [show body = .token issued from hbody] at htells
    cases htells

theorem throughCache_ne_token {cacheKey : List Char}
    {read : Store F → Except Failure (Store F × StreamBody F)} (issued : IssuedToken) :
    (throughCache settings moment state cacheKey read).1.body ≠ .token issued := by
  intro h
  unfold throughCache at h
  split at h
  · cases h
  · split at h
    · exact failed_ne_token _ issued h
    · cases h

theorem verifyAdminToken_ok (henabled : settings.queryAuthEnabled = true)
    {adminToken : Option (List Char)} (h : verifyAdminToken settings adminToken = .ok ()) :
    settings.queryAdminToken ≠ [] ∧ adminToken = some settings.queryAdminToken := by
  unfold verifyAdminToken at h
  rw [henabled, Bool.not_true, if_neg Bool.false_ne_true] at h
  split at h
  · cases h
  · cases h
  · next token hne =>
    split at h
    · cases h
    · next hsame =>
      obtain rfl := not_not.mp hsame
      exact ⟨fun hnil => hne hnil, rfl⟩

theorem serve_token (henabled : settings.queryAuthEnabled = true) {issued : IssuedToken}
    (h : (serve service settings moment state request).1.body = .token issued) :
    settings.queryAdminToken ≠ [] ∧ ∃ body : TokenRequest, body.isValid = true ∧
      request.endpoint = .createQueryToken (some body) (some settings.queryAdminToken) ∧
      issued = issueQueryToken service.tokens settings body moment.clock := by
  obtain ⟨authorization, endpoint⟩ := request
  unfold serve at h
  cases endpoint with
  | healthz => cases h
  | readyz => cases h
  | createQueryToken body adminToken =>
    dsimp only at h
    split at h
    · cases h
    · next body hbody =>
      obtain ⟨rfl, hvalid⟩ := Option.filter_eq_some_iff.mp hbody
      cases hcreate : createQueryToken service settings moment body adminToken with
      | error e =>
        rw [hcreate] at h
        cases e <;> cases h
      | ok answered =>
        rw [hcreate] at h
        obtain ⟨_, hadmin, hissued⟩ := except_bind_eq_ok.mp hcreate
        obtain ⟨hne, rfl⟩ := verifyAdminToken_ok henabled hadmin
        obtain rfl := Except.ok.inj hissued
        exact ⟨hne, body, hvalid, rfl, (Body.token.inj h).symm⟩
  | searchDevices search limit =>
    dsimp only at h
    split at h
    · refine absurd h (respond_ne_token (fun body hbody => ?_) issued)
      obtain ⟨q, -, hbody⟩ := except_bind_eq_ok.mp hbody
      obtain ⟨devices, -, hbody⟩ := except_bind_eq_ok.mp hbody
      obtain rfl := Except.ok.inj hbody
      rfl
    · cases h
  | listStreams deviceId =>
    refine absurd h (respond_ne_token (fun body hbody => ?_) issued)
    obtain ⟨q, -, hbody⟩ := except_bind_eq_ok.mp hbody
    obtain ⟨_, -, hbody⟩ := except_bind_eq_ok.mp hbody
    obtain rfl := Except.ok.inj hbody
    rfl
  | getSeries deviceId key from_ to_ param =>
    dsimp only at h
    split at h
    · unfold getSeries at h
      split at h
      · exact absurd h (failed_ne_token _ issued)
      · exact absurd h (throughCache_ne_token issued)
    · cases h
  | getSummary deviceId key from_ to_ =>
    dsimp only at h
    split at h
    · unfold getSummary at h
      split at h
      · exact absurd h (failed_ne_token _ issued)
      · exact absurd h (throughCache_ne_token issued)
    · cases h
  | getFrames deviceId key from_ to_ =>
    dsimp only at h
    split at h
    · refine absurd h (respond_ne_token (fun body hbody => ?_) issued)
      obtain ⟨-, response, rfl⟩ := getFrames_ok hbody
      rfl
    · cases h

end

/-! Runs -/

def GrantedIn (settings : Settings) (events : List (CacheEvent F)) (grant : Grant) : Prop :=
  settings.queryAdminToken ≠ [] ∧ grant.request.isValid = true ∧ ∃ moment authorization,
    .served moment ⟨authorization, .createQueryToken (some grant.request)
      (some settings.queryAdminToken)⟩ ∈ events ∧ grant.issuedAt = moment.clock

def HandedOut (service : Service F) (settings : Settings) (start : Store F)
    (events : List (CacheEvent F)) (token : List Char) : Prop :=
  ∃ before moment request later issued, events = before ++ .served moment request :: later ∧
    (serve service settings moment (stateAfter service settings start before) request).1.body =
      .token issued ∧ issued.accessToken = token

def Request.token (request : Request) (service : Service F) : Option (List Char) :=
  (bearerToken request.authorization).map (Ingest.strip service.unicode.isSpace)

/-- Nobody else can sign: a token that is decoded was handed out before. -/
def Unforged (service : Service F) (settings : Settings) (start : Store F)
    (events : List (CacheEvent F)) : Prop :=
  ∀ before moment request later, events = before ++ .served moment request :: later →
    ∀ token ∈ request.token service, ∀ claims,
      service.tokens.decode token settings.queryJwtSecret settings.queryJwtAudience
        settings.queryJwtIssuer moment.tokenClock = some claims →
      HandedOut service settings start before token

section
variable {service : Service F} {settings : Settings} {start : Store F} {moment : Moment}
  {request : Request} {events : List (CacheEvent F)} {token : List Char}

theorem stateAfter_sound (events : List (CacheEvent F)) :
    CacheSound service.isoformat (stateAfter service settings start events) := by
  induction events using List.reverseRecOn with
  | nil => exact fun row hrow => absurd hrow List.not_mem_nil
  | append_singleton events event ih =>
    rw [stateAfter_concat]
    cases event with
    | stored store => exact ih
    | served moment request => exact serve_sound ih moment request

theorem HandedOut.granted (henabled : settings.queryAuthEnabled = true)
    (h : HandedOut service settings start events token) :
    ∃ grant, GrantedIn settings events grant ∧ token = grant.token service.tokens settings := by
  obtain ⟨before, moment, ⟨authorization, endpoint⟩, later, issued, rfl, hbody, rfl⟩ := h
  obtain ⟨hadmin, body, hvalid, rfl, rfl⟩ := serve_token henabled hbody
  exact ⟨⟨body, moment.clock⟩, ⟨hadmin, hvalid, moment, authorization,
    List.mem_append_right _ List.mem_cons_self, rfl⟩,
    issueQueryToken_accessToken service.tokens settings ⟨body, moment.clock⟩⟩

/-- Whatever is answered with data was granted by an administrator: for the scope of the handler,
for the devices and streams that are told of, for the range and the points that are asked for, and
for a time that has not gone by. -/
theorem answered_granted (henabled : settings.queryAuthEnabled = true)
    (hverifies : service.tokens.Verifies)
    (hunforged : Unforged service settings start (events ++ [.served moment request]))
    (hanswered : (serve service settings moment (stateAfter service settings start events)
      request).1.body.tells = true) :
    ∃ grant scope, GrantedIn settings events grant ∧
      request.token service = some (grant.token service.tokens settings) ∧
      moment.tokenClock < grant.issuedAt + 1000000 * grant.expiresIn settings ∧
      request.endpoint.scope = some scope ∧
      (grant.principal settings).hasScope scope.toList = true ∧
      request.endpoint.AdmittedBy (grant.principal settings) service settings ∧
      (serve service settings moment (stateAfter service settings start events)
        request).1.body.Within (grant.principal settings) := by
  obtain ⟨scope, q, hscope, hauth, hadmitted⟩ := serve_authenticated hanswered
  obtain ⟨text, claims, htext, hdecode, hclaims, hhas⟩ := authenticateQuery_ok henabled hauth
  have htoken : request.token service = some (Ingest.strip service.unicode.isSpace text) := by
    rw [Request.token, htext]
    rfl
  obtain ⟨grant, hgranted, hsame⟩ := HandedOut.granted henabled
    (hunforged events moment request [] rfl _ htoken claims hdecode)
  -- the token says what was granted
  have hread : ∀ {claims}, service.tokens.decode (Ingest.strip service.unicode.isSpace text)
      settings.queryJwtSecret settings.queryJwtAudience settings.queryJwtIssuer moment.tokenClock =
        some claims → claims = grant.claims settings := by
    intro claims hdecode
    rw [hsame] at hdecode
    exact (hverifies _ _ _ _ _ _ hdecode).1
  have hprincipal : ∀ scope q, authenticateQuery service.tokens service.unicode settings
      request.authorization scope moment.tokenClock = .ok q → q = grant.principal settings := by
    intro scope q hauth
    obtain ⟨text', claims', htext', hdecode', hclaims', -⟩ := authenticateQuery_ok henabled hauth
    obtain rfl := Option.some.inj (htext.symm.trans htext')
    rw [hread hdecode', principalFromClaims_claims] at hclaims'
    exact (Except.ok.inj hclaims').symm
  obtain rfl := hprincipal scope q hauth
  have hexp : moment.tokenClock < grant.issuedAt + 1000000 * grant.expiresIn settings := by
    rw [hsame] at hdecode
    exact lt_expires_of_exp ((hverifies _ _ _ _ _ _ hdecode).2 _ rfl)
  exact ⟨grant, scope, hgranted, htoken.trans (congrArg some hsame), hexp, hscope, hhas, hadmitted,
    serve_within (stateAfter_sound events) hprincipal⟩

end

def guestGrant : Grant where
  request := ⟨"guest".toList, ["query:read".toList], ["device".toList], [], ["imu".toList], none,
    none, none⟩
  issuedAt := 5000

def adminSettings : Settings := { wholeSettings with queryAdminToken := "admin".toList }

def isGuestClaims : Claims → Bool
  | [(iss, .string issuer), (aud, .string audience), (sub, .string subject),
      (scope, .array [.string granted]), (devices, .array [.string device]), (groups, .array []),
      (streams, .array [.string stream]), (maxRange, .null), (maxPoints, .int points),
      (iat, .int issuedAt), (exp, .int expires)] =>
    [iss, aud, sub, scope, devices, groups, streams, maxRange, maxPoints, iat, exp] =
        (guestGrant.claims adminSettings).map Prod.fst ∧
      [issuer, audience, subject, granted, device, stream] =
        [[], [], "guest".toList, "query:read".toList, "device".toList, "imu".toList] ∧
      [points, issuedAt, expires] = [10000, 0, 900]
  | _ => false

theorem eq_of_isGuestClaims {claims : Claims} (h : isGuestClaims claims = true) :
    claims = guestGrant.claims adminSettings := by
  unfold isGuestClaims at h
  split at h
  · obtain ⟨hkeys, htexts, hnumbers⟩ := of_decide_eq_true h
    simp only [Grant.claims, List.map_cons, List.map_nil, List.cons.injEq, and_true] at hkeys
    simp only [List.cons.injEq, and_true] at htexts hnumbers
    obtain ⟨rfl, rfl, rfl, rfl, rfl, rfl, rfl, rfl, rfl, rfl, rfl⟩ := hkeys
    obtain ⟨rfl, rfl, rfl, rfl, rfl, rfl⟩ := htexts
    obtain ⟨rfl, rfl, rfl⟩ := hnumbers
    rfl
  · cases h

def guestTokens : Tokens where
  encode := fun claims _ => if isGuestClaims claims then "granted".toList else []
  decode := fun token _ _ _ now =>
    if token = "granted".toList ∧ now < 900000000 then some (guestGrant.claims adminSettings)
    else none
  str := fun _ => []
  int := fun _ => none

theorem guestTokens_verifies : guestTokens.Verifies := by
  intro claims secret audience issuer now decoded h
  obtain ⟨⟨htoken, hnow⟩, hdecoded⟩ := Option.ite_none_right_eq_some.mp h
  by_cases hclaims : isGuestClaims claims = true
  · obtain rfl := eq_of_isGuestClaims hclaims
    refine ⟨(Option.some.inj hdecoded).symm, fun exp hexp => ?_⟩
    obtain rfl := Json.int.inj (Option.some.inj hexp)
    exact hnow
  · exact absurd (htoken.symm.trans (if_neg hclaims)) (by decide)

theorem answered_granted_series :
    let service := { datetimeService with tokens := guestTokens }
    let start := oneFrameStore (int16Frame ["a".toList] 0 1 [1, 0])
    let events := [CacheEvent.served wholeMoment ⟨none, .createQueryToken (some guestGrant.request)
      (some "admin".toList)⟩]
    let request := seriesRequest "granted" "device"
    ∃ grant scope, GrantedIn adminSettings events grant ∧
      request.token service = some (grant.token service.tokens adminSettings) ∧
      wholeMoment.tokenClock < grant.issuedAt + 1000000 * grant.expiresIn adminSettings ∧
      request.endpoint.scope = some scope ∧
      (grant.principal adminSettings).hasScope scope.toList = true ∧
      request.endpoint.AdmittedBy (grant.principal adminSettings) service adminSettings ∧
      (serve service adminSettings wholeMoment (stateAfter service adminSettings start events)
        request).1.body.Within (grant.principal adminSettings) := by
  intro service start events request
  have hunforged : Unforged service adminSettings start
      (events ++ [.served wholeMoment request]) := by
    intro before moment request' later heq token htoken claims hdecode
    rcases before with _ | ⟨first, _ | ⟨second, rest⟩⟩
    · -- the administrator has no token yet
      obtain ⟨-, rfl⟩ := CacheEvent.served.inj (List.cons.inj heq).1
      cases htoken
    · obtain ⟨rfl, -⟩ := List.cons.inj heq
      have hsame : token = "granted".toList := (Option.ite_none_right_eq_some.mp hdecode).1.1
      exact ⟨[], wholeMoment, _, [], _, rfl, rfl, hsame.symm⟩
    · simp [events] at heq
  exact answered_granted rfl guestTokens_verifies hunforged (by decide +kernel)

end Aetus.Query
