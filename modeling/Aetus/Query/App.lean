import Aetus.Base.Quote
import Aetus.Query.Auth
import Aetus.Query.Features

/-!
The query API's app.py, with the cache that all principals share.
-/

set_option autoImplicit false

namespace Aetus.Query
open Aetus.Base Aetus.Postgres

variable {F : Type}

/-- What the service calls besides: tokens, `datetime.fromisoformat` of a text (a time without a
zone is in UTC), and `isoformat` of a time in UTC with a Z. -/
structure Service (F : Type) extends Platform F where
  tokens : Tokens
  fromisoformat : List Char → Option Timestamptz
  isoformat : Timestamptz → List Char

inductive StreamContent (F : Type) where
  | scalar (series : ScalarSeries) (range : Option (Timestamptz × Timestamptz))
  | sampled (response : SampledResponse F)
  | summary (response : FeatureSummary F)
  | frames (frames : List (FrameResponse F))

structure StreamBody (F : Type) where
  deviceId : List Char
  key : List Char
  content : StreamContent F

inductive Body (F : Type) where
  | status (text : String)
  | detail (text : String)
  | validationError
  | internalServerError
  | token (issued : IssuedToken)
  | devices (deviceIds : List (List Char))
  | streams (deviceId : List Char) (streams : List (StreamRef F))
  | stream (body : StreamBody F)

structure Response (F : Type) where
  status : Nat
  body : Body F

/-! The cache -/

structure CacheRow (F : Type) where
  key : List Char
  body : StreamBody F
  expiresAt : Int

structure State (F : Type) where
  store : Store F
  cache : Keyed (CacheRow.key (F := F))

/-- The clocks that a request reads, and whether Redis answers. -/
structure Moment where
  tokenClock : Timestamptz
  clock : Timestamptz
  dbClock : Timestamptz
  cacheClock : Int
  cacheReads : Bool
  cacheWrites : Bool

/-- The null cache, where there is no `redis_url`, has nothing. -/
def State.getJson (state : State F) (settings : Settings) (moment : Moment) (cacheKey : List Char) :
    Option (StreamBody F) :=
  if settings.redisUrl.isSome ∧ moment.cacheReads = true then
    (findBy CacheRow.key cacheKey state.cache.rows).bind fun row =>
      if moment.cacheClock < row.expiresAt then some row.body else none
  else none

/-- `setex` refuses a time that is not positive. -/
def State.setJson (state : State F) (settings : Settings) (moment : Moment) (cacheKey : List Char)
    (body : StreamBody F) : State F :=
  if settings.redisUrl.isSome ∧ moment.cacheWrites = true ∧ 0 < settings.cacheTtlSeconds then
    let row := ⟨cacheKey, body, moment.cacheClock + settings.cacheTtlSeconds⟩
    { state with cache := state.cache.upsert row }
  else state

def cacheKey (isoformat : Timestamptz → List Char) (kind : String) (deviceId key : List Char)
    (start stop : Timestamptz) (maxPoints : Int) : List Char :=
  "aetus-query".toList ++ ':' :: (kind.toList ++ ':' :: (quote deviceId ++ ':' :: (quote key ++ ':' ::
    (isoformat start ++ ':' :: (isoformat stop ++ ':' :: Json.dumpsInt maxPoints)))))

/-! Requests -/

inductive Param where
  | missing
  | invalid
  | given (n : Int)

inductive Endpoint where
  | healthz
  | readyz
  | createQueryToken (request : Option TokenRequest) (adminToken : Option (List Char))
  | searchDevices (search : Option (List Char)) (limit : Param)
  | listStreams (deviceId : List Char)
  | getSeries (deviceId key : List Char) (from_ to_ : Option (List Char)) (maxPoints : Param)
  | getSummary (deviceId key : List Char) (from_ to_ : Option (List Char))
  | getFrames (deviceId key : List Char) (from_ to_ : Option (List Char))

structure Request where
  authorization : Option (List Char)
  endpoint : Endpoint

def Param.value (param : Param) (default : Int) (isValid : Int → Bool) : Option Int :=
  match param with
  | .missing => some default
  | .invalid => none
  | .given n => if isValid n then some n else none

def TokenRequest.isValid (request : TokenRequest) : Bool :=
  1 ≤ request.subject.length ∧ request.subject.length ≤ 128 ∧
    request.expiresInSeconds.all (60 ≤ ·) ∧ request.maxRangeSeconds.all (1 ≤ ·) ∧
    request.maxPoints.all (1 ≤ ·)

def failed : Failure → Response F
  | .http status detail => ⟨status, .detail detail⟩
  | .internal => ⟨500, .internalServerError⟩

def respond : Except Failure (Body F) → Response F
  | .error e => failed e
  | .ok body => ⟨200, body⟩

def unprocessable : Response F := ⟨422, .validationError⟩

section handlers
variable (service : Service F) (settings : Settings) (moment : Moment)

/-- `value.replace("Z", "+00:00")` -/
def replaceZ (value : List Char) : List Char :=
  value.flatMap fun c => if c = 'Z' then "+00:00".toList else [c]

def parseDatetime (value : List Char) : Except Failure Timestamptz :=
  match service.fromisoformat (replaceZ value) with
  | none => .error .internal
  | some time => .ok time

def parseRange (from_ to_ : List Char) : Except Failure (Timestamptz × Timestamptz) := do
  let start ← parseDatetime service from_
  let stop ← parseDatetime service to_
  if stop ≤ start then .error (.http 400 "to must be after from")
  else .ok (start, stop)

def authorize (authorization : Option (List Char)) (scope : String) (deviceId key : List Char) :
    Except Failure QueryPrincipal := do
  let principal ← authenticateQuery service.tokens service.unicode settings authorization scope
    moment.tokenClock
  enforceDeviceAccess principal deviceId
  enforceStreamAccess principal key
  .ok principal

def seriesRange (authorization : Option (List Char)) (deviceId key from_ to_ : List Char)
    (maxPoints : Int) : Except Failure (Timestamptz × Timestamptz) := do
  let principal ← authorize service settings moment authorization "query:read" deviceId key
  if settings.maxPointsLimit < maxPoints then .error (.http 400 "max_points exceeds server limit")
  else
    let range ← parseRange service from_ to_
    enforceQueryLimits principal (range.2 - range.1) (some maxPoints)
    .ok range

def summaryRange (authorization : Option (List Char)) (deviceId key from_ to_ : List Char) :
    Except Failure (Timestamptz × Timestamptz) := do
  let principal ← authorize service settings moment authorization "query:read" deviceId key
  let range ← parseRange service from_ to_
  enforceQueryLimits principal (range.2 - range.1) none
  .ok range

def framesRange (authorization : Option (List Char)) (deviceId key from_ to_ : List Char) :
    Except Failure (Timestamptz × Timestamptz) := do
  let principal ← authorize service settings moment authorization "frames:read" deviceId key
  let range ← parseRange service from_ to_
  enforceQueryLimits principal (range.2 - range.1) none
  if 1000000 * settings.maxRawDrilldownSeconds < range.2 - range.1 then
    .error (.http 400 "raw drill-down window too large")
  else .ok range

def findStream (store : Store F) (deviceId key : List Char) : Option (StreamRef F) :=
  (listStreams service.toPlatform store deviceId).find? fun stream => stream.key = key

def readSeries (store : Store F) (deviceId key : List Char) (start stop : Timestamptz)
    (maxPoints : Int) : Except Failure (Store F × StreamBody F) :=
  match findStream service store deviceId key with
  | none => .error (.http 404 "stream not found")
  | some stream =>
    match stream.kind with
    | .scalar =>
      .ok (store, ⟨deviceId, key, .scalar (scalarSeries store deviceId key start stop maxPoints) none⟩)
    | .sampled =>
      match sampledSeries service.reader store deviceId key start stop maxPoints with
      | .error _ => .error .internal
      | .ok response => .ok (store, ⟨deviceId, key, .sampled response⟩)

def readSummary (store : Store F) (deviceId key : List Char) (start stop : Timestamptz) :
    Except Failure (Store F × StreamBody F) :=
  match findStream service store deviceId key with
  | none => .error (.http 404 "stream not found")
  | some stream =>
    match stream.kind with
    | .scalar =>
      .ok (store, ⟨deviceId, key, .scalar (scalarSeries store deviceId key start stop
        settings.maxPointsDefault) (some (start, stop))⟩)
    | .sampled =>
      match summary service.toPlatform store deviceId key start stop settings.featureTtlSeconds
          moment.clock moment.dbClock with
      | .error _ => .error .internal
      | .ok (store, response) => .ok (store, ⟨deviceId, key, .summary response⟩)

def readFrames (store : Store F) (deviceId key : List Char) (start stop : Timestamptz) :
    Except Failure (StreamBody F) :=
  match findStream service store deviceId key with
  | none => .error (.http 404 "stream not found")
  | some stream =>
    match stream.kind with
    | .scalar => .error (.http 404 "raw frames are only available for sampled streams")
    | .sampled =>
      match frames service.reader store deviceId key start stop with
      | .error _ => .error .internal
      | .ok response => .ok ⟨deviceId, key, .frames response⟩

/-- What `get_series` and `get_summary` do after their checks. -/
def throughCache (state : State F) (cacheKey : List Char)
    (read : Store F → Except Failure (Store F × StreamBody F)) : Response F × State F :=
  match state.getJson settings moment cacheKey with
  | some cached => (⟨200, .stream cached⟩, state)
  | none =>
    match read state.store with
    | .error e => (failed e, state)
    | .ok (store, response) => (⟨200, .stream response⟩,
        State.setJson { state with store := store } settings moment cacheKey response)

def getSeries (state : State F) (authorization : Option (List Char))
    (deviceId key from_ to_ : List Char) (maxPoints : Int) : Response F × State F :=
  match seriesRange service settings moment authorization deviceId key from_ to_ maxPoints with
  | .error e => (failed e, state)
  | .ok (start, stop) => throughCache settings moment state
      (cacheKey service.isoformat "series" deviceId key start stop maxPoints)
      fun store => readSeries service store deviceId key start stop maxPoints

def getSummary (state : State F) (authorization : Option (List Char))
    (deviceId key from_ to_ : List Char) : Response F × State F :=
  match summaryRange service settings moment authorization deviceId key from_ to_ with
  | .error e => (failed e, state)
  | .ok (start, stop) => throughCache settings moment state
      (cacheKey service.isoformat "summary" deviceId key start stop 0)
      fun store => readSummary service settings moment store deviceId key start stop

def getFrames (store : Store F) (authorization : Option (List Char))
    (deviceId key from_ to_ : List Char) : Except Failure (Body F) := do
  let range ← framesRange service settings moment authorization deviceId key from_ to_
  let body ← readFrames service store deviceId key range.1 range.2
  .ok (.stream body)

def getStreams (store : Store F) (authorization : Option (List Char)) (deviceId : List Char) :
    Except Failure (Body F) := do
  let principal ← authenticateQuery service.tokens service.unicode settings authorization
    "streams:list" moment.tokenClock
  enforceDeviceAccess principal deviceId
  .ok (.streams deviceId ((listStreams service.toPlatform store deviceId).filter
    fun stream => principal.canReadStream stream.key))

/-- The device ids of the principal itself, unless it may read all devices. -/
def readDevices (platform : Platform F) (store : Store F) (principal : QueryPrincipal)
    (search : List Char) (limit : Int) : Except Failure (List (List Char)) :=
  let query := Ingest.strip platform.unicode.isSpace search
  if principal.canReadAllDevices then
    match searchDevices platform store query limit with
    | none => .error .internal
    | some devices => .ok devices
  else
    let needle := platform.unicode.lower query
    .ok (((sortedSet principal.devices).filter fun deviceId =>
      needle = [] ∨ needle <:+: platform.unicode.lower deviceId).take limit.toNat)

def getDevices (store : Store F) (authorization : Option (List Char)) (search : List Char)
    (limit : Int) : Except Failure (Body F) := do
  let principal ← authenticateQuery service.tokens service.unicode settings authorization
    "streams:list" moment.tokenClock
  let devices ← readDevices service.toPlatform store principal search limit
  .ok (.devices devices)

def createQueryToken (request : TokenRequest) (adminToken : Option (List Char)) :
    Except Failure (Body F) := do
  verifyAdminToken settings adminToken
  .ok (.token (issueQueryToken service.tokens settings request moment.clock))

/-- FastAPI checks the parameters before the handler runs. -/
def serve (state : State F) (request : Request) : Response F × State F :=
  match request.endpoint with
  | .healthz => (⟨200, .status "ok"⟩, state)
  | .readyz => (⟨200, .status "ready"⟩, state)
  | .createQueryToken body adminToken =>
    match body.filter (·.isValid) with
    | none => (unprocessable, state)
    | some body => (respond (createQueryToken service settings moment body adminToken), state)
  | .searchDevices search limit =>
    match decide ((search.getD []).length ≤ 128), limit.value 20 (fun n => 1 ≤ n ∧ n ≤ 100) with
    | true, some limit => (respond (getDevices service settings moment state.store
        request.authorization (search.getD []) limit), state)
    | _, _ => (unprocessable, state)
  | .listStreams deviceId =>
    (respond (getStreams service settings moment state.store request.authorization deviceId), state)
  | .getSeries deviceId key from_ to_ maxPoints =>
    match from_, to_, maxPoints.value settings.maxPointsDefault (1 ≤ ·) with
    | some from_, some to_, some maxPoints =>
      getSeries service settings moment state request.authorization deviceId key from_ to_ maxPoints
    | _, _, _ => (unprocessable, state)
  | .getSummary deviceId key from_ to_ =>
    match from_, to_ with
    | some from_, some to_ =>
      getSummary service settings moment state request.authorization deviceId key from_ to_
    | _, _ => (unprocessable, state)
  | .getFrames deviceId key from_ to_ =>
    match from_, to_ with
    | some from_, some to_ => (respond (getFrames service settings moment state.store
        request.authorization deviceId key from_ to_), state)
    | _, _ => (unprocessable, state)

end handlers

def serveAll (service : Service F) (settings : Settings) (state : State F) :
    List (Moment × Request) → List (Response F)
  | [] => []
  | (moment, request) :: requests =>
    let (response, next) := serve service settings moment state request
    response :: serveAll service settings next requests

end Aetus.Query
