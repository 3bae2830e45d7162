import Mathlib.Data.List.Dedup
import Mathlib.Data.List.Sort
import Aetus.Base.Json
import Aetus.Ingest.ControlDb
import Aetus.Postgres.Staging

/-!
The query API's auth.py: tokens, and what their claims allow.
-/

set_option autoImplicit false

namespace Aetus.Query
open Aetus.Base Aetus.Postgres

structure Settings where
  redisUrl : Option (List Char)
  cacheTtlSeconds : Int
  featureTtlSeconds : Int
  maxRawDrilldownSeconds : Int
  maxPointsDefault : Int
  maxPointsLimit : Int
  queryAuthEnabled : Bool
  queryJwtSecret : List Char
  queryJwtIssuer : List Char
  queryJwtAudience : List Char
  queryJwtTtlSeconds : Int
  queryJwtMaxTtlSeconds : Int
  queryAdminToken : List Char

abbrev Claims := List (List Char × Json)

/-- PyJWT, and the conversions `str` and `int` of a claim that is neither null, a text nor a
number. The clock is read where a token is decoded. -/
structure Tokens where
  encode : Claims → List Char → List Char
  decode : List Char → List Char → List Char → List Char → Timestamptz → Option Claims
  str : Json → List Char
  int : Json → Option Int

/-- What a handler can end with: an `HTTPException`, or an exception that nobody catches. -/
inductive Failure where
  | http (status : Nat) (detail : String)
  | internal
  deriving DecidableEq

structure QueryPrincipal where
  scopes : List (List Char)
  devices : List (List Char)
  streams : List (List Char)
  maxRangeSeconds : Option Int
  maxPoints : Option Int

namespace QueryPrincipal

def hasScope (principal : QueryPrincipal) (scope : List Char) : Bool :=
  principal.scopes.contains scope || principal.scopes.contains ['*']

def canReadAllDevices (principal : QueryPrincipal) : Bool := principal.devices.contains ['*']

def canReadDevice (principal : QueryPrincipal) (deviceId : List Char) : Bool :=
  principal.canReadAllDevices || principal.devices.contains deviceId

def canReadStream (principal : QueryPrincipal) (streamKey : List Char) : Bool :=
  principal.streams.contains ['*'] || principal.streams.contains streamKey

end QueryPrincipal

/-- The order of Python's texts. -/
def codePointsLe : List Char → List Char → Bool
  | [], _ => true
  | _ :: _, [] => false
  | a :: as, b :: bs => a < b || a = b && codePointsLe as bs

/-- `sorted(set(items))` -/
def sortedSet (items : List (List Char)) : List (List Char) :=
  items.dedup.insertionSort fun a b => codePointsLe a b = true

structure TokenRequest where
  subject : List Char
  scopes : List (List Char)
  devices : List (List Char)
  deviceGroups : List (List Char)
  streams : List (List Char)
  expiresInSeconds : Option Int
  maxRangeSeconds : Option Int
  maxPoints : Option Int

structure IssuedToken where
  accessToken : List Char
  expiresIn : Int
  expiresAt : Timestamptz
  scope : List (List Char)

def texts (items : List (List Char)) : Json := .array (items.map .string)

def optionalNumber : Option Int → Json
  | some n => .int n
  | none => .null

def issueQueryToken (tokens : Tokens) (settings : Settings) (request : TokenRequest)
    (now : Timestamptz) : IssuedToken :=
  let expiresIn := min (request.expiresInSeconds.getD settings.queryJwtTtlSeconds)
    settings.queryJwtMaxTtlSeconds
  let expiresAt := now + 1000000 * expiresIn
  let maxPoints := request.maxPoints.getD settings.maxPointsLimit
  let payload : Claims := [
    ("iss".toList, .string settings.queryJwtIssuer),
    ("aud".toList, .string settings.queryJwtAudience),
    ("sub".toList, .string request.subject),
    ("scope".toList, texts (sortedSet request.scopes)),
    ("devices".toList, texts (sortedSet request.devices)),
    ("device_groups".toList, texts (sortedSet request.deviceGroups)),
    ("streams".toList, texts (sortedSet request.streams)),
    ("max_range_seconds".toList, optionalNumber request.maxRangeSeconds),
    ("max_points".toList, .int (min maxPoints settings.maxPointsLimit)),
    ("iat".toList, .int (now / 1000000)),
    ("exp".toList, .int (expiresAt / 1000000))]
  ⟨tokens.encode payload settings.queryJwtSecret, expiresIn, expiresAt, sortedSet request.scopes⟩

def verifyAdminToken (settings : Settings) (adminToken : Option (List Char)) :
    Except Failure Unit :=
  if !settings.queryAuthEnabled then .ok ()
  else
    match adminToken with
    | none | some [] => .error (.http 401 "invalid admin token")
    | some token =>
      if token ≠ settings.queryAdminToken then .error (.http 401 "invalid admin token") else .ok ()

def claimList (tokens : Tokens) (claims : Claims) (key : List Char) : List (List Char) :=
  match claims.lookup key with
  | some (.string text) => [text]
  | some (.array items) => items.map fun
    | .string text => text
    | item => tokens.str item
  | _ => []

def optionalInt (tokens : Tokens) : Option Json → Except Failure (Option Int)
  | none | some .null => .ok none
  | some (.int n) => .ok (some n)
  | some value =>
    match tokens.int value with
    | none => .error .internal
    | some n => .ok (some n)

def principalFromClaims (tokens : Tokens) (claims : Claims) : Except Failure QueryPrincipal :=
  match optionalInt tokens (claims.lookup "max_range_seconds".toList),
      optionalInt tokens (claims.lookup "max_points".toList) with
  | .error e, _ => .error e
  | _, .error e => .error e
  | .ok maxRangeSeconds, .ok maxPoints => .ok {
      scopes := claimList tokens claims "scope".toList
      devices := claimList tokens claims "devices".toList
      streams := claimList tokens claims "streams".toList
      maxRangeSeconds := maxRangeSeconds
      maxPoints := maxPoints }

def authDisabled (settings : Settings) : QueryPrincipal :=
  ⟨[['*']], [['*']], [['*']], none, some settings.maxPointsLimit⟩

/-- `authorization.removeprefix("Bearer ")`, where there is one. -/
def bearerToken (authorization : Option (List Char)) : Option (List Char) :=
  match authorization with
  | none => none
  | some text => if "Bearer ".toList <+: text then some (text.drop 7) else none

def authenticateQuery (tokens : Tokens) (unicode : Ingest.Unicode) (settings : Settings)
    (authorization : Option (List Char)) (requiredScope : String) (now : Timestamptz) :
    Except Failure QueryPrincipal :=
  if !settings.queryAuthEnabled then .ok (authDisabled settings)
  else
    match bearerToken authorization with
    | none => .error (.http 401 "missing bearer token")
    | some text =>
      match tokens.decode (Ingest.strip unicode.isSpace text) settings.queryJwtSecret
          settings.queryJwtAudience settings.queryJwtIssuer now with
      | none => .error (.http 401 "invalid bearer token")
      | some claims =>
        match principalFromClaims tokens claims with
        | .error e => .error e
        | .ok principal =>
          if !principal.hasScope requiredScope.toList then .error (.http 403 "insufficient scope")
          else .ok principal

def enforceDeviceAccess (principal : QueryPrincipal) (deviceId : List Char) : Except Failure Unit :=
  if !principal.canReadDevice deviceId then .error (.http 403 "device not allowed") else .ok ()

def enforceStreamAccess (principal : QueryPrincipal) (streamKey : List Char) : Except Failure Unit :=
  if !principal.canReadStream streamKey then .error (.http 403 "stream not allowed") else .ok ()

/-- The range is in microseconds. -/
def enforceQueryLimits (principal : QueryPrincipal) (range : Int) (maxPoints : Option Int) :
    Except Failure Unit :=
  if principal.maxRangeSeconds.any (1000000 * · < range) then
    .error (.http 403 "time range exceeds token limit")
  else if maxPoints.any fun maxPoints => principal.maxPoints.any (· < maxPoints) then
    .error (.http 403 "max_points exceeds token limit")
  else .ok ()

end Aetus.Query
