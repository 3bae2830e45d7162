import Aetus.Query.Noninterference
import Aetus.Query.TimeUtils

/-!
The cache of the query API over a run of requests: a key names one request, so that what is served
from the cache was read for this very request.
-/

set_option autoImplicit false

namespace Aetus.Query
open Aetus.Base Aetus.Postgres

variable {F : Type}

inductive QueryKind where
  | series
  | summary
  deriving DecidableEq

def QueryKind.text : QueryKind → String
  | series => "series"
  | summary => "summary"

/-- What `get_series` and `get_summary` make a cache key of. -/
structure CacheRequest where
  kind : QueryKind
  deviceId : List Char
  key : List Char
  start : DateTime
  stop : DateTime
  maxPoints : Int
  deriving DecidableEq

def CacheRequest.cacheKey (r : CacheRequest) : List Char :=
  Query.cacheKey toIso8601 r.kind.text r.deviceId r.key r.start.time r.stop.time r.maxPoints

theorem text_mem_cacheKinds (kind : QueryKind) : kind.text ∈ cacheKinds := by
  cases kind <;> decide

theorem text_injective : Function.Injective QueryKind.text := by
  intro kind kind' h
  cases kind <;> cases kind' <;> first | rfl | exact absurd h (by decide)

theorem cacheKey_times {kind : String} {deviceId key : List Char} {start stop start' stop' : DateTime}
    {maxPoints : Int}
    (h : cacheKey toIso8601 kind deviceId key start.time stop.time maxPoints =
      cacheKey toIso8601 kind deviceId key start'.time stop'.time maxPoints) :
    start = start' ∧ stop = stop' := by
  unfold cacheKey at h
  replace h := (List.cons.inj (List.append_cancel_left h)).2
  replace h := (List.cons.inj (List.append_cancel_left h)).2
  replace h := (List.cons.inj (List.append_cancel_left h)).2
  replace h := (List.cons.inj (List.append_cancel_left h)).2
  -- each time ends with its Z
  obtain ⟨hstart, hrest⟩ := toIso8601_append_inj h
  obtain ⟨hstop, -⟩ := toIso8601_append_inj (List.cons.inj hrest).2
  exact ⟨hstart, hstop⟩

theorem cacheKey_injective : Function.Injective CacheRequest.cacheKey := by
  rintro ⟨kind, deviceId, key, start, stop, maxPoints⟩ ⟨kind', deviceId', key', start', stop', maxPoints'⟩ h
  obtain ⟨hkind, rfl, rfl, rfl⟩ := cacheKey_inj (text_mem_cacheKinds kind) (text_mem_cacheKinds kind') h
  obtain rfl := text_injective hkind
  obtain ⟨rfl, rfl⟩ := cacheKey_times h
  rfl

/-! Runs -/

/-- The `datetime` of the requests, whose texts are those of the keys. -/
structure Service.UsesDatetime (service : Service F) : Prop where
  isoformat : ∀ t : DateTime, service.isoformat t.time = toIso8601 t.time
  fromisoformat : ∀ text time, service.fromisoformat text = some time →
    datetimeMin ≤ time ∧ time ≤ datetimeMax

theorem Service.UsesDatetime.cacheKey_eq {service : Service F} (h : service.UsesDatetime)
    (r : CacheRequest) :
    Query.cacheKey service.isoformat r.kind.text r.deviceId r.key r.start.time r.stop.time
      r.maxPoints = r.cacheKey := by
  unfold CacheRequest.cacheKey Query.cacheKey
  rw [h.isoformat, h.isoformat]

inductive Asks (service : Service F) (settings : Settings) (moment : Moment) :
    Request → CacheRequest → Prop where
  | series {authorization : Option (List Char)} {deviceId key from_ to_ : List Char} {param : Param}
    {maxPoints : Int} {start stop : DateTime}
    (hparam : param.value settings.maxPointsDefault (1 ≤ ·) = some maxPoints)
    (hrange : seriesRange service settings moment authorization deviceId key from_ to_ maxPoints =
      .ok (start.time, stop.time)) :
    Asks service settings moment
      ⟨authorization, .getSeries deviceId key (some from_) (some to_) param⟩
      ⟨.series, deviceId, key, start, stop, maxPoints⟩
  | summary {authorization : Option (List Char)} {deviceId key from_ to_ : List Char}
    {start stop : DateTime}
    (hrange : summaryRange service settings moment authorization deviceId key from_ to_ =
      .ok (start.time, stop.time)) :
    Asks service settings moment ⟨authorization, .getSummary deviceId key (some from_) (some to_)⟩
      ⟨.summary, deviceId, key, start, stop, 0⟩

def Computes (service : Service F) (settings : Settings) (moment : Moment) (store : Store F)
    (r : CacheRequest) (body : StreamBody F) : Prop :=
  match r.kind with
  | .series => ∃ store', readSeries service store r.deviceId r.key r.start.time r.stop.time
      r.maxPoints = .ok (store', body)
  | .summary => ∃ store', readSummary service settings moment store r.deviceId r.key r.start.time
      r.stop.time = .ok (store', body)

/-- What happens to the state: a change of the database, or a request. -/
inductive CacheEvent (F : Type) where
  | stored (store : Store F)
  | served (moment : Moment) (request : Request)

def happen (service : Service F) (settings : Settings) (state : State F) : CacheEvent F → State F
  | .stored store => { state with store := store }
  | .served moment request => (serve service settings moment state request).2

def stateAfter (service : Service F) (settings : Settings) (start : Store F)
    (events : List (CacheEvent F)) : State F :=
  events.foldl (happen service settings) ⟨start, Keyed.empty _⟩

def ReadFor (service : Service F) (settings : Settings) (start : Store F)
    (events : List (CacheEvent F)) (r : CacheRequest) (body : StreamBody F) : Prop :=
  ∃ before moment request later, events = before ++ .served moment request :: later ∧
    Asks service settings moment request r ∧
    Computes service settings moment (stateAfter service settings start before).store r body

variable {service : Service F} {settings : Settings} {moment : Moment} {state : State F}
  {request : Request} {start : Store F}

/-! What a request puts into the cache -/

theorem setJson_cache {cacheKey : List Char} {body : StreamBody F} {row : CacheRow F}
    (h : row ∈ (state.setJson settings moment cacheKey body).cache.rows) :
    row ∈ state.cache.rows ∨ row.key = cacheKey ∧ row.body = body := by
  unfold State.setJson at h
  split at h
  · rcases mem_upsertBy.mp h with rfl | ⟨hold, -⟩
    · exact .inr ⟨rfl, rfl⟩
    · exact .inl hold
  · exact .inl h

theorem throughCache_cache {cacheKey : List Char}
    {read : Store F → Except Failure (Store F × StreamBody F)} {row : CacheRow F}
    (h : row ∈ (throughCache settings moment state cacheKey read).2.cache.rows) :
    row ∈ state.cache.rows ∨
      row.key = cacheKey ∧ ∃ store', read state.store = .ok (store', row.body) := by
  unfold throughCache at h
  split at h
  · exact .inl h
  · split at h
    · exact .inl h
    · next store' body hread =>
      rcases setJson_cache h with hold | ⟨hkey, hbody⟩
      · exact .inl hold
      · exact .inr ⟨hkey, store', hbody ▸ hread⟩

theorem parseDatetime_bounds (hservice : service.UsesDatetime) {value : List Char}
    {time : Timestamptz} (h : parseDatetime service value = .ok time) :
    datetimeMin ≤ time ∧ time ≤ datetimeMax := by
  unfold parseDatetime at h
  split at h
  · cases h
  · next parsed hparsed =>
    obtain rfl := Except.ok.inj h
    exact hservice.fromisoformat _ _ hparsed

theorem parseRange_datetimes (hservice : service.UsesDatetime) {from_ to_ : List Char}
    {range : Timestamptz × Timestamptz} (h : parseRange service from_ to_ = .ok range) :
    ∃ s t : DateTime, range = (s.time, t.time) := by
  obtain ⟨s, hs, h⟩ := except_bind_eq_ok.mp h
  obtain ⟨t, ht, h⟩ := except_bind_eq_ok.mp h
  obtain ⟨hmin, hmax⟩ := parseDatetime_bounds hservice hs
  obtain ⟨hmin', hmax'⟩ := parseDatetime_bounds hservice ht
  split at h
  · cases h
  · exact ⟨⟨s, hmin, hmax⟩, ⟨t, hmin', hmax'⟩, (Except.ok.inj h).symm⟩

theorem seriesRange_datetimes (hservice : service.UsesDatetime) {authorization : Option (List Char)}
    {deviceId key from_ to_ : List Char} {maxPoints : Int} {range : Timestamptz × Timestamptz}
    (h : seriesRange service settings moment authorization deviceId key from_ to_ maxPoints =
      .ok range) : ∃ s t : DateTime, range = (s.time, t.time) := by
  obtain ⟨_, -, h⟩ := except_bind_eq_ok.mp h
  split at h
  · cases h
  · obtain ⟨range', hparse, h⟩ := except_bind_eq_ok.mp h
    obtain ⟨_, -, h⟩ := except_bind_eq_ok.mp h
    obtain rfl := Except.ok.inj h
    exact parseRange_datetimes hservice hparse

theorem summaryRange_datetimes (hservice : service.UsesDatetime) {authorization : Option (List Char)}
    {deviceId key from_ to_ : List Char} {range : Timestamptz × Timestamptz}
    (h : summaryRange service settings moment authorization deviceId key from_ to_ = .ok range) :
    ∃ s t : DateTime, range = (s.time, t.time) := by
  obtain ⟨_, -, h⟩ := except_bind_eq_ok.mp h
  obtain ⟨range', hparse, h⟩ := except_bind_eq_ok.mp h
  obtain ⟨_, -, h⟩ := except_bind_eq_ok.mp h
  obtain rfl := Except.ok.inj h
  exact parseRange_datetimes hservice hparse

theorem getSeries_cache (hservice : service.UsesDatetime) {authorization : Option (List Char)}
    {deviceId key from_ to_ : List Char} {param : Param} {maxPoints : Int} {row : CacheRow F}
    (hparam : param.value settings.maxPointsDefault (1 ≤ ·) = some maxPoints)
    (h : row ∈ (getSeries service settings moment state authorization deviceId key from_ to_
      maxPoints).2.cache.rows) :
    row ∈ state.cache.rows ∨ ∃ r, Asks service settings moment
        ⟨authorization, .getSeries deviceId key (some from_) (some to_) param⟩ r ∧
      row.key = r.cacheKey ∧ Computes service settings moment state.store r row.body := by
  unfold getSeries at h
  split at h
  · exact .inl h
  · next first last hrange =>
    rcases throughCache_cache h with hold | ⟨hkey, hread⟩
    · exact .inl hold
    · obtain ⟨s, t, heq⟩ := seriesRange_datetimes hservice hrange
      obtain ⟨rfl, rfl⟩ := Prod.mk.inj heq
      have hrequest := hservice.cacheKey_eq ⟨.series, deviceId, key, s, t, maxPoints⟩
      exact .inr ⟨_, .series hparam hrange, hkey.trans hrequest, hread⟩

theorem getSummary_cache (hservice : service.UsesDatetime) {authorization : Option (List Char)}
    {deviceId key from_ to_ : List Char} {row : CacheRow F}
    (h : row ∈ (getSummary service settings moment state authorization deviceId key from_
      to_).2.cache.rows) :
    row ∈ state.cache.rows ∨ ∃ r, Asks service settings moment
        ⟨authorization, .getSummary deviceId key (some from_) (some to_)⟩ r ∧
      row.key = r.cacheKey ∧ Computes service settings moment state.store r row.body := by
  unfold getSummary at h
  split at h
  · exact .inl h
  · next first last hrange =>
    rcases throughCache_cache h with hold | ⟨hkey, hread⟩
    · exact .inl hold
    · obtain ⟨s, t, heq⟩ := summaryRange_datetimes hservice hrange
      obtain ⟨rfl, rfl⟩ := Prod.mk.inj heq
      have hrequest := hservice.cacheKey_eq ⟨.summary, deviceId, key, s, t, 0⟩
      exact .inr ⟨_, .summary hrange, hkey.trans hrequest, hread⟩

/-- A request leaves the rows of the cache, or puts its own response under its own key. -/
theorem serve_cache (hservice : service.UsesDatetime) {row : CacheRow F}
    (h : row ∈ (serve service settings moment state request).2.cache.rows) :
    row ∈ state.cache.rows ∨ ∃ r, Asks service settings moment request r ∧
      row.key = r.cacheKey ∧ Computes service settings moment state.store r row.body := by
  obtain ⟨authorization, endpoint⟩ := request
  unfold serve at h
  cases endpoint with
  | healthz => exact .inl h
  | readyz => exact .inl h
  | createQueryToken body adminToken =>
    dsimp only at h
    split at h <;> exact .inl h
  | searchDevices search limit =>
    dsimp only at h
    split at h <;> exact .inl h
  | listStreams deviceId => exact .inl h
  | getSeries deviceId key from_ to_ param =>
    dsimp only at h
    split at h
    · next hparam => exact getSeries_cache hservice hparam h
    · exact .inl h
  | getSummary deviceId key from_ to_ =>
    dsimp only at h
    split at h
    · exact getSummary_cache hservice h
    · exact .inl h
  | getFrames deviceId key from_ to_ =>
    dsimp only at h
    split at h <;> exact .inl h

/-! Runs of requests -/

theorem ReadFor.append {events : List (CacheEvent F)} {r : CacheRequest} {body : StreamBody F}
    (h : ReadFor service settings start events r body) (event : CacheEvent F) :
    ReadFor service settings start (events ++ [event]) r body := by
  obtain ⟨before, moment, request, later, rfl, hread⟩ := h
  exact ⟨before, moment, request, later ++ [event], by rw [List.append_assoc, List.cons_append], hread⟩

theorem stateAfter_concat (events : List (CacheEvent F)) (event : CacheEvent F) :
    stateAfter service settings start (events ++ [event]) =
      happen service settings (stateAfter service settings start events) event := by
  rw [stateAfter, List.foldl_append]
  rfl

/-- What the cache has was read for the request of its key. -/
theorem stateAfter_cache (hservice : service.UsesDatetime) (events : List (CacheEvent F)) :
    ∀ row ∈ (stateAfter service settings start events).cache.rows,
      ∃ r, row.key = r.cacheKey ∧ ReadFor service settings start events r row.body := by
  induction events using List.reverseRecOn with
  | nil => exact fun _ hrow => absurd hrow List.not_mem_nil
  | append_singleton events event ih =>
    have hold {row : CacheRow F} (hrow : row ∈ (stateAfter service settings start events).cache.rows) :
        ∃ r, row.key = r.cacheKey ∧
          ReadFor service settings start (events ++ [event]) r row.body := by
      obtain ⟨r, hkey, hread⟩ := ih row hrow
      exact ⟨r, hkey, hread.append event⟩
    intro row hrow
    rw [stateAfter_concat] at hrow
    cases event with
    | stored store => exact hold hrow
    | served moment request =>
      rcases serve_cache hservice hrow with hrow | ⟨r, hasks, hkey, hread⟩
      · exact hold hrow
      · exact ⟨r, hkey, events, moment, request, [], rfl, hasks, hread⟩

theorem throughCache_hit {cacheKey : List Char} {cached : StreamBody F}
    {read : Store F → Except Failure (Store F × StreamBody F)}
    (h : state.getJson settings moment cacheKey = some cached) :
    throughCache settings moment state cacheKey read = (⟨200, .stream cached⟩, state) := by
  unfold throughCache
  rw [h]

theorem serve_hit (hservice : service.UsesDatetime) {r : CacheRequest} {cached : StreamBody F}
    (hasks : Asks service settings moment request r)
    (hhit : state.getJson settings moment r.cacheKey = some cached) :
    serve service settings moment state request = (⟨200, .stream cached⟩, state) := by
  cases hasks with
  | series hparam hrange =>
    rw [← hservice.cacheKey_eq] at hhit
    dsimp only [serve]
    rw [hparam]
    dsimp only [getSeries]
    rw [hrange]
    exact throughCache_hit hhit
  | summary hrange =>
    rw [← hservice.cacheKey_eq] at hhit
    dsimp only [serve, getSummary]
    rw [hrange]
    exact throughCache_hit hhit

/-- Requests with one cache key are one and the same, and a cached response was read for the
request that it answers. -/
theorem cached_readFor (service : Service F) (settings : Settings) (start : Store F)
    (hservice : service.UsesDatetime) :
    (∀ r r' : CacheRequest, r.cacheKey = r'.cacheKey → r = r') ∧
      ∀ (events : List (CacheEvent F)) (moment : Moment) (request : Request) (r : CacheRequest)
        (cached : StreamBody F), Asks service settings moment request r →
        (stateAfter service settings start events).getJson settings moment r.cacheKey = some cached →
        serve service settings moment (stateAfter service settings start events) request =
            (⟨200, .stream cached⟩, stateAfter service settings start events) ∧
          ReadFor service settings start events r cached := by
  refine ⟨cacheKey_injective, fun events moment request r cached hasks hhit =>
    ⟨serve_hit hservice hasks hhit, ?_⟩⟩
  obtain ⟨row, hrow, hkey, rfl⟩ := mem_of_getJson hhit
  obtain ⟨r', hkey', hread⟩ := stateAfter_cache hservice events row hrow
  obtain rfl := cacheKey_injective (hkey'.symm.trans hkey)
  exact hread

def datetimeService : Service Int := { wholeService with isoformat := toIso8601 }

theorem datetimeService_usesDatetime : datetimeService.UsesDatetime where
  isoformat := fun _ => rfl
  fromisoformat := fun text time h => by
    dsimp only [datetimeService, wholeService] at h
    split at h
    · obtain rfl := Option.some.inj h
      decide
    · split at h
      · obtain rfl := Option.some.inj h
        decide
      · cases h

def repeatedRequest : CacheRequest :=
  ⟨.series, "device".toList, "imu".toList, ⟨0, by decide, by decide⟩, ⟨1000, by decide, by decide⟩, 1⟩

theorem cached_readFor_repeated :
    let store := oneFrameStore (int16Frame ["a".toList] 0 1 [1, 0])
    let events := [CacheEvent.served wholeMoment (seriesRequest "guest" "device")]
    let state := stateAfter datetimeService wholeSettings store events
    ∃ cached, state.getJson wholeSettings wholeMoment repeatedRequest.cacheKey = some cached ∧
      ReadFor datetimeService wholeSettings store events repeatedRequest cached := by
  intro store events state
  have hhit : (state.getJson wholeSettings wholeMoment repeatedRequest.cacheKey).isSome = true := by
    decide +kernel
  obtain ⟨cached, hcached⟩ := Option.isSome_iff_exists.mp hhit
  have hasks : Asks datetimeService wholeSettings wholeMoment (seriesRequest "guest" "device")
      repeatedRequest := .series rfl rfl
  exact ⟨cached, hcached, ((cached_readFor datetimeService wholeSettings store
    datetimeService_usesDatetime).2 events wholeMoment _ repeatedRequest cached hasks hcached).2⟩

end Aetus.Query
