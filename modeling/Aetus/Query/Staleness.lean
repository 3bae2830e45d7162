import Aetus.Base.Expiring
import Aetus.Query.CacheRequests
import Aetus.Query.Limits

/-!
How old an answer of the query API can be. A response may come from the shared cache, and the rows
of a summary from signal_frame_features; both were made from the database as it was at an earlier
request for the same, less than the time to live ago.
-/

set_option autoImplicit false

namespace Aetus.Query
open Aetus.Base Aetus.Postgres

variable {F : Type}

/-! The feature rows of a window -/

structure Window where
  deviceId : List Char
  key : List Char
  start : Timestamptz
  stop : Timestamptz
  deriving DecidableEq

def FeatureRow.window (row : FeatureRow F) : Window :=
  ⟨row.device, row.signal.streamKey, row.windowStart, row.windowEnd⟩

def featureLifetimes : Lifetimes (FeatureRow F) Window := ⟨FeatureRow.window, FeatureRow.expiresAt⟩

def madeRows (reader : Reader F) (frames : List StoredFrame) (start stop expiresAt : Timestamptz) :
    Except SeriesError (List (FeatureRow F)) :=
  match frames.foldlM (mergeFrame reader) ⟨[], [], none⟩ with
  | .error e => .error e
  | .ok merged =>
    match merged.owner with
    | none => .ok []
    | some (device, signal) =>
      match computeChannelStats reader.floats merged.mergedValues
          (merged.channelsByKey.map Prod.snd) with
      | .error e => .error e
      | .ok stats =>
        if stats.all fun row => reader.storesChannel row.key row.unit then
          .ok (stats.map (featureRow device signal start stop expiresAt))
        else .error .dataError

def Window.madeRows (w : Window) (reader : Reader F) (telemetry : Telemetry)
    (expiresAt : Timestamptz) : Except SeriesError (List (FeatureRow F)) :=
  Query.madeRows reader (readSignalFrames reader telemetry w.deviceId w.key w.start w.stop) w.start
    w.stop expiresAt

def FeatureRow.entry (row : FeatureRow F) : List Char × Feature F := (row.channelKey, featureOf row)

section
variable {reader : Reader F} {platform : Platform F} {store store' : Store F} {w : Window}
  {telemetry : Telemetry} {frames : List StoredFrame} {features : FeatureTable F}
  {deviceId key : List Char} {start stop expiresAt dbNow now : Timestamptz} {row : FeatureRow F}
  {rows : List (FeatureRow F)} {merged : Merged F}

theorem isRead_iff : row.isRead deviceId key start stop dbNow = true ↔
    row.window = ⟨deviceId, key, start, stop⟩ ∧ dbNow < row.expiresAt := by
  rw [FeatureRow.isRead, decide_eq_true_iff, FeatureRow.window, Window.mk.injEq]
  tauto

theorem window_of_key {row row' : FeatureRow F} (h : row.key = row'.key) :
    row.window = row'.window := by
  simp only [FeatureRow.key, Prod.mk.injEq] at h
  obtain ⟨hdevice, hsignal, hstart, hstop, -⟩ := h
  rw [FeatureRow.window, FeatureRow.window, hdevice, hsignal, hstart, hstop]

theorem materializeFeatureRows_eq :
    materializeFeatureRows reader features start stop frames expiresAt =
      (madeRows reader frames start stop expiresAt).map (·.foldl Keyed.upsert features) := by
  unfold materializeFeatureRows madeRows
  cases frames.foldlM (mergeFrame reader) ⟨[], [], none⟩ with
  | error e => rfl
  | ok merged =>
    dsimp only
    cases merged.owner with
    | none => rfl
    | some owner =>
      dsimp only
      cases computeChannelStats reader.floats merged.mergedValues
        (merged.channelsByKey.map Prod.snd) with
      | error e => rfl
      | ok stats =>
        dsimp only
        split <;> rfl

/-- A channel is merged under one key, and the rows are of the device and the stream of a frame. -/
structure MergedOf (frames : List StoredFrame) (merged : Merged F) : Prop where
  nodup : (merged.mergedValues.map Prod.fst).Nodup
  owned : ∀ owner ∈ merged.owner, ∃ frame ∈ frames, owner = (frame.device, frame.signal)

theorem mergedOf_foldlM (h : frames.foldlM (mergeFrame reader) ⟨[], [], none⟩ = .ok merged) :
    MergedOf frames merged := by
  have hstart : MergedOf [] (⟨[], [], none⟩ : Merged F) :=
    ⟨List.nodup_nil, fun owner howner => absurd howner (Option.not_mem_none owner)⟩
  rw [← List.nil_append frames]
  refine foldlM_prefix (I := MergedOf) (fun before frame s t hs hframe => ?_) hstart h
  unfold mergeFrame at hframe
  split at hframe
  · cases hframe
  · obtain rfl := Except.ok.inj hframe
    refine ⟨OrderedDict.nodup_foldl_alter hs.nodup, fun owner howner => ?_⟩
    obtain rfl := Option.some.inj howner
    exact ⟨frame, List.mem_append_right _ (List.mem_singleton_self _), rfl⟩

theorem appendStats_keys {floats : Floats F} {channelByKey : OrderedDict (List Char) (Channel F)}
    {stats stats' : List (ChannelStats F)} {item : List Char × List F}
    (h : appendStats floats channelByKey stats item = .ok stats') :
    (stats'.map (·.key)).Sublist (stats.map (·.key) ++ [item.1]) := by
  obtain ⟨channelKey, values⟩ := item
  cases values with
  | nil =>
    obtain rfl := Except.ok.inj h
    exact List.sublist_append_left _ _
  | cons first rest =>
    dsimp only [appendStats] at h
    split at h
    · cases h
    · split at h
      · cases h
      · obtain rfl := Except.ok.inj h
        rw [List.map_append]
        exact List.Sublist.refl _

theorem computeChannelStats_nodup {floats : Floats F} {items : OrderedDict (List Char) (List F)}
    {channels : List (Channel F)} {stats : List (ChannelStats F)}
    (hitems : (items.map Prod.fst).Nodup)
    (h : computeChannelStats floats items channels = .ok stats) : (stats.map (·.key)).Nodup := by
  let Kept (before : List (List Char × List F)) (stats : List (ChannelStats F)) : Prop :=
    (stats.map (·.key)).Sublist (before.map Prod.fst)
  have hsub : Kept ([] ++ items) stats := by
    have hstart : Kept [] [] := List.Sublist.refl _
    refine foldlM_prefix (I := Kept) (fun before item s t hs hitem => ?_) hstart h
    show (t.map (·.key)).Sublist ((before ++ [item]).map Prod.fst)
    rw [List.map_append]
    exact (appendStats_keys hitem).trans (hs.append (List.Sublist.refl _))
  exact hitems.sublist hsub

/-- What is made for a window: rows of it under keys of their own, which expire together. -/
theorem madeRows_spec
    (hframes : ∀ frame ∈ frames, frame.device = w.deviceId ∧ frame.signal.streamKey = w.key)
    (h : madeRows reader frames w.start w.stop expiresAt = .ok rows) :
    (rows.map (·.channelKey)).Nodup ∧ featureLifetimes.Together w expiresAt rows := by
  unfold madeRows at h
  split at h
  · cases h
  · next merged hmerge =>
    have hof := mergedOf_foldlM hmerge
    split at h
    · obtain rfl := Except.ok.inj h
      exact ⟨List.nodup_nil, fun row hrow => absurd hrow List.not_mem_nil⟩
    · next device signal howner =>
      split at h
      · cases h
      · next stats hstats =>
        split at h
        · obtain rfl := Except.ok.inj h
          obtain ⟨frame, hframe, hsame⟩ := hof.owned _ howner
          obtain ⟨rfl, rfl⟩ := Prod.mk.inj hsame
          obtain ⟨hdevice, hkey⟩ := hframes frame hframe
          refine ⟨?_, fun row hrow => ?_⟩
          · rw [List.map_map]
            exact computeChannelStats_nodup hof.nodup hstats
          · obtain ⟨stat, -, rfl⟩ := List.mem_map.mp hrow
            refine ⟨?_, rfl⟩
            show Window.mk frame.device frame.signal.streamKey w.start w.stop = w
            rw [hdevice, hkey]
        · cases h

theorem Window.madeRows_spec (h : w.madeRows reader telemetry expiresAt = .ok rows) :
    (rows.map (·.channelKey)).Nodup ∧ featureLifetimes.Together w expiresAt rows :=
  Query.madeRows_spec (fun _ hframe => of_decide_eq_true (List.mem_filter.mp
    (mem_framesOf_of_mem_framesBetween hframe)).2) h

theorem unique_of_channelKeys (h : (rows.map (·.channelKey)).Nodup) :
    UniqueBy FeatureRow.key rows := by
  refine List.Nodup.of_map (fun key : List Char × StreamDefinition × Timestamptz × Timestamptz ×
    List Char => key.2.2.2.2) ?_
  rw [List.map_map]
  exact h

theorem mem_readFeatureRows_iff (collation : Collation) :
    row ∈ readFeatureRows collation features w.deviceId w.key w.start w.stop dbNow ↔
      featureLifetimes.Live w dbNow features.rows row := by
  rw [mem_readFeatureRows, isRead_iff]
  rfl

theorem summary_cases {featureTtlSeconds : Int} {response : FeatureSummary F}
    (h : summary platform store w.deviceId w.key w.start w.stop featureTtlSeconds now dbNow =
      .ok (store', response)) :
    response = featureSummaryResponse w.start w.stop (readFeatureRows platform.collation
        store'.features w.deviceId w.key w.start w.stop dbNow) ∧
      ((store' = { store with features := deleteExpiredFeatures store.features now } ∧
          ∃ row, featureLifetimes.Live w dbNow store'.features.rows row) ∨
        (∀ row,
          ¬featureLifetimes.Live w dbNow (deleteExpiredFeatures store.features now).rows row) ∧
          ∃ rows, w.madeRows platform.reader store.telemetry (now + 1000000 * featureTtlSeconds) =
              .ok rows ∧
            store' = { store with
              features :=
                rows.foldl Keyed.upsert (deleteExpiredFeatures store.features now) }) := by
  unfold summary at h
  dsimp only at h
  cases hread : readFeatureRows platform.collation (deleteExpiredFeatures store.features now)
      w.deviceId w.key w.start w.stop dbNow with
  | cons first rows =>
    rw [hread] at h
    obtain ⟨rfl, rfl⟩ := Prod.mk.inj (Except.ok.inj h)
    have hfirst : first ∈ readFeatureRows platform.collation
        (deleteExpiredFeatures store.features now) w.deviceId w.key w.start w.stop dbNow := by
      rw [hread]
      exact List.mem_cons_self
    exact ⟨by rw [hread], .inl ⟨rfl, first, (mem_readFeatureRows_iff platform.collation).mp hfirst⟩⟩
  | nil =>
    have hnone : ∀ row, ¬featureLifetimes.Live w dbNow
        (deleteExpiredFeatures store.features now).rows row := by
      intro row hrow
      have hmem := (mem_readFeatureRows_iff platform.collation).mpr hrow
      rw [hread] at hmem
      cases hmem
    simp only [hread, materializeFeatureRows_eq] at h
    cases hmade : Query.madeRows platform.reader
        (readSignalFrames platform.reader store.telemetry w.deviceId w.key w.start w.stop) w.start w.stop
        (now + 1000000 * featureTtlSeconds) with
    | error e =>
      rw [hmade] at h
      cases h
    | ok rows =>
      rw [hmade] at h
      obtain ⟨rfl, rfl⟩ := Prod.mk.inj (Except.ok.inj h)
      exact ⟨rfl, .inr ⟨hnone, rows, hmade, rfl⟩⟩

/-- The features of a summary are those of a batch that is just what is alive of the window. -/
theorem featureSummaryResponse_perm (start stop : Timestamptz) {collation : Collation}
    (hnodup : (rows.map (·.channelKey)).Nodup)
    (hlive : ∀ row, featureLifetimes.Live w dbNow features.rows row ↔ row ∈ rows) :
    (featureSummaryResponse start stop (readFeatureRows collation features w.deviceId w.key w.start
      w.stop dbNow)).features.Perm (rows.map FeatureRow.entry) := by
  let read := readFeatureRows collation features w.deviceId w.key w.start w.stop dbNow
  have hread : read.Nodup := by
    refine (List.perm_insertionSort _ _).nodup_iff.mpr ?_
    exact features.unique.of_map.filter _
  have hperm : read.Perm rows := (List.perm_ext_iff_of_nodup hread hnodup.of_map).mpr fun row =>
    (mem_readFeatureRows_iff collation).trans (hlive row)
  have hkeys : (([] ++ read.map FeatureRow.entry).map Prod.fst).Nodup := by
    rw [List.nil_append, List.map_map]
    exact (hperm.map _).nodup_iff.mpr hnodup
  have hall : (featureSummaryResponse start stop read).features = read.map FeatureRow.entry := by
    have happend := OrderedDict.foldl_assign_append hkeys
    rw [List.foldl_map, List.nil_append] at happend
    exact happend
  rw [hall]
  exact hperm.map _

end

/-! What a request changes -/

def CacheRequest.window (r : CacheRequest) : Window :=
  ⟨r.deviceId, r.key, r.start.time, r.stop.time⟩

def CacheRequest.read (r : CacheRequest) (service : Service F) (settings : Settings)
    (moment : Moment) (store : Store F) : Except Failure (Store F × StreamBody F) :=
  match r.kind with
  | .series => readSeries service store r.deviceId r.key r.start.time r.stop.time r.maxPoints
  | .summary => readSummary service settings moment store r.deviceId r.key r.start.time r.stop.time

inductive Tells (service : Service F) (settings : Settings) (store : Store F) (r : CacheRequest) :
    StreamBody F → Prop where
  | series {body : StreamBody F} (hkind : r.kind = .series)
      (h : readSeries service store r.deviceId r.key r.start.time r.stop.time r.maxPoints =
        .ok (store, body)) : Tells service settings store r body
  | scalar {stream : StreamRef F} (hkind : r.kind = .summary)
      (hstream : findStream service store r.deviceId r.key = some stream)
      (hscalar : stream.kind = .scalar) :
    Tells service settings store r ⟨r.deviceId, r.key, .scalar (scalarSeries store r.deviceId r.key
      r.start.time r.stop.time settings.maxPointsDefault) (some (r.start.time, r.stop.time))⟩

section
variable {service : Service F} {settings : Settings} {moment : Moment} {state : State F}
  {request : Request} {store store' : Store F} {r : CacheRequest} {body : StreamBody F}
  {cacheKey : List Char} {read : Store F → Except Failure (Store F × StreamBody F)}

theorem readSeries_store {deviceId key : List Char} {start stop : Timestamptz} {maxPoints : Int}
    (h : readSeries service store deviceId key start stop maxPoints = .ok (store', body)) :
    store' = store := by
  unfold readSeries at h
  split at h
  · cases h
  · split at h
    · exact (Prod.mk.inj (Except.ok.inj h)).1.symm
    · split at h
      · cases h
      · exact (Prod.mk.inj (Except.ok.inj h)).1.symm

theorem read_cases (h : r.read service settings moment store = .ok (store', body)) :
    store' = store ∧ Tells service settings store r body ∨
      r.kind = .summary ∧ ∃ stream response,
        findStream service store r.deviceId r.key = some stream ∧ stream.kind = .sampled ∧
        summary service.toPlatform store r.window.deviceId r.window.key r.window.start r.window.stop
          settings.featureTtlSeconds moment.clock moment.dbClock = .ok (store', response) ∧
        body = ⟨r.deviceId, r.key, .summary response⟩ := by
  unfold CacheRequest.read at h
  split at h
  · next hkind =>
    obtain rfl := readSeries_store h
    exact .inl ⟨rfl, .series hkind h⟩
  · next hkind =>
    unfold readSummary at h
    split at h
    · cases h
    · next stream hstream =>
      split at h
      · next hscalar =>
        obtain ⟨rfl, rfl⟩ := Prod.mk.inj (Except.ok.inj h)
        exact .inl ⟨rfl, .scalar hkind hstream hscalar⟩
      · next hsampled =>
        split at h
        · cases h
        · next response hsummary =>
          obtain ⟨rfl, rfl⟩ := Prod.mk.inj (Except.ok.inj h)
          exact .inr ⟨hkind, stream, response, hstream, hsampled, hsummary, rfl⟩

theorem read_failed {e : Failure} (h : r.read service settings moment store = .error e) :
    e = .http 404 "stream not found" ∨ e = .internal := by
  unfold CacheRequest.read at h
  split at h
  · unfold readSeries at h
    split at h
    · exact .inl (Except.error.inj h).symm
    · split at h
      · cases h
      · split at h
        · exact .inr (Except.error.inj h).symm
        · cases h
  · unfold readSummary at h
    split at h
    · exact .inl (Except.error.inj h).symm
    · split at h
      · cases h
      · split at h
        · exact .inr (Except.error.inj h).symm
        · cases h

theorem serve_of_asks (hservice : service.UsesDatetime)
    (hasks : Asks service settings moment request r) :
    serve service settings moment state request =
      throughCache settings moment state r.cacheKey (r.read service settings moment) := by
  cases hasks with
  | series hparam hrange =>
    rw [← hservice.cacheKey_eq]
    dsimp only [serve]
    rw [hparam]
    dsimp only [getSeries]
    rw [hrange]
    rfl
  | summary hrange =>
    rw [← hservice.cacheKey_eq]
    dsimp only [serve, getSummary]
    rw [hrange]
    rfl

theorem serve_of_not_asks (hservice : service.UsesDatetime)
    (hnot : ∀ r, ¬Asks service settings moment request r) :
    (serve service settings moment state request).2 = state := by
  obtain ⟨authorization, endpoint⟩ := request
  unfold serve
  cases endpoint with
  | healthz => rfl
  | readyz => rfl
  | createQueryToken body adminToken =>
    dsimp only
    split <;> rfl
  | searchDevices search limit =>
    dsimp only
    split <;> rfl
  | listStreams deviceId => rfl
  | getSeries deviceId key from_ to_ param =>
    dsimp only
    split
    · next hparam =>
      unfold getSeries
      split
      · rfl
      · next hrange =>
        obtain ⟨s, t, heq⟩ := seriesRange_datetimes hservice hrange
        obtain ⟨rfl, rfl⟩ := Prod.mk.inj heq
        exact absurd (.series hparam hrange) (hnot _)
    · rfl
  | getSummary deviceId key from_ to_ =>
    dsimp only
    split
    · unfold getSummary
      split
      · rfl
      · next hrange =>
        obtain ⟨s, t, heq⟩ := summaryRange_datetimes hservice hrange
        obtain ⟨rfl, rfl⟩ := Prod.mk.inj heq
        exact absurd (.summary hrange) (hnot _)
    · rfl
  | getFrames deviceId key from_ to_ =>
    dsimp only
    split <;> rfl

theorem setJson_store : (state.setJson settings moment cacheKey body).store = state.store := by
  unfold State.setJson
  split <;> rfl

theorem throughCache_store (settings : Settings) (moment : Moment) (state : State F)
    (cacheKey : List Char) (read : Store F → Except Failure (Store F × StreamBody F)) :
    (throughCache settings moment state cacheKey read).2.store = state.store ∨
      ∃ body, read state.store =
        .ok ((throughCache settings moment state cacheKey read).2.store, body) := by
  unfold throughCache
  split
  · exact .inl rfl
  · split
    · exact .inl rfl
    · next store' body hread =>
      rw [setJson_store]
      exact .inr ⟨body, hread⟩

theorem throughCache_rows {row : CacheRow F}
    (h : row ∈ (throughCache settings moment state cacheKey read).2.cache.rows) :
    row ∈ state.cache.rows ∨ row.key = cacheKey ∧
      row.expiresAt = moment.cacheClock + settings.cacheTtlSeconds ∧
        ∃ store', read state.store = .ok (store', row.body) := by
  unfold throughCache at h
  split at h
  · exact .inl h
  · split at h
    · exact .inl h
    · next store' body hread =>
      unfold State.setJson at h
      split at h
      · rcases mem_upsertBy.mp h with rfl | ⟨hold, -⟩
        · exact .inr ⟨rfl, rfl, store', hread⟩
        · exact .inl hold
      · exact .inl h

theorem getJson_row (h : state.getJson settings moment cacheKey = some body) :
    ∃ row ∈ state.cache.rows, row.key = cacheKey ∧ moment.cacheClock < row.expiresAt ∧
      row.body = body := by
  unfold State.getJson at h
  split at h
  · obtain ⟨row, hfind, hrow⟩ := Option.bind_eq_some_iff.mp h
    obtain ⟨hmem, hkey⟩ := mem_of_findBy hfind
    obtain ⟨hlive, hbody⟩ := Option.ite_none_right_eq_some.mp hrow
    exact ⟨row, hmem, hkey, hlive, Option.some.inj hbody⟩
  · cases h

end

/-! Runs -/

def CacheEvent.dbClock : CacheEvent F → Option Timestamptz
  | .stored _ => none
  | .served moment _ => some moment.dbClock

/-- A run in which only the API writes feature rows, the clock of the database does not go back,
and no feature row has expired when it is made. -/
structure Orderly (service : Service F) (settings : Settings) (start : Store F)
    (events : List (CacheEvent F)) : Prop where
  keeps : ∀ before store later, events = before ++ .stored store :: later →
    store.features = (stateAfter service settings start before).store.features
  ordered : (events.filterMap CacheEvent.dbClock).Pairwise (· ≤ ·)
  inStep : ∀ moment request, .served moment request ∈ events →
    moment.dbClock < moment.clock + 1000000 * settings.featureTtlSeconds

def MadeIn (service : Service F) (settings : Settings) (start : Store F)
    (events : List (CacheEvent F)) (w : Window) (expiresAt : Int) (rows : List (FeatureRow F)) :
    Prop :=
  ∃ before moment request later r, events = before ++ .served moment request :: later ∧
    Asks service settings moment request r ∧ r.kind = .summary ∧ r.window = w ∧
    expiresAt = moment.clock + 1000000 * settings.featureTtlSeconds ∧
    w.madeRows service.reader (stateAfter service settings start before).store.telemetry expiresAt =
      .ok rows

def CachedIn (service : Service F) (settings : Settings) (start : Store F)
    (events : List (CacheEvent F)) (r : CacheRequest) (body : StreamBody F) (expiresAt : Int) :
    Prop :=
  ∃ before moment request later, events = before ++ .served moment request :: later ∧
    Asks service settings moment request r ∧
    (∃ store', r.read service settings moment (stateAfter service settings start before).store =
      .ok (store', body)) ∧
    expiresAt = moment.cacheClock + settings.cacheTtlSeconds

/-- What a response says that was read for a request after some events: what was stored then, or
the features of frames that were stored when rows were made that have not expired since. -/
inductive Told (service : Service F) (settings : Settings) (start : Store F)
    (before : List (CacheEvent F)) (moment : Moment) (request : Request) (r : CacheRequest) :
    StreamBody F → Prop where
  | stored {body : StreamBody F}
      (h : Tells service settings (stateAfter service settings start before).store r body) :
    Told service settings start before moment request r body
  | features {stream : StreamRef F} {features : OrderedDict (List Char) (Feature F)}
      {expiresAt : Int} {rows : List (FeatureRow F)} (hkind : r.kind = .summary)
      (hstream : findStream service (stateAfter service settings start before).store r.deviceId
        r.key = some stream) (hsampled : stream.kind = .sampled)
      (hmade : MadeIn service settings start (before ++ [.served moment request]) r.window expiresAt
        rows)
      (hlive : moment.dbClock < expiresAt) (hperm : features.Perm (rows.map FeatureRow.entry)) :
    Told service settings start before moment request r
      ⟨r.deviceId, r.key, .summary ⟨r.start.time, r.stop.time, features⟩⟩

section
variable {service : Service F} {settings : Settings} {start : Store F} {moment : Moment}
  {request : Request} {r : CacheRequest} {body : StreamBody F} {events later : List (CacheEvent F)}
  {event : CacheEvent F} {w : Window} {expiresAt : Int} {rows : List (FeatureRow F)}

theorem Orderly.of_append (h : Orderly service settings start (events ++ later)) :
    Orderly service settings start events where
  keeps := fun before store rest heq => h.keeps before store (rest ++ later)
    (by rw [heq, List.append_assoc, List.cons_append])
  ordered := by
    have hordered := h.ordered
    rw [List.filterMap_append] at hordered
    exact (List.pairwise_append.mp hordered).1
  inStep := fun moment request hmem => h.inStep moment request (List.mem_append_left later hmem)

theorem Orderly.dbClock_le
    (h : Orderly service settings start (events ++ [.served moment request])) {moment' : Moment}
    {request' : Request} (hmem : .served moment' request' ∈ events) :
    moment'.dbClock ≤ moment.dbClock := by
  have hordered := h.ordered
  rw [List.filterMap_append] at hordered
  exact (List.pairwise_append.mp hordered).2.2 _ (List.mem_filterMap.mpr ⟨_, hmem, rfl⟩) _
    (List.mem_filterMap.mpr ⟨_, List.mem_singleton_self _, rfl⟩)

theorem MadeIn.append (h : MadeIn service settings start events w expiresAt rows)
    (event : CacheEvent F) :
    MadeIn service settings start (events ++ [event]) w expiresAt rows := by
  obtain ⟨before, moment, request, later, r, rfl, hrest⟩ := h
  exact ⟨before, moment, request, later ++ [event], r, by rw [List.append_assoc, List.cons_append],
    hrest⟩

theorem CachedIn.append (h : CachedIn service settings start events r body expiresAt)
    (event : CacheEvent F) :
    CachedIn service settings start (events ++ [event]) r body expiresAt := by
  obtain ⟨before, moment, request, later, rfl, hrest⟩ := h
  exact ⟨before, moment, request, later ++ [event], by rw [List.append_assoc, List.cons_append],
    hrest⟩

theorem served_whole (hservice : service.UsesDatetime) {t : Int} (ht : moment.dbClock ≤ t)
    (h : featureLifetimes.Whole (MadeIn service settings start events) w t
      (stateAfter service settings start events).store.features.rows) :
    featureLifetimes.Whole (MadeIn service settings start (events ++ [.served moment request])) w t
      (stateAfter service settings start
        (events ++ [.served moment request])).store.features.rows := by
  let state := stateAfter service settings start events
  have hmono := h.mono fun _ _ _ hmade => MadeIn.append hmade (.served moment request)
  rw [stateAfter_concat]
  show featureLifetimes.Whole _ w t
    (serve service settings moment state request).2.store.features.rows
  by_cases hasks : ∃ r, Asks service settings moment request r
  · obtain ⟨r, hasks⟩ := hasks
    rw [serve_of_asks hservice hasks]
    rcases throughCache_store settings moment state r.cacheKey
      (r.read service settings moment) with hsame | ⟨body, hread⟩
    · rw [hsame]
      exact hmono
    · rcases read_cases hread with ⟨hsame, -⟩ | ⟨hkind, stream, response, -, -, hsummary, -⟩
      · rw [hsame]
        exact hmono
      · obtain ⟨-, ⟨hstore, -⟩ | ⟨hnone, rows, hmade, hstore⟩⟩ := summary_cases hsummary
        · rw [hstore]
          exact hmono.delete _
        · obtain ⟨hnodup, htogether⟩ := Window.madeRows_spec hmade
          rw [hstore]
          refine Lifetimes.Whole.put (fun _ _ => window_of_key) (unique_of_channelKeys hnodup)
            htogether ?_ (fun row hrow => hnone row (hrow.of_le ht)) (hmono.delete _)
          exact ⟨events, moment, request, [], r, rfl, hasks, hkind, rfl, rfl, hmade⟩
  · rw [serve_of_not_asks hservice fun r hr => hasks ⟨r, hr⟩]
    exact hmono

/-- The feature rows of a window that are alive are always those that were made for one request. -/
theorem features_whole (hservice : service.UsesDatetime) (hstart : start.features.rows = [])
    (horderly : Orderly service settings start events) {t : Int}
    (ht : ∀ moment request, .served moment request ∈ events → moment.dbClock ≤ t) :
    featureLifetimes.Whole (MadeIn service settings start events) w t
      (stateAfter service settings start events).store.features.rows := by
  induction events using List.reverseRecOn with
  | nil =>
    show featureLifetimes.Whole _ w t start.features.rows
    rw [hstart]
    exact Lifetimes.whole_nil
  | append_singleton events event ih =>
    have hbefore := ih horderly.of_append fun moment request hmem =>
      ht moment request (List.mem_append_left _ hmem)
    cases event with
    | stored store =>
      rw [stateAfter_concat]
      show featureLifetimes.Whole _ w t store.features.rows
      rw [horderly.keeps events store [] rfl]
      exact hbefore.mono fun _ _ _ hmade => MadeIn.append hmade (.stored store)
    | served moment request =>
      exact served_whole hservice
        (ht moment request (List.mem_append_right _ (List.mem_singleton_self _))) hbefore

theorem told_of_read (hservice : service.UsesDatetime) (hstart : start.features.rows = [])
    (horderly : Orderly service settings start (events ++ [.served moment request]))
    (hasks : Asks service settings moment request r) {store' : Store F}
    (hread : r.read service settings moment (stateAfter service settings start events).store =
      .ok (store', body)) :
    Told service settings start events moment request r body := by
  rcases read_cases hread with ⟨-, htells⟩ |
    ⟨hkind, stream, response, hstream, hsampled, hsummary, rfl⟩
  · exact .stored htells
  · have hwhole := features_whole (w := r.window) hservice hstart horderly.of_append
      fun moment' request' hmem => horderly.dbClock_le hmem
    have hwhole' := (hwhole.mono fun _ _ _ hmade =>
      MadeIn.append hmade (.served moment request)).delete moment.clock
    obtain ⟨rfl, ⟨hstore, row, hrow⟩ | ⟨hnone, rows, hmade, hstore⟩⟩ := summary_cases hsummary
    · -- the rows that are found are those of a batch
      rw [hstore] at hrow
      rcases hwhole' with hnone | ⟨expiresAt, rows, hmade, htogether, hlive⟩
      · exact absurd hrow (hnone row)
      · have hexpires : moment.dbClock < expiresAt := ((hlive row).mp hrow).2
        obtain ⟨_, _, _, _, _, _, _, _, _, _, hrows⟩ := id hmade
        refine .features hkind hstream hsampled hmade hexpires ?_
        refine featureSummaryResponse_perm r.start.time r.stop.time
          (Window.madeRows_spec hrows).1 fun row => ?_
        rw [hstore]
        exact (hlive row).trans (and_iff_left hexpires)
    · have hexpires := horderly.inStep moment request
        (List.mem_append_right _ (List.mem_singleton_self _))
      obtain ⟨hnodup, htogether⟩ := Window.madeRows_spec hmade
      refine .features hkind hstream hsampled
        ⟨events, moment, request, [], r, rfl, hasks, hkind, rfl, rfl, hmade⟩ hexpires ?_
      refine featureSummaryResponse_perm r.start.time r.stop.time hnodup fun row => ?_
      rw [hstore]
      exact (Lifetimes.live_put (unique_of_channelKeys hnodup) htogether hnone row).trans
        (and_iff_left hexpires)

theorem cache_made (hservice : service.UsesDatetime) (events : List (CacheEvent F)) :
    ∀ row ∈ (stateAfter service settings start events).cache.rows, ∃ r, row.key = r.cacheKey ∧
      CachedIn service settings start events r row.body row.expiresAt := by
  induction events using List.reverseRecOn with
  | nil => exact fun _ hrow => absurd hrow List.not_mem_nil
  | append_singleton events event ih =>
    have hold {row : CacheRow F}
        (hrow : row ∈ (stateAfter service settings start events).cache.rows) :
        ∃ r, row.key = r.cacheKey ∧
          CachedIn service settings start (events ++ [event]) r row.body row.expiresAt := by
      obtain ⟨r, hkey, hcached⟩ := ih row hrow
      exact ⟨r, hkey, hcached.append event⟩
    intro row hrow
    rw [stateAfter_concat] at hrow
    cases event with
    | stored store => exact hold hrow
    | served moment request =>
      by_cases hasks : ∃ r, Asks service settings moment request r
      · obtain ⟨r, hasks⟩ := hasks
        simp only [happen, serve_of_asks hservice hasks] at hrow
        rcases throughCache_rows hrow with hrow | ⟨hkey, hexpires, hread⟩
        · exact hold hrow
        · exact ⟨r, hkey, events, moment, request, [], rfl, hasks, hread, hexpires⟩
      · simp only [happen, serve_of_not_asks hservice fun r hr => hasks ⟨r, hr⟩] at hrow
        exact hold hrow

/-- What is answered to a request was read for a request for the same, the last one or one less than
the time to live of the cache ago; and what it says was stored then, or when feature rows were made
that had not expired then. -/
theorem served_recent (hservice : service.UsesDatetime) (hstart : start.features.rows = [])
    (horderly : Orderly service settings start (events ++ [.served moment request]))
    (hasks : Asks service settings moment request r)
    (hserved : (serve service settings moment (stateAfter service settings start events)
      request).1.status = 200) :
    ∃ body before moment' request' later,
      (serve service settings moment (stateAfter service settings start events) request).1 =
        ⟨200, .stream body⟩ ∧
      events ++ [.served moment request] = before ++ .served moment' request' :: later ∧
      Asks service settings moment' request' r ∧
      (later = [] ∨ moment.cacheClock < moment'.cacheClock + settings.cacheTtlSeconds) ∧
      Told service settings start before moment' request' r body := by
  rw [serve_of_asks hservice hasks] at hserved ⊢
  unfold throughCache at hserved ⊢
  cases hhit : (stateAfter service settings start events).getJson settings moment r.cacheKey with
  | some body =>
    obtain ⟨row, hrow, hkey, hlive, rfl⟩ := getJson_row hhit
    obtain ⟨r', hkey', before, moment', request', later, rfl, hasks', ⟨store', hread⟩, hexpires⟩ :=
      cache_made hservice events row hrow
    obtain rfl := cacheKey_injective (hkey'.symm.trans hkey)
    refine ⟨row.body, before, moment', request', later ++ [.served moment request], rfl,
      by rw [List.append_assoc, List.cons_append], hasks', .inr (hexpires ▸ hlive), ?_⟩
    have happend : before ++ .served moment' request' :: later ++ [.served moment request] =
        (before ++ [.served moment' request']) ++ (later ++ [.served moment request]) := by simp
    have hprefix : Orderly service settings start (before ++ [.served moment' request']) :=
      (happend ▸ horderly).of_append
    exact told_of_read hservice hstart hprefix hasks' hread
  | none =>
    rw [hhit] at hserved
    cases hread : r.read service settings moment
      (stateAfter service settings start events).store with
    | error e =>
      rw [hread] at hserved
      rcases read_failed hread with rfl | rfl <;> cases hserved
    | ok result =>
      obtain ⟨store', body⟩ := result
      exact ⟨body, events, moment, request, [], rfl, rfl, hasks, .inl rfl,
        told_of_read hservice hstart horderly hasks hread⟩

end

def summarizedRequest : CacheRequest :=
  { repeatedRequest with kind := .summary, maxPoints := 0 }

/-- The cached summary has expired, the feature rows have not; meanwhile a frame has come. -/
theorem served_recent_featureRows :
    let frame := int16Frame ["a".toList] 0 1 [1, 0]
    let summarized := CacheEvent.served wholeMoment (summaryRequest "guest")
    let start := oneFrameStore frame
    let store := { (stateAfter datetimeService wholeSettings start [summarized]).store with
      telemetry := ⟨["device".toList], [], [frame, int16Frame ["a".toList] 100 1 [7, 0]]⟩ }
    let events := [summarized, .stored store]
    let moment := { wholeMoment with cacheClock := 40 }
    ∃ body before moment' request' later,
      (serve datetimeService wholeSettings moment
        (stateAfter datetimeService wholeSettings start events) (summaryRequest "guest")).1 =
        ⟨200, .stream body⟩ ∧
      events ++ [.served moment (summaryRequest "guest")] =
        before ++ .served moment' request' :: later ∧
      Asks datetimeService wholeSettings moment' request' summarizedRequest ∧
      (later = [] ∨ moment.cacheClock < moment'.cacheClock + wholeSettings.cacheTtlSeconds) ∧
      Told datetimeService wholeSettings start before moment' request' summarizedRequest body := by
  intro frame summarized start store events moment
  refine served_recent datetimeService_usesDatetime rfl ⟨?_, ?_, ?_⟩ (.summary rfl) ?_
  · intro before changed later heq
    rcases before with _ | ⟨first, _ | ⟨second, _ | ⟨third, rest⟩⟩⟩
    · have hfirst : CacheEvent.served wholeMoment (summaryRequest "guest") = .stored changed :=
        (List.cons.inj heq).1
      cases hfirst
    · obtain ⟨rfl, hrest⟩ := List.cons.inj heq
      obtain rfl := CacheEvent.stored.inj (List.cons.inj hrest).1
      rfl
    · simp [events] at heq
    · simp [events] at heq
  · decide
  · intro moment' request' hmem
    have hmoment : moment' = wholeMoment ∨ moment' = moment := by
      simp [events, summarized] at hmem
      tauto
    rcases hmoment with rfl | rfl <;> decide
  · decide +kernel

end Aetus.Query
