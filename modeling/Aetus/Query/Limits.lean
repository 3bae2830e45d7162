import Aetus.Query.Noninterference

/-!
How many points a response has, and the principal's limit.
-/

set_option autoImplicit false

namespace Aetus.Query
open Aetus.Base Aetus.Postgres

variable {F α : Type}

theorem filter_multiples (m : Nat) {stride : Nat} (hstride : 0 < stride) :
    (List.range (m * stride)).filter (· % stride = 0) = (List.range m).map (· * stride) := by
  have hfirst : (List.range stride).filter (· % stride = 0) = [0] := by
    obtain ⟨s, rfl⟩ : ∃ s, stride = s + 1 := ⟨stride - 1, by omega⟩
    rw [List.range_succ_eq_map, List.filter_cons_of_pos (by simp), List.filter_eq_nil_iff.mpr]
    intro i hi
    obtain ⟨j, hj, rfl⟩ := List.mem_map.mp hi
    have hlt : j + 1 < s + 1 := by simpa using hj
    simp [Nat.mod_eq_of_lt hlt]
  induction m with
  | zero => simp
  | succ m ih =>
    rw [Nat.succ_mul, List.range_add, List.filter_append, ih, List.filter_map, List.range_succ,
      List.map_append]
    simp [Function.comp_def, hfirst]

theorem countP_multiples (m : Nat) {stride : Nat} (hstride : 0 < stride) :
    (List.range (m * stride)).countP (· % stride = 0) = m := by
  rw [List.countP_eq_length_filter, filter_multiples m hstride, List.length_map, List.length_range]

theorem length_everyNth (stride : Nat) (rows : List α) :
    (everyNth stride rows).length = (List.range rows.length).countP (· % stride = 0) := by
  have hindices : (List.range rows.length) = rows.zipIdx.map Prod.snd := by
    rw [List.zipIdx_map_snd, List.range_eq_range']
  rw [everyNth, List.length_map, ← List.countP_eq_length_filter, hindices, List.countP_map]
  rfl

theorem length_limitPoints (rows : List α) (maxPoints : Int) :
    (limitPoints rows maxPoints).length =
      if 0 < maxPoints then min rows.length maxPoints.toNat else rows.length := by
  unfold limitPoints
  split
  · split <;> omega
  · next hmany =>
    have hpos : 0 < maxPoints := by omega
    obtain ⟨m, rfl⟩ := Int.eq_ofNat_of_zero_le hpos.le
    have hstride : 0 < max 1 (rows.length / m) := by omega
    have hfits : m * max 1 (rows.length / m) ≤ rows.length := by
      have hdiv : 1 ≤ rows.length / m := (Nat.one_le_div_iff (by omega)).mpr (by omega)
      rw [Nat.max_eq_right hdiv, Nat.mul_comm]
      exact Nat.div_mul_le_self _ _
    have hcount := (List.range_sublist.mpr hfits).countP_le (p := (· % max 1 (rows.length / m) = 0))
    rw [countP_multiples m hstride] at hcount
    simp only [Int.toNat_natCast, if_pos hpos, List.length_take, length_everyNth]
    omega

theorem length_limitPoints_le_iff (rows : List α) (maxPoints : Int) (limit : Nat) :
    (limitPoints rows maxPoints).length ≤ limit ↔
      0 < maxPoints ∧ maxPoints ≤ limit ∨ rows.length ≤ limit := by
  rw [length_limitPoints]
  split <;> omega

/-- How many points the response has for the series or for each of its channels. -/
def StreamContent.pointCounts : StreamContent F → List Nat
  | .scalar series _ => [series.points.length]
  | .sampled (.rollup _ channels) => channels.map (·.points.length)
  | .sampled (.raw series) => series.channels.map (·.points.length)
  | .summary _ => []
  | .frames _ => []

def Body.pointCounts : Body F → List Nat
  | .stream body => body.content.pointCounts
  | _ => []

variable {limit : Nat} {maxPoints : Int} {deviceId key : List Char} {start stop : Timestamptz}
  {store : Store F}

theorem length_scalarSeries : (scalarSeries store deviceId key start stop maxPoints).points.length =
    (limitPoints (scalarRows store.telemetry deviceId key start stop) maxPoints).length :=
  List.length_map _

/-! Rollups -/

def pushRollup (row : RollupRow F) (channel : RollupChannel F) : RollupChannel F :=
  { channel with points := channel.points ++
    [⟨row.bucketStart, row.minValue, row.maxValue, row.avgValue⟩] }

def RollupRow.point (row : RollupRow F) : RollupPoint F :=
  ⟨row.bucketStart, row.minValue, row.maxValue, row.avgValue⟩

def rollupDict (rows : List (RollupRow F)) : OrderedDict (List Char) (RollupChannel F) :=
  rows.foldl (fun d row => d.alter row.channelKey ⟨row.channelKey, row.channelUnit, []⟩
    (pushRollup row)) []

theorem points_foldl_pushRollup (rows : List (RollupRow F)) (channel : RollupChannel F) :
    ∃ channel', rows.foldl (fun (held : Option (RollupChannel F)) row =>
        some (pushRollup row (held.getD ⟨row.channelKey, row.channelUnit, []⟩))) (some channel) =
        some channel' ∧
      channel'.name = channel.name ∧
      channel'.points = channel.points ++ rows.map RollupRow.point := by
  induction rows generalizing channel with
  | nil => exact ⟨channel, rfl, rfl, (List.append_nil _).symm⟩
  | cons row rows ih =>
    obtain ⟨channel', hfold, hname, hpoints⟩ := ih (pushRollup row channel)
    refine ⟨channel', hfold, hname, ?_⟩
    rw [hpoints, pushRollup, List.append_assoc]
    rfl

theorem points_rollupDict (rows : List (RollupRow F)) (channelKey : List Char) :
    match (rollupDict rows).get? channelKey with
    | none => rows.filter (·.channelKey = channelKey) = []
    | some channel => channel.name = channelKey ∧ (∃ row ∈ rows, row.channelKey = channelKey) ∧
        channel.points = (rows.filter (·.channelKey = channelKey)).map RollupRow.point := by
  have hget : (rollupDict rows).get? channelKey =
      (rows.filter fun row => row.channelKey = channelKey).foldl (fun held row =>
        some (pushRollup row (held.getD ⟨row.channelKey, row.channelUnit, []⟩))) none :=
    OrderedDict.get?_foldl_alter
  have hkeys : ∀ row ∈ rows.filter (·.channelKey = channelKey), row.channelKey = channelKey :=
    fun row hrow => of_decide_eq_true (List.mem_filter.mp hrow).2
  rw [hget]
  cases hown : rows.filter fun row => row.channelKey = channelKey with
  | nil => rfl
  | cons row own =>
    obtain ⟨channel, hfold, hname, hpoints⟩ := points_foldl_pushRollup own
      (pushRollup row ⟨row.channelKey, row.channelUnit, []⟩)
    rw [List.foldl_cons, Option.getD_none, hfold]
    have hrow : row ∈ rows.filter (·.channelKey = channelKey) := hown ▸ List.mem_cons_self
    exact ⟨hname.trans (hkeys row hrow), ⟨row, List.mem_of_mem_filter hrow, hkeys row hrow⟩, hpoints⟩

theorem get?_rollupDict (rows : List (RollupRow F)) (channelKey : List Char) :
    match (rollupDict rows).get? channelKey with
    | none => rows.filter (·.channelKey = channelKey) = []
    | some channel => channel.points.length = (rows.filter (·.channelKey = channelKey)).length := by
  have hpoints := points_rollupDict rows channelKey
  split
  · next hnone =>
    rw [hnone] at hpoints
    exact hpoints
  · next channel hsome =>
    rw [hsome] at hpoints
    rw [hpoints.2.2, List.length_map]

theorem rollupChannels_le_iff (rows : List (RollupRow F)) (maxPoints : Int) (limit : Nat) :
    (∀ channel ∈ rollupChannels rows maxPoints, channel.points.length ≤ limit) ↔
      0 < maxPoints ∧ maxPoints ≤ limit ∨
        ∀ channelKey, (rows.filter (·.channelKey = channelKey)).length ≤ limit := by
  have hchannels : rollupChannels rows maxPoints = (rollupDict rows).map fun entry =>
      { entry.2 with points := limitPoints entry.2.points maxPoints } := rfl
  have hnodup : ((rollupDict rows).map Prod.fst).Nodup :=
    OrderedDict.nodup_foldl_alter List.nodup_nil
  rw [hchannels, List.forall_mem_map]
  simp only [length_limitPoints_le_iff]
  constructor
  · intro h
    by_cases hcut : 0 < maxPoints ∧ maxPoints ≤ limit
    · exact .inl hcut
    · refine .inr fun channelKey => ?_
      have hget := get?_rollupDict rows channelKey
      cases hfound : (rollupDict rows).get? channelKey with
      | none =>
        rw [hfound] at hget
        simp [hget]
      | some channel =>
        rw [hfound] at hget
        have hfits := (h _ (OrderedDict.mem_of_get? hfound)).resolve_left hcut
        rwa [hget] at hfits
  · rintro (hcut | hfits) entry hentry
    · exact .inl hcut
    · have hget := get?_rollupDict rows entry.1
      rw [OrderedDict.get?_of_mem hnodup hentry] at hget
      exact .inr (hget.trans_le (hfits entry.1))

/-! Samples -/

theorem length_bucketedPoints_le (floats : Floats F) (timestamps : List Timestamptz)
    (maxPoints : Int) (values : List F) :
    (bucketedPoints floats timestamps (bucketCount timestamps.length maxPoints) values).length ≤
      maxPoints.toNat := by
  have hbuckets : bucketCount timestamps.length maxPoints ≤ maxPoints.toNat := by
    unfold bucketCount
    omega
  refine (List.length_filterMap_le _ _).trans ?_
  rwa [List.length_range]

theorem rawFramesToSeries_le {reader : Reader F} {frames : List StoredFrame}
    {from_ to_ : Option Timestamptz} {series : SampledSeries F}
    (h : rawFramesToSeries reader frames maxPoints from_ to_ = .ok series) :
    ∀ channel ∈ series.channels, channel.points.length ≤ maxPoints.toNat := by
  unfold rawFramesToSeries at h
  split at h
  · cases h
  · next collected hcollect =>
    rw [← Except.ok.inj h]
    split
    · exact nofun
    · split
      · next hfew =>
        intro channel hchannel
        obtain ⟨held, -, rfl⟩ := List.mem_map.mp hchannel
        simp only [Points.length, List.length_zipWith]
        omega
      · intro channel hchannel
        obtain ⟨held, -, rfl⟩ := List.mem_map.mp hchannel
        exact length_bucketedPoints_le _ _ _ _

variable {service : Service F} {settings : Settings} {moment : Moment}

/-- What a series has where it is not cut: the rows of the metric, or those of each rollup
channel. The loops over frames have no such case. -/
def UncutFits (service : Service F) (store : Store F) (deviceId key : List Char)
    (start stop : Timestamptz) (limit : Nat) : Prop :=
  match (findStream service store deviceId key).map StreamRef.kind with
  | none => True
  | some .scalar => (scalarRows store.telemetry deviceId key start stop).length ≤ limit
  | some .sampled => ∀ channelKey,
      ((rollupRows store deviceId key start stop).filter (·.channelKey = channelKey)).length ≤ limit

def ReadFits (limit : Nat) (result : Except Failure (Store F × StreamBody F)) : Prop :=
  ∀ store body, result = .ok (store, body) → ∀ n ∈ body.content.pointCounts, n ≤ limit

theorem readFits_error (e : Failure) : ReadFits limit (.error e : Except Failure (Store F × StreamBody F)) :=
  nofun

theorem readFits_ok {body : StreamBody F} : ReadFits limit (.ok (store, body)) ↔
    ∀ n ∈ body.content.pointCounts, n ≤ limit :=
  ⟨fun h => h store body rfl, fun h _ _ hok => by
    cases hok
    exact h⟩

theorem readFits_scalar {range : Option (Timestamptz × Timestamptz)} :
    ReadFits limit (.ok (store, ⟨deviceId, key,
        .scalar (scalarSeries store deviceId key start stop maxPoints) range⟩)) ↔
      0 < maxPoints ∧ maxPoints ≤ limit ∨
        (scalarRows store.telemetry deviceId key start stop).length ≤ limit := by
  simp [readFits_ok, StreamContent.pointCounts, length_scalarSeries, length_limitPoints_le_iff]

theorem readSeries_le_iff (hlimit : maxPoints ≤ limit) :
    ReadFits limit (readSeries service store deviceId key start stop maxPoints) ↔
      1 ≤ maxPoints ∨ UncutFits service store deviceId key start stop limit := by
  unfold readSeries UncutFits
  cases findStream service store deviceId key with
  | none => simp [readFits_error]
  | some stream =>
    obtain ⟨_, kind, _⟩ := stream
    cases kind with
    | scalar =>
      refine readFits_scalar.trans (or_congr_left ?_)
      omega
    | sampled =>
      dsimp only [Option.map_some]
      unfold sampledSeries
      cases hrollups : rollupRows store deviceId key start stop with
      | nil =>
        refine iff_of_true ?_ (.inr fun _ => Nat.zero_le limit)
        dsimp only
        cases hseries : rawFramesToSeries service.reader
            (readSignalFrames service.reader store.telemetry deviceId key start stop) maxPoints (some start)
            (some stop) with
        | error e => exact readFits_error _
        | ok series =>
          refine readFits_ok.mpr fun n hn => ?_
          obtain ⟨channel, hchannel, rfl⟩ := List.mem_map.mp hn
          have hfew := rawFramesToSeries_le hseries channel hchannel
          omega
      | cons first rows =>
        refine readFits_ok.trans ?_
        simp only [StreamContent.pointCounts, List.forall_mem_map, rollupChannels_le_iff]
        refine or_congr_left ?_
        omega

theorem readSummary_le_iff {summaryStore : Store F} :
    ReadFits limit (readSummary service settings moment summaryStore deviceId key start stop) ↔
      ((findStream service summaryStore deviceId key).map StreamRef.kind = some .scalar →
        0 < settings.maxPointsDefault ∧ settings.maxPointsDefault ≤ limit ∨
          (scalarRows summaryStore.telemetry deviceId key start stop).length ≤ limit) := by
  unfold readSummary
  cases findStream service summaryStore deviceId key with
  | none => simp [readFits_error]
  | some stream =>
    obtain ⟨_, kind, _⟩ := stream
    cases kind with
    | scalar =>
      refine readFits_scalar.trans ?_
      simp
    | sampled =>
      refine iff_of_true ?_ (by simp)
      dsimp only
      split
      · exact readFits_error _
      · refine readFits_ok.mpr ?_
        simp [StreamContent.pointCounts]

/-! The cache -/

def CacheBounded (isoformat : Timestamptz → List Char) (state : State F) : Prop :=
  ∀ row ∈ state.cache.rows, ∀ deviceId key start stop maxPoints, 1 ≤ maxPoints →
    row.key = cacheKey isoformat "series" deviceId key start stop maxPoints →
      ∀ n ∈ row.body.content.pointCounts, (n : Int) ≤ maxPoints

variable {state : State F} {authorization : Option (List Char)} {from_ to_ : List Char}

theorem CacheBounded.setJson {cacheKey' : List Char} {body : StreamBody F}
    (h : CacheBounded service.isoformat state)
    (hbody : ∀ deviceId key start stop maxPoints, 1 ≤ maxPoints →
      cacheKey' = cacheKey service.isoformat "series" deviceId key start stop maxPoints →
        ∀ n ∈ body.content.pointCounts, (n : Int) ≤ maxPoints) :
    CacheBounded service.isoformat (state.setJson settings moment cacheKey' body) := by
  unfold State.setJson
  split
  · intro row hrow
    rcases mem_upsertBy.mp hrow with rfl | ⟨hold, -⟩
    · exact hbody
    · exact h row hold
  · exact h

theorem throughCache_bounded {cacheKey' : List Char}
    {read : Store F → Except Failure (Store F × StreamBody F)}
    (h : CacheBounded service.isoformat state)
    (hread : ∀ store body, read state.store = .ok (store, body) →
      ∀ deviceId key start stop maxPoints, 1 ≤ maxPoints →
        cacheKey' = cacheKey service.isoformat "series" deviceId key start stop maxPoints →
          ∀ n ∈ body.content.pointCounts, (n : Int) ≤ maxPoints) :
    CacheBounded service.isoformat (throughCache settings moment state cacheKey' read).2 := by
  unfold throughCache
  split
  · exact h
  · cases hresult : read state.store with
    | error e => exact h
    | ok result =>
      obtain ⟨store, body⟩ := result
      have hstored : CacheBounded service.isoformat { state with store := store } := h
      exact hstored.setJson (hread store body hresult)

theorem getSeries_bounded (h : CacheBounded service.isoformat state) :
    CacheBounded service.isoformat (getSeries service settings moment state authorization deviceId key
      from_ to_ maxPoints).2 := by
  unfold getSeries
  split
  · exact h
  · refine throughCache_bounded h fun store body hread deviceId' key' start' stop' maxPoints' hpos
      hkey n hn => ?_
    obtain ⟨-, -, -, rfl⟩ := cacheKey_inj (by simp [cacheKinds]) (by simp [cacheKinds]) hkey
    have hfits := (readSeries_le_iff (Int.self_le_toNat maxPoints)).mpr (.inl hpos) store body
      hread n hn
    omega

theorem getSummary_bounded (h : CacheBounded service.isoformat state) :
    CacheBounded service.isoformat (getSummary service settings moment state authorization deviceId key
      from_ to_).2 := by
  unfold getSummary
  split
  · exact h
  · refine throughCache_bounded h fun store body hread deviceId' key' start' stop' maxPoints' hpos
      hkey n hn => ?_
    obtain ⟨hkind, -⟩ := cacheKey_inj (by simp [cacheKinds]) (by simp [cacheKinds]) hkey
    exact absurd hkind (by decide)

theorem serve_bounded (h : CacheBounded service.isoformat state) (moment : Moment)
    (request : Request) : CacheBounded service.isoformat
      (serve service settings moment state request).2 := by
  rcases serve_state service settings moment state request with
    hsame | ⟨_, _, _, _, _, hseries⟩ | ⟨_, _, _, _, hsummary⟩
  · rwa [hsame]
  · rw [hseries]
    exact getSeries_bounded h
  · rw [hsummary]
    exact getSummary_bounded h

theorem Reachable.bounded (h : Reachable service settings state) :
    CacheBounded service.isoformat state := by
  induction h with
  | start store => exact nofun
  | stored store h ih => exact ih
  | served moment request h ih => exact serve_bounded ih moment request

/-! Responses -/

theorem failed_pointCounts (e : Failure) : (failed e : Response F).body.pointCounts = [] := by
  cases e <;> rfl

theorem throughCache_le_iff {cacheKey' : List Char}
    {read : Store F → Except Failure (Store F × StreamBody F)} :
    (∀ n ∈ (throughCache settings moment state cacheKey' read).1.body.pointCounts, n ≤ limit) ↔
      match state.getJson settings moment cacheKey' with
      | some cached => ∀ n ∈ cached.content.pointCounts, n ≤ limit
      | none => ReadFits limit (read state.store) := by
  unfold throughCache
  cases state.getJson settings moment cacheKey' with
  | some cached => exact Iff.rfl
  | none =>
    cases read state.store with
    | error e => simp [failed_pointCounts, readFits_error]
    | ok result => exact readFits_ok.symm

/-- What keeps a response to the limit. A series is always kept to it, unless the number of
points is less than 1, which only the default of the settings can be. The summary of a metric
does not heed the limit. -/
def KeepsLimit (service : Service F) (settings : Settings) (moment : Moment) (state : State F)
    (limit : Nat) (request : Request) : Prop :=
  match request.endpoint with
  | .getSeries deviceId key (some from_) (some to_) param => ∀ maxPoints start stop,
      param.value settings.maxPointsDefault (1 ≤ ·) = some maxPoints →
      seriesRange service settings moment request.authorization deviceId key from_ to_ maxPoints =
        .ok (start, stop) →
      1 ≤ maxPoints ∨
        match state.getJson settings moment
          (cacheKey service.isoformat "series" deviceId key start stop maxPoints) with
        | some cached => ∀ n ∈ cached.content.pointCounts, n ≤ limit
        | none => UncutFits service state.store deviceId key start stop limit
  | .getSummary deviceId key (some from_) (some to_) => ∀ start stop,
      summaryRange service settings moment request.authorization deviceId key from_ to_ =
        .ok (start, stop) →
      match state.getJson settings moment
        (cacheKey service.isoformat "summary" deviceId key start stop 0) with
      | some cached => ∀ n ∈ cached.content.pointCounts, n ≤ limit
      | none => (findStream service state.store deviceId key).map StreamRef.kind = some .scalar →
          0 < settings.maxPointsDefault ∧ settings.maxPointsDefault ≤ limit ∨
            (scalarRows state.store.telemetry deviceId key start stop).length ≤ limit
  | _ => True

theorem le_of_getJson (h : CacheBounded service.isoformat state) (hpos : 1 ≤ maxPoints)
    {cached : StreamBody F} (hcached : state.getJson settings moment
      (cacheKey service.isoformat "series" deviceId key start stop maxPoints) = some cached) :
    ∀ n ∈ cached.content.pointCounts, (n : Int) ≤ maxPoints := by
  obtain ⟨row, hrow, hkey, rfl⟩ := mem_of_getJson hcached
  exact h row hrow deviceId key start stop maxPoints hpos hkey

theorem maxPoints_le_of_seriesRange {principal : QueryPrincipal} {range : Timestamptz × Timestamptz}
    (hlimit : principal.maxPoints = some (limit : Int))
    (howned : ∀ scope q, authenticateQuery service.tokens service.unicode settings authorization scope
      moment.tokenClock = .ok q → q = principal)
    (h : seriesRange service settings moment authorization deviceId key from_ to_ maxPoints =
      .ok range) : maxPoints ≤ limit := by
  obtain ⟨q, hauth, hlimits⟩ := seriesRange_ok h
  obtain rfl := howned _ _ (authorize_ok hauth).1
  unfold enforceQueryLimits at hlimits
  split at hlimits
  · cases hlimits
  · split at hlimits
    · cases hlimits
    · next hfew => simpa [hlimit] using hfew

theorem getSeries_le_iff {principal : QueryPrincipal} (h : CacheBounded service.isoformat state)
    (hlimit : principal.maxPoints = some (limit : Int))
    (howned : ∀ scope q, authenticateQuery service.tokens service.unicode settings authorization scope
      moment.tokenClock = .ok q → q = principal) :
    (∀ n ∈ (getSeries service settings moment state authorization deviceId key from_ to_
        maxPoints).1.body.pointCounts, n ≤ limit) ↔
      ∀ start stop, seriesRange service settings moment authorization deviceId key from_ to_ maxPoints =
          .ok (start, stop) →
        1 ≤ maxPoints ∨
          match state.getJson settings moment
            (cacheKey service.isoformat "series" deviceId key start stop maxPoints) with
          | some cached => ∀ n ∈ cached.content.pointCounts, n ≤ limit
          | none => UncutFits service state.store deviceId key start stop limit := by
  unfold getSeries
  cases hrange : seriesRange service settings moment authorization deviceId key from_ to_ maxPoints with
  | error e => simp [failed_pointCounts]
  | ok range =>
    obtain ⟨start, stop⟩ := range
    have hfew := maxPoints_le_of_seriesRange hlimit howned hrange
    simp only [Except.ok.injEq, Prod.mk.injEq, and_imp, forall_eq', forall_apply_eq_imp_iff]
    refine throughCache_le_iff.trans ?_
    cases hcached : state.getJson settings moment
        (cacheKey service.isoformat "series" deviceId key start stop maxPoints) with
    | none => exact readSeries_le_iff hfew
    | some cached =>
      refine ⟨.inr, fun hor => hor.elim (fun hpos n hn => ?_) id⟩
      have hle := le_of_getJson h hpos hcached n hn
      omega

theorem getSummary_le_iff :
    (∀ n ∈ (getSummary service settings moment state authorization deviceId key from_
        to_).1.body.pointCounts, n ≤ limit) ↔
      ∀ start stop, summaryRange service settings moment authorization deviceId key from_ to_ =
          .ok (start, stop) →
        match state.getJson settings moment
          (cacheKey service.isoformat "summary" deviceId key start stop 0) with
        | some cached => ∀ n ∈ cached.content.pointCounts, n ≤ limit
        | none => (findStream service state.store deviceId key).map StreamRef.kind = some .scalar →
            0 < settings.maxPointsDefault ∧ settings.maxPointsDefault ≤ limit ∨
              (scalarRows state.store.telemetry deviceId key start stop).length ≤ limit := by
  unfold getSummary
  cases hrange : summaryRange service settings moment authorization deviceId key from_ to_ with
  | error e => simp [failed_pointCounts]
  | ok range =>
    obtain ⟨start, stop⟩ := range
    simp only [Except.ok.injEq, Prod.mk.injEq, and_imp, forall_eq', forall_apply_eq_imp_iff]
    refine throughCache_le_iff.trans ?_
    split
    · exact Iff.rfl
    · exact readSummary_le_iff

theorem respond_pointCounts {result : Except Failure (Body F)}
    (h : ∀ body, result = .ok body → body.pointCounts = []) :
    (respond result).body.pointCounts = [] := by
  cases result with
  | error e => exact failed_pointCounts e
  | ok body => exact h body rfl

theorem getDevices_pointCounts {search : List Char} {limit : Int} {body : Body F}
    (h : getDevices service settings moment store authorization search limit = .ok body) :
    body.pointCounts = [] := by
  obtain ⟨q, -, h⟩ := except_bind_eq_ok.mp h
  obtain ⟨devices, -, h⟩ := except_bind_eq_ok.mp h
  cases h
  rfl

theorem getStreams_pointCounts {body : Body F}
    (h : getStreams service settings moment store authorization deviceId = .ok body) :
    body.pointCounts = [] := by
  obtain ⟨q, -, h⟩ := except_bind_eq_ok.mp h
  obtain ⟨_, -, h⟩ := except_bind_eq_ok.mp h
  cases h
  rfl

theorem getFrames_pointCounts {body : Body F}
    (h : getFrames service settings moment store authorization deviceId key from_ to_ = .ok body) :
    body.pointCounts = [] := by
  obtain ⟨-, response, rfl⟩ := getFrames_ok h
  rfl

/-- After any traffic, the response to a request has no more points than its principal's limit
if and only if the request and the state are such. -/
theorem points_le_iff {state : State F} (hreachable : Reachable service settings state)
    (moment : Moment) (principal : QueryPrincipal) (limit : Nat)
    (hlimit : principal.maxPoints = some (limit : Int)) {request : Request}
    (howned : OwnedBy service settings principal moment request) :
    (∀ n ∈ (serve service settings moment state request).1.body.pointCounts, n ≤ limit) ↔
      KeepsLimit service settings moment state limit request := by
  obtain ⟨authorization, endpoint⟩ := request
  have hnone {response : Response F} (h : response.body.pointCounts = []) :
      (∀ n ∈ response.body.pointCounts, n ≤ limit) ↔ True := by simp [h]
  unfold serve
  cases endpoint with
  | healthz => exact hnone rfl
  | readyz => exact hnone rfl
  | createQueryToken body adminToken =>
    dsimp only
    split
    · exact hnone rfl
    · refine hnone (respond_pointCounts fun body hbody => ?_)
      obtain ⟨issued, rfl⟩ := createQueryToken_ok hbody
      rfl
  | searchDevices search limit =>
    dsimp only
    split
    · exact hnone (respond_pointCounts fun _ => getDevices_pointCounts)
    · exact hnone rfl
  | listStreams deviceId => exact hnone (respond_pointCounts fun _ => getStreams_pointCounts)
  | getSeries deviceId key from_ to_ param =>
    cases from_ with
    | none => exact hnone rfl
    | some from_ =>
      cases to_ with
      | none => exact hnone rfl
      | some to_ =>
        dsimp only [KeepsLimit]
        cases hparam : param.value settings.maxPointsDefault (1 ≤ ·) with
        | none => exact iff_of_true (hnone rfl |>.mpr trivial) nofun
        | some maxPoints =>
          simp only [Option.some.injEq]
          refine (getSeries_le_iff hreachable.bounded hlimit howned).trans ?_
          exact ⟨fun h _ start stop heq => heq ▸ h start stop,
            fun h start stop => h maxPoints start stop rfl⟩
  | getSummary deviceId key from_ to_ =>
    cases from_ with
    | none => exact hnone rfl
    | some from_ =>
      cases to_ with
      | none => exact hnone rfl
      | some to_ => exact getSummary_le_iff
  | getFrames deviceId key from_ to_ =>
    dsimp only
    split
    · exact hnone (respond_pointCounts fun _ => getFrames_pointCounts)
    · exact hnone rfl

def wholePoint (key : String) (eventTime : Timestamptz) (value : Int) : StoredPoint where
  eventTime := eventTime
  eventTimeNs := none
  receivedAt := eventTime
  device := "device".toList
  boot := ("device".toList, "boot".toList)
  metric := ⟨key.toList, [], "int".toList⟩
  sequence := 0
  metricIndex := 0
  schemaVersion := 1
  firmwareVersion := none
  uptimeMs := none
  sourceIp := none
  valueDouble := none
  valueInt := some (.int value)
  valueBool := none
  valueString := none
  valueBytesHex := none
  requestId := "request".toList

def metricState (points : List StoredPoint) : State Int :=
  ⟨⟨⟨["device".toList], points, []⟩, [], Keyed.empty _⟩, Keyed.empty _⟩

def summaryRequest (token : String) : Request :=
  ⟨some ("Bearer ".toList ++ token.toList), .getSummary "device".toList "imu".toList
    (some fromText) (some toText)⟩

theorem points_le_series :
    let state := metricState [wholePoint "imu" 100 7, wholePoint "imu" 200 8]
    ∀ n ∈ (serve wholeService wholeSettings wholeMoment state
      (seriesRequest "guest" "device")).1.body.pointCounts, n ≤ 1 := by
  intro state
  refine (points_le_iff (.start state.store) wholeMoment guest 1 rfl
    (ownedBy_guest rfl wholeMoment)).mpr fun maxPoints start stop hparam _ => .inl ?_
  obtain rfl := Option.some.inj hparam
  decide

/-- The limit is one point, the summary of a metric with two has two. -/
theorem points_le_not_summary :
    let state := metricState [wholePoint "imu" 100 7, wholePoint "imu" 200 8]
    Reachable wholeService wholeSettings state ∧
      OwnedBy wholeService wholeSettings guest wholeMoment (summaryRequest "guest") ∧
      guest.maxPoints = some 1 ∧
      (serve wholeService wholeSettings wholeMoment state
        (summaryRequest "guest")).1.body.pointCounts = [2] ∧
      ¬∀ n ∈ (serve wholeService wholeSettings wholeMoment state
        (summaryRequest "guest")).1.body.pointCounts, n ≤ 1 := by
  intro state
  have hcounts : (serve wholeService wholeSettings wholeMoment state
      (summaryRequest "guest")).1.body.pointCounts = [2] := by decide +kernel
  refine ⟨.start state.store, ownedBy_guest rfl wholeMoment, rfl, hcounts, ?_⟩
  rw [hcounts]
  decide

end Aetus.Query
