import Aetus.Query.SummaryFaithful
import Aetus.Query.View

/-!
Two states that agree on what a principal may read answer all of its requests alike.
-/

set_option autoImplicit false

namespace Aetus.Query
open Aetus.Base Aetus.Postgres

variable {F : Type} {service : Service F} {settings : Settings} {moment : Moment}
  {principal : QueryPrincipal} {state : State F} {deviceId key : List Char}

def cacheKinds : List String := ["series", "summary"]

theorem cacheKey_inj {isoformat : Timestamptz → List Char} {kind kind' : String}
    {deviceId' key' : List Char} {start stop start' stop' : Timestamptz} {maxPoints maxPoints' : Int}
    (hkind : kind ∈ cacheKinds) (hkind' : kind' ∈ cacheKinds)
    (h : cacheKey isoformat kind deviceId key start stop maxPoints =
      cacheKey isoformat kind' deviceId' key' start' stop' maxPoints') :
    kind = kind' ∧ deviceId = deviceId' ∧ key = key' ∧ maxPoints = maxPoints' := by
  have hcolon {kind : String} (hkind : kind ∈ cacheKinds) : ':' ∉ kind.toList := by
    simp only [cacheKinds, List.mem_cons, List.not_mem_nil, or_false] at hkind
    rcases hkind with rfl | rfl <;> decide
  unfold cacheKey at h
  obtain ⟨hkinds, h⟩ := append_sep_inj (hcolon hkind) (hcolon hkind')
    (List.cons.inj (List.append_cancel_left h)).2
  obtain ⟨hdevices, h⟩ := append_sep_inj (colon_not_mem_quote _) (colon_not_mem_quote _) h
  obtain ⟨hkeys, h⟩ := append_sep_inj (colon_not_mem_quote _) (colon_not_mem_quote _) h
  -- the times may have colons themselves
  rw [← List.cons_append, ← List.append_assoc, ← List.cons_append, ← List.append_assoc] at h
  obtain ⟨-, hpoints⟩ := append_sep_inj_right (colon_not_mem_dumpsInt _) (colon_not_mem_dumpsInt _) h
  exact ⟨String.toList_injective hkinds, quote_injective hdevices, quote_injective hkeys,
    dumpsInt_injective hpoints⟩

/-- Every cached response is about the stream that its key names. -/
def CacheSound (isoformat : Timestamptz → List Char) (state : State F) : Prop :=
  ∀ row ∈ state.cache.rows, ∃ kind ∈ cacheKinds, ∃ start stop maxPoints,
    row.key = cacheKey isoformat kind row.body.deviceId row.body.key start stop maxPoints

def State.view (principal : QueryPrincipal) (state : State F) : State F where
  store := state.store.view principal
  cache := state.cache.delete fun row => !principal.reads row.body.deviceId row.body.key

theorem CacheSound.reads (h : CacheSound service.isoformat state) {kind : String}
    (hkind : kind ∈ cacheKinds) (hreads : principal.reads deviceId key = true)
    {start stop : Timestamptz} {maxPoints : Int} : ∀ row ∈ state.cache.rows,
      row.key = cacheKey service.isoformat kind deviceId key start stop maxPoints →
      principal.reads row.body.deviceId row.body.key = true := by
  intro row hrow hkey
  obtain ⟨kind', hkind', start', stop', maxPoints', hrowkey⟩ := h row hrow
  obtain ⟨-, hdevice, hstream, -⟩ := cacheKey_inj hkind' hkind (hrowkey.symm.trans hkey)
  rw [hdevice, hstream]
  exact hreads

theorem mem_of_getJson {cacheKey : List Char} {cached : StreamBody F}
    (h : state.getJson settings moment cacheKey = some cached) :
    ∃ row ∈ state.cache.rows, row.key = cacheKey ∧ row.body = cached := by
  unfold State.getJson at h
  split at h
  · obtain ⟨row, hfind, hbody⟩ := Option.bind_eq_some_iff.mp h
    obtain ⟨hrow, hkey⟩ := mem_of_findBy hfind
    split at hbody
    · exact ⟨row, hrow, hkey, Option.some.inj hbody⟩
    · cases hbody
  · cases h

theorem getJson_view (h : CacheSound service.isoformat state) {kind : String}
    (hkind : kind ∈ cacheKinds) (hreads : principal.reads deviceId key = true)
    (start stop : Timestamptz) (maxPoints : Int) :
    (state.view principal).getJson settings moment
        (cacheKey service.isoformat kind deviceId key start stop maxPoints) =
      state.getJson settings moment
        (cacheKey service.isoformat kind deviceId key start stop maxPoints) := by
  have hfind : findBy CacheRow.key (cacheKey service.isoformat kind deviceId key start stop maxPoints)
      (state.view principal).cache.rows = findBy CacheRow.key
        (cacheKey service.isoformat kind deviceId key start stop maxPoints) state.cache.rows :=
    findBy_filter fun row hrow hkey => by simp [h.reads hkind hreads row hrow hkey]
  rw [State.getJson, State.getJson, hfind]

theorem setJson_view (h : CacheSound service.isoformat state) {kind : String}
    (hkind : kind ∈ cacheKinds) (hreads : principal.reads deviceId key = true)
    (start stop : Timestamptz) (maxPoints : Int) (content : StreamContent F) :
    (state.view principal).setJson settings moment
        (cacheKey service.isoformat kind deviceId key start stop maxPoints) ⟨deviceId, key, content⟩ =
      (state.setJson settings moment (cacheKey service.isoformat kind deviceId key start stop maxPoints)
        ⟨deviceId, key, content⟩).view principal := by
  unfold State.setJson
  split
  · rw [State.view, State.view, Keyed.delete_upsert (by simp [hreads])]
    exact fun row hrow hkey => by simp [h.reads hkind hreads row hrow hkey]
  · rfl

theorem CacheSound.setJson (h : CacheSound service.isoformat state) {kind : String}
    (hkind : kind ∈ cacheKinds) (start stop : Timestamptz) (maxPoints : Int)
    (content : StreamContent F) : CacheSound service.isoformat
      (state.setJson settings moment (cacheKey service.isoformat kind deviceId key start stop maxPoints)
        ⟨deviceId, key, content⟩) := by
  unfold State.setJson
  split
  · intro row hrow
    rcases mem_upsertBy.mp hrow with rfl | ⟨hold, -⟩
    · exact ⟨kind, hkind, start, stop, maxPoints, rfl⟩
    · exact h row hold
  · exact h

/-! What the handlers read -/

theorem findStream_view (h : principal.reads deviceId key = true) {store : Store F} :
    findStream service (store.view principal) deviceId key = findStream service store deviceId key := by
  obtain ⟨hdevice, hkey⟩ := Bool.and_eq_true_iff.mp h
  rw [findStream, listStreams_view _ hdevice, List.find?_filter, findStream]
  congr 1
  funext stream
  by_cases hstream : stream.key = key
  · simp [hstream, hkey]
  · simp [hstream]

structure Confined (principal : QueryPrincipal) (deviceId key : List Char)
    (read : Store F → Except Failure (Store F × StreamBody F)) : Prop where
  view : ∀ store : Store F, read (store.view principal) =
    (read store).map fun result => (result.1.view principal, result.2)
  about : ∀ store store' body, read store = .ok (store', body) →
    ∃ content, body = ⟨deviceId, key, content⟩

variable (service settings moment) in
theorem readSeries_confined (h : principal.reads deviceId key = true) (start stop : Timestamptz)
    (maxPoints : Int) : Confined principal deviceId key
      fun store => readSeries service store deviceId key start stop maxPoints where
  view := fun store => by
    simp only [readSeries, findStream_view h]
    split
    · rfl
    · next stream _ =>
      cases stream.kind with
      | scalar =>
        dsimp only
        rw [scalarSeries_view h]
        rfl
      | sampled =>
        dsimp only
        rw [sampledSeries_view h]
        split <;> rfl
  about := fun store store' body hread => by
    simp only [readSeries] at hread
    split at hread
    · cases hread
    · split at hread
      · cases hread
        exact ⟨_, rfl⟩
      · split at hread
        · cases hread
        · cases hread
          exact ⟨_, rfl⟩

variable (service settings moment) in
theorem readSummary_confined (h : principal.reads deviceId key = true) (start stop : Timestamptz) :
    Confined principal deviceId key
      fun store => readSummary service settings moment store deviceId key start stop where
  view := fun store => by
    simp only [readSummary, findStream_view h]
    split
    · rfl
    · next stream _ =>
      cases stream.kind with
      | scalar =>
        dsimp only
        rw [scalarSeries_view h]
        rfl
      | sampled =>
        dsimp only
        rw [summary_view h]
        cases summary service.toPlatform store deviceId key start stop settings.featureTtlSeconds
          moment.clock moment.dbClock <;> rfl
  about := fun store store' body hread => by
    simp only [readSummary] at hread
    split at hread
    · cases hread
    · split at hread
      · cases hread
        exact ⟨_, rfl⟩
      · split at hread
        · cases hread
        · cases hread
          exact ⟨_, rfl⟩

theorem readFrames_view (h : principal.reads deviceId key = true) {store : Store F}
    (start stop : Timestamptz) :
    readFrames service (store.view principal) deviceId key start stop =
      readFrames service store deviceId key start stop := by
  rw [readFrames, findStream_view h, readFrames]
  split
  · rfl
  · next stream _ =>
    cases stream.kind with
    | scalar => rfl
    | sampled =>
      dsimp only
      rw [frames_view h]

theorem throughCache_view (hsound : CacheSound service.isoformat state) {kind : String}
    (hkind : kind ∈ cacheKinds) (hreads : principal.reads deviceId key = true)
    (start stop : Timestamptz) (maxPoints : Int)
    {read : Store F → Except Failure (Store F × StreamBody F)}
    (hread : Confined principal deviceId key read) :
    throughCache settings moment (state.view principal)
        (cacheKey service.isoformat kind deviceId key start stop maxPoints) read =
      ((throughCache settings moment state
          (cacheKey service.isoformat kind deviceId key start stop maxPoints) read).1,
        (throughCache settings moment state
          (cacheKey service.isoformat kind deviceId key start stop maxPoints) read).2.view principal) := by
  have hview : read (state.view principal).store =
      (read state.store).map fun result => (result.1.view principal, result.2) :=
    hread.view state.store
  unfold throughCache
  rw [getJson_view hsound hkind hreads, hview]
  split
  · rfl
  · cases hresult : read state.store with
    | error e => rfl
    | ok result =>
      obtain ⟨store, body⟩ := result
      obtain ⟨content, rfl⟩ := hread.about state.store store body hresult
      have hsound' : CacheSound service.isoformat { state with store := store } := hsound
      exact Prod.ext rfl (setJson_view hsound' hkind hreads start stop maxPoints content)

theorem throughCache_sound (hsound : CacheSound service.isoformat state) {kind : String}
    (hkind : kind ∈ cacheKinds) (start stop : Timestamptz) (maxPoints : Int)
    {read : Store F → Except Failure (Store F × StreamBody F)}
    (habout : ∀ store store' body, read store = .ok (store', body) →
      ∃ content, body = ⟨deviceId, key, content⟩) :
    CacheSound service.isoformat (throughCache settings moment state
      (cacheKey service.isoformat kind deviceId key start stop maxPoints) read).2 := by
  unfold throughCache
  split
  · exact hsound
  · cases hresult : read state.store with
    | error e => exact hsound
    | ok result =>
      obtain ⟨store, body⟩ := result
      obtain ⟨content, rfl⟩ := habout state.store store body hresult
      have hsound' : CacheSound service.isoformat { state with store := store } := hsound
      exact hsound'.setJson hkind start stop maxPoints content

/-! The checks before the handlers read -/

variable {authorization : Option (List Char)} {scope : String} {from_ to_ : List Char}
  {maxPoints : Int} {range : Timestamptz × Timestamptz} {q : QueryPrincipal}

theorem authorize_ok (h : authorize service settings moment authorization scope deviceId key = .ok q) :
    authenticateQuery service.tokens service.unicode settings authorization scope moment.tokenClock =
        .ok q ∧ q.reads deviceId key = true := by
  obtain ⟨q', hauth, h⟩ := except_bind_eq_ok.mp h
  obtain ⟨_, hdevice, h⟩ := except_bind_eq_ok.mp h
  obtain ⟨_, hstream, h⟩ := except_bind_eq_ok.mp h
  obtain rfl := Except.ok.inj h
  refine ⟨hauth, ?_⟩
  unfold enforceDeviceAccess at hdevice
  unfold enforceStreamAccess at hstream
  split at hdevice
  · cases hdevice
  · split at hstream
    · cases hstream
    · simp_all [QueryPrincipal.reads]

theorem seriesRange_ok (h : seriesRange service settings moment authorization deviceId key from_ to_
    maxPoints = .ok range) :
    ∃ q, authorize service settings moment authorization "query:read" deviceId key = .ok q ∧
      enforceQueryLimits q (range.2 - range.1) (some maxPoints) = .ok () := by
  obtain ⟨q, hauth, h⟩ := except_bind_eq_ok.mp h
  split at h
  · cases h
  · obtain ⟨range', -, h⟩ := except_bind_eq_ok.mp h
    obtain ⟨_, hlimits, h⟩ := except_bind_eq_ok.mp h
    obtain rfl := Except.ok.inj h
    exact ⟨q, hauth, hlimits⟩

theorem summaryRange_ok (h : summaryRange service settings moment authorization deviceId key from_ to_ =
    .ok range) :
    ∃ q, authorize service settings moment authorization "query:read" deviceId key = .ok q := by
  obtain ⟨q, hauth, -⟩ := except_bind_eq_ok.mp h
  exact ⟨q, hauth⟩

theorem framesRange_ok (h : framesRange service settings moment authorization deviceId key from_ to_ =
    .ok range) :
    ∃ q, authorize service settings moment authorization "frames:read" deviceId key = .ok q := by
  obtain ⟨q, hauth, -⟩ := except_bind_eq_ok.mp h
  exact ⟨q, hauth⟩

theorem getFrames_ok {store : Store F} {body : Body F}
    (h : getFrames service settings moment store authorization deviceId key from_ to_ = .ok body) :
    (∃ q, authorize service settings moment authorization "frames:read" deviceId key = .ok q) ∧
      ∃ response, body = .stream ⟨deviceId, key, .frames response⟩ := by
  obtain ⟨range, hrange, h⟩ := except_bind_eq_ok.mp h
  obtain ⟨stream, hread, h⟩ := except_bind_eq_ok.mp h
  obtain rfl := Except.ok.inj h
  refine ⟨framesRange_ok hrange, ?_⟩
  unfold readFrames at hread
  split at hread
  · cases hread
  · split at hread
    · cases hread
    · split at hread
      · cases hread
      · next response _ => exact ⟨response, congrArg Body.stream (Except.ok.inj hread).symm⟩

theorem createQueryToken_ok {request : TokenRequest} {adminToken : Option (List Char)} {body : Body F}
    (h : createQueryToken service settings moment request adminToken = .ok body) :
    ∃ issued, body = .token issued := by
  obtain ⟨_, -, h⟩ := except_bind_eq_ok.mp h
  exact ⟨_, (Except.ok.inj h).symm⟩

/-! Whole requests -/

def OwnedBy (service : Service F) (settings : Settings) (principal : QueryPrincipal)
    (moment : Moment) (request : Request) : Prop :=
  ∀ scope q, authenticateQuery service.tokens service.unicode settings request.authorization scope
    moment.tokenClock = .ok q → q = principal

theorem getDevices_view (howned : ∀ q, authenticateQuery service.tokens service.unicode settings
      authorization "streams:list" moment.tokenClock = .ok q → q = principal)
    (store : Store F) (search : List Char) (limit : Int) :
    getDevices service settings moment (store.view principal) authorization search limit =
      getDevices service settings moment store authorization search limit := by
  unfold getDevices
  cases hauth : authenticateQuery service.tokens service.unicode settings authorization "streams:list"
    moment.tokenClock with
  | error e => rfl
  | ok q =>
    obtain rfl := howned q hauth
    have hread : readDevices service.toPlatform (store.view q) q search limit =
        readDevices service.toPlatform store q search limit := by
      unfold readDevices
      dsimp only
      split
      · next hall => rw [searchDevices_view _ hall]
      · rfl
    show readDevices service.toPlatform (store.view q) q search limit >>= _ = _ >>= _
    rw [hread]
    rfl

theorem getStreams_view (howned : ∀ q, authenticateQuery service.tokens service.unicode settings
      authorization "streams:list" moment.tokenClock = .ok q → q = principal)
    (store : Store F) (deviceId : List Char) :
    getStreams service settings moment (store.view principal) authorization deviceId =
      getStreams service settings moment store authorization deviceId := by
  unfold getStreams
  cases hauth : authenticateQuery service.tokens service.unicode settings authorization "streams:list"
    moment.tokenClock with
  | error e => rfl
  | ok q =>
    obtain rfl := howned q hauth
    show enforceDeviceAccess q deviceId >>= _ = enforceDeviceAccess q deviceId >>= _
    unfold enforceDeviceAccess
    split
    · rfl
    · next hdevice =>
      have hread : q.canReadDevice deviceId = true := by simpa using hdevice
      show Except.ok _ = Except.ok _
      rw [listStreams_view _ hread, List.filter_filter]
      simp

theorem reads_of_authorize (howned : ∀ scope q, authenticateQuery service.tokens service.unicode
      settings authorization scope moment.tokenClock = .ok q → q = principal)
    (h : authorize service settings moment authorization scope deviceId key = .ok q) :
    principal.reads deviceId key = true := by
  obtain ⟨hauth, hreads⟩ := authorize_ok h
  rw [← howned scope q hauth]
  exact hreads

theorem getSeries_view (hsound : CacheSound service.isoformat state)
    (howned : ∀ scope q, authenticateQuery service.tokens service.unicode settings authorization scope
      moment.tokenClock = .ok q → q = principal) :
    getSeries service settings moment (state.view principal) authorization deviceId key from_ to_
        maxPoints =
      ((getSeries service settings moment state authorization deviceId key from_ to_ maxPoints).1,
        (getSeries service settings moment state authorization deviceId key from_ to_
          maxPoints).2.view principal) := by
  unfold getSeries
  cases hrange : seriesRange service settings moment authorization deviceId key from_ to_ maxPoints with
  | error e => rfl
  | ok range =>
    obtain ⟨q, hauth, -⟩ := seriesRange_ok hrange
    have hreads := reads_of_authorize howned hauth
    exact throughCache_view hsound (by simp [cacheKinds]) hreads range.1 range.2 maxPoints
      (readSeries_confined service hreads range.1 range.2 maxPoints)

theorem getSummary_view (hsound : CacheSound service.isoformat state)
    (howned : ∀ scope q, authenticateQuery service.tokens service.unicode settings authorization scope
      moment.tokenClock = .ok q → q = principal) :
    getSummary service settings moment (state.view principal) authorization deviceId key from_ to_ =
      ((getSummary service settings moment state authorization deviceId key from_ to_).1,
        (getSummary service settings moment state authorization deviceId key from_ to_).2.view
          principal) := by
  unfold getSummary
  cases hrange : summaryRange service settings moment authorization deviceId key from_ to_ with
  | error e => rfl
  | ok range =>
    obtain ⟨q, hauth⟩ := summaryRange_ok hrange
    have hreads := reads_of_authorize howned hauth
    exact throughCache_view hsound (by simp [cacheKinds]) hreads range.1 range.2 0
      (readSummary_confined service settings moment hreads range.1 range.2)

theorem getFrames_view (howned : ∀ scope q, authenticateQuery service.tokens service.unicode settings
      authorization scope moment.tokenClock = .ok q → q = principal) (store : Store F) :
    getFrames service settings moment (store.view principal) authorization deviceId key from_ to_ =
      getFrames service settings moment store authorization deviceId key from_ to_ := by
  unfold getFrames
  cases hrange : framesRange service settings moment authorization deviceId key from_ to_ with
  | error e => rfl
  | ok range =>
    obtain ⟨q, hauth⟩ := framesRange_ok hrange
    show readFrames service (store.view principal) deviceId key range.1 range.2 >>= _ =
      readFrames service store deviceId key range.1 range.2 >>= _
    rw [readFrames_view (reads_of_authorize howned hauth)]

theorem getSeries_sound (hsound : CacheSound service.isoformat state) :
    CacheSound service.isoformat (getSeries service settings moment state authorization deviceId key
      from_ to_ maxPoints).2 := by
  unfold getSeries
  cases hrange : seriesRange service settings moment authorization deviceId key from_ to_ maxPoints with
  | error e => exact hsound
  | ok range =>
    obtain ⟨q, hauth, -⟩ := seriesRange_ok hrange
    exact throughCache_sound hsound (by simp [cacheKinds]) range.1 range.2 maxPoints
      (readSeries_confined service (authorize_ok hauth).2 range.1 range.2 maxPoints).about

theorem getSummary_sound (hsound : CacheSound service.isoformat state) :
    CacheSound service.isoformat (getSummary service settings moment state authorization deviceId key
      from_ to_).2 := by
  unfold getSummary
  cases hrange : summaryRange service settings moment authorization deviceId key from_ to_ with
  | error e => exact hsound
  | ok range =>
    obtain ⟨q, hauth⟩ := summaryRange_ok hrange
    exact throughCache_sound hsound (by simp [cacheKinds]) range.1 range.2 0
      (readSummary_confined service settings moment (authorize_ok hauth).2 range.1 range.2).about

/-- Served from what the principal may read, a request is answered in the same way, and leaves
what the principal may read of the next state. -/
theorem serve_view (hsound : CacheSound service.isoformat state) {request : Request}
    (howned : OwnedBy service settings principal moment request) :
    serve service settings moment (state.view principal) request =
      ((serve service settings moment state request).1,
        (serve service settings moment state request).2.view principal) := by
  obtain ⟨authorization, endpoint⟩ := request
  unfold serve
  cases endpoint with
  | healthz => rfl
  | readyz => rfl
  | createQueryToken body adminToken =>
    dsimp only
    split <;> rfl
  | searchDevices search limit =>
    dsimp only
    split
    · exact Prod.ext (congrArg respond (getDevices_view (howned _) state.store _ _)) rfl
    · rfl
  | listStreams deviceId =>
    exact Prod.ext (congrArg respond (getStreams_view (howned _) state.store deviceId)) rfl
  | getSeries deviceId key from_ to_ maxPoints =>
    dsimp only
    split
    · exact getSeries_view hsound howned
    · rfl
  | getSummary deviceId key from_ to_ =>
    dsimp only
    split
    · exact getSummary_view hsound howned
    · rfl
  | getFrames deviceId key from_ to_ =>
    dsimp only
    split
    · exact Prod.ext (congrArg respond (getFrames_view howned state.store)) rfl
    · rfl

theorem serve_state (service : Service F) (settings : Settings) (moment : Moment) (state : State F)
    (request : Request) :
    (serve service settings moment state request).2 = state ∨
      (∃ deviceId key from_ to_ maxPoints, (serve service settings moment state request).2 =
        (getSeries service settings moment state request.authorization deviceId key from_ to_
          maxPoints).2) ∨
      ∃ deviceId key from_ to_, (serve service settings moment state request).2 =
        (getSummary service settings moment state request.authorization deviceId key from_ to_).2 := by
  obtain ⟨authorization, endpoint⟩ := request
  unfold serve
  cases endpoint with
  | healthz => exact .inl rfl
  | readyz => exact .inl rfl
  | createQueryToken body adminToken =>
    dsimp only
    split <;> exact .inl rfl
  | searchDevices search limit =>
    dsimp only
    split <;> exact .inl rfl
  | listStreams deviceId => exact .inl rfl
  | getSeries deviceId key from_ to_ maxPoints =>
    dsimp only
    split
    · exact .inr (.inl ⟨_, _, _, _, _, rfl⟩)
    · exact .inl rfl
  | getSummary deviceId key from_ to_ =>
    dsimp only
    split
    · exact .inr (.inr ⟨_, _, _, _, rfl⟩)
    · exact .inl rfl
  | getFrames deviceId key from_ to_ =>
    dsimp only
    split <;> exact .inl rfl

/-- Whoever asks, a cached response is about the stream of its key. -/
theorem serve_sound (hsound : CacheSound service.isoformat state) (moment : Moment)
    (request : Request) : CacheSound service.isoformat
      (serve service settings moment state request).2 := by
  rcases serve_state service settings moment state request with
    hsame | ⟨_, _, _, _, _, hseries⟩ | ⟨_, _, _, _, hsummary⟩
  · rwa [hsame]
  · rw [hseries]
    exact getSeries_sound hsound
  · rw [hsummary]
    exact getSummary_sound hsound

def Body.Within (principal : QueryPrincipal) : Body F → Prop
  | .devices deviceIds => ∀ deviceId ∈ deviceIds, principal.canReadDevice deviceId = true
  | .streams deviceId listed => principal.canReadDevice deviceId = true ∧
      ∀ stream ∈ listed, principal.canReadStream stream.key = true
  | .stream body => principal.reads body.deviceId body.key = true
  | _ => True

theorem failed_within (e : Failure) : (failed e : Response F).body.Within principal := by
  cases e <;> trivial

theorem respond_within {result : Except Failure (Body F)}
    (h : ∀ body, result = .ok body → body.Within principal) :
    (respond result).body.Within principal := by
  cases result with
  | error e => exact failed_within e
  | ok body => exact h body rfl

theorem getDevices_within (howned : ∀ q, authenticateQuery service.tokens service.unicode settings
      authorization "streams:list" moment.tokenClock = .ok q → q = principal)
    {store : Store F} {search : List Char} {limit : Int} {body : Body F}
    (h : getDevices service settings moment store authorization search limit = .ok body) :
    body.Within principal := by
  obtain ⟨q, hauth, h⟩ := except_bind_eq_ok.mp h
  obtain rfl := howned q hauth
  obtain ⟨devices, hread, h⟩ := except_bind_eq_ok.mp h
  cases h
  intro deviceId hdevice
  unfold readDevices at hread
  dsimp only at hread
  split at hread
  · next hall => simp [QueryPrincipal.canReadDevice, hall]
  · cases hread
    have hmem := List.mem_of_mem_filter (List.mem_of_mem_take hdevice)
    simp only [sortedSet, List.mem_insertionSort, List.mem_dedup] at hmem
    simp [QueryPrincipal.canReadDevice, hmem]

theorem getStreams_within (howned : ∀ q, authenticateQuery service.tokens service.unicode settings
      authorization "streams:list" moment.tokenClock = .ok q → q = principal)
    {store : Store F} {body : Body F}
    (h : getStreams service settings moment store authorization deviceId = .ok body) :
    body.Within principal := by
  obtain ⟨q, hauth, h⟩ := except_bind_eq_ok.mp h
  obtain rfl := howned q hauth
  obtain ⟨_, hdevice, h⟩ := except_bind_eq_ok.mp h
  cases h
  unfold enforceDeviceAccess at hdevice
  split at hdevice
  · cases hdevice
  · next hread => exact ⟨by simpa using hread, fun stream hstream => (List.mem_filter.mp hstream).2⟩

theorem throughCache_within (hsound : CacheSound service.isoformat state) {kind : String}
    (hkind : kind ∈ cacheKinds) (hreads : principal.reads deviceId key = true)
    (start stop : Timestamptz) (maxPoints : Int)
    {read : Store F → Except Failure (Store F × StreamBody F)}
    (hread : Confined principal deviceId key read) :
    (throughCache settings moment state
      (cacheKey service.isoformat kind deviceId key start stop maxPoints) read).1.body.Within
        principal := by
  unfold throughCache
  split
  · next cached hcached =>
    obtain ⟨row, hrow, hkey, rfl⟩ := mem_of_getJson hcached
    exact hsound.reads hkind hreads row hrow hkey
  · cases hresult : read state.store with
    | error e => exact failed_within e
    | ok result =>
      obtain ⟨store, body⟩ := result
      obtain ⟨content, rfl⟩ := hread.about state.store store body hresult
      exact hreads

theorem getSeries_within (hsound : CacheSound service.isoformat state)
    (howned : ∀ scope q, authenticateQuery service.tokens service.unicode settings authorization
      scope moment.tokenClock = .ok q → q = principal) :
    (getSeries service settings moment state authorization deviceId key from_ to_
      maxPoints).1.body.Within principal := by
  unfold getSeries
  split
  · exact failed_within _
  · next hrange =>
    obtain ⟨q, hauth, -⟩ := seriesRange_ok hrange
    have hreads := reads_of_authorize howned hauth
    exact throughCache_within hsound (by simp [cacheKinds]) hreads _ _ _
      (readSeries_confined service hreads _ _ _)

theorem getSummary_within (hsound : CacheSound service.isoformat state)
    (howned : ∀ scope q, authenticateQuery service.tokens service.unicode settings authorization
      scope moment.tokenClock = .ok q → q = principal) :
    (getSummary service settings moment state authorization deviceId key from_ to_).1.body.Within
      principal := by
  unfold getSummary
  split
  · exact failed_within _
  · next hrange =>
    obtain ⟨q, hauth⟩ := summaryRange_ok hrange
    have hreads := reads_of_authorize howned hauth
    exact throughCache_within hsound (by simp [cacheKinds]) hreads _ _ _
      (readSummary_confined service settings moment hreads _ _)

/-- A response tells a principal only of what it may read. -/
theorem serve_within (hsound : CacheSound service.isoformat state) {request : Request}
    (howned : OwnedBy service settings principal moment request) :
    (serve service settings moment state request).1.body.Within principal := by
  obtain ⟨authorization, endpoint⟩ := request
  unfold serve
  cases endpoint with
  | healthz => trivial
  | readyz => trivial
  | createQueryToken body adminToken =>
    dsimp only
    split
    · trivial
    · refine respond_within fun body hbody => ?_
      obtain ⟨issued, rfl⟩ := createQueryToken_ok hbody
      trivial
  | searchDevices search limit =>
    dsimp only
    split
    · exact respond_within fun body hbody => getDevices_within (howned _) hbody
    · trivial
  | listStreams deviceId => exact respond_within fun body hbody => getStreams_within (howned _) hbody
  | getSeries deviceId key from_ to_ maxPoints =>
    dsimp only
    split
    · exact getSeries_within hsound howned
    · trivial
  | getSummary deviceId key from_ to_ =>
    dsimp only
    split
    · exact getSummary_within hsound howned
    · trivial
  | getFrames deviceId key from_ to_ =>
    dsimp only
    split
    · refine respond_within fun body hbody => ?_
      obtain ⟨⟨q, hauth⟩, response, rfl⟩ := getFrames_ok hbody
      exact reads_of_authorize howned hauth
    · trivial

/-- Where requests of any principals, and changes of the database in between, lead. -/
inductive Reachable (service : Service F) (settings : Settings) : State F → Prop where
  | start (store : Store F) : Reachable service settings ⟨store, Keyed.empty _⟩
  | stored {state : State F} (store : Store F) (h : Reachable service settings state) :
    Reachable service settings { state with store := store }
  | served {state : State F} (moment : Moment) (request : Request)
    (h : Reachable service settings state) :
    Reachable service settings (serve service settings moment state request).2

theorem Reachable.sound (h : Reachable service settings state) :
    CacheSound service.isoformat state := by
  induction h with
  | start store => exact nofun
  | stored store h ih => exact ih
  | served moment request h ih => exact serve_sound ih moment request

variable {requests : List (Moment × Request)}

/-- A principal's whole traffic is answered from its view alone. -/
theorem serveAll_view (hsound : CacheSound service.isoformat state)
    (howned : ∀ entry ∈ requests, OwnedBy service settings principal entry.1 entry.2) :
    serveAll service settings (state.view principal) requests =
      serveAll service settings state requests := by
  induction requests generalizing state with
  | nil => rfl
  | cons entry requests ih =>
    obtain ⟨moment, request⟩ := entry
    have hserve := serve_view hsound (howned _ List.mem_cons_self)
    simp only [serveAll, hserve]
    rw [ih (serve_sound hsound moment request) fun e he => howned e (List.mem_cons_of_mem _ he)]

theorem serveAll_within (hsound : CacheSound service.isoformat state)
    (howned : ∀ entry ∈ requests, OwnedBy service settings principal entry.1 entry.2) :
    ∀ response ∈ serveAll service settings state requests, response.body.Within principal := by
  induction requests generalizing state with
  | nil => exact nofun
  | cons entry requests ih =>
    obtain ⟨moment, request⟩ := entry
    intro response hresponse
    rcases List.mem_cons.mp hresponse with rfl | hrest
    · exact serve_within hsound (howned _ List.mem_cons_self)
    · exact ih (serve_sound hsound moment request) (fun e he => howned e (List.mem_cons_of_mem _ he))
        response hrest

/-- Two states that agree on what a principal may read, rows and cached responses, answer every
sequence of its requests with the same statuses and bodies, which tell of nothing else. -/
theorem responses_noninterfering (service : Service F) (settings : Settings)
    (principal : QueryPrincipal) {s t : State F} (hs : Reachable service settings s)
    (ht : Reachable service settings t) (hsame : s.view principal = t.view principal)
    (requests : List (Moment × Request))
    (howned : ∀ entry ∈ requests, OwnedBy service settings principal entry.1 entry.2) :
    serveAll service settings s requests = serveAll service settings t requests ∧
      ∀ response ∈ serveAll service settings s requests, response.body.Within principal := by
  refine ⟨?_, serveAll_within hs.sound howned⟩
  rw [← serveAll_view hs.sound howned, hsame, serveAll_view ht.sound howned]

/-- One token is for all devices, every other one for the device of the frames above. -/
def wholeService : Service Int where
  toPlatform := wholePlatform
  tokens := {
    encode := fun _ _ => []
    decode := fun token _ _ _ _ => some [
      ("scope".toList, .string ['*']),
      ("devices".toList, .string (if token = "operator".toList then ['*'] else "device".toList)),
      ("streams".toList, .string "imu".toList),
      ("max_points".toList, .int 1)]
    str := fun _ => []
    int := fun _ => none }
  fromisoformat := fun text =>
    if text = "1970-01-01T00:00:00+00:00".toList then some 0
    else if text = "1970-01-01T00:00:00.001000+00:00".toList then some 1000
    else none
  isoformat := Json.dumpsInt

def wholeSettings : Settings where
  redisUrl := some "redis".toList
  cacheTtlSeconds := 30
  featureTtlSeconds := 60
  maxRawDrilldownSeconds := 60
  maxPointsDefault := 1500
  maxPointsLimit := 10000
  queryAuthEnabled := true
  queryJwtSecret := []
  queryJwtIssuer := []
  queryJwtAudience := []
  queryJwtTtlSeconds := 900
  queryJwtMaxTtlSeconds := 3600
  queryAdminToken := []

def wholeMoment : Moment := ⟨5000, 5000, 5000, 0, true, true⟩

def fromText : List Char := "1970-01-01T00:00:00Z".toList

def toText : List Char := "1970-01-01T00:00:00.001000Z".toList

def seriesRequest (token deviceId : String) : Request :=
  ⟨some ("Bearer ".toList ++ token.toList), .getSeries deviceId.toList "imu".toList
    (some fromText) (some toText) (.given 1)⟩

def guest : QueryPrincipal := ⟨[['*']], ["device".toList], ["imu".toList], none, some 1⟩

theorem ownedBy_guest {request : Request}
    (h : bearerToken request.authorization = some "guest".toList) (moment : Moment) :
    OwnedBy wholeService wholeSettings guest moment request := by
  intro scope q hauth
  have hguest : authenticateQuery wholeService.tokens wholeService.unicode wholeSettings
      request.authorization scope moment.tokenClock =
        if !guest.hasScope scope.toList then .error (.http 403 "insufficient scope")
        else .ok guest := by
    rw [authenticateQuery, h]
    rfl
  rw [hguest] at hauth
  split at hauth
  · cases hauth
  · exact (Except.ok.inj hauth).symm

/-- In one state another device has a frame too. -/
theorem responses_noninterfering_otherDevice :
    let frame := int16Frame ["a".toList] 0 1 [1, 0]
    let store := oneFrameStore frame
    let both : Store Int := ⟨⟨["device".toList, "other".toList], [],
      [frame, { frame with device := "other".toList }]⟩, [], Keyed.empty _⟩
    let requests := [(wholeMoment, seriesRequest "guest" "device"),
      (wholeMoment, seriesRequest "guest" "other")]
    serveAll wholeService wholeSettings ⟨both, Keyed.empty _⟩ requests =
      serveAll wholeService wholeSettings ⟨store, Keyed.empty _⟩ requests := by
  intro frame store both requests
  refine (responses_noninterfering wholeService wholeSettings guest (.start both) (.start store) rfl
    requests fun entry hentry => ownedBy_guest ?_ entry.1).1
  simp only [requests, List.mem_cons, List.not_mem_nil, or_false] at hentry
  rcases hentry with rfl | rfl <;> rfl

end Aetus.Query
