import Aetus.Query.App

/-!
What a principal may read of the database, and that the repository reads no more for it.
-/

set_option autoImplicit false

namespace Aetus.Query
open Aetus.Base Aetus.Postgres

variable {F : Type}

def QueryPrincipal.reads (principal : QueryPrincipal) (deviceId key : List Char) : Bool :=
  principal.canReadDevice deviceId && principal.canReadStream key

def viewTelemetry (principal : QueryPrincipal) (telemetry : Telemetry) : Telemetry where
  devices := telemetry.devices.filter principal.canReadDevice
  points := telemetry.points.filter fun point => principal.reads point.device point.metric.metricKey
  frames := telemetry.frames.filter fun frame => principal.reads frame.device frame.signal.streamKey

/-- The rows about devices and streams that the principal may read. -/
def Store.view (principal : QueryPrincipal) (store : Store F) : Store F where
  telemetry := viewTelemetry principal store.telemetry
  rollups := store.rollups.filter fun row => principal.reads row.device row.signal.streamKey
  features := store.features.delete fun row => !principal.reads row.device row.signal.streamKey

variable {principal : QueryPrincipal} {store : Store F} {telemetry : Telemetry}
  {deviceId key : List Char} {start stop now dbNow expiresAt : Timestamptz}

theorem scalarSeries_view (h : principal.reads deviceId key = true) (maxPoints : Int) :
    scalarSeries (store.view principal) deviceId key start stop maxPoints =
      scalarSeries store deviceId key start stop maxPoints := by
  have hrows : scalarRows (viewTelemetry principal store.telemetry) deviceId key start stop =
      scalarRows store.telemetry deviceId key start stop := by
    rw [scalarRows, viewTelemetry, filter_filter_of_imp]
    · rfl
    · intro point _ hpoint
      obtain ⟨hdevice, hkey, -⟩ := of_decide_eq_true hpoint
      rw [hdevice, hkey]
      exact h
  simp only [scalarSeries, Store.view, hrows]

theorem readSignalFrames_view {reader : Reader F} (h : principal.reads deviceId key = true) :
    readSignalFrames reader (viewTelemetry principal telemetry) deviceId key start stop =
      readSignalFrames reader telemetry deviceId key start stop := by
  rw [readSignalFrames, Telemetry.framesBetween, viewTelemetry, filter_filter_of_imp]
  · rfl
  · intro frame _ hframe
    obtain ⟨hdevice, hkey, -⟩ := of_decide_eq_true hframe
    rw [hdevice, hkey]
    exact h

theorem sampledSeries_view (h : principal.reads deviceId key = true) (reader : Reader F)
    (maxPoints : Int) :
    sampledSeries reader (store.view principal) deviceId key start stop maxPoints =
      sampledSeries reader store deviceId key start stop maxPoints := by
  have hrollups : rollupRows (store.view principal) deviceId key start stop =
      rollupRows store deviceId key start stop := by
    rw [rollupRows, Store.view, filter_filter_of_imp]
    · rfl
    · intro row _ hrow
      obtain ⟨hdevice, hkey, -⟩ := of_decide_eq_true hrow
      rw [hdevice, hkey]
      exact h
  rw [sampledSeries, hrollups, Store.view, readSignalFrames_view h]
  rfl

theorem frames_view (h : principal.reads deviceId key = true) (reader : Reader F) :
    frames reader (store.view principal) deviceId key start stop =
      frames reader store deviceId key start stop := by
  rw [frames, Store.view, readSignalFrames_view h]
  rfl

/-! Streams -/

theorem scalarStream_key {points : List StoredPoint} {metric : MetricDefinition}
    {stream : StreamRef F} (h : scalarStream points metric = some stream) :
    stream.key = metric.metricKey := by
  obtain ⟨latest, -, rfl⟩ := Option.map_eq_some_iff.mp h
  rfl

theorem sampledStream_key {reader : Reader F} {frames : List StoredFrame} {signal : StreamDefinition}
    {stream : StreamRef F} (h : sampledStream reader frames signal = some stream) :
    stream.key = signal.streamKey := by
  unfold sampledStream at h
  dsimp only at h
  split at h
  · obtain rfl := Option.some.inj h
    rfl
  · cases h

theorem filter_orderBy {ρ : Type} (collation : Collation) (text : ρ → List Char) (p : ρ → Bool)
    (rows : List ρ) : (collation.orderBy text rows).filter p =
      collation.orderBy text (rows.filter p) :=
  haveI : Std.Total fun a b => collation.le (text a) (text b) = true :=
    ⟨fun _ _ => collation.total _ _⟩
  haveI : IsTrans ρ fun a b => collation.le (text a) (text b) = true :=
    ⟨fun _ _ _ => collation.trans _ _ _⟩
  filter_insertionSort p rows

theorem filter_device {ρ : Type} (h : principal.canReadDevice deviceId = true)
    (device streamKey : ρ → List Char) (rows : List ρ) :
    ((rows.filter fun row => principal.reads (device row) (streamKey row)).filter
        fun row => device row = deviceId) =
      (rows.filter fun row => device row = deviceId).filter
        fun row => principal.canReadStream (streamKey row) := by
  rw [List.filter_filter, List.filter_filter]
  refine List.filter_congr fun row _ => ?_
  by_cases hdevice : device row = deviceId
  · simp [QueryPrincipal.reads, hdevice, h]
  · simp [hdevice]

/-- What is listed of the view is what is readable of the list. -/
theorem listStreams_view (platform : Platform F) (h : principal.canReadDevice deviceId = true) :
    listStreams platform (store.view principal) deviceId =
      (listStreams platform store deviceId).filter fun stream => principal.canReadStream stream.key := by
  have hpoints := filter_device h (fun point : StoredPoint => point.device)
    (fun point => point.metric.metricKey) store.telemetry.points
  have hframes := filter_device h (fun frame : StoredFrame => frame.device)
    (fun frame => frame.signal.streamKey) store.telemetry.frames
  have hscalar := filterMap_groups (fun point : StoredPoint => point.metric)
    (fun metric => principal.canReadStream metric.metricKey)
    (fun stream : StreamRef F => principal.canReadStream stream.key) scalarStream
    (store.telemetry.points.filter (·.device = deviceId))
    (filter_orderBy platform.collation (·.metricKey))
    (fun points metric stream hstream => by rw [scalarStream_key hstream])
    (fun metric hmetric => by
      rw [scalarStream, filter_filter_of_imp]
      · rfl
      · intro point _ hpoint
        rw [of_decide_eq_true hpoint]
        exact hmetric)
  have hsampled := filterMap_groups (fun frame : StoredFrame => frame.signal)
    (fun signal => principal.canReadStream signal.streamKey)
    (fun stream : StreamRef F => principal.canReadStream stream.key)
    (sampledStream platform.reader) (store.telemetry.frames.filter (·.device = deviceId))
    (filter_orderBy platform.collation (·.streamKey))
    (fun frames signal stream hstream => by rw [sampledStream_key hstream])
    (fun signal hsignal => by
      rw [sampledStream, filter_filter_of_imp]
      · rfl
      · intro frame _ hframe
        rw [of_decide_eq_true hframe]
        exact hsignal)
  simp only [listStreams, Store.view, viewTelemetry, hpoints, hframes, List.filter_append, hscalar,
    hsampled]

theorem searchDevices_view (platform : Platform F) (h : principal.canReadAllDevices = true)
    (query : List Char) (limit : Int) :
    searchDevices platform (store.view principal) query limit =
      searchDevices platform store query limit := by
  have hall : store.telemetry.devices.filter principal.canReadDevice = store.telemetry.devices :=
    List.filter_eq_self.mpr fun deviceId _ => by simp [QueryPrincipal.canReadDevice, h]
  simp only [searchDevices, Store.view, viewTelemetry, hall]

/-! The feature rows -/

variable {features : FeatureTable F}

def viewFeatures (principal : QueryPrincipal) (features : FeatureTable F) : FeatureTable F :=
  features.delete fun row => !principal.reads row.device row.signal.streamKey

theorem deleteExpiredFeatures_view (now : Timestamptz) :
    deleteExpiredFeatures (viewFeatures principal features) now =
      viewFeatures principal (deleteExpiredFeatures features now) := by
  ext1
  simp only [deleteExpiredFeatures, viewFeatures, Keyed.delete, List.filter_filter]
  exact List.filter_congr fun row _ => Bool.and_comm _ _

theorem readFeatureRows_view (h : principal.reads deviceId key = true) (collation : Collation) :
    readFeatureRows collation (viewFeatures principal features) deviceId key start stop dbNow =
      readFeatureRows collation features deviceId key start stop dbNow := by
  rw [readFeatureRows, readFeatureRows, viewFeatures, Keyed.delete, filter_filter_of_imp]
  intro row _ hrow
  obtain ⟨hdevice, hkey, -⟩ := of_decide_eq_true hrow
  simp [hdevice, hkey, h]

theorem foldl_upsert_view {rows : List (FeatureRow F)}
    (h : ∀ row ∈ rows, principal.reads row.device row.signal.streamKey = true) :
    rows.foldl Keyed.upsert (viewFeatures principal features) =
      viewFeatures principal (rows.foldl Keyed.upsert features) := by
  induction rows generalizing features with
  | nil => rfl
  | cons row rows ih =>
    have hrow := h row List.mem_cons_self
    rw [List.foldl_cons, List.foldl_cons, ← ih fun r hr => h r (List.mem_cons_of_mem row hr),
      viewFeatures, viewFeatures, Keyed.delete_upsert (by simp [hrow])]
    intro r _ hkey
    simp only [FeatureRow.key, Prod.mk.injEq] at hkey
    simp [hkey.1, hkey.2.1, hrow]

theorem mergeFrame_owner {reader : Reader F} {merged merged' : Merged F} {frame : StoredFrame}
    (h : mergeFrame reader merged frame = .ok merged') :
    merged'.owner = some (frame.device, frame.signal) := by
  unfold mergeFrame at h
  split at h
  · cases h
  · rw [← Except.ok.inj h]

theorem materializeFeatureRows_view {frames : List StoredFrame} (reader : Reader F)
    (h : ∀ frame ∈ frames, principal.reads frame.device frame.signal.streamKey = true) :
    materializeFeatureRows reader (viewFeatures principal features) start stop frames expiresAt =
      (materializeFeatureRows reader features start stop frames expiresAt).map
        (viewFeatures principal) := by
  unfold materializeFeatureRows
  cases hmerge : frames.foldlM (mergeFrame reader) ⟨[], [], none⟩ with
  | error e => rfl
  | ok merged =>
    have howner : ∀ device signal, merged.owner = some (device, signal) →
        principal.reads device signal.streamKey = true := by
      refine foldlM_preserves (I := fun merged : Merged F => ∀ device signal,
        merged.owner = some (device, signal) → principal.reads device signal.streamKey = true)
        (fun frame hframe _ merged' _ hmerged => ?_) (fun device signal hnone => ?_) hmerge
      · rw [mergeFrame_owner hmerged]
        rintro _ _ ⟨⟩
        exact h frame hframe
      · cases hnone
    dsimp only
    split
    · rfl
    · next device signal hsome =>
      split
      · rfl
      · next stats =>
        split
        · refine congrArg Except.ok (foldl_upsert_view fun row hrow => ?_)
          obtain ⟨stat, -, rfl⟩ := List.mem_map.mp hrow
          exact howner device signal hsome
        · rfl

theorem summary_view (h : principal.reads deviceId key = true) (platform : Platform F)
    (featureTtlSeconds : Int) :
    summary platform (store.view principal) deviceId key start stop featureTtlSeconds now dbNow =
      (summary platform store deviceId key start stop featureTtlSeconds now dbNow).map
        fun result => (result.1.view principal, result.2) := by
  have hframes : ∀ frame ∈ readSignalFrames platform.reader store.telemetry deviceId key start stop,
      principal.reads frame.device frame.signal.streamKey = true := by
    intro frame hframe
    obtain ⟨hdevice, hkey⟩ :=
      of_decide_eq_true (List.mem_filter.mp (mem_framesOf_of_mem_framesBetween hframe)).2
    rw [hdevice, hkey]
    exact h
  have hview : (store.view principal).features = viewFeatures principal store.features := rfl
  have htelemetry : (store.view principal).telemetry = viewTelemetry principal store.telemetry := rfl
  simp only [summary, hview, htelemetry, deleteExpiredFeatures_view, readFeatureRows_view h,
    readSignalFrames_view h, materializeFeatureRows_view _ hframes]
  split
  · rfl
  · cases materializeFeatureRows platform.reader (deleteExpiredFeatures store.features now) start stop
        (readSignalFrames platform.reader store.telemetry deviceId key start stop)
        (now + 1000000 * featureTtlSeconds) with
    | error e => rfl
    | ok features' =>
      dsimp only [Except.map]
      rw [readFeatureRows_view h]
      rfl

end Aetus.Query
