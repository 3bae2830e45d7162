import Mathlib.Data.Prod.Lex
import Aetus.Base.Sorting
import Aetus.Query.Coverage

/-!
The tiers in a response that is made of rollups. Its resolution is that of the finest tier of the
range, and each channel's points are cut from its rows of all tiers and definitions.
-/

set_option autoImplicit false

namespace Aetus.Query
open Aetus.Base Aetus.Postgres

variable {F : Type} {rows : List (RollupRow F)} {maxPoints : Int}

def RollupRow.key (row : RollupRow F) :
    Timestamptz × Int × List Char × StreamDefinition × List Char :=
  (row.bucketStart, row.bucketNs, row.device, row.signal, row.channelKey)

def rangeRollups (store : Store F) (deviceId key : List Char) (start stop : Timestamptz) :
    List (RollupRow F) :=
  store.rollups.filter fun row => row.device = deviceId ∧ row.signal.streamKey = key ∧
    start ≤ row.bucketStart ∧ row.bucketStart ≤ stop

def originRows (rows : List (RollupRow F)) (maxPoints : Int) (channelKey : List Char) :
    List (RollupRow F) :=
  limitPoints (rows.filter (·.channelKey = channelKey)) maxPoints

theorem rows_of_rollup {reader : Reader F} {store : Store F} {deviceId key : List Char}
    {start stop : Timestamptz} {bucketNs : Int} {channels : List (RollupChannel F)}
    (h : sampledSeries reader store deviceId key start stop maxPoints =
      .ok (.rollup bucketNs channels)) :
    ∃ first rest, rollupRows store deviceId key start stop = first :: rest ∧
      first.bucketNs = bucketNs ∧ rollupChannels (first :: rest) maxPoints = channels := by
  unfold sampledSeries at h
  split at h
  · next first rest hrows =>
    simp only [Except.ok.injEq, SampledResponse.rollup.injEq] at h
    exact ⟨first, rest, hrows, h⟩
  · cases hraw : rawFramesToSeries reader
      (readSignalFrames reader store.telemetry deviceId key start stop) maxPoints (some start)
      (some stop) <;> simp [hraw, Except.map] at h

theorem points_rollupChannels {channel : RollupChannel F}
    (h : channel ∈ rollupChannels rows maxPoints) :
    (∃ row ∈ rows, row.channelKey = channel.name) ∧
      channel.points = (originRows rows maxPoints channel.name).map RollupRow.point := by
  have hchannels : rollupChannels rows maxPoints = (rollupDict rows).map fun entry =>
      { entry.2 with points := limitPoints entry.2.points maxPoints } := rfl
  rw [hchannels] at h
  obtain ⟨entry, hentry, rfl⟩ := List.mem_map.mp h
  have hnodup : ((rollupDict rows).map Prod.fst).Nodup :=
    OrderedDict.nodup_foldl_alter List.nodup_nil
  have hdict := points_rollupDict rows entry.1
  rw [OrderedDict.get?_of_mem hnodup hentry] at hdict
  obtain ⟨hname, hrow, hpoints⟩ := hdict
  rw [← hname] at hrow hpoints
  refine ⟨hrow, ?_⟩
  show limitPoints entry.2.points maxPoints = (originRows rows maxPoints entry.2.name).map _
  rw [hpoints, limitPoints_map, originRows]

theorem exists_rollupChannel {row : RollupRow F} (h : row ∈ rows) (maxPoints : Int) :
    ∃ channel ∈ rollupChannels rows maxPoints, channel.name = row.channelKey := by
  have hdict := points_rollupDict rows row.channelKey
  cases hget : (rollupDict rows).get? row.channelKey with
  | none =>
    rw [hget] at hdict
    exact absurd (List.filter_eq_nil_iff.mp hdict row h) (by simp)
  | some channel =>
    rw [hget] at hdict
    exact ⟨_, List.mem_map_of_mem (OrderedDict.mem_of_get? hget), hdict.1⟩

/-- All points are of the reported tier, and the times of each channel increase. -/
structure WellFormed (rows : List (RollupRow F)) (maxPoints bucketNs : Int)
    (channels : List (RollupChannel F)) : Prop where
  resolution : ∀ channel ∈ channels, ∀ row ∈ originRows rows maxPoints channel.name,
    row.bucketNs = bucketNs
  increasing : ∀ channel ∈ channels, (channel.points.map (·.ts)).Pairwise (· < ·)

/-! Numbers of rows -/

def finestCount (range own : List (RollupRow F)) : Nat :=
  own.countP fun row => range.all (row.bucketNs ≤ ·.bucketNs)

def countBefore (range own : List (RollupRow F)) (t : Timestamptz) : Nat :=
  own.countP fun row => range.all (row.bucketNs ≤ ·.bucketNs) && decide (row.bucketStart < t)

/-- The rows of one channel, by their numbers alone: the positions that are kept are all in the
finest tier, and at most one of them is among the rows that begin at the same time. -/
structure KeepsOneSeries (range own : List (RollupRow F)) (maxPoints : Int) : Prop where
  tier : ∀ p ∈ keptPositions own.length maxPoints, p < finestCount range own
  single : ∀ t, (keptPositions own.length maxPoints).countP
    (fun p => countBefore range own t ≤ p && decide (p < countBefore range own (t + 1))) ≤ 1

def Ordered (rows : List (RollupRow F)) : Prop := rows.Pairwise fun a b =>
  a.bucketNs < b.bucketNs ∨ a.bucketNs = b.bucketNs ∧ a.bucketStart ≤ b.bucketStart

theorem ordered_rollupRows (store : Store F) (deviceId key : List Char) (start stop : Timestamptz) :
    Ordered (rollupRows store deviceId key start stop) := by
  have hlex (a b : RollupRow F) :
      (a.bucketNs < b.bucketNs ∨ a.bucketNs = b.bucketNs ∧ a.bucketStart ≤ b.bucketStart) ↔
        toLex (a.bucketNs, a.bucketStart) ≤ toLex (b.bucketNs, b.bucketStart) := by
    rw [Prod.Lex.toLex_le_toLex]
  have : Std.Total fun a b : RollupRow F =>
      a.bucketNs < b.bucketNs ∨ a.bucketNs = b.bucketNs ∧ a.bucketStart ≤ b.bucketStart :=
    ⟨fun a b => by rw [hlex, hlex]; exact le_total _ _⟩
  have : IsTrans (RollupRow F) fun a b =>
      a.bucketNs < b.bucketNs ∨ a.bucketNs = b.bucketNs ∧ a.bucketStart ≤ b.bucketStart :=
    ⟨fun a b c hab hbc => (hlex a c).mpr (((hlex a b).mp hab).trans ((hlex b c).mp hbc))⟩
  exact List.pairwise_insertionSort _ _

theorem Ordered.head_le {first : RollupRow F} {rest : List (RollupRow F)}
    (h : Ordered (first :: rest)) : ∀ row ∈ first :: rest, first.bucketNs ≤ row.bucketNs := by
  intro row hrow
  rcases List.mem_cons.mp hrow with rfl | htail
  · exact le_refl _
  · rcases (List.pairwise_cons.mp h).1 row htail with hless | ⟨hsame, -⟩
    · exact hless.le
    · exact hsame.le

theorem mem_rollupRows {store : Store F} {deviceId key : List Char} {start stop : Timestamptz}
    {row : RollupRow F} : row ∈ rollupRows store deviceId key start stop ↔
      row ∈ rangeRollups store deviceId key start stop := by
  rw [rollupRows, List.mem_insertionSort]
  rfl

variable {range own : List (RollupRow F)}

theorem lt_finestCount_iff (h : Ordered own) {p : Nat} {row : RollupRow F} (hrow : own[p]? = some row) :
    p < finestCount range own ↔ ∀ other ∈ range, row.bucketNs ≤ other.bucketNs := by
  have hfirst : own.Pairwise fun a b => range.all (b.bucketNs ≤ ·.bucketNs) = true →
      range.all (a.bucketNs ≤ ·.bucketNs) = true := by
    refine h.imp fun {a b} hab hb => ?_
    simp only [List.all_eq_true, decide_eq_true_eq] at hb ⊢
    intro other hother
    have hle := hb other hother
    omega
  rw [finestCount, lt_countP_iff hfirst hrow]
  simp

theorem lt_countBefore_iff (h : Ordered own) (hrange : ∀ row ∈ own, row ∈ range) {p : Nat}
    {row : RollupRow F} (hrow : own[p]? = some row) (t : Timestamptz) :
    p < countBefore range own t ↔
      (∀ other ∈ range, row.bucketNs ≤ other.bucketNs) ∧ row.bucketStart < t := by
  have hfirst : own.Pairwise fun a b =>
      (range.all (b.bucketNs ≤ ·.bucketNs) && decide (b.bucketStart < t)) = true →
      (range.all (a.bucketNs ≤ ·.bucketNs) && decide (a.bucketStart < t)) = true := by
    refine (List.Pairwise.and_mem.mp h).imp fun {a b} ⟨ha, hb, hab⟩ hfinest => ?_
    simp only [List.all_eq_true, Bool.and_eq_true, decide_eq_true_eq] at hfinest ⊢
    -- what is before a finest row is in its tier
    obtain hless | ⟨hsame, hstart⟩ := hab
    · exact absurd (hfinest.1 a (hrange a ha)) (not_le.mpr hless)
    · exact ⟨fun other hother => hsame ▸ hfinest.1 other hother, hstart.trans_lt hfinest.2⟩
  rw [countBefore, lt_countP_iff hfirst hrow]
  simp

/-- The rows that are kept, with their positions among the channel's rows. -/
def keptRows (own : List (RollupRow F)) (maxPoints : Int) : List (RollupRow F × Nat) :=
  limitPoints own.zipIdx maxPoints

theorem getElem?_of_mem_keptRows {e : RollupRow F × Nat} (h : e ∈ keptRows own maxPoints) :
    own[e.2]? = some e.1 :=
  List.mem_zipIdx_iff_getElem?.mp ((limitPoints_sublist _ _).subset h)

theorem tier_iff (h : Ordered own) (hrange : ∀ row ∈ own, row ∈ range) {bucketNs : Int}
    (hleast : ∀ row ∈ range, bucketNs ≤ row.bucketNs) (hmem : ∃ row ∈ range, row.bucketNs = bucketNs) :
    (∀ row ∈ limitPoints own maxPoints, row.bucketNs = bucketNs) ↔
      ∀ p ∈ keptPositions own.length maxPoints, p < finestCount range own := by
  have hfinest {row : RollupRow F} :
      (∀ other ∈ range, row.bucketNs ≤ other.bucketNs) ↔ row.bucketNs ≤ bucketNs := by
    obtain ⟨first, hfirst, rfl⟩ := hmem
    exact ⟨fun hall => hall first hfirst, fun hle other hother => hle.trans (hleast other hother)⟩
  rw [← map_fst_limitPoints, ← positions_limitPoints, List.forall_mem_map, List.forall_mem_map]
  refine forall₂_congr fun e he => ?_
  have hrow := getElem?_of_mem_keptRows he
  have hlow := hleast e.1 (hrange e.1 (List.mem_of_getElem? hrow))
  rw [lt_finestCount_iff h hrow, hfinest]
  omega

theorem single_iff (h : Ordered own) (hrange : ∀ row ∈ own, row ∈ range) {bucketNs : Int}
    (hleast : ∀ row ∈ range, bucketNs ≤ row.bucketNs)
    (htier : ∀ row ∈ limitPoints own maxPoints, row.bucketNs = bucketNs) :
    ((limitPoints own maxPoints).map (·.bucketStart)).Pairwise (· < ·) ↔
      ∀ t, (keptPositions own.length maxPoints).countP
        (fun p => countBefore range own t ≤ p && decide (p < countBefore range own (t + 1))) ≤ 1 := by
  have hsorted : ((limitPoints own maxPoints).map (·.bucketStart)).Pairwise (· ≤ ·) := by
    rw [List.pairwise_map]
    have hkept := h.sublist (limitPoints_sublist own maxPoints)
    refine (List.Pairwise.and_mem.mp hkept).imp fun {a b} ⟨ha, hb, hab⟩ => ?_
    rcases hab with hless | ⟨-, hstart⟩
    · rw [htier a ha, htier b hb] at hless
      exact absurd hless (lt_irrefl bucketNs)
    · exact hstart
  have hnodup : ((limitPoints own maxPoints).map (·.bucketStart)).Pairwise (· < ·) ↔
      ((limitPoints own maxPoints).map (·.bucketStart)).Nodup :=
    ⟨fun hlt => hlt.imp ne_of_lt, fun hne => hsorted.imp₂ (fun _ _ => lt_of_le_of_ne) hne⟩
  rw [hnodup, List.nodup_iff_count_le_one]
  refine forall_congr' fun t => ?_
  have hcount : ((limitPoints own maxPoints).map (·.bucketStart)).count t =
      (keptPositions own.length maxPoints).countP
        (fun p => countBefore range own t ≤ p && decide (p < countBefore range own (t + 1))) := by
    rw [← map_fst_limitPoints, ← positions_limitPoints, List.count, List.countP_map, List.countP_map,
      List.countP_map]
    refine List.countP_congr fun e he => ?_
    have hrow := getElem?_of_mem_keptRows he
    have hmem : e.1 ∈ limitPoints own maxPoints := by
      rw [← map_fst_limitPoints]
      exact List.mem_map_of_mem he
    have hfinest : ∀ other ∈ range, e.1.bucketNs ≤ other.bucketNs := fun other hother =>
      (htier e.1 hmem).symm ▸ hleast other hother
    have hbefore (s : Timestamptz) : e.2 < countBefore range own s ↔ e.1.bucketStart < s := by
      rw [lt_countBefore_iff h hrange hrow]
      exact and_iff_right hfinest
    simp only [Function.comp_apply, beq_iff_eq, Bool.and_eq_true, decide_eq_true_eq, hbefore,
      ← not_lt (a := e.2)]
    rw [not_lt, Int.lt_add_one_iff]
    exact ⟨fun heq => ⟨heq.ge, heq.le⟩, fun hle => le_antisymm hle.2 hle.1⟩
  rw [hcount]

theorem keepsOneSeries_iff (h : Ordered own) (hrange : ∀ row ∈ own, row ∈ range) {bucketNs : Int}
    (hleast : ∀ row ∈ range, bucketNs ≤ row.bucketNs)
    (hmem : ∃ row ∈ range, row.bucketNs = bucketNs) :
    KeepsOneSeries range own maxPoints ↔
      (∀ row ∈ limitPoints own maxPoints, row.bucketNs = bucketNs) ∧
        ((limitPoints own maxPoints).map (·.bucketStart)).Pairwise (· < ·) := by
  have htier : _ ↔ ∀ p ∈ keptPositions own.length maxPoints, _ := tier_iff h hrange hleast hmem
  constructor
  · rintro ⟨hkept, hsingle⟩
    have hresolution := htier.mpr hkept
    exact ⟨hresolution, (single_iff h hrange hleast hresolution).mpr hsingle⟩
  · rintro ⟨hresolution, hincreasing⟩
    exact ⟨htier.mp hresolution, (single_iff h hrange hleast hresolution).mp hincreasing⟩

/-- The condition only counts rows. -/
theorem keepsOneSeries_perm {own' : List (RollupRow F)} (h : own.Perm own') :
    KeepsOneSeries range own maxPoints ↔ KeepsOneSeries range own' maxPoints := by
  have hcounts : finestCount range own = finestCount range own' := h.countP_eq _
  have hbefore (t : Timestamptz) : countBefore range own t = countBefore range own' t :=
    h.countP_eq _
  constructor <;> rintro ⟨htier, hsingle⟩ <;> refine ⟨?_, ?_⟩
  · rwa [← hcounts, ← h.length_eq]
  · simpa only [hbefore, h.length_eq] using hsingle
  · rwa [hcounts, h.length_eq]
  · simpa only [← hbefore, ← h.length_eq] using hsingle

/-- The response is one series of the reported tier exactly when each of its channels keeps rows of
one series only. -/
theorem rollup_wellFormed_iff {reader : Reader F} {store : Store F} {deviceId key : List Char}
    {start stop : Timestamptz} {bucketNs : Int} {channels : List (RollupChannel F)}
    (h : sampledSeries reader store deviceId key start stop maxPoints =
      .ok (.rollup bucketNs channels)) :
    WellFormed (rollupRows store deviceId key start stop) maxPoints bucketNs channels ↔
      ∀ row ∈ rangeRollups store deviceId key start stop,
        KeepsOneSeries (rangeRollups store deviceId key start stop)
          ((rangeRollups store deviceId key start stop).filter (·.channelKey = row.channelKey))
          maxPoints := by
  obtain ⟨first, rest, hrows, rfl, rfl⟩ := rows_of_rollup h
  have hordered := ordered_rollupRows store deviceId key start stop
  have hmem {row : RollupRow F} := @mem_rollupRows F store deviceId key start stop row
  have hperm : (rollupRows store deviceId key start stop).Perm
      (rangeRollups store deviceId key start stop) := List.perm_insertionSort _ _
  rw [hrows] at hordered hperm ⊢
  rw [hrows] at hmem
  have hleast : ∀ row ∈ rangeRollups store deviceId key start stop,
      first.bucketNs ≤ row.bucketNs := fun row hrow => hordered.head_le row (hmem.mpr hrow)
  have hfinest : ∃ row ∈ rangeRollups store deviceId key start stop,
      row.bucketNs = first.bucketNs := ⟨first, hmem.mp List.mem_cons_self, rfl⟩
  have hchannel (name : List Char) : KeepsOneSeries (rangeRollups store deviceId key start stop)
      ((rangeRollups store deviceId key start stop).filter (·.channelKey = name)) maxPoints ↔
      (∀ row ∈ originRows (first :: rest) maxPoints name, row.bucketNs = first.bucketNs) ∧
        ((originRows (first :: rest) maxPoints name).map (·.bucketStart)).Pairwise (· < ·) := by
    rw [← keepsOneSeries_perm (hperm.filter (·.channelKey = name))]
    exact keepsOneSeries_iff (hordered.filter (·.channelKey = name))
      (fun row hrow => hmem.mp (List.mem_of_mem_filter hrow)) hleast hfinest
  have htimes {channel : RollupChannel F} (hchan : channel ∈ rollupChannels (first :: rest) maxPoints) :
      channel.points.map (·.ts) =
        (originRows (first :: rest) maxPoints channel.name).map (·.bucketStart) := by
    rw [(points_rollupChannels hchan).2, List.map_map]
    rfl
  constructor
  · intro hwell row hrow
    obtain ⟨channel, hchan, hname⟩ := exists_rollupChannel (hmem.mpr hrow) maxPoints
    rw [← hname, hchannel, ← htimes hchan]
    exact ⟨hwell.resolution channel hchan, hwell.increasing channel hchan⟩
  · intro hkeeps
    have hown {channel : RollupChannel F}
        (hchan : channel ∈ rollupChannels (first :: rest) maxPoints) :
        KeepsOneSeries (rangeRollups store deviceId key start stop)
          ((rangeRollups store deviceId key start stop).filter (·.channelKey = channel.name))
          maxPoints := by
      obtain ⟨row, hrow, hname⟩ := (points_rollupChannels hchan).1
      have hkept := hkeeps row (hmem.mp hrow)
      rwa [hname] at hkept
    refine ⟨fun channel hchan => ((hchannel channel.name).mp (hown hchan)).1,
      fun channel hchan => ?_⟩
    rw [htimes hchan]
    exact ((hchannel channel.name).mp (hown hchan)).2

/-! Two tiers -/

def rollupRow (bucketNs bucketStart : Int) : RollupRow Int where
  bucketStart := bucketStart
  bucketNs := bucketNs
  device := "device".toList
  signal := ⟨"imu".toList, "int16".toList, "interleaved".toList, "[]".toList⟩
  channelKey := "ax".toList
  channelUnit := none
  minValue := 0
  maxValue := 9
  avgValue := some 4

def twoTiers : Store Int where
  telemetry := ⟨["device".toList], [], []⟩
  rollups := [rollupRow 1000000000 0, rollupRow 1000000000 1000000, rollupRow 4000000000 0]
  features := Keyed.empty _

/-- With one point for each channel, no row of the second tier is kept. -/
theorem rollup_wellFormed_one : ∃ channels,
    sampledSeries wholeReader twoTiers "device".toList "imu".toList 0 9000000 1 =
      .ok (.rollup 1000000000 channels) ∧
    WellFormed (rollupRows twoTiers "device".toList "imu".toList 0 9000000) 1 1000000000 channels := by
  have hresponse : sampledSeries wholeReader twoTiers "device".toList "imu".toList 0 9000000 1 =
    .ok (.rollup 1000000000 _) := rfl
  have hkept : ∀ row ∈ rangeRollups twoTiers "device".toList "imu".toList 0 9000000,
      let own := (rangeRollups twoTiers "device".toList "imu".toList 0 9000000).filter
        (·.channelKey = row.channelKey)
      keptPositions own.length 1 = [0] ∧
        0 < finestCount (rangeRollups twoTiers "device".toList "imu".toList 0 9000000) own := by
    decide
  refine ⟨_, hresponse, (rollup_wellFormed_iff hresponse).mpr fun row hrow => ⟨?_, fun t => ?_⟩⟩
  · rw [(hkept row hrow).1]
    simpa using (hkept row hrow).2
  · rw [(hkept row hrow).1]
    exact List.countP_le_length

/-- The response reports a resolution of one second, with the bucket of four seconds as its last
point, at the time of the first one. -/
theorem rollup_mixes_tiers : UniqueBy RollupRow.key twoTiers.rollups ∧ ∃ channels,
    sampledSeries wholeReader twoTiers "device".toList "imu".toList 0 9000000 10 =
      .ok (.rollup 1000000000 channels) ∧
    ¬ WellFormed (rollupRows twoTiers "device".toList "imu".toList 0 9000000) 10 1000000000
      channels := by
  refine ⟨by decide, _, rfl, fun h => ?_⟩
  have hincreasing := h.increasing _ List.mem_cons_self
  revert hincreasing
  decide

end Aetus.Query
