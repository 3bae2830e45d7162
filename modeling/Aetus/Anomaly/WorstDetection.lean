import Aetus.Anomaly.Events

/-!
The row of an event after several detections of it: the greatest score that was seen, with the
threshold, the summary and the details of the last detection.
-/

set_option autoImplicit false

namespace Aetus.Anomaly
open Aetus.Base

variable {F : Type} {floats : Floats F}

/-- `<` on finite doubles, between which any two that differ can be told apart. -/
structure FiniteLt (floats : Floats F) : Prop extends StrictLt floats where
  between : ∀ a b c, floats.isFinite b = true → floats.lt a c = true →
    floats.lt a b = true ∨ floats.lt b c = true

/-- Neither is less; of finite doubles, the same number. -/
def Floats.sameNumber (floats : Floats F) (a b : F) : Bool := !floats.lt a b && !floats.lt b a

def usesLowerBound (operator : List Char) : Bool :=
  operator = "lt".toList ∨ operator = "lte".toList

/-- The score `a` is more anomalous than `b`: less where values below the threshold are reported,
otherwise greater. -/
def worse (floats : Floats F) (operator : List Char) (a b : F) : Bool :=
  if usesLowerBound operator then floats.lt a b else floats.lt b a

/-- The row is that of a detection than which none is worse. The summary is compared by its two
numbers: the three decimals of its text may also be those of another detection. -/
def DescribesWorst (floats : Floats F) (operator : List Char) (row : EventRow F)
    (seen : List (EventInsert F)) : Prop :=
  ∃ e ∈ seen, (∀ e' ∈ seen, worse floats operator e'.score e.score = false) ∧
    floats.sameNumber row.score e.score = true ∧ row.threshold = e.threshold ∧
    row.summary = (e.score, e.threshold) ∧ row.details = e.details

/-- No score is greater than that of the last detection; where a lower bound is watched, none is
less than another at all. -/
def LastIsWorst (floats : Floats F) (operator : List Char) (seen : List (EventInsert F)) : Prop :=
  if usesLowerBound operator then ∀ e ∈ seen, ∀ e' ∈ seen, floats.lt e.score e'.score = false
  else ∀ last ∈ seen.getLast?, ∀ e ∈ seen, floats.lt last.score e.score = false

structure EventRow.Merges (floats : Floats F) (seen : List (EventInsert F)) (row : EventRow F) :
    Prop where
  last : ∃ e, seen.getLast? = some e ∧ row.threshold = e.threshold ∧
    row.summary = (e.score, e.threshold) ∧ row.details = e.details
  score : ∃ e ∈ seen, row.score = e.score
  greatest : ∀ e ∈ seen, floats.lt row.score e.score = false

theorem merges_fresh (hlt : FiniteLt floats) (e : EventInsert F) (rows : List (EventRow F)) :
    ((eventUpserts floats).fresh e rows).Merges floats [e] where
  last := ⟨e, rfl, rfl, rfl, rfl⟩
  score := ⟨e, List.mem_singleton_self e, rfl⟩
  greatest := fun e' he' => by
    obtain rfl := List.mem_singleton.mp he'
    exact hlt.irrefl _

theorem merges_change (hlt : FiniteLt floats) {seen : List (EventInsert F)} (e : EventInsert F)
    {row : EventRow F} (h : row.Merges floats seen) :
    ((eventUpserts floats).change e row).Merges floats (seen ++ [e]) where
  last := ⟨e, List.getLast?_concat, rfl, rfl, rfl⟩
  score := by
    obtain ⟨best, hbest, hscore⟩ := h.score
    show ∃ e' ∈ seen ++ [e], floats.greatest row.score e.score = e'.score
    unfold Floats.greatest
    split
    · exact ⟨e, List.mem_append_right _ (List.mem_singleton_self e), rfl⟩
    · exact ⟨best, List.mem_append_left _ hbest, hscore⟩
  greatest := fun e' he' => by
    rcases List.mem_append.mp he' with hold | hnew
    · exact hlt.not_lt_greatest e.score (h.greatest e' hold)
    · obtain rfl := List.mem_singleton.mp hnew
      exact hlt.not_lt_greatest_right row.score _

/-- Below the threshold, the row has a least score only where it is also a greatest. -/
theorem EventRow.Merges.describesWorst_iff_of_lower (hlt : FiniteLt floats)
    {seen : List (EventInsert F)} {row : EventRow F} (h : row.Merges floats seen)
    (hfinite : ∀ e ∈ seen, floats.isFinite e.score = true) {operator : List Char}
    (hlower : usesLowerBound operator = true) :
    DescribesWorst floats operator row seen ↔
      ∀ e ∈ seen, ∀ e' ∈ seen, floats.lt e.score e'.score = false := by
  obtain ⟨last, hlast, hthreshold, hsummary, hdetails⟩ := h.last
  obtain ⟨best, hbest, hscore⟩ := h.score
  have hlastMem : last ∈ seen := List.mem_of_getLast? hlast
  have hworse (a b : F) : worse floats operator a b = floats.lt a b := by simp [worse, hlower]
  simp only [DescribesWorst, hworse]
  constructor
  · rintro ⟨e, he, hleast, hsame, -⟩ a ha b hb
    by_contra hab
    rw [Bool.not_eq_false] at hab
    -- the row's score is that of `e`, which is no greater than `a`
    rcases hlt.between _ _ _ (hfinite e he) hab with hae | heb
    · rw [hleast a ha] at hae
      cases hae
    · have hrow : floats.lt row.score b.score = false := h.greatest b hb
      have hes : floats.lt e.score row.score = false := by
        simp only [Floats.sameNumber, Bool.and_eq_true, Bool.not_eq_true'] at hsame
        exact hsame.2
      have hbetween := hlt.between _ _ _ (hscore ▸ hfinite best hbest) heb
      rw [hes, hrow] at hbetween
      simp at hbetween
  · intro hall
    refine ⟨last, hlastMem, fun e he => hall e he last hlastMem, ?_, hthreshold, hsummary, hdetails⟩
    rw [Floats.sameNumber, hscore, hall best hbest last hlastMem, hall last hlastMem best hbest]
    rfl

theorem EventRow.Merges.describesWorst_iff_of_upper {seen : List (EventInsert F)} {row : EventRow F}
    (h : row.Merges floats seen) {operator : List Char} (hupper : usesLowerBound operator = false) :
    DescribesWorst floats operator row seen ↔
      ∀ last ∈ seen.getLast?, ∀ e ∈ seen, floats.lt last.score e.score = false := by
  obtain ⟨last, hlast, hthreshold, hsummary, hdetails⟩ := h.last
  obtain ⟨best, hbest, hscore⟩ := h.score
  have hworse (a b : F) : worse floats operator a b = floats.lt b a := by simp [worse, hupper]
  simp only [DescribesWorst, hworse, hlast, Option.mem_def, Option.some.injEq, forall_eq']
  constructor
  · rintro ⟨e, -, hgreatest, -, -, hsame, -⟩
    have hscores : last.score = e.score := congrArg Prod.fst (hsummary.symm.trans hsame)
    rw [hscores]
    exact hgreatest
  · intro hall
    refine ⟨last, List.mem_of_getLast? hlast, hall, ?_, hthreshold, hsummary, hdetails⟩
    rw [Floats.sameNumber, h.greatest last (List.mem_of_getLast? hlast), hscore, hall best hbest]
    rfl

theorem EventRow.Merges.describesWorst_iff (hlt : FiniteLt floats) {seen : List (EventInsert F)}
    {row : EventRow F} (h : row.Merges floats seen)
    (hfinite : ∀ e ∈ seen, floats.isFinite e.score = true) (operator : List Char) :
    DescribesWorst floats operator row seen ↔ LastIsWorst floats operator seen := by
  unfold LastIsWorst
  cases hlower : usesLowerBound operator with
  | true => exact h.describesWorst_iff_of_lower hlt hfinite hlower
  | false => exact h.describesWorst_iff_of_upper hlower

/-- The stored row of an event describes its worst detection exactly when this is the last. -/
theorem record_describesWorst_iff (hlt : FiniteLt floats) {tables : Tables floats} {key : EventKey}
    {es : List (EventInsert F)} (hnew : ∀ row ∈ tables.events.rows, row.key ≠ key)
    (hes : ∃ e ∈ es, e.key = key) (hfinite : ∀ e ∈ es, floats.isFinite e.score = true)
    (operator : List Char) :
    ∃ row, findBy (·.key) key (tables.record es).events.rows = some row ∧
      (DescribesWorst floats operator row (es.filter (·.key = key)) ↔
        LastIsWorst floats operator (es.filter (·.key = key))) := by
  rw [Tables.record_events, Upserts.rows_foldl_upsert]
  have hrow := Upserts.findBy_foldl_of_new (u := eventUpserts floats)
    (I := fun seen row => row.Merges floats seen) es (merges_fresh hlt)
    (fun _ e _ h => merges_change hlt e h) (findBy_eq_none.mpr hnew)
  rcases hrow with ⟨hnone, -⟩ | ⟨row, hfind, hmerges⟩
  · obtain ⟨e, he, hkey⟩ := hes
    exact absurd (decide_eq_true hkey) (List.filter_eq_nil_iff.mp hnone e he)
  · refine ⟨row, hfind, hmerges.describesWorst_iff hlt (fun e he => ?_) operator⟩
    exact hfinite e (List.mem_filter.mp he).1

/-! The scores of a run are finite -/

theorem result_score_isFinite (hzero : floats.isFinite floats.zero = true)
    (detectorType : List Char) (crossed : Bool) (score threshold : F)
    (points : List (MetricPoint F)) :
    floats.isFinite (result floats detectorType crossed score threshold points).score = true := by
  show floats.isFinite (if floats.isFinite score then score else floats.zero) = true
  split
  · assumption
  · exact hzero

theorem evaluate_score_isFinite (hzero : floats.isFinite floats.zero = true)
    {detectorType : List Char} {points : List (MetricPoint F)} {config : DetectorConfig F}
    {found : DetectionResult F} (h : evaluate floats detectorType points config = .ok found) :
    floats.isFinite found.score = true := by
  have hall : ∀ entry ∈ detectors floats,
      floats.isFinite (entry.2 points config).score = true := by
    simp only [detectors, List.forall_mem_cons, List.not_mem_nil, false_imp_iff, implies_true,
      and_true]
    refine ⟨?_, ?_, ?_, ?_, ?_, ?_, ?_, ?_, ?_, ?_, ?_, ?_, ?_, ?_, ?_, ?_⟩
    all_goals exact result_score_isFinite hzero _ _ _ _ _
  unfold evaluate at h
  cases hfind : findBy Prod.fst detectorType (detectors floats) with
  | none => simp [hfind] at h
  | some entry =>
    rw [hfind] at h
    obtain rfl := Except.ok.inj h
    exact hall entry (mem_of_findBy hfind).1

theorem events_isFinite {service : Service F} {telemetry : Postgres.Telemetry} {clock : Clock}
    {jobs : Jobs} (hzero : service.floats.isFinite service.floats.zero = true) {e : EventInsert F}
    (he : e ∈ events (runDetectionOnce service telemetry clock jobs none)) :
    service.floats.isFinite e.score = true := by
  obtain ⟨job, config, deviceId, streamKey, -, windows, -, window, -, found, hfound, -, rfl⟩ :=
    mem_runDetectionOnce.mp (mem_events.mp he)
  exact evaluate_score_isFinite hzero hfound

/-! Two detections of one window, the second after more points -/

def detection (score : Int) (pointCount : Nat) : EventInsert Int where
  jobId := 1
  deviceId := "device".toList
  streamKey := "imu".toList
  channelKey := none
  windowStart := 0
  windowEnd := 60000000000
  severity := "warning".toList
  score := score
  threshold := 5
  details := {
    detector := "mean_threshold".toList
    jobKey := "mean".toList
    windowSeconds := 60
    stepSeconds := 60
    lookbackSeconds := 0
    sourceKind := "metric"
    channelKey := none
    truncated := false
    anchor := none
    result := ⟨"mean_threshold".toList, pointCount, some 0, some 60000000000⟩ }
  detectorType := "mean_threshold".toList
  detectorVersion := detectorVersion

def noEvents : Tables wholeFloats where
  scores := .empty _
  events := .empty _
  outbox := .empty _
  jobState := .empty _
  endpoints := []

theorem finiteLt_wholeFloats : FiniteLt wholeFloats where
  irrefl := fun a => decide_eq_false (lt_irrefl a)
  trans := fun _ _ _ hab hbc =>
    decide_eq_true ((of_decide_eq_true hab).trans (of_decide_eq_true hbc))
  between := fun a b c _ hac => by
    have hlt : a < c := of_decide_eq_true hac
    rcases lt_or_ge a b with hab | hba
    · exact .inl (decide_eq_true hab)
    · exact .inr (decide_eq_true (hba.trans_lt hlt))

/-- The score is that of the first detection, the rest that of the second. -/
theorem secondDetection_describes_none :
    ¬∀ (operator : List Char) (es : List (EventInsert Int)) (key : EventKey) (row : EventRow Int),
      row ∈ (noEvents.record es).events.rows → row.key = key →
        DescribesWorst wholeFloats operator row (es.filter (·.key = key)) := by
  intro h
  have hrow : ∃ row ∈ (noEvents.record [detection 10 2, detection 7 3]).events.rows,
      row.key = (detection 10 2).key ∧ row.summary = (7, 5) :=
    ⟨_, List.mem_singleton_self _, by decide, rfl⟩
  obtain ⟨row, hmem, hkey, hsummary⟩ := hrow
  obtain ⟨e, he, hworst, -, -, hsame, -⟩ := h "gt".toList _ _ row hmem hkey
  have hboth : e = detection 10 2 ∨ e = detection 7 3 := by
    simpa using List.mem_of_mem_filter he
  rcases hboth with rfl | rfl
  · exact absurd (hsummary.symm.trans hsame) (by decide)
  · have hfirst := hworst (detection 10 2)
      (List.mem_filter.mpr ⟨List.mem_cons_self, decide_eq_true rfl⟩)
    exact absurd hfirst (by decide)

theorem record_describesWorst_iff_mean :
    ∃ row, findBy (·.key) (detection 10 2).key
        (noEvents.record [detection 10 2, detection 7 3]).events.rows = some row ∧
      (DescribesWorst wholeFloats "gt".toList row
          ([detection 10 2, detection 7 3].filter (·.key = (detection 10 2).key)) ↔
        LastIsWorst wholeFloats "gt".toList
          ([detection 10 2, detection 7 3].filter (·.key = (detection 10 2).key))) :=
  record_describesWorst_iff finiteLt_wholeFloats (fun _ h => absurd h List.not_mem_nil)
    ⟨_, List.mem_cons_self, rfl⟩ (fun _ _ => rfl) "gt".toList

end Aetus.Anomaly
