import Aetus.Base.Exposition
import Aetus.Base.OrderedDict
import Aetus.Base.Sorting
import Aetus.Ingest.ControlDb
import Mathlib.Data.Prod.Lex
import Mathlib.Algebra.Order.BigOperators.Group.List
import Mathlib.Algebra.Ring.Int.Defs
import Mathlib.Data.Char
import Mathlib.Data.List.Lex

/-!
The counters of the ingest service, metrics.py, and their Prometheus text.
-/

set_option autoImplicit false

namespace Aetus.Ingest.Metrics
open Aetus.Base

inductive LabelValue where
  | text (value : List Char)
  | int (value : Int)
  | none
  deriving DecidableEq

/-- `str(n)`; a `ValueError` is `none`. -/
def str (n : Int) : Option (List Char) :=
  if (Nat.toDigits 10 n.natAbs).length ≤ INT_MAX_STR_DIGITS then some (Json.dumpsInt n) else none

def LabelValue.str : LabelValue → Option (List Char)
  | .text value => some value
  | .int value => Metrics.str value
  | .none => some "None".toList

abbrev LabelSet := List (List Char × List Char)

/-- `sorted(labels)`, pairs of texts. -/
def sortedLabels (labels : LabelSet) : LabelSet :=
  labels.insertionSort fun a b => toLex a ≤ toLex b

def labelText (label : List Char × LabelValue) : Option (List Char × List Char) :=
  label.2.str.map fun value => (label.1, value)

/-- `_labels` -/
def labelSet (labels : List (List Char × LabelValue)) : Option LabelSet :=
  ((labels.filter (·.2 ≠ .none)).mapM labelText).map sortedLabels

structure CounterSample where
  name : List Char
  labels : OrderedDict (List Char) (List Char)
  value : Int

/-- The arguments of `increment`; a keyword stands once. -/
structure Increment where
  name : List Char
  amount : Int
  labels : List (List Char × LabelValue)
  nodup : (labels.map Prod.fst).Nodup

structure MetricsRegistry where
  startedAt : FiniteDouble
  counters : OrderedDict (List Char × LabelSet) Int

namespace MetricsRegistry

def init (startedAt : FiniteDouble) : MetricsRegistry := ⟨startedAt, []⟩

/-- A `ValueError` is `none`. -/
def increment (registry : MetricsRegistry) (call : Increment) : Option MetricsRegistry :=
  if call.amount ≤ 0 then some registry
  else (labelSet call.labels).map fun labels =>
    { registry with counters := registry.counters.alter (call.name, labels) 0 (· + call.amount) }

/-- A call that raises leaves the registry as it was. -/
def run (startedAt : FiniteDouble) (calls : List Increment) : MetricsRegistry :=
  calls.foldl (fun registry call => (registry.increment call).getD registry) (init startedAt)

/-- Tuples are compared from the left. -/
def itemOrder (item : (List Char × LabelSet) × Int) :
    (List Char ×ₗ List (List Char ×ₗ List Char)) ×ₗ Int :=
  toLex (toLex (item.1.1, item.1.2.map toLex), item.2)

/-- `dict(labels)` -/
def dict (labels : LabelSet) : OrderedDict (List Char) (List Char) :=
  labels.foldl (fun d label => d.assign label.1 label.2) []

def samples (registry : MetricsRegistry) : List CounterSample :=
  (registry.counters.insertionSort fun a b => itemOrder a ≤ itemOrder b).map
    fun ((name, labels), value) => ⟨name, dict labels, value⟩

end MetricsRegistry

/-- `text.replace(old, new)` for one character. -/
def replace (old : Char) (new text : List Char) : List Char :=
  text.flatMap fun c => if c = old then new else [c]

def escapeLabelValue (value : List Char) : List Char :=
  replace '"' "\\\"".toList (replace '\n' "\\n".toList (replace '\\' "\\\\".toList value))

def formatPrometheusLabels (labels : LabelSet) : List Char :=
  if labels = [] then []
  else '{' :: ([','].intercalate ((sortedLabels labels).map fun (key, value) =>
    key ++ ("=\"".toList ++ (escapeLabelValue value ++ ['"']))) ++ ['}'])

def START_TIME : List Char := "aetus_process_start_time_seconds".toList

namespace MetricsRegistry

def header (registry : MetricsRegistry) : List (List Char) :=
  ["# HELP ".toList ++ (START_TIME ++
      " Unix timestamp when the ingest process metrics registry started.".toList),
    "# TYPE ".toList ++ (START_TIME ++ " gauge".toList),
    START_TIME ++ ' ' :: registry.startedAt.repr]

def write (written : List (List Char) × List (List Char)) (sample : CounterSample) :
    Option (List (List Char) × List (List Char)) :=
  let (lines, seenNames) := if written.2.contains sample.name then written
    else (written.1 ++ ["# TYPE ".toList ++ (sample.name ++ " counter".toList)],
      written.2 ++ [sample.name])
  (str sample.value).map fun value =>
    (lines ++ [sample.name ++ (formatPrometheusLabels sample.labels ++ ' ' :: value)], seenNames)

/-- A `ValueError` is `none`. -/
def toPrometheusText (registry : MetricsRegistry) : Option (List Char) :=
  (registry.samples.foldlM write (registry.header, [])).map fun written =>
    ['\n'].intercalate (written.1 ++ [[]])

end MetricsRegistry

/-! What was counted -/

def Increment.counts (call : Increment) : Option ((List Char × LabelSet) × Int) :=
  if call.amount ≤ 0 then none
  else (labelSet call.labels).map fun labels => ((call.name, labels), call.amount)

def total (calls : List Increment) (key : List Char × LabelSet) : Int :=
  (((calls.filterMap Increment.counts).filter fun count => count.1 = key).map Prod.snd).sum

structure Increment.WellFormed (call : Increment) : Prop where
  name : Prometheus.isMetricName call.name = true
  labels : ∀ label ∈ call.labels, Prometheus.isLabelName label.1 = true

/-- The counters of a document are the totals, one sample for each that is not zero, below a type
line of its metric. Else it has only the start time. -/
structure ReadsBack (doc : Prometheus.Exposition) (calls : List Increment) : Prop where
  distinct : (doc.samples.map fun sample => (sample.2.name, sample.2.labels)).Nodup
  counters : ∀ sample, (.counter, sample) ∈ doc.samples ↔
    0 < total calls (sample.name, sample.labels) ∧
      sample.value = .integer (total calls (sample.name, sample.labels)).toNat ∧
      sample.timestamp = none
  others : ∀ sample ∈ doc.samples,
    sample.1 = .counter ∨ sample.1 = .gauge ∧ sample.2.name = START_TIME
  declaredOnce : (doc.types.map Prod.fst).Nodup
  declared : ∀ name, (name, .counter) ∈ doc.types ↔ ∃ labels, 0 < total calls (name, labels)

def RoundTrips (startedAt : FiniteDouble) (calls : List Increment) : Prop :=
  ∃ text doc, (MetricsRegistry.run startedAt calls).toPrometheusText = some text ∧
    Prometheus.parse text = some doc ∧ ReadsBack doc calls

/-! Labels -/

theorem toLex_le_antisymm {a b : List Char × List Char} (hab : toLex a ≤ toLex b)
    (hba : toLex b ≤ toLex a) : a = b :=
  toLex.injective (le_antisymm hab hba)

theorem map_fst_mapM {labels : List (List Char × LabelValue)} {set : LabelSet}
    (h : labels.mapM labelText = some set) : set.map Prod.fst = labels.map Prod.fst := by
  induction labels generalizing set with
  | nil =>
    obtain rfl := Option.some.inj h
    rfl
  | cons label labels ih =>
    rw [List.mapM_cons] at h
    obtain ⟨text, htext, h⟩ := Option.bind_eq_some_iff.mp h
    obtain ⟨rest, hrest, h⟩ := Option.bind_eq_some_iff.mp h
    obtain rfl := Option.some.inj h
    obtain ⟨value, -, rfl⟩ := Option.map_eq_some_iff.mp htext
    rw [List.map_cons, List.map_cons, ih hrest]

structure IsLabelSet (call : Increment) (set : LabelSet) : Prop where
  sorted : set.Pairwise fun a b => toLex a ≤ toLex b
  nodup : (set.map Prod.fst).Nodup
  names : ∀ name ∈ set.map Prod.fst, name ∈ call.labels.map Prod.fst

theorem isLabelSet {call : Increment} {set : LabelSet} (h : labelSet call.labels = some set) :
    IsLabelSet call set := by
  obtain ⟨texts, htexts, rfl⟩ := Option.map_eq_some_iff.mp h
  have hperm : (sortedLabels texts).Perm texts := List.perm_insertionSort _ _
  have hnames := map_fst_mapM htexts
  have hsub : (texts.map Prod.fst).Sublist (call.labels.map Prod.fst) := by
    rw [hnames]
    exact List.filter_sublist.map Prod.fst
  refine ⟨List.pairwise_insertionSort _ _, ?_, fun name hname => ?_⟩
  · exact (hperm.map Prod.fst).nodup_iff.mpr (call.nodup.sublist hsub)
  · exact hsub.subset ((hperm.map Prod.fst).mem_iff.mp hname)

theorem sortedLabels_eq {labels : LabelSet}
    (h : labels.Pairwise fun a b => toLex a ≤ toLex b) : sortedLabels labels = labels :=
  h.insertionSort_eq

/-- Three replacements, the backslash first, give each character its own text. -/
theorem escapeLabelValue_eq (value : List Char) :
    escapeLabelValue value = value.flatMap Prometheus.escaped := by
  unfold escapeLabelValue replace
  rw [List.flatMap_assoc, List.flatMap_assoc]
  refine congrArg (fun f => value.flatMap f) (funext fun c => ?_)
  by_cases hslash : c = '\\'
  · subst hslash
    decide
  by_cases hnewline : c = '\n'
  · subst hnewline
    decide
  by_cases hquote : c = '"'
  · subst hquote
    decide
  simp [Prometheus.escaped, hslash, hnewline, hquote]

theorem formatPrometheusLabels_eq {labels : LabelSet}
    (h : labels.Pairwise fun a b => toLex a ≤ toLex b) :
    formatPrometheusLabels labels = Prometheus.labelText labels := by
  have hprint : (fun label : List Char × List Char =>
      label.1 ++ ("=\"".toList ++ (escapeLabelValue label.2 ++ ['"']))) =
        Prometheus.printLabel := by
    funext label
    rw [escapeLabelValue_eq]
    rfl
  rw [formatPrometheusLabels, Prometheus.labelText, Prometheus.printLabels, sortedLabels_eq h,
    ← hprint]

/-! Counters -/

namespace MetricsRegistry

theorem foldl_increment (registry : MetricsRegistry) (calls : List Increment) :
    calls.foldl (fun registry call => (registry.increment call).getD registry) registry =
      ⟨registry.startedAt, (calls.filterMap Increment.counts).foldl
        (fun counters count => counters.alter count.1 0 (· + count.2)) registry.counters⟩ := by
  induction calls generalizing registry with
  | nil => rfl
  | cons call calls ih =>
    rw [List.foldl_cons, ih, List.filterMap_cons]
    unfold increment Increment.counts
    by_cases hamount : call.amount ≤ 0
    · simp [hamount]
    · cases hlabels : labelSet call.labels with
      | none => simp [hamount]
      | some set => simp [hamount]

end MetricsRegistry

theorem pos_of_counts {call : Increment} {count : (List Char × LabelSet) × Int}
    (h : call.counts = some count) :
    0 < count.2 ∧ call.name = count.1.1 ∧ labelSet call.labels = some count.1.2 := by
  unfold Increment.counts at h
  split at h
  · cases h
  · next hamount =>
    obtain ⟨set, hset, rfl⟩ := Option.map_eq_some_iff.mp h
    exact ⟨Int.not_le.mp hamount, rfl, hset⟩

theorem foldl_add_some (counts : List ((List Char × LabelSet) × Int)) (held : Int) :
    counts.foldl (fun held count => some (held.getD 0 + count.2)) (some held) =
      some (held + (counts.map Prod.snd).sum) := by
  induction counts generalizing held with
  | nil => simp
  | cons count counts ih =>
    rw [List.foldl_cons, Option.getD_some, ih, List.map_cons, List.sum_cons, Int.add_assoc]

theorem foldl_add_none {counts : List ((List Char × LabelSet) × Int)}
    (h : ∀ count ∈ counts, 0 < count.2) :
    counts.foldl (fun held count => some (held.getD 0 + count.2)) none =
      if 0 < (counts.map Prod.snd).sum then some (counts.map Prod.snd).sum else none := by
  cases counts with
  | nil => rfl
  | cons count counts =>
    obtain ⟨hcount, hcounts⟩ := List.forall_mem_cons.mp h
    have hrest : 0 ≤ (counts.map Prod.snd).sum := List.sum_nonneg fun n hn => by
      obtain ⟨other, hother, rfl⟩ := List.mem_map.mp hn
      exact (hcounts other hother).le
    have hpos : 0 < ((count :: counts).map Prod.snd).sum := by
      rw [List.map_cons, List.sum_cons]
      omega
    rw [if_pos hpos, List.foldl_cons, Option.getD_none, Int.zero_add, foldl_add_some,
      List.map_cons, List.sum_cons]

variable {startedAt : FiniteDouble} {calls : List Increment}

theorem run_eq : MetricsRegistry.run startedAt calls =
    ⟨startedAt, (calls.filterMap Increment.counts).foldl
      (fun counters count => counters.alter count.1 0 (· + count.2)) []⟩ :=
  MetricsRegistry.foldl_increment (MetricsRegistry.init startedAt) calls

theorem get?_run (key : List Char × LabelSet) :
    (MetricsRegistry.run startedAt calls).counters.get? key =
      if 0 < total calls key then some (total calls key) else none := by
  have hpos : ∀ count ∈ (calls.filterMap Increment.counts).filter fun count => count.1 = key,
      0 < count.2 := fun count hcount => by
    obtain ⟨call, -, hcounts⟩ := List.mem_filterMap.mp (List.mem_filter.mp hcount).1
    exact (pos_of_counts hcounts).1
  rw [run_eq, total, ← foldl_add_none hpos]
  exact OrderedDict.get?_foldl_alter

theorem nodup_run : ((MetricsRegistry.run startedAt calls).counters.map Prod.fst).Nodup := by
  rw [run_eq]
  exact OrderedDict.nodup_foldl_alter List.nodup_nil

theorem mem_counters {key : List Char × LabelSet} {value : Int} :
    (key, value) ∈ (MetricsRegistry.run startedAt calls).counters ↔
      0 < total calls key ∧ value = total calls key := by
  constructor
  · intro hmem
    have hget := OrderedDict.get?_of_mem nodup_run hmem
    rw [get?_run] at hget
    split at hget
    · next hpos => exact ⟨hpos, (Option.some.inj hget).symm⟩
    · cases hget
  · rintro ⟨hpos, rfl⟩
    exact OrderedDict.mem_of_get? (by rw [get?_run, if_pos hpos])

theorem exists_call_of_total {key : List Char × LabelSet} (h : 0 < total calls key) :
    ∃ call ∈ calls, call.name = key.1 ∧ IsLabelSet call key.2 := by
  obtain ⟨count, hcount⟩ := List.exists_mem_of_ne_nil
    ((calls.filterMap Increment.counts).filter fun count => count.1 = key) fun hnil => by
      rw [total, hnil] at h
      exact absurd h (by decide)
  obtain ⟨hmem, hkey⟩ := List.mem_filter.mp hcount
  obtain ⟨call, hcall, hcounts⟩ := List.mem_filterMap.mp hmem
  obtain ⟨-, hname, hlabels⟩ := pos_of_counts hcounts
  rw [of_decide_eq_true hkey] at hname hlabels
  exact ⟨call, hcall, hname, isLabelSet hlabels⟩

/-! Samples -/

theorem dict_eq {labels : LabelSet} (h : (labels.map Prod.fst).Nodup) :
    MetricsRegistry.dict labels = labels :=
  OrderedDict.foldl_assign_append h

theorem samples_eq : (MetricsRegistry.run startedAt calls).samples =
    ((MetricsRegistry.run startedAt calls).counters.insertionSort fun a b =>
      MetricsRegistry.itemOrder a ≤ MetricsRegistry.itemOrder b).map
        fun item => ⟨item.1.1, item.1.2, item.2⟩ := by
  refine List.map_congr_left fun item hitem => ?_
  have hmem := (List.mem_insertionSort _).mp hitem
  obtain ⟨call, -, -, hset⟩ := exists_call_of_total (mem_counters.mp hmem).1
  exact congrArg (fun labels => CounterSample.mk item.1.1 labels item.2) (dict_eq hset.nodup)

theorem mem_samples {sample : CounterSample} :
    sample ∈ (MetricsRegistry.run startedAt calls).samples ↔
      0 < total calls (sample.name, sample.labels) ∧
        sample.value = total calls (sample.name, sample.labels) := by
  rw [samples_eq, List.mem_map, ← @mem_counters startedAt]
  constructor
  · rintro ⟨item, hitem, rfl⟩
    exact (List.mem_insertionSort _).mp hitem
  · intro hmem
    exact ⟨((sample.name, sample.labels), sample.value), (List.mem_insertionSort _).mpr hmem, rfl⟩

theorem pairwise_samples : (MetricsRegistry.run startedAt calls).samples.Pairwise fun a b =>
    a.name ≤ b.name ∧ (a.name, a.labels) ≠ (b.name, b.labels) := by
  rw [samples_eq, List.pairwise_map]
  have hsorted := List.pairwise_insertionSort
    (fun a b => MetricsRegistry.itemOrder a ≤ MetricsRegistry.itemOrder b)
    (MetricsRegistry.run startedAt calls).counters
  have hperm := List.perm_insertionSort
    (fun a b => MetricsRegistry.itemOrder a ≤ MetricsRegistry.itemOrder b)
    (MetricsRegistry.run startedAt calls).counters
  have hdistinct := List.pairwise_map.mp
    ((hperm.map Prod.fst).nodup_iff.mpr (@nodup_run startedAt calls))
  refine hsorted.imp₂ (fun a b hle hne => ⟨?_, hne⟩) hdistinct
  have hkeys : toLex (a.1.1, a.1.2.map toLex) ≤ toLex (b.1.1, b.1.2.map toLex) :=
    Prod.Lex.monotone_fst (MetricsRegistry.itemOrder a) (MetricsRegistry.itemOrder b) hle
  exact Prod.Lex.monotone_fst (toLex (a.1.1, a.1.2.map toLex)) (toLex (b.1.1, b.1.2.map toLex))
    hkeys

/-! The text -/

theorem str_eq {n : Int} (hnonneg : 0 ≤ n)
    (hlimit : n < ((10 ^ INT_MAX_STR_DIGITS : Nat) : Int)) :
    str n = some (Nat.toDigits 10 n.toNat) := by
  obtain ⟨m, rfl⟩ := Int.eq_ofNat_of_zero_le hnonneg
  have hlength : (Nat.toDigits 10 (m : Int).natAbs).length ≤ INT_MAX_STR_DIGITS := by
    rw [Nat.length_toDigits_le_iff (by decide) (by decide), Int.natAbs_natCast]
    exact Int.ofNat_lt.mp hlimit
  rw [str, if_pos hlength, Json.dumpsInt, if_neg (Int.not_lt.mpr hnonneg), Int.natAbs_natCast,
    Int.toNat_natCast]

def CounterSample.read (sample : CounterSample) : Prometheus.Sample :=
  ⟨sample.name, sample.labels, .integer sample.value.toNat, none⟩

structure CounterSample.Writable (sample : CounterSample) : Prop where
  name : Prometheus.isMetricName sample.name = true
  reserved : sample.name ≠ START_TIME
  labels : ∀ label ∈ sample.labels, Prometheus.isLabelName label.1 = true
  sorted : sample.labels.Pairwise fun a b => toLex a ≤ toLex b
  nodup : (sample.labels.map Prod.fst).Nodup
  nonneg : 0 ≤ sample.value
  limit : sample.value < ((10 ^ INT_MAX_STR_DIGITS : Nat) : Int)

structure Wrote (doc₀ : Prometheus.Exposition) (samples : List CounterSample)
    (written : List (List Char) × List (List Char)) : Prop where
  reads : ∃ doc, Prometheus.readLines written.1 = some doc ∧
    doc₀.Extends doc .counter (samples.map CounterSample.read)
  seen : ∀ name, name ∈ written.2 ↔ name ∈ samples.map CounterSample.name
  lines : ∀ line ∈ written.1, '\n' ∉ line

def startDoc (value : Prometheus.Number) : Prometheus.Exposition :=
  ⟨[(START_TIME, .gauge)], [(.gauge, ⟨START_TIME, [], value, none⟩)], [START_TIME], [START_TIME]⟩

theorem fresh_startDoc {value : Prometheus.Number} {name : List Char} (h : name ≠ START_TIME) :
    (startDoc value).Fresh name where
  type hmem := h (List.mem_singleton.mp hmem)
  sample hmem := h (List.mem_singleton.mp hmem)
  group hmem := h (List.mem_singleton.mp hmem)

theorem isMetricName_START_TIME : Prometheus.isMetricName START_TIME = true := by decide

theorem readLines_header (registry : MetricsRegistry) :
    ∃ value, Prometheus.readLines registry.header = some (startDoc value) := by
  obtain ⟨value, hvalue⟩ := Prometheus.isValue_repr registry.startedAt
  have hhelp : Prometheus.readLine ("# HELP ".toList ++ (START_TIME ++
      " Unix timestamp when the ingest process metrics registry started.".toList)) =
        some (.help START_TIME) := by decide
  have htype : Prometheus.readLine ("# TYPE ".toList ++ (START_TIME ++ " gauge".toList)) =
      some (.type START_TIME .gauge) :=
    @Prometheus.readLine_typeLine START_TIME "gauge".toList _ isMetricName_START_TIME (by decide)
  have hsample : Prometheus.readLine (START_TIME ++ ' ' :: registry.startedAt.repr) =
      some (.sample ⟨START_TIME, [], value, none⟩) :=
    @Prometheus.readLine_sampleLine START_TIME [] _ _ isMetricName_START_TIME nofun hvalue
  have hread : registry.header.mapM Prometheus.readLine = some [.help START_TIME,
      .type START_TIME .gauge, .sample ⟨START_TIME, [], value, none⟩] := by
    unfold MetricsRegistry.header
    rw [List.mapM_cons, hhelp, List.mapM_cons, htype, List.mapM_cons, hsample]
    rfl
  refine ⟨value, ?_⟩
  rw [Prometheus.readLines, hread]
  exact Prometheus.Exposition.foldlM_add_metric START_TIME .gauge value

theorem newline_not_mem_header (registry : MetricsRegistry) :
    ∀ line ∈ registry.header, '\n' ∉ line := by
  obtain ⟨value, hvalue⟩ := Prometheus.isValue_repr registry.startedAt
  have hhelp : '\n' ∉ "# HELP ".toList ++ (START_TIME ++
      " Unix timestamp when the ingest process metrics registry started.".toList) := by decide
  have htype : '\n' ∉ "# TYPE ".toList ++ (START_TIME ++ " gauge".toList) := by decide
  have hsample : '\n' ∉ START_TIME ++ ' ' :: registry.startedAt.repr :=
    @Prometheus.newline_not_mem_sampleLine START_TIME [] _ _ isMetricName_START_TIME nofun hvalue
  unfold MetricsRegistry.header
  intro line hline
  rcases List.mem_cons.mp hline with rfl | hline
  · exact hhelp
  rcases List.mem_cons.mp hline with rfl | hline
  · exact htype
  obtain rfl := List.mem_singleton.mp hline
  exact hsample

theorem wrote_header (registry : MetricsRegistry) :
    ∃ value, Wrote (startDoc value) [] (registry.header, []) := by
  obtain ⟨value, hvalue⟩ := readLines_header registry
  exact ⟨value, ⟨startDoc value, hvalue, .refl (List.nodup_singleton _)⟩, fun name => Iff.rfl,
    newline_not_mem_header registry⟩

def addedLines (seenNames : List (List Char)) (sample : CounterSample) : List (List Char) :=
  (if seenNames.contains sample.name then []
    else [Prometheus.typeLine sample.name "counter".toList]) ++
  [Prometheus.sampleLine sample.name sample.labels (Nat.toDigits 10 sample.value.toNat)]

theorem write_eq {written : List (List Char) × List (List Char)} {sample : CounterSample}
    (hsample : sample.Writable) : MetricsRegistry.write written sample =
      some (written.1 ++ addedLines written.2 sample,
        if written.2.contains sample.name then written.2 else written.2 ++ [sample.name]) := by
  unfold MetricsRegistry.write addedLines
  rw [str_eq hsample.nonneg hsample.limit, formatPrometheusLabels_eq hsample.sorted]
  by_cases hseen : written.2.contains sample.name = true
  · simp only [if_pos hseen, Option.map_some, List.nil_append]
    rfl
  · simp only [if_neg hseen, Option.map_some, List.append_assoc]
    rfl

theorem mapM_addedLines {seenNames : List (List Char)} {samples : List CounterSample}
    {sample : CounterSample} (hsample : sample.Writable)
    (hseen : sample.name ∈ seenNames ↔ sample.name ∈ samples.map CounterSample.name) :
    (addedLines seenNames sample).mapM Prometheus.readLine =
      some (Prometheus.sampleLines .counter (samples.map CounterSample.read) sample.read) := by
  have hvalue := Prometheus.isValue_toDigits sample.value.toNat
  have hsampleLine := Prometheus.readLine_sampleLine hsample.name hsample.labels hvalue
  have htypeLine := @Prometheus.readLine_typeLine sample.name "counter".toList .counter
    hsample.name (by decide)
  have hread : seenNames.contains sample.name = true ↔
      ((samples.map CounterSample.read).map Prometheus.Sample.name).contains sample.read.name =
        true := by
    rw [List.contains_iff_mem, List.contains_iff_mem, List.map_map]
    exact hseen
  unfold addedLines Prometheus.sampleLines
  by_cases hmem : seenNames.contains sample.name = true
  · rw [if_pos hmem, if_pos (hread.mp hmem), List.nil_append, List.mapM_cons, hsampleLine]
    rfl
  · rw [if_neg hmem, if_neg (mt hread.mpr hmem), List.singleton_append, List.mapM_cons, htypeLine,
      List.mapM_cons, hsampleLine]
    rfl

theorem newline_not_mem_addedLines {seenNames : List (List Char)} {sample : CounterSample}
    (hsample : sample.Writable) : ∀ line ∈ addedLines seenNames sample, '\n' ∉ line := by
  intro line hline
  rcases List.mem_append.mp hline with hline | hline
  · split at hline
    · cases hline
    · rw [List.mem_singleton.mp hline]
      exact Prometheus.newline_not_mem_typeLine hsample.name (by decide)
  · rw [List.mem_singleton.mp hline]
    exact Prometheus.newline_not_mem_sampleLine hsample.name hsample.labels
      (Prometheus.isValue_toDigits sample.value.toNat)

theorem Wrote.step {doc₀ : Prometheus.Exposition} {samples : List CounterSample}
    {written : List (List Char) × List (List Char)} {sample : CounterSample}
    (h : Wrote doc₀ samples written) (hsample : sample.Writable)
    (hfresh : doc₀.Fresh sample.name)
    (hbefore : (samples ++ [sample]).Pairwise fun a b =>
      a.name ≤ b.name ∧ (a.name, a.labels) ≠ (b.name, b.labels))
    (hsorted : ∀ other ∈ samples, other.labels.Pairwise fun a b => toLex a ≤ toLex b) :
    ∃ written', MetricsRegistry.write written sample = some written' ∧
      Wrote doc₀ (samples ++ [sample]) written' := by
  obtain ⟨doc, hreads, hextends⟩ := h.reads
  have hother : ∀ other ∈ samples.map CounterSample.read,
      ¬(other.name = sample.name ∧ other.labels.Perm sample.labels) := by
    intro other hmem ⟨hname, hperm⟩
    obtain ⟨given, hgiven, rfl⟩ := List.mem_map.mp hmem
    have hne := ((List.pairwise_append.mp hbefore).2.2 given hgiven sample List.mem_cons_self).2
    have hlabels : given.labels = sample.labels :=
      hperm.eq_of_pairwise (fun a b _ _ => toLex_le_antisymm) (hsorted given hgiven) hsample.sorted
    exact hne (Prod.ext hname hlabels)
  -- the names are sorted: a name that came before came last
  have hnext : sample.name ∈ (samples.map CounterSample.read).map Prometheus.Sample.name →
      ∃ last, (samples.map CounterSample.read).getLast? = some last ∧ last.name = sample.name := by
    rw [List.map_map]
    intro hmem
    obtain ⟨last, hlast, hname⟩ := last_of_mem_sorted (hbefore.imp And.left) hmem
    exact ⟨last.read, by rw [List.getLast?_map, hlast]; rfl, hname⟩
  obtain ⟨doc', hdoc', hextends'⟩ :=
    @Prometheus.Exposition.Extends.step doc₀ doc .counter _ sample.read hextends hfresh
      hsample.nodup hother hnext
  refine ⟨_, write_eq hsample, ⟨doc', ?_, ?_⟩, fun name => ?_, fun line hline => ?_⟩
  · rw [Prometheus.readLines_append hreads (mapM_addedLines hsample (h.seen sample.name)), hdoc']
  · rw [List.map_append]
    exact hextends'
  · rw [List.map_append, List.mem_append, ← h.seen]
    split
    · next hseen =>
      refine ⟨.inl, fun hname => hname.elim id fun hname => ?_⟩
      rw [List.mem_singleton.mp hname]
      exact List.contains_iff_mem.mp hseen
    · exact List.mem_append
  · exact (List.mem_append.mp hline).elim (h.lines line)
      (newline_not_mem_addedLines hsample line)

theorem Wrote.run {doc₀ : Prometheus.Exposition} {rest samples : List CounterSample}
    {written : List (List Char) × List (List Char)} (h : Wrote doc₀ samples written)
    (hwritable : ∀ sample ∈ samples ++ rest, sample.Writable)
    (hfresh : ∀ sample ∈ rest, doc₀.Fresh sample.name)
    (hpairwise : (samples ++ rest).Pairwise fun a b =>
      a.name ≤ b.name ∧ (a.name, a.labels) ≠ (b.name, b.labels)) :
    ∃ written', rest.foldlM MetricsRegistry.write written = some written' ∧
      Wrote doc₀ (samples ++ rest) written' := by
  induction rest generalizing samples written with
  | nil => exact ⟨written, rfl, (List.append_nil samples).symm ▸ h⟩
  | cons sample rest ih =>
    obtain ⟨hsample, hrest⟩ := List.forall_mem_cons.mp hfresh
    rw [List.append_cons] at hwritable hpairwise ⊢
    obtain ⟨next, hwrite, hnext⟩ := h.step
      (hwritable sample (List.mem_append_left _ (List.mem_append_right _ List.mem_cons_self)))
      hsample (List.pairwise_append.mp hpairwise).1 fun other hother =>
        (hwritable other (List.mem_append_left _ (List.mem_append_left _ hother))).sorted
    obtain ⟨last, hfold, hlast⟩ := ih hnext hwritable hrest hpairwise
    exact ⟨last, by rw [List.foldlM_cons, hwrite]; exact hfold, hlast⟩

theorem wrote_samples (registry : MetricsRegistry)
    (hwritable : ∀ sample ∈ registry.samples, sample.Writable)
    (hpairwise : registry.samples.Pairwise fun a b =>
      a.name ≤ b.name ∧ (a.name, a.labels) ≠ (b.name, b.labels)) :
    ∃ value written,
      registry.samples.foldlM MetricsRegistry.write (registry.header, []) = some written ∧
        Wrote (startDoc value) registry.samples written := by
  obtain ⟨value, hheader⟩ := wrote_header registry
  have hfresh : ∀ sample ∈ registry.samples, (startDoc value).Fresh sample.name :=
    fun sample hsample => fresh_startDoc (hwritable sample hsample).reserved
  exact ⟨value, hheader.run hwritable hfresh hpairwise⟩

theorem writable_of_mem (hformed : ∀ call ∈ calls, call.WellFormed)
    (hreserved : ∀ call ∈ calls, call.name ≠ START_TIME)
    (hlimit : ∀ key, total calls key < ((10 ^ INT_MAX_STR_DIGITS : Nat) : Int))
    {sample : CounterSample} (h : sample ∈ (MetricsRegistry.run startedAt calls).samples) :
    sample.Writable := by
  obtain ⟨hpos, hvalue⟩ := mem_samples.mp h
  obtain ⟨call, hcall, hcalled, hset⟩ := exists_call_of_total hpos
  have hname : call.name = sample.name := hcalled
  refine ⟨hname ▸ (hformed call hcall).name, hname ▸ hreserved call hcall, fun label hlabel => ?_,
    hset.sorted, hset.nodup, hvalue ▸ hpos.le, hvalue ▸ hlimit _⟩
  obtain ⟨given, hgiven, hkey⟩ := List.mem_map.mp (hset.names _ (List.mem_map_of_mem hlabel))
  exact hkey ▸ (hformed call hcall).labels given hgiven

theorem readsBack {doc : Prometheus.Exposition} {value : Prometheus.Number}
    (hreserved : ∀ sample ∈ (MetricsRegistry.run startedAt calls).samples,
      sample.name ≠ START_TIME)
    (h : (startDoc value).Extends doc .counter
      ((MetricsRegistry.run startedAt calls).samples.map CounterSample.read)) :
    ReadsBack doc calls := by
  have hmem : ∀ sample, (.counter, sample) ∈ doc.samples ↔
      ∃ given ∈ (MetricsRegistry.run startedAt calls).samples, given.read = sample := by
    intro sample
    rw [h.samples_eq, List.map_map]
    simp [startDoc]
  refine ⟨?_, fun sample => ?_, fun sample hsample => ?_, h.nodup, fun name => ?_⟩
  · have hkeys : doc.samples.map (fun sample => (sample.2.name, sample.2.labels)) =
        (START_TIME, []) :: (MetricsRegistry.run startedAt calls).samples.map
          fun sample => (sample.name, sample.labels) := by
      rw [h.samples_eq, List.map_append, List.map_map, List.map_map]
      rfl
    rw [hkeys, List.nodup_cons]
    refine ⟨fun hstart => ?_, List.pairwise_map.mpr (pairwise_samples.imp And.right)⟩
    obtain ⟨given, hgiven, hkey⟩ := List.mem_map.mp hstart
    exact hreserved given hgiven (congrArg Prod.fst hkey)
  · rw [hmem]
    constructor
    · rintro ⟨given, hgiven, rfl⟩
      obtain ⟨hpos, hvalue⟩ := mem_samples.mp hgiven
      exact ⟨hpos, congrArg (fun n : Int => Prometheus.Number.integer n.toNat) hvalue, rfl⟩
    · rintro ⟨hpos, hvalue, htimestamp⟩
      refine ⟨⟨sample.name, sample.labels, total calls (sample.name, sample.labels)⟩,
        mem_samples.mpr ⟨hpos, rfl⟩, ?_⟩
      rw [CounterSample.read, ← hvalue, ← htimestamp]
  · rw [h.samples_eq, List.mem_append] at hsample
    rcases hsample with hstart | hcounter
    · rw [List.mem_singleton.mp hstart]
      exact .inr ⟨rfl, rfl⟩
    · obtain ⟨given, -, rfl⟩ := List.mem_map.mp hcounter
      exact .inl rfl
  · rw [h.mem_types]
    constructor
    · rintro (hstart | ⟨read, hread, heq⟩)
      · cases (Prod.ext_iff.mp (List.mem_singleton.mp hstart)).2
      · obtain ⟨given, hgiven, rfl⟩ := List.mem_map.mp hread
        obtain rfl : name = given.name := congrArg Prod.fst heq
        exact ⟨given.labels, (mem_samples.mp hgiven).1⟩
    · rintro ⟨labels, hpos⟩
      have hgiven : (⟨name, labels, total calls (name, labels)⟩ : CounterSample) ∈
          (MetricsRegistry.run startedAt calls).samples := mem_samples.mpr ⟨hpos, rfl⟩
      exact .inr ⟨_, List.mem_map_of_mem hgiven, rfl⟩

/-- What is counted under well-formed names can be read from the text. -/
theorem roundTrips (startedAt : FiniteDouble) (calls : List Increment)
    (hformed : ∀ call ∈ calls, call.WellFormed)
    (hreserved : ∀ call ∈ calls, call.name ≠ START_TIME)
    (hlimit : ∀ key, total calls key < ((10 ^ INT_MAX_STR_DIGITS : Nat) : Int)) :
    RoundTrips startedAt calls := by
  have hwritable : ∀ sample ∈ (MetricsRegistry.run startedAt calls).samples, sample.Writable :=
    fun sample => writable_of_mem hformed hreserved hlimit
  obtain ⟨value, written, hfold, hwrote⟩ := wrote_samples _ hwritable pairwise_samples
  obtain ⟨doc, hreads, hextends⟩ := hwrote.reads
  refine ⟨['\n'].intercalate (written.1 ++ [[]]), doc, ?_, ?_,
    readsBack (fun sample hsample => (hwritable sample hsample).reserved) hextends⟩
  · rw [MetricsRegistry.toPrometheusText, hfold, Option.map_some]
  · rw [Prometheus.parse_intercalate hwrote.lines, hreads]

def halfSecond : FiniteDouble := ⟨"0.5".toList, by decide⟩

def requestsCall (amount : Int) : Increment :=
  ⟨"requests_total".toList, amount, [("path".toList, .text "a\"b\\c\nd".toList)], by decide⟩

theorem wellFormed_requestsCall (amount : Int) : (requestsCall amount).WellFormed where
  name := (by decide : Prometheus.isMetricName "requests_total".toList = true)
  labels := (by decide : ∀ label ∈ [("path".toList, LabelValue.text "a\"b\\c\nd".toList)],
    Prometheus.isLabelName label.1 = true)

/-- Two calls with a label value that needs its escapes. -/
theorem roundTrips_requests : RoundTrips halfSecond [requestsCall 2, requestsCall 3] := by
  refine roundTrips _ _ ?_ (by decide) fun key => ?_
  · simp [wellFormed_requestsCall]
  · have hcounts : [requestsCall 2, requestsCall 3].filterMap Increment.counts =
        [(("requests_total".toList, [("path".toList, "a\"b\\c\nd".toList)]), 2),
          (("requests_total".toList, [("path".toList, "a\"b\\c\nd".toList)]), 3)] := by decide
    have hpow : 10 ≤ 10 ^ INT_MAX_STR_DIGITS := Nat.le_self_pow (by decide) 10
    have htotal : total [requestsCall 2, requestsCall 3] key ≤ 5 := by
      rw [total, hcounts, List.filter_cons, List.filter_cons, List.filter_nil]
      split
      · decide
      · decide
    omega

def startTimeCall : Increment := ⟨START_TIME, 1, [], by decide⟩

def plainCall (amount : Int) : Increment := ⟨"requests_total".toList, amount, [], by decide⟩

theorem samples_plainCall {amount : Int} (h : 0 < amount) :
    (MetricsRegistry.run halfSecond [plainCall amount]).samples =
      [⟨"requests_total".toList, [], amount⟩] := by
  have hcounts : (plainCall amount).counts = some (("requests_total".toList, []), amount) := by
    have hamount : ¬(plainCall amount).amount ≤ 0 := Int.not_le.mpr h
    rw [Increment.counts, if_neg hamount]
    rfl
  rw [run_eq, List.filterMap_cons_some hcounts, List.filterMap_nil]
  simp [MetricsRegistry.samples, OrderedDict.alter, OrderedDict.setDefault, OrderedDict.modify,
    OrderedDict.get?, updateFirstBy, findBy, MetricsRegistry.dict]

theorem str_eq_none {n : Nat} (h : 10 ^ INT_MAX_STR_DIGITS ≤ n) : str n = none := by
  have hlength : ¬(Nat.toDigits 10 (n : Int).natAbs).length ≤ INT_MAX_STR_DIGITS := by
    rw [Nat.length_toDigits_le_iff (by decide) (by decide), Int.natAbs_natCast]
    exact Nat.not_lt.mpr h
  rw [str, if_neg hlength]

/-- A total of too many digits is not printed. -/
theorem toPrometheusText_plainCall {n : Nat} (h : 10 ^ INT_MAX_STR_DIGITS ≤ n) :
    (MetricsRegistry.run halfSecond [plainCall n]).toPrometheusText = none := by
  have hpow : 0 < 10 ^ INT_MAX_STR_DIGITS := Nat.pow_pos (by decide)
  have hpos : (0 : Int) < n := by omega
  rw [MetricsRegistry.toPrometheusText, samples_plainCall hpos, List.foldlM_cons,
    MetricsRegistry.write, str_eq_none h]
  rfl

/-- A counter with the name of the start time makes a text with two type lines for it, and a
total of too many digits makes none at all. -/
theorem not_roundTrips : (startTimeCall.WellFormed ∧ ¬RoundTrips halfSecond [startTimeCall]) ∧
    (plainCall (10 ^ INT_MAX_STR_DIGITS : Nat)).WellFormed ∧
      ¬RoundTrips halfSecond [plainCall (10 ^ INT_MAX_STR_DIGITS : Nat)] := by
  refine ⟨⟨⟨by decide, by decide⟩, ?_⟩, ⟨?_, nofun⟩, ?_⟩
  · rintro ⟨text, doc, htext, hparse, -⟩
    have hnone : (MetricsRegistry.run halfSecond [startTimeCall]).toPrometheusText.bind
        Prometheus.parse = none := by decide +kernel
    rw [htext, Option.bind_some, hparse] at hnone
    cases hnone
  · exact (by decide : Prometheus.isMetricName "requests_total".toList = true)
  · rintro ⟨text, doc, htext, -⟩
    rw [toPrometheusText_plainCall le_rfl] at htext
    cases htext

end Aetus.Ingest.Metrics
