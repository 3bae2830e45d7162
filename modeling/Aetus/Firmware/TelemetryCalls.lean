import Aetus.Firmware.FrameCalls
import Aetus.Firmware.TelemetryPayload

/-!
The class Telemetry of aetus.hpp. A chain of its calls is queued only if none of them failed, and
then the copy in the queue has the metrics of the chain.
-/

set_option autoImplicit false

namespace Aetus.Firmware
open Aetus.Base

inductive TelemetryCall where
  | timestamp (timestampNs : UInt64)
  | timestampFromRtc (read : Option Timeval)
  | tryTimestampFromRtc (read : Option Timeval)
  | addInt64 (key : List UInt8) (value : Int64) (unit : List UInt8)
  | addDouble (key : List UInt8) (bits : UInt64) (unit : List UInt8)
  | addBool (key : List UInt8) (value : Bool) (unit : List UInt8)
  | addString (key : List UInt8) (value : Option CBuffer) (unit : List UInt8)
  | addBytes (key : List UInt8) (value : Option CBuffer) (unit : List UInt8)

def copiedCall (key unit : List UInt8) (call : Option CString → Option CString → BuilderCall) :
    Option BuilderCall :=
  match copyStringView AETUS_METRIC_KEY_MAX key, copyStringView AETUS_METRIC_UNIT_MAX unit with
  | some keyBuffer, some unitBuffer => some (call (some keyBuffer) (some unitBuffer))
  | _, _ => none

def telemetrySetTimestampRtc (t : Telemetry) (read : Option Timeval) : Except Failure Telemetry := do
  let timestampNs ← aetusRtcTimestampNs read
  return { t with timestampNs := timestampNs }

/-- The error that an add call of the class remembers, and what it leaves. -/
def addCopied (t : Telemetry) (h : Heap) : Option BuilderCall → EspErr × BuilderState
  | none => (.invalidArg, t, h)
  | some call => (errorCode (builderResult t h call).1, (builderResult t h call).2)

def telemetryCall (inIsr : Bool) (t : Telemetry) (h : Heap) : TelemetryCall → EspErr × BuilderState
  | .timestamp ns => (.ok, { t with timestampNs := ns }, h)
  | .timestampFromRtc read =>
    match telemetrySetTimestampRtc t read with
    | .ok next => (.ok, next, h)
    | .error e => (e.code, t, h)
  | .tryTimestampFromRtc read =>
    match telemetrySetTimestampRtc t read with
    | .ok next => (.ok, next, h)
    | .error _ => (.ok, t, h)
  | .addInt64 key value unit => addCopied t h (copiedCall key unit (.addInt64 value inIsr))
  | .addDouble key bits unit => addCopied t h (copiedCall key unit (.addDouble bits inIsr))
  | .addBool key value unit => addCopied t h (copiedCall key unit (.addBool value inIsr))
  | .addString key value unit =>
    addCopied t h (copiedCall key unit (.addStringN (spanArg value) inIsr))
  | .addBytes key value unit => addCopied t h (copiedCall key unit (.addBytes (spanArg value) inIsr))

/-- A Telemetry after these calls, on a heap that other tasks use too. -/
inductive TelemetryChain (inIsr : Bool) : List TelemetryCall → Sticky Telemetry EspErr → Heap → Prop
  where
  | init (h : Heap) : TelemetryChain inIsr [] ⟨telemetryInit, .ok⟩ h
  | call {calls : List TelemetryCall} {o : Sticky Telemetry EspErr} {h : Heap} (c : TelemetryCall) :
      TelemetryChain inIsr calls o h →
      TelemetryChain inIsr (calls ++ [c])
        ⟨(telemetryCall inIsr o.value h c).2.1,
          remember .ok o.error (telemetryCall inIsr o.value h c).1⟩
        (telemetryCall inIsr o.value h c).2.2
  | environment {calls : List TelemetryCall} {o : Sticky Telemetry EspErr} {h k : Heap} :
      TelemetryChain inIsr calls o h → h.Keeps k o.value.blocks → TelemetryChain inIsr calls o k

def telemetryEnqueue {σ : Type} (rt : Runtime σ) (o : Sticky Telemetry EspErr) (s : State) :
    EspErr × State :=
  if o.error ≠ .ok then (o.error, s)
  else
    let (result, s) := aetusEnqueueTelemetry rt (some o.value) s
    (errorCode result, s)

/-! What a chain describes -/

namespace TelemetryCall

def time : TelemetryCall → Option UInt64
  | .timestamp ns => some ns
  | .timestampFromRtc read => (aetusRtcTimestampNs read).toOption
  | .tryTimestampFromRtc read => (aetusRtcTimestampNs read).toOption
  | _ => none

/-- A key or a unit is what stands before the first zero byte, a text value is all that is given. -/
def metric : TelemetryCall → Option ReportMetric
  | .addInt64 key value unit =>
    some ⟨(CString.ofBytes key).bytes, (CString.ofBytes unit).bytes, some (.int value)⟩
  | .addDouble key bits unit =>
    some ⟨(CString.ofBytes key).bytes, (CString.ofBytes unit).bytes, some (.double bits)⟩
  | .addBool key value unit =>
    some ⟨(CString.ofBytes key).bytes, (CString.ofBytes unit).bytes, some (.bool value)⟩
  | .addString key value unit => some ⟨(CString.ofBytes key).bytes, (CString.ofBytes unit).bytes,
      some (.string (spanArg value).bytes)⟩
  | .addBytes key value unit => some ⟨(CString.ofBytes key).bytes, (CString.ofBytes unit).bytes,
      some (.bytes (spanArg value).bytes)⟩
  | _ => none

def texts : TelemetryCall → Option (List UInt8 × List UInt8)
  | .addInt64 key _ unit => some (key, unit)
  | .addDouble key _ unit => some (key, unit)
  | .addBool key _ unit => some (key, unit)
  | .addString key _ unit => some (key, unit)
  | .addBytes key _ unit => some (key, unit)
  | _ => none

def Fits (c : TelemetryCall) : Prop :=
  (∀ key unit, c.texts = some (key, unit) → key.length < AETUS_METRIC_KEY_MAX ∧
    unit.length < AETUS_METRIC_UNIT_MAX ∧ CString.ofBytes key ≠ .empty) ∧
  ∀ read, c = .timestampFromRtc read → ∃ ns, aetusRtcTimestampNs read = .ok ns

end TelemetryCall

/-! The errors of the add calls -/

section Errors

variable {inIsr : Bool} {t t' : Telemetry} {h h' : Heap} {key unit : Option CString} {e : Failure}

/-- A task whose arguments are in order is refused for lack of memory only. -/
def FailsWith (inIsr : Bool) (t : Telemetry) (key unit : Option CString) (e : Failure) : Prop :=
  e.code ≠ .ok ∧ (inIsr = false → checkMetric t key unit = .ok () → e.code = .noMem)

theorem checkMetric_error (hcheck : checkMetric t key unit = .error e) : e.code = .invalidArg := by
  have hrefuses : Refuses (checkMetric t key unit) := by
    unfold checkMetric
    exact (refuses_espReturnOnFalse _ _).bind fun _ => (refuses_espReturnOnFalse _ _).bind fun _ =>
      (refuses_espReturnOnFalse _ _).bind fun _ => refuses_espReturnOnFalse _ _
  exact hrefuses e hcheck

theorem appendMetric_error (hr : appendMetric inIsr t h key unit = (.error e, t', h')) :
    FailsWith inIsr t key unit e := by
  unfold appendMetric at hr
  cases hcheck : checkMetric t key unit with
  | error failure =>
    simp only [hcheck, Prod.mk.injEq, Except.error.injEq] at hr
    obtain ⟨rfl, -⟩ := hr
    have hcode := checkMetric_error hcheck
    exact ⟨by rw [hcode]; decide, fun _ hok => by rw [hcheck] at hok; cases hok⟩
  | ok u =>
    simp only [hcheck] at hr
    unfold reserveHeapMetrics at hr
    by_cases hneed : AETUS_TELEMETRY_INLINE_METRICS ≤ t.metricCount ∧ t.heapMetrics = none
    · rw [if_pos hneed] at hr
      cases inIsr with
      | true =>
        simp only [if_true, Prod.mk.injEq, Except.error.injEq] at hr
        obtain ⟨rfl, -⟩ := hr
        exact ⟨by decide, fun hfalse => by cases hfalse⟩
      | false =>
        by_cases hg : h.grant h.asked = true
        · simp [BlockHeap.alloc_granted _ hg] at hr
        · simp only [BlockHeap.alloc_refused _ (by simpa using hg), Bool.false_eq_true, if_false,
            Prod.mk.injEq, Except.error.injEq] at hr
          obtain ⟨rfl, -⟩ := hr
          exact ⟨by decide, fun _ _ => rfl⟩
    · simp [if_neg hneed] at hr

theorem addScalar_error {value : MetricValue}
    (hr : addScalar value inIsr t h key unit = (.error e, t', h')) :
    FailsWith inIsr t key unit e := by
  unfold addScalar at hr
  split at hr
  · next happ =>
    cases hr
    exact appendMetric_error happ
  · cases hr

theorem telemetryAddStringN_error {value : BlobArg} (hvalid : value.valid = true)
    (hr : telemetryAddStringN value inIsr t h key unit = (.error e, t', h')) :
    FailsWith inIsr t key unit e := by
  unfold telemetryAddStringN at hr
  rw [if_pos hvalid] at hr
  split at hr
  · next happ =>
    cases hr
    exact appendMetric_error happ
  · split at hr
    · cases hr
      exact ⟨by decide, fun _ _ => rfl⟩
    · cases hr

theorem telemetryAddBytes_error {value : BlobArg} (hvalid : value.valid = true)
    (hr : telemetryAddBytes value inIsr t h key unit = (.error e, t', h')) :
    FailsWith inIsr t key unit e := by
  unfold telemetryAddBytes at hr
  rw [if_pos hvalid] at hr
  split at hr
  · next happ =>
    cases hr
    exact appendMetric_error happ
  · split at hr
    · split at hr
      · cases hr
        exact ⟨by decide, fun _ _ => rfl⟩
      · cases hr
    · cases hr

theorem setSlot_timestampNs (t : Telemetry) (i : Nat) (m : Metric) :
    (t.setSlot i m).timestampNs = t.timestampNs := by
  unfold Telemetry.setSlot
  split <;> rfl

theorem appendMetric_timestampNs {r : Except Failure Unit}
    (hr : appendMetric inIsr t h key unit = (r, t', h')) : t'.timestampNs = t.timestampNs := by
  unfold appendMetric at hr
  split at hr
  · cases hr
    rfl
  · unfold reserveHeapMetrics at hr
    split at hr
    · next hreserve =>
      cases hr
      split at hreserve
      · split at hreserve
        · cases hreserve
          rfl
        · split at hreserve
          · cases hreserve
            rfl
          · cases hreserve
      · cases hreserve
    · next hreserve =>
      cases hr
      split at hreserve
      · split at hreserve
        · cases hreserve
        · split at hreserve
          · cases hreserve
          · cases hreserve
            exact setSlot_timestampNs _ _ _
      · cases hreserve
        exact setSlot_timestampNs _ _ _

theorem AddOutcome.keeps {filled : Heap → Metric → Prop} {r : Except Failure Unit}
    (ha : AddOutcome filled inIsr t h key unit r t' h') :
    t'.timestampNs = t.timestampNs ∧ (r = .ok () → checkMetric t key unit = .ok ()) := by
  have hcheck {t1 : Telemetry} {h1 : Heap} (happ : appendMetric inIsr t h key unit = (.ok (), t1, h1)) :
      checkMetric t key unit = .ok () := by
    unfold appendMetric at happ
    split at happ
    · cases happ
    · next hok => exact hok
  cases ha with
  | rejected e => exact ⟨rfl, fun hok => by cases hok⟩
  | notAppended happ => exact ⟨appendMetric_timestampNs happ, fun hok => by cases hok⟩
  | noBlob e happ =>
    exact ⟨(setSlot_timestampNs _ _ _).trans (appendMetric_timestampNs happ), fun hok => by cases hok⟩
  | inPlace value size happ hv hfilled =>
    exact ⟨(setSlot_timestampNs _ _ _).trans (appendMetric_timestampNs happ), fun _ => hcheck happ⟩
  | withBlob value size b happ hv hback hfilled =>
    exact ⟨(setSlot_timestampNs _ _ _).trans (appendMetric_timestampNs happ), fun _ => hcheck happ⟩

end Errors

/-! One call -/

section Calls

variable {inIsr : Bool} {t : Telemetry} {h : Heap} {c : TelemetryCall}

theorem spanArg_valid (span : Option CBuffer) : (spanArg span).valid = true := by
  cases span <;> rfl

/-- How the add calls of the library differ: in the value that they put behind the texts. -/
structure AddsValue (inIsr : Bool) (add : Option CString → Option CString → BuilderCall)
    (v : ReportValue) : Prop where
  metric : ∀ k u : CString, (add (some k) (some u)).metric = some ⟨k.bytes, u.bytes, some v⟩
  outcome : ∀ (t t' : Telemetry) (h h' : Heap) (k u : CString) (r : Except Failure Unit),
    builderResult t h (add (some k) (some u)) = (r, t', h') →
      ∃ filled, AddOutcome filled inIsr t h (some k) (some u) r t' h'
  error : ∀ (t t' : Telemetry) (h h' : Heap) (k u : CString) (e : Failure),
    builderResult t h (add (some k) (some u)) = (.error e, t', h') →
      FailsWith inIsr t (some k) (some u) e

theorem telemetryCall_add (inIsr : Bool) {key unit : List UInt8} (htexts : c.texts = some (key, unit)) :
    c.time = none ∧ (∀ read, c ≠ .timestampFromRtc read) ∧
    ∃ (add : Option CString → Option CString → BuilderCall) (v : ReportValue),
      (∀ t h, telemetryCall inIsr t h c = addCopied t h (copiedCall key unit add)) ∧
      c.metric = some ⟨(CString.ofBytes key).bytes, (CString.ofBytes unit).bytes, some v⟩ ∧
      AddsValue inIsr add v := by
  cases c with
  | addInt64 key value unit =>
    obtain ⟨rfl, rfl⟩ := Prod.mk.inj (Option.some.inj htexts)
    exact ⟨rfl, nofun, .addInt64 value inIsr, .int value, fun _ _ => rfl, rfl, fun _ _ => rfl,
      fun _ _ _ _ _ _ _ hr => ⟨_, addScalar_outcome rfl hr⟩, fun _ _ _ _ _ _ _ hr => addScalar_error hr⟩
  | addDouble key bits unit =>
    obtain ⟨rfl, rfl⟩ := Prod.mk.inj (Option.some.inj htexts)
    exact ⟨rfl, nofun, .addDouble bits inIsr, .double bits, fun _ _ => rfl, rfl, fun _ _ => rfl,
      fun _ _ _ _ _ _ _ hr => ⟨_, addScalar_outcome rfl hr⟩, fun _ _ _ _ _ _ _ hr => addScalar_error hr⟩
  | addBool key value unit =>
    obtain ⟨rfl, rfl⟩ := Prod.mk.inj (Option.some.inj htexts)
    exact ⟨rfl, nofun, .addBool value inIsr, .bool value, fun _ _ => rfl, rfl, fun _ _ => rfl,
      fun _ _ _ _ _ _ _ hr => ⟨_, addScalar_outcome rfl hr⟩, fun _ _ _ _ _ _ _ hr => addScalar_error hr⟩
  | addString key value unit =>
    obtain ⟨rfl, rfl⟩ := Prod.mk.inj (Option.some.inj htexts)
    exact ⟨rfl, nofun, .addStringN (spanArg value) inIsr, .string (spanArg value).bytes, fun _ _ => rfl,
      rfl, fun _ _ => rfl, fun _ _ _ _ _ _ _ hr => ⟨_, telemetryAddStringN_outcome hr⟩,
      fun _ _ _ _ _ _ _ hr => telemetryAddStringN_error (spanArg_valid value) hr⟩
  | addBytes key value unit =>
    obtain ⟨rfl, rfl⟩ := Prod.mk.inj (Option.some.inj htexts)
    exact ⟨rfl, nofun, .addBytes (spanArg value) inIsr, .bytes (spanArg value).bytes, fun _ _ => rfl,
      rfl, fun _ _ => rfl, fun _ _ _ _ _ _ _ hr => ⟨_, telemetryAddBytes_outcome hr⟩,
      fun _ _ _ _ _ _ _ hr => telemetryAddBytes_error (spanArg_valid value) hr⟩
  | timestamp ns => cases htexts
  | timestampFromRtc read => cases htexts
  | tryTimestampFromRtc read => cases htexts

theorem telemetryCall_time (inIsr : Bool) (htexts : c.texts = none) (t : Telemetry) (h : Heap) :
    c.metric = none ∧ (telemetryCall inIsr t h c).2 =
      ({ t with timestampNs := c.time.getD t.timestampNs }, h) ∧
    ((telemetryCall inIsr t h c).1 = .ok ↔ c.Fits) := by
  cases c with
  | timestamp ns => exact ⟨rfl, rfl, iff_of_true rfl ⟨nofun, nofun⟩⟩
  | timestampFromRtc read =>
    refine ⟨rfl, ?_⟩
    cases hread : aetusRtcTimestampNs read with
    | ok ns =>
      simp [telemetryCall, telemetrySetTimestampRtc, hread, TelemetryCall.time, TelemetryCall.Fits,
        TelemetryCall.texts, Except.toOption, bind, Except.bind, pure, Except.pure]
    | error e =>
      have hcode := aetusRtcTimestampNs_code hread
      simp [telemetryCall, telemetrySetTimestampRtc, hread, hcode, TelemetryCall.time,
        TelemetryCall.Fits, TelemetryCall.texts, Except.toOption, bind, Except.bind]
  | tryTimestampFromRtc read =>
    refine ⟨rfl, ?_⟩
    cases hread : aetusRtcTimestampNs read with
    | ok ns =>
      simp [telemetryCall, telemetrySetTimestampRtc, hread, TelemetryCall.time, TelemetryCall.Fits,
        TelemetryCall.texts, Except.toOption, bind, Except.bind, pure, Except.pure]
    | error e =>
      simp [telemetryCall, telemetrySetTimestampRtc, hread, TelemetryCall.time, TelemetryCall.Fits,
        TelemetryCall.texts, Except.toOption, bind, Except.bind]
  | _ => cases htexts

theorem copiedCall_eq (key unit : List UInt8) (add : Option CString → Option CString → BuilderCall) :
    copiedCall key unit add =
      if key.length < AETUS_METRIC_KEY_MAX ∧ unit.length < AETUS_METRIC_UNIT_MAX then
        some (add (some (.ofBytes key)) (some (.ofBytes unit)))
      else none := by
  by_cases hkey : key.length < AETUS_METRIC_KEY_MAX
  · by_cases hunit : unit.length < AETUS_METRIC_UNIT_MAX
    · simp [copiedCall, copyStringView, Nat.not_le.mpr hkey, Nat.not_le.mpr hunit, hkey, hunit]
    · simp [copiedCall, copyStringView, Nat.not_le.mpr hkey, Nat.not_lt.mp hunit, hunit]
  · simp [copiedCall, copyStringView, Nat.not_lt.mp hkey, hkey]

section Add

variable {add : Option CString → Option CString → BuilderCall} {v : ReportValue}
  {key unit : List UInt8}

theorem errorCode_eq_ok {r : Except Failure Unit} (herror : ∀ e, r = .error e → e.code ≠ .ok)
    (h : errorCode r = .ok) : r = .ok () := by
  cases r with
  | ok u => rfl
  | error e => exact absurd h (herror e rfl)

theorem AddsValue.ok (ha : AddsValue inIsr add v)
    (hok : (addCopied t h (copiedCall key unit add)).1 = .ok) :
    (key.length < AETUS_METRIC_KEY_MAX ∧ unit.length < AETUS_METRIC_UNIT_MAX ∧
      CString.ofBytes key ≠ .empty) ∧
    builderResult t h (add (some (.ofBytes key)) (some (.ofBytes unit))) =
      (.ok (), (addCopied t h (copiedCall key unit add)).2) ∧
    (addCopied t h (copiedCall key unit add)).2.1.timestampNs = t.timestampNs := by
  rw [copiedCall_eq] at hok ⊢
  split at hok
  · next hlengths =>
    rw [if_pos hlengths]
    have hresult : (builderResult t h (add (some (.ofBytes key)) (some (.ofBytes unit)))).1 = .ok () :=
      errorCode_eq_ok (fun e he => (ha.error t _ h _ _ _ e (Prod.ext he rfl)).1) hok
    obtain ⟨filled, houtcome⟩ := ha.outcome t _ h _ (.ofBytes key) (.ofBytes unit) _ rfl
    obtain ⟨htime, hcheck⟩ := houtcome.keeps
    obtain ⟨⟨k, hk, hne⟩, -⟩ := checkMetric_eq_ok.mp (hcheck hresult)
    exact ⟨⟨hlengths.1, hlengths.2, Option.some.inj hk ▸ hne⟩, Prod.ext hresult rfl, htime⟩
  · cases hok

theorem AddsValue.refused (ha : AddsValue false add v) (hkey : key.length < AETUS_METRIC_KEY_MAX)
    (hunit : unit.length < AETUS_METRIC_UNIT_MAX) (hne : CString.ofBytes key ≠ .empty)
    (hroom : t.metricCount < AETUS_MAX_METRICS) :
    (addCopied t h (copiedCall key unit add)).1 = .ok ∨
      (addCopied t h (copiedCall key unit add)).1 = .noMem := by
  rw [copiedCall_eq, if_pos ⟨hkey, hunit⟩]
  have hcheck : checkMetric t (some (.ofBytes key)) (some (.ofBytes unit)) = .ok () :=
    checkMetric_eq_ok.mpr ⟨⟨_, rfl, hne⟩,
      stringFits_of_strlen_lt ((strlen_ofBytes_le key).trans_lt hkey),
      stringFits_of_strlen_lt ((strlen_ofBytes_le unit).trans_lt hunit), hroom⟩
  cases hresult : (builderResult t h (add (some (.ofBytes key)) (some (.ofBytes unit)))).1 with
  | ok u =>
    rw [addCopied, hresult]
    exact .inl rfl
  | error e =>
    have hcode := (ha.error t _ h _ _ _ e (Prod.ext hresult rfl)).2 rfl hcheck
    rw [addCopied, hresult]
    exact .inr hcode

theorem AddsValue.owned (ha : AddsValue inIsr add v) (key unit : List UInt8) (ho : Owned t h) :
    Owned (addCopied t h (copiedCall key unit add)).2.1 (addCopied t h (copiedCall key unit add)).2.2 ∧
      (addCopied t h (copiedCall key unit add)).2.1.metricCount ≤ t.metricCount + 1 := by
  rw [copiedCall_eq]
  split
  · have howned := callBuilder_owned (add (some (.ofBytes key)) (some (.ofBytes unit))) ho
    rw [callBuilder_eq] at howned
    have hadd := BuilderCall.isAdd_of_metric (ha.metric (.ofBytes key) (.ofBytes unit))
    have hcount := (builderResult_effect ho hadd rfl).count
    refine ⟨howned, ?_⟩
    rw [addCopied]
    split at hcount
    · exact hcount.le
    · exact hcount.le.trans (Nat.le_succ _)
  · exact ⟨ho, Nat.le_succ _⟩

end Add

end Calls

/-! Chains -/

section Chains

variable {inIsr : Bool} {calls : List TelemetryCall} {o : Sticky Telemetry EspErr} {h : Heap}

theorem TelemetryCall.fits_of_texts {c : TelemetryCall} {key unit : List UInt8}
    (htexts : c.texts = some (key, unit)) (hrtc : ∀ read, c ≠ .timestampFromRtc read) :
    c.Fits ↔ key.length < AETUS_METRIC_KEY_MAX ∧ unit.length < AETUS_METRIC_UNIT_MAX ∧
      CString.ofBytes key ≠ .empty := by
  constructor
  · exact fun h => h.1 key unit htexts
  · refine fun h => ⟨fun k u hku => ?_, fun read hread => absurd hread (hrtc read)⟩
    obtain ⟨rfl, rfl⟩ := Prod.mk.inj (Option.some.inj (htexts.symm.trans hku))
    exact h

/-- Calls of which none failed have put their metrics into the structure, and the last time. -/
theorem TelemetryChain.reported (hc : TelemetryChain inIsr calls o h) (hok : o.error = .ok) :
    Reported (calls.filterMap TelemetryCall.metric) o.value h ∧
      o.value.timestampNs = (lastGiven TelemetryCall.time calls).getD 0 ∧ ∀ c ∈ calls, c.Fits := by
  induction hc with
  | init h => exact ⟨.init h, rfl, by simp⟩
  | environment _ hkeeps ih =>
    obtain ⟨hr, htime, hfits⟩ := ih hok
    exact ⟨.environment hr hkeeps, htime, hfits⟩
  | @call calls o h c _ ih =>
    obtain ⟨hbefore, hcall⟩ := remember_eq_ok_iff.mp hok
    obtain ⟨hr, htime, hfits⟩ := ih hbefore
    have hall (hlast : c.Fits) : ∀ d ∈ calls ++ [c], d.Fits := by
      intro d hd
      rcases List.mem_append.mp hd with hd | hd
      · exact hfits d hd
      · exact List.mem_singleton.mp hd ▸ hlast
    rw [List.filterMap_append, lastGiven_concat, Option.getD_or]
    cases htexts : c.texts with
    | none =>
      obtain ⟨hnone, hnext, hiff⟩ := telemetryCall_time inIsr htexts o.value h
      simp only [hnext, hnone, List.filterMap_cons, List.filterMap_nil, List.append_nil]
      refine ⟨.setTimestamp _ hr, ?_, hall (hiff.mp hcall)⟩
      rw [htime]
    | some texts =>
      obtain ⟨key, unit⟩ := texts
      obtain ⟨hnone, hrtc, add, v, hadd, hmetric, ha⟩ := telemetryCall_add inIsr htexts
      rw [hadd] at hcall ⊢
      obtain ⟨hlast, hresult, hkept⟩ := ha.ok hcall
      simp only [hmetric, hnone, List.filterMap_cons, List.filterMap_nil, Option.getD_none]
      exact ⟨.add _ hr (ha.metric _ _) hresult, hkept.trans htime,
        hall ((TelemetryCall.fits_of_texts htexts hrtc).mpr hlast)⟩

theorem TelemetryChain.owned (hc : TelemetryChain inIsr calls o h) :
    Owned o.value h ∧ o.value.metricCount ≤ (calls.filterMap TelemetryCall.metric).length := by
  induction hc with
  | init h => exact ⟨.init h, Nat.le_refl _⟩
  | environment _ hkeeps ih => exact ⟨ih.1.frame hkeeps.block, ih.2⟩
  | @call calls o h c _ ih =>
    obtain ⟨ho, hcount⟩ := ih
    rw [List.filterMap_append, List.length_append]
    cases htexts : c.texts with
    | none =>
      obtain ⟨-, hnext, -⟩ := telemetryCall_time inIsr htexts o.value h
      rw [hnext]
      exact ⟨{ ho with }, hcount.trans (Nat.le_add_right _ _)⟩
    | some texts =>
      obtain ⟨key, unit⟩ := texts
      obtain ⟨-, -, add, v, hadd, hmetric, ha⟩ := telemetryCall_add inIsr htexts
      obtain ⟨hnext, hless⟩ := ha.owned key unit ho
      rw [hadd]
      refine ⟨hnext, hless.trans ?_⟩
      simpa [hmetric] using hcount

theorem TelemetryChain.error (hc : TelemetryChain false calls o h) (hfits : ∀ c ∈ calls, c.Fits)
    (hroom : (calls.filterMap TelemetryCall.metric).length ≤ AETUS_MAX_METRICS) :
    o.error = .ok ∨ o.error = .noMem := by
  induction hc with
  | init h => exact .inl rfl
  | environment _ hkeeps ih => exact ih hfits hroom
  | @call calls o h c hc ih =>
    rw [List.filterMap_append, List.length_append] at hroom
    have hbefore := ih (fun d hd => hfits d (List.mem_append_left _ hd)) (by omega)
    rcases hbefore with hok | hmem
    · simp only [hok, remember_ok_left]
      have hlast := hfits c List.mem_concat_self
      cases htexts : c.texts with
      | none => exact .inl ((telemetryCall_time false htexts o.value h).2.2.mpr hlast)
      | some texts =>
        obtain ⟨key, unit⟩ := texts
        obtain ⟨-, hrtc, add, v, hadd, hmetric, ha⟩ := telemetryCall_add false htexts
        obtain ⟨hkey, hunit, hne⟩ := (TelemetryCall.fits_of_texts htexts hrtc).mp hlast
        have hless := hc.owned.2
        rw [List.filterMap_cons_some hmetric, List.filterMap_nil, List.length_singleton] at hroom
        rw [hadd]
        exact ha.refused hkey hunit hne (by omega)
    · have hne : EspErr.noMem ≠ .ok := by decide
      simp only [hmem, remember_of_ne hne, or_true]

theorem copyTelemetryToQueueItem_cases (t : Telemetry) (old : QueueItem) (h : Heap) :
    (∃ c k, copyTelemetryToQueueItem (some t) (some old) h = (.ok, some ⟨none, .telemetry c⟩, k)) ∨
      ∃ item k, copyTelemetryToQueueItem (some t) (some old) h = (.noMem, item, k) := by
  simp only [copyTelemetryToQueueItem]
  split
  · exact .inr ⟨_, _, rfl⟩
  · split
    · exact .inl ⟨_, _, rfl⟩
    · exact .inr ⟨_, _, rfl⟩

theorem enqueueTelemetry_cases (t : Telemetry) (s : State) :
    (∃ c, copyTelemetryToQueueItem (some t) (some ⟨none, .telemetry .zero⟩) s.heap =
        (.ok, some ⟨none, .telemetry c⟩, (enqueueTelemetry (some t) s).2.heap) ∧
      (enqueueTelemetry (some t) s).2.calls =
        ⟨.sending, s.history.nextTicket, none, .telemetry c⟩ :: s.calls ∧
      errorCode (enqueueTelemetry (some t) s).1 = .ok) ∨
    errorCode (enqueueTelemetry (some t) s).1 = .noMem := by
  rcases copyTelemetryToQueueItem_cases t ⟨none, .telemetry .zero⟩ s.heap with
    ⟨c, k, hcopy⟩ | ⟨item, k, hcopy⟩
  · refine .inl ⟨c, ?_⟩
    simp only [enqueueTelemetry, hcopy]
    exact ⟨rfl, rfl, rfl⟩
  · refine .inr ?_
    simp only [enqueueTelemetry, hcopy, errorCode]

/-- The item holds the metrics that these calls describe, and their time, for as long as nobody
touches its blocks. -/
structure QueuedAs (calls : List TelemetryCall) (c : Telemetry) (k : Heap) : Prop where
  timestampNs : c.timestampNs = (lastGiven TelemetryCall.time calls).getD 0
  metrics : ∀ l, k.Keeps l c.blocks → List.Forall₂ (Holds l)
    (calls.filterMap TelemetryCall.metric) (c.slots.take c.metricCount)

/-- A chain of calls and its `enqueue`: what is queued after calls of which none failed, and why
a chain that fits can still be refused. -/
theorem telemetryEnqueue_chain {σ : Type} (rt : Runtime σ) {s : State}
    (hc : TelemetryChain inIsr calls o s.heap) :
    ((telemetryEnqueue rt o s).1 = .ok → (∀ c ∈ calls, c.Fits) ∧
      (calls.filterMap TelemetryCall.metric).length ≤ AETUS_MAX_METRICS ∧
      ∃ c, (telemetryEnqueue rt o s).2.calls =
          ⟨.sending, s.history.nextTicket, none, .telemetry c⟩ :: s.calls ∧
        QueuedAs calls c (telemetryEnqueue rt o s).2.heap) ∧
    (inIsr = false → rt.queue = true → (∀ c ∈ calls, c.Fits) →
      (calls.filterMap TelemetryCall.metric).length ≤ AETUS_MAX_METRICS →
      (telemetryEnqueue rt o s).1 = .ok ∨ (telemetryEnqueue rt o s).1 = .noMem) := by
  constructor
  · intro hresult
    by_cases hok : o.error = .ok
    · have henqueue : telemetryEnqueue rt o s =
          (errorCode (aetusEnqueueTelemetry rt (some o.value) s).1,
            (aetusEnqueueTelemetry rt (some o.value) s).2) := if_neg (not_not.mpr hok)
      obtain ⟨hr, htime, hfits⟩ := hc.reported hok
      obtain ⟨howned, hall⟩ := hr.holds
      have hlength : (calls.filterMap TelemetryCall.metric).length ≤ AETUS_MAX_METRICS := by
        rw [hall.length_eq, List.length_take]
        exact (Nat.min_le_left _ _).trans howned.count_le
      rw [henqueue] at hresult ⊢
      cases hstarted : rt.queue with
      | false => simp [aetusEnqueueTelemetry, checkStarted, hstarted, errorCode, notStarted] at hresult
      | true =>
        have hstart : aetusEnqueueTelemetry rt (some o.value) s = enqueueTelemetry (some o.value) s := by
          simp [aetusEnqueueTelemetry, checkStarted, hstarted]
        rw [hstart] at hresult ⊢
        rcases enqueueTelemetry_cases o.value s with ⟨c, hcopy, hcalls, -⟩ | hmem
        · have hscalars := (copyTelemetry_ownCopy howned hcopy).scalars.1
          exact ⟨hfits, hlength, c, hcalls, hscalars.trans htime,
            fun l hkeeps => (hr.copy_holds hcopy hkeeps).2⟩
        · cases hmem.symm.trans hresult
    · rw [telemetryEnqueue, if_pos hok] at hresult
      exact absurd hresult hok
  · rintro rfl hstarted hfits hlength
    rcases hc.error hfits hlength with hok | hmem
    · rw [telemetryEnqueue, if_neg (not_not.mpr hok)]
      have hstart : aetusEnqueueTelemetry rt (some o.value) s = enqueueTelemetry (some o.value) s := by
        simp [aetusEnqueueTelemetry, checkStarted, hstarted]
      rw [hstart]
      rcases enqueueTelemetry_cases o.value s with ⟨c, -, -, hcode⟩ | hcode
      · exact .inl hcode
      · exact .inr hcode
    · have hne : o.error ≠ .ok := by
        rw [hmem]
        decide
      rw [telemetryEnqueue, if_pos hne]
      exact .inr hmem

end Chains

theorem roomText_fits : ([111, 107] : List UInt8).length + 1 < 2 ^ 32 := by decide

def roomTime : TelemetryCall := .timestamp 1700000000000000000

def roomCount : TelemetryCall := .addInt64 (utf8 "count".toList) (-5) []

def roomState : TelemetryCall :=
  .addString (utf8 "state".toList) (some ⟨[111, 107], roomText_fits⟩) []

def roomObject : Sticky Telemetry EspErr × Heap :=
  [roomTime, roomCount, roomState].foldl (fun s c => (⟨(telemetryCall false s.1.value s.2 c).2.1,
    remember .ok s.1.error (telemetryCall false s.1.value s.2 c).1⟩,
    (telemetryCall false s.1.value s.2 c).2.2)) (⟨telemetryInit, .ok⟩, .empty fun _ => true)

def roomDevice : State := started (.lit "boot-0000002a") roomObject.2

theorem telemetryEnqueue_chain_room : ∃ c,
    (telemetryEnqueue { labRuntime with queue := true } roomObject.1 roomDevice).2.calls =
      [⟨.sending, 0, none, .telemetry c⟩] ∧
    QueuedAs [roomTime, roomCount, roomState] c
      (telemetryEnqueue { labRuntime with queue := true } roomObject.1 roomDevice).2.heap := by
  have hstart : TelemetryChain false [] ⟨telemetryInit, .ok⟩ (.empty fun _ => true) := .init _
  have hchain : TelemetryChain false [roomTime, roomCount, roomState] roomObject.1 roomDevice.heap :=
    ((hstart.call roomTime).call roomCount).call roomState
  obtain ⟨-, -, c, hcalls, hqueued⟩ :=
    (telemetryEnqueue_chain { labRuntime with queue := true } hchain).1 (by decide +kernel)
  exact ⟨c, hcalls, hqueued⟩

end Aetus.Firmware
