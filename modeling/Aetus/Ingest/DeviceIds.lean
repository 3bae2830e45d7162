import Aetus.Ingest.DeviceRegistry

/-!
New device ids: when there is one, that it is new, and that no two hardware ids are ever
answered with the same one.
-/

set_option autoImplicit false

namespace Aetus.Ingest
open Aetus.Base

variable {backend : Backend} {unicode : Unicode} {devices : Devices}

def deviceIdPattern (unicode : Unicode) (hardwareId : List Char) : List Char :=
  normalizedPrefix unicode hardwareId ++ ['-', '%']

/-- The number behind the last dash of an id. -/
def idNumber (unicode : Unicode) (deviceId : List Char) : Option Int :=
  (afterLast '-' deviceId).bind (parseInt unicode)

/-- SQLite takes the pattern, and no id that matches it has the greatest number that Python
reads and prints. -/
structure NumberLeft (backend : Backend) (unicode : Unicode) (devices : Devices)
    (hardwareId : List Char) : Prop where
  pattern : backend.dialect.tooComplex (deviceIdPattern unicode hardwareId) = true →
    devices.rows = []
  number : ∀ row ∈ devices.rows,
    backend.dialect.like (deviceIdPattern unicode hardwareId) row.deviceId = true →
      idNumber unicode row.deviceId ≠ some ((10 ^ INT_MAX_STR_DIGITS - 1 : Nat) : Int)

/-! Numbers -/

theorem numeralDigits_isDigit {text digits : List Char} (h : numeralDigits text = some digits) :
    ∀ c ∈ digits, c.isDigit = true := by
  fun_induction numeralDigits text generalizing digits with
  | case1 => cases h
  | case2 c hc =>
    obtain rfl := Option.some.inj h
    simpa using hc
  | case3 => cases h
  | case4 c rest hc ih =>
    obtain ⟨digits', hdigits', rfl⟩ := Option.map_eq_some_iff.mp h
    exact List.forall_mem_cons.mpr ⟨hc, ih hdigits'⟩
  | case5 => cases h
  | case6 c rest hrest hnot hc ih =>
    obtain ⟨digits', hdigits', rfl⟩ := Option.map_eq_some_iff.mp h
    exact List.forall_mem_cons.mpr ⟨hc, ih hdigits'⟩
  | case7 => cases h

theorem ofDigitChars_lt {digits : List Char} (h : ∀ c ∈ digits, c.isDigit = true) :
    Nat.ofDigitChars 10 digits 0 < 10 ^ digits.length := by
  induction digits using List.reverseRecOn with
  | nil => decide
  | append_singleton digits c ih =>
    have hc : c.toNat ≤ 57 := by
      have hdigit := h c (List.mem_append_right _ List.mem_cons_self)
      simp only [Char.isDigit, Bool.and_eq_true, decide_eq_true_eq] at hdigit
      exact UInt32.le_iff_toNat_le.mp hdigit.2
    have hzero : '0'.toNat = 48 := rfl
    have hfront := ih fun d hd => h d (List.mem_append_left _ hd)
    rw [Nat.ofDigitChars_append, Nat.ofDigitChars_cons, Nat.ofDigitChars_nil, List.length_append,
      List.length_singleton, Nat.pow_succ, hzero]
    omega

theorem unsignedInt_lt {text : List Char} {n : Nat} (h : unsignedInt text = some n) :
    n < 10 ^ INT_MAX_STR_DIGITS := by
  obtain ⟨digits, hdigits, hvalue⟩ := Option.bind_eq_some_iff.mp h
  split at hvalue
  · next hlength =>
    obtain rfl := Option.some.inj hvalue
    exact (ofDigitChars_lt (numeralDigits_isDigit hdigits)).trans_le
      (Nat.pow_le_pow_right (by decide) hlength)
  · cases hvalue

theorem parseInt_lt {text : List Char} {number : Int} (h : parseInt unicode text = some number) :
    number < ((10 ^ INT_MAX_STR_DIGITS : Nat) : Int) := by
  have hcast : ∀ {digits : List Char}, Option.map Int.ofNat (unsignedInt digits) = some number →
      number < ((10 ^ INT_MAX_STR_DIGITS : Nat) : Int) := by
    intro digits hnumber
    obtain ⟨n, hn, rfl⟩ := Option.map_eq_some_iff.mp hnumber
    exact Int.ofNat_lt.mpr (unsignedInt_lt hn)
  simp only [parseInt] at h
  split at h
  · obtain ⟨_, hn, rfl⟩ := Option.map_eq_some_iff.mp h
    obtain ⟨n, hdigits, hcast⟩ := Option.bind_eq_some_iff.mp hn
    obtain rfl := Option.some.inj hcast
    have hlt := unsignedInt_lt hdigits
    omega
  · exact hcast h
  · exact hcast h

theorem format03d_ok_iff (n : Nat) :
    (∃ number, format03d n = .ok number) ↔ n < 10 ^ INT_MAX_STR_DIGITS := by
  rw [← Nat.length_toDigits_le_iff (by decide) (by decide)]
  simp only [format03d]
  split
  · next hlength => exact iff_of_true ⟨_, rfl⟩ hlength
  · next hlength =>
    refine iff_of_false ?_ hlength
    rintro ⟨number, h⟩
    cases h

theorem maxSuffix_attained (unicode : Unicode) (candidates : List (List Char)) :
    maxSuffix unicode candidates = 0 ∨
      ∃ candidate ∈ candidates, idNumber unicode candidate = some (maxSuffix unicode candidates) := by
  induction candidates using List.reverseRecOn with
  | nil => exact Or.inl rfl
  | append_singleton candidates candidate ih =>
    have hlast : maxSuffix unicode (candidates ++ [candidate]) =
        (idNumber unicode candidate).elim (maxSuffix unicode candidates)
          (max (maxSuffix unicode candidates)) := by
      rw [maxSuffix, List.foldl_append, List.foldl_cons, List.foldl_nil, idNumber]
      cases (afterLast '-' candidate).bind (parseInt unicode) with
      | none => rfl
      | some suffix => rfl
    have hkept : maxSuffix unicode (candidates ++ [candidate]) = maxSuffix unicode candidates →
        maxSuffix unicode (candidates ++ [candidate]) = 0 ∨
          ∃ other ∈ candidates ++ [candidate], idNumber unicode other =
            some (maxSuffix unicode (candidates ++ [candidate])) := by
      intro hsame
      rw [hsame]
      refine ih.imp_right ?_
      rintro ⟨other, hmem, hother⟩
      exact ⟨other, List.mem_append_left _ hmem, hother⟩
    cases hcandidate : idNumber unicode candidate with
    | none =>
      rw [hcandidate] at hlast
      exact hkept hlast
    | some suffix =>
      rw [hcandidate] at hlast
      rcases Int.le_total suffix (maxSuffix unicode candidates) with hle | hle
      · exact hkept (hlast.trans (Int.max_eq_left hle))
      · have hmax := Int.max_eq_right hle
        refine Or.inr ⟨candidate, List.mem_append_right _ List.mem_cons_self, ?_⟩
        rw [hcandidate, hlast]
        exact congrArg some hmax.symm

theorem maxSuffix_nonneg (unicode : Unicode) (candidates : List (List Char)) :
    0 ≤ maxSuffix unicode candidates := (le_foldl_maxSuffix unicode candidates 0).1

theorem maxSuffix_succ_lt_iff (unicode : Unicode) (candidates : List (List Char)) :
    (maxSuffix unicode candidates + 1).toNat < 10 ^ INT_MAX_STR_DIGITS ↔
      ∀ candidate ∈ candidates,
        idNumber unicode candidate ≠ some ((10 ^ INT_MAX_STR_DIGITS - 1 : Nat) : Int) := by
  have hpow : 1 < 10 ^ INT_MAX_STR_DIGITS := Nat.one_lt_pow (by decide) (by decide)
  have hnonneg := maxSuffix_nonneg unicode candidates
  generalize hlimit : 10 ^ INT_MAX_STR_DIGITS = limit at *
  constructor
  · intro hlt candidate hmem hnumber
    have hle : ((limit - 1 : Nat) : Int) ≤ maxSuffix unicode candidates :=
      (le_foldl_maxSuffix unicode candidates 0).2 candidate hmem _ hnumber
    omega
  · intro hnot
    rcases maxSuffix_attained unicode candidates with hzero | ⟨candidate, hmem, hnumber⟩
    · omega
    · have hne := hnot candidate hmem
      obtain ⟨text, -, hparse⟩ := Option.bind_eq_some_iff.mp hnumber
      have hlt := parseInt_lt hparse
      rw [hlimit] at hlt
      rw [hnumber] at hne
      have hne' : maxSuffix unicode candidates ≠ ((limit - 1 : Nat) : Int) := fun heq =>
        hne (congrArg some heq)
      omega

/-! Ids -/

theorem nextDeviceId_ok_iff (backend : Backend) (unicode : Unicode) (devices : Devices)
    (hardwareId : List Char) :
    (∃ deviceId, nextDeviceId backend unicode devices hardwareId = .ok deviceId) ↔
      NumberLeft backend unicode devices hardwareId := by
  simp only [nextDeviceId]
  split
  · next hcomplex =>
    rw [Bool.and_eq_true, Bool.not_eq_true', List.isEmpty_eq_false_iff] at hcomplex
    refine iff_of_false ?_ fun h => hcomplex.2 (h.pattern hcomplex.1)
    rintro ⟨deviceId, h⟩
    cases h
  · next hsimple =>
    have hpattern : backend.dialect.tooComplex (deviceIdPattern unicode hardwareId) = true →
        devices.rows = [] := by
      intro htoo
      by_contra hrows
      exact hsimple (Bool.and_eq_true_iff.mpr ⟨htoo, by simpa using hrows⟩)
    have hnumbers : (∀ candidate ∈ (devices.rows.map DeviceRecord.deviceId).filter
          (backend.dialect.like (deviceIdPattern unicode hardwareId)),
          idNumber unicode candidate ≠ some ((10 ^ INT_MAX_STR_DIGITS - 1 : Nat) : Int)) ↔
        NumberLeft backend unicode devices hardwareId := by
      simp only [List.mem_filter, List.mem_map, and_imp, forall_exists_index,
        forall_apply_eq_imp_iff₂]
      exact ⟨fun h => ⟨hpattern, h⟩, NumberLeft.number⟩
    rw [← hnumbers, ← maxSuffix_succ_lt_iff, ← format03d_ok_iff]
    constructor
    · rintro ⟨deviceId, h⟩
      split at h
      · cases h
      · next number hnumber => exact ⟨number, hnumber⟩
    · rintro ⟨number, hnumber⟩
      simp only [deviceIdPattern] at hnumber
      exact ⟨normalizedPrefix unicode hardwareId ++ '-' :: number, by rw [hnumber]⟩

/-! Runs -/

theorem issueDeviceToken_saved {store after : ControlStore} {request : IssueRequest}
    {saved : DeviceRecord}
    (h : issueDeviceToken backend unicode store request = .ok (saved, after)) :
    saved.hardwareId = request.hardwareId ∧
      ∃ row ∈ after.devices.rows, row.deviceId = saved.deviceId ∧
        row.hardwareId = saved.hardwareId := by
  cases hfind : findBy DeviceRecord.hardwareId request.hardwareId store.devices.rows with
  | none =>
    obtain ⟨hhardware, -, hinsert⟩ := issueDeviceToken_new hfind h
    obtain ⟨-, -, hrows⟩ := Devices.insert_ok hinsert
    refine ⟨hhardware, saved, ?_, rfl, rfl⟩
    rw [hrows]
    exact List.mem_append_right _ List.mem_cons_self
  | some row =>
    obtain ⟨hrow, hhardware⟩ := mem_of_findBy hfind
    have hkeeps := (issueDeviceToken_ok h).1 row hrow
    rw [issueDeviceToken_known hrow hhardware] at h
    split at h
    · obtain ⟨rfl, -⟩ := Prod.mk.inj (Except.ok.inj h)
      exact ⟨hhardware, hkeeps⟩
    · cases h

def ControlRun.Recorded (r : ControlRun) : Prop :=
  ∀ request record, (.issueDeviceToken request, .ok (some record)) ∈ r.history →
    record.hardwareId = request.hardwareId ∧
      ∃ row ∈ r.store.devices.rows, row.deviceId = record.deviceId ∧
        row.hardwareId = record.hardwareId

theorem ControlRun.Recorded.step {r : ControlRun} (h : r.Recorded) (op : ControlOperation) :
    (r.step backend unicode op).Recorded := by
  have hkeeps := r.step_keepsPairs backend unicode op
  intro request record hmem
  have hearlier : (.issueDeviceToken request, .ok (some record)) ∈ r.history →
      record.hardwareId = request.hardwareId ∧
        ∃ row ∈ (r.step backend unicode op).store.devices.rows,
          row.deviceId = record.deviceId ∧ row.hardwareId = record.hardwareId := by
    intro hold
    obtain ⟨hhardware, row, hrow, hdevice, hsame⟩ := h request record hold
    obtain ⟨kept, hkept, hkeptdevice, hkepthardware⟩ := hkeeps row hrow
    exact ⟨hhardware, kept, hkept, hkeptdevice.trans hdevice, hkepthardware.trans hsame⟩
  cases hperform : op.perform backend unicode r.store with
  | error e =>
    have hstep : r.step backend unicode op = ⟨r.store, (op, .error e) :: r.history⟩ := by
      rw [ControlRun.step, hperform]
    rw [hstep] at hmem hearlier ⊢
    rcases List.mem_cons.mp hmem with heq | hold
    · cases heq
    · exact hearlier hold
  | ok answer =>
    have hstep : r.step backend unicode op = ⟨answer.2, (op, .ok answer.1) :: r.history⟩ := by
      rw [ControlRun.step, hperform]
    rw [hstep] at hmem hearlier ⊢
    rcases List.mem_cons.mp hmem with heq | hold
    · obtain ⟨rfl, hanswer⟩ := Prod.mk.inj heq
      rw [ControlOperation.perform] at hperform
      split at hperform
      · cases hperform
      · next hissue =>
        obtain rfl := Except.ok.inj hperform
        obtain rfl := Option.some.inj (Except.ok.inj hanswer)
        exact issueDeviceToken_saved hissue
    · exact hearlier hold

theorem ControlRun.Recorded.run (backend : Backend) (unicode : Unicode)
    (ops : List ControlOperation) {r : ControlRun} (h : r.Recorded) :
    (ops.foldl (ControlRun.step backend unicode) r).Recorded :=
  List.foldlRecOn ops _ h fun _ hr op _ => hr.step op

/-- While there is a number left, an id comes out that no row has. In every run, whatever is
seeded in between, different hardware ids are answered with different device ids. -/
theorem deviceIds_distinct (backend : Backend) (unicode : Unicode) :
    (∀ devices hardwareId,
      (∃ deviceId, nextDeviceId backend unicode devices hardwareId = .ok deviceId ∧
          ∀ row ∈ devices.rows, row.deviceId ≠ deviceId) ↔
        NumberLeft backend unicode devices hardwareId) ∧
      ∀ (store : ControlStore) (ops : List ControlOperation) (request request' : IssueRequest)
        (record record' : DeviceRecord),
        let r := ops.foldl (ControlRun.step backend unicode) ⟨store, []⟩
        (.issueDeviceToken request, .ok (some record)) ∈ r.history →
          (.issueDeviceToken request', .ok (some record')) ∈ r.history →
            request.hardwareId ≠ request'.hardwareId → record.deviceId ≠ record'.deviceId := by
  refine ⟨fun devices hardwareId => ?_, fun store ops request request' record record' => ?_⟩
  · rw [← nextDeviceId_ok_iff]
    constructor
    · rintro ⟨deviceId, h, -⟩
      exact ⟨deviceId, h⟩
    · rintro ⟨deviceId, h⟩
      exact ⟨deviceId, h, findBy_eq_none.mp (nextDeviceId_fresh h)⟩
  · intro r hmem hmem' hne hdevice
    have hrecorded : r.Recorded :=
      ControlRun.Recorded.run backend unicode ops fun _ _ h => nomatch h
    obtain ⟨hhardware, row, hrow, hrowdevice, hrowhardware⟩ := hrecorded _ _ hmem
    obtain ⟨hhardware', row', hrow', hrowdevice', hrowhardware'⟩ := hrecorded _ _ hmem'
    have hsame : row.hardwareId = row'.hardwareId :=
      (r.store.devices.oneToOne row hrow row' hrow').mp
        (hrowdevice.trans (hdevice.trans hrowdevice'.symm))
    exact hne (hhardware.symm.trans (hrowhardware.symm.trans
      (hsame.trans (hrowhardware'.trans hhardware'))))

/-! The greatest number -/

theorem ofDigitChars_nines (n : Nat) : Nat.ofDigitChars 10 (List.replicate n '9') 0 = 10 ^ n - 1 := by
  induction n with
  | zero => rfl
  | succ n ih =>
    have hpos : 0 < 10 ^ n := Nat.pow_pos (by decide)
    have hnine : '9'.toNat - '0'.toNat = 9 := rfl
    rw [List.replicate_succ', Nat.ofDigitChars_append, ih, Nat.ofDigitChars_cons,
      Nat.ofDigitChars_nil, hnine, Nat.pow_succ]
    omega

def nines : DeviceRecord :=
  ⟨"a-".toList ++ List.replicate INT_MAX_STR_DIGITS '9', "seed-a".toList, "token".toList, none, none,
    none, [], []⟩

theorem idNumber_nines (unicode : Unicode) :
    idNumber unicode nines.deviceId = some ((10 ^ INT_MAX_STR_DIGITS - 1 : Nat) : Int) := by
  have hdigits : ∀ c ∈ List.replicate INT_MAX_STR_DIGITS '9', c.isDigit = true := by
    intro c hc
    rw [List.eq_of_mem_replicate hc]
    rfl
  have hdash : '-' ∉ List.replicate INT_MAX_STR_DIGITS '9' := fun h => by
    simpa using List.eq_of_mem_replicate h
  have hne : List.replicate INT_MAX_STR_DIGITS '9' ≠ [] := by
    rw [Ne, List.replicate_eq_nil_iff]
    decide
  have hlast := @afterLast_append '-' ['a'] _ hdash
  rw [idNumber, nines]
  show (afterLast '-' (['a'] ++ '-' :: List.replicate INT_MAX_STR_DIGITS '9')).bind _ = _
  rw [hlast, Option.bind_some, parseInt_digits unicode hne hdigits
    (List.length_replicate ▸ Nat.le_refl _), ofDigitChars_nines]

def ninesDevices : Devices := ⟨[nines], List.nodup_singleton _, List.nodup_singleton _⟩

theorem not_numberLeft_nines (dialect : Dialect) :
    ¬NumberLeft ⟨dialect, fun _ => true, id, fun _ _ => true⟩ ⟨id, fun c => c = ' ', id⟩ ninesDevices
      "a-1".toList := by
  intro hleft
  refine hleft.number nines List.mem_cons_self ?_ (idNumber_nines _)
  exact like_prefix dialect _ (normalizedPrefix_isLowerAlnum ⟨id, fun c => c = ' ', id⟩ "a-1".toList)

/-- No id comes out of either database for a hardware id with the prefix of that device. -/
theorem nextDeviceId_nines :
    (¬∃ deviceId, nextDeviceId ⟨.sqlite, fun _ => true, id, fun _ _ => true⟩
      ⟨id, fun c => c = ' ', id⟩ ninesDevices "a-1".toList = .ok deviceId) ∧
    ¬∃ deviceId, nextDeviceId ⟨.postgres, fun _ => true, id, fun _ _ => true⟩
      ⟨id, fun c => c = ' ', id⟩ ninesDevices "a-1".toList = .ok deviceId := by
  rw [nextDeviceId_ok_iff, nextDeviceId_ok_iff]
  exact ⟨not_numberLeft_nines .sqlite, not_numberLeft_nines .postgres⟩

end Aetus.Ingest
