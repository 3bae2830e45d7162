import Aetus.Base.Dict
import Aetus.Base.Table
import Mathlib.Data.List.Infix

/-!
The device registry of the ingest service's control_db.py, in SQLite or PostgreSQL.
An operation is one serialized transaction; one that raises is rolled back.
-/

set_option autoImplicit false

namespace Aetus.Ingest
open Aetus.Base

structure DeviceRecord where
  deviceId : List Char
  hardwareId : List Char
  token : List Char
  model : Option (List Char)
  firmwareVersion : Option Int
  siteCode : Option (List Char)
  createdAt : List Char
  updatedAt : List Char
  deriving DecidableEq

/-- The table `devices`, `device_id TEXT PRIMARY KEY` and `hardware_id TEXT NOT NULL UNIQUE`. -/
structure Devices where
  rows : List DeviceRecord
  deviceId_unique : UniqueBy DeviceRecord.deviceId rows
  hardwareId_unique : UniqueBy DeviceRecord.hardwareId rows

structure ControlStore where
  devices : Devices
  hardwareAllowlist : List (List Char)

def ControlStore.initialized : ControlStore :=
  ⟨⟨[], List.nodup_nil, List.nodup_nil⟩, []⟩

/-- What an operation raises: a violated constraint, a value that the database refuses, a
pattern too long for SQLite, a number too long for Python to print, a saved row that is not
found. -/
inductive StoreError where
  | integrityError
  | dataError
  | operationalError
  | valueError
  | assertionError
  deriving DecidableEq

inductive Dialect where
  | sqlite
  | postgres
  deriving DecidableEq

/-- SQLite's `LIKE` ignores the case of ASCII letters. -/
def Dialect.fold : Dialect → Char → Char
  | .sqlite => Char.toLower
  | .postgres => id

def Dialect.escape : Dialect → Option Char
  | .sqlite => none
  | .postgres => some '\\'

/-- The dialect, the rows that the columns can hold, SQL's `lower` and the order
`created_at DESC, device_id DESC`. -/
structure Backend where
  dialect : Dialect
  accepts : DeviceRecord → Bool
  lower : List Char → List Char
  newestFirst : DeviceRecord → DeviceRecord → Bool

def Dialect.like (dialect : Dialect) : List Char → List Char → Bool
  | [], text => text.isEmpty
  | [c], text =>
    if c = '%' then true
    else if c = '_' then text.length = 1
    else dialect.escape ≠ some c && text.map dialect.fold = [dialect.fold c]
  | c :: d :: pattern, text =>
    if dialect.escape = some c then
      text.head?.map dialect.fold = some (dialect.fold d) && dialect.like pattern text.tail
    else if c = '%' then text.tails.any fun rest => dialect.like (d :: pattern) rest
    else if c = '_' then !text.isEmpty && dialect.like (d :: pattern) text.tail
    else text.head?.map dialect.fold = some (dialect.fold c) &&
      dialect.like (d :: pattern) text.tail

/-- `SQLITE_MAX_LIKE_PATTERN_LENGTH`, in bytes. -/
def SQLITE_MAX_LIKE_PATTERN_LENGTH : Nat := 50000

/-- Patterns of ASCII characters that SQLite does not compare a text with. -/
def Dialect.tooComplex (dialect : Dialect) (pattern : List Char) : Bool :=
  dialect = .sqlite && SQLITE_MAX_LIKE_PATTERN_LENGTH < pattern.length

/-- What Python reads from its tables of characters: `str.lower`, the blanks that `strip`
takes off, and for `int` the digits and blanks beyond ASCII. -/
structure Unicode where
  lower : List Char → List Char
  isSpace : Char → Bool
  decimalOrSpace : Char → Char

def strip (isSpace : Char → Bool) (text : List Char) : List Char :=
  ((text.dropWhile isSpace).reverse.dropWhile isSpace).reverse

/-- `rsplit(sep, 1)[1]`; without the separator it is an `IndexError`. -/
def afterLast (sep : Char) (text : List Char) : Option (List Char) :=
  if sep ∈ text then some (text.reverse.takeWhile (· ≠ sep)).reverse else none

def isSpace (c : Char) : Bool := c = ' ' || ('\t' ≤ c && c ≤ '\r')

/-- The digits of a numeral, in which single underscores may stand between them. -/
def numeralDigits : List Char → Option (List Char)
  | [] => none
  | [c] => if c.isDigit then some [c] else none
  | c :: '_' :: rest => if c.isDigit then (numeralDigits rest).map (c :: ·) else none
  | c :: rest => if c.isDigit then (numeralDigits rest).map (c :: ·) else none

def INT_MAX_STR_DIGITS : Nat := 4300

def unsignedInt (text : List Char) : Option Nat :=
  (numeralDigits text).bind fun digits =>
    if digits.length ≤ INT_MAX_STR_DIGITS then some (Nat.ofDigitChars 10 digits 0) else none

/-- `int(text)`; a `ValueError` is `none`. -/
def parseInt (unicode : Unicode) (text : List Char) : Option Int :=
  let ascii := if text.all (·.val < 128) then text
    else text.map fun c => if c.val < 128 then c else unicode.decimalOrSpace c
  match strip isSpace ascii with
  | '-' :: digits => (unsignedInt digits).map fun n => -(n : Int)
  | '+' :: digits => (unsignedInt digits).map Int.ofNat
  | digits => (unsignedInt digits).map Int.ofNat

/-- `f"{n:03d}"`, a `ValueError` for a number of too many digits. -/
def format03d (n : Nat) : Except StoreError (List Char) :=
  let digits := Nat.toDigits 10 n
  if digits.length ≤ INT_MAX_STR_DIGITS then .ok (List.replicate (3 - digits.length) '0' ++ digits)
  else .error .valueError

def isLowerAlnum (c : Char) : Bool := ('a' ≤ c && c ≤ 'z') || ('0' ≤ c && c ≤ '9')

def normalizedPrefix (unicode : Unicode) (hardwareId : List Char) : List Char :=
  match (unicode.lower (hardwareId.takeWhile (· ≠ '-'))).filter isLowerAlnum with
  | [] => "device".toList
  | normalized => normalized

def maxSuffix (unicode : Unicode) (candidates : List (List Char)) : Int :=
  candidates.foldl (fun maxSuffix candidate =>
    match (afterLast '-' candidate).bind (parseInt unicode) with
    | none => maxSuffix
    | some suffix => max maxSuffix suffix) 0

def nextDeviceId (backend : Backend) (unicode : Unicode) (devices : Devices)
    (hardwareId : List Char) : Except StoreError (List Char) :=
  let normalized := normalizedPrefix unicode hardwareId
  let pattern := normalized ++ ['-', '%']
  -- the length of the pattern is looked at with each row
  if backend.dialect.tooComplex pattern && !devices.rows.isEmpty then .error .operationalError
  else
    let candidates := (devices.rows.map DeviceRecord.deviceId).filter
      (backend.dialect.like pattern)
    match format03d (maxSuffix unicode candidates + 1).toNat with
    | .error e => .error e
    | .ok number => .ok (normalized ++ '-' :: number)

def Devices.insert (backend : Backend) (devices : Devices) (row : DeviceRecord) :
    Except StoreError Devices :=
  if !backend.accepts row then .error .dataError
  else if h : findBy DeviceRecord.deviceId row.deviceId devices.rows = none ∧
      findBy DeviceRecord.hardwareId row.hardwareId devices.rows = none then
    .ok ⟨devices.rows ++ [row], devices.deviceId_unique.append_row h.1,
      devices.hardwareId_unique.append_row h.2⟩
  else .error .integrityError

/-- The columns that an `UPDATE devices` sets: never the two ids. -/
structure DeviceUpdate where
  set : DeviceRecord → DeviceRecord
  deviceId_eq : ∀ row, (set row).deviceId = row.deviceId
  hardwareId_eq : ∀ row, (set row).hardwareId = row.hardwareId

/-- `UPDATE devices` of the row with this device or hardware id. -/
def Devices.update (devices : Devices) (key : DeviceRecord → List Char) (id : List Char)
    (update : DeviceUpdate) : Devices :=
  ⟨updateBy key id update.set devices.rows,
    devices.deviceId_unique.updateBy update.deviceId_eq,
    devices.hardwareId_unique.updateBy update.hardwareId_eq⟩

/-- `ON CONFLICT(device_id) DO UPDATE SET token, updated_at`. -/
def seedUpdate (token now : List Char) : DeviceUpdate :=
  ⟨fun row => { row with token, updatedAt := now }, fun _ => rfl, fun _ => rfl⟩

def seedDevice (backend : Backend) (devices : Devices) (deviceId token now : List Char) :
    Except StoreError Devices :=
  let row : DeviceRecord := ⟨deviceId, "seed-".toList ++ deviceId, token, some "seeded".toList,
    none, none, now, now⟩
  match findBy DeviceRecord.deviceId deviceId devices.rows with
  | none => devices.insert backend row
  | some old =>
    if backend.accepts row && backend.accepts ((seedUpdate token now).set old) then
      .ok (devices.update DeviceRecord.deviceId deviceId (seedUpdate token now))
    else .error .dataError

def seedDevices (backend : Backend) (store : ControlStore)
    (deviceTokens : Dict (List Char) (List Char)) (now : List Char) :
    Except StoreError ControlStore :=
  match deviceTokens.entries.foldlM
      (fun devices entry => seedDevice backend devices entry.1 entry.2 now) store.devices with
  | .error e => .error e
  | .ok devices => .ok { store with devices }

structure IssueRequest where
  hardwareId : List Char
  model : Option (List Char)
  firmwareVersion : Option Int
  siteCode : Option (List Char)
  token : List Char
  now : List Char

def issueUpdate (request : IssueRequest) : DeviceUpdate :=
  ⟨fun row => { row with
      token := request.token, model := request.model, firmwareVersion := request.firmwareVersion,
      siteCode := request.siteCode, updatedAt := request.now },
    fun _ => rfl, fun _ => rfl⟩

def issueAttempt (backend : Backend) (unicode : Unicode) (store : ControlStore)
    (request : IssueRequest) : Except StoreError (DeviceRecord × ControlStore) :=
  let written : Except StoreError Devices :=
    match findBy DeviceRecord.hardwareId request.hardwareId store.devices.rows with
    | none =>
      match nextDeviceId backend unicode store.devices request.hardwareId with
      | .error e => .error e
      | .ok deviceId =>
        store.devices.insert backend ⟨deviceId, request.hardwareId, request.token, request.model,
          request.firmwareVersion, request.siteCode, request.now, request.now⟩
    | some row =>
      if backend.accepts ((issueUpdate request).set row) then
        .ok (store.devices.update DeviceRecord.hardwareId request.hardwareId (issueUpdate request))
      else .error .dataError
  match written with
  | .error e => .error e
  | .ok devices =>
    let hardwareAllowlist := store.hardwareAllowlist.insert request.hardwareId
    match findBy DeviceRecord.hardwareId request.hardwareId devices.rows with
    | none => .error .assertionError
    | some saved => .ok (saved, ⟨devices, hardwareAllowlist⟩)

/-- Up to three attempts, again only after a violated constraint. -/
def issueDeviceToken (backend : Backend) (unicode : Unicode) (store : ControlStore)
    (request : IssueRequest) : Except StoreError (DeviceRecord × ControlStore) :=
  attempts 3
where
  attempts : Nat → Except StoreError (DeviceRecord × ControlStore)
    | 0 => .error .integrityError
    | n + 1 =>
      match issueAttempt backend unicode store request with
      | .error .integrityError => attempts n
      | result => result

def ControlStore.device (store : ControlStore) (deviceId : List Char) : Option DeviceRecord :=
  findBy DeviceRecord.deviceId deviceId store.devices.rows

def ControlStore.getDeviceTokenReadonly (store : ControlStore) (deviceId : List Char) :
    Option (List Char) :=
  (store.device deviceId).map DeviceRecord.token

/-- What `LIKE` and `lower` read of a text: SQLite stops at a NUL. -/
def Dialect.readText : Dialect → List Char → List Char
  | .sqlite => List.takeWhile (· ≠ '\x00')
  | .postgres => id

def searchNeedle (unicode : Unicode) (query : List Char) : List Char :=
  '%' :: (unicode.lower (strip unicode.isSpace query) ++ ['%'])

def searchClause (backend : Backend) (unicode : Unicode) (query : List Char)
    (row : DeviceRecord) : Bool :=
  query.isEmpty ||
    [row.deviceId, row.hardwareId, row.model.getD [], row.siteCode.getD []].any fun column =>
      backend.dialect.like (backend.dialect.readText (searchNeedle unicode query))
        (backend.dialect.readText (backend.lower column))

/-- A search that psycopg does not send, because there is a NUL in its parameter. -/
def searchRefused (backend : Backend) (unicode : Unicode) (query : List Char) : Bool :=
  backend.dialect = .postgres && !query.isEmpty && '\x00' ∈ searchNeedle unicode query

def ControlStore.countDevicesReadonly (backend : Backend) (unicode : Unicode)
    (store : ControlStore) (query : List Char) : Nat :=
  store.devices.rows.countP (searchClause backend unicode query)

def ControlStore.listDevicesReadonly (backend : Backend) (unicode : Unicode)
    (store : ControlStore) (limit offset : Nat) (query : List Char) : List DeviceRecord :=
  (((store.devices.rows.filter (searchClause backend unicode query)).mergeSort
    backend.newestFirst).drop offset).take limit

inductive ControlOperation where
  | seedDevices (deviceTokens : Dict (List Char) (List Char)) (now : List Char)
  | issueDeviceToken (request : IssueRequest)

def ControlOperation.perform (backend : Backend) (unicode : Unicode) (store : ControlStore) :
    ControlOperation → Except StoreError (Option DeviceRecord × ControlStore)
  | .seedDevices deviceTokens now =>
    match Ingest.seedDevices backend store deviceTokens now with
    | .error e => .error e
    | .ok store => .ok (none, store)
  | .issueDeviceToken request =>
    match Ingest.issueDeviceToken backend unicode store request with
    | .error e => .error e
    | .ok (record, store) => .ok (some record, store)

/-! The next device id is not in use -/

theorem isLowerAlnum_facts {c : Char} (h : isLowerAlnum c = true) (dialect : Dialect) :
    dialect.escape ≠ some c ∧ c ≠ '%' ∧ c ≠ '_' := by
  refine ⟨?_, ?_, ?_⟩
  · cases dialect with
    | sqlite => simp [Dialect.escape]
    | postgres =>
      intro heq
      obtain rfl := Option.some.inj heq
      revert h
      decide
  · rintro rfl
    revert h
    decide
  · rintro rfl
    revert h
    decide

theorem like_dash (dialect : Dialect) (rest : List Char) :
    dialect.like ['-', '%'] ('-' :: rest) = true := by
  cases dialect <;> simp [Dialect.like, Dialect.escape]

theorem like_prefix (dialect : Dialect) (rest : List Char) {lits : List Char}
    (hlits : ∀ c ∈ lits, isLowerAlnum c = true) :
    dialect.like (lits ++ ['-', '%']) (lits ++ '-' :: rest) = true := by
  induction lits with
  | nil => exact like_dash dialect rest
  | cons c lits ih =>
    obtain ⟨hescape, hpercent, hunderscore⟩ := isLowerAlnum_facts (hlits c List.mem_cons_self) dialect
    have htail := ih fun d hd => hlits d (List.mem_cons_of_mem _ hd)
    obtain ⟨d, pattern, hpattern⟩ : ∃ d pattern, lits ++ ['-', '%'] = d :: pattern := by
      cases lits with
      | nil => exact ⟨_, _, rfl⟩
      | cons d lits => exact ⟨_, _, rfl⟩
    rw [hpattern] at htail
    rw [List.cons_append, List.cons_append, hpattern, Dialect.like, if_neg hescape, if_neg hpercent,
      if_neg hunderscore]
    simp [htail]

theorem normalizedPrefix_isLowerAlnum (unicode : Unicode) (hardwareId : List Char) :
    ∀ c ∈ normalizedPrefix unicode hardwareId, isLowerAlnum c = true := by
  unfold normalizedPrefix
  split
  · rw [← List.all_eq_true]
    decide
  · next hnormalized =>
    intro c hc
    exact (List.mem_filter.mp hc).2

theorem afterLast_append {sep : Char} {left right : List Char} (h : sep ∉ right) :
    afterLast sep (left ++ sep :: right) = some right := by
  have hright : ∀ c ∈ right.reverse, decide (c ≠ sep) = true := by
    intro c hc
    simpa using fun he : c = sep => h (he ▸ List.mem_reverse.mp hc)
  have hmem : sep ∈ left ++ sep :: right := by simp
  rw [afterLast, if_pos hmem, List.reverse_append, List.reverse_cons, List.append_assoc,
    List.takeWhile_append_of_pos hright]
  simp

theorem numeralDigits_of_isDigit {digits : List Char} (hne : digits ≠ [])
    (h : ∀ c ∈ digits, c.isDigit = true) : numeralDigits digits = some digits := by
  induction digits with
  | nil => exact absurd rfl hne
  | cons c digits ih =>
    have hc := h c List.mem_cons_self
    cases digits with
    | nil => simp [numeralDigits, hc]
    | cons d digits =>
      have hd := h d (List.mem_cons_of_mem _ List.mem_cons_self)
      have hunderscore : d ≠ '_' := by rintro rfl; revert hd; decide
      rw [numeralDigits]
      · simp [hc, ih (by simp) fun x hx => h x (List.mem_cons_of_mem _ hx)]
      · simp
      · simpa using hunderscore

theorem isDigit_facts {c : Char} (h : c.isDigit = true) :
    isSpace c = false ∧ c.val < 128 ∧ c ≠ '-' ∧ c ≠ '+' := by
  have hrange : 48 ≤ c.val ∧ c.val ≤ 57 := by simpa [Char.isDigit] using h
  refine ⟨?_, ?_, ?_, ?_⟩
  · have hspace : c ≠ ' ' := by rintro rfl; revert hrange; decide
    have hreturn : ¬c ≤ '\r' := by
      show ¬c.val ≤ 13
      grind
    simp [isSpace, hspace, hreturn]
  · grind
  · rintro rfl
    revert hrange
    decide
  · rintro rfl
    revert hrange
    decide

theorem dropWhile_isSpace_digits {digits : List Char} (h : ∀ c ∈ digits, c.isDigit = true) :
    digits.dropWhile isSpace = digits := by
  cases digits with
  | nil => rfl
  | cons c digits =>
    rw [List.dropWhile_cons_of_neg]
    simp [isDigit_facts (h c List.mem_cons_self)]

theorem parseInt_digits (unicode : Unicode) {digits : List Char} (hne : digits ≠ [])
    (h : ∀ c ∈ digits, c.isDigit = true) (hlen : digits.length ≤ INT_MAX_STR_DIGITS) :
    parseInt unicode digits = some ((Nat.ofDigitChars 10 digits 0 : Nat) : Int) := by
  have hascii : digits.all (·.val < 128) = true := by
    rw [List.all_eq_true]
    intro c hc
    exact decide_eq_true (isDigit_facts (h c hc)).2.1
  have hreverse : ∀ c ∈ digits.reverse, c.isDigit = true := by
    intro c hc
    exact h c (List.mem_reverse.mp hc)
  have hstrip : strip isSpace digits = digits := by
    rw [strip, dropWhile_isSpace_digits h, dropWhile_isSpace_digits hreverse, List.reverse_reverse]
  have hvalue : unsignedInt digits = some (Nat.ofDigitChars 10 digits 0) := by
    simp [unsignedInt, numeralDigits_of_isDigit hne h, hlen]
  rw [parseInt, if_pos hascii, hstrip]
  split
  · exact absurd rfl (isDigit_facts (h '-' List.mem_cons_self)).2.2.1
  · exact absurd rfl (isDigit_facts (h '+' List.mem_cons_self)).2.2.2
  · rw [hvalue]
    rfl

theorem format03d_cases {n : Nat} {number : List Char} (h : format03d n = .ok number) :
    number ≠ [] ∧ (∀ c ∈ number, c.isDigit = true) ∧ number.length ≤ INT_MAX_STR_DIGITS ∧
      Nat.ofDigitChars 10 number 0 = n := by
  simp only [format03d] at h
  split at h
  · next hlen =>
    obtain rfl := Except.ok.inj h
    refine ⟨by simp [Nat.toDigits_ne_nil], ?_, ?_, ?_⟩
    · intro c hc
      rcases List.mem_append.mp hc with hzero | hdigit
      · rw [List.eq_of_mem_replicate hzero]
        rfl
      · exact Nat.isDigit_of_mem_toDigits (by decide) (by decide) hdigit
    · have hmax : INT_MAX_STR_DIGITS = 4300 := rfl
      rw [List.length_append, List.length_replicate]
      omega
    · rw [Nat.ofDigitChars_append, Nat.ofDigitChars_replicate_zero, Nat.mul_zero,
        Nat.ofDigitChars_ten_toDigits]
  · cases h

theorem le_foldl_maxSuffix (unicode : Unicode) (candidates : List (List Char)) (start : Int) :
    let fold := candidates.foldl (fun maxSuffix candidate =>
      match (afterLast '-' candidate).bind (parseInt unicode) with
      | none => maxSuffix
      | some suffix => max maxSuffix suffix) start
    start ≤ fold ∧ ∀ candidate ∈ candidates, ∀ suffix,
      (afterLast '-' candidate).bind (parseInt unicode) = some suffix → suffix ≤ fold := by
  induction candidates generalizing start with
  | nil => simp
  | cons c candidates ih =>
    cases hc : (afterLast '-' c).bind (parseInt unicode) with
    | none =>
      obtain ⟨hstart, hrest⟩ := ih start
      simp only [List.foldl_cons, hc]
      refine ⟨hstart, fun candidate hmem suffix hsuffix => ?_⟩
      rcases List.mem_cons.mp hmem with rfl | hmem
      · rw [hc] at hsuffix
        cases hsuffix
      · exact hrest candidate hmem suffix hsuffix
    | some first =>
      obtain ⟨hstart, hrest⟩ := ih (max start first)
      simp only [List.foldl_cons, hc]
      refine ⟨by omega, fun candidate hmem suffix hsuffix => ?_⟩
      rcases List.mem_cons.mp hmem with rfl | hmem
      · obtain rfl : first = suffix := Option.some.inj (hc ▸ hsuffix)
        omega
      · exact hrest candidate hmem suffix hsuffix

/-- The number after the largest one in use makes an id that no row has. -/
theorem nextDeviceId_fresh {backend : Backend} {unicode : Unicode} {devices : Devices}
    {hardwareId deviceId : List Char}
    (h : nextDeviceId backend unicode devices hardwareId = .ok deviceId) :
    findBy DeviceRecord.deviceId deviceId devices.rows = none := by
  let normalized := normalizedPrefix unicode hardwareId
  let candidates := (devices.rows.map DeviceRecord.deviceId).filter
    (backend.dialect.like (normalized ++ ['-', '%']))
  obtain ⟨hnonneg, hle⟩ := le_foldl_maxSuffix unicode candidates 0
  simp only [nextDeviceId] at h
  split at h
  · cases h
  cases hnumber : format03d (maxSuffix unicode candidates + 1).toNat with
  | error e => simp [normalized, candidates, hnumber] at h
  | ok number =>
    obtain rfl : normalized ++ '-' :: number = deviceId := by
      simpa [normalized, candidates, hnumber] using h
    obtain ⟨hne, hdigits, hlen, hvalue⟩ := format03d_cases hnumber
    rw [findBy_eq_none]
    intro row hrow heq
    have hlike := like_prefix backend.dialect number
      (normalizedPrefix_isLowerAlnum unicode hardwareId)
    have hcandidate : normalized ++ '-' :: number ∈ candidates :=
      List.mem_filter.mpr ⟨List.mem_map.mpr ⟨row, hrow, heq⟩, hlike⟩
    have hdash : '-' ∉ number := by
      intro hmem
      exact absurd rfl (isDigit_facts (hdigits '-' hmem)).2.2.1
    have hsuffix : (afterLast '-' (normalized ++ '-' :: number)).bind (parseInt unicode) =
        some ((maxSuffix unicode candidates + 1).toNat : Int) := by
      rw [afterLast_append hdash, Option.bind_some, parseInt_digits unicode hne hdigits hlen,
        hvalue]
    have hmax := hle _ hcandidate _ hsuffix
    have hfold : 0 ≤ maxSuffix unicode candidates := hnonneg
    have hself : ((maxSuffix unicode candidates + 1).toNat : Int) ≤ maxSuffix unicode candidates :=
      hmax
    omega

end Aetus.Ingest
