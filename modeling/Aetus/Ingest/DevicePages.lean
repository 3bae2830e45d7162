import Aetus.Base.Pages
import Aetus.Ingest.AdminAccess
import Mathlib.Data.List.Lex

/-!
The device list page by page: its pages together are the devices that match, newest first.
-/

set_option autoImplicit false

namespace Aetus.Ingest
open Aetus.Base

section
variable {τ κ : Type} [LinearOrder τ] [LinearOrder κ]

/-- `created_at DESC, device_id DESC`. Different ids are different in the order of their column. -/
structure NewestFirst (backend : Backend) (time : List Char → τ) (collate : List Char → κ) :
    Prop where
  injective : Function.Injective collate
  newestFirst : ∀ a b, backend.newestFirst a b = true ↔
    time b.createdAt < time a.createdAt ∨
      time a.createdAt = time b.createdAt ∧ collate b.deviceId ≤ collate a.deviceId

def Before (time : List Char → τ) (collate : List Char → κ) (a b : DeviceRecord) : Prop :=
  time b.createdAt < time a.createdAt ∨
    time a.createdAt = time b.createdAt ∧ collate b.deviceId < collate a.deviceId

def matching (backend : Backend) (unicode : Unicode) (store : ControlStore) (q : List Char) :
    List DeviceRecord :=
  store.devices.rows.filter (searchClause backend unicode q)

/-- The pages are what every session is answered with, and the last of them is the answer for
every number above theirs. Together they are the devices that match, in order and each once. -/
structure PagedBy (backend : Backend) (unicode : Unicode) (settings : AdminSettings)
    (time : List Char → τ) (collate : List Char → κ) (store : ControlStore) (pageSize : Nat)
    (q : List Char) (pages : List DevicePage) : Prop where
  answered : ∀ (state : AdminState) (request : AdminRequest) (number : Int),
    state.store = store → (requireAdminSession unicode settings state request).1 = true →
      1 ≤ number → ∃ listed, pages[min number.toNat pages.length - 1]? = some listed ∧
        (controlDevices backend unicode settings number pageSize q state request).1 =
          ⟨.deviceList listed, none⟩
  totalPages : ∀ listed ∈ pages, listed.totalPages = pages.length
  totalItems : ∀ listed ∈ pages, listed.totalItems = (matching backend unicode store q).length
  full : ∀ listed ∈ pages.dropLast, listed.items.length = pageSize
  exact : (pages.flatMap DevicePage.items).Perm (matching backend unicode store q)
  sorted : (pages.flatMap DevicePage.items).Pairwise (Before time collate)

variable {backend : Backend} {unicode : Unicode} {settings : AdminSettings}
  {time : List Char → τ} {collate : List Char → κ}

def sortedMatching (backend : Backend) (unicode : Unicode) (store : ControlStore)
    (q : List Char) : List DeviceRecord :=
  (matching backend unicode store q).mergeSort backend.newestFirst

theorem sortedMatching_perm (backend : Backend) (unicode : Unicode) (store : ControlStore)
    (q : List Char) :
    (sortedMatching backend unicode store q).Perm (matching backend unicode store q) :=
  List.mergeSort_perm _ _

theorem NewestFirst.sorted (horder : NewestFirst backend time collate) (unicode : Unicode)
    (store : ControlStore) (q : List Char) :
    (sortedMatching backend unicode store q).Pairwise (Before time collate) := by
  have hids : ((sortedMatching backend unicode store q).map DeviceRecord.deviceId).Nodup := by
    rw [((sortedMatching_perm backend unicode store q).map _).nodup_iff]
    exact store.devices.deviceId_unique.sublist (List.filter_sublist.map _)
  have hpairwise : (sortedMatching backend unicode store q).Pairwise fun a b =>
      backend.newestFirst a b = true := by
    refine List.pairwise_mergeSort (fun a b c hab hbc => ?_) (fun a b => ?_) _
    · rw [horder.newestFirst] at hab hbc ⊢
      rcases hab with hab | ⟨hab, hcollate⟩
      · rcases hbc with hbc | ⟨hbc, -⟩
        · exact .inl (hbc.trans hab)
        · exact .inl (hbc ▸ hab)
      · rcases hbc with hbc | ⟨hbc, hcollate'⟩
        · exact .inl (hab ▸ hbc)
        · exact .inr ⟨hab.trans hbc, hcollate'.trans hcollate⟩
    · rw [Bool.or_eq_true, horder.newestFirst, horder.newestFirst]
      rcases lt_trichotomy (time a.createdAt) (time b.createdAt) with hlt | heq | hgt
      · exact .inr (.inl hlt)
      · rcases le_total (collate b.deviceId) (collate a.deviceId) with hle | hle
        · exact .inl (.inr ⟨heq, hle⟩)
        · exact .inr (.inr ⟨heq.symm, hle⟩)
      · exact .inl (.inl hgt)
  refine (hpairwise.and (List.pairwise_map.mp hids)).imp fun ⟨hnewest, hne⟩ => ?_
  rcases (horder.newestFirst _ _).mp hnewest with hlt | ⟨heq, hle⟩
  · exact .inl hlt
  · exact .inr ⟨heq, lt_of_le_of_ne hle fun hsame => hne (horder.injective hsame).symm⟩

theorem length_sortedMatching (backend : Backend) (unicode : Unicode) (store : ControlStore)
    (q : List Char) : (sortedMatching backend unicode store q).length =
      store.countDevicesReadonly backend unicode q := by
  rw [(sortedMatching_perm backend unicode store q).length_eq, matching,
    ControlStore.countDevicesReadonly, List.countP_eq_length_filter]

theorem guarded_passed {refused : AdminReply} {body : AdminState → AdminResponse × AdminState}
    {state : AdminState} {request : AdminRequest}
    (h : (requireAdminSession unicode settings state request).1 = true) :
    ∃ checked : AdminState, checked.store = state.store ∧
      guarded unicode settings refused body state request = body checked := by
  refine ⟨(requireAdminSession unicode settings state request).2, requireAdminSession_store, ?_⟩
  unfold guarded
  split
  · next hfailed =>
    rw [hfailed] at h
    cases h
  · next hpassed => rw [hpassed]

variable {store : ControlStore} {pageSize : Nat} {q : List Char}

def devicePage (backend : Backend) (unicode : Unicode) (store : ControlStore) (pageSize : Nat)
    (q : List Char) (i : Nat) : DevicePage :=
  ⟨page (sortedMatching backend unicode store q) pageSize i, i + 1, pageSize,
    store.countDevicesReadonly backend unicode q,
    pageCount (store.countDevicesReadonly backend unicode q) pageSize, q⟩

theorem listPage_eq (hsearch : searchRefused backend unicode q = false) {number : Int}
    (hnumber : 1 ≤ number) :
    listPage backend unicode store number pageSize q = some (devicePage backend unicode store pageSize
      q (min number.toNat (pageCount (store.countDevicesReadonly backend unicode q) pageSize) - 1)) := by
  have hpages := pageCount_pos (store.countDevicesReadonly backend unicode q) pageSize
  have hmax : (max number 1).toNat = number.toNat := by omega
  have hlast : 1 ≤ min number.toNat
      (pageCount (store.countDevicesReadonly backend unicode q) pageSize) := by omega
  rw [listPage, if_neg (by rw [hsearch]; decide)]
  simp only [hmax, devicePage, Nat.sub_add_cancel hlast]
  rfl

theorem controlDevices_passed (hsize : 1 ≤ pageSize) (hmost : pageSize ≤ 50) (hq : q.length ≤ 100)
    {state : AdminState} {request : AdminRequest}
    (hpassed : (requireAdminSession unicode settings state request).1 = true) {number : Int}
    (hnumber : 1 ≤ number) :
    (controlDevices backend unicode settings number pageSize q state request).1 =
      match listPage backend unicode state.store number pageSize q with
      | none => ⟨.serverError, none⟩
      | some listed => ⟨.deviceList listed, none⟩ := by
  rw [controlDevices, if_neg (by omega)]
  obtain ⟨checked, hstore, hguarded⟩ := guarded_passed hpassed
  rw [hguarded, hstore, Int.toNat_natCast]
  cases listPage backend unicode state.store number pageSize q <;> rfl

theorem exists_passed (unicode : Unicode) (settings : AdminSettings) (store : ControlStore) :
    ∃ (state : AdminState) (request : AdminRequest), state.store = store ∧
      (requireAdminSession unicode settings state request).1 = true := by
  have hvalid : (AdminSessions.validate ((∅ : AdminSessions).insert ['t'] 1) ['t'] 0).1 = true := by
    decide +kernel
  refine ⟨⟨(∅ : AdminSessions).insert ['t'] 1, store⟩, ⟨.controlStatus, some ['t'], 0, [], []⟩, rfl, ?_⟩
  unfold requireAdminSession
  split
  · rfl
  · exact hvalid

theorem searchRefused_iff : searchRefused backend unicode q = true ↔
    backend.dialect = .postgres ∧ q ≠ [] ∧ '\x00' ∈ unicode.lower (strip unicode.isSpace q) := by
  have hneedle : '\x00' ∈ searchNeedle unicode q ↔
      '\x00' ∈ unicode.lower (strip unicode.isSpace q) := by
    simp [searchNeedle]
  simp only [searchRefused, Bool.and_eq_true, decide_eq_true_iff, hneedle, and_assoc,
    Bool.not_eq_true', List.isEmpty_eq_false_iff]

theorem pagedBy_devicePages (horder : NewestFirst backend time collate) (hsize : 1 ≤ pageSize)
    (hmost : pageSize ≤ 50) (hq : q.length ≤ 100) (hsearch : searchRefused backend unicode q = false) :
    PagedBy backend unicode settings time collate store pageSize q
      ((List.range (pageCount (store.countDevicesReadonly backend unicode q) pageSize)).map
        (devicePage backend unicode store pageSize q)) := by
  have hpages := pageCount_pos (store.countDevicesReadonly backend unicode q) pageSize
  have hlength := length_sortedMatching backend unicode store q
  have htogether : ((List.range (pageCount (store.countDevicesReadonly backend unicode q)
      pageSize)).map (devicePage backend unicode store pageSize q)).flatMap DevicePage.items =
        sortedMatching backend unicode store q := by
    rw [List.flatMap_map, ← hlength]
    exact flatMap_pages hsize
  refine ⟨?_, ?_, ?_, ?_, ?_, ?_⟩
  · rintro state request number rfl hpassed hnumber
    refine ⟨devicePage backend unicode state.store pageSize q (min number.toNat (pageCount
      (state.store.countDevicesReadonly backend unicode q) pageSize) - 1), ?_, ?_⟩
    · rw [List.length_map, List.length_range, List.getElem?_map, List.getElem?_range (by omega)]
      rfl
    · rw [controlDevices_passed hsize hmost hq hpassed hnumber, listPage_eq hsearch hnumber]
  · intro listed hlisted
    obtain ⟨i, -, rfl⟩ := List.mem_map.mp hlisted
    rw [List.length_map, List.length_range]
    rfl
  · intro listed hlisted
    obtain ⟨i, -, rfl⟩ := List.mem_map.mp hlisted
    exact hlength.symm.trans (sortedMatching_perm backend unicode store q).length_eq
  · intro listed hlisted
    obtain ⟨last, hlast⟩ := Nat.exists_eq_add_one.mpr hpages
    rw [hlast, List.range_succ, List.map_append, List.map_singleton, List.dropLast_concat] at hlisted
    obtain ⟨i, hi, rfl⟩ := List.mem_map.mp hlisted
    refine length_page hsize ?_
    rw [hlength, hlast]
    exact Nat.succ_lt_succ (List.mem_range.mp hi)
  · rw [htogether]
    exact sortedMatching_perm backend unicode store q
  · rw [htogether]
    exact horder.sorted unicode store q

theorem not_paged_of_refused (hsize : 1 ≤ pageSize) (hmost : pageSize ≤ 50) (hq : q.length ≤ 100)
    (store : ControlStore) (hrefused : searchRefused backend unicode q = true) :
    ¬∃ pages, PagedBy backend unicode settings time collate store pageSize q pages := by
  rintro ⟨pages, hpages⟩
  obtain ⟨state, request, hstore, hpassed⟩ := exists_passed unicode settings store
  obtain ⟨listed, -, hanswer⟩ := hpages.answered state request 1 hstore hpassed le_rfl
  rw [controlDevices_passed hsize hmost hq hpassed le_rfl, listPage, if_pos hrefused] at hanswer
  cases hanswer

/-- The pages partition the devices that match, unless PostgreSQL is asked for a NUL. -/
theorem devicePages_iff (horder : NewestFirst backend time collate) (hsize : 1 ≤ pageSize)
    (hmost : pageSize ≤ 50) (hq : q.length ≤ 100) (store : ControlStore) :
    (∃ pages, PagedBy backend unicode settings time collate store pageSize q pages) ↔
      ¬(backend.dialect = .postgres ∧ q ≠ [] ∧
        '\x00' ∈ unicode.lower (strip unicode.isSpace q)) := by
  rw [← searchRefused_iff]
  constructor
  · intro hpages hrefused
    exact not_paged_of_refused hsize hmost hq store hrefused hpages
  · intro hallowed
    exact ⟨_, pagedBy_devicePages horder hsize hmost hq (Bool.eq_false_iff.mpr hallowed)⟩

end

def codePoints (text : List Char) : List Nat := text.map Char.toNat

def listBackend (dialect : Dialect) : Backend :=
  ⟨dialect, fun _ => true, id, fun a b =>
    codePoints b.createdAt < codePoints a.createdAt ∨
      codePoints a.createdAt = codePoints b.createdAt ∧ codePoints b.deviceId ≤ codePoints a.deviceId⟩

theorem newestFirst_listBackend (dialect : Dialect) :
    NewestFirst (listBackend dialect) codePoints codePoints :=
  ⟨List.map_injective_iff.mpr fun _ _ h => Char.toNat_inj.mp h, fun _ _ => decide_eq_true_iff⟩

def listedDevice (deviceId hardwareId createdAt : String) : DeviceRecord :=
  ⟨deviceId.toList, hardwareId.toList, [], none, none, none, createdAt.toList, []⟩

/-- Three cameras, two of them of one day, and a sensor. -/
def cameraStore : ControlStore :=
  ⟨⟨[listedDevice "cam-001" "hw1" "2024-01-01", listedDevice "cam-002" "hw2" "2024-01-02",
    listedDevice "imu-001" "hw3" "2024-01-03", listedDevice "cam-003" "hw4" "2024-01-02"],
    by decide +kernel, by decide +kernel⟩, []⟩

/-- PostgreSQL is asked for the cameras, two on a page. -/
theorem devicePages_iff_cameras :
    (matching (listBackend .postgres) ⟨id, fun c => c = ' ', id⟩ cameraStore "cam".toList).length = 3 ∧
      ∃ pages, PagedBy (listBackend .postgres) ⟨id, fun c => c = ' ', id⟩ ⟨[], 60⟩ codePoints
        codePoints cameraStore 2 "cam".toList pages :=
  ⟨by decide +kernel, (devicePages_iff (newestFirst_listBackend .postgres) (by decide) (by decide)
    (by decide) cameraStore).mpr (by decide +kernel)⟩

/-- PostgreSQL is asked for a NUL. -/
theorem not_paged_nul :
    ¬∃ pages, PagedBy (listBackend .postgres) ⟨id, fun c => c = ' ', id⟩ ⟨[], 60⟩ codePoints
      codePoints .initialized 10 ['\x00'] pages :=
  not_paged_of_refused (by decide) (by decide) (by decide) .initialized (by decide)

end Aetus.Ingest
