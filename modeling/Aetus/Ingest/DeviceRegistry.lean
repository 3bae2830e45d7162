import Aetus.Ingest.Auth
import Aetus.Ingest.ControlDb

/-!
Runs of the control store: the pairs of device and hardware id never change, and a
device is known by the token it was given last.
-/

set_option autoImplicit false

namespace Aetus.Ingest
open Aetus.Base

def KeepsPairs (before after : Devices) : Prop :=
  ∀ row ∈ before.rows, ∃ kept ∈ after.rows,
    kept.deviceId = row.deviceId ∧ kept.hardwareId = row.hardwareId

theorem KeepsPairs.refl (devices : Devices) : KeepsPairs devices devices :=
  fun row hrow => ⟨row, hrow, rfl, rfl⟩

theorem KeepsPairs.trans {first second third : Devices} (h : KeepsPairs first second)
    (h' : KeepsPairs second third) : KeepsPairs first third := by
  intro row hrow
  obtain ⟨kept, hkept, hdevice, hhardware⟩ := h row hrow
  obtain ⟨kept', hkept', hdevice', hhardware'⟩ := h' kept hkept
  exact ⟨kept', hkept', hdevice'.trans hdevice, hhardware'.trans hhardware⟩

theorem Devices.insert_ok {backend : Backend} {devices after : Devices} {row : DeviceRecord}
    (h : devices.insert backend row = .ok after) :
    findBy DeviceRecord.deviceId row.deviceId devices.rows = none ∧
      findBy DeviceRecord.hardwareId row.hardwareId devices.rows = none ∧
      after.rows = devices.rows ++ [row] := by
  unfold Devices.insert at h
  split at h
  · cases h
  · split at h
    · next hnew =>
      obtain rfl := Except.ok.inj h
      exact ⟨hnew.1, hnew.2, rfl⟩
    · cases h

theorem Devices.insert_keepsPairs {backend : Backend} {devices after : Devices}
    {row : DeviceRecord} (h : devices.insert backend row = .ok after) :
    KeepsPairs devices after := by
  intro old hold
  rw [(insert_ok h).2.2]
  exact ⟨old, List.mem_append_left _ hold, rfl, rfl⟩

theorem Devices.findBy_insert {backend : Backend} {devices after : Devices} {row : DeviceRecord}
    (h : devices.insert backend row = .ok after) (deviceId : List Char) :
    findBy DeviceRecord.deviceId deviceId after.rows =
      if row.deviceId = deviceId then some row
      else findBy DeviceRecord.deviceId deviceId devices.rows := by
  obtain ⟨hnew, -, hrows⟩ := insert_ok h
  rw [hrows, findBy_append_row]
  split
  · next heq => rw [← heq, hnew, Option.none_or]
  · rw [Option.or_none]

theorem Devices.update_keepsPairs (devices : Devices) (key : DeviceRecord → List Char)
    (id : List Char) (update : DeviceUpdate) : KeepsPairs devices (devices.update key id update) := by
  intro row hrow
  refine ⟨_, List.mem_map.mpr ⟨row, hrow, rfl⟩, ?_, ?_⟩
  · show (if key row = id then update.set row else row).deviceId = row.deviceId
    split
    · exact update.deviceId_eq row
    · rfl
  · show (if key row = id then update.set row else row).hardwareId = row.hardwareId
    split
    · exact update.hardwareId_eq row
    · rfl

theorem Devices.findBy_update (devices : Devices) (key : DeviceRecord → List Char)
    (id : List Char) (update : DeviceUpdate) (deviceId : List Char) :
    findBy DeviceRecord.deviceId deviceId (devices.update key id update).rows =
      (findBy DeviceRecord.deviceId deviceId devices.rows).map fun row =>
        if key row = id then update.set row else row := by
  refine findBy_map fun row => ?_
  split
  · exact update.deviceId_eq row
  · rfl

theorem seedDevice_ok {backend : Backend} {devices after : Devices} {deviceId token now : List Char}
    (h : seedDevice backend devices deviceId token now = .ok after) :
    KeepsPairs devices after ∧
      (findBy DeviceRecord.deviceId deviceId after.rows).map DeviceRecord.token = some token ∧
      ∀ other, other ≠ deviceId → findBy DeviceRecord.deviceId other after.rows =
        findBy DeviceRecord.deviceId other devices.rows := by
  unfold seedDevice at h
  cases hold : findBy DeviceRecord.deviceId deviceId devices.rows with
  | none =>
    simp only [hold] at h
    refine ⟨Devices.insert_keepsPairs h, ?_, fun other hother => ?_⟩
    · simp [Devices.findBy_insert h]
    · simp [Devices.findBy_insert h, Ne.symm hother]
  | some old =>
    simp only [hold] at h
    split at h
    · obtain rfl := Except.ok.inj h
      refine ⟨devices.update_keepsPairs _ _ _, ?_, fun other hother => ?_⟩
      · simp [Devices.findBy_update, hold, (mem_of_findBy hold).2, seedUpdate]
      · rw [Devices.findBy_update]
        cases hrow : findBy DeviceRecord.deviceId other devices.rows with
        | none => rfl
        | some row =>
          have hid : row.deviceId ≠ deviceId := by
            rw [(mem_of_findBy hrow).2]
            exact hother
          simp [hid]
    · cases h

theorem seedEntries_ok {backend : Backend} {now : List Char}
    {entries : List (Σ _ : List Char, List Char)} {devices after : Devices}
    (hkeys : entries.NodupKeys)
    (h : entries.foldlM (fun devices entry => seedDevice backend devices entry.1 entry.2 now)
      devices = .ok after) :
    KeepsPairs devices after ∧ ∀ deviceId,
      match entries.dlookup deviceId with
      | some token =>
        (findBy DeviceRecord.deviceId deviceId after.rows).map DeviceRecord.token = some token
      | none => findBy DeviceRecord.deviceId deviceId after.rows =
        findBy DeviceRecord.deviceId deviceId devices.rows := by
  induction entries generalizing devices with
  | nil =>
    obtain rfl : devices = after := Except.ok.inj h
    exact ⟨.refl devices, fun _ => rfl⟩
  | cons entry entries ih =>
    obtain ⟨hfresh, hkeys⟩ := List.nodupKeys_cons.mp hkeys
    rw [List.foldlM_cons] at h
    cases hseed : seedDevice backend devices entry.1 entry.2 now with
    | error e =>
      rw [hseed] at h
      cases h
    | ok middle =>
      rw [hseed] at h
      obtain ⟨hpairs, hself, hothers⟩ := seedDevice_ok hseed
      obtain ⟨hpairs', hrest⟩ := ih hkeys h
      refine ⟨hpairs.trans hpairs', fun deviceId => ?_⟩
      have htail := hrest deviceId
      by_cases heq : deviceId = entry.1
      · subst heq
        rw [List.dlookup_eq_none.mpr hfresh] at htail
        rw [List.dlookup_cons_eq]
        show (findBy DeviceRecord.deviceId entry.1 after.rows).map DeviceRecord.token = some entry.2
        rw [htail, hself]
      · rw [List.dlookup_cons_ne _ _ heq]
        cases hlook : entries.dlookup deviceId with
        | none =>
          rw [hlook] at htail
          exact htail.trans (hothers deviceId heq)
        | some token =>
          rw [hlook] at htail
          exact htail

theorem seedDevices_ok {backend : Backend} {store after : ControlStore}
    {deviceTokens : Dict (List Char) (List Char)} {now : List Char}
    (h : seedDevices backend store deviceTokens now = .ok after) :
    KeepsPairs store.devices after.devices ∧ ∀ deviceId,
      match deviceTokens.lookup deviceId with
      | some token => after.getDeviceTokenReadonly deviceId = some token
      | none => after.device deviceId = store.device deviceId := by
  unfold seedDevices at h
  split at h
  · cases h
  · next devices hfold =>
    obtain rfl := Except.ok.inj h
    exact seedEntries_ok deviceTokens.nodupKeys hfold

theorem Devices.insert_ne_integrityError {backend : Backend} {devices : Devices}
    {row : DeviceRecord}
    (hdevice : findBy DeviceRecord.deviceId row.deviceId devices.rows = none)
    (hhardware : findBy DeviceRecord.hardwareId row.hardwareId devices.rows = none) :
    devices.insert backend row ≠ .error .integrityError := by
  unfold Devices.insert
  split
  · simp
  · rw [dif_pos ⟨hdevice, hhardware⟩]
    simp

theorem nextDeviceId_ne_integrityError {backend : Backend} {unicode : Unicode}
    {devices : Devices} {hardwareId : List Char}
    (h : nextDeviceId backend unicode devices hardwareId = .error .integrityError) : False := by
  simp only [nextDeviceId, format03d] at h
  split at h
  · cases h
  split at h
  · next hformat =>
    cases h
    split at hformat <;> cases hformat
  · cases h

/-- No attempt to issue violates a constraint, so none is repeated. -/
theorem issueAttempt_ne_integrityError (backend : Backend) (unicode : Unicode)
    (store : ControlStore) (request : IssueRequest) :
    issueAttempt backend unicode store request ≠ .error .integrityError := by
  intro h
  rw [issueAttempt] at h
  cases hfind : findBy DeviceRecord.hardwareId request.hardwareId store.devices.rows with
  | some row =>
    simp only [hfind] at h
    split at h
    · next hwritten =>
      split at hwritten
      · cases hwritten
      · cases h
        cases hwritten
    · split at h <;> cases h
  | none =>
    simp only [hfind] at h
    cases hnext : nextDeviceId backend unicode store.devices request.hardwareId with
    | error e =>
      simp only [hnext] at h
      cases h
      exact nextDeviceId_ne_integrityError hnext
    | ok deviceId =>
      simp only [hnext] at h
      split at h
      · next hwritten =>
        cases h
        exact Devices.insert_ne_integrityError (nextDeviceId_fresh hnext) hfind hwritten
      · split at h <;> cases h

theorem issueDeviceToken_eq (backend : Backend) (unicode : Unicode) (store : ControlStore)
    (request : IssueRequest) :
    issueDeviceToken backend unicode store request =
      issueAttempt backend unicode store request := by
  have hne := issueAttempt_ne_integrityError backend unicode store request
  rw [issueDeviceToken, issueDeviceToken.attempts]
  split
  · next h => exact absurd h hne
  · rfl

theorem issueDeviceToken_known {backend : Backend} {unicode : Unicode} {store : ControlStore}
    {request : IssueRequest} {row : DeviceRecord} (hrow : row ∈ store.devices.rows)
    (hhardware : row.hardwareId = request.hardwareId) :
    issueDeviceToken backend unicode store request =
      if backend.accepts ((issueUpdate request).set row) then
        .ok ((issueUpdate request).set row,
          ⟨store.devices.update DeviceRecord.hardwareId request.hardwareId (issueUpdate request),
            store.hardwareAllowlist.insert request.hardwareId⟩)
      else .error .dataError := by
  have hfind : findBy DeviceRecord.hardwareId request.hardwareId store.devices.rows = some row :=
    hhardware ▸ store.devices.hardwareId_unique.findBy hrow
  have hsaved : findBy DeviceRecord.hardwareId request.hardwareId
      (store.devices.update DeviceRecord.hardwareId request.hardwareId (issueUpdate request)).rows =
      some ((issueUpdate request).set row) := by
    have hkept (row : DeviceRecord) : (if row.hardwareId = request.hardwareId then
        (issueUpdate request).set row else row).hardwareId = row.hardwareId := by
      split <;> rfl
    have hmap := @findBy_map _ _ _ DeviceRecord.hardwareId store.devices.rows request.hardwareId
      _ hkept
    rw [hfind, Option.map_some, if_pos hhardware] at hmap
    exact hmap
  rw [issueDeviceToken_eq, issueAttempt]
  simp only [hfind]
  by_cases haccepts : backend.accepts ((issueUpdate request).set row) = true
  · simp [haccepts, hsaved]
  · simp [haccepts]

theorem issueDeviceToken_new {backend : Backend} {unicode : Unicode} {store after : ControlStore}
    {request : IssueRequest} {saved : DeviceRecord}
    (hnew : findBy DeviceRecord.hardwareId request.hardwareId store.devices.rows = none)
    (h : issueDeviceToken backend unicode store request = .ok (saved, after)) :
    saved.hardwareId = request.hardwareId ∧ saved.token = request.token ∧
      store.devices.insert backend saved = .ok after.devices := by
  rw [issueDeviceToken_eq, issueAttempt] at h
  simp only [hnew] at h
  cases hnext : nextDeviceId backend unicode store.devices request.hardwareId with
  | error e => simp [hnext] at h
  | ok deviceId =>
    simp only [hnext] at h
    split at h
    · cases h
    · next devices hinsert =>
      obtain ⟨-, -, hrows⟩ := Devices.insert_ok hinsert
      rw [hrows, findBy_append_row, hnew, Option.none_or, if_pos rfl] at h
      obtain ⟨rfl, rfl⟩ := Prod.mk.inj (Except.ok.inj h)
      exact ⟨rfl, rfl, hinsert⟩

theorem issueDeviceToken_ok {backend : Backend} {unicode : Unicode} {store after : ControlStore}
    {request : IssueRequest} {saved : DeviceRecord}
    (h : issueDeviceToken backend unicode store request = .ok (saved, after)) :
    KeepsPairs store.devices after.devices ∧
      after.getDeviceTokenReadonly saved.deviceId = some request.token ∧
      ∀ other, other ≠ saved.deviceId → after.device other = store.device other := by
  cases hfind : findBy DeviceRecord.hardwareId request.hardwareId store.devices.rows with
  | none =>
    obtain ⟨-, htoken, hinsert⟩ := issueDeviceToken_new hfind h
    refine ⟨Devices.insert_keepsPairs hinsert, ?_, fun other hother => ?_⟩
    · rw [ControlStore.getDeviceTokenReadonly, ControlStore.device,
        Devices.findBy_insert hinsert, if_pos rfl, Option.map_some, htoken]
    · rw [ControlStore.device, Devices.findBy_insert hinsert, if_neg (Ne.symm hother),
        ControlStore.device]
  | some row =>
    obtain ⟨hrow, hhardware⟩ := mem_of_findBy hfind
    rw [issueDeviceToken_known hrow hhardware] at h
    split at h
    · obtain ⟨rfl, rfl⟩ := Prod.mk.inj (Except.ok.inj h)
      have hdevice : findBy DeviceRecord.deviceId row.deviceId store.devices.rows = some row :=
        store.devices.deviceId_unique.findBy hrow
      refine ⟨store.devices.update_keepsPairs _ _ _, ?_, fun other hother => ?_⟩
      · show ((findBy DeviceRecord.deviceId row.deviceId _).map DeviceRecord.token) = _
        rw [Devices.findBy_update, hdevice]
        simp [hhardware, issueUpdate]
      · rw [ControlStore.device, Devices.findBy_update]
        cases hfound : findBy DeviceRecord.deviceId other store.devices.rows with
        | none => exact hfound.symm
        | some found =>
          obtain ⟨hmem, hid⟩ := mem_of_findBy hfound
          have hother' : found.hardwareId ≠ request.hardwareId := by
            intro heq
            have hsame := store.devices.hardwareId_unique.eq hmem hrow (heq.trans hhardware.symm)
            exact hother (hid ▸ hsame ▸ rfl)
          rw [Option.map_some, if_neg hother']
          exact hfound.symm
    · cases h

def ControlOperation.tokenGiven (deviceId : List Char) :
    ControlOperation → Option DeviceRecord → Option (List Char)
  | .seedDevices deviceTokens _, _ => deviceTokens.lookup deviceId
  | .issueDeviceToken request, some record =>
    if record.deviceId = deviceId then some request.token else none
  | .issueDeviceToken _, none => none

theorem ControlOperation.perform_ok {backend : Backend} {unicode : Unicode}
    {store after : ControlStore} {op : ControlOperation} {returned : Option DeviceRecord}
    (h : op.perform backend unicode store = .ok (returned, after)) :
    KeepsPairs store.devices after.devices ∧ ∀ deviceId,
      match op.tokenGiven deviceId returned with
      | some token => after.getDeviceTokenReadonly deviceId = some token
      | none => after.device deviceId = store.device deviceId := by
  cases op with
  | seedDevices deviceTokens now =>
    simp only [ControlOperation.perform] at h
    split at h
    · cases h
    · next hseed =>
      obtain ⟨rfl, rfl⟩ := Prod.mk.inj (Except.ok.inj h)
      exact seedDevices_ok hseed
  | issueDeviceToken request =>
    simp only [ControlOperation.perform] at h
    split at h
    · cases h
    · next record _ hissue =>
      obtain ⟨rfl, rfl⟩ := Prod.mk.inj (Except.ok.inj h)
      obtain ⟨hpairs, htoken, hothers⟩ := issueDeviceToken_ok hissue
      refine ⟨hpairs, fun deviceId => ?_⟩
      by_cases heq : record.deviceId = deviceId
      · subst heq
        simpa [ControlOperation.tokenGiven] using htoken
      · simpa [ControlOperation.tokenGiven, heq] using hothers deviceId (Ne.symm heq)

/-- A control store with what was done to it, the latest operation first. -/
structure ControlRun where
  store : ControlStore
  history : List (ControlOperation × Except StoreError (Option DeviceRecord))

def ControlRun.start : ControlRun := ⟨ControlStore.initialized, []⟩

def ControlRun.step (backend : Backend) (unicode : Unicode) (r : ControlRun)
    (op : ControlOperation) : ControlRun :=
  match op.perform backend unicode r.store with
  | .error e => ⟨r.store, (op, .error e) :: r.history⟩
  | .ok (returned, store) => ⟨store, (op, .ok returned) :: r.history⟩

def ControlRun.run (backend : Backend) (unicode : Unicode) (ops : List ControlOperation) :
    ControlRun :=
  ops.foldl (ControlRun.step backend unicode) .start

def givenBy (deviceId : List Char) :
    ControlOperation × Except StoreError (Option DeviceRecord) → Option (List Char)
  | (_, .error _) => none
  | (op, .ok returned) => op.tokenGiven deviceId returned

def mostRecentToken (deviceId : List Char)
    (history : List (ControlOperation × Except StoreError (Option DeviceRecord))) :
    Option (List Char) :=
  history.findSome? (givenBy deviceId)

theorem ControlRun.step_keepsPairs (backend : Backend) (unicode : Unicode) (r : ControlRun)
    (op : ControlOperation) :
    KeepsPairs r.store.devices (r.step backend unicode op).store.devices := by
  unfold ControlRun.step
  split
  · exact .refl _
  · next hperform => exact (ControlOperation.perform_ok hperform).1

/-- A step leaves a device alone or gives it a token, and its history says which. -/
theorem ControlRun.step_device (backend : Backend) (unicode : Unicode) (r : ControlRun)
    (op : ControlOperation) (deviceId : List Char) :
    let next := r.step backend unicode op
    ∃ event, next.history = event :: r.history ∧
      match givenBy deviceId event with
      | some token => next.store.getDeviceTokenReadonly deviceId = some token
      | none => next.store.device deviceId = r.store.device deviceId := by
  unfold ControlRun.step
  split
  · exact ⟨_, rfl, rfl⟩
  · next hperform => exact ⟨_, rfl, (ControlOperation.perform_ok hperform).2 deviceId⟩

theorem ControlRun.run_token (backend : Backend) (unicode : Unicode)
    (ops : List ControlOperation) (deviceId : List Char) :
    let r := ControlRun.run backend unicode ops
    r.store.getDeviceTokenReadonly deviceId = mostRecentToken deviceId r.history := by
  refine List.foldlRecOn ops (ControlRun.step backend unicode)
    (motive := fun r => r.store.getDeviceTokenReadonly deviceId = mostRecentToken deviceId r.history)
    ?_ fun r hr op _ => ?_
  · rfl
  obtain ⟨event, hhistory, hdevice⟩ := r.step_device backend unicode op deviceId
  rw [hhistory, mostRecentToken, List.findSome?_cons]
  cases hgiven : givenBy deviceId event with
  | some token =>
    rw [hgiven] at hdevice
    exact hdevice
  | none =>
    rw [hgiven] at hdevice
    rw [ControlStore.getDeviceTokenReadonly, hdevice]
    exact hr

/-- Device and hardware ids determine each other. -/
def OneToOne (devices : Devices) : Prop :=
  ∀ row ∈ devices.rows, ∀ other ∈ devices.rows,
    row.deviceId = other.deviceId ↔ row.hardwareId = other.hardwareId

theorem Devices.oneToOne (devices : Devices) : OneToOne devices := by
  intro row hrow other hother
  constructor
  · intro heq
    rw [devices.deviceId_unique.eq hrow hother heq]
  · intro heq
    rw [devices.hardwareId_unique.eq hrow hother heq]

theorem verifyDeviceToken_iff {deviceId token : List Char}
    {controlDb : List Char → Option (List Char)} :
    verifyDeviceToken deviceId token controlDb = true ↔ controlDb deviceId = some token := by
  unfold verifyDeviceToken
  cases controlDb deviceId <;> simp

/-- After any operations: ids are one-to-one, a device is verified by the token it was
given last and by no other, and a further operation keeps every pair of ids, leaves the
devices it gives no token as they are, and issues again under the same device id. -/
theorem control_run (backend : Backend) (unicode : Unicode) (ops : List ControlOperation) :
    let r := ControlRun.run backend unicode ops
    OneToOne r.store.devices ∧
      (∀ deviceId token,
        verifyDeviceToken deviceId token r.store.getDeviceTokenReadonly = true ↔
          mostRecentToken deviceId r.history = some token) ∧
      ∀ op,
        let next := r.step backend unicode op
        KeepsPairs r.store.devices next.store.devices ∧
        (∀ deviceId, next.history.head?.bind (givenBy deviceId) = none →
          next.store.device deviceId = r.store.device deviceId) ∧
        ∀ request, op = .issueDeviceToken request → ∀ row ∈ r.store.devices.rows,
          row.hardwareId = request.hardwareId →
            backend.accepts ((issueUpdate request).set row) = true →
              ∃ record after, op.perform backend unicode r.store = .ok (some record, after) ∧
                record.deviceId = row.deviceId := by
  intro r
  refine ⟨r.store.devices.oneToOne, fun deviceId token => ?_, fun op => ?_⟩
  · rw [verifyDeviceToken_iff, ControlRun.run_token]
  · refine ⟨r.step_keepsPairs backend unicode op, fun deviceId hgiven => ?_, ?_⟩
    · obtain ⟨event, hhistory, hdevice⟩ := r.step_device backend unicode op deviceId
      rw [hhistory, List.head?_cons, Option.bind_some] at hgiven
      rw [hgiven] at hdevice
      exact hdevice
    · rintro request rfl row hrow hhardware haccepts
      have hissue := @issueDeviceToken_known backend unicode r.store request row hrow hhardware
      rw [if_pos haccepts] at hissue
      obtain ⟨after, hafter⟩ : ∃ after, issueDeviceToken backend unicode r.store request =
          .ok ((issueUpdate request).set row, after) := ⟨_, hissue⟩
      exact ⟨(issueUpdate request).set row, after, by simp [ControlOperation.perform, hafter], rfl⟩

end Aetus.Ingest
