import Aetus.Base.Latest
import Aetus.Base.Runs

/-!
The loading of series in the stream viewer (AetusStreamViewer.vue). Calls of `loadSeries` wait
for a token and for their responses, and one abort controller is shared by all.
-/

set_option autoImplicit false

namespace Aetus.Frontend
open Aetus.Base

structure Range where
  fromTime : List Char
  toTime : List Char
  deriving DecidableEq

structure Selection where
  selectedDeviceIds : List (List Char)
  selectedKeys : List (List Char)
  streamsByDevice : List (List Char × List (List Char))
  deriving DecidableEq

structure SeriesRequest where
  deviceId : List Char
  key : List Char
  range : Range
  maxPoints : Nat
  deriving DecidableEq

def deviceHasStream (streamsByDevice : List (List Char × List (List Char)))
    (deviceId key : List Char) : Bool :=
  ((streamsByDevice.lookup deviceId).getD []).contains key

def seriesRequests (devices : List (List Char))
    (streamsByDevice : List (List Char × List (List Char))) (requestKeys : List (List Char))
    (range : Range) (maxPoints : Nat) : List SeriesRequest :=
  devices.flatMap fun deviceId =>
    (requestKeys.filter (deviceHasStream streamsByDevice deviceId)).map fun key =>
      ⟨deviceId, key, range, maxPoints⟩

def authHeaders (token : List Char) : List (List Char × List Char) :=
  if token = [] then [] else [("Authorization".toList, "Bearer ".toList ++ token)]

/-- Where a call of `loadSeries` stands. A controller goes by the number of the call that made
it. -/
inductive Phase (R : Type) where
  | noSelection
  | awaitingToken
  | fetching (headers : List (List Char × List Char)) (requests : List SeriesRequest)
      (signal : Option Nat)
  | resolved (requests : List SeriesRequest) (responses : List R)
  | committed (requests : List SeriesRequest) (responses : List R)
  | failed
  | aborted

structure Call (R : Type) where
  range : Range
  maxPoints : Nat
  selection : Selection
  phase : Phase R

variable {R : Type}

def Call.requests (call : Call R) (selection : Selection) : List SeriesRequest :=
  seriesRequests selection.selectedDeviceIds selection.streamsByDevice call.selection.selectedKeys
    call.range call.maxPoints

def Call.wanted (call : Call R) : List SeriesRequest := call.requests call.selection

def Call.signal (call : Call R) : Option Nat :=
  match call.phase with
  | .fetching _ _ signal => signal
  | _ => none

def Call.sent (call : Call R) : Option (List SeriesRequest) :=
  match call.phase with
  | .fetching _ requests _ | .resolved requests _ | .committed requests _ => some requests
  | _ => none

def Call.pending (call : Call R) : Bool :=
  match call.phase with
  | .awaitingToken | .fetching .. | .resolved .. => true
  | _ => false

def Call.underway (call : Call R) : Bool :=
  match call.phase with
  | .fetching .. | .resolved .. => true
  | _ => false

def Call.displayed (call : Call R) : Option (List R) :=
  match call.phase with
  | .noSelection => some []
  | .committed _ responses => some responses
  | _ => none

/-- `ready` are the calls whose responses are all there, in the order in which they go on. -/
structure Viewer (R : Type) where
  selection : Selection
  calls : List (Call R)
  activeRequest : Option Nat
  ready : List Nat
  seriesResponses : List R

inductive Action (R : Type) where
  | select (selection : Selection)
  | loadSeries (range : Range) (maxPoints : Nat)
  | token (i : Nat) (token : List Char)
  | tokenFailed (i : Nat)
  | respond (i : Nat) (responses : List R)
  | responseFailed (i : Nat)
  | proceed

/-- `activeRequest?.abort()`: what is fetched under the signal is given up. -/
def abort (activeRequest : Option Nat) (calls : List (Call R)) : List (Call R) :=
  calls.map fun call =>
    if activeRequest.isSome ∧ call.signal = activeRequest then { call with phase := .aborted }
    else call

namespace Viewer

def setPhase (viewer : Viewer R) (i : Nat) (call : Call R) (phase : Phase R) : Viewer R :=
  { viewer with calls := viewer.calls.set i { call with phase := phase } }

def loadSeries (viewer : Viewer R) (range : Range) (maxPoints : Nat) : Viewer R :=
  if viewer.selection.selectedDeviceIds = [] ∨ viewer.selection.selectedKeys = [] then
    { viewer with
      calls := viewer.calls ++ [⟨range, maxPoints, viewer.selection, .noSelection⟩]
      seriesResponses := [] }
  else
    { viewer with
      calls := abort viewer.activeRequest viewer.calls ++
        [⟨range, maxPoints, viewer.selection, .awaitingToken⟩]
      activeRequest := some viewer.calls.length }

/-- The call goes on with its token, and with the selection and the signal of the moment. -/
def token (viewer : Viewer R) (i : Nat) (call : Call R) (token : List Char) : Viewer R :=
  match call.requests viewer.selection with
  | [] => { viewer.setPhase i call (.resolved [] []) with ready := viewer.ready ++ [i] }
  | requests =>
    viewer.setPhase i call (.fetching (authHeaders token) requests viewer.activeRequest)

def step (viewer : Viewer R) : Action R → Option (Viewer R)
  | .select selection => some { viewer with selection := selection }
  | .loadSeries range maxPoints => some (viewer.loadSeries range maxPoints)
  | .token i token =>
    viewer.calls[i]?.bind fun call =>
      match call.phase with
      | .awaitingToken => some (viewer.token i call token)
      | _ => none
  | .tokenFailed i =>
    viewer.calls[i]?.bind fun call =>
      match call.phase with
      | .awaitingToken => some (viewer.setPhase i call .failed)
      | _ => none
  | .respond i responses =>
    viewer.calls[i]?.bind fun call =>
      match call.phase with
      | .fetching _ requests _ =>
        if responses.length = requests.length then
          some { viewer.setPhase i call (.resolved requests responses) with
            ready := viewer.ready ++ [i] }
        else none
      | _ => none
  | .responseFailed i =>
    viewer.calls[i]?.bind fun call =>
      match call.phase with
      | .fetching .. => some (viewer.setPhase i call .failed)
      | _ => none
  | .proceed =>
    match viewer.ready with
    | [] => none
    | i :: ready =>
      viewer.calls[i]?.bind fun call =>
        match call.phase with
        | .resolved requests responses =>
          some { viewer.setPhase i call (.committed requests responses) with
            ready := ready
            seriesResponses := responses }
        | _ => none

def start (selection : Selection) : Viewer R := ⟨selection, [], none, [], []⟩

/-- Once no call is pending, the series are those of the latest one, which has asked for its own
selection; where it failed, they are those of the latest call that has any. A call that is about
to display its series has none behind it that has displayed some. -/
structure ShowsLatest (viewer : Viewer R) : Prop where
  settled : (∀ call ∈ viewer.calls, call.pending = false) →
    ∀ call, viewer.calls.getLast? = some call →
      (call.phase = .noSelection ∧ viewer.seriesResponses = []) ∨
      (∃ responses, call.phase = .committed call.wanted responses ∧
        viewer.seriesResponses = responses) ∨
      (call.phase = .failed ∧
        viewer.seriesResponses = latest [] (viewer.calls.map Call.displayed))
  inOrder : ∀ i, viewer.ready.head? = some i → ∀ (j : Nat) (call : Call R), i < j →
    viewer.calls[j]? = some call → call.displayed = none

/-- An emptied selection is loaded while no call is under way, and a token comes for the latest
call, while the devices and their streams are those of the call. -/
def InTurn (viewer : Viewer R) : Action R → Prop
  | .loadSeries _ _ =>
    viewer.selection.selectedDeviceIds = [] ∨ viewer.selection.selectedKeys = [] →
      ∀ call ∈ viewer.calls, call.underway = false
  | .token i _ =>
    i + 1 = viewer.calls.length ∧ ∀ call ∈ viewer.calls[i]?,
      viewer.selection.selectedDeviceIds = call.selection.selectedDeviceIds ∧
        viewer.selection.streamsByDevice = call.selection.streamsByDevice
  | _ => True

instance (viewer : Viewer R) (action : Action R) : Decidable (viewer.InTurn action) := by
  unfold InTurn
  cases action <;> infer_instance

/-- Only the latest call fetches, under its own signal, or goes on with its token. -/
structure Placed (calls : List (Call R)) (activeRequest : Option Nat) : Prop where
  own : ∀ (i : Nat) (call : Call R), calls[i]? = some call → ∀ requests,
    call.sent = some requests → requests = call.wanted
  fetching : ∀ (i : Nat) (call : Call R) headers requests signal, calls[i]? = some call →
    call.phase = .fetching headers requests signal →
      signal = some i ∧ activeRequest = some i ∧ i + 1 = calls.length
  waiting : ∀ (i : Nat) (call : Call R), calls[i]? = some call → call.phase = .awaitingToken →
    i + 1 = calls.length → activeRequest = some i
  kept : ∀ (i : Nat) (call : Call R), calls[i]? = some call → i + 1 = calls.length →
    call.phase ≠ .aborted

/-- The calls that are ready are in the order in which they were made, none of them before one
that has displayed its series. -/
structure Ordered (viewer : Viewer R) : Prop extends
    Placed viewer.calls viewer.activeRequest where
  readyResolved : ∀ i ∈ viewer.ready, ∃ call requests responses,
    viewer.calls[i]? = some call ∧ call.phase = .resolved requests responses
  sorted : viewer.ready.Pairwise (· < ·)
  behind : ∀ i ∈ viewer.ready, ∀ (j : Nat) (call : Call R), i < j →
    viewer.calls[j]? = some call → call.displayed = none
  shown : viewer.seriesResponses = latest [] (viewer.calls.map Call.displayed)

variable {viewer : Viewer R} {i : Nat} {call : Call R} {phase : Phase R}

theorem ordered_start (selection : Selection) : (start selection : Viewer R).Ordered where
  own := nofun
  fetching := nofun
  waiting := nofun
  kept := nofun
  readyResolved := nofun
  sorted := .nil
  behind := nofun
  shown := rfl

theorem getElem?_setPhase {j : Nat} {other : Call R}
    (h : (viewer.setPhase i call phase).calls[j]? = some other) :
    (j = i ∧ other = { call with phase := phase }) ∨ (j ≠ i ∧ viewer.calls[j]? = some other) := by
  rw [setPhase, List.getElem?_set] at h
  split at h
  · next heq =>
    split at h
    · exact .inl ⟨heq.symm, (Option.some.inj h).symm⟩
    · cases h
  · next hne => exact .inr ⟨fun heq => hne heq.symm, h⟩

theorem length_setPhase : (viewer.setPhase i call phase).calls.length = viewer.calls.length :=
  List.length_set

theorem displayed_setPhase (hcall : viewer.calls[i]? = some call) (hhidden : call.displayed = none)
    (hnew : ({ call with phase := phase } : Call R).displayed = none) :
    (viewer.setPhase i call phase).calls.map Call.displayed =
      viewer.calls.map Call.displayed := by
  rw [setPhase, List.map_set, hnew]
  refine List.ext_getElem? fun j => ?_
  rw [List.getElem?_set, List.getElem?_map, List.length_map]
  split
  · next heq =>
    subst heq
    have hi := (List.getElem?_eq_some_iff.mp hcall).1
    rw [if_pos hi, hcall, Option.map_some, hhidden]
  · rfl

theorem Placed.setPhase (h : Placed viewer.calls viewer.activeRequest)
    (hown : ∀ requests, ({ call with phase := phase } : Call R).sent = some requests →
      requests = call.wanted)
    (hfetching : ∀ headers requests signal, phase = .fetching headers requests signal →
      signal = some i ∧ viewer.activeRequest = some i ∧ i + 1 = viewer.calls.length)
    (hwaiting : phase ≠ .awaitingToken) (hkept : phase ≠ .aborted) :
    Placed (viewer.setPhase i call phase).calls viewer.activeRequest where
  own := by
    intro j other hother requests hsent
    rcases getElem?_setPhase hother with ⟨-, rfl⟩ | ⟨-, hold⟩
    · exact hown requests hsent
    · exact h.own j other hold requests hsent
  fetching := by
    intro j other headers requests signal hother hphase
    rw [length_setPhase]
    rcases getElem?_setPhase hother with ⟨rfl, rfl⟩ | ⟨-, hold⟩
    · exact hfetching headers requests signal hphase
    · exact h.fetching j other headers requests signal hold hphase
  waiting := by
    intro j other hother hphase hlast
    rw [length_setPhase] at hlast
    rcases getElem?_setPhase hother with ⟨-, rfl⟩ | ⟨-, hold⟩
    · exact absurd hphase hwaiting
    · exact h.waiting j other hold hphase hlast
  kept := by
    intro j other hother hlast
    rw [length_setPhase] at hlast
    rcases getElem?_setPhase hother with ⟨-, rfl⟩ | ⟨-, hold⟩
    · exact hkept
    · exact h.kept j other hold hlast

theorem Ordered.ready_setPhase (h : viewer.Ordered) {j : Nat} (hj : j ∈ viewer.ready)
    (hne : j ≠ i) : ∃ other requests responses,
      (viewer.setPhase i call phase).calls[j]? = some other ∧
        other.phase = .resolved requests responses := by
  obtain ⟨other, requests, responses, hother, hphase⟩ := h.readyResolved j hj
  refine ⟨other, requests, responses, ?_, hphase⟩
  rw [Viewer.setPhase, List.getElem?_set_ne hne.symm, hother]

theorem Ordered.setPhase (h : viewer.Ordered) (hcall : viewer.calls[i]? = some call)
    (hready : i ∉ viewer.ready) (hhidden : call.displayed = none)
    (hnew : ({ call with phase := phase } : Call R).displayed = none)
    (hplaced : Placed (viewer.setPhase i call phase).calls viewer.activeRequest) :
    (viewer.setPhase i call phase).Ordered where
  toPlaced := hplaced
  readyResolved j hj := h.ready_setPhase hj fun heq => hready (heq ▸ hj)
  sorted := h.sorted
  behind := by
    intro j hj k other hlt hother
    rcases getElem?_setPhase hother with ⟨-, rfl⟩ | ⟨-, hold⟩
    · exact hnew
    · exact h.behind j hj k other hlt hold
  shown := by
    rw [displayed_setPhase hcall hhidden hnew]
    exact h.shown

theorem Ordered.not_ready (h : viewer.Ordered) (hcall : viewer.calls[i]? = some call)
    (hphase : ∀ requests responses, call.phase ≠ .resolved requests responses) :
    i ∉ viewer.ready := by
  intro hready
  obtain ⟨other, requests, responses, hother, hresolved⟩ := h.readyResolved i hready
  rw [hcall] at hother
  cases hother
  exact hphase requests responses hresolved

/-- The latest call has its responses and goes behind the others that have theirs. -/
theorem Ordered.setReady (h : viewer.Ordered) (hcall : viewer.calls[i]? = some call)
    (hready : i ∉ viewer.ready) (hlast : i + 1 = viewer.calls.length)
    (hhidden : call.displayed = none) (responses : List R) :
    { viewer.setPhase i call (.resolved call.wanted responses) with
      ready := viewer.ready ++ [i] }.Ordered := by
  have hplaced : Placed (viewer.setPhase i call (.resolved call.wanted responses)).calls
      viewer.activeRequest :=
    h.toPlaced.setPhase (fun _ hsent => (Option.some.inj hsent).symm) nofun nofun nofun
  have hset := h.setPhase hcall hready hhidden rfl hplaced
  have hi := (List.getElem?_eq_some_iff.mp hcall).1
  exact
    { hset with
      readyResolved := by
        intro j hj
        rcases List.mem_append.mp hj with hold | hnew
        · exact hset.readyResolved j hold
        · rw [List.mem_singleton.mp hnew]
          exact ⟨_, _, _, List.getElem?_set_self hi, rfl⟩
      sorted := by
        refine List.pairwise_append.mpr ⟨h.sorted, List.pairwise_singleton _ _, ?_⟩
        intro j hj k hk
        rw [List.mem_singleton.mp hk]
        obtain ⟨other, -, -, hother, -⟩ := h.readyResolved j hj
        have hj' := (List.getElem?_eq_some_iff.mp hother).1
        have hne : j ≠ i := fun heq => hready (heq ▸ hj)
        omega
      behind := by
        intro j hj k other hlt hother
        rcases List.mem_append.mp hj with hold | hnew
        · exact hset.behind j hold k other hlt hother
        · have hk := (List.getElem?_eq_some_iff.mp hother).1
          rw [List.mem_singleton.mp hnew] at hlt
          simp only [length_setPhase] at hk
          omega }

/-- The first of the calls that are ready displays its series. -/
theorem Ordered.proceed (h : viewer.Ordered) {ready : List Nat}
    (hready : viewer.ready = i :: ready) (hcall : viewer.calls[i]? = some call)
    {requests : List SeriesRequest} {responses : List R}
    (hphase : call.phase = .resolved requests responses) :
    { viewer.setPhase i call (.committed requests responses) with
      ready := ready, seriesResponses := responses }.Ordered := by
  have hi := (List.getElem?_eq_some_iff.mp hcall).1
  have hsorted := h.sorted
  rw [hready, List.pairwise_cons] at hsorted
  have hin : ∀ j ∈ ready, j ∈ viewer.ready := fun j hj => hready ▸ List.mem_cons_of_mem i hj
  have hwanted : requests = call.wanted :=
    h.own i call hcall requests (by rw [Call.sent, hphase])
  refine { toPlaced := h.toPlaced.setPhase ?_ nofun nofun nofun, readyResolved := ?_,
           sorted := hsorted.2, behind := ?_, shown := ?_ }
  · intro sent hsent
    rw [← Option.some.inj hsent, hwanted]
  · exact fun j hj => h.ready_setPhase (hin j hj) (Nat.ne_of_gt (hsorted.1 j hj))
  · intro j hj k other hlt hother
    rcases getElem?_setPhase hother with ⟨rfl, -⟩ | ⟨-, hold⟩
    · exact absurd hlt (Nat.lt_asymm (hsorted.1 j hj))
    · exact h.behind j (hin j hj) k other hlt hold
  · -- no later call has displayed anything
    have hslot : ((viewer.setPhase i call (.committed requests responses)).calls.map
        Call.displayed)[i]? = some (some responses) := by
      rw [List.getElem?_map, Viewer.setPhase, List.getElem?_set_self hi]
      rfl
    refine (latest_eq hslot fun j hlt slot hslot => ?_).symm
    rw [List.getElem?_map] at hslot
    obtain ⟨other, hother, rfl⟩ := Option.map_eq_some_iff.mp hslot
    rcases getElem?_setPhase hother with ⟨rfl, -⟩ | ⟨-, hold⟩
    · exact absurd hlt (Nat.lt_irrefl j)
    · exact h.behind i (hready ▸ List.mem_cons_self) j other hlt hold

/-! A new call -/

theorem getElem?_abort {active : Option Nat} {calls : List (Call R)} {j : Nat} {other : Call R}
    (h : (abort active calls)[j]? = some other) : ∃ old, calls[j]? = some old ∧
      ((active.isSome ∧ old.signal = active ∧ other = { old with phase := .aborted }) ∨
        (¬(active.isSome ∧ old.signal = active) ∧ other = old)) := by
  rw [abort, List.getElem?_map] at h
  obtain ⟨old, hold, heq⟩ := Option.map_eq_some_iff.mp h
  refine ⟨old, hold, ?_⟩
  split at heq
  · next hhit => exact .inl ⟨hhit.1, hhit.2, heq.symm⟩
  · next hmiss => exact .inr ⟨hmiss, heq.symm⟩

theorem displayed_of_signal {active : Option Nat} (hactive : active.isSome)
    (hsignal : call.signal = active) : call.displayed = none := by
  unfold Call.signal at hsignal
  unfold Call.displayed
  cases hphase : call.phase <;> simp [hphase] at hsignal ⊢ <;> simp [← hsignal] at hactive

theorem displayed_abort (active : Option Nat) (calls : List (Call R)) :
    (abort active calls).map Call.displayed = calls.map Call.displayed := by
  rw [abort, List.map_map]
  refine List.map_congr_left fun call _ => ?_
  rw [Function.comp]
  split
  · next hhit => rw [displayed_of_signal hhit.1 hhit.2, Call.displayed]
  · rfl

theorem Ordered.ready_nil (h : viewer.Ordered)
    (hidle : ∀ call ∈ viewer.calls, call.underway = false) : viewer.ready = [] := by
  refine List.eq_nil_iff_forall_not_mem.mpr fun i hi => ?_
  obtain ⟨call, requests, responses, hcall, hphase⟩ := h.readyResolved i hi
  have hnot := hidle call (List.mem_of_getElem? hcall)
  simp [Call.underway, hphase] at hnot

theorem getElem?_append_singleton {calls : List (Call R)} {new other : Call R} {j : Nat}
    (h : (calls ++ [new])[j]? = some other) :
    (j = calls.length ∧ other = new) ∨ (j < calls.length ∧ calls[j]? = some other) := by
  have hj := (List.getElem?_eq_some_iff.mp h).1
  rw [List.length_append, List.length_singleton] at hj
  rcases Nat.lt_succ_iff_lt_or_eq.mp hj with hlt | rfl
  · rw [List.getElem?_append_left hlt] at h
    exact .inr ⟨hlt, h⟩
  · rw [List.getElem?_concat_length] at h
    exact .inl ⟨rfl, (Option.some.inj h).symm⟩

theorem Ordered.loadEmpty (h : viewer.Ordered)
    (hidle : ∀ call ∈ viewer.calls, call.underway = false) (hphase : call.phase = .noSelection) :
    { viewer with calls := viewer.calls ++ [call], seriesResponses := [] }.Ordered where
  own := by
    intro j other hother requests hsent
    rcases getElem?_append_singleton hother with ⟨-, rfl⟩ | ⟨-, hold⟩
    · simp [Call.sent, hphase] at hsent
    · exact h.own j other hold requests hsent
  fetching := by
    intro j other headers requests signal hother hfetching
    rcases getElem?_append_singleton hother with ⟨-, rfl⟩ | ⟨-, hold⟩
    · rw [hphase] at hfetching
      cases hfetching
    · have hnot := hidle other (List.mem_of_getElem? hold)
      simp [Call.underway, hfetching] at hnot
  waiting := by
    intro j other hother hwaiting hlast
    rcases getElem?_append_singleton hother with ⟨-, rfl⟩ | ⟨hlt, -⟩
    · rw [hphase] at hwaiting
      cases hwaiting
    · simp only [List.length_append, List.length_singleton] at hlast
      omega
  kept := by
    intro j other hother hlast
    rcases getElem?_append_singleton hother with ⟨-, rfl⟩ | ⟨hlt, -⟩
    · rw [hphase]
      exact nofun
    · simp only [List.length_append, List.length_singleton] at hlast
      omega
  readyResolved := by simp [h.ready_nil hidle]
  sorted := h.sorted
  behind := by simp [h.ready_nil hidle]
  shown := by
    rw [List.map_append, List.map_singleton, Call.displayed, hphase, latest_append_some]

theorem Ordered.loadSelected (h : viewer.Ordered) (hphase : call.phase = .awaitingToken) :
    { viewer with
      calls := abort viewer.activeRequest viewer.calls ++ [call]
      activeRequest := some viewer.calls.length }.Ordered := by
  have hlength : (abort viewer.activeRequest viewer.calls).length = viewer.calls.length :=
    List.length_map _
  exact
    { own := by
        intro j other hother requests hsent
        rcases getElem?_append_singleton hother with ⟨-, rfl⟩ | ⟨-, hold⟩
        · simp [Call.sent, hphase] at hsent
        · obtain ⟨old, hold, ⟨-, -, rfl⟩ | ⟨-, rfl⟩⟩ := getElem?_abort hold
          · cases hsent
          · exact h.own j other hold requests hsent
      fetching := by
        intro j other headers requests signal hother hfetching
        rcases getElem?_append_singleton hother with ⟨-, rfl⟩ | ⟨-, hold⟩
        · rw [hphase] at hfetching
          cases hfetching
        · obtain ⟨old, hold, ⟨-, -, rfl⟩ | ⟨hmiss, rfl⟩⟩ := getElem?_abort hold
          · cases hfetching
          · -- what fetched had the signal that the abort is for
            obtain ⟨rfl, hactive, -⟩ := h.fetching j other headers requests signal hold hfetching
            exact absurd ⟨by rw [hactive]; rfl, by rw [hactive, Call.signal, hfetching]⟩ hmiss
      waiting := by
        intro j other hother hwaiting hlast
        simp only [List.length_append, List.length_singleton, hlength] at hlast ⊢
        exact congrArg some (by omega)
      kept := by
        intro j other hother hlast
        rcases getElem?_append_singleton hother with ⟨-, rfl⟩ | ⟨hlt, -⟩
        · rw [hphase]
          exact nofun
        · simp only [List.length_append, List.length_singleton] at hlast
          omega
      readyResolved := by
        intro j hj
        obtain ⟨old, requests, responses, hold, hresolved⟩ := h.readyResolved j hj
        have hj' := (List.getElem?_eq_some_iff.mp hold).1
        refine ⟨old, requests, responses, ?_, hresolved⟩
        rw [List.getElem?_append_left (hlength ▸ hj'), abort, List.getElem?_map, hold,
          Option.map_some, if_neg]
        rintro ⟨hactive, hsignal⟩
        rw [← hsignal, Call.signal, hresolved] at hactive
        cases hactive
      sorted := h.sorted
      behind := by
        intro j hj k other hlt hother
        rcases getElem?_append_singleton hother with ⟨-, rfl⟩ | ⟨-, hold⟩
        · simp [Call.displayed, hphase]
        · obtain ⟨old, hold, ⟨-, -, rfl⟩ | ⟨-, rfl⟩⟩ := getElem?_abort hold
          · rfl
          · exact h.behind j hj k other hlt hold
      shown := by
        rw [List.map_append, displayed_abort, List.map_singleton, Call.displayed, hphase,
          latest_append_none]
        exact h.shown }

/-! Steps and runs -/

theorem Ordered.token (h : viewer.Ordered) (hcall : viewer.calls[i]? = some call)
    (hphase : call.phase = .awaitingToken) {token : List Char}
    (hturn : viewer.InTurn (.token i token)) : (viewer.token i call token).Ordered := by
  obtain ⟨hlast, hselection⟩ := hturn
  obtain ⟨hdevices, hstreams⟩ := hselection call hcall
  have hrequests : call.requests viewer.selection = call.wanted := by
    rw [Call.wanted, Call.requests, Call.requests, hdevices, hstreams]
  have hready : i ∉ viewer.ready := h.not_ready hcall fun _ _ => by
    rw [hphase]
    exact nofun
  have hhidden : call.displayed = none := by rw [Call.displayed, hphase]
  unfold Viewer.token
  rw [hrequests]
  split
  · next hnone =>
    have hset := h.setReady hcall hready hlast hhidden []
    rwa [hnone] at hset
  · refine h.setPhase hcall hready hhidden rfl (h.toPlaced.setPhase ?_ ?_ nofun nofun)
    · exact fun _ hsent => (Option.some.inj hsent).symm
    · intro headers requests signal hfetching
      cases hfetching
      have hactive := h.waiting i call hcall hphase hlast
      exact ⟨hactive, hactive, hlast⟩

theorem Ordered.fail (h : viewer.Ordered) (hcall : viewer.calls[i]? = some call)
    (hphase : ∀ requests responses, call.phase ≠ .resolved requests responses)
    (hhidden : call.displayed = none) : (viewer.setPhase i call .failed).Ordered :=
  h.setPhase hcall (h.not_ready hcall hphase) hhidden rfl
    (h.toPlaced.setPhase nofun nofun nofun nofun)

theorem Ordered.step (h : viewer.Ordered) {action : Action R} (hturn : viewer.InTurn action)
    {after : Viewer R} (hstep : viewer.step action = some after) : after.Ordered := by
  cases action with
  | select selection =>
    cases hstep
    exact { h with }
  | loadSeries range maxPoints =>
    cases hstep
    unfold Viewer.loadSeries
    split
    · next hempty => exact h.loadEmpty (hturn hempty) rfl
    · exact h.loadSelected rfl
  | token i token =>
    obtain ⟨call, hcall, hstep⟩ := Option.bind_eq_some_iff.mp hstep
    split at hstep
    · next hphase =>
      cases hstep
      exact h.token hcall hphase hturn
    · cases hstep
  | tokenFailed i =>
    obtain ⟨call, hcall, hstep⟩ := Option.bind_eq_some_iff.mp hstep
    split at hstep
    · next hphase =>
      cases hstep
      exact h.fail hcall (fun _ _ => by rw [hphase]; exact nofun) (by rw [Call.displayed, hphase])
    · cases hstep
  | respond i responses =>
    obtain ⟨call, hcall, hstep⟩ := Option.bind_eq_some_iff.mp hstep
    split at hstep
    · next headers requests signal hphase =>
      split at hstep
      · cases hstep
        obtain ⟨-, -, hlast⟩ := h.fetching i call headers requests signal hcall hphase
        have hwanted : requests = call.wanted :=
          h.own i call hcall requests (by rw [Call.sent, hphase])
        rw [hwanted]
        exact h.setReady hcall (h.not_ready hcall fun _ _ => by rw [hphase]; exact nofun) hlast
          (by rw [Call.displayed, hphase]) responses
      · cases hstep
    · cases hstep
  | responseFailed i =>
    obtain ⟨call, hcall, hstep⟩ := Option.bind_eq_some_iff.mp hstep
    split at hstep
    · next hphase =>
      cases hstep
      exact h.fail hcall (fun _ _ => by rw [hphase]; exact nofun) (by rw [Call.displayed, hphase])
    · cases hstep
  | proceed =>
    simp only [Viewer.step] at hstep
    split at hstep
    · cases hstep
    · next i ready hready =>
      obtain ⟨call, hcall, hstep⟩ := Option.bind_eq_some_iff.mp hstep
      split at hstep
      · next requests responses hphase =>
        cases hstep
        exact h.proceed hready hcall hphase
      · cases hstep

theorem Ordered.showsLatest (h : viewer.Ordered) : viewer.ShowsLatest where
  settled := by
    intro hidle call hlast
    have hcall : viewer.calls[viewer.calls.length - 1]? = some call := by
      rw [← List.getLast?_eq_getElem?, hlast]
    have hpos := (List.getElem?_eq_some_iff.mp hcall).1
    have hend : viewer.calls.length - 1 + 1 = viewer.calls.length := by omega
    have hnot := hidle call (List.mem_of_getElem? hcall)
    have hlatest : ∀ responses, call.displayed = some responses →
        viewer.seriesResponses = responses := by
      intro responses hdisplayed
      rw [h.shown]
      refine latest_eq (i := viewer.calls.length - 1) ?_ fun j hlt slot hslot => ?_
      · rw [List.getElem?_map, hcall, Option.map_some, hdisplayed]
      · have hj := (List.getElem?_eq_some_iff.mp hslot).1
        rw [List.length_map] at hj
        omega
    cases hphase : call.phase with
    | noSelection => exact .inl ⟨rfl, hlatest [] (by rw [Call.displayed, hphase])⟩
    | awaitingToken => simp [Call.pending, hphase] at hnot
    | fetching headers requests signal => simp [Call.pending, hphase] at hnot
    | resolved requests responses => simp [Call.pending, hphase] at hnot
    | committed requests responses =>
      have hwanted := h.own _ call hcall requests (by rw [Call.sent, hphase])
      exact .inr (.inl ⟨responses, by rw [hwanted],
        hlatest responses (by rw [Call.displayed, hphase])⟩)
    | failed => exact .inr (.inr ⟨rfl, h.shown⟩)
    | aborted => exact absurd hphase (h.kept _ call hcall hend)
  inOrder i hi := h.behind i (List.mem_of_mem_head? (hi ▸ rfl))

/-- In runs in turn the series on the screen are those of the latest call. -/
theorem showsLatest_run (selection : Selection) {actions : List (Action R)}
    (hturn : Guarded Viewer.step InTurn (start selection) actions)
    (hrun : run Viewer.step (start selection) actions = some viewer) : viewer.ShowsLatest := by
  have hordered := run_guarded_invariant (I := fun v : Viewer R => v.Ordered)
    (fun _ _ _ h hok hstep => h.step hok hstep) (ordered_start selection) hturn hrun
  exact hordered.showsLatest

/-! Two ranges of one stream -/

def panel : Selection :=
  ⟨["press-1".toList], ["temp".toList], [("press-1".toList, ["temp".toList])]⟩

def hour : Range := ⟨"10:00".toList, "11:00".toList⟩

def minute : Range := ⟨"10:20".toList, "10:21".toList⟩

def zoomed : List (Action Nat) :=
  [.loadSeries hour 1500, .token 0 [], .loadSeries minute 1500, .token 1 [], .respond 1 [2],
    .proceed]

theorem showsLatest_run_zoomed :
    ∃ viewer, run Viewer.step (start panel) zoomed = some viewer ∧
      viewer.seriesResponses = [2] ∧ viewer.ShowsLatest := by
  have hturn : Guarded Viewer.step InTurn (start panel) zoomed := by decide
  exact ⟨_, rfl, rfl, showsLatest_run panel hturn rfl⟩

def overtaken : List (Action Nat) :=
  [.loadSeries hour 1500, .loadSeries minute 1500, .token 1 [], .respond 1 [2], .proceed,
    .token 0 [], .respond 0 [1], .proceed]

def emptied : List (Action Nat) :=
  [.loadSeries hour 1500, .token 0 [], .select { panel with selectedDeviceIds := [] },
    .loadSeries hour 1500, .respond 0 [1], .proceed]

/-- The first series come back over the later ones, and over the emptied screen. -/
theorem not_showsLatest :
    (∃ viewer, run Viewer.step (start panel) overtaken = some viewer ∧ ¬viewer.ShowsLatest) ∧
      ∃ viewer, run Viewer.step (start panel) emptied = some viewer ∧ ¬viewer.ShowsLatest := by
  refine ⟨⟨_, rfl, fun h => ?_⟩, ⟨_, rfl, fun h => ?_⟩⟩
  · rcases h.settled (by decide) _ rfl with ⟨hphase, -⟩ | ⟨responses, hphase, hshown⟩ | ⟨hphase, -⟩
    · cases hphase
    · cases hphase
      cases hshown
    · cases hphase
  · rcases h.settled (by decide) _ rfl with ⟨-, hshown⟩ | ⟨responses, hphase, -⟩ | ⟨hphase, -⟩
    · cases hshown
    · cases hphase
    · cases hphase

end Viewer

end Aetus.Frontend
