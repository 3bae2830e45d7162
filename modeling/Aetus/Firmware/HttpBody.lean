import Aetus.Base.Buffer
import Aetus.Firmware.TimeSync

/-!
The body of a response in its buffer: the bytes of the array with their terminator, where the
model of the time request keeps only the text.
-/

set_option autoImplicit false

namespace Aetus.Firmware
open Aetus.Base

/-- `aetus_http_body_t`, with the bytes of the array that `data` points to. A `size_t` has 32
bits. -/
structure HttpBodyBuffer where
  data : List UInt8
  capacity : UInt32
  length : UInt32
  overflow : Bool

/-- `esp_http_client_event_t`. The array and the data of the event are different objects in one
address space of 32 bits. -/
structure HttpClientEvent (capacity : UInt32) where
  onData : Bool
  userData : Bool
  data : Option (List UInt8)
  room : ∀ bytes ∈ data, capacity.toNat + bytes.length ≤ 2 ^ 32

variable {capacity : UInt32}

def HttpClientEvent.bytes (event : HttpClientEvent capacity) : List UInt8 :=
  if event.onData && event.userData then event.data.getD [] else []

/-- `char response_body[capacity] = {0}` -/
def HttpBodyBuffer.zeroed (capacity : UInt32) : HttpBodyBuffer where
  data := List.replicate capacity.toNat 0
  capacity := capacity
  length := 0
  overflow := false

/-- The `memcpy` and the terminator, none when one of them passes the end of the array. -/
def HttpBodyBuffer.append (body : HttpBodyBuffer) (data : List UInt8) (incoming : UInt32) :
    Option HttpBodyBuffer := do
  if 0 < incoming then
    let copied ← copyInto body.data body.length.toNat data incoming.toNat
    let length := body.length + incoming
    let terminated ← storeAt copied length.toNat 0
    return { body with data := terminated, length := length }
  else return body

def collectHttpBodyBuffer (body : HttpBodyBuffer) (event : HttpClientEvent capacity) :
    Option HttpBodyBuffer :=
  if !event.onData || !event.userData then some body
  else match event.data with
    | none => some body
    | some data =>
      let incoming := UInt32.ofNat data.length
      let (body, incoming) :=
        if body.capacity ≤ body.length + incoming then
          ({ body with overflow := true }, body.capacity - body.length - 1)
        else (body, incoming)
      body.append data incoming

structure HttpBodyBuffer.Holds (body : HttpBodyBuffer) (capacity : UInt32)
    (received : List UInt8) : Prop where
  capacity_eq : body.capacity = capacity
  size : body.data.length = capacity.toNat
  room : body.length < body.capacity
  length_eq : body.length.toNat = min received.length (capacity.toNat - 1)
  text : body.data.take (body.length.toNat + 1) = received.take body.length.toNat ++ [0]
  overflow_iff : body.overflow = true ↔ capacity.toNat ≤ received.length

namespace HttpBodyBuffer

variable {body : HttpBodyBuffer} {received : List UInt8}

theorem holds_zeroed (h : 0 < capacity) : (zeroed capacity).Holds capacity [] := by
  have hpos : 0 < capacity.toNat := UInt32.lt_iff_toNat_lt.mp h
  refine ⟨rfl, List.length_replicate, h, ?_, ?_, ?_⟩
  · simp [zeroed]
  · simp only [zeroed, UInt32.toNat_zero, List.take_replicate, List.take_nil, List.nil_append]
    rw [Nat.min_eq_left hpos, List.replicate_one]
  · simp only [zeroed, Bool.false_eq_true, List.length_nil, false_iff]
    omega

theorem Holds.take_length (h : body.Holds capacity received) :
    body.data.take body.length.toNat = received.take body.length.toNat := by
  have hlength : (received.take body.length.toNat).length = body.length.toNat := by
    rw [List.length_take, h.length_eq]
    omega
  have htext := congrArg (List.take body.length.toNat) h.text
  rw [List.take_take, Nat.min_eq_left (Nat.le_succ _), List.take_left' hlength] at htext
  exact htext

/-- A part of the piece that fills the room that is left, or all of it, is kept. -/
theorem Holds.append {data : List UInt8} {incoming : UInt32} {overflow : Bool}
    (h : body.Holds capacity received)
    (hincoming : incoming.toNat = min data.length (capacity.toNat - 1 - body.length.toNat))
    (hoverflow : overflow = true ↔ capacity.toNat ≤ (received ++ data).length) :
    ∃ after, { body with overflow := overflow }.append data incoming = some after ∧
      after.Holds capacity (received ++ data) := by
  have hroom := UInt32.lt_iff_toNat_lt.mp h.room
  rw [h.capacity_eq] at hroom
  have hlength := h.length_eq
  have hsize := h.size
  by_cases hpos : 0 < incoming
  · have hsome := UInt32.lt_iff_toNat_lt.mp hpos
    rw [UInt32.toNat_zero] at hsome
    have hall : body.length.toNat = received.length := by omega
    have hsum : (body.length + incoming).toNat = body.length.toNat + incoming.toNat := by
      rw [UInt32.toNat_add]
      have hword := capacity.toNat_lt
      exact Nat.mod_eq_of_lt (by omega)
    have hcopyend : body.length.toNat + incoming.toNat ≤ body.data.length := by omega
    have hcopysource : incoming.toNat ≤ data.length := by omega
    obtain ⟨copied, hcopied, hcopiedsize, hcopiedtext⟩ := exists_copyInto hcopyend hcopysource
    have hstoreend : (body.length + incoming).toNat < copied.length := by omega
    obtain ⟨terminated, hterminated, hterminatedsize, hterminatedtext⟩ :=
      exists_storeAt (0 : UInt8) hstoreend
    refine ⟨{ body with data := terminated, length := body.length + incoming, overflow := overflow },
      ?_, h.capacity_eq, ?_, ?_, ?_, ?_, hoverflow⟩
    · simp only [HttpBodyBuffer.append, if_pos hpos, hcopied, Option.bind_eq_bind,
        Option.bind_some, hterminated]
      rfl
    · rw [hterminatedsize, hcopiedsize, hsize]
    · rw [h.capacity_eq, UInt32.lt_iff_toNat_lt, hsum]
      omega
    · rw [hsum, List.length_append]
      omega
    · show terminated.take ((body.length + incoming).toNat + 1) = _
      rw [hterminatedtext, hsum, hcopiedtext, h.take_length, hall, List.take_length,
        List.take_length_add_append]
  · have hnone : incoming.toNat = 0 := by
      have hle := UInt32.le_iff_toNat_le.mp (UInt32.not_lt.mp hpos)
      exact Nat.le_zero.mp hle
    refine ⟨{ body with overflow := overflow }, if_neg hpos, h.capacity_eq, hsize, h.room, ?_, ?_,
      hoverflow⟩
    · rw [List.length_append]
      show body.length.toNat = _
      omega
    · show body.data.take (body.length.toNat + 1) =
        (received ++ data).take body.length.toNat ++ [0]
      rw [List.take_append_of_le_length (by omega), h.text]

theorem Holds.collect (event : HttpClientEvent capacity) (h : body.Holds capacity received) :
    ∃ after, collectHttpBodyBuffer body event = some after ∧
      after.Holds capacity (received ++ event.bytes) := by
  rw [collectHttpBodyBuffer, ← Bool.not_and]
  by_cases hcounted : (event.onData && event.userData) = true
  swap
  · refine ⟨body, if_pos (by rw [Bool.eq_false_iff.mpr hcounted, Bool.not_false]), ?_⟩
    rw [HttpClientEvent.bytes, if_neg hcounted, List.append_nil]
    exact h
  rw [if_neg (by rw [hcounted]; decide), HttpClientEvent.bytes, if_pos hcounted]
  cases hdata : event.data with
  | none =>
    refine ⟨body, rfl, ?_⟩
    rw [Option.getD_none, List.append_nil]
    exact h
  | some data =>
    have hspace := event.room data hdata
    have hroom := UInt32.lt_iff_toNat_lt.mp h.room
    have hlength := h.length_eq
    rw [h.capacity_eq] at hroom
    have hincoming : (UInt32.ofNat data.length).toNat = data.length := by
      rw [UInt32.toNat_ofNat']
      exact Nat.mod_eq_of_lt (by omega)
    have hsum : (body.length + UInt32.ofNat data.length).toNat =
        body.length.toNat + data.length := by
      rw [UInt32.toNat_add, hincoming]
      exact Nat.mod_eq_of_lt (by omega)
    simp only [Option.getD_some]
    by_cases hover : body.capacity ≤ body.length + UInt32.ofNat data.length
    · rw [if_pos hover]
      rw [h.capacity_eq, UInt32.le_iff_toNat_le, hsum] at hover
      have hleft : (body.capacity - body.length - 1).toNat =
          capacity.toNat - 1 - body.length.toNat := by
        rw [h.capacity_eq, UInt32.toNat_sub_of_le, UInt32.toNat_sub_of_le, UInt32.toNat_one]
        · omega
        · exact UInt32.le_iff_toNat_le.mpr hroom.le
        · rw [UInt32.le_iff_toNat_le, UInt32.toNat_sub_of_le _ _ (UInt32.le_iff_toNat_le.mpr hroom.le)]
          exact Nat.sub_pos_of_lt hroom
      refine h.append ?_ ?_
      · show (body.capacity - body.length - 1).toNat = _
        omega
      · rw [List.length_append]
        exact iff_of_true rfl (by omega)
    · rw [if_neg hover]
      rw [h.capacity_eq, UInt32.le_iff_toNat_le, hsum] at hover
      refine h.append ?_ ?_
      · show (UInt32.ofNat data.length).toNat = _
        omega
      · rw [h.overflow_iff, List.length_append]
        omega

theorem Holds.run (events : List (HttpClientEvent capacity)) (h : body.Holds capacity received) :
    ∃ after, events.foldlM collectHttpBodyBuffer body = some after ∧
      after.Holds capacity (received ++ events.flatMap HttpClientEvent.bytes) := by
  induction events generalizing body received with
  | nil => exact ⟨body, rfl, by rwa [List.flatMap_nil, List.append_nil]⟩
  | cons event events ih =>
    obtain ⟨next, hnext, hholds⟩ := h.collect event
    obtain ⟨after, hafter, hlast⟩ := ih hholds
    refine ⟨after, ?_, ?_⟩
    · rw [List.foldlM_cons, hnext]
      exact hafter
    · rwa [List.flatMap_cons, ← List.append_assoc]

end HttpBodyBuffer

/-- No call writes behind the array, and after every call there is room for the terminator. -/
theorem collectHttpBodyBuffer_run (h : 0 < capacity) (events : List (HttpClientEvent capacity)) :
    ∃ body, events.foldlM collectHttpBodyBuffer (.zeroed capacity) = some body ∧
      body.Holds capacity (events.flatMap HttpClientEvent.bytes) :=
  (HttpBodyBuffer.holds_zeroed h).run events

/-- The last of three pieces, one of them empty, is one byte too long. -/
theorem collectHttpBodyBuffer_run_overflow :
    ∃ body, ([⟨true, true, some [123, 34], by decide⟩, ⟨true, true, some [], by decide⟩,
        ⟨true, true, some [34, 125], by decide⟩] : List (HttpClientEvent 4)).foldlM
        collectHttpBodyBuffer (.zeroed 4) = some body ∧
      body.Holds 4 [123, 34, 34, 125] :=
  collectHttpBodyBuffer_run (by decide) _

/-! The text -/

def HttpClientEvent.toHttpEvent (event : HttpClientEvent capacity) : HttpEvent :=
  if event.onData && event.userData then .onData event.data else .other

theorem HttpClientEvent.bytes_toHttpEvent (event : HttpClientEvent capacity) :
    event.toHttpEvent.bytes = event.bytes := by
  unfold toHttpEvent bytes
  by_cases hcounted : (event.onData && event.userData) = true
  · rw [if_pos hcounted, if_pos hcounted]
    cases event.data <;> rfl
  · rw [if_neg hcounted, if_neg hcounted]
    rfl

theorem collectHttpBodyBuffer_text (h : 0 < capacity.toNat)
    (events : List (HttpClientEvent capacity)) :
    ∃ body, events.foldlM collectHttpBodyBuffer (.zeroed capacity) = some body ∧
      CString.ofBytes body.data = .ofBytes ((events.map HttpClientEvent.toHttpEvent).foldl
        collectHttpBody ⟨[], capacity.toNat, false, h⟩).data ∧
      body.overflow = ((events.map HttpClientEvent.toHttpEvent).foldl
        collectHttpBody ⟨[], capacity.toNat, false, h⟩).overflow := by
  obtain ⟨body, hrun, hholds⟩ :=
    (HttpBodyBuffer.holds_zeroed (UInt32.lt_iff_toNat_lt.mpr h)).run events
  rw [List.nil_append] at hholds
  obtain ⟨htext, hoverflow⟩ := foldl_collectHttpBody_kept
    (events.map HttpClientEvent.toHttpEvent) ⟨[], capacity.toNat, false, h⟩
  have hreceived : (events.map HttpClientEvent.toHttpEvent).flatMap HttpEvent.bytes =
      events.flatMap HttpClientEvent.bytes := by
    rw [List.flatMap_map]
    exact List.flatMap_congr fun event _ => event.bytes_toHttpEvent
  rw [hreceived] at htext hoverflow
  have hlength := hholds.length_eq
  refine ⟨body, hrun, ?_, ?_⟩
  · have hkept : (events.flatMap HttpClientEvent.bytes).take body.length.toNat =
        (events.flatMap HttpClientEvent.bytes).take (capacity.toNat - 0 - 1) := by
      rw [hlength, Nat.sub_zero, Nat.min_comm, ← List.take_eq_take_min]
    rw [htext, List.nil_append, List.length_nil, ← hkept,
      ← List.take_append_drop (body.length.toNat + 1) body.data, hholds.text, List.append_assoc]
    exact CString.ofBytes_terminated_append _ _
  · rw [hoverflow, Bool.false_or, List.length_nil, Nat.zero_add, Bool.eq_iff_iff,
      hholds.overflow_iff, decide_eq_true_iff]

end Aetus.Firmware
