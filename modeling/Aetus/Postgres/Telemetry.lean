import Aetus.Base.Binary64
import Aetus.Base.Sorting
import Aetus.Postgres.Staging

/-!
The final tables joined with their dimensions, as the services that only read them do, and
the frames that they select for a range of time.
-/

set_option autoImplicit false

namespace Aetus.Postgres
open Aetus.Base

abbrev StoredPoint := MetricPoint (List Char) (List Char × List Char) MetricDefinition

abbrev StoredFrame := FrameRow (List Char) (List Char × List Char) StreamDefinition

structure Telemetry where
  devices : List (List Char)
  points : List StoredPoint
  frames : List StoredFrame

def Database.telemetry (db : Database) : Telemetry :=
  ⟨db.devices.rows.map (·.key), db.points, db.frames⟩

/-- The seconds that `make_interval` is called with, of doubles. -/
def FrameRow.lastSampleSeconds {δ β σ : Type} (rounding : Rounding) (frame : FrameRow δ β σ) : ℚ :=
  rounding (rounding (rounding frame.sampleIntervalNs * rounding (frame.sampleCount - 1 : Nat)) /
    1000000000)

/-- `f.event_time + make_interval(secs => ...)`: the time of the last sample. The seconds are made
into microseconds by one more multiplication and `rint`. -/
def FrameRow.lastSampleTime {δ β σ : Type} (rounding : Rounding) (frame : FrameRow δ β σ) :
    Timestamptz :=
  frame.eventTime + roundHalfEven (rounding (frame.lastSampleSeconds rounding * 1000000))

/-- The `WHERE` clause that both services have. -/
def FrameRow.overlaps {β : Type} (rounding : Rounding) (deviceId streamKey : List Char)
    (start stop : Timestamptz) (frame : FrameRow (List Char) β StreamDefinition) : Bool :=
  frame.device = deviceId ∧ frame.signal.streamKey = streamKey ∧ frame.eventTime ≤ stop ∧
    (start ≤ frame.eventTime ∨ start ≤ frame.lastSampleTime rounding)

/-- `ORDER BY event_time ASC` -/
def orderByTime {ρ : Type} (eventTime : ρ → Timestamptz) (rows : List ρ) : List ρ :=
  rows.insertionSort fun a b => eventTime a ≤ eventTime b

def Telemetry.framesBetween (telemetry : Telemetry) (rounding : Rounding)
    (deviceId streamKey : List Char) (start stop : Timestamptz) : List StoredFrame :=
  orderByTime (·.eventTime)
    (telemetry.frames.filter (·.overlaps rounding deviceId streamKey start stop))

def Telemetry.framesOf (telemetry : Telemetry) (deviceId streamKey : List Char) :
    List StoredFrame :=
  telemetry.frames.filter fun frame => frame.device = deviceId ∧ frame.signal.streamKey = streamKey

variable {telemetry : Telemetry} {rounding : Rounding} {deviceId streamKey : List Char}
  {start stop : Timestamptz} {frame : StoredFrame}

theorem orderByTime_perm {ρ : Type} (eventTime : ρ → Timestamptz) (rows : List ρ) :
    (orderByTime eventTime rows).Perm rows := List.perm_insertionSort _ rows

theorem filter_orderByTime {ρ : Type} (eventTime : ρ → Timestamptz) (p : ρ → Bool) (rows : List ρ) :
    (orderByTime eventTime rows).filter p = orderByTime eventTime (rows.filter p) :=
  haveI : Std.Total fun a b => eventTime a ≤ eventTime b := ⟨fun _ _ => Int.le_total _ _⟩
  haveI : IsTrans ρ fun a b => eventTime a ≤ eventTime b := ⟨fun _ _ _ => Int.le_trans⟩
  filter_insertionSort p rows

theorem framesBetween_eq : telemetry.framesBetween rounding deviceId streamKey start stop =
    (orderByTime (·.eventTime) (telemetry.framesOf deviceId streamKey)).filter
      (·.overlaps rounding deviceId streamKey start stop) := by
  rw [filter_orderByTime, Telemetry.framesBetween, Telemetry.framesOf, List.filter_filter]
  refine congrArg _ (List.filter_congr fun frame _ => ?_)
  rw [Bool.eq_iff_iff]
  simp only [FrameRow.overlaps, Bool.and_eq_true, decide_eq_true_eq]
  tauto

theorem framesBetween_perm : (telemetry.framesBetween rounding deviceId streamKey start stop).Perm
    ((telemetry.framesOf deviceId streamKey).filter
      (·.overlaps rounding deviceId streamKey start stop)) := by
  rw [framesBetween_eq]
  exact (orderByTime_perm _ _).filter _

theorem mem_framesOf_of_mem_framesBetween
    (h : frame ∈ telemetry.framesBetween rounding deviceId streamKey start stop) :
    frame ∈ telemetry.framesOf deviceId streamKey :=
  (List.mem_filter.mp (framesBetween_perm.mem_iff.mp h)).1

end Aetus.Postgres
