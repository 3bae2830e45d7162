import Aetus.Firmware.Wire

/-!
The metrics that a telemetry message reports, as a reader of the wire format has them: key
and unit as bytes, the value with its type, in the order of the message.
-/

set_option autoImplicit false

namespace Aetus.Firmware
open Aetus.Base Aetus.Base.Protobuf

inductive ReportValue where
  | int (value : Int64)
  | double (bits : UInt64)
  | bool (value : Bool)
  | string (text : List UInt8)
  | bytes (content : List UInt8)
  deriving DecidableEq

structure ReportMetric where
  key : List UInt8
  unit : List UInt8
  value : Option ReportValue
  deriving DecidableEq

def ReportValue.field : ReportValue → Field
  | .int value => ⟨2, .varint (zigzag value.toInt)⟩
  | .double bits => ⟨3, .fixed64 bits⟩
  | .bool value => ⟨4, .varint (if value then 1 else 0)⟩
  | .string text => ⟨5, .bytes text⟩
  | .bytes content => ⟨6, .bytes content⟩

def ReportMetric.fields (m : ReportMetric) : List Field :=
  unlessDefault 1 (.bytes m.key) ++ (m.value.map ReportValue.field).toList ++
    unlessDefault 7 (.bytes m.unit)

def metricSetField (metrics : List ReportMetric) : Field :=
  message 10 [message 1 (metrics.map fun m => message 1 m.fields)]

/-- A later field overrides an earlier one, unknown fields are skipped, and a field with another
wire type than ingest.proto gives it makes the message unreadable. -/
def ReportMetric.merge (m : ReportMetric) (f : Field) : Option ReportMetric :=
  match f.number, f.value with
  | 1, .bytes key => some { m with key := key }
  | 2, .varint n => some { m with value := some (.int (Int64.ofInt (unzigzag n))) }
  | 3, .fixed64 bits => some { m with value := some (.double bits) }
  | 4, .varint n => some { m with value := some (.bool (n ≠ 0)) }
  | 5, .bytes text => some { m with value := some (.string text) }
  | 6, .bytes content => some { m with value := some (.bytes content) }
  | 7, .bytes unit => some { m with unit := unit }
  | number, _ => if number ≤ 7 then none else some m

def readMetric (fields : List Field) : Option ReportMetric :=
  fields.foldlM ReportMetric.merge ⟨[], [], none⟩

def readMetrics (payload : List UInt8) : Option (List ReportMetric) := do
  let event ← read payload
  let body ← lastOf [10, 11, 12] event
  let telemetry ← body.asMessage 10
  let set ← lastOf [1, 2] telemetry
  let fields ← set.asMessage 1
  (fields.filter (·.number = 1)).mapM fun f => (f.asMessage 1).bind readMetric

theorem merge_value (m : ReportMetric) (v : ReportValue) :
    m.merge v.field = some { m with value := some v } := by
  cases v with
  | int value => simp [ReportValue.field, ReportMetric.merge]
  | bool value => cases value <;> rfl
  | _ => rfl

theorem readMetric_fields (m : ReportMetric) : readMetric m.fields = some m := by
  obtain ⟨key, unit, value⟩ := m
  have hkey : (unlessDefault 1 (.bytes key)).foldlM ReportMetric.merge ⟨[], [], none⟩ =
      some ⟨key, [], none⟩ := by
    by_cases h : key = [] <;> simp [unlessDefault, Value.isDefault, h, ReportMetric.merge]
  have hvalue : (value.map ReportValue.field).toList.foldlM ReportMetric.merge ⟨key, [], none⟩ =
      some ⟨key, [], value⟩ := by
    cases value <;> simp [merge_value]
  have hunit : (unlessDefault 7 (.bytes unit)).foldlM ReportMetric.merge ⟨key, [], value⟩ =
      some ⟨key, unit, value⟩ := by
    by_cases h : unit = [] <;> simp [unlessDefault, Value.isDefault, h, ReportMetric.merge]
  rw [readMetric, ReportMetric.fields, List.foldlM_append, List.foldlM_append, hkey]
  simp only [Option.bind_eq_bind, Option.bind_some, hvalue, hunit]

theorem readMetrics_messages (metrics : List ReportMetric) :
    ((metrics.map fun m => message 1 m.fields).filter (·.number = 1)).mapM
      (fun f => (f.asMessage 1).bind readMetric) = some metrics := by
  induction metrics with
  | nil => rfl
  | cons m metrics ih =>
    rw [List.map_cons, List.filter_cons_of_pos (by simp), List.mapM_cons, ih, asMessage_message,
      Option.bind_some, readMetric_fields]
    rfl

theorem readMetrics_write (header : List Field) (metrics : List ReportMetric) :
    readMetrics (write (header ++ [metricSetField metrics])) = some metrics := by
  have hlast : lastOf [1, 2] [message 1 (metrics.map fun m => message 1 m.fields)] =
      some (message 1 (metrics.map fun m => message 1 m.fields)) :=
    lastOf_append_singleton (by simp) []
  have hbody : lastOf [10, 11, 12] (header ++ [metricSetField metrics]) =
      some (metricSetField metrics) :=
    lastOf_append_singleton (by simp [metricSetField]) header
  simp only [readMetrics, read_write, Option.bind_eq_bind, Option.bind_some, hbody]
  simp only [metricSetField, asMessage_message, Option.bind_some, hlast, readMetrics_messages]

end Aetus.Firmware
