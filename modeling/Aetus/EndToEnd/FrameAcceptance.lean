import Aetus.Clients.Events

/-!
The signal frames that the clients build, in front of the checks of the ingest server: what
the builders leave to the caller.
-/

set_option autoImplicit false

namespace Aetus
open Aetus.Base Aetus.Ingest Aetus.Clients

def ServerAcceptsFrame (event : IngestEvent) : Prop :=
  ∃ frame, event.body = some (.telemetry (some (.signalFrame frame))) ∧
    ∃ n, normalizeSignalFrame frame = .ok n

structure FrameBuilt (event : IngestEvent) (frame : Ingest.SignalFrame) (width : Nat) : Prop where
  body : event.body = some (.telemetry (some (.signalFrame frame)))
  streamKey : frame.streamKey ≠ []
  interval : frame.sampleIntervalNs ≠ 0
  count : frame.sampleCount ≠ 0
  channels : frame.channels ≠ []
  encoding : (SIGNAL_ENCODING_NAMES.lookup frame.encoding).isSome = true
  width : SIGNAL_ENCODING_SAMPLE_BYTES.lookup frame.encoding = some width
  layout : ∃ layout, SIGNAL_LAYOUT_NAMES.lookup frame.layout = some layout

theorem FrameBuilt.accepted_iff {event : IngestEvent} {frame : Ingest.SignalFrame} {width : Nat}
    (h : FrameBuilt event frame width) : ServerAcceptsFrame event ↔
      (∀ channel ∈ frame.channels, channel.key ≠ []) ∧
        frame.samples.length = frame.sampleCount.toNat * frame.channels.length * width := by
  obtain ⟨layout, hlayout⟩ := h.layout
  have haccepts := normalizeSignalFrame_accepts h.streamKey h.interval h.count h.channels
    h.encoding h.width hlayout
  rw [← haccepts]
  constructor
  · intro ⟨other, hbody, hok⟩
    have hsame := h.body.symm.trans hbody
    simp only [Option.some.injEq, Body.telemetry.injEq, TelemetryPayload.signalFrame.injEq] at hsame
    rw [hsame]
    exact hok
  · intro hok
    exact ⟨frame, h.body, hok⟩

namespace Clients.Python

def defaultEncoding (encoding : List Char) : List Char :=
  if encoding = "auto".toList then "float32_le".toList else encoding

def formatOf (encoding : List Char) : NumberFormat :=
  (ENCODING_STRUCT_FORMAT.lookup encoding).getD .float32

theorem encoding_known {encoding : List Char} (h : (ENCODING_TO_PROTO.lookup encoding).isSome) :
    ENCODING_STRUCT_FORMAT.lookup encoding = some (formatOf encoding) ∧
    (SIGNAL_ENCODING_NAMES.lookup ((ENCODING_TO_PROTO.lookup encoding).getD 0)).isSome = true ∧
      SIGNAL_ENCODING_SAMPLE_BYTES.lookup ((ENCODING_TO_PROTO.lookup encoding).getD 0) =
        some (formatOf encoding).size := by
  obtain ⟨value, hvalue⟩ := Option.isSome_iff_exists.mp h
  have hmem := mem_of_lookup hvalue
  simp only [ENCODING_TO_PROTO, List.mem_cons, Prod.mk.injEq, List.not_mem_nil, or_false] at hmem
  obtain ⟨rfl, rfl⟩ | ⟨rfl, rfl⟩ | ⟨rfl, rfl⟩ | ⟨rfl, rfl⟩ := hmem <;> decide

theorem proto_of_format {encoding : List Char} {format : NumberFormat}
    (h : ENCODING_STRUCT_FORMAT.lookup encoding = some format) :
    (ENCODING_TO_PROTO.lookup encoding).isSome = true := by
  have hmem := mem_of_lookup h
  simp only [ENCODING_STRUCT_FORMAT, List.mem_cons, Prod.mk.injEq, List.not_mem_nil,
    or_false] at hmem
  obtain ⟨rfl, rfl⟩ | ⟨rfl, rfl⟩ | ⟨rfl, rfl⟩ | ⟨rfl, rfl⟩ := hmem <;> decide

theorem layout_known {layout : List Char} (h : (LAYOUT_TO_PROTO.lookup layout).isSome = true) :
    ∃ name, SIGNAL_LAYOUT_NAMES.lookup ((LAYOUT_TO_PROTO.lookup layout).getD 0) = some name := by
  obtain ⟨value, hvalue⟩ := Option.isSome_iff_exists.mp h
  have hmem := mem_of_lookup hvalue
  simp only [LAYOUT_TO_PROTO, List.mem_cons, Prod.mk.injEq, List.not_mem_nil, or_false] at hmem
  obtain ⟨rfl, rfl⟩ | ⟨rfl, rfl⟩ := hmem
  · exact ⟨"interleaved".toList, by decide⟩
  · exact ⟨"planar".toList, by decide⟩

variable {F E : Type} {numbers : Numbers F E} {args : SignalFrameArgs F E}

structure Packed (args : SignalFrameArgs F E) (packed : List UInt8) (count : Int)
    (encoding : List Char) : Prop where
  pos : 0 < count
  format : ENCODING_STRUCT_FORMAT.lookup encoding = some (formatOf encoding)
  length : packed.length = count.toNat * args.channels.length * (formatOf encoding).size

theorem packNumpySignalSamples_ok {array : NdArray E} {encoding layout resolved : List Char}
    {packed : List UInt8} {count : Nat}
    (h : packNumpySignalSamples numbers array encoding layout = .ok (packed, count, resolved)) :
    ∃ rows columns, array.values.rows = .ok (rows, columns) ∧ rows ≠ [] ∧ count = rows.length ∧
      ∃ format, ENCODING_STRUCT_FORMAT.lookup resolved = some format ∧
        packed.length = rows.length * columns * format.size := by
  simp only [packNumpySignalSamples, except_bind_eq_ok, require_eq_ok] at h
  obtain ⟨⟨rows, columns⟩, hrows, _, hnonempty, _, -, chosen, -, h⟩ := h
  have hrect : ∀ row ∈ rows, row.length = columns := by
    cases hv : array.values with
    | oneD values =>
      simp only [hv, NdValues.rows] at hrows
      cases hrows
      simp
    | twoD columns rows rectangular =>
      simp only [hv, NdValues.rows] at hrows
      cases hrows
      exact rectangular
    | other ndim => simp [hv, NdValues.rows] at hrows
  split at h
  · cases h
  · next format hformat =>
    obtain ⟨bytes, hbytes, h⟩ := except_bind_eq_ok.mp h
    obtain ⟨parts, hparts, hflat⟩ := except_bind_eq_ok.mp hbytes
    cases hflat
    cases h
    refine ⟨rows, columns, hrows, by simpa using hnonempty, rfl, format, hformat, ?_⟩
    rw [length_flatten_of_mapM hparts fun value bytes hvalue => ?_,
      length_orderedValues layout hrect]
    split at hvalue
    · cases hvalue
    · next hcast =>
      cases hvalue
      exact numbers.cast_length _ _ _ hcast

theorem checkRows_ok {rowCount rowWidth : Nat} {u : Unit}
    (h : checkRows args rowCount rowWidth = .ok u) : rowWidth = args.channels.length := by
  simp only [checkRows, except_bind_eq_ok, require_eq_ok] at h
  obtain ⟨_, -, hwidth⟩ := h
  simpa using hwidth

theorem resolveSamples_packed {packed : List UInt8} {count : Int} {encoding : List Char}
    (hs : ∀ bytes, args.samples ≠ .bytes bytes)
    (h : resolveSamples numbers args = .ok (packed, count, encoding)) :
    Packed args packed count encoding := by
  have hformat : ∀ {format : NumberFormat}, ENCODING_STRUCT_FORMAT.lookup encoding = some format →
      formatOf encoding = format := fun hf => by rw [formatOf, hf, Option.getD_some]
  unfold resolveSamples at h
  split at h
  · next bytes hbytes => exact absurd hbytes (hs bytes)
  · next rows _ =>
    simp only [except_bind_eq_ok] at h
    obtain ⟨⟨bytes, n, chosen⟩, hpack, u, hcheck, h⟩ := h
    simp only [pure, Except.pure, Except.ok.injEq, Prod.mk.injEq] at h
    obtain ⟨rfl, rfl, rfl⟩ := h
    have hok : packSignalSamplesWithMetadata numbers.float32Bits rows args.encoding args.layout =
        .ok (bytes, n, chosen) := by
      generalize packSignalSamplesWithMetadata numbers.float32Bits rows args.encoding
        args.layout = r at hpack ⊢
      cases r with
      | error e => simp [Except.mapError] at hpack
      | ok r => simpa [Except.mapError] using hpack
    obtain ⟨hne, rfl, format, hlookup, hlength⟩ := packSignalSamplesWithMetadata_ok hok
    have hpos := List.length_pos_iff.mpr hne
    have hwidth : rows.head?.elim 0 List.length = args.channels.length := checkRows_ok hcheck
    refine ⟨by omega, by rw [hlookup, hformat hlookup], ?_⟩
    rw [hlength, hwidth, hformat hlookup, Int.toNat_natCast]
  · next array _ =>
    simp only [except_bind_eq_ok] at h
    obtain ⟨⟨bytes, n, chosen⟩, hpack, ⟨rows, columns⟩, hrows, u, hcheck, h⟩ := h
    simp only [pure, Except.pure, Except.ok.injEq, Prod.mk.injEq] at h
    obtain ⟨rfl, rfl, rfl⟩ := h
    obtain ⟨rows', columns', hrows', hne, rfl, format, hlookup, hlength⟩ :=
      packNumpySignalSamples_ok hpack
    have hsame := hrows.symm.trans hrows'
    cases hsame
    have hpos := List.length_pos_iff.mpr hne
    have hwidth : columns = args.channels.length := checkRows_ok hcheck
    refine ⟨by omega, by rw [hlookup, hformat hlookup], ?_⟩
    rw [hlength, hwidth, hformat hlookup, Int.toNat_natCast]

theorem resolveSamples_bytes {bytes packed : List UInt8} {count : Int} {encoding : List Char}
    (hs : args.samples = .bytes bytes)
    (h : resolveSamples numbers args = .ok (packed, count, encoding)) :
    packed = bytes ∧ 0 < count ∧ count = args.sampleCount.getD 0 ∧
      encoding = defaultEncoding args.encoding := by
  simp only [resolveSamples, hs, except_bind_eq_ok, require_eq_ok] at h
  obtain ⟨_, hcount, h⟩ := h
  cases h
  refine ⟨rfl, ?_, rfl, rfl⟩
  cases hc : args.sampleCount with
  | none => simp [hc] at hcount
  | some n => simpa [hc] using hcount

def CallerFits (args : SignalFrameArgs F E) : Prop :=
  (∀ item ∈ args.channels, item.asSpec.key ≠ []) ∧
  ∀ bytes, args.samples = .bytes bytes →
    bytes.length = (args.sampleCount.getD 0).toNat * args.channels.length *
      (formatOf (defaultEncoding args.encoding)).size

theorem buildSignalFrameEvent_ok {event : EventArgs} {built : IngestEvent}
    (h : buildSignalFrameEvent numbers event args = .ok built) :
    ∃ packed count encoding frame, resolveSamples numbers args = .ok (packed, count, encoding) ∧
      FrameBuilt built frame (formatOf encoding).size ∧ frame.samples = packed ∧
      frame.sampleCount.toNat = count.toNat ∧
      frame.channels = args.channels.map (coerceChannel numbers) := by
  simp only [buildSignalFrameEvent, except_bind_eq_ok, require_eq_ok] at h
  obtain ⟨_, hstream, _, hinterval, _, hchannels, _, hencoding, _, hlayout, base, -,
    ⟨packed, count, encoding⟩, hsamples, interval, hfield, sampleCount, hcount, h⟩ := h
  obtain ⟨-, hintervalNat⟩ := uint64Field_ok hfield
  obtain ⟨-, hcountNat⟩ := uint32Field_ok hcount
  dsimp only at hcountNat
  have hpos : 0 < count ∧ (ENCODING_TO_PROTO.lookup encoding).isSome = true := by
    by_cases hb : ∃ bytes, args.samples = .bytes bytes
    · obtain ⟨bytes, hb⟩ := hb
      obtain ⟨-, hcpos, -, rfl⟩ := resolveSamples_bytes hb hsamples
      refine ⟨hcpos, ?_⟩
      unfold defaultEncoding
      split
      · decide
      · next hauto =>
        rcases (Bool.or_eq_true _ _).mp hencoding with hsame | hknown
        · exact absurd (of_decide_eq_true hsame) hauto
        · exact hknown
    · have hpacked := resolveSamples_packed (fun bytes hb' => hb ⟨bytes, hb'⟩) hsamples
      exact ⟨hpacked.pos, proto_of_format hpacked.format⟩
  obtain ⟨-, hname, hwidth⟩ := encoding_known hpos.2
  cases h
  refine ⟨packed, count, encoding, _, hsamples, ⟨rfl, ?_, ?_, ?_, ?_, hname, hwidth,
    layout_known hlayout⟩, rfl, hcountNat, rfl⟩
  · simpa using hstream
  · intro hzero
    have hz : interval.toNat = 0 := congrArg UInt64.toNat hzero
    have hint : 0 < args.sampleIntervalNs := by simpa using hinterval
    omega
  · intro hzero
    have hz : sampleCount.toNat = 0 := congrArg UInt32.toNat hzero
    omega
  · simpa using hchannels

theorem accepted_iff_callerFits {event : EventArgs} {built : IngestEvent}
    (h : buildSignalFrameEvent numbers event args = .ok built) :
    ServerAcceptsFrame built ↔ CallerFits args := by
  obtain ⟨packed, count, encoding, frame, hsamples, hbuilt, hpacked, hcount, hchannels⟩ :=
    buildSignalFrameEvent_ok h
  have hkeys : (∀ channel ∈ frame.channels, channel.key ≠ []) ↔
      ∀ item ∈ args.channels, item.asSpec.key ≠ [] := by
    rw [hchannels]
    exact List.forall_mem_map
  rw [hbuilt.accepted_iff, hkeys, CallerFits, hpacked, hcount, hchannels, List.length_map]
  refine and_congr_right fun _ => ?_
  by_cases hb : ∃ bytes, args.samples = .bytes bytes
  · obtain ⟨bytes, hb⟩ := hb
    obtain ⟨rfl, -, rfl, rfl⟩ := resolveSamples_bytes hb hsamples
    constructor
    · intro hlength bytes hbytes
      rw [hb] at hbytes
      cases hbytes
      exact hlength
    · intro hfits
      exact hfits packed hb
  · have hp := resolveSamples_packed (fun bytes hb' => hb ⟨bytes, hb'⟩) hsamples
    exact ⟨fun _ bytes hb' => absurd ⟨bytes, hb'⟩ hb, fun _ => hp.length⟩

end Clients.Python

namespace Clients.Rust

/-- Rows for one of the four pack functions; an `f32` is its bits. -/
inductive SampleRows where
  | f32 (rows : List (List UInt32))
  | i16 (rows : List (List Int16))
  | u16 (rows : List (List UInt16))
  | i32 (rows : List (List Int32))

def SampleRows.pack (layout : SignalLayout) : SampleRows → Except Error PackedSignalSamples
  | .f32 rows => packSignalSamplesF32 rows layout
  | .i16 rows => packSignalSamplesI16 rows layout
  | .u16 rows => packSignalSamplesU16 rows layout
  | .i32 rows => packSignalSamplesI32 rows layout

def SampleRows.count : SampleRows → Nat
  | .f32 rows => rows.length
  | .i16 rows => rows.length
  | .u16 rows => rows.length
  | .i32 rows => rows.length

def SampleRows.width : SampleRows → Nat
  | .f32 rows => rows.head?.elim 0 List.length
  | .i16 rows => rows.head?.elim 0 List.length
  | .u16 rows => rows.head?.elim 0 List.length
  | .i32 rows => rows.head?.elim 0 List.length

def SignalEncoding.size : SignalEncoding → Nat
  | .float32Le => 4
  | .int16Le => 2
  | .uint16Le => 2
  | .int32Le => 4

theorem encoding_known (encoding : SignalEncoding) :
    (SIGNAL_ENCODING_NAMES.lookup encoding.protoValue).isSome = true ∧
      SIGNAL_ENCODING_SAMPLE_BYTES.lookup encoding.protoValue = some encoding.size := by
  cases encoding <;> decide

theorem layout_known (layout : SignalLayout) :
    ∃ name, SIGNAL_LAYOUT_NAMES.lookup layout.protoValue = some name := by
  cases layout with
  | interleaved => exact ⟨"interleaved".toList, by decide⟩
  | planar => exact ⟨"planar".toList, by decide⟩

theorem packSignalSamples_ok {T : Type} {rows : List (List T)} {encoding : SignalEncoding}
    {layout : SignalLayout} {toLeBytes : T → List UInt8} {samples : PackedSignalSamples}
    (hwidth : ∀ value, (toLeBytes value).length = encoding.size)
    (h : packSignalSamples rows encoding layout (fun value bytes => bytes ++ toLeBytes value) =
      .ok samples) :
    samples.encoding = encoding ∧ samples.sampleCount.toNat = rows.length % 2 ^ 32 ∧
      samples.bytes.length = rows.length * rows.head?.elim 0 List.length * encoding.size := by
  rw [rust_packed] at h
  unfold packedRows at h
  cases rows with
  | nil => cases h
  | cons row rows =>
    dsimp only at h
    by_cases hzero : row.length = 0
    · simp [hzero] at h
    · by_cases hragged : (row :: rows).any (fun other => other.length != row.length) = true
      · simp only [hzero, hragged, if_true, if_false] at h
        cases h
      · simp only [hzero, hragged, if_false] at h
        cases h
        have hrows : ∀ other ∈ row :: rows, other.length = row.length := by simpa using hragged
        refine ⟨rfl, UInt32.toNat_ofNat', ?_⟩
        rw [length_flatMap_of_length fun value _ => hwidth value,
          Python.length_orderedValues layout.name hrows]
        rfl

theorem SampleRows.pack_ok {rows : SampleRows} {layout : SignalLayout}
    {samples : PackedSignalSamples} (h : rows.pack layout = .ok samples) :
    samples.sampleCount.toNat = rows.count % 2 ^ 32 ∧
      samples.bytes.length = rows.count * rows.width * samples.encoding.size := by
  cases rows with
  | f32 rows =>
    obtain ⟨he, hc, hb⟩ := packSignalSamples_ok (fun _ => length_leBytes 4 _) h
    exact ⟨hc, by rw [hb, he]; rfl⟩
  | i16 rows =>
    obtain ⟨he, hc, hb⟩ := packSignalSamples_ok (fun _ => length_leBytes 2 _) h
    exact ⟨hc, by rw [hb, he]; rfl⟩
  | u16 rows =>
    obtain ⟨he, hc, hb⟩ := packSignalSamples_ok (fun _ => length_leBytes 2 _) h
    exact ⟨hc, by rw [hb, he]; rfl⟩
  | i32 rows =>
    obtain ⟨he, hc, hb⟩ := packSignalSamples_ok (fun _ => length_leBytes 4 _) h
    exact ⟨hc, by rw [hb, he]; rfl⟩

/-- The part of the server's checks that the builder leaves to its caller: `sample_count` is
the number of rows in 32 bits. -/
def CallerFits (channels : List SignalChannelSpec) (rows : SampleRows) : Prop :=
  (∀ channel ∈ channels, channel.key ≠ []) ∧
    rows.count % 2 ^ 32 * channels.length = rows.count * rows.width

theorem buildSignalFrameEvent_ok {widen : UInt32 → Double} {event : EventArgs}
    {args : SignalFrameArgs} {built : IngestEvent}
    (h : buildSignalFrameEvent widen event args = .ok built) :
    ∃ frame, FrameBuilt built frame args.samples.encoding.size ∧
      frame.samples = args.samples.bytes ∧ frame.sampleCount = args.samples.sampleCount ∧
      frame.channels.map (·.key) = args.channels.map (·.key) := by
  simp only [buildSignalFrameEvent, except_bind_eq_ok, require_eq_ok] at h
  obtain ⟨_, hstream, _, hinterval, _, hchannels, _, hcount, base, -, h⟩ := h
  obtain ⟨hname, hwidth⟩ := encoding_known args.samples.encoding
  cases h
  refine ⟨_, ⟨rfl, ?_, ?_, ?_, ?_, hname, hwidth, layout_known args.samples.layout⟩, rfl, rfl, ?_⟩
  · simpa using hstream
  · simpa using hinterval
  · simpa using hcount
  · simpa using hchannels
  · simp [Function.comp_def]

theorem accepted_iff_callerFits {widen : UInt32 → Double} {event : EventArgs}
    {args : SignalFrameArgs} {built : IngestEvent} {rows : SampleRows} {layout : SignalLayout}
    (hpack : rows.pack layout = .ok args.samples)
    (h : buildSignalFrameEvent widen event args = .ok built) :
    ServerAcceptsFrame built ↔ CallerFits args.channels rows := by
  obtain ⟨frame, hbuilt, hsamples, hcount, hkeys⟩ := buildSignalFrameEvent_ok h
  obtain ⟨hrows, hlength⟩ := SampleRows.pack_ok hpack
  have hlen : frame.channels.length = args.channels.length := by
    simpa using congrArg List.length hkeys
  have hnonempty : (∀ channel ∈ frame.channels, channel.key ≠ []) ↔
      ∀ channel ∈ args.channels, channel.key ≠ [] := by
    have hleft : (∀ key ∈ frame.channels.map (·.key), key ≠ []) ↔
        ∀ key ∈ args.channels.map (·.key), key ≠ [] := by rw [hkeys]
    simpa using hleft
  have hpos : 0 < args.samples.encoding.size := by cases args.samples.encoding <;> decide
  rw [hbuilt.accepted_iff, hnonempty, CallerFits, hsamples, hcount, hlen, hrows, hlength]
  refine and_congr_right fun _ => ?_
  rw [Nat.mul_right_cancel_iff hpos]
  exact eq_comm

end Clients.Rust

/-- Both builders leave the channel keys to the caller, and beyond them the Python builder the
length of packed bytes, the Rust builder the width of the rows. -/
theorem builtFrame_accepted_iff {F E : Type} (numbers : Python.Numbers F E)
    (widen : UInt32 → Double) :
    (∀ event args built, Python.buildSignalFrameEvent numbers event args = .ok built →
      (ServerAcceptsFrame built ↔ Python.CallerFits args)) ∧
    (∀ event args (rows : Rust.SampleRows) layout built, rows.pack layout = .ok args.samples →
      Rust.buildSignalFrameEvent widen event args = .ok built →
      (ServerAcceptsFrame built ↔ Rust.CallerFits args.channels rows)) :=
  ⟨fun _ _ _ h => Python.accepted_iff_callerFits h,
    fun _ _ _ _ _ hpack h => Rust.accepted_iff_callerFits hpack h⟩

theorem wholeNumbers_cast_length : ∀ (format : NumberFormat) (e : Int) (bytes : List UInt8),
    (fun (_ : NumberFormat) (_ : Int) => none) format e = some bytes →
      bytes.length = format.size :=
  nofun

def wholeNumbers : Python.Numbers Int Int :=
  ⟨fun _ => none, id, fun _ _ => none, wholeNumbers_cast_length⟩

def pythonEventArgs : Python.EventArgs where
  deviceId := "device".toList
  sequence := 0
  bootId := "boot".toList
  firmwareVersion := 0
  uptimeMs := 0
  timestampNs := none
  schemaVersion := 1

def packedArgs (bytes : List UInt8) : Python.SignalFrameArgs Int Int where
  streamKey := "imu".toList
  sampleIntervalNs := 1000
  channels := [.str "x".toList]
  samples := .bytes bytes
  sampleCount := some 1
  encoding := "int16_le".toList
  layout := "interleaved".toList

def rustEventArgs : Rust.EventArgs := ⟨"device".toList, 0, "boot".toList, 0, 0, none⟩

def rowArgs (samples : Rust.PackedSignalSamples) : Rust.SignalFrameArgs where
  streamKey := "imu".toList
  sampleIntervalNs := 1000
  channels := [⟨"x".toList, [], none, none⟩]
  samples := samples

theorem builtFrame_accepted_whole :
    ∃ samples p r, (Rust.SampleRows.u16 [[7]]).pack .interleaved = .ok samples ∧
      Python.buildSignalFrameEvent wholeNumbers pythonEventArgs (packedArgs [7, 0]) = .ok p ∧
      Rust.buildSignalFrameEvent (fun _ => .nan) rustEventArgs (rowArgs samples) = .ok r ∧
      ServerAcceptsFrame p ∧ ServerAcceptsFrame r := by
  have hfits : Python.CallerFits (packedArgs [7, 0]) := by
    refine ⟨by decide, fun bytes h => ?_⟩
    cases h
    decide
  refine ⟨_, _, _, rfl, rfl, rfl, ?_, ?_⟩
  · exact ((builtFrame_accepted_iff wholeNumbers fun _ => .nan).1 pythonEventArgs _ _ rfl).mpr hfits
  · exact ((builtFrame_accepted_iff wholeNumbers fun _ => .nan).2 rustEventArgs (rowArgs _)
      (.u16 [[7]]) .interleaved _ rfl rfl).mpr ⟨by decide, by decide⟩

/-- Three bytes for a sample of two, and a row of two samples for one channel. -/
theorem builtFrame_refused :
    ∃ samples p r, (Rust.SampleRows.u16 [[7, 8]]).pack .interleaved = .ok samples ∧
      Python.buildSignalFrameEvent wholeNumbers pythonEventArgs (packedArgs [7, 0, 0]) = .ok p ∧
      Rust.buildSignalFrameEvent (fun _ => .nan) rustEventArgs (rowArgs samples) = .ok r ∧
      ¬ ServerAcceptsFrame p ∧ ¬ ServerAcceptsFrame r := by
  refine ⟨_, _, _, rfl, rfl, rfl, ?_, ?_⟩
  · intro ⟨frame, hbody, n, hn⟩
    cases hbody
    exact absurd (normalizeSignalFrame_ok hn).length (by decide)
  · intro ⟨frame, hbody, n, hn⟩
    cases hbody
    exact absurd (normalizeSignalFrame_ok hn).length (by decide)

end Aetus
