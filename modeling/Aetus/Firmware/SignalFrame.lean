import Aetus.Firmware.Types

/-!
The checks that a signal frame passes before it is queued and again before it is encoded,
and the frames that pass them.
-/

set_option autoImplicit false

namespace Aetus.Firmware
open Aetus.Base

/-- `SIZE_MAX` of the 32-bit target. -/
def SIZE_MAX : UInt32 := 0xFFFFFFFF

def signalSampleWidthBytes : SignalEncoding → UInt32
  | .int16Le => 2
  | .uint16Le => 2
  | .float32Le => 4
  | .int32Le => 4
  | .other _ => 0

def expectedSignalSamplesSize (frame : SignalFrame) : Except Failure UInt32 := do
  let sampleWidth := signalSampleWidthBytes frame.encoding
  espReturnOnFalse (0 < sampleWidth) .invalidArg "signal encoding unsupported"
  espReturnOnFalse
    (frame.channelCount = 0 || frame.sampleCount ≤ SIZE_MAX / frame.channelCount)
    .invalidArg "signal frame size overflow"
  let total := frame.sampleCount * frame.channelCount
  espReturnOnFalse (total = 0 || total ≤ SIZE_MAX / sampleWidth)
    .invalidArg "signal frame byte size overflow"
  return total * sampleWidth

def checkChannelKeys : List SignalChannel → Except Failure Unit
  | [] => .ok ()
  | c :: cs => do
    espReturnOnFalse (c.key ≠ .empty) .invalidArg "signal channel key is required"
    checkChannelKeys cs

/-- `validate_signal_frame` of a build with this `AETUS_SIGNAL_SAMPLES_MAX`; `none` is a null
pointer. -/
def validateSignalFrameUpTo (samplesMax : UInt32) (frame : Option SignalFrame) :
    Except Failure Unit :=
  match frame with
  | none => .error ⟨.invalidArg, "signal frame is required"⟩
  | some frame => do
    espReturnOnFalse (frame.streamKey ≠ .empty) .invalidArg "signal frame stream key is required"
    espReturnOnFalse (0 < frame.sampleIntervalNs)
      .invalidArg "signal frame sample interval is required"
    espReturnOnFalse (0 < frame.sampleCount) .invalidArg "signal frame sample count is required"
    espReturnOnFalse (0 < frame.channelCount) .invalidArg "signal frame channel count is required"
    espReturnOnFalse (frame.channelCount ≤ AETUS_SIGNAL_CHANNELS_MAX)
      .invalidArg "too many signal channels"
    espReturnOnFalse (0 < frame.samplesSize) .invalidArg "signal frame samples are required"
    espReturnOnFalse frame.samples.isSome .invalidArg "signal frame sample pointer is required"
    espReturnOnFalse (frame.samplesSize ≤ samplesMax) .invalidArg "signal frame samples too large"
    checkChannelKeys (frame.channels.take frame.channelCount.toNat)
    match expectedSignalSamplesSize frame with
    | .error e => .error ⟨e.code, "signal frame size validation failed"⟩
    | .ok expectedSize =>
      espReturnOnFalse (expectedSize = frame.samplesSize)
        .invalidArg "signal frame sample size mismatch"

def validateSignalFrame (frame : Option SignalFrame) : Except Failure Unit :=
  validateSignalFrameUpTo AETUS_SIGNAL_SAMPLES_MAX frame

/-- `expected_signal_samples_size` with the operands of the products that it forms. -/
def tracedSamplesSize (frame : SignalFrame) : List (UInt32 × UInt32) × Except Failure UInt32 :=
  let sampleWidth := signalSampleWidthBytes frame.encoding
  if sampleWidth = 0 then ([], .error ⟨.invalidArg, "signal encoding unsupported"⟩)
  else if frame.channelCount = 0 ∨ frame.sampleCount ≤ SIZE_MAX / frame.channelCount then
    let total := frame.sampleCount * frame.channelCount
    if total = 0 ∨ total ≤ SIZE_MAX / sampleWidth then
      ([(frame.sampleCount, frame.channelCount), (total, sampleWidth)], .ok (total * sampleWidth))
    else ([(frame.sampleCount, frame.channelCount)],
      .error ⟨.invalidArg, "signal frame byte size overflow"⟩)
  else ([], .error ⟨.invalidArg, "signal frame size overflow"⟩)

theorem tracedSamplesSize_snd (frame : SignalFrame) :
    (tracedSamplesSize frame).2 = expectedSignalSamplesSize frame := by
  unfold tracedSamplesSize expectedSignalSamplesSize
  by_cases hwidth : signalSampleWidthBytes frame.encoding = 0
  · simp [hwidth, espReturnOnFalse, bind, Except.bind]
  · by_cases hcounts : frame.channelCount = 0 ∨ frame.sampleCount ≤ SIZE_MAX / frame.channelCount
    · by_cases hbytes : frame.sampleCount * frame.channelCount = 0 ∨
        frame.sampleCount * frame.channelCount ≤ SIZE_MAX / signalSampleWidthBytes frame.encoding
      · simp [hwidth, UInt32.pos_iff_ne_zero, hcounts, hbytes, espReturnOnFalse, bind, Except.bind,
          pure, Except.pure]
      · simp [hwidth, UInt32.pos_iff_ne_zero, hcounts, hbytes, espReturnOnFalse, bind, Except.bind]
    · simp [hwidth, UInt32.pos_iff_ne_zero, hcounts, espReturnOnFalse, bind, Except.bind]

/-- The division in a guard asks just whether the product fits. -/
theorem le_sizeMax_div_iff {a b : UInt32} (hb : b ≠ 0) :
    a ≤ SIZE_MAX / b ↔ a.toNat * b.toNat < 2 ^ 32 := by
  have hpos : 0 < b.toNat := Nat.pos_of_ne_zero fun h => hb (UInt32.toNat_inj.mp h)
  have hmax : SIZE_MAX.toNat = 2 ^ 32 - 1 := rfl
  rw [UInt32.le_iff_toNat_le, UInt32.toNat_div, Nat.le_div_iff_mul_le hpos, hmax]
  omega

theorem toNat_mul_of_fits {a b : UInt32} (h : a.toNat * b.toNat < 2 ^ 32) :
    (a * b).toNat = a.toNat * b.toNat := by
  rw [UInt32.toNat_mul, Nat.mod_eq_of_lt h]

theorem counts_fit {frame : SignalFrame}
    (h : frame.channelCount = 0 ∨ frame.sampleCount ≤ SIZE_MAX / frame.channelCount) :
    frame.sampleCount.toNat * frame.channelCount.toNat < 2 ^ 32 := by
  by_cases hzero : frame.channelCount = 0
  · simp [hzero]
  · exact (le_sizeMax_div_iff hzero).mp (h.resolve_left hzero)

theorem bytes_fit {total sampleWidth : UInt32} (hwidth : sampleWidth ≠ 0)
    (h : total = 0 ∨ total ≤ SIZE_MAX / sampleWidth) : total.toNat * sampleWidth.toNat < 2 ^ 32 := by
  by_cases hzero : total = 0
  · simp [hzero]
  · exact (le_sizeMax_div_iff hwidth).mp (h.resolve_left hzero)

/-- No product that is formed leaves 32 bits. -/
theorem tracedSamplesSize_fits (frame : SignalFrame) :
    ∀ p ∈ (tracedSamplesSize frame).1, p.1.toNat * p.2.toNat < 2 ^ 32 := by
  unfold tracedSamplesSize
  by_cases hwidth : signalSampleWidthBytes frame.encoding = 0
  · simp [hwidth]
  · by_cases hcounts : frame.channelCount = 0 ∨ frame.sampleCount ≤ SIZE_MAX / frame.channelCount
    · have hfit := counts_fit hcounts
      by_cases hbytes : frame.sampleCount * frame.channelCount = 0 ∨
        frame.sampleCount * frame.channelCount ≤ SIZE_MAX / signalSampleWidthBytes frame.encoding
      · simp only [hwidth, hcounts, hbytes, if_true, if_false, List.forall_mem_cons]
        exact ⟨hfit, bytes_fit hwidth hbytes, by simp⟩
      · simp only [hwidth, hcounts, hbytes, if_true, if_false, List.forall_mem_cons]
        exact ⟨hfit, by simp⟩
    · simp [hwidth, hcounts]

def SignalFrame.exactSize (frame : SignalFrame) : Nat :=
  frame.sampleCount.toNat * frame.channelCount.toNat *
    (signalSampleWidthBytes frame.encoding).toNat

theorem expectedSignalSamplesSize_eq_ok {frame : SignalFrame} {size : UInt32} :
    expectedSignalSamplesSize frame = .ok size ↔
      signalSampleWidthBytes frame.encoding ≠ 0 ∧ frame.exactSize = size.toNat := by
  rw [← tracedSamplesSize_snd]
  unfold tracedSamplesSize SignalFrame.exactSize
  by_cases hwidth : signalSampleWidthBytes frame.encoding = 0
  · simp [hwidth]
  · by_cases hcounts : frame.channelCount = 0 ∨ frame.sampleCount ≤ SIZE_MAX / frame.channelCount
    · have hfit := counts_fit hcounts
      have htotal := toNat_mul_of_fits hfit
      by_cases hbytes : frame.sampleCount * frame.channelCount = 0 ∨
        frame.sampleCount * frame.channelCount ≤ SIZE_MAX / signalSampleWidthBytes frame.encoding
      · have hproduct := toNat_mul_of_fits (bytes_fit hwidth hbytes)
        simp only [hwidth, hcounts, hbytes, if_true, if_false, Except.ok.injEq, ne_eq,
          not_false_eq_true, true_and]
        rw [← UInt32.toNat_inj, hproduct, htotal]
      · simp only [hwidth, hcounts, hbytes, if_true, if_false, ne_eq, not_false_eq_true, true_and,
          reduceCtorEq, false_iff]
        intro hsize
        have hlt := size.toNat_lt
        refine hbytes (.inr ((le_sizeMax_div_iff hwidth).mpr ?_))
        rw [htotal, hsize]
        exact hlt
    · simp only [hwidth, hcounts, if_false, ne_eq, not_false_eq_true, true_and, reduceCtorEq,
        false_iff]
      intro hsize
      obtain ⟨hzero, hmany⟩ := not_or.mp hcounts
      have hwide : 0 < (signalSampleWidthBytes frame.encoding).toNat :=
        Nat.pos_of_ne_zero fun h => hwidth (UInt32.toNat_inj.mp h)
      have hlt := size.toNat_lt
      refine hmany ((le_sizeMax_div_iff hzero).mpr ?_)
      calc frame.sampleCount.toNat * frame.channelCount.toNat
          ≤ frame.sampleCount.toNat * frame.channelCount.toNat *
              (signalSampleWidthBytes frame.encoding).toNat := Nat.le_mul_of_pos_right _ hwide
        _ = size.toNat := hsize
        _ < 2 ^ 32 := hlt

structure SignalFrame.Admissible (samplesMax : UInt32) (frame : SignalFrame) : Prop where
  streamKey : frame.streamKey ≠ .empty
  channelKeys : ∀ c ∈ frame.channels.take frame.channelCount.toNat, c.key ≠ .empty
  sampleIntervalNs : frame.sampleIntervalNs ≠ 0
  sampleCount : frame.sampleCount ≠ 0
  channelCount : frame.channelCount ≠ 0
  channelCount_le : frame.channelCount ≤ AETUS_SIGNAL_CHANNELS_MAX
  samples : frame.samples ≠ none
  samplesSize : frame.samplesSize ≠ 0
  samplesSize_le : frame.samplesSize ≤ samplesMax
  encoding : frame.encoding ∈ [.float32Le, .int16Le, .uint16Le, .int32Le]
  size : frame.exactSize = frame.samplesSize.toNat

theorem checkChannelKeys_eq_ok {cs : List SignalChannel} :
    checkChannelKeys cs = .ok () ↔ ∀ c ∈ cs, c.key ≠ .empty := by
  induction cs with
  | nil => simp [checkChannelKeys]
  | cons c cs ih => simp [checkChannelKeys, bind_eq_ok, ih]

theorem signalSampleWidthBytes_ne_zero {encoding : SignalEncoding} :
    signalSampleWidthBytes encoding ≠ 0 ↔
      encoding ∈ [.float32Le, .int16Le, .uint16Le, .int32Le] := by
  cases encoding <;> simp [signalSampleWidthBytes]

theorem validateSignalFrameUpTo_eq_ok {samplesMax : UInt32} {frame : SignalFrame} :
    validateSignalFrameUpTo samplesMax (some frame) = .ok () ↔ frame.Admissible samplesMax := by
  have hsize : (match expectedSignalSamplesSize frame with
      | .error e => .error ⟨e.code, "signal frame size validation failed"⟩
      | .ok expectedSize => espReturnOnFalse (expectedSize = frame.samplesSize)
        .invalidArg "signal frame sample size mismatch" : Except Failure Unit) = .ok () ↔
      expectedSignalSamplesSize frame = .ok frame.samplesSize := by
    cases expectedSignalSamplesSize frame <;> simp
  simp only [validateSignalFrameUpTo, bind_eq_ok, hsize, espReturnOnFalse_eq_ok,
    checkChannelKeys_eq_ok, expectedSignalSamplesSize_eq_ok, signalSampleWidthBytes_ne_zero,
    decide_eq_true_eq, UInt32.pos_iff_ne_zero, UInt64.pos_iff_ne_zero, Option.isSome_iff_ne_none]
  constructor
  · rintro ⟨hstream, hinterval, hcount, hchannels, hmany, hsome, hsamples, hmax, hkeys, hencoding,
      hexact⟩
    exact ⟨hstream, hkeys, hinterval, hcount, hchannels, hmany, hsamples, hsome, hmax, hencoding,
      hexact⟩
  · intro h
    exact ⟨h.streamKey, h.sampleIntervalNs, h.sampleCount, h.channelCount, h.channelCount_le,
      h.samplesSize, h.samples, h.samplesSize_le, h.channelKeys, h.encoding, h.size⟩

def Refuses {α : Type} (x : Except Failure α) : Prop := ∀ e, x = .error e → e.code = .invalidArg

theorem refuses_ok {α : Type} (a : α) : Refuses (.ok a : Except Failure α) := nofun

theorem refuses_espReturnOnFalse (condition : Bool) (message : String) :
    Refuses (espReturnOnFalse condition .invalidArg message) := by
  intro e h
  cases condition <;> cases h
  rfl

theorem Refuses.bind {α β : Type} {x : Except Failure α} {f : α → Except Failure β}
    (hx : Refuses x) (hf : ∀ a, Refuses (f a)) : Refuses (x >>= f) := by
  cases x with
  | error e => exact fun e' h => hx e' (by cases h; rfl)
  | ok a => exact hf a

theorem refuses_checkChannelKeys (cs : List SignalChannel) : Refuses (checkChannelKeys cs) := by
  induction cs with
  | nil => exact refuses_ok ()
  | cons c cs ih => exact (refuses_espReturnOnFalse _ _).bind fun _ => ih

theorem refuses_expectedSignalSamplesSize (frame : SignalFrame) :
    Refuses (expectedSignalSamplesSize frame) :=
  (refuses_espReturnOnFalse _ _).bind fun _ => (refuses_espReturnOnFalse _ _).bind fun _ =>
    (refuses_espReturnOnFalse _ _).bind fun _ => refuses_ok _

theorem refuses_validateSignalFrameUpTo (samplesMax : UInt32) (frame : Option SignalFrame) :
    Refuses (validateSignalFrameUpTo samplesMax frame) := by
  cases frame with
  | none =>
    intro e h
    cases h
    rfl
  | some frame =>
    have hsize : Refuses (match expectedSignalSamplesSize frame with
        | .error e => .error ⟨e.code, "signal frame size validation failed"⟩
        | .ok expectedSize => espReturnOnFalse (expectedSize = frame.samplesSize)
          .invalidArg "signal frame sample size mismatch") := by
      cases hexpected : expectedSignalSamplesSize frame with
      | error failure =>
        intro e h
        cases h
        exact refuses_expectedSignalSamplesSize frame failure hexpected
      | ok size => exact refuses_espReturnOnFalse _ _
    unfold validateSignalFrameUpTo
    iterate 8 refine (refuses_espReturnOnFalse _ _).bind fun _ => ?_
    exact (refuses_checkChannelKeys _).bind fun _ => hsize

theorem errorCode_validateSignalFrameUpTo {samplesMax : UInt32} {frame : SignalFrame} :
    errorCode (validateSignalFrameUpTo samplesMax (some frame)) = .ok ↔
      frame.Admissible samplesMax := by
  rw [← validateSignalFrameUpTo_eq_ok]
  cases h : validateSignalFrameUpTo samplesMax (some frame) with
  | ok u => simp [errorCode]
  | error e => simp [errorCode, refuses_validateSignalFrameUpTo samplesMax _ e h]

/-- The check of a frame asks for an admissible one, on products that do not wrap. -/
theorem validateSignalFrame_exact (frame : SignalFrame) :
    (validateSignalFrame (some frame) = .ok () ↔ frame.Admissible AETUS_SIGNAL_SAMPLES_MAX) ∧
      (tracedSamplesSize frame).2 = expectedSignalSamplesSize frame ∧
      ∀ p ∈ (tracedSamplesSize frame).1, p.1.toNat * p.2.toNat < 2 ^ 32 :=
  ⟨validateSignalFrameUpTo_eq_ok, tracedSamplesSize_snd frame, tracedSamplesSize_fits frame⟩

def imuFrame : SignalFrame where
  timestampNs := 0
  streamKey := .lit "imu"
  sampleIntervalNs := 1000000
  sampleCount := 2
  encoding := .int16Le
  layout := .interleaved
  channelCount := 1
  channels := [⟨.lit "x", .lit "g", false, 0, false, 0⟩]
  samples := some [1, 0, 2, 0]
  samplesSize := 4

end Aetus.Firmware
