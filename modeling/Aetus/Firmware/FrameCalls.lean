import Aetus.Base.Sticky
import Aetus.Firmware.FailedCalls
import Aetus.Firmware.TimeSync

/-!
The calls of aetus.c that fill a signal frame, and the class SignalFrame of aetus.hpp over
them. A chain of its calls is queued only if none of them failed, and then the frame is the one
that the chain describes.
-/

set_option autoImplicit false

namespace Aetus.Firmware
open Aetus.Base

def SignalChannel.zero : SignalChannel := ⟨.empty, .empty, false, 0, false, 0⟩

def BlobArg.pointer : BlobArg → Option (List UInt8)
  | .null _ => none
  | .buffer b => some b.bytes

def signalFrameInit : SignalFrame where
  timestampNs := 0
  streamKey := .empty
  sampleIntervalNs := 0
  sampleCount := 0
  encoding := .float32Le
  layout := .interleaved
  channelCount := 0
  channels := List.replicate AETUS_SIGNAL_CHANNELS_MAX.toNat .zero
  samples := none
  samplesSize := 0

def signalFrameSetTimestampRtc (frame : SignalFrame) (read : Option Timeval) :
    Except Failure SignalFrame := do
  let timestampNs ← aetusRtcTimestampNs read
  return { frame with timestampNs := timestampNs }

def signalFrameSetStreamKey (frame : SignalFrame) (streamKey : Option CString) :
    Except Failure SignalFrame := do
  espReturnOnFalse (match streamKey with | none => false | some k => k ≠ .empty)
    .invalidArg "signal stream key is required"
  espReturnOnFalse (stringFits streamKey AETUS_SIGNAL_STREAM_KEY_MAX)
    .invalidArg "signal stream key too long"
  return { frame with
    streamKey := copyString frame.streamKey AETUS_SIGNAL_STREAM_KEY_MAX streamKey }

def signalFrameAddChannel (frame : SignalFrame) (key unit : Option CString)
    (scale offset : Option UInt32) : Except Failure SignalFrame := do
  espReturnOnFalse (match key with | none => false | some k => k ≠ .empty)
    .invalidArg "signal channel key is required"
  espReturnOnFalse (stringFits key AETUS_METRIC_KEY_MAX) .invalidArg "signal channel key too long"
  espReturnOnFalse (stringFits unit AETUS_METRIC_UNIT_MAX) .invalidArg "signal channel unit too long"
  espReturnOnFalse (frame.channelCount < AETUS_SIGNAL_CHANNELS_MAX)
    .invalidArg "too many signal channels"
  return { frame with
    channels := frame.channels.set frame.channelCount.toNat {
      key := copyString .empty AETUS_METRIC_KEY_MAX key
      unit := copyString .empty AETUS_METRIC_UNIT_MAX unit
      hasScale := scale.isSome
      scale := scale.getD 0
      hasOffset := offset.isSome
      offset := offset.getD 0 }
    channelCount := frame.channelCount + 1 }

def signalFrameSetSamples (frame : SignalFrame) (samples : BlobArg) : Except Failure SignalFrame := do
  espReturnOnFalse samples.valid .invalidArg "signal frame samples are required"
  espReturnOnFalse (samples.size ≤ AETUS_SIGNAL_SAMPLES_MAX) .invalidArg "signal frame samples too large"
  return { frame with samples := samples.pointer, samplesSize := samples.size }

/-! aetus.hpp -/

/-- `detail::copy_string` into an array of `size` bytes, as what is then read there. -/
def copyStringView (size : Nat) (source : List UInt8) : Option CString :=
  if size ≤ source.length then none else some (.ofBytes source)

/-- `data()` and `size()` of a view or a span, which has no address if it was never set. -/
def spanArg : Option CBuffer → BlobArg
  | none => .null 0
  | some b => .buffer b

/-- The calls on a SignalFrame; `try_timestamp_from_rtc` returns its error to the caller. -/
inductive FrameCall where
  | timestamp (timestampNs : UInt64)
  | timestampFromRtc (read : Option Timeval)
  | tryTimestampFromRtc (read : Option Timeval)
  | streamKey (streamKeyValue : List UInt8)
  | sampleIntervalNs (intervalNs : UInt64)
  | sampleCount (count : UInt32)
  | encodingFloat32Le
  | encodingInt16Le
  | encodingUint16Le
  | encodingInt32Le
  | layoutInterleaved
  | layoutPlanar
  | addChannel (key unit : List UInt8) (scale offset : Option UInt32)
  | setSampleBytes (span : Option CBuffer)

/-- What a call of the C library returns, with the frame, which it leaves alone if it fails. -/
def settleFrame (frame : SignalFrame) : Except Failure SignalFrame → EspErr × SignalFrame
  | .ok next => (.ok, next)
  | .error e => (e.code, frame)

def frameCall (frame : SignalFrame) : FrameCall → EspErr × SignalFrame
  | .timestamp ns => (.ok, { frame with timestampNs := ns })
  | .timestampFromRtc read => settleFrame frame (signalFrameSetTimestampRtc frame read)
  | .tryTimestampFromRtc read =>
    (.ok, (settleFrame frame (signalFrameSetTimestampRtc frame read)).2)
  | .streamKey value =>
    match copyStringView AETUS_SIGNAL_STREAM_KEY_MAX value with
    | none => (.invalidArg, frame)
    | some buffer => settleFrame frame (signalFrameSetStreamKey frame (some buffer))
  | .sampleIntervalNs ns => (.ok, { frame with sampleIntervalNs := ns })
  | .sampleCount count => (.ok, { frame with sampleCount := count })
  | .encodingFloat32Le => (.ok, { frame with encoding := .float32Le })
  | .encodingInt16Le => (.ok, { frame with encoding := .int16Le })
  | .encodingUint16Le => (.ok, { frame with encoding := .uint16Le })
  | .encodingInt32Le => (.ok, { frame with encoding := .int32Le })
  | .layoutInterleaved => (.ok, { frame with layout := .interleaved })
  | .layoutPlanar => (.ok, { frame with layout := .planar })
  | .addChannel key unit scale offset =>
    match copyStringView AETUS_METRIC_KEY_MAX key, copyStringView AETUS_METRIC_UNIT_MAX unit with
    | some keyBuffer, some unitBuffer => settleFrame frame
        (signalFrameAddChannel frame (some keyBuffer) (some unitBuffer) scale offset)
    | _, _ => (.invalidArg, frame)
  | .setSampleBytes span => settleFrame frame (signalFrameSetSamples frame (spanArg span))

def frameCalls (calls : List FrameCall) : Sticky SignalFrame EspErr :=
  Sticky.calls .ok frameCall ⟨signalFrameInit, .ok⟩ calls

def frameEnqueue {σ : Type} (rt : Runtime σ) (P : Params) (frame : Sticky SignalFrame EspErr)
    (granted : Bool) (s : State) : EspErr × State :=
  if frame.error ≠ .ok then (frame.error, s)
  else
    let (result, s) := aetusEnqueueSignalFrame rt P (some frame.value) granted s
    (errorCode result, s)

/-! What a chain of calls describes -/

namespace FrameCall

def time : FrameCall → Option UInt64
  | .timestamp ns => some ns
  | .timestampFromRtc read => (aetusRtcTimestampNs read).toOption
  | .tryTimestampFromRtc read => (aetusRtcTimestampNs read).toOption
  | _ => none

/-- A key is what stands before the first zero byte. -/
def key : FrameCall → Option CString
  | .streamKey value => some (.ofBytes value)
  | _ => none

def interval : FrameCall → Option UInt64
  | .sampleIntervalNs ns => some ns
  | _ => none

def samplesOfChannel : FrameCall → Option UInt32
  | .sampleCount count => some count
  | _ => none

def sampleEncoding : FrameCall → Option SignalEncoding
  | .encodingFloat32Le => some .float32Le
  | .encodingInt16Le => some .int16Le
  | .encodingUint16Le => some .uint16Le
  | .encodingInt32Le => some .int32Le
  | _ => none

def sampleLayout : FrameCall → Option SignalLayout
  | .layoutInterleaved => some .interleaved
  | .layoutPlanar => some .planar
  | _ => none

def channel : FrameCall → Option SignalChannel
  | .addChannel key unit scale offset =>
    some ⟨.ofBytes key, .ofBytes unit, scale.isSome, scale.getD 0, offset.isSome, offset.getD 0⟩
  | _ => none

def span : FrameCall → Option (Option CBuffer)
  | .setSampleBytes span => some span
  | _ => none

def Fits : FrameCall → Prop
  | .timestampFromRtc read => ∃ ns, aetusRtcTimestampNs read = .ok ns
  | .streamKey value => value.length < AETUS_SIGNAL_STREAM_KEY_MAX ∧ CString.ofBytes value ≠ .empty
  | .addChannel key unit _ _ => key.length < AETUS_METRIC_KEY_MAX ∧
    unit.length < AETUS_METRIC_UNIT_MAX ∧ CString.ofBytes key ≠ .empty
  | .setSampleBytes span => (spanArg span).size ≤ AETUS_SIGNAL_SAMPLES_MAX
  | _ => True

end FrameCall

def describedChannels (calls : List FrameCall) : List SignalChannel :=
  calls.filterMap FrameCall.channel

def describedSpan (calls : List FrameCall) : Option CBuffer := (lastGiven FrameCall.span calls).join

def describedFrame (calls : List FrameCall) : SignalFrame where
  timestampNs := (lastGiven FrameCall.time calls).getD 0
  streamKey := (lastGiven FrameCall.key calls).getD .empty
  sampleIntervalNs := (lastGiven FrameCall.interval calls).getD 0
  sampleCount := (lastGiven FrameCall.samplesOfChannel calls).getD 0
  encoding := (lastGiven FrameCall.sampleEncoding calls).getD .float32Le
  layout := (lastGiven FrameCall.sampleLayout calls).getD .interleaved
  channelCount := UInt32.ofNat (describedChannels calls).length
  channels := describedChannels calls ++ List.replicate
    (AETUS_SIGNAL_CHANNELS_MAX.toNat - (describedChannels calls).length) .zero
  samples := (spanArg (describedSpan calls)).pointer
  samplesSize := (spanArg (describedSpan calls)).size

structure ChainFits (calls : List FrameCall) : Prop where
  each : ∀ c ∈ calls, c.Fits
  channels : (describedChannels calls).length ≤ AETUS_SIGNAL_CHANNELS_MAX.toNat

theorem strlen_ofBytes_le (buffer : List UInt8) : (CString.ofBytes buffer).strlen ≤ buffer.length :=
  (List.takeWhile_sublist _).length_le

theorem stringFits_of_strlen_lt {s : CString} {n : Nat} (h : s.strlen < n) :
    stringFits (some s) n = true := by
  have hn : n ≠ 0 := by omega
  simp [stringFits, hn, h]

section Calls

variable {frame : SignalFrame} {scale offset : Option UInt32}

theorem signalFrameSetStreamKey_eq {k : CString} (hk : k.strlen < AETUS_SIGNAL_STREAM_KEY_MAX) :
    signalFrameSetStreamKey frame (some k) =
      if k = .empty then .error ⟨.invalidArg, "signal stream key is required"⟩
      else .ok { frame with streamKey := k } := by
  have hcopy : copyString frame.streamKey AETUS_SIGNAL_STREAM_KEY_MAX (some k) = k :=
    (copyString_eq_self_iff (by decide)).mpr hk
  have hfits := stringFits_of_strlen_lt hk
  by_cases hempty : k = .empty
  · simp [signalFrameSetStreamKey, hempty, espReturnOnFalse, bind, Except.bind]
  · simp [signalFrameSetStreamKey, hempty, hfits, hcopy, espReturnOnFalse, bind, Except.bind, pure,
      Except.pure]

theorem signalFrameAddChannel_eq {k u : CString} (hk : k.strlen < AETUS_METRIC_KEY_MAX)
    (hu : u.strlen < AETUS_METRIC_UNIT_MAX) :
    signalFrameAddChannel frame (some k) (some u) scale offset =
      if k = .empty then .error ⟨.invalidArg, "signal channel key is required"⟩
      else if frame.channelCount < AETUS_SIGNAL_CHANNELS_MAX then .ok { frame with
        channels := frame.channels.set frame.channelCount.toNat
          ⟨k, u, scale.isSome, scale.getD 0, offset.isSome, offset.getD 0⟩
        channelCount := frame.channelCount + 1 }
      else .error ⟨.invalidArg, "too many signal channels"⟩ := by
  have hkey : copyString .empty AETUS_METRIC_KEY_MAX (some k) = k :=
    (copyString_eq_self_iff (by decide)).mpr hk
  have hunit : copyString .empty AETUS_METRIC_UNIT_MAX (some u) = u :=
    (copyString_eq_self_iff (by decide)).mpr hu
  have hkeyFits := stringFits_of_strlen_lt hk
  have hunitFits := stringFits_of_strlen_lt hu
  by_cases hempty : k = .empty
  · simp [signalFrameAddChannel, hempty, espReturnOnFalse, bind, Except.bind]
  · by_cases hroom : frame.channelCount < AETUS_SIGNAL_CHANNELS_MAX
    · simp [signalFrameAddChannel, hempty, hkeyFits, hunitFits, hroom, hkey, hunit, espReturnOnFalse,
        bind, Except.bind, pure, Except.pure]
    · simp [signalFrameAddChannel, hempty, hkeyFits, hunitFits, hroom, espReturnOnFalse, bind,
        Except.bind]

theorem signalFrameSetSamples_eq (span : Option CBuffer) :
    signalFrameSetSamples frame (spanArg span) =
      if (spanArg span).size ≤ AETUS_SIGNAL_SAMPLES_MAX then
        .ok { frame with samples := (spanArg span).pointer, samplesSize := (spanArg span).size }
      else .error ⟨.invalidArg, "signal frame samples too large"⟩ := by
  have hvalid : (spanArg span).valid = true := by cases span <;> rfl
  by_cases hsize : (spanArg span).size ≤ AETUS_SIGNAL_SAMPLES_MAX
  · simp [signalFrameSetSamples, hvalid, hsize, espReturnOnFalse, bind, Except.bind, pure, Except.pure]
  · simp [signalFrameSetSamples, hvalid, hsize, espReturnOnFalse, bind, Except.bind]

theorem aetusRtcTimestampNs_code {read : Option Timeval} {e : Failure}
    (h : aetusRtcTimestampNs read = .error e) : e.code ≠ .ok := by
  cases read with
  | none =>
    cases h
    decide
  | some now =>
    by_cases hset : AETUS_RTC_VALID_AFTER_UNIX_S ≤ now.tvSec.toUInt64
    · simp [aetusRtcTimestampNs, hset, espReturnOnFalse, bind, Except.bind, pure, Except.pure] at h
    · simp [aetusRtcTimestampNs, hset, espReturnOnFalse, bind, Except.bind] at h
      rw [← h]
      decide

theorem settleFrame_timestampRtc (read : Option Timeval) :
    settleFrame frame (signalFrameSetTimestampRtc frame read) =
      match aetusRtcTimestampNs read with
      | .ok ns => (.ok, { frame with timestampNs := ns })
      | .error e => (e.code, frame) := by
  unfold signalFrameSetTimestampRtc
  cases aetusRtcTimestampNs read <;> rfl

theorem frameCall_streamKey (value : List UInt8) :
    frameCall frame (.streamKey value) =
      if value.length < AETUS_SIGNAL_STREAM_KEY_MAX ∧ CString.ofBytes value ≠ .empty then
        (.ok, { frame with streamKey := .ofBytes value })
      else (.invalidArg, frame) := by
  by_cases hlen : value.length < AETUS_SIGNAL_STREAM_KEY_MAX
  · have hk := (strlen_ofBytes_le value).trans_lt hlen
    simp only [frameCall, copyStringView, if_neg (Nat.not_le.mpr hlen), signalFrameSetStreamKey_eq hk]
    by_cases hempty : CString.ofBytes value = .empty
    · simp [hempty, settleFrame]
    · simp [hempty, hlen, settleFrame]
  · simp [frameCall, copyStringView, Nat.not_lt.mp hlen, hlen]

theorem frameCall_addChannel (key unit : List UInt8) :
    frameCall frame (.addChannel key unit scale offset) =
      if (key.length < AETUS_METRIC_KEY_MAX ∧ unit.length < AETUS_METRIC_UNIT_MAX ∧
          CString.ofBytes key ≠ .empty) ∧ frame.channelCount < AETUS_SIGNAL_CHANNELS_MAX then
        (.ok, { frame with
          channels := frame.channels.set frame.channelCount.toNat
            ⟨.ofBytes key, .ofBytes unit, scale.isSome, scale.getD 0, offset.isSome, offset.getD 0⟩
          channelCount := frame.channelCount + 1 })
      else (.invalidArg, frame) := by
  by_cases hkey : key.length < AETUS_METRIC_KEY_MAX
  · by_cases hunit : unit.length < AETUS_METRIC_UNIT_MAX
    · have hk := (strlen_ofBytes_le key).trans_lt hkey
      have hu := (strlen_ofBytes_le unit).trans_lt hunit
      simp only [frameCall, copyStringView, if_neg (Nat.not_le.mpr hkey), if_neg (Nat.not_le.mpr hunit),
        signalFrameAddChannel_eq hk hu]
      by_cases hempty : CString.ofBytes key = .empty
      · simp [hempty, settleFrame]
      · by_cases hroom : frame.channelCount < AETUS_SIGNAL_CHANNELS_MAX
        · simp [hempty, hkey, hunit, hroom, settleFrame]
        · simp [hempty, hroom, settleFrame]
    · simp [frameCall, copyStringView, Nat.not_le.mpr hkey, Nat.not_lt.mp hunit, hunit]
  · simp [frameCall, copyStringView, Nat.not_lt.mp hkey, hkey]

theorem frameCall_setSampleBytes (span : Option CBuffer) :
    frameCall frame (.setSampleBytes span) =
      if (spanArg span).size ≤ AETUS_SIGNAL_SAMPLES_MAX then
        (.ok, { frame with samples := (spanArg span).pointer, samplesSize := (spanArg span).size })
      else (.invalidArg, frame) := by
  rw [frameCall, signalFrameSetSamples_eq]
  split <;> rfl

theorem frameCall_ok_iff (c : FrameCall) :
    (frameCall frame c).1 = .ok ↔
      c.Fits ∧ (c.channel ≠ none → frame.channelCount < AETUS_SIGNAL_CHANNELS_MAX) := by
  cases c with
  | timestampFromRtc read =>
    rw [frameCall, settleFrame_timestampRtc]
    cases hread : aetusRtcTimestampNs read with
    | ok ns => simp [FrameCall.Fits, FrameCall.channel, hread]
    | error e => simp [FrameCall.Fits, FrameCall.channel, hread, aetusRtcTimestampNs_code hread]
  | streamKey value =>
    rw [frameCall_streamKey]
    split
    · next h => simp [FrameCall.Fits, FrameCall.channel, h]
    · next h => simpa [FrameCall.Fits, FrameCall.channel] using h
  | addChannel key unit scale offset =>
    rw [frameCall_addChannel]
    split
    · next h => simpa [FrameCall.Fits, FrameCall.channel] using h
    · next h => simpa [FrameCall.Fits, FrameCall.channel] using h
  | setSampleBytes span =>
    rw [frameCall_setSampleBytes]
    split
    · next h => simp [FrameCall.Fits, FrameCall.channel, h]
    · next h => simpa [FrameCall.Fits, FrameCall.channel] using h
  | _ => simp [frameCall, FrameCall.Fits, FrameCall.channel]

end Calls

/-! Chains -/

theorem describedChannels_concat (calls : List FrameCall) (c : FrameCall) :
    describedChannels (calls ++ [c]) = describedChannels calls ++ c.channel.toList := by
  rw [describedChannels, describedChannels, List.filterMap_append]
  cases hc : c.channel with
  | none => simp [hc]
  | some channel => simp [hc]

theorem channelCount_lt_iff {calls : List FrameCall}
    (h : (describedChannels calls).length ≤ AETUS_SIGNAL_CHANNELS_MAX.toNat) :
    (describedFrame calls).channelCount < AETUS_SIGNAL_CHANNELS_MAX ↔
      (describedChannels calls).length < AETUS_SIGNAL_CHANNELS_MAX.toNat := by
  have hcount : (describedFrame calls).channelCount.toNat = (describedChannels calls).length :=
    UInt32.toNat_ofNat_of_lt' (h.trans_lt (by decide))
  rw [UInt32.lt_iff_toNat_lt, hcount]

theorem set_padded {α : Type} (xs : List α) (x zero : α) {n : Nat} (h : xs.length < n) :
    (xs ++ List.replicate (n - xs.length) zero).set xs.length x =
      xs ++ [x] ++ List.replicate (n - (xs ++ [x]).length) zero := by
  obtain ⟨k, hk⟩ := Nat.exists_eq_add_of_lt h
  have hleft : n - xs.length = k + 1 := by omega
  have hright : n - (xs ++ [x]).length = k := by
    rw [List.length_append, List.length_singleton]
    omega
  rw [hleft, hright, List.replicate_succ, List.set_append_right _ _ (Nat.le_refl _), Nat.sub_self,
    List.set_cons_zero, List.append_assoc]
  rfl

theorem join_or {α : Type} (x y : Option (Option α)) : (x.or y).join = x.getD y.join := by
  cases x <;> rfl

theorem describedFrame_concat (calls : List FrameCall) (c : FrameCall) :
    describedFrame (calls ++ [c]) = {
      timestampNs := c.time.getD (describedFrame calls).timestampNs
      streamKey := c.key.getD (describedFrame calls).streamKey
      sampleIntervalNs := c.interval.getD (describedFrame calls).sampleIntervalNs
      sampleCount := c.samplesOfChannel.getD (describedFrame calls).sampleCount
      encoding := c.sampleEncoding.getD (describedFrame calls).encoding
      layout := c.sampleLayout.getD (describedFrame calls).layout
      channelCount := UInt32.ofNat (describedChannels calls ++ c.channel.toList).length
      channels := describedChannels calls ++ c.channel.toList ++ List.replicate
        (AETUS_SIGNAL_CHANNELS_MAX.toNat - (describedChannels calls ++ c.channel.toList).length) .zero
      samples := (spanArg (c.span.getD (describedSpan calls))).pointer
      samplesSize := (spanArg (c.span.getD (describedSpan calls))).size } := by
  simp only [describedFrame, describedSpan, describedChannels_concat, lastGiven_concat,
    Option.getD_or, join_or]

theorem frameCall_described {calls : List FrameCall} {c : FrameCall}
    (hroom : (describedChannels calls).length ≤ AETUS_SIGNAL_CHANNELS_MAX.toNat)
    (h : (frameCall (describedFrame calls) c).1 = .ok) :
    (frameCall (describedFrame calls) c).2 = describedFrame (calls ++ [c]) := by
  have hnone : describedChannels calls ++ (none : Option SignalChannel).toList =
      describedChannels calls := List.append_nil _
  rw [describedFrame_concat]
  cases c with
  | timestampFromRtc read =>
    rw [frameCall, settleFrame_timestampRtc] at h ⊢
    cases hread : aetusRtcTimestampNs read with
    | ok ns =>
      simp only [FrameCall.time, hread, FrameCall.channel, hnone]
      rfl
    | error e =>
      rw [hread] at h
      exact absurd h (aetusRtcTimestampNs_code hread)
  | tryTimestampFromRtc read =>
    rw [frameCall, settleFrame_timestampRtc]
    cases hread : aetusRtcTimestampNs read with
    | ok ns =>
      simp only [FrameCall.time, hread, FrameCall.channel, hnone]
      rfl
    | error e =>
      simp only [FrameCall.time, hread, FrameCall.channel, hnone]
      rfl
  | streamKey value =>
    rw [frameCall_streamKey] at h ⊢
    split at h
    · next hfits =>
      rw [if_pos hfits]
      simp only [FrameCall.channel, hnone]
      rfl
    · cases h
  | addChannel key unit scale offset =>
    rw [frameCall_addChannel] at h ⊢
    split at h
    · next hfits =>
      have hlt := (channelCount_lt_iff hroom).mp hfits.2
      have hcount : (describedFrame calls).channelCount.toNat = (describedChannels calls).length :=
        UInt32.toNat_ofNat_of_lt' (hroom.trans_lt (by decide))
      have hset := set_padded (describedChannels calls) ⟨.ofBytes key, .ofBytes unit, scale.isSome,
        scale.getD 0, offset.isSome, offset.getD 0⟩ SignalChannel.zero hlt
      have hnext : (describedFrame calls).channelCount + 1 =
          UInt32.ofNat ((describedChannels calls).length + 1) := UInt32.ofNat_add _ _ |>.symm
      rw [if_pos hfits, hcount, hnext]
      simp only [FrameCall.channel, Option.toList_some, List.length_append, List.length_singleton]
      rw [List.length_append, List.length_singleton] at hset
      rw [← hset]
      rfl
    · cases h
  | setSampleBytes span =>
    rw [frameCall_setSampleBytes] at h ⊢
    split at h
    · next hfits =>
      rw [if_pos hfits]
      simp only [FrameCall.channel, hnone]
      rfl
    · cases h
  | _ =>
    simp only [FrameCall.channel, hnone]
    rfl

theorem chainFits_concat {calls : List FrameCall} {c : FrameCall} :
    ChainFits (calls ++ [c]) ↔ ChainFits calls ∧ c.Fits ∧ (c.channel ≠ none →
      (describedChannels calls).length < AETUS_SIGNAL_CHANNELS_MAX.toNat) := by
  constructor
  · intro h
    have hchannels := h.channels
    rw [describedChannels_concat, List.length_append] at hchannels
    refine ⟨⟨fun d hd => h.each d (List.mem_append_left _ hd), by omega⟩,
      h.each c List.mem_concat_self, fun hc => ?_⟩
    obtain ⟨channel, hchannel⟩ := Option.ne_none_iff_exists'.mp hc
    rw [hchannel, Option.toList_some, List.length_singleton] at hchannels
    omega
  · rintro ⟨h, hfits, hroom⟩
    refine ⟨fun d hd => ?_, ?_⟩
    · rcases List.mem_append.mp hd with hd | hd
      · exact h.each d hd
      · exact List.mem_singleton.mp hd ▸ hfits
    · have hchannels := h.channels
      rw [describedChannels_concat, List.length_append]
      cases hc : c.channel with
      | none => simpa using hchannels
      | some channel => exact hroom (by simp [hc])

/-- After calls of which none failed, the frame is the described one. -/
theorem frameCalls_value {calls : List FrameCall} (h : (frameCalls calls).error = .ok) :
    (frameCalls calls).value = describedFrame calls ∧
      (describedChannels calls).length ≤ AETUS_SIGNAL_CHANNELS_MAX.toNat := by
  refine Sticky.calls_induction (R := fun cs v => v = describedFrame cs ∧
    (describedChannels cs).length ≤ AETUS_SIGNAL_CHANNELS_MAX.toNat) ⟨rfl, Nat.zero_le _⟩ ?_ h
  rintro cs v c ⟨rfl, hroom⟩ hok
  refine ⟨frameCall_described hroom hok, ?_⟩
  have hlt := ((frameCall_ok_iff c).mp hok).2
  rw [channelCount_lt_iff hroom] at hlt
  rw [describedChannels_concat, List.length_append]
  cases hc : c.channel with
  | none => simpa using hroom
  | some channel => exact hlt (by simp [hc])

theorem frameCalls_ok_iff (calls : List FrameCall) :
    (frameCalls calls).error = .ok ↔ ChainFits calls := by
  induction calls using List.reverseRecOn with
  | nil => exact iff_of_true rfl ⟨by simp, Nat.zero_le _⟩
  | append_singleton calls c ih =>
    rw [chainFits_concat, ← ih, frameCalls, Sticky.calls_concat_ok_iff]
    refine and_congr_right fun hok => ?_
    obtain ⟨hvalue, hroom⟩ := frameCalls_value hok
    rw [frameCalls] at hvalue
    rw [hvalue, frameCall_ok_iff, channelCount_lt_iff hroom]

/-! The queue -/

theorem ChainFits.counts {calls : List FrameCall} (h : ChainFits calls) :
    (describedFrame calls).channelCount.toNat ≤ (describedFrame calls).channels.length ∧
      ∀ samples, (describedFrame calls).samples = some samples →
        (describedFrame calls).samplesSize.toNat ≤ samples.length := by
  have hcount : (describedFrame calls).channelCount.toNat = (describedChannels calls).length :=
    UInt32.toNat_ofNat_of_lt' (h.channels.trans_lt (by decide))
  refine ⟨?_, fun samples hsamples => ?_⟩
  · rw [hcount, describedFrame, List.length_append]
    exact Nat.le_add_right _ _
  · cases hspan : describedSpan calls with
    | none => simp [describedFrame, hspan, spanArg, BlobArg.pointer] at hsamples
    | some b =>
      have hpointer : b.bytes = samples := by
        simpa [describedFrame, hspan, spanArg, BlobArg.pointer] using hsamples
      have hsize : (describedFrame calls).samplesSize = UInt32.ofNat b.bytes.length := by
        simp [describedFrame, hspan, spanArg, BlobArg.size]
      rw [hsize, ← hpointer]
      exact (UInt32.toNat_ofNat ..).le.trans (Nat.mod_le _ _)

section Queue

variable {σ : Type}

def State.hasRoom (s : State) (P : Params) (f : SignalFrame) : Prop :=
  s.ctx.pool.heapUsed + (4 + f.samplesSize.toNat) ≤ P.heapSize

theorem enqueueSignalFrame_cases (P : Params) (f : SignalFrame) (granted : Bool) (s : State) :
    ((f.Admissible AETUS_SIGNAL_SAMPLES_MAX ∧ granted = true ∧ s.hasRoom P f) ∧
      (enqueueSignalFrame P (some f) granted s).1 = .ok () ∧
      (enqueueSignalFrame P (some f) granted s).2.calls =
        ⟨.sending, s.history.nextTicket, some ⟨f.samplesSize, f.samples.getD []⟩,
          .signalFrame f⟩ :: s.calls) ∨
    ¬(f.Admissible AETUS_SIGNAL_SAMPLES_MAX ∧ granted = true ∧ s.hasRoom P f) ∧
      errorCode (enqueueSignalFrame P (some f) granted s).1 ≠ .ok ∧
      (enqueueSignalFrame P (some f) granted s).2.calls = s.calls := by
  have hexact := (validateSignalFrame_exact f).1
  cases hvalid : validateSignalFrame (some f) with
  | error e =>
    refine .inr ⟨fun h => ?_, ?_, ?_⟩
    · cases (hexact.mpr h.1).symm.trans hvalid
    · have hcode := refuses_validateSignalFrameUpTo AETUS_SIGNAL_SAMPLES_MAX (some f) e hvalid
      simp [enqueueSignalFrame, hvalid, errorCode, hcode]
    · simp [enqueueSignalFrame, hvalid]
  | ok u =>
    have hf := hexact.mp hvalid
    obtain ⟨samples, hsamples⟩ := Option.ne_none_iff_exists'.mp hf.samples
    have hself : { f with samples := some samples } = f := by rw [← hsamples]
    have hsize : ¬(f.samplesSize = 0 ∨ AETUS_SIGNAL_SAMPLES_MAX < f.samplesSize) :=
      not_or.mpr ⟨hf.samplesSize, UInt32.not_lt.mpr hf.samplesSize_le⟩
    by_cases hroom : granted = true ∧ s.hasRoom P f
    · have halloc : s.ctx.pool.alloc P.heapSize granted f.samplesSize samples =
          (some ⟨f.samplesSize, samples⟩, s.ctx.pool.push ⟨f.samplesSize, samples⟩) := by
        rw [SamplePool.alloc, if_neg hsize]
        exact if_pos hroom
      refine .inl ⟨⟨hf, hroom⟩, ?_, ?_⟩
      · simp [enqueueSignalFrame, hvalid, hsamples, halloc]
      · simp [enqueueSignalFrame, hvalid, hsamples, halloc, State.beginSend, hself]
    · have halloc : s.ctx.pool.alloc P.heapSize granted f.samplesSize samples =
          (none, s.ctx.pool.noteFailure) := by
        rw [SamplePool.alloc, if_neg hsize]
        exact if_neg hroom
      refine .inr ⟨fun h => hroom h.2, ?_, ?_⟩
      · simp [enqueueSignalFrame, hvalid, hsamples, halloc, errorCode]
      · simp [enqueueSignalFrame, hvalid, hsamples, halloc]

theorem aetusEnqueueSignalFrame_cases (rt : Runtime σ) (P : Params) (f : SignalFrame)
    (granted : Bool) (s : State) :
    ((rt.queue = true ∧ f.Admissible AETUS_SIGNAL_SAMPLES_MAX ∧ granted = true ∧ s.hasRoom P f) ∧
      errorCode (aetusEnqueueSignalFrame rt P (some f) granted s).1 = .ok ∧
      (aetusEnqueueSignalFrame rt P (some f) granted s).2.calls =
        ⟨.sending, s.history.nextTicket, some ⟨f.samplesSize, f.samples.getD []⟩,
          .signalFrame f⟩ :: s.calls) ∨
    ¬(rt.queue = true ∧ f.Admissible AETUS_SIGNAL_SAMPLES_MAX ∧ granted = true ∧ s.hasRoom P f) ∧
      errorCode (aetusEnqueueSignalFrame rt P (some f) granted s).1 ≠ .ok := by
  cases hstarted : rt.queue with
  | false =>
    refine .inr ⟨fun h => Bool.false_ne_true h.1, ?_⟩
    simp [aetusEnqueueSignalFrame, checkStarted, hstarted, errorCode, notStarted]
  | true =>
    have hstart : aetusEnqueueSignalFrame rt P (some f) granted s =
        enqueueSignalFrame P (some f) granted s := by
      simp [aetusEnqueueSignalFrame, checkStarted, hstarted]
    rw [hstart]
    rcases enqueueSignalFrame_cases P f granted s with
      ⟨hall, hresult, hcalls⟩ | ⟨hnot, hcode, -⟩
    · exact .inl ⟨⟨rfl, hall⟩, by rw [hresult]; rfl, hcalls⟩
    · exact .inr ⟨fun h => hnot h.2, hcode⟩

/-- A chain of calls and its `enqueue`: what is queued, what has to hold for that, and the error
of a chain that does not fit. -/
theorem frameEnqueue_chain (rt : Runtime σ) (P : Params) (calls : List FrameCall) (granted : Bool)
    (s : State) :
    ((frameEnqueue rt P (frameCalls calls) granted s).1 = .ok ↔
      ChainFits calls ∧ rt.queue = true ∧
        (describedFrame calls).Admissible AETUS_SIGNAL_SAMPLES_MAX ∧ granted = true ∧
        s.hasRoom P (describedFrame calls)) ∧
    ((frameEnqueue rt P (frameCalls calls) granted s).1 = .ok →
      (frameEnqueue rt P (frameCalls calls) granted s).2.calls =
        ⟨.sending, s.history.nextTicket, some ⟨(describedFrame calls).samplesSize,
          (describedFrame calls).samples.getD []⟩, .signalFrame (describedFrame calls)⟩ :: s.calls) ∧
    (¬ChainFits calls → frameEnqueue rt P (frameCalls calls) granted s =
      (firstError .ok frameCall signalFrameInit calls, s)) := by
  by_cases hfits : ChainFits calls
  · have hok := (frameCalls_ok_iff calls).mpr hfits
    have henqueue : frameEnqueue rt P (frameCalls calls) granted s =
        (errorCode (aetusEnqueueSignalFrame rt P (some (describedFrame calls)) granted s).1,
          (aetusEnqueueSignalFrame rt P (some (describedFrame calls)) granted s).2) := by
      rw [frameEnqueue, if_neg (not_not.mpr hok), (frameCalls_value hok).1]
    rw [henqueue]
    rcases aetusEnqueueSignalFrame_cases rt P (describedFrame calls) granted s with
      ⟨hall, hcode, hcalls⟩ | ⟨hnot, hcode⟩
    · exact ⟨iff_of_true hcode ⟨hfits, hall⟩, fun _ => hcalls, fun h => absurd hfits h⟩
    · exact ⟨iff_of_false hcode fun h => hnot h.2, fun h => absurd h hcode, fun h => absurd hfits h⟩
  · have herror : (frameCalls calls).error ≠ .ok := fun h => hfits ((frameCalls_ok_iff calls).mp h)
    have hfirst : (frameCalls calls).error = firstError .ok frameCall signalFrameInit calls := by
      have hstart : (Sticky.mk signalFrameInit EspErr.ok).error = .ok := rfl
      rw [frameCalls, Sticky.calls_error hstart]
    have henqueue : frameEnqueue rt P (frameCalls calls) granted s =
        (firstError .ok frameCall signalFrameInit calls, s) := by
      rw [frameEnqueue, if_pos herror, hfirst]
    rw [henqueue]
    exact ⟨⟨fun h => absurd (hfirst.trans h) herror, fun h => absurd h.1 hfits⟩,
      fun h => absurd (hfirst.trans h) herror, fun _ => rfl⟩

end Queue

end Aetus.Firmware
