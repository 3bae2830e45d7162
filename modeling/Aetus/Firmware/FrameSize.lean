import Aetus.Firmware.Wire

/-!
How many bytes a signal frame takes on the wire, with its header and its channels.
-/

set_option autoImplicit false

namespace Aetus.Firmware
open Aetus.Base Aetus.Base.Protobuf

def AETUS_SIGNAL_FRAME_ENCODE_OVERHEAD_BYTES : Nat := 512

/-- `encode_signal_frame` with its buffer, in a build with this `AETUS_SIGNAL_SAMPLES_MAX`. -/
def signalFramePayloadUpTo (samplesMax : UInt32) (h : Heap) (rt : Runtime CString)
    (uptimeMs : UInt64) (frame : SignalFrame) (bufferSize : Nat) : Option (List UInt8) :=
  (encodeSignalFrameUpTo rt uptimeMs samplesMax frame).bind fun event =>
    pbEncodeEvent h event bufferSize

theorem queueItemPayload_signalFrame (h : Heap) (rt : Runtime CString) (uptimeMs : UInt64)
    (owner : Option SampleBlock) (frame : SignalFrame) (bufferSize : Nat) :
    queueItemPayload h rt uptimeMs ⟨owner, .signalFrame frame⟩ bufferSize =
      signalFramePayloadUpTo AETUS_SIGNAL_SAMPLES_MAX h rt uptimeMs frame bufferSize := rfl

theorem length_copyString_lt {n : Nat} (hn : 0 < n) (source : CString) :
    (copyString .empty n (some source)).bytes.length < n := by
  have htake : (source.bytes.take (n - 1)).length < n := by
    rw [List.length_take]
    omega
  rwa [copyString, if_neg (by omega)]

theorem length_uint32Field_le (number : Nat) (hnumber : number < 16) (n : UInt32) :
    (write (unlessDefault number (.varint n.toNat))).length ≤ 6 :=
  length_varintField_le 5 hnumber (by decide) (Nat.lt_of_lt_of_le n.toNat_lt (by decide))

theorem length_uint64Field_le (number : Nat) (hnumber : number < 16) (n : UInt64) :
    (write (unlessDefault number (.varint n.toNat))).length ≤ 11 :=
  length_varintField_le 10 hnumber (by decide) (Nat.lt_of_lt_of_le n.toNat_lt (by decide))

theorem length_textField_le (number n : Nat) (hnumber : number < 16) (hn : 0 < n) (hsize : n ≤ 128)
    (source : CString) :
    (write (unlessDefault number
      (.bytes (copyString .empty n (some source)).bytes))).length ≤ n + 1 := by
  have hcopy : (copyString .empty n (some source)).bytes.length ≤ n - 1 :=
    Nat.le_pred_of_lt (length_copyString_lt hn source)
  have hfield := length_bytesField_le 1 hnumber (by decide) hcopy (by omega)
  have hle := length_write_unlessDefault_le number
    (.bytes (copyString .empty n (some source)).bytes)
  omega

theorem EventSampleEncoding.code_lt (e : EventSampleEncoding) : e.code < 128 := by
  cases e <;> decide

theorem EventSampleLayout.code_lt (l : EventSampleLayout) : l.code < 128 := by
  cases l <;> decide

theorem EventType.code_lt (t : EventType) : t.code < 128 := by
  cases t <;> decide

def EventChannel.fields (c : EventChannel) : List Field :=
  unlessDefault 1 (.bytes c.key.bytes) ++ unlessDefault 2 (.bytes c.unit.bytes) ++
    (if c.hasScale then [⟨3, .fixed32 c.scale⟩] else []) ++
    (if c.hasOffset then [⟨4, .fixed32 c.offset⟩] else [])

theorem partFields_channel (c : EventChannel) : partFields c.parts = some c.fields := by
  cases hscale : c.hasScale <;> cases hoffset : c.hasOffset <;>
    simp [EventChannel.parts, EventChannel.fields, partFields, Part.fields, hscale, hoffset]

def EventSignalFrame.headFields (f : EventSignalFrame) : List Field :=
  unlessDefault 1 (.bytes f.streamKey.bytes) ++
    unlessDefault 2 (.varint f.sampleIntervalNs.toNat) ++
    unlessDefault 3 (.varint f.sampleCount.toNat) ++
    unlessDefault 4 (.varint f.encoding.code) ++
    unlessDefault 5 (.varint f.layout.code) ++
    f.channels.map fun c => message 6 c.fields

theorem partFields_append (xs ys : List Part) :
    partFields (xs ++ ys) =
      (partFields xs).bind fun fields => (partFields ys).map (fields ++ ·) := by
  induction xs with
  | nil => cases hys : partFields ys <;> simp [partFields, hys]
  | cons x xs ih =>
    simp only [List.cons_append, partFields, ih]
    cases x.fields <;> cases partFields xs <;> cases partFields ys <;> simp

theorem partFields_channels (channels : List EventChannel) :
    partFields (channels.map fun c => .submessage 6 c.parts) =
      some (channels.map fun c => message 6 c.fields) := by
  induction channels with
  | nil => rfl
  | cons c channels ih =>
    simp [partFields, Part.fields, partFields_channel, ih]

theorem partFields_signalFrame {f : EventSignalFrame} {samples : List UInt8}
    (hsamples : f.samples = some samples) :
    partFields f.parts =
      some (f.headFields ++ [⟨7, .bytes (samples.take f.samplesSize.toNat)⟩]) := by
  simp [EventSignalFrame.parts, EventSignalFrame.headFields, partFields, Part.fields,
    partFields_append, partFields_channels, encodeBytesCallback, hsamples]

theorem length_channel_le (source : SignalChannel) :
    (write [message 6 (EventChannel.fields
      { key := copyString .empty AETUS_METRIC_KEY_MAX (some source.key)
        unit := copyString .empty AETUS_METRIC_UNIT_MAX (some source.unit)
        hasScale := source.hasScale
        scale := source.scale
        hasOffset := source.hasOffset
        offset := source.offset })]).length ≤ 42 := by
  have hkey := length_textField_le 1 AETUS_METRIC_KEY_MAX (by decide) (by decide)
    (by decide) source.key
  have hunit := length_textField_le 2 AETUS_METRIC_UNIT_MAX (by decide)
    (by decide) (by decide) source.unit
  have hscale : (write (if source.hasScale then [⟨3, .fixed32 source.scale⟩] else [])).length ≤ 5 := by
    split
    · exact length_fixed32Field_le (by decide) _
    · exact Nat.zero_le _
  have hoffset :
      (write (if source.hasOffset then [⟨4, .fixed32 source.offset⟩] else [])).length ≤ 5 := by
    split
    · exact length_fixed32Field_le (by decide) _
    · exact Nat.zero_le _
  refine length_message_le 6 1 (by decide) (by decide) ?_ (show 40 < 128 ^ 1 by decide)
  simp only [EventChannel.fields, write_append, List.length_append]
  have hkeySize : AETUS_METRIC_KEY_MAX = 20 := rfl
  have hunitSize : AETUS_METRIC_UNIT_MAX = 8 := rfl
  omega

theorem length_encodeSignalChannels_le (frame : SignalFrame) :
    (encodeSignalChannels frame).length ≤ 4 := by
  have hmin : (min frame.channelCount AETUS_SIGNAL_CHANNELS_MAX).toNat ≤ 4 := by
    show (if frame.channelCount ≤ 4 then frame.channelCount else 4).toNat ≤ 4
    split
    · next hle => exact UInt32.le_iff_toNat_le.mp hle
    · exact Nat.le_refl _
  rw [encodeSignalChannels, List.length_map, List.length_take]
  omega

section Event

variable (rt : Runtime CString) (uptimeMs : UInt64) (frame : SignalFrame)

theorem length_header_le :
    (write (signalFrameEvent rt uptimeMs frame).headerFields).length ≤ 113 := by
  have hversion := length_uint32Field_le 1 (by decide) 1
  have hdevice := length_textField_le 2 EVENT_DEVICE_ID_SIZE (by decide)
    (by decide) (by decide) rt.config.deviceId
  have hsequence := length_uint64Field_le 3 (by decide) rt.sequence
  have htype := length_varintField_le 1 (show 4 < 16 by decide) (by decide)
    EventType.telemetry.code_lt
  have hboot := length_textField_le 5 EVENT_BOOT_ID_SIZE (by decide) (by decide)
    (by decide) rt.bootId
  have hfirmware := length_uint32Field_le 6 (by decide) rt.config.firmwareVersion
  have huptime := length_uint64Field_le 7 (by decide) uptimeMs
  have htimestamp := length_uint64Field_le 8 (by decide) frame.timestampNs
  have hdeviceSize : EVENT_DEVICE_ID_SIZE = 32 := rfl
  have hbootSize : EVENT_BOOT_ID_SIZE = 32 := rfl
  simp only [IngestEvent.headerFields, signalFrameEvent, fillEventHeader, write_append,
    List.length_append]
  omega

theorem signalFrameEvent_body :
    (signalFrameEvent rt uptimeMs frame).body = .signalFrame (eventFrame frame) := rfl

theorem length_channels_le :
    (write ((encodeSignalChannels frame).map fun c => message 6 c.fields)).length ≤ 168 := by
  have hlength := length_encodeSignalChannels_le frame
  rw [encodeSignalChannels, List.length_map] at hlength
  rw [encodeSignalChannels, List.map_map]
  have hwrite := length_write_map_le _ length_channel_le
    (frame.channels.take (min frame.channelCount AETUS_SIGNAL_CHANNELS_MAX).toNat)
  exact hwrite.trans (Nat.mul_le_mul_left 42 hlength)

theorem length_headFields_le : (write (eventFrame frame).headFields).length ≤ 222 := by
  have hstream := length_textField_le 1 AETUS_SIGNAL_STREAM_KEY_MAX (by decide)
    (by decide) (by decide) frame.streamKey
  have hinterval := length_uint64Field_le 2 (by decide) frame.sampleIntervalNs
  have hcount := length_uint32Field_le 3 (by decide) frame.sampleCount
  have hencoding := length_varintField_le 1 (show 4 < 16 by decide) (by decide)
    (mapSignalEncoding frame.encoding).code_lt
  have hlayout := length_varintField_le 1 (show 5 < 16 by decide) (by decide)
    (mapSignalLayout frame.layout).code_lt
  have hchannels := length_channels_le frame
  have hstreamSize : AETUS_SIGNAL_STREAM_KEY_MAX = 32 := rfl
  simp only [EventSignalFrame.headFields, eventFrame, write_append, List.length_append]
  omega

/-- An event of a frame with samples is encoded, in 353 bytes and those of the samples. -/
theorem partFields_signalFrameEvent (h : Heap) {samples : List UInt8}
    (hsamples : frame.samples = some samples) :
    ∃ fields, partFields ((signalFrameEvent rt uptimeMs frame).parts h) = some fields ∧
      (write fields).length ≤ 353 + frame.samplesSize.toNat := by
  have hlt := frame.samplesSize.toNat_lt
  have hfields : partFields (eventFrame frame).parts = some ((eventFrame frame).headFields ++
      [⟨7, .bytes (samples.take frame.samplesSize.toNat)⟩]) := partFields_signalFrame hsamples
  have hheader := length_header_le rt uptimeMs frame
  have hhead := length_headFields_le frame
  have hpower : 2 ^ 35 = 128 ^ 5 := by decide
  have htake : (samples.take frame.samplesSize.toNat).length ≤ frame.samplesSize.toNat :=
    List.length_take_le _ _
  have hbytes := length_bytesField_le 5 (show 7 < 16 by decide) (by decide) htake (by omega)
  have hframe : (write ((eventFrame frame).headFields ++
      [⟨7, .bytes (samples.take frame.samplesSize.toNat)⟩])).length ≤
        228 + frame.samplesSize.toNat := by
    rw [write_append, List.length_append]
    omega
  have hpayload := length_message_le 2 5 (by decide) (by decide) hframe (by omega)
  have hbody := length_message_le 10 5 (by decide) (by decide) hpayload (by omega)
  have hevent : partFields ((signalFrameEvent rt uptimeMs frame).parts h) =
      some ((signalFrameEvent rt uptimeMs frame).headerFields ++
        [message 10 [message 2 ((eventFrame frame).headFields ++
          [⟨7, .bytes (samples.take frame.samplesSize.toNat)⟩])]]) := by
    simp [partFields_event, signalFrameEvent_body, EventBody.part, Part.fields, partFields, hfields]
  refine ⟨_, hevent, ?_⟩
  rw [write_append, List.length_append]
  omega

/-- Every frame that passes the check is encoded into a buffer that the static assertion admits,
with the overhead that it allows for. -/
theorem signalFramePayload_fits (samplesMax : UInt32) (h : Heap) (bufferSize : Nat)
    (hassert : samplesMax.toNat + AETUS_SIGNAL_FRAME_ENCODE_OVERHEAD_BYTES ≤ bufferSize)
    (hvalid : validateSignalFrameUpTo samplesMax (some frame) = .ok ()) :
    ∃ payload, signalFramePayloadUpTo samplesMax h rt uptimeMs frame bufferSize = some payload ∧
      payload.length ≤ samplesMax.toNat + AETUS_SIGNAL_FRAME_ENCODE_OVERHEAD_BYTES := by
  have hadmissible := validateSignalFrameUpTo_eq_ok.mp hvalid
  have hsize := UInt32.le_iff_toNat_le.mp hadmissible.samplesSize_le
  have hoverhead : AETUS_SIGNAL_FRAME_ENCODE_OVERHEAD_BYTES = 512 := rfl
  obtain ⟨samples, hsamples⟩ := Option.ne_none_iff_exists'.mp hadmissible.samples
  obtain ⟨fields, hfields, hlength⟩ := partFields_signalFrameEvent rt uptimeMs frame h hsamples
  have hfits : (write fields).length ≤ bufferSize := by omega
  refine ⟨write fields, ?_, by omega⟩
  have hencode : encodeSignalFrameUpTo rt uptimeMs samplesMax frame =
      some (signalFrameEvent rt uptimeMs frame) := by
    rw [encodeSignalFrameUpTo, hvalid]
    rfl
  rw [signalFramePayloadUpTo, hencode, Option.bind_some, pbEncodeEvent, pbEncode_fromBuffer,
    hfields, Option.bind_some, if_pos hfits]

end Event

theorem signalFramePayload_fits_imu : ∃ payload,
    signalFramePayloadUpTo AETUS_SIGNAL_SAMPLES_MAX (.empty fun _ => true)
      (startedRuntime 0 (labConfig .bearer)).text 0 imuFrame AETUS_ENCODE_BUFFER_BYTES =
        some payload ∧ payload.length ≤ 2912 :=
  signalFramePayload_fits _ 0 imuFrame AETUS_SIGNAL_SAMPLES_MAX (.empty fun _ => true)
    AETUS_ENCODE_BUFFER_BYTES (by decide) (by rfl)

end Aetus.Firmware
