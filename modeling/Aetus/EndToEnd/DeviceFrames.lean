import Aetus.EndToEnd.DeviceEvents
import Aetus.EndToEnd.SignalDecoding

/-!
A signal frame of the device on its way to the query API: what the device's own check lets
through the ingest service accepts, and the query API gives the numbers of the device's memory.
-/

set_option autoImplicit false

namespace Aetus
open Aetus.Base Aetus.Base.Protobuf

def Firmware.SignalEncoding.format : Firmware.SignalEncoding → NumberFormat
  | .int16Le => .int16
  | .uint16Le => .uint16
  | .int32Le => .int32
  | .float32Le => .float32
  | .other _ => .float32

def Firmware.SignalFrame.position (f : Firmware.SignalFrame) (i j : Nat) : Nat :=
  match f.layout with
  | .planar => i * f.sampleCount.toNat + j
  | _ => j * f.channelCount.toNat + i

variable {F : Type} (doubles : Doubles F) (number : Double → F) (floats : FloatBits)

/-- The samples of channel `i` as they stand in the memory, with the channel's scale and offset. -/
def deviceValues (f : Firmware.SignalFrame) (samples : List UInt8) (i : Nat)
    (channel : Firmware.SignalChannel) : List F :=
  let scaling : Query.Channel F :=
    { key := []
      unit := none
      scale := if channel.hasScale then some (number (floats.float channel.scale)) else none
      offset := if channel.hasOffset then some (number (floats.float channel.offset)) else none }
  (List.range f.sampleCount.toNat).map fun j =>
    Query.valueAt doubles f.encoding.format samples scaling (f.position i j)

def Firmware.SignalFrame.used (f : Firmware.SignalFrame) : List Firmware.SignalChannel :=
  f.channels.take f.channelCount.toNat

/-- An accepted frame, with a channel for each of the device's, and the device's numbers under
each key that is the key of one channel only. -/
structure FrameServed (f : Firmware.SignalFrame) (samples : List UInt8)
    (n : Ingest.NormalizedSignalFrame) : Prop where
  content : b64decode n.samplesB64 = some samples
  channels : List.Forall₂ (fun (c : Firmware.SignalChannel) normalized =>
    utf8 normalized.key = (Firmware.copyString .empty Firmware.AETUS_METRIC_KEY_MAX (some c.key)).bytes)
    f.used n.channels
  values : (n.channels.map (·.key)).Nodup → ∃ values,
    Query.decodeSamples doubles samples n.encoding n.layout (n.channels.map (queryChannel number))
      n.sampleCount = .ok values ∧
    ∀ i c normalized, f.used[i]? = some c → n.channels[i]? = some normalized →
      values.lookup normalized.key = some (deviceValues doubles number floats f samples i c)

theorem deviceEncoding_known {encoding : Firmware.SignalEncoding}
    (h : encoding ∈ [.float32Le, .int16Le, .uint16Le, .int32Le]) :
    ∃ name, Ingest.SIGNAL_ENCODING_NAMES.lookup
        (Int32.ofNat (Firmware.mapSignalEncoding encoding).code) = some name ∧
      Ingest.SIGNAL_ENCODING_SAMPLE_BYTES.lookup
        (Int32.ofNat (Firmware.mapSignalEncoding encoding).code) =
          some (Firmware.signalSampleWidthBytes encoding).toNat ∧
      Query.encodingFormat name = encoding.format ∧
      encoding.format.size = (Firmware.signalSampleWidthBytes encoding).toNat := by
  simp only [List.mem_cons, List.not_mem_nil, or_false] at h
  obtain rfl | rfl | rfl | rfl := h
  · exact ⟨"float32_le".toList, by decide⟩
  · exact ⟨"int16_le".toList, by decide⟩
  · exact ⟨"uint16_le".toList, by decide⟩
  · exact ⟨"int32_le".toList, by decide⟩

theorem deviceLayout_known (f : Firmware.SignalFrame) :
    ∃ name, Ingest.SIGNAL_LAYOUT_NAMES.lookup
        (Int32.ofNat (Firmware.mapSignalLayout f.layout).code) = some name ∧
      ∀ i j, Query.samplePosition name f.sampleCount.toNat f.channelCount.toNat i j =
        f.position i j := by
  cases hlayout : f.layout with
  | planar =>
    refine ⟨"planar".toList, by decide, fun i j => ?_⟩
    rw [Query.samplePosition, if_neg (by decide), Firmware.SignalFrame.position, hlayout]
  | _ =>
    refine ⟨"interleaved".toList, rfl, fun i j => ?_⟩
    rw [Query.samplePosition, if_pos rfl, Firmware.SignalFrame.position, hlayout]

structure FrameRead (f : Firmware.SignalFrame) (memory : List UInt8) (frame : Ingest.SignalFrame) :
    Prop where
  streamKey : utf8 frame.streamKey =
    (Firmware.copyString .empty Firmware.AETUS_SIGNAL_STREAM_KEY_MAX (some f.streamKey)).bytes
  sampleIntervalNs : frame.sampleIntervalNs = f.sampleIntervalNs
  sampleCount : frame.sampleCount = f.sampleCount
  encoding : frame.encoding = Int32.ofNat (Firmware.mapSignalEncoding f.encoding).code
  layout : frame.layout = Int32.ofNat (Firmware.mapSignalLayout f.layout).code
  channels : List.Forall₂ (fun (c : Firmware.SignalChannel) (channel : Ingest.SignalChannel) =>
    utf8 channel.key =
        (Firmware.copyString .empty Firmware.AETUS_METRIC_KEY_MAX (some c.key)).bytes ∧
      channel.scale = (if c.hasScale then some (floats.float c.scale) else none) ∧
      channel.offset = (if c.hasOffset then some (floats.float c.offset) else none))
    f.used frame.channels
  samples : frame.samples = memory.take f.samplesSize.toNat

theorem encodeSignalChannels_eq {f : Firmware.SignalFrame}
    (hf : f.channelCount ≤ Firmware.AETUS_SIGNAL_CHANNELS_MAX) :
    Firmware.encodeSignalChannels f = f.used.map fun source =>
      { key := Firmware.copyString .empty Firmware.AETUS_METRIC_KEY_MAX (some source.key)
        unit := Firmware.copyString .empty Firmware.AETUS_METRIC_UNIT_MAX (some source.unit)
        hasScale := source.hasScale
        scale := source.scale
        hasOffset := source.hasOffset
        offset := source.offset } := by
  have hmin : min f.channelCount Firmware.AETUS_SIGNAL_CHANNELS_MAX = f.channelCount := if_pos hf
  rw [Firmware.encodeSignalChannels, hmin]
  rfl

theorem frameRead_of_parse {floats : FloatBits} {f : Firmware.SignalFrame} {memory : List UInt8}
    {frame : Ingest.SignalFrame} (hf : f.channelCount ≤ Firmware.AETUS_SIGNAL_CHANNELS_MAX)
    (hdecode : ((Firmware.eventFrame f).wire memory).decode floats = some frame) :
    FrameRead floats f memory frame := by
  simp only [FrameMessage.decode, Option.bind_eq_bind, Option.bind_eq_some_iff] at hdecode
  obtain ⟨streamKey, hstream, channels, hchannels, hframe⟩ := hdecode
  cases hframe
  refine ⟨decodeText_eq_some_iff.mp hstream, rfl, rfl, rfl, rfl, ?_, rfl⟩
  have hall := mapM_some hchannels
  rw [Firmware.EventSignalFrame.wire, Firmware.eventFrame, encodeSignalChannels_eq hf,
    List.map_map, List.forall₂_map_left_iff] at hall
  refine hall.imp fun c channel hc => ?_
  simp only [Function.comp_apply, ChannelMessage.decode, Option.bind_eq_bind,
    Option.bind_eq_some_iff] at hc
  obtain ⟨key, hkey, unit, -, hchannel⟩ := hc
  cases hchannel
  refine ⟨decodeText_eq_some_iff.mp hkey, ?_, ?_⟩
  · simp only [Firmware.EventChannel.wire]
    split <;> rfl
  · simp only [Firmware.EventChannel.wire]
    split <;> rfl

theorem ne_nil_of_copied {text : List Char} {s : CString} {size : Nat} (hs : s ≠ .empty)
    (hsize : 1 < size) (htext : utf8 text = (Firmware.copyString .empty size (some s)).bytes) :
    text ≠ [] := by
  rintro rfl
  rw [Firmware.copyString, if_neg (by omega)] at htext
  have hnil : s.bytes.take (size - 1) = [] := htext.symm
  rcases List.take_eq_nil_iff.mp hnil with hzero | hempty
  · omega
  · exact hs (CString.ext hempty)

variable {doubles number floats}

theorem length_memory {f : Firmware.SignalFrame} {memory : List UInt8}
    (hf : f.Admissible Firmware.AETUS_SIGNAL_SAMPLES_MAX) (hwhole : f.Whole)
    (hmemory : f.samples = some memory) :
    (memory.take f.samplesSize.toNat).length = f.sampleCount.toNat * f.channelCount.toNat *
      (Firmware.signalSampleWidthBytes f.encoding).toNat := by
  rw [List.length_take, Nat.min_eq_left (hwhole.samples memory hmemory), ← hf.size]
  rfl

theorem length_used {f : Firmware.SignalFrame} (hwhole : f.Whole) :
    f.used.length = f.channelCount.toNat := by
  rw [Firmware.SignalFrame.used, List.length_take, Nat.min_eq_left hwhole.channels]

theorem FrameRead.normalized {f : Firmware.SignalFrame} {memory : List UInt8}
    {frame : Ingest.SignalFrame} (hread : FrameRead floats f memory frame)
    (hf : f.Admissible Firmware.AETUS_SIGNAL_SAMPLES_MAX) (hwhole : f.Whole)
    (hmemory : f.samples = some memory) :
    ∃ n, Ingest.normalizeSignalFrame frame = .ok n := by
  obtain ⟨name, hname, hwidth, -, -⟩ := deviceEncoding_known hf.encoding
  obtain ⟨layout, hlayout, -⟩ := deviceLayout_known f
  have hcount : frame.channels.length = f.channelCount.toNat :=
    (hread.channels.length_eq).symm.trans (length_used hwhole)
  have hsome : 0 < f.channelCount.toNat :=
    Nat.pos_of_ne_zero fun h => hf.channelCount (UInt32.toNat_inj.mp h)
  refine (Ingest.normalizeSignalFrame_accepts
    (ne_nil_of_copied hf.streamKey (by decide) hread.streamKey) ?_ ?_ ?_
    (by rw [hread.encoding, hname]; rfl) (hread.encoding ▸ hwidth)
    (hread.layout ▸ hlayout)).mpr ⟨?_, ?_⟩
  · rw [hread.sampleIntervalNs]
    exact hf.sampleIntervalNs
  · rw [hread.sampleCount]
    exact hf.sampleCount
  · exact List.ne_nil_of_length_pos (by omega)
  · intro channel hchannel
    obtain ⟨c, hc, hkey, -⟩ := forall₂_exists_left hread.channels hchannel
    exact ne_nil_of_copied (hf.channelKeys c hc) (by decide) hkey
  · rw [hread.samples, hread.sampleCount, hcount, length_memory hf hwhole hmemory]

theorem valueAt_congr {format : NumberFormat} {samples : List UInt8} {c c' : Query.Channel F}
    (hscale : c.scale = c'.scale) (hoffset : c.offset = c'.offset) (position : Nat) :
    Query.valueAt doubles format samples c position =
      Query.valueAt doubles format samples c' position := by
  simp only [Query.valueAt, Query.applyAffine, hscale, hoffset]

theorem ownValues_eq_deviceValues {f : Firmware.SignalFrame} {memory samples : List UInt8}
    {frame : Ingest.SignalFrame} {n : Ingest.NormalizedSignalFrame}
    (hread : FrameRead floats f memory frame)
    (hf : f.Admissible Firmware.AETUS_SIGNAL_SAMPLES_MAX) (hwhole : f.Whole)
    (haccepted : Ingest.FrameAccepted frame n) {i : Nat} {c : Firmware.SignalChannel}
    {channel : Ingest.SignalChannel} (hc : f.used[i]? = some c)
    (hchannel : frame.channels[i]? = some channel) :
    ownValues doubles number n samples i channel.normalized =
      deviceValues doubles number floats f samples i c := by
  obtain ⟨name, hname, -, hformat, -⟩ := deviceEncoding_known hf.encoding
  obtain ⟨layout, hlayout, hposition⟩ := deviceLayout_known f
  have hencoding : n.encoding = name := by
    have hsame := haccepted.encoding
    rw [hread.encoding, hname] at hsame
    exact (Option.some.inj hsame).symm
  have hplace : n.layout = layout := by
    have hsame := haccepted.layout
    rw [hread.layout, hlayout] at hsame
    exact (Option.some.inj hsame).symm
  have hlength : n.channels.length = f.channelCount.toNat := by
    rw [haccepted.channels, List.length_map, ← hread.channels.length_eq, length_used hwhole]
  obtain ⟨-, hscale, hoffset⟩ := forall₂_getElem? hread.channels hc hchannel
  have hsame (position : Nat) : Query.valueAt doubles f.encoding.format samples
      (queryChannel number channel.normalized) position =
      Query.valueAt doubles f.encoding.format samples ⟨[], none, if c.hasScale then some (number (floats.float c.scale)) else none,
        if c.hasOffset then some (number (floats.float c.offset)) else none⟩ position := by
    refine valueAt_congr ?_ ?_ position
    · simp only [queryChannel, Ingest.SignalChannel.normalized, hscale]
      split <;> rfl
    · simp only [queryChannel, Ingest.SignalChannel.normalized, hoffset]
      split <;> rfl
  simp only [ownValues, deviceValues, haccepted.sampleCount, hread.sampleCount, hencoding, hformat,
    hplace, hlength, hposition, hsame]

theorem FrameRead.served {f : Firmware.SignalFrame} {memory : List UInt8} {frame : Ingest.SignalFrame}
    {n : Ingest.NormalizedSignalFrame} (hread : FrameRead floats f memory frame)
    (hf : f.Admissible Firmware.AETUS_SIGNAL_SAMPLES_MAX) (hwhole : f.Whole)
    (hn : Ingest.normalizeSignalFrame frame = .ok n) :
    FrameServed doubles number floats f (memory.take f.samplesSize.toNat) n := by
  have haccepted := Ingest.normalizeSignalFrame_ok hn
  have hdecodable := decodable_of_accepted haccepted
  rw [hread.samples] at hdecodable
  refine ⟨?_, ?_, fun hnodup => ?_⟩
  · rw [haccepted.samplesB64, b64decode_b64encode, hread.samples]
  · rw [haccepted.channels, List.forall₂_map_right_iff]
    exact hread.channels.imp fun c channel hc => hc.1
  · have hexact : ∃ values, Query.decodeSamples doubles (memory.take f.samplesSize.toNat)
        n.encoding n.layout (n.channels.map (queryChannel number)) n.sampleCount = .ok values ∧
        ∀ i channel, n.channels[i]? = some channel → values.lookup channel.key =
          some (ownValues doubles number n (memory.take f.samplesSize.toNat) i channel) :=
      (query_exact_iff hdecodable).mpr hnodup
    obtain ⟨values, hvalues, hlook⟩ := hexact
    refine ⟨values, hvalues, fun i c normalized hc hi => ?_⟩
    rw [hlook i normalized hi]
    rw [haccepted.channels, List.getElem?_map] at hi
    obtain ⟨channel, hchannel, rfl⟩ := Option.map_eq_some_iff.mp hi
    rw [ownValues_eq_deviceValues hread hf hwhole haccepted hc hchannel]

/-- The service reads an admissible frame, and accepts it. -/
theorem deviceFrame_read {f : Firmware.SignalFrame} (hwhole : f.Whole) {h : Firmware.Heap}
    {rt : Firmware.Runtime CString} {uptimeMs : UInt64} {owner : Option Firmware.SampleBlock}
    {m : EventMessage} {event : Ingest.IngestEvent}
    (hm : Firmware.itemMessage h rt uptimeMs ⟨owner, .signalFrame f⟩ = some m)
    (hdecode : m.decode floats = some event) :
    ∃ memory frame n, f.Admissible Firmware.AETUS_SIGNAL_SAMPLES_MAX ∧ f.samples = some memory ∧
      FrameRead floats f memory frame ∧ Ingest.normalizeSignalFrame frame = .ok n ∧
      Ingest.normalizePayload event = .ok (.signalFrame n) := by
  obtain ⟨deviceEvent, hencode, hwire⟩ := Option.bind_eq_some_iff.mp hm
  obtain ⟨hf, rfl⟩ := Firmware.encodeSignalFrame_eq_some hencode
  obtain ⟨body, hbody, rfl⟩ := Option.map_eq_some_iff.mp hwire
  obtain ⟨memory, hmemory, rfl⟩ := Option.map_eq_some_iff.mp hbody
  simp only [EventMessage.decode, Firmware.IngestEvent.around, BodyMessage.decode,
    Option.bind_eq_bind, Option.bind_eq_some_iff] at hdecode
  obtain ⟨deviceId, -, bootId, -, body, hbody, hevent⟩ := hdecode
  obtain ⟨payload, hdecode, rfl⟩ := Option.map_eq_some_iff.mp hbody
  obtain ⟨frame, hframe, rfl⟩ := Option.map_eq_some_iff.mp hdecode
  have hread := frameRead_of_parse hf.channelCount_le hframe
  obtain ⟨n, hn⟩ := hread.normalized hf hwhole hmemory
  cases hevent
  exact ⟨memory, frame, n, hf, hmemory, hread, hn, by simp only [Ingest.normalizePayload, hn]⟩

theorem parse_payload {parseFromString : List UInt8 → Option Ingest.IngestEvent}
    (hreads : ReadsMessages floats parseFromString) {item : Firmware.QueueItem}
    (hwhole : item.WholeFrame) {h : Firmware.Heap} {rt : Firmware.Runtime CString}
    {uptimeMs : UInt64} {bufferSize : Nat} {payload : List UInt8} {event : Ingest.IngestEvent}
    (hpayload : Firmware.queueItemPayload h rt uptimeMs item bufferSize = some payload)
    (hparse : parseFromString payload = some event) :
    ∃ m, Firmware.itemMessage h rt uptimeMs item = some m ∧ m.decode floats = some event := by
  rw [Firmware.queueItemPayload_eq hwhole] at hpayload
  obtain ⟨m, hm, hpayload⟩ := Option.bind_eq_some_iff.mp hpayload
  obtain ⟨-, hbytes⟩ := Option.ite_none_right_eq_some.mp hpayload
  rw [← Option.some.inj hbytes, hreads] at hparse
  exact ⟨m, hm, hparse⟩

/-- The samples and channels of every frame that the device sends, as the ingest service accepts
them and the query API decodes them. -/
theorem deviceFrame_served (doubles : Doubles F) (number : Double → F)
    {parseFromString : List UInt8 → Option Ingest.IngestEvent}
    (hreads : ReadsMessages floats parseFromString) {f : Firmware.SignalFrame} (hwhole : f.Whole)
    {h : Firmware.Heap} {rt : Firmware.Runtime CString} {uptimeMs : UInt64}
    {owner : Option Firmware.SampleBlock} {bufferSize : Nat} {payload : List UInt8}
    {event : Ingest.IngestEvent}
    (hpayload : Firmware.queueItemPayload h rt uptimeMs ⟨owner, .signalFrame f⟩ bufferSize =
      some payload)
    (hparse : parseFromString payload = some event) :
    ∃ memory n, f.samples = some memory ∧
      Ingest.normalizePayload event = .ok (.signalFrame n) ∧
      FrameServed doubles number floats f (memory.take f.samplesSize.toNat) n := by
  have hitem : Firmware.QueueItem.WholeFrame ⟨owner, .signalFrame f⟩ := by
    rintro g hg
    cases hg
    exact hwhole
  obtain ⟨m, hm, hdecode⟩ := parse_payload hreads hitem hpayload hparse
  obtain ⟨memory, frame, n, hf, hmemory, hread, hn, hnormal⟩ := deviceFrame_read hwhole hm hdecode
  exact ⟨memory, n, hmemory, hnormal, hread.served hf hwhole hn⟩

def imuMessage : EventMessage where
  schemaVersion := 1
  deviceId := utf8 "esp32-001".toList
  sequence := 0
  eventType := 1
  bootId := utf8 "boot-00000007".toList
  firmwareVersion := 1
  uptimeMs := 1000
  timestampNs := 0
  body := some (.signalFrame ⟨utf8 "imu".toList, 1000000, 2, 2, 1,
    [⟨utf8 "x".toList, utf8 "g".toList, none, none⟩], [1, 0, 2, 0]⟩)

def imuEvent : Ingest.IngestEvent where
  schemaVersion := 1
  deviceId := "esp32-001".toList
  sequence := 0
  eventType := 1
  bootId := "boot-00000007".toList
  firmwareVersion := 1
  uptimeMs := 1000
  timestampNs := 0
  body := some (.telemetry (some (.signalFrame ⟨"imu".toList, 1000000, 2, 2, 1,
    [⟨"x".toList, "g".toList, none, none⟩], [1, 0, 2, 0]⟩)))

theorem imuMessage_decode : imuMessage.decode Firmware.noFloats = some imuEvent := by
  simp [imuMessage, EventMessage.decode, BodyMessage.decode, FrameMessage.decode,
    ChannelMessage.decode, decodeText_utf8, imuEvent]

theorem deviceFrame_served_imu : ∃ payload memory n,
    Firmware.queueItemPayload (.empty fun _ => true) Firmware.labRuntime 1000 Firmware.imuItem
      Firmware.AETUS_ENCODE_BUFFER_BYTES = some payload ∧
    Firmware.readEvent payload = some imuEvent ∧ Firmware.imuFrame.samples = some memory ∧
    Ingest.normalizePayload imuEvent = .ok (.signalFrame n) ∧
    FrameServed wholeDoubles (fun _ => 0) Firmware.noFloats Firmware.imuFrame
      (memory.take Firmware.imuFrame.samplesSize.toNat) n := by
  have hpayload : Firmware.queueItemPayload (.empty fun _ => true) Firmware.labRuntime 1000
      Firmware.imuItem Firmware.AETUS_ENCODE_BUFFER_BYTES = some (write imuMessage.fields) := by
    decide +kernel
  have hparse : Firmware.readEvent (write imuMessage.fields) = some imuEvent := by
    rw [Firmware.readEvent, readMessage_write, Option.bind_some, imuMessage_decode]
  obtain ⟨memory, n, hserved⟩ := deviceFrame_served wholeDoubles (fun _ => 0)
    (readMessage_reads Firmware.noFloats) (Firmware.imuItem_whole _ rfl) hpayload hparse
  exact ⟨_, memory, n, hpayload, hparse, hserved⟩

end Aetus
