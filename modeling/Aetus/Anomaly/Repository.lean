import Aetus.Base.Grid
import Aetus.Base.LittleEndian
import Aetus.Base.Table

/-!
The anomaly service's repository.rs: the samples of a stored frame as the points of the
windows of its channels. Times are nanoseconds.
-/

set_option autoImplicit false

namespace Aetus.Anomaly
open Aetus.Base

variable {F : Type}

structure ChannelDef (F : Type) where
  key : List Char
  unit : Option (List Char)
  scale : Option F
  offset : Option F

structure MetricPoint (F : Type) where
  eventTime : Int
  value : F

structure NumericWindow (F : Type) where
  sourceKind : String
  channelKey : Option (List Char)
  windowStart : Int
  windowEnd : Int
  points : List (MetricPoint F)
  truncated : Bool

structure SignalFrameRow (F : Type) where
  eventTime : Int
  sampleIntervalNs : Int
  sampleCount : Int
  samples : List UInt8
  encoding : List Char
  layout : List Char
  channels : List (ChannelDef F)

inductive Failure where
  | bail (message : String)
  | panic
  deriving DecidableEq

def sampleWidthBytes (encoding : List Char) : Except Failure Nat :=
  if encoding = "float32_le".toList ∨ encoding = "int32_le".toList then .ok 4
  else if encoding = "int16_le".toList ∨ encoding = "uint16_le".toList then .ok 2
  else .error (.bail ("unsupported signal encoding: " ++ String.ofList encoding))

/-- `from_le_bytes` of the bytes at an offset; the slice panics beyond the end. -/
def fromLeBytes (doubles : Doubles F) (format : NumberFormat) (samples : List UInt8) (offset : Nat) :
    Except Failure F :=
  if offset + format.size ≤ samples.length then
    .ok (format.read doubles ((samples.drop offset).take format.size))
  else .error .panic

def decodeSample (doubles : Doubles F) (samples : List UInt8) (offset : Nat) (encoding : List Char) :
    Except Failure F :=
  if encoding = "float32_le".toList then fromLeBytes doubles .float32 samples offset
  else if encoding = "int16_le".toList then fromLeBytes doubles .int16 samples offset
  else if encoding = "uint16_le".toList then fromLeBytes doubles .uint16 samples offset
  else if encoding = "int32_le".toList then fromLeBytes doubles .int32 samples offset
  else .error (.bail ("unsupported signal encoding: " ++ String.ofList encoding))

def isSelected (selectedChannels : List (List Char)) (key : List Char) : Bool :=
  selectedChannels.isEmpty || selectedChannels.any (· = key)

/-- The window of a channel, the first with its key. -/
def windowOf (windows : List (NumericWindow F)) (key : List Char) : Option (NumericWindow F) :=
  findBy (·.channelKey) (some key) windows

def openWindow (selectedChannels : List (List Char)) (windowStart windowEnd : Int)
    (windows : List (NumericWindow F)) (channel : ChannelDef F) : List (NumericWindow F) :=
  if isSelected selectedChannels channel.key = true ∧ windowOf windows channel.key = none then
    windows ++ [⟨"signal_frame", some channel.key, windowStart, windowEnd, [], false⟩]
  else windows

/-- `(sample_index as i64 * frame.sample_interval_ns) / 1000`, which wraps in a release build. -/
def elapsedMicros (sampleIntervalNs : Int) (sampleIndex : Nat) : Int :=
  (Int.bmod (sampleIndex * sampleIntervalNs) (2 ^ 64)).tdiv 1000

def SignalFrameRow.sampleTime (frame : SignalFrameRow F) (sampleIndex : Nat) : Int :=
  frame.eventTime + 1000 * elapsedMicros frame.sampleIntervalNs sampleIndex

def SignalFrameRow.valueIndex (frame : SignalFrameRow F) (sampleIndex channelIndex : Nat) : Nat :=
  if frame.layout = "interleaved".toList then sampleIndex * frame.channels.length + channelIndex
  else channelIndex * frame.sampleCount.toNat + sampleIndex

def affine (doubles : Doubles F) (channel : ChannelDef F) (value : F) : F :=
  let value := match channel.scale with
    | some scale => doubles.mul value scale
    | none => value
  match channel.offset with
  | some offset => doubles.add value offset
  | none => value

def pushSample (doubles : Doubles F) (frame : SignalFrameRow F) (width : Nat)
    (selectedChannels : List (List Char)) (maxPoints sampleIndex : Nat)
    (windows : List (NumericWindow F)) (entry : ChannelDef F × Nat) :
    Except Failure (List (NumericWindow F)) :=
  let (channel, channelIndex) := entry
  if isSelected selectedChannels channel.key = false then .ok windows
  else
    match windowOf windows channel.key with
    | none => .ok windows
    | some window =>
      let change := updateFirstBy (·.channelKey) (some channel.key)
      if maxPoints ≤ window.points.length then
        .ok (change (fun window => { window with truncated := true }) windows)
      else
        match decodeSample doubles frame.samples (frame.valueIndex sampleIndex channelIndex * width)
            frame.encoding with
        | .error e => .error e
        | .ok value =>
          let point := ⟨frame.sampleTime sampleIndex, affine doubles channel value⟩
          .ok (change (fun window => { window with points := window.points ++ [point] }) windows)

def appendSignalFramePoints (doubles : Doubles F) (windows : List (NumericWindow F))
    (frame : SignalFrameRow F) (selectedChannels : List (List Char)) (windowStart windowEnd : Int)
    (maxPoints : Nat) : Except Failure (List (NumericWindow F)) :=
  if frame.sampleCount ≤ 0 ∨ frame.channels = [] then .ok windows
  else
    match sampleWidthBytes frame.encoding with
    | .error e => .error e
    | .ok width =>
      let expected := frame.sampleCount.toNat * frame.channels.length * width
      if frame.samples.length ≠ expected then
        .error (.bail ("signal frame sample size mismatch: expected " ++ toString expected ++
          ", got " ++ toString frame.samples.length))
      else if frame.layout ≠ "interleaved".toList ∧ frame.layout ≠ "planar".toList then
        .error (.bail ("unsupported signal layout: " ++ String.ofList frame.layout))
      else
        let windows := frame.channels.foldl (openWindow selectedChannels windowStart windowEnd) windows
        (List.range frame.sampleCount.toNat).foldlM (fun windows sampleIndex =>
          let eventTime := frame.sampleTime sampleIndex
          if eventTime < windowStart ∨ eventTime > windowEnd then .ok windows
          else
            frame.channels.zipIdx.foldlM
              (pushSample doubles frame width selectedChannels maxPoints sampleIndex) windows) windows

def NumericWindow.push (maxPoints : Nat) (window : NumericWindow F) (point : MetricPoint F) :
    NumericWindow F :=
  if maxPoints ≤ window.points.length then { window with truncated := true }
  else { window with points := window.points ++ [point] }

theorem foldl_push {maxPoints : Nat} {window : NumericWindow F} {points : List (MetricPoint F)}
    (h : window.points.length + points.length ≤ maxPoints) :
    points.foldl (NumericWindow.push maxPoints) window =
      { window with points := window.points ++ points } := by
  induction points generalizing window with
  | nil => rw [List.foldl_nil, List.append_nil]
  | cons point points ih =>
    rw [List.length_cons] at h
    have hroom : ¬maxPoints ≤ window.points.length := by omega
    rw [List.foldl_cons, NumericWindow.push, if_neg hroom, ih]
    · rw [List.append_assoc, List.singleton_append]
    · rw [List.length_append, List.length_singleton]
      omega

variable {doubles : Doubles F} {frame : SignalFrameRow F} {width : Nat}
  {selectedChannels : List (List Char)} {maxPoints sampleIndex : Nat}
  {windows : List (NumericWindow F)} {windowStart windowEnd : Int} {format : NumberFormat}

def newWindow (windowStart windowEnd : Int) (key : List Char) : NumericWindow F :=
  ⟨"signal_frame", some key, windowStart, windowEnd, [], false⟩

theorem windowOf_openWindow {channel : ChannelDef F} {key : List Char}
    (hselected : isSelected selectedChannels key = true) :
    windowOf (openWindow selectedChannels windowStart windowEnd windows channel) key =
      (windowOf windows key).or
        (if channel.key = key then some (newWindow windowStart windowEnd key) else none) := by
  unfold openWindow
  split
  · rw [windowOf, findBy_append_row]
    by_cases hkey : channel.key = key
    · subst hkey
      rw [if_pos rfl, if_pos rfl]
      rfl
    · rw [if_neg (fun h => hkey (Option.some.inj h)), if_neg hkey]
      rfl
  · next hopen =>
    by_cases hkey : channel.key = key
    · subst hkey
      have hwindow : windowOf windows channel.key ≠ none := fun h => hopen ⟨hselected, h⟩
      obtain ⟨window, hsome⟩ := Option.ne_none_iff_exists'.mp hwindow
      rw [hsome, Option.some_or]
    · rw [if_neg hkey, Option.or_none]

theorem windowOf_foldl_openWindow {channels : List (ChannelDef F)} {key : List Char}
    (hselected : isSelected selectedChannels key = true) :
    windowOf (channels.foldl (openWindow selectedChannels windowStart windowEnd) windows) key =
      (windowOf windows key).or (if key ∈ channels.map (·.key) then
        some (newWindow windowStart windowEnd key) else none) := by
  induction channels generalizing windows with
  | nil => exact Option.or_none.symm
  | cons channel channels ih =>
    rw [List.foldl_cons, ih, windowOf_openWindow hselected, Option.or_assoc, List.map_cons]
    by_cases hkey : channel.key = key
    · rw [if_pos hkey, Option.some_or, if_pos (List.mem_cons.mpr (.inl hkey.symm))]
    · simp only [if_neg hkey, Option.none_or, List.mem_cons, Ne.symm hkey, false_or]

theorem windowOf_updateFirstBy {change : NumericWindow F → NumericWindow F}
    (hchange : ∀ window, (change window).channelKey = window.channelKey) (key key' : List Char) :
    windowOf (updateFirstBy (·.channelKey) (some key) change windows) key' =
      if key = key' then (windowOf windows key').map change else windowOf windows key' := by
  rw [windowOf, findBy_updateFirstBy hchange]
  by_cases hkey : key = key'
  · rw [if_pos hkey, if_pos (congrArg some hkey)]
    rfl
  · rw [if_neg hkey, if_neg fun h => hkey (Option.some.inj h)]
    rfl

theorem windowOf_updateFirstBy_push {change : NumericWindow F → NumericWindow F}
    (hchange : ∀ window, (change window).channelKey = window.channelKey) {key : List Char}
    {window : NumericWindow F} {point : MetricPoint F} (hwindow : windowOf windows key = some window)
    (hpush : window.push maxPoints point = change window) (key' : List Char) :
    windowOf (updateFirstBy (·.channelKey) (some key) change windows) key' =
      if key = key' then (windowOf windows key').map (·.push maxPoints point)
      else windowOf windows key' := by
  rw [windowOf_updateFirstBy hchange]
  split
  · next hkey => rw [← hkey, hwindow, Option.map_some, Option.map_some, hpush]
  · rfl

theorem pushSample_ok (selectedChannels : List (List Char)) (maxPoints : Nat)
    (windows : List (NumericWindow F)) {channel : ChannelDef F} {channelIndex : Nat} {value : F}
    (hdecode : decodeSample doubles frame.samples (frame.valueIndex sampleIndex channelIndex * width)
      frame.encoding = .ok value) :
    ∃ windows', pushSample doubles frame width selectedChannels maxPoints sampleIndex windows
        (channel, channelIndex) = .ok windows' ∧
      ∀ key, isSelected selectedChannels key = true → windowOf windows' key =
        if channel.key = key then (windowOf windows key).map
          (·.push maxPoints ⟨frame.sampleTime sampleIndex, affine doubles channel value⟩)
        else windowOf windows key := by
  simp only [pushSample]
  by_cases hunselected : isSelected selectedChannels channel.key = false
  · refine ⟨windows, if_pos hunselected, fun key hkey => ?_⟩
    rw [if_neg]
    rintro rfl
    rw [hkey] at hunselected
    cases hunselected
  · rw [if_neg hunselected]
    cases hwindow : windowOf windows channel.key with
    | none =>
      refine ⟨windows, rfl, fun key _ => ?_⟩
      split
      · next hkey => rw [← hkey, hwindow, Option.map_none]
      · rfl
    | some window =>
      simp only [hdecode]
      split
      · next hfull =>
        refine ⟨_, rfl, fun key _ => windowOf_updateFirstBy_push ?_ hwindow ?_ key⟩
        · exact fun _ => rfl
        · exact if_pos hfull
      · next hroom =>
        refine ⟨_, rfl, fun key _ => windowOf_updateFirstBy_push ?_ hwindow ?_ key⟩
        · exact fun _ => rfl
        · exact if_neg hroom

structure Reads (encoding : List Char) (format : NumberFormat) : Prop where
  width : sampleWidthBytes encoding = .ok format.size
  decode : ∀ {F : Type} (doubles : Doubles F) (samples : List UInt8) (offset : Nat),
    decodeSample doubles samples offset encoding = fromLeBytes doubles format samples offset

theorem valueIndex_lt {channelIndex : Nat} (hsample : sampleIndex < frame.sampleCount.toNat)
    (hchannel : channelIndex < frame.channels.length) :
    frame.valueIndex sampleIndex channelIndex < frame.sampleCount.toNat * frame.channels.length := by
  unfold SignalFrameRow.valueIndex
  split
  · exact cell_lt hsample hchannel
  · rw [Nat.mul_comm frame.sampleCount.toNat]
    exact cell_lt hchannel hsample

def SignalFrameRow.pointAt (frame : SignalFrameRow F) (doubles : Doubles F) (format : NumberFormat)
    (sampleIndex : Nat) (entry : ChannelDef F × Nat) : MetricPoint F :=
  ⟨frame.sampleTime sampleIndex, affine doubles entry.1 (format.read doubles
    ((frame.samples.drop (frame.valueIndex sampleIndex entry.2 * format.size)).take format.size))⟩

def SignalFrameRow.pointsOf (frame : SignalFrameRow F) (doubles : Doubles F) (format : NumberFormat)
    (turns : List Nat) : List (List Char × MetricPoint F) :=
  turns.flatMap fun sampleIndex => frame.channels.zipIdx.map fun entry =>
    (entry.1.key, frame.pointAt doubles format sampleIndex entry)

def SignalFrameRow.inWindow (frame : SignalFrameRow F) (windowStart windowEnd : Int)
    (sampleIndex : Nat) : Bool :=
  windowStart ≤ frame.sampleTime sampleIndex ∧ frame.sampleTime sampleIndex ≤ windowEnd

theorem foldlM_pushSample (doubles : Doubles F) (selectedChannels : List (List Char))
    (maxPoints : Nat) (windows : List (NumericWindow F)) {turns : List Nat}
    (hencoding : Reads frame.encoding format)
    (hlength : frame.samples.length =
      frame.sampleCount.toNat * frame.channels.length * format.size)
    (hturns : ∀ sampleIndex ∈ turns, sampleIndex < frame.sampleCount.toNat) :
    ∃ windows', turns.foldlM (fun windows sampleIndex => frame.channels.zipIdx.foldlM
        (pushSample doubles frame format.size selectedChannels maxPoints sampleIndex) windows)
        windows = .ok windows' ∧
      ∀ key, isSelected selectedChannels key = true → windowOf windows' key =
        (windowOf windows key).map
          ((valuesOf key (frame.pointsOf doubles format turns)).foldl (NumericWindow.push maxPoints)) := by
  let push (windows : List (NumericWindow F)) (e : Nat × ChannelDef F × Nat) :=
    pushSample doubles frame format.size selectedChannels maxPoints e.1 windows e.2
  let look (windows : List (NumericWindow F)) (key : List Char) :=
    if isSelected selectedChannels key = true then windowOf windows key else none
  let item (e : Nat × ChannelDef F × Nat) := (e.2.1.key, frame.pointAt doubles format e.1 e.2)
  let entries := turns.flatMap fun sampleIndex => frame.channels.zipIdx.map (Prod.mk sampleIndex)
  have hstep : ∀ e ∈ entries.zipIdx, ∀ windows, True → ∃ windows', push windows e.1 = .ok windows' ∧
      True ∧ ∀ key, look windows' key = if (item e.1).1 = key then
        (look windows key).map (·.push maxPoints (item e.1).2) else look windows key := by
    rintro ⟨⟨sampleIndex, channel, channelIndex⟩, position⟩ hmem windows -
    have hentry : (sampleIndex, channel, channelIndex) ∈ entries := List.fst_mem_of_mem_zipIdx hmem
    obtain ⟨turn, hturn, hentry⟩ := List.mem_flatMap.mp hentry
    obtain ⟨_, hchannel, hpair⟩ := List.mem_map.mp hentry
    obtain ⟨rfl, rfl⟩ := Prod.mk.inj hpair
    have hindex := valueIndex_lt (hturns turn hturn) (List.mem_zipIdx' hchannel).1
    have hfits : frame.valueIndex turn channelIndex * format.size + format.size ≤
        frame.samples.length := by
      rw [hlength, ← Nat.succ_mul]
      exact Nat.mul_le_mul_right _ hindex
    have hdecode := hencoding.decode doubles frame.samples
      (frame.valueIndex turn channelIndex * format.size)
    rw [fromLeBytes, if_pos hfits] at hdecode
    obtain ⟨windows', hpush, hlook⟩ := pushSample_ok selectedChannels maxPoints windows hdecode
    refine ⟨windows', hpush, trivial, fun key => ?_⟩
    by_cases hselected : isSelected selectedChannels key = true
    · simp only [look, if_pos hselected]
      exact hlook key hselected
    · simp [look, hselected]
  obtain ⟨windows', hrun, -, hlook⟩ := foldlM_valuesOf (fun _ _ => True) look
    (NumericWindow.push maxPoints) (fun e => item e.1) hstep (s := windows) trivial
  refine ⟨windows', ?_, fun key hselected => ?_⟩
  · rw [← hrun, foldlM_flatMap]
    simp only [List.foldlM_map]
    rfl
  · have hkey := hlook key
    simp only [look, if_pos hselected, map_zipIdx_fst] at hkey
    rw [hkey, List.map_flatMap]
    simp only [List.map_map]
    rfl

/-- A frame that is not passed over is read only if it is well formed. -/
theorem wellFormed_of_append {doubles : Doubles F} {windows windows' : List (NumericWindow F)}
    {selectedChannels : List (List Char)} {windowStart windowEnd : Int} {maxPoints : Nat}
    (hsome : ¬(frame.sampleCount ≤ 0 ∨ frame.channels = []))
    (h : appendSignalFramePoints doubles windows frame selectedChannels windowStart windowEnd
      maxPoints = .ok windows') :
    ∃ width, sampleWidthBytes frame.encoding = .ok width ∧
      frame.samples.length = frame.sampleCount.toNat * frame.channels.length * width ∧
      (frame.layout = "interleaved".toList ∨ frame.layout = "planar".toList) := by
  rw [appendSignalFramePoints, if_neg hsome] at h
  split at h
  · cases h
  · next width hwidth =>
    dsimp only at h
    split at h
    · cases h
    · next hlength =>
      split at h
      · cases h
      · next hlayout =>
        refine ⟨width, hwidth, not_not.mp hlength, ?_⟩
        by_contra hnot
        exact hlayout (not_or.mp hnot)

/-- What each selected window gets; windows of the frame's channels are open afterwards. -/
theorem appendSignalFramePoints_windowOf (doubles : Doubles F) (windows : List (NumericWindow F))
    (selectedChannels : List (List Char)) (windowStart windowEnd : Int) (maxPoints : Nat)
    (hchannels : frame.channels ≠ []) (hcount : 0 < frame.sampleCount)
    (hencoding : Reads frame.encoding format)
    (hlength : frame.samples.length =
      frame.sampleCount.toNat * frame.channels.length * format.size)
    (hlayout : frame.layout = "interleaved".toList ∨ frame.layout = "planar".toList) :
    ∃ windows', appendSignalFramePoints doubles windows frame selectedChannels windowStart windowEnd
        maxPoints = .ok windows' ∧
      ∀ key, isSelected selectedChannels key = true → windowOf windows' key =
        ((windowOf windows key).or (if key ∈ frame.channels.map (·.key) then
            some (newWindow windowStart windowEnd key) else none)).map
          ((valuesOf key (frame.pointsOf doubles format ((List.range frame.sampleCount.toNat).filter
            (frame.inWindow windowStart windowEnd)))).foldl (NumericWindow.push maxPoints)) := by
  let turns := (List.range frame.sampleCount.toNat).filter (frame.inWindow windowStart windowEnd)
  have hturns : ∀ sampleIndex ∈ turns, sampleIndex < frame.sampleCount.toNat := fun sampleIndex h =>
    List.mem_range.mp (List.mem_filter.mp h).1
  obtain ⟨windows', hrun, hlook⟩ := foldlM_pushSample doubles selectedChannels maxPoints
    (frame.channels.foldl (openWindow selectedChannels windowStart windowEnd) windows)
    hencoding hlength hturns
  refine ⟨windows', ?_, fun key hselected => ?_⟩
  · have hknown : ¬(frame.layout ≠ "interleaved".toList ∧ frame.layout ≠ "planar".toList) :=
      fun h => hlayout.elim h.1 h.2
    rw [appendSignalFramePoints, if_neg (not_or.mpr ⟨by omega, hchannels⟩)]
    simp only [hencoding.width, if_neg (not_not.mpr hlength), if_neg hknown]
    rw [← hrun, List.foldlM_filter]
    congr 1
    funext windows sampleIndex
    by_cases hwindow : frame.inWindow windowStart windowEnd sampleIndex = true
    · obtain ⟨hstart, hend⟩ := of_decide_eq_true hwindow
      rw [if_pos hwindow, if_neg (not_or.mpr ⟨Int.not_lt.mpr hstart, Int.not_lt.mpr hend⟩)]
    · have hout : ¬(windowStart ≤ frame.sampleTime sampleIndex ∧
          frame.sampleTime sampleIndex ≤ windowEnd) := fun h => hwindow (decide_eq_true h)
      rw [if_neg hwindow, if_pos (by omega)]
      rfl
  · rw [hlook key hselected, windowOf_foldl_openWindow hselected]

theorem appendSignalFramePoints_ok (doubles : Doubles F) (windows : List (NumericWindow F))
    (selectedChannels : List (List Char)) (windowStart windowEnd : Int) (maxPoints : Nat)
    (hchannels : frame.channels ≠ []) (hcount : 0 < frame.sampleCount)
    (hencoding : Reads frame.encoding format)
    (hlength : frame.samples.length =
      frame.sampleCount.toNat * frame.channels.length * format.size)
    (hlayout : frame.layout = "interleaved".toList ∨ frame.layout = "planar".toList) :
    ∃ windows', appendSignalFramePoints doubles windows frame selectedChannels windowStart windowEnd
        maxPoints = .ok windows' ∧
      ∀ key ∈ frame.channels.map (·.key), isSelected selectedChannels key = true →
        windowOf windows' key = some ((valuesOf key (frame.pointsOf doubles format
            ((List.range frame.sampleCount.toNat).filter (frame.inWindow windowStart windowEnd)))).foldl
          (NumericWindow.push maxPoints)
          ((windowOf windows key).getD (newWindow windowStart windowEnd key))) := by
  obtain ⟨windows', happend, hlook⟩ := appendSignalFramePoints_windowOf doubles windows
    selectedChannels windowStart windowEnd maxPoints hchannels hcount hencoding hlength hlayout
  refine ⟨windows', happend, fun key hkey hselected => ?_⟩
  rw [hlook key hselected, if_pos hkey]
  cases windowOf windows key <;> rfl

theorem valuesOf_pointsOf_of_nodup (doubles : Doubles F) (format : NumberFormat) (turns : List Nat)
    (hkeys : (frame.channels.map (·.key)).Nodup) {i : Nat} {channel : ChannelDef F}
    (hi : frame.channels[i]? = some channel) :
    valuesOf channel.key (frame.pointsOf doubles format turns) =
      turns.map fun sampleIndex => frame.pointAt doubles format sampleIndex (channel, i) := by
  have hsingle := filter_zipIdx_of_nodup hkeys hi
  rw [SignalFrameRow.pointsOf, valuesOf_byRow, hsingle]
  simp only [List.map_cons, List.map_nil]
  exact List.map_eq_flatMap.symm

/-- The points that a channel's window has, none when it is not open. -/
def pointsUnder (windows : List (NumericWindow F)) (key : List Char) : List (MetricPoint F) :=
  (windowOf windows key).elim [] (·.points)

theorem pointsUnder_foldl_push {windows' : List (NumericWindow F)} {key : List Char}
    {points : List (MetricPoint F)}
    (h : windowOf windows' key = some (points.foldl (NumericWindow.push maxPoints)
      ((windowOf windows key).getD (newWindow windowStart windowEnd key))))
    (hroom : (pointsUnder windows key).length + points.length ≤ maxPoints) :
    pointsUnder windows' key = pointsUnder windows key ++ points := by
  have hbefore : ((windowOf windows key).getD (newWindow windowStart windowEnd key)).points =
      pointsUnder windows key := by
    unfold pointsUnder
    cases windowOf windows key <;> rfl
  rw [foldl_push (hbefore ▸ hroom), hbefore] at h
  rw [pointsUnder, h]
  rfl

end Aetus.Anomaly
