import Aetus.Anomaly.Windows

/-!
The windows that a loop of `append_signal_frame_points` over frames makes: one for each selected
channel of the frames, with the samples of that channel in the window up to the cut-off.
-/

set_option autoImplicit false

namespace Aetus.Anomaly
open Aetus.Base

variable {F : Type} {doubles : Doubles F} {frame : SignalFrameRow F}
  {frames : List (SignalFrameRow F)} {selectedChannels : List (List Char)}
  {windowStart windowEnd : Int} {maxPoints : Nat} {windows : List (NumericWindow F)}
  {key : List Char}

/-- A frame with samples, of known names, whose bytes are those of its cells, and whose channels
have keys of their own. -/
structure SignalFrameRow.WellFormed (frame : SignalFrameRow F) : Prop where
  hasSamples : 0 < frame.sampleCount
  hasChannels : frame.channels ≠ []
  encoding : Reads frame.encoding (numberFormat frame.encoding)
  layout : frame.layout = "interleaved".toList ∨ frame.layout = "planar".toList
  length : frame.samples.length = frame.sampleCount.toNat * frame.channels.length *
    (numberFormat frame.encoding).size
  nodup : (frame.channels.map (·.key)).Nodup

def SignalFrameRow.channelPoints (frame : SignalFrameRow F) (doubles : Doubles F)
    (windowStart windowEnd : Int) (key : List Char) : List (MetricPoint F) :=
  match frame.channels.zipIdx.find? (·.1.key = key) with
  | none => []
  | some entry =>
    ((List.range frame.sampleCount.toNat).filter (frame.inWindow windowStart windowEnd)).map
      fun sampleIndex => frame.pointAt doubles (numberFormat frame.encoding) sampleIndex entry

def channelPoints (doubles : Doubles F) (windowStart windowEnd : Int) (key : List Char)
    (frames : List (SignalFrameRow F)) : List (MetricPoint F) :=
  frames.flatMap fun frame => frame.channelPoints doubles windowStart windowEnd key

def occurring (frames : List (SignalFrameRow F)) : List (List Char) :=
  frames.flatMap fun frame => frame.channels.map (·.key)

def windowWith (windowStart windowEnd : Int) (maxPoints : Nat) (key : List Char)
    (points : List (MetricPoint F)) : NumericWindow F where
  sourceKind := "signal_frame"
  channelKey := some key
  windowStart := windowStart
  windowEnd := windowEnd
  points := points.take maxPoints
  truncated := maxPoints < points.length

def appendFrames (doubles : Doubles F) (selectedChannels : List (List Char))
    (windowStart windowEnd : Int) (maxPoints : Nat) (frames : List (SignalFrameRow F)) :
    Except Failure (List (NumericWindow F)) :=
  frames.foldlM (fun windows frame => appendSignalFramePoints doubles windows frame
    selectedChannels windowStart windowEnd maxPoints) []

structure WindowsOf (doubles : Doubles F) (selectedChannels : List (List Char))
    (windowStart windowEnd : Int) (maxPoints : Nat) (frames : List (SignalFrameRow F))
    (windows : List (NumericWindow F)) : Prop where
  nodup : (windows.map (·.channelKey)).Nodup
  keys : ∀ key, some key ∈ windows.map (·.channelKey) ↔
    isSelected selectedChannels key = true ∧ key ∈ occurring frames
  window : ∀ window ∈ windows, ∃ key, window = windowWith windowStart windowEnd maxPoints key
    (channelPoints doubles windowStart windowEnd key frames)

/-! A window takes one more point -/

theorem windowWith_nil :
    windowWith windowStart windowEnd maxPoints key ([] : List (MetricPoint F)) =
      newWindow windowStart windowEnd key := by
  simp [windowWith, newWindow]

theorem push_windowWith (points : List (MetricPoint F)) (point : MetricPoint F) :
    (windowWith windowStart windowEnd maxPoints key points).push maxPoints point =
      windowWith windowStart windowEnd maxPoints key (points ++ [point]) := by
  have hmore : (points ++ [point]).length = points.length + 1 := List.length_append
  simp only [windowWith, NumericWindow.push, hmore, List.length_take]
  by_cases hfull : maxPoints ≤ points.length
  · have htruncated : maxPoints < points.length + 1 := Nat.lt_succ_of_le hfull
    rw [if_pos (by omega), List.take_append_of_le_length hfull, decide_eq_true htruncated]
  · have hkept : ¬maxPoints < points.length := by omega
    have hfits : ¬maxPoints < points.length + 1 := by omega
    rw [if_neg (by omega), List.take_of_length_le (Nat.le_of_not_le hfull),
      List.take_of_length_le (by omega), decide_eq_false hkept, decide_eq_false hfits]

theorem foldl_push_windowWith (points more : List (MetricPoint F)) :
    more.foldl (NumericWindow.push maxPoints) (windowWith windowStart windowEnd maxPoints key points) =
      windowWith windowStart windowEnd maxPoints key (points ++ more) := by
  induction more generalizing points with
  | nil => rw [List.foldl_nil, List.append_nil]
  | cons point more ih =>
    rw [List.foldl_cons, push_windowWith, ih, List.append_assoc, List.singleton_append]

/-! What one frame offers a window -/

theorem channelPoints_of_not_mem (h : key ∉ frame.channels.map (·.key)) :
    frame.channelPoints doubles windowStart windowEnd key = [] := by
  have hnone : frame.channels.zipIdx.find? (·.1.key = key) = none := by
    rw [← List.head?_filter, filter_zipIdx_of_not_mem h, List.head?_nil]
  rw [SignalFrameRow.channelPoints, hnone]

theorem channelPoints_eq_nil (h : key ∉ occurring frames) :
    channelPoints doubles windowStart windowEnd key frames = [] := by
  refine List.flatMap_eq_nil_iff.mpr fun frame hframe => channelPoints_of_not_mem fun hkey => h ?_
  exact List.mem_flatMap.mpr ⟨frame, hframe, hkey⟩

/-- The values that the loop finds under a key are those of the one channel that has it. -/
theorem valuesOf_pointsOf (hframe : frame.WellFormed) (key : List Char) :
    valuesOf key (frame.pointsOf doubles (numberFormat frame.encoding)
        ((List.range frame.sampleCount.toNat).filter (frame.inWindow windowStart windowEnd))) =
      frame.channelPoints doubles windowStart windowEnd key := by
  by_cases hmem : key ∈ frame.channels.map (·.key)
  · obtain ⟨channel, hchannel, rfl⟩ := List.mem_map.mp hmem
    obtain ⟨i, hi⟩ := List.getElem?_of_mem hchannel
    have hfind : frame.channels.zipIdx.find? (·.1.key = channel.key) = some (channel, i) := by
      rw [← List.head?_filter, filter_zipIdx_of_nodup hframe.nodup hi]
      rfl
    rw [valuesOf_pointsOf_of_nodup doubles _ _ hframe.nodup hi, SignalFrameRow.channelPoints, hfind]
  · rw [channelPoints_of_not_mem hmem, SignalFrameRow.pointsOf, valuesOf_byRow]
    refine List.flatMap_eq_nil_iff.mpr fun _ _ => ?_
    exact List.map_eq_nil_iff.mpr (filter_zipIdx_of_not_mem hmem)

/-! The loop over the frames -/

structure Offered (doubles : Doubles F) (selectedChannels : List (List Char))
    (windowStart windowEnd : Int) (maxPoints : Nat) (frames : List (SignalFrameRow F))
    (windows : List (NumericWindow F)) : Prop extends
    WellMade selectedChannels windowStart windowEnd windows where
  windowOf : ∀ key, isSelected selectedChannels key = true → windowOf windows key =
    if key ∈ occurring frames then
      some (windowWith windowStart windowEnd maxPoints key
        (channelPoints doubles windowStart windowEnd key frames))
    else none

theorem offered_nil : Offered doubles selectedChannels windowStart windowEnd maxPoints [] [] where
  nodup := List.nodup_nil
  made := nofun
  windowOf := fun _ _ => rfl

theorem appendSignalFramePoints_offered (hframe : frame.WellFormed)
    (h : Offered doubles selectedChannels windowStart windowEnd maxPoints frames windows) :
    ∃ windows', appendSignalFramePoints doubles windows frame selectedChannels windowStart windowEnd
        maxPoints = .ok windows' ∧
      Offered doubles selectedChannels windowStart windowEnd maxPoints (frames ++ [frame])
        windows' := by
  obtain ⟨windows', happend, hlook⟩ := appendSignalFramePoints_windowOf doubles windows
    selectedChannels windowStart windowEnd maxPoints hframe.hasChannels hframe.hasSamples
    hframe.encoding hframe.length hframe.layout
  refine ⟨windows', happend, appendSignalFramePoints_wellMade happend h.toWellMade,
    fun key hselected => ?_⟩
  have hoccurring : key ∈ occurring (frames ++ [frame]) ↔
      key ∈ occurring frames ∨ key ∈ frame.channels.map (·.key) := by
    simp [occurring]
  have hpoints : channelPoints doubles windowStart windowEnd key (frames ++ [frame]) =
      channelPoints doubles windowStart windowEnd key frames ++
        frame.channelPoints doubles windowStart windowEnd key := by
    simp [channelPoints]
  rw [hlook key hselected, h.windowOf key hselected, valuesOf_pointsOf hframe, hpoints]
  by_cases hbefore : key ∈ occurring frames
  · rw [if_pos hbefore, if_pos (hoccurring.mpr (.inl hbefore)), Option.some_or, Option.map_some,
      foldl_push_windowWith]
  · rw [if_neg hbefore, Option.none_or]
    by_cases hnow : key ∈ frame.channels.map (·.key)
    · rw [if_pos hnow, if_pos (hoccurring.mpr (.inr hnow)), Option.map_some, ← windowWith_nil,
        foldl_push_windowWith, List.nil_append, channelPoints_eq_nil hbefore, List.nil_append]
    · rw [if_neg hnow, if_neg (not_or.mpr ⟨hbefore, hnow⟩ ∘ hoccurring.mp), Option.map_none]

theorem Offered.windowsOf
    (h : Offered doubles selectedChannels windowStart windowEnd maxPoints frames windows) :
    WindowsOf doubles selectedChannels windowStart windowEnd maxPoints frames windows := by
  have hfind : ∀ window ∈ windows, ∃ key, isSelected selectedChannels key = true ∧
      window.channelKey = some key ∧ Anomaly.windowOf windows key = some window := by
    intro window hwindow
    obtain ⟨-, -, -, key, hkey, hselected⟩ := h.made window hwindow
    have hfound := UniqueBy.findBy h.nodup hwindow
    rw [hkey] at hfound
    exact ⟨key, hselected, hkey, hfound⟩
  refine ⟨h.nodup, fun key => ⟨fun hkey => ?_, fun ⟨hselected, hoccurs⟩ => ?_⟩,
    fun window hwindow => ?_⟩
  · obtain ⟨window, hwindow, hwindowKey⟩ := List.mem_map.mp hkey
    obtain ⟨key', hselected, hkey', hfound⟩ := hfind window hwindow
    obtain rfl : key' = key := Option.some.inj (hkey'.symm.trans hwindowKey)
    refine ⟨hselected, ?_⟩
    by_contra hnot
    rw [h.windowOf key' hselected, if_neg hnot] at hfound
    cases hfound
  · have hfound := h.windowOf key hselected
    rw [if_pos hoccurs] at hfound
    obtain ⟨hmem, hkey⟩ := mem_of_findBy hfound
    exact List.mem_map.mpr ⟨_, hmem, hkey⟩
  · obtain ⟨key, hselected, -, hfound⟩ := hfind window hwindow
    rw [h.windowOf key hselected] at hfound
    split at hfound
    · exact ⟨key, (Option.some.inj hfound).symm⟩
    · cases hfound

theorem appendFrames_windowsOf (doubles : Doubles F) (selectedChannels : List (List Char))
    (windowStart windowEnd : Int) (maxPoints : Nat) {frames : List (SignalFrameRow F)}
    (hframes : ∀ frame ∈ frames, frame.WellFormed) :
    ∃ windows, appendFrames doubles selectedChannels windowStart windowEnd maxPoints frames =
        .ok windows ∧
      WindowsOf doubles selectedChannels windowStart windowEnd maxPoints frames windows := by
  obtain ⟨windows, hrun, hoffered⟩ := foldlM_invariant
    (Offered doubles selectedChannels windowStart windowEnd maxPoints)
    (fun before frame hframe windows h => appendSignalFramePoints_offered (hframes frame hframe) h)
    offered_nil
  exact ⟨windows, hrun, hoffered.windowsOf⟩

/-! Two frames with a channel in common, laid out and encoded differently -/

def twoFrames : List (SignalFrameRow Int) := [
  { eventTime := 0
    sampleIntervalNs := 1000
    sampleCount := 2
    samples := [1, 0, 2, 0, 3, 0, 4, 0]
    encoding := "int16_le".toList
    layout := "interleaved".toList
    channels := [⟨['x'], none, none, none⟩, ⟨['y'], none, none, none⟩] },
  { eventTime := 5000
    sampleIntervalNs := 1000
    sampleCount := 3
    samples := [5, 0, 0, 0, 6, 0, 0, 0, 7, 0, 0, 0]
    encoding := "int32_le".toList
    layout := "planar".toList
    channels := [⟨['y'], none, none, some 10⟩] }]

theorem twoFrames_wellFormed : ∀ frame ∈ twoFrames, frame.WellFormed := by
  intro frame hframe
  obtain rfl | rfl : frame = _ ∨ frame = _ := by simpa [twoFrames] using hframe
  all_goals exact ⟨by decide, by simp, reads_numberFormat rfl, by decide, by decide, by decide⟩

/-- Of the four samples of `y` up to 6000, the last does not get into the window. -/
example : (channelPoints wholeDoubles 0 6000 ['y'] twoFrames).map (fun p => (p.eventTime, p.value)) =
    [(0, 2), (1000, 4), (5000, 15), (6000, 16)] := by decide +kernel

theorem appendFrames_windowsOf_twoFrames :
    ∃ windows, appendFrames wholeDoubles [['y']] 0 6000 3 twoFrames = .ok windows ∧
      WindowsOf wholeDoubles [['y']] 0 6000 3 twoFrames windows :=
  appendFrames_windowsOf wholeDoubles [['y']] 0 6000 3 twoFrames_wellFormed

/-- The loop of `signal_windows_between` is that over the rows of the selected frames. -/
theorem signalWindowsBetween_eq_appendFrames {reader : Reader F} {telemetry : Postgres.Telemetry}
    {deviceId streamKey : List Char}
    (hparses : ∀ frame ∈ telemetry.framesBetween reader.rounding deviceId streamKey
        (toTimestamptz windowStart) (toTimestamptz windowEnd),
      reader.channelsFromStr frame.signal.channelsJson = .ok (channelsOf reader frame)) :
    signalWindowsBetween reader telemetry deviceId streamKey selectedChannels windowStart windowEnd
        maxPoints =
      appendFrames reader.doubles selectedChannels windowStart windowEnd maxPoints
        ((telemetry.framesBetween reader.rounding deviceId streamKey (toTimestamptz windowStart)
          (toTimestamptz windowEnd)).map fun frame => rowOf frame (channelsOf reader frame)) := by
  rw [signalWindowsBetween, appendFrames, List.foldlM_map]
  refine foldlM_congr fun frame hframe windows => ?_
  rw [appendFrame, hparses frame hframe]

end Aetus.Anomaly
