import Aetus.Firmware.Types

/-!
aetus_signal_sample_pool.c: the blocks that queued signal frames own, and the counters
kept about them. Each function is one critical section.
-/

set_option autoImplicit false

namespace Aetus.Firmware

structure PoolStats where
  allocatedBlocks : UInt32
  peakAllocatedBlocks : UInt32
  allocationCount : UInt32
  releaseCount : UInt32
  allocationFailureCount : UInt32
  queueSendFailureReleaseCount : UInt32
  validationFailureReleaseCount : UInt32
  uploadSuccessReleaseCount : UInt32
  finalDropReleaseCount : UInt32
  allocatedBytes : UInt32
  peakAllocatedBytes : UInt32
  deriving DecidableEq

def PoolStats.reset : PoolStats := ⟨0, 0, 0, 0, 0, 0, 0, 0, 0, 0, 0⟩

def PoolStats.noteAlloc (stats : PoolStats) (size : UInt32) : PoolStats :=
  let blocks := stats.allocatedBlocks + 1
  let bytes := stats.allocatedBytes + size
  { stats with
    allocatedBlocks := blocks
    allocationCount := stats.allocationCount + 1
    allocatedBytes := bytes
    peakAllocatedBlocks :=
      if stats.peakAllocatedBlocks < blocks then blocks else stats.peakAllocatedBlocks
    peakAllocatedBytes :=
      if stats.peakAllocatedBytes < bytes then bytes else stats.peakAllocatedBytes }

def PoolStats.noteRelease (stats : PoolStats) (size : UInt32) : PoolStats :=
  { stats with
    allocatedBlocks :=
      if 0 < stats.allocatedBlocks then stats.allocatedBlocks - 1 else stats.allocatedBlocks
    allocatedBytes := if size ≤ stats.allocatedBytes then stats.allocatedBytes - size else 0
    releaseCount := stats.releaseCount + 1 }

inductive PoolNote where
  | queueSendFailure | validationFailure | uploadSuccess | finalDrop
  deriving DecidableEq, Repr

/-- The four `aetus_signal_sample_pool_note_*` functions. -/
def PoolStats.note (stats : PoolStats) : PoolNote → PoolStats
  | .queueSendFailure =>
    { stats with queueSendFailureReleaseCount := stats.queueSendFailureReleaseCount + 1 }
  | .validationFailure =>
    { stats with validationFailureReleaseCount := stats.validationFailureReleaseCount + 1 }
  | .uploadSuccess =>
    { stats with uploadSuccessReleaseCount := stats.uploadSuccessReleaseCount + 1 }
  | .finalDrop => { stats with finalDropReleaseCount := stats.finalDropReleaseCount + 1 }

/-- Bytes of the heap under a block: its size field and its data. -/
def SampleBlock.footprint (b : SampleBlock) : Nat := 4 + b.size.toNat

/-- `heapUsed` is the part of the heap under live blocks. -/
structure SamplePool where
  stats : PoolStats
  heapUsed : Nat
  deriving DecidableEq

def SamplePool.reset : SamplePool := ⟨.reset, 0⟩

def SamplePool.noteFailure (p : SamplePool) : SamplePool :=
  { p with stats := { p.stats with
      allocationFailureCount := p.stats.allocationFailureCount + 1 } }

def SamplePool.note (p : SamplePool) (n : PoolNote) : SamplePool :=
  { p with stats := p.stats.note n }

def SamplePool.push (p : SamplePool) (b : SampleBlock) : SamplePool :=
  ⟨p.stats.noteAlloc b.size, p.heapUsed + b.footprint⟩

/-- `aetus_signal_sample_pool_alloc` on a heap of `heapSize` bytes, with the bytes the
caller then copies into the block. `granted` is the answer of `pvPortMalloc`, which
grants only what there is room for. -/
def SamplePool.alloc (p : SamplePool) (heapSize : Nat) (granted : Bool) (size : UInt32)
    (samples : List UInt8) : Option SampleBlock × SamplePool :=
  let block : SampleBlock := ⟨size, samples⟩
  if size = 0 ∨ AETUS_SIGNAL_SAMPLES_MAX < size then (none, p.noteFailure)
  else if granted ∧ p.heapUsed + block.footprint ≤ heapSize then (some block, p.push block)
  else (none, p.noteFailure)

def SamplePool.release (p : SamplePool) (owner : Option SampleBlock) : SamplePool :=
  match owner with
  | none => p
  | some b => ⟨p.stats.noteRelease b.size, p.heapUsed - b.footprint⟩

theorem SamplePool.alloc_cases (p : SamplePool) (heapSize : Nat) (granted : Bool)
    (size : UInt32) (samples : List UInt8) :
    p.alloc heapSize granted size samples = (none, p.noteFailure) ∨
    (p.alloc heapSize granted size samples = (some ⟨size, samples⟩, p.push ⟨size, samples⟩) ∧
      p.heapUsed + (SampleBlock.mk size samples).footprint ≤ heapSize) := by
  simp only [alloc]
  split
  · exact .inl rfl
  · split
    · next hg => exact .inr ⟨rfl, hg.2⟩
    · exact .inl rfl

end Aetus.Firmware
