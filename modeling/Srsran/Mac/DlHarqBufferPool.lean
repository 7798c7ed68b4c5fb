import Srsran.Lib.Runs
import Mathlib.Data.List.Basic
import Mathlib.Logic.Function.Basic

/-! The pool of DL HARQ buffers of a cell (`cell_dl_harq_buffer_pool.cpp`). A buffer is its index in
the pool; the bytes are left out, and reference counters do not wrap around. -/
namespace Srsran.Mac

def maxNofDuUes : Nat := 1024

def maxNofHarqs : Nat := 32

def dlHarqAllocBatch : Nat := maxNofHarqs * 2

def dlHarqAllocMinibatch : Nat := 2

def dlHarqPoolSize : Nat := maxNofDuUes * maxNofHarqs

/-- A task of `grow_cache_in_background` with its copy of the pointer to the cancellation flag. -/
structure GrowthTask where
  cancelFlagCpy : Option Nat
  deriving DecidableEq, Repr

/-- Cancellation flags are objects of their own, of which `nofFlags` have been made. -/
structure CellDlHarqBufferPool where
  cellBuffers : Nat → List Nat := fun _ => []
  bufferCache : List Nat := []
  poolElemIndex : Nat := dlHarqPoolSize
  refCnt : Nat → Nat := fun _ => 0
  poolGrowthCancelled : Option Nat := some 0
  flags : Nat → Bool := fun _ => false
  nofFlags : Nat := 1
  ctrlExec : List GrowthTask := []

/-- The last buffer of the list that no transport block refers to, and the others. -/
def takeLastFree (refCnt : Nat → Nat) : List Nat → Option (Nat × List Nat)
  | [] => none
  | b :: rest =>
    match takeLastFree refCnt rest with
    | some (taken, rest') => some (taken, b :: rest')
    | none => if refCnt b = 0 then some (b, rest) else none

namespace CellDlHarqBufferPool

def isPoolDepleted (s : CellDlHarqBufferPool) : Bool := s.poolElemIndex = 0

def allocateFromPool (s : CellDlHarqBufferPool) : Option (Nat × CellDlHarqBufferPool) :=
  if s.isPoolDepleted then none
  else some (s.poolElemIndex - 1, { s with poolElemIndex := s.poolElemIndex - 1 })

def allocateFromCache (s : CellDlHarqBufferPool) : Option (Nat × CellDlHarqBufferPool) :=
  match takeLastFree s.refCnt s.bufferCache with
  | none => none
  | some (b, rest) => some (b, { s with bufferCache := rest })

def cacheBuffer (s : CellDlHarqBufferPool) (b : Nat) : CellDlHarqBufferPool :=
  { s with bufferCache := s.bufferCache ++ [b] }

def giveBuffer (s : CellDlHarqBufferPool) (ueIndex b : Nat) : CellDlHarqBufferPool :=
  { s with cellBuffers := Function.update s.cellBuffers ueIndex (s.cellBuffers ueIndex ++ [b]) }

/-- Moves buffers from the pool to the cache; the flag tells whether all turns were made. -/
def fillCache : Nat → CellDlHarqBufferPool → CellDlHarqBufferPool × Bool
  | 0, s => (s, true)
  | turns + 1, s =>
    match s.allocateFromPool with
    | none => (s, false)
    | some (b, s) => fillCache turns (s.cacheBuffer b)

def create : CellDlHarqBufferPool := (fillCache dlHarqAllocBatch {}).1

/-- `deferred` is the answer of the executor. -/
def growCacheInBackground (s : CellDlHarqBufferPool) (deferred : Bool) : CellDlHarqBufferPool :=
  if s.isPoolDepleted then s
  else if s.bufferCache.length ≥ dlHarqAllocBatch then s
  else if deferred then { s with ctrlExec := s.ctrlExec ++ [⟨s.poolGrowthCancelled⟩] }
  else s

def runGrowthTask (s : CellDlHarqBufferPool) (task : GrowthTask) (deferred : Bool) :
    CellDlHarqBufferPool :=
  if task.cancelFlagCpy.isSome then s
  else
    match fillCache dlHarqAllocMinibatch s with
    | (s, false) => s
    | (s, true) => s.growCacheInBackground deferred

/-- The loop of `allocate_ue_buffers`, which adds one buffer in each turn; the flag tells whether all
turns were made. -/
def growUeList (ueIndex : Nat) : Nat → CellDlHarqBufferPool → CellDlHarqBufferPool × Bool
  | 0, s => (s, true)
  | turns + 1, s =>
    match if s.bufferCache.isEmpty then s.allocateFromPool else s.allocateFromCache with
    | none => (s, false)
    | some (b, s) => growUeList ueIndex turns (s.giveBuffer ueIndex b)

def allocateUeBuffers (s : CellDlHarqBufferPool) (ueIndex nofHarqs : Nat) (deferred : Bool) :
    CellDlHarqBufferPool :=
  if !(s.cellBuffers ueIndex).isEmpty then s
  else
    match growUeList ueIndex nofHarqs s with
    | (s, false) => s
    | (s, true) => s.growCacheInBackground deferred

def deallocateUeBuffers (s : CellDlHarqBufferPool) (ueIndex : Nat) : CellDlHarqBufferPool :=
  { s with
    bufferCache := s.bufferCache ++ s.cellBuffers ueIndex
    cellBuffers := Function.update s.cellBuffers ueIndex [] }

/-- The value of the flag that the pointer refers to is set, and a new flag is made. -/
def renewCancelFlag (s : CellDlHarqBufferPool) : CellDlHarqBufferPool :=
  { s with
    flags := match s.poolGrowthCancelled with
      | some flag => Function.update s.flags flag true
      | none => s.flags
    poolGrowthCancelled := some s.nofFlags
    nofFlags := s.nofFlags + 1 }

def clear (s : CellDlHarqBufferPool) : CellDlHarqBufferPool :=
  (List.range maxNofDuUes).foldl deallocateUeBuffers s.renewCancelFlag

def setRefCnt (s : CellDlHarqBufferPool) (b n : Nat) : CellDlHarqBufferPool :=
  { s with refCnt := Function.update s.refCnt b n }

/-- What happens to the pool: calls, transport blocks that are copied or destroyed, and tasks of the
executor. -/
inductive Event where
  | allocateUeBuffers (ueIndex nofHarqs : Nat) (deferred : Bool)
  | deallocateUeBuffers (ueIndex : Nat)
  | allocateDlHarqBuffer (ueIndex hId : Nat)
  | copyTransportBlock (b : Nat)
  | releaseTransportBlock (b : Nat)
  | growthTask (deferred : Bool)
  | clear
  deriving DecidableEq, Repr

/-- Calls that an assertion refuses are not enabled, nor is what needs a transport block or a task that
does not exist. -/
def step (s : CellDlHarqBufferPool) : Event → Option CellDlHarqBufferPool
  | .allocateUeBuffers ueIndex nofHarqs deferred =>
    if ueIndex < maxNofDuUes ∧ nofHarqs ≤ maxNofHarqs then
      some (s.allocateUeBuffers ueIndex nofHarqs deferred)
    else none
  | .deallocateUeBuffers ueIndex =>
    if ueIndex < maxNofDuUes then some (s.deallocateUeBuffers ueIndex) else none
  | .allocateDlHarqBuffer ueIndex hId =>
    match (s.cellBuffers ueIndex)[hId]? with
    | none => none
    | some b => some (if s.refCnt b ≠ 0 then s else s.setRefCnt b 1)
  | .copyTransportBlock b =>
    if s.refCnt b ≠ 0 then some (s.setRefCnt b (s.refCnt b + 1)) else none
  | .releaseTransportBlock b =>
    if s.refCnt b ≠ 0 then some (s.setRefCnt b (s.refCnt b - 1)) else none
  | .growthTask deferred =>
    match s.ctrlExec with
    | [] => none
    | task :: rest => some ({ s with ctrlExec := rest }.runGrowthTask task deferred)
  | .clear => some s.clear

end CellDlHarqBufferPool

end Srsran.Mac
