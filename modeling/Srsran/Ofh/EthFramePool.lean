import Mathlib.Logic.Function.Basic
import Srsran.Ofh.SlotSymbolPoint
import Srsran.Ofh.UplaneMessage

/-! The pool of Ethernet frames (`ethernet_frame_pool.h`) with its encoders, the transmitter and
`clear_slot`. A step is one push or pop of a queue or one exchange of a buffer's state, with what the
thread then does on its own data. -/
namespace Srsran.Ofh
open Ran

def maxEthFrameLength : Nat := 9600

def minEthFrameLength : Nat := 64

def maxTxBurstSize : Nat := 128

def maxNofSupportedEaxc : Nat := 4

def numSlots : Nat := 20

def numEntries : Nat := nofOfdmSymPerSlotNormalCp * numSlots

inductive MessageType where
  | controlPlane
  | userPlane
  deriving DecidableEq, Repr

inductive BufferState where
  | free
  | reserved
  | pending
  | queued
  deriving DecidableEq, Repr

/-- A buffer of the pool: its entry and its index there. -/
structure BufferId where
  entry : Fin numEntries
  idx : Nat
  deriving DecidableEq, Repr

/-- `frame_buffer`. The frames that are written are numbered, and `frame` is the number of the last one. -/
structure FrameBuffer where
  state : BufferState := .free
  size : Nat := 0
  reservationSymbolPoint : Option SlotSymbolPoint := none
  frame : Nat := 0
  deriving DecidableEq, Repr

def writtenSize (newSize : Nat) : Nat := if newSize < minEthFrameLength then minEthFrameLength else newSize

theorem writtenSize_pos (newSize : Nat) : 0 < writtenSize newSize := by
  rw [writtenSize, minEthFrameLength]
  split <;> omega

inductive Destination where
  | freeList
  | pendingList
  deriving DecidableEq, Repr

/-- A call in progress, with the buffers it holds. -/
inductive PoolCall where
  /-- `reserve` has popped the index. -/
  | reserving (id : BufferId) (symbolPoint : SlotSymbolPoint)
  /-- An encoder owns the buffer. -/
  | encoding (id : BufferId)
  /-- `enqueue_pending_into_burst`, with the entries to come. The burst held `others` before. -/
  | enqueueing (entries : List (Fin numEntries)) (popped : Option BufferId) (burst : List BufferId) (others : Nat)
  /-- `pop_pending` of `clear_slot`, with the symbols to come. -/
  | popping (slot : SlotPoint) (symbol : Nat) (symbols : List Nat) (burst : List BufferId) (nofLates : Nat)
  /-- The loop of `clear_slot` over the burst. -/
  | judging (slot : SlotPoint) (symbols : List Nat) (rest checked : List BufferId) (nofLates : Nat)
  /-- The deleters at the end of a scope, and the rest of `clear_slot`. -/
  | leaving (moving : Option (BufferId × Destination)) (burst : List BufferId)
      (clearing : Option (SlotPoint × List Nat)) (nofLates : Nat)
  | returned (nofLates : Nat)
  deriving DecidableEq, Repr

inductive PoolFault where
  | invalidState
  | invalidIndex
  | fullBurst
  deriving DecidableEq, Repr

/-- What became of a frame: put into a transmission burst, or found late when a slot was cleared. -/
inductive FrameOutcome where
  | sent
  | late (cleared : SlotPoint)
  deriving DecidableEq, Repr

/-- The interval of `frame_pool_interval`, whose ends have one numerology. -/
structure FramePoolInterval where
  start : SlotSymbolPoint
  finish : SlotSymbolPoint
  sameNumerology : start.numerology = finish.numerology

/-- `filled` has the slot and symbol for which each frame was written, and `settled` what became of the
frames, in the order in which it did. -/
structure EthFramePool where
  nofBuffers : Nat
  poolFramesType : MessageType
  poolFramesDataDirection : DataDirection
  buffers : BufferId → FrameBuffer
  freeList : Fin numEntries → List Nat
  pendingList : Fin numEntries → List Nat
  calls : List PoolCall
  fault : Option PoolFault
  filled : List (Option SlotSymbolPoint)
  settled : List (Nat × FrameOutcome)

inductive FramePoolEvent where
  | reserve (symbolPoint : SlotSymbolPoint)
  /-- An encoder writes its frame. -/
  | setSize (call : Nat) (newSize : Fin (maxEthFrameLength + 1))
  /-- The buffer of an encoder goes out of scope. -/
  | endScope (call : Nat)
  /-- The transmitter's burst may hold frames of other pools already. -/
  | enqueuePending (interval : FramePoolInterval) (others : Fin (maxTxBurstSize + 1))
  | clearSlot (slot : SlotPoint)
  /-- A call goes on. -/
  | step (call : Nat)

namespace EthFramePool
variable (s : EthFramePool)

def getPoolEntry (slot : SlotPoint) (symbol : Nat) : Fin numEntries where
  val := (slot.count % nofSlotsPerFrame slot.numerology * nofOfdmSymPerSlotNormalCp + symbol) % numEntries
  isLt := Nat.mod_lt _ (by decide)

def entryOf (point : SlotSymbolPoint) : Fin numEntries := getPoolEntry point.getSlot point.getSymbolIndex

def create (numOfFrames : Nat) (type : MessageType) (direction : DataDirection) : EthFramePool where
  nofBuffers := numOfFrames * maxNofSupportedEaxc * 2 * 2
  poolFramesType := type
  poolFramesDataDirection := direction
  buffers := fun _ => {}
  freeList := fun _ => List.range (numOfFrames * maxNofSupportedEaxc * 2 * 2)
  pendingList := fun _ => []
  calls := []
  fault := none
  filled := []
  settled := []

/-- The symbols that `clear_slot` visits after the first one. -/
def otherSymbols : List Nat :=
  if s.poolFramesType = .controlPlane ∧ s.poolFramesDataDirection = .downlink then []
  else List.range' 1 (nofOfdmSymPerSlotNormalCp - 1)

def intervalEntries (interval : FramePoolInterval) : List (Fin numEntries) :=
  if interval.start.gt interval.finish then []
  else (List.range (interval.finish.diff interval.start + 1).toNat).map fun i =>
    entryOf (interval.start.add i)

def setCall (call : Nat) (c : PoolCall) : EthFramePool := { s with calls := s.calls.set call c }

def setBuffer (id : BufferId) (buffer : FrameBuffer) : EthFramePool :=
  { s with buffers := Function.update s.buffers id buffer }

def fail (fault : PoolFault) : EthFramePool := { s with fault := some fault }

def settle (id : BufferId) (outcome : FrameOutcome) : EthFramePool :=
  { s with settled := s.settled ++ [((s.buffers id).frame, outcome)] }

def pushFree (id : BufferId) : EthFramePool :=
  { s with freeList := Function.update s.freeList id.entry (s.freeList id.entry ++ [id.idx]) }

def pushPending (id : BufferId) : EthFramePool :=
  { s with pendingList := Function.update s.pendingList id.entry (s.pendingList id.entry ++ [id.idx]) }

/-- `reserve` up to the pop of the free list. -/
def reserve (symbolPoint : SlotSymbolPoint) : EthFramePool :=
  let entry := entryOf symbolPoint
  match s.freeList entry with
  | [] => s
  | idx :: rest =>
    { s with
      freeList := Function.update s.freeList entry rest
      calls := s.calls ++ [.reserving ⟨entry, idx⟩ symbolPoint] }

def takeReserved (call : Nat) (id : BufferId) (symbolPoint : SlotSymbolPoint) : EthFramePool :=
  let buffer := s.buffers id
  if buffer.state ≠ .free then s.fail .invalidState
  else
    (s.setBuffer id { buffer with
      state := .reserved
      size := 0
      reservationSymbolPoint := some symbolPoint }).setCall call (.encoding id)

def setSize (call : Nat) (id : BufferId) (newSize : Nat) : EthFramePool :=
  let buffer := s.buffers id
  { s.setBuffer id { buffer with size := writtenSize newSize, frame := s.filled.length } with
    filled := s.filled ++ [buffer.reservationSymbolPoint]
    calls := s.calls.set call (.encoding id) }

/-- The pop of `enqueue_pending`; an empty list ends its loop. -/
def popToQueue (call : Nat) (entry : Fin numEntries) (entries : List (Fin numEntries))
    (burst : List BufferId) (others : Nat) : EthFramePool :=
  match s.pendingList entry with
  | [] => s.setCall call (.enqueueing entries none burst others)
  | idx :: rest =>
    if s.nofBuffers ≤ idx then s.fail .invalidIndex
    else
      { s with
        pendingList := Function.update s.pendingList entry rest
        calls := s.calls.set call (.enqueueing (entry :: entries) (some ⟨entry, idx⟩) burst others) }

/-- The state exchange of `enqueue_pending`, and the new element of the burst. -/
def queue (call : Nat) (id : BufferId) (entries : List (Fin numEntries)) (burst : List BufferId)
    (others : Nat) : EthFramePool :=
  let buffer := s.buffers id
  if buffer.state ≠ .pending then s.fail .invalidState
  else if maxTxBurstSize ≤ others + burst.length then s.fail .fullBurst
  else
    ((s.settle id .sent).setBuffer id { buffer with state := .queued }).setCall call
      (.enqueueing entries none (burst ++ [id]) others)

/-- The pop of `pop_pending` with the new element of the burst; an empty list ends its loop. -/
def popToClear (call : Nat) (slot : SlotPoint) (symbol : Nat) (symbols : List Nat) (burst : List BufferId)
    (nofLates : Nat) : EthFramePool :=
  let entry := getPoolEntry slot symbol
  match s.pendingList entry with
  | [] => s.setCall call (.judging slot symbols burst [] nofLates)
  | idx :: rest =>
    if s.nofBuffers ≤ idx then s.fail .invalidIndex
    else if maxTxBurstSize ≤ burst.length then s.fail .fullBurst
    else
      { s with
        pendingList := Function.update s.pendingList entry rest
        calls := s.calls.set call (.popping slot symbol symbols (burst ++ [⟨entry, idx⟩]) nofLates) }

/-- One buffer of the burst of `clear_slot`: it is late, or goes back with the state exchange of
`return_to_pending`. -/
def judge (call : Nat) (slot : SlotPoint) (symbols : List Nat) (id : BufferId) (rest checked : List BufferId)
    (nofLates : Nat) : EthFramePool :=
  let buffer := s.buffers id
  if buffer.reservationSymbolPoint.map (·.getSlot) ≠ some slot then
    (s.settle id (.late slot)).setCall call (.judging slot symbols rest (checked ++ [id]) (nofLates + 1))
  else if buffer.state ≠ .pending then s.fail .invalidState
  else
    (s.setBuffer id { buffer with state := .reserved }).setCall call
      (.judging slot symbols rest (checked ++ [id]) nofLates)

def updateState (call : Nat) (id : BufferId) (burst : List BufferId)
    (clearing : Option (SlotPoint × List Nat)) (nofLates : Nat) : EthFramePool :=
  let buffer := s.buffers id
  match buffer.state with
  | .reserved =>
    if buffer.size = 0 then
      (s.setBuffer id { buffer with state := .free }).setCall call
        (.leaving (some (id, .freeList)) burst clearing nofLates)
    else
      (s.setBuffer id { buffer with state := .pending }).setCall call
        (.leaving (some (id, .pendingList)) burst clearing nofLates)
  | .pending | .queued =>
    (s.setBuffer id { buffer with state := .free }).setCall call
      (.leaving (some (id, .freeList)) burst clearing nofLates)
  | .free => s.setCall call (.leaving none burst clearing nofLates)

/-- The push of `put_to_pending_queue`, or of `free`, which is tried until there is room. -/
def putBack (call : Nat) (id : BufferId) (burst : List BufferId) (clearing : Option (SlotPoint × List Nat))
    (nofLates : Nat) : Destination → EthFramePool
  | .pendingList =>
    if (s.pendingList id.entry).length < s.nofBuffers then
      (s.pushPending id).setCall call (.leaving none burst clearing nofLates)
    else s.setCall call (.leaving (some (id, .freeList)) burst clearing nofLates)
  | .freeList =>
    if (s.freeList id.entry).length < s.nofBuffers then
      (s.pushFree id).setCall call (.leaving none burst clearing nofLates)
    else s

def stepCall (call : Nat) : PoolCall → Option EthFramePool
  | .reserving id symbolPoint => some (s.takeReserved call id symbolPoint)
  | .encoding _ => none
  | .enqueueing entries (some id) burst others => some (s.queue call id entries burst others)
  | .enqueueing (entry :: entries) none burst others => some (s.popToQueue call entry entries burst others)
  | .enqueueing [] none burst _ => some (s.setCall call (.leaving none burst none 0))
  | .popping slot symbol symbols burst nofLates =>
    some (s.popToClear call slot symbol symbols burst nofLates)
  | .judging slot symbols (id :: rest) checked nofLates =>
    some (s.judge call slot symbols id rest checked nofLates)
  | .judging slot symbols [] checked nofLates =>
    some (s.setCall call (.leaving none checked (some (slot, symbols)) nofLates))
  | .leaving (some (id, destination)) burst clearing nofLates =>
    some (s.putBack call id burst clearing nofLates destination)
  | .leaving none (id :: burst) clearing nofLates => some (s.updateState call id burst clearing nofLates)
  | .leaving none [] (some (slot, symbol :: symbols)) nofLates =>
    some (s.setCall call (.popping slot symbol symbols [] nofLates))
  | .leaving none [] (some (_, [])) nofLates | .leaving none [] none nofLates =>
    some (s.setCall call (.returned nofLates))
  | .returned _ => none

/-- The encoder of a call, if it has not written its frame yet. -/
def encoderOf (call : Nat) : Option BufferId :=
  match s.calls[call]? with
  | some (.encoding id) => some id
  | _ => none

def next (event : FramePoolEvent) : Option EthFramePool :=
  if s.fault.isSome then none
  else
    match event with
    | .reserve symbolPoint => some (s.reserve symbolPoint)
    | .setSize call newSize =>
      (s.encoderOf call).bind fun id =>
        if (s.buffers id).size = 0 then some (s.setSize call id newSize) else none
    | .endScope call => (s.encoderOf call).map fun id => s.setCall call (.leaving none [id] none 0)
    | .enqueuePending interval others =>
      some { s with calls := s.calls ++ [.enqueueing (intervalEntries interval) none [] others] }
    | .clearSlot slot => some { s with calls := s.calls ++ [.popping slot 0 s.otherSymbols [] 0] }
    | .step call => s.calls[call]?.bind fun c => s.stepCall call c

end EthFramePool

end Srsran.Ofh
