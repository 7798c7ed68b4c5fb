import Srsran.Ran.SlotPoint

/-! The pool of receive HARQ buffers (`rx_buffer_pool_impl.h`, `rx_buffer_impl.h`,
`rx_buffer_codeblock_pool.h`). The contents of codeblocks and the limit of codeblocks in a buffer are left
out. The interface allows no simultaneous calls of `reserve` and `run_slot`, and a step is one call. -/
namespace Srsran.Phy
open Ran

inductive RxBufferState where
  | available
  | reserved
  | locked
  deriving DecidableEq, Repr

inductive RxBufferStatus where
  | successful
  | alreadyInUse
  | insufficientCb
  deriving DecidableEq, Repr

/-- A buffer of the pool with its identifier, which may be invalid, and its expiration. -/
structure RxBuffer where
  currentState : RxBufferState := .available
  crc : List Bool := []
  codeblockIds : List Nat := []
  identifier : Option Nat := none
  expiration : SlotPoint := .invalid
  deriving DecidableEq, Repr

def freeExcess (nofCodeblocks : Nat) (freeList codeblockIds : List Nat) : List Nat × List Nat :=
  (freeList ++ (codeblockIds.drop nofCodeblocks).reverse, codeblockIds.take nofCodeblocks)

/-- Reserves codeblocks one by one, and tells whether there were enough. -/
def takeCodeblocks : Nat → List Nat → List Nat → List Nat × List Nat × Bool
  | 0, freeList, codeblockIds => (freeList, codeblockIds, true)
  | _ + 1, [], codeblockIds => ([], codeblockIds, false)
  | missing + 1, cbId :: freeList, codeblockIds => takeCodeblocks missing freeList (codeblockIds ++ [cbId])

def resizeCrc (crc : List Bool) (size : Nat) : List Bool :=
  crc.take size ++ List.replicate (size - crc.length) false

namespace RxBuffer

def reserve (buffer : RxBuffer) (freeList : List Nat) (nofCodeblocks : Nat) (resetCrc : Bool) :
    List Nat × RxBuffer × RxBufferStatus :=
  if buffer.currentState = .locked then (freeList, buffer, .alreadyInUse)
  else
    let (free, ids) := freeExcess nofCodeblocks freeList buffer.codeblockIds
    match takeCodeblocks (nofCodeblocks - ids.length) free ids with
    | (free, ids, false) =>
      (free ++ ids, { buffer with codeblockIds := [], currentState := .available }, .insufficientCb)
    | (free, ids, true) =>
      let crc := resizeCrc buffer.crc nofCodeblocks
      (free, { buffer with
        codeblockIds := ids
        crc := if resetCrc then crc.map fun _ => false else crc
        currentState := .reserved }, .successful)

/-- `slot_point::operator<=` with an expiration that may be null. -/
def expiredAt (buffer : RxBuffer) (slot : SlotPoint) : Bool :=
  buffer.expiration != .invalid && (buffer.expiration == slot || buffer.expiration.lt slot)

def runSlot (buffer : RxBuffer) (freeList : List Nat) (slot : SlotPoint) (expireTimeoutSlots : Nat) :
    List Nat × RxBuffer :=
  if buffer.identifier = none then (freeList, buffer)
  else if buffer.currentState = .locked then
    (freeList, { buffer with expiration := slot.add expireTimeoutSlots })
  else if buffer.expiredAt slot then
    if buffer.currentState = .reserved then
      (freeList ++ buffer.codeblockIds, { buffer with
        currentState := .available
        codeblockIds := []
        identifier := none
        expiration := .invalid })
    else (freeList, buffer)
  else if buffer.currentState = .available then
    (freeList, { buffer with identifier := none, expiration := .invalid })
  else (freeList, buffer)

end RxBuffer

/-- What happens to the reservations of an identifier, with the codeblocks and their CRCs. -/
inductive RxBufferAction where
  | reserved (id : Nat) (newData : Bool) (index : Nat) (content : List Nat × List Bool)
  | unlocked (id : Option Nat) (content : List Nat × List Bool)
  | released (id : Option Nat)
  deriving DecidableEq, Repr

structure RxBufferPool where
  stopped : Bool := false
  freeList : List Nat
  buffers : List RxBuffer
  expireTimeoutSlots : Nat
  history : List RxBufferAction := []
  deriving DecidableEq, Repr

inductive RxBufferEvent where
  | reserve (slot : SlotPoint) (id : Nat) (nofCodeblocks : Nat) (newData : Bool)
  /-- The holder of a buffer sets the CRCs. -/
  | setCrc (index : Nat) (crc : List Bool)
  | unlock (index : Nat)
  | release (index : Nat)
  | runSlot (slot : SlotPoint)
  | stop
  deriving DecidableEq, Repr

namespace RxBufferPool
variable (s : RxBufferPool)

def create (nofBuffers nofCodeblocks expireTimeoutSlots : Nat) : RxBufferPool where
  freeList := List.range nofCodeblocks
  buffers := List.replicate nofBuffers {}
  expireTimeoutSlots := expireTimeoutSlots

/-- The end of `reserve`, with the buffer at `index`: a buffer that is reserved is locked at once. -/
def reserveAt (index : Nat) (buffer : RxBuffer) (slot : SlotPoint) (id nofCodeblocks : Nat)
    (newData : Bool) : RxBufferPool :=
  if !newData && nofCodeblocks != buffer.crc.length then s
  else
    match buffer.reserve s.freeList nofCodeblocks newData with
    | (freeList, buffer, .successful) =>
      { s with
        freeList := freeList
        buffers := s.buffers.set index { buffer with
          identifier := some id
          expiration := slot.add s.expireTimeoutSlots
          currentState := .locked }
        history := s.history ++ [.reserved id newData index (buffer.codeblockIds, buffer.crc)] }
    | (freeList, buffer, _) => { s with freeList := freeList, buffers := s.buffers.set index buffer }

def findIdentifier (identifier : Option Nat) : Option Nat :=
  s.buffers.findIdx? (·.identifier = identifier)

/-- The buffer that has the identifier, or for new data one that has none. -/
def findBuffer (id : Nat) (newData : Bool) : Option Nat :=
  match s.findIdentifier (some id) with
  | some index => some index
  | none => if newData then s.findIdentifier none else none

def reserve (slot : SlotPoint) (id nofCodeblocks : Nat) (newData : Bool) : RxBufferPool :=
  if s.stopped then s
  else
    match s.findBuffer id newData with
    | none => s
    | some index =>
      match s.buffers[index]? with
      | none => s
      | some buffer => s.reserveAt index buffer slot id nofCodeblocks newData

/-- The buffer at `index`, if it is locked and so has a holder. -/
def held (index : Nat) : Option RxBuffer :=
  s.buffers[index]?.filter (·.currentState = .locked)

def setCrc (index : Nat) (crc : List Bool) : Option RxBufferPool :=
  (s.held index).bind fun buffer =>
    if crc.length = buffer.crc.length then
      some { s with buffers := s.buffers.set index { buffer with crc := crc } }
    else none

def unlock (index : Nat) : Option RxBufferPool :=
  (s.held index).map fun buffer =>
    { s with
      buffers := s.buffers.set index { buffer with currentState := .reserved }
      history := s.history ++ [.unlocked buffer.identifier (buffer.codeblockIds, buffer.crc)] }

def release (index : Nat) : Option RxBufferPool :=
  (s.held index).map fun buffer =>
    { s with
      freeList := s.freeList ++ buffer.codeblockIds
      buffers := s.buffers.set index { buffer with codeblockIds := [], currentState := .available }
      history := s.history ++ [.released buffer.identifier] }

def runSlotLoop (slot : SlotPoint) (expireTimeoutSlots : Nat) :
    List RxBuffer → List Nat → List Nat × List RxBuffer
  | [], freeList => (freeList, [])
  | buffer :: rest, freeList =>
    let (freeList, buffer) := buffer.runSlot freeList slot expireTimeoutSlots
    let (freeList, rest) := runSlotLoop slot expireTimeoutSlots rest freeList
    (freeList, buffer :: rest)

def runSlot (slot : SlotPoint) : RxBufferPool :=
  let (freeList, buffers) := runSlotLoop slot s.expireTimeoutSlots s.buffers s.freeList
  { s with freeList := freeList, buffers := buffers }

def stop : RxBufferPool := { s with stopped := true }

def next (s : RxBufferPool) : RxBufferEvent → Option RxBufferPool
  | .reserve slot id nofCodeblocks newData => some (s.reserve slot id nofCodeblocks newData)
  | .setCrc index crc => s.setCrc index crc
  | .unlock index => s.unlock index
  | .release index => s.release index
  | .runSlot slot => some (s.runSlot slot)
  | .stop => some s.stop

end RxBufferPool

end Srsran.Phy
