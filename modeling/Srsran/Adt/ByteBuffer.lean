import Mathlib.Algebra.Order.Ring.Int
import Srsran.Lib.Linked

/-! `byte_buffer` (`byte_buffer.h`, `byte_buffer.cpp`): bytes in a linked list of segments that is
held by a control block. Segments live in a memory and are never reused once destroyed, so that an
access to a destroyed one shows. Allocation succeeds; the memory resource decides how large a segment
gets. Writing a byte range through `std::copy` is list concatenation. -/
namespace Srsran.Adt

/-- Null or dangling pointers, failed assertions, and loops without end. -/
inductive ByteBufferFault where
  | nullSegment
  | danglingSegment
  | noTailroom
  | noHeadroom
  | endlessLoop
  deriving DecidableEq, Repr

/-- Span of bytes divided into headroom, payload and tailroom. -/
structure ByteBufferSegment where
  capacity : Nat
  headroom : Nat
  payload : List UInt8
  fits : headroom + payload.length ≤ capacity
  deriving DecidableEq, Repr

namespace ByteBufferSegment

/-- An empty segment with a headroom, as far as there is room for it. -/
def create (capacity headroom : Nat) : ByteBufferSegment where
  capacity
  headroom := min headroom capacity
  payload := []
  fits := Nat.min_le_right ..

def length (segm : ByteBufferSegment) : Nat := segm.payload.length

def tailroom (segm : ByteBufferSegment) : Nat := segm.capacity - (segm.headroom + segm.length)

def append (segm : ByteBufferSegment) (bytes : List UInt8) : Except ByteBufferFault ByteBufferSegment :=
  if h : bytes.length ≤ segm.tailroom then
    .ok
      { segm with
        payload := segm.payload ++ bytes
        fits := by
          have := segm.fits
          rw [List.length_append]
          unfold tailroom length at h
          omega }
  else .error .noTailroom

def prepend (segm : ByteBufferSegment) (bytes : List UInt8) : Except ByteBufferFault ByteBufferSegment :=
  if h : bytes.length ≤ segm.headroom then
    .ok
      { segm with
        headroom := segm.headroom - bytes.length
        payload := bytes ++ segm.payload
        fits := by
          have := segm.fits
          rw [List.length_append]
          omega }
  else .error .noHeadroom

end ByteBufferSegment

structure SegmentNode where
  segm : ByteBufferSegment
  next : Option Nat
  deriving DecidableEq, Repr

/-- The segments in memory, by address; addresses from `fresh` on were never used. -/
structure SegmentMemory where
  nodes : Nat → Option SegmentNode
  fresh : Nat
  unused : ∀ a, fresh ≤ a → nodes a = none

namespace SegmentMemory

def empty : SegmentMemory where
  nodes := fun _ => none
  fresh := 0
  unused := fun _ _ => rfl

def read (mem : SegmentMemory) : Option Nat → Except ByteBufferFault SegmentNode
  | none => .error .nullSegment
  | some a =>
    match mem.nodes a with
    | none => .error .danglingSegment
    | some node => .ok node

def alloc (mem : SegmentMemory) (segm : ByteBufferSegment) : Nat × SegmentMemory :=
  (mem.fresh,
    { nodes := Function.update mem.nodes mem.fresh (some { segm, next := none })
      fresh := mem.fresh + 1
      unused := by
        intro a ha
        rw [Function.update_of_ne (by omega)]
        exact mem.unused a (by omega) })

def write (mem : SegmentMemory) (a : Nat) (node : SegmentNode) : SegmentMemory where
  nodes := if a < mem.fresh then Function.update mem.nodes a (some node) else mem.nodes
  fresh := mem.fresh
  unused := by
    intro b hb
    split
    · rw [Function.update_of_ne (by omega)]
      exact mem.unused b hb
    · exact mem.unused b hb

def destroyNode (mem : SegmentMemory) (a : Nat) : SegmentMemory where
  nodes := Function.update mem.nodes a none
  fresh := mem.fresh
  unused := by
    intro b hb
    by_cases hba : b = a
    · rw [hba, Function.update_self]
    · rw [Function.update_of_ne hba]
      exact mem.unused b hb

def setNext (mem : SegmentMemory) (ptr next : Option Nat) : Except ByteBufferFault SegmentMemory := do
  let node ← mem.read ptr
  return mem.write (ptr.getD 0) { node with next }

def appendTo (mem : SegmentMemory) (ptr : Option Nat) (bytes : List UInt8) :
    Except ByteBufferFault SegmentMemory := do
  let node ← mem.read ptr
  let segm ← node.segm.append bytes
  return mem.write (ptr.getD 0) { node with segm }

def prependTo (mem : SegmentMemory) (ptr : Option Nat) (bytes : List UInt8) :
    Except ByteBufferFault SegmentMemory := do
  let node ← mem.read ptr
  let segm ← node.segm.prepend bytes
  return mem.write (ptr.getD 0) { node with segm }

def walk (mem : SegmentMemory) : Nat → Option Nat → Except ByteBufferFault (List ByteBufferSegment)
  | _, none => .ok []
  | 0, some _ => .error .endlessLoop
  | turns + 1, some a => do
    let node ← mem.read (some a)
    let rest ← mem.walk turns node.next
    return node.segm :: rest

def destroyAll : Nat → SegmentMemory → Option Nat → Except ByteBufferFault SegmentMemory
  | _, mem, none => .ok mem
  | 0, _, some _ => .error .endlessLoop
  | turns + 1, mem, some a => do
    let node ← mem.read (some a)
    destroyAll turns (mem.destroyNode a) node.next

end SegmentMemory

/-- Bytes that are left for the segment in an allocated block, by the memory resource, the number of
the allocation and the hint: with a node header in front, or with a control block too. Blocks are
larger than a node header. -/
structure SegmentPools where
  segmentSize : Nat → Nat → Nat → Nat
  headSegmentSize : Nat → Nat → Nat → Nat
  segmentSize_pos : ∀ pool index hint, 0 < hint → 0 < segmentSize pool index hint

/-- `get_default_byte_buffer_segment_pool`. -/
def defaultSegmentPool : Nat := 0

def defaultFirstSegmentHeadroom : Nat := 16

/-- `unique` says that no other buffer shares the control block. -/
structure ControlBlock where
  head : Option Nat := none
  tail : Option Nat := none
  pktLen : Nat := 0
  segmentInCbMemoryBlock : Nat
  unique : Bool := true
  segmentPool : Nat
  deriving DecidableEq, Repr

abbrev ByteBuffer := Option ControlBlock

def ByteBuffer.length : ByteBuffer → Nat
  | some cb => cb.pktLen
  | none => 0

namespace ControlBlock

def pushBack (cb : ControlBlock) (mem : SegmentMemory) (a : Nat) :
    Except ByteBufferFault (SegmentMemory × ControlBlock) := do
  let mem ← mem.setNext (some a) none
  if cb.head.isSome then
    let mem ← mem.setNext cb.tail (some a)
    return (mem, { cb with tail := some a })
  else return (mem, { cb with head := some a, tail := some a })

def pushFront (cb : ControlBlock) (mem : SegmentMemory) (a : Nat) :
    Except ByteBufferFault (SegmentMemory × ControlBlock) := do
  let mem ← mem.setNext (some a) cb.head
  return (mem, { cb with head := some a, tail := if cb.tail.isNone then some a else cb.tail })

def createSegment (cb : ControlBlock) (pools : SegmentPools) (mem : SegmentMemory) (headroom szHint : Nat) :
    Nat × SegmentMemory :=
  mem.alloc (.create (pools.segmentSize cb.segmentPool mem.fresh szHint) headroom)

def appendSegment (cb : ControlBlock) (pools : SegmentPools) (mem : SegmentMemory)
    (headroom szHint : Nat) : Except ByteBufferFault (SegmentMemory × ControlBlock) :=
  let (a, mem) := cb.createSegment pools mem headroom szHint
  cb.pushBack mem a

def prependSegment (cb : ControlBlock) (pools : SegmentPools) (mem : SegmentMemory)
    (headroom szHint : Nat) : Except ByteBufferFault (SegmentMemory × ControlBlock) :=
  let (a, mem) := cb.createSegment pools mem headroom szHint
  cb.pushFront mem a

/-- A new control block, with a first segment in its memory block. -/
def addHeadSegment (pools : SegmentPools) (mem : SegmentMemory) (headroom pool szHint : Nat) :
    SegmentMemory × ControlBlock :=
  let (a, mem) := mem.alloc (.create (pools.headSegmentSize pool mem.fresh szHint) headroom)
  (mem, { head := some a, tail := some a, segmentInCbMemoryBlock := a, segmentPool := pool })

def provideTailroom (cb : ControlBlock) (pools : SegmentPools) (mem : SegmentMemory) (szHint : Nat) :
    Except ByteBufferFault (SegmentMemory × ControlBlock) := do
  let tail ← mem.read cb.tail
  if tail.segm.tailroom = 0 then cb.appendSegment pools mem 0 szHint else return (mem, cb)

def provideHeadroom (cb : ControlBlock) (pools : SegmentPools) (mem : SegmentMemory) (szHint : Nat) :
    Except ByteBufferFault (SegmentMemory × ControlBlock) := do
  let head ← mem.read cb.head
  if head.segm.headroom = 0 then cb.prependSegment pools mem szHint szHint else return (mem, cb)

/-- Copies bytes to the tail segment, and to new ones when it is full. Both `append` of a span and of
a buffer do this; they differ in the hint, given what is left. -/
def fillTail (pools : SegmentPools) (szHint : Nat → Nat) :
    Nat → SegmentMemory → ControlBlock → List UInt8 →
      Except ByteBufferFault (SegmentMemory × ControlBlock)
  | _, mem, cb, [] => .ok (mem, cb)
  | 0, _, _, _ :: _ => .error .endlessLoop
  | turns + 1, mem, cb, byte :: rest => do
    let (mem, cb) ← cb.provideTailroom pools mem (szHint (rest.length + 1))
    let tail ← mem.read cb.tail
    let toWrite := min tail.segm.tailroom (rest.length + 1)
    let mem ← mem.appendTo cb.tail ((byte :: rest).take toWrite)
    fillTail pools szHint turns mem { cb with pktLen := cb.pktLen + toWrite }
      ((byte :: rest).drop toWrite)

/-- The loop of `append(const byte_buffer&)` over the segments of the other buffer. -/
def appendSegments (pools : SegmentPools) :
    SegmentMemory → ControlBlock → List ByteBufferSegment →
      Except ByteBufferFault (SegmentMemory × ControlBlock)
  | mem, cb, [] => .ok (mem, cb)
  | mem, cb, segm :: rest => do
    let (mem, cb) ← cb.fillTail pools (fun _ => segm.length) segm.length mem segm.payload
    appendSegments pools mem cb rest

/-- The loop of `prepend` of a span: the last bytes first, into the headroom of the head segment or
of new ones. -/
def fillHead (pools : SegmentPools) :
    Nat → SegmentMemory → ControlBlock → List UInt8 →
      Except ByteBufferFault (SegmentMemory × ControlBlock)
  | _, mem, cb, [] => .ok (mem, cb)
  | 0, _, _, _ :: _ => .error .endlessLoop
  | turns + 1, mem, cb, byte :: rest => do
    let (mem, cb) ← cb.provideHeadroom pools mem (rest.length + 1)
    let head ← mem.read cb.head
    let toWrite := min head.segm.headroom (rest.length + 1)
    let mem ← mem.prependTo cb.head ((byte :: rest).drop (rest.length + 1 - toWrite))
    fillHead pools turns mem { cb with pktLen := cb.pktLen + toWrite }
      ((byte :: rest).take (rest.length + 1 - toWrite))

def pushCopy (cb : ControlBlock) (pools : SegmentPools) (mem : SegmentMemory) (seg : List UInt8) :
    Except ByteBufferFault (SegmentMemory × ControlBlock) := do
  let (a, mem) := cb.createSegment pools mem 0 seg.length
  let mem ← mem.appendTo (some a) seg
  let mem ← mem.setNext (some a) cb.head
  return (mem, { cb with head := some a, pktLen := cb.pktLen + seg.length })

/-- The loop of `prepend(const byte_buffer&)` over the segments of the other buffer. -/
def prependCopies (pools : SegmentPools) :
    SegmentMemory → ControlBlock → List (List UInt8) →
      Except ByteBufferFault (SegmentMemory × ControlBlock)
  | mem, cb, [] => .ok (mem, cb)
  | mem, cb, seg :: rest => do
    let (mem, cb) ← cb.pushCopy pools mem seg
    prependCopies pools mem cb rest

/-- Drops the reference to a control block; the last one destroys the segments. -/
def release (cb : ControlBlock) (mem : SegmentMemory) : Except ByteBufferFault SegmentMemory :=
  if cb.unique then SegmentMemory.destroyAll mem.fresh mem cb.head else .ok mem

end ControlBlock

/-- The segments that the iteration over `segments()` lists: it skips empty ones at the front, and
ends when the bytes of the buffer are exhausted (a 32-bit count). -/
def spanSegments : Nat → List (List UInt8) → List (List UInt8)
  | _, [] => []
  | remaining, payload :: rest =>
    let span := payload.take remaining
    if remaining - payload.length = 0 then [span]
    else span :: spanSegments (remaining - payload.length) rest

namespace ByteBuffer

def segments (buf : ByteBuffer) (mem : SegmentMemory) : Except ByteBufferFault (List (List UInt8)) :=
  match buf with
  | none => .ok []
  | some cb => do
    let segms ← mem.walk mem.fresh cb.head
    return spanSegments (cb.pktLen % 2 ^ 32) ((segms.map (·.payload)).dropWhile (·.isEmpty))

def appendSpan (pools : SegmentPools) (mem : SegmentMemory) (buf : ByteBuffer) (bytes : List UInt8) :
    Except ByteBufferFault (SegmentMemory × ByteBuffer) :=
  if bytes = [] then .ok (mem, buf)
  else do
    let (mem, cb) := buf.elim
      (ControlBlock.addHeadSegment pools mem defaultFirstSegmentHeadroom defaultSegmentPool
        (bytes.length + defaultFirstSegmentHeadroom)) ((mem, ·))
    let (mem, cb) ← cb.fillTail pools id bytes.length mem bytes
    return (mem, some cb)

/-- The control block of the buffer, or a new one with the headroom of the buffer to be appended. -/
def orHeadSegment (pools : SegmentPools) (mem : SegmentMemory) (buf : ByteBuffer)
    (other : ControlBlock) : Except ByteBufferFault (SegmentMemory × ControlBlock) :=
  match buf with
  | some cb => .ok (mem, cb)
  | none => do
    let head ← mem.read other.head
    return ControlBlock.addHeadSegment pools mem head.segm.headroom defaultSegmentPool
      (head.segm.headroom + other.pktLen)

/-- `append(const byte_buffer&)`. -/
def appendCopy (pools : SegmentPools) (mem : SegmentMemory) (buf other : ByteBuffer) :
    Except ByteBufferFault (SegmentMemory × ByteBuffer) :=
  match other with
  | none => .ok (mem, buf)
  | some otherCb =>
    if otherCb.pktLen = 0 then .ok (mem, buf)
    else do
      let (mem, cb) ← buf.orHeadSegment pools mem otherCb
      let segms ← mem.walk mem.fresh otherCb.head
      let (mem, cb) ← cb.appendSegments pools mem segms
      return (mem, some cb)

def prependSpan (pools : SegmentPools) (mem : SegmentMemory) (buf : ByteBuffer) (bytes : List UInt8) :
    Except ByteBufferFault (SegmentMemory × ByteBuffer) :=
  match buf with
  | none => buf.appendSpan pools mem bytes
  | some cb =>
    if cb.pktLen = 0 then buf.appendSpan pools mem bytes
    else do
      let (mem, cb) ← cb.fillHead pools bytes.length mem bytes
      return (mem, some cb)

/-- `prepend(const byte_buffer&)`. -/
def prependCopy (pools : SegmentPools) (mem : SegmentMemory) (buf other : ByteBuffer) :
    Except ByteBufferFault (SegmentMemory × ByteBuffer) :=
  if other.length = 0 then .ok (mem, buf)
  else
    match buf with
    | none => buf.appendCopy pools mem other
    | some cb =>
      if cb.pktLen = 0 then buf.appendCopy pools mem other
      else do
        let spans ← other.segments mem
        let (mem, cb) ← cb.prependCopies pools mem spans
        return (mem, some cb)

end ByteBuffer

/-- The loop that looks for the link to a node and makes it a link to another one. -/
def SegmentMemory.replaceLink (old new : Nat) :
    Nat → SegmentMemory → Option Nat → Except ByteBufferFault SegmentMemory
  | 0, _, _ => .error .endlessLoop
  | turns + 1, mem, ptr => do
    let node ← mem.read ptr
    if node.next = none then return mem
    else if node.next = some old then mem.setNext ptr (some new)
    else replaceLink old new turns mem node.next

namespace ControlBlock

/-- Puts the copy of the segment in the memory block of the control block of the other buffer in its
place. If it was not the head, the head of this buffer stays. -/
def linkCopy (cb : ControlBlock) (mem : SegmentMemory) (other : ControlBlock) (a : Nat) :
    Except ByteBufferFault (SegmentMemory × ControlBlock) :=
  if other.head = some other.segmentInCbMemoryBlock then .ok (mem, { cb with head := some a })
  else do
    let mem ← mem.replaceLink other.segmentInCbMemoryBlock a mem.fresh other.head
    return (mem, cb)

/-- The first part of the shallow copy: the segment of the other buffer that shares the memory block
of its control block is copied, and the tail of the other buffer is linked to the head of this one. -/
def copyOwnSegment (cb : ControlBlock) (pools : SegmentPools) (mem : SegmentMemory)
    (other : ControlBlock) : Except ByteBufferFault (Nat × SegmentMemory) := do
  let own ← mem.read (some other.segmentInCbMemoryBlock)
  let (a, mem) := cb.createSegment pools mem 0 own.segm.length
  let mem ← mem.appendTo (some a) own.segm.payload
  let mem ← mem.setNext other.tail cb.head
  let own ← mem.read (some other.segmentInCbMemoryBlock)
  let mem ← mem.setNext (some a) own.next
  return (a, mem)

/-- The shallow copy in `prepend(byte_buffer&&)`. The other buffer is left with the segment that was
copied, and released. -/
def splice (cb : ControlBlock) (pools : SegmentPools) (mem : SegmentMemory) (other : ControlBlock) :
    Except ByteBufferFault (SegmentMemory × ControlBlock) := do
  let own := other.segmentInCbMemoryBlock
  let (a, mem) ← cb.copyOwnSegment pools mem other
  let (mem, cb) ← { cb with pktLen := cb.pktLen + other.pktLen }.linkCopy mem other a
  let mem ← mem.setNext (some own) none
  let mem ← { other with head := some own, tail := some own }.release mem
  return (mem, cb)

end ControlBlock

namespace ByteBuffer

/-- `append(byte_buffer&&)` to an empty buffer, which takes over the control block. -/
def moveInto (mem : SegmentMemory) (buf other : ByteBuffer) :
    Except ByteBufferFault (SegmentMemory × ByteBuffer × ByteBuffer) := do
  let mem ← buf.elim (.ok mem) (·.release mem)
  return (mem, other, none)

/-- `prepend(byte_buffer&&)`, with what is left of the other buffer. -/
def prependMove (pools : SegmentPools) (mem : SegmentMemory) (buf other : ByteBuffer) :
    Except ByteBufferFault (SegmentMemory × ByteBuffer × ByteBuffer) :=
  match other with
  | none => .ok (mem, buf, other)
  | some otherCb =>
    if otherCb.pktLen = 0 then .ok (mem, buf, other)
    else
      match buf with
      | none => buf.moveInto mem other
      | some cb =>
        if cb.pktLen = 0 then buf.moveInto mem other
        else if otherCb.unique = false ∨ otherCb.segmentPool ≠ cb.segmentPool then do
          let (mem, buf) ← buf.prependCopy pools mem other
          return (mem, buf, other)
        else do
          let (mem, cb) ← cb.splice pools mem otherCb
          return (mem, some cb, none)

end ByteBuffer
end Srsran.Adt
