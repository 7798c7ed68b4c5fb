import Mathlib.Algebra.Order.Ring.Int
import Mathlib.Logic.Function.Basic
import Mathlib.Tactic.Common

/-! The queue of SDUs towards the transmitter (`rlc_sdu_queue_lockfree.h`): a ring of SDUs, a side
table indexed by PDCP SN modulo the capacity that supports discarding, and the packed totals. This
module has the memory, its atomic accesses and the operations as one thread runs them. -/
namespace Srsran.Rlc

structure RlcSdu where
  buf : List UInt8 := []
  isRetx : Bool := false
  pdcpSn : Option Nat := none
  deriving DecidableEq, Repr

def stateFree : Nat := 0xffffffff

def stateDiscarded : Nat := 0xfffffffe

structure RlcSduQueueConfig where
  capacity : UInt32
  byteLimit : UInt32
  capacity_pos : 0 < capacity.toNat := by decide

/-- `state` packs the number of SDUs above the 32 bits of the number of bytes. -/
structure RlcSduQueue where
  cfg : RlcSduQueueConfig
  queue : List RlcSdu := []
  sduStates : Nat → Nat := fun _ => stateFree
  sduSizes : Nat → Nat := fun _ => 0
  state : Nat := 0

namespace RlcSduQueue

def slot (q : RlcSduQueue) (pdcpSn : Nat) : Nat := pdcpSn % q.cfg.capacity.toNat

def nBytes (q : RlcSduQueue) : Nat := q.state &&& 0xffffffff

def nSdus (q : RlcSduQueue) : Nat := q.state >>> 32

/-- One SDU of the given size in the packed totals; the size is converted to 32 bits. -/
def stateChange (sduSize : Nat) : Nat := 1 <<< 32 ||| sduSize % 2 ^ 32

def stateAdd (q : RlcSduQueue) (sduSize : Nat) : RlcSduQueue :=
  { q with state := (q.state + stateChange sduSize) % 2 ^ 64 }

def stateSub (q : RlcSduQueue) (sduSize : Nat) : RlcSduQueue :=
  { q with state := (q.state + (2 ^ 64 - stateChange sduSize)) % 2 ^ 64 }

def isFull (q : RlcSduQueue) : Bool := q.queue.length ≥ q.cfg.capacity.toNat

def isEmpty (q : RlcSduQueue) : Bool := q.queue.isEmpty

def push (q : RlcSduQueue) (sdu : RlcSdu) : RlcSduQueue := { q with queue := q.queue ++ [sdu] }

def storeSize (q : RlcSduQueue) (pdcpSn sduSize : Nat) : RlcSduQueue :=
  { q with sduSizes := Function.update q.sduSizes (q.slot pdcpSn) sduSize }

def storeState (q : RlcSduQueue) (pdcpSn state : Nat) : RlcSduQueue :=
  { q with sduStates := Function.update q.sduStates (q.slot pdcpSn) state }

def withinLimit (q : RlcSduQueue) (sdu : RlcSdu) : Bool :=
  sdu.buf.length + q.nBytes < q.cfg.byteLimit.toNat

def allocateSlot (q : RlcSduQueue) (pdcpSn sduSize : Nat) : RlcSduQueue :=
  (q.storeSize pdcpSn sduSize).storeState pdcpSn pdcpSn

def write (q : RlcSduQueue) (sdu : RlcSdu) : RlcSduQueue × Bool :=
  if !q.withinLimit sdu then (q, false)
  else
    match sdu.pdcpSn with
    | none => if q.isFull then (q, false) else ((q.push sdu).stateAdd sdu.buf.length, true)
    | some pdcpSn =>
      if q.sduStates (q.slot pdcpSn) ≠ stateFree then (q, false)
      else if q.isFull then
        ((q.allocateSlot pdcpSn sdu.buf.length).storeState pdcpSn stateFree, false)
      else (((q.allocateSlot pdcpSn sdu.buf.length).push sdu).stateAdd sdu.buf.length, true)

def tryDiscard (q : RlcSduQueue) (pdcpSn : Nat) : RlcSduQueue × Bool :=
  if q.sduStates (q.slot pdcpSn) = pdcpSn then
    ((q.storeState pdcpSn stateDiscarded).stateSub (q.sduSizes (q.slot pdcpSn)), true)
  else (q, false)

/-- Releases the slot of a popped SDU and says whether the SDU is still valid. The totals were
already updated for a discarded one. -/
def checkAndRelease (q : RlcSduQueue) (pdcpSn : Nat) : RlcSduQueue × Bool :=
  let released := q.storeState pdcpSn stateFree
  if q.sduStates (q.slot pdcpSn) = stateDiscarded ∧ stateDiscarded ≠ pdcpSn then (released, false)
  else (released.stateSub (q.sduSizes (q.slot pdcpSn)), q.sduStates (q.slot pdcpSn) = pdcpSn)

/-- Takes the front SDU out; returns it unless it was discarded. -/
def readFront (q : RlcSduQueue) (sdu : RlcSdu) : RlcSduQueue × Bool :=
  match sdu.pdcpSn with
  | none => (q.stateSub sdu.buf.length, true)
  | some pdcpSn => q.checkAndRelease pdcpSn

def readLoop : List RlcSdu → RlcSduQueue → RlcSduQueue × Option RlcSdu
  | [], q => ({ q with queue := [] }, none)
  | sdu :: rest, q =>
    match readFront { q with queue := rest } sdu with
    | (q', true) => (q', some sdu)
    | (q', false) => readLoop rest q'

def read (q : RlcSduQueue) : RlcSduQueue × Option RlcSdu := readLoop q.queue q

/-- The loop of `front`: discarded SDUs are removed, a valid one stays in the ring. -/
def frontLoop : List RlcSdu → RlcSduQueue → RlcSduQueue × Option RlcSdu
  | [], q => ({ q with queue := [] }, none)
  | sdu :: rest, q =>
    match sdu.pdcpSn with
    | none => ({ q with queue := sdu :: rest }, some sdu)
    | some pdcpSn =>
      if q.sduStates (q.slot pdcpSn) = pdcpSn then ({ q with queue := sdu :: rest }, some sdu)
      else frontLoop rest (checkAndRelease { q with queue := rest } pdcpSn).1

def front (q : RlcSduQueue) : RlcSduQueue × Option RlcSdu := frontLoop q.queue q

@[simp] theorem queue_readFront (q : RlcSduQueue) (sdu : RlcSdu) :
    (q.readFront sdu).1.queue = q.queue := by
  unfold readFront checkAndRelease
  split
  · rfl
  · split <;> rfl

theorem read_nil {q : RlcSduQueue} (h : q.queue = []) : q.read = (q, none) := by
  rw [RlcSduQueue.read, h, readLoop, ← h]

theorem read_cons {q : RlcSduQueue} {sdu : RlcSdu} {rest : List RlcSdu}
    (h : q.queue = sdu :: rest) :
    q.read =
      if (readFront { q with queue := rest } sdu).2 then
        ((readFront { q with queue := rest } sdu).1, some sdu)
      else (readFront { q with queue := rest } sdu).1.read := by
  have hqueue := queue_readFront { q with queue := rest } sdu
  rw [RlcSduQueue.read, h, readLoop]
  generalize readFront { q with queue := rest } sdu = r at *
  obtain ⟨q', valid⟩ := r
  cases valid with
  | true => rfl
  | false =>
    have hrest : q'.queue = rest := hqueue
    show readLoop rest q' = q'.read
    rw [RlcSduQueue.read, hrest]

end RlcSduQueue
end Srsran.Rlc
