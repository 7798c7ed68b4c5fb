import Srsran.Rlc.Config

/-! Queue of the retransmissions that the AM transmitter has to send (`rlc_retx_queue.h`). -/
namespace Srsran.Rlc

structure RlcTxAmdRetx where
  sn : Nat := invalidRlcSn
  so : Nat := 0
  length : Nat := 0
  deriving DecidableEq, Repr

/-- Payload bytes, and the numbers of retransmissions with a small and with a large header. -/
structure RlcRetxQueueState where
  retxBytes : Nat := 0
  nRetxSoZero : Nat := 0
  nRetxSoNonzero : Nat := 0
  deriving DecidableEq, Repr

namespace RlcRetxQueueState

def add (st : RlcRetxQueueState) (elem : RlcTxAmdRetx) : RlcRetxQueueState where
  retxBytes := (st.retxBytes + elem.length) % 2 ^ 32
  nRetxSoZero := if elem.so = 0 then (st.nRetxSoZero + 1) % 2 ^ 32 else st.nRetxSoZero
  nRetxSoNonzero := if elem.so = 0 then st.nRetxSoNonzero else (st.nRetxSoNonzero + 1) % 2 ^ 32

def subtract (st : RlcRetxQueueState) (elem : RlcTxAmdRetx) : RlcRetxQueueState where
  retxBytes := st.retxBytes - elem.length
  nRetxSoZero := if elem.so = 0 then st.nRetxSoZero - 1 else st.nRetxSoZero
  nRetxSoNonzero := if elem.so = 0 then st.nRetxSoNonzero else st.nRetxSoNonzero - 1

end RlcRetxQueueState

/-- A removed element stays in the queue, marked as invalid, until it gets to the front. -/
structure RlcRetxQueueItem where
  invalid : Bool := false
  retx : RlcTxAmdRetx := {}
  deriving DecidableEq, Repr

structure RlcRetxQueue where
  capacity : Nat
  queue : List RlcRetxQueueItem := []
  st : RlcRetxQueueState := {}
  deriving DecidableEq, Repr

namespace RlcRetxQueue

def empty (q : RlcRetxQueue) : Bool := q.queue.isEmpty

def size (q : RlcRetxQueue) : Nat := q.queue.length

def tryPush (q : RlcRetxQueue) (retx : RlcTxAmdRetx) : RlcRetxQueue × Bool :=
  if q.queue.length < q.capacity then
    ({ q with queue := q.queue ++ [{ retx }], st := q.st.add retx }, true)
  else (q, false)

def cleanInvalidFront (q : RlcRetxQueue) : RlcRetxQueue :=
  { q with queue := q.queue.dropWhile RlcRetxQueueItem.invalid }

def pop (q : RlcRetxQueue) : RlcRetxQueue :=
  match q.queue with
  | [] => q
  | item :: rest => cleanInvalidFront { q with queue := rest, st := q.st.subtract item.retx }

def front? (q : RlcRetxQueue) : Option RlcTxAmdRetx :=
  match q.queue with
  | [] => none
  | item :: _ => if item.invalid then none else some item.retx

def replaceFront (q : RlcRetxQueue) (retx : RlcTxAmdRetx) : RlcRetxQueue :=
  match q.queue with
  | [] => q
  | item :: rest => { q with queue := { retx } :: rest, st := (q.st.subtract item.retx).add retx }

/-- The retransmissions, with no removed ones between them. -/
def Holds (q : RlcRetxQueue) (retxs : List RlcTxAmdRetx) : Prop :=
  q.queue = retxs.map fun retx => { retx }

section Holds
variable {q : RlcRetxQueue} {retxs : List RlcTxAmdRetx}

theorem Holds.empty_eq (h : q.Holds retxs) : q.empty = retxs.isEmpty := by
  rw [empty, h]
  cases retxs <;> rfl

end Holds

end RlcRetxQueue
end Srsran.Rlc
