import Srsran.Lib.Runs
import Srsran.Rlc.SduQueue

/-! The SDU queue under one writer and one reader that interleave at their atomic accesses. -/
namespace Srsran.Rlc
open Runs RlcSduQueue

inductive QueueWriter where
  | idle
  | limitChecked (sdu : RlcSdu)
  | slotChecked (sdu : RlcSdu) (pdcpSn : Nat)
  | sizeStored (sdu : RlcSdu) (pdcpSn : Nat)
  | slotStored (sdu : RlcSdu)
  | pushFailed (pdcpSn : Nat)
  | pushed (sdu : RlcSdu)
  | exchanged (pdcpSn : Nat) (success : Bool)
  | discardSizeLoaded (sduSize : Nat) (success : Bool)
  deriving DecidableEq, Repr

/-- Where the reader is in `read`. Its loop goes back to `idle`. -/
inductive QueueReader where
  | idle
  | popped (sdu : RlcSdu)
  | sizeLoaded (sdu : RlcSdu) (pdcpSn sduSize : Nat)
  | released (sdu : RlcSdu) (sduSize : Nat) (valid : Bool)
  deriving DecidableEq, Repr

/-- The shared memory, the two threads and the history of the run. SDUs are numbered in the order
in which they enter the ring. `slotOwner` is the number of the SDU that took a slot last,
`discarded` lists the successful discards, newest first, and `counted` the SDUs that are in the
packed totals. -/
structure SduQueueThreads where
  shared : RlcSduQueue
  writer : QueueWriter := .idle
  reader : QueueReader := .idle
  written : List RlcSdu := []
  nofPopped : Nat := 0
  nofReleased : Nat := 0
  nofReturned : Nat := 0
  slotOwner : Nat → Nat := fun _ => 0
  discarded : List Nat := []
  delivered : List (RlcSdu × Nat) := []
  counted : List Nat := []

namespace SduQueueThreads

def create (cfg : RlcSduQueueConfig) : SduQueueThreads where
  shared := { cfg }

inductive Action where
  | write (sdu : RlcSdu)
  | loadSlot
  | storeSize
  | storeSlot
  | push
  | releaseSlot
  | addTotals
  | tryDiscard (pdcpSn : Nat)
  | loadDiscardSize
  | finishDiscard
  | pop
  | loadSize
  | release
  | subTotals

def startWrite (s : SduQueueThreads) (sdu : RlcSdu) : SduQueueThreads :=
  if s.shared.withinLimit sdu then
    match sdu.pdcpSn with
    | none => { s with writer := .slotStored sdu }
    | some _ => { s with writer := .limitChecked sdu }
  else s

def pushSdu (s : SduQueueThreads) (sdu : RlcSdu) : SduQueueThreads :=
  if s.shared.isFull then
    match sdu.pdcpSn with
    | none => { s with writer := .idle }
    | some pdcpSn => { s with writer := .pushFailed pdcpSn }
  else
    { s with
      shared := s.shared.push sdu
      writer := .pushed sdu
      written := s.written ++ [sdu] }

def exchangeDiscarded (s : SduQueueThreads) (pdcpSn : Nat) : SduQueueThreads :=
  if s.shared.sduStates (s.shared.slot pdcpSn) = pdcpSn then
    { s with
      shared := s.shared.storeState pdcpSn stateDiscarded
      writer := .exchanged pdcpSn true
      discarded := s.slotOwner (s.shared.slot pdcpSn) :: s.discarded }
  else { s with writer := .exchanged pdcpSn false }

def subDiscarded (s : SduQueueThreads) (sduSize : Nat) : SduQueueThreads :=
  { s with
    shared := s.shared.stateSub sduSize
    writer := .idle
    counted := s.counted.erase (s.discarded.headD 0) }

/-- The exchange of `check_and_release`. A discarded SDU sends the reader back to the ring. -/
def releaseSlot (s : SduQueueThreads) (sdu : RlcSdu) (pdcpSn sduSize : Nat) : SduQueueThreads :=
  let state := s.shared.sduStates (s.shared.slot pdcpSn)
  if state = stateDiscarded ∧ stateDiscarded ≠ pdcpSn then
    { s with
      shared := s.shared.storeState pdcpSn stateFree
      reader := .idle
      nofReleased := s.nofReleased + 1
      nofReturned := s.nofReturned + 1 }
  else
    { s with
      shared := s.shared.storeState pdcpSn stateFree
      reader := .released sdu sduSize (state = pdcpSn)
      nofReleased := s.nofReleased + 1 }

/-- The end of `read` for the SDU in hand: totals, and the return of a valid SDU. -/
def returnSdu (s : SduQueueThreads) (sdu : RlcSdu) (sduSize : Nat) (valid : Bool) :
    SduQueueThreads :=
  { s with
    shared := s.shared.stateSub sduSize
    reader := .idle
    nofReturned := s.nofReturned + 1
    delivered := if valid then s.delivered ++ [(sdu, s.nofReturned)] else s.delivered
    counted := s.counted.erase s.nofReturned }

def writerStep (s : SduQueueThreads) : QueueWriter → Action → Option SduQueueThreads
  | .idle, .write sdu => some (s.startWrite sdu)
  | .limitChecked sdu, .loadSlot =>
    sdu.pdcpSn.map fun pdcpSn =>
      if s.shared.sduStates (s.shared.slot pdcpSn) = stateFree then
        { s with writer := .slotChecked sdu pdcpSn }
      else { s with writer := .idle }
  | .slotChecked sdu pdcpSn, .storeSize =>
    some { s with
      shared := s.shared.storeSize pdcpSn sdu.buf.length
      writer := .sizeStored sdu pdcpSn }
  | .sizeStored sdu pdcpSn, .storeSlot =>
    some { s with
      shared := s.shared.storeState pdcpSn pdcpSn
      writer := .slotStored sdu
      slotOwner := Function.update s.slotOwner (s.shared.slot pdcpSn) s.written.length }
  | .slotStored sdu, .push => some (s.pushSdu sdu)
  | .pushFailed pdcpSn, .releaseSlot =>
    some { s with shared := s.shared.storeState pdcpSn stateFree, writer := .idle }
  | .pushed sdu, .addTotals =>
    some { s with
      shared := s.shared.stateAdd sdu.buf.length
      writer := .idle
      counted := (s.written.length - 1) :: s.counted }
  | .idle, .tryDiscard pdcpSn => some (s.exchangeDiscarded pdcpSn)
  | .exchanged pdcpSn success, .loadDiscardSize =>
    some { s with
      writer := .discardSizeLoaded (s.shared.sduSizes (s.shared.slot pdcpSn)) success }
  | .discardSizeLoaded sduSize success, .finishDiscard =>
    if success then some (s.subDiscarded sduSize) else some { s with writer := .idle }
  | _, _ => none

def popSdu (s : SduQueueThreads) : SduQueueThreads :=
  match s.shared.queue with
  | [] => s
  | sdu :: rest =>
    { s with
      shared := { s.shared with queue := rest }
      reader := .popped sdu
      nofPopped := s.nofPopped + 1 }

def readerStep (s : SduQueueThreads) : QueueReader → Action → Option SduQueueThreads
  | .idle, .pop => some s.popSdu
  | .popped sdu, .loadSize =>
    sdu.pdcpSn.map fun pdcpSn =>
      { s with
        reader := .sizeLoaded sdu pdcpSn (s.shared.sduSizes (s.shared.slot pdcpSn)) }
  | .sizeLoaded sdu pdcpSn sduSize, .release => some (s.releaseSlot sdu pdcpSn sduSize)
  | .popped sdu, .subTotals =>
    -- SDUs without PDCP SN are always valid
    if sdu.pdcpSn = none then
      some (returnSdu { s with nofReleased := s.nofReleased + 1 } sdu sdu.buf.length true)
    else none
  | .released sdu sduSize valid, .subTotals => some (s.returnSdu sdu sduSize valid)
  | _, _ => none

/-- One atomic access of the thread that the action belongs to. -/
def step (s : SduQueueThreads) (action : Action) : Option SduQueueThreads :=
  match action with
  | .pop | .loadSize | .release | .subTotals => s.readerStep s.reader action
  | _ => s.writerStep s.writer action

/-- PDCP SNs are none of the sentinel values. -/
def validPdcpSn (pdcpSn : Nat) : Prop := pdcpSn < stateDiscarded

/-- The writer has pushed its SDU but not yet added it to the totals. -/
def addOutstanding (s : SduQueueThreads) : Bool :=
  match s.writer with
  | .pushed _ => true
  | _ => false

/-- The reader does not subtract an SDU that its writer has still to add, and PDCP SNs differ from
the sentinels. -/
def AddedBeforeSub (s : SduQueueThreads) : Action → Prop
  | .write sdu => ∀ pdcpSn, sdu.pdcpSn = some pdcpSn → validPdcpSn pdcpSn
  | .tryDiscard pdcpSn => validPdcpSn pdcpSn
  | .subTotals => ¬ (s.addOutstanding = true ∧ s.nofPopped = s.written.length)
  | _ => True

end SduQueueThreads
end Srsran.Rlc
