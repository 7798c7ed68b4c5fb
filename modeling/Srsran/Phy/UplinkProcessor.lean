import Srsran.Lib.Runs
import Srsran.Phy.UplinkProcessorFsm
import Mathlib.Data.List.Basic

/-! The uplink processor (`uplink_processor_impl.cpp`, `uplink_pdu_slot_repository_impl.h`). A step is one
atomic operation on the state machine, so that the procedures of a symbol, of a discarded slot and of a
new slot, the tasks and `stop` interleave. What is received and decoded is left out. -/
namespace Srsran.Phy
open UplinkProcessorFsm

def maxNsymbPerSlot : Nat := 14

/-- Collections of PUCCH Format 1 have a common configuration. -/
inductive PduKind where
  | pusch
  | pucch
  | pucchF1 (commonConfig : Nat)
  | srs
  deriving DecidableEq, Repr

/-- A PDU, or a collection with the number of its UE contexts, under its number in the order of
counting. -/
structure RepositoryEntry where
  id : Nat
  kind : PduKind
  endSymbolIndex : Nat
  ueContexts : Nat := 1
  deriving DecidableEq, Repr

namespace RepositoryEntry

def isPusch (entry : RepositoryEntry) : Bool := entry.kind = .pusch

def isPucch (entry : RepositoryEntry) : Bool := entry.kind = .pucch

def isPucchF1 (entry : RepositoryEntry) : Bool :=
  match entry.kind with
  | .pucchF1 _ => true
  | _ => false

def isSrs (entry : RepositoryEntry) : Bool := entry.kind = .srs

end RepositoryEntry

def symbolPdus (repository : List RepositoryEntry) (symbol : Nat) : List RepositoryEntry :=
  let pdus := repository.filter (·.endSymbolIndex = symbol)
  pdus.filter (·.isPucch) ++ pdus.filter (·.isPucchF1) ++ pdus.filter (·.isPusch) ++
    pdus.filter (·.isSrs)

def remainingPdus (repository : List RepositoryEntry) (symbol : Nat) : List RepositoryEntry :=
  (List.range' symbol (maxNsymbPerSlot - symbol)).flatMap (symbolPdus repository)

/-- What runs under the lock. `created` is a PDU between the creation of its task and the answer of the
executor. -/
inductive Procedure where
  | none
  | rxSymbol (pdus : List RepositoryEntry) (created : Option RepositoryEntry)
      (endProcessedSymbol : Nat)
  | invalidSymbol (pdus : List RepositoryEntry) (created : Option RepositoryEntry)
  | rxReturn
  | discardSlot (pdus : List RepositoryEntry) (forNewSlot : Bool)
  deriving DecidableEq, Repr

/-- `checkedCalls` and `discardedCalls` are calls of `get_pdu_slot_repository` in progress; `tasks` are
with the executors. The last three fields are the history. -/
structure UplinkProcessor where
  pendingPduCount : Nat := pendingPduCountIdle
  configuredSlot : Nat := 0
  alternativeSlot : Option Nat := .none
  nofProcessedSymbols : Nat := 0
  repository : List RepositoryEntry := []
  repositoryHeld : Bool := false
  gridRefCounter : Nat := 0
  slotProcessorHeld : Bool := false
  checkedCalls : Nat := 0
  discardedCalls : Nat := 0
  procedure : Procedure := .none
  tasks : List RepositoryEntry := []
  nofCounted : Nat := 0
  completions : List Nat := []
  assertionFailed : Bool := false
  deriving DecidableEq, Repr

inductive UplinkEvent where
  | getPduSlotRepository
  | discardForNewSlot
  | startNewSlot (slot : Nat)
  | addPdu (kind : PduKind) (endSymbolIndex : Nat)
  | finishAddingPdus
  | releaseGrid
  | getSlotProcessor (slot : Nat)
  | discardSlot
  | handleRxSymbol (endSymbolIndex : Nat) (isValid : Bool)
  | createPduTask
  | concludePdu (enqueued : Bool)
  | nextSymbol
  | finishHandleRxSymbol
  | discardPdu
  | finishDiscardSlot
  | completeTask (index : Nat)
  | stop
  deriving DecidableEq, Repr

namespace UplinkProcessor

def apply (s : UplinkProcessor) (operation : Nat × Bool) : UplinkProcessor :=
  { s with
    pendingPduCount := operation.1
    assertionFailed := s.assertionFailed || !operation.2 }

abbrev proceed (s : UplinkProcessor) (tasks : List RepositoryEntry) (procedure : Procedure) :
    UplinkProcessor :=
  { s with tasks, procedure }

def complete (s : UplinkProcessor) (pdu : RepositoryEntry) : UplinkProcessor :=
  { s.apply (onFinishProcessingPdu s.pendingPduCount) with completions := s.completions ++ [pdu.id] }

/-- The rest of `get_pdu_slot_repository`. -/
def startNewSlot (s : UplinkProcessor) (slot : Nat) : UplinkProcessor :=
  match UplinkProcessorFsm.startNewSlot s.pendingPduCount with
  | .none => { s with discardedCalls := s.discardedCalls - 1 }
  | some count =>
    { s with
      pendingPduCount := count
      configuredSlot := slot
      nofProcessedSymbols := 0
      repository := []
      alternativeSlot := some slot
      repositoryHeld := true
      discardedCalls := s.discardedCalls - 1 }

/-- A PDU of Format 1 joins the collection of its configuration. -/
def joinsCollection (kind : PduKind) (endSymbolIndex : Nat) (entry : RepositoryEntry) : Bool :=
  entry.isPucchF1 && entry.kind = kind && entry.endSymbolIndex = endSymbolIndex

/-- `add_pusch_pdu`, `add_pucch_pdu` and `add_srs_pdu`. Only new collections are counted. -/
def addPdu (s : UplinkProcessor) (kind : PduKind) (endSymbolIndex : Nat) : UplinkProcessor :=
  if s.repository.any (joinsCollection kind endSymbolIndex) then
    { s with
      repository := s.repository.map fun entry =>
        if joinsCollection kind endSymbolIndex entry then
          { entry with ueContexts := entry.ueContexts + 1 }
        else entry }
  else
    { s.apply (incrementPendingPduCount s.pendingPduCount) with
      repository := s.repository ++ [{ id := s.nofCounted, kind, endSymbolIndex }]
      nofCounted := s.nofCounted + 1 }

def finishAddingPdus (s : UplinkProcessor) : UplinkProcessor :=
  { s.apply (stopAcceptingPdu s.pendingPduCount) with gridRefCounter := 1, repositoryHeld := false }

def startDiscard (s : UplinkProcessor) (forNewSlot : Bool) : UplinkProcessor :=
  match startDiscardSlot s.pendingPduCount with
  | .none => { s with discardedCalls := s.discardedCalls + forNewSlot.toNat }
  | some count =>
    { s with
      pendingPduCount := count
      alternativeSlot := .none
      procedure := .discardSlot (remainingPdus s.repository s.nofProcessedSymbols) forNewSlot }

def handleRxSymbol (s : UplinkProcessor) (endSymbolIndex : Nat) (isValid : Bool) : UplinkProcessor :=
  match startHandleRxSymbol s.pendingPduCount with
  | .none => s
  | some count =>
    let s := { s with pendingPduCount := count }
    if endSymbolIndex < s.nofProcessedSymbols then { s with procedure := .rxReturn }
    else if !isValid then
      { s with
        alternativeSlot := .none
        procedure := .invalidSymbol (remainingPdus s.repository s.nofProcessedSymbols) .none }
    else
      let endProcessedSymbol := min (endSymbolIndex + 1) maxNsymbPerSlot
      if s.nofProcessedSymbols = endProcessedSymbol then { s with procedure := .rxReturn }
      else
        { s with
          procedure := .rxSymbol (symbolPdus s.repository s.nofProcessedSymbols) .none
            endProcessedSymbol }

/-- The next PDU of a loop with what comes after its `on_create_pdu_task`. -/
def createPduTask (s : UplinkProcessor) (pdu : RepositoryEntry)
    (next : Option RepositoryEntry → Procedure) : UplinkProcessor :=
  match onCreatePduTask s.pendingPduCount with
  | (.none, _) => { s with procedure := next .none }
  | (some count, holds) => { s.apply (count, holds) with procedure := next (some pdu) }

def step (s : UplinkProcessor) (event : UplinkEvent) : Option UplinkProcessor :=
  if s.assertionFailed then .none
  else
    match event with
    | .getPduSlotRepository =>
      if s.gridRefCounter = 0 then some { s with checkedCalls := s.checkedCalls + 1 } else some s
    | .discardForNewSlot =>
      if s.checkedCalls = 0 then .none
      else some (startDiscard { s with checkedCalls := s.checkedCalls - 1 } true)
    | .startNewSlot slot => if s.discardedCalls = 0 then .none else some (s.startNewSlot slot)
    | .addPdu kind endSymbolIndex =>
      if s.repositoryHeld ∧ endSymbolIndex < maxNsymbPerSlot then
        some (s.addPdu kind endSymbolIndex)
      else .none
    | .finishAddingPdus => if s.repositoryHeld then some s.finishAddingPdus else .none
    | .releaseGrid => some { s with gridRefCounter := 0 }
    | .getSlotProcessor slot =>
      if hasReceiveRequest s.pendingPduCount ∧ s.configuredSlot = slot then
        some { s with slotProcessorHeld := true }
      else some s
    | .discardSlot => if s.slotProcessorHeld then some (s.startDiscard false) else .none
    | .handleRxSymbol endSymbolIndex isValid =>
      if s.slotProcessorHeld then some (s.handleRxSymbol endSymbolIndex isValid) else .none
    | .createPduTask =>
      match s.procedure with
      | .rxSymbol (pdu :: pdus) .none endProcessedSymbol =>
        some (s.createPduTask pdu fun created => .rxSymbol pdus created endProcessedSymbol)
      | .invalidSymbol (pdu :: pdus) .none =>
        some (s.createPduTask pdu fun created => .invalidSymbol pdus created)
      | _ => .none
    | .concludePdu enqueued =>
      match s.procedure with
      | .rxSymbol pdus (some pdu) endProcessedSymbol =>
        let procedure := .rxSymbol pdus .none endProcessedSymbol
        if enqueued then some (s.proceed (s.tasks ++ [pdu]) procedure)
        else some ((s.complete pdu).proceed s.tasks procedure)
      | .invalidSymbol pdus (some pdu) =>
        if enqueued then .none
        else some ((s.complete pdu).proceed s.tasks (.invalidSymbol pdus .none))
      | _ => .none
    | .nextSymbol =>
      match s.procedure with
      | .rxSymbol [] .none endProcessedSymbol =>
        let next := s.nofProcessedSymbols + 1
        some { s with
          nofProcessedSymbols := next
          procedure :=
            if next = endProcessedSymbol then .rxReturn
            else .rxSymbol (symbolPdus s.repository next) .none endProcessedSymbol }
      | .invalidSymbol [] .none => some { s with procedure := .rxReturn }
      | _ => .none
    | .finishHandleRxSymbol =>
      match s.procedure with
      | .rxReturn =>
        some { s.apply (UplinkProcessorFsm.finishHandleRxSymbol s.pendingPduCount) with
          procedure := .none }
      | _ => .none
    | .discardPdu =>
      match s.procedure with
      | .discardSlot (pdu :: pdus) forNewSlot =>
        some ((s.complete pdu).proceed s.tasks (.discardSlot pdus forNewSlot))
      | _ => .none
    | .finishDiscardSlot =>
      match s.procedure with
      | .discardSlot [] forNewSlot =>
        some { s.apply (UplinkProcessorFsm.finishDiscardSlot s.pendingPduCount) with
          procedure := .none
          discardedCalls := s.discardedCalls + forNewSlot.toNat }
      | _ => .none
    | .completeTask index =>
      match s.tasks[index]? with
      | .none => .none
      | some pdu => some ((s.complete pdu).proceed (s.tasks.eraseIdx index) s.procedure)
    | .stop =>
      match UplinkProcessorFsm.stop s.pendingPduCount with
      | .none => some s
      | some count => some { s with pendingPduCount := count }

end UplinkProcessor

end Srsran.Phy
