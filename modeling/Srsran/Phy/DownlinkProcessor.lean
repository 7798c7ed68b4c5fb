import Srsran.Lib.Checked
import Mathlib.Logic.Function.Basic
import Mathlib.Data.Nat.Bitwise

/-! The downlink processor (`downlink_processor_multi_executor_state.h`,
`downlink_processor_multi_executor_impl.cpp`). A step is one atomic operation on the state word, or one
access to the resource grid, so that the holder of the processor, the tasks and `stop` interleave. What
the PDUs make the tasks write is left out. -/
namespace Srsran.Phy

inductive DownlinkFault where
  /-- The event is not the next step of any thread. -/
  | notEnabled
  /-- A list of PDUs has no room. -/
  | pduListFull
  /-- "The downlink processor is in an unexpected state". -/
  | unexpectedState
  /-- "The downlink processor number of pending PDUs cannot be zero." -/
  | noPendingPdu
  /-- "A previously configured resource grid is still in use." -/
  | gridInUse
  /-- A task writes a grid that is gone. -/
  | gridGone
  deriving DecidableEq, Repr

namespace DownlinkProcessorState

def statePendingPdusIdle : Nat := 0x7fffffff

def maskAcceptingPdus : Nat := 0x80000000

def maskCount : Nat := 0x7fffffff

def statePendingPdusFinishing : Nat := 0

def maskStopped : Nat := 0x40000000

def reserveOnResourceGridConfigure (state : Nat) : Option Nat :=
  if state = statePendingPdusIdle then some maskAcceptingPdus else none

def onFinishRequested (prev : Nat) : Except DownlinkFault (Nat × Bool) :=
  if prev &&& maskAcceptingPdus ≠ 0 then
    .ok (prev ^^^ maskAcceptingPdus, decide (prev = maskAcceptingPdus))
  else .error .unexpectedState

def onGridSent (prev : Nat) : Except DownlinkFault Nat :=
  if prev = statePendingPdusFinishing then .ok statePendingPdusIdle else .error .unexpectedState

def onTaskCreation (prev : Nat) : Except DownlinkFault Nat :=
  if prev &&& maskAcceptingPdus ≠ 0 then .ok ((prev + 1) % 2 ^ 32) else .error .unexpectedState

def onTaskCompletion (prev : Nat) : Except DownlinkFault (Nat × Bool) :=
  if prev &&& maskCount ≠ 0 then .ok (prev - 1, decide (prev = 1)) else .error .noPendingPdu

/-- `stop` tries again until this gives a state. -/
def stop (state : Nat) : Option Nat :=
  if state = statePendingPdusIdle then some maskStopped else none

end DownlinkProcessorState

open DownlinkProcessorState

inductive DlPduKind where
  | pdcch
  | pdsch
  | ssb
  | nzpCsiRs
  | prs
  deriving DecidableEq, Repr

def maxUePdusPerSlot : Nat := 16

def maxDlPdcchPdusPerSlot : Nat := 2 + 16 + maxUePdusPerSlot + 1

def maxUlPdcchPdusPerSlot : Nat := 16

def maxPdschPdusPerSlot : Nat := 2 + 16 + maxUePdusPerSlot + 1

def DlPduKind.capacity : DlPduKind → Nat
  | .pdcch => maxDlPdcchPdusPerSlot + maxUlPdcchPdusPerSlot
  | .pdsch => maxPdschPdusPerSlot
  | .ssb => 2
  | .nzpCsiRs => 16
  | .prs => 16

/-- The thread that configures the processor, and then holds it until it finishes. -/
inductive DlHolder where
  | none
  | configuring (context : Nat) (grid : Option Nat)
  | holding
  /-- A task is created, and not yet with the executor. -/
  | enqueuing (kind : DlPduKind)
  /-- The executor took no task. -/
  | dropping
  deriving DecidableEq, Repr

/-- A task with an executor; a running one has looked for the grid. The PDSCH processor notifies a PDU once,
behind all that it writes for it. -/
inductive DlTask where
  | queued (kind : DlPduKind)
  | running (kind : DlPduKind) (grid : Option Nat)
  deriving DecidableEq, Repr

/-- How far a thread is in `send_resource_grid`. -/
inductive SendStage where
  | toSend
  | toNotify
  deriving DecidableEq, Repr

/-- What is seen of the processor: every operation, and what is written and sent. -/
inductive DlAction where
  | configured (context : Nat) (grid : Option Nat)
  | created
  | completed
  | wrote (grid : Nat)
  | finishRequested
  | sent (context : Nat) (grid : Option Nat)
  | becameIdle
  | stopped
  deriving DecidableEq, Repr

/-- Grids and contexts are numbered, and an empty `shared_resource_grid` is `none`. -/
structure DownlinkProcessor where
  statePendingPdus : Nat := statePendingPdusIdle
  currentGrid : Option Nat := .none
  rgContext : Nat := 0
  nofPdus : DlPduKind → Nat := fun _ => 0
  holder : DlHolder := .none
  tasks : List DlTask := []
  senders : List SendStage := []
  history : List DlAction := []

inductive DlEvent where
  | configureResourceGrid (context : Nat) (grid : Option Nat)
  /-- The rest of the configuration. -/
  | storeGrid
  | createTask (kind : DlPduKind)
  | enqueueTask (enqueued : Bool)
  | dropTask
  | finishProcessingPdus
  | startTask (index : Nat)
  | writeGrid (index : Nat)
  | completeTask (index : Nat)
  | sendGrid (index : Nat)
  | notifyGridSent (index : Nat)
  | stop
  deriving DecidableEq, Repr

namespace DownlinkProcessor
variable (s : DownlinkProcessor)

def record (action : DlAction) : DownlinkProcessor := { s with history := s.history ++ [action] }

def configureResourceGrid (context : Nat) (grid : Option Nat) : Except DownlinkFault DownlinkProcessor :=
  match reserveOnResourceGridConfigure s.statePendingPdus with
  | none => .ok s
  | some state =>
    if s.holder = .none then
      .ok ({ s with statePendingPdus := state, holder := .configuring context grid }.record
        (.configured context grid))
    else .error .notEnabled

def storeGrid : Except DownlinkFault DownlinkProcessor :=
  match s.holder with
  | .configuring context grid =>
    if s.currentGrid = none then
      .ok { s with
        currentGrid := grid
        rgContext := context
        nofPdus := fun _ => 0
        holder := .holding }
    else .error .gridInUse
  | _ => .error .notEnabled

/-- `process_pdcch` and its likes, up to the executor. -/
def createTask (kind : DlPduKind) : Except DownlinkFault DownlinkProcessor :=
  if s.holder = .holding then do
    let state ← onTaskCreation s.statePendingPdus
    if s.nofPdus kind < kind.capacity then
      .ok ({ s with
        statePendingPdus := state
        nofPdus := Function.update s.nofPdus kind (s.nofPdus kind + 1)
        holder := .enqueuing kind }.record .created)
    else .error .pduListFull
  else .error .notEnabled

def enqueueTask (enqueued : Bool) : Except DownlinkFault DownlinkProcessor :=
  match s.holder with
  | .enqueuing kind =>
    if enqueued then .ok { s with tasks := s.tasks ++ [.queued kind], holder := .holding }
    else .ok { s with holder := .dropping }
  | _ => .error .notEnabled

/-- `on_task_completion`: the thread goes on to send the grid if it may. -/
def onTaskCompletion : Except DownlinkFault DownlinkProcessor := do
  let (state, send) ← DownlinkProcessorState.onTaskCompletion s.statePendingPdus
  .ok ({ s with
    statePendingPdus := state
    senders := s.senders ++ if send then [SendStage.toSend] else [] }.record .completed)

def dropTask : Except DownlinkFault DownlinkProcessor :=
  if s.holder = .dropping then { s with holder := .holding }.onTaskCompletion
  else .error .notEnabled

def finishProcessingPdus : Except DownlinkFault DownlinkProcessor :=
  if s.holder = .holding then do
    let (state, send) ← onFinishRequested s.statePendingPdus
    .ok ({ s with
      statePendingPdus := state
      holder := .none
      senders := s.senders ++ if send then [SendStage.toSend] else [] }.record .finishRequested)
  else .error .notEnabled

def startTask (index : Nat) : Except DownlinkFault DownlinkProcessor :=
  match s.tasks[index]? with
  | some (.queued kind) => .ok { s with tasks := s.tasks.set index (.running kind s.currentGrid) }
  | _ => .error .notEnabled

def writeGrid (index : Nat) : Except DownlinkFault DownlinkProcessor :=
  match s.tasks[index]? with
  | some (.running _ (some grid)) =>
    if s.currentGrid = some grid then .ok (s.record (.wrote grid)) else .error .gridGone
  | _ => .error .notEnabled

def completeTask (index : Nat) : Except DownlinkFault DownlinkProcessor :=
  match s.tasks[index]? with
  | some (.running _ _) => { s with tasks := s.tasks.eraseIdx index }.onTaskCompletion
  | _ => .error .notEnabled

/-- A grid that is not available is not sent; the gateway takes the grid. -/
def sendGrid (index : Nat) : Except DownlinkFault DownlinkProcessor :=
  match s.senders[index]? with
  | some .toSend =>
    .ok ({ s with currentGrid := none, senders := s.senders.set index .toNotify }.record
      (.sent s.rgContext s.currentGrid))
  | _ => .error .notEnabled

def notifyGridSent (index : Nat) : Except DownlinkFault DownlinkProcessor :=
  match s.senders[index]? with
  | some .toNotify => do
    let state ← onGridSent s.statePendingPdus
    .ok ({ s with statePendingPdus := state, senders := s.senders.eraseIdx index }.record .becameIdle)
  | _ => .error .notEnabled

def stop : Except DownlinkFault DownlinkProcessor :=
  match DownlinkProcessorState.stop s.statePendingPdus with
  | none => .ok s
  | some state => .ok ({ s with statePendingPdus := state }.record .stopped)

def step (s : DownlinkProcessor) : DlEvent → Except DownlinkFault DownlinkProcessor
  | .configureResourceGrid context grid => s.configureResourceGrid context grid
  | .storeGrid => s.storeGrid
  | .createTask kind => s.createTask kind
  | .enqueueTask enqueued => s.enqueueTask enqueued
  | .dropTask => s.dropTask
  | .finishProcessingPdus => s.finishProcessingPdus
  | .startTask index => s.startTask index
  | .writeGrid index => s.writeGrid index
  | .completeTask index => s.completeTask index
  | .sendGrid index => s.sendGrid index
  | .notifyGridSent index => s.notifyGridSent index
  | .stop => s.stop

def next (s : DownlinkProcessor) (event : DlEvent) : Option DownlinkProcessor := (s.step event).toOption

end DownlinkProcessor

end Srsran.Phy
