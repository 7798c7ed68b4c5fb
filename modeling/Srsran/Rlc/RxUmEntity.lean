import Srsran.Rlc.UmPdu
import Srsran.Rlc.SegmentStore
import Srsran.Rlc.SnWindow

/-! The UM receiver (`rlc_rx_um_entity.cpp`). A step returns the entity with what it passed to the
upper layer, which SNs it counted as lost and what it did to the timer, or the assertion that fails.
Blocks of the segment pool are taken to be there; metrics other than the lost SDUs, tracing and logging are
left out. -/
namespace Srsran.Rlc
open ModOrder Srsran.Adt

structure RlcRxUmSduInfo where
  fullyReceived : Bool := false
  hasGap : Bool := false
  segments : List RlcRxSduSegment := []
  deriving DecidableEq, Repr

/-- Rx state variables, TS 38.322 Sec. 7.1. -/
structure RlcRxUmState where
  rxNextReassembly : Nat := 0
  rxTimerTrigger : Nat := 0
  rxNextHighest : Nat := 0
  deriving DecidableEq, Repr

structure RlcRxUmConfig where
  snFieldLength : RlcUmSnSize
  tReassembly : Nat
  deriving DecidableEq, Repr

structure RlcRxUmEntity where
  cfg : RlcRxUmConfig
  st : RlcRxUmState := {}
  rxWindow : CircularMap RlcRxUmSduInfo
  reassemblyTimerRunning : Bool := false

/-- Running the reassembly timer that was never set. -/
inductive RxUmFault where
  | timerNotSet
  deriving DecidableEq, Repr

inductive TimerAction where
  | stop
  | run
  deriving DecidableEq, Repr

/-- Effects of a step outside the entity. -/
structure RxUmOutput where
  sdus : List (List UInt8) := []
  lostSns : List Nat := []
  timerActions : List TimerAction := []
  deriving DecidableEq, Repr

namespace RlcRxUmEntity

def create (cfg : RlcRxUmConfig) : RlcRxUmEntity where
  cfg
  rxWindow := CircularMap.empty _ (windowSize cfg.snFieldLength.toNumber)

def mod (ent : RlcRxUmEntity) : Nat := cardinality ent.cfg.snFieldLength.toNumber

def umWindowSize (ent : RlcRxUmEntity) : Nat := windowSize ent.cfg.snFieldLength.toNumber

def rxModBase (ent : RlcRxUmEntity) (x : Nat) : Nat :=
  rebase ent.mod (ent.st.rxNextHighest + ent.umWindowSize) x

/-- `rx_next_highest - um_window_size` on 32 bits. -/
def windowStart (ent : RlcRxUmEntity) : Nat :=
  (ent.st.rxNextHighest + (2 ^ 32 - ent.umWindowSize)) % 2 ^ 32

def snInReassemblyWindow (ent : RlcRxUmEntity) (sn : Nat) : Bool :=
  ent.rxModBase ent.windowStart ≤ ent.rxModBase sn &&
    ent.rxModBase sn < ent.rxModBase ent.st.rxNextHighest

def snInvalidForRxBuffer (ent : RlcRxUmEntity) (sn : Nat) : Bool :=
  ent.rxModBase ent.windowStart ≤ ent.rxModBase sn &&
    ent.rxModBase sn < ent.rxModBase ent.st.rxNextReassembly

/-- `has_sn(sn) && [sn].fully_received`. -/
def fullyReceivedAt (window : CircularMap RlcRxUmSduInfo) (sn : Nat) : Bool :=
  match window.get? sn with
  | some info => info.fullyReceived
  | none => false

/-- `has_sn(sn) && [sn].has_gap`. -/
def hasGapAt (window : CircularMap RlcRxUmSduInfo) (sn : Nat) : Bool :=
  match window.get? sn with
  | some info => info.hasGap
  | none => false

/-- `has_sn(sn) && not [sn].has_gap`. -/
def hasNoGapAt (window : CircularMap RlcRxUmSduInfo) (sn : Nat) : Bool :=
  match window.get? sn with
  | some info => !info.hasGap
  | none => false

def storedInfo (window : CircularMap RlcRxUmSduInfo) (header : RlcUmPduHeader)
    (payload : List UInt8) : RlcRxUmSduInfo :=
  let info := (window.get? header.sn).getD {}
  let segments := (storeSegment info.segments { si := header.si, so := header.so, payload }).2
  { fullyReceived := (updateSegmentInventory segments).fullyReceived
    hasGap := (updateSegmentInventory segments).hasGap
    segments }

def handleSegmentDataSdu (ent : RlcRxUmEntity) (header : RlcUmPduHeader) (payload : List UInt8) :
    RlcRxUmEntity :=
  if header.si = .fullSdu then ent
  else
    { ent with
      rxWindow := ent.rxWindow.overwrite header.sn (storedInfo ent.rxWindow header payload) }

/-- Moves an SN forward up to RX_Next_Highest over fully received SDUs and removes them. The loops
make less than a full turn. -/
def releaseReceived (ent : RlcRxUmEntity) : Nat → Nat → CircularMap RlcRxUmSduInfo →
    Nat × CircularMap RlcRxUmSduInfo
  | 0, sn, window => (sn, window)
  | turns + 1, sn, window =>
    if ent.rxModBase sn < ent.rxModBase ent.st.rxNextHighest ∧
        fullyReceivedAt window sn = true then
      releaseReceived ent turns ((sn + 1) % ent.mod) (window.erase sn)
    else (sn, window)

/-- Removed SDUs that were not fully received count as lost, unseen ones too. -/
def lostAt (window : CircularMap RlcRxUmSduInfo) (sn : Nat) : List Nat :=
  if fullyReceivedAt window sn then [] else [sn]

/-- Cleans everything from an SN on that is outside the reassembly window. -/
def discardOutside (ent : RlcRxUmEntity) : Nat → Nat → CircularMap RlcRxUmSduInfo → List Nat →
    Nat × CircularMap RlcRxUmSduInfo × List Nat
  | 0, sn, window, lost => (sn, window, lost)
  | turns + 1, sn, window, lost =>
    if ent.snInReassemblyWindow sn then (sn, window, lost)
    else
      discardOutside ent turns ((sn + 1) % ent.mod) (window.erase sn) (lost ++ lostAt window sn)

/-- The loop of the expiry: everything below RX_Timer_Trigger goes, from there on the fully received
SDUs. -/
def releaseExpired (ent : RlcRxUmEntity) : Nat → Nat → CircularMap RlcRxUmSduInfo → List Nat →
    Nat × CircularMap RlcRxUmSduInfo × List Nat
  | 0, sn, window, lost => (sn, window, lost)
  | turns + 1, sn, window, lost =>
    if ent.rxModBase sn < ent.rxModBase ent.st.rxNextHighest then
      if ent.rxModBase sn < ent.rxModBase ent.st.rxTimerTrigger then
        releaseExpired ent turns ((sn + 1) % ent.mod) (window.erase sn)
          (lost ++ lostAt window sn)
      else if fullyReceivedAt window sn then
        releaseExpired ent turns ((sn + 1) % ent.mod) (window.erase sn) lost
      else (sn, window, lost)
    else (sn, window, lost)

/-- The entry of an SN that `has_sn` found. -/
def sduInfo (ent : RlcRxUmEntity) (sn : Nat) : RlcRxUmSduInfo := (ent.rxWindow.get? sn).getD {}

/-- Releases the segments of a delivered SDU; its flags stay in the window. -/
def releaseSegments (ent : RlcRxUmEntity) (sn : Nat) : RlcRxUmEntity :=
  { ent with rxWindow := ent.rxWindow.overwrite sn { ent.sduInfo sn with segments := [] } }

def advanceNextReassembly (ent : RlcRxUmEntity) (sn : Nat) : RlcRxUmEntity :=
  if sn = ent.st.rxNextReassembly then
    let released := ent.releaseReceived ent.mod (ent.st.rxNextReassembly % ent.mod) ent.rxWindow
    { ent with
      st := { ent.st with rxNextReassembly := released.1 }
      rxWindow := released.2 }
  else ent

/-- x falls outside of the reassembly window: the window moves up to x. -/
def setNextHighest (ent : RlcRxUmEntity) (sn : Nat) : RlcRxUmEntity :=
  { ent with st := { ent.st with rxNextHighest := (sn + 1) % ent.mod } }

def cleanReassemblyWindow (ent : RlcRxUmEntity) : RlcRxUmEntity × List Nat :=
  let cleaned := ent.discardOutside ent.mod (ent.st.rxNextReassembly % ent.mod) ent.rxWindow []
  let released := ent.releaseReceived ent.mod cleaned.1 cleaned.2.1
  ({ ent with
    st := { ent.st with rxNextReassembly := released.1 }
    rxWindow := released.2 }, cleaned.2.2)

/-- Actions when a segment is placed in the reception buffer, before the timer is looked at. -/
def updateRxBuffer (ent : RlcRxUmEntity) (sn : Nat) : RlcRxUmEntity × RxUmOutput :=
  if fullyReceivedAt ent.rxWindow sn then
    ((ent.releaseSegments sn).advanceNextReassembly sn,
      { sdus := (reassembleSegments (ent.sduInfo sn).segments).toList })
  else if !ent.snInReassemblyWindow sn then
    ((ent.setNextHighest sn).cleanReassemblyWindow.1,
      { lostSns := (ent.setNextHighest sn).cleanReassemblyWindow.2 })
  else (ent, {})

/-- The first and the third condition compare SNs as they are, and the third one looks at
RX_Next_Highest where the procedure says RX_Next_Reassembly. -/
def mustStopTimer (ent : RlcRxUmEntity) : Bool :=
  ent.st.rxTimerTrigger ≤ ent.st.rxNextReassembly ||
  (!ent.snInReassemblyWindow ent.st.rxTimerTrigger &&
    ent.st.rxTimerTrigger != ent.st.rxNextHighest) ||
  (ent.st.rxNextHighest == ent.st.rxNextReassembly + 1 &&
    hasNoGapAt ent.rxWindow ent.st.rxNextHighest)

def mustStartTimer (ent : RlcRxUmEntity) : Bool :=
  ent.rxModBase ent.st.rxNextHighest > ent.rxModBase (ent.st.rxNextReassembly + 1) ||
  (ent.rxModBase ent.st.rxNextHighest == ent.rxModBase (ent.st.rxNextReassembly + 1) &&
    hasGapAt ent.rxWindow ent.st.rxNextHighest)

def stopReassemblyTimer (ent : RlcRxUmEntity) : RlcRxUmEntity × List TimerAction :=
  if ent.reassemblyTimerRunning && ent.mustStopTimer then
    ({ ent with reassemblyTimerRunning := false }, [.stop])
  else (ent, [])

def runReassemblyTimer (ent : RlcRxUmEntity) :
    Except RxUmFault (RlcRxUmEntity × List TimerAction) :=
  if ent.cfg.tReassembly = 0 then .error .timerNotSet
  else .ok ({ ent with
    reassemblyTimerRunning := true
    st := { ent.st with rxTimerTrigger := ent.st.rxNextHighest } }, [.run])

def restartReassemblyTimer (ent : RlcRxUmEntity) :
    Except RxUmFault (RlcRxUmEntity × List TimerAction) :=
  if ent.mustStartTimer then ent.runReassemblyTimer else .ok (ent, [])

def startReassemblyTimer (ent : RlcRxUmEntity) :
    Except RxUmFault (RlcRxUmEntity × List TimerAction) :=
  if ent.reassemblyTimerRunning then .ok (ent, []) else ent.restartReassemblyTimer

def updateReassemblyTimer (ent : RlcRxUmEntity) :
    Except RxUmFault (RlcRxUmEntity × List TimerAction) := do
  let (started, actions) ← ent.stopReassemblyTimer.1.startReassemblyTimer
  return (started, ent.stopReassemblyTimer.2 ++ actions)

def receiveSegment (ent : RlcRxUmEntity) (header : RlcUmPduHeader) (payload : List UInt8) :
    Except RxUmFault (RlcRxUmEntity × RxUmOutput) := do
  let updated := (ent.handleSegmentDataSdu header payload).updateRxBuffer header.sn
  let (timed, actions) ← updated.1.updateReassemblyTimer
  return (timed, { updated.2 with timerActions := actions })

def handleParsedPdu (ent : RlcRxUmEntity) (header : RlcUmPduHeader) (payload : List UInt8) :
    Except RxUmFault (RlcRxUmEntity × RxUmOutput) :=
  if header.si = .fullSdu then .ok (ent, { sdus := [payload] })
  else if ent.snInvalidForRxBuffer header.sn then .ok (ent, {})
  else ent.receiveSegment header payload

def handlePdu (ent : RlcRxUmEntity) (pdu : List UInt8) :
    Except RxUmFault (RlcRxUmEntity × RxUmOutput) :=
  match rlcUmReadDataPduHeader pdu ent.cfg.snFieldLength with
  | none => .ok (ent, {})
  | some header =>
    if pdu.length ≤ rlcUmNrPackedLength header then .ok (ent, {})
    else ent.handleParsedPdu header (pdu.drop (rlcUmNrPackedLength header))

/-- RX_Next_Reassembly moves to the first SN from RX_Timer_Trigger on that is not reassembled. -/
def cleanExpired (ent : RlcRxUmEntity) : RlcRxUmEntity × List Nat :=
  let released := ent.releaseExpired ent.mod ent.st.rxNextReassembly ent.rxWindow []
  ({ ent with
    st := { ent.st with rxNextReassembly := released.1 }
    rxWindow := released.2.1 }, released.2.2)

def onExpiredReassemblyTimer (ent : RlcRxUmEntity) :
    Except RxUmFault (RlcRxUmEntity × RxUmOutput) := do
  let (timed, actions) ← ent.cleanExpired.1.restartReassemblyTimer
  return (timed, { lostSns := ent.cleanExpired.2, timerActions := actions })

/-- Expiry of t-Reassembly: the timer stops running and its handler is called. -/
def expireReassemblyTimer (ent : RlcRxUmEntity) :
    Except RxUmFault (RlcRxUmEntity × RxUmOutput) :=
  if ent.reassemblyTimerRunning then
    onExpiredReassemblyTimer { ent with reassemblyTimerRunning := false }
  else .ok (ent, {})

inductive Event where
  | pdu (pdu : List UInt8)
  | reassemblyTimerExpired

def step (ent : RlcRxUmEntity) : Event → Except RxUmFault (RlcRxUmEntity × RxUmOutput)
  | .pdu pdu => ent.handlePdu pdu
  | .reassemblyTimerExpired => ent.expireReassemblyTimer

def next (ent : RlcRxUmEntity) (event : Event) : Option RlcRxUmEntity :=
  (ent.step event).toOption.map (·.1)

end RlcRxUmEntity
end Srsran.Rlc
