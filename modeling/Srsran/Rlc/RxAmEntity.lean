import Srsran.Rlc.AmDataHeader
import Srsran.Rlc.SegmentStore
import Srsran.Rlc.SnWindow

/-! The AM receiver (`rlc_rx_am_entity.cpp`). The entity is passed explicitly; a step returns the
entity with the SDUs passed to the upper layer, or the assertion that fails. Blocks of the
segment pool are taken to be there; metrics, tracing and logging are left out. -/
namespace Srsran.Rlc
open ModOrder Srsran.Adt

/-- Buffer for either a full SDU or a set of SDU segments. -/
inductive RlcRxAmSduData where
  | full (payload : List UInt8)
  | segments (segments : List RlcRxSduSegment)
  deriving DecidableEq, Repr

structure RlcRxAmSduInfo where
  fullyReceived : Bool := false
  hasGap : Bool := false
  sduData : RlcRxAmSduData := .full []
  deriving DecidableEq, Repr

/-- Rx state variables, TS 38.322 Sec. 7.1. -/
structure RlcRxAmState where
  rxNext : Nat := 0
  rxNextStatusTrigger : Nat := 0
  rxHighestStatus : Nat := 0
  rxNextHighest : Nat := 0
  deriving DecidableEq, Repr

/-- The limit of SNs per status report is checked by the constructor of the entity. -/
structure RlcRxAmConfig where
  snFieldLength : RlcAmSnSize
  tReassembly : Nat
  tStatusProhibit : Nat := 0
  maxSnPerStatus : Option Nat := none
  maxSnPerStatus_valid : ∀ n, maxSnPerStatus = some n →
    0 < n ∧ n ≤ windowSize snFieldLength.toNumber := by simp

structure RlcRxAmEntity where
  cfg : RlcRxAmConfig
  st : RlcRxAmState := {}
  rxWindow : CircularMap RlcRxAmSduInfo
  reassemblyTimerRunning : Bool := false
  doStatus : Bool := false
  statusProhibitTimerIsRunning : Bool := false
  statusOwnedByWriter : RlcAmStatusPdu
  statusForExchange : RlcAmStatusPdu
  statusOwnedByReader : RlcAmStatusPdu
  statusReportSize : Nat := sizeofHeaderAckSn

/-- Assertions of the receiver and of its containers. -/
inductive RxAmFault where
  | absentSn (sn : Nat)
  | expiryOutsideWindow
  | invalidSduData (sn : Nat)
  | invalidNackOffsets (sn : Nat)
  | timerNotSet
  deriving DecidableEq, Repr

namespace RlcRxAmEntity

/-- The entity as constructed: the report for exchange acknowledges nothing. -/
def create (cfg : RlcRxAmConfig) : RlcRxAmEntity where
  cfg
  rxWindow := CircularMap.empty _ (windowSize cfg.snFieldLength.toNumber)
  statusOwnedByWriter := { snSize := cfg.snFieldLength }
  statusForExchange := { snSize := cfg.snFieldLength, ackSn := 0 }
  statusOwnedByReader := { snSize := cfg.snFieldLength }

def mod (ent : RlcRxAmEntity) : Nat := cardinality ent.cfg.snFieldLength.toNumber

def amWindowSize (ent : RlcRxAmEntity) : Nat := windowSize ent.cfg.snFieldLength.toNumber

/-- Maximum number of visited SNs in the RX window when building a status report. -/
def maxNofSnPerStatusReport (ent : RlcRxAmEntity) : Nat :=
  ent.cfg.maxSnPerStatus.getD ent.amWindowSize

def rxModBase (ent : RlcRxAmEntity) (sn : Nat) : Nat := rebase ent.mod ent.st.rxNext sn

def insideRxWindow (ent : RlcRxAmEntity) (sn : Nat) : Bool := ent.rxModBase sn < ent.amWindowSize

def validAckSn (ent : RlcRxAmEntity) (sn : Nat) : Bool :=
  0 < ent.rxModBase sn && ent.rxModBase sn ≤ ent.amWindowSize

end RlcRxAmEntity

/-- `has_sn(sn) && [sn].fully_received`. -/
def fullyReceivedAt (window : CircularMap RlcRxAmSduInfo) (sn : Nat) : Bool :=
  match window.get? sn with
  | some info => info.fullyReceived
  | none => false

/-- `has_sn(sn) && [sn].has_gap`. -/
def hasGapAt (window : CircularMap RlcRxAmSduInfo) (sn : Nat) : Bool :=
  match window.get? sn with
  | some info => info.hasGap
  | none => false

/-- Moves an SN forward to `limit`, over fully received SDUs. The comparison is made above `base`,
so that the loop ends after less than a full turn. -/
def skipReceived (window : CircularMap RlcRxAmSduInfo) (m base limit : Nat) : Nat → Nat → Nat
  | 0, sn => sn
  | turns + 1, sn =>
    if rebase m base sn < rebase m base limit ∧ fullyReceivedAt window sn = true then
      skipReceived window m base limit turns ((sn + 1) % m)
    else sn

def releaseReceived (m base limit : Nat) :
    Nat → Nat → CircularMap RlcRxAmSduInfo → Nat × CircularMap RlcRxAmSduInfo
  | 0, sn, window => (sn, window)
  | turns + 1, sn, window =>
    if rebase m base sn < rebase m base limit ∧ fullyReceivedAt window sn = true then
      releaseReceived m base limit turns ((sn + 1) % m) (window.erase sn)
    else (sn, window)

namespace RlcRxAmEntity

def handleFullDataSdu (ent : RlcRxAmEntity) (header : RlcAmPduHeader) (payload : List UInt8) :
    RlcRxAmEntity × Bool :=
  if header.si ≠ .fullSdu then (ent, false)
  else
    let info := (ent.rxWindow.get? header.sn).getD {}
    let info := { info with sduData := .full payload, fullyReceived := true, hasGap := false }
    ({ ent with rxWindow := ent.rxWindow.overwrite header.sn info }, true)

/-- The segments stored so far; a full SDU buffer is replaced by an empty set. -/
def segmentSet (info : RlcRxAmSduInfo) : List RlcRxSduSegment :=
  match info.sduData with
  | .segments segments => segments
  | .full _ => []

def handleSegmentDataSdu (ent : RlcRxAmEntity) (header : RlcAmPduHeader) (payload : List UInt8) :
    RlcRxAmEntity × Bool :=
  if header.si = .fullSdu then (ent, false)
  else
    let info := (ent.rxWindow.get? header.sn).getD {}
    let (stored, segments) :=
      storeSegment (segmentSet info) { si := header.si, so := header.so, payload }
    let inventory := updateSegmentInventory segments
    let info :=
      { info with
        sduData := .segments segments
        fullyReceived := inventory.fullyReceived
        hasGap := inventory.hasGap }
    ({ ent with rxWindow := ent.rxWindow.overwrite header.sn info }, stored)

def reassembleSdu (info : RlcRxAmSduInfo) : Option (List UInt8) :=
  match info.sduData with
  | .full payload => some payload
  | .segments segments => reassembleSegments segments

def updateRxNextHighest (ent : RlcRxAmEntity) (sn : Nat) : RlcRxAmEntity :=
  if ent.rxModBase sn ≥ ent.rxModBase ent.st.rxNextHighest then
    { ent with st := { ent.st with rxNextHighest := (sn + 1) % ent.mod } }
  else ent

def updateRxHighestStatus (ent : RlcRxAmEntity) (sn : Nat) : RlcRxAmEntity :=
  if ent.rxModBase sn = ent.rxModBase ent.st.rxHighestStatus then
    let snUpd := skipReceived ent.rxWindow ent.mod ent.st.rxNext ent.st.rxNextHighest ent.mod
      ((ent.st.rxHighestStatus + 1) % ent.mod)
    { ent with st := { ent.st with rxHighestStatus := snUpd } }
  else ent

def updateRxNext (ent : RlcRxAmEntity) (sn : Nat) : RlcRxAmEntity :=
  if ent.rxModBase sn = ent.rxModBase ent.st.rxNext then
    let (snUpd, window) := releaseReceived ent.mod ent.st.rxNext ent.st.rxNextHighest ent.mod
      (ent.st.rxNext % ent.mod) ent.rxWindow
    { ent with st := { ent.st with rxNext := snUpd }, rxWindow := window }
  else ent

/-- Releases the buffers of a delivered SDU; the flags stay for the status report. -/
def releaseSduData (ent : RlcRxAmEntity) (sn : Nat) (info : RlcRxAmSduInfo) : RlcRxAmEntity :=
  { ent with rxWindow := ent.rxWindow.overwrite sn { info with sduData := .full [] } }

/-- Actions when all bytes of the SDU are received: deliver it, and advance RX_Highest_Status and
RX_Next. -/
def handleReceivedSdu (ent : RlcRxAmEntity) (sn : Nat) : RlcRxAmEntity × List (Nat × List UInt8) :=
  match ent.rxWindow.get? sn with
  | some info =>
    if info.fullyReceived then
      (((ent.releaseSduData sn info).updateRxHighestStatus sn).updateRxNext sn,
        (reassembleSdu info).toList.map fun sdu => (sn, sdu))
    else (ent, [])
  | none => (ent, [])

def runReassemblyTimer (ent : RlcRxAmEntity) : Except RxAmFault RlcRxAmEntity :=
  if ent.cfg.tReassembly = 0 then .error .timerNotSet
  else .ok { ent with
    reassemblyTimerRunning := true
    st := { ent.st with rxNextStatusTrigger := ent.st.rxNextHighest } }

/-- `not rx_window[rx_next].has_gap`, an access without a check of presence. -/
def noGapAtRxNext (ent : RlcRxAmEntity) : Except RxAmFault Bool :=
  match ent.rxWindow.get? ent.st.rxNext with
  | some info => .ok !info.hasGap
  | none => .error (.absentSn ent.st.rxNext)

/-- RX_Next_Status_Trigger = RX_Next + 1, and nothing is missing of the SDU at RX_Next before its
last received byte. -/
def completeBelowTrigger (ent : RlcRxAmEntity) : Except RxAmFault Bool :=
  if ent.rxModBase ent.st.rxNextStatusTrigger = ent.rxModBase (ent.st.rxNext + 1) then
    ent.noGapAtRxNext
  else .ok false

def stopReassemblyTimer (ent : RlcRxAmEntity) : Except RxAmFault RlcRxAmEntity :=
  if ent.reassemblyTimerRunning then do
    let complete ← ent.completeBelowTrigger
    return { ent with
      reassemblyTimerRunning := !(ent.st.rxNextStatusTrigger == ent.st.rxNext || complete ||
        !ent.insideRxWindow ent.st.rxNextStatusTrigger) }
  else .ok ent

/-- Whether `t-Reassembly` has to be started for the SDUs from `sn` on. -/
def needsReassemblyTimer (ent : RlcRxAmEntity) (sn : Nat) : Bool :=
  ent.rxModBase ent.st.rxNextHighest > ent.rxModBase (sn + 1) ||
  (ent.rxModBase ent.st.rxNextHighest == ent.rxModBase (sn + 1) && hasGapAt ent.rxWindow sn)

def restartReassemblyTimer (ent : RlcRxAmEntity) (sn : Nat) : Except RxAmFault RlcRxAmEntity :=
  if ent.needsReassemblyTimer sn then ent.runReassemblyTimer else .ok ent

def startReassemblyTimer (ent : RlcRxAmEntity) : Except RxAmFault RlcRxAmEntity :=
  if ent.reassemblyTimerRunning then .ok ent else ent.restartReassemblyTimer ent.st.rxNext

/-- NACK of the bytes from `lastSo` to right before `so`, truncated to 16-bit offsets. -/
def gapNack (sn lastSo so : Nat) : RlcAmStatusNack :=
  { nackSn := sn, hasSo := true, soStart := lastSo % 2 ^ 16, soEnd := (so + 2 ^ 16 - 1) % 2 ^ 16 }

/-- NACKs of the gaps between the segments of one SDU, and of its tail unless the last segment is
there. -/
def segmentNacks (sn : Nat) : Nat → Bool → List RlcRxSduSegment →
    Except RxAmFault (List RlcAmStatusNack)
  | lastSo, haveLastSegment, [] =>
    if haveLastSegment then .ok []
    else .ok [{ nackSn := sn, hasSo := true, soStart := lastSo % 2 ^ 16, soEnd := soEndOfSdu }]
  | lastSo, haveLastSegment, segm :: rest => do
    let nacks ← segmentNacks sn (segm.so + segm.payload.length)
      (haveLastSegment || segm.si = .lastSegment) rest
    if segm.so = lastSo then .ok nacks
    else if (gapNack sn lastSo segm.so).soStart > (gapNack sn lastSo segm.so).soEnd then
      .error (.invalidNackOffsets sn)
    else .ok (gapNack sn lastSo segm.so :: nacks)

def nacksOfSn (ent : RlcRxAmEntity) (sn : Nat) : Except RxAmFault (List RlcAmStatusNack) :=
  match ent.rxWindow.get? sn with
  | none => .ok [{ nackSn := sn }]
  | some info =>
    if info.fullyReceived then .ok []
    else
      match info.sduData with
      | .segments segments => segmentNacks sn 0 false segments
      | .full _ => .error (.invalidSduData sn)

def stopSn (ent : RlcRxAmEntity) : Nat :=
  let limit := (ent.st.rxNext + ent.maxNofSnPerStatusReport) % ent.mod
  if ent.rxModBase ent.st.rxHighestStatus > ent.rxModBase limit then limit
  else ent.st.rxHighestStatus

/-- The SNs that the NACK loop visits, from RX_Next up to `stopSn`. -/
def visitedSns (ent : RlcRxAmEntity) : List Nat :=
  (List.range (ent.rxModBase ent.stopSn)).map fun d => (ent.st.rxNext + d) % ent.mod

def buildStatusReport (ent : RlcRxAmEntity) : Except RxAmFault RlcAmStatusPdu := do
  let nacks ← ent.visitedSns.mapM ent.nacksOfSn
  return (nacks.flatten.foldl RlcAmStatusPdu.pushNack ent.statusOwnedByWriter.reset).setAckSn
    ent.stopSn

/-- Rebuilds the report in the buffer of the writer and exchanges the buffers. -/
def refreshStatusReport (ent : RlcRxAmEntity) : Except RxAmFault RlcRxAmEntity := do
  let report ← ent.buildStatusReport
  return { ent with
    statusOwnedByWriter := ent.statusForExchange
    statusForExchange := report
    statusReportSize := report.packedSize }

/-- Scope exit of `handle_data_pdu`. -/
def onFunctionExit (ent : RlcRxAmEntity) (statusChanged statusRequested : Bool) :
    Except RxAmFault RlcRxAmEntity :=
  if statusChanged || statusRequested then do
    let ent ← ent.refreshStatusReport
    return { ent with doStatus := ent.doStatus || statusRequested }
  else .ok ent

/-- Places the PDU in the reception buffer; returns whether the buffer changed. -/
def placePdu (ent : RlcRxAmEntity) (header : RlcAmPduHeader) (payload : List UInt8) :
    RlcRxAmEntity × Bool :=
  if header.si = .fullSdu then ent.handleFullDataSdu header payload
  else ent.handleSegmentDataSdu header payload

/-- Puts the PDU into the window and delivers its SDU if it is complete now. -/
def bufferPdu (ent : RlcRxAmEntity) (header : RlcAmPduHeader) (payload : List UInt8) :
    RlcRxAmEntity × List (Nat × List UInt8) :=
  ((ent.placePdu header payload).1.updateRxNextHighest header.sn).handleReceivedSdu header.sn

def receivePdu (ent : RlcRxAmEntity) (header : RlcAmPduHeader) (payload : List UInt8) :
    Except RxAmFault (RlcRxAmEntity × List (Nat × List UInt8)) := do
  let stopped ← (ent.bufferPdu header payload).1.stopReassemblyTimer
  let started ← stopped.startReassemblyTimer
  let reported ← started.onFunctionExit (ent.placePdu header payload).2 (header.p ≠ 0)
  return (reported, (ent.bufferPdu header payload).2)

/-- A data PDU with its header read and stripped. PDUs outside the window and duplicates are
discarded, but their poll is answered. -/
def handleParsedPdu (ent : RlcRxAmEntity) (header : RlcAmPduHeader) (payload : List UInt8) :
    Except RxAmFault (RlcRxAmEntity × List (Nat × List UInt8)) :=
  if !ent.insideRxWindow header.sn || fullyReceivedAt ent.rxWindow header.sn then do
    let ent ← ent.onFunctionExit false (header.p ≠ 0)
    return (ent, [])
  else ent.receivePdu header payload

def handleDataPdu (ent : RlcRxAmEntity) (pdu : List UInt8) :
    Except RxAmFault (RlcRxAmEntity × List (Nat × List UInt8)) :=
  match rlcAmReadDataPduHeader pdu ent.cfg.snFieldLength with
  | none => .ok (ent, [])
  | some header =>
    if pdu.length ≤ header.getPackedSize then .ok (ent, [])
    else ent.handleParsedPdu header (pdu.drop header.getPackedSize)

def setRxHighestStatus (ent : RlcRxAmEntity) (snUpd : Nat) : Except RxAmFault RlcRxAmEntity :=
  if ent.validAckSn snUpd then
    .ok { ent with st := { ent.st with rxHighestStatus := snUpd } }
  else .error .expiryOutsideWindow

/-- The first SN from RX_Next_Status_Trigger on that is not fully received. -/
def expiryHighestStatus (ent : RlcRxAmEntity) : Nat :=
  skipReceived ent.rxWindow ent.mod ent.st.rxNext ent.st.rxNextHighest ent.mod
    ent.st.rxNextStatusTrigger

def updateOnExpiry (ent : RlcRxAmEntity) : Except RxAmFault RlcRxAmEntity := do
  let ent ← ent.setRxHighestStatus ent.expiryHighestStatus
  let ent ← ent.restartReassemblyTimer ent.st.rxHighestStatus
  let ent ← ent.refreshStatusReport
  return { ent with doStatus := true }

/-- Events that a restarted timer or a moved window has outdated are skipped. -/
def onExpiredReassemblyTimer (ent : RlcRxAmEntity) : Except RxAmFault RlcRxAmEntity :=
  if ent.reassemblyTimerRunning then .ok ent
  else if !ent.validAckSn ent.st.rxNextStatusTrigger then .ok ent
  else ent.updateOnExpiry

/-- Expiry of t-Reassembly: the timer stops running and its handler is called. -/
def expireReassemblyTimer (ent : RlcRxAmEntity) : Except RxAmFault RlcRxAmEntity :=
  if ent.reassemblyTimerRunning then
    onExpiredReassemblyTimer { ent with reassemblyTimerRunning := false }
  else .ok ent

def statusReportRequired (ent : RlcRxAmEntity) : Bool :=
  ent.doStatus && !ent.statusProhibitTimerIsRunning

/-- Called by the transmitter: hands over the report for exchange. -/
def getStatusPdu (ent : RlcRxAmEntity) : RlcRxAmEntity × RlcAmStatusPdu :=
  ({ ent with
    doStatus := false
    statusProhibitTimerIsRunning :=
      ent.statusProhibitTimerIsRunning || ent.cfg.tStatusProhibit > 0
    statusOwnedByReader := ent.statusForExchange
    statusForExchange := ent.statusOwnedByReader }, ent.statusForExchange)

def onExpiredStatusProhibitTimer (ent : RlcRxAmEntity) : RlcRxAmEntity :=
  { ent with statusProhibitTimerIsRunning := false }

inductive Event where
  | dataPdu (pdu : List UInt8)
  | reassemblyTimerExpired
  | getStatusPdu
  | statusProhibitTimerExpired

/-- One event; returns the SDUs passed to the upper layer with their SNs. -/
def step (ent : RlcRxAmEntity) :
    Event → Except RxAmFault (RlcRxAmEntity × List (Nat × List UInt8))
  | .dataPdu pdu => ent.handleDataPdu pdu
  | .reassemblyTimerExpired => do
    let ent ← ent.expireReassemblyTimer
    return (ent, [])
  | .getStatusPdu => .ok (ent.getStatusPdu.1, [])
  | .statusProhibitTimerExpired => .ok (ent.onExpiredStatusProhibitTimer, [])

/-- States reached from the constructed entity by events that do not fail an assertion. -/
inductive Reachable (cfg : RlcRxAmConfig) : RlcRxAmEntity → Prop where
  | create : Reachable cfg (RlcRxAmEntity.create cfg)
  | step {ent ent' event sdus} : Reachable cfg ent → ent.step event = .ok (ent', sdus) →
      Reachable cfg ent'

/-! The window procedures leave the configuration and the timer alone. -/

variable (ent : RlcRxAmEntity) (sn : Nat)

@[simp] theorem cfg_updateRxNextHighest : (ent.updateRxNextHighest sn).cfg = ent.cfg := by
  unfold updateRxNextHighest
  split <;> rfl

@[simp] theorem cfg_updateRxHighestStatus : (ent.updateRxHighestStatus sn).cfg = ent.cfg := by
  unfold updateRxHighestStatus
  split <;> rfl

@[simp] theorem cfg_updateRxNext : (ent.updateRxNext sn).cfg = ent.cfg := by
  unfold updateRxNext
  split <;> rfl

@[simp] theorem cfg_handleReceivedSdu : (ent.handleReceivedSdu sn).1.cfg = ent.cfg := by
  unfold handleReceivedSdu
  split
  · split
    · rw [cfg_updateRxNext, cfg_updateRxHighestStatus]
      rfl
    · rfl
  · rfl

@[simp] theorem timer_updateRxNextHighest :
    (ent.updateRxNextHighest sn).reassemblyTimerRunning = ent.reassemblyTimerRunning := by
  unfold updateRxNextHighest
  split <;> rfl

@[simp] theorem timer_updateRxHighestStatus :
    (ent.updateRxHighestStatus sn).reassemblyTimerRunning = ent.reassemblyTimerRunning := by
  unfold updateRxHighestStatus
  split <;> rfl

@[simp] theorem timer_updateRxNext :
    (ent.updateRxNext sn).reassemblyTimerRunning = ent.reassemblyTimerRunning := by
  unfold updateRxNext
  split <;> rfl

@[simp] theorem timer_handleReceivedSdu :
    (ent.handleReceivedSdu sn).1.reassemblyTimerRunning = ent.reassemblyTimerRunning := by
  unfold handleReceivedSdu
  split
  · split
    · rw [timer_updateRxNext, timer_updateRxHighestStatus]
      rfl
    · rfl
  · rfl

theorem mod_congr {ent ent' : RlcRxAmEntity} (h : ent'.cfg = ent.cfg) : ent'.mod = ent.mod := by
  rw [mod, mod, h]

theorem amWindowSize_congr {ent ent' : RlcRxAmEntity} (h : ent'.cfg = ent.cfg) :
    ent'.amWindowSize = ent.amWindowSize := by
  rw [amWindowSize, amWindowSize, h]

end RlcRxAmEntity
end Srsran.Rlc
