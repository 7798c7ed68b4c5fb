import Srsran.Adt.CircularMap
import Srsran.Pdcp.Security
import Srsran.Pdcp.Sn

/-! Receiving PDCP entity (`pdcp_entity_rx.cpp`). PDUs pass through the crypto executor, whose jobs end
in any order, and return to the executor of the entity; both steps may lose them. -/
namespace Srsran.Pdcp
open Srsran.Support Srsran.Adt

/-- `pdcp_t_reordering`; the finite values are at least 1 ms. -/
inductive PdcpTReordering where
  | ms0
  | ms (duration : Nat)
  | infinity
  deriving DecidableEq, Repr

structure PdcpRxConfig where
  rbType : PdcpRbType
  rlcMode : PdcpRlcMode
  snSize : PdcpSnSize
  tReordering : PdcpTReordering
  maxCount : PdcpMaxCount
  deriving DecidableEq, Repr

def PdcpRxConfig.isSrb (cfg : PdcpRxConfig) : Bool := cfg.rbType == .srb

def PdcpRxConfig.isUm (cfg : PdcpRxConfig) : Bool := cfg.rlcMode == .um

structure PdcpRxState where
  rxNext : Nat := 0
  rxDeliv : Nat := 0
  rxReord : Nat := 0
  deriving DecidableEq, Repr

structure PdcpRxPduInfo where
  buf : List UInt8
  count : Nat
  deriving DecidableEq, Repr

structure PdcpRxSduInfo where
  buf : List UInt8
  count : Nat
  deriving DecidableEq, Repr

/-- What the entity tells its upper layers, in order, and the points at which it is re-established,
starts again with COUNT 0 or gets new engines. -/
inductive RxNotice where
  | newSdu (count : Nat) (sdu : List UInt8)
  | maxCountReached
  | protocolFailure
  | integrityFailure
  | statusReport (pdu : List UInt8)
  | securityConfigured
  | countersReset
  | reestablished
  deriving DecidableEq, Repr

structure PdcpEntityRx where
  cfg : PdcpRxConfig
  st : PdcpRxState := {}
  rxWindow : CircularMap PdcpRxSduInfo
  reorderingTimerRunning : Bool := false
  maxCountNotified : Bool := false
  maxCountOverflow : Bool := false
  integrityEnabled : Bool := false
  cipheringEnabled : Bool := false
  secEngine : Option SecurityContext := none
  stopped : Bool := false
  buffering : Bool := false
  pduBuffer : List (List UInt8) := []
  /-- PDUs in the crypto executor. -/
  cryptoJobs : List PdcpRxPduInfo := []
  /-- Results on their way back to the executor of the entity. -/
  cryptoResults : List (Except SecurityError PdcpRxPduInfo) := []
  notices : List RxNotice := []

namespace PdcpEntityRx

def create (cfg : PdcpRxConfig) : PdcpEntityRx where
  cfg
  rxWindow := CircularMap.empty _ (pdcpWindowSize cfg.snSize)

def notify (ent : PdcpEntityRx) (notice : RxNotice) : PdcpEntityRx :=
  { ent with notices := ent.notices ++ [notice] }

def setCount (ent : PdcpEntityRx) (hfn sn : Nat) : PdcpEntityRx :=
  let count := pdcpComputeCount hfn sn ent.cfg.snSize
  { ent with st := { rxNext := count, rxDeliv := count, rxReord := count } }

def readDataPduHeader (cfg : PdcpRxConfig) (pdu : List UInt8) : Option Nat :=
  if pdu.length ≤ pdcpDataPduHeaderSize cfg.snSize then none
  else
    match cfg.snSize, pdu with
    | .size12bits, b0 :: b1 :: _ => some (((b0.toNat &&& 0x0f) <<< 8) ||| (b1.toNat &&& 0xff))
    | .size18bits, b0 :: b1 :: b2 :: _ =>
      some ((((b0.toNat &&& 0x03) <<< 16) ||| ((b1.toNat &&& 0xff) <<< 8)) ||| (b2.toNat &&& 0xff))
    | _, _ => none

def rcvdCount (ent : PdcpEntityRx) (sn : Nat) : Nat :=
  countEstimation ent.cfg.snSize ent.st.rxDeliv sn

def checkMaxCountNotify (ent : PdcpEntityRx) (count : Nat) : PdcpEntityRx :=
  if count > ent.cfg.maxCount.notify ∧ ent.maxCountNotified = false then
    { ent.notify .maxCountReached with maxCountNotified := true }
  else ent

/-- Above the second limit nothing is received; the failure is reported once. -/
def refuseMaxCount (ent : PdcpEntityRx) : PdcpEntityRx :=
  if ent.maxCountOverflow then ent
  else { ent.notify .protocolFailure with maxCountOverflow := true }

def handleDataPdu (ent : PdcpEntityRx) (pdu : List UInt8) : PdcpEntityRx :=
  match readDataPduHeader ent.cfg pdu with
  | none => ent
  | some sn =>
    let count := ent.rcvdCount sn
    let ent := ent.checkMaxCountNotify count
    if count ≥ ent.cfg.maxCount.hard then ent.refuseMaxCount
    else { ent with cryptoJobs := ent.cryptoJobs ++ [{ buf := pdu, count }] }

/-- `handle_control_pdu`: status reports are for the transmitting entity, CPT 0. -/
def handleControlPdu (ent : PdcpEntityRx) (hdrByte : UInt8) (pdu : List UInt8) : PdcpEntityRx :=
  if (hdrByte.toNat >>> 4) &&& 0x7 = 0 then ent.notify (.statusReport pdu) else ent

def pduBufferCapacity : Nat := 2048

def handlePdu (ent : PdcpEntityRx) (buf : List UInt8) : PdcpEntityRx :=
  if ent.stopped then ent
  else if ent.buffering then
    if ent.pduBuffer.length < pduBufferCapacity then
      { ent with pduBuffer := ent.pduBuffer ++ [buf] }
    else ent
  else
    match buf with
    | [] => ent
    | hdrByte :: _ =>
      if ent.cfg.isSrb ∨ (hdrByte.toNat >>> 7) &&& 0x1 = 1 then ent.handleDataPdu buf
      else ent.handleControlPdu hdrByte buf

def beginBuffering (ent : PdcpEntityRx) : PdcpEntityRx := { ent with buffering := true }

def endBuffering (ent : PdcpEntityRx) : PdcpEntityRx :=
  ent.pduBuffer.foldl handlePdu { ent with buffering := false, pduBuffer := [] }

/-- `apply_deciphering_and_integrity_check`. Without engines the zero MAC-I of SRBs is trimmed. -/
def applyDecipheringAndIntegrityCheck (engine : SecurityContext → SecurityEngine)
    (ent : PdcpEntityRx) (buf : List UInt8) (count : Nat) : Except SecurityError (List UInt8) :=
  match ent.secEngine with
  | none =>
    if ent.cfg.isSrb then
      if buf.length ≤ secMacLen then .error .bufferFailure
      else .ok (buf.take (buf.length - secMacLen))
    else .ok buf
  | some context =>
    (engine context).decryptAndVerifyIntegrity buf (pdcpDataPduHeaderSize ent.cfg.snSize) count

def applySecurity (engine : SecurityContext → SecurityEngine) (ent : PdcpEntityRx)
    (info : PdcpRxPduInfo) : Except SecurityError PdcpRxPduInfo :=
  match applyDecipheringAndIntegrityCheck engine ent info.buf info.count with
  | .error err => .error err
  | .ok buf => .ok { buf := buf.drop (pdcpDataPduHeaderSize ent.cfg.snSize), count := info.count }

def handleFailure (ent : PdcpEntityRx) : SecurityError → PdcpEntityRx
  | .integrityFailure => ent.notify .integrityFailure
  | .cipheringFailure => ent.notify .protocolFailure
  | .bufferFailure => ent.notify .protocolFailure
  | .engineFailure => ent.notify .protocolFailure

/-- `configure_security`: an enabled integrity protection needs a key and an algorithm. -/
def configureSecurity (ent : PdcpEntityRx) (secCfg : Sec128AsConfig)
    (integrityEnabled cipheringEnabled : Bool) : PdcpEntityRx :=
  if integrityEnabled ∧ (secCfg.k128Int.isNone ∨ secCfg.integAlgo.isNone) then ent
  else
    { ent.notify .securityConfigured with
      integrityEnabled
      cipheringEnabled
      secEngine := some { secCfg, integrityEnabled, cipheringEnabled } }

/-- Passes the SDU of RX_DELIV to the upper layers, if it is there, and removes it. -/
def deliverAt (ent : PdcpEntityRx) (count : Nat) : PdcpEntityRx :=
  match ent.rxWindow.get? count with
  | some info => { ent.notify (.newSdu count info.buf) with rxWindow := ent.rxWindow.erase count }
  | none => ent

def setRxDeliv (ent : PdcpEntityRx) (count : Nat) : PdcpEntityRx :=
  { ent with st := { ent.st with rxDeliv := count } }

/-- The loop of `deliver_all_consecutive_counts`, which ends at RX_NEXT at the latest. -/
def deliverConsecutive : Nat → PdcpEntityRx → PdcpEntityRx
  | 0, ent => ent
  | turns + 1, ent =>
    if ent.st.rxDeliv ≠ ent.st.rxNext ∧ ent.rxWindow.contains ent.st.rxDeliv = true then
      deliverConsecutive turns
        ((ent.deliverAt ent.st.rxDeliv).setRxDeliv ((ent.st.rxDeliv + 1) % 2 ^ 32))
    else ent

def deliverAllConsecutiveCounts (ent : PdcpEntityRx) : PdcpEntityRx :=
  deliverConsecutive (countDistance ent.st.rxDeliv ent.st.rxNext) ent

def deliverRange : Nat → Nat → PdcpEntityRx → PdcpEntityRx
  | 0, _, ent => ent
  | turns + 1, count, ent => deliverRange turns (count + 1) (ent.deliverAt count)

def deliverAllSdus (ent : PdcpEntityRx) : PdcpEntityRx :=
  deliverRange (ent.st.rxNext - ent.st.rxDeliv) ent.st.rxDeliv ent

def discardRange : Nat → PdcpEntityRx → PdcpEntityRx
  | 0, ent => ent
  | turns + 1, ent =>
    discardRange turns
      ({ ent with rxWindow := ent.rxWindow.erase ent.st.rxDeliv }.setRxDeliv
        ((ent.st.rxDeliv + 1) % 2 ^ 32))

def discardAllSdus (ent : PdcpEntityRx) : PdcpEntityRx :=
  discardRange (countDistance ent.st.rxDeliv ent.st.rxNext) ent

def deliverBelowReord : Nat → PdcpEntityRx → PdcpEntityRx
  | 0, ent => ent
  | turns + 1, ent =>
    deliverBelowReord turns
      ((ent.deliverAt ent.st.rxDeliv).setRxDeliv ((ent.st.rxDeliv + 1) % 2 ^ 32))

def stopTimer (ent : PdcpEntityRx) : PdcpEntityRx := { ent with reorderingTimerRunning := false }

def startReordering (ent : PdcpEntityRx) : PdcpEntityRx :=
  { ent with st := { ent.st with rxReord := ent.st.rxNext }, reorderingTimerRunning := true }

/-- Everything below RX_REORD, then what follows without a gap. -/
def deliverExpired (ent : PdcpEntityRx) : PdcpEntityRx :=
  (deliverBelowReord (countDistance ent.st.rxDeliv ent.st.rxReord) ent).deliverAllConsecutiveCounts

def handleTReorderingExpire (ent : PdcpEntityRx) : PdcpEntityRx :=
  let ent := ent.deliverExpired
  if ent.st.rxDeliv < ent.st.rxNext ∧ ent.cfg.tReordering ≠ .ms0 then ent.startReordering else ent

/-- `reordering_callback`. The timer has stopped when it is called. -/
def reorderingCallback (ent : PdcpEntityRx) : PdcpEntityRx :=
  let ent := ent.stopTimer
  if ent.stopped then ent else ent.handleTReorderingExpire

def storeSdu (ent : PdcpEntityRx) (info : PdcpRxPduInfo) : PdcpEntityRx :=
  { ent with
    rxWindow := ent.rxWindow.overwrite info.count { buf := info.buf, count := info.count }
    st := { ent.st with
      rxNext := if info.count ≥ ent.st.rxNext then (info.count + 1) % 2 ^ 32 else ent.st.rxNext } }

/-- The timer part of `apply_reordering`. -/
def updateReordering (ent : PdcpEntityRx) : PdcpEntityRx :=
  let ent :=
    if ent.reorderingTimerRunning ∧ ent.st.rxDeliv ≥ ent.st.rxReord then ent.stopTimer else ent
  match ent.cfg.tReordering with
  | .infinity => ent
  | .ms0 => handleTReorderingExpire { ent with st := { ent.st with rxReord := ent.st.rxNext } }
  | .ms _ =>
    if ent.reorderingTimerRunning = false ∧ ent.st.rxDeliv < ent.st.rxNext then
      ent.startReordering
    else ent

def applyReordering (ent : PdcpEntityRx) (info : PdcpRxPduInfo) : PdcpEntityRx :=
  if info.count < ent.st.rxDeliv then ent
  else if ent.rxWindow.contains info.count then ent
  else
    let ent := ent.storeSdu info
    let ent := if info.count = ent.st.rxDeliv then ent.deliverAllConsecutiveCounts else ent
    ent.updateReordering

def resetState (ent : PdcpEntityRx) : PdcpEntityRx := { ent.notify .countersReset with st := {} }

/-- The part of `reestablish` before the security configuration. -/
def restartReception (ent : PdcpEntityRx) : PdcpEntityRx :=
  let ent := if ent.cfg.isSrb then ent.discardAllSdus else ent
  if ent.cfg.isSrb ∨ ent.cfg.isUm then
    let ent := ent.stopTimer
    let ent := if ent.cfg.isUm then ent.deliverAllSdus else ent
    ent.resetState
  else ent

def reestablish (ent : PdcpEntityRx) (secCfg : Sec128AsConfig) : PdcpEntityRx :=
  let ent := ent.restartReception
  (ent.configureSecurity secCfg ent.integrityEnabled ent.cipheringEnabled).notify .reestablished

def stop (ent : PdcpEntityRx) : PdcpEntityRx :=
  if ent.stopped then ent else { ent.stopTimer with stopped := true }

end PdcpEntityRx

end Srsran.Pdcp
