import Srsran.Gtpu.Pdu
import Srsran.Rlc.SnWindow
import Srsran.Lib.Runs

/-! The receiving side of an NG-U tunnel (`gtpu_tunnel_ngu_rx_impl.h`) with the PDU session container
it reads (`psup_packing.cpp`). Logs and telemetry are left out; the timer is its running flag. -/
namespace Srsran.Gtpu
open ModOrder Srsran.Adt Srsran.Support

def gtpuSnMod : Nat := 65536

def gtpuRxWindowSize : Nat := 32768

/-- `unpack` of the DL PDU session information: the QoS flow identifier, unless the PDU type is
another one. A field that is not there reads as zero. -/
def unpackDlPduSessionInformation (container : List UInt8) : Option Nat :=
  let (pduType, decoder) := BitDecoder.unpack { bytes := container } 4
  if pduType.getD 0 ≠ 0 then none
  else
    let (_, decoder) := decoder.unpack 1
    let (_, decoder) := decoder.unpack 1
    let (_, decoder) := decoder.unpack 2
    let (_, decoder) := decoder.unpack 1
    let (_, decoder) := decoder.unpack 1
    some ((decoder.unpack 6).1.getD 0)

/-- The loop over the extension headers: the first container that unpacks counts. -/
def pduSessionInfo (extList : List GtpuExtensionHeader) : Option Nat :=
  extList.findSome? fun ext =>
    if ext.extensionHeaderType = GtpuExtensionHeaderType.pduSessionContainer then
      unpackDlPduSessionInformation ext.container.bytes
    else none

structure GtpuRxState where
  rxNext : Nat := 0
  rxDeliv : Nat := 0
  rxReord : Nat := 0
  deriving DecidableEq, Repr

structure GtpuRxSduInfo where
  sdu : List UInt8
  qosFlowId : Nat
  sn : Option Nat := none
  deriving DecidableEq, Repr

structure GtpuTunnelNguRxConfig where
  tReordering : Nat
  ignoreUeAmbr : Bool := false
  testMode : Bool := false
  deriving DecidableEq, Repr

/-- What happens to an SDU. An SDU in the window has a position: how many SNs precede its own since
the tunnel was set up. -/
inductive NguRxAction where
  | forwarded (info : GtpuRxSduInfo)
  | stored (position : Nat) (info : GtpuRxSduInfo)
  | released (position : Nat) (info : GtpuRxSduInfo)
  deriving DecidableEq, Repr

/-- No branch reads `passed`, which counts how often RX_DELIV has been incremented, or `history`. -/
structure GtpuTunnelNguRx where
  config : GtpuTunnelNguRxConfig
  stopped : Bool := false
  st : GtpuRxState := {}
  rxWindow : CircularMap GtpuRxSduInfo
  reorderingTimerRunning : Bool := false
  passed : Nat := 0
  history : List NguRxAction := []

namespace GtpuTunnelNguRx

def create (config : GtpuTunnelNguRxConfig) : GtpuTunnelNguRx where
  config
  rxWindow := .empty GtpuRxSduInfo gtpuRxWindowSize

def rxModBase (ent : GtpuTunnelNguRx) (sn : Nat) : Nat := rebase gtpuSnMod ent.st.rxDeliv sn

def insideRxWindow (ent : GtpuTunnelNguRx) (sn : Nat) : Bool := ent.rxModBase sn < gtpuRxWindowSize

def record (ent : GtpuTunnelNguRx) (action : NguRxAction) : GtpuTunnelNguRx :=
  { ent with history := ent.history ++ [action] }

/-- `deliver_sdu` for an SDU that was not in the window. -/
def forward (ent : GtpuTunnelNguRx) (info : GtpuRxSduInfo) : GtpuTunnelNguRx :=
  ent.record (.forwarded info)

/-- Delivers the SDU of RX_DELIV out of the window, if it is there. -/
def releaseSdu (ent : GtpuTunnelNguRx) : GtpuTunnelNguRx :=
  match ent.rxWindow.get? ent.st.rxDeliv with
  | some info =>
    { ent.record (.released ent.passed info) with rxWindow := ent.rxWindow.erase ent.st.rxDeliv }
  | none => ent

def advanceRxDeliv (ent : GtpuTunnelNguRx) : GtpuTunnelNguRx :=
  { ent with
    st := { ent.st with rxDeliv := (ent.st.rxDeliv + 1) % gtpuSnMod }
    passed := ent.passed + 1 }

/-- The loop of `deliver_all_consecutive_sdus`, which takes at most the given number of turns. -/
def deliverConsecutive : Nat → GtpuTunnelNguRx → GtpuTunnelNguRx
  | 0, ent => ent
  | turns + 1, ent =>
    if ent.st.rxDeliv ≠ ent.st.rxNext ∧ ent.rxWindow.contains ent.st.rxDeliv = true then
      deliverConsecutive turns ent.releaseSdu.advanceRxDeliv
    else ent

def deliverAllConsecutiveSdus (ent : GtpuTunnelNguRx) : GtpuTunnelNguRx :=
  deliverConsecutive (ent.rxModBase ent.st.rxNext) ent

def deliverUntilReord : Nat → GtpuTunnelNguRx → GtpuTunnelNguRx
  | 0, ent => ent
  | turns + 1, ent =>
    if ent.st.rxDeliv ≠ ent.st.rxReord then
      deliverUntilReord turns ent.releaseSdu.advanceRxDeliv
    else ent

def setRxReord (ent : GtpuTunnelNguRx) : GtpuTunnelNguRx :=
  { ent with st := { ent.st with rxReord := ent.st.rxNext } }

def runTimer (ent : GtpuTunnelNguRx) : GtpuTunnelNguRx := { ent with reorderingTimerRunning := true }

def stopTimer (ent : GtpuTunnelNguRx) : GtpuTunnelNguRx := { ent with reorderingTimerRunning := false }

def handleTReorderingExpire (ent : GtpuTunnelNguRx) : GtpuTunnelNguRx :=
  if ent.reorderingTimerRunning then ent
  else if !ent.insideRxWindow ent.st.rxReord then ent
  else
    let ent := deliverUntilReord (ent.rxModBase ent.st.rxReord) ent
    let ent := ent.deliverAllConsecutiveSdus
    if ent.rxModBase ent.st.rxDeliv < ent.rxModBase ent.st.rxNext then
      if ent.config.tReordering = 0 then ent else ent.setRxReord.runTimer
    else ent

/-- `reordering_callback`. The timer has left the running state when it is called. -/
def reorderingCallback (ent : GtpuTunnelNguRx) : GtpuTunnelNguRx :=
  ent.stopTimer.handleTReorderingExpire

def stop (ent : GtpuTunnelNguRx) : GtpuTunnelNguRx :=
  if ent.stopped then ent else { ent.stopTimer with stopped := true }

/-- Keeps an SDU that is new in the window, and updates RX_NEXT. -/
def storeSdu (ent : GtpuTunnelNguRx) (sn : Nat) (info : GtpuRxSduInfo) : GtpuTunnelNguRx :=
  { ent.record (.stored (ent.passed + ent.rxModBase sn) info) with
    rxWindow := ent.rxWindow.overwrite sn info
    st := { ent.st with
      rxNext := if ent.rxModBase sn ≥ ent.rxModBase ent.st.rxNext then (sn + 1) % gtpuSnMod
        else ent.st.rxNext } }

/-- The timer part of `handle_pdu`. -/
def updateReordering (ent : GtpuTunnelNguRx) : GtpuTunnelNguRx :=
  let ent :=
    if ent.reorderingTimerRunning ∧ ent.insideRxWindow ent.st.rxReord = false then ent.stopTimer
    else ent
  if ent.config.tReordering = 0 then ent.setRxReord.handleTReorderingExpire
  else if ent.reorderingTimerRunning = false ∧
      ent.rxModBase ent.st.rxDeliv < ent.rxModBase ent.st.rxNext then
    ent.setRxReord.runTimer
  else ent

/-- The part of `handle_pdu` for an SDU with a sequence number. -/
def applyReordering (ent : GtpuTunnelNguRx) (sn : Nat) (info : GtpuRxSduInfo) : GtpuTunnelNguRx :=
  if !ent.insideRxWindow sn then ent.forward info
  else if ent.rxModBase sn < ent.rxModBase ent.st.rxDeliv then ent.forward info
  else if ent.rxWindow.contains sn then ent
  else
    let ent := ent.storeSdu sn info
    let ent :=
      if ent.rxModBase sn = ent.rxModBase ent.st.rxDeliv then ent.deliverAllConsecutiveSdus else ent
    ent.updateReordering

def testQosFlowId : Nat := 1

/-- `handle_pdu`; `withinAmbr` is the answer of the limiter of the UE-AMBR. -/
def handlePdu (ent : GtpuTunnelNguRx) (pdu : GtpuDissectedPdu) (withinAmbr : Bool) :
    GtpuTunnelNguRx :=
  if ent.stopped then ent
  else if !ent.config.ignoreUeAmbr && !withinAmbr then ent
  else if ent.config.testMode then ent.forward { sdu := pdu.buf, qosFlowId := testQosFlowId }
  else
    match pduSessionInfo pdu.hdr.extList with
    | none => ent
    | some qosFlowId =>
      let sdu := gtpuExtractMsg pdu
      if !pdu.hdr.flags.seqNumber || ent.config.tReordering = 0 then ent.forward { sdu, qosFlowId }
      else
        let sn := pdu.hdr.seqNumber.toNat
        ent.applyReordering sn { sdu, qosFlowId, sn := some sn }

inductive Event where
  | pdu (pdu : GtpuDissectedPdu) (withinAmbr : Bool)
  | reorderingTimerExpired
  deriving DecidableEq, Repr

def step (ent : GtpuTunnelNguRx) : Event → Option GtpuTunnelNguRx
  | .pdu pdu withinAmbr => some (ent.handlePdu pdu withinAmbr)
  | .reorderingTimerExpired =>
    if ent.reorderingTimerRunning then some ent.reorderingCallback else none

end GtpuTunnelNguRx

end Srsran.Gtpu
