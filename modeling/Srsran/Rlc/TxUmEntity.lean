import Srsran.Pdcp.SnUtil
import Srsran.Rlc.SduQueue
import Srsran.Rlc.UmPdu

/-! The UM transmitter (`rlc_tx_um_entity.cpp`). Metrics, logging and the buffer state towards the
lower layer are left out. -/
namespace Srsran.Rlc
open Srsran.Pdcp

structure RlcTxUmConfig where
  snFieldLength : RlcUmSnSize
  pdcpSnLen : PdcpSnSize
  queue : RlcSduQueueConfig

/-- `sdu` is the SDU under transmission, and `nextSo` the offset of its next byte. -/
structure RlcTxUmEntity where
  cfg : RlcTxUmConfig
  txNext : Nat := 0
  sduQueue : RlcSduQueue
  sdu : RlcSdu := {}
  nextSo : Nat := 0

/-- A new SDU is read although the offset of the last one was not reset. -/
inductive TxUmFault where
  | nextSoNotZero (nextSo : Nat)
  deriving DecidableEq, Repr

/-- The PDU, empty if none is built, and the arguments of `on_transmitted_sdu`. -/
structure TxUmOutput where
  pdu : List UInt8 := []
  transmitted : List (Nat × Nat) := []
  deriving DecidableEq, Repr

namespace RlcTxUmEntity

def create (cfg : RlcTxUmConfig) : RlcTxUmEntity where
  cfg
  sduQueue := { cfg := cfg.queue }

def mod (ent : RlcTxUmEntity) : Nat := cardinality ent.cfg.snFieldLength.toNumber

def headLenFull (_ent : RlcTxUmEntity) : Nat := rlcUmPduHeaderSizeCompleteSdu

def headLenFirst (ent : RlcTxUmEntity) : Nat := rlcUmPduHeaderSizeNoSo ent.cfg.snFieldLength

def headLenNotFirst (ent : RlcTxUmEntity) : Nat := rlcUmPduHeaderSizeWithSo ent.cfg.snFieldLength

/-- Returns whether the SDU was queued. The retransmission flag is ignored. -/
def handleSdu (ent : RlcTxUmEntity) (sduBuf : List UInt8) (_isRetx : Bool) : RlcTxUmEntity × Bool :=
  let sdu : RlcSdu := { buf := sduBuf, pdcpSn := getPdcpSn sduBuf ent.cfg.pdcpSnLen false }
  ({ ent with sduQueue := (ent.sduQueue.write sdu).1 }, (ent.sduQueue.write sdu).2)

def discardSdu (ent : RlcTxUmEntity) (pdcpSn : Nat) : RlcTxUmEntity × Bool :=
  ({ ent with sduQueue := (ent.sduQueue.tryDiscard pdcpSn).1 }, (ent.sduQueue.tryDiscard pdcpSn).2)

/-- Segmentation info and header size of the next PDU, unless no payload fits. -/
def getSiAndExpectedHeaderSize (ent : RlcTxUmEntity) (so sduLen grantLen : Nat) :
    Option (RlcSiField × Nat) :=
  if so = 0 then
    if sduLen ≤ grantLen - ent.headLenFull then some (.fullSdu, ent.headLenFull)
    else if grantLen ≤ ent.headLenFirst then none
    else some (.firstSegment, ent.headLenFirst)
  else if grantLen ≤ ent.headLenNotFirst then none
  else if sduLen - ent.nextSo ≤ grantLen - ent.headLenNotFirst then
    some (.lastSegment, ent.headLenNotFirst)
  else some (.middleSegment, ent.headLenNotFirst)

/-- The upper layer is told that the transfer of the SDU begins. -/
def notifyTransmitted (ent : RlcTxUmEntity) (sdu : RlcSdu) : List (Nat × Nat) :=
  match sdu.pdcpSn with
  | some pdcpSn => [(pdcpSn, ent.cfg.queue.byteLimit.toNat)]
  | none => []

/-- Gets a new SDU if none is being transmitted, and says whether there is one. A failing read
leaves the SDU it popped last, which was discarded. -/
def readSdu (ent : RlcTxUmEntity) :
    Except TxUmFault (RlcTxUmEntity × Bool × List (Nat × Nat)) :=
  if !ent.sdu.buf.isEmpty then .ok (ent, true, [])
  else if ent.nextSo ≠ 0 then .error (.nextSoNotZero ent.nextSo)
  else
    match ent.sduQueue.read with
    | (queue, some sdu) => .ok ({ ent with sduQueue := queue, sdu }, true, ent.notifyTransmitted sdu)
    | (queue, none) =>
      .ok ({ ent with sduQueue := queue, sdu := ent.sduQueue.queue.getLast?.getD ent.sdu }, false, [])

/-- Progress after a PDU with `payloadLen` bytes of the SDU. -/
def advance (ent : RlcTxUmEntity) (si : RlcSiField) (payloadLen : Nat) : RlcTxUmEntity :=
  { ent with
    sdu := if si = .fullSdu ∨ si = .lastSegment then { ent.sdu with buf := [] } else ent.sdu
    nextSo := if si = .fullSdu ∨ si = .lastSegment then 0 else ent.nextSo + payloadLen
    txNext := if si = .lastSegment then (ent.txNext + 1) % ent.mod else ent.txNext }

def pduHeader (ent : RlcTxUmEntity) (si : RlcSiField) : RlcUmPduHeader where
  si
  snSize := ent.cfg.snFieldLength
  sn := ent.txNext % 2 ^ 16
  so := ent.nextSo % 2 ^ 16

def buildPdu (ent : RlcTxUmEntity) (grantLen : Nat) : RlcTxUmEntity × List UInt8 :=
  match ent.getSiAndExpectedHeaderSize ent.nextSo ent.sdu.buf.length grantLen with
  | none => (ent, [])
  | some (si, _) =>
    let header := rlcUmWriteDataPduHeader (ent.pduHeader si)
    let space := grantLen - header.length
    let payloadLen :=
      if space ≥ ent.sdu.buf.length - ent.nextSo then ent.sdu.buf.length - ent.nextSo else space
    let payload := (ent.sdu.buf.drop ent.nextSo).take payloadLen
    if payload.length = 0 ∨ payload.length ≠ payloadLen then (ent, [])
    else (ent.advance si payloadLen, header ++ payload)

def pullPdu (ent : RlcTxUmEntity) (grant : Nat) : Except TxUmFault (RlcTxUmEntity × TxUmOutput) :=
  let grantLen := grant % 2 ^ 32
  if grantLen ≤ ent.headLenFull then .ok (ent, {})
  else do
    let (ready, found, transmitted) ← ent.readSdu
    if found then
      return ((ready.buildPdu grantLen).1, { pdu := (ready.buildPdu grantLen).2, transmitted })
    else return (ready, {})

end RlcTxUmEntity
end Srsran.Rlc
