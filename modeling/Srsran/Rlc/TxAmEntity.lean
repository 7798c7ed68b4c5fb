import Srsran.Pdcp.SnUtil
import Srsran.Rlc.DataHeaderCodec
import Srsran.Rlc.RetxQueue
import Srsran.Rlc.SduQueue
import Srsran.Rlc.SnWindow

/-! The AM transmitter (`rlc_tx_am_entity.cpp`). A step returns the entity with the PDU that it built,
or the assertion that fails. Metrics, tracing, logging, times of arrival and the notification of the
buffer state to the lower layer are left out. -/
namespace Srsran.Rlc
open ModOrder Srsran.Adt Srsran.Pdcp

/-- `retx_count` of an SDU that was not considered for retransmission. -/
def retxCountNotStarted : Nat := 0xffffffff

/-- An SDU in the window: `nextSo` is the progress of its segmentation. -/
structure RlcTxAmSduInfo where
  sdu : List UInt8
  isRetx : Bool := false
  pdcpSn : Option Nat := none
  nextSo : Nat := 0
  retxCount : Nat := retxCountNotStarted
  deriving DecidableEq, Repr

/-- TX state variables, TS 38.322 Sec. 7.1. -/
structure RlcTxAmState where
  txNextAck : Nat := 0
  txNext : Nat := 0
  pollSn : Nat := 0
  pduWithoutPoll : Nat := 0
  byteWithoutPoll : Nat := 0
  deriving DecidableEq, Repr

/-- A negative `pollPdu` or `pollByte` stands for infinity, and `maxWindow` 0 for no limit. -/
structure RlcTxAmConfig where
  snFieldLength : RlcAmSnSize
  pdcpSnLen : PdcpSnSize
  isSrb : Bool := false
  tPollRetx : Int
  maxRetxThresh : Nat
  pollPdu : Int
  pollByte : Int
  queue : RlcSduQueueConfig
  maxWindow : Nat := 0

/-- What the receiving entity offers: whether a STATUS PDU is required, the PDU and its length. -/
structure RlcStatusProvider where
  statusReportRequired : Bool := false
  statusPdu : RlcAmStatusPdu
  statusReportSize : Nat := sizeofHeaderAckSn

/-- What the upper layers are told. -/
inductive TxAmNotice where
  | transmittedSdu (pdcpSn desiredBufSize : Nat)
  | retransmittedSdu (pdcpSn : Nat)
  | deliveredSdu (pdcpSn : Nat)
  | deliveredRetransmittedSdu (pdcpSn : Nat)
  | protocolFailure
  | maxRetx (sn : Nat)
  deriving DecidableEq, Repr

structure RlcTxAmEntity where
  cfg : RlcTxAmConfig
  st : RlcTxAmState := {}
  sduQueue : RlcSduQueue
  snUnderSegmentation : Nat := invalidRlcSn
  retxQueue : RlcRetxQueue
  retxSn : Nat := invalidRlcSn
  txWindow : CircularMap RlcTxAmSduInfo
  statusProvider : RlcStatusProvider
  pollRetransmitTimerRunning : Bool := false
  stoppedLower : Bool := false
  maxRetxReached : Bool := false
  notices : List TxAmNotice := []

/-- Assertions, and the use of elements that are not there. -/
inductive TxAmFault where
  | absentSn (sn : Nat)
  | presentSn (sn : Nat)
  | noRetx
  | headerLen (headerLen expectedHdrLen : Nat)
  deriving DecidableEq, Repr

inductive TxAmPdu where
  | status (pdu : RlcAmStatusPdu)
  | data (header : RlcAmPduHeader) (payload : List UInt8)
  deriving DecidableEq, Repr

def TxAmPdu.bytes : TxAmPdu → List UInt8
  | .status pdu => pdu.pack
  | .data header payload => rlcAmWriteDataPduHeader header ++ payload

/-- The number of bytes that `pull_pdu` returns. -/
def pduLen : Option TxAmPdu → Nat
  | none => 0
  | some pdu => pdu.bytes.length

def byteBufferView (buf : List UInt8) (offset length : Nat) : List UInt8 :=
  (buf.drop offset).take length

namespace RlcTxAmEntity

def create (cfg : RlcTxAmConfig) : RlcTxAmEntity where
  cfg
  sduQueue := { cfg := cfg.queue }
  retxQueue := { capacity := windowSize cfg.snFieldLength.toNumber }
  txWindow := CircularMap.empty _ (windowSize cfg.snFieldLength.toNumber)
  statusProvider := { statusPdu := { snSize := cfg.snFieldLength } }

def mod (ent : RlcTxAmEntity) : Nat := cardinality ent.cfg.snFieldLength.toNumber

def amWindowSize (ent : RlcTxAmEntity) : Nat := windowSize ent.cfg.snFieldLength.toNumber

def headMinSize (ent : RlcTxAmEntity) : Nat := rlcAmPduHeaderMinSize ent.cfg.snFieldLength

def headMaxSize (ent : RlcTxAmEntity) : Nat := rlcAmPduHeaderMaxSize ent.cfg.snFieldLength

def txModBase (ent : RlcTxAmEntity) (sn : Nat) : Nat := rebase ent.mod ent.st.txNextAck sn

def notify (ent : RlcTxAmEntity) (notice : TxAmNotice) : RlcTxAmEntity :=
  { ent with notices := ent.notices ++ [notice] }

def hasSn (ent : RlcTxAmEntity) (sn : Nat) : Bool := ent.txWindow.contains sn

/-- Reads an SDU through `operator[]`. -/
def sduInfo (ent : RlcTxAmEntity) (sn : Nat) : Except TxAmFault RlcTxAmSduInfo :=
  match ent.txWindow.get? sn with
  | some info => .ok info
  | none => .error (.absentSn sn)

def setSduInfo (ent : RlcTxAmEntity) (sn : Nat) (info : RlcTxAmSduInfo) : RlcTxAmEntity :=
  { ent with txWindow := ent.txWindow.overwrite sn info }

def isTxWindowFull (ent : RlcTxAmEntity) : Bool :=
  ent.txWindow.full || (ent.cfg.maxWindow ≠ 0 && ent.cfg.maxWindow < ent.txModBase ent.st.txNext)

def buffersEmpty (ent : RlcTxAmEntity) : Bool :=
  ent.sduQueue.isEmpty && ent.retxQueue.empty && ent.snUnderSegmentation == invalidRlcSn

def handleSdu (ent : RlcTxAmEntity) (sduBuf : List UInt8) (isRetx : Bool) : RlcTxAmEntity × Bool :=
  let sdu : RlcSdu :=
    { buf := sduBuf
      isRetx := isRetx && !ent.cfg.isSrb
      pdcpSn := getPdcpSn sduBuf ent.cfg.pdcpSnLen ent.cfg.isSrb }
  ({ ent with sduQueue := (ent.sduQueue.write sdu).1 }, (ent.sduQueue.write sdu).2)

def discardSdu (ent : RlcTxAmEntity) (pdcpSn : Nat) : RlcTxAmEntity × Bool :=
  ({ ent with sduQueue := (ent.sduQueue.tryDiscard pdcpSn).1 }, (ent.sduQueue.tryDiscard pdcpSn).2)

def countNewPdu (ent : RlcTxAmEntity) (payloadSize : Nat) : RlcTxAmEntity :=
  { ent with
    st := { ent.st with
      pduWithoutPoll := (ent.st.pduWithoutPoll + 1) % 2 ^ 32
      byteWithoutPoll := (ent.st.byteWithoutPoll + payloadSize) % 2 ^ 32 } }

def pollThresholdReached (ent : RlcTxAmEntity) : Bool :=
  (0 < ent.cfg.pollPdu && ent.cfg.pollPdu.toNat ≤ ent.st.pduWithoutPoll) ||
    (0 < ent.cfg.pollByte && ent.cfg.pollByte.toNat ≤ ent.st.byteWithoutPoll)

def pollForced (ent : RlcTxAmEntity) : Bool := ent.buffersEmpty || ent.isTxWindowFull

/-- The counters start again, and t-PollRetransmit is restarted. -/
def includePoll (ent : RlcTxAmEntity) (sn : Nat) (isRetx : Bool) : RlcTxAmEntity :=
  { ent with
    st := { ent.st with
      pduWithoutPoll := 0
      byteWithoutPoll := 0
      pollSn := if isRetx then ent.st.pollSn else sn }
    pollRetransmitTimerRunning :=
      if 0 < ent.cfg.tPollRetx ∧ ent.stoppedLower = false then true
      else ent.pollRetransmitTimerRunning }

def getPollingBit (ent : RlcTxAmEntity) (sn : Nat) (isRetx : Bool) (payloadSize : Nat) :
    RlcTxAmEntity × Nat :=
  let counted := if isRetx then ent else ent.countNewPdu payloadSize
  if (!isRetx && counted.pollThresholdReached) || counted.pollForced then
    (counted.includePoll sn isRetx, 1)
  else (counted, 0)

def dataHeader (ent : RlcTxAmEntity) (p : Nat) (si : RlcSiField) (sn so : Nat) : RlcAmPduHeader where
  dc := .data
  p
  si
  snSize := ent.cfg.snFieldLength
  sn
  so := so % 2 ^ 16

def incrementTxNext (ent : RlcTxAmEntity) : RlcTxAmEntity :=
  { ent with st := { ent.st with txNext := (ent.st.txNext + 1) % ent.mod } }

/-- The upper layer is told that the transfer of an SDU begins. -/
def notifyTransfer (ent : RlcTxAmEntity) (sdu : RlcSdu) : RlcTxAmEntity :=
  match sdu.pdcpSn with
  | none => ent
  | some pdcpSn =>
    if sdu.isRetx then ent.notify (.retransmittedSdu pdcpSn)
    else ent.notify (.transmittedSdu pdcpSn ent.cfg.queue.byteLimit.toNat)

/-- A buffer that was moved has no control block, and so no bytes. -/
def movedFrom (_buf : List UInt8) : List UInt8 := []

/-- `next_so` has 32 bits. -/
def advanceSegmentation (ent : RlcTxAmEntity) (sn : Nat) (info : RlcTxAmSduInfo) (payloadLen : Nat) :
    RlcTxAmEntity :=
  ent.setSduInfo sn { info with nextSo := (info.nextSo + payloadLen) % 2 ^ 32 }

def buildFirstSduSegment (ent : RlcTxAmEntity) (grantLen : Nat) (info : RlcTxAmSduInfo) :
    RlcTxAmEntity × Option TxAmPdu :=
  if info.sdu.length + ent.headMinSize ≤ grantLen then (ent, none)
  else if grantLen ≤ ent.headMinSize then (ent, none)
  else
    let payloadLen := (grantLen - ent.headMinSize) % 2 ^ 32
    let ent := { ent with snUnderSegmentation := ent.st.txNext }
    let (ent, p) := ent.getPollingBit ent.st.txNext false payloadLen
    let header := ent.dataHeader p .firstSegment ent.st.txNext info.nextSo
    let payload := (byteBufferView info.sdu header.so payloadLen).take
      (grantLen - (rlcAmWriteDataPduHeader header).length)
    if payload.length = 0 ∨ payload.length ≠ payloadLen then (ent, none)
    else (ent.advanceSegmentation ent.st.txNext info payloadLen, some (.data header payload))

def buildFullSdu (ent : RlcTxAmEntity) (grantLen : Nat) (info : RlcTxAmSduInfo) (moved : List UInt8) :
    RlcTxAmEntity × Option TxAmPdu :=
  let (ent, p) := ent.getPollingBit ent.st.txNext false moved.length
  let header := ent.dataHeader p .fullSdu ent.st.txNext 0
  let payload := info.sdu.take (grantLen - (rlcAmWriteDataPduHeader header).length)
  if payload.length = 0 then (ent, none)
  else (ent.incrementTxNext, some (.data header payload))

def addToWindow (ent : RlcTxAmEntity) (sdu : RlcSdu) : RlcTxAmEntity :=
  ent.setSduInfo ent.st.txNext { sdu := sdu.buf, isRetx := sdu.isRetx, pdcpSn := sdu.pdcpSn }

/-- The part of `build_new_pdu` behind the read of an SDU. -/
def buildSdu (ent : RlcTxAmEntity) (grantLen : Nat) (sdu : RlcSdu) :
    Except TxAmFault (RlcTxAmEntity × Option TxAmPdu) :=
  if ent.hasSn ent.st.txNext then .error (.presentSn ent.st.txNext)
  else
    let info : RlcTxAmSduInfo := { sdu := sdu.buf, isRetx := sdu.isRetx, pdcpSn := sdu.pdcpSn }
    let ent := (ent.addToWindow sdu).notifyTransfer sdu
    if info.sdu.length + ent.headMinSize > grantLen then .ok (ent.buildFirstSduSegment grantLen info)
    else .ok (ent.buildFullSdu grantLen info (movedFrom sdu.buf))

def buildNewPdu (ent : RlcTxAmEntity) (grantLen : Nat) :
    Except TxAmFault (RlcTxAmEntity × Option TxAmPdu) :=
  if grantLen ≤ ent.headMinSize then .ok (ent, none)
  else if ent.isTxWindowFull then .ok (ent, none)
  else
    match ent.sduQueue.read with
    | (queue, none) => .ok ({ ent with sduQueue := queue }, none)
    | (queue, some sdu) => buildSdu { ent with sduQueue := queue } grantLen sdu

def buildContinuedSduSegment (ent : RlcTxAmEntity) (grantLen : Nat) (info : RlcTxAmSduInfo) :
    RlcTxAmEntity × Option TxAmPdu :=
  if info.nextSo = 0 then ({ ent with snUnderSegmentation := invalidRlcSn }, none)
  else if info.nextSo ≥ info.sdu.length then
    ({ ent with snUnderSegmentation := invalidRlcSn }, none)
  else if grantLen ≤ ent.headMaxSize then (ent, none)
  else
    let sn := ent.snUnderSegmentation
    let rest := (info.sdu.length - info.nextSo) % 2 ^ 32
    let last := rest + ent.headMaxSize ≤ grantLen
    let si : RlcSiField := if last then .lastSegment else .middleSegment
    let payloadLen := if last then rest else (grantLen - ent.headMaxSize) % 2 ^ 32
    let ent := if last then { ent with snUnderSegmentation := invalidRlcSn } else ent
    let (ent, p) := ent.getPollingBit ent.st.txNext false payloadLen
    let header := ent.dataHeader p si ent.st.txNext info.nextSo
    let payload := (byteBufferView info.sdu header.so payloadLen).take
      (grantLen - (rlcAmWriteDataPduHeader header).length)
    if payload.length = 0 ∨ payload.length ≠ payloadLen then (ent, none)
    else
      let ent := ent.advanceSegmentation sn info payloadLen
      (if last then ent.incrementTxNext else ent, some (.data header payload))

/-- Drops retransmissions of SNs that are no longer in the window from the front. -/
def dropAbsentRetx : Nat → RlcTxAmEntity → RlcTxAmEntity
  | 0, ent => ent
  | turns + 1, ent =>
    match ent.retxQueue.front? with
    | none => ent
    | some retx =>
      if ent.hasSn retx.sn then ent
      else dropAbsentRetx turns { ent with retxQueue := ent.retxQueue.pop }

def getRetxExpectedHdrLen (ent : RlcTxAmEntity) (retx : RlcTxAmdRetx) : Nat :=
  if retx.so = 0 then ent.headMinSize else ent.headMaxSize

def retxSi (so : Nat) (sduComplete : Bool) : RlcSiField :=
  if so = 0 then if sduComplete then .fullSdu else .firstSegment
  else if sduComplete then .lastSegment else .middleSegment

def updateRetxQueue (ent : RlcTxAmEntity) (info : RlcTxAmSduInfo) (retx : RlcTxAmdRetx)
    (payloadLen : Nat) : RlcTxAmEntity :=
  if payloadLen = retx.length then
    { ent with
      maxRetxReached := ent.maxRetxReached || info.retxCount == ent.cfg.maxRetxThresh
      retxQueue := ent.retxQueue.pop }
  else
    { ent with
      retxQueue := ent.retxQueue.replaceFront
        { retx with
          so := (retx.so + payloadLen) % 2 ^ 32
          length := (retx.length + 2 ^ 32 - payloadLen) % 2 ^ 32 } }

def buildFrontRetx (ent : RlcTxAmEntity) (grantLen : Nat) (retx : RlcTxAmdRetx)
    (info : RlcTxAmSduInfo) : Except TxAmFault (RlcTxAmEntity × Option TxAmPdu) :=
  if (retx.so + retx.length) % 2 ^ 32 > info.sdu.length then
    .ok ({ ent with retxQueue := ent.retxQueue.pop }, none)
  else
    let expectedHdrLen := ent.getRetxExpectedHdrLen retx
    if grantLen ≤ expectedHdrLen then .ok (ent, none)
    else
      let payloadLen := min retx.length (grantLen - expectedHdrLen)
      let si := retxSi retx.so (info.sdu.length ≤ retx.so + payloadLen)
      let (ent, p) := (ent.updateRetxQueue info retx payloadLen).getPollingBit retx.sn true 0
      let header := ent.dataHeader p si retx.sn retx.so
      let headerLen := (rlcAmWriteDataPduHeader header).length
      if headerLen ≠ expectedHdrLen then .error (.headerLen headerLen expectedHdrLen)
      else
        let payload := (byteBufferView info.sdu header.so payloadLen).take (grantLen - headerLen)
        if payload.length = 0 ∨ payload.length ≠ payloadLen then .ok (ent, none)
        else .ok (ent, some (.data header payload))

def buildRetxPdu (ent : RlcTxAmEntity) (grantLen : Nat) :
    Except TxAmFault (RlcTxAmEntity × Option TxAmPdu) :=
  let ent := dropAbsentRetx ent.retxQueue.size ent
  match ent.retxQueue.front? with
  | none => if ent.retxQueue.empty then .ok (ent, none) else .error .noRetx
  | some retx => do
    let ent := { ent with retxSn := retx.sn }
    let info ← ent.sduInfo retx.sn
    ent.buildFrontRetx grantLen retx info

def buildStatusPdu (ent : RlcTxAmEntity) (grantLen : Nat) : RlcTxAmEntity × Option TxAmPdu :=
  if grantLen < sizeofHeaderAckSn then (ent, none)
  else
    let pdu := ent.statusProvider.statusPdu
    let ent :=
      { ent with statusProvider := { ent.statusProvider with statusReportRequired := false } }
    if pdu.packedSize > grantLen then
      match pdu.trim grantLen with
      | (false, _) => (ent, none)
      | (true, trimmed) => (ent, some (.status trimmed))
    else (ent, some (.status pdu))

/-- The part of `pull_pdu` behind the SDU under segmentation. -/
def pullNewPdu (ent : RlcTxAmEntity) (grantLen : Nat) :
    Except TxAmFault (RlcTxAmEntity × Option TxAmPdu) :=
  if ent.sduQueue.isEmpty then .ok (ent, none) else ent.buildNewPdu grantLen

def pullPdu (ent : RlcTxAmEntity) (grantLen : Nat) :
    Except TxAmFault (RlcTxAmEntity × Option TxAmPdu) :=
  if ent.maxRetxReached then .ok (ent, none)
  else if ent.statusProvider.statusReportRequired then .ok (ent.buildStatusPdu grantLen)
  else if ent.retxQueue.empty = false then ent.buildRetxPdu grantLen
  else if ent.snUnderSegmentation ≠ invalidRlcSn then
    match ent.txWindow.get? ent.snUnderSegmentation with
    | some info => .ok (ent.buildContinuedSduSegment grantLen info)
    | none => pullNewPdu { ent with snUnderSegmentation := invalidRlcSn } grantLen
  else ent.pullNewPdu grantLen

def segmentBytes (ent : RlcTxAmEntity) : Nat :=
  if ent.snUnderSegmentation = invalidRlcSn then 0
  else
    match ent.txWindow.get? ent.snUnderSegmentation with
    | some info => (info.sdu.length + 2 ^ 32 - info.nextSo + ent.headMaxSize) % 2 ^ 32
    | none => 0

/-- `get_buffer_state`. It cleans the fronts of both queues on its way. -/
def getBufferState (ent : RlcTxAmEntity) : RlcTxAmEntity × Nat :=
  let queueBytes := (ent.sduQueue.nBytes + ent.sduQueue.nSdus * ent.headMinSize) % 2 ^ 32
  let segmentBytes := ent.segmentBytes
  let retxState := ent.retxQueue.st
  let retxBytes := (retxState.retxBytes + retxState.nRetxSoZero * ent.headMinSize +
    retxState.nRetxSoNonzero * ent.headMaxSize) % 2 ^ 32
  let statusBytes :=
    if ent.statusProvider.statusReportRequired then ent.statusProvider.statusReportSize else 0
  let ent :=
    if ent.snUnderSegmentation = invalidRlcSn then { ent with sduQueue := ent.sduQueue.front.1 }
    else ent
  (dropAbsentRetx ent.retxQueue.size ent,
    (queueBytes + segmentBytes + retxBytes + statusBytes) % 2 ^ 32)

def insideTxWindow (ent : RlcTxAmEntity) (sn : Nat) : Bool := ent.txModBase sn < ent.amWindowSize

def validAckSn (ent : RlcTxAmEntity) (sn : Nat) : Bool :=
  0 < ent.txModBase sn && ent.txModBase sn ≤ ent.amWindowSize

def nackEnd (nack : RlcAmStatusNack) : Nat := (nack.nackSn + nack.nackRange + 2 ^ 32 - 1) % 2 ^ 32

def validNack (ent : RlcTxAmEntity) (ackSn : Nat) (nack : RlcAmStatusNack) :
    Bool × List TxAmNotice :=
  if ent.txModBase nack.nackSn ≥ ent.txModBase ackSn then (false, [])
  else if nack.hasNackRange ∧ ent.txModBase (nackEnd nack) ≥ ent.txModBase ackSn then (false, [])
  else if ent.insideTxWindow nack.nackSn = false then (false, [])
  else if nack.hasNackRange ∧ ent.insideTxWindow (nackEnd nack) = false then (false, [])
  else if ent.txModBase nack.nackSn > ent.txModBase ent.st.txNext then (false, [.protocolFailure])
  else if nack.hasNackRange ∧ ent.txModBase (nackEnd nack) > ent.txModBase ent.st.txNext then
    (false, [.protocolFailure])
  else (true, [])

def validNacks (ent : RlcTxAmEntity) (ackSn : Nat) : List RlcAmStatusNack → Bool × List TxAmNotice
  | [] => (true, [])
  | nack :: rest =>
    match ent.validNack ackSn nack with
    | (true, _) => ent.validNacks ackSn rest
    | (false, notices) => (false, notices)

/-- The highest delivered PDCP SNs of new and of retransmitted PDCP PDUs. -/
structure DeliveredSns where
  pdcpSn : Option Nat := none
  retxPdcpSn : Option Nat := none
  deriving DecidableEq, Repr

def DeliveredSns.update (sns : DeliveredSns) (info : RlcTxAmSduInfo) : DeliveredSns :=
  match info.pdcpSn with
  | none => sns
  | some pdcpSn =>
    if info.isRetx then { sns with retxPdcpSn := some pdcpSn } else { sns with pdcpSn := some pdcpSn }

def DeliveredSns.notices (sns : DeliveredSns) : List TxAmNotice :=
  (sns.pdcpSn.map TxAmNotice.deliveredSdu).toList ++
    (sns.retxPdcpSn.map TxAmNotice.deliveredRetransmittedSdu).toList

/-- The loop over the acknowledged SNs, which moves TX_Next_Ack along. -/
def processAcks (stopSn : Nat) : Nat → Nat → RlcTxAmEntity → DeliveredSns →
    RlcTxAmEntity × DeliveredSns
  | 0, _, ent, sns => (ent, sns)
  | turns + 1, sn, ent, sns =>
    if ent.txModBase sn < ent.txModBase stopSn then
      match ent.txWindow.get? sn with
      | none => (ent, sns)
      | some info =>
        processAcks stopSn turns ((sn + 1) % ent.mod)
          { ent with
            txWindow := ent.txWindow.erase sn
            st := { ent.st with txNextAck := (sn + 1) % ent.mod } }
          (sns.update info)
    else (ent, sns)

def checkSnReachedMaxRetx (ent : RlcTxAmEntity) (sn retxCount : Nat) : RlcTxAmEntity :=
  if retxCount = ent.cfg.maxRetxThresh then ent.notify (.maxRetx sn) else ent

def incrementedRetxCount (retxCount : Nat) : Nat :=
  if retxCount = retxCountNotStarted then 0 else (retxCount + 1) % 2 ^ 32

def decrementedRetxCount (retxCount : Nat) : Nat :=
  if retxCount = retxCountNotStarted then retxCount
  else if retxCount = 0 then retxCountNotStarted
  else retxCount - 1

def incrementRetxCount (ent : RlcTxAmEntity) (sn : Nat) : Except TxAmFault RlcTxAmEntity := do
  let info ← ent.sduInfo sn
  let retxCount := incrementedRetxCount info.retxCount
  return (ent.setSduInfo sn { info with retxCount }).checkSnReachedMaxRetx sn retxCount

def decrementRetxCount (ent : RlcTxAmEntity) (sn : Nat) : RlcTxAmEntity :=
  match ent.txWindow.get? sn with
  | none => ent
  | some info => ent.setSduInfo sn { info with retxCount := decrementedRetxCount info.retxCount }

/-- The loop that clears the queue. Counts go back for retransmissions that were not started. -/
def clearRetxQueue : Nat → RlcTxAmEntity → RlcTxAmEntity
  | 0, ent => ent
  | turns + 1, ent =>
    match ent.retxQueue.front? with
    | none => ent
    | some retx =>
      let ent :=
        if ent.retxSn = retx.sn then ent
        else { ent.decrementRetxCount retx.sn with retxSn := retx.sn }
      clearRetxQueue turns { ent with retxQueue := ent.retxQueue.pop }

/-- The end of a NACK in 16 bits, with the mark for the end of the SDU replaced. The SDU under
segmentation is retransmitted as far as it was sent. -/
def nackSoEnd (ent : RlcTxAmEntity) (nack : RlcAmStatusNack) (info : RlcTxAmSduInfo) : Option Nat :=
  let sduEnd := (info.sdu.length + 2 ^ 32 - 1) % 2 ^ 16
  let soEnd := if nack.hasSo then nack.soEnd else sduEnd
  let soStart := if nack.hasSo then nack.soStart else 0
  if soEnd = soEndOfSdu then
    if nack.nackSn ≠ ent.snUnderSegmentation then some sduEnd
    else if info.nextSo = 0 then none
    else if soStart > info.nextSo then none
    else if soStart = info.nextSo then none
    else some ((info.nextSo - 1) % 2 ^ 16)
  else some soEnd

/-- Offsets within the SDU, with the failures that are reported at once or through the other executor. -/
def clampNack (soStart soEnd sduLength : Nat) : Nat × Nat × List TxAmNotice :=
  let (soStart, first) := if soStart > soEnd then (0, [TxAmNotice.protocolFailure]) else (soStart, [])
  let (soStart, second) :=
    if soStart ≥ sduLength then (0, [TxAmNotice.protocolFailure]) else (soStart, [])
  let (soEnd, third) :=
    if soEnd ≥ sduLength then
      ((sduLength + 2 ^ 32 - 1) % 2 ^ 16, [TxAmNotice.protocolFailure, .protocolFailure])
    else (soEnd, [])
  (soStart, soEnd, first ++ second ++ third)

def scheduleRetx (ent : RlcTxAmEntity) (retx : RlcTxAmdRetx) : RlcTxAmEntity × Bool :=
  ({ ent with retxQueue := (ent.retxQueue.tryPush retx).1 }, (ent.retxQueue.tryPush retx).2)

def handleNack (ent : RlcTxAmEntity) (nack : RlcAmStatusNack) : Except TxAmFault (RlcTxAmEntity × Bool) :=
  if nack.hasNackRange then .ok (ent, false)
  else if ent.txModBase nack.nackSn ≤ ent.txModBase ent.st.txNext then do
    let info ← ent.sduInfo nack.nackSn
    match ent.nackSoEnd nack info with
    | none => return (ent, false)
    | some soEnd =>
      let (soStart, soEnd, failures) :=
        clampNack (if nack.hasSo then nack.soStart else 0) soEnd (info.sdu.length % 2 ^ 32)
      return { ent with notices := ent.notices ++ failures }.scheduleRetx
        { sn := nack.nackSn, so := soStart, length := (soEnd + 2 ^ 32 - soStart + 1) % 2 ^ 32 }
  else .ok (ent, false)

def rangeNack (nack : RlcAmStatusNack) (mod offset : Nat) : RlcAmStatusNack :=
  let soStart := if nack.hasSo && offset == 0 then nack.soStart else 0
  let soEnd := if nack.hasSo && offset + 1 == nack.nackRange then nack.soEnd else soEndOfSdu
  { nackSn := (nack.nackSn + offset) % mod
    hasSo := nack.hasSo && (soStart != 0 || soEnd != soEndOfSdu)
    soStart
    soEnd }

/-- A NACK as NACKs of single SNs. A range ends at ACK_SN at the latest. -/
def expandNack (mod ackSn : Nat) (nack : RlcAmStatusNack) : List RlcAmStatusNack :=
  if nack.hasNackRange then
    ((List.range nack.nackRange).map (rangeNack nack mod)).takeWhile fun nack => nack.nackSn ≠ ackSn
  else [nack]

/-- The count of an SN is incremented for the first NACK in a row with this SN. -/
def processNack (ent : RlcTxAmEntity) (prevRetxSn : Nat) (nack : RlcAmStatusNack) :
    Except TxAmFault (RlcTxAmEntity × Nat) := do
  let (ent, considered) ← ent.handleNack nack
  if considered ∧ prevRetxSn ≠ nack.nackSn then
    let ent ← ent.incrementRetxCount nack.nackSn
    return (ent, nack.nackSn)
  else return (ent, prevRetxSn)

def processNacks : List RlcAmStatusNack → RlcTxAmEntity → Nat → Except TxAmFault RlcTxAmEntity
  | [], ent, _ => .ok ent
  | nack :: rest, ent, prevRetxSn => do
    let (ent, prevRetxSn) ← ent.processNack prevRetxSn nack
    processNacks rest ent prevRetxSn

/-- A positive or negative acknowledgement for POLL_SN stops t-PollRetransmit. -/
def stopPollRetransmitTimer (ent : RlcTxAmEntity) (ackSn : Nat) : RlcTxAmEntity :=
  if ent.txModBase ent.st.pollSn < ent.txModBase ackSn then
    { ent with pollRetransmitTimerRunning := false }
  else ent

def handleAcks (ent : RlcTxAmEntity) (status : RlcAmStatusPdu) : RlcTxAmEntity :=
  let stopSn := (status.nacks.head?.map RlcAmStatusNack.nackSn).getD status.ackSn
  let (ent, sns) := processAcks stopSn (ent.txModBase stopSn) ent.st.txNextAck ent {}
  { ent with notices := ent.notices ++ sns.notices }

/-- The queue and the counts without what was not retransmitted since the last status report. -/
def rewindRetx (ent : RlcTxAmEntity) : RlcTxAmEntity :=
  { clearRetxQueue ent.retxQueue.size ent with retxSn := invalidRlcSn }

/-- The part of `handle_status_pdu` behind the checks. -/
def processStatus (ent : RlcTxAmEntity) (status : RlcAmStatusPdu) : Except TxAmFault RlcTxAmEntity := do
  let ent := ((ent.stopPollRetransmitTimer status.ackSn).handleAcks status).rewindRetx
  let ent ← processNacks (status.nacks.flatMap (expandNack ent.mod status.ackSn)) ent invalidRlcSn
  return ent.getBufferState.1

def handleStatusPdu (ent : RlcTxAmEntity) (status : RlcAmStatusPdu) : Except TxAmFault RlcTxAmEntity :=
  if ent.validAckSn status.ackSn = false then .ok ent
  else if ent.txModBase status.ackSn > ent.txModBase (ent.st.txNext + 1) then
    .ok (ent.notify .protocolFailure)
  else
    match ent.validNacks status.ackSn status.nacks with
    | (false, notices) => .ok { ent with notices := ent.notices ++ notices }
    | (true, _) => ent.processStatus status

def onExpiredPollRetransmitTimer (ent : RlcTxAmEntity) : Except TxAmFault RlcTxAmEntity :=
  if ent.pollForced then
    if ent.txWindow.isEmpty then .ok ent
    else
      match ent.txWindow.get? ent.st.txNextAck with
      | none => .ok ent
      | some info => do
        let (ent, enqueued) := ent.scheduleRetx
          { sn := ent.st.txNextAck, so := 0, length := info.sdu.length % 2 ^ 32 }
        let ent ← if enqueued then ent.incrementRetxCount ent.st.txNextAck else .ok ent
        return ent.getBufferState.1
  else .ok ent

def stop (ent : RlcTxAmEntity) : RlcTxAmEntity :=
  { ent with stoppedLower := true, pollRetransmitTimerRunning := false }

end RlcTxAmEntity

/-- The events of the transmitter. The receiver may change what it offers at any time. -/
inductive TxAmEvent where
  | handleSdu (sduBuf : List UInt8) (isRetx : Bool)
  | discardSdu (pdcpSn : Nat)
  | pullPdu (grantLen : Nat)
  | statusPdu (status : RlcAmStatusPdu)
  | pollRetransmitExpiry
  | bufferStateUpdate
  | statusReport (required : Bool) (pdu : RlcAmStatusPdu)
  | stop
  deriving DecidableEq, Repr

namespace RlcTxAmEntity

def expirePollRetransmit (ent : RlcTxAmEntity) : Except TxAmFault RlcTxAmEntity :=
  if ent.pollRetransmitTimerRunning then
    onExpiredPollRetransmitTimer { ent with pollRetransmitTimerRunning := false }
  else .ok ent

def step (ent : RlcTxAmEntity) : TxAmEvent → Except TxAmFault (RlcTxAmEntity × Option TxAmPdu)
  | .handleSdu sduBuf isRetx => .ok ((ent.handleSdu sduBuf isRetx).1, none)
  | .discardSdu pdcpSn => .ok ((ent.discardSdu pdcpSn).1, none)
  | .pullPdu grantLen => ent.pullPdu grantLen
  | .statusPdu status => do return (← ent.handleStatusPdu status, none)
  | .pollRetransmitExpiry => do return (← ent.expirePollRetransmit, none)
  | .bufferStateUpdate => .ok (ent.getBufferState.1, none)
  | .statusReport required pdu =>
    .ok ({ ent with
      statusProvider :=
        { statusReportRequired := required, statusPdu := pdu, statusReportSize := pdu.packedSize } },
      none)
  | .stop => .ok (ent.stop, none)

end RlcTxAmEntity
end Srsran.Rlc
