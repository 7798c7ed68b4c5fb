import Srsran.Adt.CircularMap
import Srsran.Pdcp.Security
import Srsran.Pdcp.Sn

/-! Transmitting PDCP entity (`pdcp_entity_tx.cpp`, `pdcp_tx_window.cpp`). SDUs get their COUNT when
they arrive, are protected by the crypto executor, whose jobs end in any order, and go to the lower
layers in order of COUNT. Copies and allocations are taken to succeed. -/
namespace Srsran.Pdcp
open Srsran.Support Srsran.Adt

inductive PdcpDiscardTimer where
  | ms (duration : Nat)
  | infinity
  deriving DecidableEq, Repr

structure PdcpTxConfig where
  rbType : PdcpRbType
  rlcMode : PdcpRlcMode
  snSize : PdcpSnSize
  discardTimer : Option PdcpDiscardTimer
  testMode : Bool := false
  maxCount : PdcpMaxCount
  /-- The constructor rejects SRBs over RLC UM and with long SNs. -/
  srb_am : rbType = .srb → rlcMode = .am ∧ snSize = .size12bits
  deriving DecidableEq, Repr

namespace PdcpTxConfig

def isSrb (cfg : PdcpTxConfig) : Bool := cfg.rbType == .srb

def isUm (cfg : PdcpTxConfig) : Bool := cfg.rlcMode == .um

def isAm (cfg : PdcpTxConfig) : Bool := cfg.rlcMode == .am

def discardTicks (cfg : PdcpTxConfig) : Nat :=
  match cfg.discardTimer with
  | some (.ms duration) => duration
  | _ => 0

end PdcpTxConfig

structure PdcpTxState where
  txNext : Nat := 0
  txTransCrypto : Nat := 0
  txReordCrypto : Nat := 0
  txTrans : Nat := 0
  txNextAck : Nat := 0
  deriving DecidableEq, Repr

/-- Buffers in the crypto executor: SDU with header before, PDU after. -/
structure PdcpTxBufferInfo where
  isRetx : Bool
  retxId : Nat
  count : Nat
  buf : List UInt8
  deriving DecidableEq, Repr

/-- An SDU in the TX window. `pdu` waits for its turn and is empty otherwise. The flag `pduIsRetx`
of the job that made the PDU is not kept by the source. -/
structure PdcpTxWindowElement where
  sdu : List UInt8
  count : Nat
  tickPointOfArrival : Option Nat
  sduLength : Nat
  pdu : List UInt8 := []
  pduIsRetx : Bool := false
  deriving DecidableEq, Repr

structure PdcpTxWindow where
  txWindow : CircularMap PdcpTxWindowElement
  sduBytes : Nat := 0
  nofSdus : Nat := 0

namespace PdcpTxWindow

def hasSn (window : PdcpTxWindow) (count : Nat) : Bool := window.txWindow.contains count

def addSdu (window : PdcpTxWindow) (elem : PdcpTxWindowElement) : PdcpTxWindow where
  txWindow := window.txWindow.overwrite elem.count elem
  sduBytes := (window.sduBytes + elem.sduLength) % 2 ^ 32
  nofSdus := (window.nofSdus + 1) % 2 ^ 32

def removeSdu (window : PdcpTxWindow) (count : Nat) : PdcpTxWindow :=
  match window.txWindow.get? count with
  | some elem =>
    { txWindow := window.txWindow.erase count
      sduBytes := (window.sduBytes + 2 ^ 32 - elem.sduLength) % 2 ^ 32
      nofSdus := (window.nofSdus + 2 ^ 32 - 1) % 2 ^ 32 }
  | none => window

def setElement (window : PdcpTxWindow) (count : Nat) (elem : PdcpTxWindowElement) : PdcpTxWindow :=
  { window with txWindow := window.txWindow.overwrite count elem }

def clear (window : PdcpTxWindow) : PdcpTxWindow where
  txWindow := CircularMap.empty _ window.txWindow.capacity

def trailerSize (cfg : PdcpTxConfig) (integrityEnabled : Bool) : Nat :=
  if cfg.isSrb || integrityEnabled then 4 else 0

def getPduBytes (window : PdcpTxWindow) (cfg : PdcpTxConfig) (integrityEnabled : Bool) : Nat :=
  (window.sduBytes + window.nofSdus *
    (pdcpDataPduHeaderSize cfg.snSize + trailerSize cfg integrityEnabled)) % 2 ^ 32

end PdcpTxWindow

/-- What the entity tells its upper and lower layers, in order, the uses of its engines, and the
points at which it is re-established, recovers data, starts again with COUNT 0 or gets new engines.
The lower layers see the PDU and its flag; the COUNT and the flag of the job that made the PDU are
for the reader. -/
inductive TxNotice where
  | protectedSdu (count : Nat) (buf : List UInt8)
  | newPdu (count : Nat) (pdu : List UInt8) (isRetx generatedByRetx : Bool)
  | discardPdu (sn : Nat)
  | maxCountReached
  | protocolFailure
  | securityConfigured
  | countersReset
  | dataRecovery
  | reestablished
  deriving DecidableEq, Repr

/-- Assertions: `operator[]` of the window, `add_sn`, arrival times, and `value` of a failed
result. -/
inductive TxFault where
  | absentCount (count : Nat)
  | countPresent (count : Nat)
  | noArrivalTime (count : Nat)
  | badExpectedAccess
  deriving DecidableEq, Repr

/-- The discard timer, in ticks without the wrap-around of their 32-bit counter, of which the source
only takes differences. `expiry` counts while it runs. The durations of `stop_discard_timer`, before
they are made unsigned, and the SDUs of `discard_callback`, with arrival and removal, are for the
reader. -/
structure DiscardTimer where
  running : Bool := false
  now : Nat := 0
  expiry : Nat := 0
  newTimeouts : List Int := []
  expired : List (Nat × Nat) := []

namespace DiscardTimer

def stop (timer : DiscardTimer) : DiscardTimer := { timer with running := false }

/-- `set` and `run`: a run takes one tick at least. Whether the duration is within the range of the
timers is asserted there. -/
def run (timer : DiscardTimer) (newTimeout : Int) : DiscardTimer :=
  { timer with
    running := true
    expiry := timer.now + max (newTimeout % 2 ^ 32).toNat 1 }

def restart (timer : DiscardTimer) (newTimeout : Int) : DiscardTimer :=
  { timer.run newTimeout with newTimeouts := timer.newTimeouts ++ [newTimeout] }

def expire (timer : DiscardTimer) (arrival : Option Nat) : DiscardTimer :=
  { timer with expired := timer.expired ++ arrival.toList.map fun tick => (tick, timer.now) }

end DiscardTimer

structure PdcpEntityTx where
  cfg : PdcpTxConfig
  st : PdcpTxState := {}
  txWindow : PdcpTxWindow
  discardTimer : DiscardTimer := {}
  cryptoReorderingTimerRunning : Bool := false
  retransmitId : Nat := 0
  desiredBufferSize : Nat := 0
  maxCountNotified : Bool := false
  maxCountOverflow : Bool := false
  integrityEnabled : Bool := false
  cipheringEnabled : Bool := false
  secEngine : Option SecurityContext := none
  stopped : Bool := false
  buffering : Bool := false
  sduBuffer : List (List UInt8) := []
  /-- SDUs with header in the crypto executor. -/
  cryptoJobs : List PdcpTxBufferInfo := []
  /-- Results on their way back to the executor of the entity. -/
  cryptoResults : List (Except SecurityError PdcpTxBufferInfo) := []
  notices : List TxNotice := []

namespace PdcpEntityTx

def create (cfg : PdcpTxConfig) : PdcpEntityTx where
  cfg
  txWindow := { txWindow := CircularMap.empty _ (pdcpWindowSize cfg.snSize) }

def notify (ent : PdcpEntityTx) (notice : TxNotice) : PdcpEntityTx :=
  { ent with notices := ent.notices ++ [notice] }

def setCount (ent : PdcpEntityTx) (hfn sn : Nat) : PdcpEntityTx :=
  let count := pdcpComputeCount hfn sn ent.cfg.snSize
  { ent with st := ⟨count, count, count, count, count⟩ }

def skipAbsent : Nat → PdcpEntityTx → PdcpEntityTx
  | 0, ent => ent
  | turns + 1, ent =>
    if ent.st.txNextAck < ent.st.txNext ∧ ent.txWindow.hasSn ent.st.txNextAck = false then
      skipAbsent turns { ent with st := { ent.st with txNextAck := ent.st.txNextAck + 1 } }
    else ent

def raiseTxTrans (ent : PdcpEntityTx) : PdcpEntityTx :=
  { ent with st := { ent.st with txTrans := max ent.st.txTrans ent.st.txNextAck } }

def dropSdu (ent : PdcpEntityTx) (count : Nat) : PdcpEntityTx :=
  { ent.notify (.discardPdu (pdcpComputeSn count ent.cfg.snSize)) with
    txWindow := ent.txWindow.removeSdu count }

def discardPdu (ent : PdcpEntityTx) (count : Nat) : PdcpEntityTx :=
  if ent.cfg.discardTimer.isNone then ent
  else if count < ent.st.txNextAck ∨ count ≥ ent.st.txNext then ent
  else if ent.txWindow.hasSn count = false then ent
  else
    let ent := ent.dropSdu count
    (skipAbsent (ent.st.txNext - ent.st.txNextAck) ent).raiseTxTrans

/-- Reads an element through `operator[]`. -/
def element (ent : PdcpEntityTx) (count : Nat) : Except TxFault PdcpTxWindowElement :=
  match ent.txWindow.txWindow.get? count with
  | some elem => .ok elem
  | none => .error (.absentCount count)

def arrival (elem : PdcpTxWindowElement) : Except TxFault Nat :=
  match elem.tickPointOfArrival with
  | some tick => .ok tick
  | none => .error (.noArrivalTime elem.count)

/-- Removes everything from TX_NEXT_ACK up to a COUNT, the loop of `stop_discard_timer`. -/
def removeUpTo : Nat → PdcpEntityTx → PdcpEntityTx
  | 0, ent => ent
  | turns + 1, ent =>
    removeUpTo turns
      { ent with
        txWindow := ent.txWindow.removeSdu ent.st.txNextAck
        st := { ent.st with txNextAck := ent.st.txNextAck + 1 } }

def restartDiscardTimer (ent : PdcpEntityTx) : Except TxFault PdcpEntityTx :=
  if ent.cfg.discardTimer = some .infinity then .ok ent
  else if ent.st.txNextAck ≠ ent.st.txNext then do
    let elem ← ent.element ent.st.txNextAck
    let tick ← arrival elem
    let newTimeout : Int := tick + ent.cfg.discardTicks - ent.discardTimer.now
    .ok { ent with discardTimer := ent.discardTimer.restart newTimeout }
  else .ok ent

def stopDiscardTimer (ent : PdcpEntityTx) (highestCount : Nat) : Except TxFault PdcpEntityTx :=
  if ent.cfg.discardTimer.isNone then .ok ent
  else if highestCount < ent.st.txNextAck ∨ highestCount ≥ ent.st.txNext then .ok ent
  else if ent.txWindow.hasSn ent.st.txNextAck = false then .ok ent
  else
    let ent := { ent with discardTimer := ent.discardTimer.stop }
    let ent := removeUpTo (highestCount + 1 - ent.st.txNextAck) ent
    restartDiscardTimer ent.raiseTxTrans

/-- The lower edge of the window is TX_NEXT_ACK only with a discard timer. -/
def txLower (ent : PdcpEntityTx) : Nat :=
  if ent.cfg.discardTimer.isSome then ent.st.txNextAck else ent.st.txTrans

def notificationCountEstimation (ent : PdcpEntityTx) (notificationSn : Nat) : Nat :=
  countEstimation ent.cfg.snSize ent.txLower notificationSn

def handleTransmitNotificationImpl (ent : PdcpEntityTx) (notifSn : Nat) :
    Except TxFault PdcpEntityTx :=
  if notifSn ≥ pdcpSnCardinality ent.cfg.snSize then .ok ent
  else
    let notifCount := ent.notificationCountEstimation notifSn
    if notifCount ≥ ent.st.txTransCrypto then .ok ent
    else if notifCount < ent.st.txTrans then .ok ent
    else if notifCount ≥ ent.st.txNext then .ok ent
    else
      let ent := { ent with st := { ent.st with txTrans := (notifCount + 1) % 2 ^ 32 } }
      if ent.cfg.discardTimer.isNone then .ok ent
      else if ent.cfg.isUm then ent.stopDiscardTimer notifCount
      else .ok ent

def handleTransmitNotification (ent : PdcpEntityTx) (notifSn : Nat) : Except TxFault PdcpEntityTx :=
  if ent.stopped then .ok ent else ent.handleTransmitNotificationImpl notifSn

def handleDeliveryNotificationImpl (ent : PdcpEntityTx) (notifSn : Nat) :
    Except TxFault PdcpEntityTx :=
  if notifSn ≥ pdcpSnCardinality ent.cfg.snSize then .ok ent
  else
    let notifCount := ent.notificationCountEstimation notifSn
    if notifCount ≥ ent.st.txNext then .ok ent
    else if ent.cfg.discardTimer.isNone then .ok ent
    else if ent.cfg.isAm then ent.stopDiscardTimer notifCount
    else .ok ent

def handleDeliveryNotification (ent : PdcpEntityTx) (notifSn : Nat) : Except TxFault PdcpEntityTx :=
  if ent.stopped then .ok ent else ent.handleDeliveryNotificationImpl notifSn

def handleRetransmitNotification (ent : PdcpEntityTx) (notifSn : Nat) :
    Except TxFault PdcpEntityTx :=
  if ent.stopped ∨ ent.cfg.isSrb ∨ ent.cfg.isUm then .ok ent
  else ent.handleTransmitNotificationImpl notifSn

def handleDeliveryRetransmittedNotification (ent : PdcpEntityTx) (notifSn : Nat) :
    Except TxFault PdcpEntityTx :=
  if ent.stopped ∨ ent.cfg.isSrb ∨ ent.cfg.isUm then .ok ent
  else ent.handleDeliveryNotificationImpl notifSn

def handleDesiredBufferSizeNotification (ent : PdcpEntityTx) (desiredBs : Nat) : PdcpEntityTx :=
  if ent.stopped then ent else { ent with desiredBufferSize := desiredBs }

/-- `write_data_pdu_to_lower_layers` for the element at TX_TRANS_CRYPTO. Its PDU is moved out. -/
def writeDataPdu (ent : PdcpEntityTx) (elem : PdcpTxWindowElement) (isRetx : Bool) : PdcpEntityTx :=
  { ent.notify (.newPdu ent.st.txTransCrypto elem.pdu isRetx elem.pduIsRetx) with
    txWindow := ent.txWindow.setElement ent.st.txTransCrypto { elem with pdu := [] } }

def setTxTransCrypto (ent : PdcpEntityTx) (count : Nat) : PdcpEntityTx :=
  { ent with st := { ent.st with txTransCrypto := count } }

def passOn (ent : PdcpEntityTx) (elem : PdcpTxWindowElement) (isRetx : Bool) : PdcpEntityTx :=
  (ent.writeDataPdu elem isRetx).setTxTransCrypto (ent.st.txTransCrypto + 1)

def notifyInTestMode (ent : PdcpEntityTx) (count : Nat) : Except TxFault PdcpEntityTx :=
  if ent.cfg.testMode then ent.handleTransmitNotification (pdcpComputeSn count ent.cfg.snSize)
  else .ok ent

def releaseLoop (isRetx : Bool) : Nat → PdcpEntityTx → Except TxFault PdcpEntityTx
  | 0, ent => .ok ent
  | turns + 1, ent =>
    if ent.st.txTransCrypto < ent.st.txNext then do
      let elem ← ent.element ent.st.txTransCrypto
      if elem.pdu.isEmpty then .ok ent
      else do
        let ent ← (ent.passOn elem isRetx).notifyInTestMode ent.st.txTransCrypto
        releaseLoop isRetx turns ent
    else .ok ent

def releaseInOrder (ent : PdcpEntityTx) (isRetx : Bool) : Except TxFault PdcpEntityTx :=
  releaseLoop isRetx (ent.st.txNext - ent.st.txTransCrypto) ent

def startCryptoReordering (ent : PdcpEntityTx) : PdcpEntityTx :=
  { ent with
    st := { ent.st with txReordCrypto := ent.st.txNext }
    cryptoReorderingTimerRunning := true }

def stopCryptoReordering (ent : PdcpEntityTx) : PdcpEntityTx :=
  { ent with cryptoReorderingTimerRunning := false }

/-- The timer part of `apply_reordering`. -/
def updateCryptoReordering (ent : PdcpEntityTx) : PdcpEntityTx :=
  let ent :=
    if ent.cryptoReorderingTimerRunning ∧ ent.st.txTransCrypto ≥ ent.st.txReordCrypto then
      ent.stopCryptoReordering
    else ent
  if ent.cryptoReorderingTimerRunning = false ∧ ent.st.txTransCrypto < ent.st.txNext then
    ent.startCryptoReordering
  else ent

/-- The result belongs to an SDU of the window that still waits for it. -/
def acceptsResult (ent : PdcpEntityTx) (info : PdcpTxBufferInfo) : Bool :=
  !ent.stopped && info.retxId == ent.retransmitId && !decide (info.count < ent.st.txNextAck) &&
    !decide (info.count < ent.st.txTrans) && ent.txWindow.hasSn info.count

def parkPdu (ent : PdcpEntityTx) (elem : PdcpTxWindowElement) (info : PdcpTxBufferInfo) :
    PdcpEntityTx :=
  { ent with
    txWindow := ent.txWindow.setElement info.count
      { elem with pdu := info.buf, pduIsRetx := info.isRetx } }

def applyReordering (ent : PdcpEntityTx) (info : PdcpTxBufferInfo) : Except TxFault PdcpEntityTx :=
  if ent.acceptsResult info then do
    let elem ← ent.element info.count
    let ent ← (ent.parkPdu elem info).releaseInOrder info.isRetx
    .ok ent.updateCryptoReordering
  else .ok ent

def writeIfReady (ent : PdcpEntityTx) : PdcpEntityTx :=
  match ent.txWindow.txWindow.get? ent.st.txTransCrypto with
  | some elem => if elem.pdu.isEmpty then ent else ent.writeDataPdu elem false
  | none => ent

/-- The loop that moves TX_TRANS_CRYPTO to TX_REORD_CRYPTO over missing PDUs. -/
def releaseBelowReord : Nat → PdcpEntityTx → PdcpEntityTx
  | 0, ent => ent
  | turns + 1, ent =>
    releaseBelowReord turns
      (ent.writeIfReady.setTxTransCrypto ((ent.st.txTransCrypto + 1) % 2 ^ 32))

/-- `crypto_reordering_timeout`. The timer has stopped when it is called. -/
def cryptoReorderingTimeout (ent : PdcpEntityTx) : Except TxFault PdcpEntityTx :=
  let ent := ent.stopCryptoReordering
  if ent.stopped then .ok ent
  else do
    let ent := releaseBelowReord (countDistance ent.st.txTransCrypto ent.st.txReordCrypto) ent
    let ent ← ent.releaseInOrder false
    if ent.st.txTransCrypto < ent.st.txNext then .ok ent.startCryptoReordering else .ok ent

/-- `apply_ciphering_and_integrity_protection`. Without engines SRBs get a zero MAC-I. The value of a
result is taken without regard to its failure. -/
def applyCipheringAndIntegrityProtection (engine : SecurityContext → SecurityEngine)
    (ent : PdcpEntityTx) (buf : List UInt8) (count : Nat) :
    Except TxFault (Except SecurityError (List UInt8)) :=
  match ent.secEngine with
  | none =>
    if ent.cfg.isSrb then .ok (.ok (buf ++ List.replicate secMacLen 0))
    else .ok (.error .engineFailure)
  | some context =>
    match (engine context).encryptAndProtectIntegrity buf (pdcpDataPduHeaderSize ent.cfg.snSize)
      count with
    | .ok pdu => .ok (.ok pdu)
    | .error _ => .error .badExpectedAccess

def applySecurity (engine : SecurityContext → SecurityEngine) (ent : PdcpEntityTx)
    (info : PdcpTxBufferInfo) : Except TxFault (Except SecurityError PdcpTxBufferInfo) := do
  match ← applyCipheringAndIntegrityProtection engine ent info.buf info.count with
  | .ok buf => .ok (.ok { info with buf })
  | .error err => .ok (.error err)

/-- `configure_security`: an enabled integrity protection needs a key and an algorithm. -/
def configureSecurity (ent : PdcpEntityTx) (secCfg : Sec128AsConfig)
    (integrityEnabled cipheringEnabled : Bool) : PdcpEntityTx :=
  if integrityEnabled ∧ (secCfg.k128Int.isNone ∨ secCfg.integAlgo.isNone) then ent
  else
    { ent.notify .securityConfigured with
      integrityEnabled
      cipheringEnabled
      secEngine := some { secCfg, integrityEnabled, cipheringEnabled } }

def writeDataPduHeader (cfg : PdcpTxConfig) (sn : Nat) : List UInt8 :=
  let dc := if cfg.isSrb then 0x00 else 0x80
  match cfg.snSize with
  | .size12bits => [UInt8.ofNat (dc ||| ((sn &&& 0x00000f00) >>> 8)), UInt8.ofNat (sn &&& 0x000000ff)]
  | .size18bits =>
    [UInt8.ofNat (dc ||| ((sn &&& 0x00030000) >>> 16)), UInt8.ofNat ((sn &&& 0x0000ff00) >>> 8),
      UInt8.ofNat (sn &&& 0x000000ff)]

inductive EarlyDropReason where
  | zeroDbs
  | fullRlcQueue
  | fullWindow
  | noDrop
  deriving DecidableEq, Repr

def getPduSize (ent : PdcpEntityTx) (sdu : List UInt8) : Nat :=
  pdcpDataPduHeaderSize ent.cfg.snSize + sdu.length + if ent.integrityEnabled then 4 else 0

def checkEarlyDrop (ent : PdcpEntityTx) (buf : List UInt8) : EarlyDropReason :=
  if ent.desiredBufferSize = 0 then .zeroDbs
  else if (ent.txWindow.getPduBytes ent.cfg ent.integrityEnabled + ent.getPduSize buf) % 2 ^ 32 >
      ent.desiredBufferSize then .fullRlcQueue
  else if countDistance ent.st.txNextAck ent.st.txNext ≥ pdcpWindowSize ent.cfg.snSize - 1 then
    .fullWindow
  else .noDrop

/-- Above the hard limit nothing is sent; the failure is reported once. -/
def refuseMaxCount (ent : PdcpEntityTx) : PdcpEntityTx :=
  if ent.maxCountOverflow then ent
  else { ent.notify .protocolFailure with maxCountOverflow := true }

def checkMaxCountNotify (ent : PdcpEntityTx) : PdcpEntityTx :=
  if ent.st.txNext ≥ ent.cfg.maxCount.notify ∧ ent.maxCountNotified = false then
    { ent.notify .maxCountReached with maxCountNotified := true }
  else ent

/-- The SDU as it is kept in the window: with its arrival for a finite discard timer, and with its
bytes for a possible retransmission. -/
def windowElement (ent : PdcpEntityTx) (buf : List UInt8) (now : Nat) : PdcpTxWindowElement where
  sdu := if ent.cfg.discardTimer.isSome && ent.cfg.isAm then buf else []
  count := ent.st.txNext
  tickPointOfArrival :=
    match ent.cfg.discardTimer with
    | some (.ms _) => some now
    | _ => none
  sduLength := buf.length

def startDiscardTimer (ent : PdcpEntityTx) : PdcpEntityTx :=
  match ent.cfg.discardTimer with
  | some (.ms duration) =>
    if ent.discardTimer.running then ent
    else { ent with discardTimer := ent.discardTimer.run duration }
  | _ => ent

def submit (ent : PdcpEntityTx) (isRetx : Bool) (count : Nat) (buf : List UInt8) : PdcpEntityTx :=
  { ent with
    cryptoJobs := ent.cryptoJobs ++
      [{ isRetx, retxId := ent.retransmitId, count,
         buf := writeDataPduHeader ent.cfg (pdcpComputeSn count ent.cfg.snSize) ++ buf }] }

/-- The SDU gets COUNT TX_NEXT, a place in the window and a job. -/
def assignCount (ent : PdcpEntityTx) (buf : List UInt8) (now : Nat) : PdcpEntityTx :=
  let ent := { ent with txWindow := ent.txWindow.addSdu (ent.windowElement buf now) }
  let ent := ent.submit false ent.st.txNext buf
  { ent with st := { ent.st with txNext := (ent.st.txNext + 1) % 2 ^ 32 } }

/-- The part of `handle_sdu` after the early drop. -/
def transmitSdu (ent : PdcpEntityTx) (buf : List UInt8) (now : Nat) : Except TxFault PdcpEntityTx :=
  if ent.st.txNext ≥ ent.cfg.maxCount.hard then .ok ent.refuseMaxCount
  else
    let ent := ent.checkMaxCountNotify.startDiscardTimer
    if ent.txWindow.hasSn ent.st.txNext then .error (.countPresent ent.st.txNext)
    else .ok (ent.assignCount buf now)

def sduBufferCapacity : Nat := 2048

def handleSdu (ent : PdcpEntityTx) (buf : List UInt8) (now : Nat) : Except TxFault PdcpEntityTx :=
  if ent.stopped then .ok ent
  else if ent.buffering then
    if ent.sduBuffer.length < sduBufferCapacity then
      .ok { ent with sduBuffer := ent.sduBuffer ++ [buf] }
    else .ok ent
  else if ent.cfg.isSrb = false ∧ ent.checkEarlyDrop buf ≠ .noDrop then .ok ent
  else ent.transmitSdu buf now

def beginBuffering (ent : PdcpEntityTx) : PdcpEntityTx := { ent with buffering := true }

def endBuffering (ent : PdcpEntityTx) (now : Nat) : Except TxFault PdcpEntityTx :=
  ent.sduBuffer.foldlM (fun ent buf => ent.handleSdu buf now)
    { ent with buffering := false, sduBuffer := [] }

/-! Status report, data recovery and re-establishment. -/

def unpackBits : Nat → BitDecoder → List Nat
  | 0, _ => []
  | turns + 1, dec =>
    match dec.unpack 1 with
    | (some bit, dec) => bit :: unpackBits turns dec
    | (none, _) => []

/-- FMC and bitmap of a status report; a short FMC is filled up with zeros. -/
def decodeStatusReport (status : List UInt8) : Option (Nat × List Nat) :=
  let dec : BitDecoder := { bytes := status }
  let dc := dec.unpackValue 1
  let dec := (dec.unpack 1).2
  if dc ≠ 0 then none
  else
    let cpt := dec.unpackValue 3
    let dec := (dec.unpack 3).2
    if cpt ≠ 0 then none
    else
      let reserved := dec.unpackValue 4
      let dec := (dec.unpack 4).2
      if reserved ≠ 0 then none
      else
        let fmc := dec.unpackValue 32
        let dec := (dec.unpack 32).2
        some (fmc, unpackBits (8 * dec.bytes.length) dec)

def discardRange : Nat → Nat → PdcpEntityTx → PdcpEntityTx
  | 0, _, ent => ent
  | turns + 1, count, ent => discardRange turns (count + 1) (ent.discardPdu count)

def discardBitmap : List Nat → Nat → PdcpEntityTx → PdcpEntityTx
  | [], _, ent => ent
  | bit :: rest, fmc, ent =>
    let fmc := (fmc + 1) % 2 ^ 32
    discardBitmap rest fmc (if bit = 1 then ent.discardPdu fmc else ent)

def handleStatusReport (ent : PdcpEntityTx) (status : List UInt8) : PdcpEntityTx :=
  match decodeStatusReport status with
  | none => ent
  | some (fmc, bits) =>
    discardBitmap bits fmc (discardRange (fmc - ent.st.txNextAck) ent.st.txNextAck ent)

def retransmitLoop : Nat → Nat → PdcpEntityTx → PdcpEntityTx
  | 0, _, ent => ent
  | turns + 1, count, ent =>
    retransmitLoop turns (count + 1)
      (match ent.txWindow.txWindow.get? count with
      | some elem => ent.submit true count elem.sdu
      | none => ent)

/-- TX_TRANS and TX_TRANS_CRYPTO go back to TX_NEXT_ACK, and older jobs are out of date. -/
def rewind (ent : PdcpEntityTx) : PdcpEntityTx :=
  { ent with
    st := { ent.st with txTrans := ent.st.txNextAck, txTransCrypto := ent.st.txNextAck }
    retransmitId := (ent.retransmitId + 1) % 2 ^ 16 }

def retransmitAllPdus (ent : PdcpEntityTx) : PdcpEntityTx :=
  if ent.cfg.discardTimer.isNone ∨ ent.cfg.isAm = false then ent
  else retransmitLoop (ent.st.txNext - ent.st.txNextAck) ent.st.txNextAck ent.rewind

/-- `data_recovery`, without the status report of the receiver that it may send first. -/
def dataRecovery (ent : PdcpEntityTx) : PdcpEntityTx := (ent.notify .dataRecovery).retransmitAllPdus

def reset (ent : PdcpEntityTx) : PdcpEntityTx :=
  { ent.notify .countersReset with st := {}, txWindow := ent.txWindow.clear }

def reestablish (ent : PdcpEntityTx) (secCfg : Sec128AsConfig) : PdcpEntityTx :=
  let ent := ent.notify .reestablished
  let ent := if ent.cfg.isSrb ∨ ent.cfg.isUm then ent.reset else ent
  let ent := ent.configureSecurity secCfg ent.integrityEnabled ent.cipheringEnabled
  if ent.cfg.isAm then ent.retransmitAllPdus else ent

/-- The SDU with a COUNT leaves the window in `discard_callback`. -/
def expireSdu (ent : PdcpEntityTx) (count : Nat) : PdcpEntityTx :=
  { ent.discardPdu count with
    discardTimer := ent.discardTimer.expire
      ((ent.txWindow.txWindow.get? count).bind PdcpTxWindowElement.tickPointOfArrival) }

/-- The loop of `discard_callback` for the SDUs with one arrival. -/
def discardLoop (oldest : Nat) : Nat → PdcpEntityTx → Except TxFault PdcpEntityTx
  | 0, ent => .ok ent
  | turns + 1, ent =>
    let ent := ent.expireSdu ent.st.txNextAck
    match ent.txWindow.txWindow.get? ent.st.txNextAck with
    | none => .ok ent
    | some elem => do
      let tick ← arrival elem
      if tick ≠ oldest then
        .ok { ent with discardTimer := ent.discardTimer.run (tick - oldest : Int) }
      else if ent.st.txNextAck ≠ ent.st.txNext then discardLoop oldest turns ent
      else .ok ent

/-- `discard_callback`. The timer has stopped when it is called. -/
def discardCallback (ent : PdcpEntityTx) : Except TxFault PdcpEntityTx :=
  let ent := { ent with discardTimer := ent.discardTimer.stop }
  if ent.stopped then .ok ent
  else
    match ent.txWindow.txWindow.get? ent.st.txNextAck with
    | none => .ok ent
    | some elem => do
      let oldest ← arrival elem
      discardLoop oldest (ent.st.txNext - ent.st.txNextAck) ent

def stop (ent : PdcpEntityTx) : PdcpEntityTx :=
  if ent.stopped then ent
  else
    { ent with
      stopped := true
      txWindow := ent.txWindow.clear
      discardTimer := ent.discardTimer.stop
      cryptoReorderingTimerRunning := false }

end PdcpEntityTx

end Srsran.Pdcp
