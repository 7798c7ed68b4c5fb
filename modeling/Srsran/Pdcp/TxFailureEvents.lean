import Srsran.Pdcp.TxOrder

/-! Failures while the transmitting PDCP entity handles an SDU: of the copy for the window, of the
header, of the queue of the crypto executor and of the MAC-I. The loss of a result and a failing engine
are events of all runs. -/
namespace Srsran.Pdcp
open Srsran.Adt Checked

/-- How far an SDU gets. -/
inductive SduOutcome where
  | sent
  | deepCopyFails
  | headerPrependFails
  | cryptoEnqueueFails
  deriving DecidableEq, Repr

inductive FailureEvent where
  | handleSdu (outcome : SduOutcome) (buf : List UInt8) (now : Nat)
  /-- One outcome for each buffered SDU; SDUs without one are sent. -/
  | endBuffering (outcomes : List SduOutcome) (now : Nat)
  /-- There is no memory for the zero MAC-I of an SRB. -/
  | macAppendFails (idx : Nat)
  | other (event : TxEvent)
  deriving DecidableEq, Repr

namespace PdcpEntityTx
variable {ent : PdcpEntityTx}

def addToWindow (ent : PdcpEntityTx) (buf : List UInt8) (now : Nat) : PdcpEntityTx :=
  { ent with txWindow := ent.txWindow.addSdu (ent.windowElement buf now) }

def incrementTxNext (ent : PdcpEntityTx) : PdcpEntityTx :=
  { ent with st := { ent.st with txNext := (ent.st.txNext + 1) % 2 ^ 32 } }

def copiesSdu (ent : PdcpEntityTx) : Bool := ent.cfg.discardTimer.isSome && ent.cfg.isAm

def transmitSduFailing (outcome : SduOutcome) (ent : PdcpEntityTx) (buf : List UInt8) (now : Nat) :
    Except TxFault PdcpEntityTx :=
  if ent.st.txNext ≥ ent.cfg.maxCount.hard then .ok ent.refuseMaxCount
  else
    let ent := ent.checkMaxCountNotify.startDiscardTimer
    if outcome = .deepCopyFails ∧ ent.copiesSdu then .ok (ent.notify .protocolFailure)
    else if ent.txWindow.hasSn ent.st.txNext then .error (.countPresent ent.st.txNext)
    else
      match outcome with
      | .headerPrependFails => .ok ((ent.addToWindow buf now).notify .protocolFailure)
      | .cryptoEnqueueFails => .ok (ent.addToWindow buf now).incrementTxNext
      | _ => .ok (ent.assignCount buf now)

def handleSduFailing (outcome : SduOutcome) (ent : PdcpEntityTx) (buf : List UInt8) (now : Nat) :
    Except TxFault PdcpEntityTx :=
  if ent.stopped then .ok ent
  else if ent.buffering then
    if ent.sduBuffer.length < sduBufferCapacity then
      .ok { ent with sduBuffer := ent.sduBuffer ++ [buf] }
    else .ok ent
  else if ent.cfg.isSrb = false ∧ ent.checkEarlyDrop buf ≠ .noDrop then .ok ent
  else ent.transmitSduFailing outcome buf now

def handleSdusFailing (now : Nat) :
    List SduOutcome → List (List UInt8) → PdcpEntityTx → Except TxFault PdcpEntityTx
  | _, [], ent => .ok ent
  | outcomes, buf :: rest, ent => do
    let ent ← ent.handleSduFailing (outcomes.headD .sent) buf now
    handleSdusFailing now outcomes.tail rest ent

/-- `apply_ciphering_and_integrity_protection` returns a buffer failure. -/
def macAppendFails (ent : PdcpEntityTx) (idx : Nat) : PdcpEntityTx :=
  match ent.cryptoJobs[idx]? with
  | none => ent
  | some _ =>
    { ent with
      cryptoJobs := ent.cryptoJobs.eraseIdx idx
      cryptoResults := ent.cryptoResults ++ [.error .bufferFailure] }

def stepFailing (engine : SecurityContext → SecurityEngine) (ent : PdcpEntityTx) :
    FailureEvent → Except TxFault PdcpEntityTx
  | .handleSdu outcome buf now => ent.handleSduFailing outcome buf now
  | .endBuffering outcomes now =>
    handleSdusFailing now outcomes ent.sduBuffer { ent with buffering := false, sduBuffer := [] }
  | .macAppendFails idx => .ok (ent.macAppendFails idx)
  | .other event => step engine ent event

/-- Lengths of SDUs are 32-bit numbers. SDUs are only handled by the first two events. -/
def enabledFailing (ent : PdcpEntityTx) : FailureEvent → Bool
  | .handleSdu _ buf _ => decide (buf.length < 2 ^ 32)
  | .endBuffering _ _ => ent.sduBuffer.all fun buf => decide (buf.length < 2 ^ 32)
  | .macAppendFails _ => ent.cfg.isSrb && ent.secEngine.isNone
  | .other (.handleSdu _ _) => false
  | .other (.endBuffering _) => false
  | .other event => ent.enabled event

def nextFailing (engine : SecurityContext → SecurityEngine) (ent : PdcpEntityTx)
    (event : FailureEvent) : Option PdcpEntityTx :=
  if ent.enabledFailing event then (stepFailing engine ent event).toOption else none

theorem handleSduFailing_sent (ent : PdcpEntityTx) (buf : List UInt8) (now : Nat) :
    ent.handleSduFailing .sent buf now = ent.handleSdu buf now := by
  rw [handleSduFailing, handleSdu, transmitSduFailing, transmitSdu]
  simp only [reduceCtorEq, false_and, if_false]

end PdcpEntityTx
end Srsran.Pdcp
