import Srsran.Scheduler.HarqRepository

/-! DL and UL HARQ processes of a cell: the handles, the HARQ entity of a UE and `cell_harq_manager`. -/
namespace Srsran.Scheduler
open Srsran.Ran

inductive HarqAckReportStatus where
  | nack
  | ack
  | dtx
deriving DecidableEq, Repr

/-- Fields of `dl_harq_process_impl`. SNRs are compared only. -/
structure DlHarqParams where
  harqBitIdx : Nat := 0
  pucchAckToReceive : Nat := 0
  chosenAck : HarqAckReportStatus := .dtx
  lastPucchSnr : Option Int := none
deriving Inhabited

abbrev DlHarqProcess := HarqProcess DlHarqParams

abbrev DlHarqRepository := HarqRepository DlHarqParams

abbrev UlHarqRepository := HarqRepository Unit

inductive StatusUpdate where
  | acked
  | nacked
  | noUpdate
  | error
deriving DecidableEq, Repr

def shortAckTimeoutDtx : Nat := 8

/-- Whether a HARQ-ACK is decoded with a better SNR than the last one. -/
def isBetterSnr : Option Int → Option Int → Bool
  | none, _ => true
  | some last, some pucchSnr => last < pucchSnr
  | some _, none => false

/-- The HARQ-ACK decoded with the best SNR is the one that counts. -/
def DlHarqParams.chooseAck (params : DlHarqParams) (ackStatus : HarqAckReportStatus)
    (pucchSnr : Option Int) : DlHarqParams :=
  if ackStatus ≠ .dtx ∧ isBetterSnr params.lastPucchSnr pucchSnr then
    { params with chosenAck := ackStatus, lastPucchSnr := pucchSnr }
  else params

def DlHarqProcess.countPucch (h : DlHarqProcess) (params : DlHarqParams) : DlHarqProcess :=
  { h with
    params := { params with pucchAckToReceive := params.pucchAckToReceive - 1 }
    ackOnTimeout := decide (params.chosenAck = .ack) }

section
variable (cfg : HarqConfig)

def dlAckInfo (r : DlHarqRepository) (ref : HarqRef) (ackStatus : HarqAckReportStatus)
    (pucchSnr : Option Int) : Except HarqFault (DlHarqRepository × StatusUpdate) := do
  let h ← r.access ref
  if h.status ≠ .waitingAck then .ok (r, .error)
  else
    let params := h.params.chooseAck ackStatus pucchSnr
    if params.pucchAckToReceive ≤ 1 then
      let finalAck := decide (params.chosenAck = .ack)
      let r ← (r.store ref { h with params := params }).handleAck cfg ref finalAck
      .ok (r, if finalAck then .acked else .nacked)
    else
      let h := DlHarqProcess.countPucch h params
      if cfg.isNtnHarqModeBEnabled then .ok (r.store ref h, .noUpdate)
      else
        let r ← r.popTimeout cfg ref h
        .ok (r.pushTimeout cfg ref { h with slotTimeout := r.lastSlInd.add shortAckTimeoutDtx },
          .noUpdate)

def incrementPucchCounter (r : DlHarqRepository) (ref : HarqRef) : Except HarqFault DlHarqRepository := do
  let h ← r.access ref
  let pucchs := h.params.pucchAckToReceive + 1
  .ok (r.store ref { h with params := { h.params with pucchAckToReceive := pucchs } })

def ulCrcInfo (r : UlHarqRepository) (ref : HarqRef) (ack : Bool) :
    Except HarqFault UlHarqRepository := do
  let h ← r.access ref
  if h.status ≠ .waitingAck then .ok r else r.handleAck cfg ref ack

def nackTimes (ref : HarqRef) : Nat → DlHarqRepository → Except HarqFault DlHarqRepository
  | 0, r => .ok r
  | times + 1, r => do
    let (r, _) ← dlAckInfo cfg r ref .dtx none
    nackTimes ref times r

def uciSchedFailedHarq (uciSlot : SlotPoint) (r : DlHarqRepository) (ref : HarqRef) :
    Except HarqFault DlHarqRepository := do
  let h ← r.access ref
  if h.status = .waitingAck ∧ h.slotAck = uciSlot then
    nackTimes cfg ref (max h.params.pucchAckToReceive 1) r
  else .ok r

def uciSchedFailed (r : DlHarqRepository) (ueIdx : Nat) (uciSlot : SlotPoint) :
    Except HarqFault DlHarqRepository :=
  (r.harqRefs ueIdx).foldlM (uciSchedFailedHarq cfg uciSlot) r

end

/-- Constructor arguments of `cell_harq_manager`. The NTN history asserts the bound. -/
structure HarqManagerConfig where
  numerology : Fin nofNumerologies
  maxUes : Nat
  maxHarqsPerUe : Nat
  dlHarqRetxTimeout : Nat := 200
  ulHarqRetxTimeout : Nat := 200
  maxAckWaitTimeout : Nat := 256
  ntnCsKoffset : Nat := 0
  dlHarqModeB : Bool := false
  ulHarqModeB : Bool := false
  koffset_le : dlHarqModeB = true ∨ ulHarqModeB = true → ntnCsKoffset ≤ ntnCellSpecificKoffsetMax

namespace HarqManagerConfig
variable (cfg : HarqManagerConfig)

def dl : HarqConfig where
  numerology := cfg.numerology
  maxAckWaitTimeout := cfg.maxAckWaitTimeout
  harqRetxTimeout := cfg.dlHarqRetxTimeout
  ntnCsKoffset := cfg.ntnCsKoffset
  harqModeB := cfg.dlHarqModeB

def ul : HarqConfig where
  numerology := cfg.numerology
  maxAckWaitTimeout := cfg.maxAckWaitTimeout
  harqRetxTimeout := cfg.ulHarqRetxTimeout
  ntnCsKoffset := cfg.ntnCsKoffset
  harqModeB := cfg.ulHarqModeB

def slot (count : Nat) : SlotPoint :=
  ⟨cfg.numerology, count % nofSlotsPerHyperSystemFrame cfg.numerology⟩

end HarqManagerConfig

structure HarqManager where
  dl : DlHarqRepository := {}
  ul : UlHarqRepository := {}

/-- Calls of the manager, of the HARQ entities of UEs and of handles. Slots are counts. -/
inductive HarqEvent where
  | slotIndication (slTx : Nat)
  | stop
  | addUe (ueIdx nofDlHarqProcs nofUlHarqProcs : Nat)
  | destroyUe (ueIdx : Nat)
  | newDlTx (ueIdx pdschSlot ackDelay maxHarqNofRetxs harqBitIdx : Nat)
  | newUlTx (ueIdx puschSlot maxHarqNofRetxs : Nat)
  | dlNewRetx (ref : HarqRef) (pdschSlot ackDelay harqBitIdx : Nat)
  | ulNewRetx (ref : HarqRef) (puschSlot : Nat)
  | dlAckInfo (ref : HarqRef) (ackStatus : HarqAckReportStatus) (pucchSnr : Option Int)
  | ulCrcInfo (ref : HarqRef) (ack : Bool)
  | incrementPucchCounter (ref : HarqRef)
  | uciSchedFailed (ueIdx uciSlot : Nat)
  | cancelDlRetxs (ref : HarqRef)
  | cancelUlRetxs (ref : HarqRef)
  | cancelRetxs (ueIdx : Nat)
  | resetDl (ref : HarqRef)
  | resetUl (ref : HarqRef)

namespace HarqManager
variable (cfg : HarqManagerConfig) (m : HarqManager)

def contains (ueIdx : Nat) : Bool := ueIdx < cfg.maxUes && !(m.dl.ues ueIdx).harqs.isEmpty

/-- `cell_harq_manager::add_ue`. -/
def addUe (ueIdx nofDlHarqProcs nofUlHarqProcs : Nat) : Except HarqFault HarqManager :=
  if 0 < nofDlHarqProcs ∧ nofDlHarqProcs ≤ cfg.maxHarqsPerUe ∧ 0 < nofUlHarqProcs ∧
      nofUlHarqProcs ≤ cfg.maxHarqsPerUe ∧ ueIdx < cfg.maxUes ∧ m.contains cfg ueIdx = false then
    .ok { dl := m.dl.reserveUeHarqs ueIdx nofDlHarqProcs, ul := m.ul.reserveUeHarqs ueIdx nofUlHarqProcs }
  else .error .invalidUe

def step (m : HarqManager) : HarqEvent → Except HarqFault HarqManager
  | .slotIndication slTx => do
    let dl ← m.dl.slotIndication cfg.dl (cfg.slot slTx)
    let ul ← m.ul.slotIndication cfg.ul (cfg.slot slTx)
    .ok { dl, ul }
  | .stop => do
    let dl ← m.dl.stop cfg.dl cfg.maxUes
    let ul ← m.ul.stop cfg.ul cfg.maxUes
    .ok { dl, ul }
  | .addUe ueIdx nofDlHarqProcs nofUlHarqProcs => m.addUe cfg ueIdx nofDlHarqProcs nofUlHarqProcs
  | .destroyUe ueIdx => do
    let dl ← m.dl.destroyUe cfg.dl ueIdx
    let ul ← m.ul.destroyUe cfg.ul ueIdx
    .ok { dl, ul }
  | .newDlTx ueIdx pdschSlot ackDelay maxHarqNofRetxs harqBitIdx => do
    let dl ← m.dl.newTx cfg.dl ueIdx (cfg.slot pdschSlot) ((cfg.slot pdschSlot).add ackDelay)
      maxHarqNofRetxs { harqBitIdx }
    .ok { m with dl }
  | .newUlTx ueIdx puschSlot maxHarqNofRetxs => do
    let ul ← m.ul.newTx cfg.ul ueIdx (cfg.slot puschSlot) (cfg.slot puschSlot) maxHarqNofRetxs ()
    .ok { m with ul }
  | .dlNewRetx ref pdschSlot ackDelay harqBitIdx => do
    let dl ← m.dl.newRetx cfg.dl ref (cfg.slot pdschSlot) ((cfg.slot pdschSlot).add ackDelay)
      { harqBitIdx }
    .ok { m with dl }
  | .ulNewRetx ref puschSlot => do
    let ul ← m.ul.newRetx cfg.ul ref (cfg.slot puschSlot) (cfg.slot puschSlot) ()
    .ok { m with ul }
  | .dlAckInfo ref ackStatus pucchSnr => do
    let (dl, _) ← Scheduler.dlAckInfo cfg.dl m.dl ref ackStatus pucchSnr
    .ok { m with dl }
  | .ulCrcInfo ref ack => do
    let ul ← Scheduler.ulCrcInfo cfg.ul m.ul ref ack
    .ok { m with ul }
  | .incrementPucchCounter ref => do
    let dl ← Scheduler.incrementPucchCounter m.dl ref
    .ok { m with dl }
  | .uciSchedFailed ueIdx uciSlot => do
    let dl ← Scheduler.uciSchedFailed cfg.dl m.dl ueIdx (cfg.slot uciSlot)
    .ok { m with dl }
  | .cancelDlRetxs ref => do
    let dl ← m.dl.cancelRetxs cfg.dl ref
    .ok { m with dl }
  | .cancelUlRetxs ref => do
    let ul ← m.ul.cancelRetxs cfg.ul ref
    .ok { m with ul }
  | .cancelRetxs ueIdx => do
    let dl ← (m.dl.harqRefs ueIdx).foldlM (HarqRepository.cancelRetxs cfg.dl) m.dl
    let ul ← (m.ul.harqRefs ueIdx).foldlM (HarqRepository.cancelRetxs cfg.ul) m.ul
    .ok { dl, ul }
  | .resetDl ref => do
    let dl ← m.dl.deallocHarq cfg.dl ref
    .ok { m with dl }
  | .resetUl ref => do
    let ul ← m.ul.deallocHarq cfg.ul ref
    .ok { m with ul }

def next (m : HarqManager) (event : HarqEvent) : Option HarqManager := (m.step cfg event).toOption

end HarqManager

end Srsran.Scheduler
