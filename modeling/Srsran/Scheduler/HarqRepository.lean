import Mathlib.Logic.Function.Basic
import Srsran.Lib.Checked
import Srsran.Scheduler.InterSlice

/-! HARQ processes of a cell (`cell_harq_manager.h`, `cell_harq_manager.cpp`). A process is named by a
handle, and the intrusive lists are lists of handles. RNTIs, stored grant parameters, the slots of the
last transmission of a UE and the timeout notifier are left out. -/
namespace Srsran.Scheduler
open Srsran.Ran

def schedulerMaxK0 : Nat := 15

def schedulerMaxK1 : Nat := 15

def maxMsg3Delta : Nat := 6

def getMaxSlotUlAllocDelay (ntnCsKoffset : Nat) : Nat :=
  schedulerMaxK0 + max schedulerMaxK1 (schedulerMaxK2 + maxMsg3Delta) + ntnCsKoffset

def ntnAckWaitTimeout : Nat := 1

inductive HarqState where
  | empty
  | pendingRetx
  | waitingAck
deriving DecidableEq, Repr

/-- `base_harq_process`, with the fields `P` of its direction. -/
structure HarqProcess (P : Type) where
  ueIdx : Nat := 0
  hId : Nat := 0
  status : HarqState := .empty
  slotTx : SlotPoint := .invalid
  slotAck : SlotPoint := .invalid
  slotTimeout : SlotPoint := .invalid
  ndi : Bool := false
  nofRetxs : Nat := 0
  maxNofHarqRetxs : Nat := 0
  ackOnTimeout : Bool := false
  retxsCancelled : Bool := false
  params : P

/-- Where a process is: in a UE, or a copy in the NTN history. -/
inductive HarqRef where
  | process (ueIdx hId : Nat)
  | saved (index position : Nat)
deriving DecidableEq, Repr

inductive HarqFault where
  /-- The process of the handle is gone. -/
  | danglingHandle
  /-- A list element is popped that the list does not hold. -/
  | notInList
  /-- "HARQ process in wrong state". -/
  | wrongState
  /-- "Invalid state of HARQ". -/
  | invalidHarq
  /-- "ACK Info handled for a non-NTN HARQ process". -/
  | nonNtnHarq
  /-- "Comparing slots of different numerologies". -/
  | differentNumerologies
  /-- An assertion of `add_ue`. -/
  | invalidUe
  /-- A loop goes on. -/
  | outOfFuel
deriving DecidableEq, Repr

/-- Constructor arguments of `cell_harq_repository`, and the numerology of the cell. -/
structure HarqConfig where
  numerology : Nat
  maxAckWaitTimeout : Nat
  harqRetxTimeout : Nat
  ntnCsKoffset : Nat
  harqModeB : Bool

namespace HarqConfig
variable (cfg : HarqConfig)

def isNtnHarqModeBEnabled : Bool := decide (0 < cfg.ntnCsKoffset) && cfg.harqModeB

def maxAckWaitInSlots : Nat :=
  if cfg.isNtnHarqModeBEnabled then ntnAckWaitTimeout else cfg.maxAckWaitTimeout + cfg.ntnCsKoffset

def wheelSize : Nat :=
  getAllocatorRingSizeGtMin (cfg.maxAckWaitTimeout + getMaxSlotUlAllocDelay cfg.ntnCsKoffset)

def wheelIndex (sl : SlotPoint) : Nat := sl.count % cfg.wheelSize

def historySize : Nat := getAllocatorRingSizeGtMin (cfg.ntnCsKoffset * 2 + schedulerMaxK1)

/-- `get_current_index` of the NTN history. -/
def historyIndex (sl : SlotPoint) : Nat := sl.count % cfg.historySize

end HarqConfig

namespace HarqProcess
variable {P : Type} (cfg : HarqConfig) (h : HarqProcess P)

def setNewTx (slTx slAck : SlotPoint) (maxNofHarqRetxs : Nat) (params : P) : HarqProcess P :=
  { h with
    status := .waitingAck
    slotTx := slTx
    slotAck := slAck
    nofRetxs := 0
    ndi := !h.ndi
    maxNofHarqRetxs := maxNofHarqRetxs
    ackOnTimeout := false
    retxsCancelled := false
    slotTimeout := (slAck.add cfg.maxAckWaitInSlots).sub cfg.ntnCsKoffset
    params := params }

def setNewRetx (slTx slAck : SlotPoint) (params : P) : HarqProcess P :=
  { h with
    status := .waitingAck
    slotTx := slTx
    slotAck := slAck
    ackOnTimeout := false
    nofRetxs := h.nofRetxs + 1
    slotTimeout := slAck.add cfg.maxAckWaitInSlots
    params := params }

def setPendingRetx (lastSlInd : SlotPoint) : HarqProcess P :=
  { h with slotTimeout := lastSlInd.add cfg.harqRetxTimeout, status := .pendingRetx }

def setCancelled : HarqProcess P :=
  { h with maxNofHarqRetxs := h.nofRetxs, retxsCancelled := true }

def setEmpty : HarqProcess P := { h with slotTimeout := .invalid, status := .empty }

end HarqProcess

structure UeHarqEntity (P : Type) where
  harqs : List (HarqProcess P) := []
  freeHarqIds : List Nat := []

structure HarqRepository (P : Type) where
  ues : Nat → UeHarqEntity P := fun _ => {}
  harqPendingRetxList : List HarqRef := []
  harqTimeoutWheel : Nat → List HarqRef := fun _ => []
  lastSlInd : SlotPoint := .invalid
  history : Nat → List (HarqProcess P) := fun _ => []

/-- `intrusive_double_linked_list::pop`. -/
def popHarq (list : List HarqRef) (ref : HarqRef) : Except HarqFault (List HarqRef) :=
  if ref ∈ list then .ok (list.erase ref) else .error .notInList

namespace HarqRepository
variable {P : Type}

def harq? (r : HarqRepository P) : HarqRef → Option (HarqProcess P)
  | .process ueIdx hId => (r.ues ueIdx).harqs[hId]?
  | .saved index position => (r.history index)[position]?

def access (r : HarqRepository P) (ref : HarqRef) : Except HarqFault (HarqProcess P) :=
  match r.harq? ref with
  | some h => .ok h
  | none => .error .danglingHandle

def store (r : HarqRepository P) (ref : HarqRef) (h : HarqProcess P) : HarqRepository P :=
  match ref with
  | .process ueIdx hId =>
    { r with
      ues := Function.update r.ues ueIdx
        { r.ues ueIdx with harqs := (r.ues ueIdx).harqs.set hId h } }
  | .saved index position =>
    { r with history := Function.update r.history index ((r.history index).set position h) }

def setFreeHarqIds (r : HarqRepository P) (ueIdx : Nat) (ids : List Nat) : HarqRepository P :=
  { r with ues := Function.update r.ues ueIdx { r.ues ueIdx with freeHarqIds := ids } }

/-- Handles of the processes of a UE, in the order of `harqs`. -/
def harqRefs (r : HarqRepository P) (ueIdx : Nat) : List HarqRef :=
  (List.range (r.ues ueIdx).harqs.length).map (.process ueIdx)

/-- Takes a process out of the list of pending retransmissions. -/
def popPending (r : HarqRepository P) (ref : HarqRef) : Except HarqFault (HarqRepository P) := do
  let list ← popHarq r.harqPendingRetxList ref
  .ok { r with harqPendingRetxList := list }

variable (cfg : HarqConfig)

def popTimeout (r : HarqRepository P) (ref : HarqRef) (h : HarqProcess P) :
    Except HarqFault (HarqRepository P) := do
  let index := cfg.wheelIndex h.slotTimeout
  let list ← popHarq (r.harqTimeoutWheel index) ref
  .ok { r with harqTimeoutWheel := Function.update r.harqTimeoutWheel index list }

/-- Stores a process and puts it in front of the wheel list of its timeout. -/
def pushTimeout (r : HarqRepository P) (ref : HarqRef) (h : HarqProcess P) : HarqRepository P :=
  let index := cfg.wheelIndex h.slotTimeout
  { r with
    harqTimeoutWheel :=
      Function.update r.harqTimeoutWheel index (ref :: r.harqTimeoutWheel index) }.store ref h

def allocHarq (r : HarqRepository P) (ueIdx : Nat) (slTx slAck : SlotPoint) (maxNofHarqRetxs : Nat)
    (params : P) : Except HarqFault (HarqRepository P × Option HarqRef) :=
  match (r.ues ueIdx).freeHarqIds.getLast? with
  | none => .ok (r, none)
  | some hId => do
    let ref := HarqRef.process ueIdx hId
    let h ← r.access ref
    if h.ueIdx = ueIdx ∧ h.hId = hId then
      let h := h.setNewTx cfg slTx slAck maxNofHarqRetxs params
      let r := r.setFreeHarqIds ueIdx (r.ues ueIdx).freeHarqIds.dropLast
      .ok (r.pushTimeout cfg ref h, some ref)
    else .error .invalidHarq

def deallocHarq (r : HarqRepository P) (ref : HarqRef) : Except HarqFault (HarqRepository P) := do
  let h ← r.access ref
  if h.status = .empty then .ok r
  else
    let r ← (if h.status = .pendingRetx then r.popPending ref else .ok r)
    let r ← r.popTimeout cfg ref h
    let r := r.store ref h.setEmpty
    .ok (r.setFreeHarqIds h.ueIdx ((r.ues h.ueIdx).freeHarqIds ++ [h.hId]))

def setPendingRetx (r : HarqRepository P) (ref : HarqRef) : Except HarqFault (HarqRepository P) := do
  let h ← r.access ref
  match h.status with
  | .empty => .error .wrongState
  | .pendingRetx => .ok r
  | .waitingAck =>
    let r ← r.popTimeout cfg ref h
    let r := r.pushTimeout cfg ref (h.setPendingRetx cfg r.lastSlInd)
    .ok { r with harqPendingRetxList := r.harqPendingRetxList ++ [ref] }

/-- `base_ntn_harq_history::handle_ack`: only entries of the history can be acknowledged. -/
def historyHandleAck (r : HarqRepository P) (ref : HarqRef) (h : HarqProcess P) :
    Except HarqFault (HarqRepository P) :=
  match ref with
  | .process _ _ => .error .nonNtnHarq
  | .saved index position =>
    if index = cfg.historyIndex h.slotAck ∧ position < (r.history index).length then
      .ok (r.store ref { h with status := .empty })
    else .error .nonNtnHarq

def handleAck (r : HarqRepository P) (ref : HarqRef) (ack : Bool) :
    Except HarqFault (HarqRepository P) := do
  let h ← r.access ref
  if cfg.isNtnHarqModeBEnabled then r.historyHandleAck cfg ref h
  else if ack ∨ h.maxNofHarqRetxs ≤ h.nofRetxs then r.deallocHarq cfg ref
  else r.setPendingRetx cfg ref

/-- `handle_new_retx`, and what the handles set when it succeeds. -/
def handleNewRetx (r : HarqRepository P) (ref : HarqRef) (slTx slAck : SlotPoint) (params : P) :
    Except HarqFault (HarqRepository P × Bool) := do
  let h ← r.access ref
  if h.status ≠ .pendingRetx then .ok (r, false)
  else
    let r ← r.popPending ref
    let r ← r.popTimeout cfg ref h
    .ok (r.pushTimeout cfg ref (h.setNewRetx cfg slTx slAck params), true)

def cancelRetxs (r : HarqRepository P) (ref : HarqRef) : Except HarqFault (HarqRepository P) := do
  let h ← r.access ref
  match h.status with
  | .empty => .ok r
  | .pendingRetx => r.deallocHarq cfg ref
  | .waitingAck => .ok (r.store ref h.setCancelled)

/-- What `save_grant_params` does besides storing the grant: in NTN mode the process is copied. -/
def saveGrantParams (r : HarqRepository P) (ref : HarqRef) : Except HarqFault (HarqRepository P) := do
  let h ← r.access ref
  if h.status ≠ .waitingAck then .error .wrongState
  else if cfg.isNtnHarqModeBEnabled then
    let index := cfg.historyIndex h.slotAck
    .ok { r with history := Function.update r.history index (r.history index ++ [h]) }
  else .ok r

def reserveUeHarqs [Inhabited P] (r : HarqRepository P) (ueIdx nofHarqs : Nat) : HarqRepository P :=
  let old := (r.ues ueIdx).harqs
  let resized := old.take nofHarqs ++ List.replicate (nofHarqs - old.length) { params := default }
  { r with
    ues := Function.update r.ues ueIdx
      { harqs := resized.mapIdx fun hId h => { h with ueIdx := ueIdx, hId := hId, ndi := false }
        freeHarqIds := (List.range nofHarqs).reverse } }

def deallocAll (r : HarqRepository P) (refs : List HarqRef) : Except HarqFault (HarqRepository P) :=
  refs.foldlM (deallocHarq cfg) r

def destroyUe (r : HarqRepository P) (ueIdx : Nat) : Except HarqFault (HarqRepository P) := do
  let r ← r.deallocAll cfg (r.harqRefs ueIdx)
  .ok { r with ues := Function.update r.ues ueIdx {} }

def stop (maxUes : Nat) (r : HarqRepository P) : Except HarqFault (HarqRepository P) := do
  let r ← r.deallocAll cfg ((List.range maxUes).flatMap r.harqRefs)
  .ok { r with lastSlInd := .invalid }

/-- `handle_harq_ack_timeout`; the two modes differ in the notification only. -/
def handleHarqAckTimeout (r : HarqRepository P) (ref : HarqRef) :
    Except HarqFault (HarqRepository P) := do
  let h ← r.access ref
  if h.status = .empty then .error .wrongState else r.deallocHarq cfg ref

def handleTimeouts (index : Nat) : Nat → HarqRepository P → Except HarqFault (HarqRepository P)
  | 0, r => if (r.harqTimeoutWheel index).isEmpty then .ok r else .error .outOfFuel
  | fuel + 1, r =>
    match r.harqTimeoutWheel index with
    | [] => .ok r
    | front :: _ => do
      let r ← r.handleHarqAckTimeout cfg front
      handleTimeouts index fuel r

/-- Whether a process has waited too long for its retransmission. -/
def isTrapped (lastSlInd : SlotPoint) (h : HarqProcess P) : Bool :=
  !lastSlInd.lt (h.slotAck.add (lastSlInd.nofSlotsPerHyperSystemFrame / 4))

/-- The first HARQ with a pending retransmission, if it is trapped. -/
def trappedFront (r : HarqRepository P) : Except HarqFault (Option HarqRef) :=
  match r.harqPendingRetxList with
  | [] => .ok none
  | front :: _ => do
    let h ← r.access front
    if h.status ≠ .pendingRetx then .error .wrongState
    else if r.lastSlInd.numerology ≠ h.slotAck.numerology then .error .differentNumerologies
    else .ok (if isTrapped r.lastSlInd h then some front else none)

/-- The loop over the HARQs whose retransmission is never scheduled. -/
def handleTrapped : Nat → HarqRepository P → Except HarqFault (HarqRepository P)
  | 0, r => do
    match ← r.trappedFront with
    | none => .ok r
    | some _ => .error .outOfFuel
  | fuel + 1, r => do
    match ← r.trappedFront with
    | none => .ok r
    | some front => do
      let r ← r.deallocHarq cfg front
      handleTrapped fuel r

def historySlotIndication (r : HarqRepository P) (slTx : SlotPoint) : HarqRepository P :=
  let index := cfg.historyIndex ((slTx.sub cfg.ntnCsKoffset).sub schedulerMaxK1)
  { r with history := Function.update r.history index [] }

def startSlot (r : HarqRepository P) (slTx : SlotPoint) : HarqRepository P :=
  let r := { r with lastSlInd := slTx }
  if cfg.isNtnHarqModeBEnabled then r.historySlotIndication cfg slTx else r

def slotIndication (r : HarqRepository P) (slTx : SlotPoint) : Except HarqFault (HarqRepository P) := do
  let r := r.startSlot cfg slTx
  let index := cfg.wheelIndex slTx
  let r ← r.handleTimeouts cfg index (r.harqTimeoutWheel index).length
  r.handleTrapped cfg r.harqPendingRetxList.length

def newTx (r : HarqRepository P) (ueIdx : Nat) (slTx slAck : SlotPoint) (maxNofHarqRetxs : Nat)
    (params : P) : Except HarqFault (HarqRepository P) := do
  let (r, allocated) ← r.allocHarq cfg ueIdx slTx slAck maxNofHarqRetxs params
  match allocated with
  | none => .ok r
  | some ref => r.saveGrantParams cfg ref

def newRetx (r : HarqRepository P) (ref : HarqRef) (slTx slAck : SlotPoint) (params : P) :
    Except HarqFault (HarqRepository P) := do
  let (r, accepted) ← r.handleNewRetx cfg ref slTx slAck params
  if accepted then r.saveGrantParams cfg ref else .ok r

end HarqRepository

end Srsran.Scheduler
