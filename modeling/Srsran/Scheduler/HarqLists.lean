import Srsran.Lib.Placement
import Srsran.Scheduler.HarqManager

/-! HARQ processes are in the list of free ids of their UE, or in the timeout wheel and possibly in the
list of pending retransmissions. -/
namespace Srsran.Scheduler
open Srsran.Ran Placement HarqProcess
variable {P : Type}

namespace HarqProcess

def isFree (h : HarqProcess P) (ueIdx : Nat) : Bool := h.status = .empty ∧ h.ueIdx = ueIdx

def timesOut (cfg : HarqConfig) (h : HarqProcess P) (index : Nat) : Bool :=
  h.status ≠ .empty ∧ index = cfg.wheelIndex h.slotTimeout

def awaitsRetx (h : HarqProcess P) (_ : Unit) : Bool := h.status = .pendingRetx

/-- A process that `dealloc_harq` has emptied. -/
def released (h : HarqProcess P) : HarqProcess P :=
  if h.status = .empty then h else h.setEmpty

/-- What a process of a UE keeps by itself. -/
structure Wf (cfg : HarqConfig) (ref : HarqRef) (h : HarqProcess P) : Prop where
  ref_eq : ref = .process h.ueIdx h.hId
  retxs_le : h.status = .waitingAck → h.nofRetxs ≤ h.maxNofHarqRetxs
  retxs_lt : h.status = .pendingRetx → h.nofRetxs < h.maxNofHarqRetxs
  slotAck_numerology : h.status ≠ .empty → h.slotAck.numerology = cfg.numerology

theorem Wf.released {cfg : HarqConfig} {ref : HarqRef} {h : HarqProcess P} (hwf : h.Wf cfg ref) :
    h.released.Wf cfg ref := by
  rw [HarqProcess.released]
  split
  · exact hwf
  · exact ⟨hwf.ref_eq, nofun, nofun, fun hactive => absurd rfl hactive⟩

theorem released_of_active {h : HarqProcess P} (hactive : h.status ≠ .empty) : h.released = h.setEmpty := by
  rw [released, if_neg hactive]

theorem released_status (h : HarqProcess P) : h.released.status = .empty := by
  rw [released]
  split
  · assumption
  · rfl

theorem released_ndi (h : HarqProcess P) : h.released.ndi = h.ndi := by
  rw [released]
  split <;> rfl

end HarqProcess

namespace HarqRepository
variable {cfg : HarqConfig} {r r' : HarqRepository P} {ref : HarqRef} {h h' : HarqProcess P}

def process? (r : HarqRepository P) : HarqRef → Option (HarqProcess P)
  | .process ueIdx hId => (r.ues ueIdx).harqs[hId]?
  | .saved _ _ => none

def freeRefs (r : HarqRepository P) (ueIdx : Nat) : List HarqRef :=
  (r.ues ueIdx).freeHarqIds.map (.process ueIdx)

/-- Every process is in the lists of its state. -/
structure Partitioned (cfg : HarqConfig) (r : HarqRepository P) : Prop where
  wf : ∀ ref h, r.process? ref = some h → h.Wf cfg ref
  free : Holds r.freeRefs r.process? isFree
  wheel : Holds r.harqTimeoutWheel r.process? (timesOut cfg)
  pending : Holds (fun _ : Unit => r.harqPendingRetxList) r.process? awaitsRetx
  saved : ∀ index, ∀ h ∈ r.history index, cfg.isNtnHarqModeBEnabled = true ∧
    h.status ≠ .pendingRetx ∧ index = cfg.historyIndex h.slotAck

/-- The process of one handle changed. -/
structure Updated (cfg : HarqConfig) (r : HarqRepository P) (ref : HarqRef) (h' : HarqProcess P)
    (r' : HarqRepository P) : Prop where
  partitioned : Partitioned cfg r'
  process_eq : r'.process? = Function.update r.process? ref (some h')
  lastSlInd_eq : r'.lastSlInd = r.lastSlInd
  history_eq : r'.history = r.history

theorem access_of_process (hh : r.process? ref = some h) : r.access ref = .ok h := by
  cases ref with
  | process ueIdx hId =>
    have hread : r.harq? (.process ueIdx hId) = some h := hh
    rw [access, hread]
  | saved index position => cases hh

/-! Storing a process, and the lists that do not change. -/

section
variable (hh : r.process? ref = some h)
include hh

theorem process_store : (r.store ref h').process? = Function.update r.process? ref (some h') := by
  cases ref with
  | saved index position => cases hh
  | process ueIdx hId =>
    obtain ⟨hlt, -⟩ := List.getElem?_eq_some_iff.mp hh
    funext other
    by_cases heq : other = .process ueIdx hId
    · subst heq
      rw [Function.update_self]
      simp [store, process?, hlt]
    · rw [Function.update_of_ne heq]
      cases other with
      | saved index position => rfl
      | process otherUe otherId =>
        by_cases hue : otherUe = ueIdx
        · subst hue
          have hid : hId ≠ otherId := fun he => heq (by rw [he])
          simp [store, process?, List.getElem?_set_ne hid]
        · simp [store, process?, Function.update_of_ne hue]

theorem store_frame {g : HarqProcess P} : (r.store ref g).harqTimeoutWheel = r.harqTimeoutWheel ∧
      (r.store ref g).harqPendingRetxList = r.harqPendingRetxList ∧
      (r.store ref g).lastSlInd = r.lastSlInd ∧ (r.store ref g).history = r.history := by
  cases ref with
  | saved index position => cases hh
  | process ueIdx hId => exact ⟨rfl, rfl, rfl, rfl⟩

theorem freeHarqIds_store (ueIdx : Nat) :
    ((r.store ref h').ues ueIdx).freeHarqIds = (r.ues ueIdx).freeHarqIds := by
  cases ref with
  | saved index position => cases hh
  | process otherUe hId =>
    by_cases hue : ueIdx = otherUe
    · subst hue
      simp [store]
    · simp [store, Function.update_of_ne hue]

theorem freeRefs_store : (r.store ref h').freeRefs = r.freeRefs := by
  funext ueIdx
  rw [freeRefs, freeRefs, freeHarqIds_store hh]

end

theorem process_setFreeHarqIds (ueIdx : Nat) (ids : List Nat) :
    (r.setFreeHarqIds ueIdx ids).process? = r.process? := by
  funext other
  cases other with
  | saved index position => rfl
  | process otherUe otherId =>
    by_cases hue : otherUe = ueIdx
    · subst hue
      simp [setFreeHarqIds, process?]
    · simp [setFreeHarqIds, process?, Function.update_of_ne hue]

theorem freeRefs_setFreeHarqIds_self (ueIdx : Nat) (ids : List Nat) :
    (r.setFreeHarqIds ueIdx ids).freeRefs ueIdx = ids.map (.process ueIdx) := by
  simp [freeRefs, setFreeHarqIds]

theorem freeRefs_setFreeHarqIds_of_ne {ueIdx other : Nat} (hne : other ≠ ueIdx) (ids : List Nat) :
    (r.setFreeHarqIds ueIdx ids).freeRefs other = r.freeRefs other := by
  simp [freeRefs, setFreeHarqIds, Function.update_of_ne hne]

def withLists (r : HarqRepository P) (pending : List HarqRef) (wheel : Nat → List HarqRef) :
    HarqRepository P :=
  { r with harqPendingRetxList := pending, harqTimeoutWheel := wheel }

theorem process_withLists (pending : List HarqRef) (wheel : Nat → List HarqRef) :
    (r.withLists pending wheel).process? = r.process? := by
  funext other
  cases other <;> rfl

section
variable (hp : Partitioned cfg r)
include hp

theorem Partitioned.of_same (hprocess : r'.process? = r.process?)
    (hfree : r'.freeRefs = r.freeRefs) (hwheel : r'.harqTimeoutWheel = r.harqTimeoutWheel)
    (hpending : r'.harqPendingRetxList = r.harqPendingRetxList)
    (hsaved : ∀ index, ∀ h ∈ r'.history index, cfg.isNtnHarqModeBEnabled = true ∧
      h.status ≠ .pendingRetx ∧ index = cfg.historyIndex h.slotAck) : Partitioned cfg r' := by
  refine ⟨?_, ?_, ?_, ?_, hsaved⟩
  · rw [hprocess]
    exact hp.wf
  · rw [hprocess, hfree]
    exact hp.free
  · rw [hprocess, hwheel]
    exact hp.wheel
  · rw [hprocess, hpending]
    exact hp.pending

theorem Partitioned.update (hwf : h'.Wf cfg ref)
    (hprocess : r'.process? = Function.update r.process? ref (some h'))
    (hfree : Holds r'.freeRefs (Function.update r.process? ref (some h')) isFree)
    (hwheel : Holds r'.harqTimeoutWheel (Function.update r.process? ref (some h'))
      (timesOut cfg))
    (hpending : Holds (fun _ : Unit => r'.harqPendingRetxList)
      (Function.update r.process? ref (some h')) awaitsRetx)
    (hlast : r'.lastSlInd = r.lastSlInd) (hhistory : r'.history = r.history) :
    Updated cfg r ref h' r' := by
  refine ⟨⟨fun other o ho => ?_, hprocess ▸ hfree, hprocess ▸ hwheel, hprocess ▸ hpending, ?_⟩,
    hprocess, hlast, hhistory⟩
  · rw [hprocess] at ho
    by_cases heq : other = ref
    · subst heq
      rw [Function.update_self] at ho
      cases ho
      exact hwf
    · rw [Function.update_of_ne heq] at ho
      exact hp.wf other o ho
  · rw [hhistory]
    exact hp.saved

theorem Partitioned.mem_wheel (hh : r.process? ref = some h)
    (hactive : h.status ≠ .empty) : ref ∈ r.harqTimeoutWheel (cfg.wheelIndex h.slotTimeout) :=
  hp.wheel.mem hh (by simp [timesOut, hactive])

theorem Partitioned.mem_pending (hh : r.process? ref = some h)
    (hstatus : h.status = .pendingRetx) : ref ∈ r.harqPendingRetxList :=
  hp.pending.mem (i := ()) hh (by simp [awaitsRetx, hstatus])

theorem Partitioned.not_mem_pending (hh : r.process? ref = some h)
    (hstatus : h.status ≠ .pendingRetx) : ref ∉ r.harqPendingRetxList := by
  rw [← List.count_eq_zero, hp.pending.count_eq hh ()]
  simp [awaitsRetx, hstatus]

end

theorem popHarq_of_mem {list : List HarqRef} (hmem : ref ∈ list) :
    popHarq list ref = .ok (list.erase ref) := by
  rw [popHarq, if_pos hmem]

theorem popPending_of_mem (hmem : ref ∈ r.harqPendingRetxList) :
    r.popPending ref = .ok (r.withLists (r.harqPendingRetxList.erase ref) r.harqTimeoutWheel) := by
  rw [popPending, popHarq_of_mem hmem]
  rfl

theorem popTimeout_of_mem (hmem : ref ∈ r.harqTimeoutWheel (cfg.wheelIndex h.slotTimeout)) :
    r.popTimeout cfg ref h = .ok (r.withLists r.harqPendingRetxList
      (Function.update r.harqTimeoutWheel (cfg.wheelIndex h.slotTimeout)
        ((r.harqTimeoutWheel (cfg.wheelIndex h.slotTimeout)).erase ref))) := by
  rw [popTimeout, popHarq_of_mem hmem]
  rfl

theorem Partitioned.wheel_pop (hp : Partitioned cfg r) (hh : r.process? ref = some h)
    (hactive : h.status ≠ .empty) (hempty : h'.status = .empty) :
    Holds (Function.update r.harqTimeoutWheel (cfg.wheelIndex h.slotTimeout)
        ((r.harqTimeoutWheel (cfg.wheelIndex h.slotTimeout)).erase ref))
      (Function.update r.process? ref (some h')) (timesOut cfg) := by
  refine hp.wheel.remove (i := cfg.wheelIndex h.slotTimeout) (fun j hj => Function.update_of_ne hj _ _) ?_
    (fun j hj => ?_) fun j => by simp [timesOut, hempty]
  · rw [Function.update_self]
    exact List.perm_cons_erase (hp.mem_wheel hh hactive)
  · rw [hp.wheel.count_eq hh]
    simp [timesOut, hj]

theorem wheel_push {g : HarqProcess P} {wheel : Nat → List HarqRef} {value : HarqRef → Option (HarqProcess P)}
    (hw : Holds wheel value (timesOut cfg)) (hnone : ∀ j, (wheel j).count ref = 0)
    (hactive : g.status ≠ .empty) :
    Holds (Function.update wheel (cfg.wheelIndex g.slotTimeout)
        (ref :: wheel (cfg.wheelIndex g.slotTimeout)))
      (Function.update value ref (some g)) (timesOut cfg) := by
  refine hw.insert (i := cfg.wheelIndex g.slotTimeout) (fun j hj => Function.update_of_ne hj _ _) ?_
    hnone fun j => by simp [timesOut, hactive]
  rw [Function.update_self]

def movedWheel (cfg : HarqConfig) (r : HarqRepository P) (ref : HarqRef) (h h' : HarqProcess P) :
    Nat → List HarqRef :=
  let wheel := Function.update r.harqTimeoutWheel (cfg.wheelIndex h.slotTimeout)
    ((r.harqTimeoutWheel (cfg.wheelIndex h.slotTimeout)).erase ref)
  Function.update wheel (cfg.wheelIndex h'.slotTimeout) (ref :: wheel (cfg.wheelIndex h'.slotTimeout))

section
variable (hp : Partitioned cfg r)
include hp

variable (hh : r.process? ref = some h)
include hh

theorem Partitioned.wheel_move (hactive : h.status ≠ .empty) (hactive' : h'.status ≠ .empty) :
    Holds (r.movedWheel cfg ref h h') (Function.update r.process? ref (some h'))
      (timesOut cfg) := by
  have hpop := hp.wheel_pop hh hactive h.released_status
  have hnone (j : Nat) : (Function.update r.harqTimeoutWheel (cfg.wheelIndex h.slotTimeout)
      ((r.harqTimeoutWheel (cfg.wheelIndex h.slotTimeout)).erase ref) j).count ref = 0 := by
    rw [hpop.count_eq (Function.update_self ref _ _)]
    simp [timesOut, released_status]
  have hpush := wheel_push (g := h') hpop hnone hactive'
  rwa [Function.update_idem] at hpush

theorem Partitioned.pending_keep
    (hstatus : h.status ≠ .pendingRetx) (hstatus' : h'.status ≠ .pendingRetx) :
    Holds (fun _ : Unit => r.harqPendingRetxList) (Function.update r.process? ref (some h'))
      awaitsRetx :=
  hp.pending.keep hh fun _ => by simp [awaitsRetx, hstatus, hstatus']

theorem Partitioned.pending_pop
    (hstatus : h.status = .pendingRetx) (hstatus' : h'.status ≠ .pendingRetx) :
    Holds (fun _ : Unit => r.harqPendingRetxList.erase ref) (Function.update r.process? ref (some h'))
      awaitsRetx :=
  hp.pending.remove (i := ()) (fun _ hj => absurd rfl hj)
    (List.perm_cons_erase (hp.mem_pending hh hstatus)) (fun _ hj => absurd rfl hj)
    fun _ => by simp [awaitsRetx, hstatus']

theorem Partitioned.pending_push
    (hstatus : h.status ≠ .pendingRetx) (hstatus' : h'.status = .pendingRetx) :
    Holds (fun _ : Unit => r.harqPendingRetxList ++ [ref]) (Function.update r.process? ref (some h'))
      awaitsRetx := by
  refine hp.pending.insert (i := ()) (fun _ hj => absurd rfl hj) (List.perm_append_singleton _ _)
    (fun j => ?_) fun _ => by simp [awaitsRetx, hstatus']
  rw [hp.pending.count_eq hh j]
  simp [awaitsRetx, hstatus]

theorem Partitioned.free_keep (hactive : h.status ≠ .empty) (hactive' : h'.status ≠ .empty) :
    Holds r.freeRefs (Function.update r.process? ref (some h')) isFree :=
  hp.free.keep hh fun _ => by simp [isFree, hactive, hactive']

theorem Partitioned.free_push
    (hactive : h.status ≠ .empty) (hempty : h'.status = .empty) (hue : h'.ueIdx = h.ueIdx)
    {free : Nat → List HarqRef} (hself : free h.ueIdx = r.freeRefs h.ueIdx ++ [ref])
    (hother : ∀ ueIdx, ueIdx ≠ h.ueIdx → free ueIdx = r.freeRefs ueIdx) :
    Holds free (Function.update r.process? ref (some h')) isFree := by
  refine hp.free.insert (i := h.ueIdx) hother ?_ (fun j => ?_) fun j => ?_
  · rw [hself]
    exact List.perm_append_singleton _ _
  · rw [hp.free.count_eq hh]
    simp [isFree, hactive]
  · simp [isFree, hempty, hue, eq_comm]

theorem Partitioned.free_pop (hactive : h'.status ≠ .empty) {free : Nat → List HarqRef}
    (hself : r.freeRefs h.ueIdx = free h.ueIdx ++ [ref])
    (hother : ∀ ueIdx, ueIdx ≠ h.ueIdx → free ueIdx = r.freeRefs ueIdx) :
    Holds free (Function.update r.process? ref (some h')) isFree := by
  refine hp.free.remove (i := h.ueIdx) hother ?_ (fun j hj => ?_)
    fun j => by simp [isFree, hactive]
  · rw [hself]
    exact List.perm_append_singleton _ _
  · rw [hp.free.count_eq hh]
    simp [isFree, Ne.symm hj]

end

/-! One lemma for each operation on one process. -/

variable (hp : Partitioned cfg r)
include hp

section
variable (hh : r.process? ref = some h)
include hh

theorem Partitioned.unchanged : Updated cfg r ref h r := by
  refine ⟨hp, ?_, rfl, rfl⟩
  rw [← hh, Function.update_eq_self]

theorem Partitioned.deallocHarq :
    ∃ r', r.deallocHarq cfg ref = .ok r' ∧ Updated cfg r ref h.released r' ∧
      r'.harqPendingRetxList = r.harqPendingRetxList.erase ref := by
  have haccess := access_of_process hh
  have hwf := hp.wf ref h hh
  by_cases hactive : h.status = .empty
  · refine ⟨r, ?_, ?_, (List.erase_of_not_mem (hp.not_mem_pending hh (by simp [hactive]))).symm⟩
    · rw [HarqRepository.deallocHarq, haccess, Checked.ok_bind, if_pos hactive]
    · rw [released, if_pos hactive]
      exact hp.unchanged hh
  · have hreleased := released_of_active hactive
    have hempty := h.released_status
    have hnotPending : h.released.status ≠ .pendingRetx := by simp [hempty]
    let pending := r.harqPendingRetxList.erase ref
    obtain ⟨hpop, hholds⟩ : (if h.status = .pendingRetx then r.popPending ref else .ok r) =
        .ok (r.withLists pending r.harqTimeoutWheel) ∧
        Holds (fun _ : Unit => pending) (Function.update r.process? ref (some h.released))
          awaitsRetx := by
      by_cases hstatus : h.status = .pendingRetx
      · rw [if_pos hstatus, popPending_of_mem (hp.mem_pending hh hstatus)]
        exact ⟨rfl, hp.pending_pop hh hstatus hnotPending⟩
      · have hsame : pending = r.harqPendingRetxList :=
          List.erase_of_not_mem (hp.not_mem_pending hh hstatus)
        rw [if_neg hstatus, hsame]
        exact ⟨rfl, hp.pending_keep hh hstatus hnotPending⟩
    let wheel := Function.update r.harqTimeoutWheel (cfg.wheelIndex h.slotTimeout)
      ((r.harqTimeoutWheel (cfg.wheelIndex h.slotTimeout)).erase ref)
    have hlisted : (r.withLists pending wheel).process? ref = some h := by
      rw [process_withLists, hh]
    obtain ⟨hwheel, hpending, hlast, hhistory⟩ := store_frame (g := h.released) hlisted
    refine ⟨((r.withLists pending wheel).store ref h.released).setFreeHarqIds h.ueIdx
      ((((r.withLists pending wheel).store ref h.released).ues h.ueIdx).freeHarqIds ++ [h.hId]), ?_, ?_, hpending⟩
    · rw [HarqRepository.deallocHarq, haccess, Checked.ok_bind, if_neg hactive, hpop, Checked.ok_bind,
        popTimeout_of_mem (r := r.withLists pending r.harqTimeoutWheel) (hp.mem_wheel hh hactive),
        hreleased]
      rfl
    · refine hp.update hwf.released ?_ ?_ ?_ ?_ hlast hhistory
      · rw [process_setFreeHarqIds, process_store hlisted, process_withLists]
      · refine hp.free_push hh hactive hempty (by rw [hreleased]; rfl) ?_ fun ueIdx hue => ?_
        · rw [freeRefs_setFreeHarqIds_self, freeHarqIds_store hlisted, List.map_append,
            List.map_singleton, ← hwf.ref_eq]
          rfl
        · rw [freeRefs_setFreeHarqIds_of_ne hue, freeRefs_store hlisted]
          rfl
      · have hleft : Holds wheel _ (timesOut cfg) :=
          hp.wheel_pop hh hactive hempty
        rwa [← show _ = wheel from hwheel] at hleft
      · rwa [← show _ = pending from hpending] at hholds

theorem Partitioned.store
    (hwf : h'.Wf cfg ref) (hstatus : h'.status = h.status) (htimeout : h'.slotTimeout = h.slotTimeout)
    (hue : h'.ueIdx = h.ueIdx) : Updated cfg r ref h' (r.store ref h') := by
  obtain ⟨hwheel, hpending, hlast, hhistory⟩ := store_frame (g := h') hh
  refine hp.update hwf (process_store hh) ?_ ?_ ?_ hlast hhistory
  · rw [freeRefs_store hh]
    exact hp.free.keep hh fun ueIdx => by rw [isFree, isFree, hstatus, hue]
  · rw [hwheel]
    refine hp.wheel.keep hh fun index => ?_
    rw [timesOut, timesOut, hstatus, htimeout]
  · rw [hpending]
    exact hp.pending.keep hh fun _ => by rw [awaitsRetx, awaitsRetx, hstatus]

theorem Partitioned.retime
    (hactive : h.status ≠ .empty) (hwf : h'.Wf cfg ref) (hactive' : h'.status ≠ .empty)
    {pending : List HarqRef}
    (hholds : Holds (fun _ : Unit => pending) (Function.update r.process? ref (some h'))
      awaitsRetx) :
    Updated cfg r ref h' ((r.withLists pending (r.movedWheel cfg ref h h')).store ref h') := by
  have hlisted : (r.withLists pending (r.movedWheel cfg ref h h')).process? ref = some h := by
    rw [process_withLists, hh]
  obtain ⟨hwheel, hpending, hlast, hhistory⟩ := store_frame (g := h') hlisted
  refine hp.update hwf ?_ ?_ ?_ ?_ hlast hhistory
  · rw [process_store hlisted, process_withLists]
  · rw [freeRefs_store hlisted]
    exact hp.free_keep hh hactive hactive'
  · rw [hwheel]
    exact hp.wheel_move hh hactive hactive'
  · rw [hpending]
    exact hholds

theorem Partitioned.setPendingRetx
    (hstatus : h.status = .waitingAck) (hretxs : h.nofRetxs < h.maxNofHarqRetxs) :
    ∃ r', r.setPendingRetx cfg ref = .ok r' ∧
      Updated cfg r ref (h.setPendingRetx cfg r.lastSlInd) r' := by
  have hactive : h.status ≠ .empty := by simp [hstatus]
  have hwf := hp.wf ref h hh
  have hwf' : (h.setPendingRetx cfg r.lastSlInd).Wf cfg ref :=
    ⟨hwf.ref_eq, nofun, fun _ => hretxs, fun _ => hwf.slotAck_numerology hactive⟩
  refine ⟨_, ?_, hp.retime hh hactive hwf' nofun (hp.pending_push hh (by simp [hstatus]) rfl)⟩
  rw [HarqRepository.setPendingRetx, access_of_process hh, Checked.ok_bind, hstatus]
  dsimp only
  rw [popTimeout_of_mem (hp.mem_wheel hh hactive), Checked.ok_bind]
  cases ref <;> rfl

theorem Partitioned.handleNewRetx
    (hstatus : h.status = .pendingRetx) (slTx : SlotPoint) {slAck : SlotPoint}
    (hslAck : slAck.numerology = cfg.numerology) (params : P) :
    ∃ r', r.handleNewRetx cfg ref slTx slAck params = .ok (r', true) ∧
      Updated cfg r ref (h.setNewRetx cfg slTx slAck params) r' := by
  have hactive : h.status ≠ .empty := by simp [hstatus]
  have hwf := hp.wf ref h hh
  have hwf' : (h.setNewRetx cfg slTx slAck params).Wf cfg ref :=
    ⟨hwf.ref_eq, fun _ => hwf.retxs_lt hstatus, nofun, fun _ => hslAck⟩
  refine ⟨_, ?_, hp.retime hh hactive hwf' nofun (hp.pending_pop hh hstatus nofun)⟩
  rw [HarqRepository.handleNewRetx, access_of_process hh, Checked.ok_bind, if_neg (by simp [hstatus]),
    popPending_of_mem (hp.mem_pending hh hstatus), Checked.ok_bind,
    popTimeout_of_mem (r := r.withLists (r.harqPendingRetxList.erase ref) r.harqTimeoutWheel)
      (hp.mem_wheel hh hactive), Checked.ok_bind]
  rfl

end

theorem Partitioned.allocHarq {ueIdx hId : Nat}
    (hlast : (r.ues ueIdx).freeHarqIds.getLast? = some hId) (slTx : SlotPoint) {slAck : SlotPoint}
    (hslAck : slAck.numerology = cfg.numerology) (maxNofHarqRetxs : Nat) (params : P) :
    ∃ h r', r.process? (.process ueIdx hId) = some h ∧ h.status = .empty ∧
      r.allocHarq cfg ueIdx slTx slAck maxNofHarqRetxs params =
        .ok (r', some (.process ueIdx hId)) ∧
      Updated cfg r (.process ueIdx hId) (h.setNewTx cfg slTx slAck maxNofHarqRetxs params) r' := by
  obtain ⟨ids, hids⟩ := List.getLast?_eq_some_iff.mp hlast
  have hmem : HarqRef.process ueIdx hId ∈ r.freeRefs ueIdx := by simp [freeRefs, hids]
  obtain ⟨h, hh, hfree⟩ := hp.free.mem_iff.mp hmem
  obtain ⟨hempty, hue⟩ : h.status = .empty ∧ h.ueIdx = ueIdx := by simpa [isFree] using hfree
  have hwf := hp.wf _ h hh
  have hid : hId = h.hId := (HarqRef.process.inj hwf.ref_eq).2
  have hwf' : (h.setNewTx cfg slTx slAck maxNofHarqRetxs params).Wf cfg (.process ueIdx hId) :=
    ⟨hwf.ref_eq, fun _ => Nat.zero_le _, nofun, fun _ => hslAck⟩
  have hactive' : (h.setNewTx cfg slTx slAck maxNofHarqRetxs params).status ≠ .empty := nofun
  let taken := r.setFreeHarqIds ueIdx ids
  have htaken : taken.process? (.process ueIdx hId) = some h := by
    rw [process_setFreeHarqIds, hh]
  let wheel := Function.update r.harqTimeoutWheel
    (cfg.wheelIndex (h.setNewTx cfg slTx slAck maxNofHarqRetxs params).slotTimeout)
    (.process ueIdx hId :: r.harqTimeoutWheel
      (cfg.wheelIndex (h.setNewTx cfg slTx slAck maxNofHarqRetxs params).slotTimeout))
  have hlisted : (taken.withLists r.harqPendingRetxList wheel).process? (.process ueIdx hId) = some h := by
    rw [process_withLists, htaken]
  refine ⟨h, (taken.withLists r.harqPendingRetxList wheel).store (.process ueIdx hId)
    (h.setNewTx cfg slTx slAck maxNofHarqRetxs params), hh, hempty, ?_, ?_⟩
  · rw [HarqRepository.allocHarq, hlast]
    dsimp only
    rw [access_of_process hh, Checked.ok_bind, if_pos ⟨hue, hid.symm⟩]
    have hdrop : (r.ues ueIdx).freeHarqIds.dropLast = ids := by rw [hids, List.dropLast_concat]
    rw [hdrop]
    rfl
  · refine hp.update hwf' ?_ ?_ ?_ ?_ rfl rfl
    · rw [process_store hlisted, process_withLists, process_setFreeHarqIds]
    · rw [freeRefs_store hlisted]
      refine hp.free_pop hh hactive' ?_ fun other hother => ?_
      · rw [hue, freeRefs, hids, List.map_append]
        exact congrArg (· ++ _) (freeRefs_setFreeHarqIds_self ueIdx ids).symm
      · exact freeRefs_setFreeHarqIds_of_ne (hue ▸ hother) ids
    · have hnone (index : Nat) : (r.harqTimeoutWheel index).count (.process ueIdx hId) = 0 := by
        rw [hp.wheel.count_eq hh]
        simp [timesOut, hempty]
      exact wheel_push hp.wheel hnone hactive'
    · exact hp.pending_keep hh (by simp [hempty]) nofun

end HarqRepository

end Srsran.Scheduler
