import Srsran.Lib.Measure
import Srsran.Pdcp.TxCountUse

/-! The totals that the TX window keeps of its SDUs (`pdcp_tx_window.cpp`) through all operations of the
transmitting entity. -/
namespace Srsran.Adt.CircularMap
variable {V : Type} {map : CircularMap V} {key : Nat} {value : V}

def slotWeight (weight : V → Nat) : Option (Nat × V) → Nat
  | none => 0
  | some (_, value) => weight value

def total (weight : V → Nat) (map : CircularMap V) : Nat :=
  ∑ idx ∈ Finset.range map.capacity, slotWeight weight (map.slots idx)

theorem getCircularIdx_lt (hcapacity : 0 < map.capacity) : map.getCircularIdx key < map.capacity :=
  Nat.lt_of_le_of_lt Nat.and_le_right (Nat.sub_lt hcapacity Nat.one_pos)

theorem total_empty (weight : V → Nat) (capacity : Nat) : (empty V capacity).total weight = 0 :=
  Finset.sum_eq_zero fun _ _ => rfl

theorem total_overwrite (weight : V → Nat) (hcapacity : 0 < map.capacity) :
    (map.overwrite key value).total weight + slotWeight weight (map.slots (map.getCircularIdx key)) =
      map.total weight + weight value := by
  rw [total, capacity_overwrite, slots_overwrite]
  exact Measure.sum_update_add (Finset.mem_range.mpr (getCircularIdx_lt hcapacity)) map.slots (slotWeight weight)
    (some (key, value))

theorem total_erase (weight : V → Nat) (hcapacity : 0 < map.capacity) (h : map.get? key = some value) :
    (map.erase key).total weight + weight value = map.total weight := by
  have hcontains : map.contains key = true := by
    rw [contains, h]
    rfl
  have hidx := Finset.mem_range.mpr (@getCircularIdx_lt _ map key hcapacity)
  have hsum := Measure.sum_update_add hidx map.slots (slotWeight weight) none
  rw [(get?_eq_some_iff map key value).mp h] at hsum
  rw [total, capacity_erase, slots_erase_of_contains map key hcontains]
  exact hsum

end Srsran.Adt.CircularMap

namespace Srsran.Pdcp
open Srsran.Adt Checked

namespace PdcpTxWindow
variable {window : PdcpTxWindow} {count : Nat} {elem old : PdcpTxWindowElement}

/-- The totals are those of the elements present, as 32-bit numbers. -/
structure Totals (window : PdcpTxWindow) : Prop where
  sduBytes : window.sduBytes = window.txWindow.total PdcpTxWindowElement.sduLength % 2 ^ 32
  nofSdus : window.nofSdus = window.txWindow.total (fun _ => 1) % 2 ^ 32
  lengths : ∀ count elem, window.get? count = some elem → elem.sduLength < 2 ^ 32
  capacity : 0 < window.txWindow.capacity

def slotFree (window : PdcpTxWindow) (count : Nat) : Bool :=
  (window.txWindow.slots (window.txWindow.getCircularIdx count)).isNone

theorem Totals.addSdu (h : window.Totals) (hfree : window.slotFree elem.count = true)
    (hlength : elem.sduLength < 2 ^ 32) : (window.addSdu elem).Totals := by
  have hslot := Option.isNone_iff_eq_none.mp hfree
  have hbytes := @CircularMap.total_overwrite _ window.txWindow elem.count elem
    PdcpTxWindowElement.sduLength h.capacity
  have hsdus := @CircularMap.total_overwrite _ window.txWindow elem.count elem (fun _ => 1)
    h.capacity
  rw [hslot, CircularMap.slotWeight, Nat.add_zero] at hbytes hsdus
  refine ⟨?_, ?_, ?_, ?_⟩
  · rw [PdcpTxWindow.addSdu]
    dsimp only
    rw [hbytes, h.sduBytes, Nat.mod_add_mod]
  · rw [PdcpTxWindow.addSdu]
    dsimp only
    rw [hsdus, h.nofSdus, Nat.mod_add_mod]
  · intro count value hget
    rcases PdcpEntityTx.get?_addSdu_cases hget with ⟨_, heq⟩ | hold
    · rw [heq]
      exact hlength
    · exact h.lengths count value hold
  · rw [PdcpTxWindow.addSdu, CircularMap.capacity_overwrite]
    exact h.capacity

theorem Totals.removeSdu (h : window.Totals) (count : Nat) : (window.removeSdu count).Totals := by
  have hkept : ∀ other value, (window.removeSdu count).get? other = some value →
      value.sduLength < 2 ^ 32 := by
    intro other value hget
    rw [get?_removeSdu] at hget
    split at hget
    · cases hget
    · exact h.lengths other value hget
  have hcapacity : 0 < (window.removeSdu count).txWindow.capacity := by
    rw [capacity_removeSdu]
    exact h.capacity
  refine ⟨?_, ?_, hkept, hcapacity⟩
  all_goals
    rw [PdcpTxWindow.removeSdu]
    cases hget : window.txWindow.get? count with
    | none => first | exact h.sduBytes | exact h.nofSdus
    | some elem =>
      have hlength := h.lengths count elem hget
      have hbytes := CircularMap.total_erase PdcpTxWindowElement.sduLength h.capacity hget
      have hsdus := CircularMap.total_erase (fun _ => 1) h.capacity hget
      have hoBytes := h.sduBytes
      have hoSdus := h.nofSdus
      dsimp only
      omega

theorem Totals.setElement (h : window.Totals) (hget : window.get? count = some old)
    (hlength : elem.sduLength = old.sduLength) : (window.setElement count elem).Totals := by
  have hslot := (CircularMap.get?_eq_some_iff _ _ _).mp hget
  have hbytes := @CircularMap.total_overwrite _ window.txWindow count elem
    PdcpTxWindowElement.sduLength h.capacity
  have hsdus := @CircularMap.total_overwrite _ window.txWindow count elem (fun _ => 1) h.capacity
  rw [hslot] at hbytes hsdus
  dsimp only [CircularMap.slotWeight] at hbytes hsdus
  refine ⟨?_, ?_, ?_, ?_⟩
  · rw [PdcpTxWindow.setElement]
    dsimp only
    rw [h.sduBytes]
    congr 1
    omega
  · rw [PdcpTxWindow.setElement]
    dsimp only
    rw [h.nofSdus]
    congr 1
    omega
  · intro other value hother
    rw [PdcpEntityTx.get?_setElement hget] at hother
    split at hother
    · cases hother
      rw [hlength]
      exact h.lengths count old hget
    · exact h.lengths other value hother
  · rw [PdcpTxWindow.setElement, CircularMap.capacity_overwrite]
    exact h.capacity

theorem Totals.clear (h : window.Totals) : window.clear.Totals where
  sduBytes := by
    rw [PdcpTxWindow.clear, CircularMap.total_empty]
    rfl
  nofSdus := by
    rw [PdcpTxWindow.clear, CircularMap.total_empty]
    rfl
  lengths := nofun
  capacity := h.capacity

theorem Processed.totals {first window : PdcpTxWindow} (h : Processed first window) (ht : first.Totals) :
    window.Totals := by
  induction h with
  | refl => exact ht
  | removeSdu window count _ ih => exact ih.removeSdu count
  | setElement window count elem elem' _ hget _ hlength ih => exact ih.setElement hget hlength
  | clear window _ ih => exact ih.clear

end PdcpTxWindow

namespace PdcpEntityTx
variable {ent : PdcpEntityTx}

theorem retransmitAllPdus_window : ent.retransmitAllPdus.txWindow = ent.txWindow := by
  rw [retransmitAllPdus]
  split
  · rfl
  · rw [retransmitLoop_same.window]
    rfl

theorem reestablish_totals {secCfg : Sec128AsConfig} (h : ent.txWindow.Totals) :
    (ent.reestablish secCfg).txWindow.Totals := by
  have hsecured : ∀ mid : PdcpEntityTx, mid.txWindow.Totals →
      (if (mid.configureSecurity secCfg mid.integrityEnabled mid.cipheringEnabled).cfg.isAm then
        (mid.configureSecurity secCfg mid.integrityEnabled mid.cipheringEnabled).retransmitAllPdus
      else mid.configureSecurity secCfg mid.integrityEnabled mid.cipheringEnabled).txWindow.Totals := by
    intro mid hmid
    have hwindow := (@configureSecurity_same mid secCfg mid.integrityEnabled mid.cipheringEnabled).window
    split
    · rw [retransmitAllPdus_window, hwindow]
      exact hmid
    · rw [hwindow]
      exact hmid
  rw [reestablish]
  apply hsecured
  split
  · exact h.clear
  · exact h

end PdcpEntityTx

end Srsran.Pdcp
