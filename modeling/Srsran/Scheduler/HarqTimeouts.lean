import Srsran.Scheduler.HarqPartition

/-! Timeouts of HARQ processes: the slot indication of the timeout of a process releases it, and none
before. -/
namespace Srsran.Scheduler
open Srsran.Ran HarqManager HarqRepository Checked
variable {P : Type}

namespace HarqConfig

/-- A slot of the cell, whose hyper system frame is not shorter than the wheel. -/
structure OnSlot (cfg : HarqConfig) (sl : SlotPoint) : Prop where
  numerology_eq : sl.numerology = cfg.numerology
  numerology_lt : sl.numerology < nofNumerologies
  count_lt : sl.count < sl.nofSlotsPerHyperSystemFrame
  wheel_le : cfg.wheelSize ≤ sl.nofSlotsPerHyperSystemFrame

variable {cfg : HarqConfig} {sl : SlotPoint}

theorem nofSlots_le {numerology : Nat} (h : numerology < nofNumerologies) :
    nofSlotsPerHyperSystemFrame numerology ≤ 2 ^ 18 := by
  have hcases : numerology = 0 ∨ numerology = 1 ∨ numerology = 2 ∨ numerology = 3 ∨ numerology = 4 := by
    rw [nofNumerologies] at h
    omega
  rcases hcases with rfl | rfl | rfl | rfl | rfl <;> decide

theorem OnSlot.nofSlots_le (h : cfg.OnSlot sl) : sl.nofSlotsPerHyperSystemFrame ≤ 2 ^ 18 :=
  HarqConfig.nofSlots_le h.numerology_lt

theorem OnSlot.next_of_order (h : cfg.OnSlot sl) {slTx : SlotPoint}
    (horder : sl = .invalid ∨ slTx = sl.add 1) : slTx = sl.add 1 := by
  refine horder.resolve_left fun hinvalid => ?_
  have hvalid := h.numerology_lt
  rw [hinvalid] at hvalid
  exact absurd hvalid (by decide)

theorem shortTimeout_le_wheelSize : shortAckTimeoutDtx ≤ cfg.wheelSize := by
  have hle := le_getAllocatorRingSizeGtMin
    (cfg.maxAckWaitTimeout + getMaxSlotUlAllocDelay cfg.ntnCsKoffset)
  have hdelay : shortAckTimeoutDtx ≤ getMaxSlotUlAllocDelay cfg.ntnCsKoffset := by
    have : shortAckTimeoutDtx ≤ schedulerMaxK0 := by decide
    rw [getMaxSlotUlAllocDelay]
    omega
  rw [wheelSize]
  omega

theorem koffset_le_wheelSize : cfg.ntnCsKoffset ≤ cfg.wheelSize := by
  have hle := le_getAllocatorRingSizeGtMin
    (cfg.maxAckWaitTimeout + getMaxSlotUlAllocDelay cfg.ntnCsKoffset)
  rw [getMaxSlotUlAllocDelay] at hle
  rw [wheelSize, getMaxSlotUlAllocDelay]
  omega

/-- Within one turn of the wheel only the next slot has its index. -/
theorem OnSlot.wheelIndex_eq_iff (h : cfg.OnSlot sl) {k : Nat} (hpos : 0 < k) (hk : k ≤ cfg.wheelSize) :
    cfg.wheelIndex (sl.add k) = cfg.wheelIndex (sl.add 1) ↔ k = 1 := by
  have hslots := h.nofSlots_le
  have hcount := h.count_lt
  have hwheel := h.wheel_le
  have hdvd : cfg.wheelSize ∣ sl.nofSlotsPerHyperSystemFrame := ringSize_dvd_of_le hwheel
  have hindex (j : Nat) (hj : j ≤ cfg.wheelSize + 1) :
      cfg.wheelIndex (sl.add j) = (sl.count + j) % cfg.wheelSize := by
    have hsmall : (sl.count + j) % 2 ^ 32 = sl.count + j := Nat.mod_eq_of_lt (by omega)
    rw [wheelIndex, SlotPoint.add, hsmall]
    exact Nat.mod_mod_of_dvd _ hdvd
  rw [hindex k (by omega), hindex 1 (by omega)]
  constructor
  · intro heq
    have hsame : sl.count + k = sl.count + 1 :=
      @ModOrder.mod_inj_of_near cfg.wheelSize (sl.count + 1) (sl.count + k) (sl.count + 1) (by omega)
        (by omega) (by omega) (by omega) heq
    omega
  · rintro rfl
    rfl

end HarqConfig

namespace HarqRepository
variable {cfg : HarqConfig} {r r' : HarqRepository P} {ref : HarqRef} {h h' : HarqProcess P}
  {maxUes : Nat}

/-- Every active process times out within one turn of the wheel. -/
def TimeoutsAhead (cfg : HarqConfig) (r : HarqRepository P) : Prop :=
  ∀ ref h, r.process? ref = some h → h.status ≠ .empty →
    ∃ k, 0 < k ∧ k ≤ cfg.wheelSize ∧ h.slotTimeout = r.lastSlInd.add k

/-- Before the first slot indication all processes are empty. -/
structure Timed (cfg : HarqConfig) (maxUes : Nat) (r : HarqRepository P) : Prop where
  bounded : ∀ ueIdx hId h, r.process? (.process ueIdx hId) = some h → ueIdx < maxUes
  started : (r.lastSlInd = .invalid ∧ ∀ ref h, r.process? ref = some h → h.status = .empty) ∨
    cfg.OnSlot r.lastSlInd ∧ r.TimeoutsAhead cfg

/-- The timeout of a pending retransmission fits in the wheel. -/
def pendingFits (cfg : HarqConfig) : Prop :=
  0 < cfg.harqRetxTimeout ∧ cfg.harqRetxTimeout ≤ cfg.wheelSize

section
variable (ht : Timed cfg maxUes r)
include ht

theorem Timed.timeoutsAhead : r.TimeoutsAhead cfg := by
  rcases ht.started with ⟨-, hempty⟩ | ⟨-, hahead⟩
  · exact fun ref h hh hactive => absurd (hempty ref h hh) hactive
  · exact hahead

theorem Timed.moved {nackable : Prop} (hmoved : Moved cfg r nackable r')
    (hfits : nackable → pendingFits cfg) : Timed cfg maxUes r' := by
  have hbefore (ref : HarqRef) (h' : HarqProcess P) (hh' : r'.process? ref = some h') :
      ∃ h, r.process? ref = some h ∧ h.Moves cfg r.lastSlInd nackable h' := by
    have hmoves := hmoved.moves ref
    rw [hh'] at hmoves
    generalize hh : r.process? ref = before at hmoves
    cases hmoves with
    | some hm => exact ⟨_, rfl, hm⟩
  refine ⟨fun ueIdx hId h' hh' => ?_, ?_⟩
  · obtain ⟨h, hh, -⟩ := hbefore _ h' hh'
    exact ht.bounded ueIdx hId h hh
  rw [hmoved.lastSlInd_eq, TimeoutsAhead, hmoved.lastSlInd_eq]
  refine ht.started.imp (fun hidle => ⟨hidle.1, fun ref h' hh' => ?_⟩)
    fun hon => ⟨hon.1, fun ref h' hh' hactive => ?_⟩
  · obtain ⟨h, hh, hmoves⟩ := hbefore ref h' hh'
    have hempty := hidle.2 ref h hh
    cases hmoves with
    | keep hstatus _ _ => rw [hstatus, hempty]
    | release hactive _ _ => exact absurd hempty hactive
    | shorten hwaiting _ _ _ => simp [hempty] at hwaiting
    | nack _ hwaiting _ _ _ => simp [hempty] at hwaiting
  · obtain ⟨h, hh, hmoves⟩ := hbefore ref h' hh'
    cases hmoves with
    | keep hstatus htimeout _ =>
      obtain ⟨k, hpos, hle, hk⟩ := hon.2 ref h hh (hstatus ▸ hactive)
      exact ⟨k, hpos, hle, htimeout.trans hk⟩
    | release _ hempty _ => exact absurd hempty hactive
    | shorten _ _ htimeout _ =>
      exact ⟨shortAckTimeoutDtx, by decide, HarqConfig.shortTimeout_le_wheelSize, htimeout⟩
    | nack hnackable _ _ htimeout _ =>
      exact ⟨cfg.harqRetxTimeout, (hfits hnackable).1, (hfits hnackable).2, htimeout⟩

theorem Timed.of_process_eq (hprocess : r'.process? = r.process?)
    (hlast : r'.lastSlInd = r.lastSlInd) : Timed cfg maxUes r' := by
  refine ⟨by rw [hprocess]; exact ht.bounded, ?_⟩
  rw [hlast, TimeoutsAhead, hprocess, hlast]
  exact ht.started

theorem Timed.of_update (hh : r.process? ref = some h)
    (hprocess : r'.process? = Function.update r.process? ref (some h'))
    (hlast : r'.lastSlInd = r.lastSlInd) (hon : cfg.OnSlot r.lastSlInd)
    (hahead : ∃ k, 0 < k ∧ k ≤ cfg.wheelSize ∧ h'.slotTimeout = r.lastSlInd.add k) :
    Timed cfg maxUes r' := by
  refine ⟨fun ueIdx hId o ho => ?_, .inr ⟨hlast ▸ hon, fun other o ho hactive => ?_⟩⟩
  · rw [hprocess] at ho
    by_cases heq : HarqRef.process ueIdx hId = ref
    · exact ht.bounded ueIdx hId h (heq ▸ hh)
    · rw [Function.update_of_ne heq] at ho
      exact ht.bounded ueIdx hId o ho
  · rw [hlast]
    rw [hprocess] at ho
    by_cases heq : other = ref
    · subst heq
      rw [Function.update_self] at ho
      cases ho
      exact hahead
    · rw [Function.update_of_ne heq] at ho
      exact ht.timeoutsAhead other o ho hactive

end

theorem Timed.stop (hp : Partitioned cfg r) (ht : Timed cfg maxUes r) :
    ∃ r', r.stop cfg maxUes = .ok r' ∧ Timed cfg maxUes r' := by
  obtain ⟨r', r₁, hok, -, hprocess, hrel, hlast⟩ := hp.stop maxUes
  refine ⟨r', hok, fun ueIdx hId h hh => ?_, .inl ⟨hlast, fun ref h hh => ?_⟩⟩
  · rw [hprocess, hrel.process_eq] at hh
    split at hh
    · obtain ⟨before, hbefore, -⟩ := Option.map_eq_some_iff.mp hh
      exact ht.bounded ueIdx hId before hbefore
    · exact ht.bounded ueIdx hId h hh
  · rw [hprocess, hrel.process_eq] at hh
    split at hh
    · obtain ⟨before, -, rfl⟩ := Option.map_eq_some_iff.mp hh
      exact before.released_status
    · rename_i hnotMem
      cases ref with
      | saved index position => cases hh
      | process ueIdx hId =>
        refine absurd (List.mem_flatMap.mpr ⟨ueIdx, ?_, mem_harqRefs hh⟩) hnotMem
        exact List.mem_range.mpr (ht.bounded ueIdx hId h hh)

def due (r : HarqRepository P) (slTx : SlotPoint) (ref : HarqRef) : Bool :=
  (r.process? ref).any fun h => h.slotTimeout = slTx

/-- The wheel is not longer than the hyper system frame, and the first process that awaits its
retransmission after the timeouts is not trapped. -/
def slotFits (cfg : HarqConfig) (r : HarqRepository P) (slTx : SlotPoint) : Bool :=
  cfg.wheelSize ≤ slTx.nofSlotsPerHyperSystemFrame ∧
    (r.harqPendingRetxList.find? fun ref => !r.due slTx ref).all
      fun ref => !(r.process? ref).any (isTrapped slTx)

variable {slTx : SlotPoint}

/-- The wheel list of the next slot holds exactly the processes that time out in it. -/
theorem Timed.mem_wheel_iff (hp : Partitioned cfg r) (ht : Timed cfg maxUes r)
    (horder : r.lastSlInd = .invalid ∨ slTx = r.lastSlInd.add 1) (hh : r.process? ref = some h)
    (hactive : h.status ≠ .empty) :
    ref ∈ r.harqTimeoutWheel (cfg.wheelIndex slTx) ↔ h.slotTimeout = slTx := by
  have hmem : ref ∈ r.harqTimeoutWheel (cfg.wheelIndex slTx) ↔
      cfg.wheelIndex h.slotTimeout = cfg.wheelIndex slTx := by
    rw [hp.wheel.mem_iff, hh, eq_comm (a := cfg.wheelIndex h.slotTimeout)]
    simp [HarqProcess.timesOut, hactive]
  rw [hmem]
  rcases ht.started with ⟨-, hempty⟩ | ⟨hon, hahead⟩
  · exact absurd (hempty ref h hh) hactive
  · obtain ⟨k, hpos, hle, hk⟩ := hahead ref h hh hactive
    rw [hk, hon.next_of_order horder, hon.wheelIndex_eq_iff hpos hle]
    constructor
    · rintro rfl
      rfl
    · intro heq
      exact (hon.wheelIndex_eq_iff hpos hle).mp (congrArg cfg.wheelIndex heq)

/-- The first process that awaits its retransmission is not trapped. -/
theorem Timed.trappedFront_none (hp : Partitioned cfg r) (ht : Timed cfg maxUes r)
    (hslTx : slTx.numerology = cfg.numerology)
    (horder : r.lastSlInd = .invalid ∨ slTx = r.lastSlInd.add 1)
    (hfits : r.slotFits cfg slTx = true) {r₁ : HarqRepository P}
    (hrel : Released cfg (r.startSlot cfg slTx) (r.harqTimeoutWheel (cfg.wheelIndex slTx)) r₁) :
    r₁.trappedFront = .ok none := by
  obtain ⟨-, hpending, -, hlast⟩ := startSlot_frame cfg r slTx
  have hlast₁ : r₁.lastSlInd = slTx := hrel.lastSlInd_eq.trans hlast
  -- What is left of the list are the processes that do not time out.
  have hlist : r₁.harqPendingRetxList = r.harqPendingRetxList.filter fun ref => !r.due slTx ref := by
    rw [hrel.pending_eq, hpending]
    refine List.filter_congr fun ref hmem => ?_
    obtain ⟨h, hh, hawaits⟩ := (hp.pending.mem_iff (i := ())).mp hmem
    have hactive : h.status ≠ .empty := by
      have hstatus : h.status = .pendingRetx := by simpa [HarqProcess.awaitsRetx] using hawaits
      simp [hstatus]
    simp [due, hh, ht.mem_wheel_iff hp horder hh hactive]
  cases hfront : r₁.harqPendingRetxList with
  | nil => rw [trappedFront, hfront]
  | cons front rest =>
    obtain ⟨h, hh, -, htrapped⟩ := hrel.partitioned.trappedFront_cons hfront (by rw [hlast₁, hslTx])
    have hfirst : r.harqPendingRetxList.find? (fun ref => !r.due slTx ref) = some front := by
      rw [← List.head?_filter, ← hlist, hfront, List.head?_cons]
    have hprocess : r.process? front = some h := by
      rw [hrel.process_eq, process_startSlot] at hh
      split at hh
      · rename_i hmem
        have hdue := List.find?_some hfirst
        obtain ⟨before, hbefore, -⟩ := Option.map_eq_some_iff.mp hh
        have hactive : before.status ≠ .empty := by
          obtain ⟨o, ho, htimes⟩ := hp.wheel.mem_iff.mp hmem
          rw [hbefore] at ho
          cases ho
          simp only [HarqProcess.timesOut, decide_eq_true_eq] at htimes
          exact htimes.1
        have htimeout := (ht.mem_wheel_iff hp horder hbefore hactive).mp hmem
        simp [due, hbefore, htimeout] at hdue
      · exact hh
    have hcalm : isTrapped slTx h = false := by
      have := of_decide_eq_true hfits
      simpa [hfirst, hprocess] using this.2
    rw [htrapped, hlast₁, hcalm]
    rfl

/-- A slot indication releases exactly the processes that time out in its slot. -/
theorem Timed.slotIndication (hp : Partitioned cfg r) (ht : Timed cfg maxUes r)
    (hslTx : slTx.numerology = cfg.numerology) (hvalid : slTx.numerology < nofNumerologies)
    (hcount : slTx.count < slTx.nofSlotsPerHyperSystemFrame)
    (horder : r.lastSlInd = .invalid ∨ slTx = r.lastSlInd.add 1)
    (hfits : r.slotFits cfg slTx = true) :
    ∃ r', r.slotIndication cfg slTx = .ok r' ∧ Timed cfg maxUes r' ∧
      ∀ ref h, r.process? ref = some h → h.status ≠ .empty →
        r'.process? ref = some (if h.slotTimeout = slTx then h.released else h) := by
  obtain ⟨r₁, r', freed, hok, hrel, -, hnone⟩ := hp.slotIndication hslTx
  have hsame : r' = r₁ := hnone (ht.trappedFront_none hp hslTx horder hfits hrel)
  subst hsame
  obtain ⟨-, -, -, hlast⟩ := startSlot_frame cfg r slTx
  have hlast' : r'.lastSlInd = slTx := hrel.lastSlInd_eq.trans hlast
  have hprocess (ref : HarqRef) : r'.process? ref =
      if ref ∈ r.harqTimeoutWheel (cfg.wheelIndex slTx) then
        (r.process? ref).map HarqProcess.released else r.process? ref := by
    rw [hrel.process_eq, process_startSlot]
  have hon : cfg.OnSlot slTx := ⟨hslTx, hvalid, hcount, (of_decide_eq_true hfits).1⟩
  refine ⟨r', hok, ⟨fun ueIdx hId h hh => ?_, .inr ⟨hlast' ▸ hon, fun ref h hh hactive => ?_⟩⟩,
    fun ref h hh hactive => ?_⟩
  · rw [hprocess] at hh
    split at hh
    · obtain ⟨before, hbefore, -⟩ := Option.map_eq_some_iff.mp hh
      exact ht.bounded ueIdx hId before hbefore
    · exact ht.bounded ueIdx hId h hh
  · -- What is still active was not due: its timeout is at least one slot further.
    rw [hprocess] at hh
    split at hh
    · obtain ⟨before, -, rfl⟩ := Option.map_eq_some_iff.mp hh
      exact absurd before.released_status hactive
    · rename_i hnotMem
      obtain ⟨k, hpos, hle, hk⟩ := ht.timeoutsAhead ref h hh hactive
      have hlater : h.slotTimeout ≠ slTx := fun heq =>
        hnotMem ((ht.mem_wheel_iff hp horder hh hactive).mpr heq)
      rcases ht.started with ⟨-, hempty⟩ | ⟨honBefore, -⟩
      · exact absurd (hempty ref h hh) hactive
      · have hnext := honBefore.next_of_order horder
        have hk1 : k ≠ 1 := by
          rintro rfl
          exact hlater (hk.trans hnext.symm)
        have hslots := honBefore.nofSlots_le
        have hlt := honBefore.count_lt
        have hwheel := honBefore.wheel_le
        refine ⟨k - 1, by omega, by omega, ?_⟩
        rw [hlast', hnext, SlotPoint.add_add (by omega), hk]
        congr 1
        omega
  · simp only [hprocess, hh, ht.mem_wheel_iff hp horder hh hactive]
    split <;> rfl

/-- A slot of the cell and a delay give a timeout in the wheel; `early` slots are taken off. -/
def timeoutFits (cfg : HarqConfig) (r : HarqRepository P) (slTx : SlotPoint) (delay early : Nat) : Bool :=
  r.lastSlInd.valid ∧ early < r.lastSlInd.slotsUntil slTx + delay + cfg.maxAckWaitInSlots ∧
    r.lastSlInd.slotsUntil slTx + delay + cfg.maxAckWaitInSlots ≤ cfg.wheelSize + early

variable {delay : Nat}

/-- The timeout of a transmission that fits, in slots from the last slot indication. -/
theorem Timed.timeout_eq (ht : Timed cfg maxUes r) {early : Nat}
    (hslTx : slTx.numerology = cfg.numerology)
    (hcount : slTx.count < slTx.nofSlotsPerHyperSystemFrame)
    (hfits : r.timeoutFits cfg slTx delay early = true) (hearly : early ≤ cfg.wheelSize) :
    cfg.OnSlot r.lastSlInd ∧ ∃ k, early < k ∧ k ≤ cfg.wheelSize + early ∧
      (slTx.add delay).add cfg.maxAckWaitInSlots = r.lastSlInd.add k := by
  obtain ⟨hvalid, hlt, hle⟩ := of_decide_eq_true hfits
  have hon : cfg.OnSlot r.lastSlInd := by
    rcases ht.started with ⟨hinvalid, -⟩ | ⟨hon, -⟩
    · rw [hinvalid] at hvalid
      exact absurd hvalid (by decide)
    · exact hon
  have hnumerology : slTx.numerology = r.lastSlInd.numerology := hslTx.trans hon.numerology_eq.symm
  have hslots := hon.nofSlots_le
  have hlast := hon.count_lt
  have hwheel := hon.wheel_le
  rw [SlotPoint.nofSlotsPerHyperSystemFrame, hnumerology] at hcount
  have hreach := SlotPoint.add_slotsUntil hnumerology hlast hcount (by omega)
  generalize r.lastSlInd.slotsUntil slTx = ahead at hreach hlt hle
  have hdelay : (r.lastSlInd.add ahead).add delay = r.lastSlInd.add (ahead + delay) :=
    SlotPoint.add_add (by omega)
  have hwait : (r.lastSlInd.add (ahead + delay)).add cfg.maxAckWaitInSlots =
      r.lastSlInd.add (ahead + delay + cfg.maxAckWaitInSlots) := SlotPoint.add_add (by omega)
  exact ⟨hon, ahead + delay + cfg.maxAckWaitInSlots, hlt, hle, by rw [← hreach, hdelay, hwait]⟩

theorem Timed.newTx (hp : Partitioned cfg r) (ht : Timed cfg maxUes r) {ueIdx : Nat}
    (hslTx : slTx.numerology = cfg.numerology)
    (hcount : slTx.count < slTx.nofSlotsPerHyperSystemFrame)
    (hfits : r.nextFree ueIdx = none ∨ r.timeoutFits cfg slTx delay cfg.ntnCsKoffset = true)
    (maxNofHarqRetxs : Nat) (params : P) :
    ∃ r', r.newTx cfg ueIdx slTx (slTx.add delay) maxNofHarqRetxs params = .ok r' ∧
      Timed cfg maxUes r' := by
  have hslAck : (slTx.add delay).numerology = cfg.numerology := hslTx
  obtain ⟨r', hok, -, hlast, ⟨-, hprocess⟩ | ⟨ref, h, hfree, hh, -, hprocess⟩⟩ :=
    hp.newTx ueIdx slTx hslAck maxNofHarqRetxs params
  · exact ⟨r', hok, ht.of_process_eq hprocess hlast⟩
  · obtain ⟨hon, k, hlt, hle, hk⟩ := ht.timeout_eq hslTx hcount (hfits.resolve_left (by simp [hfree]))
      HarqConfig.koffset_le_wheelSize
    have hslots := hon.nofSlots_le
    have hcount := hon.count_lt
    have hwheel := hon.wheel_le
    have hkoffset : cfg.ntnCsKoffset ≤ cfg.wheelSize := HarqConfig.koffset_le_wheelSize
    have htimeout : ((slTx.add delay).add cfg.maxAckWaitInSlots).sub cfg.ntnCsKoffset =
        r.lastSlInd.add (k - cfg.ntnCsKoffset) := by
      rw [hk, SlotPoint.add_sub (by omega) (by omega)]
    exact ⟨r', hok, ht.of_update hh hprocess hlast hon
      ⟨k - cfg.ntnCsKoffset, by omega, by omega, htimeout⟩⟩

theorem Timed.newRetx (hp : Partitioned cfg r) (ht : Timed cfg maxUes r) (hh : r.harq? ref = some h)
    (hslTx : slTx.numerology = cfg.numerology)
    (hcount : slTx.count < slTx.nofSlotsPerHyperSystemFrame)
    (hfits : h.status = .pendingRetx → r.timeoutFits cfg slTx delay 0 = true) (params : P) :
    ∃ r', r.newRetx cfg ref slTx (slTx.add delay) params = .ok r' ∧ Timed cfg maxUes r' := by
  have hslAck : (slTx.add delay).numerology = cfg.numerology := hslTx
  obtain ⟨r', hok, -, hlast, hprocess | ⟨hstatus, hh, hprocess⟩⟩ := hp.newRetx hh slTx hslAck params
  · exact ⟨r', hok, ht.of_process_eq hprocess hlast⟩
  · obtain ⟨hon, k, hpos, hle, hk⟩ := ht.timeout_eq hslTx hcount (hfits hstatus) (Nat.zero_le _)
    exact ⟨r', hok, ht.of_update hh hprocess hlast hon ⟨k, hpos, hle, hk⟩⟩

theorem Timed.reserveUeHarqs [Inhabited P] (ht : Timed cfg maxUes r) {ueIdx : Nat}
    (hnone : (r.ues ueIdx).harqs = []) (hlt : ueIdx < maxUes) (nofHarqs : Nat) :
    Timed cfg maxUes (r.reserveUeHarqs ueIdx nofHarqs) := by
  have hcases (ref : HarqRef) (h : HarqProcess P)
      (hh : (r.reserveUeHarqs ueIdx nofHarqs).process? ref = some h) :
      (∃ hId, ref = .process ueIdx hId) ∧ h.status = .empty ∨ r.process? ref = some h := by
    rw [process_reserveUeHarqs hnone] at hh
    cases ref with
    | saved index position => cases hh
    | process otherUe hId =>
      dsimp only at hh
      by_cases hue : otherUe = ueIdx
      · rw [if_pos hue, freshProcess] at hh
        split at hh
        · cases hh
          exact .inl ⟨⟨hId, by rw [hue]⟩, rfl⟩
        · cases hh
      · rw [if_neg hue] at hh
        exact .inr hh
  refine ⟨fun otherUe hId h hh => ?_, ht.started.imp (fun hidle => ⟨hidle.1, fun ref h hh => ?_⟩)
    fun hon => ⟨hon.1, fun ref h hh hactive => ?_⟩⟩
  · rcases hcases _ h hh with ⟨⟨_, heq⟩, -⟩ | hold
    · exact (HarqRef.process.inj heq).1 ▸ hlt
    · exact ht.bounded otherUe hId h hold
  · rcases hcases ref h hh with ⟨-, hempty⟩ | hold
    · exact hempty
    · exact hidle.2 ref h hold
  · rcases hcases ref h hh with ⟨-, hempty⟩ | hold
    · exact absurd hempty hactive
    · exact hon.2 ref h hold hactive

theorem Timed.destroyUe (hp : Partitioned cfg r) (ht : Timed cfg maxUes r) (ueIdx : Nat) :
    ∃ r', r.destroyUe cfg ueIdx = .ok r' ∧ Timed cfg maxUes r' := by
  obtain ⟨r', hok, -, hprocess, hlast⟩ := hp.destroyUe ueIdx
  have hold (ref : HarqRef) (h : HarqProcess P) (hh : r'.process? ref = some h) :
      r.process? ref = some h := by
    rw [hprocess] at hh
    cases ref with
    | saved index position => cases hh
    | process otherUe hId =>
      rw [withoutUe] at hh
      split at hh
      · cases hh
      · exact hh
  refine ⟨r', hok, fun otherUe hId h hh => ht.bounded otherUe hId h (hold _ h hh), ?_⟩
  rw [hlast, TimeoutsAhead, hlast]
  exact ht.started.imp (fun hidle => ⟨hidle.1, fun ref h hh => hidle.2 ref h (hold ref h hh)⟩)
    fun hon => ⟨hon.1, fun ref h hh => hon.2 ref h (hold ref h hh)⟩

end HarqRepository

instance (cfg : HarqConfig) : Decidable (pendingFits cfg) :=
  inferInstanceAs (Decidable (_ ∧ _))

instance (cfg : HarqConfig) (h : DlHarqProcess) (ackStatus : HarqAckReportStatus)
    (pucchSnr : Option Int) : Decidable (asksRetx cfg h ackStatus pucchSnr) :=
  inferInstanceAs (Decidable (_ ∧ _))

namespace HarqManager
variable (cfg : HarqManagerConfig)

def inOrder (m : HarqManager) : HarqEvent → Bool
  | .slotIndication slTx =>
    (m.dl.lastSlInd = .invalid ∨ cfg.slot slTx = m.dl.lastSlInd.add 1) ∧
      (m.ul.lastSlInd = .invalid ∨ cfg.slot slTx = m.ul.lastSlInd.add 1)
  | _ => true

/-- Every timeout that the call sets fits in the wheel, and no process is trapped. -/
def timeoutsFit (m : HarqManager) : HarqEvent → Bool
  | .slotIndication slTx => m.dl.slotFits cfg.dl (cfg.slot slTx) && m.ul.slotFits cfg.ul (cfg.slot slTx)
  | .newDlTx ueIdx pdschSlot ackDelay _ _ => (m.dl.nextFree ueIdx).isNone ||
      m.dl.timeoutFits cfg.dl (cfg.slot pdschSlot) ackDelay cfg.ntnCsKoffset
  | .newUlTx ueIdx puschSlot _ => (m.ul.nextFree ueIdx).isNone ||
      m.ul.timeoutFits cfg.ul (cfg.slot puschSlot) 0 cfg.ntnCsKoffset
  | .dlNewRetx ref pdschSlot ackDelay _ => (m.dl.harq? ref).all fun h => h.status ≠ .pendingRetx ∨
      m.dl.timeoutFits cfg.dl (cfg.slot pdschSlot) ackDelay 0
  | .ulNewRetx ref puschSlot => (m.ul.harq? ref).all fun h => h.status ≠ .pendingRetx ∨
      m.ul.timeoutFits cfg.ul (cfg.slot puschSlot) 0 0
  | .dlAckInfo ref ackStatus pucchSnr => (m.dl.harq? ref).all fun h =>
    asksRetx cfg.dl h ackStatus pucchSnr → pendingFits cfg.dl
  | .ulCrcInfo ref ack => (m.ul.harq? ref).all fun h =>
    cfg.ul.isNtnHarqModeBEnabled = false ∧ h.status = .waitingAck ∧ ack = false ∧
      h.nofRetxs < h.maxNofHarqRetxs → pendingFits cfg.ul
  | .uciSchedFailed ueIdx uciSlot => (m.dl.ues ueIdx).harqs.all fun h =>
    h.status = .waitingAck ∧ h.slotAck = cfg.slot uciSlot ∧ h.nofRetxs < h.maxNofHarqRetxs ∧
      h.params.chosenAck ≠ .ack → pendingFits cfg.dl
  | _ => true

/-- The manager between calls in time. -/
structure TimedInv (m : HarqManager) : Prop where
  inv : m.Inv cfg
  dl : m.dl.Timed cfg.dl cfg.maxUes
  ul : m.ul.Timed cfg.ul cfg.maxUes

/-- What a call in time leaves of the two repositories. -/
def BothTimed (m : HarqManager) : Prop :=
  m.dl.Timed cfg.dl cfg.maxUes ∧ m.ul.Timed cfg.ul cfg.maxUes

variable {cfg}

theorem slot_count_lt (count : Nat) :
    (cfg.slot count).count < (cfg.slot count).nofSlotsPerHyperSystemFrame :=
  Nat.mod_lt _ (Nat.lt_of_lt_of_le (by decide) (le_nofSlotsPerHyperSystemFrame cfg.numerology))

theorem slot_add_zero (count : Nat) : (cfg.slot count).add 0 = cfg.slot count := by
  have hslots := HarqConfig.nofSlots_le cfg.numerology.isLt
  exact SlotPoint.add_zero (slot_count_lt count) (hslots.trans (by decide))

variable {m : HarqManager}

theorem TimedInv.addUe {ueIdx nofDl nofUl : Nat} (ht : m.TimedInv cfg)
    (hsafe : m.safeCall cfg (.addUe ueIdx nofDl nofUl) = true) :
    (m.dl.reserveUeHarqs ueIdx nofDl).Timed cfg.dl cfg.maxUes ∧
      (m.ul.reserveUeHarqs ueIdx nofUl).Timed cfg.ul cfg.maxUes := by
  obtain ⟨-, -, -, -, hlt, hnew⟩ := of_decide_eq_true hsafe
  have hdlNone : (m.dl.ues ueIdx).harqs = [] := by simpa [contains, hlt] using hnew
  have hulNone : (m.ul.ues ueIdx).harqs = [] :=
    process_none_iff.mp
      ((ht.inv.sameUes ueIdx).mp (process_none_iff.mpr hdlNone))
  exact ⟨ht.dl.reserveUeHarqs hdlNone hlt nofDl, ht.ul.reserveUeHarqs hulNone hlt nofUl⟩

theorem TimedInv.slotIndication (ht : m.TimedInv cfg) {slTx : Nat}
    (horder : m.inOrder cfg (.slotIndication slTx) = true)
    (hfits : m.timeoutsFit cfg (.slotIndication slTx) = true) :
    ∃ dl ul, m.step cfg (.slotIndication slTx) = .ok { dl, ul } ∧
      dl.Timed cfg.dl cfg.maxUes ∧ ul.Timed cfg.ul cfg.maxUes ∧
      (∀ ref h, m.dl.process? ref = some h → h.status ≠ .empty →
        dl.process? ref = some (if h.slotTimeout = cfg.slot slTx then h.released else h)) ∧
      ∀ ref h, m.ul.process? ref = some h → h.status ≠ .empty →
        ul.process? ref = some (if h.slotTimeout = cfg.slot slTx then h.released else h) := by
  obtain ⟨hdlOrder, hulOrder⟩ := of_decide_eq_true horder
  obtain ⟨hdlFits, hulFits⟩ := (Bool.and_eq_true _ _).mp hfits
  obtain ⟨dl, hdl, hdlTimed, hdlReleased⟩ := ht.dl.slotIndication ht.inv.dl rfl cfg.numerology.isLt
    (slot_count_lt slTx) hdlOrder hdlFits
  obtain ⟨ul, hul, hulTimed, hulReleased⟩ := ht.ul.slotIndication ht.inv.ul rfl cfg.numerology.isLt
    (slot_count_lt slTx) hulOrder hulFits
  refine ⟨dl, ul, ?_, hdlTimed, hulTimed, hdlReleased, hulReleased⟩
  rw [step, hdl, ok_bind, hul, ok_bind]

section
variable {m' : HarqManager} (ht : m.TimedInv cfg)
include ht

theorem TimedInv.stop (hstep : m.step cfg .stop = .ok m') : m'.BothTimed cfg := by
  obtain ⟨dl, hdl, hdlTimed⟩ := ht.dl.stop ht.inv.dl
  obtain ⟨ul, hul, hulTimed⟩ := ht.ul.stop ht.inv.ul
  rw [HarqManager.step, hdl, ok_bind, hul, ok_bind] at hstep
  cases hstep
  exact ⟨hdlTimed, hulTimed⟩

theorem TimedInv.destroyUe {ueIdx : Nat} (hstep : m.step cfg (.destroyUe ueIdx) = .ok m') :
    m'.BothTimed cfg := by
  obtain ⟨dl, hdl, hdlTimed⟩ := ht.dl.destroyUe ht.inv.dl ueIdx
  obtain ⟨ul, hul, hulTimed⟩ := ht.ul.destroyUe ht.inv.ul ueIdx
  rw [HarqManager.step, hdl, ok_bind, hul, ok_bind] at hstep
  cases hstep
  exact ⟨hdlTimed, hulTimed⟩

theorem TimedInv.newDlTx {ueIdx pdschSlot ackDelay maxRetxs bit : Nat}
    (hfits : m.timeoutsFit cfg (.newDlTx ueIdx pdschSlot ackDelay maxRetxs bit) = true)
    (hstep : m.step cfg (.newDlTx ueIdx pdschSlot ackDelay maxRetxs bit) = .ok m') :
    m'.BothTimed cfg := by
  have hfits' : m.dl.nextFree ueIdx = none ∨ m.dl.timeoutFits cfg.dl (cfg.slot pdschSlot) ackDelay
      cfg.ntnCsKoffset = true := by simpa [timeoutsFit] using hfits
  obtain ⟨dl, hdl, hdlTimed⟩ := ht.dl.newTx ht.inv.dl rfl (slot_count_lt pdschSlot) hfits' maxRetxs
    { harqBitIdx := bit }
  rw [HarqManager.step, hdl, ok_bind] at hstep
  cases hstep
  exact ⟨hdlTimed, ht.ul⟩

theorem TimedInv.newUlTx {ueIdx puschSlot maxRetxs : Nat}
    (hfits : m.timeoutsFit cfg (.newUlTx ueIdx puschSlot maxRetxs) = true)
    (hstep : m.step cfg (.newUlTx ueIdx puschSlot maxRetxs) = .ok m') : m'.BothTimed cfg := by
  have hfits' : m.ul.nextFree ueIdx = none ∨ m.ul.timeoutFits cfg.ul (cfg.slot puschSlot) 0
      cfg.ntnCsKoffset = true := by simpa [timeoutsFit] using hfits
  obtain ⟨ul, hul, hulTimed⟩ := ht.ul.newTx ht.inv.ul rfl (slot_count_lt puschSlot) hfits' maxRetxs ()
  rw [slot_add_zero] at hul
  rw [HarqManager.step, hul, ok_bind] at hstep
  cases hstep
  exact ⟨ht.dl, hulTimed⟩

theorem TimedInv.dlNewRetx {ref : HarqRef} {pdschSlot ackDelay bit : Nat}
    (hsafe : m.safeCall cfg (.dlNewRetx ref pdschSlot ackDelay bit) = true)
    (hfits : m.timeoutsFit cfg (.dlNewRetx ref pdschSlot ackDelay bit) = true)
    (hstep : m.step cfg (.dlNewRetx ref pdschSlot ackDelay bit) = .ok m') : m'.BothTimed cfg := by
  obtain ⟨h, hh⟩ := Option.isSome_iff_exists.mp hsafe
  obtain ⟨dl, hdl, hdlTimed⟩ := ht.dl.newRetx ht.inv.dl hh rfl (slot_count_lt pdschSlot)
    (fun hpending => by simpa [timeoutsFit, hh, hpending] using hfits) { harqBitIdx := bit }
  rw [HarqManager.step, hdl, ok_bind] at hstep
  cases hstep
  exact ⟨hdlTimed, ht.ul⟩

theorem TimedInv.ulNewRetx {ref : HarqRef} {puschSlot : Nat}
    (hsafe : m.safeCall cfg (.ulNewRetx ref puschSlot) = true)
    (hfits : m.timeoutsFit cfg (.ulNewRetx ref puschSlot) = true)
    (hstep : m.step cfg (.ulNewRetx ref puschSlot) = .ok m') : m'.BothTimed cfg := by
  obtain ⟨h, hh⟩ := Option.isSome_iff_exists.mp hsafe
  obtain ⟨ul, hul, hulTimed⟩ := ht.ul.newRetx ht.inv.ul hh rfl (slot_count_lt puschSlot)
    (fun hpending => by simpa [timeoutsFit, hh, hpending] using hfits) ()
  rw [slot_add_zero] at hul
  rw [HarqManager.step, hul, ok_bind] at hstep
  cases hstep
  exact ⟨ht.dl, hulTimed⟩

theorem TimedInv.dlAckInfo {ref : HarqRef} {ackStatus : HarqAckReportStatus} {pucchSnr : Option Int}
    (hsafe : m.safeCall cfg (.dlAckInfo ref ackStatus pucchSnr) = true)
    (hfits : m.timeoutsFit cfg (.dlAckInfo ref ackStatus pucchSnr) = true)
    (hstep : m.step cfg (.dlAckInfo ref ackStatus pucchSnr) = .ok m') : m'.BothTimed cfg := by
  obtain ⟨h, hh, hcalm⟩ := (Option.any_eq_true _ _).mp hsafe
  have hasks : asksRetx cfg.dl h ackStatus pucchSnr → pendingFits cfg.dl :=
    of_decide_eq_true (by simpa only [timeoutsFit, hh, Option.all_some] using hfits)
  obtain ⟨dl, update, hdl, hmoved⟩ := dlAckInfo_moved ht.inv.dl hh (dlReport_safe hcalm) hasks
  rw [HarqManager.step, hdl] at hstep
  cases hstep
  exact ⟨ht.dl.moved hmoved id, ht.ul⟩

theorem TimedInv.ulCrcInfo {ref : HarqRef} {ack : Bool}
    (hsafe : m.safeCall cfg (.ulCrcInfo ref ack) = true)
    (hfits : m.timeoutsFit cfg (.ulCrcInfo ref ack) = true)
    (hstep : m.step cfg (.ulCrcInfo ref ack) = .ok m') : m'.BothTimed cfg := by
  obtain ⟨h, hh, hcalm⟩ := (Option.any_eq_true _ _).mp hsafe
  have hasks : cfg.ul.isNtnHarqModeBEnabled = false ∧ h.status = .waitingAck ∧ ack = false ∧
      h.nofRetxs < h.maxNofHarqRetxs → pendingFits cfg.ul :=
    of_decide_eq_true (by simpa only [timeoutsFit, hh, Option.all_some] using hfits)
  obtain ⟨ul, hul, hmoved⟩ := ulCrcInfo_moved ht.inv.ul hh fun hprocess hwaiting =>
    have hoff := ulReport_safe hcalm hprocess hwaiting
    ⟨hoff, fun hack hretxs => hasks ⟨hoff, hwaiting, hack, hretxs⟩⟩
  rw [HarqManager.step, hul, ok_bind] at hstep
  cases hstep
  exact ⟨ht.dl, ht.ul.moved hmoved id⟩

theorem TimedInv.incrementPucchCounter {ref : HarqRef}
    (hsafe : m.safeCall cfg (.incrementPucchCounter ref) = true)
    (hstep : m.step cfg (.incrementPucchCounter ref) = .ok m') : m'.BothTimed cfg := by
  obtain ⟨h, hh⟩ := Option.isSome_iff_exists.mp hsafe
  obtain ⟨dl, hdl, hmoved⟩ := incrementPucchCounter_moved False ht.inv.dl hh
  rw [HarqManager.step, hdl, ok_bind] at hstep
  cases hstep
  exact ⟨ht.dl.moved hmoved False.elim, ht.ul⟩

theorem TimedInv.uciSchedFailed {ueIdx uciSlot : Nat}
    (hsafe : m.safeCall cfg (.uciSchedFailed ueIdx uciSlot) = true)
    (hfits : m.timeoutsFit cfg (.uciSchedFailed ueIdx uciSlot) = true)
    (hstep : m.step cfg (.uciSchedFailed ueIdx uciSlot) = .ok m') : m'.BothTimed cfg := by
  obtain ⟨dl, hdl, hmoved⟩ := uciSchedFailed_moved ht.inv.dl ueIdx (cfg.slot uciSlot)
    fun h hmem hwaiting hslot => ⟨uciSchedFailed_safe hsafe hmem hwaiting hslot,
      fun hretxs hchosen => of_decide_eq_true (List.all_eq_true.mp hfits h hmem)
        ⟨hwaiting, hslot, hretxs, hchosen⟩⟩
  rw [HarqManager.step, hdl, ok_bind] at hstep
  cases hstep
  exact ⟨ht.dl.moved hmoved id, ht.ul⟩

theorem TimedInv.cancelDlRetxs {ref : HarqRef} (hsafe : m.safeCall cfg (.cancelDlRetxs ref) = true)
    (hstep : m.step cfg (.cancelDlRetxs ref) = .ok m') : m'.BothTimed cfg := by
  obtain ⟨h, hh⟩ := Option.isSome_iff_exists.mp hsafe
  obtain ⟨dl, hdl, hmoved⟩ := ht.inv.dl.cancelRetxs_moved hh
  rw [HarqManager.step, hdl, ok_bind] at hstep
  cases hstep
  exact ⟨ht.dl.moved hmoved False.elim, ht.ul⟩

theorem TimedInv.cancelUlRetxs {ref : HarqRef} (hsafe : m.safeCall cfg (.cancelUlRetxs ref) = true)
    (hstep : m.step cfg (.cancelUlRetxs ref) = .ok m') : m'.BothTimed cfg := by
  obtain ⟨h, hh⟩ := Option.isSome_iff_exists.mp hsafe
  obtain ⟨ul, hul, hmoved⟩ := ht.inv.ul.cancelRetxs_moved hh
  rw [HarqManager.step, hul, ok_bind] at hstep
  cases hstep
  exact ⟨ht.dl, ht.ul.moved hmoved False.elim⟩

theorem TimedInv.cancelRetxs {ueIdx : Nat} (hstep : m.step cfg (.cancelRetxs ueIdx) = .ok m') :
    m'.BothTimed cfg := by
  obtain ⟨dl, hdl, hdlMoved⟩ := ht.inv.dl.cancelAll_moved ueIdx
  obtain ⟨ul, hul, hulMoved⟩ := ht.inv.ul.cancelAll_moved ueIdx
  rw [HarqManager.step, hdl, ok_bind, hul, ok_bind] at hstep
  cases hstep
  exact ⟨ht.dl.moved hdlMoved False.elim, ht.ul.moved hulMoved False.elim⟩

theorem TimedInv.resetDl {ref : HarqRef} (hsafe : m.safeCall cfg (.resetDl ref) = true)
    (hstep : m.step cfg (.resetDl ref) = .ok m') : m'.BothTimed cfg := by
  obtain ⟨h, hh, hcalm⟩ := (Option.any_eq_true _ _).mp hsafe
  obtain ⟨dl, hdl, hmoved⟩ := ht.inv.dl.reset_moved hh (reset_safe hh hcalm)
  rw [HarqManager.step, hdl, ok_bind] at hstep
  cases hstep
  exact ⟨ht.dl.moved hmoved False.elim, ht.ul⟩

theorem TimedInv.resetUl {ref : HarqRef} (hsafe : m.safeCall cfg (.resetUl ref) = true)
    (hstep : m.step cfg (.resetUl ref) = .ok m') : m'.BothTimed cfg := by
  obtain ⟨h, hh, hcalm⟩ := (Option.any_eq_true _ _).mp hsafe
  obtain ⟨ul, hul, hmoved⟩ := ht.inv.ul.reset_moved hh (reset_safe hh hcalm)
  rw [HarqManager.step, hul, ok_bind] at hstep
  cases hstep
  exact ⟨ht.dl, ht.ul.moved hmoved False.elim⟩

end

theorem TimedInv.step {m' : HarqManager} (ht : m.TimedInv cfg) {event : HarqEvent}
    (hsafe : m.safeCall cfg event = true) (horder : m.inOrder cfg event = true)
    (hfits : m.timeoutsFit cfg event = true) (hstep : m.step cfg event = .ok m') :
    m'.TimedInv cfg := by
  have hinv' : m'.Inv cfg := by
    obtain ⟨m₁, hok, hinv₁, -⟩ := ht.inv.step hsafe
    rw [hok] at hstep
    exact Except.ok.inj hstep ▸ hinv₁
  -- It remains to look at the two repositories that the call leaves.
  suffices hboth : m'.BothTimed cfg from
    ⟨hinv', hboth.1, hboth.2⟩
  cases event with
  | slotIndication slTx =>
    obtain ⟨dl, ul, hok, hdl, hul, -⟩ := ht.slotIndication horder hfits
    rw [hok] at hstep
    cases hstep
    exact ⟨hdl, hul⟩
  | stop => exact ht.stop hstep
  | addUe ueIdx nofDl nofUl =>
    have hargs := of_decide_eq_true hsafe
    rw [HarqManager.step, HarqManager.addUe, if_pos hargs] at hstep
    cases hstep
    exact ht.addUe hsafe
  | destroyUe _ => exact ht.destroyUe hstep
  | newDlTx _ _ _ _ _ => exact ht.newDlTx hfits hstep
  | newUlTx _ _ _ => exact ht.newUlTx hfits hstep
  | dlNewRetx _ _ _ _ => exact ht.dlNewRetx hsafe hfits hstep
  | ulNewRetx _ _ => exact ht.ulNewRetx hsafe hfits hstep
  | dlAckInfo _ _ _ => exact ht.dlAckInfo hsafe hfits hstep
  | ulCrcInfo _ _ => exact ht.ulCrcInfo hsafe hfits hstep
  | incrementPucchCounter _ => exact ht.incrementPucchCounter hsafe hstep
  | uciSchedFailed _ _ => exact ht.uciSchedFailed hsafe hfits hstep
  | cancelDlRetxs _ => exact ht.cancelDlRetxs hsafe hstep
  | cancelUlRetxs _ => exact ht.cancelUlRetxs hsafe hstep
  | cancelRetxs _ => exact ht.cancelRetxs hstep
  | resetDl _ => exact ht.resetDl hsafe hstep
  | resetUl _ => exact ht.resetUl hsafe hstep

theorem timedInv_init : TimedInv cfg {} := by
  have hnone {P : Type} (ref : HarqRef) : ({} : HarqRepository P).process? ref = none := by
    cases ref <;> rfl
  have htimed {P : Type} (cfg : HarqConfig) (maxUes : Nat) :
      ({} : HarqRepository P).Timed cfg maxUes := by
    refine ⟨fun ueIdx hId h hh => ?_, .inl ⟨rfl, fun ref h hh => ?_⟩⟩ <;>
      · rw [hnone] at hh
        cases hh
  exact ⟨inv_init, htimed cfg.dl cfg.maxUes, htimed cfg.ul cfg.maxUes⟩

end HarqManager

/-- In every run in order whose timeouts fit in the wheel, all active processes time out within one
turn, and the next slot indication releases exactly those whose timeout it is. -/
theorem harqTimeouts_exact (cfg : HarqManagerConfig) (m : HarqManager)
    (h : Runs.Reaches (next cfg) (fun m event => m.safeCall cfg event = true ∧
      m.inOrder cfg event = true ∧ m.timeoutsFit cfg event = true) {} m) :
    m.dl.TimeoutsAhead cfg.dl ∧ m.ul.TimeoutsAhead cfg.ul ∧
      ∀ slTx, m.inOrder cfg (.slotIndication slTx) = true →
        m.timeoutsFit cfg (.slotIndication slTx) = true →
        ∃ m', m.step cfg (.slotIndication slTx) = .ok m' ∧
          (∀ ref h, m.dl.process? ref = some h → h.status ≠ .empty → m'.dl.process? ref =
            some (if h.slotTimeout = cfg.slot slTx then h.released else h)) ∧
          ∀ ref h, m.ul.process? ref = some h → h.status ≠ .empty → m'.ul.process? ref =
            some (if h.slotTimeout = cfg.slot slTx then h.released else h) := by
  have ht : m.TimedInv cfg := h.invariant timedInv_init
    fun before event after ht hguard hstep => by
      obtain ⟨hsafe, horder, hfits⟩ := hguard
      obtain ⟨m₁, hok, -⟩ := ht.inv.step hsafe
      rw [next, hok] at hstep
      exact Option.some.inj hstep ▸ ht.step hsafe horder hfits hok
  refine ⟨ht.dl.timeoutsAhead, ht.ul.timeoutsAhead, fun slTx horder hfits => ?_⟩
  obtain ⟨dl, ul, hok, -, -, hdl, hul⟩ := ht.slotIndication horder hfits
  exact ⟨{ dl, ul }, hok, hdl, hul⟩

def pendingRetransmission : List HarqEvent :=
  [.addUe 0 1 1, .slotIndication 100, .newDlTx 0 100 4 1 0, .slotIndication 101,
    .dlAckInfo (.process 0 0) .nack none, .slotIndication 102]

theorem harqTimeouts_exact_pending :
    ∃ m : HarqManager, m.dl.TimeoutsAhead terrestrialHarqs.dl ∧
      ((m.dl.ues 0).harqs.map fun h => (h.status, h.slotTimeout.count)) = [(.pendingRetx, 301)] := by
  have hrun : (Runs.runAll (Runs.guarded (next terrestrialHarqs) fun m event =>
      m.safeCall terrestrialHarqs event = true ∧ m.inOrder terrestrialHarqs event = true ∧
        m.timeoutsFit terrestrialHarqs event = true) {} pendingRetransmission).map
        (fun m => (m.dl.ues 0).harqs.map fun h => (h.status, h.slotTimeout.count)) =
      some [(HarqState.pendingRetx, 301)] := by decide +kernel
  obtain ⟨m, hrun, hharqs⟩ := Option.map_eq_some_iff.mp hrun
  exact ⟨m, (harqTimeouts_exact terrestrialHarqs m (Runs.reaches_of_runGuarded .start hrun)).1, hharqs⟩

/-- A cell whose HARQs may wait 500 ms for their retransmission. -/
def patientHarqs : HarqManagerConfig :=
  { terrestrialHarqs with dlHarqRetxTimeout := 1000 }

/-- A process that should wait until slot 1001 is released in slot 41. -/
theorem harqTimeouts_early :
    ∃ m m' : HarqManager, Runs.Reaches (next patientHarqs) (fun m event =>
        m.safeCall patientHarqs event = true ∧ m.inOrder patientHarqs event = true) {} m ∧
      next patientHarqs m (.slotIndication 41) = some m' ∧
      ((m.dl.ues 0).harqs.map fun h => (h.status, h.slotTimeout)) =
        [(.pendingRetx, patientHarqs.slot 1001)] ∧
      ((m'.dl.ues 0).harqs.map fun h => h.status) = [.empty] := by
  have hrun : ((Runs.runAll (Runs.guarded (next patientHarqs) fun m event =>
      m.safeCall patientHarqs event = true ∧ m.inOrder patientHarqs event = true) {}
      ([.addUe 0 1 1, .slotIndication 0, .newDlTx 0 0 4 1 0, .slotIndication 1,
        .dlAckInfo (.process 0 0) .nack none] ++
          (List.range 39).map fun i => .slotIndication (i + 2))).bind fun m =>
        (next patientHarqs m (.slotIndication 41)).map fun m' =>
          ((m.dl.ues 0).harqs.map fun h => (h.status, h.slotTimeout),
            (m'.dl.ues 0).harqs.map fun h => h.status)) =
      some ([(HarqState.pendingRetx, patientHarqs.slot 1001)], [HarqState.empty]) := by decide +kernel
  obtain ⟨m, hrun, hnext⟩ := Option.bind_eq_some_iff.mp hrun
  obtain ⟨m', hnext, hobs⟩ := Option.map_eq_some_iff.mp hnext
  obtain ⟨hbefore, hafter⟩ := Prod.mk.inj hobs
  exact ⟨m, m', Runs.reaches_of_runGuarded .start hrun, hnext, hbefore, hafter⟩

end Srsran.Scheduler
