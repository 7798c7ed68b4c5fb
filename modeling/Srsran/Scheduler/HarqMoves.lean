import Srsran.Scheduler.HarqLists

/-! What the operations on HARQ processes do to each process. -/
namespace Srsran.Scheduler
open Srsran.Ran Placement HarqRepository Checked
variable {P : Type}

/-- What reports, cancellations and resets do to a process in slot `last`; `nackable` says when a
retransmission may be requested. -/
inductive HarqProcess.Moves (cfg : HarqConfig) (last : SlotPoint) (nackable : Prop)
    (h h' : HarqProcess P) : Prop where
  | keep (hstatus : h'.status = h.status) (htimeout : h'.slotTimeout = h.slotTimeout)
      (hndi : h'.ndi = h.ndi)
  | release (hactive : h.status ≠ .empty) (hempty : h'.status = .empty) (hndi : h'.ndi = h.ndi)
  | shorten (hwaiting : h.status = .waitingAck) (hwaiting' : h'.status = .waitingAck)
      (htimeout : h'.slotTimeout = last.add shortAckTimeoutDtx) (hndi : h'.ndi = h.ndi)
  | nack (hnackable : nackable) (hwaiting : h.status = .waitingAck)
      (hpending : h'.status = .pendingRetx)
      (htimeout : h'.slotTimeout = last.add cfg.harqRetxTimeout) (hndi : h'.ndi = h.ndi)

namespace HarqProcess
variable {cfg : HarqConfig} {last : SlotPoint} {nackable : Prop} {h h' h'' : HarqProcess P}

theorem Moves.rfl : Moves cfg last nackable h h :=
  .keep (.refl _) (.refl _) (.refl _)

theorem Moves.ndi_eq (hmove : Moves cfg last nackable h h') : h'.ndi = h.ndi := by
  cases hmove <;> assumption

theorem Moves.waiting (hmove : Moves cfg last nackable h h') (hwaiting : h'.status = .waitingAck) :
    h.status = .waitingAck := by
  cases hmove with
  | keep hstatus _ _ => rw [← hstatus, hwaiting]
  | release _ hempty _ => simp [hempty] at hwaiting
  | shorten hbefore _ _ _ => exact hbefore
  | nack _ hbefore _ _ _ => exact hbefore

theorem Moves.released : Moves cfg last nackable h h.released := by
  by_cases hempty : h.status = .empty
  · rw [HarqProcess.released, if_pos hempty]
    exact .rfl
  · exact .release hempty h.released_status h.released_ndi

theorem Moves.trans (hfirst : Moves cfg last nackable h h') (hnext : Moves cfg last nackable h' h'') :
    Moves cfg last nackable h h'' := by
  have hndi := hnext.ndi_eq.trans hfirst.ndi_eq
  cases hnext with
  | keep hstatus htimeout _ =>
    cases hfirst with
    | keep hstatus₁ htimeout₁ _ => exact .keep (hstatus.trans hstatus₁) (htimeout.trans htimeout₁) hndi
    | release hactive hempty _ => exact .release hactive (hstatus.trans hempty) hndi
    | shorten hwaiting hwaiting' htimeout₁ _ =>
      exact .shorten hwaiting (hstatus.trans hwaiting') (htimeout.trans htimeout₁) hndi
    | nack hnackable hwaiting hpending htimeout₁ _ =>
      exact .nack hnackable hwaiting (hstatus.trans hpending) (htimeout.trans htimeout₁) hndi
  | release hactive hempty _ =>
    cases hfirst with
    | keep hstatus₁ _ _ => exact .release (hstatus₁ ▸ hactive) hempty hndi
    | release hactive₁ hempty₁ _ => exact absurd hempty₁ hactive
    | shorten hwaiting _ _ _ => exact .release (by simp [hwaiting]) hempty hndi
    | nack _ hwaiting _ _ _ => exact .release (by simp [hwaiting]) hempty hndi
  | shorten hwaiting hwaiting' htimeout _ =>
    cases hfirst with
    | keep hstatus₁ _ _ => exact .shorten (hstatus₁ ▸ hwaiting) hwaiting' htimeout hndi
    | release _ hempty₁ _ => simp [hempty₁] at hwaiting
    | shorten hwaiting₁ _ _ _ => exact .shorten hwaiting₁ hwaiting' htimeout hndi
    | nack _ _ hpending₁ _ _ => simp [hpending₁] at hwaiting
  | nack hnackable hwaiting hpending htimeout _ =>
    cases hfirst with
    | keep hstatus₁ _ _ => exact .nack hnackable (hstatus₁ ▸ hwaiting) hpending htimeout hndi
    | release _ hempty₁ _ => simp [hempty₁] at hwaiting
    | shorten hwaiting₁ _ _ _ => exact .nack hnackable hwaiting₁ hpending htimeout hndi
    | nack _ _ hpending₁ _ _ => simp [hpending₁] at hwaiting

end HarqProcess

namespace HarqRepository
variable {cfg : HarqConfig} {r r' r'' : HarqRepository P} {ref : HarqRef} {h h' : HarqProcess P}

/-- Processes of `freed` are released, the others stay as they are. -/
structure Released (cfg : HarqConfig) (r : HarqRepository P) (freed : List HarqRef)
    (r' : HarqRepository P) : Prop where
  partitioned : Partitioned cfg r'
  process_eq : ∀ ref, r'.process? ref =
    if ref ∈ freed then (r.process? ref).map HarqProcess.released else r.process? ref
  pending_eq : r'.harqPendingRetxList = r.harqPendingRetxList.filter fun ref => decide (ref ∉ freed)
  lastSlInd_eq : r'.lastSlInd = r.lastSlInd
  history_eq : r'.history = r.history

theorem Released.nil (hp : Partitioned cfg r) : Released cfg r [] r :=
  ⟨hp, fun _ => (if_neg List.not_mem_nil).symm, by simp, rfl, rfl⟩

theorem Partitioned.dealloc_released (hp : Partitioned cfg r) (hh : r.process? ref = some h) :
    ∃ r', r.deallocHarq cfg ref = .ok r' ∧ Released cfg r [ref] r' := by
  obtain ⟨r', hok, hup, hpending⟩ := hp.deallocHarq hh
  refine ⟨r', hok, hup.partitioned, fun other => ?_, ?_, hup.lastSlInd_eq, hup.history_eq⟩
  swap
  · rw [hpending, (hp.pending.nodup ()).erase_eq_filter]
    exact List.filter_congr fun other _ => by simp [bne, beq_eq_decide]
  rw [hup.process_eq]
  by_cases heq : other = ref
  · subst heq
    rw [Function.update_self, if_pos (List.mem_singleton_self _), hh, Option.map_some]
  · rw [Function.update_of_ne heq, if_neg (by simpa using heq)]

theorem released_released (h : HarqProcess P) : h.released.released = h.released := by
  rw [HarqProcess.released.eq_def h.released, if_pos h.released_status]

variable {freed : List HarqRef}

theorem Released.append {freed' : List HarqRef} (hfirst : Released cfg r freed r')
    (hnext : Released cfg r' freed' r'') : Released cfg r (freed ++ freed') r'' := by
  refine ⟨hnext.partitioned, fun ref => ?_, ?_, hnext.lastSlInd_eq.trans hfirst.lastSlInd_eq,
    hnext.history_eq.trans hfirst.history_eq⟩
  swap
  · rw [hnext.pending_eq, hfirst.pending_eq, List.filter_filter]
    refine List.filter_congr fun ref _ => ?_
    simp [not_or, Bool.and_comm]
  rw [hnext.process_eq, hfirst.process_eq]
  by_cases hmem : ref ∈ freed <;> by_cases hmem' : ref ∈ freed' <;>
    simp [hmem, hmem', Function.comp_def, released_released]

theorem Released.congr {freed' : List HarqRef} (hrel : Released cfg r freed r')
    (hmem : ∀ ref, ref ∈ freed ↔ ref ∈ freed') : Released cfg r freed' r' :=
  ⟨hrel.partitioned, fun ref => by rw [hrel.process_eq, if_congr (hmem ref) rfl rfl],
    by rw [hrel.pending_eq]; exact List.filter_congr fun ref _ => by simp [hmem ref], hrel.lastSlInd_eq, hrel.history_eq⟩

theorem Released.exists_process (hrel : Released cfg r freed r') (hh : r.process? ref = some h) :
    ∃ h', r'.process? ref = some h' := by
  rw [hrel.process_eq, hh]
  split
  · exact ⟨h.released, rfl⟩
  · exact ⟨h, rfl⟩

theorem Partitioned.deallocAll {refs : List HarqRef} (hp : Partitioned cfg r)
    (hrefs : ∀ ref ∈ refs, ∃ h, r.process? ref = some h) :
    ∃ r', r.deallocAll cfg refs = .ok r' ∧ Released cfg r refs r' := by
  induction refs generalizing r with
  | nil => exact ⟨r, rfl, .nil hp⟩
  | cons ref refs ih =>
    obtain ⟨h, hh⟩ := hrefs ref List.mem_cons_self
    obtain ⟨r₁, hok₁, hrel₁⟩ := hp.dealloc_released hh
    obtain ⟨r', hok', hrel'⟩ := ih hrel₁.partitioned fun other hother =>
      (hrefs other (List.mem_cons_of_mem _ hother)).elim fun _ => hrel₁.exists_process
    refine ⟨r', ?_, hrel₁.append hrel'⟩
    rw [deallocAll, List.foldlM_cons, hok₁, ok_bind]
    exact hok'

/-- A release takes the process out of its list and keeps the rest of the list. -/
theorem Released.mem_list_iff {I : Type} {lists lists' : I → List HarqRef}
    {belongs : HarqProcess P → I → Bool} (hrel : Released cfg r [ref] r')
    (hlists : Holds lists r.process? belongs) (hlists' : Holds lists' r'.process? belongs)
    (hempty : ∀ h : HarqProcess P, ∀ i, h.status = .empty → belongs h i = false) (i : I)
    {other : HarqRef} : other ∈ lists' i ↔ other ∈ lists i ∧ other ≠ ref := by
  rw [hlists.mem_iff, hlists'.mem_iff, hrel.process_eq]
  by_cases heq : other = ref
  · subst heq
    simp only [List.mem_singleton, if_true, Option.map_eq_some_iff]
    constructor
    · rintro ⟨_, ⟨h, -, rfl⟩, hbelongs⟩
      rw [hempty _ i h.released_status] at hbelongs
      cases hbelongs
    · exact fun hfalse => absurd rfl hfalse.2
  · rw [if_neg (by simpa using heq)]
    exact ⟨fun hmem => ⟨hmem, heq⟩, fun hmem => hmem.1⟩

theorem length_lt_of_release {before after : List HarqRef} (hmem : ref ∈ before)
    (hnodup : after.Nodup) (hsub : ∀ other, other ∈ after → other ∈ before ∧ other ≠ ref) :
    after.length < before.length := by
  have hsubset : ref :: after ⊆ before :=
    List.cons_subset.mpr ⟨hmem, fun other hother => (hsub other hother).1⟩
  have hall : (ref :: after).Nodup :=
    List.nodup_cons.mpr ⟨fun hself => (hsub ref hself).2 rfl, hnodup⟩
  exact (List.subperm_of_subset hall hsubset).length_le

variable {fuel : Nat}

theorem Partitioned.handleTimeouts (index : Nat) (hp : Partitioned cfg r)
    (hfuel : (r.harqTimeoutWheel index).length ≤ fuel) :
    ∃ r', r.handleTimeouts cfg index fuel = .ok r' ∧
      Released cfg r (r.harqTimeoutWheel index) r' := by
  induction fuel generalizing r with
  | zero =>
    have hnil : r.harqTimeoutWheel index = [] := List.length_eq_zero_iff.mp (Nat.le_zero.mp hfuel)
    refine ⟨r, ?_, hnil ▸ .nil hp⟩
    rw [handleTimeouts, hnil]
    rfl
  | succ fuel ih =>
    cases hlist : r.harqTimeoutWheel index with
    | nil =>
      refine ⟨r, ?_, .nil hp⟩
      rw [handleTimeouts, hlist]
    | cons front rest =>
      have hfront : front ∈ r.harqTimeoutWheel index := by simp [hlist]
      obtain ⟨h, hh, htimes⟩ := hp.wheel.mem_iff.mp hfront
      have hactive : h.status ≠ .empty := by
        have : h.status ≠ .empty ∧ index = cfg.wheelIndex h.slotTimeout := by
          simpa [HarqProcess.timesOut] using htimes
        exact this.1
      obtain ⟨r₁, hok₁, hrel₁⟩ := hp.dealloc_released hh
      have hmem (other : HarqRef) : other ∈ r₁.harqTimeoutWheel index ↔
          other ∈ r.harqTimeoutWheel index ∧ other ≠ front :=
        hrel₁.mem_list_iff hp.wheel hrel₁.partitioned.wheel
          (fun _ _ hempty => by simp [HarqProcess.timesOut, hempty]) index
      have hshorter := length_lt_of_release hfront (hrel₁.partitioned.wheel.nodup index)
        fun other => (hmem other).mp
      obtain ⟨r', hok', hrel'⟩ := ih hrel₁.partitioned (by omega)
      refine ⟨r', ?_, (hrel₁.append hrel').congr fun other => ?_⟩
      · rw [handleTimeouts, hlist]
        dsimp only
        rw [handleHarqAckTimeout, access_of_process hh, ok_bind, if_neg hactive, hok₁,
          ok_bind, hok']
      · rw [← hlist, List.singleton_append, List.mem_cons, hmem]
        by_cases heq : other = front
        · simp [heq, hfront]
        · simp [heq]

theorem Partitioned.trappedFront_cons (hp : Partitioned cfg r) {front : HarqRef}
    {rest : List HarqRef} (hlist : r.harqPendingRetxList = front :: rest)
    (hlast : r.lastSlInd.numerology = cfg.numerology) :
    ∃ h, r.process? front = some h ∧ h.status = .pendingRetx ∧
      r.trappedFront = .ok (if isTrapped r.lastSlInd h then some front else none) := by
  have hfront : front ∈ r.harqPendingRetxList := by simp [hlist]
  obtain ⟨h, hh, hawaits⟩ := (hp.pending.mem_iff (i := ())).mp hfront
  have hstatus : h.status = .pendingRetx := by simpa [HarqProcess.awaitsRetx] using hawaits
  have hnumerology : h.slotAck.numerology = cfg.numerology :=
    (hp.wf front h hh).slotAck_numerology (by simp [hstatus])
  refine ⟨h, hh, hstatus, ?_⟩
  rw [trappedFront, hlist]
  dsimp only
  rw [access_of_process hh, ok_bind, if_neg (by simp [hstatus]),
    if_neg (by rw [hlast, hnumerology]; simp)]

/-- The loop over trapped processes releases some that await a retransmission. -/
theorem Partitioned.handleTrapped (hp : Partitioned cfg r)
    (hlast : r.lastSlInd.numerology = cfg.numerology) (hfuel : r.harqPendingRetxList.length ≤ fuel) :
    ∃ r' freed, r.handleTrapped cfg fuel = .ok r' ∧ Released cfg r freed r' := by
  induction fuel generalizing r with
  | zero =>
    have hnil : r.harqPendingRetxList = [] := List.length_eq_zero_iff.mp (Nat.le_zero.mp hfuel)
    refine ⟨r, [], ?_, .nil hp⟩
    rw [handleTrapped, trappedFront, hnil]
    rfl
  | succ fuel ih =>
    cases hlist : r.harqPendingRetxList with
    | nil =>
      refine ⟨r, [], ?_, .nil hp⟩
      rw [handleTrapped, trappedFront, hlist]
      rfl
    | cons front rest =>
      obtain ⟨h, hh, hstatus, htrapped⟩ := hp.trappedFront_cons hlist hlast
      rw [handleTrapped, htrapped]
      by_cases hlong : isTrapped r.lastSlInd h = true
      · rw [if_pos hlong]
        obtain ⟨r₁, hok₁, hrel₁⟩ := hp.dealloc_released hh
        have hfront : front ∈ r.harqPendingRetxList := by simp [hlist]
        have hshorter := length_lt_of_release hfront (hrel₁.partitioned.pending.nodup ())
          fun other => (hrel₁.mem_list_iff hp.pending hrel₁.partitioned.pending
            (fun _ _ hempty => by simp [HarqProcess.awaitsRetx, hempty]) ()).mp
        obtain ⟨r', freed, hok', hrel'⟩ :=
          ih hrel₁.partitioned (hrel₁.lastSlInd_eq ▸ hlast) (by omega)
        refine ⟨r', [front] ++ freed, ?_, hrel₁.append hrel'⟩
        rw [ok_bind]
        dsimp only
        rw [hok₁, ok_bind, hok']
      · rw [if_neg hlong]
        exact ⟨r, [], rfl, .nil hp⟩

theorem handleTrapped_of_none (hnone : r.trappedFront = .ok none) :
    r.handleTrapped cfg fuel = .ok r := by
  cases fuel <;> rw [handleTrapped, hnone] <;> rfl

theorem process_startSlot (slTx : SlotPoint) : (r.startSlot cfg slTx).process? = r.process? := by
  funext other
  rw [startSlot]
  split <;> cases other <;> rfl

theorem startSlot_frame (cfg : HarqConfig) (r : HarqRepository P) (slTx : SlotPoint) :
    (r.startSlot cfg slTx).harqTimeoutWheel = r.harqTimeoutWheel ∧
      (r.startSlot cfg slTx).harqPendingRetxList = r.harqPendingRetxList ∧
      (r.startSlot cfg slTx).freeRefs = r.freeRefs ∧ (r.startSlot cfg slTx).lastSlInd = slTx := by
  rw [startSlot]
  split <;> exact ⟨rfl, rfl, rfl, rfl⟩

theorem mem_history_startSlot {slTx : SlotPoint} {index : Nat}
    (hmem : h ∈ (r.startSlot cfg slTx).history index) : h ∈ r.history index := by
  rw [startSlot] at hmem
  split at hmem
  · rw [historySlotIndication] at hmem
    dsimp only at hmem
    rw [Function.update_apply] at hmem
    split at hmem
    · cases hmem
    · exact hmem
  · exact hmem

theorem Partitioned.startSlot (hp : Partitioned cfg r) (slTx : SlotPoint) :
    Partitioned cfg (r.startSlot cfg slTx) := by
  obtain ⟨hwheel, hpending, hfree, -⟩ := startSlot_frame cfg r slTx
  exact hp.of_same (process_startSlot slTx) hfree hwheel hpending
    fun index h hmem => hp.saved index h (mem_history_startSlot hmem)

/-- A slot indication releases what times out, and what is trapped. -/
theorem Partitioned.slotIndication (hp : Partitioned cfg r) {slTx : SlotPoint}
    (hslTx : slTx.numerology = cfg.numerology) :
    ∃ r₁ r' freed, r.slotIndication cfg slTx = .ok r' ∧
      Released cfg (r.startSlot cfg slTx) (r.harqTimeoutWheel (cfg.wheelIndex slTx)) r₁ ∧
      Released cfg r₁ freed r' ∧ (r₁.trappedFront = .ok none → r' = r₁) := by
  obtain ⟨hwheel, -, -, hlast⟩ := startSlot_frame cfg r slTx
  obtain ⟨r₁, hok₁, hrel₁⟩ := (hp.startSlot slTx).handleTimeouts
    (cfg.wheelIndex slTx) (Nat.le_refl _)
  have hlast₁ : r₁.lastSlInd.numerology = cfg.numerology := by
    rw [hrel₁.lastSlInd_eq, hlast, hslTx]
  obtain ⟨r', freed, hok', hrel'⟩ := hrel₁.partitioned.handleTrapped hlast₁ (Nat.le_refl _)
  refine ⟨r₁, r', freed, ?_, hwheel ▸ hrel₁, hrel', fun hnone => ?_⟩
  · rw [HarqRepository.slotIndication, hok₁, ok_bind, hok']
  · rw [handleTrapped_of_none hnone] at hok'
    exact (Except.ok.inj hok').symm

theorem Updated.trans {h'' : HarqProcess P} (hfirst : Updated cfg r ref h' r')
    (hnext : Updated cfg r' ref h'' r'') : Updated cfg r ref h'' r'' := by
  refine ⟨hnext.partitioned, ?_, hnext.lastSlInd_eq.trans hfirst.lastSlInd_eq,
    hnext.history_eq.trans hfirst.history_eq⟩
  rw [hnext.process_eq, hfirst.process_eq, Function.update_idem]

theorem Updated.process_self (hup : Updated cfg r ref h' r') : r'.process? ref = some h' := by
  rw [hup.process_eq, Function.update_self]

/-- Outside of NTN mode B a report releases the process or asks for a retransmission. -/
theorem Partitioned.handleAck (hp : Partitioned cfg r) (hh : r.process? ref = some h)
    (hstatus : h.status = .waitingAck) (hmode : cfg.isNtnHarqModeBEnabled = false) (ack : Bool)
    {nackable : Prop} (hnackable : ack = false → h.nofRetxs < h.maxNofHarqRetxs → nackable) :
    ∃ r' h', r.handleAck cfg ref ack = .ok r' ∧ Updated cfg r ref h' r' ∧
      h.Moves cfg r.lastSlInd nackable h' ∧ h'.status ≠ .waitingAck ∧ (ack = true → h'.status = .empty) := by
  rw [HarqRepository.handleAck, access_of_process hh, ok_bind, if_neg (by simp [hmode])]
  by_cases hend : ack = true ∨ h.maxNofHarqRetxs ≤ h.nofRetxs
  · rw [if_pos hend]
    obtain ⟨r', hok, hup, -⟩ := hp.deallocHarq hh
    exact ⟨r', h.released, hok, hup, .released, by simp [h.released_status], fun _ => h.released_status⟩
  · rw [if_neg hend]
    obtain ⟨hack, hlt⟩ := not_or.mp hend
    have hretxs := Nat.lt_of_not_le hlt
    obtain ⟨r', hok, hup⟩ := hp.setPendingRetx hh hstatus hretxs
    exact ⟨r', h.setPendingRetx cfg r.lastSlInd, hok, hup,
      .nack (hnackable (by simpa using hack) hretxs) hstatus rfl rfl rfl, nofun,
      fun hpositive => absurd hpositive hack⟩

theorem Partitioned.cancelRetxs (hp : Partitioned cfg r) (hh : r.process? ref = some h) :
    ∃ r' h', r.cancelRetxs cfg ref = .ok r' ∧ Updated cfg r ref h' r' ∧
      h.Moves cfg r.lastSlInd False h' := by
  have hwf := hp.wf ref h hh
  have haccess := access_of_process hh
  match hstatus : h.status with
  | .empty =>
    refine ⟨r, h, ?_, hp.unchanged hh, .rfl⟩
    rw [HarqRepository.cancelRetxs, haccess, ok_bind, hstatus]
  | .pendingRetx =>
    obtain ⟨r', hok, hupdated, -⟩ := hp.deallocHarq hh
    refine ⟨r', h.released, ?_, hupdated, .released⟩
    rw [HarqRepository.cancelRetxs, haccess, ok_bind, hstatus, ← hok]
  | .waitingAck =>
    have hwf' : h.setCancelled.Wf cfg ref :=
      ⟨hwf.ref_eq, fun _ => Nat.le_refl _, fun hpending => absurd (hstatus.symm.trans hpending) nofun,
        hwf.slotAck_numerology⟩
    refine ⟨r.store ref h.setCancelled, h.setCancelled, ?_, hp.store hh hwf' rfl rfl rfl,
      .keep rfl rfl rfl⟩
    rw [HarqRepository.cancelRetxs, haccess, ok_bind, hstatus]

end HarqRepository

namespace DlHarqParams

theorem chooseAck_pucchs (params : DlHarqParams) (ackStatus : HarqAckReportStatus)
    (pucchSnr : Option Int) :
    (params.chooseAck ackStatus pucchSnr).pucchAckToReceive = params.pucchAckToReceive := by
  rw [chooseAck]
  split <;> rfl

theorem chooseAck_dtx (params : DlHarqParams) : params.chooseAck .dtx none = params := by
  simp [chooseAck]

end DlHarqParams

section
variable {cfg : HarqConfig} {r r' : DlHarqRepository} {ref : HarqRef} {h h' : DlHarqProcess}

/-- The report asks for a retransmission of the process. -/
def asksRetx (cfg : HarqConfig) (h : DlHarqProcess) (ackStatus : HarqAckReportStatus)
    (pucchSnr : Option Int) : Prop :=
  cfg.isNtnHarqModeBEnabled = false ∧ h.status = .waitingAck ∧ h.params.pucchAckToReceive ≤ 1 ∧
    (h.params.chooseAck ackStatus pucchSnr).chosenAck ≠ .ack ∧ h.nofRetxs < h.maxNofHarqRetxs

structure Reported (h : DlHarqProcess) (ackStatus : HarqAckReportStatus) (pucchSnr : Option Int)
    (update : StatusUpdate) (h' : DlHarqProcess) : Prop where
  more : 1 < h.params.pucchAckToReceive → update = .noUpdate ∧ h'.status = .waitingAck ∧
    h'.params = { h.params.chooseAck ackStatus pucchSnr with
      pucchAckToReceive := h.params.pucchAckToReceive - 1 }
  last : h.params.pucchAckToReceive ≤ 1 →
    update = (if decide ((h.params.chooseAck ackStatus pucchSnr).chosenAck = .ack) then .acked else .nacked) ∧
      h'.status ≠ .waitingAck ∧ ((h.params.chooseAck ackStatus pucchSnr).chosenAck = .ack → h'.status = .empty)

theorem Reported.countPucch {ackStatus : HarqAckReportStatus} {pucchSnr : Option Int} (slotTimeout : SlotPoint)
    (hstatus : h.status = .waitingAck) (hmore : ¬ h.params.pucchAckToReceive ≤ 1) :
    Reported h ackStatus pucchSnr .noUpdate
      { DlHarqProcess.countPucch h (h.params.chooseAck ackStatus pucchSnr) with slotTimeout } where
  more := fun _ => ⟨rfl, hstatus, by simp only [DlHarqProcess.countPucch, h.params.chooseAck_pucchs]⟩
  last := fun hlast => absurd hlast hmore

variable {nackable : Prop}

/-- A report for a process of a UE. It still waits only if more PUCCHs are expected. -/
theorem dlAckInfo_process (hp : r.Partitioned cfg) (hh : r.process? ref = some h)
    {ackStatus : HarqAckReportStatus} {pucchSnr : Option Int}
    (hmode : cfg.isNtnHarqModeBEnabled = true → h.status = .waitingAck →
      1 < h.params.pucchAckToReceive) (hnackable : asksRetx cfg h ackStatus pucchSnr → nackable) :
    ∃ r' update h', dlAckInfo cfg r ref ackStatus pucchSnr = .ok (r', update) ∧
      r.Updated cfg ref h' r' ∧ h.Moves cfg r.lastSlInd nackable h' ∧
      (h'.status = .waitingAck → h'.nofRetxs = h.nofRetxs ∧
        h'.maxNofHarqRetxs = h.maxNofHarqRetxs ∧
        h'.params.chosenAck = (h.params.chooseAck ackStatus pucchSnr).chosenAck) ∧
      (h.status = .waitingAck → Reported h ackStatus pucchSnr update h') := by
  have haccess := access_of_process hh
  have hwf := hp.wf ref h hh
  by_cases hstatus : h.status = .waitingAck
  swap
  · refine ⟨r, .error, h, ?_, hp.unchanged hh, .rfl, fun hwaiting => absurd hwaiting hstatus,
      fun hwaiting => absurd hwaiting hstatus⟩
    rw [dlAckInfo, haccess, ok_bind, if_pos hstatus]
  · have hactive : h.status ≠ .empty := by simp [hstatus]
    have hpucchs := h.params.chooseAck_pucchs ackStatus pucchSnr
    by_cases hlast : h.params.pucchAckToReceive ≤ 1
    · have hoff : cfg.isNtnHarqModeBEnabled = false := by
        by_contra hon
        have := hmode (by simpa using hon) hstatus
        omega
      let h₁ : DlHarqProcess := { h with params := h.params.chooseAck ackStatus pucchSnr }
      have hup₁ : r.Updated cfg ref h₁ (r.store ref h₁) :=
        hp.store hh { hwf with } rfl rfl rfl
      obtain ⟨r', h', hok, hup, hmoves, hdone, hempty⟩ := hup₁.partitioned.handleAck hup₁.process_self hstatus hoff
        (decide ((h.params.chooseAck ackStatus pucchSnr).chosenAck = .ack)) fun hack hretxs =>
          hnackable ⟨hoff, hstatus, hlast, by simpa using hack, hretxs⟩
      rw [hup₁.lastSlInd_eq] at hmoves
      have hkeep : h.Moves cfg r.lastSlInd nackable h₁ := .keep rfl rfl rfl
      refine ⟨r', if decide ((h.params.chooseAck ackStatus pucchSnr).chosenAck = .ack) then .acked
        else .nacked, h', ?_, hup₁.trans hup, hkeep.trans hmoves, fun hwaiting => absurd hwaiting hdone,
        fun _ => ⟨fun hmore => absurd hlast (Nat.not_le_of_lt hmore), fun _ => ⟨rfl, hdone, ?_⟩⟩⟩
      swap
      · intro hack
        exact hempty (decide_eq_true hack)
      rw [dlAckInfo, haccess, ok_bind, if_neg (not_not_intro hstatus)]
      dsimp only
      rw [if_pos (hpucchs ▸ hlast), hok, ok_bind]
    · let h₁ := DlHarqProcess.countPucch h (h.params.chooseAck ackStatus pucchSnr)
      have hwf₁ : h₁.Wf cfg ref := { hwf with }
      by_cases hon : cfg.isNtnHarqModeBEnabled = true
      · refine ⟨r.store ref h₁, .noUpdate, h₁, ?_, hp.store hh hwf₁ rfl rfl rfl, .keep rfl rfl rfl,
          fun _ => ⟨rfl, rfl, rfl⟩, fun _ => .countPucch h.slotTimeout hstatus hlast⟩
        rw [dlAckInfo, haccess, ok_bind, if_neg (not_not_intro hstatus)]
        dsimp only
        rw [if_neg (hpucchs ▸ hlast), if_pos hon]
      · let h₂ : DlHarqProcess := { h₁ with slotTimeout := r.lastSlInd.add shortAckTimeoutDtx }
        have hwf₂ : h₂.Wf cfg ref := { hwf with }
        refine ⟨_, .noUpdate, h₂, ?_, hp.retime hh hactive hwf₂ hactive
          (hp.pending_keep hh (by simp [hstatus]) (by simp [h₂, h₁, DlHarqProcess.countPucch, hstatus])),
          .shorten hstatus hstatus rfl rfl, fun _ => ⟨rfl, rfl, rfl⟩, fun _ => .countPucch _ hstatus hlast⟩
        rw [dlAckInfo, haccess, ok_bind, if_neg (not_not_intro hstatus)]
        dsimp only
        have hmem : ref ∈ r.harqTimeoutWheel (cfg.wheelIndex h.slotTimeout) := hp.mem_wheel hh hactive
        rw [if_neg (hpucchs ▸ hlast), if_neg hon, popTimeout_of_mem (h := h₁) hmem,
          ok_bind]
        rfl

theorem nackTimes_process (hp : r.Partitioned cfg) (hh : r.process? ref = some h)
    (hoff : cfg.isNtnHarqModeBEnabled = false)
    (hnackable : h.status = .waitingAck → h.nofRetxs < h.maxNofHarqRetxs →
      h.params.chosenAck ≠ .ack → nackable) (times : Nat) :
    ∃ r' h', nackTimes cfg ref times r = .ok r' ∧ r.Updated cfg ref h' r' ∧
      h.Moves cfg r.lastSlInd nackable h' := by
  induction times generalizing r h with
  | zero => exact ⟨r, h, rfl, hp.unchanged hh, .rfl⟩
  | succ times ih =>
    have hasks : asksRetx cfg h .dtx none → nackable := by
      rintro ⟨-, hwaiting, -, hchosen, hretxs⟩
      rw [h.params.chooseAck_dtx] at hchosen
      exact hnackable hwaiting hretxs hchosen
    obtain ⟨r₁, update, h₁, hok₁, hup₁, hmoves₁, hsame₁, -⟩ :=
      dlAckInfo_process hp hh (fun hon => absurd (hoff.symm.trans hon) nofun) hasks
    have hnackable₁ : h₁.status = .waitingAck → h₁.nofRetxs < h₁.maxNofHarqRetxs →
        h₁.params.chosenAck ≠ .ack → nackable := by
      intro hwaiting hretxs hchosen
      obtain ⟨hnof, hmax, hack⟩ := hsame₁ hwaiting
      rw [h.params.chooseAck_dtx] at hack
      exact hnackable (hmoves₁.waiting hwaiting) (hnof ▸ hmax ▸ hretxs) (hack ▸ hchosen)
    obtain ⟨r', h', hok', hup', hmoves'⟩ := ih hup₁.partitioned hup₁.process_self hnackable₁
    rw [hup₁.lastSlInd_eq] at hmoves'
    refine ⟨r', h', ?_, hup₁.trans hup', hmoves₁.trans hmoves'⟩
    rw [nackTimes, hok₁, ok_bind]
    exact hok'

theorem uciSchedFailedHarq_process (hp : r.Partitioned cfg) (hh : r.process? ref = some h)
    {uciSlot : SlotPoint}
    (hclear : h.status = .waitingAck → h.slotAck = uciSlot → cfg.isNtnHarqModeBEnabled = false ∧
      (h.nofRetxs < h.maxNofHarqRetxs → h.params.chosenAck ≠ .ack → nackable)) :
    ∃ r' h', uciSchedFailedHarq cfg uciSlot r ref = .ok r' ∧ r.Updated cfg ref h' r' ∧
      h.Moves cfg r.lastSlInd nackable h' := by
  rw [uciSchedFailedHarq, access_of_process hh, ok_bind]
  by_cases hdue : h.status = .waitingAck ∧ h.slotAck = uciSlot
  · rw [if_pos hdue]
    obtain ⟨hoff, hnackable⟩ := hclear hdue.1 hdue.2
    exact nackTimes_process hp hh hoff (fun _ => hnackable) _
  · rw [if_neg hdue]
    exact ⟨r, h, rfl, hp.unchanged hh, .rfl⟩

end

end Srsran.Scheduler
