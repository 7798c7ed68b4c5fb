import Mathlib.Data.List.Count
import Srsran.Scheduler.HarqCalls

/-! Partition of the HARQ processes of a cell in every run of the manager. -/
namespace Srsran.Scheduler
open Srsran.Ran Placement HarqRepository HarqProcess Checked
variable {P : Type}

namespace HarqRepository
variable {cfg : HarqConfig} {r r' : HarqRepository P} {ref : HarqRef} {h : HarqProcess P}

/-- One call: the partition holds again, and the process in `taken` alone flips its NDI. -/
structure Evolves (cfg : HarqConfig) (r : HarqRepository P) (taken : Option HarqRef)
    (r' : HarqRepository P) : Prop where
  partitioned : Partitioned cfg r'
  ndi : ∀ ref, (r'.process? ref).map (·.ndi) =
    (r.process? ref).map fun h => if taken = some ref then !h.ndi else h.ndi

theorem Evolves.of_process_eq (hp : Partitioned cfg r') (hprocess : r'.process? = r.process?) :
    Evolves cfg r none r' := by
  refine ⟨hp, fun ref => ?_⟩
  simp [hprocess]

theorem Moved.evolves {nackable : Prop} (hmoved : Moved cfg r nackable r') : Evolves cfg r none r' := by
  refine ⟨hmoved.partitioned, fun ref => ?_⟩
  have hmoves := hmoved.moves ref
  generalize r.process? ref = before at hmoves
  generalize r'.process? ref = after at hmoves
  cases hmoves with
  | none => rfl
  | some hm => simp [hm.ndi_eq]

theorem Released.evolves {freed : List HarqRef} (hrel : Released cfg r freed r') :
    Evolves cfg r none r' := by
  refine ⟨hrel.partitioned, fun ref => ?_⟩
  rw [hrel.process_eq]
  split <;> cases r.process? ref <;> simp [released_ndi]

variable {taken : Option HarqRef} {h' : HarqProcess P}

theorem Evolves.ndi_eq (hev : Evolves cfg r taken r')
    (hh : r.process? ref = some h) (hh' : r'.process? ref = some h') :
    h'.ndi = if taken = some ref then !h.ndi else h.ndi := by
  simpa [hh, hh'] using hev.ndi ref

theorem Evolves.process_none_iff (hev : Evolves cfg r taken r') :
    r'.process? ref = none ↔ r.process? ref = none := by
  have hndi := congrArg Option.isNone (hev.ndi ref)
  rw [Option.isNone_map, Option.isNone_map] at hndi
  rw [← Option.isNone_iff_eq_none, ← Option.isNone_iff_eq_none, hndi]

theorem Evolves.of_update (hp : Partitioned cfg r') (hh : r.process? ref = some h)
    (hprocess : r'.process? = Function.update r.process? ref (some h'))
    (hndi : h'.ndi = if taken = some ref then !h.ndi else h.ndi)
    (htaken : ∀ other, other ≠ ref → taken ≠ some other) : Evolves cfg r taken r' := by
  refine ⟨hp, fun other => ?_⟩
  rw [hprocess]
  by_cases heq : other = ref
  · subst heq
    simp [hh, hndi]
  · simp [Function.update_of_ne heq, htaken other heq]

section
variable (hp : Partitioned cfg r)
include hp

theorem Partitioned.newTx_evolves (ueIdx : Nat) (slTx : SlotPoint)
    {slAck : SlotPoint} (hslAck : slAck.numerology = cfg.numerology) (maxNofHarqRetxs : Nat)
    (params : P) :
    ∃ r', r.newTx cfg ueIdx slTx slAck maxNofHarqRetxs params = .ok r' ∧
      Evolves cfg r (r.nextFree ueIdx) r' := by
  obtain ⟨r', hok, hp', -, ⟨hnone, hprocess⟩ | ⟨ref, h, hsome, hh, -, hprocess⟩⟩ :=
    hp.newTx ueIdx slTx hslAck maxNofHarqRetxs params
  · exact ⟨r', hok, hnone ▸ .of_process_eq hp' hprocess⟩
  · refine ⟨r', hok, .of_update hp' hh hprocess ?_ fun other hne => ?_⟩
    · simp [hsome, setNewTx]
    · simpa [hsome] using Ne.symm hne

theorem Partitioned.newRetx_evolves (hh : r.harq? ref = some h)
    (slTx : SlotPoint) {slAck : SlotPoint} (hslAck : slAck.numerology = cfg.numerology) (params : P) :
    ∃ r', r.newRetx cfg ref slTx slAck params = .ok r' ∧ Evolves cfg r none r' := by
  obtain ⟨r', hok, hp', -, hprocess | ⟨-, hprocess, hprocess'⟩⟩ := hp.newRetx hh slTx hslAck params
  · exact ⟨r', hok, .of_process_eq hp' hprocess⟩
  · exact ⟨r', hok, .of_update hp' hprocess hprocess' rfl nofun⟩

theorem Partitioned.slotIndication_evolves {slTx : SlotPoint}
    (hslTx : slTx.numerology = cfg.numerology) :
    ∃ r', r.slotIndication cfg slTx = .ok r' ∧ Evolves cfg r none r' := by
  obtain ⟨r₁, r', freed, hok, hrel₁, hrel', -⟩ := hp.slotIndication hslTx
  have hevolves := (hrel₁.append hrel').evolves
  refine ⟨r', hok, hevolves.partitioned, fun ref => ?_⟩
  rw [hevolves.ndi ref, process_startSlot]

theorem Partitioned.stop_evolves (maxUes : Nat) :
    ∃ r', r.stop cfg maxUes = .ok r' ∧ Evolves cfg r none r' := by
  obtain ⟨r', r₁, hok, hp', hprocess, hrel, -⟩ := hp.stop maxUes
  refine ⟨r', hok, hp', fun ref => ?_⟩
  rw [hprocess, hrel.evolves.ndi ref]

theorem Partitioned.cancelRetxs_moved (hh : r.harq? ref = some h) :
    ∃ r', r.cancelRetxs cfg ref = .ok r' ∧ Moved cfg r False r' := by
  cases ref with
  | process ueIdx hId =>
    have hprocess : r.process? (.process ueIdx hId) = some h := hh
    obtain ⟨r', h', hok, hup, hmoves⟩ := hp.cancelRetxs hprocess
    exact ⟨r', hok, hup.moved hprocess hmoves⟩
  | saved index position => exact hp.cancelRetxs_saved hh

theorem Partitioned.cancelAll_moved (ueIdx : Nat) :
    ∃ r', (r.harqRefs ueIdx).foldlM (HarqRepository.cancelRetxs cfg) r = .ok r' ∧
      Moved cfg r False r' :=
  moved_foldlM (fun _ => True) (fun hp hh _ => hp.cancelRetxs hh) hp (nodup_harqRefs ueIdx)
    fun _ hmem => (exists_process_of_mem hmem).imp fun _ hh => ⟨hh.2, trivial⟩

end

theorem ndi_reserveUeHarqs [Inhabited P] {ueIdx nofHarqs : Nat}
    (hnone : (r.ues ueIdx).harqs = []) (hh : r.process? ref = some h)
    (hh' : (r.reserveUeHarqs ueIdx nofHarqs).process? ref = some h') : h'.ndi = h.ndi := by
  rw [process_reserveUeHarqs hnone] at hh'
  cases ref with
  | saved index position => cases hh
  | process otherUe hId =>
    by_cases hue : otherUe = ueIdx
    · simp [process?, hue, hnone] at hh
    · simp only [if_neg hue, hh, Option.some.injEq] at hh'
      rw [hh']

theorem eq_of_withoutUe {ueIdx : Nat} (hh : r.process? ref = some h)
    (hh' : r.withoutUe ueIdx ref = some h') : h' = h := by
  cases ref with
  | saved index position => cases hh
  | process otherUe hId =>
    rw [withoutUe] at hh'
    split at hh'
    · cases hh'
    · exact Option.some.inj (hh'.symm.trans hh)

/-- Resetting a copy in the history is safe only once it is empty. -/
theorem Partitioned.reset_moved (hp : Partitioned cfg r) (hh : r.harq? ref = some h)
    (hsafe : r.process? ref = some h ∨ h.status = .empty) :
    ∃ r', r.deallocHarq cfg ref = .ok r' ∧ Moved cfg r False r' := by
  rcases hsafe with hprocess | hempty
  · obtain ⟨r', hok, hup, -⟩ := hp.deallocHarq hprocess
    exact ⟨r', hok, hup.moved hprocess .released⟩
  · refine ⟨r, ?_, .rfl hp⟩
    rw [HarqRepository.deallocHarq, access_of_harq hh, ok_bind, if_pos hempty]

end HarqRepository

section
variable {cfg : HarqConfig} {r : DlHarqRepository} {ref : HarqRef} {h : DlHarqProcess} {nackable : Prop}
open HarqRepository

section
variable (hp : r.Partitioned cfg)
include hp

theorem dlAckInfo_saved {index position : Nat}
    (hh : r.harq? (.saved index position) = some h) (ackStatus : HarqAckReportStatus)
    (pucchSnr : Option Int) :
    ∃ r' update h', dlAckInfo cfg r (.saved index position) ackStatus pucchSnr = .ok (r', update) ∧
      Moved cfg r nackable r' ∧ r'.harq? (.saved index position) = some h' ∧
      (h.status = .waitingAck → Reported h ackStatus pucchSnr update h') := by
  have haccess := access_of_harq hh
  obtain ⟨hmode, hnotPending, -⟩ := hp.saved index h (List.mem_of_getElem? hh)
  by_cases hstatus : h.status = .waitingAck
  swap
  · refine ⟨r, .error, h, ?_, .rfl hp, hh, fun hwaiting => absurd hwaiting hstatus⟩
    rw [dlAckInfo, haccess, ok_bind, if_pos hstatus]
  · have hpucchs := h.params.chooseAck_pucchs ackStatus pucchSnr
    rw [dlAckInfo, haccess, ok_bind, if_neg (not_not_intro hstatus)]
    by_cases hlast : h.params.pucchAckToReceive ≤ 1
    · let h₁ : DlHarqProcess := { h with params := h.params.chooseAck ackStatus pucchSnr }
      have hmoved₁ : Moved cfg r nackable (r.store (.saved index position) h₁) :=
        hp.store_saved hh hnotPending rfl
      obtain ⟨r', hok, hmoved, hh'⟩ := hmoved₁.partitioned.handleAck_saved (harq_store_saved hh)
        (decide ((h.params.chooseAck ackStatus pucchSnr).chosenAck = .ack))
      refine ⟨r', if decide ((h.params.chooseAck ackStatus pucchSnr).chosenAck = .ack) then .acked
        else .nacked, _, ?_, hmoved₁.trans hmoved, hh', fun _ =>
          ⟨fun hmore => absurd hlast (Nat.not_le_of_lt hmore), fun _ => ⟨rfl, (by rintro ⟨⟩), fun _ => rfl⟩⟩⟩
      dsimp only
      rw [if_pos (hpucchs ▸ hlast), hok, ok_bind]
    · refine ⟨_, .noUpdate, _, ?_, hp.store_saved (g := DlHarqProcess.countPucch h
        (h.params.chooseAck ackStatus pucchSnr)) hh hnotPending rfl, harq_store_saved hh,
        fun _ => .countPucch h.slotTimeout hstatus hlast⟩
      dsimp only
      rw [if_neg (hpucchs ▸ hlast), if_pos hmode]

theorem dlAckInfo_reported (hh : r.harq? ref = some h)
    {ackStatus : HarqAckReportStatus} {pucchSnr : Option Int}
    (hsafe : cfg.isNtnHarqModeBEnabled = true → r.process? ref = some h → h.status = .waitingAck →
      1 < h.params.pucchAckToReceive)
    (hnackable : asksRetx cfg h ackStatus pucchSnr → nackable) :
    ∃ r' update h', dlAckInfo cfg r ref ackStatus pucchSnr = .ok (r', update) ∧
      Moved cfg r nackable r' ∧ r'.harq? ref = some h' ∧
      (h.status = .waitingAck → Reported h ackStatus pucchSnr update h') := by
  cases ref with
  | process ueIdx hId =>
    have hprocess : r.process? (.process ueIdx hId) = some h := hh
    obtain ⟨r', update, h', hok, hup, hmoves, -, hreported⟩ := dlAckInfo_process hp hprocess
      (fun hmode => hsafe hmode hprocess) hnackable
    exact ⟨r', update, h', hok, hup.moved hprocess hmoves, hup.process_self, hreported⟩
  | saved index position => exact dlAckInfo_saved hp hh ackStatus pucchSnr

theorem dlAckInfo_moved (hh : r.harq? ref = some h)
    {ackStatus : HarqAckReportStatus} {pucchSnr : Option Int}
    (hsafe : cfg.isNtnHarqModeBEnabled = true → r.process? ref = some h → h.status = .waitingAck →
      1 < h.params.pucchAckToReceive)
    (hnackable : asksRetx cfg h ackStatus pucchSnr → nackable) :
    ∃ r' update, dlAckInfo cfg r ref ackStatus pucchSnr = .ok (r', update) ∧
      Moved cfg r nackable r' := by
  obtain ⟨r', update, -, hok, hmoved, -⟩ := dlAckInfo_reported hp hh hsafe hnackable
  exact ⟨r', update, hok, hmoved⟩

theorem uciSchedFailed_moved (ueIdx : Nat) (uciSlot : SlotPoint)
    (hclear : ∀ h ∈ (r.ues ueIdx).harqs, h.status = .waitingAck → h.slotAck = uciSlot →
      cfg.isNtnHarqModeBEnabled = false ∧
        (h.nofRetxs < h.maxNofHarqRetxs → h.params.chosenAck ≠ .ack → nackable)) :
    ∃ r', uciSchedFailed cfg r ueIdx uciSlot = .ok r' ∧ Moved cfg r nackable r' :=
  moved_foldlM (fun h => h.status = .waitingAck → h.slotAck = uciSlot →
      cfg.isNtnHarqModeBEnabled = false ∧
        (h.nofRetxs < h.maxNofHarqRetxs → h.params.chosenAck ≠ .ack → nackable))
    (fun hp hh hready => uciSchedFailedHarq_process hp hh hready) hp (nodup_harqRefs ueIdx)
    fun _ hmem => (exists_process_of_mem hmem).imp fun h hh => ⟨hh.2, hclear h hh.1⟩

end

theorem incrementPucchCounter_moved (nackable : Prop) (hp : r.Partitioned cfg) (hh : r.harq? ref = some h) :
    ∃ r', incrementPucchCounter r ref = .ok r' ∧ Moved cfg r nackable r' := by
  let h' : DlHarqProcess :=
    { h with params := { h.params with pucchAckToReceive := h.params.pucchAckToReceive + 1 } }
  refine ⟨r.store ref h', ?_, ?_⟩
  · rw [incrementPucchCounter, access_of_harq hh]
    rfl
  · cases ref with
    | process ueIdx hId =>
      have hwf := hp.wf (.process ueIdx hId) h hh
      have hup : r.Updated cfg (.process ueIdx hId) h' (r.store (.process ueIdx hId) h') :=
        hp.store hh { hwf with } rfl rfl rfl
      exact hup.moved hh (.keep rfl rfl rfl)
    | saved index position =>
      exact hp.store_saved hh (hp.saved index h (List.mem_of_getElem? hh)).2.1 rfl

end

theorem ulCrcInfo_moved {cfg : HarqConfig} {r : UlHarqRepository} {ref : HarqRef}
    {h : HarqProcess Unit} {nackable : Prop} (hp : r.Partitioned cfg) (hh : r.harq? ref = some h)
    {ack : Bool}
    (hsafe : r.process? ref = some h → h.status = .waitingAck → cfg.isNtnHarqModeBEnabled = false ∧
      (ack = false → h.nofRetxs < h.maxNofHarqRetxs → nackable)) :
    ∃ r', ulCrcInfo cfg r ref ack = .ok r' ∧ r.Moved cfg nackable r' := by
  rw [ulCrcInfo, access_of_harq hh, ok_bind]
  by_cases hstatus : h.status = .waitingAck
  swap
  · rw [if_pos hstatus]
    exact ⟨r, rfl, .rfl hp⟩
  · rw [if_neg (not_not_intro hstatus)]
    cases ref with
    | process ueIdx hId =>
      have hprocess : r.process? (.process ueIdx hId) = some h := hh
      obtain ⟨hoff, hnackable⟩ := hsafe hprocess hstatus
      obtain ⟨r', h', hok, hup, hmoves, -⟩ := hp.handleAck hprocess hstatus hoff ack hnackable
      exact ⟨r', hok, hup.moved hprocess hmoves⟩
    | saved index position =>
      obtain ⟨r', hok, hmoved, -⟩ := hp.handleAck_saved hh ack
      exact ⟨r', hok, hmoved⟩

def HarqRef.isProcess : HarqRef → Bool
  | .process _ _ => true
  | .saved _ _ => false

namespace HarqManager
variable (cfg : HarqManagerConfig)

/-- Calls that meet the assertions of `add_ue`, use handles of existing processes, and in NTN mode B
report only to the history and reset only processes of UEs. -/
def safeCall (m : HarqManager) : HarqEvent → Bool
  | .slotIndication _ | .stop | .destroyUe _ | .newDlTx _ _ _ _ _ | .newUlTx _ _ _ | .cancelRetxs _ => true
  | .addUe ueIdx nofDlHarqProcs nofUlHarqProcs =>
    0 < nofDlHarqProcs ∧ nofDlHarqProcs ≤ cfg.maxHarqsPerUe ∧ 0 < nofUlHarqProcs ∧
      nofUlHarqProcs ≤ cfg.maxHarqsPerUe ∧ ueIdx < cfg.maxUes ∧ m.contains cfg ueIdx = false
  | .dlNewRetx ref _ _ _ | .incrementPucchCounter ref | .cancelDlRetxs ref => (m.dl.harq? ref).isSome
  | .ulNewRetx ref _ | .cancelUlRetxs ref => (m.ul.harq? ref).isSome
  | .dlAckInfo ref _ _ => (m.dl.harq? ref).any fun h =>
    !(cfg.dl.isNtnHarqModeBEnabled && ref.isProcess && h.status = .waitingAck &&
      h.params.pucchAckToReceive ≤ 1)
  | .ulCrcInfo ref _ => (m.ul.harq? ref).any fun h =>
    !(cfg.ul.isNtnHarqModeBEnabled && ref.isProcess && h.status = .waitingAck)
  | .uciSchedFailed ueIdx uciSlot => !cfg.dl.isNtnHarqModeBEnabled ||
      (m.dl.ues ueIdx).harqs.all fun h => !(h.status = .waitingAck && h.slotAck = cfg.slot uciSlot)
  | .resetDl ref => (m.dl.harq? ref).any fun h => ref.isProcess || h.status = .empty
  | .resetUl ref => (m.ul.harq? ref).any fun h => ref.isProcess || h.status = .empty

def takenDl (m : HarqManager) : HarqEvent → Option HarqRef
  | .newDlTx ueIdx _ _ _ _ => m.dl.nextFree ueIdx
  | _ => none

def takenUl (m : HarqManager) : HarqEvent → Option HarqRef
  | .newUlTx ueIdx _ _ => m.ul.nextFree ueIdx
  | _ => none

/-- The manager between calls. -/
structure Inv (m : HarqManager) : Prop where
  dl : m.dl.Partitioned cfg.dl
  ul : m.ul.Partitioned cfg.ul
  sameUes : ∀ ueIdx, m.dl.process? (.process ueIdx 0) = none ↔ m.ul.process? (.process ueIdx 0) = none

/-- The NDI of the process taken flips, and no other. -/
def NdiRule (m : HarqManager) (event : HarqEvent) (m' : HarqManager) : Prop :=
  (∀ ref h h', m.dl.process? ref = some h → m'.dl.process? ref = some h' →
      h'.ndi = if m.takenDl event = some ref then !h.ndi else h.ndi) ∧
    ∀ ref h h', m.ul.process? ref = some h → m'.ul.process? ref = some h' →
      h'.ndi = if m.takenUl event = some ref then !h.ndi else h.ndi

variable {cfg}

variable {ref : HarqRef}

theorem isProcess_of_process {r : HarqRepository P} {h : HarqProcess P}
    (hh : r.process? ref = some h) : ref.isProcess = true := by
  cases ref with
  | process ueIdx hId => rfl
  | saved index position => cases hh

theorem dlReport_safe {cfg : HarqConfig} {r : DlHarqRepository} {h : DlHarqProcess}
    (hcalm : (!(cfg.isNtnHarqModeBEnabled && ref.isProcess && h.status = .waitingAck &&
      h.params.pucchAckToReceive ≤ 1)) = true) (hmode : cfg.isNtnHarqModeBEnabled = true)
    (hprocess : r.process? ref = some h) (hwaiting : h.status = .waitingAck) :
    1 < h.params.pucchAckToReceive := by
  simpa [hmode, isProcess_of_process hprocess, hwaiting] using hcalm

theorem ulReport_safe {cfg : HarqConfig} {r : UlHarqRepository} {h : HarqProcess Unit}
    (hcalm : (!(cfg.isNtnHarqModeBEnabled && ref.isProcess && h.status = .waitingAck)) = true)
    (hprocess : r.process? ref = some h) (hwaiting : h.status = .waitingAck) :
    cfg.isNtnHarqModeBEnabled = false := by
  simpa [isProcess_of_process hprocess, hwaiting] using hcalm

variable {m : HarqManager}

theorem uciSchedFailed_safe {ueIdx uciSlot : Nat} {h : DlHarqProcess}
    (hsafe : m.safeCall cfg (.uciSchedFailed ueIdx uciSlot) = true)
    (hmem : h ∈ (m.dl.ues ueIdx).harqs) (hwaiting : h.status = .waitingAck)
    (hslot : h.slotAck = cfg.slot uciSlot) : cfg.dl.isNtnHarqModeBEnabled = false := by
  rw [safeCall, Bool.or_eq_true, List.all_eq_true] at hsafe
  rcases hsafe with hoff | hnone
  · simpa using hoff
  · simpa [hwaiting, hslot] using hnone h hmem

theorem reset_safe {r : HarqRepository P} {h : HarqProcess P} (hh : r.harq? ref = some h)
    (hcalm : (ref.isProcess || h.status = .empty) = true) :
    r.process? ref = some h ∨ h.status = .empty := by
  cases ref with
  | process ueIdx hId => exact .inl hh
  | saved index position => exact .inr (by simpa [HarqRef.isProcess] using hcalm)

theorem Inv.step_of_evolves {m' : HarqManager} (hinv : m.Inv cfg) {event : HarqEvent}
    (hdl : m.dl.Evolves cfg.dl (m.takenDl event) m'.dl)
    (hul : m.ul.Evolves cfg.ul (m.takenUl event) m'.ul) : m'.Inv cfg ∧ m.NdiRule event m' := by
  refine ⟨⟨hdl.partitioned, hul.partitioned, fun ueIdx => ?_⟩, fun ref h h' hh hh' => ?_,
    fun ref h h' hh hh' => ?_⟩
  · rw [hdl.process_none_iff, hul.process_none_iff]
    exact hinv.sameUes ueIdx
  · exact hdl.ndi_eq hh hh'
  · exact hul.ndi_eq hh hh'

theorem Inv.addUe {ueIdx nofDlHarqProcs nofUlHarqProcs : Nat} (hinv : m.Inv cfg)
    (hsafe : m.safeCall cfg (.addUe ueIdx nofDlHarqProcs nofUlHarqProcs) = true) :
    ∃ m', m.step cfg (.addUe ueIdx nofDlHarqProcs nofUlHarqProcs) = .ok m' ∧ m'.Inv cfg ∧
      m.NdiRule (.addUe ueIdx nofDlHarqProcs nofUlHarqProcs) m' := by
  have hargs := of_decide_eq_true hsafe
  have ⟨hdlPos, _, hulPos, _, hlt, hnew⟩ := hargs
  have hdlNone : (m.dl.ues ueIdx).harqs = [] := by simpa [contains, hlt] using hnew
  have hulNone : (m.ul.ues ueIdx).harqs = [] :=
    process_none_iff.mp
      ((hinv.sameUes ueIdx).mp (process_none_iff.mpr hdlNone))
  refine ⟨{ dl := m.dl.reserveUeHarqs ueIdx nofDlHarqProcs, ul := m.ul.reserveUeHarqs ueIdx nofUlHarqProcs },
    by rw [HarqManager.step, HarqManager.addUe, if_pos hargs],
    ⟨hinv.dl.reserveUeHarqs hdlNone nofDlHarqProcs, hinv.ul.reserveUeHarqs hulNone nofUlHarqProcs,
      fun otherUe => ?_⟩, fun ref h h' hh hh' => ?_, fun ref h h' hh hh' => ?_⟩
  · rw [process_reserveUeHarqs hdlNone, process_reserveUeHarqs hulNone]
    by_cases hue : otherUe = ueIdx
    · simp [hue, freshProcess, hdlPos, hulPos]
    · simpa [hue] using hinv.sameUes otherUe
  · rw [ndi_reserveUeHarqs hdlNone hh hh']
    rfl
  · rw [ndi_reserveUeHarqs hulNone hh hh']
    rfl

theorem Inv.destroyUe (hinv : m.Inv cfg) (ueIdx : Nat) :
    ∃ m', m.step cfg (.destroyUe ueIdx) = .ok m' ∧ m'.Inv cfg ∧ m.NdiRule (.destroyUe ueIdx) m' := by
  obtain ⟨dl, hdl, hdlPartitioned, hdlProcess, -⟩ := hinv.dl.destroyUe ueIdx
  obtain ⟨ul, hul, hulPartitioned, hulProcess, -⟩ := hinv.ul.destroyUe ueIdx
  refine ⟨{ dl, ul }, ?_, ⟨hdlPartitioned, hulPartitioned, fun otherUe => ?_⟩,
    fun ref h h' hh hh' => ?_, fun ref h h' hh hh' => ?_⟩
  · rw [HarqManager.step, hdl, ok_bind, hul, ok_bind]
  · rw [hdlProcess, hulProcess]
    by_cases hue : otherUe = ueIdx
    · simp [withoutUe, hue]
    · simpa [withoutUe, hue] using hinv.sameUes otherUe
  · exact congrArg (·.ndi) (eq_of_withoutUe hh (congrFun hdlProcess ref ▸ hh'))
  · exact congrArg (·.ndi) (eq_of_withoutUe hh (congrFun hulProcess ref ▸ hh'))

theorem Inv.step (hinv : m.Inv cfg) {event : HarqEvent} (hsafe : m.safeCall cfg event = true) :
    ∃ m', m.step cfg event = .ok m' ∧ m'.Inv cfg ∧ m.NdiRule event m' := by
  have hslot (count : Nat) : (cfg.slot count).numerology = cfg.numerology := rfl
  have hslotAdd (count delay : Nat) : ((cfg.slot count).add delay).numerology = cfg.numerology := rfl
  have hdlSame := Evolves.of_process_eq hinv.dl rfl
  have hulSame := Evolves.of_process_eq hinv.ul rfl
  cases event with
  | slotIndication slTx =>
    obtain ⟨dl, hdl, hdlEvolves⟩ := hinv.dl.slotIndication_evolves (hslot slTx)
    obtain ⟨ul, hul, hulEvolves⟩ := hinv.ul.slotIndication_evolves (hslot slTx)
    refine ⟨{ dl, ul }, ?_, hinv.step_of_evolves hdlEvolves hulEvolves⟩
    rw [HarqManager.step, hdl, ok_bind, hul, ok_bind]
  | stop =>
    obtain ⟨dl, hdl, hdlEvolves⟩ := hinv.dl.stop_evolves cfg.maxUes
    obtain ⟨ul, hul, hulEvolves⟩ := hinv.ul.stop_evolves cfg.maxUes
    refine ⟨{ dl, ul }, ?_, hinv.step_of_evolves hdlEvolves hulEvolves⟩
    rw [HarqManager.step, hdl, ok_bind, hul, ok_bind]
  | addUe ueIdx nofDl nofUl => exact hinv.addUe hsafe
  | destroyUe ueIdx => exact hinv.destroyUe ueIdx
  | newDlTx ueIdx pdschSlot ackDelay maxRetxs bit =>
    obtain ⟨dl, hdl, hevolves⟩ := hinv.dl.newTx_evolves ueIdx (cfg.slot pdschSlot)
      (hslotAdd pdschSlot ackDelay) maxRetxs { harqBitIdx := bit }
    refine ⟨{ m with dl }, ?_, hinv.step_of_evolves hevolves hulSame⟩
    rw [HarqManager.step, hdl, ok_bind]
  | newUlTx ueIdx puschSlot maxRetxs =>
    obtain ⟨ul, hul, hevolves⟩ := hinv.ul.newTx_evolves ueIdx (cfg.slot puschSlot)
      (hslot puschSlot) maxRetxs ()
    refine ⟨{ m with ul }, ?_, hinv.step_of_evolves hdlSame hevolves⟩
    rw [HarqManager.step, hul, ok_bind]
  | dlNewRetx ref pdschSlot ackDelay bit =>
    obtain ⟨h, hh⟩ := Option.isSome_iff_exists.mp hsafe
    obtain ⟨dl, hdl, hevolves⟩ := hinv.dl.newRetx_evolves hh (cfg.slot pdschSlot)
      (hslotAdd pdschSlot ackDelay) { harqBitIdx := bit }
    refine ⟨{ m with dl }, ?_, hinv.step_of_evolves hevolves hulSame⟩
    rw [HarqManager.step, hdl, ok_bind]
  | ulNewRetx ref puschSlot =>
    obtain ⟨h, hh⟩ := Option.isSome_iff_exists.mp hsafe
    obtain ⟨ul, hul, hevolves⟩ := hinv.ul.newRetx_evolves hh (cfg.slot puschSlot) (hslot puschSlot) ()
    refine ⟨{ m with ul }, ?_, hinv.step_of_evolves hdlSame hevolves⟩
    rw [HarqManager.step, hul, ok_bind]
  | dlAckInfo ref ackStatus pucchSnr =>
    obtain ⟨h, hh, hcalm⟩ := (Option.any_eq_true _ _).mp hsafe
    obtain ⟨dl, update, hdl, hmoved⟩ := dlAckInfo_moved hinv.dl hh
      (dlReport_safe hcalm) fun _ => True.intro
    refine ⟨{ m with dl }, ?_, hinv.step_of_evolves hmoved.evolves hulSame⟩
    rw [HarqManager.step, hdl]
    rfl
  | ulCrcInfo ref ack =>
    obtain ⟨h, hh, hcalm⟩ := (Option.any_eq_true _ _).mp hsafe
    obtain ⟨ul, hul, hmoved⟩ := ulCrcInfo_moved hinv.ul hh
      fun hprocess hwaiting => ⟨ulReport_safe hcalm hprocess hwaiting, fun _ _ => True.intro⟩
    refine ⟨{ m with ul }, ?_, hinv.step_of_evolves hdlSame hmoved.evolves⟩
    rw [HarqManager.step, hul, ok_bind]
  | incrementPucchCounter ref =>
    obtain ⟨h, hh⟩ := Option.isSome_iff_exists.mp hsafe
    obtain ⟨dl, hdl, hmoved⟩ := incrementPucchCounter_moved False hinv.dl hh
    refine ⟨{ m with dl }, ?_, hinv.step_of_evolves hmoved.evolves hulSame⟩
    rw [HarqManager.step, hdl, ok_bind]
  | uciSchedFailed ueIdx uciSlot =>
    obtain ⟨dl, hdl, hmoved⟩ := uciSchedFailed_moved hinv.dl ueIdx
      (cfg.slot uciSlot) fun h hmem hwaiting hslot =>
        ⟨uciSchedFailed_safe hsafe hmem hwaiting hslot, fun _ _ => True.intro⟩
    refine ⟨{ m with dl }, ?_, hinv.step_of_evolves hmoved.evolves hulSame⟩
    rw [HarqManager.step, hdl, ok_bind]
  | cancelDlRetxs ref =>
    obtain ⟨h, hh⟩ := Option.isSome_iff_exists.mp hsafe
    obtain ⟨dl, hdl, hmoved⟩ := hinv.dl.cancelRetxs_moved hh
    refine ⟨{ m with dl }, ?_, hinv.step_of_evolves hmoved.evolves hulSame⟩
    rw [HarqManager.step, hdl, ok_bind]
  | cancelUlRetxs ref =>
    obtain ⟨h, hh⟩ := Option.isSome_iff_exists.mp hsafe
    obtain ⟨ul, hul, hmoved⟩ := hinv.ul.cancelRetxs_moved hh
    refine ⟨{ m with ul }, ?_, hinv.step_of_evolves hdlSame hmoved.evolves⟩
    rw [HarqManager.step, hul, ok_bind]
  | cancelRetxs ueIdx =>
    obtain ⟨dl, hdl, hdlMoved⟩ := hinv.dl.cancelAll_moved ueIdx
    obtain ⟨ul, hul, hulMoved⟩ := hinv.ul.cancelAll_moved ueIdx
    refine ⟨{ dl, ul }, ?_, hinv.step_of_evolves hdlMoved.evolves hulMoved.evolves⟩
    rw [HarqManager.step, hdl, ok_bind, hul, ok_bind]
  | resetDl ref =>
    obtain ⟨h, hh, hcalm⟩ := (Option.any_eq_true _ _).mp hsafe
    obtain ⟨dl, hdl, hmoved⟩ := hinv.dl.reset_moved hh (reset_safe hh hcalm)
    refine ⟨{ m with dl }, ?_, hinv.step_of_evolves hmoved.evolves hulSame⟩
    rw [HarqManager.step, hdl, ok_bind]
  | resetUl ref =>
    obtain ⟨h, hh, hcalm⟩ := (Option.any_eq_true _ _).mp hsafe
    obtain ⟨ul, hul, hmoved⟩ := hinv.ul.reset_moved hh (reset_safe hh hcalm)
    refine ⟨{ m with ul }, ?_, hinv.step_of_evolves hdlSame hmoved.evolves⟩
    rw [HarqManager.step, hul, ok_bind]

theorem inv_init : Inv cfg {} := by
  have hholds {P I : Type} {belongs : HarqProcess P → I → Bool} :
      Holds (fun _ : I => ([] : List HarqRef)) ({} : HarqRepository P).process? belongs := by
    refine .of_nodup (fun _ => List.nodup_nil) fun i ref => ?_
    constructor
    · exact fun hmem => absurd hmem List.not_mem_nil
    · rintro ⟨h, hh, -⟩
      cases ref <;> simp [process?] at hh
  have hnone {P : Type} (ref : HarqRef) : ({} : HarqRepository P).process? ref = none := by
    cases ref <;> rfl
  have hpartitioned {P : Type} (cfg : HarqConfig) : ({} : HarqRepository P).Partitioned cfg := by
    refine ⟨fun ref h hh => ?_, hholds, hholds, hholds, fun index h hmem => absurd hmem List.not_mem_nil⟩
    rw [hnone] at hh
    cases hh
  exact ⟨hpartitioned cfg.dl, hpartitioned cfg.ul, fun ueIdx => by simp [hnone]⟩

end HarqManager

namespace HarqRepository
variable {cfg : HarqConfig} {r : HarqRepository P} {ueIdx hId : Nat} {h : HarqProcess P}

/-- The process is in the wheel list of its timeout, and in no other one. -/
def InWheel (cfg : HarqConfig) (r : HarqRepository P) (ref : HarqRef) (h : HarqProcess P) : Prop :=
  (r.harqTimeoutWheel (cfg.wheelIndex h.slotTimeout)).count ref = 1 ∧
    ∀ index, index ≠ cfg.wheelIndex h.slotTimeout → ref ∉ r.harqTimeoutWheel index

def Situated (cfg : HarqConfig) (r : HarqRepository P) (ueIdx hId : Nat) (h : HarqProcess P) : Prop :=
  match h.status with
  | .empty => (r.ues ueIdx).freeHarqIds.count hId = 1 ∧
      (∀ index, .process ueIdx hId ∉ r.harqTimeoutWheel index) ∧
      .process ueIdx hId ∉ r.harqPendingRetxList
  | .waitingAck => hId ∉ (r.ues ueIdx).freeHarqIds ∧ InWheel cfg r (.process ueIdx hId) h ∧
      .process ueIdx hId ∉ r.harqPendingRetxList ∧ h.nofRetxs ≤ h.maxNofHarqRetxs
  | .pendingRetx => hId ∉ (r.ues ueIdx).freeHarqIds ∧ InWheel cfg r (.process ueIdx hId) h ∧
      r.harqPendingRetxList.count (.process ueIdx hId) = 1 ∧ h.nofRetxs ≤ h.maxNofHarqRetxs

theorem count_freeRefs (r : HarqRepository P) (ueIdx hId : Nat) :
    (r.freeRefs ueIdx).count (.process ueIdx hId) = (r.ues ueIdx).freeHarqIds.count hId :=
  List.count_map_of_injective _ _ (fun _ _ heq => (HarqRef.process.inj heq).2) hId

theorem Partitioned.inWheel {ref : HarqRef} (hp : Partitioned cfg r) (hh : r.process? ref = some h)
    (hactive : h.status ≠ .empty) : InWheel cfg r ref h := by
  refine ⟨?_, fun index hindex => ?_⟩
  · simp [hp.wheel.count_eq hh, timesOut, hactive]
  · rw [← List.count_eq_zero, hp.wheel.count_eq hh]
    simp [timesOut, hindex]

theorem Partitioned.situated (hp : Partitioned cfg r) (hh : (r.ues ueIdx).harqs[hId]? = some h) :
    Situated cfg r ueIdx hId h := by
  have hprocess : r.process? (.process ueIdx hId) = some h := hh
  have hwf := hp.wf _ h hprocess
  have hue := hp.ueIdx_eq hprocess
  have hfree := hp.free.count_eq hprocess ueIdx
  have hpending := hp.pending.count_eq hprocess ()
  rw [count_freeRefs] at hfree
  rw [Situated]
  match hstatus : h.status with
  | .empty =>
    refine ⟨?_, fun index => ?_, ?_⟩
    · simpa [isFree, hstatus, hue] using hfree
    · rw [← List.count_eq_zero, hp.wheel.count_eq hprocess]
      simp [timesOut, hstatus]
    · simpa [awaitsRetx, hstatus, List.count_eq_zero] using hpending
  | .waitingAck =>
    refine ⟨?_, hp.inWheel hprocess (by simp [hstatus]), ?_, hwf.retxs_le hstatus⟩
    · simpa [isFree, hstatus, List.count_eq_zero] using hfree
    · simpa [awaitsRetx, hstatus, List.count_eq_zero] using hpending
  | .pendingRetx =>
    refine ⟨?_, hp.inWheel hprocess (by simp [hstatus]), ?_, (hwf.retxs_lt hstatus).le⟩
    · simpa [isFree, hstatus, List.count_eq_zero] using hfree
    · simpa [awaitsRetx, hstatus] using hpending

end HarqRepository

/-- In every run of safe calls each process is in one of its three situations, and every safe call
succeeds, flipping the NDI of the process it takes for a new transmission and of no other. -/
theorem harqProcesses_partitioned (cfg : HarqManagerConfig) (m : HarqManager)
    (h : Runs.Reaches (HarqManager.next cfg) (fun m event => m.safeCall cfg event = true) {} m) :
    (∀ ueIdx hId h, (m.dl.ues ueIdx).harqs[hId]? = some h → m.dl.Situated cfg.dl ueIdx hId h) ∧
      (∀ ueIdx hId h, (m.ul.ues ueIdx).harqs[hId]? = some h → m.ul.Situated cfg.ul ueIdx hId h) ∧
      ∀ event, m.safeCall cfg event = true →
        ∃ m', m.step cfg event = .ok m' ∧ m.NdiRule event m' := by
  have hinv : m.Inv cfg := h.invariant HarqManager.inv_init fun before event after hinv hsafe hstep => by
    obtain ⟨m', hok, hinv', -⟩ := hinv.step hsafe
    rw [HarqManager.next, hok] at hstep
    exact Option.some.inj hstep ▸ hinv'
  refine ⟨fun ueIdx hId h => hinv.dl.situated, fun ueIdx hId h => hinv.ul.situated, fun event hsafe => ?_⟩
  obtain ⟨m', hok, -, hndi⟩ := hinv.step hsafe
  exact ⟨m', hok, hndi⟩

def terrestrialHarqs : HarqManagerConfig where
  numerology := ⟨1, by decide⟩
  maxUes := 4
  maxHarqsPerUe := 16
  koffset_le := by simp

def retransmission : List HarqEvent :=
  [.addUe 0 2 1, .slotIndication 100, .newDlTx 0 100 4 1 0, .slotIndication 101,
    .dlAckInfo (.process 0 0) .nack none, .dlNewRetx (.process 0 0) 101 4 0]

theorem harqProcesses_partitioned_retransmission :
    ∃ m : HarqManager, ((m.dl.ues 0).harqs.map fun h => (h.status, h.nofRetxs, h.ndi)) =
        [(.waitingAck, 1, true), (.empty, 0, false)] ∧
      ∀ ueIdx hId h, (m.dl.ues ueIdx).harqs[hId]? = some h →
        m.dl.Situated terrestrialHarqs.dl ueIdx hId h := by
  have hrun : (Runs.runAll (Runs.guarded (HarqManager.next terrestrialHarqs)
      fun m event => m.safeCall terrestrialHarqs event = true) {} retransmission).map
        (fun m => (m.dl.ues 0).harqs.map fun h => (h.status, h.nofRetxs, h.ndi)) =
      some [(HarqState.waitingAck, 1, true), (.empty, 0, false)] := by decide +kernel
  obtain ⟨m, hrun, hharqs⟩ := Option.map_eq_some_iff.mp hrun
  exact ⟨m, hharqs,
    (harqProcesses_partitioned terrestrialHarqs m (Runs.reaches_of_runGuarded .start hrun)).1⟩

def ntnHarqs : HarqManagerConfig where
  numerology := ⟨0, by decide⟩
  maxUes := 4
  maxHarqsPerUe := 16
  ntnCsKoffset := 8
  dlHarqModeB := true
  koffset_le := by decide

/-- In NTN mode B a failed UCI allocation trips the assertion of the history. -/
theorem uciSchedFailed_nonNtnHarq :
    ∃ m, Runs.Reaches (HarqManager.next ntnHarqs) (fun _ _ => True) {} m ∧
      m.step ntnHarqs (.uciSchedFailed 0 112) = .error .nonNtnHarq := by
  have hrun : (Runs.runAll (HarqManager.next ntnHarqs) {}
      [.addUe 0 2 1, .slotIndication 100, .newDlTx 0 100 12 4 0]).map
        (fun m => match m.step ntnHarqs (.uciSchedFailed 0 112) with
          | .ok _ => none
          | .error fault => some fault) = some (some HarqFault.nonNtnHarq) := by decide +kernel
  obtain ⟨m, hrun, hfault⟩ := Option.map_eq_some_iff.mp hrun
  refine ⟨m, Runs.reaches_of_runAll .start (fun _ _ _ => trivial) hrun, ?_⟩
  cases hstep : m.step ntnHarqs (.uciSchedFailed 0 112) with
  | ok m' =>
    rw [hstep] at hfault
    cases hfault
  | error fault =>
    rw [hstep] at hfault
    exact congrArg Except.error (Option.some.inj hfault)

end Srsran.Scheduler
