import Srsran.Scheduler.HarqMoves

/-! The calls of a HARQ repository keep its partition: reports through either kind of handle,
transmissions, and UEs that come and go. -/
namespace Srsran.Scheduler
open Srsran.Ran Placement HarqProcess
open Checked (ok_bind)
variable {P : Type}

namespace HarqRepository
variable {cfg : HarqConfig} {r r' r'' : HarqRepository P} {ref : HarqRef} {h h' : HarqProcess P}
  {nackable : Prop}

/-- Every process made a move of reports, cancellations and resets. -/
structure Moved (cfg : HarqConfig) (r : HarqRepository P) (nackable : Prop)
    (r' : HarqRepository P) : Prop where
  partitioned : Partitioned cfg r'
  moves : ∀ ref, Option.Rel (Moves cfg r.lastSlInd nackable) (r.process? ref)
    (r'.process? ref)
  lastSlInd_eq : r'.lastSlInd = r.lastSlInd

theorem Moved.of_process_eq (hp : Partitioned cfg r') (hprocess : r'.process? = r.process?)
    (hlast : r'.lastSlInd = r.lastSlInd) : Moved cfg r nackable r' := by
  refine ⟨hp, fun ref => ?_, hlast⟩
  rw [hprocess]
  cases r.process? ref with
  | none => exact .none
  | some h => exact .some .rfl

theorem Moved.rfl (hp : Partitioned cfg r) : Moved cfg r nackable r := .of_process_eq hp (.refl _) (.refl _)

theorem Moved.trans (hfirst : Moved cfg r nackable r') (hnext : Moved cfg r' nackable r'') :
    Moved cfg r nackable r'' := by
  refine ⟨hnext.partitioned, fun ref => ?_, hnext.lastSlInd_eq.trans hfirst.lastSlInd_eq⟩
  have hmoves := hnext.moves ref
  have hmoves₁ := hfirst.moves ref
  rw [hfirst.lastSlInd_eq] at hmoves
  generalize r.process? ref = before at hmoves₁
  generalize r'.process? ref = mid at hmoves hmoves₁
  generalize r''.process? ref = after at hmoves
  cases hmoves₁ with
  | none =>
    cases hmoves
    exact .none
  | some hm₁ =>
    cases hmoves with
    | some hm => exact .some (hm₁.trans hm)

theorem Updated.moved (hup : Updated cfg r ref h' r') (hh : r.process? ref = some h)
    (hmoves : h.Moves cfg r.lastSlInd nackable h') : Moved cfg r nackable r' := by
  refine ⟨hup.partitioned, fun other => ?_, hup.lastSlInd_eq⟩
  rw [hup.process_eq]
  by_cases heq : other = ref
  · subst heq
    rw [Function.update_self, hh]
    exact .some hmoves
  · rw [Function.update_of_ne heq]
    cases r.process? other with
    | none => exact .none
    | some o => exact .some .rfl

/-- A loop over processes, of which each step changes its own process. -/
theorem moved_foldlM (ready : HarqProcess P → Prop)
    {f : HarqRepository P → HarqRef → Except HarqFault (HarqRepository P)}
    (hf : ∀ {r : HarqRepository P} {ref h}, Partitioned cfg r → r.process? ref = some h → ready h →
      ∃ r' h', f r ref = .ok r' ∧ Updated cfg r ref h' r' ∧ h.Moves cfg r.lastSlInd nackable h')
    {refs : List HarqRef} (hp : Partitioned cfg r) (hnodup : refs.Nodup)
    (hrefs : ∀ ref ∈ refs, ∃ h, r.process? ref = some h ∧ ready h) :
    ∃ r', refs.foldlM f r = .ok r' ∧ Moved cfg r nackable r' := by
  induction refs generalizing r with
  | nil => exact ⟨r, rfl, .rfl hp⟩
  | cons ref refs ih =>
    obtain ⟨hnotMem, hnodup⟩ := List.nodup_cons.mp hnodup
    obtain ⟨h, hh, hready⟩ := hrefs ref List.mem_cons_self
    obtain ⟨r₁, h₁, hok₁, hup₁, hmoves₁⟩ := hf hp hh hready
    have hrest : ∀ other ∈ refs, ∃ h, r₁.process? other = some h ∧ ready h := by
      intro other hother
      have hne : other ≠ ref := fun heq => hnotMem (heq ▸ hother)
      rw [hup₁.process_eq, Function.update_of_ne hne]
      exact hrefs other (List.mem_cons_of_mem _ hother)
    obtain ⟨r', hok', hmoved'⟩ := ih hup₁.partitioned hnodup hrest
    refine ⟨r', ?_, (hup₁.moved hh hmoves₁).trans hmoved'⟩
    rw [List.foldlM_cons, hok₁, ok_bind, hok']

theorem nodup_harqRefs (ueIdx : Nat) : (r.harqRefs ueIdx).Nodup :=
  List.nodup_range.map fun _ _ heq => (HarqRef.process.inj heq).2

variable {ueIdx : Nat}

theorem exists_process_of_mem (hmem : ref ∈ r.harqRefs ueIdx) :
    ∃ h ∈ (r.ues ueIdx).harqs, r.process? ref = some h := by
  obtain ⟨hId, hlt, rfl⟩ := List.mem_map.mp hmem
  have hlt := List.mem_range.mp hlt
  exact ⟨_, List.getElem_mem hlt, List.getElem?_eq_getElem hlt⟩

theorem mem_harqRefs {hId : Nat} (hh : r.process? (.process ueIdx hId) = some h) :
    HarqRef.process ueIdx hId ∈ r.harqRefs ueIdx := by
  obtain ⟨hlt, -⟩ := List.getElem?_eq_some_iff.mp hh
  exact List.mem_map.mpr ⟨hId, List.mem_range.mpr hlt, rfl⟩

theorem access_of_harq (hh : r.harq? ref = some h) : r.access ref = .ok h := by
  rw [access, hh]

theorem process_store_saved (index position : Nat) :
    (r.store (.saved index position) h').process? = r.process? := by
  funext other
  cases other <;> rfl

variable {index position : Nat}

theorem harq_store_saved (hh : r.harq? (.saved index position) = some h) :
    (r.store (.saved index position) h').harq? (.saved index position) = some h' := by
  obtain ⟨hlt, -⟩ := List.getElem?_eq_some_iff.mp hh
  simp [store, harq?, hlt]

section
variable (hp : Partitioned cfg r)
include hp

section
variable (hh : r.harq? (.saved index position) = some h)
include hh

theorem Partitioned.store_saved {g : HarqProcess P} (hstatus : g.status ≠ .pendingRetx)
    (hslot : g.slotAck = h.slotAck) : Moved cfg r nackable (r.store (.saved index position) g) := by
  have hsaved := hp.saved index h (List.mem_of_getElem? hh)
  refine .of_process_eq (hp.of_same (process_store_saved index position) rfl rfl rfl ?_)
    (process_store_saved index position) rfl
  intro other o hmem
  have hhistory : (r.store (.saved index position) g).history =
      Function.update r.history index ((r.history index).set position g) := rfl
  rw [hhistory, Function.update_apply] at hmem
  split at hmem
  · rename_i heq
    rcases List.mem_or_eq_of_mem_set hmem with hold | hnew
    · exact heq ▸ hp.saved index o hold
    · rw [heq, hnew, hslot]
      exact ⟨hsaved.1, hstatus, hsaved.2.2⟩
  · exact hp.saved other o hmem

theorem Partitioned.handleAck_saved (ack : Bool) :
    ∃ r', r.handleAck cfg (.saved index position) ack = .ok r' ∧ Moved cfg r nackable r' ∧
      r'.harq? (.saved index position) = some { h with status := .empty } := by
  obtain ⟨hmode, -, hindex⟩ := hp.saved index h (List.mem_of_getElem? hh)
  obtain ⟨hlt, -⟩ := List.getElem?_eq_some_iff.mp hh
  refine ⟨_, ?_, hp.store_saved (g := { h with status := .empty }) hh nofun rfl, harq_store_saved hh⟩
  rw [HarqRepository.handleAck, access_of_harq hh, ok_bind, if_pos hmode, historyHandleAck]
  exact if_pos ⟨hindex, hlt⟩

theorem Partitioned.cancelRetxs_saved :
    ∃ r', r.cancelRetxs cfg (.saved index position) = .ok r' ∧ Moved cfg r nackable r' := by
  obtain ⟨-, hnotPending, -⟩ := hp.saved index h (List.mem_of_getElem? hh)
  match hstatus : h.status with
  | .empty =>
    refine ⟨r, ?_, .rfl hp⟩
    rw [HarqRepository.cancelRetxs, access_of_harq hh, ok_bind, hstatus]
  | .pendingRetx => exact absurd hstatus hnotPending
  | .waitingAck =>
    refine ⟨_, ?_, hp.store_saved (g := h.setCancelled) hh hnotPending rfl⟩
    rw [HarqRepository.cancelRetxs, access_of_harq hh, ok_bind, hstatus]

end

theorem Partitioned.saveGrantParams (hh : r.process? ref = some h)
    (hstatus : h.status = .waitingAck) :
    ∃ r', r.saveGrantParams cfg ref = .ok r' ∧ Partitioned cfg r' ∧ r'.process? = r.process? ∧
      r'.lastSlInd = r.lastSlInd := by
  rw [HarqRepository.saveGrantParams, access_of_process hh, ok_bind,
    if_neg (not_not_intro hstatus)]
  by_cases hmode : cfg.isNtnHarqModeBEnabled = true
  · rw [if_pos hmode]
    let index := cfg.historyIndex h.slotAck
    let saved : HarqRepository P :=
      { r with history := Function.update r.history index (r.history index ++ [h]) }
    have hprocess : saved.process? = r.process? := by
      funext other
      cases other <;> rfl
    refine ⟨saved, rfl, hp.of_same hprocess rfl rfl rfl fun other o hmem => ?_, hprocess, rfl⟩
    have hhistory : saved.history = Function.update r.history index (r.history index ++ [h]) := rfl
    rw [hhistory, Function.update_apply] at hmem
    split at hmem
    · rename_i heq
      rcases List.mem_append.mp hmem with hold | hnew
      · exact heq ▸ hp.saved index o hold
      · rw [heq, List.mem_singleton.mp hnew]
        exact ⟨hmode, by simp [hstatus], rfl⟩
    · exact hp.saved other o hmem
  · rw [if_neg hmode]
    exact ⟨r, rfl, hp, rfl, rfl⟩

end

def nextFree (r : HarqRepository P) (ueIdx : Nat) : Option HarqRef :=
  (r.ues ueIdx).freeHarqIds.getLast?.map (.process ueIdx)

theorem Partitioned.newTx (hp : Partitioned cfg r) (ueIdx : Nat) (slTx : SlotPoint)
    {slAck : SlotPoint} (hslAck : slAck.numerology = cfg.numerology) (maxNofHarqRetxs : Nat)
    (params : P) :
    ∃ r', r.newTx cfg ueIdx slTx slAck maxNofHarqRetxs params = .ok r' ∧ Partitioned cfg r' ∧
      r'.lastSlInd = r.lastSlInd ∧ (r.nextFree ueIdx = none ∧ r'.process? = r.process? ∨
        ∃ ref h, r.nextFree ueIdx = some ref ∧ r.process? ref = some h ∧ h.status = .empty ∧
          r'.process? = Function.update r.process? ref
            (some (h.setNewTx cfg slTx slAck maxNofHarqRetxs params))) := by
  cases hlast : (r.ues ueIdx).freeHarqIds.getLast? with
  | none =>
    refine ⟨r, ?_, hp, rfl, .inl ⟨by rw [nextFree, hlast]; rfl, rfl⟩⟩
    rw [HarqRepository.newTx, HarqRepository.allocHarq, hlast]
    rfl
  | some hId =>
    obtain ⟨h, r₁, hh, hempty, hok₁, hup₁⟩ :=
      hp.allocHarq hlast slTx hslAck maxNofHarqRetxs params
    obtain ⟨r', hok', hp', hprocess, hlast'⟩ :=
      hup₁.partitioned.saveGrantParams hup₁.process_self rfl
    refine ⟨r', ?_, hp', hlast'.trans hup₁.lastSlInd_eq, .inr ⟨.process ueIdx hId, h, ?_, hh, hempty,
      hprocess.trans hup₁.process_eq⟩⟩
    · rw [HarqRepository.newTx, hok₁, ok_bind]
      exact hok'
    · rw [nextFree, hlast, Option.map_some]

theorem Partitioned.newRetx (hp : Partitioned cfg r) (hh : r.harq? ref = some h) (slTx : SlotPoint)
    {slAck : SlotPoint} (hslAck : slAck.numerology = cfg.numerology) (params : P) :
    ∃ r', r.newRetx cfg ref slTx slAck params = .ok r' ∧ Partitioned cfg r' ∧
      r'.lastSlInd = r.lastSlInd ∧ (r'.process? = r.process? ∨ h.status = .pendingRetx ∧
        r.process? ref = some h ∧
        r'.process? = Function.update r.process? ref (some (h.setNewRetx cfg slTx slAck params))) := by
  by_cases hstatus : h.status = .pendingRetx
  · have hprocess : r.process? ref = some h := by
      cases ref with
      | process ueIdx hId => exact hh
      | saved index position =>
        exact absurd hstatus (hp.saved index h (List.mem_of_getElem? hh)).2.1
    obtain ⟨r₁, hok₁, hup₁⟩ := hp.handleNewRetx hprocess hstatus slTx hslAck params
    obtain ⟨r', hok', hp', hprocess', hlast'⟩ :=
      hup₁.partitioned.saveGrantParams hup₁.process_self rfl
    refine ⟨r', ?_, hp', hlast'.trans hup₁.lastSlInd_eq, .inr ⟨hstatus, hprocess,
      hprocess'.trans hup₁.process_eq⟩⟩
    rw [HarqRepository.newRetx, hok₁, ok_bind]
    exact hok'
  · refine ⟨r, ?_, hp, rfl, .inl rfl⟩
    rw [HarqRepository.newRetx, HarqRepository.handleNewRetx, access_of_harq hh, ok_bind,
      if_pos hstatus]
    rfl

theorem process_none_iff : r.process? (.process ueIdx 0) = none ↔ (r.ues ueIdx).harqs = [] := by
  rw [process?, List.getElem?_eq_none_iff, Nat.le_zero, List.length_eq_zero_iff]

def freshProcess [Inhabited P] (ueIdx nofHarqs hId : Nat) : Option (HarqProcess P) :=
  if hId < nofHarqs then some { ueIdx := ueIdx, hId := hId, params := default } else none

variable {nofHarqs : Nat}

theorem process_reserveUeHarqs [Inhabited P] (hnone : (r.ues ueIdx).harqs = []) (ref : HarqRef) :
    (r.reserveUeHarqs ueIdx nofHarqs).process? ref = match ref with
      | .process otherUe hId =>
        if otherUe = ueIdx then freshProcess ueIdx nofHarqs hId else r.process? (.process otherUe hId)
      | .saved _ _ => none := by
  cases ref with
  | saved index position => rfl
  | process otherUe hId =>
    by_cases hue : otherUe = ueIdx
    · subst hue
      by_cases hlt : hId < nofHarqs <;>
        simp [reserveUeHarqs, process?, hnone, freshProcess, hlt]
    · simp [reserveUeHarqs, process?, hue]

theorem any_reserveUeHarqs [Inhabited P] {I : Type} {belongs : HarqProcess P → I → Bool}
    (hempty : ∀ h : HarqProcess P, ∀ i, h.status = .empty → belongs h i = false)
    (hnone : (r.ues ueIdx).harqs = []) (i : I) (ref : HarqRef) :
    ((r.reserveUeHarqs ueIdx nofHarqs).process? ref).any (belongs · i) =
      (r.process? ref).any (belongs · i) := by
  rw [process_reserveUeHarqs hnone]
  cases ref with
  | saved index position => rfl
  | process otherUe hId =>
    by_cases hue : otherUe = ueIdx
    · subst hue
      by_cases hlt : hId < nofHarqs <;> simp [freshProcess, hlt, process?, hnone, hempty]
    · simp [hue]

section
variable (hp : Partitioned cfg r)
include hp

theorem Partitioned.ueIdx_eq {hId : Nat}
    (hh : r.process? (.process ueIdx hId) = some h) : h.ueIdx = ueIdx :=
  (HarqRef.process.inj (hp.wf _ h hh).ref_eq).1.symm

theorem wf_reserveUeHarqs [Inhabited P] (hnone : (r.ues ueIdx).harqs = [])
    (hh : (r.reserveUeHarqs ueIdx nofHarqs).process? ref = some h) : h.Wf cfg ref := by
  rw [process_reserveUeHarqs hnone] at hh
  cases ref with
  | saved index position => cases hh
  | process otherUe hId =>
    dsimp only at hh
    by_cases hue : otherUe = ueIdx
    · rw [if_pos hue, freshProcess] at hh
      split at hh
      · cases hh
        exact ⟨by rw [hue], nofun, nofun, fun hactive => absurd rfl hactive⟩
      · cases hh
    · rw [if_neg hue] at hh
      exact hp.wf _ h hh

theorem mem_freeRefs_reserveUeHarqs [Inhabited P]
    (hnone : (r.ues ueIdx).harqs = []) (i : Nat) (ref : HarqRef) :
    ref ∈ (r.reserveUeHarqs ueIdx nofHarqs).freeRefs i ↔
      ∃ h, (r.reserveUeHarqs ueIdx nofHarqs).process? ref = some h ∧ h.isFree i = true := by
  rw [process_reserveUeHarqs hnone]
  by_cases hi : i = ueIdx
  · subst hi
    have hlist : (r.reserveUeHarqs i nofHarqs).freeRefs i =
        (List.range nofHarqs).reverse.map (HarqRef.process i) := by
      simp [freeRefs, HarqRepository.reserveUeHarqs]
    rw [hlist]
    cases ref with
    | saved index position => simp
    | process otherUe hId =>
      by_cases hue : otherUe = i
      · subst hue
        by_cases hlt : hId < nofHarqs <;> simp [freshProcess, hlt, isFree]
      · simp only [List.mem_map, HarqRef.process.injEq, if_neg hue]
        constructor
        · rintro ⟨_, -, heq, -⟩
          exact absurd heq.symm hue
        · rintro ⟨h, hh, hfree⟩
          have hown : h.ueIdx = i := by
            simp only [isFree, decide_eq_true_eq] at hfree
            exact hfree.2
          exact absurd ((hp.ueIdx_eq hh).symm.trans hown) hue
  · have hlist : (r.reserveUeHarqs ueIdx nofHarqs).freeRefs i = r.freeRefs i := by
      simp [freeRefs, HarqRepository.reserveUeHarqs, hi]
    rw [hlist, hp.free.mem_iff]
    cases ref with
    | saved index position => rfl
    | process otherUe hId =>
      by_cases hue : otherUe = ueIdx
      · subst hue
        by_cases hlt : hId < nofHarqs <;>
          simp [process?, hnone, freshProcess, hlt, isFree, Ne.symm hi]
      · simp [hue]

theorem Partitioned.reserveUeHarqs [Inhabited P]
    (hnone : (r.ues ueIdx).harqs = []) (nofHarqs : Nat) :
    Partitioned cfg (r.reserveUeHarqs ueIdx nofHarqs) := by
  refine ⟨fun ref h => wf_reserveUeHarqs hp hnone,
    .of_nodup (fun i => ?_) (mem_freeRefs_reserveUeHarqs hp hnone),
    hp.wheel.congr (any_reserveUeHarqs ?_ hnone), hp.pending.congr (any_reserveUeHarqs ?_ hnone),
    hp.saved⟩
  · by_cases hi : i = ueIdx
    · subst hi
      have hids : ((List.range nofHarqs).reverse.map (HarqRef.process i)).Nodup :=
        (List.nodup_reverse.mpr List.nodup_range).map fun _ _ heq => (HarqRef.process.inj heq).2
      simpa [freeRefs, HarqRepository.reserveUeHarqs] using hids
    · have hids := hp.free.nodup i
      simpa [freeRefs, HarqRepository.reserveUeHarqs, hi] using hids
  · exact fun h i hempty => by simp [timesOut, hempty]
  · exact fun h i hempty => by simp [awaitsRetx, hempty]

end

def withoutUe (r : HarqRepository P) (ueIdx : Nat) : HarqRef → Option (HarqProcess P)
  | .process otherUe hId => if otherUe = ueIdx then none else r.process? (.process otherUe hId)
  | .saved _ _ => none

theorem Partitioned.clearUe (hp : Partitioned cfg r)
    (hempty : ∀ hId h, r.process? (.process ueIdx hId) = some h → h.status = .empty) :
    Partitioned cfg { r with ues := Function.update r.ues ueIdx {} } ∧
      { r with ues := Function.update r.ues ueIdx {} }.process? = r.withoutUe ueIdx := by
  have hprocess : { r with ues := Function.update r.ues ueIdx {} }.process? = r.withoutUe ueIdx := by
    funext ref
    cases ref with
    | saved index position => rfl
    | process otherUe hId =>
      by_cases hue : otherUe = ueIdx
      · subst hue
        simp [process?, withoutUe]
      · simp [process?, withoutUe, hue]
  -- An empty process is in no list but that of the free ids.
  have hany {I : Type} {belongs : HarqProcess P → I → Bool}
      (hnever : ∀ h : HarqProcess P, ∀ i, h.status = .empty → belongs h i = false) (i : I)
      (ref : HarqRef) : (r.withoutUe ueIdx ref).any (belongs · i) = (r.process? ref).any (belongs · i) := by
    cases ref with
    | saved index position => rfl
    | process otherUe hId =>
      by_cases hue : otherUe = ueIdx
      · subst hue
        cases hh : r.process? (.process otherUe hId) with
        | none => simp [withoutUe]
        | some h => simp [withoutUe, hnever h i (hempty hId h hh)]
      · simp [withoutUe, hue]
  have hwf : ∀ ref h, r.withoutUe ueIdx ref = some h → r.process? ref = some h := by
    intro ref h hh
    cases ref with
    | saved index position => cases hh
    | process otherUe hId =>
      rw [withoutUe] at hh
      split at hh
      · cases hh
      · exact hh
  refine ⟨⟨?_, ?_, ?_, ?_, hp.saved⟩, hprocess⟩
  · rw [hprocess]
    exact fun ref h hh => hp.wf ref h (hwf ref h hh)
  · rw [hprocess]
    refine .of_nodup (fun i => ?_) fun i ref => ?_
    · by_cases hi : i = ueIdx
      · simp [freeRefs, hi]
      · simpa [freeRefs, hi] using hp.free.nodup i
    · by_cases hi : i = ueIdx
      · subst hi
        constructor
        · intro hmem
          simp [freeRefs] at hmem
        · rintro ⟨h, hh, hfree⟩
          have hown : h.ueIdx = i := by
            simp only [isFree, decide_eq_true_eq] at hfree
            exact hfree.2
          cases ref with
          | saved index position => cases hh
          | process otherUe hId =>
            have hue := hp.ueIdx_eq (hwf _ h hh)
            simp [withoutUe, ← hue, hown] at hh
      · have hlist : { r with ues := Function.update r.ues ueIdx {} }.freeRefs i = r.freeRefs i := by
          simp [freeRefs, hi]
        rw [hlist, hp.free.mem_iff]
        cases ref with
        | saved index position => rfl
        | process otherUe hId =>
          by_cases hue : otherUe = ueIdx
          · subst hue
            simp only [withoutUe, if_true]
            constructor
            · rintro ⟨h, hh, hfree⟩
              simp only [isFree, decide_eq_true_eq] at hfree
              exact absurd (hfree.2.symm.trans (hp.ueIdx_eq hh)) hi
            · rintro ⟨h, hh, -⟩
              cases hh
          · simp [withoutUe, hue]
  · rw [hprocess]
    exact hp.wheel.congr (hany fun h i hempty => by simp [timesOut, hempty])
  · rw [hprocess]
    exact hp.pending.congr (hany fun h i hempty => by simp [awaitsRetx, hempty])

theorem Partitioned.destroyUe (hp : Partitioned cfg r) (ueIdx : Nat) :
    ∃ r', r.destroyUe cfg ueIdx = .ok r' ∧ Partitioned cfg r' ∧ r'.process? = r.withoutUe ueIdx ∧
      r'.lastSlInd = r.lastSlInd := by
  have hrefs : ∀ ref ∈ r.harqRefs ueIdx, ∃ h, r.process? ref = some h := fun ref hmem =>
    (exists_process_of_mem hmem).imp fun _ hh => hh.2
  obtain ⟨r₁, hok₁, hrel₁⟩ := hp.deallocAll hrefs
  have hempty : ∀ hId h, r₁.process? (.process ueIdx hId) = some h → h.status = .empty := by
    intro hId h hh
    rw [hrel₁.process_eq] at hh
    split at hh
    · obtain ⟨before, -, rfl⟩ := Option.map_eq_some_iff.mp hh
      exact before.released_status
    · rename_i hnotMem
      exact absurd (mem_harqRefs hh) hnotMem
  obtain ⟨hp', hprocess⟩ := hrel₁.partitioned.clearUe hempty
  refine ⟨_, ?_, hp', hprocess.trans ?_, hrel₁.lastSlInd_eq⟩
  · rw [HarqRepository.destroyUe, hok₁, ok_bind]
  · funext ref
    cases ref with
    | saved index position => rfl
    | process otherUe hId =>
      by_cases hue : otherUe = ueIdx
      · simp [withoutUe, hue]
      · have hnotMem : HarqRef.process otherUe hId ∉ r.harqRefs ueIdx := by
          intro hmem
          obtain ⟨_, -, heq⟩ := List.mem_map.mp hmem
          exact hue (HarqRef.process.inj heq).1.symm
        simp [withoutUe, hue, hrel₁.process_eq, hnotMem]

theorem Partitioned.stop (hp : Partitioned cfg r) (maxUes : Nat) :
    ∃ r' r₁, r.stop cfg maxUes = .ok r' ∧ Partitioned cfg r' ∧ r'.process? = r₁.process? ∧
      Released cfg r ((List.range maxUes).flatMap r.harqRefs) r₁ ∧ r'.lastSlInd = .invalid := by
  have hrefs : ∀ ref ∈ (List.range maxUes).flatMap r.harqRefs, ∃ h, r.process? ref = some h := by
    intro ref hmem
    obtain ⟨ueIdx, -, hmem⟩ := List.mem_flatMap.mp hmem
    exact (exists_process_of_mem hmem).imp fun _ hh => hh.2
  obtain ⟨r₁, hok₁, hrel₁⟩ := hp.deallocAll hrefs
  have hprocess : { r₁ with lastSlInd := .invalid }.process? = r₁.process? := by
    funext ref
    cases ref <;> rfl
  refine ⟨{ r₁ with lastSlInd := .invalid }, r₁, ?_,
    hrel₁.partitioned.of_same hprocess rfl rfl rfl hrel₁.partitioned.saved, hprocess, hrel₁, rfl⟩
  rw [HarqRepository.stop, hok₁, ok_bind]

end HarqRepository

end Srsran.Scheduler
