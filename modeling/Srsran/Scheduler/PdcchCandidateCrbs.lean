import Srsran.Ran.CoresetMapping
import Srsran.Scheduler.PdcchSearch

/-! The CRBs of PDCCH candidates (`pdcch_resource_allocator_impl.cpp` for common search spaces and
`ue_configuration.cpp` for the others), which a PDCCH reserves in the grid. The mapping counts RBs from point A, and
its results are converted once more. -/
namespace Srsran.Scheduler
open Ran Ran.Pdcch Checked CoresetConfiguration

def crbToPrb (bwpCrbLims : RbInterval) (crb : Nat) : Except PdcchFault Nat :=
  if (bwpCrbLims.start ≤ crb ∧ crb < bwpCrbLims.stop) ∨ crb = bwpCrbLims.stop then .ok (crb - bwpCrbLims.start)
  else .error .outsideBwp

def prbToCrb (bwpCrbLims : RbInterval) (prb : Nat) : Except PdcchFault Nat :=
  if prb ≤ bwpCrbLims.length then .ok (prb + bwpCrbLims.start) else .error .outsideBwp

def commonCandidateCrbs (bwpCrbs : RbInterval) (csCfg : CoresetConfiguration) (pci : UInt16)
    (aggrLvl : AggregationLevel) (ncce : Nat) : Except PdcchFault (List Nat) := do
  (← cceToPrbMapping bwpCrbs.start csCfg pci aggrLvl ncce).mapM (crbToPrb bwpCrbs)

def ueCandidateCrbs (bwpCrbs : RbInterval) (csCfg : CoresetConfiguration) (pci : UInt16)
    (aggrLvl : AggregationLevel) (ncce : Nat) : Except PdcchFault (List Nat) := do
  (← cceToPrbMapping bwpCrbs.start csCfg pci aggrLvl ncce).mapM (prbToCrb bwpCrbs)

/-- Where the RBs of the CORESET are counted from: the start of CORESET#0 or of the BWP. -/
def rbStart (bwpCrbs : RbInterval) (csCfg : CoresetConfiguration) : Nat :=
  if csCfg.id = 0 then csCfg.coreset0Rbs.start else bwpCrbs.start

def candidatePrbs (csCfg : CoresetConfiguration) (pci : UInt16) (aggrLvl : AggregationLevel) (ncce : Nat) :
    Except PdcchFault (List Nat) :=
  cceToPrbMapping 0 { csCfg with coreset0Rbs := csCfg.coreset0Rbs.displaceTo 0 } pci aggrLvl ncce

/-- The PDCCH reserves the PRBs of the candidate, translated to CRBs, and nothing else. -/
def ReservesMapped (bwpCrbs : RbInterval) (csCfg : CoresetConfiguration) (pci : UInt16) (aggrLvl : AggregationLevel)
    (ncce : Nat) (candidateCrbs : Except PdcchFault (List Nat)) : Prop :=
  ∃ crbs prbs, candidateCrbs = .ok crbs ∧ candidatePrbs csCfg pci aggrLvl ncce = .ok prbs ∧
    ∀ record : AllocRecord, record.duration = csCfg.duration → ∀ grid grid',
      allocateCce grid record ⟨ncce, crbs⟩ = some grid' → ∀ resource, resource ∈ grid' ↔
        resource ∈ grid ∨ (resource.scs = record.scs ∧ resource.symbol < csCfg.duration ∧
          ∃ prb ∈ prbs, resource.crb = rbStart bwpCrbs csCfg + prb)

theorem mem_resources {record : AllocRecord} {candidate : PdcchCandidate} {resource : GridResource} :
    resource ∈ record.resources candidate ↔
      resource.scs = record.scs ∧ resource.symbol < record.duration ∧ resource.crb ∈ candidate.crbs := by
  obtain ⟨scs, symbol, crb⟩ := resource
  simp only [AllocRecord.resources, List.mem_toFinset, List.mem_flatMap, List.mem_range, List.mem_map,
    GridResource.mk.injEq]
  constructor
  · rintro ⟨symbol', hsymbol, crb', hcrb, rfl, rfl, rfl⟩
    exact ⟨rfl, hsymbol, hcrb⟩
  · rintro ⟨rfl, hsymbol, hcrb⟩
    exact ⟨symbol, hsymbol, crb, hcrb, rfl, rfl, rfl⟩

variable {crbs : List Nat} {aggrLvl : AggregationLevel} {ncce : Nat}

theorem reservesMapped_iff {bwpCrbs : RbInterval} {csCfg : CoresetConfiguration} {pci : UInt16} {prbs : List Nat}
    (hduration : 0 < csCfg.duration)
    (hprbs : candidatePrbs csCfg pci aggrLvl ncce = .ok prbs) :
    ReservesMapped bwpCrbs csCfg pci aggrLvl ncce (.ok crbs) ↔
      ∀ crb, crb ∈ crbs ↔ ∃ prb ∈ prbs, crb = rbStart bwpCrbs csCfg + prb := by
  constructor
  · rintro ⟨crbs', prbs', hcrbs, hprbs', hreserves⟩ crb
    cases hcrbs
    cases hprbs.symm.trans hprbs'
    have hgrid : allocateCce ∅ ⟨⟨true, 0⟩, 0, csCfg.duration, []⟩ ⟨ncce, crbs⟩ =
        some (∅ ∪ AllocRecord.resources ⟨⟨true, 0⟩, 0, csCfg.duration, []⟩ ⟨ncce, crbs⟩) := by
      simp [allocateCce]
    have hresource := hreserves _ rfl _ _ hgrid ⟨0, 0, crb⟩
    simpa [mem_resources, hduration] using hresource
  · intro hall
    refine ⟨crbs, prbs, rfl, hprbs, fun record hrecord grid grid' hgrid resource => ?_⟩
    rw [(allocateCce_eq_some.mp hgrid).2, Finset.mem_union, mem_resources, hrecord, hall]

section Mapping
variable {csCfg : CoresetConfiguration}

def atZero (csCfg : CoresetConfiguration) : CoresetConfiguration :=
  { csCfg with coreset0Rbs := csCfg.coreset0Rbs.displaceTo 0 }

theorem getCoresetNofPrbs_atZero (csCfg : CoresetConfiguration) :
    (atZero csCfg).getCoresetNofPrbs = csCfg.getCoresetNofPrbs := by
  rw [getCoresetNofPrbs, getCoresetNofPrbs]
  simp only [atZero, RbInterval.displaceTo, RbInterval.length_ofLength]

theorem admitted_atZero (h : csCfg.Admitted) : (atZero csCfg).Admitted := by
  have hregs : (atZero csCfg).nofRegs = csCfg.nofRegs := by
    rw [nofRegs, getCoresetNofPrbs_atZero]
    rfl
  refine ⟨h.duration_pos, h.duration_le, ?_, ?_, ?_⟩
  · rw [getCoresetNofPrbs_atZero]
    exact h.nonempty
  · rw [hregs]
    exact h.coreset0
  · rw [hregs]
    exact h.interleaved

/-- The CRBs of the CORESET are those of the CORESET at RB 0, translated. -/
theorem getD_crbs (bwpCrbs : RbInterval) {rb : Nat} (hrb : rb < csCfg.getCoresetNofPrbs) :
    (csCfg.crbs bwpCrbs.start).getD rb 0 = rbStart bwpCrbs csCfg + ((atZero csCfg).crbs 0).getD rb 0 := by
  have hmap : csCfg.crbs bwpCrbs.start = ((atZero csCfg).crbs 0).map (rbStart bwpCrbs csCfg + ·) := by
    rw [crbs, crbs, rbStart]
    by_cases hid : csCfg.id = 0
    · rw [if_pos hid, if_pos hid, if_pos (show (atZero csCfg).id = 0 from hid), List.map_add_range']
      simp only [atZero, RbInterval.displaceTo, RbInterval.length_ofLength]
      rfl
    · rw [if_neg hid, if_neg hid, if_neg (show ¬ (atZero csCfg).id = 0 from hid), freqResourceRbs, freqResourceRbs,
        List.map_flatMap]
      congr 1
      funext f
      rw [List.map_add_range', Nat.add_comm bwpCrbs.start, Nat.add_zero]
  have hlength : rb < ((atZero csCfg).crbs 0).length := by
    rw [length_crbs, getCoresetNofPrbs_atZero]
    exact hrb
  rw [hmap, List.getD_eq_getElem _ _ (by rwa [List.length_map]), List.getElem_map, List.getD_eq_getElem _ _ hlength]

/-- The mapping of a candidate gives its PRBs translated to CRBs. -/
theorem cceToPrbMapping_eq (h : csCfg.Admitted) (bwpCrbs : RbInterval) (pci : UInt16) (hle : ncce + aggrLvl.toNofCces ≤ csCfg.getNofCces) :
    ∃ prbs, 0 < prbs.length ∧ candidatePrbs csCfg pci aggrLvl ncce = .ok prbs ∧
      cceToPrbMapping bwpCrbs.start csCfg pci aggrLvl ncce = .ok (prbs.map (rbStart bwpCrbs csCfg + ·)) ∧
      ∀ prb ∈ prbs, rbStart bwpCrbs csCfg + prb ∈ csCfg.crbs bwpCrbs.start := by
  obtain ⟨cceOf, -, hcandidates⟩ := h.candidates pci
  obtain ⟨regs, rbs, hregs, hcandidate⟩ := hcandidates aggrLvl.toNofCces ncce hle
  have hlength : 0 < rbs.length := length_pos_of_isCandidate hcandidate
  have hzero : (atZero csCfg).cceToReg pci aggrLvl.toNofCces ncce = .ok regs := by
    rw [← hregs, cceToReg, cceToReg, getCoresetNofPrbs_atZero]
    rfl
  have hbounds (rb : Nat) (hrb : rb ∈ rbs) : rb < csCfg.getCoresetNofPrbs := ((hcandidate.mem_iff rb).mp hrb).1
  refine ⟨rbs.map fun rb => ((atZero csCfg).crbs 0).getD rb 0, by rwa [List.length_map], ?_, ?_, ?_⟩
  · exact (admitted_atZero h).cceToPrbMapping_ok 0 hzero
      ((getCoresetNofPrbs_atZero csCfg).symm ▸ hcandidate)
  · rw [h.cceToPrbMapping_ok _ hregs hcandidate, List.map_map]
    exact congrArg Except.ok (List.map_congr_left fun rb hrb => getD_crbs bwpCrbs (hbounds rb hrb))
  · intro prb hprb
    obtain ⟨rb, hrb, rfl⟩ := List.mem_map.mp hprb
    have hlt := hbounds rb hrb
    rw [← getD_crbs bwpCrbs hlt, List.getD_eq_getElem _ _ (by rwa [length_crbs])]
    exact List.getElem_mem _

end Mapping

/-! Translating a set of CRBs once more moves it. -/

theorem exists_greatest (h : 0 < crbs.length) : ∃ last ∈ crbs, ∀ crb ∈ crbs, crb ≤ last := by
  obtain ⟨last, hlast⟩ := Option.isSome_iff_exists.mp (List.isSome_max?_of_ne_nil (List.ne_nil_of_length_pos h))
  rw [List.max?_eq_some_iff] at hlast
  exact ⟨last, hlast⟩

theorem mem_map_sub_iff (h : 0 < crbs.length) {start : Nat} (hstart : ∀ crb ∈ crbs, start ≤ crb) :
    (∀ crb, crb ∈ crbs.map (· - start) ↔ crb ∈ crbs) ↔ start = 0 := by
  constructor
  · intro hsame
    obtain ⟨last, hmem, hlast⟩ := exists_greatest h
    obtain ⟨crb, hcrb, hsub⟩ := List.mem_map.mp ((hsame last).mpr hmem)
    have hle := hlast crb hcrb
    have hge := hstart crb hcrb
    omega
  · rintro rfl crb
    simp

theorem mem_map_add_iff (h : 0 < crbs.length) {start : Nat} :
    (∀ crb, crb ∈ crbs.map (· + start) ↔ crb ∈ crbs) ↔ start = 0 := by
  constructor
  · intro hsame
    obtain ⟨last, hmem, hlast⟩ := exists_greatest h
    have hle := hlast _ ((hsame (last + start)).mp (List.mem_map.mpr ⟨last, hmem, rfl⟩))
    omega
  · rintro rfl crb
    simp

theorem mem_map_rbStart {bwpCrbs : RbInterval} {csCfg : CoresetConfiguration} {prbs : List Nat} {crb : Nat} :
    crb ∈ prbs.map (rbStart bwpCrbs csCfg + ·) ↔ ∃ prb ∈ prbs, crb = rbStart bwpCrbs csCfg + prb := by
  rw [List.mem_map]
  exact exists_congr fun prb => and_congr_right fun _ => eq_comm

section Candidates
variable {csCfg : CoresetConfiguration} {bwpCrbs : RbInterval}

/-- A common search space reserves the CRBs of its candidates if and only if the BWP starts at CRB 0. -/
theorem common_reservesMapped_iff (h : csCfg.Admitted) (hbwp : ∀ crb ∈ csCfg.crbs bwpCrbs.start, bwpCrbs.Holds crb)
    (pci : UInt16) (hle : ncce + aggrLvl.toNofCces ≤ csCfg.getNofCces) :
    ReservesMapped bwpCrbs csCfg pci aggrLvl ncce (commonCandidateCrbs bwpCrbs csCfg pci aggrLvl ncce) ↔
      bwpCrbs.start = 0 := by
  obtain ⟨prbs, hlength, hprbs, hmapping, hcrbs⟩ := cceToPrbMapping_eq h bwpCrbs pci hle
  have hholds : ∀ crb ∈ prbs.map (rbStart bwpCrbs csCfg + ·), bwpCrbs.Holds crb := by
    intro crb hcrb
    obtain ⟨prb, hprb, rfl⟩ := List.mem_map.mp hcrb
    exact hbwp _ (hcrbs prb hprb)
  have hcommon : commonCandidateCrbs bwpCrbs csCfg pci aggrLvl ncce =
      .ok ((prbs.map (rbStart bwpCrbs csCfg + ·)).map (· - bwpCrbs.start)) := by
    rw [commonCandidateCrbs, hmapping, ok_bind]
    exact mapM_of_ok fun crb hcrb => if_pos (.inl (hholds crb hcrb))
  rw [hcommon, reservesMapped_iff h.duration_pos hprbs]
  simp only [← mem_map_rbStart]
  exact mem_map_sub_iff (by rwa [List.length_map]) fun crb hcrb => (hholds crb hcrb).1

/-- A search space of a UE reserves the CRBs of its candidates if and only if the BWP starts at CRB 0. -/
theorem ue_reservesMapped_iff (h : csCfg.Admitted) (hbwp : ∀ crb ∈ csCfg.crbs bwpCrbs.start, bwpCrbs.Holds crb)
    (pci : UInt16) (hle : ncce + aggrLvl.toNofCces ≤ csCfg.getNofCces) :
    ReservesMapped bwpCrbs csCfg pci aggrLvl ncce (ueCandidateCrbs bwpCrbs csCfg pci aggrLvl ncce) ↔
      bwpCrbs.start = 0 := by
  obtain ⟨prbs, hlength, hprbs, hmapping, hcrbs⟩ := cceToPrbMapping_eq h bwpCrbs pci hle
  have hiff (crbs : List Nat) (heq : crbs = (prbs.map (rbStart bwpCrbs csCfg + ·)).map (· + bwpCrbs.start)) :
      ReservesMapped bwpCrbs csCfg pci aggrLvl ncce (.ok crbs) ↔ bwpCrbs.start = 0 := by
    rw [heq, reservesMapped_iff h.duration_pos hprbs]
    simp only [← mem_map_rbStart]
    exact mem_map_add_iff (by rwa [List.length_map])
  rw [ueCandidateCrbs, hmapping, ok_bind]
  constructor
  · intro hreserves
    obtain ⟨crbs, -, hok, -⟩ := id hreserves
    rw [hok] at hreserves
    refine (hiff crbs (eq_map_of_mapM hok fun crb crb' hcrb => ?_)).mp hreserves
    rw [prbToCrb] at hcrb
    split at hcrb
    · exact (Except.ok.inj hcrb).symm
    · cases hcrb
  · intro hstart
    have hok : (prbs.map (rbStart bwpCrbs csCfg + ·)).mapM (prbToCrb bwpCrbs) =
        .ok ((prbs.map (rbStart bwpCrbs csCfg + ·)).map (· + bwpCrbs.start)) := by
      refine mapM_of_ok fun crb hcrb => if_pos ?_
      obtain ⟨prb, hprb, rfl⟩ := List.mem_map.mp hcrb
      have hholds := hbwp _ (hcrbs prb hprb)
      rw [RbInterval.length]
      exact Nat.le_sub_of_add_le (by rw [hstart]; exact Nat.le_of_lt hholds.2)
    rw [hok]
    exact (hiff _ rfl).mpr hstart

/-- The CCEs share out the CORESET, and the candidates of both kinds of search spaces reserve their CRBs if and only
if the BWP starts at CRB 0. -/
theorem candidates_reserve_mapped (h : csCfg.Admitted)
    (hbwp : ∀ crb ∈ csCfg.crbs bwpCrbs.start, bwpCrbs.Holds crb) (pci : UInt16) :
    csCfg.MapsCces bwpCrbs.start pci ∧
      ∀ aggrLvl ncce, ncce + aggrLvl.toNofCces ≤ csCfg.getNofCces →
        (ReservesMapped bwpCrbs csCfg pci aggrLvl ncce (commonCandidateCrbs bwpCrbs csCfg pci aggrLvl ncce) ↔
          bwpCrbs.start = 0) ∧
        (ReservesMapped bwpCrbs csCfg pci aggrLvl ncce (ueCandidateCrbs bwpCrbs csCfg pci aggrLvl ncce) ↔
          bwpCrbs.start = 0) :=
  ⟨h.mapsCces bwpCrbs.start pci, fun _ _ hle =>
    ⟨common_reservesMapped_iff h hbwp pci hle, ue_reservesMapped_iff h hbwp pci hle⟩⟩

end Candidates

def coresetOf48Rbs : CoresetConfiguration where
  id := 1
  duration := 1
  interleaved := none
  coreset0Rbs := .empty
  otherCoresetFreqResources := ⟨45, fun i => i < 8, by decide, fun i hi => by simp; omega⟩

/-- A BWP of 48 RBs from CRB 0. -/
theorem candidates_reserve_mapped_bwpAt0 : coresetOf48Rbs.MapsCces 0 1 ∧
    ReservesMapped ⟨0, 48, by decide⟩ coresetOf48Rbs 1 .n4 4
      (ueCandidateCrbs ⟨0, 48, by decide⟩ coresetOf48Rbs 1 .n4 4) := by
  have hadmitted : coresetOf48Rbs.Admitted := ⟨by decide, by decide, by decide +kernel, nofun, fun _ => nofun⟩
  have hbwp : ∀ crb ∈ coresetOf48Rbs.crbs 0, RbInterval.Holds ⟨0, 48, by decide⟩ crb := by
    have hall : (coresetOf48Rbs.crbs 0).all (fun crb => crb < 48) = true := by decide +kernel
    intro crb hcrb
    exact ⟨Nat.zero_le _, of_decide_eq_true (List.all_eq_true.mp hall crb hcrb)⟩
  have hall := @candidates_reserve_mapped coresetOf48Rbs ⟨0, 48, by decide⟩ hadmitted hbwp 1
  exact ⟨hall.1, (hall.2 .n4 4 (by decide +kernel)).2.mpr rfl⟩

/-- In a BWP from CRB 6, the first candidate has the PRBs 0 to 5 of the BWP. A common search space reserves the CRBs 0
to 5 for it, and a search space of a UE the CRBs 12 to 17, in place of the CRBs 6 to 11. -/
theorem candidate_reserves_other_crbs :
    (candidatePrbs coresetOf48Rbs 1 .n1 0).toOption = some [0, 1, 2, 3, 4, 5] ∧
      (commonCandidateCrbs ⟨6, 54, by decide⟩ coresetOf48Rbs 1 .n1 0).toOption = some [0, 1, 2, 3, 4, 5] ∧
      (ueCandidateCrbs ⟨6, 54, by decide⟩ coresetOf48Rbs 1 .n1 0).toOption = some [12, 13, 14, 15, 16, 17] ∧
      ¬ ReservesMapped ⟨6, 54, by decide⟩ coresetOf48Rbs 1 .n1 0
        (commonCandidateCrbs ⟨6, 54, by decide⟩ coresetOf48Rbs 1 .n1 0) := by
  have hprbs : (candidatePrbs coresetOf48Rbs 1 .n1 0).toOption = some [0, 1, 2, 3, 4, 5] := by decide +kernel
  have hcommon : (commonCandidateCrbs ⟨6, 54, by decide⟩ coresetOf48Rbs 1 .n1 0).toOption = some [0, 1, 2, 3, 4, 5] := by
    decide +kernel
  refine ⟨hprbs, hcommon, by decide +kernel, ?_⟩
  rw [toOption_eq_some hcommon, reservesMapped_iff (by decide) (toOption_eq_some hprbs)]
  intro hall
  obtain ⟨prb, -, hcrb⟩ := (hall 0).mp List.mem_cons_self
  have hstart : rbStart ⟨6, 54, by decide⟩ coresetOf48Rbs = 6 := rfl
  omega

end Srsran.Scheduler
