import Mathlib.Data.List.GetD
import Mathlib.Data.Set.Function
import Mathlib.Order.Interval.Set.Defs
import Srsran.Ran.CceToPrbMapping

/-! The CCEs of a CORESET share it out. -/
namespace Srsran.Ran.Pdcch
open Srsran.Adt Scheduler Checked
namespace CoresetConfiguration
variable (csCfg : CoresetConfiguration)

/-- The CRBs of the CORESET, for a BWP that starts at `bwpStart`. -/
def crbs (bwpStart : Nat) : List Nat :=
  if csCfg.id = 0 then List.range' csCfg.coreset0Rbs.start csCfg.coreset0Rbs.length
  else freqResourceRbs bwpStart csCfg.otherCoresetFreqResources

def interleaver (pci : UInt16) : Option (Nat × Nat × Nat) :=
  if csCfg.id = 0 then some (6, 2, pci.toNat)
  else csCfg.interleaved.map fun interleaved =>
    (interleaved.regBundleSz, interleaved.interleaverSz, interleaved.shiftIndex)

def nofRegs : Nat := csCfg.getCoresetNofPrbs * csCfg.duration

def cceToReg (pci : UInt16) (aggregationLevel cceIndex : Nat) : Except PdcchFault (List Nat) :=
  match csCfg.interleaver pci with
  | some (regBundleSize, interleaverSize, shiftIndex) =>
    cceToRegMappingInterleaved csCfg.getCoresetNofPrbs csCfg.duration regBundleSize interleaverSize shiftIndex
      aggregationLevel cceIndex
  | none => .ok (cceToRegMappingNonInterleaved aggregationLevel cceIndex)

/-- The configurations that the assertions of the mapping admit. -/
structure Admitted (csCfg : CoresetConfiguration) : Prop where
  duration_pos : 0 < csCfg.duration
  duration_le : csCfg.duration ≤ 3
  nonempty : 0 < csCfg.getCoresetNofPrbs
  coreset0 : csCfg.id = 0 → csCfg.nofRegs % (6 * 2) = 0
  interleaved : csCfg.id ≠ 0 → ∀ interleaved, csCfg.interleaved = some interleaved →
    csCfg.nofRegs % (interleaved.regBundleSz * interleaved.interleaverSz) = 0 ∧
      interleaved.regBundleSz % csCfg.duration = 0

variable {csCfg}

theorem Admitted.six_mod_duration (h : csCfg.Admitted) : nofRegPerCce % csCfg.duration = 0 := by
  have hpos := h.duration_pos
  have hle := h.duration_le
  have hcases : csCfg.duration = 1 ∨ csCfg.duration = 2 ∨ csCfg.duration = 3 := by omega
  rcases hcases with hd | hd | hd <;> rw [hd] <;> decide

theorem getCoresetNofPrbs_of_ne (hid : csCfg.id ≠ 0) :
    csCfg.getCoresetNofPrbs = csCfg.otherCoresetFreqResources.setBits.length * nofRbPerFreqResource := if_neg hid

theorem Admitted.nofRegs_eq (h : csCfg.Admitted) : csCfg.nofRegs = nofRegPerCce * csCfg.getNofCces := by
  have hdvd : nofRegPerCce ∣ csCfg.nofRegs := by
    by_cases hid : csCfg.id = 0
    · exact Nat.dvd_trans (by decide) (Nat.dvd_of_mod_eq_zero (h.coreset0 hid))
    · rw [nofRegs, getCoresetNofPrbs_of_ne hid]
      exact Nat.dvd_mul_right_of_dvd (Nat.dvd_mul_left _ _) _
  exact (Nat.mul_div_cancel' hdvd).symm

variable {pci : UInt16}

theorem Admitted.interleaver_valid (h : csCfg.Admitted) {l r shift : Nat}
    (hinterleaver : csCfg.interleaver pci = some (l, r, shift)) :
    l ∈ [2, 3, 6] ∧ csCfg.nofRegs % (l * r) = 0 ∧ l % csCfg.duration = 0 := by
  rw [interleaver] at hinterleaver
  split at hinterleaver
  · rename_i hid
    cases hinterleaver
    exact ⟨by decide, h.coreset0 hid, h.six_mod_duration⟩
  · rename_i hid
    obtain ⟨interleaved, hsome, heq⟩ := Option.map_eq_some_iff.mp hinterleaver
    cases heq
    exact ⟨interleaved.regBundleSz_mem, h.interleaved hid interleaved hsome⟩

/-- Every RB belongs to one CCE, and ranges of CCEs have the RBs that belong to them. -/
theorem Admitted.candidates (h : csCfg.Admitted) (pci : UInt16) : ∃ cceOf : Nat → Nat,
    (∀ rb < csCfg.getCoresetNofPrbs, cceOf rb < csCfg.getNofCces) ∧
      ∀ aggregationLevel cceIndex, cceIndex + aggregationLevel ≤ csCfg.getNofCces →
        ∃ regs rbs, csCfg.cceToReg pci aggregationLevel cceIndex = .ok regs ∧
          IsCandidate csCfg.duration csCfg.getCoresetNofPrbs cceOf aggregationLevel cceIndex regs rbs := by
  have hregs := h.nofRegs_eq
  rw [nofRegs] at hregs
  cases hinterleaver : csCfg.interleaver pci with
  | some params =>
    obtain ⟨l, r, shift⟩ := params
    obtain ⟨hl, hrows, hwhole⟩ := h.interleaver_valid hinterleaver
    obtain ⟨i, hnofRbs, hduration, hsize, hr, hshift⟩ :=
      RegInterleaver.exists_of_params shift hl h.duration_pos h.nonempty hrows hwhole
    rw [← hnofRbs, ← hduration] at hregs ⊢
    refine ⟨i.cceOf, fun rb hrb => i.cceOf_lt hregs hrb, fun aggregationLevel cceIndex hle => ?_⟩
    have hbundles : (cceIndex + aggregationLevel) * i.bundlesOfCce ≤ i.count := by
      rw [i.count_eq hregs]
      exact Nat.mul_le_mul_right _ hle
    obtain ⟨regs, hok, hcandidate⟩ := i.cceToRegMappingInterleaved_ok hbundles
    refine ⟨regs, _, ?_, hcandidate⟩
    rw [cceToReg, hinterleaver, ← hok, hsize, hr, hshift, hnofRbs, hduration]
  | none =>
    have hcce := Nat.div_mul_cancel (Nat.dvd_of_mod_eq_zero h.six_mod_duration)
    have hrbs : csCfg.getCoresetNofPrbs = csCfg.getNofCces * (nofRegPerCce / csCfg.duration) := by
      rw [← hcce, Nat.mul_comm _ csCfg.getNofCces, ← Nat.mul_assoc] at hregs
      exact Nat.eq_of_mul_eq_mul_right h.duration_pos hregs
    have hpos : 0 < nofRegPerCce / csCfg.duration :=
      Nat.pos_of_mul_pos_right (hcce.symm ▸ (by decide : 0 < nofRegPerCce))
    refine ⟨(· / (nofRegPerCce / csCfg.duration)), fun rb hrb => ?_, fun aggregationLevel cceIndex hle => ?_⟩
    · rw [Nat.div_lt_iff_lt_mul hpos, ← hrbs]
      exact hrb
    · refine ⟨_, _, by rw [cceToReg, hinterleaver], nonInterleaved_isCandidate hcce ?_⟩
      rw [hrbs]
      exact Nat.mul_le_mul_right _ hle

variable (bwpStart : Nat)

theorem length_freqResourceRbs (freqResources : FreqResourceBitmap) :
    (freqResourceRbs bwpStart freqResources).length = freqResources.setBits.length * nofRbPerFreqResource := by
  rw [freqResourceRbs, List.length_flatMap]
  simp only [List.length_range', List.map_const']
  rw [List.sum_replicate_nat]

theorem nodup_freqResourceRbs (freqResources : FreqResourceBitmap) :
    (freqResourceRbs bwpStart freqResources).Nodup := by
  rw [freqResourceRbs, List.nodup_flatMap]
  refine ⟨fun _ _ => List.nodup_range', (List.nodup_range.filter _).imp fun {f f'} hne => ?_⟩
  intro crb hcrb hcrb'
  rw [List.mem_range'_1, nofRbPerFreqResource] at hcrb hcrb'
  omega

theorem length_crbs : (csCfg.crbs bwpStart).length = csCfg.getCoresetNofPrbs := by
  rw [crbs, getCoresetNofPrbs]
  split
  · exact List.length_range'
  · exact length_freqResourceRbs _ _

theorem nodup_crbs : (csCfg.crbs bwpStart).Nodup := by
  rw [crbs]
  split
  · exact List.nodup_range'
  · exact nodup_freqResourceRbs _ _

theorem length_pos_of_isCandidate {aggrLvl : AggregationLevel} {ncce : Nat} {cceOf : Nat → Nat} {regs rbs : List Nat}
    (h : IsCandidate csCfg.duration csCfg.getCoresetNofPrbs cceOf aggrLvl.toNofCces ncce regs rbs) :
    0 < rbs.length := by
  have hlevel : 0 < nofRegPerCce * aggrLvl.toNofCces := by cases aggrLvl <;> decide
  rw [← h.length_eq, h.regs_eq, length_flatMap_regsOfRb] at hlevel
  exact Nat.pos_of_mul_pos_right hlevel

theorem Admitted.cceToPrbMapping_ok (h : csCfg.Admitted) {aggrLvl : AggregationLevel} {ncce : Nat}
    {cceOf : Nat → Nat} {regs rbs : List Nat} (bwpStart : Nat)
    (hregs : csCfg.cceToReg pci aggrLvl.toNofCces ncce = .ok regs)
    (hcandidate : IsCandidate csCfg.duration csCfg.getCoresetNofPrbs cceOf aggrLvl.toNofCces ncce regs rbs) :
    cceToPrbMapping bwpStart csCfg pci aggrLvl ncce = .ok (rbs.map fun rb => (csCfg.crbs bwpStart).getD rb 0) := by
  have hlength := length_pos_of_isCandidate hcandidate
  have hbounds (rb : Nat) (hrb : rb ∈ rbs) : rb < (csCfg.crbs bwpStart).length := by
    rw [length_crbs]
    exact ((hcandidate.mem_iff rb).mp hrb).1
  rw [cceToReg, interleaver] at hregs
  rw [cceToPrbMapping]
  rw [crbs] at hbounds ⊢
  split
  · rename_i hid
    rw [if_pos hid] at hregs hbounds
    rw [cceToPrbMappingCoreset0, show cceToRegMappingInterleaved _ _ 6 2 _ _ _ = _ from hregs, ok_bind, hcandidate.regs_eq,
      regToPrbMappingCoreset0_ok _ h.duration_pos]
    refine congrArg Except.ok (List.map_congr_left fun rb hrb => ?_)
    have hlt := hbounds rb hrb
    rw [List.length_range'] at hlt
    rw [List.getD_eq_getElem?_getD, List.getElem?_range' hlt, Nat.one_mul, Option.getD_some, Nat.add_comm]
  · rename_i hid
    rw [if_neg hid] at hregs hbounds
    have hother := regToPrbMappingOther_ok h.duration_pos hcandidate.sorted hlength bwpStart _ hbounds
    rw [← hcandidate.regs_eq] at hother
    cases hinterleaved : csCfg.interleaved with
    | some interleaved =>
      rw [hinterleaved, getCoresetNofPrbs_of_ne hid] at hregs
      dsimp only
      rw [cceToPrbMappingInterleaved]
      have hregs' : cceToRegMappingInterleaved (csCfg.otherCoresetFreqResources.setBits.length * 6) csCfg.duration
          interleaved.regBundleSz interleaved.interleaverSz interleaved.shiftIndex aggrLvl.toNofCces ncce =
            .ok regs := hregs
      rw [hregs', ok_bind, hother]
    | none =>
      rw [hinterleaved] at hregs
      cases hregs
      exact hother

/-- The interleaver is a bijection, every CCE is 6 REGs of the CORESET, and the CCEs share out its CRBs. -/
structure MapsCces (csCfg : CoresetConfiguration) (bwpStart : Nat) (pci : UInt16) : Prop where
  bijective : ∀ l r shift, csCfg.interleaver pci = some (l, r, shift) →
    Set.BijOn (dstRegBundleIndex csCfg.nofRegs l r shift) (Set.Iio (csCfg.nofRegs / l)) (Set.Iio (csCfg.nofRegs / l))
  regs : ∀ cce < csCfg.getNofCces, ∃ regs, csCfg.cceToReg pci 1 cce = .ok regs ∧ regs.length = nofRegPerCce ∧
    regs.Nodup ∧ ∀ reg ∈ regs, reg < csCfg.nofRegs
  mapped : ∀ cce < csCfg.getNofCces, ∃ crbs, cceToPrbMapping bwpStart csCfg pci .n1 cce = .ok crbs
  disjoint : ∀ cce < csCfg.getNofCces, ∀ cce' < csCfg.getNofCces, cce ≠ cce' → ∀ crbs crbs',
    cceToPrbMapping bwpStart csCfg pci .n1 cce = .ok crbs → cceToPrbMapping bwpStart csCfg pci .n1 cce' = .ok crbs' →
    crbs.Disjoint crbs'
  union : ∀ crb, crb ∈ csCfg.crbs bwpStart ↔
    ∃ cce < csCfg.getNofCces, ∃ crbs, cceToPrbMapping bwpStart csCfg pci .n1 cce = .ok crbs ∧ crb ∈ crbs

theorem Admitted.bijective (h : csCfg.Admitted) {l r shift : Nat}
    (hinterleaver : csCfg.interleaver pci = some (l, r, shift)) :
    Set.BijOn (dstRegBundleIndex csCfg.nofRegs l r shift) (Set.Iio (csCfg.nofRegs / l))
      (Set.Iio (csCfg.nofRegs / l)) := by
  obtain ⟨hl, hrows, hwhole⟩ := h.interleaver_valid hinterleaver
  obtain ⟨i, hnofRbs, hduration, rfl, rfl, rfl⟩ :=
    RegInterleaver.exists_of_params shift hl h.duration_pos h.nonempty hrows hwhole
  rw [nofRegs, ← hnofRbs, ← hduration]
  have hcount : i.nofRbs * i.duration / i.bundleSize = i.count := by
    rw [i.nofRegs_eq, Nat.mul_div_cancel_left _ i.bundleSize_pos]
    rfl
  rw [hcount, funext i.dstRegBundleIndex_eq]
  refine ⟨fun x hx => RegInterleaver.place_lt hx, fun x hx x' hx' heq => ?_, fun y hy => ?_⟩
  · rw [← RegInterleaver.bundleAt_place hx, heq, RegInterleaver.bundleAt_place hx']
  · exact ⟨i.bundleAt y, RegInterleaver.bundleAt_lt hy, RegInterleaver.place_bundleAt hy⟩

theorem getD_crbs_inj {bwpStart rb rb' : Nat} (hrb : rb < csCfg.getCoresetNofPrbs)
    (hrb' : rb' < csCfg.getCoresetNofPrbs)
    (heq : (csCfg.crbs bwpStart).getD rb 0 = (csCfg.crbs bwpStart).getD rb' 0) : rb = rb' := by
  rw [← length_crbs bwpStart] at hrb hrb'
  rw [List.getD_eq_getElem _ _ hrb, List.getD_eq_getElem _ _ hrb'] at heq
  exact (nodup_crbs bwpStart).getElem_inj_iff.mp heq

theorem Admitted.mapsCces (h : csCfg.Admitted) (bwpStart : Nat) (pci : UInt16) : MapsCces csCfg bwpStart pci := by
  obtain ⟨cceOf, hcceOf, hcandidates⟩ := h.candidates pci
  have hcce (cce : Nat) (hlt : cce < csCfg.getNofCces) : ∃ regs rbs, csCfg.cceToReg pci 1 cce = .ok regs ∧
      IsCandidate csCfg.duration csCfg.getCoresetNofPrbs cceOf 1 cce regs rbs ∧
      cceToPrbMapping bwpStart csCfg pci .n1 cce = .ok (rbs.map fun rb => (csCfg.crbs bwpStart).getD rb 0) := by
    obtain ⟨regs, rbs, hregs, hcandidate⟩ := hcandidates 1 cce hlt
    exact ⟨regs, rbs, hregs, hcandidate, h.cceToPrbMapping_ok bwpStart hregs hcandidate⟩
  refine ⟨fun l r shift => h.bijective, fun cce hlt => ?_, fun cce hlt => ?_, ?_, fun crb => ?_⟩
  · obtain ⟨regs, rbs, hregs, hcandidate, -⟩ := hcce cce hlt
    have hsorted := @pairwise_flatMap_regsOfRb csCfg.duration _ hcandidate.sorted
    rw [← hcandidate.regs_eq] at hsorted
    refine ⟨regs, hregs, hcandidate.length_eq, hsorted.imp fun hlt => Nat.ne_of_lt hlt, fun reg hreg => ?_⟩
    rw [hcandidate.regs_eq] at hreg
    obtain ⟨rb, hrb, hreg⟩ := List.mem_flatMap.mp hreg
    rw [regsOfRb, List.mem_range'_1, ← Nat.succ_mul] at hreg
    exact Nat.lt_of_lt_of_le hreg.2 (Nat.mul_le_mul_right _ ((hcandidate.mem_iff rb).mp hrb).1)
  · obtain ⟨regs, rbs, -, -, hmapping⟩ := hcce cce hlt
    exact ⟨_, hmapping⟩
  · intro cce hlt cce' hlt' hne crbs crbs' hcrbs hcrbs' crb hcrb hcrb'
    obtain ⟨_, rbs, -, hcandidate, hmapping⟩ := hcce cce hlt
    obtain ⟨_, rbs', -, hcandidate', hmapping'⟩ := hcce cce' hlt'
    cases hcrbs.symm.trans hmapping
    cases hcrbs'.symm.trans hmapping'
    obtain ⟨rb, hrb, rfl⟩ := List.mem_map.mp hcrb
    obtain ⟨rb', hrb', heq⟩ := List.mem_map.mp hcrb'
    obtain ⟨hrbLt, hrbCce, hrbCce'⟩ := (hcandidate.mem_iff rb).mp hrb
    obtain ⟨hrbLt', hrb'Cce, hrb'Cce'⟩ := (hcandidate'.mem_iff rb').mp hrb'
    have hsame := getD_crbs_inj hrbLt' hrbLt heq
    subst hsame
    omega
  · constructor
    · intro hcrb
      obtain ⟨rb, hrb, rfl⟩ := List.mem_iff_getElem.mp hcrb
      rw [length_crbs] at hrb
      have hlt := hcceOf rb hrb
      obtain ⟨_, rbs, -, hcandidate, hmapping⟩ := hcce (cceOf rb) hlt
      refine ⟨_, hlt, _, hmapping, List.mem_map.mpr ⟨rb, ?_, List.getD_eq_getElem _ _ _⟩⟩
      exact (hcandidate.mem_iff rb).mpr ⟨hrb, Nat.le_refl _, Nat.lt_succ_self _⟩
    · rintro ⟨cce, hlt, crbs, hcrbs, hcrb⟩
      obtain ⟨_, rbs, -, hcandidate, hmapping⟩ := hcce cce hlt
      cases hcrbs.symm.trans hmapping
      obtain ⟨rb, hrb, rfl⟩ := List.mem_map.mp hcrb
      have hrbLt := ((hcandidate.mem_iff rb).mp hrb).1
      rw [← length_crbs bwpStart] at hrbLt
      rw [List.getD_eq_getElem _ _ hrbLt]
      exact List.getElem_mem hrbLt

end CoresetConfiguration
end Srsran.Ran.Pdcch
