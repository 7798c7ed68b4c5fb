import Mathlib.Data.List.Nodup
import Mathlib.Tactic.Ring
import Srsran.Lib.Interleaver
import Srsran.Ran.CceToPrb

/-! Every RB of a CORESET belongs to one CCE. -/
namespace Srsran.Ran.Pdcch
open Srsran.Adt Scheduler Checked Interleaver

def regsOfRb (duration rb : Nat) : List Nat := List.range' (rb * duration) duration

theorem flatMap_regsOfRb (duration start n : Nat) :
    (List.range' start n).flatMap (regsOfRb duration) = List.range' (start * duration) (n * duration) := by
  induction n generalizing start with
  | zero => simp
  | succ n ih =>
    rw [List.range'_succ, List.flatMap_cons, ih, regsOfRb, Nat.succ_mul, Nat.succ_mul, List.range'_append_1,
      Nat.add_comm duration]

theorem length_flatMap_regsOfRb (duration : Nat) (rbs : List Nat) :
    (rbs.flatMap (regsOfRb duration)).length = rbs.length * duration := by
  induction rbs with
  | nil => simp
  | cons rb rbs ih =>
    rw [List.flatMap_cons, List.length_append, ih, regsOfRb, List.length_range', List.length_cons, Nat.succ_mul,
      Nat.add_comm]

theorem getIndex_regsOfRb {duration : Nat} (hpos : 0 < duration) {rbs : List Nat} {i rb : Nat} (h : rbs[i]? = some rb) :
    getIndex (rbs.flatMap (regsOfRb duration)) (i * duration) = .ok (rb * duration) := by
  have hget : (rbs.flatMap (regsOfRb duration))[i * duration]? = some (rb * duration) := by
    induction rbs generalizing i with
    | nil => cases h
    | cons rb' rbs ih =>
      rw [List.flatMap_cons]
      cases i with
      | zero =>
        cases h
        rw [Nat.zero_mul, List.getElem?_append_left (by rwa [regsOfRb, List.length_range'])]
        rw [regsOfRb, List.getElem?_range' hpos, Nat.mul_zero, Nat.add_zero]
      | succ i =>
        rw [List.getElem?_append_right (by rw [regsOfRb, List.length_range', Nat.succ_mul]; omega)]
        rw [regsOfRb, List.length_range', Nat.succ_mul, Nat.add_sub_cancel]
        exact ih h
  rw [getIndex, hget]

theorem pairwise_flatMap_regsOfRb {duration : Nat} {rbs : List Nat} (h : rbs.Pairwise (· < ·)) :
    (rbs.flatMap (regsOfRb duration)).Pairwise (· < ·) := by
  induction h with
  | nil => exact .nil
  | @cons rb rbs hlt _ ih =>
    rw [List.flatMap_cons, List.pairwise_append]
    refine ⟨List.pairwise_lt_range', ih, fun reg hreg reg' hreg' => ?_⟩
    obtain ⟨rb', hrb', hreg'⟩ := List.mem_flatMap.mp hreg'
    rw [regsOfRb, List.mem_range'_1] at hreg hreg'
    have hmul := Nat.mul_le_mul_right duration (hlt rb' hrb')
    rw [Nat.succ_mul] at hmul
    omega

variable {duration : Nat} {rbs : List Nat}

theorem regToPrbMappingCoreset0_ok (start : Nat) (hpos : 0 < duration) (rbs : List Nat) :
    regToPrbMappingCoreset0 start duration (rbs.flatMap (regsOfRb duration)) = .ok (rbs.map (· + start)) := by
  rw [regToPrbMappingCoreset0, length_flatMap_regsOfRb, if_pos (Nat.mul_mod_left _ _), Nat.mul_div_cancel _ hpos]
  have hindex : ∀ i ∈ List.range rbs.length, (do
      return (← getIndex (rbs.flatMap (regsOfRb duration)) (i * duration)) / duration + start) =
        (Except.ok ((rbs.map (· + start)).getD i 0) : Except PdcchFault Nat) := by
    intro i hi
    rw [List.mem_range] at hi
    have hget := List.getElem?_eq_getElem hi
    rw [getIndex_regsOfRb hpos hget, ok_bind, Nat.mul_div_cancel _ hpos, List.getD_eq_getElem?_getD, List.getElem?_map,
      hget]
    rfl
  rw [mapM_of_ok hindex]
  congr 1
  refine List.ext_getElem (by simp) fun i hi hi' => ?_
  simp at hi
  simp [hi]

/-- The loop from some RB of the CORESET and some RB of the CCEs on. -/
theorem regToPrbLoop_ok (hpos : 0 < duration) (hsorted : rbs.Pairwise (· < ·)) {prbs : List Nat} {k j : Nat}
    {result : List Nat} (hj : j < rbs.length) (hbounds : ∀ rb ∈ rbs.drop j, k ≤ rb ∧ rb < k + prbs.length) :
    regToPrbLoop duration (rbs.flatMap (regsOfRb duration)) prbs (k * duration) (j * duration) result =
      .ok (result ++ (rbs.drop j).map fun rb => prbs.getD (rb - k) 0) := by
  induction prbs generalizing k j result with
  | nil =>
    rw [List.drop_eq_getElem_cons hj, List.forall_mem_cons, List.length_nil] at hbounds
    omega
  | cons prb prbs ih =>
    have hdrop := List.drop_eq_getElem_cons hj
    have hpairwise : (rbs[j] :: rbs.drop (j + 1)).Pairwise (· < ·) := hdrop ▸ hsorted.drop
    have hlater := (List.pairwise_cons.mp hpairwise).1
    rw [regToPrbLoop, getIndex_regsOfRb hpos (List.getElem?_eq_getElem hj), ok_bind]
    rw [hdrop, List.forall_mem_cons] at hbounds
    obtain ⟨hfirst, hrest⟩ := hbounds
    rw [List.length_cons] at hfirst hrest
    have hnext {n : Nat} (hn : k + 1 ≤ n) : (prb :: prbs).getD (n - k) 0 = prbs.getD (n - (k + 1)) 0 := by
      rw [show n - k = n - (k + 1) + 1 by omega, List.getD_cons_succ]
    split
    · rename_i hne
      have hlt : k < rbs[j] := Nat.lt_of_le_of_ne hfirst.1 fun heq => hne (by rw [heq])
      rw [← Nat.succ_mul, ih hj]
      · congr 2
        refine List.map_congr_left fun rb hrb => (hnext ?_).symm
        rw [hdrop, List.mem_cons] at hrb
        rcases hrb with rfl | hrb
        · exact hlt
        · exact Nat.lt_trans hlt (hlater rb hrb)
      · rw [hdrop, List.forall_mem_cons]
        refine ⟨by omega, fun rb hrb => ?_⟩
        have hrb' := hrest rb hrb
        have hlt' := hlater rb hrb
        omega
    · rename_i heq
      rw [not_not] at heq
      have hsame : k = rbs[j] := Nat.eq_of_mul_eq_mul_right hpos heq
      have hprb : (prb :: prbs).getD (rbs[j] - k) 0 = prb := by
        rw [← hsame, Nat.sub_self, List.getD_cons_zero]
      rw [length_flatMap_regsOfRb, ← Nat.succ_mul]
      split
      · rename_i hend
        have hend : j + 1 = rbs.length := Nat.eq_of_mul_eq_mul_right hpos hend
        rw [hdrop, List.map_cons, hprb, hend, List.drop_length, List.map_nil]
      · rename_i hend
        have hj' : j + 1 < rbs.length := by
          refine Nat.lt_of_le_of_ne hj fun heq' => hend ?_
          rw [← heq']
        have hlaterBounds : ∀ rb ∈ rbs.drop (j + 1), k + 1 ≤ rb ∧ rb < k + 1 + prbs.length := by
          intro rb hrb
          have hrb' := hrest rb hrb
          have hlt' := hlater rb hrb
          omega
        rw [← Nat.succ_mul, ih hj' hlaterBounds, hdrop, List.map_cons, hprb, List.append_assoc,
          List.singleton_append]
        congr 3
        exact List.map_congr_left fun rb hrb => (hnext (hlaterBounds rb hrb).1).symm

theorem regToPrbMappingOther_ok (hpos : 0 < duration) (hsorted : rbs.Pairwise (· < ·)) (hne : 0 < rbs.length)
    (bwpStart : Nat) (freqResources : FreqResourceBitmap)
    (hbounds : ∀ rb ∈ rbs, rb < (freqResourceRbs bwpStart freqResources).length) :
    regToPrbMappingOther bwpStart freqResources duration (rbs.flatMap (regsOfRb duration)) =
      .ok (rbs.map fun rb => (freqResourceRbs bwpStart freqResources).getD rb 0) := by
  have hloop := @regToPrbLoop_ok duration rbs hpos hsorted (freqResourceRbs bwpStart freqResources) 0 0 [] hne
    fun rb hrb => ⟨Nat.zero_le rb, by rw [Nat.zero_add]; exact hbounds rb hrb⟩
  rw [Nat.zero_mul, List.nil_append, List.drop_zero] at hloop
  exact hloop

/-- The REGs of the RBs that belong to some CCEs, in ascending order. -/
structure IsCandidate (duration nofRbs : Nat) (cceOf : Nat → Nat) (aggregationLevel cceIndex : Nat)
    (regs rbs : List Nat) : Prop where
  regs_eq : regs = rbs.flatMap (regsOfRb duration)
  length_eq : regs.length = nofRegPerCce * aggregationLevel
  sorted : rbs.Pairwise (· < ·)
  mem_iff : ∀ rb, rb ∈ rbs ↔ rb < nofRbs ∧ cceIndex ≤ cceOf rb ∧ cceOf rb < cceIndex + aggregationLevel

theorem nonInterleaved_isCandidate {rbsOfCce nofRbs aggregationLevel cceIndex : Nat}
    (hcce : rbsOfCce * duration = nofRegPerCce) (hle : (cceIndex + aggregationLevel) * rbsOfCce ≤ nofRbs) :
    IsCandidate duration nofRbs (· / rbsOfCce) aggregationLevel cceIndex
      (cceToRegMappingNonInterleaved aggregationLevel cceIndex)
      (List.range' (cceIndex * rbsOfCce) (aggregationLevel * rbsOfCce)) where
  regs_eq := by
    rw [flatMap_regsOfRb, Nat.mul_assoc, Nat.mul_assoc, hcce, Nat.mul_comm cceIndex, Nat.mul_comm aggregationLevel,
      cceToRegMappingNonInterleaved]
  length_eq := List.length_range'
  sorted := List.pairwise_lt_range'
  mem_iff := by
    intro rb
    have hpos : 0 < rbsOfCce := Nat.pos_of_mul_pos_right (hcce.symm ▸ (by decide : 0 < nofRegPerCce))
    rw [List.mem_range'_1, ← Nat.add_mul, Nat.le_div_iff_mul_le hpos, Nat.div_lt_iff_lt_mul hpos]
    constructor
    · rintro ⟨hstart, hend⟩
      exact ⟨Nat.lt_of_lt_of_le hend hle, hstart, hend⟩
    · rintro ⟨-, hstart, hend⟩
      exact ⟨hstart, hend⟩

/-- The interleaver of a CORESET; REG bundles are whole RBs. -/
structure RegInterleaver where
  duration : Nat
  rbsOfBundle : Nat
  bundlesOfCce : Nat
  rows : Nat
  cols : Nat
  shift : Nat
  cce_eq : bundlesOfCce * (rbsOfBundle * duration) = nofRegPerCce
  count_pos : 0 < rows * cols

namespace RegInterleaver
variable (i : RegInterleaver)

def count : Nat := i.rows * i.cols

def bundleSize : Nat := i.rbsOfBundle * i.duration

def nofRbs : Nat := i.count * i.rbsOfBundle

def place (x : Nat) : Nat := rotate i.count i.shift (transpose i.rows i.cols x)

def bundleAt (y : Nat) : Nat := transpose i.cols i.rows (rotate i.count (i.count - i.shift % i.count) y)

def cceOf (rb : Nat) : Nat := i.bundleAt (rb / i.rbsOfBundle) / i.bundlesOfCce

theorem bundlesOfCce_pos : 0 < i.bundlesOfCce :=
  Nat.pos_of_mul_pos_right (i.cce_eq.symm ▸ (by decide : 0 < nofRegPerCce))

theorem bundleSize_pos : 0 < i.bundleSize :=
  Nat.pos_of_mul_pos_left (i.cce_eq.symm ▸ (by decide : 0 < nofRegPerCce))

theorem rbsOfBundle_pos : 0 < i.rbsOfBundle := Nat.pos_of_mul_pos_right i.bundleSize_pos

theorem duration_pos : 0 < i.duration := Nat.pos_of_mul_pos_left i.bundleSize_pos

theorem shift_back : (i.shift + (i.count - i.shift % i.count)) % i.count = 0 := by
  have hlt := Nat.mod_lt i.shift i.count_pos
  have hdiv := Nat.div_add_mod i.shift i.count
  have heq : i.shift + (i.count - i.shift % i.count) = i.count * (i.shift / i.count + 1) := by
    rw [Nat.mul_succ]
    change i.shift % i.count < i.count at hlt
    omega
  rw [heq, Nat.mul_mod_right]

variable {i} {x y : Nat}

theorem place_lt (h : x < i.count) : i.place x < i.count := rotate_lt _ (transpose_lt h)

theorem rotate_back_lt (h : y < i.count) : rotate i.count (i.count - i.shift % i.count) y < i.cols * i.rows := by
  have hrotate := rotate_lt (i.count - i.shift % i.count) h
  exact Nat.mul_comm i.cols i.rows ▸ hrotate

theorem bundleAt_lt (h : y < i.count) : i.bundleAt y < i.count := by
  have hlt := transpose_lt (rotate_back_lt h)
  rw [Nat.mul_comm] at hlt
  exact hlt

theorem bundleAt_place (h : x < i.count) : i.bundleAt (i.place x) = x := by
  rw [bundleAt, place, rotate_rotate i.shift_back (transpose_lt h), transpose_transpose h]

theorem place_bundleAt (h : y < i.count) : i.place (i.bundleAt y) = y := by
  have hback := i.shift_back
  rw [Nat.add_comm] at hback
  rw [bundleAt, place, transpose_transpose (rotate_back_lt h), rotate_rotate hback h]

def rbsOf (i : RegInterleaver) (aggregationLevel cceIndex : Nat) : List Nat :=
  (List.range' (cceIndex * i.bundlesOfCce) (aggregationLevel * i.bundlesOfCce)).flatMap fun x =>
    List.range' (i.place x * i.rbsOfBundle) i.rbsOfBundle

theorem mem_bundle {rb : Nat} :
    rb ∈ List.range' (i.place x * i.rbsOfBundle) i.rbsOfBundle ↔ rb / i.rbsOfBundle = i.place x := by
  rw [List.mem_range'_1, Nat.div_eq_iff i.rbsOfBundle_pos]
  have hpos := i.rbsOfBundle_pos
  omega

theorem mem_rbsOf {aggregationLevel cceIndex rb : Nat}
    (hle : (cceIndex + aggregationLevel) * i.bundlesOfCce ≤ i.count) :
    rb ∈ i.rbsOf aggregationLevel cceIndex ↔
      rb < i.nofRbs ∧ cceIndex ≤ i.cceOf rb ∧ i.cceOf rb < cceIndex + aggregationLevel := by
  rw [rbsOf, List.mem_flatMap, cceOf, Nat.le_div_iff_mul_le i.bundlesOfCce_pos,
    Nat.div_lt_iff_lt_mul i.bundlesOfCce_pos, nofRbs, ← Nat.div_lt_iff_lt_mul i.rbsOfBundle_pos]
  simp only [mem_bundle]
  simp only [List.mem_range'_1, ← Nat.add_mul]
  constructor
  · rintro ⟨x, ⟨hstart, hend⟩, hrb⟩
    have hx := Nat.lt_of_lt_of_le hend hle
    rw [hrb, bundleAt_place hx]
    exact ⟨place_lt hx, hstart, hend⟩
  · rintro ⟨hrb, hstart, hend⟩
    exact ⟨_, ⟨hstart, hend⟩, (place_bundleAt hrb).symm⟩

theorem nodup_rbsOf {aggregationLevel cceIndex : Nat}
    (hle : (cceIndex + aggregationLevel) * i.bundlesOfCce ≤ i.count) :
    (i.rbsOf aggregationLevel cceIndex).Nodup := by
  rw [rbsOf, List.nodup_flatMap]
  refine ⟨fun x _ => List.nodup_range', List.Pairwise.imp_of_mem (fun {x x'} hx hx' hlt => ?_) List.pairwise_lt_range'⟩
  rw [List.mem_range'_1, ← Nat.add_mul] at hx hx'
  intro rb hrb hrb'
  have hsame := (mem_bundle.mp hrb).symm.trans (mem_bundle.mp hrb')
  rw [← bundleAt_place (i := i) (show x < i.count by omega), hsame, bundleAt_place (by omega)] at hlt
  exact Nat.lt_irrefl _ hlt

theorem flatMap_rbsOf (aggregationLevel cceIndex : Nat) :
    (i.rbsOf aggregationLevel cceIndex).flatMap (regsOfRb i.duration) =
      (List.range' (cceIndex * i.bundlesOfCce) (aggregationLevel * i.bundlesOfCce)).flatMap fun x =>
        List.range' (i.place x * i.bundleSize) i.bundleSize := by
  rw [rbsOf, List.flatMap_assoc]
  congr 1
  funext x
  rw [flatMap_regsOfRb, bundleSize, Nat.mul_assoc]

end RegInterleaver

theorem pairwise_mergeSort_of_nodup {rbs : List Nat} (h : rbs.Nodup) : rbs.mergeSort.Pairwise (· < ·) := by
  have hle : rbs.mergeSort.Pairwise fun a b => decide (a ≤ b) = true :=
    List.pairwise_mergeSort (by simp only [decide_eq_true_eq]; omega) (by simp only [Bool.or_eq_true, decide_eq_true_eq]; omega) rbs
  have hnodup : rbs.mergeSort.Nodup := (List.mergeSort_perm rbs _).nodup_iff.mpr h
  exact (hle.and hnodup).imp fun hab => Nat.lt_of_le_of_ne (of_decide_eq_true hab.1) hab.2

theorem mergeSort_flatMap_regsOfRb (duration : Nat) {rbs : List Nat} (h : rbs.Nodup) :
    (rbs.flatMap (regsOfRb duration)).mergeSort = rbs.mergeSort.flatMap (regsOfRb duration) := by
  have hperm : (rbs.mergeSort.flatMap (regsOfRb duration)).Perm (rbs.flatMap (regsOfRb duration)) :=
    (List.mergeSort_perm rbs _).flatMap_right _
  have hsorted := @pairwise_flatMap_regsOfRb duration _ (pairwise_mergeSort_of_nodup h)
  have hnodup : (rbs.flatMap (regsOfRb duration)).Nodup :=
    hperm.nodup_iff.mp (hsorted.imp fun hlt => Nat.ne_of_lt hlt)
  exact List.Perm.eq_of_pairwise (fun a b _ _ hab hba => absurd (Nat.lt_trans hab hba) (Nat.lt_irrefl a))
    (pairwise_mergeSort_of_nodup hnodup) hsorted ((List.mergeSort_perm _ _).trans hperm.symm)

namespace RegInterleaver
variable (i : RegInterleaver)

theorem nofRegs_eq : i.nofRbs * i.duration = i.bundleSize * (i.rows * i.cols) := by
  rw [nofRbs, bundleSize, count, Nat.mul_assoc, Nat.mul_comm]

/-- The bundles of `cce_to_reg_mapping_interleaved` are those of the interleaver. -/
theorem dstRegBundleIndex_eq (x : Nat) :
    dstRegBundleIndex (i.nofRbs * i.duration) i.bundleSize i.rows i.shift x = i.place x := by
  have hreg := i.nofRegs_eq
  have hcols : i.nofRbs * i.duration / (i.bundleSize * i.rows) = i.cols := by
    rw [hreg, ← Nat.mul_assoc, Nat.mul_div_cancel_left]
    exact Nat.mul_pos i.bundleSize_pos (Nat.pos_of_mul_pos_right i.count_pos)
  have hcount : i.nofRbs * i.duration / i.bundleSize = i.count := by
    rw [hreg, Nat.mul_div_cancel_left _ i.bundleSize_pos, count]
  rw [dstRegBundleIndex, hcols, hcount]
  rfl

theorem cceToRegMappingInterleaved_ok {aggregationLevel cceIndex : Nat}
    (hle : (cceIndex + aggregationLevel) * i.bundlesOfCce ≤ i.count) :
    ∃ regs, cceToRegMappingInterleaved i.nofRbs i.duration i.bundleSize i.rows i.shift aggregationLevel cceIndex =
        .ok regs ∧
      IsCandidate i.duration i.nofRbs i.cceOf aggregationLevel cceIndex regs
        (i.rbsOf aggregationLevel cceIndex).mergeSort := by
  have hvalid : 0 < i.nofRbs * i.duration ∧ i.nofRbs * i.duration % (i.bundleSize * i.rows) = 0 ∧
      i.bundleSize % i.duration = 0 := by
    refine ⟨Nat.mul_pos (Nat.mul_pos i.count_pos i.rbsOfBundle_pos) i.duration_pos, ?_, Nat.mul_mod_left _ _⟩
    rw [i.nofRegs_eq, ← Nat.mul_assoc, Nat.mul_mod_right]
  have hcce : nofRegPerCce / i.bundleSize = i.bundlesOfCce := by
    rw [← i.cce_eq]
    exact Nat.mul_div_cancel _ i.bundleSize_pos
  rw [cceToRegMappingInterleaved, if_pos hvalid, hcce]
  simp only [dstRegBundleIndex_eq, ← flatMap_rbsOf]
  have hnodup := nodup_rbsOf hle
  refine ⟨_, rfl, mergeSort_flatMap_regsOfRb _ hnodup, ?_, pairwise_mergeSort_of_nodup hnodup, fun rb => ?_⟩
  · rw [List.length_mergeSort, flatMap_rbsOf, List.length_flatMap]
    simp only [List.length_range', List.map_const']
    rw [List.sum_replicate_nat, Nat.mul_assoc, bundleSize, i.cce_eq, Nat.mul_comm]
  · rw [List.mem_mergeSort, mem_rbsOf hle]

theorem count_eq {nofCces : Nat} (h : i.nofRbs * i.duration = nofRegPerCce * nofCces) :
    i.count = nofCces * i.bundlesOfCce := by
  rw [i.nofRegs_eq, ← i.cce_eq, Nat.mul_comm i.bundlesOfCce, Nat.mul_assoc] at h
  rw [Nat.mul_comm nofCces]
  exact Nat.eq_of_mul_eq_mul_left i.bundleSize_pos h

theorem cceOf_lt {nofCces rb : Nat} (h : i.nofRbs * i.duration = nofRegPerCce * nofCces) (hrb : rb < i.nofRbs) :
    i.cceOf rb < nofCces := by
  rw [cceOf, Nat.div_lt_iff_lt_mul i.bundlesOfCce_pos, ← i.count_eq h]
  exact bundleAt_lt ((Nat.div_lt_iff_lt_mul i.rbsOfBundle_pos).mpr hrb)

/-- The parameters that the code admits are those of an interleaver. -/
theorem exists_of_params {nRb duration bundleSize rows : Nat} (shift : Nat) (hbundle : bundleSize ∈ [2, 3, 6])
    (hduration : 0 < duration) (hnonempty : 0 < nRb) (hrows : nRb * duration % (bundleSize * rows) = 0)
    (hwhole : bundleSize % duration = 0) :
    ∃ i : RegInterleaver, i.nofRbs = nRb ∧ i.duration = duration ∧ i.bundleSize = bundleSize ∧ i.rows = rows ∧
      i.shift = shift := by
  obtain ⟨cols, hcols⟩ := Nat.dvd_of_mod_eq_zero hrows
  obtain ⟨w, rfl⟩ := Nat.dvd_of_mod_eq_zero hwhole
  have hcce : nofRegPerCce / (w * duration) * (w * duration) = nofRegPerCce := by
    rw [Nat.mul_comm w]
    refine Nat.div_mul_cancel ?_
    simp only [List.mem_cons, List.not_mem_nil, or_false] at hbundle
    rcases hbundle with hbundle | hbundle | hbundle <;> rw [hbundle] <;> decide
  have hregs : nRb * duration = rows * cols * w * duration := by
    rw [hcols]
    ring
  have hcount : 0 < rows * cols := by
    have hpos := Nat.mul_pos hnonempty hduration
    rw [hregs, Nat.mul_assoc] at hpos
    exact Nat.pos_of_mul_pos_right hpos
  exact ⟨⟨duration, w, _, rows, cols, shift, hcce, hcount⟩, (Nat.eq_of_mul_eq_mul_right hduration hregs).symm, rfl,
    Nat.mul_comm _ _, rfl, rfl⟩

end RegInterleaver

end Srsran.Ran.Pdcch
