import Mathlib.Data.List.ProdSigma
import Srsran.Lib.Interleaver
import Srsran.Ran.VrbToPrb

/-! The interleaved mapping is a permutation that moves whole bundles. -/
namespace Srsran.Ran.VrbToPrb
open Srsran.Adt Scheduler Checked Interleaver

/-- Sizes of bundles that add up. -/
structure Configuration.Sized (config : Configuration) : Prop where
  two_le : 2 ≤ config.nofBundles
  first_le : config.firstBundleSize ≤ config.otherBundleSize
  last_pos : 0 < config.lastBundleSize
  last_le : config.lastBundleSize ≤ config.otherBundleSize
  sum_eq : config.firstBundleSize + (config.nofBundles - 2) * config.otherBundleSize + config.lastBundleSize =
    config.nofRbs

variable {config : Configuration}

/-- Bundles of `l` RBs, the first of which lacks as many RBs as the RBs lie past a multiple of `l`. -/
theorem sized_of_shift {l shift : Nat} (hl : l = 2 ∨ l = 4) (hshift : shift < l)
    (htwo : 2 ≤ config.nofBundles) (hn : config.nofRbs < 2 ^ 32)
    (hbundles : config.nofBundles = ((config.nofRbs + shift) % 2 ^ 32 + (l - 1)) % 2 ^ 32 / l)
    (hfirst : config.firstBundleSize = l - shift) (hother : config.otherBundleSize = l)
    (hlast : config.lastBundleSize =
      if 0 < (config.nofRbs + shift) % l then (config.nofRbs + shift) % l else l) : config.Sized := by
  have hbounds : config.firstBundleSize ≤ l ∧ 0 < config.lastBundleSize ∧ config.lastBundleSize ≤ l ∧
      config.firstBundleSize + (config.nofBundles - 2) * l + config.lastBundleSize = config.nofRbs := by
    rcases hl with rfl | rfl <;> split at hlast <;> omega
  exact ⟨htwo, hother ▸ hbounds.1, hbounds.2.1, hother ▸ hbounds.2.2.1, hother ▸ hbounds.2.2.2⟩

theorem toNat_sub_mod (l x : UInt32) (hl : 0 < l.toNat) : (l - x % l).toNat = l.toNat - x.toNat % l.toNat := by
  rw [UInt32.toNat_sub_of_le, UInt32.toNat_mod]
  rw [UInt32.le_iff_toNat_le, UInt32.toNat_mod]
  exact Nat.le_of_lt (Nat.mod_lt _ hl)

theorem Configuration.Produced.sized (h : config.Produced) (htwo : 2 ≤ config.nofBundles) :
    config.Sized := by
  cases h with
  | coreset0 nStartCoreset nBwpInitSize =>
    apply sized_of_shift (.inl rfl) (show 0 < 2 by decide) htwo nBwpInitSize.toNat_lt <;>
      simp [createInterleavedCoreset0, divideCeil, apply_ite UInt32.toNat, UInt32.lt_iff_toNat_lt]
  | commonSs nStartCoreset nBwpIStart nBwpInitSize =>
    have hshift : (nBwpIStart.toNat + nStartCoreset.toNat) % 2 < 2 := Nat.mod_lt _ (by decide)
    apply sized_of_shift (.inl rfl) hshift htwo nBwpInitSize.toNat_lt <;>
      simp [createInterleavedCommonSs, divideCeil, apply_ite UInt32.toNat, UInt32.lt_iff_toNat_lt, toNat_sub_mod,
        Nat.add_assoc]
  | @other nBwpIStart nBwpISize lI config hother =>
    cases lI with
    | nonInterleaved => cases hother
    | interleavedN2 =>
      cases hother
      have hshift : nBwpIStart.toNat % 2 < 2 := Nat.mod_lt _ (by decide)
      apply sized_of_shift (.inl rfl) hshift htwo nBwpISize.toNat_lt <;>
        simp [MappingType.bundleSize, divideCeil, apply_ite UInt32.toNat, UInt32.lt_iff_toNat_lt, toNat_sub_mod,
          Nat.add_comm]
    | interleavedN4 =>
      cases hother
      have hshift : nBwpIStart.toNat % 4 < 4 := Nat.mod_lt _ (by decide)
      apply sized_of_shift (.inr rfl) hshift htwo nBwpISize.toNat_lt <;>
        simp [MappingType.bundleSize, divideCeil, apply_ite UInt32.toNat, UInt32.lt_iff_toNat_lt, toNat_sub_mod,
          Nat.add_comm]

namespace Configuration.Sized
variable {config : Configuration} (h : config.Sized)

def blocks : Blocks where
  count := config.nofBundles
  first := config.firstBundleSize
  length := config.otherBundleSize
  last := config.lastBundleSize
  two_le_count := h.two_le
  __ := h

theorem total_blocks : h.blocks.total = config.nofRbs := h.sum_eq

end Configuration.Sized

/-! The bundles: the matrix has two rows, and the last one of an odd number of bundles stays where it is. -/

def prbBundle (nofBundles : Nat) : Nat → Nat := transposeInner nofBundles 2 (nofBundles / 2)

def vrbBundle (nofBundles : Nat) : Nat → Nat := transposeInner nofBundles (nofBundles / 2) 2

theorem keepsEnds_prbBundle (b : Blocks) : b.KeepsEnds (prbBundle b.count) (vrbBundle b.count) :=
  Blocks.keepsEnds_transposeInner (by omega) (by omega)

theorem keepsEnds_vrbBundle (b : Blocks) : b.KeepsEnds (vrbBundle b.count) (prbBundle b.count) :=
  Blocks.keepsEnds_transposeInner (by omega) (by omega)

/-- Indices that are right as far as they are covered. -/
def Filled (image : Nat → Nat) (n : Nat) (covered : Nat → Prop) (indices : List Nat) : Prop :=
  indices.length = n ∧ ∀ i < n, covered i → indices[i]? = some (image i)

theorem Filled.fillIota {image : Nat → Nat} {n : Nat} {covered : Nat → Prop} {indices : List Nat}
    {offset count value : Nat} (h : Filled image n covered indices) (hle : offset + count ≤ n)
    (hvalue : ∀ k < count, u16 (value + k) = image (offset + k)) :
    Ensures (fun _ => False) (Filled image n fun i => covered i ∨ (offset ≤ i ∧ i < offset + count))
      (fillIota indices offset count value) := by
  rw [VrbToPrb.fillIota, if_pos (h.1.symm ▸ hle)]
  refine ⟨by rw [List.length_mapIdx, h.1], fun i hi hcovered => ?_⟩
  rw [List.getElem?_mapIdx]
  split
  · rename_i hrange
    obtain ⟨k, rfl⟩ := Nat.exists_eq_add_of_le hrange.1
    rw [List.getElem?_eq_getElem (by rw [h.1]; exact hi), Option.map_some, Nat.add_sub_cancel_left,
      hvalue k (by omega)]
  · rename_i hrange
    rw [h.2 i hi (hcovered.resolve_right hrange)]
    rfl

theorem u16_of_le {n : Nat} (h : n ≤ maxNofPrbs) : u16 n = n := Nat.mod_eq_of_lt (Nat.lt_of_le_of_lt h (by decide))

theorem u32_of_le {n : Nat} (h : n ≤ maxNofPrbs) : u32 n = n := Nat.mod_eq_of_lt (Nat.lt_of_le_of_lt h (by decide))

theorem sub32_of_le {a b : Nat} (hle : b ≤ a) (ha : a < 2 ^ 32) : sub32 a b = a - b := by
  rw [sub32, u32]
  omega

section Indices
variable {b : Blocks} {start : Nat}

def prbOf (b : Blocks) (start vrb : Nat) : Nat := start + b.move (prbBundle b.count) vrb

theorem prbOf_lt (start : Nat) {vrb : Nat} (h : vrb < b.total) : prbOf b start vrb < start + b.total :=
  Nat.add_lt_add_left ((keepsEnds_prbBundle b).move_lt h) start

theorem prbOf_place (block : Nat) {k : Nat} (hblock : block < b.count) (hk : k < b.sizeOf block)
    (hmax : start + b.total ≤ maxNofPrbs) :
    u16 (start + b.place (prbBundle b.count block) k) = prbOf b start (b.place block k) := by
  have hlt := prbOf_lt start (b.place_lt_total hblock hk)
  rw [prbOf, Blocks.move_place hk] at hlt ⊢
  exact u16_of_le (by omega)

theorem count_lt (hmax : start + b.total ≤ maxNofPrbs) : b.count < 2 ^ 32 := by
  have hmul := Nat.le_mul_of_pos_right (b.count - 2) b.length_pos
  rw [Blocks.total, maxNofPrbs] at hmax
  omega

/-- What has been filled after some turns of the loop. -/
def CoveredAfter (b : Blocks) (done : List (Nat × Nat)) (i : Nat) : Prop :=
  i < b.first ∨ b.total - b.last ≤ i ∨ ∃ turn ∈ done, b.blockOf i = turn.1 * 2 + turn.2

theorem coveredAfter_append {done : List (Nat × Nat)} {turn : Nat × Nat} {i : Nat} :
    CoveredAfter b (done ++ [turn]) i ↔ CoveredAfter b done i ∨ b.blockOf i = turn.1 * 2 + turn.2 := by
  simp only [CoveredAfter, List.mem_append, List.mem_singleton, or_and_right, exists_or, exists_eq_left, or_assoc]

theorem coveredAfter_all {i : Nat} (hi : i < b.total) :
    CoveredAfter b ((List.range (b.count / 2)).product (List.range 2)) i := by
  have hblock := Blocks.blockOf_lt hi
  by_cases hend : b.blockOf i = b.count - 1
  · have hplace := b.place_blockOf i
    rw [hend, Blocks.place_last] at hplace
    exact .inr (.inl (by omega))
  · refine .inr (.inr ⟨(b.blockOf i / 2, b.blockOf i % 2), List.mem_product.mpr ⟨?_, ?_⟩, ?_⟩)
    · rw [List.mem_range]
      omega
    · rw [List.mem_range]
      omega
    · exact (Nat.div_add_mod' _ _).symm

theorem covered_of_skipped {done : List (Nat × Nat)} {j i : Nat} (hi : i < b.total) (hblock : b.blockOf i = j)
    (hskip : j = 0 ∨ b.count - 2 < j) : CoveredAfter b done i := by
  have hlt := Blocks.blockOf_lt hi
  rcases hskip with hzero | hend
  · rw [hzero, Blocks.blockOf] at hblock
    split at hblock
    · exact .inl (by assumption)
    · exact absurd hblock (Nat.succ_ne_zero _)
  · have hplace := b.place_blockOf i
    rw [show b.blockOf i = b.count - 1 by omega, Blocks.place_last] at hplace
    exact .inr (.inl (by omega))

theorem Filled.mono {image : Nat → Nat} {n : Nat} {covered covered' : Nat → Prop} {indices : List Nat}
    (h : Filled image n covered indices) (hcovered : ∀ i < n, covered' i → covered i) :
    Filled image n covered' indices :=
  ⟨h.1, fun i hi hi' => h.2 i hi (hcovered i hi hi')⟩

theorem getInterleavedPrb_ensures {indices : List Nat} (hmax : start + b.total ≤ maxNofPrbs)
    (hlength : indices.length = b.total) :
    Ensures (fun _ => False) (Filled (prbOf b start) b.total fun _ => True)
      (getInterleavedPrb indices start b.count b.first b.length b.last) := by
  have htwo := b.two_le_count
  have hkeeps := keepsEnds_prbBundle b
  have hlast : prbBundle b.count (b.count - 1) = b.count - 1 := hkeeps.last
  have hempty : Filled (prbOf b start) b.total (fun _ => False) indices := ⟨hlength, fun _ _ => False.elim⟩
  rw [getInterleavedPrb]
  refine (hempty.fillIota (by rw [Blocks.total]; omega) fun k hk => ?_).bind fun indices hfilled => ?_
  · have hplace := prbOf_place 0 (by omega) hk hmax
    rw [hkeeps.first] at hplace
    rw [Nat.zero_add]
    exact hplace
  rw [hfilled.1, sub32_of_le htwo (count_lt hmax)]
  refine (hfilled.fillIota (by rw [Blocks.total]; omega) fun k hk => ?_).bind fun indices hfilled => ?_
  · have hsize : k < b.sizeOf (b.count - 1) := by
      rw [Blocks.sizeOf, if_neg (by omega), if_pos (by omega)]
      exact hk
    have hplace := prbOf_place _ (by omega) hsize hmax
    rw [hlast, Blocks.place_last] at hplace
    rw [← hplace, Blocks.total]
    congr 1
    omega
  have hinit : Filled (prbOf b start) b.total (CoveredAfter b []) indices := by
    refine hfilled.mono fun i hi hcovered => ?_
    rw [CoveredAfter] at hcovered
    simp only [List.not_mem_nil, false_and, exists_const, or_false] at hcovered
    omega
  refine (Ensures.foldlM (I := fun done => Filled (prbOf b start) b.total (CoveredAfter b done)) hinit ?_).mono
    fun indices hall => hall.mono fun i hi _ => coveredAfter_all hi
  rintro indices done ⟨iC, iR⟩ rest hsplit hdone
  have hmem : (iC, iR) ∈ (List.range (b.count / 2)).product (List.range 2) := by
    rw [hsplit]
    exact List.mem_append_right _ List.mem_cons_self
  obtain ⟨hiC, hiR⟩ := List.mem_product.mp hmem
  rw [List.mem_range] at hiC hiR
  dsimp only
  split
  · rename_i hskip
    refine hdone.mono fun i hi hcovered => ?_
    rcases coveredAfter_append.mp hcovered with hcovered | hblock
    · exact hcovered
    · exact covered_of_skipped hi hblock hskip
  · rename_i hskip
    obtain ⟨j, hj⟩ : ∃ j, iC * 2 + iR = j + 1 := Nat.exists_eq_succ_of_ne_zero (by omega)
    have hlt : j + 1 < b.count := by omega
    have hsize : b.sizeOf (j + 1) = b.length := by
      rw [Blocks.sizeOf, if_neg (by omega), if_neg (by omega)]
    have hbundle : prbBundle b.count (j + 1) = iR * (b.count / 2) + iC := by
      rw [prbBundle, transposeInner, if_neg (by omega), ← hj, transpose_of_lt _ _ _ hiR]
    have hzero : iR * (b.count / 2) + iC ≠ 0 := by
      rw [← hbundle, Ne, hkeeps.eq_zero_iff hlt]
      omega
    have hend : b.place (j + 1) (b.length - 1) < b.total := by
      apply b.place_lt_total hlt
      have hpos := b.length_pos
      omega
    rw [Blocks.place_succ] at hend
    rw [hj, Nat.add_sub_cancel]
    refine (hdone.fillIota (by omega) fun k hk => ?_).mono fun indices hfilled => hfilled.mono ?_
    · have hplace := prbOf_place _ hlt (hsize.symm ▸ hk) hmax
      rw [hbundle, Blocks.place, if_neg hzero, Blocks.place_succ] at hplace
      rw [show j * b.length + b.first + k = b.first + j * b.length + k by omega, ← hplace]
      congr 1
      omega
    · intro i hi hcovered
      rcases coveredAfter_append.mp hcovered with hcovered | hblock
      · exact .inl hcovered
      · have hplace := b.place_blockOf i
        have hoffset := Nat.lt_of_lt_of_le (Blocks.offsetOf_lt hi) (b.sizeOf_le _)
        rw [hblock, hj, Blocks.place_succ] at hplace
        exact .inr (by omega)

def vrbOf (b : Blocks) (start prb : Nat) : Nat := b.move (vrbBundle b.count) (prb - start)

theorem vrbOf_prbOf (start : Nat) {vrb : Nat} (h : vrb < b.total) : vrbOf b start (prbOf b start vrb) = vrb := by
  rw [vrbOf, prbOf, Nat.add_sub_cancel_left]
  exact (keepsEnds_prbBundle b).move_move h

theorem vrbOf_lt {prb : Nat} (h : prb - start < b.total) : vrbOf b start prb < b.total :=
  (keepsEnds_vrbBundle b).move_lt h

theorem prbOf_vrbOf {prb : Nat} (hstart : start ≤ prb) (h : prb - start < b.total) :
    prbOf b start (vrbOf b start prb) = prb := by
  rw [vrbOf, prbOf, (keepsEnds_vrbBundle b).move_move h]
  omega

end Indices

theorem getIndex_eq_ok {indices : List Nat} {i x : Nat} : getIndex indices i = .ok x ↔ indices[i]? = some x := by
  rw [getIndex]
  split
  · rename_i y hy
    rw [hy, Except.ok.injEq, Option.some.injEq]
  · rename_i hnone
    rw [hnone]
    simp

namespace InterleavedMapping

structure Mapped (b : Blocks) (m : InterleavedMapping) : Prop where
  nofRbs_eq : m.config.nofRbs = b.total
  le_maxNofPrbs : m.config.coresetStart + b.total ≤ maxNofPrbs
  vrbToPrb : Filled (prbOf b m.config.coresetStart) b.total (fun _ => True) m.vrbToPrbIndices
  prbToVrb : ∀ vrb < b.total, m.prbToVrbIndices[prbOf b m.config.coresetStart vrb]? = some vrb

theorem create_ok (h : config.Sized) (hmax : config.coresetStart + config.nofRbs ≤ maxNofPrbs) :
    ∃ m, create config = .ok m ∧ m.config = config ∧ Mapped h.blocks m := by
  have hbundles := h.two_le
  have htotal := h.total_blocks
  have hcreate (size : Nat) (hsize : size ≤ maxNofPrbs) : createVector size = .ok (List.replicate size 0) :=
    if_pos hsize
  rw [create, hcreate _ (by omega), ok_bind, u32_of_le hmax, hcreate _ hmax, ok_bind, if_neg (by omega)]
  obtain ⟨vrbToPrbIndices, hindices, hfilled⟩ :=
    (@getInterleavedPrb_ensures h.blocks config.coresetStart (List.replicate config.nofRbs 0) (htotal.symm ▸ hmax)
      (by rw [List.length_replicate, htotal])).exists_ok
  have hindices : getInterleavedPrb (List.replicate config.nofRbs 0) config.coresetStart config.nofBundles
      config.firstBundleSize config.otherBundleSize config.lastBundleSize = .ok vrbToPrbIndices := hindices
  rw [hindices, ok_bind]
  have hloop : Ensures (fun _ => False)
      (fun prbToVrbIndices : List Nat => prbToVrbIndices.length = config.coresetStart + config.nofRbs ∧
        ∀ vrb ∈ List.range config.nofRbs, vrb < h.blocks.total →
          prbToVrbIndices[prbOf h.blocks config.coresetStart vrb]? = some vrb)
      ((List.range config.nofRbs).foldlM (fun (prbToVrbIndices : List Nat) vrb => do
        setIndex prbToVrbIndices (← getIndex vrbToPrbIndices vrb) vrb)
        (List.replicate (config.coresetStart + config.nofRbs) 0)) := by
    refine Ensures.foldlM (I := fun done (prbToVrbIndices : List Nat) =>
      prbToVrbIndices.length = config.coresetStart + config.nofRbs ∧ ∀ vrb ∈ done, vrb < h.blocks.total →
        prbToVrbIndices[prbOf h.blocks config.coresetStart vrb]? = some vrb) ⟨List.length_replicate, nofun⟩ ?_
    intro prbToVrbIndices done vrb rest hsplit hdone
    have hvrb : vrb < h.blocks.total := by
      rw [htotal, ← List.mem_range, hsplit]
      exact List.mem_append_right _ List.mem_cons_self
    have hlt := prbOf_lt config.coresetStart hvrb
    rw [getIndex_eq_ok.mpr (hfilled.2 vrb hvrb trivial), ok_bind, setIndex, if_pos (by rw [hdone.1, ← htotal]; exact hlt)]
    refine ⟨by rw [List.length_set, hdone.1], fun vrb' hmem hvrb' => ?_⟩
    by_cases hsame : vrb' = vrb
    · rw [hsame, List.getElem?_set_self (by rw [hdone.1, ← htotal]; exact hlt)]
    · have hne : prbOf h.blocks config.coresetStart vrb ≠ prbOf h.blocks config.coresetStart vrb' := by
        intro heq
        rw [← vrbOf_prbOf config.coresetStart hvrb, heq, vrbOf_prbOf _ hvrb'] at hsame
        exact hsame rfl
      rw [List.getElem?_set_ne hne]
      refine hdone.2 vrb' ((List.mem_append.mp hmem).resolve_right ?_) hvrb'
      rwa [List.mem_singleton]
  obtain ⟨prbToVrbIndices, hprbToVrb, hlength, hall⟩ := hloop.exists_ok
  rw [hprbToVrb, ok_bind]
  refine ⟨_, rfl, rfl, htotal.symm, htotal.symm ▸ hmax, hfilled, fun vrb hvrb => ?_⟩
  exact hall vrb (List.mem_range.mpr (htotal ▸ hvrb)) hvrb

variable {b : Blocks} {m : InterleavedMapping}

theorem Mapped.vrbToPrb_eq_ok (h : Mapped b m) {vrb prb : Nat} :
    m.vrbToPrb vrb = .ok prb ↔ vrb < b.total ∧ prb = prbOf b m.config.coresetStart vrb := by
  have hnofRbs := h.nofRbs_eq
  rw [InterleavedMapping.vrbToPrb, check]
  split
  · rw [ok_bind, getIndex_eq_ok]
    constructor
    · intro hindex
      have hlt := (List.getElem?_eq_some_iff.mp hindex).1
      rw [h.vrbToPrb.1] at hlt
      rw [h.vrbToPrb.2 vrb hlt trivial] at hindex
      exact ⟨hlt, (Option.some.inj hindex).symm⟩
    · rintro ⟨hlt, rfl⟩
      exact h.vrbToPrb.2 vrb hlt trivial
  · constructor
    · nofun
    · rintro ⟨hlt, -⟩
      omega

theorem Mapped.prbToVrb_eq (h : Mapped b m) {prb : Nat} (hstart : m.config.coresetStart ≤ prb)
    (hlt : prb - m.config.coresetStart < b.total) :
    m.prbToVrb prb = .ok (vrbOf b m.config.coresetStart prb) := by
  have hnofRbs := h.nofRbs_eq
  have hindex := h.prbToVrb _ (vrbOf_lt hlt)
  rw [prbOf_vrbOf hstart hlt] at hindex
  rw [InterleavedMapping.prbToVrb, check, if_pos hstart, ok_bind, check, if_pos (by omega), ok_bind,
    getIndex_eq_ok.mpr hindex]

end InterleavedMapping

end Srsran.Ran.VrbToPrb
