import Mathlib.Data.List.Nodup
import Srsran.Ran.VrbToPrbMapping

/-! The mapping of intervals and bitmaps. -/
namespace Srsran.Ran.VrbToPrb
open Srsran.Adt Scheduler Checked Interleaver BoundedBitset
namespace InterleavedMapping

def Image (m : InterleavedMapping) (vrbs : Nat → Prop) (prb : Nat) : Prop :=
  ∃ vrb, vrbs vrb ∧ m.vrbToPrb vrb = .ok prb

/-- The mapping is a permutation from VRBs to PRBs, and all its versions agree. -/
structure Correct (m : InterleavedMapping) : Prop where
  vrbToPrb : ∀ vrb < m.config.nofRbs, ∃ prb, m.vrbToPrb vrb = .ok prb ∧ m.config.coresetStart ≤ prb ∧
    prb < m.config.coresetStart + m.config.nofRbs ∧ m.prbToVrb prb = .ok vrb
  prbToVrb : ∀ prb, m.config.coresetStart ≤ prb → prb < m.config.coresetStart + m.config.nofRbs →
    ∃ vrb < m.config.nofRbs, m.prbToVrb prb = .ok vrb ∧ m.vrbToPrb vrb = .ok prb
  interval : ∀ vrbs : RbInterval, vrbs.stop ≤ m.config.nofRbs → ∃ first second,
    m.vrbIntervalToPrb vrbs = .ok (first, second) ∧
      ∀ prb, first.Holds prb ∨ second.Holds prb ↔ m.Image vrbs.Holds prb
  bitmap : ∀ (bwpSize : Nat) (vrbs : RbBitmap), bwpSize ≤ maxNofPrbs → vrbs.size ≤ m.config.nofRbs →
    m.config.coresetStart + m.config.nofRbs ≤ bwpSize → ∃ prbs, m.vrbBitmapToPrb bwpSize vrbs = .ok prbs ∧
      prbs.size = bwpSize ∧ ∀ prb, prbs.bit prb = true ↔ m.Image (vrbs.bit · = true) prb
  crbBitmap : ∀ (bwpStart bwpSize : Nat) (vrbs : RbBitmap), bwpStart + bwpSize ≤ maxNofPrbs →
    vrbs.size ≤ m.config.nofRbs → m.config.coresetStart + m.config.nofRbs ≤ bwpSize →
    ∃ crbs, m.vrbToCrb bwpStart bwpSize vrbs = .ok crbs ∧ crbs.size = bwpStart + bwpSize ∧
      ∀ crb, crbs.bit crb = true ↔ ∃ prb, m.Image (vrbs.bit · = true) prb ∧ crb = bwpStart + prb
  crbIndices : ∀ (bwpStart bwpSize : Nat) (vrbs : RbBitmap), bwpStart + bwpSize ≤ maxNofPrbs →
    vrbs.size ≤ m.config.nofRbs → m.config.coresetStart + m.config.nofRbs ≤ bwpSize →
    ∃ crbs, m.vrbToCrbIndices bwpStart bwpSize vrbs = .ok crbs ∧ crbs.Nodup ∧
      ∀ crb, crb ∈ crbs ↔ ∃ prb, m.Image (vrbs.bit · = true) prb ∧ crb = bwpStart + prb

theorem create_of_le {size : Nat} (h : size ≤ maxNofPrbs) : ∃ bits : RbBitmap,
    inMapping (BoundedBitset.create maxNofPrbs size) = .ok bits ∧ bits.size = size ∧ ∀ i, bits.bit i = false := by
  rw [BoundedBitset.create, dif_pos h]
  exact ⟨_, rfl, rfl, fun _ => rfl⟩

variable {bits : RbBitmap}

theorem setImages_ok {image : Nat → Except MappingFault Nat} {rbs : List Nat}
    (hempty : ∀ i, bits.bit i = false) (himage : ∀ rb ∈ rbs, ∃ x < bits.size, image rb = .ok x) :
    ∃ bits', setImages bits image rbs = .ok bits' ∧ bits'.size = bits.size ∧
      ∀ x, bits'.bit x = true ↔ ∃ rb ∈ rbs, image rb = .ok x := by
  apply Ensures.exists_ok
  refine Ensures.foldlM (I := fun done (bits' : RbBitmap) => bits'.size = bits.size ∧
    ∀ x, bits'.bit x = true ↔ ∃ rb ∈ done, image rb = .ok x) ⟨rfl, fun x => by simp [hempty]⟩ ?_
  intro bits' done rb rest hsplit hdone
  obtain ⟨x, hx, hrb⟩ := himage rb (by rw [hsplit]; exact List.mem_append_right _ List.mem_cons_self)
  rw [hrb, ok_bind, BoundedBitset.set, dif_pos (hdone.1.symm ▸ hx)]
  refine ⟨hdone.1, fun y => ?_⟩
  have hsame : image rb = .ok y ↔ y = x := by
    rw [hrb, Except.ok.injEq, eq_comm]
  simp only [Bool.or_eq_true, beq_iff_eq, hdone.2, List.mem_append, List.mem_singleton, or_and_right, exists_or,
    exists_eq_left, hsame]

theorem runEnd_spec (bits : RbBitmap) {prb : Nat} (h : prb < bits.size) :
    runEnd bits prb ≤ bits.size ∧ (∀ i, prb < i → i < runEnd bits prb → bits.bit i = true) ∧
      (runEnd bits prb = bits.size ∨ bits.bit (runEnd bits prb) = false) := by
  fun_induction runEnd bits prb with
  | case1 prb hnext ih =>
    obtain ⟨hle, hset, hend⟩ := ih hnext.1
    refine ⟨hle, fun i hi hi' => ?_, hend⟩
    by_cases hsame : i = prb + 1
    · rw [hsame]
      exact hnext.2
    · exact hset i (by omega) hi'
  | case2 prb hnext =>
    refine ⟨h, by omega, ?_⟩
    rw [not_and, Bool.not_eq_true] at hnext
    by_cases hlt : prb + 1 < bits.size
    · exact .inr (hnext hlt)
    · exact .inl (by omega)

/-- A third run does not follow the first two. -/
def AtMostTwoRuns (bits : RbBitmap) : Prop := ∀ i gap i' gap' i'', i < gap → gap < i' → i' < gap' → gap' < i'' →
  bits.bit i = true → bits.bit gap = false → bits.bit i' = true → bits.bit gap' = false → bits.bit i'' = false

theorem holds_run {startPrb i : Nat} (hstart : bits.bit startPrb = true)
    (h : (run bits startPrb).Holds i) : bits.bit i = true := by
  obtain ⟨-, hset, -⟩ := runEnd_spec bits (lt_size_of_bit hstart)
  by_cases hsame : i = startPrb
  · rw [hsame]
    exact hstart
  · exact hset i (Nat.lt_of_le_of_ne h.1 (Ne.symm hsame)) h.2

theorem not_holds_empty (i : Nat) : ¬ RbInterval.empty.Holds i := fun h => Nat.not_lt_zero i h.2

theorem findIntervals_ok (hruns : AtMostTwoRuns bits) (hany : ∃ i, bits.bit i = true) :
    ∃ first second, findIntervals bits = .ok (first, second) ∧
      ∀ i, first.Holds i ∨ second.Holds i ↔ bits.bit i = true := by
  obtain ⟨i₀, hi₀⟩ := hany
  rw [findIntervals]
  cases hlowest : bits.findLowest 0 with
  | none =>
    have hnone := findLowest_eq_none hlowest (Nat.zero_le i₀)
    rw [hi₀] at hnone
    cases hnone
  | some startPrb =>
    obtain ⟨-, hstart, hbelow⟩ := findLowest_eq_some hlowest
    obtain ⟨hle, -, hend⟩ := runEnd_spec bits (lt_size_of_bit hstart)
    have hlt := lt_runEnd bits startPrb
    have hfirst (i : Nat) (hbit : bits.bit i = true) : (run bits startPrb).Holds i ∨ runEnd bits startPrb ≤ i := by
      have hge : startPrb ≤ i := by
        by_contra hlow
        rw [hbelow i (Nat.zero_le i) (by omega)] at hbit
        cases hbit
      rcases Nat.lt_or_ge i (runEnd bits startPrb) with hin | hout
      · exact .inl ⟨hge, hin⟩
      · exact .inr hout
    -- All bits are those of the first run when none is left after it.
    have hsingle (hnone : ∀ i, runEnd bits startPrb ≤ i → bits.bit i = false) (i : Nat) :
        (run bits startPrb).Holds i ∨ RbInterval.empty.Holds i ↔ bits.bit i = true := by
      constructor
      · rintro (hin | hin)
        · exact holds_run hstart hin
        · exact absurd hin (not_holds_empty i)
      · intro hbit
        refine .inl ((hfirst i hbit).resolve_right fun hout => ?_)
        rw [hnone i hout] at hbit
        cases hbit
    dsimp only
    split
    · rename_i hsize
      refine ⟨_, _, rfl, hsingle fun i hi => bits.sanitized i ?_⟩
      rw [← hsize]
      exact hi
    · rename_i hsize
      split
      · rename_i hnone
        exact ⟨_, _, rfl, hsingle fun i hi => findLowest_eq_none hnone hi⟩
      · rename_i startPrb' hsecond
        obtain ⟨hge, hstart', hbetween⟩ := findLowest_eq_some hsecond
        obtain ⟨-, -, hend'⟩ := runEnd_spec bits (lt_size_of_bit hstart')
        have hlt' := lt_runEnd bits startPrb'
        have hgap : bits.bit (runEnd bits startPrb) = false := hend.resolve_left hsize
        have hafter : runEnd bits startPrb < startPrb' := by
          refine Nat.lt_of_le_of_ne hge fun heq => ?_
          rw [heq, hstart'] at hgap
          cases hgap
        refine ⟨_, _, rfl, fun i => ?_⟩
        constructor
        · rintro (hin | hin)
          · exact holds_run hstart hin
          · exact holds_run hstart' hin
        · intro hbit
          refine (hfirst i hbit).imp_right fun hout => ⟨?_, ?_⟩
          · by_contra hlow
            rw [hbetween i hout (Nat.lt_of_not_le hlow)] at hbit
            cases hbit
          · by_contra hhigh
            have hsize' := lt_size_of_bit hbit
            have hhigh : runEnd bits startPrb' ≤ i := Nat.le_of_not_lt hhigh
            have hgap' : bits.bit (runEnd bits startPrb') = false := hend'.resolve_left (by omega)
            have hne : runEnd bits startPrb' ≠ i := by
              intro heq
              rw [heq, hbit] at hgap'
              cases hgap'
            rw [hruns _ _ _ _ i hlt hafter hlt' (by omega) hstart hgap hstart' hgap'] at hbit
            cases hbit

variable {b : Blocks} {m : InterleavedMapping}

/-- PRBs of one row of the matrix of bundles keep their order as VRBs. -/
theorem vrbOf_lt_vrbOf {start prb prb' : Nat} (hstart : start ≤ prb) (hlt : prb < prb') (hprb' : prb' - start < b.total)
    (hrow : b.blockOf (prb' - start) < b.count / 2 ∨ b.count / 2 ≤ b.blockOf (prb - start)) :
    vrbOf b start prb < vrbOf b start prb' := by
  refine (keepsEnds_vrbBundle b).move_lt_move (by omega) hprb' fun hblocks => ?_
  exact transposeInner_lt_transposeInner (by omega) (by omega) hblocks (Blocks.blockOf_lt hprb') hrow

theorem atMostTwoRuns_of_image {start low high : Nat}
    (hbits : ∀ prb, bits.bit prb = true ↔
      start ≤ prb ∧ prb - start < b.total ∧ low ≤ vrbOf b start prb ∧ vrbOf b start prb < high) :
    AtMostTwoRuns bits := by
  intro i gap i' gap' i'' hgap hi' hgap' hi'' hbit hclear hbit' hclear'
  by_contra hbit''
  rw [Bool.not_eq_false] at hbit''
  rw [hbits] at hbit hbit' hbit''
  rw [← Bool.not_eq_true, hbits] at hclear hclear'
  rcases Nat.lt_or_ge (b.blockOf (i' - start)) (b.count / 2) with hrow | hrow
  · have hgapRow := Nat.lt_of_le_of_lt (b.blockOf_le_blockOf (show gap - start ≤ i' - start by omega)) hrow
    have hfirst := vrbOf_lt_vrbOf hbit.1 hgap (by omega) (.inl hgapRow)
    have hsecond := vrbOf_lt_vrbOf (by omega) hi' hbit'.2.1 (.inl hrow)
    exact hclear (by omega)
  · have hgapRow := Nat.le_trans hrow (b.blockOf_le_blockOf (show i' - start ≤ gap' - start by omega))
    have hfirst := vrbOf_lt_vrbOf hbit'.1 hgap' (by omega) (.inr hrow)
    have hsecond := vrbOf_lt_vrbOf (by omega) hi'' hbit''.2.1 (.inr hgapRow)
    exact hclear' (by omega)

theorem Mapped.image_iff (h : Mapped b m) (vrbs : Nat → Prop) (prb : Nat) : m.Image vrbs prb ↔
    m.config.coresetStart ≤ prb ∧ prb - m.config.coresetStart < b.total ∧
      vrbs (vrbOf b m.config.coresetStart prb) := by
  simp only [Image, h.vrbToPrb_eq_ok]
  constructor
  · rintro ⟨vrb, hvrb, hlt, rfl⟩
    have hprb := prbOf_lt m.config.coresetStart hlt
    rw [vrbOf_prbOf _ hlt]
    refine ⟨Nat.le_add_right _ _, ?_, hvrb⟩
    rw [prbOf] at hprb ⊢
    omega
  · rintro ⟨hstart, hlt, hvrb⟩
    exact ⟨_, hvrb, vrbOf_lt hlt, (prbOf_vrbOf hstart hlt).symm⟩

theorem Mapped.vrbToPrb_of_lt (h : Mapped b m) {vrb : Nat} (hlt : vrb < b.total) :
    ∃ prb < m.config.coresetStart + b.total, m.vrbToPrb vrb = .ok prb :=
  ⟨_, prbOf_lt _ hlt, h.vrbToPrb_eq_ok.mpr ⟨hlt, rfl⟩⟩

theorem Mapped.interval (h : Mapped b m) {vrbs : RbInterval} (hstop : vrbs.stop ≤ m.config.nofRbs) :
    ∃ first second, m.vrbIntervalToPrb vrbs = .ok (first, second) ∧
      ∀ prb, first.Holds prb ∨ second.Holds prb ↔ m.Image vrbs.Holds prb := by
  have hnofRbs := h.nofRbs_eq
  have hlength := vrbs.start_add_length
  rw [vrbIntervalToPrb]
  split
  · rename_i hempty
    rw [RbInterval.isEmpty, decide_eq_true_eq] at hempty
    refine ⟨_, _, rfl, fun prb => ?_⟩
    constructor
    · rintro (hin | hin) <;> exact absurd hin (not_holds_empty prb)
    · rintro ⟨vrb, hvrb, -⟩
      rw [RbInterval.Holds] at hvrb
      omega
  · rename_i hempty
    obtain ⟨bits, hbits, hsize, hclear⟩ := create_of_le (hnofRbs ▸ h.le_maxNofPrbs)
    have himage : ∀ vrb ∈ List.range' vrbs.start vrbs.length, ∃ prb < bits.size, m.vrbToPrb vrb = .ok prb := by
      intro vrb hmem
      rw [hsize, hnofRbs]
      exact h.vrbToPrb_of_lt (by rw [List.mem_range'_1] at hmem; omega)
    obtain ⟨prbBits, hset, -, hall⟩ := setImages_ok hclear himage
    have hmem (prb : Nat) : prbBits.bit prb = true ↔ m.Image vrbs.Holds prb := by
      rw [hall, Image]
      simp only [List.mem_range'_1, hlength, RbInterval.Holds]
    rw [hbits, ok_bind, hset, ok_bind]
    rw [Bool.not_eq_true, RbInterval.isEmpty_eq_false_iff] at hempty
    obtain ⟨prb, -, hprb⟩ := @Mapped.vrbToPrb_of_lt b m h vrbs.start (by omega)
    obtain ⟨first, second, hintervals, hruns⟩ :=
      findIntervals_ok (atMostTwoRuns_of_image fun prb => (hmem prb).trans (h.image_iff _ prb))
        ⟨prb, (hmem prb).mpr ⟨_, ⟨Nat.le_refl _, hempty⟩, hprb⟩⟩
    exact ⟨first, second, hintervals, fun prb => (hruns prb).trans (hmem prb)⟩

theorem check_of {suitable : Prop} [Decidable suitable] (h : suitable) : check suitable = .ok () := if_pos h

variable {vrbs : RbBitmap}

theorem Mapped.lt_of_bit (h : Mapped b m) (hsize : vrbs.size ≤ m.config.nofRbs) {vrb : Nat}
    (hmem : vrb ∈ vrbs.setBits) : vrb < b.total := by
  rw [← h.nofRbs_eq]
  exact Nat.lt_of_lt_of_le (lt_size_of_bit (mem_setBits.mp hmem)) hsize

variable {bwpSize : Nat}

theorem Mapped.bitmap (h : Mapped b m) (hbwp : bwpSize ≤ maxNofPrbs)
    (hsize : vrbs.size ≤ m.config.nofRbs)
    (hfits : m.config.coresetStart + m.config.nofRbs ≤ bwpSize) :
    ∃ prbs, m.vrbBitmapToPrb bwpSize vrbs = .ok prbs ∧ prbs.size = bwpSize ∧
      ∀ prb, prbs.bit prb = true ↔ m.Image (vrbs.bit · = true) prb := by
  have hnofRbs := h.nofRbs_eq
  obtain ⟨bits, hbits, hbitsSize, hclear⟩ := create_of_le hbwp
  have himage : ∀ vrb ∈ vrbs.setBits, ∃ prb < bits.size, m.vrbToPrb vrb = .ok prb := by
    intro vrb hmem
    obtain ⟨prb, hlt, hprb⟩ := h.vrbToPrb_of_lt (h.lt_of_bit hsize hmem)
    exact ⟨prb, by omega, hprb⟩
  obtain ⟨prbs, hset, hprbs, hall⟩ := setImages_ok hclear himage
  refine ⟨prbs, ?_, hprbs.trans hbitsSize, fun prb => ?_⟩
  · rw [vrbBitmapToPrb, check_of hsize, ok_bind, check_of hfits, ok_bind, hbits, ok_bind, hset]
  · simp only [hall, Image, mem_setBits]

variable {bwpStart : Nat}

theorem image_crb_iff {crb : Nat} :
    (∃ vrb ∈ vrbs.setBits, (return bwpStart + (← m.vrbToPrb vrb) : Except MappingFault Nat) = .ok crb) ↔
      ∃ prb, m.Image (vrbs.bit · = true) prb ∧ crb = bwpStart + prb := by
  constructor
  · rintro ⟨vrb, hmem, hcrb⟩
    obtain ⟨prb, hprb, hcrb⟩ := bind_ok hcrb
    cases hcrb
    exact ⟨prb, ⟨vrb, mem_setBits.mp hmem, hprb⟩, rfl⟩
  · rintro ⟨prb, ⟨vrb, hbit, hprb⟩, rfl⟩
    exact ⟨vrb, mem_setBits.mpr hbit, by rw [hprb]; rfl⟩

theorem Mapped.crbBitmap (h : Mapped b m) (hbwp : bwpStart + bwpSize ≤ maxNofPrbs)
    (hsize : vrbs.size ≤ m.config.nofRbs)
    (hfits : m.config.coresetStart + m.config.nofRbs ≤ bwpSize) :
    ∃ crbs, m.vrbToCrb bwpStart bwpSize vrbs = .ok crbs ∧ crbs.size = bwpStart + bwpSize ∧
      ∀ crb, crbs.bit crb = true ↔ ∃ prb, m.Image (vrbs.bit · = true) prb ∧ crb = bwpStart + prb := by
  have hnofRbs := h.nofRbs_eq
  obtain ⟨bits, hbits, hbitsSize, hclear⟩ := create_of_le hbwp
  have himage : ∀ vrb ∈ vrbs.setBits, ∃ crb < bits.size,
      (return bwpStart + (← m.vrbToPrb vrb) : Except MappingFault Nat) = .ok crb := by
    intro vrb hmem
    obtain ⟨prb, hlt, hprb⟩ := h.vrbToPrb_of_lt (h.lt_of_bit hsize hmem)
    exact ⟨bwpStart + prb, by omega, by rw [hprb]; rfl⟩
  obtain ⟨crbs, hset, hcrbs, hall⟩ := setImages_ok hclear himage
  refine ⟨crbs, ?_, hcrbs.trans hbitsSize, fun crb => (hall crb).trans image_crb_iff⟩
  rw [vrbToCrb, check_of hsize, ok_bind, check_of hfits, ok_bind, hbits, ok_bind, hset]

theorem Mapped.crbIndices (h : Mapped b m) (hbwp : bwpStart + bwpSize ≤ maxNofPrbs)
    (hsize : vrbs.size ≤ m.config.nofRbs)
    (hfits : m.config.coresetStart + m.config.nofRbs ≤ bwpSize) :
    ∃ crbs, m.vrbToCrbIndices bwpStart bwpSize vrbs = .ok crbs ∧ crbs.Nodup ∧
      ∀ crb, crb ∈ crbs ↔ ∃ prb, m.Image (vrbs.bit · = true) prb ∧ crb = bwpStart + prb := by
  have hnofRbs := h.nofRbs_eq
  obtain ⟨bits, hbits, -⟩ := create_of_le hbwp
  have hcrb : ∀ vrb ∈ vrbs.setBits, (return u16 (bwpStart + (← m.vrbToPrb vrb)) : Except MappingFault Nat) =
      .ok (bwpStart + prbOf b m.config.coresetStart vrb) := by
    intro vrb hmem
    have hlt := h.lt_of_bit hsize hmem
    have hprb := prbOf_lt m.config.coresetStart hlt
    rw [h.vrbToPrb_eq_ok.mpr ⟨hlt, rfl⟩, ok_bind, u16_of_le (by omega)]
    rfl
  refine ⟨vrbs.setBits.map fun vrb => bwpStart + prbOf b m.config.coresetStart vrb, ?_, ?_, fun crb => ?_⟩
  · rw [vrbToCrbIndices, hbits, ok_bind, mapM_of_ok hcrb]
  · refine List.Nodup.map_on (fun vrb hmem vrb' hmem' heq => ?_) (List.nodup_range.filter _)
    rw [← vrbOf_prbOf m.config.coresetStart (h.lt_of_bit hsize hmem), Nat.add_left_cancel heq,
      vrbOf_prbOf _ (h.lt_of_bit hsize hmem')]
  · rw [List.mem_map]
    constructor
    · rintro ⟨vrb, hmem, rfl⟩
      exact ⟨_, ⟨vrb, mem_setBits.mp hmem, h.vrbToPrb_eq_ok.mpr ⟨h.lt_of_bit hsize hmem, rfl⟩⟩, rfl⟩
    · rintro ⟨prb, ⟨vrb, hbit, hprb⟩, rfl⟩
      exact ⟨vrb, mem_setBits.mpr hbit, by rw [(h.vrbToPrb_eq_ok.mp hprb).2]⟩

theorem Mapped.correct (h : Mapped b m) : Correct m where
  vrbToPrb := by
    intro vrb hvrb
    rw [h.nofRbs_eq] at hvrb ⊢
    have hlt := prbOf_lt m.config.coresetStart hvrb
    have hle : m.config.coresetStart ≤ prbOf b m.config.coresetStart vrb := Nat.le_add_right _ _
    refine ⟨_, h.vrbToPrb_eq_ok.mpr ⟨hvrb, rfl⟩, hle, hlt, ?_⟩
    rw [h.prbToVrb_eq hle (by omega), vrbOf_prbOf _ hvrb]
  prbToVrb := by
    intro prb hstart hprb
    rw [h.nofRbs_eq] at hprb ⊢
    have hlt : prb - m.config.coresetStart < b.total := by omega
    exact ⟨_, vrbOf_lt hlt, h.prbToVrb_eq hstart hlt,
      h.vrbToPrb_eq_ok.mpr ⟨vrbOf_lt hlt, (prbOf_vrbOf hstart hlt).symm⟩⟩
  interval _ := h.interval
  bitmap _ _ := h.bitmap
  crbBitmap _ _ _ := h.crbBitmap
  crbIndices _ _ _ := h.crbIndices

/-- For every configuration with two bundles or more, the bundles add up to its RBs, and the mapping of RBs that fit
in the carrier can be created and is correct. -/
theorem create_correct {config : Configuration} (h : config.Produced) (htwo : 2 ≤ config.nofBundles) :
    config.firstBundleSize + (config.nofBundles - 2) * config.otherBundleSize + config.lastBundleSize =
        config.nofRbs ∧
      (config.coresetStart + config.nofRbs ≤ maxNofPrbs →
        ∃ m, create config = .ok m ∧ m.config = config ∧ Correct m) := by
  have hsized := h.sized htwo
  refine ⟨hsized.sum_eq, fun hmax => ?_⟩
  obtain ⟨m, hm, hconfig, hmapped⟩ := create_ok hsized hmax
  exact ⟨m, hm, hconfig, hmapped.correct⟩

/-- Bundles of 1, 2, 2, 2, 2, 2 and 2 RBs. -/
theorem create_correct_thirteen :
    2 ≤ (createInterleavedCommonSs 3 4 13).nofBundles ∧
      ∃ m, create (createInterleavedCommonSs 3 4 13) = .ok m ∧ m.config = createInterleavedCommonSs 3 4 13 ∧
        Correct m :=
  ⟨by decide, (create_correct (.commonSs 3 4 13) (by decide)).2 (by decide)⟩

end InterleavedMapping
end Srsran.Ran.VrbToPrb
