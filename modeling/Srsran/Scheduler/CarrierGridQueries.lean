import Srsran.Scheduler.CarrierGridUse

/-! What the queries of a carrier grid report for a BWP. The bitmaps are cut out at the CRBs of the BWP, and the bits
of the carrier start at its offset. -/
namespace Srsran.Scheduler
open Srsran.Adt Checked CarrierGrid

/-- The CRB limits of a BWP within the carrier. -/
structure BwpOf (carrierCfg : ScsSpecificCarrier) where
  crbs : RbInterval
  nonempty : crbs.start < crbs.stop
  offset_le : carrierCfg.offsetToCarrier ≤ crbs.start
  stop_le : crbs.stop ≤ carrierCfg.offsetToCarrier + carrierCfg.carrierBandwidth

namespace TrackedCarrier
variable {carrierCfg : ScsSpecificCarrier} {s : TrackedCarrier}

/-- After a sequence of fills and clears of a new grid. -/
def Reachable (carrierCfg : ScsSpecificCarrier) (s : TrackedCarrier) : Prop :=
  ∃ grid, CarrierGrid.create carrierCfg = .ok grid ∧ Runs.Reaches step (fun _ _ => True) ⟨grid, .clear⟩ s

theorem create_eq (carrierCfg : ScsSpecificCarrier) : ∃ grid, CarrierGrid.create carrierCfg = .ok grid ∧
    Mirrors carrierCfg ⟨grid, .clear⟩ := by
  have hsize := Nat.mul_le_mul_left nofOfdmSymPerSlotNormalCp carrierCfg.bandwidth_le
  refine ⟨⟨carrierCfg, ⟨_, fun _ => false, hsize, fun _ _ => rfl⟩⟩, ?_, rfl, rfl, fun _ _ _ _ => rfl⟩
  rw [CarrierGrid.create, BoundedBitset.create, dif_pos hsize]
  rfl

theorem Reachable.mirrors (h : Reachable carrierCfg s) : Mirrors carrierCfg s := by
  obtain ⟨grid, hgrid, hreaches⟩ := h
  obtain ⟨grid', hgrid', hmirrors⟩ := create_eq carrierCfg
  cases hgrid.symm.trans hgrid'
  exact hreaches.invariant hmirrors fun _ _ _ hs _ hstep => hs.step hstep

/-- The queries over a range of symbols report the CRBs in use. -/
structure Agrees (s : TrackedCarrier) (bwp : BwpOf carrierCfg) (symbols : RbInterval) : Prop where
  prbs : ∃ used, s.grid.usedPrbs bwp.crbs symbols = .ok used ∧ used.size = bwp.crbs.length ∧
    ∀ p < bwp.crbs.length, used.bit p = s.usedIn symbols (bwp.crbs.start + p)
  collision : ∀ crbs, s.grid.containsCrbs crbs = true →
    s.grid.collides symbols crbs = .ok ((List.range' crbs.start crbs.length).any (s.usedIn symbols))
  listCollision : ∀ crbList : List Nat, (∀ crb ∈ crbList, s.grid.containsCrb crb = true) →
    s.grid.collidesList symbols crbList = .ok (crbList.any (s.usedIn symbols))
  crbs : ∃ used, s.grid.usedCrbs bwp.crbs symbols = .ok used ∧ ∀ crb, s.grid.containsCrb crb = true →
    used.test crb = .ok (!bwp.crbs.toInterval.contains crb || s.usedIn symbols crb)

theorem Mirrors.agrees (h : Mirrors carrierCfg s) (bwp : BwpOf carrierCfg) {symbols : RbInterval}
    (hsymbols : symbols.stop ≤ nofOfdmSymPerSlotNormalCp) (hoffset : carrierCfg.offsetToCarrier = 0) :
    Agrees s bwp symbols := by
  have hcfg := h.carrierCfg_eq
  have hstop := bwp.stop_le
  have hlength := bwp.crbs.start_add_length
  have hpos : 0 < carrierCfg.carrierBandwidth := by
    have hnonempty := bwp.nonempty
    omega
  refine ⟨?_, fun crbs => h.collides_eq hsymbols, fun crbList => h.collidesList_eq hsymbols, ?_⟩
  · obtain ⟨selected, used, hselected, hused, hsize, hbits⟩ :=
      h.accumulate (show bwp.crbs.start + bwp.crbs.length ≤ _ by omega) hpos hsymbols
    refine ⟨used, ?_, hsize, fun p hp => ?_⟩
    · rw [usedPrbs, checkSymbols_of_le hsymbols, ok_bind, hselected, ok_bind, hused]
      rfl
    · rw [hbits p hp, hoffset, Nat.add_zero]
  · obtain ⟨selected, folded, hselected, hfolded, hsize, hbits⟩ :=
      h.accumulate (show 0 + carrierCfg.carrierBandwidth ≤ _ by omega) hpos hsymbols
    obtain ⟨below, hbelow, hbelowSize, hbelowBits⟩ :=
      BoundedBitset.fill_of_le (b := folded) (Nat.zero_le bwp.crbs.start) (by have hle := bwp.nonempty; omega)
    obtain ⟨used, hused, husedSize, husedBits⟩ :=
      BoundedBitset.fill_of_le (show bwp.crbs.stop ≤ below.size by omega) le_rfl
    refine ⟨used, ?_, fun crb hcrb => ?_⟩
    · rw [usedCrbs, checkSymbols_of_le hsymbols, ok_bind, hselected, ok_bind, nofRbs, hcfg]
      rw [nofRbs, hcfg] at hfolded
      rw [hfolded, ok_bind, hbelow, ok_bind, hused]
      rfl
    · obtain ⟨-, hlt⟩ := (containsCrb_iff _ _).mp hcrb
      rw [offset, nofRbs, hcfg, hoffset, Nat.sub_zero] at hlt
      rw [BoundedBitset.test_of_lt (by omega), husedBits, hbelowBits, hbits crb hlt, hoffset, Nat.zero_add,
        Nat.add_zero]
      congr 1
      have hsame : crb < below.size := by omega
      have hle := bwp.crbs.start_le_stop
      rw [Bool.eq_iff_iff]
      simp only [RbInterval.toInterval, Interval.contains, Bool.or_eq_true, Bool.and_eq_true, Bool.not_eq_true',
        Bool.and_eq_false_iff, decide_eq_true_eq]
      grind

def fillFirst (crb : Nat) : GridCall := .fillList ⟨0, 1, Nat.zero_le 1⟩ [crb]

theorem Mirrors.fillFirst (h : Mirrors carrierCfg s) {crb : Nat} (hcrb : s.grid.containsCrb crb = true) :
    ∃ s', s.step (fillFirst crb) = some s' ∧ ∀ crb',
      s'.used carrierCfg.scs 0 crb' = (s.used carrierCfg.scs 0 crb' || crb' == crb) := by
  obtain ⟨rfl, hsize, -⟩ := h
  obtain ⟨-, hlt⟩ := (containsCrb_iff _ _).mp hcrb
  have hpos : crb - s.grid.offset + 0 * s.grid.nofRbs < s.grid.slotRbs.size := by
    rw [hsize, nofOfdmSymPerSlotNormalCp]
    rw [nofRbs] at hlt
    omega
  obtain ⟨slotRbs, hset⟩ : ∃ slotRbs, s.grid.slotRbs.set (crb - s.grid.offset + 0 * s.grid.nofRbs) = .ok slotRbs :=
    ⟨_, dif_pos hpos⟩
  have hfill : s.grid.apply (TrackedCarrier.fillFirst crb) = .ok { s.grid with slotRbs } := by
    rw [TrackedCarrier.fillFirst, apply, fillList, checkSymbols_of_le (by decide), ok_bind]
    have hresources : resources ⟨0, 1, Nat.zero_le 1⟩ [crb] = [(0, crb)] := rfl
    rw [hresources, List.foldlM_cons, rbOf, if_pos hcrb, ok_bind, hset]
    rfl
  refine ⟨_, by rw [TrackedCarrier.step, hfill]; rfl, fun crb' => ?_⟩
  rw [Bool.eq_iff_iff]
  simp [usedAfter, TrackedCarrier.fillFirst, CellSlotResourceGrid.fillCrbs, RbInterval.toInterval, Interval.contains]

/-- The PRB bitmap of the first symbol is that of the CRBs displaced by the carrier offset. -/
theorem Mirrors.bit_usedPrbs (h : Mirrors carrierCfg s) (hpos : 0 < carrierCfg.carrierBandwidth) {crbs : RbInterval}
    {used : GridRbBitmap} (hused : s.grid.usedPrbs crbs ⟨0, 1, Nat.zero_le 1⟩ = .ok used) {p : Nat}
    (hp : p < crbs.length) :
    used.bit p = (s.grid.containsCrb (crbs.start + p + carrierCfg.offsetToCarrier) &&
      s.used carrierCfg.scs 0 (crbs.start + p + carrierCfg.offsetToCarrier)) := by
  obtain ⟨rfl, -, hbits⟩ := h
  rw [usedPrbs, checkSymbols_of_le (by decide), ok_bind] at hused
  obtain ⟨selected, hselected, hused⟩ := bind_ok (inGrid_ok hused)
  obtain ⟨hsize, hselectedBits⟩ := BoundedBitset.slice_ok hselected
  have hfolded := BoundedBitset.foldAndAccumulate_ok.result hused
  rw [Nat.zero_mul, Nat.one_mul, Nat.sub_zero] at hsize hselectedBits
  rw [hfolded.2, hsize, nofRbs, Nat.div_self hpos, decide_eq_true hp, Bool.true_and]
  rw [List.range_one, List.any_cons, List.any_nil, Bool.or_false, hselectedBits, Nat.zero_mul, Nat.zero_add]
  cases hcontains : s.grid.containsCrb (crbs.start + p + s.grid.carrierCfg.offsetToCarrier) with
  | true =>
    have hbit := hbits 0 _ (by decide) hcontains
    obtain ⟨-, hlt⟩ := (containsCrb_iff _ _).mp hcontains
    rw [offset, Nat.add_sub_cancel] at hlt
    rw [Nat.add_sub_cancel, Nat.zero_mul, Nat.add_zero] at hbit
    rw [decide_eq_true hlt, Nat.zero_add, hbit]
  | false =>
    have hge : ¬ crbs.start + p < s.grid.nofRbs := by
      intro hlt
      rw [Bool.eq_false_iff, Ne, containsCrb_iff, offset, Nat.add_sub_cancel] at hcontains
      exact hcontains ⟨Nat.le_add_left _ _, hlt⟩
    rw [decide_eq_false hge, Bool.false_and, Bool.false_and]

/-- The queries report the CRBs in use, after any fills and clears, if and only if the carrier starts at CRB 0. -/
theorem queries_agree (carrierCfg : ScsSpecificCarrier) (bwp : BwpOf carrierCfg) :
    (∀ s, Reachable carrierCfg s → ∀ symbols, symbols.stop ≤ nofOfdmSymPerSlotNormalCp → Agrees s bwp symbols) ↔
      carrierCfg.offsetToCarrier = 0 := by
  constructor
  · intro hagrees
    -- The first CRB of the BWP is filled in the first symbol, and its PRB is read `offsetToCarrier` RBs above.
    obtain ⟨grid, hgrid, hmirrors⟩ := create_eq carrierCfg
    have hnonempty := bwp.nonempty
    have hoffset := bwp.offset_le
    have hstop := bwp.stop_le
    have hcrb : grid.containsCrb bwp.crbs.start = true := by
      have hcfg : grid.carrierCfg = carrierCfg := hmirrors.carrierCfg_eq
      rw [containsCrb_iff, offset, nofRbs, hcfg]
      omega
    obtain ⟨s, hstep, hused⟩ := hmirrors.fillFirst hcrb
    have hs := hmirrors.step hstep
    obtain ⟨used, husedPrbs, -, hbits⟩ :=
      (hagrees s ⟨grid, hgrid, .next .start trivial hstep⟩ ⟨0, 1, Nat.zero_le 1⟩ (by decide)).prbs
    have hp : 0 < bwp.crbs.length := Nat.sub_pos_of_lt hnonempty
    have hbit := hbits 0 hp
    have husedIn : s.usedIn ⟨0, 1, Nat.zero_le 1⟩ (bwp.crbs.start + 0) = true := by
      simp [usedIn, symbolList, RbInterval.length, hs.carrierCfg_eq, hused]
    rw [hs.bit_usedPrbs (by omega) husedPrbs hp, husedIn, Bool.and_eq_true, hused] at hbit
    simpa [CellSlotResourceGrid.clear] using hbit.2
  · intro hoffset s hs symbols hsymbols
    exact hs.mirrors.agrees bwp hsymbols hoffset

def carrierAt10 : ScsSpecificCarrier := ⟨10, 0, 20, by decide⟩

/-- CRB 10 is in use and collides, and PRB 0 of the BWP of CRBs 10 to 19 is reported free. -/
theorem usedPrbs_misses_offset : ∃ s, Reachable carrierAt10 s ∧
    s.usedIn ⟨0, 1, Nat.zero_le 1⟩ 10 = true ∧
    (s.grid.collidesList ⟨0, 1, Nat.zero_le 1⟩ [10]).toOption = some true ∧
    (s.grid.usedPrbs ⟨10, 20, by decide⟩ ⟨0, 1, Nat.zero_le 1⟩).toOption.map (·.bit 0) = some false := by
  have hrun : ((CarrierGrid.create carrierAt10).toOption.bind fun grid =>
      (step ⟨grid, .clear⟩ (fillFirst 10)).map fun s =>
        (s.usedIn ⟨0, 1, Nat.zero_le 1⟩ 10, (s.grid.collidesList ⟨0, 1, Nat.zero_le 1⟩ [10]).toOption,
          (s.grid.usedPrbs ⟨10, 20, by decide⟩ ⟨0, 1, Nat.zero_le 1⟩).toOption.map (·.bit 0))) =
      some (true, some true, some false) := by decide +kernel
  obtain ⟨grid, hgrid, hrun⟩ := Option.bind_eq_some_iff.mp hrun
  obtain ⟨s, hstep, hobserved⟩ := Option.map_eq_some_iff.mp hrun
  rw [Prod.mk.injEq, Prod.mk.injEq] at hobserved
  exact ⟨s, ⟨grid, toOption_eq_some hgrid, .next .start trivial hstep⟩, hobserved⟩

end TrackedCarrier
end Srsran.Scheduler
