import Mathlib.Data.NNRat.Floor
import Srsran.EdgeRic.Registry
import Srsran.Lib.Runs
import Srsran.Scheduler.RbSearch

/-! RBs of new transmissions in the DL (`grant_params_selector.cpp`): a UE with a weight gets its share of
the RBs that were free when the slot began. Weights are exact numbers here. -/
namespace Srsran.Scheduler
open EdgeRic Runs

structure VrbBitmap where
  used : List Bool
  size_le : used.length ≤ maxNofPrbs

namespace VrbBitmap

def size (vrbs : VrbBitmap) : Nat := vrbs.used.length

def count (vrbs : VrbBitmap) : Nat := vrbs.used.count true

def free (vrbs : VrbBitmap) : Nat := vrbs.used.count false

theorem count_add_free (vrbs : VrbBitmap) : vrbs.count + vrbs.free = vrbs.size := by
  rw [count, free, size]
  induction vrbs.used with
  | nil => rfl
  | cons bit rest ih => cases bit <;> simp <;> omega

end VrbBitmap

/-- `dl_sched_context` of a new transmission, which is not scheduled without RBs. -/
structure NewTxContext where
  rnti : Rnti
  expectedNofRbs : Nat
  totalBwpRbs : Nat
  expected_pos : 0 < expectedNofRbs
  total_le : totalBwpRbs ≤ maxNofPrbs

structure WeightsMessage where
  ttiIndex : Nat
  ueWeights : List (Nat × ℚ≥0)

/-- The static variables that decide about the RBs of all cells: `tti_counter`, those of the class `edgeric`,
`count_tti` and `this_tti_unused_crbs`. -/
structure WeightShares where
  ttiCounter : Nat := 0
  er : EdgeRic := {}
  weights : OrdMap Rnti ℚ≥0 := .empty
  countTti : Nat := 0
  thisTtiUnusedCrbs : Nat := 0

namespace WeightShares

def invalidRnti : Rnti := 0

/-- What a cell does with the TTI and the weights at the start of `run_slot`. -/
def runSlot (s : WeightShares) (msg : Option WeightsMessage) : WeightShares :=
  let ttiCounter := (s.ttiCounter + 1) % 2 ^ 32
  let s := { s with ttiCounter, er := s.er.setTti ttiCounter }
  match msg with
  | none => s
  | some msg =>
    { s with
      er := { s.er with erWeightsTti := msg.ttiIndex }
      weights := msg.ueWeights.foldl (fun m w => m.insert (w.1 % 2 ^ 16) w.2) .empty }

def getWeights (s : WeightShares) (rnti : Rnti) : Option ℚ≥0 :=
  if s.er.isFresh s.er.erWeightsTti then s.weights.find? rnti else none

def weight? (s : WeightShares) (rnti : Rnti) : Option ℚ≥0 :=
  if rnti ≠ invalidRnti then s.getWeights rnti else none

def unusedCrbs (ctx : NewTxContext) (vrbs : VrbBitmap) : Nat :=
  ((if ctx.totalBwpRbs > 0 then ctx.totalBwpRbs else vrbs.size) + 2 ^ 32 - vrbs.count) % 2 ^ 32

def captureUnused (s : WeightShares) (ctx : NewTxContext) (vrbs : VrbBitmap) : WeightShares :=
  if s.countTti ≠ s.er.ttiCnt then
    { s with thisTtiUnusedCrbs := unusedCrbs ctx vrbs, countTti := s.er.ttiCnt }
  else s

def nofRbsToAllocate (s : WeightShares) (ctx : NewTxContext) (vrbs : VrbBitmap) (maxNofRbs : Nat) : Nat :=
  let nofRbs :=
    match s.weight? ctx.rnti with
    | none => ctx.expectedNofRbs
    | some weight =>
      let share := min (⌊weight * s.thisTtiUnusedCrbs⌋₊ % 2 ^ 32) ctx.expectedNofRbs
      if weight > 0 ∧ share = 0 ∧ unusedCrbs ctx vrbs > 0 then 1 else share
  min nofRbs maxNofRbs

def computeNewtxDlVrbs (s : WeightShares) (ctx : NewTxContext) (vrbs : VrbBitmap) (maxNofRbs : Nat) :
    WeightShares × RbInterval :=
  let s := s.captureUnused ctx vrbs
  (s, findEmptyIntervalOfLength vrbs.used (s.nofRbsToAllocate ctx vrbs maxNofRbs) ⟨0, maxNofPrbs, Nat.zero_le _⟩)

variable {s : WeightShares} {ctx : NewTxContext} {vrbs : VrbBitmap} {maxNofRbs : Nat}

/-- The difference is the number of free VRBs exactly when both counts are over all VRBs. -/
theorem unusedCrbs_eq_free_iff : unusedCrbs ctx vrbs = vrbs.free ↔
    ctx.totalBwpRbs = 0 ∨ ctx.totalBwpRbs = vrbs.size := by
  have hcount := vrbs.count_add_free
  have hsize := vrbs.size_le
  have htotal := ctx.total_le
  have hmax : maxNofPrbs = 275 := rfl
  rw [VrbBitmap.size] at hcount
  rw [unusedCrbs, VrbBitmap.size]
  split
  · omega
  · omega

theorem nofRbsToAllocate_le :
    s.nofRbsToAllocate ctx vrbs maxNofRbs ≤ min ctx.expectedNofRbs maxNofRbs := by
  rw [nofRbsToAllocate]
  apply min_le_min_right
  split
  · exact Nat.le_refl _
  · dsimp only
    split
    · exact ctx.expected_pos
    · exact min_le_right _ _

theorem nofRbsToAllocate_le_share {weight : ℚ≥0} (hweight : s.weight? ctx.rnti = some weight) :
    s.nofRbsToAllocate ctx vrbs maxNofRbs ≤ max 1 ⌊weight * s.thisTtiUnusedCrbs⌋₊ := by
  rw [nofRbsToAllocate, hweight]
  refine (min_le_left _ _).trans ?_
  dsimp only
  split
  · exact le_max_left _ _
  · exact ((min_le_left _ _).trans (Nat.mod_le _ _)).trans (le_max_right _ _)

theorem weight?_captureUnused {rnti : Rnti} : (s.captureUnused ctx vrbs).weight? rnti = s.weight? rnti := by
  rw [captureUnused]
  split <;> rfl

/-- What a grant is held to: free VRBs, no more than required and allowed, and for a UE with a weight no more
than its share of some number of VRBs. -/
structure GrantOk (s : WeightShares) (ctx : NewTxContext) (vrbs : VrbBitmap) (maxNofRbs nofFree : Nat) : Prop where
  free : ∀ rb, (s.computeNewtxDlVrbs ctx vrbs maxNofRbs).2.Holds rb → RbFree vrbs.used rb
  length_le : (s.computeNewtxDlVrbs ctx vrbs maxNofRbs).2.length ≤ min ctx.expectedNofRbs maxNofRbs
  share : ∀ weight, s.weight? ctx.rnti = some weight →
    (s.computeNewtxDlVrbs ctx vrbs maxNofRbs).2.length ≤ max 1 ⌊weight * nofFree⌋₊

/-- Every grant is fine with respect to the number that is shared. -/
theorem grantOk_thisTtiUnusedCrbs :
    s.GrantOk ctx vrbs maxNofRbs (s.captureUnused ctx vrbs).thisTtiUnusedCrbs := by
  have hfound := @findEmptyIntervalOfLength_free vrbs.used
    ((s.captureUnused ctx vrbs).nofRbsToAllocate ctx vrbs maxNofRbs) ⟨0, maxNofPrbs, Nat.zero_le _⟩
  refine ⟨hfound.1, hfound.2.trans nofRbsToAllocate_le, fun weight hweight => ?_⟩
  apply hfound.2.trans
  apply nofRbsToAllocate_le_share
  rw [weight?_captureUnused]
  exact hweight

end WeightShares

/-- The variables, the cell whose slot began last, and for each cell how many VRBs were free when the first
new transmission of its slot was computed. -/
structure CellSlots where
  shares : WeightShares := {}
  running : Option Nat := none
  firstFree : Nat → Option Nat := fun _ => none

inductive GrantEvent where
  | runSlot (cell : Nat) (msg : Option WeightsMessage)
  | newTx (cell : Nat) (ctx : NewTxContext) (vrbs : VrbBitmap) (maxNofRbs : Nat)

namespace CellSlots

def step (s : CellSlots) : GrantEvent → Option CellSlots
  | .runSlot cell msg =>
    some
      { shares := s.shares.runSlot msg
        running := some cell
        firstFree := Function.update s.firstFree cell none }
  | .newTx cell ctx vrbs maxNofRbs =>
    some
      { s with
        shares := (s.shares.computeNewtxDlVrbs ctx vrbs maxNofRbs).1
        firstFree := Function.update s.firstFree cell (some ((s.firstFree cell).getD vrbs.free)) }

/-- Slots of cells do not overlap, the first grant of a slot counts all VRBs of the bitmap, and the TTI of a
slot is not that of the last slot with a grant, nor the first value of `count_tti`. -/
def Separated (s : CellSlots) : GrantEvent → Prop
  | .runSlot _ _ => (s.shares.ttiCounter + 1) % 2 ^ 32 ≠ s.shares.countTti
  | .newTx cell ctx vrbs _ =>
    s.running = some cell ∧
      (s.firstFree cell = none → ctx.totalBwpRbs = 0 ∨ ctx.totalBwpRbs = vrbs.size)

instance (s : CellSlots) : (e : GrantEvent) → Decidable (s.Separated e)
  | .runSlot _ _ => inferInstanceAs (Decidable (_ ≠ _))
  | .newTx _ _ _ _ => inferInstanceAs (Decidable (_ ∧ (_ → _ ∨ _)))

/-- In the slot of the running cell the variables are its own. -/
structure Shared (s : CellSlots) : Prop where
  tti : s.shares.er.ttiCnt = s.shares.ttiCounter
  fresh : ∀ cell, s.running = some cell → s.firstFree cell = none → s.shares.countTti ≠ s.shares.er.ttiCnt
  captured : ∀ cell nofFree, s.running = some cell → s.firstFree cell = some nofFree →
    s.shares.countTti = s.shares.er.ttiCnt ∧ s.shares.thisTtiUnusedCrbs = nofFree

variable {s s' : CellSlots} {cell maxNofRbs : Nat} {ctx : NewTxContext} {vrbs : VrbBitmap}

theorem ttiCnt_runSlot {shares : WeightShares} {msg : Option WeightsMessage} :
    (shares.runSlot msg).er.ttiCnt = (shares.ttiCounter + 1) % 2 ^ 32 ∧
      (shares.runSlot msg).ttiCounter = (shares.ttiCounter + 1) % 2 ^ 32 ∧
      (shares.runSlot msg).countTti = shares.countTti := by
  cases msg <;> exact ⟨rfl, rfl, rfl⟩

/-- A grant in the slot of the running cell uses the number of VRBs that were free at the first one. -/
theorem Shared.newTx (h : s.Shared) (hguard : s.Separated (.newTx cell ctx vrbs maxNofRbs)) :
    (s.shares.captureUnused ctx vrbs).thisTtiUnusedCrbs = (s.firstFree cell).getD vrbs.free ∧
      (s.shares.captureUnused ctx vrbs).countTti = s.shares.er.ttiCnt := by
  obtain ⟨hrunning, hfirst⟩ := hguard
  rw [WeightShares.captureUnused]
  cases hfree : s.firstFree cell with
  | none =>
    rw [if_pos (h.fresh cell hrunning hfree)]
    exact ⟨WeightShares.unusedCrbs_eq_free_iff.mpr (hfirst hfree), rfl⟩
  | some nofFree =>
    obtain ⟨hcount, hunused⟩ := h.captured cell nofFree hrunning hfree
    rw [if_neg (not_not.mpr hcount)]
    exact ⟨hunused, hcount⟩

theorem Shared.step {e : GrantEvent} (h : s.Shared) (hguard : s.Separated e) (hstep : s.step e = some s') :
    s'.Shared := by
  cases e with
  | runSlot cell msg =>
    cases hstep
    obtain ⟨htti, hcounter, hcount⟩ := @ttiCnt_runSlot s.shares msg
    refine ⟨htti.trans hcounter.symm, fun cell' _ _ => ?_, fun cell' nofFree hrunning hfree => ?_⟩
    · dsimp only
      rw [hcount, htti]
      exact Ne.symm hguard
    · cases hrunning
      dsimp only at hfree
      rw [Function.update_self] at hfree
      cases hfree
  | newTx cell ctx vrbs maxNofRbs =>
    cases hstep
    obtain ⟨hunused, hcount⟩ := h.newTx hguard
    have htti : (s.shares.captureUnused ctx vrbs).er.ttiCnt = s.shares.er.ttiCnt ∧
        (s.shares.captureUnused ctx vrbs).ttiCounter = s.shares.ttiCounter := by
      rw [WeightShares.captureUnused]
      split <;> exact ⟨rfl, rfl⟩
    have hcell : ∀ {cell'}, s.running = some cell' → cell' = cell := fun hrunning =>
      Option.some.inj (hrunning.symm.trans hguard.1)
    refine ⟨htti.1.trans (h.tti.trans htti.2.symm), fun cell' hrunning hfree => ?_,
      fun cell' nofFree hrunning hfree => ?_⟩
    · dsimp only at hfree
      rw [hcell hrunning, Function.update_self] at hfree
      cases hfree
    · dsimp only at hfree
      rw [hcell hrunning, Function.update_self, Option.some.injEq] at hfree
      exact ⟨hcount.trans htti.1.symm, hunused.trans hfree⟩

theorem shared_of_reaches (h : Reaches step Separated {} s) : s.Shared :=
  h.invariant ⟨rfl, nofun, nofun⟩ fun _ _ _ hs hguard hstep => hs.step hguard hstep

/-- In every run with slots that do not overlap, every new transmission gets free VRBs, no more than required
and allowed, and with a weight no more than its share of the VRBs of its cell that were free at the first new
transmission of the slot. -/
theorem computeNewtxDlVrbs_shares (h : Reaches step Separated {} s)
    (hguard : s.Separated (.newTx cell ctx vrbs maxNofRbs))
    (hstep : s.step (.newTx cell ctx vrbs maxNofRbs) = some s') :
    ∃ nofFree, s'.firstFree cell = some nofFree ∧ s'.shares.thisTtiUnusedCrbs = nofFree ∧
      s.shares.GrantOk ctx vrbs maxNofRbs nofFree := by
  cases hstep
  obtain ⟨hunused, -⟩ := (shared_of_reaches h).newTx hguard
  refine ⟨(s.firstFree cell).getD vrbs.free, Function.update_self .., hunused, ?_⟩
  rw [← hunused]
  exact WeightShares.grantOk_thisTtiUnusedCrbs

def halfMessage : WeightsMessage := ⟨1, [(0x4601, 1 / 2)]⟩

def twoRbs (totalBwpRbs : Nat) (htotal : totalBwpRbs ≤ maxNofPrbs) : NewTxContext :=
  ⟨0x4601, 2, totalBwpRbs, by decide, htotal⟩

def vrbsOf (nofUsed nofFree : Nat) (h : nofUsed + nofFree ≤ maxNofPrbs) : VrbBitmap :=
  ⟨List.replicate nofUsed true ++ List.replicate nofFree false, by simpa using h⟩

/-- Half of four free RBs. -/
theorem computeNewtxDlVrbs_shares_half : ∃ (s s' : CellSlots) (nofFree : Nat), s.running = some 0 ∧ s'.firstFree 0 = some nofFree ∧
    s'.shares.thisTtiUnusedCrbs = nofFree ∧
    s.shares.GrantOk (twoRbs 10 (by decide)) (vrbsOf 6 4 (by decide)) 10 nofFree := by
  have hreach : Reaches step Separated {} _ := .next .start (by decide : Separated {} (.runSlot 0 (some halfMessage))) rfl
  obtain ⟨nofFree, hfirst, hunused, hok⟩ := @computeNewtxDlVrbs_shares _ _ 0 10 (twoRbs 10 (by decide))
    (vrbsOf 6 4 (by decide)) hreach ⟨rfl, fun _ => .inr rfl⟩ rfl
  exact ⟨_, _, nofFree, rfl, hfirst, hunused, hok⟩

/-- With limits of 4 of 10 VRBs the 8 used VRBs are more than all, and the share of the UE is no limit. When
the slots of two cells overlap, the cell with 2 free VRBs shares the 10 of the other cell. -/
theorem computeNewtxDlVrbs_exceeds :
    (∃ s s' : CellSlots, Reaches step (fun _ _ => True) {} s ∧
      s.step (.newTx 0 (twoRbs 4 (by decide)) (vrbsOf 8 2 (by decide)) 10) = some s' ∧
      s'.firstFree 0 = some 2 ∧ s'.shares.thisTtiUnusedCrbs = 2 ^ 32 - 4 ∧
      ¬s.shares.GrantOk (twoRbs 4 (by decide)) (vrbsOf 8 2 (by decide)) 10 2) ∧
    (∃ s s' : CellSlots, Reaches step (fun _ _ => True) {} s ∧
      s.step (.newTx 1 (twoRbs 10 (by decide)) (vrbsOf 8 2 (by decide)) 10) = some s' ∧
      s'.firstFree 1 = some 2 ∧ s'.shares.thisTtiUnusedCrbs = 10 ∧
      ¬s.shares.GrantOk (twoRbs 10 (by decide)) (vrbsOf 8 2 (by decide)) 10 2) := by
  constructor
  · refine ⟨_, _, .next .start (trivial : True) (rfl : step {} (.runSlot 0 (some halfMessage)) = some _), rfl, rfl,
      by decide +kernel, fun hok => ?_⟩
    have hshare := hok.share (1 / 2) (by decide +kernel)
    revert hshare
    decide +kernel
  · refine ⟨_, _, .next (.next (.next .start (trivial : True)
      (rfl : step {} (.runSlot 0 (some halfMessage)) = some _)) (trivial : True)
      (rfl : step _ (.runSlot 1 none) = some _)) (trivial : True)
      (rfl : step _ (.newTx 0 (twoRbs 10 (by decide)) (vrbsOf 0 10 (by decide)) 10) = some _), rfl, rfl,
      by decide +kernel, fun hok => ?_⟩
    have hshare := hok.share (1 / 2) (by decide +kernel)
    revert hshare
    decide +kernel

end CellSlots
end Srsran.Scheduler
