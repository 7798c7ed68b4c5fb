import Mathlib.Algebra.Order.Ring.Int
import Mathlib.Order.Bounds.Basic
import Mathlib.Order.Monotone.Basic
import Mathlib.Tactic.Common

/-! The search for a number of PRBs whose TBS holds a payload (`prbs_calculator.cpp`). -/
namespace Srsran.Scheduler

structure SchPrbsTbs where
  nofPrbs : Nat
  tbsBytes : Nat
  deriving DecidableEq, Repr

/-- A return from the loop, or its regular end. -/
inductive PrbLoopEnd where
  | found (result : SchPrbsTbs)
  | ended (nPrb tbsBitsUb : Nat)
  deriving DecidableEq, Repr

/-- `tbs_calculator_calculate` with everything but the number of PRBs fixed. -/
abbrev TbsCalculator := Nat → Nat

variable (tbs : TbsCalculator)

/-- The loop for an estimate that is too big. `tbs_bits_lb` equals `tbs_bits_ub` between two turns. -/
def decreasePrbs (estimate payloadSizeBits : Nat) : Nat → Nat → Nat → Nat → Option PrbLoopEnd
  | 0, _, _, _ => none
  | fuel + 1, nofPrbDec, nPrb, tbsBitsUb =>
    if nofPrbDec < nPrb ∧ payloadSizeBits ≤ tbsBitsUb then
      let nPrb := estimate - nofPrbDec
      let tbsBitsLb := tbs nPrb
      if tbsBitsLb < payloadSizeBits then some (.found ⟨nPrb + 1, tbsBitsUb / 8⟩)
      else decreasePrbs estimate payloadSizeBits fuel (nofPrbDec + 1) nPrb tbsBitsLb
    else some (.ended nPrb tbsBitsUb)

/-- The loop for an estimate that is too small, with the turns that `nof_prb_inc` leaves. -/
def increasePrbs (estimate payloadSizeBits maxNofAvailableRbs : Nat) : Nat → Nat → Nat → Nat → Nat × Nat
  | 0, _, nPrb, tbsBitsUb => (nPrb, tbsBitsUb)
  | turns + 1, nofPrbInc, nPrb, tbsBitsUb =>
    if tbsBitsUb < payloadSizeBits ∧ nPrb < maxNofAvailableRbs then
      increasePrbs estimate payloadSizeBits maxNofAvailableRbs turns (nofPrbInc + 1) (estimate + nofPrbInc)
        (tbs (estimate + nofPrbInc))
    else (nPrb, tbsBitsUb)

/-- There is no result if the first loop makes more than `nof_prbs_estimate` turns. -/
def linearSearchNofPrbsUpperBound (payloadSizeBytes estimate maxNofAvailableRbs maxPrbIncIterations : Nat) :
    Option SchPrbsTbs :=
  let payloadSizeBits := payloadSizeBytes * 8 % 2 ^ 32
  match decreasePrbs tbs estimate payloadSizeBits (estimate + 1) 1 estimate (tbs estimate) with
  | none => none
  | some (.found result) => some result
  | some (.ended nPrb tbsBitsUb) =>
    let (nPrb, tbsBitsUb) := increasePrbs tbs estimate payloadSizeBits maxNofAvailableRbs (maxPrbIncIterations - 1) 1
      nPrb tbsBitsUb
    some ⟨nPrb, tbsBitsUb / 8⟩

variable {tbs} {estimate payload maxRbs : Nat}

/-- Halfway down the loop ends, with the payload still held or at the first number that does not hold it. -/
theorem decreasePrbs_cases {fuel dec nPrb : Nat} (hdec : 0 < dec) (hsum : nPrb + dec = estimate + 1)
    (hle : dec ≤ nPrb + 1) (hfuel : nPrb + 1 < fuel + dec) (hholds : payload ≤ tbs nPrb) :
    (∃ n, (estimate + 1) / 2 < n ∧ n ≤ estimate ∧ payload ≤ tbs n ∧ tbs (n - 1) < payload ∧
      decreasePrbs tbs estimate payload fuel dec nPrb (tbs nPrb) = some (.found ⟨n, tbs n / 8⟩)) ∨
    payload ≤ tbs ((estimate + 1) / 2) ∧ decreasePrbs tbs estimate payload fuel dec nPrb (tbs nPrb) =
      some (.ended ((estimate + 1) / 2) (tbs ((estimate + 1) / 2))) := by
  induction fuel generalizing dec nPrb with
  | zero => omega
  | succ fuel ih =>
    rw [decreasePrbs]
    by_cases hless : dec < nPrb
    · have hnext : estimate - dec = nPrb - 1 := by omega
      rw [if_pos ⟨hless, hholds⟩, hnext]
      dsimp only
      by_cases hfound : tbs (nPrb - 1) < payload
      · rw [if_pos hfound, Nat.sub_add_cancel (by omega)]
        exact .inl ⟨nPrb, by omega, by omega, hholds, hfound, rfl⟩
      · rw [if_neg hfound]
        exact ih (by omega) (by omega) (by omega) (by omega) (Nat.le_of_not_lt hfound)
    · have hhalf : (estimate + 1) / 2 = nPrb := by omega
      rw [if_neg (fun h => hless h.1), hhalf]
      exact .inr ⟨hholds, rfl⟩

theorem increasePrbs_spec {turns inc nPrb : Nat} (hinc : nPrb + 1 = estimate + inc) (hle : nPrb ≤ maxRbs) :
    ∃ n ≤ maxRbs, increasePrbs tbs estimate payload maxRbs turns inc nPrb (tbs nPrb) = (n, tbs n) := by
  induction turns generalizing inc nPrb with
  | zero => exact ⟨nPrb, hle, rfl⟩
  | succ turns ih =>
    rw [increasePrbs]
    split
    · next hgo => exact ih (by omega) (by omega)
    · exact ⟨nPrb, hle, rfl⟩

theorem increasePrbs_of_holds {turns inc nPrb : Nat} (hholds : payload ≤ tbs nPrb) :
    increasePrbs tbs estimate payload maxRbs turns inc nPrb (tbs nPrb) = (nPrb, tbs nPrb) := by
  cases turns with
  | zero => rfl
  | succ turns => rw [increasePrbs, if_neg (fun h => Nat.not_lt.mpr hholds h.1)]

/-- What the search promises: a result in the bounds, with the TBS of its own PRBs, and with as few PRBs as the
payload needs when the estimate is not too small. -/
def SearchFinds (tbs : TbsCalculator) (payloadSizeBytes estimate maxNofAvailableRbs maxPrbIncIterations : Nat) : Prop :=
  ∃ r, linearSearchNofPrbsUpperBound tbs payloadSizeBytes estimate maxNofAvailableRbs maxPrbIncIterations =
      some r ∧ r.nofPrbs ≤ maxNofAvailableRbs ∧ r.tbsBytes = tbs r.nofPrbs / 8 ∧
    (payloadSizeBytes * 8 ≤ tbs estimate → IsLeast {n | 1 ≤ n ∧ payloadSizeBytes * 8 ≤ tbs n} r.nofPrbs)

/-- The search keeps its promise unless the payload needs less than half of the estimate. -/
theorem linearSearchNofPrbsUpperBound_iff {payloadBytes maxIterations : Nat} (hmono : Monotone tbs)
    (hbits : ∀ n, tbs n < 2 ^ 32) (hpos : 1 ≤ estimate) (hmax : estimate ≤ maxRbs) :
    SearchFinds tbs payloadBytes estimate maxRbs maxIterations ↔
      (payloadBytes * 8 ≤ tbs estimate → estimate ≤ 2 ∨ tbs ((estimate + 1) / 2 - 1) < payloadBytes * 8) := by
  rw [SearchFinds, linearSearchNofPrbsUpperBound]
  by_cases hfits : payloadBytes * 8 ≤ tbs estimate
  · have hsmall : payloadBytes * 8 % 2 ^ 32 = payloadBytes * 8 := Nat.mod_eq_of_lt (hfits.trans_lt (hbits estimate))
    rw [hsmall]
    have hless {n : Nat} (hn : tbs (n - 1) < payloadBytes * 8) :
        n ∈ lowerBounds {n | 1 ≤ n ∧ payloadBytes * 8 ≤ tbs n} := by
      rintro m ⟨-, hm⟩
      by_contra hlt
      exact absurd (hm.trans (hmono (by omega))) (Nat.not_le.mpr hn)
    have hcases := @decreasePrbs_cases tbs estimate (payloadBytes * 8) (estimate + 1) 1 estimate Nat.one_pos rfl
      (by omega) (by omega) hfits
    rcases hcases with ⟨n, hhalf, hle, hn, hprev, hrun⟩ | ⟨hholds, hrun⟩
    · dsimp only
      rw [hrun]
      refine ⟨fun _ _ => .inr ((hmono (by omega)).trans_lt hprev), fun _ => ?_⟩
      exact ⟨_, rfl, hle.trans hmax, rfl, fun _ => ⟨⟨by dsimp only; omega, hn⟩, hless hprev⟩⟩
    · dsimp only
      rw [hrun]
      dsimp only
      rw [increasePrbs_of_holds hholds]
      constructor
      · rintro ⟨r, hr, -, -, hleast⟩ -
        cases hr
        by_contra hnot
        have hmember : (estimate + 1) / 2 - 1 ∈ {n | 1 ≤ n ∧ payloadBytes * 8 ≤ tbs n} := ⟨by omega, by omega⟩
        have hhalf : (estimate + 1) / 2 ≤ (estimate + 1) / 2 - 1 := (hleast hfits).2 hmember
        omega
      · intro hcond
        refine ⟨_, rfl, by dsimp only; omega, rfl, fun _ => ⟨⟨by dsimp only; omega, hholds⟩, ?_⟩⟩
        rcases hcond hfits with htwo | hprev
        · rintro m ⟨hm, -⟩
          dsimp only
          omega
        · exact hless hprev
  · refine iff_of_true ?_ (fun h => absurd h hfits)
    dsimp only
    generalize payloadBytes * 8 % 2 ^ 32 = payload
    by_cases hholds : payload ≤ tbs estimate
    · have hcases := @decreasePrbs_cases tbs estimate payload (estimate + 1) 1 estimate Nat.one_pos rfl
        (by omega) (by omega) hholds
      rcases hcases with ⟨n, -, hle, -, -, hrun⟩ | ⟨hhalf, hrun⟩
      · rw [hrun]
        exact ⟨_, rfl, hle.trans hmax, rfl, fun h => absurd h hfits⟩
      · rw [hrun]
        dsimp only
        rw [increasePrbs_of_holds hhalf]
        exact ⟨_, rfl, by dsimp only; omega, rfl, fun h => absurd h hfits⟩
    · rw [decreasePrbs, if_neg (fun h => hholds h.2)]
      obtain ⟨n, hn, hrun⟩ := @increasePrbs_spec tbs estimate payload maxRbs (maxIterations - 1) 1 estimate rfl hmax
      dsimp only
      rw [hrun]
      exact ⟨_, rfl, hn, rfl, fun h => absurd h hfits⟩

theorem linearSearchNofPrbsUpperBound_iff_ten :
    SearchFinds (fun n => 8 * min n 273) 6 10 273 5 ↔
      (6 * 8 ≤ 80 → 10 ≤ 2 ∨ 8 * min 4 273 < 6 * 8) :=
  linearSearchNofPrbsUpperBound_iff (fun m n h => by grind) (fun n => by omega) (by decide)
    (by decide)

/-- One byte fits in one PRB, but the search stops at five of the ten of its estimate. -/
theorem linearSearchNofPrbsUpperBound_not_least : ¬ SearchFinds (fun n => 8 * min n 273) 1 10 273 5 := by
  rintro ⟨r, hr, -, -, hleast⟩
  have hrun : linearSearchNofPrbsUpperBound (fun n => 8 * min n 273) 1 10 273 5 = some ⟨5, 5⟩ := by decide
  cases hrun.symm.trans hr
  have hle : 5 ≤ 1 := (hleast (by decide)).2 ⟨le_rfl, by decide⟩
  omega

end Srsran.Scheduler
