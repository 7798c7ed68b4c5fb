import Mathlib.Data.Nat.Bitwise
import Srsran.Pdcp.SnUtil

/-! COUNT, HFN and SN (`pdcp_sn.h`) and the reconstruction of a COUNT from an SN, which receiver and
transmitter make with different references. -/
namespace Srsran.Pdcp

/-- `pdcp_window_size`: half of the SN space. -/
def pdcpWindowSize : PdcpSnSize → Nat
  | .size12bits => 2048
  | .size18bits => 131072

def pdcpDataPduHeaderSize : PdcpSnSize → Nat
  | .size12bits => 2
  | .size18bits => 3

def pdcpSnCardinality (snSize : PdcpSnSize) : Nat := 1 <<< snSize.toNumber

def pdcpComputeSn (count : Nat) (snSize : PdcpSnSize) : Nat :=
  count &&& (0xffffffff >>> (32 - snSize.toNumber))

def pdcpComputeHfn (count : Nat) (snSize : PdcpSnSize) : Nat := count >>> snSize.toNumber

def pdcpComputeCount (hfn sn : Nat) (snSize : PdcpSnSize) : Nat :=
  ((hfn <<< snSize.toNumber) % 2 ^ 32) ||| sn

/-- The COUNT with the given SN that belongs to the window around `lower`, in 32-bit arithmetic.
`handle_data_pdu` applies it to `rx_deliv`, `notification_count_estimation` to the lower edge of the
TX window. -/
def countEstimation (snSize : PdcpSnSize) (lower sn : Nat) : Nat :=
  let lowerSn := pdcpComputeSn lower snSize
  let lowerHfn := pdcpComputeHfn lower snSize
  let windowSize := pdcpWindowSize snSize
  let hfn :=
    -- The first comparison is made on 64-bit signed integers.
    if (sn : Int) < (lowerSn : Int) - (windowSize : Int) then (lowerHfn + 1) % 2 ^ 32
    else if sn ≥ (lowerSn + windowSize) % 2 ^ 32 then (lowerHfn + 2 ^ 32 - 1) % 2 ^ 32
    else lowerHfn
  pdcpComputeCount hfn sn snSize

def countDistance (first last : Nat) : Nat := (last + 2 ^ 32 - first) % 2 ^ 32

theorem countDistance_of_le {first last : Nat} (h : first ≤ last) (hlast : last < 2 ^ 32) :
    countDistance first last = last - first := by
  rw [countDistance]
  omega

variable {snSize : PdcpSnSize} {lower sn count hfn : Nat}

theorem pdcpWindowSize_pos (snSize : PdcpSnSize) : 0 < pdcpWindowSize snSize := by
  cases snSize <;> decide

theorem pdcpComputeSn_eq : pdcpComputeSn count snSize = count % pdcpSnCardinality snSize := by
  rw [pdcpComputeSn, pdcpSnCardinality, Nat.one_shiftLeft]
  cases snSize
  · exact Nat.and_two_pow_sub_one_eq_mod count 12
  · exact Nat.and_two_pow_sub_one_eq_mod count 18

theorem pdcpComputeSn_lt : pdcpComputeSn count snSize < pdcpSnCardinality snSize := by
  rw [pdcpComputeSn_eq]
  exact Nat.mod_lt _ (by cases snSize <;> decide)

theorem pdcpComputeHfn_eq : pdcpComputeHfn count snSize = count / pdcpSnCardinality snSize := by
  rw [pdcpComputeHfn, pdcpSnCardinality, Nat.one_shiftLeft, Nat.shiftRight_eq_div_pow]

theorem pdcpComputeCount_eq (hsn : sn < pdcpSnCardinality snSize) :
    pdcpComputeCount hfn sn snSize = (hfn * pdcpSnCardinality snSize) % 2 ^ 32 + sn := by
  rw [pdcpSnCardinality, Nat.one_shiftLeft] at hsn ⊢
  have hpow : 2 ^ 32 = 2 ^ snSize.toNumber * 2 ^ (32 - snSize.toNumber) := by
    cases snSize <;> rfl
  have hhigh : hfn * 2 ^ snSize.toNumber % 2 ^ 32 =
      2 ^ snSize.toNumber * (hfn % 2 ^ (32 - snSize.toNumber)) := by
    rw [Nat.mul_comm hfn, hpow, Nat.mul_mod_mul_left]
  rw [pdcpComputeCount, Nat.shiftLeft_eq, hhigh]
  exact (Nat.two_pow_add_eq_or_of_lt hsn _).symm

/-- The COUNTs less than half of the SN space below or above the reference. -/
def CountInWindow (snSize : PdcpSnSize) (lower count : Nat) : Prop :=
  lower ≤ count + pdcpWindowSize snSize ∧ count < lower + pdcpWindowSize snSize

/-- The HFN below 0 or above its maximum would be needed. -/
def HfnLeavesRange (snSize : PdcpSnSize) (lower sn : Nat) : Prop :=
  (pdcpComputeHfn lower snSize = 0 ∧ pdcpComputeSn lower snSize + pdcpWindowSize snSize ≤ sn) ∨
    (pdcpComputeHfn lower snSize = pdcpComputeHfn 0xffffffff snSize ∧
      sn + pdcpWindowSize snSize < pdcpComputeSn lower snSize)

instance : Decidable (HfnLeavesRange snSize lower sn) := by
  unfold HfnLeavesRange
  infer_instance

/-- The three branches, with the HFN as it ends up in the COUNT. -/
theorem countEstimation_cases (lower : Nat) (hsn : sn < pdcpSnCardinality snSize) :
    (sn + pdcpWindowSize snSize < pdcpComputeSn lower snSize ∧ countEstimation snSize lower sn =
        ((pdcpComputeHfn lower snSize + 1) % 2 ^ 32 * pdcpSnCardinality snSize) % 2 ^ 32 + sn) ∨
      (pdcpComputeSn lower snSize + pdcpWindowSize snSize ≤ sn ∧ countEstimation snSize lower sn =
        ((pdcpComputeHfn lower snSize + 2 ^ 32 - 1) % 2 ^ 32 * pdcpSnCardinality snSize) % 2 ^ 32 +
          sn) ∨
      (pdcpComputeSn lower snSize ≤ sn + pdcpWindowSize snSize ∧
        sn < pdcpComputeSn lower snSize + pdcpWindowSize snSize ∧ countEstimation snSize lower sn =
          (pdcpComputeHfn lower snSize * pdcpSnCardinality snSize) % 2 ^ 32 + sn) := by
  have hlowerSn : pdcpComputeSn lower snSize < pdcpSnCardinality snSize := pdcpComputeSn_lt
  have hsum : (pdcpComputeSn lower snSize + pdcpWindowSize snSize) % 2 ^ 32 =
      pdcpComputeSn lower snSize + pdcpWindowSize snSize := by
    apply Nat.mod_eq_of_lt
    apply Nat.lt_trans (Nat.add_lt_add_right hlowerSn _)
    cases snSize <;> decide
  simp only [countEstimation, hsum, pdcpComputeCount_eq hsn]
  by_cases hnext : (sn : Int) < (pdcpComputeSn lower snSize : Int) - (pdcpWindowSize snSize : Int)
  · left
    rw [if_pos hnext]
    exact ⟨by omega, rfl⟩
  · rw [if_neg hnext]
    by_cases hprev : sn ≥ pdcpComputeSn lower snSize + pdcpWindowSize snSize
    · right
      left
      rw [if_pos hprev]
      exact ⟨hprev, rfl⟩
    · right
      right
      rw [if_neg hprev]
      exact ⟨by omega, by omega, rfl⟩

/-- Within the window the reconstruction finds the COUNT that the SN was taken from. -/
theorem countEstimation_eq (hlower : lower < 2 ^ 32) (hcount : count < 2 ^ 32)
    (hwindow : CountInWindow snSize lower count) :
    countEstimation snSize lower (pdcpComputeSn count snSize) = count := by
  have hsn : pdcpComputeSn count snSize < pdcpSnCardinality snSize := pdcpComputeSn_lt
  obtain ⟨hge, hlt⟩ := hwindow
  obtain ⟨hbranch, heq⟩ | ⟨hbranch, heq⟩ | ⟨hbranch, hbranch', heq⟩ :=
    countEstimation_cases lower hsn
  all_goals
    rw [heq]
    clear heq
    cases snSize <;> simp only [pdcpComputeSn_eq, pdcpComputeHfn_eq, pdcpSnCardinality,
      pdcpWindowSize, PdcpSnSize.toNumber, Nat.one_shiftLeft] at * <;> omega

/-- The reconstructed COUNT stays in the window unless the HFN would leave its range. -/
theorem countEstimation_inWindow_iff (hlower : lower < 2 ^ 32)
    (hsn : sn < pdcpSnCardinality snSize) :
    CountInWindow snSize lower (countEstimation snSize lower sn) ↔ ¬HfnLeavesRange snSize lower sn := by
  obtain ⟨hbranch, heq⟩ | ⟨hbranch, heq⟩ | ⟨hbranch, hbranch', heq⟩ :=
    countEstimation_cases lower hsn
  all_goals
    rw [heq, CountInWindow, HfnLeavesRange]
    clear heq
    cases snSize <;> simp only [pdcpComputeSn_eq, pdcpComputeHfn_eq, pdcpSnCardinality,
      pdcpWindowSize, PdcpSnSize.toNumber, Nat.one_shiftLeft] at * <;> omega

end Srsran.Pdcp
