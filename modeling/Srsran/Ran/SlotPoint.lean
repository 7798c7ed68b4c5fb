import Mathlib.Algebra.Order.Ring.Int
import Mathlib.Tactic.Common
import Mathlib.Data.Nat.Log

/-! Slots (`slot_point.h`) and the sizes of rings indexed by slot (`resource_grid_util.h`). A slot is
numbered from the start of time; `slot_point` holds this number modulo the slots of a hyper system
frame. -/
namespace Srsran.Ran

def nofSfns : Nat := 1024

def nofSubframesPerFrame : Nat := 10

def nofSlotsPerSubframe (numerology : Nat) : Nat := 2 ^ numerology

def nofSlotsPerFrame (numerology : Nat) : Nat :=
  nofSlotsPerSubframe numerology * nofSubframesPerFrame

def nofSlotsPerHyperSystemFrame (numerology : Nat) : Nat := nofSlotsPerFrame numerology * nofSfns

def slotCount (numerology slot : Nat) : Nat := slot % nofSlotsPerHyperSystemFrame numerology

def sameSlot (numerology slot other : Nat) : Bool := slotCount numerology slot = slotCount numerology other

/-- `power2_ceil`: the loop doubles 2 for every shift of `x - 1` that leaves a bit. -/
def power2Ceil (x : Nat) : Nat := if x ≤ 1 then 1 else 2 <<< Nat.log2 (x - 1)

def divideCeil (x y : Nat) : Nat := (x + y - 1) / y

/-- `get_allocator_ring_size_gt_min` with its default subcarrier spacing of 15 kHz. -/
def getAllocatorRingSizeGtMin (minimumValue : Nat) : Nat :=
  power2Ceil (divideCeil minimumValue 10) * 10

theorem le_power2Ceil (x : Nat) : x ≤ power2Ceil x := by
  rw [power2Ceil]
  split
  · assumption
  · have hlt : x - 1 < 2 ^ (Nat.log2 (x - 1) + 1) := Nat.lt_log2_self
    rw [Nat.shiftLeft_eq, Nat.mul_comm, ← Nat.pow_succ]
    omega

theorem exists_power2Ceil (x : Nat) : ∃ k, power2Ceil x = 2 ^ k := by
  rw [power2Ceil]
  split
  · exact ⟨0, rfl⟩
  · refine ⟨Nat.log2 (x - 1) + 1, ?_⟩
    rw [Nat.shiftLeft_eq, Nat.mul_comm, Nat.pow_succ]

theorem power2Ceil_dvd {x : Nat} (h : x ≤ 1024) : power2Ceil x ∣ 1024 := by
  rw [power2Ceil]
  split
  · exact Nat.one_dvd 1024
  · rename_i hlarge
    have hlog : Nat.log2 (x - 1) < 10 := (Nat.log2_lt (by omega)).mpr (by omega)
    rw [Nat.shiftLeft_eq, Nat.mul_comm, ← Nat.pow_succ]
    exact Nat.pow_dvd_pow 2 (show Nat.log2 (x - 1) + 1 ≤ 10 by omega)

theorem le_getAllocatorRingSizeGtMin (minimumValue : Nat) :
    minimumValue ≤ getAllocatorRingSizeGtMin minimumValue := by
  have hceil := le_power2Ceil (divideCeil minimumValue 10)
  have hdiv : minimumValue ≤ divideCeil minimumValue 10 * 10 := by
    rw [divideCeil]
    omega
  exact hdiv.trans (Nat.mul_le_mul_right 10 hceil)

theorem ringSize_dvd {minimumValue : Nat} (h : minimumValue ≤ 10240) (numerology : Nat) :
    getAllocatorRingSizeGtMin minimumValue ∣ nofSlotsPerHyperSystemFrame numerology := by
  have hframes : divideCeil minimumValue 10 ≤ 1024 := by
    rw [divideCeil]
    omega
  have hbase : getAllocatorRingSizeGtMin minimumValue ∣ 1024 * 10 :=
    Nat.mul_dvd_mul_right (power2Ceil_dvd hframes) 10
  have hall : nofSlotsPerHyperSystemFrame numerology = 2 ^ numerology * (1024 * 10) := by
    rw [nofSlotsPerHyperSystemFrame, nofSlotsPerFrame, nofSlotsPerSubframe, Nat.mul_assoc]
    rfl
  rw [hall]
  exact Nat.dvd_mul_left_of_dvd hbase _

/-- Any ring that is not longer than the hyper system frame divides it. -/
theorem ringSize_dvd_of_le {minimumValue numerology : Nat}
    (h : getAllocatorRingSizeGtMin minimumValue ≤ nofSlotsPerHyperSystemFrame numerology) :
    getAllocatorRingSizeGtMin minimumValue ∣ nofSlotsPerHyperSystemFrame numerology := by
  obtain ⟨k, hk⟩ := exists_power2Ceil (divideCeil minimumValue 10)
  have hall : nofSlotsPerHyperSystemFrame numerology = 2 ^ (numerology + 10) * 10 := by
    rw [nofSlotsPerHyperSystemFrame, nofSlotsPerFrame, nofSlotsPerSubframe, Nat.pow_add, nofSfns,
      nofSubframesPerFrame]
    omega
  rw [getAllocatorRingSizeGtMin, hk, hall] at h ⊢
  have hpow : 2 ^ k ≤ 2 ^ (numerology + 10) := Nat.le_of_mul_le_mul_right h (by decide)
  exact Nat.mul_dvd_mul_right (Nat.pow_dvd_pow 2 ((Nat.pow_le_pow_iff_right (by decide)).mp hpow)) 10

theorem slotCount_mod {numerology size : Nat} (h : size ∣ nofSlotsPerHyperSystemFrame numerology)
    (slot : Nat) : slotCount numerology slot % size = slot % size :=
  Nat.mod_mod_of_dvd slot h

theorem le_nofSlotsPerHyperSystemFrame (numerology : Nat) :
    10240 ≤ nofSlotsPerHyperSystemFrame numerology := by
  have hpos := Nat.two_pow_pos numerology
  rw [nofSlotsPerHyperSystemFrame, nofSlotsPerFrame, nofSlotsPerSubframe, nofSubframesPerFrame, nofSfns]
  omega

/-! `slot_point` as it is stored: a numerology and a count below the slots of a hyper system frame. -/

def nofNumerologies : Nat := 5

structure SlotPoint where
  numerology : Nat
  count : Nat
deriving DecidableEq, Repr

namespace SlotPoint

def invalid : SlotPoint := ⟨nofNumerologies, 0⟩

def valid (sl : SlotPoint) : Bool := sl.numerology < nofNumerologies

def nofSlotsPerHyperSystemFrame (sl : SlotPoint) : Nat :=
  Ran.nofSlotsPerHyperSystemFrame sl.numerology

/-- `slot_point::operator+=`. -/
def add (sl : SlotPoint) (jump : Nat) : SlotPoint :=
  { sl with count := (sl.count + jump) % 2 ^ 32 % sl.nofSlotsPerHyperSystemFrame }

/-- `slot_point::operator-=`. -/
def sub (sl : SlotPoint) (jump : Nat) : SlotPoint :=
  { sl with count := (((sl.count : Int) - jump) % sl.nofSlotsPerHyperSystemFrame).toNat }

/-- `slot_point::operator-` of two slot points, which is positive for an earlier `other`. -/
def diff (sl other : SlotPoint) : Int :=
  let half : Int := sl.nofSlotsPerHyperSystemFrame / 2
  let a : Int := (sl.count : Int) - other.count
  if half ≤ a then a - sl.nofSlotsPerHyperSystemFrame
  else if a < -half then a + sl.nofSlotsPerHyperSystemFrame else a

/-- `slot_point::operator<`: the order within half a hyper system frame. -/
def lt (sl other : SlotPoint) : Bool :=
  let half : Int := sl.nofSlotsPerHyperSystemFrame / 2
  let v : Int := (other.count : Int) - sl.count
  if 0 < v then v < half else v < -half

/-- Slots from one slot point to the next occurrence of another one. -/
def slotsUntil (sl other : SlotPoint) : Nat :=
  (other.count + sl.nofSlotsPerHyperSystemFrame - sl.count) % sl.nofSlotsPerHyperSystemFrame

variable {sl : SlotPoint}

theorem add_add {a b : Nat} (hfits : sl.count + a + b < 2 ^ 32) :
    (sl.add a).add b = sl.add (a + b) := by
  have hfirst : (sl.count + a) % 2 ^ 32 = sl.count + a := Nat.mod_eq_of_lt (by omega)
  have hle : (sl.count + a) % sl.nofSlotsPerHyperSystemFrame ≤ sl.count + a := Nat.mod_le _ _
  have hsecond : ((sl.count + a) % sl.nofSlotsPerHyperSystemFrame + b) % 2 ^ 32 =
      (sl.count + a) % sl.nofSlotsPerHyperSystemFrame + b := Nat.mod_eq_of_lt (by omega)
  have hsum : (sl.count + (a + b)) % 2 ^ 32 = sl.count + a + b := by
    rw [← Nat.add_assoc, Nat.mod_eq_of_lt hfits]
  rw [add, add, add]
  congr 1
  rw [hfirst, hsum]
  exact (congrArg (· % sl.nofSlotsPerHyperSystemFrame) hsecond).trans (Nat.mod_add_mod _ _ _)

theorem add_sub {a b : Nat} (hle : b ≤ a) (hfits : sl.count + a < 2 ^ 32) :
    (sl.add a).sub b = sl.add (a - b) := by
  have hfirst : (sl.count + a) % 2 ^ 32 = sl.count + a := Nat.mod_eq_of_lt hfits
  have hdiff : (sl.count + (a - b)) % 2 ^ 32 = sl.count + (a - b) := Nat.mod_eq_of_lt (by omega)
  rw [add, add, sub]
  congr 1
  rw [hfirst, hdiff]
  have hcast : (((sl.count + a) % sl.nofSlotsPerHyperSystemFrame : Nat) : Int) - b =
      ((sl.count + a : Nat) : Int) % sl.nofSlotsPerHyperSystemFrame - b := by
    rw [Int.natCast_emod]
  have hmod : (((sl.count + a : Nat) : Int) % sl.nofSlotsPerHyperSystemFrame - b) %
      sl.nofSlotsPerHyperSystemFrame = ((sl.count + (a - b) : Nat) : Int) %
        sl.nofSlotsPerHyperSystemFrame := by
    rw [Int.sub_emod, Int.emod_emod_of_dvd _ (Int.dvd_refl _), ← Int.sub_emod]
    congr 1
    omega
  refine (congrArg Int.toNat ((congrArg (· % _) hcast).trans hmod)).trans ?_
  rw [← Int.natCast_emod, Int.toNat_natCast]

theorem add_zero (hlt : sl.count < sl.nofSlotsPerHyperSystemFrame)
    (hslots : sl.nofSlotsPerHyperSystemFrame ≤ 2 ^ 32) : sl.add 0 = sl := by
  have hsmall : sl.count % 2 ^ 32 = sl.count := Nat.mod_eq_of_lt (by omega)
  rw [add, Nat.add_zero, hsmall, Nat.mod_eq_of_lt hlt]

/-- A slot point of the cell is reached after `slotsUntil` slots. -/
theorem add_slotsUntil {other : SlotPoint} (hnumerology : other.numerology = sl.numerology)
    (hlt : sl.count < sl.nofSlotsPerHyperSystemFrame)
    (hlt' : other.count < sl.nofSlotsPerHyperSystemFrame)
    (hslots : sl.nofSlotsPerHyperSystemFrame ≤ 2 ^ 31) : sl.add (sl.slotsUntil other) = other := by
  have huntil : sl.slotsUntil other < sl.nofSlotsPerHyperSystemFrame := Nat.mod_lt _ (by omega)
  have hcount : (sl.count + sl.slotsUntil other) % 2 ^ 32 % sl.nofSlotsPerHyperSystemFrame =
      other.count := by
    have hsmall : (sl.count + sl.slotsUntil other) % 2 ^ 32 = sl.count + sl.slotsUntil other :=
      Nat.mod_eq_of_lt (by omega)
    rw [hsmall, slotsUntil, Nat.add_mod_mod,
      show sl.count + (other.count + sl.nofSlotsPerHyperSystemFrame - sl.count) =
        other.count + sl.nofSlotsPerHyperSystemFrame by omega, Nat.add_mod_right,
      Nat.mod_eq_of_lt hlt']
  cases other
  rw [add]
  exact congrArg₂ SlotPoint.mk hnumerology.symm hcount

/-! Slot points of slots that are numbered from the start of time. -/

def ofSlot (numerology slot : Nat) : SlotPoint := ⟨numerology, slotCount numerology slot⟩

variable {numerology : Nat}

theorem nofSlotsPerHyperSystemFrame_le (h : numerology < nofNumerologies) :
    Ran.nofSlotsPerHyperSystemFrame numerology ≤ 2 ^ 18 := by
  have hpow : 2 ^ numerology ≤ 2 ^ 4 := Nat.pow_le_pow_right (by decide) (Nat.le_of_lt_succ h)
  rw [Ran.nofSlotsPerHyperSystemFrame, nofSlotsPerFrame, nofSlotsPerSubframe, nofSubframesPerFrame,
    nofSfns]
  omega

theorem ofSlot_valid (h : numerology < nofNumerologies) (slot : Nat) :
    (ofSlot numerology slot).valid = true := by
  rw [valid]
  exact decide_eq_true h

theorem slotCount_lt (numerology slot : Nat) :
    slotCount numerology slot < Ran.nofSlotsPerHyperSystemFrame numerology :=
  Nat.mod_lt _ (Nat.lt_of_lt_of_le (by decide) (le_nofSlotsPerHyperSystemFrame numerology))

theorem add_ofSlot {jump : Nat} (h : numerology < nofNumerologies) (hjump : jump < 2 ^ 31)
    (slot : Nat) : (ofSlot numerology slot).add jump = ofSlot numerology (slot + jump) := by
  have hcount := slotCount_lt numerology slot
  have hle := nofSlotsPerHyperSystemFrame_le h
  have hsmall : (slotCount numerology slot + jump) % 2 ^ 32 = slotCount numerology slot + jump :=
    Nat.mod_eq_of_lt (by omega)
  rw [ofSlot, add, hsmall]
  exact congrArg (SlotPoint.mk numerology) (Nat.mod_add_mod _ _ _)

theorem sub_ofSlot {jump slot : Nat} (hjump : jump ≤ slot) :
    (ofSlot numerology slot).sub jump = ofSlot numerology (slot - jump) := by
  have hcast : ((slotCount numerology slot : Int) - jump) %
      (Ran.nofSlotsPerHyperSystemFrame numerology : Int) =
        ((slotCount numerology (slot - jump) : Nat) : Int) := by
    rw [slotCount, slotCount, Int.natCast_emod, Int.natCast_emod, Int.emod_sub_emod, Int.natCast_sub hjump]
  refine congrArg (SlotPoint.mk numerology) ?_
  exact (congrArg Int.toNat hcast).trans (Int.toNat_natCast _)

/-- Slots that are near each other are as far apart as their slot points. -/
theorem diff_ofSlot {back slot : Nat} (hback : back ≤ slot) (hnear : back < 5120) :
    (ofSlot numerology slot).diff (ofSlot numerology (slot - back)) = back := by
  have hcycle := le_nofSlotsPerHyperSystemFrame numerology
  have hlt := slotCount_lt numerology slot
  have hlt' := slotCount_lt numerology (slot - back)
  have hsum : (slotCount numerology (slot - back) + back) % Ran.nofSlotsPerHyperSystemFrame numerology =
      slotCount numerology slot := by
    rw [slotCount, slotCount, Nat.mod_add_mod, Nat.sub_add_cancel hback]
  have hcount : slotCount numerology slot = slotCount numerology (slot - back) + back ∨
      slotCount numerology slot + Ran.nofSlotsPerHyperSystemFrame numerology =
        slotCount numerology (slot - back) + back := by
    rcases Nat.lt_or_ge (slotCount numerology (slot - back) + back)
      (Ran.nofSlotsPerHyperSystemFrame numerology) with hfits | hwraps
    · exact .inl (by rw [← hsum, Nat.mod_eq_of_lt hfits])
    · refine .inr ?_
      rw [← hsum, Nat.mod_eq_sub_mod hwraps, Nat.mod_eq_of_lt (by omega), Nat.sub_add_cancel hwraps]
  have hcycle' : (ofSlot numerology slot).nofSlotsPerHyperSystemFrame =
      Ran.nofSlotsPerHyperSystemFrame numerology := rfl
  have hfirst : (ofSlot numerology slot).count = slotCount numerology slot := rfl
  have hsecond : (ofSlot numerology (slot - back)).count = slotCount numerology (slot - back) := rfl
  rw [diff, hcycle', hfirst, hsecond]
  split
  · omega
  · split <;> omega

end SlotPoint

end Srsran.Ran
