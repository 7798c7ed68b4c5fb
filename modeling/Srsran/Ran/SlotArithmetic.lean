import Srsran.Ran.SlotPoint

/-! The arithmetic of slot points on which rings, timeouts and windows rest (`slot_point.h`). -/
namespace Srsran.Ran.SlotPoint

/-- `slot_point::operator+=(int)`; the remainder of C++ has the sign of its first operand. -/
def addInt (sl : SlotPoint) (jump : Int) : SlotPoint :=
  let nofSlots : Int := sl.nofSlotsPerHyperSystemFrame
  let tmp := (sl.count + jump).tmod nofSlots
  { sl with count := (tmp + if tmp < 0 then nofSlots else 0).toNat }

/-- `slot_point::operator-=(int)`. -/
def subInt (sl : SlotPoint) (jump : Int) : SlotPoint := sl.addInt (-jump)

/-- `slot_point::operator++`. -/
def increment (sl : SlotPoint) : SlotPoint :=
  { sl with count := if sl.count + 1 = sl.nofSlotsPerHyperSystemFrame then 0 else sl.count + 1 }

/-- `slot_point::operator>`, which is built on `!=` and `>=`. -/
def gt (sl other : SlotPoint) : Bool := sl != other && !sl.lt other

/-- `set_slot_numerology`. -/
def setSlotNumerology (sl : SlotPoint) (newNumerology : Nat) : SlotPoint :=
  if newNumerology < sl.numerology then ⟨newNumerology, sl.count >>> (sl.numerology - newNumerology)⟩
  else if sl.numerology < newNumerology then ⟨newNumerology, sl.count <<< (newNumerology - sl.numerology)⟩
  else sl

/-- A slot point whose constructor fails no assertion. -/
structure WellFormed (sl : SlotPoint) : Prop where
  numerology_lt : sl.numerology < nofNumerologies
  count_lt : sl.count < sl.nofSlotsPerHyperSystemFrame

section
variable {a b : SlotPoint} {jump : Int}

theorem eq_of_count (hnumerology : a.numerology = b.numerology) (hcount : a.count = b.count) : a = b := by
  cases a
  exact congrArg₂ SlotPoint.mk hnumerology hcount

theorem two_mul_half (sl : SlotPoint) : 2 * (sl.nofSlotsPerHyperSystemFrame / 2) = sl.nofSlotsPerHyperSystemFrame := by
  refine Nat.mul_div_cancel' ?_
  exact Nat.dvd_mul_left_of_dvd (by decide) _

theorem WellFormed.addInt (h : a.WellFormed) (hlow : -(a.nofSlotsPerHyperSystemFrame : Int) ≤ jump)
    (hhigh : jump ≤ a.nofSlotsPerHyperSystemFrame) :
    (a.addInt jump).WellFormed ∧ (a.addInt jump).numerology = a.numerology ∧
      ((a.addInt jump).count : Int) =
        if a.count + jump < 0 then a.count + jump + a.nofSlotsPerHyperSystemFrame
        else if a.count + jump < a.nofSlotsPerHyperSystemFrame then a.count + jump
        else a.count + jump - a.nofSlotsPerHyperSystemFrame := by
  have hlt := h.count_lt
  have hcount : ((a.count + jump).tmod a.nofSlotsPerHyperSystemFrame : Int) =
      if a.count + jump < a.nofSlotsPerHyperSystemFrame then
        if a.count + jump = -a.nofSlotsPerHyperSystemFrame then 0 else a.count + jump
      else a.count + jump - a.nofSlotsPerHyperSystemFrame := by
    rcases Int.lt_or_le (a.count + jump) 0 with hneg | hpos
    · obtain ⟨x, hx⟩ : ∃ x : Int, a.count + jump = -x := ⟨-(a.count + jump), by omega⟩
      rw [hx, Int.neg_tmod]
      rcases Int.lt_or_eq_of_le (by omega : x ≤ a.nofSlotsPerHyperSystemFrame) with hless | rfl
      · rw [Int.tmod_eq_of_lt (by omega) hless, if_pos (by omega), if_neg (by omega)]
      · rw [Int.tmod_self, if_pos (by omega), if_pos rfl, Int.neg_zero]
    · rcases Int.lt_or_le (a.count + jump) a.nofSlotsPerHyperSystemFrame with hless | hmore
      · rw [Int.tmod_eq_of_lt hpos hless, if_pos hless, if_neg (by omega)]
      · rw [Int.tmod_eq_emod_of_nonneg hpos, if_neg (by omega), ← Int.sub_emod_right,
          Int.emod_eq_of_lt (by omega) (by omega)]
  rw [SlotPoint.addInt]
  dsimp only
  rw [hcount]
  refine ⟨⟨h.numerology_lt, ?_⟩, rfl, ?_⟩
  · show Int.toNat _ < a.nofSlotsPerHyperSystemFrame
    split <;> split <;> omega
  · show (Int.toNat _ : Int) = _
    split <;> split <;> omega

theorem WellFormed.count_lt_of_same (hb : b.WellFormed) (hsame : b.numerology = a.numerology) :
    b.count < a.nofSlotsPerHyperSystemFrame := by
  have h := hb.count_lt
  rwa [nofSlotsPerHyperSystemFrame, hsame] at h

section
variable (ha : a.WellFormed)
include ha

theorem diff_bounds (hb : b.WellFormed) (hsame : b.numerology = a.numerology) :
    -(a.nofSlotsPerHyperSystemFrame / 2 : Int) ≤ a.diff b ∧ a.diff b < a.nofSlotsPerHyperSystemFrame / 2 := by
  have hhalf := two_mul_half a
  have hlt := ha.count_lt
  have hlt' : b.count < a.nofSlotsPerHyperSystemFrame := hb.count_lt_of_same hsame
  rw [diff]
  split
  · omega
  · split <;> omega

/-- A sum is as far from the slot point as the jump says, and the jump back gives the slot point. -/
theorem addInt_inverse (hlow : -(a.nofSlotsPerHyperSystemFrame : Int) < 2 * jump)
    (hhigh : 2 * jump < a.nofSlotsPerHyperSystemFrame) :
    (a.addInt jump).diff a = jump ∧ (a.addInt jump).subInt jump = a := by
  have hhalf := two_mul_half a
  have hlt := ha.count_lt
  obtain ⟨hsum, hnumerology, hcount⟩ := ha.addInt (by omega : -(a.nofSlotsPerHyperSystemFrame : Int) ≤ jump) (by omega)
  have hslots : (a.addInt jump).nofSlotsPerHyperSystemFrame = a.nofSlotsPerHyperSystemFrame := by
    rw [nofSlotsPerHyperSystemFrame, hnumerology]
    rfl
  obtain ⟨-, hnumerology', hcount'⟩ := hsum.addInt (by rw [hslots]; omega : _ ≤ -jump) (by rw [hslots]; omega)
  rw [hslots, hcount] at hcount'
  constructor
  · rw [diff, hslots, hcount]
    split <;> split <;> omega
  · rw [subInt]
    have hback : ((a.addInt jump).addInt (-jump)).count = a.count := by
      split at hcount' <;> split at hcount' <;> omega
    exact eq_of_count (hnumerology'.trans hnumerology) hback

/-- The comparison tells which of two slot points is the later one, unless they are half a cycle apart. -/
theorem lt_iff_diff_pos (hb : b.WellFormed) (hsame : b.numerology = a.numerology)
    (hfar : a.diff b ≠ -(a.nofSlotsPerHyperSystemFrame / 2 : Int)) :
    (a.lt b = true ↔ 0 < b.diff a) ∧ (a.gt b = true ↔ 0 < a.diff b) ∧ (a = b ↔ a.diff b = 0) ∧
      b.diff a = -a.diff b := by
  have hhalf := two_mul_half a
  have hlt := ha.count_lt
  have hlt' : b.count < a.nofSlotsPerHyperSystemFrame := hb.count_lt_of_same hsame
  have hslots : b.nofSlotsPerHyperSystemFrame = a.nofSlotsPerHyperSystemFrame := by
    rw [nofSlotsPerHyperSystemFrame, hsame]
    rfl
  have heq : a = b ↔ a.count = b.count := ⟨congrArg _, eq_of_count hsame.symm⟩
  have hless : a.lt b = true ↔ (0 < (b.count : Int) - a.count ∧ (b.count : Int) - a.count < a.nofSlotsPerHyperSystemFrame / 2) ∨
      (b.count : Int) - a.count < -(a.nofSlotsPerHyperSystemFrame / 2) := by
    rw [lt]
    split <;> rw [decide_eq_true_eq] <;> omega
  have hmore : a.gt b = true ↔ a.count ≠ b.count ∧ ¬a.lt b = true := by
    rw [gt, Bool.and_eq_true, bne_iff_ne, ne_eq, heq, Bool.not_eq_true', Bool.not_eq_true]
  rw [hmore, hless, heq, diff, diff, hslots]
  rw [diff] at hfar
  split <;> split at hfar <;> omega

/-- The overloads for unsigned jumps agree with those for signed ones. -/
theorem add_eq_addInt {k : Nat} (hk : k < a.nofSlotsPerHyperSystemFrame) :
    a.add k = a.addInt k ∧ a.sub k = a.subInt k := by
  have hlt := ha.count_lt
  have hmax : a.nofSlotsPerHyperSystemFrame ≤ 2 ^ 18 := nofSlotsPerHyperSystemFrame_le ha.numerology_lt
  obtain ⟨-, hnumerology, hcount⟩ := ha.addInt (by omega : -(a.nofSlotsPerHyperSystemFrame : Int) ≤ k) (by omega)
  obtain ⟨-, hnumerology', hcount'⟩ := ha.addInt (by omega : -(a.nofSlotsPerHyperSystemFrame : Int) ≤ -k) (by omega)
  constructor
  · have hsmall : (a.count + k) % 2 ^ 32 = a.count + k := Nat.mod_eq_of_lt (by omega)
    have hmod : (a.count + k) % a.nofSlotsPerHyperSystemFrame = (a.addInt k).count := by
      rcases Nat.lt_or_ge (a.count + k) a.nofSlotsPerHyperSystemFrame with hless | hmore
      · rw [Nat.mod_eq_of_lt hless]
        split at hcount <;> omega
      · rw [Nat.mod_eq_sub_mod hmore, Nat.mod_eq_of_lt (by omega)]
        split at hcount <;> omega
    exact eq_of_count hnumerology.symm ((congrArg (· % _) hsmall).trans hmod)
  · refine eq_of_count hnumerology'.symm ?_
    rw [sub, subInt]
    dsimp only
    rcases Nat.lt_or_ge a.count k with hneg | hpos
    · rw [← Int.add_emod_right, Int.emod_eq_of_lt (by omega) (by omega)]
      split at hcount' <;> omega
    · rw [Int.emod_eq_of_lt (by omega) (by omega)]
      split at hcount' <;> omega

theorem increment_eq : a.increment = a.addInt 1 := by
  have hlt := ha.count_lt
  obtain ⟨-, hnumerology, hcount⟩ := ha.addInt (by omega : -(a.nofSlotsPerHyperSystemFrame : Int) ≤ 1) (by omega)
  refine eq_of_count hnumerology.symm ?_
  rw [increment]
  dsimp only
  split <;> split at hcount <;> omega

end

theorem diff_of_le {first : Nat} (hle : first ≤ a.count) (hnear : 2 * (a.count - first) < a.nofSlotsPerHyperSystemFrame) :
    a.diff ⟨a.numerology, first⟩ = a.count - first := by
  have hhalf := two_mul_half a
  rw [diff]
  dsimp only
  rw [if_neg (by omega), if_neg (by omega)]

theorem nofSlots_shiftLeft (numerology shift : Nat) : Ran.nofSlotsPerHyperSystemFrame (numerology + shift) =
    Ran.nofSlotsPerHyperSystemFrame numerology * 2 ^ shift := by
  simp only [Ran.nofSlotsPerHyperSystemFrame, nofSlotsPerFrame, nofSlotsPerSubframe, Nat.pow_add]
  ac_rfl

/-- A conversion to a higher numerology and back loses nothing. -/
theorem numerology_setSlotNumerology (newNumerology : Nat) :
    (a.setSlotNumerology newNumerology).numerology = newNumerology := by
  rw [setSlotNumerology]
  split
  · rfl
  · split
    · rfl
    · omega

theorem setSlotNumerology_up (ha : a.WellFormed) {newNumerology : Nat} (hless : a.numerology < newNumerology)
    (hnew : newNumerology < nofNumerologies) : (a.setSlotNumerology newNumerology).WellFormed ∧
      (a.setSlotNumerology newNumerology).setSlotNumerology a.numerology = a := by
  obtain ⟨shift, rfl⟩ := Nat.exists_eq_add_of_le (Nat.le_of_lt hless)
  have hlt := Nat.mul_lt_mul_of_pos_right ha.count_lt (Nat.two_pow_pos shift)
  rw [setSlotNumerology, if_neg (by omega), if_pos hless, Nat.add_sub_cancel_left]
  refine ⟨⟨hnew, ?_⟩, ?_⟩
  · rw [nofSlotsPerHyperSystemFrame, nofSlots_shiftLeft, Nat.shiftLeft_eq]
    exact hlt
  · rw [setSlotNumerology, if_pos hless, Nat.add_sub_cancel_left, Nat.shiftLeft_shiftRight]

/-- A conversion to a lower numerology and back gives the first slot of the coarse one. -/
theorem setSlotNumerology_down (ha : a.WellFormed) {newNumerology : Nat} (hless : newNumerology < a.numerology) :
    (a.setSlotNumerology newNumerology).WellFormed ∧
      ((a.setSlotNumerology newNumerology).setSlotNumerology a.numerology).WellFormed ∧
      0 ≤ a.diff ((a.setSlotNumerology newNumerology).setSlotNumerology a.numerology) ∧
      a.diff ((a.setSlotNumerology newNumerology).setSlotNumerology a.numerology) <
        2 ^ (a.numerology - newNumerology) := by
  obtain ⟨shift, hshift⟩ := Nat.exists_eq_add_of_le (Nat.le_of_lt hless)
  have hlt := ha.count_lt
  have hcycle := Nat.mul_le_mul_right (2 ^ shift) (le_nofSlotsPerHyperSystemFrame newNumerology)
  have hslots : a.nofSlotsPerHyperSystemFrame = Ran.nofSlotsPerHyperSystemFrame newNumerology * 2 ^ shift := by
    rw [nofSlotsPerHyperSystemFrame, hshift, nofSlots_shiftLeft]
  have hdown : a.setSlotNumerology newNumerology = ⟨newNumerology, a.count / 2 ^ shift⟩ := by
    rw [setSlotNumerology, if_pos hless, hshift, Nat.add_sub_cancel_left, Nat.shiftRight_eq_div_pow]
  have hback : (a.setSlotNumerology newNumerology).setSlotNumerology a.numerology =
      ⟨a.numerology, a.count / 2 ^ shift * 2 ^ shift⟩ := by
    rw [hdown, setSlotNumerology, if_neg (by dsimp only; omega), if_pos hless, hshift, Nat.add_sub_cancel_left,
      Nat.shiftLeft_eq]
  have hfirst := Nat.div_mul_le_self a.count (2 ^ shift)
  have hwithin : a.count < a.count / 2 ^ shift * 2 ^ shift + 2 ^ shift := Nat.lt_div_mul_add (Nat.two_pow_pos shift)
  rw [hback, hdown, diff_of_le hfirst (by omega), show a.numerology - newNumerology = shift by omega]
  refine ⟨⟨hless.trans ha.numerology_lt, ?_⟩, ⟨ha.numerology_lt, Nat.lt_of_le_of_lt hfirst hlt⟩, by omega, ?_⟩
  · exact Nat.div_lt_of_lt_mul (by rwa [Nat.mul_comm, nofSlotsPerHyperSystemFrame, ← hslots])
  · have hpow : ((2 ^ shift : Nat) : Int) = 2 ^ shift := by norm_cast
    omega

end

/-- Sums, differences, comparisons and conversions of the slot points of a numerology agree. -/
theorem slotPoint_arithmetic {a b : SlotPoint} (ha : a.WellFormed) (hb : b.WellFormed)
    (hsame : b.numerology = a.numerology) :
    (∀ jump : Int, -(a.nofSlotsPerHyperSystemFrame : Int) < 2 * jump → 2 * jump < a.nofSlotsPerHyperSystemFrame →
      (a.addInt jump).diff a = jump ∧ (a.addInt jump).subInt jump = a) ∧
    (∀ jump : Nat, 2 * jump < a.nofSlotsPerHyperSystemFrame → (a.add jump).diff a = jump ∧ (a.add jump).sub jump = a) ∧
    (-(a.nofSlotsPerHyperSystemFrame / 2 : Int) ≤ a.diff b ∧ a.diff b < a.nofSlotsPerHyperSystemFrame / 2) ∧
    (a.diff b ≠ -(a.nofSlotsPerHyperSystemFrame / 2 : Int) →
      (a.lt b = true ∧ a ≠ b ∧ a.gt b = false ∨ a.lt b = false ∧ a = b ∧ a.gt b = false ∨
        a.lt b = false ∧ a ≠ b ∧ a.gt b = true) ∧ (a.lt b = true ↔ 0 < b.diff a)) ∧
    (a.increment = a.addInt 1 ∧ a.increment = a.add 1) ∧
    (∀ newNumerology, a.numerology < newNumerology → newNumerology < nofNumerologies →
      (a.setSlotNumerology newNumerology).WellFormed ∧
        (a.setSlotNumerology newNumerology).setSlotNumerology a.numerology = a) ∧
    (∀ newNumerology, (a.setSlotNumerology newNumerology).numerology = newNumerology) ∧
    ∀ newNumerology < a.numerology, (a.setSlotNumerology newNumerology).WellFormed ∧
      ((a.setSlotNumerology newNumerology).setSlotNumerology a.numerology).WellFormed ∧
      0 ≤ a.diff ((a.setSlotNumerology newNumerology).setSlotNumerology a.numerology) ∧
      a.diff ((a.setSlotNumerology newNumerology).setSlotNumerology a.numerology) <
        2 ^ (a.numerology - newNumerology) := by
  have hhalf := two_mul_half a
  have hcycle : 10240 ≤ a.nofSlotsPerHyperSystemFrame := le_nofSlotsPerHyperSystemFrame _
  refine ⟨fun jump hlow hhigh => addInt_inverse ha hlow hhigh, fun jump hhigh => ?_, diff_bounds ha hb hsame,
    fun hfar => ?_, ⟨increment_eq ha, ?_⟩, fun new hless hnew => setSlotNumerology_up ha hless hnew,
    numerology_setSlotNumerology, fun new hless => setSlotNumerology_down ha hless⟩
  · obtain ⟨hdiff, hback⟩ := addInt_inverse ha (by omega : _ < 2 * (jump : Int)) (by omega)
    obtain ⟨hsum, hnumerology, -⟩ := ha.addInt (by omega : -(a.nofSlotsPerHyperSystemFrame : Int) ≤ jump) (by omega)
    have hslots : (a.addInt jump).nofSlotsPerHyperSystemFrame = a.nofSlotsPerHyperSystemFrame := by
      rw [nofSlotsPerHyperSystemFrame, hnumerology]
      rfl
    rw [(add_eq_addInt ha (by omega)).1, (add_eq_addInt hsum (by omega)).2]
    exact ⟨hdiff, hback⟩
  · obtain ⟨hless, hmore, heq, hneg⟩ := lt_iff_diff_pos ha hb hsame hfar
    refine ⟨?_, hless⟩
    rw [← Bool.not_eq_true, ← Bool.not_eq_true, ne_eq, hless, hmore, heq, hneg]
    omega
  · rw [increment_eq ha, (add_eq_addInt ha (by omega)).1]
    rfl

/-- Two slots around the end of the cycle, and a slot in half slots. -/
theorem slotPoint_arithmetic_wrapAround :
    ((⟨0, 10239⟩ : SlotPoint).addInt 2).diff ⟨0, 10239⟩ = 2 ∧ (⟨0, 10239⟩ : SlotPoint).increment = ⟨0, 0⟩ ∧
      ((⟨0, 10239⟩ : SlotPoint).setSlotNumerology 1).setSlotNumerology 0 = ⟨0, 10239⟩ := by
  have h := @slotPoint_arithmetic ⟨0, 10239⟩ ⟨0, 1⟩ ⟨by decide, by decide⟩ ⟨by decide, by decide⟩ rfl
  exact ⟨(h.1 2 (by decide) (by decide)).1, h.2.2.2.2.1.1.trans (by decide),
    (h.2.2.2.2.2.1 1 (by decide) (by decide)).2⟩

end Srsran.Ran.SlotPoint
