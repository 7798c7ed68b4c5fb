import Mathlib.Algebra.CharP.Two
import Mathlib.Algebra.Field.ZMod
import Mathlib.Algebra.Polynomial.Div
import Mathlib.Data.Nat.Bitwise
import Mathlib.RingTheory.AdjoinRoot

/-! Polynomials over GF(2) that are written as the bits of a number, and their remainders. -/
namespace Gf2

open Polynomial

/-- The polynomial of which bit `i` of the number is the coefficient of `X ^ i`. -/
noncomputable def ofNat (n : Nat) : (ZMod 2)[X] := ∑ i ∈ Finset.range n, if n.testBit i then X ^ i else 0

theorem coeff_ofNat (n i : Nat) : (ofNat n).coeff i = if n.testBit i then 1 else 0 := by
  have hcoeff (j : Nat) : (if n.testBit j then (X : (ZMod 2)[X]) ^ j else 0).coeff i =
      if j = i then (if n.testBit i then 1 else 0) else 0 := by
    by_cases hj : j = i
    · subst hj
      split <;> simp
    · split <;> simp [coeff_X_pow, Ne.symm hj]
  rw [ofNat, finsetSum_coeff]
  simp only [hcoeff, Finset.sum_ite_eq', Finset.mem_range]
  split
  · rfl
  · next hi =>
      have hbit : n.testBit i = false :=
        Nat.testBit_lt_two_pow (Nat.lt_of_le_of_lt (Nat.le_of_not_lt hi) Nat.lt_two_pow_self)
      simp [hbit]

@[simp] theorem ofNat_zero : ofNat 0 = 0 := Finset.sum_range_zero _

@[simp] theorem ofNat_one : ofNat 1 = 1 := by
  simp [ofNat]

theorem ofNat_xor (a b : Nat) : ofNat (a ^^^ b) = ofNat a + ofNat b := by
  ext i
  rw [coeff_add, coeff_ofNat, coeff_ofNat, coeff_ofNat, Nat.testBit_xor]
  cases a.testBit i <;> cases b.testBit i <;> decide

theorem ofNat_shiftLeft (a k : Nat) : ofNat (a <<< k) = ofNat a * X ^ k := by
  ext i
  rw [coeff_mul_X_pow', coeff_ofNat, Nat.testBit_shiftLeft]
  by_cases hk : k ≤ i <;> simp [hk, coeff_ofNat]

/-- The high bits and the low bits of a number. -/
theorem ofNat_split (a k : Nat) : ofNat a = ofNat (a >>> k) * X ^ k + ofNat (a % 2 ^ k) := by
  rw [← ofNat_shiftLeft, ← ofNat_xor]
  congr 1
  apply Nat.eq_of_testBit_eq
  intro i
  rw [Nat.testBit_xor, Nat.testBit_shiftLeft, Nat.testBit_shiftRight, Nat.testBit_mod_two_pow]
  by_cases hk : k ≤ i
  · simp [hk, Nat.not_lt.mpr hk]
  · simp [hk, Nat.lt_of_not_le hk]

theorem degree_ofNat_lt {a k : Nat} (h : a < 2 ^ k) : (ofNat a).degree < k := by
  rw [degree_lt_iff_coeff_zero]
  intro i hi
  rw [coeff_ofNat, Nat.testBit_lt_two_pow (Nat.lt_of_lt_of_le h (Nat.pow_le_pow_right (by decide) hi))]
  rfl

theorem lt_two_pow_of_degree_lt {a k : Nat} (h : (ofNat a).degree < k) : a < 2 ^ k := by
  apply Nat.lt_pow_two_of_testBit
  intro i hi
  have hcoeff := (degree_lt_iff_coeff_zero _ _).mp h i hi
  rw [coeff_ofNat] at hcoeff
  by_contra hbit
  rw [if_pos (Bool.eq_true_of_not_eq_false hbit)] at hcoeff
  exact one_ne_zero hcoeff

/-- The polynomial of a string, with the first bit at the highest power. -/
noncomputable def ofBits : List Bool → (ZMod 2)[X]
  | [] => 0
  | bit :: bits => (if bit then X ^ bits.length else 0) + ofBits bits

@[simp] theorem ofBits_nil : ofBits [] = 0 := rfl

theorem ofBits_append (bits tail : List Bool) :
    ofBits (bits ++ tail) = ofBits bits * X ^ tail.length + ofBits tail := by
  induction bits with
  | nil => simp
  | cons bit bits ih =>
    simp only [List.cons_append, ofBits, ih, List.length_append]
    cases bit <;> simp [add_mul, pow_add, add_assoc]

theorem ofBits_replicate_false (n : Nat) : ofBits (List.replicate n false) = 0 := by
  induction n with
  | zero => rfl
  | succ n ih => simp [List.replicate_succ, ofBits, ih]

/-- The `k` low bits of a number, the highest of them first. -/
def bitsOf (n : Nat) : Nat → List Bool
  | 0 => []
  | k + 1 => n.testBit k :: bitsOf n k

@[simp] theorem length_bitsOf (n k : Nat) : (bitsOf n k).length = k := by
  induction k with
  | zero => rfl
  | succ k ih => simp [bitsOf, ih]

theorem ofBits_bitsOf (n k : Nat) : ofBits (bitsOf n k) = ofNat (n % 2 ^ k) := by
  induction k with
  | zero => simp [bitsOf, Nat.mod_one]
  | succ k ih =>
    ext i
    simp only [bitsOf, ofBits, ih, length_bitsOf, coeff_add, coeff_ofNat, Nat.testBit_mod_two_pow]
    rcases Nat.lt_trichotomy i k with hi | rfl | hi
    · split <;> simp [coeff_X_pow, hi, Nat.ne_of_lt hi, Nat.lt_succ_of_lt hi]
    · split <;> simp_all
    · split <;> simp [coeff_X_pow, Nat.ne_of_gt hi, Nat.not_lt_of_gt hi, Nat.not_lt.mpr hi]

variable {g : (ZMod 2)[X]}

theorem eq_modByMonic (hg : g.Monic) {p r : (ZMod 2)[X]} (hdegree : r.degree < g.degree)
    (hmod : AdjoinRoot.mk g r = AdjoinRoot.mk g p) : r = p %ₘ g := by
  calc r = r %ₘ g := ((modByMonic_eq_self_iff hg).mpr hdegree).symm
    _ = p %ₘ g := modByMonic_eq_of_dvd_sub hg (AdjoinRoot.mk_eq_mk.mp hmod)

/-! A register that is shifted modulo a polynomial with the bits of `P`. -/

variable {P r a : Nat}

/-- The polynomial has degree `r` and a constant term. -/
structure Generator (P r : Nat) : Prop where
  pos : 0 < r
  lt : P < 2 ^ (r + 1)
  lead : P.testBit r = true
  odd : P.testBit 0 = true

theorem Generator.degree (h : Generator P r) : (ofNat P).degree = r := by
  apply degree_eq_of_le_of_coeff_ne_zero
  · rw [degree_le_iff_coeff_zero]
    intro i hi
    have hr : r + 1 ≤ i := by exact_mod_cast hi
    rw [coeff_ofNat, Nat.testBit_lt_two_pow (Nat.lt_of_lt_of_le h.lt (Nat.pow_le_pow_right (by decide) hr))]
    rfl
  · rw [coeff_ofNat, if_pos h.lead]
    exact one_ne_zero

theorem Generator.monic (h : Generator P r) : (ofNat P).Monic := by
  rw [Monic, leadingCoeff, natDegree_eq_of_degree_eq_some h.degree, coeff_ofNat, if_pos h.lead]

theorem Generator.mk_self (P : Nat) : AdjoinRoot.mk (ofNat P) (ofNat P) = 0 := AdjoinRoot.mk_self

/-- The constant term makes `X` a unit. -/
theorem Generator.isUnit_X (h : Generator P r) : IsUnit (AdjoinRoot.mk (ofNat P) X) := by
  have hodd : P % 2 ^ 1 = 1 := by simpa [Nat.testBit_zero] using h.odd
  have hsplit : AdjoinRoot.mk (ofNat P) (ofNat (P >>> 1)) * AdjoinRoot.mk (ofNat P) X + 1 = 0 := by
    rw [← map_mul, ← map_one (AdjoinRoot.mk (ofNat P)), ← map_add, ← Generator.mk_self P]
    congr 1
    rw [ofNat_split P 1, hodd, ofNat_one, pow_one]
  refine IsUnit.of_mul_eq_one (-AdjoinRoot.mk (ofNat P) (ofNat (P >>> 1))) ?_
  rw [mul_neg, mul_comm]
  exact neg_eq_of_add_eq_zero_right hsplit

theorem Generator.mul_X_cancel (h : Generator P r) {p q : (ZMod 2)[X]} {k : Nat}
    (heq : AdjoinRoot.mk (ofNat P) (p * X ^ k) = AdjoinRoot.mk (ofNat P) (q * X ^ k)) :
    AdjoinRoot.mk (ofNat P) p = AdjoinRoot.mk (ofNat P) q := by
  rw [map_mul, map_mul, map_pow] at heq
  exact (h.isUnit_X.pow k).mul_right_cancel heq

def shiftReduce (P r a : Nat) : Nat := if a.testBit (r - 1) then a <<< 1 ^^^ P else a <<< 1

theorem Generator.shiftReduce_lt (h : Generator P r) (ha : a < 2 ^ r) : shiftReduce P r a < 2 ^ r := by
  apply Nat.lt_pow_two_of_testBit
  intro i hi
  have hhigh (j : Nat) (hj : r ≤ j) : a.testBit j = false :=
    Nat.testBit_lt_two_pow (Nat.lt_of_lt_of_le ha (Nat.pow_le_pow_right (by decide) hj))
  have hpos := h.pos
  have hshift : (a <<< 1).testBit i = a.testBit (i - 1) := by
    rw [Nat.testBit_shiftLeft, decide_eq_true (by omega), Bool.true_and]
  rw [shiftReduce]
  by_cases heq : i = r
  · subst heq
    split
    · next hbit => rw [Nat.testBit_xor, hshift, hbit, h.lead, Bool.xor_self]
    · next hbit =>
        rw [hshift]
        simpa using hbit
  · have hP : P.testBit i = false :=
      Nat.testBit_lt_two_pow (Nat.lt_of_lt_of_le h.lt (Nat.pow_le_pow_right (by decide) (by omega)))
    split
    · rw [Nat.testBit_xor, hshift, hhigh (i - 1) (by omega), hP, Bool.xor_self]
    · rw [hshift, hhigh (i - 1) (by omega)]

theorem mk_shiftReduce (P r a : Nat) :
    AdjoinRoot.mk (ofNat P) (ofNat (shiftReduce P r a)) = AdjoinRoot.mk (ofNat P) (ofNat a * X) := by
  rw [shiftReduce]
  split
  · rw [ofNat_xor, map_add, Generator.mk_self, add_zero, ofNat_shiftLeft, pow_one]
  · rw [ofNat_shiftLeft, pow_one]

def unshiftReduce (P a : Nat) : Nat := if a.testBit 0 then (a ^^^ P) >>> 1 else a >>> 1

theorem Generator.unshiftReduce_lt (h : Generator P r) (ha : a < 2 ^ r) : unshiftReduce P a < 2 ^ r := by
  have hhalf {b : Nat} (hb : b < 2 ^ (r + 1)) : b >>> 1 < 2 ^ r := by
    rw [Nat.shiftRight_eq_div_pow, pow_one]
    rw [Nat.pow_succ] at hb
    omega
  have ha' : a < 2 ^ (r + 1) := Nat.lt_trans ha (Nat.pow_lt_pow_right (by decide) (Nat.lt_succ_self r))
  rw [unshiftReduce]
  split
  · exact hhalf (Nat.xor_lt_two_pow ha' h.lt)
  · exact hhalf ha'

theorem Generator.mk_unshiftReduce (h : Generator P r) (a : Nat) :
    AdjoinRoot.mk (ofNat P) (ofNat (unshiftReduce P a) * X) = AdjoinRoot.mk (ofNat P) (ofNat a) := by
  have heven {b : Nat} (hb : b.testBit 0 = false) : ofNat (b >>> 1) * X = ofNat b := by
    have hmod : b % 2 ^ 1 = 0 := by simpa [Nat.testBit_zero] using hb
    conv_rhs => rw [ofNat_split b 1, hmod, ofNat_zero, add_zero, pow_one]
  rw [unshiftReduce]
  split
  · next hbit =>
      have hxor : (a ^^^ P).testBit 0 = false := by rw [Nat.testBit_xor, hbit, h.odd, Bool.xor_self]
      rw [heven hxor, ofNat_xor, map_add, Generator.mk_self, add_zero]
  · next hbit => rw [heven (by simpa using hbit)]

end Gf2
