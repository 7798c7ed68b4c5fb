import Mathlib.Data.Nat.ModEq
import Mathlib.Tactic.Common

/-! Sequence numbers in a modulus-base order. `rebase m b x` is the distance of `x` above the base
`b`, computed as a 32-bit unsigned difference and then reduced modulo `m`. -/
namespace ModOrder

/-- Unsigned 32-bit difference `x - b`, reduced modulo `m`. -/
def rebase (m b x : Nat) : Nat := (x + (2 ^ 32 - b % 2 ^ 32)) % 2 ^ 32 % m

/-- A modulus for which 32-bit wrap-around is invisible. -/
structure Modulus (m : Nat) : Prop where
  pos : 0 < m
  dvd : m ∣ 2 ^ 32

variable {m b x y d k : Nat}

theorem Modulus.of_two_pow {n : Nat} (h : n ≤ 32) : Modulus (2 ^ n) :=
  ⟨Nat.two_pow_pos n, Nat.pow_dvd_pow 2 h⟩

section
variable (hm : Modulus m)
include hm

theorem rebase_lt : rebase m b x < m := Nat.mod_lt _ hm.pos

theorem rebase_modEq : b + rebase m b x ≡ x [MOD m] := by
  have hw : b % 2 ^ 32 ≤ 2 ^ 32 := (Nat.mod_lt _ (by decide)).le
  have hreduce : rebase m b x ≡ x + (2 ^ 32 - b % 2 ^ 32) [MOD m] := by
    unfold rebase Nat.ModEq
    rw [Nat.mod_mod, Nat.mod_mod_of_dvd _ hm.dvd]
  have hsum : b + (x + (2 ^ 32 - b % 2 ^ 32)) = x + 2 ^ 32 * (b / 2 ^ 32 + 1) := by
    have := Nat.div_add_mod b (2 ^ 32)
    omega
  calc b + rebase m b x ≡ b + (x + (2 ^ 32 - b % 2 ^ 32)) [MOD m] := hreduce.add_left b
    _ = x + 2 ^ 32 * (b / 2 ^ 32 + 1) := hsum
    _ ≡ x + 0 [MOD m] :=
        Nat.ModEq.add_left x ((Nat.modEq_zero_iff_dvd.mpr (hm.dvd.mul_right _)))
    _ = x := Nat.add_zero x

theorem add_rebase_mod : (b + rebase m b x) % m = x % m := rebase_modEq hm

/-- The distance is the only residue that leads from the base to the number. -/
theorem rebase_unique (hd : d < m) (h : b + d ≡ x [MOD m]) : rebase m b x = d := by
  have hsame : b + rebase m b x ≡ b + d [MOD m] := (rebase_modEq hm).trans h.symm
  have := Nat.ModEq.add_left_cancel' b hsame
  rwa [Nat.ModEq, Nat.mod_eq_of_lt (rebase_lt hm), Nat.mod_eq_of_lt hd] at this

@[simp] theorem rebase_self : rebase m b b = 0 :=
  rebase_unique hm hm.pos (by rw [Nat.add_zero])

theorem rebase_congr (hb : b ≡ y [MOD m]) {x' : Nat} (hx : x ≡ x' [MOD m]) :
    rebase m b x = rebase m y x' := by
  apply rebase_unique hm (rebase_lt hm)
  exact (hb.add_right _).trans ((rebase_modEq hm).trans hx.symm)

theorem rebase_mod_base : rebase m (b % m) x = rebase m b x :=
  rebase_congr hm (Nat.mod_modEq _ _) rfl

theorem rebase_mod : rebase m b (x % m) = rebase m b x :=
  rebase_congr hm rfl (Nat.mod_modEq _ _)

/-- Numbers below the modulus are recovered from their distance. -/
theorem add_rebase (hx : x < m) : (b + rebase m b x) % m = x := by
  rw [add_rebase_mod hm, Nat.mod_eq_of_lt hx]

theorem rebase_inj (hx : x < m) (hy : y < m) (h : rebase m b x = rebase m b y) : x = y := by
  rw [← add_rebase (b := b) hm hx, h, add_rebase hm hy]

theorem rebase_advance (hk : k ≤ m) :
    rebase m (b + k) x = if k ≤ rebase m b x then rebase m b x - k else rebase m b x + m - k := by
  have hlt : rebase m b x < m := rebase_lt hm
  split
  · apply rebase_unique hm (by omega)
    have hsum : b + k + (rebase m b x - k) = b + rebase m b x := by omega
    rw [hsum]
    exact rebase_modEq hm
  · apply rebase_unique hm (by omega)
    have hsum : b + k + (rebase m b x + m - k) = b + rebase m b x + m := by omega
    rw [hsum]
    exact (Nat.add_modEq_right).trans (rebase_modEq hm)

/-- Shifting base and number by the same amount keeps the distance. -/
theorem rebase_shift : rebase m (b + k) (x + k) = rebase m b x := by
  apply rebase_unique hm (rebase_lt hm)
  have hsum : b + k + rebase m b x = b + rebase m b x + k := by omega
  rw [hsum]
  exact (rebase_modEq hm).add_right k

end

/-! Unbounded numbers that stand for their residues. -/

theorem mod_inj_of_near {lo a b : Nat} (ha : lo ≤ a) (ha' : a < lo + m) (hb : lo ≤ b)
    (hb' : b < lo + m) (h : a % m = b % m) : a = b := by
  obtain ⟨i, rfl⟩ := Nat.exists_eq_add_of_le ha
  obtain ⟨j, rfl⟩ := Nat.exists_eq_add_of_le hb
  have hij : i % m = j % m := Nat.ModEq.add_left_cancel' lo h
  rw [Nat.mod_eq_of_lt (by omega), Nat.mod_eq_of_lt (by omega)] at hij
  rw [hij]

/-- The distance of two residues whose numbers are less than the modulus apart. -/
theorem rebase_lift (hm : Modulus m) {lo a : Nat} (ha : lo ≤ a) (ha' : a < lo + m) :
    rebase m (lo % m) (a % m) = a - lo := by
  rw [rebase_mod_base hm, rebase_mod hm]
  apply rebase_unique hm (by omega)
  rw [Nat.add_sub_cancel' ha]

theorem succ_mod_mod (k : Nat) : (k % m + 1) % m = (k + 1) % m := by
  rw [Nat.add_mod, Nat.mod_mod, ← Nat.add_mod]

theorem exists_lift (hm : Modulus m) (lo : Nat) (hx : x < m) :
    ∃ a, lo ≤ a ∧ a < lo + m ∧ x = a % m := by
  refine ⟨lo + rebase m lo x, Nat.le_add_right _ _, ?_, (add_rebase hm hx).symm⟩
  have := rebase_lt (b := lo) (x := x) hm
  omega

end ModOrder
