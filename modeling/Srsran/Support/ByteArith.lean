import Mathlib.Data.Nat.Bitwise

/-! Bits of bytes and of 16-bit numbers as arithmetic. -/
namespace Srsran.Support

theorem toNat_ofNat_byte {n : Nat} (h : n < 256) : (UInt8.ofNat n).toNat = n :=
  UInt8.toNat_ofNat_of_lt' h

theorem shiftLeft_lor_eq {hi lo k : Nat} (h : lo < 2 ^ k) : hi <<< k ||| lo = hi * 2 ^ k + lo := by
  rw [← Nat.shiftLeft_add_eq_or_of_lt h, Nat.shiftLeft_eq]

theorem land_byte (n : Nat) : n &&& 0xff = n % 256 := Nat.and_two_pow_sub_one_eq_mod n 8

theorem land_nibble (n : Nat) : n &&& 0x0f = n % 16 := Nat.and_two_pow_sub_one_eq_mod n 4

/-- A mask of `k` bits above `j` zero bits selects the low `k` bits of the shifted number. -/
theorem shiftLeft_land_mask (n j k : Nat) :
    (n <<< j) &&& ((2 ^ k - 1) <<< j) = (n % 2 ^ k) <<< j := by
  rw [← Nat.shiftLeft_and_distrib, Nat.and_two_pow_sub_one_eq_mod]

theorem uint16_bytes {n : Nat} (h : n < 2 ^ 16) :
    ((UInt8.ofNat (n >>> 8)).toNat <<< 8) ||| (UInt8.ofNat n).toNat = n := by
  have hhi : n >>> 8 = n / 256 := Nat.shiftRight_eq_div_pow n 8
  rw [hhi, toNat_ofNat_byte (by omega), UInt8.toNat_ofNat', shiftLeft_lor_eq (Nat.mod_lt _ (by decide))]
  omega

end Srsran.Support
