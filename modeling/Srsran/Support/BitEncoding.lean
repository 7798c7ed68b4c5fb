import Mathlib.Tactic.Common
import Mathlib.Data.Nat.Bitwise

/-! Packing of bit fields into bytes, most significant bit first (`bit_encoding.cpp`). Appending to
the byte buffer is taken to succeed. -/
namespace Srsran.Support

/-- Bytes written so far; `offset` is the next bit of the last byte, or 0 when it is complete. -/
structure BitEncoder where
  bytes : List UInt8 := []
  offset : Nat := 0
  deriving DecidableEq, Repr

namespace BitEncoder

def addToBack : List UInt8 → Nat → List UInt8
  | [], _ => []
  | [byte], value => [UInt8.ofNat (byte.toNat + value)]
  | byte :: rest, value => byte :: addToBack rest value

/-- The loop of `pack`; every turn packs at least one bit. -/
def packLoop : Nat → BitEncoder → Nat → Nat → BitEncoder
  | 0, enc, _, _ => enc
  | turns + 1, enc, val, nBits =>
    if nBits = 0 then enc
    else
      let bytes := if enc.offset = 0 then enc.bytes ++ [0] else enc.bytes
      let val := if nBits < 64 then val &&& (1 <<< nBits - 1) else val
      if 8 - enc.offset > nBits then
        { bytes := addToBack bytes (val <<< (8 - enc.offset - nBits) % 256)
          offset := enc.offset + nBits }
      else
        packLoop turns
          { bytes := addToBack bytes (val >>> (nBits + enc.offset - 8) % 256)
            offset := 0 } val (nBits - (8 - enc.offset))

def pack (enc : BitEncoder) (val nBits : Nat) : BitEncoder := packLoop nBits enc val nBits

end BitEncoder

/-- Bytes from the current one on; `offset` is the next bit of the current byte. -/
structure BitDecoder where
  bytes : List UInt8
  offset : Nat := 0
  deriving DecidableEq, Repr

namespace BitDecoder

/-- The loop of `unpack`; returns the value, or `none` when the bytes are used up. -/
def unpackLoop : List UInt8 → Nat → Nat → Nat → Option Nat × BitDecoder
  | [], offset, nBits, val => (if nBits = 0 then some val else none, { bytes := [], offset })
  | byte :: rest, offset, nBits, val =>
    if nBits = 0 then (some val, { bytes := byte :: rest, offset })
    else if 8 - offset > nBits then
      let mask := (1 <<< (8 - offset) - 1 <<< (8 - offset - nBits)) % 256
      (some (val + (byte.toNat &&& mask) >>> (8 - offset - nBits)),
        { bytes := byte :: rest, offset := offset + nBits })
    else
      let mask := 1 <<< (8 - offset) - 1
      unpackLoop rest 0 (nBits - (8 - offset))
        (val + (byte.toNat &&& mask) <<< (nBits + offset - 8))

def unpack (dec : BitDecoder) (nBits : Nat) : Option Nat × BitDecoder :=
  unpackLoop dec.bytes dec.offset nBits 0

/-- The value that `unpack` leaves in its argument, also when the bytes are used up. -/
def valueLoop : List UInt8 → Nat → Nat → Nat → Nat
  | [], _, _, val => val
  | byte :: rest, offset, nBits, val =>
    if nBits = 0 then val
    else if 8 - offset > nBits then
      let mask := (1 <<< (8 - offset) - 1 <<< (8 - offset - nBits)) % 256
      val + (byte.toNat &&& mask) >>> (8 - offset - nBits)
    else
      let mask := 1 <<< (8 - offset) - 1
      valueLoop rest 0 (nBits - (8 - offset)) (val + (byte.toNat &&& mask) <<< (nBits + offset - 8))

def unpackValue (dec : BitDecoder) (nBits : Nat) : Nat := valueLoop dec.bytes dec.offset nBits 0

variable {offset nBits result : Nat} {dec : BitDecoder} {bytes : List UInt8}

theorem valueLoop_eq {val : Nat} (h : unpackLoop bytes offset nBits val = (some result, dec)) :
    valueLoop bytes offset nBits val = result := by
  induction bytes generalizing offset nBits val with
  | nil =>
    rw [unpackLoop] at h
    split at h
    · cases h
      rfl
    · cases h
  | cons byte rest ih =>
    rw [unpackLoop] at h
    rw [valueLoop]
    split
    · rename_i hbits
      rw [if_pos hbits] at h
      cases h
      rfl
    · rename_i hbits
      rw [if_neg hbits] at h
      split
      · rename_i hlast
        rw [if_pos hlast] at h
        cases h
        rfl
      · rename_i hlast
        rw [if_neg hlast] at h
        exact ih h

theorem masked_shiftRight_lt {byte : Nat} (h : nBits < 8 - offset) :
    (byte &&& (1 <<< (8 - offset) - 1 <<< (8 - offset - nBits)) % 256) >>> (8 - offset - nBits) <
      2 ^ nBits := by
  have hpow : 2 ^ (8 - offset) = 2 ^ nBits * 2 ^ (8 - offset - nBits) := by
    rw [← Nat.pow_add]
    congr 1
    omega
  have hpos := Nat.two_pow_pos (8 - offset - nBits)
  have hpos' := Nat.two_pow_pos (8 - offset)
  rw [Nat.shiftRight_eq_div_pow, Nat.div_lt_iff_lt_mul hpos, ← hpow, Nat.one_shiftLeft,
    Nat.one_shiftLeft]
  calc byte &&& (2 ^ (8 - offset) - 2 ^ (8 - offset - nBits)) % 256
      ≤ (2 ^ (8 - offset) - 2 ^ (8 - offset - nBits)) % 256 := Nat.and_le_right
    _ ≤ 2 ^ (8 - offset) - 2 ^ (8 - offset - nBits) := Nat.mod_le _ _
    _ < 2 ^ (8 - offset) := by omega

/-- The masked bits that start the value leave room for the others. -/
theorem masked_shiftLeft_le {byte offset nBits : Nat} (h : 8 - offset ≤ nBits) (hoffset : offset ≤ 8) :
    (byte &&& (1 <<< (8 - offset) - 1)) <<< (nBits + offset - 8) + 2 ^ (nBits - (8 - offset)) ≤
      2 ^ nBits := by
  have hmask : byte &&& (1 <<< (8 - offset) - 1) < 2 ^ (8 - offset) := by
    rw [Nat.one_shiftLeft, Nat.and_two_pow_sub_one_eq_mod]
    exact Nat.mod_lt _ (Nat.two_pow_pos _)
  have hshift : nBits + offset - 8 = nBits - (8 - offset) := by omega
  have hpow : 2 ^ nBits = 2 ^ (8 - offset) * 2 ^ (nBits - (8 - offset)) := by
    rw [← Nat.pow_add]
    congr 1
    omega
  rw [Nat.shiftLeft_eq, hshift, ← Nat.succ_mul, hpow]
  exact Nat.mul_le_mul_right _ hmask

theorem unpackLoop_lt {val : Nat} (hoffset : offset ≤ 8)
    (h : unpackLoop bytes offset nBits val = (some result, dec)) : result < val + 2 ^ nBits := by
  induction bytes generalizing offset nBits val with
  | nil =>
    rw [unpackLoop] at h
    split at h
    · cases h
      exact Nat.lt_add_of_pos_right (Nat.two_pow_pos nBits)
    · cases h
  | cons byte rest ih =>
    rw [unpackLoop] at h
    split at h
    · cases h
      exact Nat.lt_add_of_pos_right (Nat.two_pow_pos nBits)
    · split at h
      · rename_i hbits
        cases h
        exact Nat.add_lt_add_left (masked_shiftRight_lt hbits) val
      · rename_i hbits
        have hrest := ih (Nat.zero_le 8) h
        have hroom := @masked_shiftLeft_le byte.toNat _ _ (Nat.le_of_not_lt hbits) hoffset
        omega

theorem offset_unpackLoop {offset nBits val : Nat} (h : offset < 8) :
    (unpackLoop bytes offset nBits val).2.offset < 8 := by
  induction bytes generalizing offset nBits val with
  | nil => exact h
  | cons byte rest ih =>
    rw [unpackLoop]
    split
    · exact h
    · split
      · show offset + nBits < 8
        omega
      · exact ih (by decide)

theorem unpack_lt {dec' : BitDecoder} (hoffset : dec.offset ≤ 8)
    (h : dec.unpack nBits = (some result, dec')) : result < 2 ^ nBits := by
  have hlt := unpackLoop_lt hoffset h
  omega

end BitDecoder
end Srsran.Support
