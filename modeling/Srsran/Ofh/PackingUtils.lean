import Srsran.Adt.BitBuffer

/-! Quantised samples packed into bytes and unpacked again (`packing_utils_generic.cpp`). -/
namespace Srsran.Ofh.Bfp
open Srsran.Adt Checked

/-- `bit_buffer::from_bytes`. -/
def fromBytes (bytes : List (BitVec 8)) : BitBuffer where
  buffer := bytes
  size := bytes.length * 8 % 2 ^ 32
  size_lt := Nat.mod_lt _ (Nat.two_pow_pos 32)
  size_le := by
    rw [Nat.mul_comm 8]
    exact Nat.mod_le _ _

/-- The inner loop of `pack_bytes`, which takes at most as many turns as there are bits. -/
def packSampleLoop : (turns : Nat) → BitBuffer → BitVec 16 → (startPos leftToPack : Nat) →
    Except BitBufferFault BitBuffer
  | 0, buffer, _, _, _ => .ok buffer
  | turns + 1, buffer, sample, startPos, leftToPack =>
    if leftToPack = 0 then .ok buffer
    else do
      let nbits := min 8 leftToPack
      let masked : BitVec 8 :=
        if 8 < leftToPack then (sample.sshiftRight (leftToPack - 8)).setWidth 8 else sample.setWidth 8
      let sample := if 8 < leftToPack then sample &&& maskLsbOnes 16 (leftToPack - 8) else sample
      let buffer ← buffer.insert masked.toNat startPos nbits
      packSampleLoop turns buffer sample (startPos + nbits) (leftToPack - nbits)

def packSamples (width : Nat) : BitBuffer → Nat → List (BitVec 16) → Except BitBufferFault BitBuffer
  | buffer, startPos, [] =>
    if startPos % 8 = 0 then .ok buffer
    -- the tail bits of the last used byte
    else buffer.insert 0 startPos (8 - startPos % 8)
  | buffer, startPos, sample :: samples => do
    let buffer ← packSampleLoop width buffer sample startPos width
    packSamples width buffer (startPos + width) samples

def packBytes (buffer : BitBuffer) (compressedIq : List (BitVec 16)) (iqWidth : Nat) :
    Except BitBufferFault BitBuffer := packSamples iqWidth buffer 0 compressedIq

def unpackBitsLoop (buffer : BitBuffer) :
    (turns : Nat) → BitVec 16 → (offset bitsLeftToRead : Nat) → Except BitBufferFault (BitVec 16)
  | 0, value, _, _ => .ok value
  | turns + 1, value, offset, bitsLeftToRead =>
    if bitsLeftToRead = 0 then .ok value
    else if 8 < bitsLeftToRead then do
      let byte ← buffer.extract offset 8
      unpackBitsLoop buffer turns (byte.setWidth 16 <<< (bitsLeftToRead - 8)) (offset + 8) (bitsLeftToRead - 8)
    else do
      let bits ← buffer.extract offset bitsLeftToRead
      .ok (value ||| bits.setWidth 16)

def unpackBits (buffer : BitBuffer) (offset length : Nat) : Except BitBufferFault (BitVec 16) :=
  unpackBitsLoop buffer length 0 offset length

/-- `sign_extend` of a quantizer of this width. -/
def signExtend (bitWidth : Nat) (value : BitVec 16) : BitVec 16 :=
  (value <<< (16 - bitWidth)).sshiftRight (16 - bitWidth)

theorem unpackBits_ok {buffer : BitBuffer} {offset length : Nat} (hpos : 0 < length) (hlength : length ≤ 16)
    (hsize : offset + length ≤ buffer.size) :
    ∃ value, unpackBits buffer offset length = .ok value ∧
      ∀ k, value.getLsbD k = (decide (k < length) && buffer.bit (offset + length - 1 - k)) := by
  obtain ⟨turns, rfl⟩ : ∃ turns, length = turns + 1 := ⟨length - 1, by omega⟩
  rw [unpackBits, unpackBitsLoop, if_neg (Nat.succ_ne_zero _)]
  by_cases h8 : 8 < turns + 1
  · obtain ⟨rest, rfl⟩ : ∃ rest, turns = rest + 1 := ⟨turns - 1, by omega⟩
    obtain ⟨byte, hbyte, hbits⟩ := @BitBuffer.extract_ok buffer offset 8 (by decide) (Nat.le_refl 8) (by omega)
    obtain ⟨last, hlast, hbitsLast⟩ := @BitBuffer.extract_ok buffer (offset + 8) (rest + 1 + 1 - 8) (by omega)
      (by omega) (by omega)
    rw [if_pos h8, hbyte, ok_bind, unpackBitsLoop, if_neg (by omega), if_neg (by omega), hlast]
    refine ⟨_, rfl, fun k => ?_⟩
    rw [BitVec.getLsbD_or, BitVec.getLsbD_shiftLeft, BitVec.getLsbD_setWidth, BitVec.getLsbD_setWidth, hbits,
      hbitsLast]
    by_cases hk : k < rest + 1 + 1 - 8
    · have hindex : offset + 8 + (rest + 1 + 1 - 8) - 1 - k = offset + (rest + 1 + 1) - 1 - k := by omega
      rw [hindex]
      grind
    · have hindex : offset + 8 - 1 - (k - (rest + 1 + 1 - 8)) = offset + (rest + 1 + 1) - 1 - k := by omega
      rw [hindex]
      grind
  · obtain ⟨bits, hextract, hbits⟩ := BitBuffer.extract_ok hpos (Nat.le_of_not_lt h8) hsize
    rw [if_neg h8, hextract]
    refine ⟨_, rfl, fun k => ?_⟩
    have hzero : (0 : BitVec 16).getLsbD k = false := BitVec.getLsbD_zero
    rw [BitVec.getLsbD_or, hzero, Bool.false_or, BitVec.getLsbD_setWidth, hbits]
    grind

end Srsran.Ofh.Bfp
