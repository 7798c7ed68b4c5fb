import Mathlib.Algebra.Order.Ring.Int
import Mathlib.Tactic.Common
import Srsran.Lib.Checked

/-! Buffers of packed bits (`bit_buffer.h`). The first bit of a byte is its most significant one. -/
namespace Srsran.Adt
open Checked

def maskMsbZeros (w n : Nat) : BitVec w :=
  if n = 0 then BitVec.allOnes w else if n = w then 0 else BitVec.allOnes w >>> n

def maskLsbOnes (w n : Nat) : BitVec w := maskMsbZeros w (w - n)

def maskMsbOnes (w n : Nat) : BitVec w := ~~~maskMsbZeros w n

theorem getLsbD_maskMsbZeros {w n : Nat} (h : n ≤ w) (k : Nat) :
    (maskMsbZeros w n).getLsbD k = decide (k < w - n) := by
  unfold maskMsbZeros
  split
  · next hn => simp [hn]
  · split
    · next hn => simp [hn]
    · simp [BitVec.getLsbD_ushiftRight]
      omega

theorem getLsbD_maskLsbOnes {w n : Nat} (h : n ≤ w) (k : Nat) :
    (maskLsbOnes w n).getLsbD k = decide (k < n) := by
  rw [maskLsbOnes, getLsbD_maskMsbZeros (Nat.sub_le w n), Nat.sub_sub_self h]

theorem getLsbD_maskMsbOnes {w n : Nat} (h : n ≤ w) (k : Nat) :
    (maskMsbOnes w n).getLsbD k = decide (w - n ≤ k ∧ k < w) := by
  rw [maskMsbOnes, BitVec.getLsbD_not, getLsbD_maskMsbZeros h]
  grind

inductive BitBufferFault where
  /-- "exceeds the number of bits per word". -/
  | tooManyBits
  /-- "exceeds the number of bits to insert". -/
  | valueTooLarge
  /-- "exceed the buffer size". -/
  | outOfSize
  /-- A byte past the end of the memory. -/
  | outOfArray
  deriving DecidableEq, Repr

/-- The size in bits is an `unsigned`, and the memory holds that many bits. -/
structure BitBuffer where
  buffer : List (BitVec 8)
  size : Nat
  size_lt : size < 2 ^ 32
  size_le : size ≤ 8 * buffer.length
  deriving Repr

namespace BitBuffer

abbrev bitsPerWord : Nat := 8

def nofFullWords (buf : BitBuffer) : Nat := buf.size / bitsPerWord

def getWord (buf : BitBuffer) (iWord : Nat) : Except BitBufferFault (BitVec 8) :=
  match buf.buffer[iWord]? with
  | some word => .ok word
  | none => .error .outOfArray

def setWord (buf : BitBuffer) (iWord : Nat) (word : BitVec 8) : Except BitBufferFault BitBuffer :=
  if iWord < buf.buffer.length then
    .ok
      { buf with
        buffer := buf.buffer.set iWord word
        size_le := by simpa using buf.size_le }
  else .error .outOfArray

def insert (buf : BitBuffer) (value startpos count : Nat) : Except BitBufferFault BitBuffer := do
  if bitsPerWord < count then throw .tooManyBits
  if 2 ^ count ≤ value then throw .valueTooLarge
  if buf.size < startpos + count then throw .outOfSize
  let startWord := startpos / bitsPerWord
  let startMod := startpos % bitsPerWord
  let value := BitVec.ofNat 8 value
  let word ← buf.getWord startWord
  if startMod = 0 then
    buf.setWord startWord (word &&& maskMsbZeros 8 count ||| value <<< (bitsPerWord - count))
  else if startMod + count ≤ bitsPerWord then
    buf.setWord startWord
      (word &&& (maskMsbOnes 8 startMod ||| maskLsbOnes 8 (bitsPerWord - startMod - count)) |||
        value <<< (bitsPerWord - startMod - count))
  else
    let buf ← buf.setWord startWord
      (word &&& maskMsbOnes 8 startMod ||| value >>> (startMod + count - bitsPerWord))
    let next ← buf.getWord (startWord + 1)
    buf.setWord (startWord + 1)
      (next &&& maskMsbZeros 8 (startMod + count - bitsPerWord) |||
        value <<< (2 * bitsPerWord - startMod - count))

def extract (buf : BitBuffer) (startpos count : Nat) : Except BitBufferFault (BitVec 8) := do
  if bitsPerWord < count then throw .tooManyBits
  if buf.size < startpos + count then throw .outOfSize
  let startWord := startpos / bitsPerWord
  let startMod := startpos % bitsPerWord
  let word ← buf.getWord startWord
  if startMod = 0 then
    pure (word >>> (bitsPerWord - count))
  else if startMod + count ≤ bitsPerWord then
    pure (word >>> (bitsPerWord - startMod - count) &&& maskLsbOnes 8 count)
  else
    let next ← buf.getWord (startWord + 1)
    let extended : BitVec 32 := word.setWidth 32 <<< bitsPerWord ||| next.setWidth 32
    pure ((extended >>> (2 * bitsPerWord - startMod - count) &&& maskLsbOnes 32 count).setWidth 8)

def getByte (buf : BitBuffer) (iByte : Nat) : Except BitBufferFault (BitVec 8) :=
  if iByte < buf.nofFullWords then buf.getWord iByte else .error .outOfSize

def byte (buf : BitBuffer) (i : Nat) : BitVec 8 := buf.buffer.getD i 0

def bit (buf : BitBuffer) (i : Nat) : Bool := (buf.byte (i / 8)).getLsbD (7 - i % 8)

def toBits (buf : BitBuffer) : List Bool := (List.range buf.size).map buf.bit

variable {buf : BitBuffer}

theorem getWord_ok {i : Nat} (h : i < buf.buffer.length) : buf.getWord i = .ok (buf.byte i) := by
  simp [getWord, byte, h]

theorem setWord_ok {i : Nat} (word : BitVec 8) (h : i < buf.buffer.length) :
    ∃ buf', buf.setWord i word = .ok buf' ∧ buf'.size = buf.size ∧ buf'.buffer.length = buf.buffer.length ∧
      ∀ j, buf'.byte j = if j = i then word else buf.byte j := by
  rw [setWord, if_pos h]
  refine ⟨_, rfl, rfl, List.length_set, fun j => ?_⟩
  simp only [byte, List.getD_eq_getElem?_getD, List.getElem?_set]
  by_cases hj : j = i
  · simp [hj, h]
  · simp [hj, Ne.symm hj]

structure Inserted (buf buf' : BitBuffer) (value startpos count : Nat) : Prop where
  size : buf'.size = buf.size
  length : buf'.buffer.length = buf.buffer.length
  bit (j : Nat) : buf'.bit j =
    if startpos ≤ j ∧ j < startpos + count then value.testBit (startpos + count - 1 - j) else buf.bit j

variable {value count : Nat}

theorem lt_of_insert {buf' : BitBuffer} {startpos : Nat}
    (h : buf.insert value startpos count = .ok buf') : value < 2 ^ count := by
  by_contra hlarge
  rw [insert, if_pos (Nat.le_of_not_lt hlarge)] at h
  split at h <;> cases h

theorem Inserted.congr {buf' : BitBuffer} {value' startpos : Nat}
    (h : Inserted buf buf' value startpos count)
    (hbits : ∀ k < count, value.testBit k = value'.testBit k) :
    Inserted buf buf' value' startpos count := by
  refine ⟨h.size, h.length, fun j => ?_⟩
  rw [h.bit]
  split
  · exact hbits _ (by omega)
  · rfl

theorem getLsbD_ofNat_of_lt (hcount : count ≤ 8) (hvalue : value < 2 ^ count) (k : Nat) :
    (BitVec.ofNat 8 value).getLsbD k = value.testBit k := by
  rw [BitVec.getLsbD_ofNat]
  by_cases hk : k < 8
  · simp [hk]
  · have hlt : value < 2 ^ k :=
      Nat.lt_of_lt_of_le hvalue (Nat.pow_le_pow_right (by decide) (by omega))
    simp [hk, Nat.testBit_lt_two_pow hlt]

theorem testBit_of_le {k : Nat} (hvalue : value < 2 ^ count) (hk : count ≤ k) :
    value.testBit k = false :=
  Nat.testBit_lt_two_pow (Nat.lt_of_lt_of_le hvalue (Nat.pow_le_pow_right (by decide) hk))

theorem insert_ok {buf : BitBuffer} {value startpos count : Nat} (hpos : 0 < count) (hcount : count ≤ 8)
    (hvalue : value < 2 ^ count) (hsize : startpos + count ≤ buf.size) :
    ∃ buf', buf.insert value startpos count = .ok buf' ∧ Inserted buf buf' value startpos count := by
  have hle := buf.size_le
  have hword : startpos / 8 < buf.buffer.length := by omega
  have hbits := getLsbD_ofNat_of_lt hcount hvalue
  have hhigh (k : Nat) (hk : count ≤ k) := testBit_of_le hvalue hk
  rw [insert, if_neg (Nat.not_lt.mpr hcount), if_neg (Nat.not_le.mpr hvalue), if_neg (Nat.not_lt.mpr hsize)]
  simp only [bitsPerWord, getWord_ok hword, ok_bind]
  by_cases haligned : startpos % 8 = 0
  · rw [if_pos haligned]
    obtain ⟨buf', hset, hsize', hlength, hbyte⟩ := setWord_ok
      (buf.byte (startpos / 8) &&& maskMsbZeros 8 count ||| BitVec.ofNat 8 value <<< (8 - count)) hword
    refine ⟨buf', hset, hsize', hlength, fun j => ?_⟩
    rw [bit, hbyte]
    by_cases hj : j / 8 = startpos / 8
    · rw [if_pos hj, BitVec.getLsbD_or, BitVec.getLsbD_and, getLsbD_maskMsbZeros hcount,
        BitVec.getLsbD_shiftLeft, hbits, bit, hj]
      have hindex : 7 - j % 8 - (8 - count) = startpos + count - 1 - j := by omega
      grind
    · rw [if_neg hj, if_neg (by omega), bit]
  · rw [if_neg haligned]
    by_cases hwithin : startpos % 8 + count ≤ 8
    · rw [if_pos hwithin]
      obtain ⟨buf', hset, hsize', hlength, hbyte⟩ := setWord_ok
        (buf.byte (startpos / 8) &&&
            (maskMsbOnes 8 (startpos % 8) ||| maskLsbOnes 8 (8 - startpos % 8 - count)) |||
          BitVec.ofNat 8 value <<< (8 - startpos % 8 - count)) hword
      refine ⟨buf', hset, hsize', hlength, fun j => ?_⟩
      rw [bit, hbyte]
      by_cases hj : j / 8 = startpos / 8
      · rw [if_pos hj, BitVec.getLsbD_or, BitVec.getLsbD_and, BitVec.getLsbD_or,
          getLsbD_maskMsbOnes (by omega), getLsbD_maskLsbOnes (by omega), BitVec.getLsbD_shiftLeft, hbits, bit, hj]
        have hindex : 7 - j % 8 - (8 - startpos % 8 - count) = startpos + count - 1 - j := by omega
        grind
      · rw [if_neg hj, if_neg (by omega), bit]
    · rw [if_neg hwithin]
      obtain ⟨first, hfirst, hsizeFirst, hlengthFirst, hbyteFirst⟩ := setWord_ok
        (buf.byte (startpos / 8) &&& maskMsbOnes 8 (startpos % 8) |||
          BitVec.ofNat 8 value >>> (startpos % 8 + count - 8)) hword
      have hnext : startpos / 8 + 1 < first.buffer.length := by omega
      rw [hfirst, ok_bind, getWord_ok hnext, ok_bind]
      obtain ⟨buf', hset, hsize', hlength, hbyte⟩ := setWord_ok
        (first.byte (startpos / 8 + 1) &&& maskMsbZeros 8 (startpos % 8 + count - 8) |||
          BitVec.ofNat 8 value <<< (2 * 8 - startpos % 8 - count)) hnext
      refine ⟨buf', hset, hsize'.trans hsizeFirst, hlength.trans hlengthFirst, fun j => ?_⟩
      rw [bit, hbyte]
      by_cases hsecond : j / 8 = startpos / 8 + 1
      · rw [if_pos hsecond, BitVec.getLsbD_or, BitVec.getLsbD_and, getLsbD_maskMsbZeros (by omega),
          BitVec.getLsbD_shiftLeft, hbits, hbyteFirst, if_neg (Nat.succ_ne_self _), bit, hsecond]
        have hindex : 7 - j % 8 - (2 * 8 - startpos % 8 - count) = startpos + count - 1 - j := by omega
        grind
      · rw [if_neg hsecond, hbyteFirst]
        by_cases hj : j / 8 = startpos / 8
        · rw [if_pos hj, BitVec.getLsbD_or, BitVec.getLsbD_and, getLsbD_maskMsbOnes (by omega),
            BitVec.getLsbD_ushiftRight, hbits, bit, hj]
          have hindex : startpos % 8 + count - 8 + (7 - j % 8) = startpos + count - 1 - j := by omega
          grind
        · rw [if_neg hj, if_neg (by omega), bit]

/-- What is extracted is the bits of the range, the last of them lowest. -/
theorem extract_ok {buf : BitBuffer} {startpos count : Nat} (hpos : 0 < count) (hcount : count ≤ 8)
    (hsize : startpos + count ≤ buf.size) :
    ∃ word, buf.extract startpos count = .ok word ∧
      ∀ k, word.getLsbD k = (decide (k < count) && buf.bit (startpos + count - 1 - k)) := by
  have hle := buf.size_le
  have hword : startpos / 8 < buf.buffer.length := by omega
  rw [extract, if_neg (Nat.not_lt.mpr hcount), if_neg (Nat.not_lt.mpr hsize)]
  simp only [bitsPerWord, getWord_ok hword, ok_bind]
  by_cases haligned : startpos % 8 = 0
  · rw [if_pos haligned]
    refine ⟨_, rfl, fun k => ?_⟩
    rw [BitVec.getLsbD_ushiftRight, bit]
    by_cases hk : k < count
    · have hindex : 7 - (startpos + count - 1 - k) % 8 = 8 - count + k := by omega
      rw [hindex, show (startpos + count - 1 - k) / 8 = startpos / 8 by omega, decide_eq_true hk, Bool.true_and]
    · rw [decide_eq_false hk, Bool.false_and]
      exact BitVec.getLsbD_of_ge _ _ (by omega)
  · rw [if_neg haligned]
    by_cases hwithin : startpos % 8 + count ≤ 8
    · rw [if_pos hwithin]
      refine ⟨_, rfl, fun k => ?_⟩
      rw [BitVec.getLsbD_and, BitVec.getLsbD_ushiftRight, getLsbD_maskLsbOnes hcount, bit, Bool.and_comm]
      by_cases hk : k < count
      · have hindex : 7 - (startpos + count - 1 - k) % 8 = 8 - startpos % 8 - count + k := by omega
        rw [hindex, show (startpos + count - 1 - k) / 8 = startpos / 8 by omega]
      · rw [decide_eq_false hk, Bool.false_and, Bool.false_and]
    · rw [if_neg hwithin, getWord_ok (by omega : startpos / 8 + 1 < buf.buffer.length), ok_bind]
      refine ⟨_, rfl, fun k => ?_⟩
      rw [BitVec.getLsbD_setWidth, BitVec.getLsbD_and, BitVec.getLsbD_ushiftRight, getLsbD_maskLsbOnes (by omega),
        BitVec.getLsbD_or, BitVec.getLsbD_shiftLeft, BitVec.getLsbD_setWidth, BitVec.getLsbD_setWidth, bit]
      by_cases hk : k < count
      · by_cases hsecond : k < startpos % 8 + count - 8
        · have hindex : 7 - (startpos + count - 1 - k) % 8 = 2 * 8 - startpos % 8 - count + k := by omega
          rw [hindex, show (startpos + count - 1 - k) / 8 = startpos / 8 + 1 by omega]
          grind
        · have hindex : 7 - (startpos + count - 1 - k) % 8 = 2 * 8 - startpos % 8 - count + k - 8 := by omega
          have hnext : (buf.byte (startpos / 8 + 1)).getLsbD (2 * 8 - startpos % 8 - count + k) = false :=
            BitVec.getLsbD_of_ge _ _ (by omega)
          rw [hindex, hnext, show (startpos + count - 1 - k) / 8 = startpos / 8 by omega]
          grind
      · rw [decide_eq_false hk, Bool.false_and, Bool.and_false, Bool.and_false]

end BitBuffer

end Srsran.Adt
