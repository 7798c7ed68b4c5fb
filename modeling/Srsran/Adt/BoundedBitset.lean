import Mathlib.Tactic.Common
import Srsran.Lib.Checked

/-! Bitsets of a bounded size (`bounded_bitset.h`). The bits are those of the words, which are zero past the
size. -/
namespace Srsran.Adt
open Checked

inductive BitsetFault where
  /-- "exceeds its maximum size". -/
  | tooLarge
  /-- "out-of-bounds for bitset". -/
  | outOfBounds
  /-- "called for bitsets of different sizes". -/
  | differentSizes
  /-- "Invalid fold length", or a division by zero. -/
  | invalidFoldLength
  /-- A word past the end of the array is read. -/
  | outOfArray
  deriving DecidableEq, Repr

structure BoundedBitset (maxSize : Nat) where
  size : Nat
  bit : Nat → Bool
  size_le : size ≤ maxSize
  sanitized : ∀ i, size ≤ i → bit i = false

namespace BoundedBitset
variable {n n' : Nat}

def bitsPerWord : Nat := 64

def divideCeil (value divisor : Nat) : Nat := (value + divisor - 1) / divisor

def create (n size : Nat) : Except BitsetFault (BoundedBitset n) :=
  if h : size ≤ n then .ok { size, bit := fun _ => false, size_le := h, sanitized := fun _ _ => rfl }
  else .error .tooLarge

def resetAll (b : BoundedBitset n) : BoundedBitset n :=
  { b with
    bit := fun _ => false
    sanitized := fun _ _ => rfl }

def set (b : BoundedBitset n) (pos : Nat) : Except BitsetFault (BoundedBitset n) :=
  if h : pos < b.size then
    .ok
      { b with
        bit := fun i => b.bit i || i == pos
        sanitized := fun i hi => by
          have hne : i ≠ pos := by omega
          simp [b.sanitized i hi, hne] }
  else .error .outOfBounds

def reset (b : BoundedBitset n) (pos : Nat) : Except BitsetFault (BoundedBitset n) :=
  if pos < b.size then
    .ok
      { b with
        bit := fun i => b.bit i && i != pos
        sanitized := fun i hi => by simp [b.sanitized i hi] }
  else .error .outOfBounds

def test (b : BoundedBitset n) (pos : Nat) : Except BitsetFault Bool :=
  if pos < b.size then .ok (b.bit pos) else .error .outOfBounds

def fill (b : BoundedBitset n) (startPos endPos : Nat) : Except BitsetFault (BoundedBitset n) :=
  if h : startPos ≤ endPos ∧ endPos ≤ b.size then
    .ok
      { b with
        bit := fun i => b.bit i || (startPos ≤ i && i < endPos)
        sanitized := fun i hi => by
          have hend : ¬ i < endPos := by omega
          simp [b.sanitized i hi, hend] }
  else .error .outOfBounds

def any (b : BoundedBitset n) (start stop : Nat) : Except BitsetFault Bool :=
  if start ≤ stop ∧ stop ≤ b.size then .ok ((List.range' start (stop - start)).any b.bit) else .error .outOfBounds

/-- The lowest bit that is set, from `start` on. -/
def findLowest (b : BoundedBitset n) (start : Nat) : Option Nat := (List.range' start (b.size - start)).find? b.bit

def setBits (b : BoundedBitset n) : List Nat := (List.range b.size).filter b.bit

/-- `slice` checks no bounds: bits past the size are read as zeros. -/
def slice (n' : Nat) (b : BoundedBitset n) (startPos endPos : Nat) : Except BitsetFault (BoundedBitset n') :=
  if h : startPos ≤ endPos ∧ endPos - startPos ≤ n' then
    if startPos < endPos ∧
        divideCeil n bitsPerWord < startPos / bitsPerWord + divideCeil (endPos - startPos) bitsPerWord then
      .error .outOfArray
    else
      .ok
        { size := endPos - startPos
          bit := fun i => i < endPos - startPos && b.bit (startPos + i)
          size_le := h.2
          sanitized := fun i hi => by simp [Nat.not_lt_of_le hi] }
  else .error .tooLarge

def union (b other : BoundedBitset n) : Except BitsetFault (BoundedBitset n) :=
  if h : other.size = b.size then
    .ok
      { b with
        bit := fun i => b.bit i || other.bit i
        sanitized := fun i hi => by simp [b.sanitized i hi, other.sanitized i (h ▸ hi)] }
  else .error .differentSizes

def foldAndAccumulate (n' : Nat) (other : BoundedBitset n) (foldLength sliceOffset sliceLength : Nat) :
    Except BitsetFault (BoundedBitset n') :=
  if foldLength = 0 ∨ other.size % foldLength ≠ 0 then .error .invalidFoldLength
  else do
    let ret ← create n' sliceLength
    (List.range (other.size / foldLength)).foldlM (fun (ret : BoundedBitset n') k => do
      ret.union (← other.slice n' (k * foldLength + sliceOffset) (k * foldLength + sliceOffset + sliceLength))) ret

variable {b b' other : BoundedBitset n}

variable {pos : Nat}

theorem set_ok (h : b.set pos = .ok b') :
    b'.size = b.size ∧ ∀ i, b'.bit i = (b.bit i || i == pos) := by
  rw [set] at h
  split at h
  · cases h
    exact ⟨rfl, fun _ => rfl⟩
  · cases h

theorem reset_ok (h : b.reset pos = .ok b') :
    b'.size = b.size ∧ ∀ i, b'.bit i = (b.bit i && i != pos) := by
  rw [reset] at h
  split at h
  · cases h
    exact ⟨rfl, fun _ => rfl⟩
  · cases h

variable {startPos endPos : Nat}

theorem fill_ok (h : b.fill startPos endPos = .ok b') :
    b'.size = b.size ∧ ∀ i, b'.bit i = (b.bit i || (startPos ≤ i && i < endPos)) := by
  rw [fill] at h
  split at h
  · cases h
    exact ⟨rfl, fun _ => rfl⟩
  · cases h

theorem fill_of_le (h : startPos ≤ endPos) (h' : endPos ≤ b.size) :
    ∃ b', b.fill startPos endPos = .ok b' ∧ b'.size = b.size ∧
      ∀ i, b'.bit i = (b.bit i || (startPos ≤ i && i < endPos)) :=
  ⟨_, dif_pos ⟨h, h'⟩, rfl, fun _ => rfl⟩

theorem test_of_lt (h : pos < b.size) : b.test pos = .ok (b.bit pos) := if_pos h

theorem mem_setBits {i : Nat} : i ∈ b.setBits ↔ b.bit i = true := by
  rw [setBits, List.mem_filter, List.mem_range, and_iff_right_iff_imp]
  intro hbit
  by_contra hge
  rw [b.sanitized i (Nat.le_of_not_lt hge)] at hbit
  exact Bool.false_ne_true hbit

theorem lt_size_of_bit {i : Nat} (h : b.bit i = true) : i < b.size :=
  List.mem_range.mp (List.mem_of_mem_filter (mem_setBits.mpr h))

variable {start : Nat}

theorem findLowest_eq_some {i : Nat} (h : b.findLowest start = some i) :
    start ≤ i ∧ b.bit i = true ∧ ∀ j, start ≤ j → j < i → b.bit j = false := by
  rw [findLowest, List.find?_range'_eq_some] at h
  obtain ⟨hbit, hmem, hbefore⟩ := h
  refine ⟨(List.mem_range'_1.mp hmem).1, hbit, fun j hj hj' => ?_⟩
  simpa using hbefore j hj hj'

theorem findLowest_eq_none {j : Nat} (h : b.findLowest start = none) (hj : start ≤ j) :
    b.bit j = false := by
  rw [findLowest, List.find?_eq_none] at h
  by_contra hbit
  rw [Bool.not_eq_false] at hbit
  have hlt := lt_size_of_bit hbit
  exact h j (List.mem_range'_1.mpr ⟨hj, by omega⟩) hbit

theorem any_of_le {stop : Nat} (h : start ≤ stop) (h' : stop ≤ b.size) :
    b.any start stop = .ok ((List.range' start (stop - start)).any b.bit) :=
  if_pos ⟨h, h'⟩

theorem slice_of_le (n' : Nat) (h : startPos ≤ endPos) (hsize : endPos - startPos ≤ n')
    (hend : endPos ≤ b.size) :
    ∃ s, b.slice n' startPos endPos = .ok s ∧ s.size = endPos - startPos ∧
      ∀ i, s.bit i = (decide (i < endPos - startPos) && b.bit (startPos + i)) := by
  have hwords : ¬ (startPos < endPos ∧
      divideCeil n bitsPerWord < startPos / bitsPerWord + divideCeil (endPos - startPos) bitsPerWord) := by
    have hle := b.size_le
    simp only [divideCeil, bitsPerWord]
    omega
  exact ⟨_, by rw [slice, dif_pos ⟨h, hsize⟩, if_neg hwords], rfl, fun _ => rfl⟩

theorem slice_ok {s : BoundedBitset n'} (h : b.slice n' startPos endPos = .ok s) :
    s.size = endPos - startPos ∧ ∀ i, s.bit i = (decide (i < endPos - startPos) && b.bit (startPos + i)) := by
  rw [slice] at h
  split at h
  · split at h
    · cases h
    · cases h
      exact ⟨rfl, fun _ => rfl⟩
  · cases h

theorem union_ok {s : BoundedBitset n} (h : b.union other = .ok s) :
    s.size = b.size ∧ ∀ i, s.bit i = (b.bit i || other.bit i) := by
  rw [union] at h
  split at h
  · cases h
    exact ⟨rfl, fun _ => rfl⟩
  · cases h

def Folded (other : BoundedBitset n) (foldLength sliceOffset sliceLength : Nat) (parts : List Nat)
    (ret : BoundedBitset n') : Prop :=
  ret.size = sliceLength ∧ ∀ i, ret.bit i = (decide (i < sliceLength) &&
    parts.any fun k => other.bit (k * foldLength + sliceOffset + i))

variable {foldLength sliceOffset sliceLength : Nat}

theorem Folded.union {k : Nat} {parts : List Nat} {ret s ret' : BoundedBitset n'}
    (h : Folded other foldLength sliceOffset sliceLength parts ret)
    (hs : ∀ i, s.bit i = (decide (i < sliceLength) && other.bit (k * foldLength + sliceOffset + i)))
    (hsame : ret'.size = ret.size) (hret : ∀ i, ret'.bit i = (ret.bit i || s.bit i)) :
    Folded other foldLength sliceOffset sliceLength (parts ++ [k]) ret' := by
  refine ⟨hsame.trans h.1, fun i => ?_⟩
  rw [hret, h.2, hs, List.any_append, List.any_cons, List.any_nil, Bool.or_false]
  cases decide (i < sliceLength) <;> rfl

theorem foldAndAccumulate_ok :
    Ensures (fun _ => True)
      (Folded other foldLength sliceOffset sliceLength (List.range (other.size / foldLength)))
      (foldAndAccumulate n' other foldLength sliceOffset sliceLength) := by
  rw [foldAndAccumulate]
  split
  · exact .error trivial
  · rw [create]
    split
    · rw [ok_bind]
      refine Ensures.foldlM (I := Folded other foldLength sliceOffset sliceLength) ⟨rfl, fun i => by simp⟩ ?_
      intro ret parts k rest _ hfolded
      cases hslice : other.slice n' (k * foldLength + sliceOffset) (k * foldLength + sliceOffset + sliceLength) with
      | error fault => exact .error trivial
      | ok s =>
        obtain ⟨-, hs⟩ := slice_ok hslice
        rw [ok_bind]
        cases hunion : ret.union s with
        | error fault => exact .error trivial
        | ok ret' =>
          obtain ⟨hsame, hret⟩ := union_ok hunion
          rw [Nat.add_sub_cancel_left] at hs
          exact hfolded.union hs hsame hret
    · exact .error trivial

theorem foldAndAccumulate_of_le (n' : Nat) {nofFolds : Nat} (hpos : 0 < foldLength)
    (hfolds : other.size = nofFolds * foldLength) (hslice : sliceOffset + sliceLength ≤ foldLength)
    (hmax : sliceLength ≤ n') :
    ∃ ret, foldAndAccumulate n' other foldLength sliceOffset sliceLength = .ok ret ∧
      Folded other foldLength sliceOffset sliceLength (List.range nofFolds) ret := by
  have hdiv : other.size / foldLength = nofFolds := by
    rw [hfolds, Nat.mul_div_cancel _ hpos]
  have hmod : other.size % foldLength = 0 := by
    rw [hfolds, Nat.mul_mod_left]
  apply Ensures.exists_ok
  rw [foldAndAccumulate, if_neg (by omega), create, dif_pos hmax, ok_bind, hdiv]
  refine Ensures.foldlM (I := Folded other foldLength sliceOffset sliceLength) ⟨rfl, fun i => by simp⟩ ?_
  intro ret parts k rest hsplit hfolded
  have hk : k < nofFolds := by
    rw [← List.mem_range, hsplit]
    exact List.mem_append_right _ List.mem_cons_self
  have hend : k * foldLength + sliceOffset + sliceLength ≤ other.size := by
    have hmul := Nat.mul_le_mul_right foldLength hk
    rw [Nat.succ_mul] at hmul
    omega
  obtain ⟨s, hok, hsize, hs⟩ := slice_of_le n' (Nat.le_add_right _ sliceLength)
    (by rwa [Nat.add_sub_cancel_left]) hend
  rw [Nat.add_sub_cancel_left] at hsize hs
  have hunion : s.size = ret.size := hsize.trans hfolded.1.symm
  rw [hok, ok_bind, BoundedBitset.union, dif_pos hunion]
  exact hfolded.union hs rfl fun _ => rfl

end BoundedBitset
end Srsran.Adt
