import Mathlib.Tactic.Common
import Mathlib.Algebra.Order.Group.Nat

/-! Half-open intervals of RBs (`interval.h`, with an open right end), and bitmaps of RBs
(`bounded_bitset.h`) with the search for a bit. -/
namespace Srsran.Scheduler

/-- The constructor asserts that an interval does not end before its start. -/
structure RbInterval where
  start : Nat
  stop : Nat
  start_le_stop : start ≤ stop
  deriving DecidableEq, Repr

namespace RbInterval
variable {a b : RbInterval}

theorem start_le_stop_empty : 0 ≤ 0 := Nat.le_refl 0

def empty : RbInterval := ⟨0, 0, start_le_stop_empty⟩

def isEmpty (a : RbInterval) : Bool := a.stop = a.start

def length (a : RbInterval) : Nat := a.stop - a.start

def ofLength (start length : Nat) : RbInterval where
  start
  stop := start + length
  start_le_stop := Nat.le_add_right start length

def displaceTo (a : RbInterval) (start : Nat) : RbInterval := ofLength start a.length

def resize (a : RbInterval) (length : Nat) : RbInterval := ofLength a.start length

def overlaps (a b : RbInterval) : Bool := a.start < b.stop && b.start < a.stop

theorem overlaps_iff : a.overlaps b = true ↔ a.start < b.stop ∧ b.start < a.stop := by
  rw [overlaps, Bool.and_eq_true, decide_eq_true_eq, decide_eq_true_eq]

/-- Intervals that do not overlap have the default interval in common. -/
def intersect (a b : RbInterval) : RbInterval :=
  if h : a.overlaps b = true then
    { start := max a.start b.start
      stop := min a.stop b.stop
      start_le_stop := by
        have ha := a.start_le_stop
        have hb := b.start_le_stop
        have hoverlap := overlaps_iff.mp h
        omega }
  else empty

def clamp (a : RbInterval) (point : Nat) : Nat := max (min point a.stop) a.start

def Holds (a : RbInterval) (i : Nat) : Prop := a.start ≤ i ∧ i < a.stop

theorem length_ofLength (start length : Nat) : (ofLength start length).length = length :=
  Nat.add_sub_cancel_left start length

theorem start_add_length (a : RbInterval) : a.start + a.length = a.stop :=
  Nat.add_sub_cancel' a.start_le_stop

theorem isEmpty_iff : a.isEmpty = true ↔ a.length = 0 := by
  have h := a.start_le_stop
  rw [isEmpty, decide_eq_true_eq, length]
  omega

theorem isEmpty_eq_false_iff : a.isEmpty = false ↔ a.start < a.stop := by
  have h := a.start_le_stop
  rw [isEmpty, decide_eq_false_iff_not]
  omega

theorem holds_intersect {i : Nat} : (a.intersect b).Holds i ↔ a.Holds i ∧ b.Holds i := by
  rw [intersect]
  split
  · simp only [Holds]
    omega
  · rename_i h
    rw [overlaps_iff] at h
    simp only [Holds, empty]
    omega

end RbInterval

/-- The index of the lowest bit with a value, from `start` to `stop`. -/
def findLowest (bits : List Bool) (start stop : Nat) (value : Bool) : Option Nat :=
  (List.range' start (stop - start)).find? fun i => bits[i]? = some value

section FindLowest
variable {bits : List Bool} {start stop i : Nat} {value : Bool}

theorem findLowest_eq_some (h : findLowest bits start stop value = some i) :
    start ≤ i ∧ i < stop ∧ bits[i]? = some value ∧
      ∀ j, start ≤ j → j < i → bits[j]? ≠ some value := by
  rw [findLowest, List.find?_range'_eq_some] at h
  obtain ⟨hvalue, hmem, hbefore⟩ := h
  rw [List.mem_range'_1] at hmem
  refine ⟨hmem.1, by omega, of_decide_eq_true hvalue, fun j hj hj' => ?_⟩
  have hnot := hbefore j hj hj'
  simpa using hnot

theorem findLowest_eq_none (h : findLowest bits start stop value = none) {j : Nat} (hj : start ≤ j)
    (hj' : j < stop) : bits[j]? ≠ some value := by
  rw [findLowest, List.find?_eq_none] at h
  have hmem : j ∈ List.range' start (stop - start) := by
    rw [List.mem_range'_1]
    omega
  have hnot := h j hmem
  simpa using hnot

end FindLowest

end Srsran.Scheduler
