import Mathlib.Logic.Function.Basic
import Mathlib.Tactic.Common

/-! `circular_map<uint32_t, V, true>` (`circular_map.h`) and the `sdu_window` over it: slots that
are indexed by the low bits of the key and remember the whole key. -/
namespace Srsran.Adt

/-- Every occupied slot is the one its key belongs to. -/
structure CircularMap (V : Type) where
  capacity : Nat
  slots : Nat → Option (Nat × V)
  count : Nat
  keyed : ∀ idx key value, slots idx = some (key, value) → key &&& (capacity - 1) = idx

namespace CircularMap
variable {V : Type}

def empty (V : Type) (capacity : Nat) : CircularMap V where
  capacity
  slots := fun _ => none
  count := 0
  keyed := by simp

def getCircularIdx (map : CircularMap V) (key : Nat) : Nat := key &&& (map.capacity - 1)

def get? (map : CircularMap V) (key : Nat) : Option V :=
  match map.slots (map.getCircularIdx key) with
  | some (other, value) => if other = key then some value else none
  | none => none

def contains (map : CircularMap V) (key : Nat) : Bool := (map.get? key).isSome

def full (map : CircularMap V) : Bool := map.count == map.capacity

def isEmpty (map : CircularMap V) : Bool := map.count == 0

def erase (map : CircularMap V) (key : Nat) : CircularMap V :=
  if map.contains key then
    { capacity := map.capacity
      slots := Function.update map.slots (map.getCircularIdx key) none
      count := map.count - 1
      keyed := by
        intro idx other value h
        by_cases hidx : idx = map.getCircularIdx key
        · rw [hidx, Function.update_self] at h
          cases h
        · rw [Function.update_of_ne hidx] at h
          exact map.keyed idx other value h }
  else map

def insert (map : CircularMap V) (key : Nat) (value : V) : CircularMap V :=
  match map.slots (map.getCircularIdx key) with
  | some _ => map
  | none =>
    { capacity := map.capacity
      slots := Function.update map.slots (map.getCircularIdx key) (some (key, value))
      count := map.count + 1
      keyed := by
        intro idx other value' h
        by_cases hidx : idx = map.getCircularIdx key
        · rw [hidx, Function.update_self] at h
          cases h
          exact hidx.symm
        · rw [Function.update_of_ne hidx] at h
          exact map.keyed idx other value' h }

/-- Inserts, after removing whatever occupies the slot. It also models a write through the
reference to a present element. -/
def overwrite (map : CircularMap V) (key : Nat) (value : V) : CircularMap V :=
  match map.slots (map.getCircularIdx key) with
  | some (other, _) => (map.erase other).insert key value
  | none => map.insert key value

variable (map : CircularMap V) (key other : Nat) (value : V)

theorem get?_eq_some_iff : map.get? key = some value ↔
    map.slots (map.getCircularIdx key) = some (key, value) := by
  unfold get?
  split
  · rename_i k v hslot
    by_cases hk : k = key
    · subst hk
      simp [hslot]
    · rw [if_neg hk, hslot]
      simp [hk]
  · rename_i hslot
    simp [hslot]

theorem slots_eq_some {idx : Nat} {map : CircularMap V} {key : Nat} {value : V}
    (h : map.slots idx = some (key, value)) : map.get? key = some value := by
  rw [get?_eq_some_iff, getCircularIdx, map.keyed idx key value h]
  exact h

theorem get?_eq_none_of_sameSlot {map : CircularMap V} {key other : Nat} {value : V}
    (h : map.get? key = some value) (hslot : map.getCircularIdx other = map.getCircularIdx key)
    (hne : other ≠ key) : map.get? other = none := by
  rw [get?_eq_some_iff] at h
  rw [get?, hslot, h]
  exact if_neg (Ne.symm hne)


@[simp] theorem capacity_erase : (map.erase key).capacity = map.capacity := by
  unfold erase
  split <;> rfl

@[simp] theorem capacity_insert : (map.insert key value).capacity = map.capacity := by
  unfold insert
  split <;> rfl

@[simp] theorem capacity_overwrite : (map.overwrite key value).capacity = map.capacity := by
  unfold overwrite
  split <;> simp

theorem slots_erase_of_contains (h : map.contains key = true) :
    (map.erase key).slots = Function.update map.slots (map.getCircularIdx key) none := by
  rw [erase, if_pos h]

theorem slots_insert_of_free (h : map.slots (map.getCircularIdx key) = none) :
    (map.insert key value).slots =
      Function.update map.slots (map.getCircularIdx key) (some (key, value)) := by
  unfold insert
  rw [h]

/-- Whatever was in the slot, afterwards it holds the new element. -/
theorem slots_overwrite : (map.overwrite key value).slots =
    Function.update map.slots (map.getCircularIdx key) (some (key, value)) := by
  unfold overwrite
  cases hslot : map.slots (map.getCircularIdx key) with
  | none => exact slots_insert_of_free map key value hslot
  | some p =>
    obtain ⟨old, oldValue⟩ := p
    have hidx : map.getCircularIdx old = map.getCircularIdx key := map.keyed _ _ _ hslot
    have hold : map.contains old = true := by
      rw [contains, slots_eq_some hslot]
      rfl
    have herased := slots_erase_of_contains map old hold
    have hsame : (map.erase old).getCircularIdx key = map.getCircularIdx key := by
      rw [getCircularIdx, capacity_erase, getCircularIdx]
    dsimp only
    rw [slots_insert_of_free, hsame, herased, hidx, Function.update_idem]
    rw [hsame, herased, hidx, Function.update_self]

theorem get?_overwrite : (map.overwrite key value).get? other =
    if other = key then some value
    else if map.getCircularIdx other = map.getCircularIdx key then none
    else map.get? other := by
  have hidx : ∀ k, (map.overwrite key value).getCircularIdx k = map.getCircularIdx k := by
    intro k
    rw [getCircularIdx, capacity_overwrite, getCircularIdx]
  rw [get?, slots_overwrite, hidx]
  by_cases hslot : map.getCircularIdx other = map.getCircularIdx key
  · rw [hslot, Function.update_self, if_pos rfl]
    dsimp only
    by_cases hkey : other = key
    · rw [if_pos hkey.symm, if_pos hkey]
    · rw [if_neg (Ne.symm hkey), if_neg hkey]
  · have hkey : other ≠ key := by
      rintro rfl
      exact hslot rfl
    rw [Function.update_of_ne hslot, if_neg hkey, if_neg hslot, get?]

theorem get?_erase : (map.erase key).get? other =
    if other = key then none else map.get? other := by
  by_cases hcontains : map.contains key = true
  · have hidx : ∀ k, (map.erase key).getCircularIdx k = map.getCircularIdx k := by
      intro k
      rw [getCircularIdx, capacity_erase, getCircularIdx]
    rw [get?, hidx, slots_erase_of_contains map key hcontains]
    by_cases hslot : map.getCircularIdx other = map.getCircularIdx key
    · rw [hslot, Function.update_self]
      by_cases hkey : other = key
      · rw [if_pos hkey]
      · obtain ⟨v, hv⟩ := Option.isSome_iff_exists.mp hcontains
        rw [get?_eq_some_iff] at hv
        rw [if_neg hkey, get?, hslot, hv]
        simp [Ne.symm hkey]
    · have hkey : other ≠ key := by
        rintro rfl
        exact hslot rfl
      rw [Function.update_of_ne hslot, if_neg hkey, get?]
  · rw [erase, if_neg hcontains]
    by_cases hkey : other = key
    · rw [if_pos hkey, hkey]
      rw [contains, Bool.not_eq_true, Option.isSome_eq_false_iff] at hcontains
      exact Option.isNone_iff_eq_none.mp hcontains
    · rw [if_neg hkey]

theorem count_erase_of_contains (h : map.contains key = true) :
    (map.erase key).count = map.count - 1 := by
  rw [erase, if_pos h]

theorem count_overwrite_of_free (h : map.slots (map.getCircularIdx key) = none) :
    (map.overwrite key value).count = map.count + 1 := by
  unfold overwrite insert
  rw [h]

theorem count_overwrite_of_taken {old : Nat} {oldValue : V}
    (h : map.slots (map.getCircularIdx key) = some (old, oldValue)) :
    (map.overwrite key value).count = map.count - 1 + 1 := by
  have hidx : map.getCircularIdx old = map.getCircularIdx key := map.keyed _ _ _ h
  have hold : map.contains old = true := by
    rw [contains, slots_eq_some h]
    rfl
  have hfree : (map.erase old).slots ((map.erase old).getCircularIdx key) = none := by
    rw [getCircularIdx, capacity_erase, ← getCircularIdx, slots_erase_of_contains map old hold, hidx,
      Function.update_self]
  have hinsert : map.overwrite key value = (map.erase old).insert key value := by
    rw [overwrite, h]
  have hcount : ((map.erase old).insert key value).count = (map.erase old).count + 1 := by
    rw [insert, hfree]
  rw [hinsert, hcount, count_erase_of_contains map old hold]

end CircularMap
end Srsran.Adt
