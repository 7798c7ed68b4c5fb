import Srsran.Rlc.SnWindow

/-! Shifting all sequence numbers of a window by the same amount. -/
namespace Srsran.Rlc
open ModOrder Srsran.Adt

variable {m k : Nat}

theorem shift_inj {a b : Nat} (ha : a < m) (hb : b < m) (h : (a + k) % m = (b + k) % m) : a = b := by
  have hab : a % m = b % m := Nat.ModEq.add_right_cancel' k h
  rwa [Nat.mod_eq_of_lt ha, Nat.mod_eq_of_lt hb] at hab

theorem exists_shift (hm : 0 < m) (k : Nat) {key : Nat} (hkey : key < m) :
    ∃ sn, sn < m ∧ key = (sn + k) % m := by
  refine ⟨(key + (m - k % m)) % m, Nat.mod_lt _ hm, ?_⟩
  have hk := Nat.mod_lt k hm
  have hsum : key + (m - k % m) + k = key + m * (k / m + 1) := by
    have hdiv := Nat.mod_add_div k m
    rw [Nat.mul_add, Nat.mul_one]
    omega
  rw [Nat.mod_add_mod, hsum, Nat.add_mul_mod_self_left, Nat.mod_eq_of_lt hkey]

end Srsran.Rlc

namespace Srsran.Adt.CircularMap
open ModOrder Srsran.Rlc

variable {V : Type} {m w k : Nat}

/-- All keys shifted by `k`: the slots rotate with them. -/
def shiftKeys (map : CircularMap V) (m k : Nat) : CircularMap V where
  capacity := map.capacity
  slots := fun idx =>
    ((map.slots ((idx + (map.capacity - k % map.capacity)) % map.capacity)).map
      fun entry => ((entry.1 + k) % m, entry.2)).filter
        fun entry => entry.1 &&& (map.capacity - 1) == idx
  count := map.count
  keyed := by
    intro idx key value h
    rw [Option.filter_eq_some_iff] at h
    exact eq_of_beq h.2

/-- A map with the capacity of a window and keys below the modulus. -/
structure Fits (map : CircularMap V) (m w : Nat) : Prop where
  capacity : map.capacity = w
  keys_lt : ∀ key value, map.get? key = some value → key < m

theorem ext_get? {map map' : CircularMap V} (hcap : map.capacity = map'.capacity)
    (hcount : map.count = map'.count) (hget : ∀ key, map.get? key = map'.get? key) : map = map' := by
  have hsome : ∀ {a b : CircularMap V}, (∀ key, a.get? key = b.get? key) →
      a.capacity = b.capacity → ∀ idx entry, a.slots idx = some entry → b.slots idx = some entry := by
    intro a b hab habCap idx entry hslot
    obtain ⟨key, value⟩ := entry
    have hkey := a.keyed idx key value hslot
    have hfound := slots_eq_some hslot
    rw [hab key, get?_eq_some_iff, getCircularIdx, ← habCap, hkey] at hfound
    exact hfound
  have hslots : map.slots = map'.slots := by
    funext idx
    apply Option.ext
    intro entry
    constructor
    · exact hsome hget hcap idx entry
    · exact hsome (fun key => (hget key).symm) hcap.symm idx entry
  cases map
  cases map'
  cases hcap
  cases hcount
  cases hslots
  rfl

section Shift
variable {map : CircularMap V}

variable {sn : Nat}

section
variable (h : Fits map m w)
include h

theorem Fits.getCircularIdx_eq (hs : WindowShape m w) (hsn : sn < m) :
    map.getCircularIdx sn = sn % w := by
  have hidx := getCircularIdx_mod hs h.capacity sn
  rwa [Nat.mod_eq_of_lt hsn] at hidx

/-- The slot of a shifted SN holds what the slot of the SN held. -/
theorem Fits.slots_shiftKeys (hs : WindowShape m w) (hsn : sn < m) :
    (map.shiftKeys m k).slots ((map.shiftKeys m k).getCircularIdx ((sn + k) % m)) =
      (map.slots (map.getCircularIdx sn)).map fun entry => ((entry.1 + k) % m, entry.2) := by
  have hw := hs.pos
  have hcap' : (map.shiftKeys m k).capacity = w := h.capacity
  have hturn : ((sn + k) % w + (w - k % w)) % w = sn % w := by
    have hk := Nat.mod_lt k hw
    have hsum : sn + k + (w - k % w) = sn + w * (k / w + 1) := by
      have hdiv := Nat.mod_add_div k w
      rw [Nat.mul_add, Nat.mul_one]
      omega
    rw [Nat.mod_add_mod, hsum, Nat.add_mul_mod_self_left]
  rw [getCircularIdx_mod hs hcap', h.getCircularIdx_eq hs hsn]
  show Option.filter _ (Option.map _ (map.slots (((sn + k) % w + (map.capacity - k % map.capacity)) %
    map.capacity))) = _
  rw [h.capacity, hturn]
  cases hslot : map.slots (sn % w) with
  | none => rfl
  | some entry =>
    obtain ⟨key, value⟩ := entry
    have hkey : key < m := h.keys_lt key value (slots_eq_some hslot)
    have hsame : key % w = sn % w := by
      rw [← h.getCircularIdx_eq hs hkey]
      exact map.keyed _ _ _ hslot
    have hpass : ((key + k) % m) &&& (w - 1) = (sn + k) % w := by
      have hidx := getCircularIdx_mod hs hcap' (key + k)
      rw [getCircularIdx, hcap'] at hidx
      rw [hidx, Nat.add_mod, hsame, ← Nat.add_mod]
    rw [Option.map_some, Option.filter_some, hpass, beq_self_eq_true, if_pos rfl]

theorem Fits.get?_shiftKeys (hs : WindowShape m w) (hsn : sn < m) :
    (map.shiftKeys m k).get? ((sn + k) % m) = map.get? sn := by
  rw [get?, h.slots_shiftKeys hs hsn, get?]
  cases hslot : map.slots (map.getCircularIdx sn) with
  | none => rfl
  | some entry =>
    obtain ⟨key, value⟩ := entry
    have hkey : key < m := h.keys_lt key value (slots_eq_some hslot)
    rw [Option.map_some]
    dsimp only
    by_cases heq : key = sn
    · rw [if_pos heq, if_pos (by rw [heq])]
    · rw [if_neg heq, if_neg fun hshift => heq (shift_inj hkey hsn hshift)]

theorem Fits.shiftKeys (hm : 0 < m) : Fits (map.shiftKeys m k) m w where
  capacity := h.capacity
  keys_lt := by
    intro key value hget
    rw [get?_eq_some_iff] at hget
    have hslot := (Option.filter_eq_some_iff.mp hget).1
    obtain ⟨entry, -, hentry⟩ := Option.map_eq_some_iff.mp hslot
    cases hentry
    exact Nat.mod_lt _ hm

theorem Fits.erase (sn : Nat) : Fits (map.erase sn) m w where
  capacity := (capacity_erase _ _).trans h.capacity
  keys_lt := by
    intro key value hget
    rw [get?_erase] at hget
    split at hget
    · cases hget
    · exact h.keys_lt key value hget

theorem Fits.overwrite (hsn : sn < m) (value : V) : Fits (map.overwrite sn value) m w where
  capacity := (capacity_overwrite _ _ _).trans h.capacity
  keys_lt := by
    intro key found hget
    rw [get?_overwrite] at hget
    split at hget
    · rename_i heq
      rw [heq]
      exact hsn
    · split at hget
      · cases hget
      · exact h.keys_lt key found hget

/-- Two maps that fit are equal if they agree on the shifted SNs. -/
theorem Fits.ext_shift {map' : CircularMap V} (h' : Fits map' m w) (hm : 0 < m)
    (hcount : map.count = map'.count)
    (hget : ∀ sn, sn < m → map.get? ((sn + k) % m) = map'.get? ((sn + k) % m)) : map = map' := by
  apply ext_get? (h.capacity.trans h'.capacity.symm) hcount
  intro key
  by_cases hkey : key < m
  · obtain ⟨sn, hsn, rfl⟩ := exists_shift hm k hkey
    exact hget sn hsn
  · have hnone : ∀ {a : CircularMap V}, Fits a m w → a.get? key = none := by
      intro a ha
      rw [Option.eq_none_iff_forall_ne_some]
      intro value hvalue
      exact hkey (ha.keys_lt key value hvalue)
    rw [hnone h, hnone h']

theorem Fits.erase_shiftKeys (hs : WindowShape m w) (hsn : sn < m) :
    (map.shiftKeys m k).erase ((sn + k) % m) = (map.erase sn).shiftKeys m k := by
  have hm := hs.modulus.pos
  apply Fits.ext_shift ((h.shiftKeys hm).erase _) ((h.erase sn).shiftKeys hm) hm
  · show _ = (map.erase sn).count
    have hcontains : (map.shiftKeys m k).contains ((sn + k) % m) = map.contains sn := by
      rw [contains, h.get?_shiftKeys hs hsn, contains]
    unfold CircularMap.erase
    rw [hcontains]
    split <;> rfl
  · intro other hother
    rw [get?_erase, (h.erase sn).get?_shiftKeys hs hother, get?_erase, h.get?_shiftKeys hs hother]
    by_cases heq : other = sn
    · rw [if_pos heq, if_pos (by rw [heq])]
    · rw [if_neg heq, if_neg fun hshift => heq (shift_inj hother hsn hshift)]

end

theorem count_overwrite (map : CircularMap V) (key : Nat) (value : V) :
    (map.overwrite key value).count =
      if (map.slots (map.getCircularIdx key)).isSome then map.count - 1 + 1 else map.count + 1 := by
  cases hslot : map.slots (map.getCircularIdx key) with
  | none => exact count_overwrite_of_free map key value hslot
  | some entry =>
    obtain ⟨old, oldValue⟩ := entry
    have hidx : map.getCircularIdx old = map.getCircularIdx key := map.keyed _ _ _ hslot
    have hold : map.contains old = true := by
      rw [contains, slots_eq_some hslot]
      rfl
    have hsame : (map.erase old).getCircularIdx key = map.getCircularIdx key := by
      rw [getCircularIdx, capacity_erase, getCircularIdx]
    have hfree : (map.erase old).slots ((map.erase old).getCircularIdx key) = none := by
      rw [hsame, slots_erase_of_contains map old hold, hidx, Function.update_self]
    rw [overwrite, hslot]
    dsimp only
    rw [insert, hfree]
    dsimp only
    rw [count_erase_of_contains map old hold]
    rfl

theorem Fits.overwrite_shiftKeys (h : Fits map m w) (hs : WindowShape m w) (hsn : sn < m)
    (value : V) : (map.shiftKeys m k).overwrite ((sn + k) % m) value =
      (map.overwrite sn value).shiftKeys m k := by
  have hm := hs.modulus.pos
  have hsn' : (sn + k) % m < m := Nat.mod_lt _ hm
  apply Fits.ext_shift ((h.shiftKeys hm).overwrite hsn' value) ((h.overwrite hsn value).shiftKeys hm) hm
  · show _ = (map.overwrite sn value).count
    rw [count_overwrite, count_overwrite, h.slots_shiftKeys hs hsn, Option.isSome_map]
    rfl
  · intro other hother
    have hidx : (map.shiftKeys m k).getCircularIdx ((other + k) % m) =
        (map.shiftKeys m k).getCircularIdx ((sn + k) % m) ↔
        map.getCircularIdx other = map.getCircularIdx sn := by
      rw [getCircularIdx_mod hs (h.shiftKeys hm).capacity,
        getCircularIdx_mod hs (h.shiftKeys hm).capacity, h.getCircularIdx_eq hs hother, h.getCircularIdx_eq hs hsn]
      constructor
      · exact fun heq => Nat.ModEq.add_right_cancel' k heq
      · exact fun heq => Nat.ModEq.add_right k heq
    rw [get?_overwrite, (h.overwrite hsn value).get?_shiftKeys hs hother, get?_overwrite,
      h.get?_shiftKeys hs hother]
    by_cases heq : other = sn
    · rw [if_pos heq, if_pos (by rw [heq])]
    · rw [if_neg heq, if_neg fun hshift => heq (shift_inj hother hsn hshift)]
      by_cases hslot : map.getCircularIdx other = map.getCircularIdx sn
      · rw [if_pos hslot, if_pos (hidx.mpr hslot)]
      · rw [if_neg hslot, if_neg fun h' => hslot (hidx.mp h')]

end Shift

end Srsran.Adt.CircularMap
