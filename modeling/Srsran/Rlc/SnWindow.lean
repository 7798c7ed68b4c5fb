import Srsran.Adt.CircularMap
import Srsran.Rlc.Config

/-! SDU windows keyed by sequence numbers. A window holds SNs of an interval of unbounded numbers,
each stored under its residue; the interval is never longer than the capacity, so no two of its
SNs share a slot. -/
namespace Srsran.Rlc
open ModOrder Srsran.Adt

/-- A window of half the SN space, as `sdu_window` is created for an SN size. -/
structure WindowShape (m w : Nat) : Prop where
  two_windows : m = 2 * w
  pow : ∃ n, w = 2 ^ n
  modulus : Modulus m

theorem RlcAmSnSize.windowShape (snSize : RlcAmSnSize) :
    WindowShape (cardinality snSize.toNumber) (windowSize snSize.toNumber) where
  two_windows := snSize.cardinality_eq
  pow := ⟨_, Rlc.cardinality_eq _⟩
  modulus := snSize.modulus

theorem RlcUmSnSize.windowShape (snSize : RlcUmSnSize) :
    WindowShape (cardinality snSize.toNumber) (windowSize snSize.toNumber) where
  two_windows := snSize.cardinality_eq
  pow := ⟨_, Rlc.cardinality_eq _⟩
  modulus := snSize.modulus

variable {V : Type} {m w : Nat}

theorem WindowShape.pos (h : WindowShape m w) : 0 < w := by
  obtain ⟨n, rfl⟩ := h.pow
  exact Nat.two_pow_pos n

theorem getCircularIdx_mod (h : WindowShape m w) {map : CircularMap V} (hcap : map.capacity = w)
    (k : Nat) : map.getCircularIdx (k % m) = k % w := by
  obtain ⟨n, hn⟩ := h.pow
  rw [CircularMap.getCircularIdx, hcap, hn, Nat.and_two_pow_sub_one_eq_mod, ← hn, h.two_windows,
    Nat.mod_mul_left_mod]

/-- All keys are residues of the interval from `lo` to `hi`. -/
def KeysIn (map : CircularMap V) (m lo hi : Nat) : Prop :=
  ∀ key value, map.get? key = some value → ∃ k, lo ≤ k ∧ k < hi ∧ key = k % m

section Keys
variable {map : CircularMap V} {lo hi : Nat}

/-- Nothing is stored under the numbers of the turn that lie outside the interval. -/
theorem KeysIn.get?_eq_none (h : KeysIn map m lo hi) (hhi : hi ≤ lo + m) {k : Nat} (hk : hi ≤ k)
    (hk' : k < lo + m) : map.get? (k % m) = none := by
  rw [Option.eq_none_iff_forall_ne_some]
  intro value hget
  obtain ⟨j, hj, hj', heq⟩ := h _ value hget
  have := mod_inj_of_near (by omega : lo ≤ k) hk' hj (by omega) heq
  omega

theorem KeysIn.overwrite (h : KeysIn map m lo hi) {k hi' : Nat} (hk : lo ≤ k) (hk' : k < hi')
    (hhi : hi ≤ hi') (value : V) : KeysIn (map.overwrite (k % m) value) m lo hi' := by
  intro key value' hget
  rw [CircularMap.get?_overwrite] at hget
  split at hget
  · rename_i hkey
    exact ⟨k, hk, hk', hkey⟩
  · split at hget
    · cases hget
    · obtain ⟨j, hj, hj', rfl⟩ := h key value' hget
      exact ⟨j, hj, by omega, rfl⟩

theorem KeysIn.erase (h : KeysIn map m lo hi) : KeysIn (map.erase (lo % m)) m (lo + 1) hi := by
  intro key value hget
  rw [CircularMap.get?_erase] at hget
  split at hget
  · cases hget
  · rename_i hne
    obtain ⟨k, hk, hk', rfl⟩ := h key value hget
    have hlo : k ≠ lo := by
      rintro rfl
      exact hne rfl
    exact ⟨k, by omega, hk', rfl⟩

theorem get?_overwrite_near (hs : WindowShape m w) (hcap : map.capacity = w) {j k : Nat}
    (hj : lo ≤ j) (hj' : j < lo + w) (hk : lo ≤ k) (hk' : k < lo + w) (value : V) :
    (map.overwrite (k % m) value).get? (j % m) =
      if j = k then some value else map.get? (j % m) := by
  have hm := hs.two_windows
  rw [CircularMap.get?_overwrite, getCircularIdx_mod hs hcap, getCircularIdx_mod hs hcap]
  by_cases hjk : j = k
  · rw [if_pos hjk, if_pos (congrArg (· % m) hjk)]
  · rw [if_neg hjk, if_neg, if_neg]
    · exact fun h => hjk (mod_inj_of_near hj hj' hk hk' h)
    · exact fun h => hjk (mod_inj_of_near hj (by omega) hk (by omega) h)

theorem get?_erase_near {j k : Nat} (hj : lo ≤ j) (hj' : j < lo + m) (hk : lo ≤ k)
    (hk' : k < lo + m) : (map.erase (k % m)).get? (j % m) =
      if j = k then none else map.get? (j % m) := by
  rw [CircularMap.get?_erase]
  by_cases hjk : j = k
  · rw [if_pos hjk, if_pos (congrArg (· % m) hjk)]
  · rw [if_neg hjk, if_neg]
    exact fun h => hjk (mod_inj_of_near hj hj' hk hk' h)

end Keys

end Srsran.Rlc
