import Mathlib.Data.List.Perm.Basic
import Mathlib.Data.List.Nodup
import Mathlib.Logic.Function.Basic

/-! Lists that index the values of a map. A value says in which lists of a family its key belongs; the
family holds each key once in those lists and nowhere else. -/
namespace Placement
variable {I K V : Type} [DecidableEq K] {lists lists' : I → List K} {value value' : K → Option V}
  {belongs : V → I → Bool}

/-- Every list holds exactly the keys that belong there, each of them once. -/
def Holds (lists : I → List K) (value : K → Option V) (belongs : V → I → Bool) : Prop :=
  ∀ i k, (lists i).count k = if (value k).any (belongs · i) then 1 else 0

namespace Holds

variable {k : K}

section
variable (h : Holds lists value belongs)
include h

theorem count_eq {v : V} (hv : value k = some v) (i : I) :
    (lists i).count k = if belongs v i then 1 else 0 := by
  rw [h i k, hv, Option.any_some]

theorem mem_iff {i : I} : k ∈ lists i ↔ ∃ v, value k = some v ∧ belongs v i = true := by
  rw [← List.count_pos_iff, h i k]
  cases hv : value k with
  | none => simp
  | some v => by_cases hb : belongs v i = true <;> simp [hb]

theorem mem {i : I} {v : V} (hv : value k = some v) (hb : belongs v i = true) : k ∈ lists i :=
  h.mem_iff.mpr ⟨v, hv, hb⟩

theorem nodup (i : I) : (lists i).Nodup := by
  rw [List.nodup_iff_count_le_one]
  intro k
  rw [h i k]
  split <;> omega

end

theorem of_nodup (hnodup : ∀ i, (lists i).Nodup)
    (hmem : ∀ i k, k ∈ lists i ↔ ∃ v, value k = some v ∧ belongs v i = true) :
    Holds lists value belongs := by
  intro i k
  by_cases hk : k ∈ lists i
  · obtain ⟨v, hv, hb⟩ := (hmem i k).mp hk
    rw [List.count_eq_one_of_mem (hnodup i) hk, hv, Option.any_some, if_pos hb]
  · have hnot : ¬ (value k).any (belongs · i) = true := by
      rw [Option.any_eq_true]
      exact fun hany => hk ((hmem i k).mpr hany)
    rw [List.count_eq_zero_of_not_mem hk, if_neg hnot]

variable (h : Holds lists value belongs)
include h

theorem perm (hperm : ∀ i, (lists' i).Perm (lists i)) : Holds lists' value belongs := by
  intro i k
  rw [(hperm i).count_eq k, h i k]

theorem congr (hsame : ∀ i k, (value' k).any (belongs · i) = (value k).any (belongs · i)) :
    Holds lists value' belongs := by
  intro i k
  rw [h i k, hsame i k]

theorem keep {v v' : V} (hv : value k = some v) (hsame : ∀ i, belongs v' i = belongs v i) :
    Holds lists (Function.update value k (some v')) belongs := by
  refine h.congr fun i k' => ?_
  by_cases hk : k' = k
  · subst hk
    rw [Function.update_self, hv, Option.any_some, Option.any_some, hsame i]
  · rw [Function.update_of_ne hk]

theorem remove {v' : V} {i : I}
    (hsame : ∀ j, j ≠ i → lists' j = lists j) (hperm : (lists i).Perm (k :: lists' i))
    (hnone : ∀ j, j ≠ i → (lists j).count k = 0) (hv' : ∀ j, belongs v' j = false) :
    Holds lists' (Function.update value k (some v')) belongs := by
  have hone := h i k
  intro j k'
  have hcount := hperm.count_eq k'
  rw [List.count_cons] at hcount
  by_cases hk : k' = k
  · subst hk
    rw [Function.update_self, Option.any_some, hv' j]
    by_cases hj : j = i
    · subst hj
      split at hone <;> simp_all
    · rw [hsame j hj, hnone j hj]
      simp
  · rw [Function.update_of_ne hk, ← h j k']
    by_cases hj : j = i
    · subst hj
      rw [hcount, if_neg (by simpa using Ne.symm hk), Nat.add_zero]
    · rw [hsame j hj]

theorem insert [DecidableEq I] {v' : V} {i : I}
    (hsame : ∀ j, j ≠ i → lists' j = lists j) (hperm : (lists' i).Perm (k :: lists i))
    (hnone : ∀ j, (lists j).count k = 0) (hv' : ∀ j, belongs v' j = decide (j = i)) :
    Holds lists' (Function.update value k (some v')) belongs := by
  intro j k'
  have hcount := hperm.count_eq k'
  rw [List.count_cons] at hcount
  by_cases hk : k' = k
  · subst hk
    rw [Function.update_self, Option.any_some, hv' j]
    by_cases hj : j = i
    · subst hj
      rw [hcount, hnone j]
      simp
    · rw [hsame j hj, hnone j]
      simp [hj]
  · rw [Function.update_of_ne hk, ← h j k']
    by_cases hj : j = i
    · subst hj
      rw [hcount, if_neg (by simpa using Ne.symm hk), Nat.add_zero]
    · rw [hsame j hj]

/-- A key goes from the list that holds it to another one, or stays in its list. -/
theorem move [DecidableEq I] {v v' : V} {i j : I}
    (hv : value k = some v) (hbelongs : ∀ o, belongs v o = decide (o = i))
    (hbelongs' : ∀ o, belongs v' o = decide (o = j))
    (hcount : ∀ o k', (lists' o).count k' + (if o = i ∧ k' = k then 1 else 0) =
      (lists o).count k' + if o = j ∧ k' = k then 1 else 0) :
    Holds lists' (Function.update value k (some v')) belongs := by
  intro o k'
  have hmoved := hcount o k'
  rw [h o k'] at hmoved
  by_cases hk : k' = k
  · subst hk
    rw [Function.update_self, Option.any_some, hbelongs' o]
    rw [hv, Option.any_some, hbelongs o] at hmoved
    simp only [and_true, decide_eq_true_eq] at hmoved ⊢
    omega
  · rw [Function.update_of_ne hk]
    simpa [hk] using hmoved

end Holds

end Placement
