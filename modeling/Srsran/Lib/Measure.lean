import Mathlib.Algebra.BigOperators.Group.Finset.Basic
import Srsran.Lib.Runs

/-! Measures that bound the length of runs, and sums over a family of parties of which one step changes one. -/
namespace Measure
open Runs

theorem sum_update_add {I V : Type} [DecidableEq I] {parties : Finset I} {i : I} (hi : i ∈ parties) (family : I → V)
    (weight : V → Nat) (v : V) :
    (∑ j ∈ parties, weight (Function.update family i v j)) + weight (family i) =
      (∑ j ∈ parties, weight (family j)) + weight v := by
  have hnew := Finset.add_sum_erase _ (fun j => weight (Function.update family i v j)) hi
  have hold := Finset.add_sum_erase _ (fun j => weight (family j)) hi
  have hrest : ∑ j ∈ parties.erase i, weight (Function.update family i v j) =
      ∑ j ∈ parties.erase i, weight (family j) :=
    Finset.sum_congr rfl fun j hj => by rw [Function.update_of_ne (Finset.ne_of_mem_erase hj)]
  rw [Function.update_self] at hnew
  omega

variable {S A : Type} {step : S → A → Option S}

/-- A measure that every enabled step decreases bounds the length of every run. -/
theorem length_le_of_runAll (μ : S → Nat) (I : S → Prop) (enabled : A → Prop)
    (hstep : ∀ s a s', I s → enabled a → step s a = some s' → I s' ∧ μ s' < μ s)
    {actions : List A} {s s' : S} (hinv : I s) (henabled : ∀ a ∈ actions, enabled a)
    (hrun : runAll step s actions = some s') : actions.length + μ s' ≤ μ s := by
  induction actions generalizing s with
  | nil =>
    cases hrun
    exact (Nat.zero_add _).le
  | cons a rest ih =>
    obtain ⟨mid, hmid, hrest⟩ := Option.bind_eq_some_iff.mp hrun
    rw [List.forall_mem_cons] at henabled
    obtain ⟨hinv', hlt⟩ := hstep s a mid hinv henabled.1 hmid
    have hlen := ih hinv' henabled.2 hrest
    rw [List.length_cons]
    omega

end Measure
