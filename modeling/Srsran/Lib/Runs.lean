import Mathlib.Tactic.Common

/-! Runs of a step function whose actions may be guarded: `step s a = none` says that `a` is not
enabled in `s`. -/
namespace Runs
variable {S A : Type} {step : S → A → Option S} {guard : S → A → Prop} {init : S}

/-- States reached from `init` by steps that all meet the guard. -/
inductive Reaches (step : S → A → Option S) (guard : S → A → Prop) (init : S) : S → Prop where
  | start : Reaches step guard init init
  | next {s s' : S} {a : A} : Reaches step guard init s → guard s a → step s a = some s' →
      Reaches step guard init s'

/-- A property that holds initially and is kept by every guarded step holds in every state. -/
theorem Reaches.invariant {s : S} (h : Reaches step guard init s) {I : S → Prop} (hinit : I init)
    (hstep : ∀ s a s', I s → guard s a → step s a = some s' → I s') : I s := by
  induction h with
  | start => exact hinit
  | next _ hguard hs ih => exact hstep _ _ _ ih hguard hs

def runAll (step : S → A → Option S) : S → List A → Option S
  | s, [] => some s
  | s, a :: rest => (step s a).bind fun s' => runAll step s' rest

theorem runAll_append {s mid s' : S} {first rest : List A} (hfirst : runAll step s first = some mid)
    (hrest : runAll step mid rest = some s') : runAll step s (first ++ rest) = some s' := by
  induction first generalizing s with
  | nil =>
    cases hfirst
    exact hrest
  | cons a first ih =>
    obtain ⟨next, hnext, hfirst⟩ := Option.bind_eq_some_iff.mp hfirst
    rw [List.cons_append, runAll, hnext, Option.bind_some]
    exact ih hfirst

theorem runAll_map {B : Type} (action : B → A) (s : S) (inputs : List B) :
    runAll step s (inputs.map action) = runAll (fun s b => step s (action b)) s inputs := by
  induction inputs generalizing s with
  | nil => rfl
  | cons b rest ih =>
    rw [List.map_cons, runAll, runAll]
    exact congrArg _ (funext ih)

theorem reaches_of_runAll {actions : List A} {s s' : S} (h : Reaches step guard init s)
    (hguard : ∀ a ∈ actions, ∀ s, guard s a) (hrun : runAll step s actions = some s') :
    Reaches step guard init s' := by
  induction actions generalizing s with
  | nil =>
    cases hrun
    exact h
  | cons a rest ih =>
    obtain ⟨mid, hmid, hrest⟩ := Option.bind_eq_some_iff.mp hrun
    rw [List.forall_mem_cons] at hguard
    exact ih (.next h (hguard.1 s) hmid) hguard.2 hrest

def guarded (step : S → A → Option S) (guard : S → A → Prop) [∀ s a, Decidable (guard s a)] (s : S)
    (a : A) : Option S :=
  if guard s a then step s a else none

theorem reaches_of_runGuarded [∀ s a, Decidable (guard s a)] {actions : List A} {s s' : S}
    (h : Reaches step guard init s) (hrun : runAll (guarded step guard) s actions = some s') :
    Reaches step guard init s' := by
  induction actions generalizing s with
  | nil =>
    cases hrun
    exact h
  | cons a rest ih =>
    obtain ⟨mid, hmid, hrest⟩ := Option.bind_eq_some_iff.mp hrun
    rw [guarded] at hmid
    split at hmid
    · rename_i hguard
      exact ih (.next h hguard hmid) hrest
    · cases hmid

end Runs
