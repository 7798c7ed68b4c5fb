import Mathlib.Data.List.Forall2

/-! Computations that may fail an assertion: a postcondition for the result together with the
failures that are allowed. -/
namespace Checked
variable {ε α β : Type} {allowed : ε → Prop} {P Q : α → Prop} {R : β → Prop}

/-- Every result satisfies `P`, and every failure is an allowed one. -/
def Ensures (allowed : ε → Prop) (P : α → Prop) : Except ε α → Prop
  | .ok a => P a
  | .error e => allowed e

theorem Ensures.ok {a : α} (h : P a) : Ensures allowed P (.ok a) := h

theorem Ensures.error {e : ε} (h : allowed e) : Ensures allowed P (.error e) := h

variable {r : Except ε α}

theorem Ensures.result (h : Ensures allowed P r) {a : α} (hr : r = .ok a) : P a := by
  subst hr
  exact h

theorem Ensures.failure (h : Ensures allowed P r) {e : ε} (hr : r = .error e) : allowed e := by
  subst hr
  exact h

theorem Ensures.mono (h : Ensures allowed P r) (hPQ : ∀ a, P a → Q a) : Ensures allowed Q r := by
  cases r with
  | ok a => exact hPQ a h
  | error e => exact h

theorem Ensures.exists_ok (h : Ensures (fun _ : ε => False) P r) : ∃ a, r = .ok a ∧ P a := by
  cases r with
  | ok a => exact ⟨a, rfl, h⟩
  | error e => exact absurd h id

variable {f : α → Except ε β}

theorem Ensures.bind (h : Ensures allowed P r)
    (hf : ∀ a, P a → Ensures allowed R (f a)) : Ensures allowed R (r >>= f) := by
  cases r with
  | ok a => exact hf a h
  | error e => exact h

theorem bind_ok {b : β} (h : (r >>= f) = .ok b) : ∃ a, r = .ok a ∧ f a = .ok b := by
  cases r with
  | ok a => exact ⟨a, rfl, h⟩
  | error e => cases h

/-- A computation of which an observation is known has a result. -/
theorem exists_ok_of_observed {f : α → β} {b : β}
    (h : r.toOption.map f = some b) : ∃ a, r = .ok a ∧ f a = b := by
  cases r with
  | ok a => exact ⟨a, rfl, Option.some.inj h⟩
  | error e => cases h

theorem toOption_eq_some {a : α} (h : r.toOption = some a) : r = .ok a := by
  cases r with
  | ok b => exact congrArg Except.ok (Option.some.inj h)
  | error e => cases h

variable {xs : List α}

theorem Ensures.mapM {S : α → β → Prop} (h : ∀ x ∈ xs, Ensures allowed (S x) (f x)) :
    Ensures allowed (fun ys => List.Forall₂ S xs ys) (xs.mapM f) := by
  induction xs with
  | nil => exact List.Forall₂.nil
  | cons x xs ih =>
    rw [List.mapM_cons]
    refine (h x List.mem_cons_self).bind fun y hy => ?_
    refine (ih fun x' hx' => h x' (List.mem_cons_of_mem _ hx')).bind fun ys hys => ?_
    exact List.Forall₂.cons hy hys

/-- A loop over a list, with what holds after the elements that are done. -/
theorem Ensures.foldlM {I : List α → β → Prop} {f : β → α → Except ε β} {xs : List α} {b : β} (hinit : I [] b)
    (hstep : ∀ b done x rest, xs = done ++ x :: rest → I done b →
      Ensures allowed (I (done ++ [x])) (f b x)) :
    Ensures allowed (I xs) (xs.foldlM f b) := by
  have hrest : ∀ rest done b, xs = done ++ rest → I done b → Ensures allowed (I xs) (rest.foldlM f b) := by
    intro rest
    induction rest with
    | nil =>
      intro done b hxs hdone
      rw [List.append_nil] at hxs
      rw [hxs]
      exact hdone
    | cons x rest ih =>
      intro done b hxs hdone
      rw [List.foldlM_cons]
      refine (hstep b done x rest hxs hdone).bind fun b' hb' => ?_
      exact ih (done ++ [x]) b' (by rw [hxs, List.append_assoc]; rfl) hb'
  exact hrest xs [] b rfl hinit

/-- A loop that returns, with what holds after the elements that are done. -/
theorem foldlM_ok {I : List α → β → Prop} {f : β → α → Except ε β} {b b' : β}
    (h : xs.foldlM f b = .ok b') (hinit : I [] b)
    (hstep : ∀ b done x b', I done b → f b x = .ok b' → I (done ++ [x]) b') : I xs b' := by
  have hloop : Ensures (fun _ => True) (I xs) (xs.foldlM f b) := by
    refine Ensures.foldlM hinit fun b done x _ _ hdone => ?_
    cases hx : f b x with
    | ok b' => exact hstep b done x b' hdone hx
    | error e => exact .error trivial
  exact hloop.result h

@[simp] theorem ok_bind (a : α) (f : α → Except ε β) : (Except.ok a >>= f) = f a := rfl

@[simp] theorem error_bind (e : ε) (f : α → Except ε β) : (Except.error e >>= f) = .error e := rfl

theorem anyM_of_ok {p : α → Except ε Bool} {q : α → Bool} (h : ∀ x ∈ xs, p x = .ok (q x)) :
    xs.anyM p = .ok (xs.any q) := by
  induction xs with
  | nil => rfl
  | cons x xs ih =>
    rw [List.forall_mem_cons] at h
    rw [List.anyM_cons, h.1, ok_bind, ih h.2, List.any_cons]
    cases q x <;> rfl

theorem mapM_of_ok {g : α → β} (h : ∀ x ∈ xs, f x = .ok (g x)) : xs.mapM f = .ok (xs.map g) := by
  induction xs with
  | nil => rfl
  | cons x xs ih =>
    rw [List.forall_mem_cons] at h
    rw [List.mapM_cons, h.1, ok_bind, ih h.2, ok_bind]
    rfl

/-- A loop in which all turns succeed. -/
theorem foldlM_of_ok {f : β → α → Except ε β} {g : β → α → β}
    (h : ∀ x ∈ xs, ∀ b, f b x = .ok (g b x)) (b : β) : xs.foldlM f b = .ok (xs.foldl g b) := by
  induction xs generalizing b with
  | nil => rfl
  | cons x xs ih =>
    rw [List.forall_mem_cons] at h
    rw [List.foldlM_cons, h.1, ok_bind, ih h.2, List.foldl_cons]

theorem eq_map_of_mapM {g : α → β} {ys : List β} (h : xs.mapM f = .ok ys)
    (hf : ∀ x y, f x = .ok y → y = g x) : ys = xs.map g := by
  induction xs generalizing ys with
  | nil =>
    cases h
    rfl
  | cons x xs ih =>
    rw [List.mapM_cons] at h
    obtain ⟨y, hy, h⟩ := bind_ok h
    obtain ⟨rest, hrest, h⟩ := bind_ok h
    cases h
    rw [hf x y hy, ih hrest, List.map_cons]

end Checked
