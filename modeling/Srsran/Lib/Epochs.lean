import Mathlib.Data.List.Induction

/-! Logs that markers divide into epochs. -/
namespace Epochs
variable {α : Type} {marker : α → Bool} {R : α → α → Prop} {log rest pre mid : List α} {x y : α}

def current (marker : α → Bool) (log : List α) : List α :=
  (log.reverse.takeWhile fun x => !marker x).reverse


theorem current_concat :
    current marker (log ++ [x]) = if marker x then [] else current marker log ++ [x] := by
  rw [current, List.reverse_append, List.reverse_singleton, List.singleton_append,
    List.takeWhile_cons]
  cases marker x with
  | true => rfl
  | false => exact List.reverse_cons

theorem current_concat_of_not_marker (h : marker x = false) :
    current marker (log ++ [x]) = current marker log ++ [x] := by
  rw [current_concat, h]
  rfl

theorem current_concat_of_marker (h : marker x = true) : current marker (log ++ [x]) = [] := by
  rw [current_concat, h]
  rfl

theorem mem_current_of_split (hlog : log = pre ++ x :: mid)
    (hmid : ∀ z ∈ x :: mid, marker z = false) : x ∈ current marker log := by
  induction mid using List.reverseRecOn generalizing log with
  | nil =>
    rw [hlog, current_concat_of_not_marker (hmid x List.mem_cons_self)]
    exact List.mem_append_right _ List.mem_cons_self
  | append_singleton mid last ih =>
    have hlast : marker last = false :=
      hmid last (List.mem_cons_of_mem _ (List.mem_append_right _ List.mem_cons_self))
    have hsplit : log = (pre ++ x :: mid) ++ [last] := by
      rw [hlog, List.append_assoc, List.cons_append]
    rw [hsplit, current_concat_of_not_marker hlast]
    apply List.mem_append_left
    apply ih rfl
    intro z hz
    apply hmid z
    rw [← List.cons_append]
    exact List.mem_append_left _ hz

/-- Two entries with no marker from the first to the second are related. -/
def Ordered (marker : α → Bool) (R : α → α → Prop) (log : List α) : Prop :=
  ∀ pre mid post x y, log = pre ++ x :: (mid ++ y :: post) →
    (∀ z ∈ x :: mid, marker z = false) → R x y

theorem ordered_nil : Ordered marker R [] := by
  intro pre mid post x y h
  simp at h

theorem Ordered.concat (h : Ordered marker R log) (hlast : ∀ x ∈ current marker log, R x y) :
    Ordered marker R (log ++ [y]) := by
  intro pre mid post x z hsplit hmid
  cases post using List.reverseRecOn with
  | nil =>
    have hends : log ++ [y] = (pre ++ x :: mid) ++ [z] := by
      rw [hsplit, List.append_assoc, List.cons_append]
    obtain ⟨hlog, hyz⟩ := List.append_inj' hends rfl
    cases hyz
    exact hlast x (mem_current_of_split hlog hmid)
  | append_singleton post last =>
    have hends : log ++ [y] = (pre ++ x :: (mid ++ z :: post)) ++ [last] := by
      rw [hsplit]
      simp
    exact h pre mid post x z (List.append_inj' hends rfl).1 hmid

theorem mem_current_append_cases (h : x ∈ current marker (log ++ rest)) :
    x ∈ current marker log ∨ x ∈ rest := by
  induction rest using List.reverseRecOn with
  | nil =>
    rw [List.append_nil] at h
    exact Or.inl h
  | append_singleton rest last ih =>
    rw [← List.append_assoc, current_concat] at h
    split at h
    · cases h
    · obtain hmem | hlast := List.mem_append.mp h
      · obtain hold | hnew := ih hmem
        · exact Or.inl hold
        · exact Or.inr (List.mem_append_left _ hnew)
      · exact Or.inr (List.mem_append_right _ hlast)

theorem mem_current_append (hrest : ∀ z ∈ rest, marker z = false) (h : x ∈ current marker log) :
    x ∈ current marker (log ++ rest) := by
  induction rest using List.reverseRecOn with
  | nil =>
    rw [List.append_nil]
    exact h
  | append_singleton rest last ih =>
    have hlast : marker last = false := hrest last (List.mem_append_right _ List.mem_cons_self)
    rw [← List.append_assoc, current_concat_of_not_marker hlast]
    exact List.mem_append_left _ (ih fun z hz => hrest z (List.mem_append_left _ hz))

theorem mem_current_append_right (hrest : ∀ z ∈ rest, marker z = false) (h : x ∈ rest) :
    x ∈ current marker (log ++ rest) := by
  obtain ⟨first, last, rfl⟩ := List.append_of_mem h
  have hsplit : log ++ (first ++ x :: last) = (log ++ first) ++ x :: last :=
    (List.append_assoc _ _ _).symm
  exact mem_current_of_split hsplit fun z hz => hrest z (List.mem_append_right _ hz)

theorem Ordered.append {G : α → Prop} (h : Ordered marker R log)
    (hgood : ∀ x ∈ current marker log, G x) (hrest : ∀ y ∈ rest, G y)
    (hR : ∀ x y, G x → G y → R x y) : Ordered marker R (log ++ rest) := by
  induction rest using List.reverseRecOn with
  | nil =>
    rw [List.append_nil]
    exact h
  | append_singleton rest last ih =>
    rw [← List.append_assoc]
    apply (ih fun y hy => hrest y (List.mem_append_left _ hy)).concat
    intro x hx
    apply hR x last _ (hrest last (List.mem_append_right _ List.mem_cons_self))
    obtain hold | hnew := mem_current_append_cases hx
    · exact hgood x hold
    · exact hrest x (List.mem_append_left _ hnew)

/-- Before every entry that needs an announcement there is one in the same epoch. -/
def Announced (marker : α → Bool) (Needs Announces : α → Prop) (log : List α) : Prop :=
  ∀ pre x post, log = pre ++ x :: post → Needs x → ∃ y ∈ current marker pre, Announces y

variable {Needs Announces : α → Prop}

theorem announced_nil : Announced marker Needs Announces [] := by
  intro pre x post h
  simp at h

theorem Announced.concat (h : Announced marker Needs Announces log)
    (hlast : Needs x → ∃ y ∈ current marker log, Announces y) :
    Announced marker Needs Announces (log ++ [x]) := by
  intro pre z post hsplit hneeds
  cases post using List.reverseRecOn with
  | nil =>
    obtain ⟨hlog, hxz⟩ := List.append_inj' hsplit rfl
    cases hxz
    rw [← hlog]
    exact hlast hneeds
  | append_singleton post last =>
    have hends : log ++ [x] = (pre ++ z :: post) ++ [last] := by
      rw [hsplit]
      simp
    exact h pre z post (List.append_inj' hends rfl).1 hneeds

theorem Announced.append (h : Announced marker Needs Announces log)
    (hmarker : ∀ z ∈ rest, marker z = false)
    (hrest : ∀ z ∈ rest, Needs z → ∃ y ∈ current marker log, Announces y) :
    Announced marker Needs Announces (log ++ rest) := by
  induction rest using List.reverseRecOn with
  | nil =>
    rw [List.append_nil]
    exact h
  | append_singleton rest last ih =>
    have hmarker' : ∀ z ∈ rest, marker z = false :=
      fun z hz => hmarker z (List.mem_append_left _ hz)
    rw [← List.append_assoc]
    apply (ih hmarker' fun z hz => hrest z (List.mem_append_left _ hz)).concat
    intro hneeds
    obtain ⟨y, hy, hannounces⟩ :=
      hrest last (List.mem_append_right _ List.mem_cons_self) hneeds
    exact ⟨y, mem_current_append hmarker' hy, hannounces⟩

end Epochs
