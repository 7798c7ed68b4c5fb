import Mathlib.Logic.Function.Basic
import Srsran.Lib.ModOrder

/-! Rings that are indexed by time modulo their size: cell `t % size` stands for one time `t` of a
window that is as long as the ring. -/
namespace Ring
variable {V : Type} {ring : Nat → V} {size base t : Nat} {values : Nat → V}

/-- The ring holds `values` from `base` on. -/
def Window (ring : Nat → V) (size base : Nat) (values : Nat → V) : Prop :=
  ∀ t, base ≤ t → t < base + size → ring (t % size) = values t

variable (h : Window ring size base values)
include h

theorem Window.update (ht : base ≤ t) (ht' : t < base + size) (value : V) :
    Window (Function.update ring (t % size) value) size base (Function.update values t value) := by
  intro s hs hs'
  by_cases hsame : s = t
  · rw [hsame, Function.update_self, Function.update_self]
  · have hcell : s % size ≠ t % size := fun hmod => hsame (ModOrder.mod_inj_of_near hs hs' ht ht' hmod)
    rw [Function.update_of_ne hcell, Function.update_of_ne hsame]
    exact h s hs hs'

/-- The window moves on by one: the cell of the time that is left gets the value of the time that enters. -/
theorem Window.advance :
    Window (Function.update ring (base % size) (values (base + size))) size (base + 1) values := by
  intro s hs hs'
  by_cases hlast : s = base + size
  · rw [hlast, Nat.add_mod_right, Function.update_self]
  · have hcell : s % size ≠ base % size := by
      intro hmod
      have hle : base ≤ s := Nat.le_of_succ_le hs
      have hsame := ModOrder.mod_inj_of_near hle (by omega) (Nat.le_refl base) (by omega) hmod
      omega
    rw [Function.update_of_ne hcell]
    exact h s (by omega) (by omega)

theorem Window.congr {values' : Nat → V}
    (heq : ∀ t, base ≤ t → t < base + size → values t = values' t) :
    Window ring size base values' :=
  fun t ht ht' => (h t ht ht').trans (heq t ht ht')

end Ring
