import Mathlib.Logic.Function.Basic
import Srsran.Adt.SoaTable
import Srsran.Lib.Runs

/-! Runs of a table beside the finite map that it stands for. -/
namespace Srsran.Adt
open Runs

inductive TableCall (α : Type) where
  | insert (value : α)
  | erase (rid : RowId)
  | clear

/-- A table, and the value that was inserted for each ID that is live. -/
structure TrackedTable (α : Type) where
  table : SoaTable α := {}
  live : RowId → Option α := fun _ => none

namespace TrackedTable
variable {α : Type}

def step (s : TrackedTable α) : TableCall α → Option (TrackedTable α)
  | .insert value =>
    some
      { table := (s.table.insert value).2
        live := Function.update s.live (s.table.insert value).1 (some value) }
  | .erase rid => some { table := s.table.erase rid, live := Function.update s.live rid none }
  | .clear => some { table := .clear }

/-- An erasure of a row, or of an ID whose entry in `indexMap` is no offset. -/
def Noticed (s : TrackedTable α) : TableCall α → Prop
  | .erase rid => s.table.hasRowId rid ∨ s.table.vacant rid
  | .insert _ | .clear => True

instance (s : TrackedTable α) : (call : TableCall α) → Decidable (s.Noticed call)
  | .erase rid => inferInstanceAs (Decidable (s.table.hasRowId rid ∨ s.table.vacant rid))
  | .insert _ | .clear => isTrue trivial

structure Refines (s : TrackedTable α) : Prop where
  wellFormed : s.table.WellFormed
  row?_eq : ∀ rid, s.table.row? rid = s.live rid

variable {s s' : TrackedTable α}

theorem Refines.empty : Refines ({} : TrackedTable α) where
  wellFormed := SoaTable.wellFormed_empty
  row?_eq := fun _ => rfl

theorem Refines.insert (h : s.Refines) (value : α) :
    Refines { table := (s.table.insert value).2
              live := Function.update s.live (s.table.insert value).1 (some value) } where
  wellFormed := h.wellFormed.insert value
  row?_eq := by
    intro rid
    rw [h.wellFormed.row?_insert, h.row?_eq]
    exact (Function.update_apply ..).symm

theorem Refines.erase (h : s.Refines) {rid : RowId} (hnoticed : s.Noticed (.erase rid)) :
    Refines { table := s.table.erase rid, live := Function.update s.live rid none } := by
  rcases hnoticed with hlive | hvacant
  · rw [SoaTable.hasRowId_eq] at hlive
    obtain ⟨value, hrow⟩ := Option.isSome_iff_exists.mp hlive
    refine ⟨h.wellFormed.erase hrow, fun rid' => ?_⟩
    rw [h.wellFormed.row?_erase hrow, h.row?_eq]
    exact (Function.update_apply ..).symm
  · have hnone := h.row?_eq rid
    rw [SoaTable.row?_of_vacant hvacant] at hnone
    rw [SoaTable.erase_of_vacant hvacant, hnone, Function.update_eq_self]
    exact h

theorem Refines.step (h : s.Refines) {call : TableCall α} (hnoticed : s.Noticed call)
    (hstep : s.step call = some s') : s'.Refines := by
  cases call with
  | insert value =>
    cases hstep
    exact h.insert value
  | erase rid =>
    cases hstep
    exact h.erase hnoticed
  | clear =>
    cases hstep
    exact .empty

theorem Refines.of_reaches (h : Reaches TrackedTable.step Noticed {} s) : s.Refines :=
  h.invariant .empty fun _ _ _ hrefines hnoticed hstep => hrefines.step hnoticed hstep

theorem Refines.hasRowId_eq (h : s.Refines) (rid : RowId) : s.table.hasRowId rid = (s.live rid).isSome := by
  rw [SoaTable.hasRowId_eq, h.row?_eq]

theorem Refines.rows (h : s.Refines) :
    (s.table.rows.map Prod.fst).Nodup ∧ ∀ rid value, (rid, value) ∈ s.table.rows ↔ s.live rid = some value := by
  refine ⟨?_, fun rid value => by rw [← h.wellFormed.row?_eq_some_iff, h.row?_eq]⟩
  rw [List.Nodup, List.pairwise_map, List.pairwise_iff_getElem]
  intro offset offset' hlt hlt' hless heq
  have hsame := h.wellFormed.offset_unique (List.getElem?_eq_getElem hlt) (List.getElem?_eq_getElem hlt') heq
  exact absurd hless (hsame ▸ Nat.lt_irrefl _)

/-- An erasure is right about whether its ID is live if and only if the ID is live or its entry no offset. -/
theorem Refines.eraseReturn_iff (h : s.Refines) (rid : RowId) :
    (s.table.eraseReturn rid = (s.live rid).isSome ∧ (s.live rid = none → s.table.erase rid = s.table)) ↔
      s.Noticed (.erase rid) := by
  rw [← h.hasRowId_eq, Noticed, SoaTable.eraseReturn_eq]
  constructor
  · rintro ⟨hreturn, -⟩
    cases hvacant : s.table.vacant rid with
    | true => exact .inr rfl
    | false =>
      rw [hvacant] at hreturn
      exact .inl hreturn.symm
  · rintro (hlive | hvacant)
    · have hsome := hlive
      rw [h.hasRowId_eq] at hsome
      refine ⟨?_, fun hnone => ?_⟩
      · cases hvacant : s.table.vacant rid with
        | true =>
          rw [SoaTable.hasRowId_eq, SoaTable.row?_of_vacant hvacant] at hlive
          cases hlive
        | false => exact hlive.symm
      · rw [hnone] at hsome
        cases hsome
    · rw [hvacant, SoaTable.hasRowId_eq, SoaTable.row?_of_vacant hvacant]
      exact ⟨rfl, fun _ => SoaTable.erase_of_vacant hvacant⟩

/-- A table whose erasures are all noticed is the map of the values inserted for its live IDs, and an erasure
is right in it if and only if it is noticed. -/
theorem table_refines_map (h : Reaches step Noticed {} s) :
    (∀ rid, s.table.hasRowId rid = (s.live rid).isSome ∧ s.table.row? rid = s.live rid) ∧
    (∀ value, s.live (s.table.insert value).1 = none) ∧
    ((s.table.rows.map Prod.fst).Nodup ∧ ∀ rid value, (rid, value) ∈ s.table.rows ↔ s.live rid = some value) ∧
    ∀ rid, (s.table.eraseReturn rid = (s.live rid).isSome ∧ (s.live rid = none → s.table.erase rid = s.table)) ↔
      s.Noticed (.erase rid) := by
  have hrefines := Refines.of_reaches h
  refine ⟨fun rid => ⟨hrefines.hasRowId_eq rid, hrefines.row?_eq rid⟩, ?_, hrefines.rows, hrefines.eraseReturn_iff⟩
  intro value
  rw [SoaTable.WellFormed.insert_fst, ← hrefines.row?_eq]
  exact hrefines.wellFormed.row?_freeListHead

/-- IDs that were erased or never issued, and one that is issued again. -/
theorem table_refines_map_staleIds :
    ∃ s : TrackedTable Nat, s.live 0 = some 12 ∧ s.live 1 = some 11 ∧ s.table.row? 0 = s.live 0 ∧
      s.table.row? 1 = s.live 1 := by
  have hrun : (runAll (guarded step Noticed) ({} : TrackedTable Nat)
      [.insert 10, .insert 11, .erase 0, .erase 0, .erase 7, .insert 12]).map (fun s => (s.live 0, s.live 1)) =
      some (some 12, some 11) := by decide +kernel
  obtain ⟨s, hs, hlive⟩ := Option.map_eq_some_iff.mp hrun
  rw [Prod.mk.injEq] at hlive
  have hrefines := table_refines_map (reaches_of_runGuarded .start hs)
  exact ⟨s, hlive.1, hlive.2, (hrefines.1 0).2, (hrefines.1 1).2⟩

/-- The entry of the erased ID 1 is the next free ID 0, and its second erasure erases the row of ID 2 at that
offset. -/
theorem table_loses_row :
    ¬ ∀ s : TrackedTable Nat, Reaches step (fun _ _ => True) {} s →
      ∀ rid, s.table.row? rid = s.live rid ∧ (s.live rid = none → s.table.eraseReturn rid = false) := by
  intro hall
  have hrun : (runAll step ({} : TrackedTable Nat)
      [.insert 10, .insert 11, .insert 12, .erase 0, .erase 1, .erase 1]).map
        (fun s => (s.live 2, s.table.row? 2)) = some (some 12, none) := by decide +kernel
  obtain ⟨s, hs, hlive⟩ := Option.map_eq_some_iff.mp hrun
  rw [Prod.mk.injEq] at hlive
  have hrow := (hall s (reaches_of_runAll .start (fun _ _ _ => trivial) hs) 2).1
  rw [hlive.1, hlive.2] at hrow
  cases hrow

end TrackedTable
end Srsran.Adt
