import Mathlib.Data.Finset.SDiff
import Mathlib.Data.Finset.Basic

/-! A finite set that is a base and a list of parts, none of which share an element. -/
namespace Parts
variable {R : Type} {base whole part : Finset R} {parts : List (Finset R)}

/-- The set is the base and the parts, and all of these are disjoint. -/
structure IsParts (base : Finset R) (parts : List (Finset R)) (whole : Finset R) : Prop where
  mem : ∀ r, r ∈ whole ↔ r ∈ base ∨ ∃ part ∈ parts, r ∈ part
  base : ∀ part ∈ parts, Disjoint base part
  apart : parts.Pairwise Disjoint

theorem IsParts.nil (base : Finset R) : IsParts base [] base where
  mem := by simp
  base := nofun
  apart := .nil

theorem IsParts.base_subset (h : IsParts base parts whole) : base ⊆ whole :=
  fun r hr => (h.mem r).mpr (.inl hr)

theorem IsParts.part_subset (h : IsParts base parts whole) (hpart : part ∈ parts) : part ⊆ whole :=
  fun r hr => (h.mem r).mpr (.inr ⟨part, hpart, hr⟩)

variable [DecidableEq R]

theorem IsParts.push (h : IsParts base parts whole) (hfree : Disjoint whole part) :
    IsParts base (parts ++ [part]) (whole ∪ part) where
  mem := by
    intro r
    rw [Finset.mem_union, h.mem]
    simp only [List.mem_append, List.mem_singleton]
    constructor
    · rintro ((hbase | ⟨other, hother, hr⟩) | hr)
      · exact .inl hbase
      · exact .inr ⟨other, .inl hother, hr⟩
      · exact .inr ⟨part, .inr rfl, hr⟩
    · rintro (hbase | ⟨other, hother | rfl, hr⟩)
      · exact .inl (.inl hbase)
      · exact .inl (.inr ⟨other, hother, hr⟩)
      · exact .inr hr
  base := by
    intro other hother
    rcases List.mem_append.mp hother with hother | hother
    · exact h.base other hother
    · rw [List.mem_singleton.mp hother]
      exact hfree.mono_left h.base_subset
  apart := by
    refine List.pairwise_append.mpr ⟨h.apart, List.pairwise_singleton _ _, ?_⟩
    intro first hfirst second hsecond
    rw [List.mem_singleton.mp hsecond]
    exact hfree.mono_left (h.part_subset hfirst)

theorem IsParts.pop (h : IsParts base (parts ++ [part]) whole) :
    IsParts base parts (whole \ part) where
  mem := by
    intro r
    have hlast := h.base part (List.mem_append_right _ (List.mem_singleton_self _))
    obtain ⟨-, -, hothers⟩ := List.pairwise_append.mp h.apart
    rw [Finset.mem_sdiff, h.mem]
    constructor
    · rintro ⟨hbase | ⟨other, hother, hr⟩, hnot⟩
      · exact .inl hbase
      · rcases List.mem_append.mp hother with hother | hother
        · exact .inr ⟨other, hother, hr⟩
        · rw [List.mem_singleton.mp hother] at hr
          exact absurd hr hnot
    · rintro (hbase | ⟨other, hother, hr⟩)
      · exact ⟨.inl hbase, Finset.disjoint_left.mp hlast hbase⟩
      · refine ⟨.inr ⟨other, List.mem_append_left _ hother, hr⟩, ?_⟩
        exact Finset.disjoint_left.mp (hothers other hother part (List.mem_singleton_self _)) hr
  base := fun other hother => h.base other (List.mem_append_left _ hother)
  apart := (List.pairwise_append.mp h.apart).1

end Parts
