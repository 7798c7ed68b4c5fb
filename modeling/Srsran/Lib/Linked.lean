import Mathlib.Data.List.Nodup
import Mathlib.Data.List.Perm.Subperm
import Mathlib.Logic.Function.Basic
import Mathlib.Tactic.Common

/-! Singly linked lists in a memory: nodes at addresses, each with a pointer to the next one. -/
namespace Linked
variable {A N : Type} {mem mem' : A → Option N} {next : N → Option A} {start stop : Option A}
  {path rest : List A}

/-- The nodes at the addresses `path` lead from the pointer `start` to the pointer `stop`. -/
def Leads (mem : A → Option N) (next : N → Option A) : Option A → List A → Option A → Prop
  | start, [], stop => start = stop
  | start, a :: rest, stop =>
    start = some a ∧ ∃ node, mem a = some node ∧ Leads mem next (next node) rest stop

theorem leads_append : Leads mem next start (path ++ rest) stop ↔
    ∃ mid, Leads mem next start path mid ∧ Leads mem next mid rest stop := by
  induction path generalizing start with
  | nil => simp [Leads]
  | cons a path ih =>
    simp only [List.cons_append, Leads, ih]
    constructor
    · rintro ⟨hstart, node, hnode, mid, hpath, hrest⟩
      exact ⟨mid, ⟨hstart, node, hnode, hpath⟩, hrest⟩
    · rintro ⟨mid, ⟨hstart, node, hnode, hpath⟩, hrest⟩
      exact ⟨hstart, node, hnode, mid, hpath, hrest⟩

theorem Leads.live (h : Leads mem next start path stop) : ∀ a ∈ path, ∃ node, mem a = some node := by
  induction path generalizing start with
  | nil => simp
  | cons a path ih =>
    obtain ⟨-, node, hnode, hrest⟩ := h
    exact List.forall_mem_cons.mpr ⟨⟨node, hnode⟩, ih hrest⟩

theorem Leads.next_mem {a b : A} {node : N} (h : Leads mem next start path none) (ha : a ∈ path)
    (hnode : mem a = some node) (hnext : next node = some b) : b ∈ path := by
  induction path generalizing start with
  | nil => cases ha
  | cons c path ih =>
    obtain ⟨-, node', hnode', hrest⟩ := h
    rcases List.mem_cons.mp ha with rfl | ha
    · cases hnode.symm.trans hnode'
      rw [hnext] at hrest
      cases path with
      | nil => exact absurd hrest nofun
      | cons d path =>
        cases hrest.1
        simp
    · exact List.mem_cons_of_mem _ (ih hrest ha)

theorem Leads.congr (h : Leads mem next start path stop)
    (hsame : ∀ a ∈ path, (mem' a).map next = (mem a).map next) : Leads mem' next start path stop := by
  induction path generalizing start with
  | nil => exact h
  | cons a path ih =>
    obtain ⟨hstart, node, hnode, hrest⟩ := h
    rw [List.forall_mem_cons] at hsame
    have hnext := hsame.1
    rw [hnode, Option.map_some] at hnext
    obtain ⟨node', hnode', hnext'⟩ := Option.map_eq_some_iff.mp hnext
    exact ⟨hstart, node', hnode', hnext' ▸ ih hrest hsame.2⟩

theorem Leads.unique (h : Leads mem next start path none) (h' : Leads mem next start rest none) :
    path = rest := by
  induction path generalizing start rest with
  | nil =>
    cases rest with
    | nil => rfl
    | cons b rest => exact absurd (h.symm.trans h'.1) nofun
  | cons a path ih =>
    cases rest with
    | nil => exact absurd (h.1.symm.trans h') nofun
    | cons b rest =>
      obtain ⟨hstart, node, hnode, hpath⟩ := h
      obtain ⟨hstart', node', hnode', hrest⟩ := h'
      cases hstart.symm.trans hstart'
      cases hnode.symm.trans hnode'
      rw [ih hpath hrest]

theorem Leads.nodup (h : Leads mem next start path none) : path.Nodup := by
  induction path generalizing start with
  | nil => exact .nil
  | cons a path ih =>
    refine List.nodup_cons.mpr ⟨fun hmem => ?_, ?_⟩
    · -- from its second visit the list would go on as from the first
      obtain ⟨front, back, rfl⟩ := List.append_of_mem hmem
      rw [← List.cons_append] at h
      obtain ⟨mid, hfront, hback⟩ := leads_append.mp h
      have hsame : a :: front ++ a :: back = a :: back :=
        h.unique (hfront.1.trans hback.1.symm ▸ hback)
      have := congrArg List.length hsame
      rw [List.length_append, List.length_cons] at this
      omega
    · obtain ⟨-, node, -, hrest⟩ := h
      exact ih hrest

theorem Leads.update [DecidableEq A] (h : Leads mem next start path stop) {a : A} (ha : a ∉ path)
    (content : Option N) : Leads (Function.update mem a content) next start path stop :=
  h.congr fun b hb => by rw [Function.update_of_ne (ne_of_mem_of_not_mem hb ha)]

theorem Leads.redirect [DecidableEq A] {last : A} {node : N} {stop' : Option A}
    (h : Leads mem next start (path ++ [last]) stop) (hlast : last ∉ path) (hnext : next node = stop') :
    Leads (Function.update mem last (some node)) next start (path ++ [last]) stop' := by
  obtain ⟨mid, hpath, hmid, -⟩ := leads_append.mp h
  exact leads_append.mpr ⟨mid, hpath.update hlast _, hmid, node, Function.update_self .., hnext⟩

theorem Leads.length_le {n : Nat} {mem : Nat → Option N} {next : N → Option Nat} {start : Option Nat}
    {path : List Nat} (h : Leads mem next start path none) (hunused : ∀ a, n ≤ a → mem a = none) :
    path.length ≤ n := by
  have hsubset : path ⊆ List.range n := by
    intro a ha
    obtain ⟨node, hnode⟩ := h.live a ha
    rw [List.mem_range]
    by_contra hle
    rw [hunused a (Nat.not_lt.mp hle)] at hnode
    cases hnode
  have := (h.nodup.subperm hsubset).length_le
  rwa [List.length_range] at this

end Linked
