import Mathlib.Algebra.Order.Ring.Int
import Mathlib.Algebra.BigOperators.Group.List.Basic
import Mathlib.Data.Prod.Lex
import Mathlib.Data.List.Pairwise
import Mathlib.Tactic.Common

/-! Maps with ordered keys, kept as the list of their entries in the order of an iteration. -/

/-- The entries, with strictly ascending keys. -/
structure OrdMap (K V : Type) [LinearOrder K] where
  entries : List (K × V)
  sorted : entries.Pairwise fun e e' => e.1 < e'.1

namespace OrdMap
variable {K V W : Type} [LinearOrder K]

def empty : OrdMap K V := ⟨[], .nil⟩

instance : Inhabited (OrdMap K V) := ⟨empty⟩

def find? (m : OrdMap K V) (k : K) : Option V := (m.entries.find? fun e => e.1 = k).map Prod.snd

def contains (m : OrdMap K V) (k : K) : Bool := (m.find? k).isSome

def keys (m : OrdMap K V) : List K := m.entries.map Prod.fst

def insertEntry (k : K) (v : V) : List (K × V) → List (K × V)
  | [] => [(k, v)]
  | e :: rest =>
    if k < e.1 then (k, v) :: e :: rest
    else if k = e.1 then (k, v) :: rest
    else e :: insertEntry k v rest

variable {l : List (K × V)}

theorem mem_insertEntry {k : K} {v : V} {e : K × V} (h : l.Pairwise fun e e' => e.1 < e'.1) :
    e ∈ insertEntry k v l ↔ e = (k, v) ∨ (e ∈ l ∧ e.1 ≠ k) := by
  induction l with
  | nil => simp [insertEntry]
  | cons head rest ih =>
    obtain ⟨hhead, hrest⟩ := List.pairwise_cons.mp h
    rw [insertEntry]
    split
    · rename_i hlt
      rw [List.mem_cons]
      constructor
      · rintro (rfl | hmem)
        · exact Or.inl rfl
        · refine Or.inr ⟨hmem, ?_⟩
          obtain rfl | hmem := List.mem_cons.mp hmem
          · exact hlt.ne'
          · exact (hlt.trans (hhead e hmem)).ne'
      · rintro (rfl | ⟨hmem, _⟩)
        · exact Or.inl rfl
        · exact Or.inr hmem
    · split
      · rename_i heq
        rw [List.mem_cons, List.mem_cons]
        constructor
        · rintro (rfl | hmem)
          · exact Or.inl rfl
          · refine Or.inr ⟨Or.inr hmem, ?_⟩
            rw [heq]
            exact (hhead e hmem).ne'
        · rintro (rfl | ⟨rfl | hmem, hne⟩)
          · exact Or.inl rfl
          · exact absurd heq.symm hne
          · exact Or.inr hmem
      · rename_i hlt hne
        rw [List.mem_cons, List.mem_cons, ih hrest]
        constructor
        · rintro (rfl | rfl | ⟨hmem, hkey⟩)
          · exact Or.inr ⟨Or.inl rfl, Ne.symm hne⟩
          · exact Or.inl rfl
          · exact Or.inr ⟨Or.inr hmem, hkey⟩
        · rintro (rfl | ⟨rfl | hmem, hkey⟩)
          · exact Or.inr (Or.inl rfl)
          · exact Or.inl rfl
          · exact Or.inr (Or.inr ⟨hmem, hkey⟩)

theorem insertEntry_sorted {k : K} {v : V} (h : l.Pairwise fun e e' => e.1 < e'.1) :
    (insertEntry k v l).Pairwise fun e e' => e.1 < e'.1 := by
  induction l with
  | nil => exact List.pairwise_singleton _ _
  | cons head rest ih =>
    obtain ⟨hhead, hrest⟩ := List.pairwise_cons.mp h
    rw [insertEntry]
    split
    · rename_i hlt
      refine List.pairwise_cons.mpr ⟨?_, h⟩
      intro e hmem
      obtain rfl | hmem := List.mem_cons.mp hmem
      · exact hlt
      · exact hlt.trans (hhead e hmem)
    · split
      · rename_i heq
        refine List.pairwise_cons.mpr ⟨?_, hrest⟩
        rw [heq]
        exact hhead
      · rename_i hlt hne
        refine List.pairwise_cons.mpr ⟨?_, ih hrest⟩
        intro e hmem
        obtain rfl | ⟨hmem, _⟩ := (mem_insertEntry hrest).mp hmem
        · exact lt_of_le_of_ne (not_lt.mp hlt) (Ne.symm hne)
        · exact hhead e hmem

def insert (m : OrdMap K V) (k : K) (v : V) : OrdMap K V :=
  ⟨insertEntry k v m.entries, insertEntry_sorted m.sorted⟩

def emplace (m : OrdMap K V) (k : K) (v : V) : OrdMap K V := if m.contains k then m else m.insert k v

def size (m : OrdMap K V) : Nat := m.entries.length

/-- The entry of a key is changed; an absent one is made first. -/
def update (m : OrdMap K V) (k : K) (default : V) (f : V → V) : OrdMap K V :=
  m.insert k (f ((m.find? k).getD default))

def filter (m : OrdMap K V) (p : K → V → Bool) : OrdMap K V :=
  ⟨m.entries.filter fun e => p e.1 e.2, m.sorted.filter _⟩

def erase (m : OrdMap K V) (k : K) : OrdMap K V := m.filter fun k' _ => k' ≠ k

def mapValues (m : OrdMap K V) (f : K → V → W) : OrdMap K W :=
  ⟨m.entries.map fun e => (e.1, f e.1 e.2), by
    rw [List.pairwise_map]
    exact m.sorted⟩

variable {m : OrdMap K V} {k k' : K} {v : V}

theorem find?_eq_some_iff : m.find? k = some v ↔ (k, v) ∈ m.entries := by
  obtain ⟨entries, sorted⟩ := m
  rw [find?]
  dsimp only
  induction entries with
  | nil => simp
  | cons head rest ih =>
    obtain ⟨hhead, hrest⟩ := List.pairwise_cons.mp sorted
    rw [List.find?_cons, List.mem_cons]
    by_cases heq : head.1 = k
    · rw [decide_eq_true heq]
      constructor
      · intro h
        refine Or.inl ?_
        rw [← heq, ← Option.some.inj h]
      · rintro (h | hmem)
        · rw [← h]
          rfl
        · exact absurd heq (hhead _ hmem).ne
    · rw [decide_eq_false heq]
      rw [ih hrest]
      constructor
      · exact Or.inr
      · rintro (h | hmem)
        · exact absurd (congrArg Prod.fst h.symm) heq
        · exact hmem

theorem find?_eq_none_iff : m.find? k = none ↔ ∀ v, (k, v) ∉ m.entries := by
  rw [Option.eq_none_iff_forall_ne_some]
  exact forall_congr' fun v => not_congr find?_eq_some_iff


theorem find?_insert : (m.insert k v).find? k' = if k' = k then some v else m.find? k' := by
  apply Option.ext
  intro w
  rw [find?_eq_some_iff, insert, mem_insertEntry m.sorted]
  split
  · rename_i heq
    rw [heq]
    constructor
    · rintro (h | ⟨_, hne⟩)
      · have hvalue : w = v := congrArg Prod.snd h
        rw [hvalue]
      · exact absurd rfl hne
    · intro h
      rw [Option.some.inj h]
      exact Or.inl rfl
  · rename_i hne
    rw [find?_eq_some_iff]
    constructor
    · rintro (h | ⟨hmem, _⟩)
      · exact absurd (congrArg Prod.fst h) hne
      · exact hmem
    · exact fun hmem => Or.inr ⟨hmem, hne⟩

@[simp] theorem find?_insert_self : (m.insert k v).find? k = some v := by
  rw [find?_insert, if_pos rfl]

theorem find?_insert_of_ne (h : k' ≠ k) : (m.insert k v).find? k' = m.find? k' := by
  rw [find?_insert, if_neg h]

theorem find?_update {d : V} {f : V → V} : (m.update k d f).find? k' =
    if k' = k then some (f ((m.find? k).getD d)) else m.find? k' :=
  find?_insert

variable {p : K → V → Bool}

theorem mem_filter {e : K × V} : e ∈ (m.filter p).entries ↔ e ∈ m.entries ∧ p e.1 e.2 = true :=
  List.mem_filter

theorem find?_filter : (m.filter p).find? k = (m.find? k).filter (p k) := by
  apply Option.ext
  intro w
  rw [find?_eq_some_iff, mem_filter, Option.filter_eq_some_iff, find?_eq_some_iff]

theorem find?_filter_of_keep (h : ∀ v, m.find? k = some v → p k v = true) :
    (m.filter p).find? k = m.find? k := by
  rw [find?_filter]
  cases hfind : m.find? k with
  | none => rfl
  | some v => rw [Option.filter_some, if_pos (h v hfind)]

theorem find?_filter_eq_none (h : ∀ v, m.find? k = some v → p k v = false) :
    (m.filter p).find? k = none := by
  rw [find?_filter]
  cases hfind : m.find? k with
  | none => rfl
  | some v => rw [Option.filter_some, h v hfind, if_neg Bool.false_ne_true]

theorem find?_mapValues {f : K → V → W} : (m.mapValues f).find? k = (m.find? k).map (f k) := by
  apply Option.ext
  intro w
  rw [find?_eq_some_iff, mapValues, List.mem_map, Option.map_eq_some_iff]
  constructor
  · rintro ⟨e, hmem, heq⟩
    cases heq
    exact ⟨e.2, find?_eq_some_iff.mpr hmem, rfl⟩
  · rintro ⟨v, hfind, rfl⟩
    exact ⟨(k, v), find?_eq_some_iff.mp hfind, rfl⟩

theorem filter_key : m.entries.filter (fun e => e.1 = k) = ((m.find? k).map (Prod.mk k)).toList := by
  obtain ⟨entries, sorted⟩ := m
  rw [find?]
  dsimp only
  induction entries with
  | nil => rfl
  | cons head rest ih =>
    obtain ⟨hhead, hrest⟩ := List.pairwise_cons.mp sorted
    rw [List.find?_cons, List.filter_cons]
    by_cases heq : head.1 = k
    · rw [decide_eq_true heq, if_pos rfl]
      have hnil : rest.filter (fun e => decide (e.1 = k)) = [] := by
        apply List.filter_eq_nil_iff.mpr
        intro e he hkey
        exact absurd (heq.trans (of_decide_eq_true hkey).symm) (hhead e he).ne
      rw [hnil, ← heq]
      rfl
    · rw [decide_eq_false heq, if_neg Bool.false_ne_true]
      exact ih hrest

theorem contains_eq_false_iff : m.contains k = false ↔ m.find? k = none := by
  rw [contains, Option.isSome_eq_false_iff, Option.isNone_iff_eq_none]

theorem emplace_of_fresh (h : m.find? k = none) : m.emplace k v = m.insert k v := by
  rw [emplace, contains_eq_false_iff.mpr h, if_neg Bool.false_ne_true]

theorem isSome_find?_emplace (h : (m.find? k').isSome) : ((m.emplace k v).find? k').isSome := by
  rw [emplace]
  split
  · exact h
  · rw [find?_insert]
    split
    · rfl
    · exact h

theorem isSome_find?_emplace_self : ((m.emplace k v).find? k).isSome := by
  rw [emplace]
  split
  · rename_i h
    exact h
  · rw [find?_insert_self]
    rfl

theorem insertEntry_perm (h : ∀ e ∈ l, e.1 ≠ k) : (insertEntry k v l).Perm ((k, v) :: l) := by
  induction l with
  | nil => exact .refl _
  | cons head rest ih =>
    rw [insertEntry]
    split
    · exact .refl _
    · rw [if_neg (h head List.mem_cons_self).symm]
      exact ((ih fun e he => h e (List.mem_cons_of_mem _ he)).cons _).trans (.swap _ _ _)

theorem insert_perm (h : m.find? k = none) : (m.insert k v).entries.Perm ((k, v) :: m.entries) := by
  apply insertEntry_perm
  rintro ⟨k', v'⟩ he rfl
  exact find?_eq_none_iff.mp h v' he

theorem erase_perm (h : m.find? k = some v) : m.entries.Perm ((k, v) :: (m.erase k).entries) := by
  have hkeys := m.filter_key (k := k)
  rw [h] at hkeys
  have hsplit := (List.filter_append_perm (fun e => decide (e.1 = k)) m.entries).symm
  rw [hkeys] at hsplit
  have hrest : m.entries.filter (fun e => !decide (e.1 = k)) = (m.erase k).entries := by
    simp [erase, filter]
  rw [hrest] at hsplit
  exact hsplit

theorem size_insert (h : m.find? k = none) : (m.insert k v).size = m.size + 1 := by
  rw [size, (insert_perm h).length_eq, List.length_cons, size]

theorem size_erase (h : m.find? k = some v) : m.size = (m.erase k).size + 1 := by
  rw [size, (erase_perm h).length_eq, List.length_cons, size]

theorem find?_erase : (m.erase k).find? k' = if k' = k then none else m.find? k' := by
  rw [erase]
  split
  · rename_i heq
    exact find?_filter_eq_none fun v _ => decide_eq_false (not_not_intro heq)
  · rename_i hne
    exact find?_filter_of_keep fun v _ => decide_eq_true hne

theorem size_erase_le : (m.erase k).size ≤ m.size := List.length_filter_le _ _

theorem find?_foldl_erase {ks : List K} :
    (ks.foldl erase m).find? k = if k ∈ ks then none else m.find? k := by
  induction ks generalizing m with
  | nil => simp
  | cons head rest ih =>
    rw [List.foldl_cons, ih, find?_erase]
    by_cases hrest : k ∈ rest
    · rw [if_pos hrest, if_pos (List.mem_cons_of_mem _ hrest)]
    · by_cases hhead : k = head <;> simp [hrest, hhead]

theorem size_foldl_erase_le {ks : List K} : (ks.foldl erase m).size ≤ m.size := by
  induction ks generalizing m with
  | nil => exact Nat.le_refl _
  | cons head rest ih => exact Nat.le_trans ih size_erase_le

theorem contains_iff : m.contains k = true ↔ ∃ v, (k, v) ∈ m.entries := by
  rw [contains, Option.isSome_iff_exists]
  exact exists_congr fun v => find?_eq_some_iff

theorem mem_keys : k ∈ m.keys ↔ ∃ v, m.find? k = some v := by
  rw [keys, List.mem_map]
  constructor
  · rintro ⟨e, hmem, rfl⟩
    exact ⟨e.2, find?_eq_some_iff.mpr hmem⟩
  · rintro ⟨v, hfind⟩
    exact ⟨(k, v), find?_eq_some_iff.mp hfind, rfl⟩

def total (m : OrdMap K V) (weight : K → V → Nat) : Nat := (m.entries.map fun e => weight e.1 e.2).sum

variable {weight : K → V → Nat}

theorem total_eq_zero (h : ∀ k v, m.find? k = some v → weight k v = 0) : m.total weight = 0 := by
  apply List.sum_eq_zero
  intro w hw
  obtain ⟨e, he, rfl⟩ := List.mem_map.mp hw
  exact h e.1 e.2 (find?_eq_some_iff.mpr he)

theorem total_erase : (m.erase k).total weight + ((m.find? k).elim 0 (weight k)) = m.total weight := by
  cases hfind : m.find? k with
  | none =>
    have hsame : (m.erase k).entries = m.entries := by
      apply List.filter_eq_self.mpr
      intro e he
      apply decide_eq_true
      rintro rfl
      exact find?_eq_none_iff.mp hfind e.2 he
    rw [total, hsame]
    rfl
  | some v =>
    rw [total, total, ((erase_perm hfind).map _).sum_eq, List.map_cons, List.sum_cons, Nat.add_comm]
    rfl

theorem entries_injective {m m' : OrdMap K V} (h : m.entries = m'.entries) : m = m' := by
  cases m
  cases m'
  cases h
  rfl

theorem ext_find? {m m' : OrdMap K V} (h : ∀ k, m.find? k = m'.find? k) : m = m' := by
  have hnodup : ∀ m : OrdMap K V, m.entries.Nodup := by
    intro m
    apply m.sorted.imp
    rintro e e' hlt rfl
    exact lt_irrefl _ hlt
  apply entries_injective
  refine @List.Perm.eq_of_pairwise _ (fun e e' : K × V => e.1 < e'.1) _ _ ?_ ?_ ?_ ?_
  · intro e e' _ _ hlt hlt'
    exact absurd hlt' (lt_asymm hlt)
  · exact m.sorted
  · exact m'.sorted
  · rw [List.perm_ext_iff_of_nodup (hnodup m) (hnodup m')]
    intro e
    rw [← find?_eq_some_iff (k := e.1) (v := e.2), ← find?_eq_some_iff (k := e.1) (v := e.2), h]

theorem total_insert :
    (m.insert k v).total weight + ((m.find? k).elim 0 (weight k)) = m.total weight + weight k v := by
  have hsame : (m.insert k v).erase k = m.erase k := by
    apply ext_find?
    intro k'
    rw [find?_erase, find?_erase, find?_insert]
    split <;> rfl
  have hnew := @total_erase _ _ _ (m.insert k v) k weight
  have hold := @total_erase _ _ _ m k weight
  rw [hsame, find?_insert_self, Option.elim_some] at hnew
  omega

end OrdMap
