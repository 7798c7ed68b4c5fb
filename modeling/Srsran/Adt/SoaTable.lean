import Mathlib.Data.List.Forall2
import Mathlib.Tactic.Common

/-! Tables whose rows keep their identity when others are erased (`soa_table.h`). A row ID is an index
of `indexMap`, which holds the offset of the row, or the next free row ID. -/
namespace Srsran.Adt

abbrev RowId := Nat

/-- `soa::table`, with the columns of a row and its entry of `index_reverse_map` in one list. -/
structure SoaTable (α : Type) where
  rows : List (RowId × α) := []
  indexMap : List Nat := []
  freeListHead : Nat := 0

namespace SoaTable
variable {α : Type}

def hasRowId (t : SoaTable α) (rid : RowId) : Bool :=
  match t.indexMap[rid]? with
  | none => false
  | some offset =>
    match t.rows[offset]? with
    | none => false
    | some row => row.1 = rid

/-- The row of an ID that `has_row_id` accepts. -/
def row? (t : SoaTable α) (rid : RowId) : Option α :=
  match t.indexMap[rid]? with
  | none => none
  | some offset =>
    match t.rows[offset]? with
    | none => none
    | some row => if row.1 = rid then some row.2 else none

theorem hasRowId_eq (t : SoaTable α) (rid : RowId) : t.hasRowId rid = (t.row? rid).isSome := by
  rw [hasRowId, row?]
  cases t.indexMap[rid]? with
  | none => rfl
  | some offset =>
    dsimp only
    cases t.rows[offset]? with
    | none => rfl
    | some row => by_cases h : row.1 = rid <;> simp [h]

def set (t : SoaTable α) (rid : RowId) (value : α) : SoaTable α :=
  match t.indexMap[rid]? with
  | none => t
  | some offset => { t with rows := t.rows.set offset (rid, value) }

def insert (t : SoaTable α) (value : α) : RowId × SoaTable α :=
  let offset := t.rows.length
  let rid := t.freeListHead
  match t.indexMap[rid]? with
  | some next =>
    (rid,
      { rows := t.rows ++ [(rid, value)]
        indexMap := t.indexMap.set rid offset
        freeListHead := next })
  | none =>
    (rid,
      { rows := t.rows ++ [(rid, value)]
        indexMap := t.indexMap ++ [offset]
        freeListHead := rid + 1 })

/-- The last row takes the place of the erased one. An ID that is no longer in use is not noticed: its
entry in `indexMap` is then taken for an offset. -/
def erase (t : SoaTable α) (rid : RowId) : SoaTable α :=
  match t.indexMap[rid]? with
  | none => t
  | some offset =>
    match t.rows.getLast? with
    | none => t
    | some last =>
      if offset < t.rows.length then
        { rows := (t.rows.set offset last).dropLast
          indexMap :=
            (if offset = t.rows.length - 1 then t.indexMap else t.indexMap.set last.1 offset).set rid
              t.freeListHead
          freeListHead := rid }
      else t

def eraseReturn (t : SoaTable α) (rid : RowId) : Bool :=
  match t.indexMap[rid]? with
  | none => false
  | some offset => offset < t.rows.length

def clear : SoaTable α := {}

theorem isSome_row?_set {t : SoaTable α} {rid rid' : RowId} {old value : α} (hrow : t.row? rid = some old) :
    ((t.set rid value).row? rid').isSome = (t.row? rid').isSome := by
  rw [row?] at hrow
  split at hrow
  · cases hrow
  · rename_i offset hoffset
    split at hrow
    · cases hrow
    · rename_i row hget
      split at hrow
      · rename_i hrid
        have hlt := (List.getElem?_eq_some_iff.mp hget).1
        rw [set, hoffset]
        dsimp only
        rw [row?, row?]
        cases t.indexMap[rid']? with
        | none => rfl
        | some offset' =>
          dsimp only
          by_cases hsame : offset = offset'
          · rw [← hsame, List.getElem?_set_self hlt, hget]
            dsimp only
            rw [hrid]
            split <;> rfl
          · rw [List.getElem?_set_ne hsame]
      · cases hrow

/-! Tables in which all IDs in use were inserted and not erased. -/

/-- The free IDs, linked through `indexMap` up to its end. -/
inductive FreeList (indexMap : List Nat) : Nat → List RowId → Prop where
  | nil : FreeList indexMap indexMap.length []
  | cons {rid next : Nat} {free : List RowId} (hnext : indexMap[rid]? = some next)
      (hrest : FreeList indexMap next free) : FreeList indexMap rid (rid :: free)

/-- Every row is where `indexMap` says, and the free IDs are those of no row. -/
structure WellFormed (t : SoaTable α) : Prop where
  offset_eq : ∀ (offset : Nat) (row : RowId × α), t.rows[offset]? = some row → t.indexMap[row.1]? = some offset
  free : ∃ free, FreeList t.indexMap t.freeListHead free ∧ free.Nodup ∧
    ∀ rid ∈ free, ∀ value, (rid, value) ∉ t.rows

variable {t : SoaTable α} {rid rid' : RowId} {value : α}

theorem wellFormed_empty : ({} : SoaTable α).WellFormed where
  offset_eq := nofun
  free := ⟨[], .nil, List.nodup_nil, nofun⟩

namespace FreeList
variable {indexMap indexMap' : List Nat} {head : Nat} {free : List RowId}

theorem congr (h : FreeList indexMap head free) (hlength : indexMap'.length = indexMap.length)
    (hsame : ∀ rid ∈ free, indexMap'[rid]? = indexMap[rid]?) : FreeList indexMap' head free := by
  induction h with
  | nil =>
    rw [← hlength]
    exact .nil
  | @cons rid next free hnext _ ih =>
    have hrid := hsame rid List.mem_cons_self
    exact .cons (hrid.trans hnext) (ih fun r hr => hsame r (List.mem_cons_of_mem _ hr))

end FreeList

theorem getElem?_concat {l : List α} {a b : α} {i : Nat} (h : (l ++ [a])[i]? = some b) :
    l[i]? = some b ∨ i = l.length ∧ b = a := by
  rw [List.getElem?_append] at h
  split at h
  · exact .inl h
  · rename_i hlt
    obtain ⟨hlast, hget⟩ := List.getElem?_eq_some_iff.mp h
    rw [List.length_singleton] at hlast
    refine .inr ⟨by omega, ?_⟩
    rw [← hget, List.getElem_singleton]

theorem set_of_getElem? {l : List α} {a : α} {i : Nat} (h : l[i]? = some a) : l.set i a = l := by
  obtain ⟨hlt, rfl⟩ := List.getElem?_eq_some_iff.mp h
  exact List.set_getElem_self hlt

namespace WellFormed

section
variable (h : t.WellFormed)
include h

theorem row?_eq_some_iff : t.row? rid = some value ↔ (rid, value) ∈ t.rows := by
  rw [row?]
  constructor
  · intro hrow
    split at hrow
    · cases hrow
    · split at hrow
      · cases hrow
      · rename_i offset _ row hget
        split at hrow
        · rename_i hrid
          cases hrow
          have hmem := List.mem_of_getElem? hget
          rw [← hrid]
          exact hmem
        · cases hrow
  · intro hmem
    obtain ⟨offset, hget⟩ := List.mem_iff_getElem?.mp hmem
    rw [h.offset_eq offset _ hget]
    simp [hget]

theorem offset_unique {offset offset' : Nat} {row row' : RowId × α}
    (hget : t.rows[offset]? = some row) (hget' : t.rows[offset']? = some row') (hrid : row.1 = row'.1) :
    offset = offset' := by
  have hoffset := h.offset_eq offset row hget
  rw [hrid, h.offset_eq offset' row' hget', Option.some.injEq] at hoffset
  exact hoffset.symm

theorem row?_freeListHead : t.row? t.freeListHead = none := by
  obtain ⟨free, hfree, -, hunused⟩ := h.free
  rw [Option.eq_none_iff_forall_ne_some]
  intro value hrow
  rw [h.row?_eq_some_iff] at hrow
  generalize t.freeListHead = head at hfree hrow
  cases hfree with
  | nil =>
    obtain ⟨offset, hget⟩ := List.mem_iff_getElem?.mp hrow
    have hlt := (List.getElem?_eq_some_iff.mp (h.offset_eq offset _ hget)).1
    exact absurd hlt (Nat.lt_irrefl _)
  | cons _ _ => exact hunused _ List.mem_cons_self value hrow

theorem exists_offset (hrow : t.row? rid = some value) :
    ∃ offset, t.indexMap[rid]? = some offset ∧ t.rows[offset]? = some (rid, value) := by
  obtain ⟨offset, hget⟩ := List.mem_iff_getElem?.mp (h.row?_eq_some_iff.mp hrow)
  exact ⟨offset, h.offset_eq offset _ hget, hget⟩

theorem row?_congr {t' : SoaTable α} (h' : t'.WellFormed)
    (hmem : ∀ value, (rid, value) ∈ t'.rows ↔ (rid, value) ∈ t.rows) : t'.row? rid = t.row? rid := by
  apply Option.ext
  intro value
  rw [h.row?_eq_some_iff, h'.row?_eq_some_iff]
  exact hmem value

theorem set {old : α} (hrow : t.row? rid = some old) : (t.set rid value).WellFormed := by
  obtain ⟨offset, hoffset, hget⟩ := h.exists_offset hrow
  obtain ⟨free, hfree, hnodup, hunused⟩ := h.free
  have hset : t.set rid value = { t with rows := t.rows.set offset (rid, value) } := by
    rw [SoaTable.set, hoffset]
  rw [hset]
  refine ⟨?_, free, hfree, hnodup, ?_⟩
  · intro offset' row hrow'
    rw [List.getElem?_set] at hrow'
    split at hrow'
    · rename_i heq
      split at hrow'
      · cases hrow'
        rw [← heq]
        exact hoffset
      · cases hrow'
    · exact h.offset_eq offset' row hrow'
  · intro r hr value' hmem
    rcases List.mem_or_eq_of_mem_set hmem with hold | hnew
    · exact hunused r hr value' hold
    · cases hnew
      exact hunused rid hr old (h.row?_eq_some_iff.mp hrow)

theorem row?_set {old : α} (hrow : t.row? rid = some old) :
    (t.set rid value).row? rid' = if rid' = rid then some value else t.row? rid' := by
  obtain ⟨offset, hoffset, hget⟩ := h.exists_offset hrow
  have hset : t.set rid value = { t with rows := t.rows.set offset (rid, value) } := by
    rw [SoaTable.set, hoffset]
  have hlt := (List.getElem?_eq_some_iff.mp hget).1
  split
  · rename_i hrid
    rw [hrid, (h.set hrow).row?_eq_some_iff, hset]
    exact List.mem_set hlt _
  · rename_i hrid
    apply h.row?_congr (h.set hrow)
    intro value'
    rw [hset]
    constructor
    · intro hmem
      rcases List.mem_or_eq_of_mem_set hmem with hold | hnew
      · exact hold
      · cases hnew
        exact absurd rfl hrid
    · intro hmem
      obtain ⟨offset', hget'⟩ := List.mem_iff_getElem?.mp hmem
      apply List.mem_of_getElem? (i := offset')
      have hne : offset ≠ offset' := by
        rintro rfl
        rw [hget] at hget'
        cases hget'
        exact hrid rfl
      rw [List.getElem?_set_ne hne]
      exact hget'

end

theorem insert_fst (t : SoaTable α) (value : α) : (t.insert value).1 = t.freeListHead := by
  rw [SoaTable.insert]
  split <;> rfl

theorem rows_insert (t : SoaTable α) (value : α) :
    (t.insert value).2.rows = t.rows ++ [(t.freeListHead, value)] := by
  rw [SoaTable.insert]
  split <;> rfl

theorem insert (h : t.WellFormed) (value : α) : (t.insert value).2.WellFormed := by
  obtain ⟨free, hfree, hnodup, hunused⟩ := h.free
  have hunusedHead : ∀ value, (t.freeListHead, value) ∉ t.rows := by
    intro value' hmem
    have hrow := h.row?_eq_some_iff.mpr hmem
    rw [h.row?_freeListHead] at hrow
    cases hrow
  have hne : ∀ (offset : Nat) (row : RowId × α), t.rows[offset]? = some row → row.1 ≠ t.freeListHead := by
    intro offset row hget heq
    have hmem := List.mem_of_getElem? hget
    exact hunusedHead row.2 (heq ▸ hmem)
  rw [SoaTable.insert]
  generalize t.freeListHead = head at hfree hunusedHead hne ⊢
  cases hfree with
  | nil =>
    have hend : t.indexMap[t.indexMap.length]? = none := List.getElem?_eq_none (Nat.le_refl _)
    simp only [hend]
    have hlength : (t.indexMap ++ [t.rows.length]).length = t.indexMap.length + 1 := by simp
    refine ⟨?_, [], ?_, List.nodup_nil, nofun⟩
    · intro offset row hget
      rcases getElem?_concat hget with hget | ⟨rfl, rfl⟩
      · have hold := h.offset_eq offset row hget
        dsimp only
        rw [List.getElem?_append_left (List.getElem?_eq_some_iff.mp hold).1]
        exact hold
      · exact List.getElem?_concat_length
    · dsimp only
      rw [← hlength]
      exact .nil
  | @cons head next free hnext hrest =>
    simp only [hnext]
    obtain ⟨hhead, hnodup⟩ := List.nodup_cons.mp hnodup
    refine ⟨?_, free, ?_, hnodup, ?_⟩
    · intro offset row hget
      rcases getElem?_concat hget with hget | ⟨rfl, rfl⟩
      · dsimp only
        rw [List.getElem?_set_ne (Ne.symm (hne offset row hget))]
        exact h.offset_eq offset row hget
      · exact List.getElem?_set_self (List.getElem?_eq_some_iff.mp hnext).1
    · apply hrest.congr (List.length_set ..)
      intro rid hrid
      have hother : head ≠ rid := by
        rintro rfl
        exact hhead hrid
      exact List.getElem?_set_ne hother
    · intro rid hrid value' hmem
      rcases List.mem_append.mp hmem with hold | hnew
      · exact hunused rid (List.mem_cons_of_mem _ hrid) value' hold
      · rw [List.mem_singleton, Prod.mk.injEq] at hnew
        exact hhead (hnew.1 ▸ hrid)

theorem row?_insert (h : t.WellFormed) (value : α) : (t.insert value).2.row? rid =
    if rid = (t.insert value).1 then some value else t.row? rid := by
  rw [insert_fst]
  split
  · rename_i hrid
    rw [hrid, (h.insert value).row?_eq_some_iff, rows_insert]
    exact List.mem_append_right _ List.mem_cons_self
  · rename_i hrid
    apply h.row?_congr (h.insert value)
    intro value'
    rw [rows_insert, List.mem_append, List.mem_singleton, Prod.mk.injEq]
    constructor
    · rintro (hold | hnew)
      · exact hold
      · exact absurd hnew.1 hrid
    · exact Or.inl

theorem erase_eq (h : t.WellFormed) (hrow : t.row? rid = some value) :
    ∃ offset last, t.indexMap[rid]? = some offset ∧ t.rows[offset]? = some (rid, value) ∧
      t.rows[t.rows.length - 1]? = some last ∧
      t.erase rid =
        { rows := (t.rows.set offset last).dropLast
          indexMap := (t.indexMap.set last.1 offset).set rid t.freeListHead
          freeListHead := rid } := by
  obtain ⟨offset, hoffset, hget⟩ := h.exists_offset hrow
  have hlt := (List.getElem?_eq_some_iff.mp hget).1
  cases hlast : t.rows.getLast? with
  | none =>
    rw [List.getLast?_eq_none_iff] at hlast
    rw [hlast] at hlt
    exact absurd hlt (Nat.not_lt_zero _)
  | some last =>
    refine ⟨offset, last, hoffset, hget, ?_, ?_⟩
    · rw [← List.getLast?_eq_getElem?]
      exact hlast
    · rw [List.getLast?_eq_getElem?] at hlast
      rw [SoaTable.erase]
      simp only [hoffset, List.getLast?_eq_getElem?, hlast, if_pos hlt]
      split
      · -- the last row is the erased one, and its entry is its offset already
        rename_i hend
        rw [← hend] at hlast
        rw [set_of_getElem? (h.offset_eq offset last hlast)]
      · rfl

/-- The row at an offset once the last row replaced another one. -/
theorem getElem?_replaced {rows : List (RowId × α)} {last row : RowId × α} {offset i : Nat}
    (hget : (rows.set offset last).dropLast[i]? = some row) :
    i + 1 < rows.length ∧ (i = offset ∧ row = last ∨ i ≠ offset ∧ rows[i]? = some row) := by
  obtain ⟨hlt, -⟩ := List.getElem?_eq_some_iff.mp hget
  rw [List.length_dropLast, List.length_set] at hlt
  rw [List.getElem?_dropLast, List.length_set, if_pos hlt, List.getElem?_set] at hget
  refine ⟨by omega, ?_⟩
  split at hget
  · rename_i heq
    split at hget
    · cases hget
      exact .inl ⟨heq.symm, rfl⟩
    · cases hget
  · rename_i hne
    exact .inr ⟨Ne.symm hne, hget⟩

theorem mem_replaced (h : t.WellFormed) {last row : RowId × α} {offset : Nat}
    (hget : t.rows[offset]? = some (rid, value)) (hlast : t.rows[t.rows.length - 1]? = some last) :
    row ∈ (t.rows.set offset last).dropLast ↔ row ∈ t.rows ∧ row.1 ≠ rid := by
  have hlt := (List.getElem?_eq_some_iff.mp hget).1
  constructor
  · intro hmem
    obtain ⟨i, hrow⟩ := List.mem_iff_getElem?.mp hmem
    obtain ⟨hi, ⟨rfl, rfl⟩ | ⟨hne, hrow⟩⟩ := getElem?_replaced hrow
    · refine ⟨List.mem_of_getElem? hlast, fun hrid => ?_⟩
      have hsame := h.offset_unique hlast hget hrid
      omega
    · refine ⟨List.mem_of_getElem? hrow, fun hrid => ?_⟩
      exact hne (h.offset_unique hrow hget hrid)
  · rintro ⟨hmem, hrid⟩
    obtain ⟨i, hrow⟩ := List.mem_iff_getElem?.mp hmem
    have hi := (List.getElem?_eq_some_iff.mp hrow).1
    have hne : i ≠ offset := by
      rintro rfl
      rw [hget] at hrow
      cases hrow
      exact hrid rfl
    by_cases hend : i = t.rows.length - 1
    · rw [hend, hlast] at hrow
      cases hrow
      apply List.mem_of_getElem? (i := offset)
      rw [List.getElem?_dropLast, List.length_set, if_pos (by omega), List.getElem?_set_self hlt]
    · apply List.mem_of_getElem? (i := i)
      rw [List.getElem?_dropLast, List.length_set, if_pos (by omega), List.getElem?_set_ne (Ne.symm hne)]
      exact hrow

theorem erase (h : t.WellFormed) (hrow : t.row? rid = some value) : (t.erase rid).WellFormed := by
  obtain ⟨offset, last, hoffset, hget, hlast, herase⟩ := h.erase_eq hrow
  obtain ⟨free, hfree, hnodup, hunused⟩ := h.free
  have hmem := h.row?_eq_some_iff.mp hrow
  have hridLt := (List.getElem?_eq_some_iff.mp hoffset).1
  have hfresh : rid ∉ free := fun hrid => hunused rid hrid value hmem
  have hlastMem := List.mem_of_getElem? hlast
  have hlastFresh : last.1 ∉ free := fun hrid => hunused last.1 hrid last.2 hlastMem
  rw [herase]
  refine ⟨?_, rid :: free, ?_, List.nodup_cons.mpr ⟨hfresh, hnodup⟩, ?_⟩
  · intro i row hrow'
    have hne := ((h.mem_replaced hget hlast).mp (List.mem_of_getElem? hrow')).2
    dsimp only
    rw [List.getElem?_set_ne (Ne.symm hne)]
    obtain ⟨hi, ⟨rfl, rfl⟩ | ⟨hother, hrow'⟩⟩ := getElem?_replaced hrow'
    · have hlt := (List.getElem?_eq_some_iff.mp (h.offset_eq _ _ hlast)).1
      exact List.getElem?_set_self hlt
    · have hnotLast : last.1 ≠ row.1 := by
        intro heq
        have hsame := h.offset_unique hlast hrow' heq
        omega
      rw [List.getElem?_set_ne hnotLast]
      exact h.offset_eq i row hrow'
  · have hlength : ((t.indexMap.set last.1 offset).set rid t.freeListHead).length = t.indexMap.length := by
      rw [List.length_set, List.length_set]
    refine .cons ?_ (hfree.congr hlength ?_)
    · exact List.getElem?_set_self (by rw [List.length_set]; exact hridLt)
    · intro r hr
      have hr1 : rid ≠ r := fun heq => hfresh (heq ▸ hr)
      have hr2 : last.1 ≠ r := fun heq => hlastFresh (heq ▸ hr)
      rw [List.getElem?_set_ne hr1, List.getElem?_set_ne hr2]
  · intro r hr value' hmem'
    obtain ⟨hold, hne⟩ := (h.mem_replaced hget hlast).mp hmem'
    rcases List.mem_cons.mp hr with rfl | hr
    · exact hne rfl
    · exact hunused r hr value' hold

theorem row?_erase (h : t.WellFormed) (hrow : t.row? rid = some value) :
    (t.erase rid).row? rid' = if rid' = rid then none else t.row? rid' := by
  obtain ⟨offset, last, hoffset, hget, hlast, herase⟩ := h.erase_eq hrow
  have hrows : (t.erase rid).rows = (t.rows.set offset last).dropLast := by rw [herase]
  split
  · rename_i hrid
    rw [hrid, Option.eq_none_iff_forall_ne_some]
    intro value' hrow'
    rw [(h.erase hrow).row?_eq_some_iff, hrows, h.mem_replaced hget hlast] at hrow'
    exact hrow'.2 rfl
  · rename_i hrid
    apply h.row?_congr (h.erase hrow)
    intro value'
    rw [hrows, h.mem_replaced hget hlast]
    exact and_iff_left hrid

end WellFormed
/-! Erasures of IDs of which some are perhaps no longer in use, and changes of all rows. -/

/-- An ID for which `erase` finds no row, as its entry in `indexMap` is not an offset. -/
def vacant (t : SoaTable α) (rid : RowId) : Bool :=
  (t.indexMap[rid]?).all fun offset => t.rows.length ≤ offset

theorem erase_of_vacant (h : t.vacant rid = true) : t.erase rid = t := by
  rw [vacant] at h
  rw [SoaTable.erase]
  cases hoffset : t.indexMap[rid]? with
  | none => rfl
  | some offset =>
    rw [hoffset, Option.all_some, decide_eq_true_eq] at h
    cases t.rows.getLast? with
    | none => rfl
    | some last => exact if_neg (Nat.not_lt_of_le h)

theorem eraseReturn_eq (t : SoaTable α) (rid : RowId) : t.eraseReturn rid = !t.vacant rid := by
  rw [eraseReturn, vacant]
  cases t.indexMap[rid]? with
  | none => rfl
  | some offset => simp [← decide_not]

theorem row?_of_vacant (h : t.vacant rid = true) : t.row? rid = none := by
  rw [vacant] at h
  rw [row?]
  cases hoffset : t.indexMap[rid]? with
  | none => rfl
  | some offset =>
    rw [hoffset, Option.all_some, decide_eq_true_eq] at h
    simp only [List.getElem?_eq_none h]

namespace WellFormed

theorem not_vacant (h : t.WellFormed) {offset : Nat} {row : RowId × α} (hget : t.rows[offset]? = some row) :
    t.vacant row.1 = false := by
  have hlt := (List.getElem?_eq_some_iff.mp hget).1
  rw [vacant, h.offset_eq offset row hget, Option.all_some, decide_eq_false_iff_not]
  exact Nat.not_le_of_lt hlt

theorem vacant_erase (h : t.WellFormed) (hrow : t.row? rid = some value) (hvacant : t.vacant rid' = true) :
    (t.erase rid).vacant rid' = true := by
  obtain ⟨offset, last, hoffset, hget, hlast, herase⟩ := h.erase_eq hrow
  have hrid : rid ≠ rid' := by
    rintro rfl
    have hused := h.not_vacant hget
    rw [hvacant] at hused
    cases hused
  have hlastRid : last.1 ≠ rid' := by
    rintro rfl
    have hused := h.not_vacant hlast
    rw [hvacant] at hused
    cases hused
  rw [vacant] at hvacant
  rw [vacant, herase]
  dsimp only
  rw [List.getElem?_set_ne hrid, List.getElem?_set_ne hlastRid, List.length_dropLast, List.length_set]
  cases hold : t.indexMap[rid']? with
  | none => rfl
  | some old =>
    rw [hold, Option.all_some, decide_eq_true_eq] at hvacant
    rw [Option.all_some, decide_eq_true_eq]
    exact Nat.le_trans (Nat.sub_le _ _) hvacant

/-- The erasure of several IDs, each of which is in use, then only once, or has no row. -/
theorem eraseAll {rids : List RowId} (h : t.WellFormed)
    (hrids : ∀ rid ∈ rids, (t.row? rid).isSome ∨ t.vacant rid = true)
    (hdistinct : rids.Pairwise fun rid rid' => rid = rid' → t.vacant rid = true) :
    (rids.foldl SoaTable.erase t).WellFormed ∧
      ∀ rid, (rids.foldl SoaTable.erase t).row? rid = if rid ∈ rids then none else t.row? rid := by
  induction rids generalizing t with
  | nil => exact ⟨h, fun rid => (if_neg List.not_mem_nil).symm⟩
  | cons first rest ih =>
    rw [List.forall_mem_cons] at hrids
    rw [List.pairwise_cons] at hdistinct
    rw [List.foldl_cons]
    cases hfirst : t.vacant first with
    | true =>
      obtain ⟨hwf, hrows⟩ := ih h hrids.2 hdistinct.2
      rw [erase_of_vacant hfirst]
      refine ⟨hwf, fun rid => ?_⟩
      rw [hrows]
      by_cases hrid : rid = first
      · rw [hrid, row?_of_vacant hfirst]
        simp
      · simp [hrid]
    | false =>
      have hused : (t.row? first).isSome := by
        rcases hrids.1 with hsome | hvacant
        · exact hsome
        · rw [hfirst] at hvacant
          cases hvacant
      obtain ⟨value, hvalue⟩ := Option.isSome_iff_exists.mp hused
      have hrest : ∀ rid ∈ rest, ((t.erase first).row? rid).isSome ∨ (t.erase first).vacant rid = true := by
        intro rid hmem
        rcases hrids.2 rid hmem with hsome | hvacant
        · have hne : rid ≠ first := by
            rintro rfl
            have hvacant := hdistinct.1 rid hmem rfl
            rw [hfirst] at hvacant
            cases hvacant
          rw [h.row?_erase hvalue, if_neg hne]
          exact .inl hsome
        · exact .inr (h.vacant_erase hvalue hvacant)
      have hdistinctRest : rest.Pairwise fun rid rid' => rid = rid' → (t.erase first).vacant rid = true :=
        hdistinct.2.imp fun himp heq => h.vacant_erase hvalue (himp heq)
      obtain ⟨hwf, hrows⟩ := ih (h.erase hvalue) hrest hdistinctRest
      refine ⟨hwf, fun rid => ?_⟩
      rw [hrows, h.row?_erase hvalue]
      by_cases hrid : rid = first
      · simp [hrid]
      · simp [hrid]

theorem mapRows {R : α → α → Prop} {rows : List (RowId × α)} (h : t.WellFormed)
    (hrows : List.Forall₂ (fun row row' => row'.1 = row.1 ∧ R row.2 row'.2) t.rows rows) :
    WellFormed { t with rows } ∧
      ∀ rid value, t.row? rid = some value → ∃ value', row? { t with rows } rid = some value' ∧ R value value' := by
  have hlength := hrows.length_eq
  have hback : ∀ (offset : Nat) (row' : RowId × α), rows[offset]? = some row' →
      ∃ row, t.rows[offset]? = some row ∧ row'.1 = row.1 := by
    intro offset row' hget'
    obtain ⟨hlt', rfl⟩ := List.getElem?_eq_some_iff.mp hget'
    have hlt : offset < t.rows.length := by
      rw [hlength]
      exact hlt'
    exact ⟨_, List.getElem?_eq_getElem hlt, (hrows.get hlt hlt').1⟩
  have hwf : WellFormed { t with rows } := by
    obtain ⟨free, hfree, hnodup, hunused⟩ := h.free
    refine ⟨?_, free, hfree, hnodup, ?_⟩
    · intro offset row' hget'
      obtain ⟨row, hget, hrid⟩ := hback offset row' hget'
      rw [hrid]
      exact h.offset_eq offset row hget
    · intro rid hrid value' hmem
      obtain ⟨offset, hget'⟩ := List.mem_iff_getElem?.mp hmem
      obtain ⟨row, hget, hsame⟩ := hback offset _ hget'
      apply hunused rid hrid row.2
      rw [show rid = row.1 from hsame]
      exact List.mem_of_getElem? hget
  refine ⟨hwf, fun rid value hrow => ?_⟩
  obtain ⟨offset, hoffset, hget⟩ := h.exists_offset hrow
  obtain ⟨hlt, hvalue⟩ := List.getElem?_eq_some_iff.mp hget
  have hlt' : offset < rows.length := by
    rw [← hlength]
    exact hlt
  obtain ⟨hrid, hR⟩ := hrows.get hlt hlt'
  rw [List.get_eq_getElem, List.get_eq_getElem, hvalue] at hrid hR
  have hsplit : rows[offset] = (rid, rows[offset].2) := Prod.ext hrid rfl
  refine ⟨_, hwf.row?_eq_some_iff.mpr ?_, hR⟩
  rw [← hsplit]
  exact List.getElem_mem hlt'

end WellFormed

end SoaTable
end Srsran.Adt
