import Mathlib.Data.List.Induction
import Mathlib.Data.List.Perm.Basic
import Srsran.Lib.Runs
import Srsran.Phy.RxBufferPool

/-! Retransmissions find what the last reservation of their identifier left, unless its buffer was emptied
and still has the identifier. -/
namespace Srsran.Phy
open Ran

abbrev RxBufferContent := List Nat × List Bool

/-- What an action leaves of the last reservation of `id`. -/
def noteAction (id : Nat) (left : Option RxBufferContent) : RxBufferAction → Option RxBufferContent
  | .reserved id' _ _ _ => if id' = id then none else left
  | .unlocked id' content => if id' = some id then some content else left
  | .released id' => if id' = some id then none else left

/-- What the last reservation of `id` left when it was unlocked, and nothing if it was released. -/
def leftBy (id : Nat) (history : List RxBufferAction) : Option RxBufferContent :=
  history.foldl (noteAction id) none

@[simp] theorem leftBy_concat (id : Nat) (history : List RxBufferAction) (action : RxBufferAction) :
    leftBy id (history ++ [action]) = noteAction id (leftBy id history) action := by
  simp [leftBy]

/-- Every retransmission was given what the last reservation left. -/
def Combines (history : List RxBufferAction) : Prop :=
  ∀ before after id index content,
    history = before ++ .reserved id false index content :: after → leftBy id before = some content

variable {history : List RxBufferAction}

theorem Combines.concat {action : RxBufferAction} (h : Combines history)
    (hlast : ∀ id index content, action = .reserved id false index content →
      leftBy id history = some content) : Combines (history ++ [action]) := by
  intro before after id index content hsplit
  cases after using List.reverseRecOn with
  | nil =>
    obtain ⟨hbefore, haction⟩ := List.append_inj' hsplit rfl
    cases haction
    rw [← hbefore]
    exact hlast id index content rfl
  | append_singleton after last =>
    have hends : history ++ [action] =
        (before ++ .reserved id false index content :: after) ++ [last] := by
      rw [hsplit]
      simp
    exact h before after id index content (List.append_inj' hends rfl).1

theorem takeCodeblocks_enough {missing : Nat} {freeList codeblockIds : List Nat}
    (h : missing ≤ freeList.length) : takeCodeblocks missing freeList codeblockIds =
      (freeList.drop missing, codeblockIds ++ freeList.take missing, true) := by
  induction missing generalizing freeList codeblockIds with
  | zero => simp [takeCodeblocks]
  | succ missing ih =>
    cases freeList with
    | nil => cases h
    | cons cbId freeList =>
      rw [takeCodeblocks, ih (Nat.le_of_succ_le_succ h)]
      simp

theorem takeCodeblocks_lacking {missing : Nat} {freeList codeblockIds : List Nat}
    (h : freeList.length < missing) : takeCodeblocks missing freeList codeblockIds =
      ([], codeblockIds ++ freeList, false) := by
  induction missing generalizing freeList codeblockIds with
  | zero => cases h
  | succ missing ih =>
    cases freeList with
    | nil => simp [takeCodeblocks]
    | cons cbId freeList =>
      rw [takeCodeblocks, ih (Nat.lt_of_succ_lt_succ h)]
      simp

theorem length_resizeCrc (crc : List Bool) (size : Nat) : (resizeCrc crc size).length = size := by
  simp only [resizeCrc, List.length_append, List.length_take, List.length_replicate]
  omega

theorem resizeCrc_self (crc : List Bool) : resizeCrc crc crc.length = crc := by
  simp [resizeCrc]

namespace RxBuffer

/-- A buffer at some time of a history. -/
structure Ok (buffer : RxBuffer) (history : List RxBufferAction) : Prop where
  available : buffer.currentState = .available → buffer.codeblockIds = []
  held : buffer.currentState ≠ .available → buffer.codeblockIds.length = buffer.crc.length
  identified : buffer.currentState ≠ .available → ∃ id, buffer.identifier = some id
  left : buffer.currentState = .reserved → ∀ id, buffer.identifier = some id →
    leftBy id history = some (buffer.codeblockIds, buffer.crc)

variable {buffer : RxBuffer} {freeList freeList' : List Nat} {nofCodeblocks : Nat}
  {history : List RxBufferAction}

theorem Ok.concat (h : buffer.Ok history) {action : RxBufferAction}
    (hother : ∀ id, buffer.identifier = some id →
      noteAction id (leftBy id history) action = leftBy id history) : buffer.Ok (history ++ [action]) where
  __ := h
  left := by
    intro hreserved id hid
    rw [leftBy_concat, hother id hid]
    exact h.left hreserved id hid

/-- The codeblocks of a reservation come from the buffer or the pool. -/
theorem reserve_perm (buffer : RxBuffer) (freeList : List Nat) (nofCodeblocks : Nat) (resetCrc : Bool) :
    ((buffer.reserve freeList nofCodeblocks resetCrc).1 ++
      (buffer.reserve freeList nofCodeblocks resetCrc).2.1.codeblockIds).Perm
        (freeList ++ buffer.codeblockIds) := by
  have hids : ((buffer.codeblockIds.drop nofCodeblocks).reverse ++
      buffer.codeblockIds.take nofCodeblocks).Perm buffer.codeblockIds :=
    ((List.reverse_perm _).append_right _).trans
      (List.perm_append_comm.trans (List.Perm.of_eq (List.take_append_drop _ _)))
  have hexcess : ((freeList ++ (buffer.codeblockIds.drop nofCodeblocks).reverse) ++
      buffer.codeblockIds.take nofCodeblocks).Perm (freeList ++ buffer.codeblockIds) := by
    rw [List.append_assoc]
    exact hids.append_left freeList
  rw [reserve]
  split
  · exact .refl _
  · simp only [freeExcess]
    generalize freeList ++ (buffer.codeblockIds.drop nofCodeblocks).reverse = free at hexcess ⊢
    generalize buffer.codeblockIds.take nofCodeblocks = ids at hexcess ⊢
    rcases Nat.lt_or_ge free.length (nofCodeblocks - ids.length) with hlacking | henough
    · rw [takeCodeblocks_lacking hlacking]
      simp only [List.nil_append, List.append_nil]
      exact List.perm_append_comm.trans hexcess
    · rw [takeCodeblocks_enough henough]
      refine List.Perm.trans ?_ hexcess
      simp only
      refine (List.perm_append_comm).trans ?_
      rw [List.append_assoc, List.take_append_drop]
      exact List.perm_append_comm

def reservedWith (buffer : RxBuffer) (codeblockIds : List Nat) (resetCrc : Bool) : RxBuffer :=
  let crc := resizeCrc buffer.crc codeblockIds.length
  { buffer with
    codeblockIds := codeblockIds
    crc := if resetCrc then crc.map fun _ => false else crc
    currentState := .reserved }

def emptied (buffer : RxBuffer) : RxBuffer := { buffer with codeblockIds := [], currentState := .available }

theorem reserve_cases (buffer : RxBuffer) (freeList : List Nat) (nofCodeblocks : Nat) (resetCrc : Bool) :
    (buffer.currentState = .locked ∧
      buffer.reserve freeList nofCodeblocks resetCrc = (freeList, buffer, .alreadyInUse)) ∨
    (buffer.currentState ≠ .locked ∧ ∃ freeList',
      buffer.reserve freeList nofCodeblocks resetCrc = (freeList', buffer.emptied, .insufficientCb)) ∨
    (buffer.currentState ≠ .locked ∧ nofCodeblocks ≤ freeList.length + buffer.codeblockIds.length ∧
      ∃ freeList' codeblockIds, codeblockIds.length = nofCodeblocks ∧
        (buffer.codeblockIds.length = nofCodeblocks → codeblockIds = buffer.codeblockIds) ∧
        buffer.reserve freeList nofCodeblocks resetCrc =
          (freeList', buffer.reservedWith codeblockIds resetCrc, .successful)) := by
  rw [reserve]
  by_cases hlocked : buffer.currentState = .locked
  · exact .inl ⟨hlocked, if_pos hlocked⟩
  · rw [if_neg hlocked]
    refine .inr ?_
    have hfree : (freeList ++ (buffer.codeblockIds.drop nofCodeblocks).reverse).length =
        freeList.length + (buffer.codeblockIds.length - nofCodeblocks) := by simp
    have hids : (buffer.codeblockIds.take nofCodeblocks).length =
        min nofCodeblocks buffer.codeblockIds.length := List.length_take
    have hsame : buffer.codeblockIds.length = nofCodeblocks →
        buffer.codeblockIds.take nofCodeblocks = buffer.codeblockIds := by
      rintro rfl
      exact List.take_length
    simp only [freeExcess]
    generalize freeList ++ (buffer.codeblockIds.drop nofCodeblocks).reverse = free at hfree ⊢
    generalize buffer.codeblockIds.take nofCodeblocks = ids at hids hsame ⊢
    rcases Nat.lt_or_ge free.length (nofCodeblocks - ids.length) with hlacking | henough
    · rw [takeCodeblocks_lacking hlacking]
      exact .inl ⟨hlocked, _, rfl⟩
    · rw [takeCodeblocks_enough henough]
      have hlength : (ids ++ free.take (nofCodeblocks - ids.length)).length = nofCodeblocks := by
        rw [List.length_append, List.length_take]
        omega
      refine .inr ⟨hlocked, by omega, free.drop (nofCodeblocks - ids.length), _, hlength, ?_, ?_⟩
      · intro heq
        rw [hsame heq, heq, Nat.sub_self, List.take_zero, List.append_nil]
      · rw [reservedWith, hlength]

theorem length_crc_reservedWith (buffer : RxBuffer) (codeblockIds : List Nat) (resetCrc : Bool) :
    (buffer.reservedWith codeblockIds resetCrc).crc.length = codeblockIds.length := by
  cases resetCrc <;> simp [reservedWith, length_resizeCrc]

theorem crc_reservedWith_retransmission (buffer : RxBuffer) {codeblockIds : List Nat}
    (h : codeblockIds.length = buffer.crc.length) :
    (buffer.reservedWith codeblockIds false).crc = buffer.crc := by
  simp only [reservedWith, h]
  exact resizeCrc_self buffer.crc

theorem runSlot_cases (buffer : RxBuffer) (freeList : List Nat) (slot : SlotPoint) (timeout : Nat) :
    (buffer.runSlot freeList slot timeout = (freeList, buffer) ∧
      (buffer.identifier = none ∨ buffer.currentState = .reserved ∧ buffer.expiredAt slot = false ∨
        buffer.currentState = .available)) ∨
    (buffer.currentState = .locked ∧ buffer.runSlot freeList slot timeout =
      (freeList, { buffer with expiration := slot.add timeout })) ∨
    (buffer.currentState = .reserved ∧ buffer.runSlot freeList slot timeout =
      (freeList ++ buffer.codeblockIds,
        { buffer.emptied with identifier := none, expiration := .invalid })) ∨
    (buffer.currentState = .available ∧ buffer.runSlot freeList slot timeout =
      (freeList, { buffer with identifier := none, expiration := .invalid })) := by
  rw [runSlot]
  by_cases hnone : buffer.identifier = none
  · exact .inl ⟨if_pos hnone, .inl hnone⟩
  rw [if_neg hnone]
  cases hstate : buffer.currentState with
  | locked => exact .inr (.inl ⟨rfl, by simp⟩)
  | reserved =>
    cases hexpired : buffer.expiredAt slot with
    | true => exact .inr (.inr (.inl ⟨rfl, by simp [emptied]⟩))
    | false => exact .inl ⟨by simp, .inr (.inl ⟨rfl, rfl⟩)⟩
  | available =>
    cases hexpired : buffer.expiredAt slot with
    | true => exact .inl ⟨by simp, .inr (.inr rfl)⟩
    | false => exact .inr (.inr (.inr ⟨rfl, by simp⟩))

end RxBuffer

namespace RxBufferPool
variable {s s' : RxBufferPool} {index : Nat} {buffer buffer' : RxBuffer}

theorem set_self (h : s.buffers[index]? = some buffer) : s.buffers.set index buffer = s.buffers := by
  obtain ⟨hlt, rfl⟩ := List.getElem?_eq_some_iff.mp h
  exact List.set_getElem_self hlt

/-- Where `reserve` finds a buffer. -/
structure Found (s : RxBufferPool) (id : Nat) (newData : Bool) (index : Nat) (buffer : RxBuffer) : Prop where
  found : s.buffers[index]? = some buffer
  identifier : buffer.identifier = some id ∨
    newData = true ∧ buffer.identifier = none ∧ ∀ other ∈ s.buffers, other.identifier ≠ some id

theorem findIdentifier_eq_some {identifier : Option Nat} (h : s.findIdentifier identifier = some index)
    (hfound : s.buffers[index]? = some buffer) : buffer.identifier = identifier := by
  obtain ⟨hlt, hidentifier, -⟩ := List.findIdx?_eq_some_iff_getElem.mp h
  obtain ⟨-, rfl⟩ := List.getElem?_eq_some_iff.mp hfound
  exact of_decide_eq_true hidentifier

variable {id : Nat}

theorem findBuffer_eq_some {newData : Bool} (h : s.findBuffer id newData = some index)
    (hfound : s.buffers[index]? = some buffer) : s.Found id newData index buffer := by
  refine ⟨hfound, ?_⟩
  rw [findBuffer] at h
  split at h
  · rename_i hid
    cases h
    exact .inl (findIdentifier_eq_some hid hfound)
  · rename_i hnone
    cases newData with
    | false => cases h
    | true =>
      refine .inr ⟨rfl, findIdentifier_eq_some h hfound, fun other hother hid => ?_⟩
      have hother' := List.findIdx?_eq_none_iff.mp hnone other hother
      exact absurd (decide_eq_true hid) (Bool.eq_false_iff.mp hother')

theorem reserve_cases (s : RxBufferPool) (slot : SlotPoint) (id nofCodeblocks : Nat) (newData : Bool) :
    s.reserve slot id nofCodeblocks newData = s ∨
    ∃ index buffer freeList', s.Found id newData index buffer ∧ buffer.currentState ≠ .locked ∧
      (newData = false → nofCodeblocks = buffer.crc.length) ∧
      ((freeList'.Perm (s.freeList ++ buffer.codeblockIds) ∧
        s.reserve slot id nofCodeblocks newData =
          { s with freeList := freeList', buffers := s.buffers.set index buffer.emptied }) ∨
      ∃ codeblockIds, codeblockIds.length = nofCodeblocks ∧ s.stopped = false ∧
        nofCodeblocks ≤ s.freeList.length + buffer.codeblockIds.length ∧
        (buffer.codeblockIds.length = nofCodeblocks → codeblockIds = buffer.codeblockIds) ∧
        (freeList' ++ codeblockIds).Perm (s.freeList ++ buffer.codeblockIds) ∧
        s.reserve slot id nofCodeblocks newData =
          { s with
            freeList := freeList'
            buffers := s.buffers.set index { buffer.reservedWith codeblockIds newData with
              identifier := some id
              expiration := slot.add s.expireTimeoutSlots
              currentState := .locked }
            history := s.history ++ [.reserved id newData index
              (codeblockIds, (buffer.reservedWith codeblockIds newData).crc)] }) := by
  rw [reserve]
  by_cases hstopped : s.stopped = true
  · exact .inl (if_pos hstopped)
  rw [if_neg hstopped]
  cases hindex : s.findBuffer id newData with
  | none => exact .inl rfl
  | some index =>
  simp only
  cases hfound : s.buffers[index]? with
  | none => exact .inl rfl
  | some buffer =>
  simp only [reserveAt]
  by_cases hsize : (!newData && nofCodeblocks != buffer.crc.length) = true
  · exact .inl (if_pos hsize)
  rw [if_neg hsize]
  have hcrc : newData = false → nofCodeblocks = buffer.crc.length := by
    rintro rfl
    simpa using hsize
  have hperm := buffer.reserve_perm s.freeList nofCodeblocks newData
  rcases buffer.reserve_cases s.freeList nofCodeblocks newData with
    ⟨-, heq⟩ | ⟨hlocked, freeList', heq⟩ | ⟨hlocked, hfits, freeList', ids, hlength, hsame, heq⟩
  · refine .inl ?_
    rw [heq]
    simp only [set_self hfound]
  · rw [heq] at hperm ⊢
    refine .inr ⟨index, buffer, freeList', findBuffer_eq_some hindex hfound, hlocked, hcrc, .inl ⟨?_, rfl⟩⟩
    simpa [RxBuffer.emptied] using hperm
  · rw [heq] at hperm ⊢
    exact .inr ⟨index, buffer, freeList', findBuffer_eq_some hindex hfound, hlocked, hcrc,
      .inr ⟨ids, hlength, Bool.eq_false_iff.mpr hstopped, hfits, hsame, hperm, rfl⟩⟩

theorem held_eq_some (h : s.held index = some buffer) :
    s.buffers[index]? = some buffer ∧ buffer.currentState = .locked := by
  obtain ⟨hfound, hlocked⟩ := Option.filter_eq_some_iff.mp h
  exact ⟨hfound, of_decide_eq_true hlocked⟩

theorem getElem?_runSlotLoop (slot : SlotPoint) (timeout : Nat) (buffers : List RxBuffer)
    (freeList : List Nat) (i : Nat) : ∃ freeList', (runSlotLoop slot timeout buffers freeList).2[i]? =
      buffers[i]?.map fun buffer => (buffer.runSlot freeList' slot timeout).2 := by
  induction buffers generalizing freeList i with
  | nil => exact ⟨[], rfl⟩
  | cons buffer rest ih =>
    cases i with
    | zero => exact ⟨freeList, rfl⟩
    | succ i => exact ih _ i

theorem runSlotLoop_perm (slot : SlotPoint) (timeout : Nat) (buffers : List RxBuffer) (freeList : List Nat) :
    ((runSlotLoop slot timeout buffers freeList).1 ++
      (runSlotLoop slot timeout buffers freeList).2.flatMap (·.codeblockIds)).Perm
        (freeList ++ buffers.flatMap (·.codeblockIds)) := by
  induction buffers generalizing freeList with
  | nil => exact .refl _
  | cons buffer rest ih =>
    have hbuffer : ((buffer.runSlot freeList slot timeout).1 ++
        (buffer.runSlot freeList slot timeout).2.codeblockIds).Perm (freeList ++ buffer.codeblockIds) := by
      rcases buffer.runSlot_cases freeList slot timeout with ⟨h, -⟩ | ⟨-, h⟩ | ⟨-, h⟩ | ⟨-, h⟩ <;>
        simp [h, RxBuffer.emptied]
    simp only [runSlotLoop, List.flatMap_cons]
    refine (List.perm_append_comm_assoc _ _ _).trans ?_
    refine ((ih _).append_left _).trans ?_
    refine (List.perm_append_comm_assoc _ _ _).trans ?_
    rw [← List.append_assoc, ← List.append_assoc]
    exact hbuffer.append_right _

def codeblocks (s : RxBufferPool) : List Nat := s.freeList ++ s.buffers.flatMap (·.codeblockIds)

/-- No two buffers have one identifier. -/
def Distinct (buffers : List RxBuffer) : Prop :=
  ∀ (i j : Nat) (buffer other : RxBuffer) (id : Nat), buffers[i]? = some buffer → buffers[j]? = some other →
    buffer.identifier = some id → other.identifier = some id → i = j

structure Inv (nofCodeblocks : Nat) (s : RxBufferPool) : Prop where
  codeblocks : s.codeblocks.Perm (List.range nofCodeblocks)
  distinct : Distinct s.buffers
  buffers : ∀ buffer ∈ s.buffers, buffer.Ok s.history
  combines : Combines s.history

variable {nofCodeblocks : Nat}

theorem codeblocks_set {buffers : List RxBuffer} {freeList freeList' : List Nat}
    (hfound : buffers[index]? = some buffer)
    (hperm : (freeList' ++ buffer'.codeblockIds).Perm (freeList ++ buffer.codeblockIds)) :
    (freeList' ++ (buffers.set index buffer').flatMap (·.codeblockIds)).Perm
      (freeList ++ buffers.flatMap (·.codeblockIds)) := by
  induction buffers generalizing index with
  | nil => cases hfound
  | cons first rest ih =>
    cases index with
    | zero =>
      cases hfound
      rw [List.set_cons_zero, List.flatMap_cons, List.flatMap_cons, ← List.append_assoc,
        ← List.append_assoc]
      exact hperm.append_right _
    | succ index =>
      rw [List.set_cons_succ, List.flatMap_cons, List.flatMap_cons]
      refine (List.perm_append_comm_assoc _ _ _).trans ?_
      exact ((ih hfound).append_left _).trans (List.perm_append_comm_assoc _ _ _)

theorem Distinct.set {buffers : List RxBuffer} (h : Distinct buffers)
    (hother : ∀ j other id, j ≠ index → buffers[j]? = some other → buffer'.identifier = some id →
      other.identifier ≠ some id) : Distinct (buffers.set index buffer') := by
  intro i j b other id hb hother' hid hid'
  rw [List.getElem?_set] at hb hother'
  split at hb <;> split at hother'
  · rename_i hi hj
    exact hi.symm.trans hj
  · rename_i hi hj
    split at hb
    · cases hb
      exact absurd hid' (hother j other id (Ne.symm hj) hother' hid)
    · cases hb
  · rename_i hi hj
    split at hother'
    · cases hother'
      exact absurd hid (hother i b id (Ne.symm hi) hb hid')
    · cases hother'
  · exact h i j b other id hb hother' hid hid'

theorem Inv.set (h : s.Inv nofCodeblocks) {freeList' : List Nat} {history' : List RxBufferAction}
    (hfound : s.buffers[index]? = some buffer)
    (hperm : (freeList' ++ buffer'.codeblockIds).Perm (s.freeList ++ buffer.codeblockIds))
    (hother : ∀ j other id, j ≠ index → s.buffers[j]? = some other → buffer'.identifier = some id →
      other.identifier ≠ some id)
    (hok : buffer'.Ok history')
    (hothers : ∀ j other, j ≠ index → s.buffers[j]? = some other → other.Ok history')
    (hcombines : Combines history') :
    Inv nofCodeblocks { s with
      freeList := freeList'
      buffers := s.buffers.set index buffer'
      history := history' } where
  codeblocks := (codeblocks_set hfound hperm).trans h.codeblocks
  distinct := h.distinct.set hother
  buffers := by
    intro b hb
    obtain ⟨j, hj⟩ := List.getElem?_of_mem hb
    rw [List.getElem?_set] at hj
    split at hj
    · split at hj
      · cases hj
        exact hok
      · cases hj
    · rename_i hne
      exact hothers j b (Ne.symm hne) hj
  combines := hcombines

theorem Inv.ok (h : s.Inv nofCodeblocks) (hfound : s.buffers[index]? = some buffer) :
    buffer.Ok s.history :=
  h.buffers buffer (List.mem_of_getElem? hfound)

/-- What the holder of a buffer does says nothing about other identifiers. -/
theorem Inv.others (h : s.Inv nofCodeblocks) (hfound : s.buffers[index]? = some buffer)
    (hid : buffer.identifier = some id) {j : Nat} {other : RxBuffer} (hj : j ≠ index)
    (hother : s.buffers[j]? = some other) : other.identifier ≠ some id :=
  fun hsame => hj (h.distinct j index other buffer id hother hfound hsame hid)

/-- A retransmission whose buffer was emptied, and can be filled again. -/
def Stale (s : RxBufferPool) : RxBufferEvent → Prop
  | .reserve _ id nofCodeblocks false => s.stopped = false ∧ ∃ buffer ∈ s.buffers,
      buffer.identifier = some id ∧ buffer.currentState = .available ∧
        nofCodeblocks = buffer.crc.length ∧ nofCodeblocks ≤ s.freeList.length
  | _ => False

section
variable (h : s.Inv nofCodeblocks)
include h

theorem Inv.reserve {slot : SlotPoint} {nof : Nat} {newData : Bool}
    (hstale : ¬s.Stale (.reserve slot id nof newData)) :
    (s.reserve slot id nof newData).Inv nofCodeblocks := by
  rcases s.reserve_cases slot id nof newData with heq |
    ⟨index, buffer, freeList', hfind, hlocked, hcrc, ⟨hperm, heq⟩ |
      ⟨ids, hlength, hstopped, hfits, hsame, hperm, heq⟩⟩
  · rw [heq]
    exact h
  · have hok := h.ok hfind.found
    rw [heq]
    refine h.set hfind.found (by simpa [RxBuffer.emptied] using hperm) ?_ ?_
      (fun _ _ _ hother => h.ok hother) h.combines
    · exact fun j other id' hj hother hid => h.others hfind.found hid hj hother
    · exact ⟨fun _ => rfl, fun hne => absurd rfl hne, fun hne => absurd rfl hne, nofun⟩
  · have hok := h.ok hfind.found
    have hothers : ∀ j other, j ≠ index → s.buffers[j]? = some other → other.identifier ≠ some id := by
      intro j other hj hother
      rcases hfind.identifier with hid | ⟨-, -, hnone⟩
      · exact h.others hfind.found hid hj hother
      · exact hnone other (List.mem_of_getElem? hother)
    rw [heq]
    refine h.set hfind.found hperm ?_ ?_ ?_ ?_
    · intro j other id' hj hother hid
      cases hid
      exact hothers j other hj hother
    · exact ⟨nofun, fun _ => (buffer.length_crc_reservedWith ids newData).symm, fun _ => ⟨id, rfl⟩, nofun⟩
    · intro j other hj hother
      refine (h.ok hother).concat fun id' hid' => ?_
      rw [noteAction, if_neg]
      rintro rfl
      exact hothers j other hj hother hid'
    · refine h.combines.concat fun id' index' content haction => ?_
      cases haction
      have hnof := hcrc rfl
      have hid : buffer.identifier = some id := hfind.identifier.resolve_right fun hnew => nomatch hnew.1
      cases hstate : buffer.currentState with
      | locked => exact absurd hstate hlocked
      | available =>
        rw [hok.available hstate, List.length_nil, Nat.add_zero] at hfits
        exact absurd ⟨hstopped, buffer, List.mem_of_getElem? hfind.found, hid, hstate, hnof, hfits⟩ hstale
      | reserved =>
        have hheld := hok.held (by rw [hstate]; nofun)
        rw [buffer.crc_reservedWith_retransmission (hlength.trans hnof), hsame (hheld.trans hnof.symm)]
        exact hok.left hstate id hid

theorem Inv.setCrc {crc : List Bool} (hs' : s.setCrc index crc = some s') : s'.Inv nofCodeblocks := by
  obtain ⟨buffer, hheld, hset⟩ := Option.bind_eq_some_iff.mp hs'
  obtain ⟨hfound, hlocked⟩ := held_eq_some hheld
  have hok := h.ok hfound
  split at hset
  · rename_i hsize
    cases hset
    refine h.set hfound (.refl _) ?_ ?_ (fun _ _ _ hother => h.ok hother) h.combines
    · exact fun j other id hj hother hid => h.others hfound hid hj hother
    · refine ⟨hok.available, fun hne => (hok.held hne).trans hsize.symm, hok.identified, ?_⟩
      intro hreserved
      rw [hlocked] at hreserved
      cases hreserved
  · cases hset

theorem Inv.unlock (hs' : s.unlock index = some s') : s'.Inv nofCodeblocks := by
  obtain ⟨buffer, hheld, rfl⟩ := Option.map_eq_some_iff.mp hs'
  obtain ⟨hfound, hlocked⟩ := held_eq_some hheld
  have hok := h.ok hfound
  have hne : buffer.currentState ≠ .available := by rw [hlocked]; nofun
  obtain ⟨id, hid⟩ := hok.identified hne
  refine h.set hfound (.refl _) ?_ ?_ ?_ (h.combines.concat nofun)
  · exact fun j other id' hj hother hid' => h.others hfound hid' hj hother
  · refine ⟨nofun, fun _ => hok.held hne, fun _ => ⟨id, hid⟩, fun _ id' hid' => ?_⟩
    rw [leftBy_concat, noteAction, if_pos hid']
  · intro j other hj hother
    refine (h.ok hother).concat fun id' hid' => ?_
    rw [noteAction, if_neg]
    exact fun hsame => h.others hfound hsame hj hother hid'

theorem Inv.release (hs' : s.release index = some s') : s'.Inv nofCodeblocks := by
  obtain ⟨buffer, hheld, rfl⟩ := Option.map_eq_some_iff.mp hs'
  obtain ⟨hfound, hlocked⟩ := held_eq_some hheld
  refine h.set hfound (by simp) ?_ ?_ ?_ (h.combines.concat nofun)
  · exact fun j other id' hj hother hid' => h.others hfound hid' hj hother
  · exact ⟨fun _ => rfl, fun hne => absurd rfl hne, fun hne => absurd rfl hne, nofun⟩
  · intro j other hj hother
    refine (h.ok hother).concat fun id' hid' => ?_
    rw [noteAction, if_neg]
    exact fun hsame => h.others hfound hsame hj hother hid'

end

theorem identifier_runSlot (buffer : RxBuffer) (freeList : List Nat) (slot : SlotPoint)
    (timeout : Nat) (h : (buffer.runSlot freeList slot timeout).2.identifier = some id) :
    buffer.identifier = some id := by
  rcases buffer.runSlot_cases freeList slot timeout with ⟨heq, -⟩ | ⟨-, heq⟩ | ⟨-, heq⟩ | ⟨-, heq⟩
  · rwa [heq] at h
  · rwa [heq] at h
  · rw [heq] at h
    cases h
  · rw [heq] at h
    cases h

theorem ok_runSlot (hok : buffer.Ok history) (freeList : List Nat)
    (slot : SlotPoint) (timeout : Nat) : (buffer.runSlot freeList slot timeout).2.Ok history := by
  rcases buffer.runSlot_cases freeList slot timeout with
    ⟨heq, -⟩ | ⟨hstate, heq⟩ | ⟨hstate, heq⟩ | ⟨hstate, heq⟩
  · rwa [heq]
  · rw [heq]
    exact { hok with }
  · rw [heq]
    exact ⟨fun _ => rfl, fun hne => absurd rfl hne, fun hne => absurd rfl hne, nofun⟩
  · rw [heq]
    exact ⟨hok.available, hok.held, fun hne => absurd hstate hne, fun _ => nofun⟩

theorem Inv.runSlot (h : s.Inv nofCodeblocks) (slot : SlotPoint) : (s.runSlot slot).Inv nofCodeblocks where
  codeblocks := (runSlotLoop_perm slot s.expireTimeoutSlots s.buffers s.freeList).trans h.codeblocks
  distinct := by
    intro i j buffer other id hbuffer hother hid hid'
    obtain ⟨freeList, hi⟩ := getElem?_runSlotLoop slot s.expireTimeoutSlots s.buffers s.freeList i
    obtain ⟨freeList', hj⟩ := getElem?_runSlotLoop slot s.expireTimeoutSlots s.buffers s.freeList j
    obtain ⟨first, hfirst, rfl⟩ := Option.map_eq_some_iff.mp (hi.symm.trans hbuffer)
    obtain ⟨second, hsecond, rfl⟩ := Option.map_eq_some_iff.mp (hj.symm.trans hother)
    exact h.distinct i j first second id hfirst hsecond (identifier_runSlot _ _ _ _ hid)
      (identifier_runSlot _ _ _ _ hid')
  buffers := by
    intro buffer hbuffer
    obtain ⟨i, hi⟩ := List.getElem?_of_mem hbuffer
    obtain ⟨freeList, hrun⟩ := getElem?_runSlotLoop slot s.expireTimeoutSlots s.buffers s.freeList i
    obtain ⟨old, hold, rfl⟩ := Option.map_eq_some_iff.mp (hrun.symm.trans hi)
    exact ok_runSlot (h.ok hold) _ _ _
  combines := h.combines

variable {event : RxBufferEvent}

theorem Inv.step (h : s.Inv nofCodeblocks) (hstale : ¬s.Stale event) (hs' : s.next event = some s') :
    s'.Inv nofCodeblocks := by
  cases event with
  | reserve slot id nof newData =>
    cases hs'
    exact h.reserve hstale
  | setCrc index crc => exact h.setCrc hs'
  | unlock index => exact h.unlock hs'
  | release index => exact h.release hs'
  | runSlot slot =>
    cases hs'
    exact h.runSlot slot
  | stop =>
    cases hs'
    exact { h with }

def HolderEvent (index : Nat) (event : RxBufferEvent) : Prop :=
  (∃ crc, event = .setCrc index crc) ∨ event = .unlock index ∨ event = .release index

/-- A locked buffer and the one after a step: only its expiration may change. -/
def KeptLocked (s s' : RxBufferPool) (index : Nat) (buffer : RxBuffer) : Prop :=
  (∃ expiration, s'.buffers[index]? = some { buffer with expiration := expiration }) ∧
    ∀ id newData content, s'.history ≠ s.history ++ [.reserved id newData index content]

theorem KeptLocked.other {freeList' : List Nat} {other : Nat} {history' : List RxBufferAction}
    (hfound : s.buffers[index]? = some buffer) (hne : other ≠ index)
    (hhistory : ∀ id newData content, history' ≠ s.history ++ [.reserved id newData index content]) :
    KeptLocked s { s with
      freeList := freeList'
      buffers := s.buffers.set other buffer'
      history := history' } index buffer :=
  ⟨⟨buffer.expiration, (List.getElem?_set_ne hne).trans hfound⟩, hhistory⟩

theorem history_ne (history : List RxBufferAction) (action : RxBufferAction) :
    history ≠ history ++ [action] := by
  intro heq
  have hlength := congrArg List.length heq
  simp at hlength

theorem concat_ne {action action' : RxBufferAction}
    (h : action ≠ action') : history ++ [action] ≠ history ++ [action'] := by
  intro heq
  exact h (List.singleton_inj.mp (List.append_cancel_left heq))

theorem next_keepsLocked (hfound : s.buffers[index]? = some buffer)
    (hlocked : buffer.currentState = .locked) (hholder : ¬HolderEvent index event)
    (hs' : s.next event = some s') : KeptLocked s s' index buffer := by
  have hsame : KeptLocked s s index buffer :=
    ⟨⟨buffer.expiration, hfound⟩, fun _ _ _ => history_ne _ _⟩
  cases event with
  | reserve slot id nof newData =>
    cases hs'
    have hother : ∀ {i : Nat} {b : RxBuffer}, s.buffers[i]? = some b → b.currentState ≠ .locked →
        i ≠ index := by
      rintro i b hb hunlocked rfl
      rw [hfound] at hb
      cases hb
      exact hunlocked hlocked
    rcases s.reserve_cases slot id nof newData with heq |
      ⟨i, b, freeList', hfind, hunlocked, -, ⟨-, heq⟩ | ⟨ids, -, -, -, -, -, heq⟩⟩
    · rw [heq]
      exact hsame
    · rw [heq]
      exact .other hfound (hother hfind.found hunlocked) fun _ _ _ => history_ne _ _
    · rw [heq]
      refine .other hfound (hother hfind.found hunlocked) fun _ _ _ => concat_ne fun haction => ?_
      cases haction
      exact hother hfind.found hunlocked rfl
  | setCrc i crc =>
    obtain ⟨b, -, hset⟩ := Option.bind_eq_some_iff.mp hs'
    split at hset
    · cases hset
      exact .other hfound (fun heq => hholder (.inl ⟨crc, heq ▸ rfl⟩)) fun _ _ _ => history_ne _ _
    · cases hset
  | unlock i =>
    obtain ⟨b, -, rfl⟩ := Option.map_eq_some_iff.mp hs'
    exact .other hfound (fun heq => hholder (.inr (.inl (heq ▸ rfl)))) fun _ _ _ => concat_ne nofun
  | release i =>
    obtain ⟨b, -, rfl⟩ := Option.map_eq_some_iff.mp hs'
    exact .other hfound (fun heq => hholder (.inr (.inr (heq ▸ rfl)))) fun _ _ _ => concat_ne nofun
  | runSlot slot =>
    cases hs'
    refine ⟨?_, fun _ _ _ => history_ne _ _⟩
    obtain ⟨freeList, hrun⟩ := getElem?_runSlotLoop slot s.expireTimeoutSlots s.buffers s.freeList index
    rw [hfound, Option.map_some] at hrun
    rcases buffer.runSlot_cases freeList slot s.expireTimeoutSlots with
      ⟨heq, -⟩ | ⟨-, heq⟩ | ⟨hstate, -⟩ | ⟨hstate, -⟩
    · exact ⟨buffer.expiration, hrun.trans (by rw [heq])⟩
    · exact ⟨_, hrun.trans (by rw [heq])⟩
    · rw [hlocked] at hstate
      cases hstate
    · rw [hlocked] at hstate
      cases hstate
  | stop =>
    cases hs'
    exact hsame

/-- A buffer that waits for its retransmission stays as it is, or gives its codeblocks back. -/
theorem Inv.waits (h : s.Inv nofCodeblocks) (hfound : s.buffers[index]? = some buffer)
    (hreserved : buffer.currentState = .reserved)
    (hother : ∀ slot id nof newData, event = .reserve slot id nof newData → buffer.identifier ≠ some id)
    (hs' : s.next event = some s') :
    ∃ buffer', s'.buffers[index]? = some buffer' ∧ (buffer' = buffer ∨ buffer'.codeblockIds = []) := by
  have hkept : ∀ {i : Nat} {b : RxBuffer}, i ≠ index → ∃ buffer', (s.buffers.set i b)[index]? = some buffer' ∧
      (buffer' = buffer ∨ buffer'.codeblockIds = []) := by
    intro i b hne
    exact ⟨buffer, (List.getElem?_set_ne hne).trans hfound, .inl rfl⟩
  have hholder : ∀ {i : Nat} {b : RxBuffer}, s.held i = some b → i ≠ index := by
    rintro i b hb rfl
    obtain ⟨hb, hlocked⟩ := held_eq_some hb
    rw [hfound] at hb
    cases hb
    rw [hreserved] at hlocked
    cases hlocked
  cases event with
  | reserve slot id nof newData =>
    cases hs'
    have hid := hother slot id nof newData rfl
    have hindex : ∀ {i : Nat} {b : RxBuffer}, s.Found id newData i b → i ≠ index := by
      rintro i b hfind rfl
      obtain ⟨id', hid'⟩ := (h.ok hfound).identified (by rw [hreserved]; nofun)
      have hsame := hfind.found
      rw [hfound] at hsame
      cases hsame
      rcases hfind.identifier with hb | ⟨-, hb, -⟩
      · exact hid hb
      · rw [hb] at hid'
        cases hid'
    rcases s.reserve_cases slot id nof newData with heq |
      ⟨i, b, freeList', hfind, -, -, ⟨-, heq⟩ | ⟨ids, -, -, -, -, -, heq⟩⟩
    · rw [heq]
      exact ⟨buffer, hfound, .inl rfl⟩
    · rw [heq]
      exact hkept (hindex hfind)
    · rw [heq]
      exact hkept (hindex hfind)
  | setCrc i crc =>
    obtain ⟨b, hb, hset⟩ := Option.bind_eq_some_iff.mp hs'
    split at hset
    · cases hset
      exact hkept (hholder hb)
    · cases hset
  | unlock i =>
    obtain ⟨b, hb, rfl⟩ := Option.map_eq_some_iff.mp hs'
    exact hkept (hholder hb)
  | release i =>
    obtain ⟨b, hb, rfl⟩ := Option.map_eq_some_iff.mp hs'
    exact hkept (hholder hb)
  | runSlot slot =>
    cases hs'
    obtain ⟨freeList, hrun⟩ := getElem?_runSlotLoop slot s.expireTimeoutSlots s.buffers s.freeList index
    rw [hfound, Option.map_some] at hrun
    refine ⟨_, hrun, ?_⟩
    rcases buffer.runSlot_cases freeList slot s.expireTimeoutSlots with
      ⟨heq, -⟩ | ⟨hstate, -⟩ | ⟨-, heq⟩ | ⟨hstate, -⟩
    · rw [heq]
      exact .inl rfl
    · rw [hreserved] at hstate
      cases hstate
    · rw [heq]
      exact .inr rfl
    · rw [hreserved] at hstate
      cases hstate
  | stop =>
    cases hs'
    exact ⟨buffer, hfound, .inl rfl⟩

/-- An expired buffer that nobody holds has no codeblocks behind `run_slot`. -/
theorem Inv.expires (h : s.Inv nofCodeblocks) (hfound : s.buffers[index]? = some buffer)
    (hunlocked : buffer.currentState ≠ .locked) {slot : SlotPoint} (hexpired : buffer.expiredAt slot = true) :
    ∃ buffer', (s.runSlot slot).buffers[index]? = some buffer' ∧ buffer'.codeblockIds = [] := by
  obtain ⟨freeList, hrun⟩ := getElem?_runSlotLoop slot s.expireTimeoutSlots s.buffers s.freeList index
  rw [hfound, Option.map_some] at hrun
  refine ⟨_, hrun, ?_⟩
  have hok := h.ok hfound
  rcases buffer.runSlot_cases freeList slot s.expireTimeoutSlots with
    ⟨heq, hwhy⟩ | ⟨hstate, -⟩ | ⟨-, heq⟩ | ⟨hstate, heq⟩
  · rw [heq]
    apply hok.available
    by_contra hne
    obtain ⟨id, hid⟩ := hok.identified hne
    rcases hwhy with hnone | ⟨-, hlater⟩ | havailable
    · rw [hid] at hnone
      cases hnone
    · rw [hexpired] at hlater
      cases hlater
    · exact hne havailable
  · exact absurd hstate hunlocked
  · rw [heq]
    rfl
  · rw [heq]
    exact hok.available hstate

/-- The pool of `nofCodeblocks` codeblocks, as its users may rely on it. -/
structure SoftBuffers (nofCodeblocks : Nat) (s : RxBufferPool) : Prop where
  /-- Each codeblock is free or in one buffer. -/
  codeblocks : (s.freeList ++ s.buffers.flatMap (·.codeblockIds)).Perm (List.range nofCodeblocks)
  distinct : Distinct s.buffers
  locked : ∀ (index : Nat) (buffer : RxBuffer) (event : RxBufferEvent) (s' : RxBufferPool),
    s.buffers[index]? = some buffer → buffer.currentState = .locked → ¬HolderEvent index event →
    s.next event = some s' → KeptLocked s s' index buffer
  combines : Combines s.history
  waits : ∀ (index : Nat) (buffer : RxBuffer) (event : RxBufferEvent) (s' : RxBufferPool),
    s.buffers[index]? = some buffer → buffer.currentState = .reserved →
    (∀ slot id nof newData, event = .reserve slot id nof newData → buffer.identifier ≠ some id) →
    s.next event = some s' →
    ∃ buffer', s'.buffers[index]? = some buffer' ∧ (buffer' = buffer ∨ buffer'.codeblockIds = [])
  expires : ∀ (index : Nat) (buffer : RxBuffer) (slot : SlotPoint),
    s.buffers[index]? = some buffer → buffer.currentState ≠ .locked → buffer.expiredAt slot = true →
    ∃ buffer', (s.runSlot slot).buffers[index]? = some buffer' ∧ buffer'.codeblockIds = []

theorem Inv.create (nofBuffers nofCodeblocks expireTimeoutSlots : Nat) :
    (create nofBuffers nofCodeblocks expireTimeoutSlots).Inv nofCodeblocks where
  codeblocks := by simp [RxBufferPool.codeblocks, RxBufferPool.create, List.flatMap_replicate]
  distinct := by
    intro i j buffer other id hbuffer _ hid _
    obtain ⟨-, rfl⟩ := List.mem_replicate.mp (List.mem_of_getElem? hbuffer)
    cases hid
  buffers := by
    intro buffer hbuffer
    obtain ⟨-, rfl⟩ := List.mem_replicate.mp hbuffer
    exact ⟨fun _ => rfl, fun _ => rfl, fun hne => absurd rfl hne, nofun⟩
  combines := by
    intro before after id index content hsplit
    simp [RxBufferPool.create] at hsplit

/-- A pool whose retransmissions never meet an emptied buffer keeps what its users rely on. -/
theorem rxBufferPool_reuse {nofBuffers expireTimeoutSlots : Nat}
    (h : Runs.Reaches next (fun s event => ¬s.Stale event)
      (create nofBuffers nofCodeblocks expireTimeoutSlots) s) : s.SoftBuffers nofCodeblocks := by
  have hinv : s.Inv nofCodeblocks :=
    h.invariant (Inv.create _ _ _) fun _ _ _ hinv hstale hs' => hinv.step hstale hs'
  exact {
    codeblocks := hinv.codeblocks
    distinct := hinv.distinct
    locked := fun _ _ _ _ hfound hlocked hholder hs' => next_keepsLocked hfound hlocked hholder hs'
    combines := hinv.combines
    waits := fun _ _ _ _ hfound hreserved hother hs' => hinv.waits hfound hreserved hother hs'
    expires := fun _ _ _ hfound hunlocked hexpired => hinv.expires hfound hunlocked hexpired }

instance (s : RxBufferPool) : (event : RxBufferEvent) → Decidable (s.Stale event)
  | .reserve _ id nof false => inferInstanceAs (Decidable (s.stopped = false ∧ ∃ buffer ∈ s.buffers,
      buffer.identifier = some id ∧ buffer.currentState = .available ∧ nof = buffer.crc.length ∧
        nof ≤ s.freeList.length))
  | .reserve _ _ _ true => inferInstanceAs (Decidable False)
  | .setCrc _ _ => inferInstanceAs (Decidable False)
  | .unlock _ => inferInstanceAs (Decidable False)
  | .release _ => inferInstanceAs (Decidable False)
  | .runSlot _ => inferInstanceAs (Decidable False)
  | .stop => inferInstanceAs (Decidable False)

/-- A codeblock with a correct CRC is kept for the retransmission. -/
theorem rxBufferPool_reuse_retransmission : ∃ s : RxBufferPool,
    s.history = [.reserved 5 true 0 ([0], [false]), .unlocked (some 5) ([0], [true]),
      .reserved 5 false 0 ([0], [true])] ∧ s.SoftBuffers 2 := by
  have hrun : (Runs.runAll (Runs.guarded next fun s event => ¬s.Stale event) (create 1 2 10)
      [.reserve ⟨0, 0⟩ 5 1 true, .setCrc 0 [true], .unlock 0, .runSlot ⟨0, 1⟩,
        .reserve ⟨0, 4⟩ 5 1 false]).map (·.history) =
      some [.reserved 5 true 0 ([0], [false]), .unlocked (some 5) ([0], [true]),
        .reserved 5 false 0 ([0], [true])] := by decide
  obtain ⟨s, hs, hhistory⟩ := Option.map_eq_some_iff.mp hrun
  exact ⟨s, hhistory, rxBufferPool_reuse (Runs.reaches_of_runGuarded .start hs)⟩

/-- A retransmission finds another codeblock, with the CRC of a reservation that was released. -/
theorem rxBufferPool_released_reused : ∃ s : RxBufferPool,
    Runs.Reaches next (fun _ _ => True) (create 1 2 10) s ∧ ¬s.SoftBuffers 2 := by
  have hrun : (Runs.runAll next (create 1 2 10) [.reserve ⟨0, 0⟩ 5 1 true, .setCrc 0 [true], .release 0,
      .reserve ⟨0, 4⟩ 5 1 false]).map (·.history) =
      some [.reserved 5 true 0 ([0], [false]), .released (some 5), .reserved 5 false 0 ([1], [true])] := by
    decide
  obtain ⟨s, hs, hhistory⟩ := Option.map_eq_some_iff.mp hrun
  refine ⟨s, Runs.reaches_of_runAll .start (fun _ _ _ => trivial) hs, fun hsoft => ?_⟩
  have hleft := hsoft.combines [.reserved 5 true 0 ([0], [false]), .released (some 5)] [] 5 0 ([1], [true])
    hhistory
  exact absurd hleft (by decide)

end RxBufferPool

end Srsran.Phy
