import Mathlib.Data.List.Perm.Subperm
import Srsran.Lib.Placement
import Srsran.Ofh.EthFramePool

/-! Every buffer of the pool is in one place, with the state that belongs there. -/
namespace Srsran.Ofh

inductive Place where
  | freeList (entry : Fin numEntries)
  | pendingList (entry : Fin numEntries)
  | call (call : Nat)
  deriving DecidableEq, Repr

/-- What a buffer is to the list or the call that has it. -/
inductive Role where
  | idle
  | writing
  | waiting
  | queued
  | judged
  | leaving
  deriving DecidableEq, Repr

/-- The buffer has a frame of which nothing has become yet. -/
def FrameBuffer.Live (settled : List Nat) (buffer : FrameBuffer) : Prop :=
  0 < buffer.size ∧ buffer.frame ∉ settled

def FrameBuffer.Writable (settled : List Nat) (buffer : FrameBuffer) : Prop :=
  buffer.state = .reserved ∧ (0 < buffer.size → buffer.Live settled)

def Role.Fits (settled : List Nat) (buffer : FrameBuffer) : Role → Prop
  | .idle => buffer.state = .free ∧ ¬ buffer.Live settled
  | .writing => buffer.Writable settled
  | .waiting => buffer.state = .pending ∧ buffer.Live settled
  | .queued => buffer.state = .queued ∧ ¬ buffer.Live settled
  | .judged => buffer.state = .pending ∧ ¬ buffer.Live settled ∨ buffer.Writable settled
  | .leaving =>
    (buffer.state = .pending ∨ buffer.state = .queued) ∧ ¬ buffer.Live settled ∨ buffer.Writable settled

theorem Role.Fits.congr {settled settled' : List Nat} {buffer : FrameBuffer} {role : Role}
    (h : role.Fits settled buffer) (hlive : buffer.Live settled' ↔ buffer.Live settled) :
    role.Fits settled' buffer := by
  cases role <;> simp only [Role.Fits, FrameBuffer.Writable, hlive] at h ⊢ <;> exact h

def Destination.role : Destination → Role
  | .freeList => .idle
  | .pendingList => .waiting

def Destination.place (entry : Fin numEntries) : Destination → Place
  | .freeList => .freeList entry
  | .pendingList => .pendingList entry

namespace PoolCall

def held : PoolCall → List (BufferId × Role)
  | .reserving id _ => [(id, .idle)]
  | .encoding id => [(id, .writing)]
  | .enqueueing _ popped burst _ => popped.toList.map (·, .waiting) ++ burst.map (·, .queued)
  | .popping _ _ _ burst _ => burst.map (·, .waiting)
  | .judging _ _ rest checked _ => rest.map (·, .waiting) ++ checked.map (·, .judged)
  | .leaving moving burst _ _ =>
    (moving.toList.map fun m => (m.1, m.2.role)) ++ burst.map (·, .leaving)
  | .returned _ => []

def nofLates : PoolCall → Nat
  | .popping _ _ _ _ nofLates | .judging _ _ _ _ nofLates | .leaving _ _ _ nofLates
  | .returned nofLates => nofLates
  | _ => 0

end PoolCall

namespace EthFramePool
variable {s s' : EthFramePool} {place : BufferId → Option Place} {call : Nat} {c c' : PoolCall}
  {id : BufferId} {r r' : Role} {rest : List (BufferId × Role)}

def settledFrames (s : EthFramePool) : List Nat := s.settled.map Prod.fst

def tokens (s : EthFramePool) : Place → List (BufferId × Role)
  | .freeList entry => (s.freeList entry).map fun idx => (⟨entry, idx⟩, .idle)
  | .pendingList entry => (s.pendingList entry).map fun idx => (⟨entry, idx⟩, .waiting)
  | .call call => s.calls[call]?.elim [] PoolCall.held

def ids (s : EthFramePool) (p : Place) : List BufferId := (s.tokens p).map Prod.fst

/-- Every buffer is in one place, as its role there says. -/
structure Owned (s : EthFramePool) (place : BufferId → Option Place) : Prop where
  placed : Placement.Holds s.ids place fun p q => decide (q = p)
  known : ∀ id, (place id).isSome ↔ id.idx < s.nofBuffers
  fits : ∀ p, ∀ t ∈ s.tokens p, t.2.Fits s.settledFrames (s.buffers t.1)

variable {p : Place} {t : BufferId × Role}

section
variable (h : s.Owned place)
include h

theorem Owned.place_eq (hmem : id ∈ s.ids p) : place id = some p := by
  obtain ⟨q, hq, heq⟩ := h.placed.mem_iff.mp hmem
  rw [hq, of_decide_eq_true heq]

variable (hperm : (s.tokens p).Perm ((id, r) :: rest))
include hperm

theorem Owned.place_of_perm : place id = some p :=
  h.place_eq (List.mem_map.mpr ⟨(id, r), hperm.mem_iff.mpr List.mem_cons_self, rfl⟩)

theorem Owned.idx_lt : id.idx < s.nofBuffers := by
  rw [← h.known, h.place_of_perm hperm]
  rfl

theorem Owned.ne_of_rest (ht : t ∈ rest) : t.1 ≠ id := by
  have hnodup := (hperm.map Prod.fst).nodup_iff.mp (h.placed.nodup p)
  rw [List.map_cons, List.nodup_cons] at hnodup
  intro heq
  exact hnodup.1 (List.mem_map.mpr ⟨t, ht, heq⟩)

theorem Owned.ne_of_other {q : Place} (hpq : q ≠ p) (ht : t ∈ s.tokens q) : t.1 ≠ id := by
  rintro rfl
  have hq := h.place_eq (List.mem_map_of_mem ht)
  rw [h.place_of_perm hperm] at hq
  exact hpq (Option.some.inj hq).symm

theorem Owned.fits_of_perm : r.Fits s.settledFrames (s.buffers id) :=
  h.fits p _ (hperm.mem_iff.mpr List.mem_cons_self)

end

theorem tokens_call (hcall : s.calls[call]? = some c) : s.tokens (.call call) = c.held := by
  simp [tokens, hcall]

structure SetsCall (s s' : EthFramePool) (call : Nat) (c' : PoolCall) : Prop where
  nofBuffers : s'.nofBuffers = s.nofBuffers
  freeList : s'.freeList = s.freeList
  pendingList : s'.pendingList = s.pendingList
  calls : s'.calls = s.calls.set call c'

theorem SetsCall.tokens_self (h : s.SetsCall s' call c') (hcall : s.calls[call]? = some c) :
    s'.tokens (.call call) = c'.held := by
  obtain ⟨hlt, -⟩ := List.getElem?_eq_some_iff.mp hcall
  simp [tokens, h.calls, List.getElem?_set_self hlt]

theorem SetsCall.tokens_of_ne (h : s.SetsCall s' call c') (hp : p ≠ .call call) :
    s'.tokens p = s.tokens p := by
  cases p with
  | freeList entry => simp only [tokens, h.freeList]
  | pendingList entry => simp only [tokens, h.pendingList]
  | call other =>
    have hne : call ≠ other := fun heq => hp (by rw [heq])
    simp only [tokens, h.calls, List.getElem?_set_ne hne]

theorem Owned.relabel (h : s.Owned place) (hcall : s.calls[call]? = some c)
    (hset : s.SetsCall s' call c') (hbuffers : s'.buffers = s.buffers) (hsettled : s'.settled = s.settled)
    (hheld : (c'.held.map Prod.fst).Perm (c.held.map Prod.fst))
    (hfits : (∀ t ∈ c.held, t.2.Fits s.settledFrames (s.buffers t.1)) →
      ∀ t ∈ c'.held, t.2.Fits s.settledFrames (s.buffers t.1)) : s'.Owned place where
  placed := by
    refine h.placed.perm fun p => ?_
    by_cases hp : p = .call call
    · rw [hp, ids, ids, hset.tokens_self hcall, tokens_call hcall]
      exact hheld
    · rw [ids, hset.tokens_of_ne hp]
      exact .refl _
  known := by
    rw [hset.nofBuffers]
    exact h.known
  fits := by
    intro p t ht
    rw [settledFrames, hsettled, hbuffers]
    by_cases hp : p = .call call
    · subst hp
      rw [hset.tokens_self hcall] at ht
      exact hfits (fun t ht => h.fits (.call call) t (by rwa [tokens_call hcall])) t ht
    · rw [hset.tokens_of_ne hp] at ht
      exact h.fits p t ht

/-- What the other buffers keep when one of them changes. -/
structure KeepsOthers (s s' : EthFramePool) (id : BufferId) : Prop where
  buffers : ∀ id', id' ≠ id → s'.buffers id' = s.buffers id'
  live : ∀ id', id' ≠ id → ((s.buffers id').Live s'.settledFrames ↔ (s.buffers id').Live s.settledFrames)

theorem KeepsOthers.fits (h : s.KeepsOthers s' id) (hne : t.1 ≠ id)
    (hfits : t.2.Fits s.settledFrames (s.buffers t.1)) : t.2.Fits s'.settledFrames (s'.buffers t.1) := by
  rw [h.buffers t.1 hne]
  exact hfits.congr (h.live t.1 hne)

theorem Owned.exchange (h : s.Owned place) (r' : Role) (hcall : s.calls[call]? = some c)
    (hset : s.SetsCall s' call c') (hheld : c.held.Perm ((id, r) :: rest))
    (hheld' : c'.held.Perm ((id, r') :: rest)) (hothers : s.KeepsOthers s' id)
    (hfits : r'.Fits s'.settledFrames (s'.buffers id)) : s'.Owned place where
  placed := by
    refine h.placed.perm fun p => ?_
    by_cases hp : p = .call call
    · rw [hp, ids, ids, hset.tokens_self hcall, tokens_call hcall]
      exact (hheld'.map Prod.fst).trans (hheld.map Prod.fst).symm
    · rw [ids, hset.tokens_of_ne hp]
      exact .refl _
  known := by
    rw [hset.nofBuffers]
    exact h.known
  fits := by
    intro p t ht
    rw [← tokens_call hcall] at hheld
    by_cases hp : p = .call call
    · subst hp
      rw [hset.tokens_self hcall] at ht
      rcases List.mem_cons.mp (hheld'.mem_iff.mp ht) with rfl | ht
      · exact hfits
      · exact hothers.fits (h.ne_of_rest hheld ht)
          (h.fits _ t (hheld.mem_iff.mpr (List.mem_cons_of_mem _ ht)))
    · rw [hset.tokens_of_ne hp] at ht
      exact hothers.fits (h.ne_of_other hheld hp ht) (h.fits p t ht)

theorem Owned.move (h : s.Owned place) {q : Place} (hpq : p ≠ q)
    (hfrom : (s.tokens p).Perm ((id, r) :: s'.tokens p))
    (hto : (s'.tokens q).Perm ((id, r) :: s.tokens q))
    (hsame : ∀ o, o ≠ p → o ≠ q → s'.tokens o = s.tokens o) (hnof : s'.nofBuffers = s.nofBuffers)
    (hbuffers : s'.buffers = s.buffers) (hsettled : s'.settled = s.settled) :
    s'.Owned (Function.update place id (some q)) where
  placed := by
    refine h.placed.move (h.place_of_perm hfrom) (fun o => rfl) (fun o => rfl) fun o k => ?_
    by_cases hp : o = p
    · have hcount := (hfrom.map Prod.fst).count_eq k
      rw [List.map_cons, List.count_cons] at hcount
      rw [hp, ids, ids, hcount]
      by_cases hk : k = id
      · simp [hk, hpq]
      · simp [hk, Ne.symm hk]
    · by_cases hq : o = q
      · have hcount := (hto.map Prod.fst).count_eq k
        rw [List.map_cons, List.count_cons] at hcount
        rw [hq, ids, ids, hcount]
        by_cases hk : k = id
        · simp [hk, hpq.symm]
        · simp [hk, Ne.symm hk]
      · rw [ids, ids, hsame o hp hq]
        simp [hp, hq]
  known := by
    intro k
    rw [hnof, ← h.known k]
    by_cases hk : k = id
    · rw [hk, Function.update_self, h.place_of_perm hfrom]
      rfl
    · rw [Function.update_of_ne hk]
  fits := by
    intro o t ht
    rw [settledFrames, hsettled, hbuffers]
    by_cases hp : o = p
    · rw [hp] at ht
      exact h.fits p t (hfrom.mem_iff.mpr (List.mem_cons_of_mem _ ht))
    · by_cases hq : o = q
      · rw [hq] at ht
        rcases List.mem_cons.mp (hto.mem_iff.mp ht) with rfl | ht
        · exact h.fits_of_perm hfrom
        · exact h.fits q t ht
      · rw [hsame o hp hq] at ht
        exact h.fits o t ht

/-- Only one list has changed, apart from the calls. -/
structure SetsList (s s' : EthFramePool) (destination : Destination) (entry : Fin numEntries)
    (list : List Nat) : Prop where
  nofBuffers : s'.nofBuffers = s.nofBuffers
  buffers : s'.buffers = s.buffers
  settled : s'.settled = s.settled
  freeList : s'.freeList =
    if destination = .freeList then Function.update s.freeList entry list else s.freeList
  pendingList : s'.pendingList =
    if destination = .pendingList then Function.update s.pendingList entry list else s.pendingList

def listOf (s : EthFramePool) (entry : Fin numEntries) : Destination → List Nat
  | .freeList => s.freeList entry
  | .pendingList => s.pendingList entry

variable {destination : Destination} {entry : Fin numEntries} {list : List Nat}

theorem tokens_listOf (s : EthFramePool) (destination : Destination) (entry : Fin numEntries) :
    s.tokens (destination.place entry) =
      (s.listOf entry destination).map fun idx => (⟨entry, idx⟩, destination.role) := by
  cases destination <;> rfl

theorem SetsList.tokens_self (h : s.SetsList s' destination entry list) :
    s'.tokens (destination.place entry) = list.map fun idx => (⟨entry, idx⟩, destination.role) := by
  cases destination with
  | freeList => simp [Destination.place, Destination.role, tokens, h.freeList]
  | pendingList => simp [Destination.place, Destination.role, tokens, h.pendingList]

theorem SetsList.tokens_of_ne (h : s.SetsList s' destination entry list)
    (hp : p ≠ destination.place entry) (hcall : ∀ call, p = .call call → s'.tokens p = s.tokens p) :
    s'.tokens p = s.tokens p := by
  cases p with
  | call call => exact hcall call rfl
  | freeList other =>
    simp only [tokens, h.freeList]
    split
    · rename_i heq
      subst heq
      rw [Function.update_of_ne fun heq => hp (by rw [heq]; rfl)]
    · rfl
  | pendingList other =>
    simp only [tokens, h.pendingList]
    split
    · rename_i heq
      subst heq
      rw [Function.update_of_ne fun heq => hp (by rw [heq]; rfl)]
    · rfl

theorem place_ne_call (destination : Destination) (entry : Fin numEntries) (call : Nat) :
    destination.place entry ≠ .call call := by
  cases destination <;> exact nofun

theorem Owned.pop (h : s.Owned place) (call : Nat) {idx : Nat} {tail : List Nat}
    (hlist : s.listOf entry destination = idx :: tail) (hset : s.SetsList s' destination entry tail)
    (hto : (s'.tokens (.call call)).Perm ((⟨entry, idx⟩, destination.role) :: s.tokens (.call call)))
    (hcalls : ∀ other, other ≠ call → s'.calls[other]? = s.calls[other]?) :
    ∃ place, s'.Owned place := by
  have hfrom : (s.tokens (destination.place entry)).Perm
      ((⟨entry, idx⟩, destination.role) :: s'.tokens (destination.place entry)) := by
    rw [hset.tokens_self, tokens_listOf, hlist]
    exact .refl _
  refine ⟨_, h.move (place_ne_call destination entry call) hfrom hto ?_ hset.nofBuffers hset.buffers
    hset.settled⟩
  intro o hp hq
  refine hset.tokens_of_ne hp fun other ho => ?_
  subst ho
  have hne : other ≠ call := fun heq => hq (by rw [heq])
  simp only [tokens, hcalls other hne]

theorem Owned.push (h : s.Owned place) (call : Nat)
    (hset : s.SetsList s' destination id.entry (s.listOf id.entry destination ++ [id.idx]))
    (hfrom : (s.tokens (.call call)).Perm ((id, destination.role) :: s'.tokens (.call call)))
    (hcalls : ∀ other, other ≠ call → s'.calls[other]? = s.calls[other]?) :
    ∃ place, s'.Owned place := by
  refine ⟨_, h.move (place_ne_call destination id.entry call).symm hfrom ?_ ?_ hset.nofBuffers hset.buffers
    hset.settled⟩
  · rw [hset.tokens_self, tokens_listOf, List.map_append]
    exact List.perm_append_comm
  · intro o hp hq
    refine hset.tokens_of_ne hq fun other ho => ?_
    subst ho
    have hne : other ≠ call := fun heq => hp (by rw [heq])
    simp only [tokens, hcalls other hne]

theorem Owned.room (h : s.Owned place)
    (hheld : (s.tokens (.call call)).Perm ((id, destination.role) :: rest)) :
    (s.listOf id.entry destination).length < s.nofBuffers := by
  have hplace := h.place_of_perm hheld
  have hnot : id.idx ∉ s.listOf id.entry destination := by
    intro hmem
    have hthere : id ∈ s.ids (destination.place id.entry) := by
      rw [ids, tokens_listOf, List.map_map]
      exact List.mem_map.mpr ⟨id.idx, hmem, rfl⟩
    rw [h.place_eq hthere] at hplace
    exact place_ne_call destination id.entry call (Option.some.inj hplace)
  have hnodup : (id.idx :: s.listOf id.entry destination).Nodup := by
    refine List.nodup_cons.mpr ⟨hnot, List.Nodup.of_map (fun idx => (⟨id.entry, idx⟩ : BufferId)) ?_⟩
    have hlist := h.placed.nodup (destination.place id.entry)
    rwa [ids, tokens_listOf, List.map_map] at hlist
  have hsubset : id.idx :: s.listOf id.entry destination ⊆ List.range s.nofBuffers := by
    intro idx hidx
    rw [List.mem_range]
    rcases List.mem_cons.mp hidx with rfl | hidx
    · exact h.idx_lt hheld
    · have hthere : (⟨id.entry, idx⟩ : BufferId) ∈ s.ids (destination.place id.entry) := by
        rw [ids, tokens_listOf, List.map_map]
        exact List.mem_map.mpr ⟨idx, hidx, rfl⟩
      have hknown := (h.known ⟨id.entry, idx⟩).mp (by rw [h.place_eq hthere]; rfl)
      exact hknown
  have hlength := (List.Nodup.subperm hnodup hsubset).length_le
  rw [List.length_cons, List.length_range] at hlength
  exact hlength

end EthFramePool

end Srsran.Ofh
