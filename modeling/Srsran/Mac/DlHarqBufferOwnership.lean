import Srsran.Mac.DlHarqBufferPool
import Mathlib.Tactic.Ring
import Mathlib.Data.List.Nodup
import Mathlib.Data.List.Induction

/-! Ownership of DL HARQ buffers. A function from buffers to owners describes the three places where a
buffer can be, and every operation hands buffers from one owner to another. -/
namespace Srsran.Mac
namespace CellDlHarqBufferPool
variable {s s' : CellDlHarqBufferPool}

inductive BufferOwner where
  | pool
  | cache
  | ue (ueIndex : Nat)
  deriving DecidableEq, Repr

structure OwnedOnce (s : CellDlHarqBufferPool) : Prop where
  cacheNodup : s.bufferCache.Nodup
  ueNodup : ∀ i, (s.cellBuffers i).Nodup
  owner : ∃ owner : Nat → BufferOwner, ∀ b < dlHarqPoolSize,
    (b < s.poolElemIndex ↔ owner b = .pool) ∧ (b ∈ s.bufferCache ↔ owner b = .cache) ∧
      ∀ i, b ∈ s.cellBuffers i ↔ owner b = .ue i

/-- What is kept by every operation; `owner` tells where each buffer is. -/
structure PoolInv (s : CellDlHarqBufferPool) (owner : Nat → BufferOwner) : Prop where
  pool : ∀ b, b < s.poolElemIndex ↔ b < dlHarqPoolSize ∧ owner b = .pool
  cache : ∀ b, b ∈ s.bufferCache ↔ b < dlHarqPoolSize ∧ owner b = .cache
  ue : ∀ i b, b ∈ s.cellBuffers i ↔ b < dlHarqPoolSize ∧ owner b = .ue i
  cacheNodup : s.bufferCache.Nodup
  ueNodup : ∀ i, (s.cellBuffers i).Nodup
  untouched : ∀ b < s.poolElemIndex, s.refCnt b = 0

variable {owner : Nat → BufferOwner}

theorem PoolInv.ownedOnce (h : PoolInv s owner) : OwnedOnce s where
  __ := h
  owner := by
    refine ⟨owner, fun b hb => ⟨?_, ?_, fun i => ?_⟩⟩
    · rw [h.pool, and_iff_right hb]
    · rw [h.cache, and_iff_right hb]
    · rw [h.ue, and_iff_right hb]

theorem PoolInv.start : PoolInv {} fun _ => .pool where
  pool := fun b => (and_iff_left rfl).symm
  cache := fun b => by simp
  ue := fun i b => by simp
  cacheNodup := List.nodup_nil
  ueNodup := fun _ => List.nodup_nil
  untouched := fun _ _ => rfl

variable {b : Nat}

theorem takeLastFree_some {refCnt : Nat → Nat} {cache rest : List Nat}
    (h : takeLastFree refCnt cache = some (b, rest)) : cache.Perm (b :: rest) ∧ refCnt b = 0 := by
  induction cache generalizing rest with
  | nil => cases h
  | cons c cache ih =>
    rw [takeLastFree] at h
    split at h
    · rename_i taken rest' htaken
      cases h
      obtain ⟨hperm, hfree⟩ := ih htaken
      exact ⟨(hperm.cons c).trans (.swap b c rest'), hfree⟩
    · split at h
      · cases h
        exact ⟨.refl _, ‹_›⟩
      · cases h

theorem takeLastFree_none {refCnt : Nat → Nat} {cache : List Nat}
    (h : takeLastFree refCnt cache = none) : ∀ b ∈ cache, refCnt b ≠ 0 := by
  induction cache with
  | nil => nofun
  | cons c cache ih =>
    rw [takeLastFree] at h
    split at h
    · cases h
    · rename_i hnone
      split at h
      · cases h
      · exact List.forall_mem_cons.mpr ⟨‹_›, ih hnone⟩

/-- The buffer that `allocate_from_pool` returns, while nobody owns it. -/
structure Taken (s : CellDlHarqBufferPool) (owner : Nat → BufferOwner) (b : Nat) : Prop where
  lt : b < dlHarqPoolSize
  pool : ∀ c, c < s.poolElemIndex ↔ c < dlHarqPoolSize ∧ owner c = .pool ∧ c ≠ b
  cache : ∀ c, c ∈ s.bufferCache ↔ c < dlHarqPoolSize ∧ owner c = .cache ∧ c ≠ b
  ue : ∀ i c, c ∈ s.cellBuffers i ↔ c < dlHarqPoolSize ∧ owner c = .ue i ∧ c ≠ b
  cacheNodup : s.bufferCache.Nodup
  ueNodup : ∀ i, (s.cellBuffers i).Nodup
  untouched : ∀ c < s.poolElemIndex, s.refCnt c = 0
  free : s.refCnt b = 0

theorem PoolInv.allocateFromPool (h : PoolInv s owner) (htake : s.allocateFromPool = some (b, s')) :
    Taken s' owner b ∧ s' = { s with poolElemIndex := b } := by
  rw [CellDlHarqBufferPool.allocateFromPool] at htake
  split at htake
  · cases htake
  rename_i hpool
  cases htake
  have hpos : s.poolElemIndex ≠ 0 := by simpa [isPoolDepleted] using hpool
  obtain ⟨hlt, howner⟩ := (h.pool (s.poolElemIndex - 1)).mp (by omega)
  have hother : ∀ c, owner c ≠ .pool → c ≠ s.poolElemIndex - 1 := by
    rintro c hne rfl
    exact hne howner
  refine ⟨⟨hlt, fun c => ?_, fun c => ?_, fun i c => ?_, h.cacheNodup, h.ueNodup, ?_, ?_⟩, rfl⟩
  · rw [← and_assoc, ← h.pool]
    show c < s.poolElemIndex - 1 ↔ _
    omega
  · rw [← and_assoc, ← h.cache, iff_self_and]
    intro hc
    exact hother c (((h.cache c).mp hc).2 ▸ nofun)
  · rw [← and_assoc, ← h.ue, iff_self_and]
    intro hc
    exact hother c (((h.ue i c).mp hc).2 ▸ nofun)
  · intro c hc
    exact h.untouched c (hc.trans_le (Nat.sub_le _ _))
  · exact h.untouched _ (by omega)

theorem PoolInv.allocateFromCache (h : PoolInv s owner) (htake : s.allocateFromCache = some (b, s')) :
    Taken s' owner b ∧ ∃ rest, s' = { s with bufferCache := rest } ∧
      s.bufferCache.Perm (b :: rest) := by
  rw [CellDlHarqBufferPool.allocateFromCache] at htake
  split at htake
  · cases htake
  rename_i taken rest hlast
  cases htake
  obtain ⟨hperm, hfree⟩ := takeLastFree_some hlast
  have hnodup := hperm.nodup_iff.mp h.cacheNodup
  obtain ⟨hb, hrest⟩ := List.nodup_cons.mp hnodup
  obtain ⟨hlt, howner⟩ := (h.cache b).mp (hperm.mem_iff.mpr List.mem_cons_self)
  have hother : ∀ c, owner c ≠ .cache → c ≠ b := by
    rintro c hne rfl
    exact hne howner
  refine ⟨⟨hlt, fun c => ?_, fun c => ?_, fun i c => ?_, hrest, h.ueNodup, h.untouched, hfree⟩,
    rest, rfl, hperm⟩
  · rw [← and_assoc, ← h.pool, iff_self_and]
    intro hc
    exact hother c (((h.pool c).mp hc).2 ▸ nofun)
  · rw [← and_assoc, ← h.cache, hperm.mem_iff, List.mem_cons]
    constructor
    · intro hc
      exact ⟨.inr hc, fun heq => hb (heq ▸ hc)⟩
    · rintro ⟨rfl | hc, hne⟩
      · exact absurd rfl hne
      · exact hc
  · rw [← and_assoc, ← h.ue, iff_self_and]
    intro hc
    exact hother c (((h.ue i c).mp hc).2 ▸ nofun)

theorem owner_update {c : Nat} {o o' : BufferOwner} (hlt : b < dlHarqPoolSize) :
    (c < dlHarqPoolSize ∧ Function.update owner b o c = o') ↔
      (c < dlHarqPoolSize ∧ owner c = o' ∧ c ≠ b) ∨ c = b ∧ o = o' := by
  by_cases hcb : c = b
  · subst hcb
    simp [hlt]
  · simp [hcb]

theorem Taken.cacheBuffer (h : Taken s owner b) :
    PoolInv (s.cacheBuffer b) (Function.update owner b .cache) where
  pool := fun c => by
    rw [owner_update h.lt]
    simpa [CellDlHarqBufferPool.cacheBuffer] using h.pool c
  cache := fun c => by
    rw [owner_update h.lt, ← h.cache]
    simp [CellDlHarqBufferPool.cacheBuffer]
  ue := fun i c => by
    rw [owner_update h.lt]
    simpa [CellDlHarqBufferPool.cacheBuffer] using h.ue i c
  cacheNodup := by
    refine List.nodup_append.mpr ⟨h.cacheNodup, List.pairwise_singleton _ _, ?_⟩
    rintro c hc d hd rfl
    rw [List.mem_singleton.mp hd] at hc
    exact ((h.cache b).mp hc).2.2 rfl
  __ := h

theorem Taken.giveBuffer (h : Taken s owner b) (ueIndex : Nat) :
    PoolInv (s.giveBuffer ueIndex b) (Function.update owner b (.ue ueIndex)) where
  pool := fun c => by
    rw [owner_update h.lt]
    simpa [CellDlHarqBufferPool.giveBuffer] using h.pool c
  cache := fun c => by
    rw [owner_update h.lt]
    simpa [CellDlHarqBufferPool.giveBuffer] using h.cache c
  ue := fun i c => by
    rw [owner_update h.lt, ← h.ue]
    by_cases hi : i = ueIndex
    · subst hi
      simp [CellDlHarqBufferPool.giveBuffer]
    · simp [CellDlHarqBufferPool.giveBuffer, hi, Ne.symm hi]
  cacheNodup := h.cacheNodup
  ueNodup := by
    intro i
    by_cases hi : i = ueIndex
    · subst hi
      simp only [CellDlHarqBufferPool.giveBuffer, Function.update_self]
      refine List.nodup_append.mpr ⟨h.ueNodup i, List.pairwise_singleton _ _, ?_⟩
      rintro c hc d hd rfl
      rw [List.mem_singleton.mp hd] at hc
      exact ((h.ue i b).mp hc).2.2 rfl
    · simp only [CellDlHarqBufferPool.giveBuffer, Function.update_of_ne hi]
      exact h.ueNodup i
  untouched := h.untouched

theorem fillCache_inv (turns : Nat) (h : PoolInv s owner) :
    ∃ owner', PoolInv (fillCache turns s).1 owner' := by
  induction turns generalizing s owner with
  | zero => exact ⟨owner, h⟩
  | succ turns ih =>
    rw [fillCache]
    split
    · exact ⟨owner, h⟩
    · rename_i htake
      exact ih (h.allocateFromPool htake).1.cacheBuffer

theorem create_inv : ∃ owner, PoolInv create owner := fillCache_inv _ .start

/-- What a UE gets, the others do not lose, and nothing refers to it. -/
structure Given (ueIndex : Nat) (s s' : CellDlHarqBufferPool) : Prop where
  refCnt : s'.refCnt = s.refCnt
  others : ∀ i ≠ ueIndex, s'.cellBuffers i = s.cellBuffers i
  free : ∀ b ∈ s'.cellBuffers ueIndex, b ∈ s.cellBuffers ueIndex ∨ s.refCnt b = 0

theorem Given.refl (ueIndex : Nat) (s : CellDlHarqBufferPool) : Given ueIndex s s :=
  ⟨rfl, fun _ _ => rfl, fun _ hb => .inl hb⟩

variable {ueIndex : Nat}

theorem Given.trans {mid : CellDlHarqBufferPool} (h : Given ueIndex s mid)
    (h' : Given ueIndex mid s') : Given ueIndex s s' where
  refCnt := h'.refCnt.trans h.refCnt
  others := fun i hi => (h'.others i hi).trans (h.others i hi)
  free := by
    intro b hb
    rcases h'.free b hb with hmid | hfree
    · exact h.free b hmid
    · exact .inr (h.refCnt ▸ hfree)

theorem given_giveBuffer (hfree : s.refCnt b = 0) : Given ueIndex s (s.giveBuffer ueIndex b) where
  refCnt := rfl
  others := fun i hi => Function.update_of_ne hi _ _
  free := by
    intro c hc
    simp only [giveBuffer, Function.update_self, List.mem_append, List.mem_singleton] at hc
    rcases hc with hc | rfl
    · exact .inl hc
    · exact .inr hfree

/-- One turn of the loop takes a free buffer that nobody owns then. -/
theorem PoolInv.takeBuffer (h : PoolInv s owner)
    (htake : (if s.bufferCache.isEmpty then s.allocateFromPool else s.allocateFromCache) =
      some (b, s')) : Taken s' owner b ∧ s'.cellBuffers = s.cellBuffers ∧ s'.refCnt = s.refCnt := by
  split at htake
  · obtain ⟨htaken, rfl⟩ := h.allocateFromPool htake
    exact ⟨htaken, rfl, rfl⟩
  · obtain ⟨htaken, rest, rfl, -⟩ := h.allocateFromCache htake
    exact ⟨htaken, rfl, rfl⟩

theorem growUeList_inv (ueIndex turns : Nat) (h : PoolInv s owner) :
    (∃ owner', PoolInv (growUeList ueIndex turns s).1 owner') ∧
      Given ueIndex s (growUeList ueIndex turns s).1 := by
  induction turns generalizing s owner with
  | zero => exact ⟨⟨owner, h⟩, .refl ueIndex s⟩
  | succ turns ih =>
    rw [growUeList]
    split
    · exact ⟨⟨owner, h⟩, .refl ueIndex s⟩
    · rename_i b mid htake
      obtain ⟨htaken, hcells, hrefs⟩ := h.takeBuffer htake
      obtain ⟨hinv, hgiven⟩ := ih (htaken.giveBuffer ueIndex)
      have hmid : Given ueIndex s mid := by
        refine ⟨hrefs, fun i _ => by rw [hcells], fun c hc => .inl ?_⟩
        rwa [hcells] at hc
      exact ⟨hinv, (hmid.trans (given_giveBuffer htaken.free)).trans hgiven⟩

def freeCached (s : CellDlHarqBufferPool) : Nat := s.bufferCache.countP (s.refCnt · = 0)

theorem freeCached_le (s : CellDlHarqBufferPool) : s.freeCached ≤ s.bufferCache.length :=
  List.countP_le_length

theorem growUeList_completes_iff (ueIndex turns : Nat) (h : PoolInv s owner) :
    (growUeList ueIndex turns s).2 = true ↔ turns ≤ s.freeCached ∨
      s.freeCached = s.bufferCache.length ∧ turns ≤ s.freeCached + s.poolElemIndex := by
  induction turns generalizing s owner with
  | zero => simp [growUeList]
  | succ turns ih =>
    have hle := s.freeCached_le
    rw [growUeList]
    by_cases hempty : s.bufferCache = []
    · have hcached : s.freeCached = 0 := by simp [freeCached, hempty]
      have hlength : s.bufferCache.length = 0 := by simp [hempty]
      rw [if_pos (by simp [hempty])]
      split
      · rename_i hnone
        have hpool : s.poolElemIndex = 0 := by
          simpa [CellDlHarqBufferPool.allocateFromPool, isPoolDepleted] using hnone
        simp only [Bool.false_eq_true, false_iff]
        omega
      · rename_i b mid htake
        obtain ⟨htaken, rfl⟩ := h.allocateFromPool htake
        have hcached' : freeCached (giveBuffer { s with poolElemIndex := b } ueIndex b) = 0 :=
          hcached
        have hpool : s.poolElemIndex = b + 1 := by
          simp only [CellDlHarqBufferPool.allocateFromPool, isPoolDepleted, decide_eq_true_eq,
            Option.ite_none_left_eq_some, Option.some.injEq, Prod.mk.injEq] at htake
          omega
        rw [ih (htaken.giveBuffer ueIndex), hcached', hcached, hlength]
        show _ ∨ 0 = s.bufferCache.length ∧ turns ≤ 0 + b ↔ _
        omega
    · have hpos : 0 < s.bufferCache.length := List.length_pos_iff.mpr hempty
      rw [if_neg (by simpa using hempty)]
      split
      · rename_i hnone
        have hcached : s.freeCached = 0 := by
          rw [freeCached, List.countP_eq_zero]
          intro b hb
          have hlast : takeLastFree s.refCnt s.bufferCache = none := by
            rw [CellDlHarqBufferPool.allocateFromCache] at hnone
            split at hnone
            · assumption
            · cases hnone
          simpa using takeLastFree_none hlast b hb
        simp only [Bool.false_eq_true, false_iff]
        omega
      · rename_i b mid htake
        obtain ⟨htaken, rest, rfl, hperm⟩ := h.allocateFromCache htake
        have hfree : s.refCnt b = 0 := htaken.free
        have hlength : s.bufferCache.length = rest.length + 1 := hperm.length_eq
        have hcached : s.freeCached =
            freeCached (giveBuffer { s with bufferCache := rest } ueIndex b) + 1 := by
          rw [freeCached, hperm.countP_eq, List.countP_cons_of_pos (by simp [hfree])]
          rfl
        rw [ih (htaken.giveBuffer ueIndex), hcached, hlength]
        show _ ∨ _ = rest.length ∧ turns ≤ _ + s.poolElemIndex ↔ _
        omega

theorem giveBuffer_length (s : CellDlHarqBufferPool) (ueIndex b : Nat) :
    ((s.giveBuffer ueIndex b).cellBuffers ueIndex).length =
      (s.cellBuffers ueIndex).length + 1 := by
  simp [giveBuffer]

theorem growUeList_length_iff (ueIndex turns : Nat) (h : PoolInv s owner) :
    ((growUeList ueIndex turns s).1.cellBuffers ueIndex).length =
        (s.cellBuffers ueIndex).length + turns ↔ (growUeList ueIndex turns s).2 = true := by
  induction turns generalizing s owner with
  | zero => simp [growUeList]
  | succ turns ih =>
    rw [growUeList]
    split
    · simp
    · rename_i b mid htake
      obtain ⟨htaken, hcells, -⟩ := h.takeBuffer htake
      rw [← ih (htaken.giveBuffer ueIndex), giveBuffer_length, hcells]
      omega

theorem PoolInv.congr (h : PoolInv s owner) (hindex : s'.poolElemIndex = s.poolElemIndex)
    (hcache : s'.bufferCache = s.bufferCache) (hcells : s'.cellBuffers = s.cellBuffers)
    (hrefs : ∀ b < s.poolElemIndex, s'.refCnt b = 0) : PoolInv s' owner where
  pool := by rw [hindex]; exact h.pool
  cache := by rw [hcache]; exact h.cache
  ue := by rw [hcells]; exact h.ue
  cacheNodup := by rw [hcache]; exact h.cacheNodup
  ueNodup := by rw [hcells]; exact h.ueNodup
  untouched := by rw [hindex]; exact hrefs

theorem growCacheInBackground_fields (s : CellDlHarqBufferPool) (deferred : Bool) :
    ∃ tasks, s.growCacheInBackground deferred = { s with ctrlExec := tasks } := by
  unfold growCacheInBackground
  split
  · exact ⟨_, rfl⟩
  split
  · exact ⟨_, rfl⟩
  split
  · exact ⟨_, rfl⟩
  · exact ⟨_, rfl⟩

theorem PoolInv.growCacheInBackground (h : PoolInv s owner) (deferred : Bool) :
    PoolInv (s.growCacheInBackground deferred) owner := by
  obtain ⟨tasks, hgrow⟩ := growCacheInBackground_fields s deferred
  rw [hgrow]
  exact h.congr rfl rfl rfl h.untouched

theorem cellBuffers_allocateUeBuffers (hnew : s.cellBuffers ueIndex = []) (nofHarqs : Nat)
    (deferred : Bool) :
    (s.allocateUeBuffers ueIndex nofHarqs deferred).cellBuffers =
      (growUeList ueIndex nofHarqs s).1.cellBuffers := by
  rw [allocateUeBuffers, if_neg (by simp [hnew])]
  split
  · rename_i hgrow
    rw [hgrow]
  · rename_i mid hgrow
    obtain ⟨tasks, hsame⟩ := growCacheInBackground_fields mid deferred
    rw [hsame, hgrow]

theorem PoolInv.allocateUeBuffers (h : PoolInv s owner) (ueIndex nofHarqs : Nat)
    (deferred : Bool) :
    (∃ owner', PoolInv (s.allocateUeBuffers ueIndex nofHarqs deferred) owner') ∧
      Given ueIndex s (s.allocateUeBuffers ueIndex nofHarqs deferred) := by
  obtain ⟨⟨owner', hinv⟩, hgiven⟩ := growUeList_inv ueIndex nofHarqs h
  rw [CellDlHarqBufferPool.allocateUeBuffers]
  split
  · exact ⟨⟨owner, h⟩, .refl ueIndex s⟩
  split
  · rename_i hgrow
    rw [hgrow] at hinv hgiven
    exact ⟨⟨owner', hinv⟩, hgiven⟩
  · rename_i mid hgrow
    rw [hgrow] at hinv hgiven
    refine ⟨⟨owner', hinv.growCacheInBackground deferred⟩, ?_⟩
    obtain ⟨tasks, hsame⟩ := growCacheInBackground_fields mid deferred
    rw [hsame]
    exact ⟨hgiven.refCnt, hgiven.others, hgiven.free⟩

theorem PoolInv.deallocateUeBuffers (h : PoolInv s owner) (ueIndex : Nat) :
    PoolInv (s.deallocateUeBuffers ueIndex)
      (fun b => if owner b = .ue ueIndex then .cache else owner b) where
  pool := fun b => by
    rw [show b < (s.deallocateUeBuffers ueIndex).poolElemIndex ↔ _ from h.pool b]
    by_cases hb : owner b = .ue ueIndex <;> simp [hb]
  cache := fun b => by
    rw [CellDlHarqBufferPool.deallocateUeBuffers, List.mem_append, h.cache, h.ue]
    by_cases hb : owner b = .ue ueIndex <;> simp [hb]
  ue := fun i b => by
    by_cases hi : i = ueIndex
    · subst hi
      by_cases hb : owner b = .ue i <;> simp [CellDlHarqBufferPool.deallocateUeBuffers, hb]
    · simp only [CellDlHarqBufferPool.deallocateUeBuffers, Function.update_of_ne hi, h.ue]
      by_cases hb : owner b = .ue ueIndex
      · simp [hb, Ne.symm hi]
      · simp [hb]
  cacheNodup := by
    refine List.nodup_append.mpr ⟨h.cacheNodup, h.ueNodup ueIndex, ?_⟩
    rintro b hb c hc rfl
    exact nomatch ((h.cache b).mp hb).2.symm.trans ((h.ue ueIndex b).mp hc).2
  ueNodup := by
    intro i
    by_cases hi : i = ueIndex
    · simp [CellDlHarqBufferPool.deallocateUeBuffers, hi]
    · simpa [CellDlHarqBufferPool.deallocateUeBuffers, hi] using h.ueNodup i
  untouched := h.untouched

theorem foldl_deallocate_inv (ues : List Nat) (h : PoolInv s owner) :
    ∃ owner', PoolInv (ues.foldl CellDlHarqBufferPool.deallocateUeBuffers s) owner' := by
  induction ues generalizing s owner with
  | nil => exact ⟨owner, h⟩
  | cons ueIndex ues ih => exact ih (h.deallocateUeBuffers ueIndex)

/-- A buffer that some transport block refers to, or that a UE has, is not in the pool. -/
theorem PoolInv.setRefCnt (h : PoolInv s owner) {n : Nat} (hb : ¬ b < s.poolElemIndex) :
    PoolInv (s.setRefCnt b n) owner := by
  refine h.congr rfl rfl rfl fun c hc => ?_
  have hne : c ≠ b := fun heq => hb (heq ▸ hc)
  simpa [CellDlHarqBufferPool.setRefCnt, hne] using h.untouched c hc

theorem PoolInv.not_pool (h : PoolInv s owner) (hb : s.refCnt b ≠ 0) :
    ¬ b < s.poolElemIndex := fun hlt => hb (h.untouched b hlt)

theorem PoolInv.ue_not_pool (h : PoolInv s owner) {i : Nat} (hb : b ∈ s.cellBuffers i) :
    ¬ b < s.poolElemIndex := fun hlt =>
  nomatch ((h.pool b).mp hlt).2.symm.trans ((h.ue i b).mp hb).2

/-! Background tasks. Every flag pointer is set, so that every task returns at once. -/

structure FlagsSet (s : CellDlHarqBufferPool) : Prop where
  current : s.poolGrowthCancelled.isSome = true
  tasks : ∀ task ∈ s.ctrlExec, task.cancelFlagCpy.isSome = true

/-- Buffers move, and no task or flag is touched. -/
structure SameTasks (s s' : CellDlHarqBufferPool) : Prop where
  current : s'.poolGrowthCancelled = s.poolGrowthCancelled
  ctrlExec : s'.ctrlExec = s.ctrlExec

theorem SameTasks.flagsSet (hsame : SameTasks s s') (h : FlagsSet s) : FlagsSet s' where
  current := hsame.current ▸ h.current
  tasks := hsame.ctrlExec ▸ h.tasks

theorem allocateFromPool_tasks (h : s.allocateFromPool = some (b, s')) : SameTasks s s' := by
  rw [allocateFromPool] at h
  split at h
  · cases h
  · cases h
    exact ⟨rfl, rfl⟩

theorem allocateFromCache_tasks (h : s.allocateFromCache = some (b, s')) : SameTasks s s' := by
  rw [allocateFromCache] at h
  split at h
  · cases h
  · cases h
    exact ⟨rfl, rfl⟩

theorem fillCache_tasks (turns : Nat) (s : CellDlHarqBufferPool) :
    SameTasks s (fillCache turns s).1 := by
  induction turns generalizing s with
  | zero => exact ⟨rfl, rfl⟩
  | succ turns ih =>
    rw [fillCache]
    split
    · exact ⟨rfl, rfl⟩
    · rename_i b mid htake
      have hmid := allocateFromPool_tasks htake
      have hrest := ih (mid.cacheBuffer b)
      exact ⟨hrest.current.trans hmid.current, hrest.ctrlExec.trans hmid.ctrlExec⟩

theorem growUeList_tasks (ueIndex turns : Nat) (s : CellDlHarqBufferPool) :
    SameTasks s (growUeList ueIndex turns s).1 := by
  induction turns generalizing s with
  | zero => exact ⟨rfl, rfl⟩
  | succ turns ih =>
    rw [growUeList]
    split
    · exact ⟨rfl, rfl⟩
    · rename_i b mid htake
      have hmid : SameTasks s mid := by
        split at htake
        · exact allocateFromPool_tasks htake
        · exact allocateFromCache_tasks htake
      have hrest := ih (mid.giveBuffer ueIndex b)
      exact ⟨hrest.current.trans hmid.current, hrest.ctrlExec.trans hmid.ctrlExec⟩

theorem foldl_deallocate_tasks (ues : List Nat) (s : CellDlHarqBufferPool) :
    SameTasks s (ues.foldl CellDlHarqBufferPool.deallocateUeBuffers s) := by
  induction ues generalizing s with
  | nil => exact ⟨rfl, rfl⟩
  | cons ueIndex ues ih =>
    have hrest := ih (s.deallocateUeBuffers ueIndex)
    exact ⟨hrest.current, hrest.ctrlExec⟩

theorem mem_cellBuffers_foldl {ues : List Nat} {s : CellDlHarqBufferPool} {i : Nat}
    (hb : b ∈ (ues.foldl CellDlHarqBufferPool.deallocateUeBuffers s).cellBuffers i) :
    b ∈ s.cellBuffers i := by
  induction ues generalizing s with
  | nil => exact hb
  | cons ueIndex ues ih =>
    have hmem := ih hb
    by_cases hi : i = ueIndex
    · simp [CellDlHarqBufferPool.deallocateUeBuffers, hi] at hmem
    · simpa [CellDlHarqBufferPool.deallocateUeBuffers, hi] using hmem

theorem FlagsSet.growCacheInBackground (h : FlagsSet s) (deferred : Bool) :
    FlagsSet (s.growCacheInBackground deferred) := by
  unfold CellDlHarqBufferPool.growCacheInBackground
  split
  · exact h
  split
  · exact h
  split
  · refine ⟨h.current, fun task htask => ?_⟩
    rcases List.mem_append.mp htask with hold | hnew
    · exact h.tasks task hold
    · rw [List.mem_singleton.mp hnew]
      exact h.current
  · exact h

theorem FlagsSet.allocateUeBuffers (h : FlagsSet s) (ueIndex nofHarqs : Nat) (deferred : Bool) :
    FlagsSet (s.allocateUeBuffers ueIndex nofHarqs deferred) := by
  have hsame := growUeList_tasks ueIndex nofHarqs s
  rw [CellDlHarqBufferPool.allocateUeBuffers]
  split
  · exact h
  split
  · rename_i hgrow
    rw [hgrow] at hsame
    exact hsame.flagsSet h
  · rename_i hgrow
    rw [hgrow] at hsame
    exact (hsame.flagsSet h).growCacheInBackground deferred

theorem FlagsSet.runGrowthTask (h : FlagsSet s) {task : GrowthTask} (hmem : task ∈ s.ctrlExec)
    (mid : CellDlHarqBufferPool) (deferred : Bool) : mid.runGrowthTask task deferred = mid := by
  rw [CellDlHarqBufferPool.runGrowthTask, if_pos (h.tasks task hmem)]

/-- Some owner of each buffer, and all flag pointers set. -/
def Good (s : CellDlHarqBufferPool) : Prop := (∃ owner, PoolInv s owner) ∧ FlagsSet s

theorem create_good : Good create :=
  ⟨create_inv, (fillCache_tasks _ _).flagsSet ⟨rfl, nofun⟩⟩

theorem Good.step {event : Event} (h : Good s) (hstep : step s event = some s') :
    Good s' ∧ ∀ i, ∀ b ∈ s'.cellBuffers i, b ∈ s.cellBuffers i ∨ s.refCnt b = 0 := by
  obtain ⟨⟨owner, hinv⟩, hflags⟩ := h
  cases event with
  | allocateUeBuffers ueIndex nofHarqs deferred =>
    rw [CellDlHarqBufferPool.step] at hstep
    split at hstep
    · cases hstep
      obtain ⟨hinv', hgiven⟩ := hinv.allocateUeBuffers ueIndex nofHarqs deferred
      refine ⟨⟨hinv', hflags.allocateUeBuffers ueIndex nofHarqs deferred⟩, fun i b hb => ?_⟩
      by_cases hi : i = ueIndex
      · subst hi
        exact hgiven.free b hb
      · exact .inl (hgiven.others i hi ▸ hb)
    · cases hstep
  | deallocateUeBuffers ueIndex =>
    rw [CellDlHarqBufferPool.step] at hstep
    split at hstep
    · cases hstep
      refine ⟨⟨⟨_, hinv.deallocateUeBuffers ueIndex⟩, hflags.current, hflags.tasks⟩, ?_⟩
      intro i b hb
      by_cases hi : i = ueIndex
      · simp [deallocateUeBuffers, hi] at hb
      · exact .inl (by simpa [deallocateUeBuffers, hi] using hb)
    · cases hstep
  | allocateDlHarqBuffer ueIndex hId =>
    rw [CellDlHarqBufferPool.step] at hstep
    split at hstep
    · cases hstep
    · rename_i b hb
      cases hstep
      split
      · exact ⟨⟨⟨owner, hinv⟩, hflags⟩, fun _ _ hmem => .inl hmem⟩
      · have hpool := hinv.ue_not_pool (List.mem_of_getElem? hb)
        exact ⟨⟨⟨owner, hinv.setRefCnt hpool⟩, hflags.current, hflags.tasks⟩,
          fun _ _ hmem => .inl hmem⟩
  | copyTransportBlock b | releaseTransportBlock b =>
    rw [CellDlHarqBufferPool.step] at hstep
    split at hstep
    · rename_i hb
      cases hstep
      exact ⟨⟨⟨owner, hinv.setRefCnt (hinv.not_pool hb)⟩, hflags.current, hflags.tasks⟩,
        fun _ _ hmem => .inl hmem⟩
    · cases hstep
  | growthTask deferred =>
    rw [CellDlHarqBufferPool.step] at hstep
    split at hstep
    · cases hstep
    · rename_i task rest hexec
      cases hstep
      have hmem : task ∈ s.ctrlExec := hexec ▸ List.mem_cons_self
      rw [hflags.runGrowthTask hmem]
      refine ⟨⟨⟨owner, hinv.congr rfl rfl rfl hinv.untouched⟩, hflags.current, ?_⟩,
        fun _ _ hmem => .inl hmem⟩
      exact fun other hother => hflags.tasks other (hexec ▸ List.mem_cons_of_mem _ hother)
  | clear =>
    obtain rfl := Option.some.inj hstep
    have hrenew : PoolInv s.renewCancelFlag owner := hinv.congr rfl rfl rfl hinv.untouched
    have hset : FlagsSet s.renewCancelFlag := ⟨rfl, hflags.tasks⟩
    rw [CellDlHarqBufferPool.clear]
    generalize List.range maxNofDuUes = ues
    have htasks := foldl_deallocate_tasks ues s.renewCancelFlag
    refine ⟨⟨foldl_deallocate_inv ues hrenew, htasks.flagsSet hset⟩, fun i b hb => .inl ?_⟩
    exact mem_cellBuffers_foldl (s := s.renewCancelFlag) hb

/-- Buffers of the cache and of the pool that nothing refers to. -/
def freeBuffers (s : CellDlHarqBufferPool) : Nat :=
  s.freeCached + (List.range s.poolElemIndex).countP (s.refCnt · = 0)

theorem PoolInv.freeBuffers_eq (h : PoolInv s owner) :
    s.freeBuffers = s.freeCached + s.poolElemIndex := by
  have hall : (List.range s.poolElemIndex).countP (s.refCnt · = 0) =
      (List.range s.poolElemIndex).length := by
    rw [List.countP_eq_length]
    intro b hb
    simpa using h.untouched b (List.mem_range.mp hb)
  rw [freeBuffers, hall, List.length_range]

/-- The cache alone suffices, or it has no buffer in flight, or not even both together suffice. -/
def Covered (s : CellDlHarqBufferPool) (nofHarqs : Nat) : Prop :=
  nofHarqs ≤ s.freeCached ∨ s.freeCached = s.bufferCache.length ∨ s.freeBuffers < nofHarqs

/-- A new UE gets all buffers exactly when the request is covered. -/
theorem PoolInv.served_iff (h : PoolInv s owner) (hnew : s.cellBuffers ueIndex = [])
    (nofHarqs : Nat) (deferred : Bool) :
    (nofHarqs ≤ s.freeBuffers →
      ((s.allocateUeBuffers ueIndex nofHarqs deferred).cellBuffers ueIndex).length = nofHarqs) ↔
    Covered s nofHarqs := by
  have hlength := growUeList_length_iff ueIndex nofHarqs h
  rw [hnew, List.length_nil, Nat.zero_add, growUeList_completes_iff ueIndex nofHarqs h] at hlength
  rw [cellBuffers_allocateUeBuffers hnew, hlength, Covered, h.freeBuffers_eq]
  omega

def CacheGrown (s : CellDlHarqBufferPool) : Prop :=
  dlHarqAllocBatch ≤ s.bufferCache.length ∨ s.isPoolDepleted = true

/-- A task that has not been cancelled is waiting. -/
def GrowthPending (s : CellDlHarqBufferPool) : Prop :=
  ∃ task ∈ s.ctrlExec, ∀ flag, task.cancelFlagCpy = some flag → s.flags flag = false

/-- The tasks have run until none is left, and each was able to dispatch another one. -/
def GrowthCompletes (s s' : CellDlHarqBufferPool) : Prop :=
  Runs.Reaches step (fun _ event => event = .growthTask true) s s' ∧ s'.ctrlExec = []

def GrowthRefills (s : CellDlHarqBufferPool) : Prop :=
  GrowthPending s → ∀ s', GrowthCompletes s s' → CacheGrown s'

theorem FlagsSet.growth_same (h : FlagsSet s)
    (hrun : Runs.Reaches step (fun _ event => event = .growthTask true) s s') :
    ∃ tasks, s' = { s with ctrlExec := tasks } ∧ ∀ task ∈ tasks, task ∈ s.ctrlExec := by
  induction hrun with
  | start => exact ⟨s.ctrlExec, rfl, fun _ htask => htask⟩
  | next _ hevent hstep ih =>
    obtain ⟨tasks, rfl, hsub⟩ := ih
    subst hevent
    rw [CellDlHarqBufferPool.step] at hstep
    split at hstep
    · cases hstep
    · rename_i task rest hexec
      have hexec : tasks = task :: rest := hexec
      subst hexec
      rw [h.runGrowthTask (hsub task List.mem_cons_self)] at hstep
      obtain rfl := Option.some.inj hstep
      exact ⟨rest, rfl, fun other hother => hsub other (List.mem_cons_of_mem _ hother)⟩

theorem FlagsSet.growth_completes (h : FlagsSet s) :
    GrowthCompletes s { s with ctrlExec := [] } := by
  have hdrain : ∀ done rest, s.ctrlExec = done ++ rest →
      Runs.Reaches step (fun _ event => event = .growthTask true) s
        { s with ctrlExec := rest } := by
    intro done
    induction done using List.reverseRecOn with
    | nil =>
      rintro rest hrest
      have hself : { s with ctrlExec := rest } = s := by
        rw [← List.nil_append rest, ← hrest]
      rw [hself]
      exact .start
    | append_singleton done task ih =>
      intro rest hrest
      rw [List.append_assoc] at hrest
      refine .next (ih (task :: rest) hrest) rfl ?_
      have hmem : task ∈ s.ctrlExec := hrest ▸ List.mem_append_right _ List.mem_cons_self
      show some (CellDlHarqBufferPool.runGrowthTask _ task true) = _
      rw [h.runGrowthTask hmem]
  exact ⟨hdrain s.ctrlExec [] (List.append_nil _).symm, rfl⟩

theorem FlagsSet.growthRefills_iff (h : FlagsSet s) :
    GrowthRefills s ↔ (GrowthPending s → CacheGrown s) := by
  constructor
  · intro hrefills hpending
    have hgrown : CacheGrown { s with ctrlExec := [] } := hrefills hpending _ h.growth_completes
    exact hgrown
  · rintro hgrown hpending s' ⟨hrun, -⟩
    obtain ⟨tasks, rfl, -⟩ := h.growth_same hrun
    exact hgrown hpending

theorem reaches_good (h : Runs.Reaches step (fun _ _ => True) create s) : Good s :=
  h.invariant create_good fun _ _ _ hgood _ hstep => (hgood.step hstep).1

/-- In every state of every run a buffer has one owner, and lists only gain buffers that nothing refers
to. A new UE gets all it asks for exactly when the request is covered, and the background tasks leave
the cache as they find it. -/
theorem dlHarqBuffers_owned (hrun : Runs.Reaches step (fun _ _ => True) create s) :
    OwnedOnce s ∧
      (∀ event s', step s event = some s' →
        ∀ i, ∀ b ∈ s'.cellBuffers i, b ∈ s.cellBuffers i ∨ s.refCnt b = 0) ∧
      (∀ ueIndex nofHarqs deferred s', s.cellBuffers ueIndex = [] →
        step s (.allocateUeBuffers ueIndex nofHarqs deferred) = some s' →
          ((nofHarqs ≤ s.freeBuffers → (s'.cellBuffers ueIndex).length = nofHarqs) ↔
            Covered s nofHarqs)) ∧
      (GrowthRefills s ↔ (GrowthPending s → CacheGrown s)) := by
  obtain ⟨⟨owner, hinv⟩, hflags⟩ := reaches_good hrun
  refine ⟨hinv.ownedOnce, ?_, ?_, hflags.growthRefills_iff⟩
  · intro event s' hstep
    exact (Good.step ⟨⟨owner, hinv⟩, hflags⟩ hstep).2
  · intro ueIndex nofHarqs deferred s' hnew hstep
    rw [CellDlHarqBufferPool.step] at hstep
    split at hstep
    · obtain rfl := Option.some.inj hstep
      exact hinv.served_iff hnew nofHarqs deferred
    · cases hstep

/-- A UE that gets its buffers from the cache. -/
theorem dlHarqBuffers_owned_fromCache :
    ∃ s, Runs.Reaches step (fun _ _ => True) create s ∧ (s.cellBuffers 0).length = 32 ∧
      OwnedOnce s := by
  have hrun : (Runs.runAll step create [.allocateUeBuffers 0 32 true]).map
      (fun s => (s.cellBuffers 0).length) = some 32 := by decide +kernel
  obtain ⟨s, hrun, hlength⟩ := Option.map_eq_some_iff.mp hrun
  have hreaches := Runs.reaches_of_runAll .start (fun _ _ _ => trivial) hrun
  exact ⟨s, hreaches, hlength, (dlHarqBuffers_owned hreaches).1⟩

/-- A growth task that has not been cancelled leaves the cache short. -/
theorem dlHarqBuffers_growthTask_idle :
    ∃ s, Runs.Reaches step (fun _ _ => True) create s ∧ ¬ GrowthRefills s := by
  have hrun : (Runs.runAll step create [.allocateUeBuffers 0 32 true]).map
      (fun s => (s.bufferCache.length, s.poolElemIndex, s.ctrlExec, s.flags 0)) =
        some (32, 32704, [⟨some 0⟩], false) := by decide +kernel
  obtain ⟨s, hrun, hobserved⟩ := Option.map_eq_some_iff.mp hrun
  obtain ⟨hcache, hpool, hexec, hflag⟩ := by simpa only [Prod.mk.injEq] using hobserved
  have hreaches : Runs.Reaches step (fun _ _ => True) create s :=
    Runs.reaches_of_runAll .start (fun _ _ _ => trivial) hrun
  refine ⟨s, hreaches, fun hrefills => ?_⟩
  have hpending : GrowthPending s := by
    refine ⟨⟨some 0⟩, hexec ▸ List.mem_cons_self, ?_⟩
    rintro flag hsome
    obtain rfl := Option.some.inj hsome
    exact hflag
  have hgrown := hrefills hpending _ (reaches_good hreaches).2.growth_completes
  simp [CacheGrown, isPoolDepleted, hcache, hpool, dlHarqAllocBatch, maxNofHarqs] at hgrown

end CellDlHarqBufferPool
end Srsran.Mac
