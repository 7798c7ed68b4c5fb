import Srsran.Scheduler.ResourceGrid

/-! `pucch_collision_manager`: which PUCCH resources of a cell are in use in the slots of a ring, and
which of them may be in use together. -/
namespace Srsran.Scheduler
open Ran Checked

inductive PucchFormat where
  | format0
  | format1
  | format2
  | format3
  | format4
  deriving DecidableEq, Repr

def Interval.overlaps (interval other : Interval) : Bool :=
  interval.start < other.stop && other.start < interval.stop

def GrantInfo.overlaps (grant other : GrantInfo) : Bool :=
  grant.scs == other.scs && grant.symbols.overlaps other.symbols && grant.crbs.overlaps other.crbs

structure PucchGrants where
  firstHop : GrantInfo
  secondHop : Option GrantInfo
  deriving DecidableEq, Repr

def PucchGrants.overlaps (grants other : PucchGrants) : Bool :=
  grants.firstHop.overlaps other.firstHop || other.secondHop.any grants.firstHop.overlaps ||
    grants.secondHop.any fun hop => hop.overlaps other.firstHop || other.secondHop.any hop.overlaps

structure PucchResourceInfo where
  format : PucchFormat
  multiplexingIndex : Nat
  grants : PucchGrants
  deriving DecidableEq, Repr

def doResourcesCollide (res1 res2 : PucchResourceInfo) : Bool :=
  if !res1.grants.overlaps res2.grants then false
  else if res1.format ≠ res2.format then true
  else if res1.grants ≠ res2.grants then true
  else res1.multiplexingIndex == res2.multiplexingIndex

abbrev CollisionMatrix := Nat → Nat → Bool

def CollisionMatrix.set (matrix : CollisionMatrix) (i j : Nat) : CollisionMatrix :=
  Function.update matrix i (Function.update (matrix i) j true)

/-- The loops of `compute_collisions`, for the resources from the `i`-th one on. -/
def computeCollisionsFrom (i : Nat) : List PucchResourceInfo → CollisionMatrix → CollisionMatrix
  | [], matrix => matrix
  | res :: rest, matrix =>
    computeCollisionsFrom (i + 1) rest ((rest.zipIdx (i + 1)).foldl
      (fun matrix other =>
        if doResourcesCollide res other.1 then (matrix.set i other.2).set other.2 i else matrix)
      (matrix.set i i))

def computeCollisions (resources : List PucchResourceInfo) : CollisionMatrix :=
  computeCollisionsFrom 0 resources fun _ _ => false

/-- `MAX_NOF_CELL_COMMON_PUCCH_RESOURCES`. -/
def nofCommonRes : Nat := 16

/-- `cell_resource_allocator::RING_ALLOCATOR_SIZE`, for the longest offset of an NTN cell. -/
def ringAllocatorSize : Nat := getAllocatorRingSizeGtMin (ringMaxHistorySize + getMaxSlotUlAllocDelay 512)

/-- Checks of the PUCCH resource and collision managers. -/
inductive PucchFault where
  /-- "Detected a skipped slot". -/
  | slotSkipped
  /-- "PUCCH resource ring-buffer accessed too far into the future". -/
  | slotTooFar
  /-- "cell_res_id out of range", or "exceeds the size of the cell resource array". -/
  | cellResIdTooLarge
  /-- "RNTI cannot be invalid". -/
  | invalidRnti
  /-- A reservation, release or commit after the commit. -/
  | committed
  /-- "Not enough eligible resources from PUCCH resource set". -/
  | noEligibleResource
  /-- "PUCCH resource with cell_res_id not found in PUCCH resource list". -/
  | resourceNotFound
  /-- "UE SR resource list must have size 1". -/
  | srResListSize
  /-- "CSI PUCCH resource index could not be found". -/
  | csiResourceNotFound
  /-- An element behind the end of a list. -/
  | outOfBounds
  deriving DecidableEq, Repr

/-- The common resources of a cell, followed by the dedicated ones. -/
structure PucchCellResources where
  common : List PucchResourceInfo
  dedicated : List PucchResourceInfo
  nofCommon : common.length = nofCommonRes

namespace PucchCellResources

def all (cell : PucchCellResources) : List PucchResourceInfo := cell.common ++ cell.dedicated

def collisionMatrix (cell : PucchCellResources) : CollisionMatrix := computeCollisions cell.all

end PucchCellResources

structure PucchCollisionManager where
  /-- `current_state` of the slots, by their position in the ring. -/
  slotsCtx : Nat → Nat → Bool
  lastSlInd : SlotPoint

namespace PucchCollisionManager
variable (cell : PucchCellResources)

def create : PucchCollisionManager := ⟨fun _ _ => false, .invalid⟩

def ringPos (sl : SlotPoint) : Nat := sl.count % ringAllocatorSize

def write (m : PucchCollisionManager) (sl : SlotPoint) (resIdx : Nat) (inUse : Bool) : PucchCollisionManager :=
  { m with
    slotsCtx := Function.update m.slotsCtx (ringPos sl)
      (Function.update (m.slotsCtx (ringPos sl)) resIdx inUse) }

/-- `none` stands for a PUCCH collision. -/
def allocResource (m : PucchCollisionManager) (sl : SlotPoint) (resIdx : Nat) :
    Except PucchFault (Option PucchCollisionManager) :=
  if ¬sl.lt (m.lastSlInd.add ringAllocatorSize) then .error .slotTooFar
  else if (List.range cell.all.length).any fun i => cell.collisionMatrix resIdx i && m.slotsCtx (ringPos sl) i then
    .ok none
  else .ok (some (m.write sl resIdx true))

def freeResource (m : PucchCollisionManager) (sl : SlotPoint) (resIdx : Nat) :
    Except PucchFault PucchCollisionManager :=
  if ¬sl.lt (m.lastSlInd.add ringAllocatorSize) then .error .slotTooFar
  else .ok (m.write sl resIdx false)

def allocDed (m : PucchCollisionManager) (sl : SlotPoint) (cellResId : Nat) :
    Except PucchFault (Option PucchCollisionManager) :=
  if cellResId < cell.dedicated.length then m.allocResource cell sl (nofCommonRes + cellResId)
  else .error .cellResIdTooLarge

def freeDed (m : PucchCollisionManager) (sl : SlotPoint) (cellResId : Nat) :
    Except PucchFault PucchCollisionManager :=
  if cellResId < cell.dedicated.length then m.freeResource sl (nofCommonRes + cellResId)
  else .error .cellResIdTooLarge

end PucchCollisionManager

/-! The matrix is the relation of resources that collide. -/

theorem GrantInfo.overlaps_comm (grant other : GrantInfo) : grant.overlaps other = other.overlaps grant := by
  simp only [GrantInfo.overlaps, Interval.overlaps, Bool.and_comm, Bool.beq_comm]

theorem PucchGrants.overlaps_comm (grants other : PucchGrants) : grants.overlaps other = other.overlaps grants := by
  obtain ⟨first, second⟩ := grants
  obtain ⟨first', second'⟩ := other
  cases second with
  | none =>
    cases second' with
    | none => simp [PucchGrants.overlaps, GrantInfo.overlaps_comm first']
    | some hop' => simp [PucchGrants.overlaps, GrantInfo.overlaps_comm first', GrantInfo.overlaps_comm hop']
  | some hop =>
    cases second' with
    | none => simp [PucchGrants.overlaps, GrantInfo.overlaps_comm first']
    | some hop' =>
      simp only [PucchGrants.overlaps, Option.any_some, GrantInfo.overlaps_comm first',
        GrantInfo.overlaps_comm hop']
      ac_rfl

theorem doResourcesCollide_comm (res1 res2 : PucchResourceInfo) :
    doResourcesCollide res1 res2 = doResourcesCollide res2 res1 := by
  simp only [doResourcesCollide, PucchGrants.overlaps_comm res1.grants, ne_comm (a := res1.format),
    ne_comm (a := res1.grants), Bool.beq_comm (a := res1.multiplexingIndex)]

namespace CollisionMatrix
variable {matrix : CollisionMatrix} {i j a b : Nat}

theorem set_eq_true : matrix.set i j a b = true ↔ matrix a b = true ∨ a = i ∧ b = j := by
  by_cases ha : a = i
  · subst ha
    by_cases hb : b = j
    · subst hb
      simp [CollisionMatrix.set]
    · simp [CollisionMatrix.set, hb]
  · simp [CollisionMatrix.set, ha]

end CollisionMatrix

/-- What the inner loop marks: the collisions of the `i`-th resource, in both rows. -/
theorem markCollisions_iff (i : Nat) (res : PucchResourceInfo) (others : List (PucchResourceInfo × Nat))
    (matrix : CollisionMatrix) (a b : Nat) :
    others.foldl (fun matrix other =>
        if doResourcesCollide res other.1 then (matrix.set i other.2).set other.2 i else matrix) matrix a b = true ↔
      matrix a b = true ∨ ∃ other ∈ others, doResourcesCollide res other.1 = true ∧
        (a = i ∧ b = other.2 ∨ a = other.2 ∧ b = i) := by
  induction others generalizing matrix with
  | nil => simp
  | cons other others ih =>
    rw [List.foldl_cons, ih, List.exists_mem_cons_iff]
    split
    · rename_i hcollide
      simp only [CollisionMatrix.set_eq_true, hcollide, true_and, or_assoc]
    · rename_i hcollide
      simp [hcollide]

theorem computeCollisionsFrom_iff (resources : List PucchResourceInfo) (i : Nat) (matrix : CollisionMatrix)
    (a b : Nat) :
    computeCollisionsFrom i resources matrix a b = true ↔ matrix a b = true ∨
      ∃ resA resB, (resA, a) ∈ resources.zipIdx i ∧ (resB, b) ∈ resources.zipIdx i ∧
        (a = b ∨ doResourcesCollide resA resB = true) := by
  induction resources generalizing i matrix with
  | nil => simp [computeCollisionsFrom]
  | cons res rest ih =>
    rw [computeCollisionsFrom, ih, markCollisions_iff, CollisionMatrix.set_eq_true, List.zipIdx_cons]
    constructor
    · rintro (((hold | ⟨rfl, rfl⟩) | ⟨⟨other, j⟩, hother, hcollide, ⟨rfl, rfl⟩ | ⟨rfl, rfl⟩⟩) | ⟨resA, resB, hA, hB, h⟩)
      · exact .inl hold
      · exact .inr ⟨res, res, List.mem_cons_self, List.mem_cons_self, .inl rfl⟩
      · exact .inr ⟨res, other, List.mem_cons_self, List.mem_cons_of_mem _ hother, .inr hcollide⟩
      · refine .inr ⟨other, res, List.mem_cons_of_mem _ hother, List.mem_cons_self, .inr ?_⟩
        rw [doResourcesCollide_comm]
        exact hcollide
      · exact .inr ⟨resA, resB, List.mem_cons_of_mem _ hA, List.mem_cons_of_mem _ hB, h⟩
    · rintro (hold | ⟨resA, resB, hA, hB, h⟩)
      · exact .inl (.inl (.inl hold))
      rcases List.mem_cons.mp hA with hA | hA <;> rcases List.mem_cons.mp hB with hB | hB
      · cases hA
        cases hB
        exact .inl (.inl (.inr ⟨rfl, rfl⟩))
      · cases hA
        have hlt := List.le_snd_of_mem_zipIdx hB
        rcases h with rfl | h
        · exact absurd hlt (Nat.not_succ_le_self _)
        · exact .inl (.inr ⟨_, hB, h, .inl ⟨rfl, rfl⟩⟩)
      · cases hB
        have hlt := List.le_snd_of_mem_zipIdx hA
        rcases h with rfl | h
        · exact absurd hlt (Nat.not_succ_le_self _)
        · rw [doResourcesCollide_comm] at h
          exact .inl (.inr ⟨_, hA, h, .inr ⟨rfl, rfl⟩⟩)
      · exact .inr ⟨resA, resB, hA, hB, h⟩

theorem computeCollisions_iff (resources : List PucchResourceInfo) (a b : Nat) :
    computeCollisions resources a b = true ↔
      ∃ resA resB, resources[a]? = some resA ∧ resources[b]? = some resB ∧
        (a = b ∨ doResourcesCollide resA resB = true) := by
  simp only [computeCollisions, computeCollisionsFrom_iff, Bool.false_eq_true, false_or,
    List.mem_zipIdx_iff_getElem?]

namespace PucchCellResources
variable (cell : PucchCellResources)

theorem collisionMatrix_self {i : Nat} (h : i < cell.all.length) : cell.collisionMatrix i i = true :=
  (computeCollisions_iff _ i i).mpr
    ⟨_, _, List.getElem?_eq_getElem h, List.getElem?_eq_getElem h, .inl rfl⟩

theorem length_all : cell.all.length = nofCommonRes + cell.dedicated.length := by
  rw [all, List.length_append, cell.nofCommon]

end PucchCellResources

namespace PucchCollisionManager
variable {cell : PucchCellResources} {m m' : PucchCollisionManager} {sl : SlotPoint} {resIdx : Nat}

theorem slotsCtx_write (inUse : Bool) (pos i : Nat) :
    (m.write sl resIdx inUse).slotsCtx pos i =
      if pos = ringPos sl ∧ i = resIdx then inUse else m.slotsCtx pos i := by
  by_cases hpos : pos = ringPos sl
  · subst hpos
    by_cases hi : i = resIdx
    · subst hi
      simp [write]
    · simp [write, hi]
  · simp [write, hpos]

/-- An allocation marks a resource that collides with none in use, itself included. -/
theorem allocResource_ok {r : Option PucchCollisionManager} (h : m.allocResource cell sl resIdx = .ok r) :
    r = none ∨ r = some (m.write sl resIdx true) ∧
      ∀ i < cell.all.length, cell.collisionMatrix resIdx i = true → m.slotsCtx (ringPos sl) i = false := by
  rw [allocResource] at h
  split at h
  · cases h
  split at h
  · cases h
    exact .inl rfl
  · rename_i hfree
    cases h
    simp only [List.any_eq_true, List.mem_range, Bool.and_eq_true, not_exists, not_and, Bool.not_eq_true] at hfree
    exact .inr ⟨rfl, hfree⟩

theorem freeResource_ok (h : m.freeResource sl resIdx = .ok m') : m' = m.write sl resIdx false := by
  rw [freeResource] at h
  split at h
  · cases h
  · cases h
    rfl

end PucchCollisionManager

end Srsran.Scheduler
