import Srsran.Scheduler.PucchCollisionManager

/-! `pucch_resource_manager`: which UE uses which dedicated PUCCH resource of a slot, and the guard
through which the resources of one UE and slot are reserved and released. -/
namespace Srsran.Scheduler
open Ran

structure PucchResId where
  cellResId : Nat
  ueResId : Nat
  deriving DecidableEq, Repr

structure PucchResource where
  resId : PucchResId
  nofSymbols : Nat
  startingSymIdx : Nat
  format : PucchFormat
  deriving DecidableEq, Repr

inductive PucchResSetIdx where
  | set0
  | set1
  deriving DecidableEq, Repr

structure PucchConfig where
  /-- `pucch_res_id_list` of the resource sets. -/
  pucchResSet : PucchResSetIdx → List PucchResId
  pucchResList : List PucchResource
  /-- `pucch_res_id` of the SR resources. -/
  srResList : List PucchResId

namespace PucchConfig

def findByCellResId (cfg : PucchConfig) (cellResId : Nat) : Option PucchResource :=
  cfg.pucchResList.find? fun res => res.resId.cellResId == cellResId

def findByUeResId (cfg : PucchConfig) (ueResId : Nat) : Option PucchResource :=
  cfg.pucchResList.find? fun res => res.resId.ueResId == ueResId

end PucchConfig

structure PucchCsiResource where
  ulBwp : Nat
  pucchResId : PucchResId
  deriving DecidableEq, Repr

structure UeCellConfiguration where
  pucchCfg : PucchConfig
  /-- `pucch_csi_res_list` of the first CSI report configuration. -/
  pucchCsiResList : List PucchCsiResource

def minBwpId : Nat := 0

/-- `get_csi_cell_res_id`, with `none` for -1. -/
def getCsiCellResId (ueCellCfg : UeCellConfiguration) : Option Nat :=
  (ueCellCfg.pucchCsiResList.find? fun csi => csi.ulBwp == minBwpId).map (·.pucchResId.cellResId)

structure PucchCellConfiguration where
  resources : PucchCellResources
  dedPucchResources : List PucchResource
  nofDedicated : resources.dedicated.length = dedPucchResources.length

/-- `is_pucch_f0_and_f2`. -/
def PucchCellConfiguration.isPucchF0AndF2 (cellCfg : PucchCellConfiguration) : Bool :=
  cellCfg.dedPucchResources.head?.any (·.format == .format0) &&
    cellCfg.dedPucchResources.getLast?.any (·.format == .format2)

def invalidRnti : Nat := 0

structure PucchResourceManager where
  collisionManager : PucchCollisionManager
  /-- `ues_using_pucch_res` of the slots, by their position in the ring. -/
  slotsCtx : Nat → Nat → Nat
  lastSlInd : SlotPoint

namespace PucchResourceManager
open PucchCollisionManager (ringPos)

def create : PucchResourceManager where
  collisionManager := .create
  slotsCtx := fun _ _ => invalidRnti
  lastSlInd := .invalid

def user (m : PucchResourceManager) (sl : SlotPoint) (cellResId : Nat) : Nat := m.slotsCtx (ringPos sl) cellResId

def setUser (m : PucchResourceManager) (sl : SlotPoint) (cellResId rnti : Nat) : PucchResourceManager :=
  { m with
    slotsCtx := Function.update m.slotsCtx (ringPos sl)
      (Function.update (m.slotsCtx (ringPos sl)) cellResId rnti) }

end PucchResourceManager

inductive PucchUsage where
  | harqSet (idx : PucchResSetIdx)
  | sr
  | csi
  deriving DecidableEq, Repr

/-- What a guard did to a resource. -/
inductive PucchMove where
  | reserved (usage : PucchUsage) (cellResId : Nat)
  | released (usage : PucchUsage) (cellResId : Nat)
  deriving DecidableEq, Repr

/-- A guard together with the manager it points to. The journal is not part of the source: it lists what
was reserved and released through the guard so far, the latest first. -/
structure UeReservationGuard where
  parent : PucchResourceManager
  /-- The pointer to the manager is cleared by a commit. -/
  committed : Bool
  reservations : PucchUsage → Option Nat
  journal : List PucchMove

structure PucchHarqResourceAllocRecord where
  resource : PucchResource
  pucchResIndicator : Nat
  deriving DecidableEq, Repr

def resManagerRingBufferSize : Nat := getAllocatorRingSizeGtMin (schedulerMaxK0 + schedulerMaxK1 + 512)

namespace UeReservationGuard
variable (cellCfg : PucchCellConfiguration) (ueCfg : UeCellConfiguration) (rnti : Nat) (sl : SlotPoint)

def create (parent : PucchResourceManager) : Except PucchFault UeReservationGuard :=
  if ¬sl.lt (parent.lastSlInd.add resManagerRingBufferSize) then .error .slotTooFar
  else if rnti = invalidRnti then .error .invalidRnti
  else .ok { parent, committed := false, reservations := fun _ => none, journal := [] }

/-- A resource that is free for all UEs becomes one of this UE, unless it collides with another one. -/
def allocate (g : UeReservationGuard) (usage : PucchUsage) (cellResId : Nat) :
    Except PucchFault (Option UeReservationGuard) := do
  match ← g.parent.collisionManager.allocDed cellCfg.resources sl cellResId with
  | none => .ok none
  | some collisionManager =>
    .ok (some { g with
      parent := { g.parent with collisionManager }.setUser sl cellResId rnti
      reservations := Function.update g.reservations usage (some cellResId)
      journal := .reserved usage cellResId :: g.journal })

def release (g : UeReservationGuard) (usage : PucchUsage) (cellResId : Nat) :
    Except PucchFault UeReservationGuard := do
  let collisionManager ← g.parent.collisionManager.freeDed cellCfg.resources sl cellResId
  .ok { g with
    parent := { g.parent with collisionManager }.setUser sl cellResId invalidRnti
    reservations := Function.update g.reservations usage none
    journal := .released usage cellResId :: g.journal }

/-- The reservation of one resource, which is shared by SR, CSI and the resource indicators. -/
def reserveResource (g : UeReservationGuard) (usage : PucchUsage) (cellResId : Nat) :
    Except PucchFault (UeReservationGuard × Option PucchResource) := do
  if cellCfg.dedPucchResources.length ≤ cellResId then .error .cellResIdTooLarge
  let resRnti := g.parent.user sl cellResId
  if resRnti ≠ invalidRnti ∧ resRnti ≠ rnti then .ok (g, none)
  else
    let some resCfg := ueCfg.pucchCfg.findByCellResId cellResId | .error .resourceNotFound
    if resRnti = rnti then .ok (g, some resCfg)
    else
      match ← g.allocate cellCfg rnti sl usage cellResId with
      | none => .ok (g, none)
      | some g => .ok (g, some resCfg)

/-- The release of one resource, which is shared by SR and CSI. -/
def releaseResource (g : UeReservationGuard) (usage : PucchUsage) (cellResId : Nat) :
    Except PucchFault (UeReservationGuard × Bool) := do
  if cellCfg.dedPucchResources.length ≤ cellResId then .error .cellResIdTooLarge
  if g.parent.user sl cellResId ≠ rnti then .ok (g, false)
  else
    let g ← g.release cellCfg sl usage cellResId
    .ok (g, true)

/-- `sr_res_list[0].pucch_res_id.cell_res_id`. -/
def srCellResId : Except PucchFault Nat :=
  match ueCfg.pucchCfg.srResList with
  | [resId] => .ok resId.cellResId
  | _ => .error .srResListSize

def csiCellResId : Except PucchFault Nat :=
  match getCsiCellResId ueCfg with
  | some cellResId => .ok cellResId
  | none => .error .csiResourceNotFound

def reserveSrResource (g : UeReservationGuard) : Except PucchFault (UeReservationGuard × Option PucchResource) := do
  if g.committed then .error .committed
  let cellResId ← srCellResId ueCfg
  g.reserveResource cellCfg ueCfg rnti sl .sr cellResId

def reserveCsiResource (g : UeReservationGuard) : Except PucchFault (UeReservationGuard × Option PucchResource) := do
  if g.committed then .error .committed
  let cellResId ← csiCellResId ueCfg
  g.reserveResource cellCfg ueCfg rnti sl .csi cellResId

/-- The size of a resource set without its last two resources, as an unsigned number. -/
def sizeMinusTwo (resIdList : List PucchResId) : Nat := (resIdList.length + 2 ^ 64 - 2) % 2 ^ 64

/-- With formats 0 and 2 the last two resources of a set are kept for SR and CSI slots. -/
def nofEligibleResources (resIdList : List PucchResId) : Nat :=
  if cellCfg.isPucchF0AndF2 then sizeMinusTwo resIdList % 2 ^ 32 else resIdList.length

/-- The first of the eligible resources that this UE uses, with its index. -/
def findHeld (g : UeReservationGuard) : List PucchResId → Nat → Nat → Except PucchFault (Option (Nat × Nat))
  | _, _, 0 => .ok none
  | [], _, _ + 1 => .error .outOfBounds
  | resId :: rest, rPucch, nofLeft + 1 => do
    if cellCfg.dedPucchResources.length ≤ resId.cellResId then .error .cellResIdTooLarge
    if g.parent.user sl resId.cellResId = rnti then .ok (some (rPucch, resId.cellResId))
    else g.findHeld rest (rPucch + 1) nofLeft

/-- The first of the eligible resources that can be allocated, with its index. -/
def allocateFirst (g : UeReservationGuard) (usage : PucchUsage) :
    List PucchResId → Nat → Nat → Except PucchFault (Option (UeReservationGuard × Nat × Nat))
  | _, _, 0 => .ok none
  | [], _, _ + 1 => .error .outOfBounds
  | resId :: rest, rPucch, nofLeft + 1 => do
    if cellCfg.dedPucchResources.length ≤ resId.cellResId then .error .cellResIdTooLarge
    if g.parent.user sl resId.cellResId = invalidRnti then
      match ← g.allocate cellCfg rnti sl usage resId.cellResId with
      | some g => .ok (some (g, rPucch, resId.cellResId))
      | none => g.allocateFirst usage rest (rPucch + 1) nofLeft
    else g.allocateFirst usage rest (rPucch + 1) nofLeft

def harqAllocRecord (g : UeReservationGuard) :
    Option (UeReservationGuard × Nat × Nat) →
      Except PucchFault (UeReservationGuard × Option PucchHarqResourceAllocRecord)
  | none => .ok (g, none)
  | some (g, rPucch, cellResId) =>
    match ueCfg.pucchCfg.findByCellResId cellResId with
    | some resource => .ok (g, some { resource, pucchResIndicator := rPucch % 2 ^ 8 })
    | none => .error .resourceNotFound

def reserveNextHarqResAvailable (g : UeReservationGuard) (resSetIdx : PucchResSetIdx) :
    Except PucchFault (UeReservationGuard × Option PucchHarqResourceAllocRecord) := do
  if g.committed then .error .committed
  let resIdList := ueCfg.pucchCfg.pucchResSet resSetIdx
  let nofEligible := nofEligibleResources cellCfg resIdList
  if nofEligible < 1 then .error .noEligibleResource
  match ← g.findHeld cellCfg rnti sl resIdList 0 nofEligible with
  | some held => g.harqAllocRecord ueCfg (some (g, held))
  | none =>
    let found ← g.allocateFirst cellCfg rnti sl (.harqSet resSetIdx) resIdList 0 nofEligible
    g.harqAllocRecord ueCfg found

def reserveHarqResourceByResIndicator (g : UeReservationGuard) (dPri : Nat) (resSetIdx : PucchResSetIdx) :
    Except PucchFault (UeReservationGuard × Option PucchResource) := do
  if g.committed then .error .committed
  let resIdList := ueCfg.pucchCfg.pucchResSet resSetIdx
  match resIdList[dPri]? with
  | none => .ok (g, none)
  | some resId =>
    if cellCfg.isPucchF0AndF2 ∧ sizeMinusTwo resIdList ≤ dPri then
      .ok (g, ueCfg.pucchCfg.findByUeResId resId.ueResId)
    else g.reserveResource cellCfg ueCfg rnti sl (.harqSet resSetIdx) resId.cellResId

def releaseSrResource (g : UeReservationGuard) : Except PucchFault (UeReservationGuard × Bool) := do
  if g.committed then .error .committed
  let cellResId ← srCellResId ueCfg
  g.releaseResource cellCfg rnti sl .sr cellResId

def releaseCsiResource (g : UeReservationGuard) : Except PucchFault (UeReservationGuard × Bool) := do
  if g.committed then .error .committed
  let cellResId ← csiCellResId ueCfg
  g.releaseResource cellCfg rnti sl .csi cellResId

def releaseHarqResource (g : UeReservationGuard) (resSetIdx : PucchResSetIdx) :
    Except PucchFault (UeReservationGuard × Bool) := do
  if g.committed then .error .committed
  let resIdList := ueCfg.pucchCfg.pucchResSet resSetIdx
  let nofEligible := nofEligibleResources cellCfg resIdList
  if nofEligible < 1 then .error .noEligibleResource
  match ← g.findHeld cellCfg rnti sl resIdList 0 nofEligible with
  | none => .ok (g, false)
  | some (_, cellResId) =>
    let g ← g.release cellCfg sl (.harqSet resSetIdx) cellResId
    .ok (g, true)

/-- With both HARQ resource sets reserved, only the resource of the second one is kept. -/
def commit (g : UeReservationGuard) : Except PucchFault UeReservationGuard := do
  if g.committed then .error .committed
  match g.reservations (.harqSet .set0), g.reservations (.harqSet .set1) with
  | some cellResId, some _ =>
    let collisionManager ← g.parent.collisionManager.freeDed cellCfg.resources sl cellResId
    .ok { g with
      parent := { g.parent with collisionManager }.setUser sl cellResId invalidRnti
      reservations := Function.update g.reservations (.harqSet .set0) none
      committed := true }
  | _, _ => .ok { g with committed := true }

def rollbackUsage (g : UeReservationGuard) (usage : PucchUsage) : Except PucchFault UeReservationGuard := do
  match g.reservations usage with
  | none => .ok g
  | some cellResId =>
    if cellCfg.dedPucchResources.length ≤ cellResId then .error .cellResIdTooLarge
    let collisionManager ← g.parent.collisionManager.freeDed cellCfg.resources sl cellResId
    .ok { g with parent := { g.parent with collisionManager }.setUser sl cellResId invalidRnti }

/-- The order of `resource_usage_type`. -/
def usages : List PucchUsage := [.harqSet .set0, .harqSet .set1, .sr, .csi]

def rollback (g : UeReservationGuard) : Except PucchFault UeReservationGuard :=
  if g.committed then .ok g else usages.foldlM (rollbackUsage cellCfg sl) g

inductive Call where
  | reserveHarqNextAvailable (resSetIdx : PucchResSetIdx)
  | reserveHarqByResIndicator (resSetIdx : PucchResSetIdx) (dPri : Nat)
  | reserveSr
  | reserveCsi
  | releaseHarq (resSetIdx : PucchResSetIdx)
  | releaseSr
  | releaseCsi
  deriving DecidableEq, Repr

def call (g : UeReservationGuard) : Call → Except PucchFault UeReservationGuard
  | .reserveHarqNextAvailable resSetIdx =>
    Prod.fst <$> g.reserveNextHarqResAvailable cellCfg ueCfg rnti sl resSetIdx
  | .reserveHarqByResIndicator resSetIdx dPri =>
    Prod.fst <$> g.reserveHarqResourceByResIndicator cellCfg ueCfg rnti sl dPri resSetIdx
  | .reserveSr => Prod.fst <$> g.reserveSrResource cellCfg ueCfg rnti sl
  | .reserveCsi => Prod.fst <$> g.reserveCsiResource cellCfg ueCfg rnti sl
  | .releaseHarq resSetIdx => Prod.fst <$> g.releaseHarqResource cellCfg ueCfg rnti sl resSetIdx
  | .releaseSr => Prod.fst <$> g.releaseSrResource cellCfg ueCfg rnti sl
  | .releaseCsi => Prod.fst <$> g.releaseCsiResource cellCfg ueCfg rnti sl

/-- A guard that is created on a manager, after a sequence of calls. -/
def run (parent : PucchResourceManager) (calls : List Call) : Except PucchFault UeReservationGuard := do
  let g ← create rnti sl parent
  calls.foldlM (call cellCfg ueCfg rnti sl) g

end UeReservationGuard

end Srsran.Scheduler
