import Mathlib.Data.List.Sort
import Srsran.Lib.Runs
import Srsran.Lib.Ring
import Srsran.Ran.SlotPoint

/-! Inter-slice scheduler (`inter_slice_scheduler.cpp`, `ran_slice_instance.cpp`,
`ran_slice_candidate.h`). UEs and policies of a slice are left out: a slot says which slices have UEs,
and gives the rounded averages that the code keeps as floating point numbers. -/
namespace Srsran.Scheduler
open Srsran.Ran

def schedulerMaxK2 : Nat := 11

def ntnCellSpecificKoffsetMax : Nat := 512

/-- `rrm_policy_ratio_rb_limits`; the constructor asserts the order. -/
structure RbLimits where
  dedicated : Nat
  min : Nat
  max : Nat
  dedicated_le : dedicated ≤ min
  min_le : min ≤ max

namespace RbLimits

def shared (rbs : RbLimits) : Nat := rbs.max - rbs.min

end RbLimits

/-- What the scheduler reads of the cell configuration. The builder, for which `min_k2` is 1 at least,
the validator of the configuration and the lists of `get_fairly_distributed_pusch_td_resource_indices`
give the bounds and the order. -/
structure CellConfig where
  numerology : Nat
  dlRbs : Nat
  ulRbs : Nat
  ntnCsKoffset : Nat
  /-- k2 of each entry of `pusch_td_alloc_list`. -/
  puschK2 : List Nat
  /-- `valid_pusch_td_list` of each position of the slot ring. -/
  validPuschTdLists : List (List Nat)
  isDlEnabled : Nat → Bool
  dlRbs_lt : dlRbs < 2 ^ 32
  ulRbs_lt : ulRbs < 2 ^ 32
  koffset_le : ntnCsKoffset ≤ ntnCellSpecificKoffsetMax
  k2_pos : ∀ k2 ∈ puschK2, 0 < k2
  k2_le : ∀ k2 ∈ puschK2, k2 ≤ schedulerMaxK2
  valid_lt : ∀ list ∈ validPuschTdLists, ∀ td ∈ list, td < puschK2.length
  valid_sorted : ∀ list ∈ validPuschTdLists, (list.map fun td => puschK2.getD td 1).Pairwise (· ≤ ·)

namespace CellConfig
variable (cfg : CellConfig)

def k2 (td : Nat) : Nat := cfg.puschK2.getD td 1

def slotRingPos (slot : Nat) : Nat := slotCount cfg.numerology slot % cfg.validPuschTdLists.length

def validPuschTdList (slot : Nat) : List Nat :=
  cfg.validPuschTdLists.getD (cfg.slotRingPos slot) []

/-- `get_min_k2`. -/
def minK2 : Nat := cfg.puschK2.foldl min (cfg.puschK2.headD 1)

/-- Size of `pusch_rb_count_per_slot`. -/
def puschRingSize : Nat := getAllocatorRingSizeGtMin (schedulerMaxK2 + cfg.ntnCsKoffset)

/-- Position of a slot in `pusch_rb_count_per_slot`. -/
def puschRingPos (slot : Nat) : Nat := slotCount cfg.numerology slot % cfg.puschRingSize

def puschSlot (slotTx td : Nat) : Nat := slotTx + (cfg.k2 td + cfg.ntnCsKoffset)

def cellMaxRbs (isDl : Bool) : Nat := if isDl then cfg.dlRbs else cfg.ulRbs

end CellConfig

structure SliceRrmPolicyConfig where
  rrcMember : Nat
  rbs : RbLimits
  priority : Nat := 0

structure RanSliceInstance where
  rrcMember : Nat
  rbs : RbLimits
  priority : Nat := 0
  pdschRbCount : Nat := 0
  puschRbCountPerSlot : Nat → Nat := fun _ => 0
  lastPdschAllocSlot : Option Nat := none
  lastPuschAllocSlot : Option Nat := none

namespace RanSliceInstance
variable (cfg : CellConfig)

def maxSlotsSinceLastPxsch : Nat := 256

def nofPuschRbsAllocated (inst : RanSliceInstance) (puschSlot : Nat) : Nat :=
  inst.puschRbCountPerSlot (cfg.puschRingPos puschSlot)

def rbCount (inst : RanSliceInstance) (isDl : Bool) (slot : Nat) : Nat :=
  if isDl then inst.pdschRbCount else inst.nofPuschRbsAllocated cfg slot

def clearOld (slotTx : Nat) (last : Option Nat) : Option Nat :=
  last.filter fun slot => slotTx ≤ slot + maxSlotsSinceLastPxsch + cfg.ntnCsKoffset

/-- The counter of the last slot that can no longer be reached is cleared. -/
def slotIndication (inst : RanSliceInstance) (slotTx : Nat) : RanSliceInstance :=
  { inst with
    pdschRbCount := 0
    puschRbCountPerSlot :=
      Function.update inst.puschRbCountPerSlot (cfg.puschRingPos (slotTx + cfg.minK2 - 1)) 0
    lastPdschAllocSlot := clearOld cfg slotTx inst.lastPdschAllocSlot
    lastPuschAllocSlot := clearOld cfg slotTx inst.lastPuschAllocSlot }

def storeGrant (inst : RanSliceInstance) (isDl : Bool) (rbs slot : Nat) : RanSliceInstance :=
  if isDl then
    { inst with pdschRbCount := inst.pdschRbCount + rbs, lastPdschAllocSlot := some slot }
  else
    { inst with
      puschRbCountPerSlot := Function.update inst.puschRbCountPerSlot (cfg.puschRingPos slot)
        (inst.nofPuschRbsAllocated cfg slot + rbs)
      lastPuschAllocSlot := some slot }

def slotsSince (slot : Nat) (last : Option Nat) : Nat :=
  match last with
  | none => maxSlotsSinceLastPxsch
  | some last => slot - last

end RanSliceInstance

/-- What a slot brings with it besides the state of the scheduler. -/
structure SlotInput where
  /-- The slice has UEs. -/
  active : Nat → Bool
  /-- Average RBs per slot of a slice, rounded. -/
  averageRbsPerSlot : Bool → Nat → Nat
  pdschEnabled : Bool
  /-- No RB is left for a PUSCH time domain resource. -/
  allCrbsUsed : Nat → Bool

def skipPrio : Nat := 0

def getPrio (input : SlotInput) (id : Nat) (inst : RanSliceInstance) (isDl : Bool)
    (pdcchSlot pxschSlot rbLims : Nat) : Nat :=
  if !input.active id then skipPrio
  else
    let prio := 127 - min (pxschSlot - pdcchSlot) 127
    let prio := prio <<< 1 + if rbLims ≤ inst.rbs.min ∧ inst.rbs.min > 0 then 1 else 0
    let prio := prio <<< 8 + min inst.priority 255
    let delay := RanSliceInstance.slotsSince pxschSlot
      (if isDl then inst.lastPdschAllocSlot else inst.lastPuschAllocSlot)
    let prio := prio <<< 8 + min delay 255
    let prio := prio <<< 7 + (127 - min (input.averageRbsPerSlot isDl id) 127)
    prio <<< 1 + 1

structure SliceCandidate where
  id : Nat
  prio : Nat
  start : Nat
  stop : Nat
  slotTx : Nat
  deriving DecidableEq, Repr

/-- `std::sort` by descending priority, which leaves the order of equal priorities open. -/
structure SortByPrio where
  sort : List SliceCandidate → List SliceCandidate
  perm : ∀ queue, (sort queue).Perm queue
  sorted : ∀ queue, (sort queue).Pairwise fun a b => b.prio ≤ a.prio

structure InterSliceScheduler where
  currentSlot : Option Nat := none
  nofSlices : Nat
  slices : Nat → RanSliceInstance
  countDlDedRbs : Nat → Nat := fun _ => 0
  countUlDedRbs : Nat → Nat := fun _ => 0
  dlPrioQueue : List SliceCandidate := []
  ulPrioQueue : List SliceCandidate := []

namespace InterSliceScheduler
variable (cfg : CellConfig) (std : SortByPrio)

def adjustRbs (rbs : RbLimits) : RbLimits where
  dedicated := min rbs.dedicated cfg.dlRbs
  min := min rbs.min cfg.dlRbs
  max := min rbs.max cfg.dlRbs
  dedicated_le := Nat.le_min.mpr ⟨(Nat.min_le_left _ _).trans rbs.dedicated_le, Nat.min_le_right _ _⟩
  min_le := Nat.le_min.mpr ⟨(Nat.min_le_left _ _).trans rbs.min_le, Nat.min_le_right _ _⟩

/-- The slices: the default ones for SRBs and DRBs, whose member is 0, and the configured ones. -/
def createSlices (members : List SliceRrmPolicyConfig) : List RanSliceInstance :=
  { rrcMember := 0, priority := 255,
    rbs := { dedicated := 0, min := cfg.dlRbs, max := cfg.dlRbs, dedicated_le := Nat.zero_le _,
             min_le := Nat.le_refl _ } } ::
  { rrcMember := 0,
    rbs := { dedicated := 0, min := 0, max := cfg.dlRbs, dedicated_le := Nat.le_refl _,
             min_le := Nat.zero_le _ } } ::
  members.map fun member =>
    { rrcMember := member.rrcMember, rbs := adjustRbs cfg member.rbs,
      priority := min member.priority 255 }

def create (members : List SliceRrmPolicyConfig) : InterSliceScheduler where
  nofSlices := members.length + 2
  slices id := (createSlices cfg members).getD id ((createSlices cfg members).headD
    { rrcMember := 0, rbs := { dedicated := 0, min := 0, max := 0, dedicated_le := Nat.le_refl _,
                               min_le := Nat.le_refl _ } })

/-- One turn of the loop of `slot_indication` over the slots since the last indication. -/
def advanceSlot (s : InterSliceScheduler) (slot : Nat) : InterSliceScheduler :=
  { s with
    currentSlot := some slot
    slices := fun id => (s.slices id).slotIndication cfg slot
    countDlDedRbs := Function.update s.countDlDedRbs (cfg.slotRingPos (slot - 1)) 0
    countUlDedRbs := Function.update s.countUlDedRbs (cfg.slotRingPos (slot - 1)) 0 }

def advance (s : InterSliceScheduler) (slotTx : Nat) : InterSliceScheduler :=
  -- The first call starts one slot before.
  let last := s.currentSlot.getD (slotTx - 1)
  (List.range' (last + 1) (slotTx - last)).foldl (advanceSlot cfg) s

/-- Candidates of a slice for one slot: two when the slice is below its minimum and may go above it. -/
def splitAtMin (input : SlotInput) (id : Nat) (inst : RanSliceInstance) (isDl : Bool)
    (pdcchSlot pxschSlot rbCount : Nat) : List SliceCandidate :=
  let candidate (start stop : Nat) : SliceCandidate :=
    { id, prio := getPrio input id inst isDl pdcchSlot pxschSlot stop, start, stop, slotTx := pxschSlot }
  if rbCount < inst.rbs.min ∧ inst.rbs.min > 0 ∧ inst.rbs.shared > 0 then
    [candidate rbCount inst.rbs.min, candidate inst.rbs.min inst.rbs.max]
  else [candidate rbCount inst.rbs.max]

def dlCandidates (s : InterSliceScheduler) (input : SlotInput) (slotTx id : Nat) :
    List SliceCandidate :=
  let inst := s.slices id
  if !input.pdschEnabled ∨ inst.pdschRbCount ≥ inst.rbs.max then []
  else splitAtMin input id inst true slotTx slotTx inst.pdschRbCount

/-- The loop over PUSCH time domain resources; `allocatedK2` is the last k2 with a candidate. -/
def ulCandidates (s : InterSliceScheduler) (input : SlotInput) (slotTx id : Nat) :
    Option Nat → List Nat → List SliceCandidate
  | _, [] => []
  | allocatedK2, td :: rest =>
    let inst := s.slices id
    let puschSlot := cfg.puschSlot slotTx td
    let rbCount := inst.nofPuschRbsAllocated cfg puschSlot
    if rbCount ≥ inst.rbs.max then ulCandidates s input slotTx id allocatedK2 rest
    else if allocatedK2 = some (cfg.k2 td) then ulCandidates s input slotTx id allocatedK2 rest
    else if input.allCrbsUsed td then ulCandidates s input slotTx id allocatedK2 rest
    else
      splitAtMin input id inst false slotTx puschSlot rbCount ++
        ulCandidates s input slotTx id (some (cfg.k2 td)) rest

/-- `push` leaves out skipped candidates. -/
def pushAll (candidates : List SliceCandidate) : List SliceCandidate :=
  candidates.filter fun candidate => candidate.prio ≠ skipPrio

def slotIndication (s : InterSliceScheduler) (slotTx : Nat) (input : SlotInput) :
    InterSliceScheduler :=
  let s := { advance cfg s slotTx with dlPrioQueue := [], ulPrioQueue := [] }
  if !cfg.isDlEnabled slotTx then s
  else
    { s with
      dlPrioQueue := std.sort (pushAll ((List.range s.nofSlices).flatMap (dlCandidates s input slotTx)))
      ulPrioQueue := std.sort (pushAll ((List.range s.nofSlices).flatMap fun id =>
        ulCandidates cfg s input slotTx id none (cfg.validPuschTdList slotTx))) }

def prioQueue (s : InterSliceScheduler) (isDl : Bool) : List SliceCandidate :=
  if isDl then s.dlPrioQueue else s.ulPrioQueue

def setPrioQueue (s : InterSliceScheduler) (isDl : Bool) (queue : List SliceCandidate) :
    InterSliceScheduler :=
  if isDl then { s with dlPrioQueue := queue } else { s with ulPrioQueue := queue }

def countRbs (s : InterSliceScheduler) (isDl : Bool) (slot : Nat) : Nat :=
  (if isDl then s.countDlDedRbs else s.countUlDedRbs) (cfg.slotRingPos slot)

def setCountRbs (s : InterSliceScheduler) (isDl : Bool) (slot count : Nat) : InterSliceScheduler :=
  if isDl then
    { s with countDlDedRbs := Function.update s.countDlDedRbs (cfg.slotRingPos slot) count }
  else { s with countUlDedRbs := Function.update s.countUlDedRbs (cfg.slotRingPos slot) count }

def combine (top second : SliceCandidate) : SliceCandidate :=
  { top with start := min top.start second.start, stop := max top.stop second.stop }

/-- The next candidate of a queue, combined with the one after it when that is for the same slice and
slot. -/
def popCombined (queue : List SliceCandidate) : Option (SliceCandidate × List SliceCandidate) :=
  match queue with
  | [] => none
  | [top] => some (top, [])
  | top :: second :: rest =>
    if second.id = top.id ∧ sameSlot cfg.numerology second.slotTx top.slotTx then
      some (combine top second, rest)
    else some (top, second :: rest)

def remRbs (cellMaxRbs countRbs : Nat) : Nat := (cellMaxRbs + 2 ^ 32 - countRbs % 2 ^ 32) % 2 ^ 32

/-- The candidate that is handed out: the slice, its slot and the maximum of RBs. -/
structure Offer where
  id : Nat
  slotTx : Nat
  maxRbs : Nat
  deriving DecidableEq, Repr

def remainingRbs (s : InterSliceScheduler) (isDl : Bool) (offer : Offer) : Nat :=
  offer.maxRbs - (s.slices offer.id).rbCount cfg isDl offer.slotTx

/-- One turn of the loop of `get_next_candidate` with the candidate that was taken out of the queue. -/
def takeCandidate (s : InterSliceScheduler) (isDl : Bool) (candidate : SliceCandidate) :
    InterSliceScheduler × Option Offer :=
  let inst := s.slices candidate.id
  let count := countRbs cfg s isDl candidate.slotTx
  let maxRbs := min candidate.stop (remRbs (cfg.cellMaxRbs isDl) count)
  let s :=
    if candidate.start < inst.rbs.min then
      setCountRbs cfg s isDl candidate.slotTx ((count + inst.rbs.dedicated) % 2 ^ 32)
    else s
  if maxRbs = 0 then (s, none)
  else
    let rbCount := inst.rbCount cfg isDl candidate.slotTx
    if candidate.start ≤ rbCount ∧ rbCount < candidate.stop then
      (s, some { id := candidate.id, slotTx := candidate.slotTx, maxRbs })
    else (s, none)

/-- `get_next_candidate`; the loop takes at least one candidate out of the queue each turn. -/
def getNextCandidate (isDl : Bool) : Nat → InterSliceScheduler → InterSliceScheduler × Option Offer
  | 0, s => (s, none)
  | turns + 1, s =>
    match popCombined cfg (s.prioQueue isDl) with
    | none => (s, none)
    | some (candidate, rest) =>
      match takeCandidate cfg (s.setPrioQueue isDl rest) isDl candidate with
      | (s, some offer) => (s, some offer)
      | (s, none) => getNextCandidate isDl turns s

/-- The grants of a candidate. One that is not filled has none. -/
def storeGrant (s : InterSliceScheduler) (isDl : Bool) (offer : Offer) (rbs : Nat) :
    InterSliceScheduler :=
  if rbs = 0 then s
  else
    { s with
      slices := Function.update s.slices offer.id
        ((s.slices offer.id).storeGrant cfg isDl rbs offer.slotTx) }

def handleSliceReconfigurationRequest (s : InterSliceScheduler) (policies : List (Nat × RbLimits)) :
    InterSliceScheduler :=
  policies.foldl (fun s policy =>
    { s with
      slices := fun id =>
        if (s.slices id).rrcMember = policy.1 then { s.slices id with rbs := policy.2 }
        else s.slices id }) s

end InterSliceScheduler

end Srsran.Scheduler
