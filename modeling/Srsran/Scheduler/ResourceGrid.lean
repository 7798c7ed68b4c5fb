import Srsran.Scheduler.HarqRepository

/-! The ring of slot resources of a cell (`cell/resource_grid.cpp`, `resource_grid_util.h`). The carrier of
a numerology is the whole range of RBs; that a grant is within its carrier is checked elsewhere. -/
namespace Srsran.Scheduler
open Ran

def ringMaxHistorySize : Nat := 16

structure CellGridConfig where
  numerology : Nat
  ntnCsKoffset : Nat
  nofDlSymbolPerSlot : SlotPoint → Nat
  nofUlSymbolPerSlot : SlotPoint → Nat

namespace CellGridConfig

def maxUlSlotAllocDelay (cfg : CellGridConfig) : Nat := getMaxSlotUlAllocDelay cfg.ntnCsKoffset

def ringSize (cfg : CellGridConfig) : Nat :=
  getAllocatorRingSizeGtMin (ringMaxHistorySize + getMaxSlotUlAllocDelay cfg.ntnCsKoffset)

end CellGridConfig

structure Interval where
  start : Nat
  stop : Nat
  deriving DecidableEq, Repr

def Interval.contains (interval : Interval) (x : Nat) : Bool := interval.start ≤ x && x < interval.stop

structure GrantInfo where
  scs : Nat
  symbols : Interval
  crbs : Interval
  deriving DecidableEq, Repr

abbrev CellSlotResourceGrid := Nat → Nat → Nat → Bool

namespace CellSlotResourceGrid

def clear : CellSlotResourceGrid := fun _ _ _ => false

def fill (grid : CellSlotResourceGrid) (grant : GrantInfo) : CellSlotResourceGrid := fun scs symbol crb =>
  grid scs symbol crb || (scs == grant.scs && grant.symbols.contains symbol && grant.crbs.contains crb)

def fillCrbs (grid : CellSlotResourceGrid) (grantScs : Nat) (symbols : Interval) (crbs : List Nat) :
    CellSlotResourceGrid := fun scs symbol crb =>
  grid scs symbol crb || (scs == grantScs && symbols.contains symbol && crbs.contains crb)

def clearCrbs (grid : CellSlotResourceGrid) (grantScs : Nat) (symbols : Interval) (crbs : List Nat) :
    CellSlotResourceGrid := fun scs symbol crb =>
  grid scs symbol crb && !(scs == grantScs && symbols.contains symbol && crbs.contains crb)

end CellSlotResourceGrid

/-- The lists of a `sched_result`. -/
inductive GrantKind where
  | dlPdcch
  | ulPdcch
  | ssb
  | sib
  | rar
  | paging
  | ue
  | csiRs
  | pusch
  | prach
  | pucch
  | srs
  deriving DecidableEq, Repr

structure SchedResult (G : Type) where
  success : Bool
  nofDlSymbols : Nat
  nofUlSymbols : Nat
  grants : GrantKind → List G
  failedPdcch : Nat
  failedUci : Nat

structure CellSlotResourceAllocator (G : Type) where
  slot : SlotPoint
  result : SchedResult G
  dlResGrid : CellSlotResourceGrid
  ulResGrid : CellSlotResourceGrid

inductive SlotAction (G : Type) where
  | addGrant (kind : GrantKind) (grant : G)
  /-- Grants are changed or taken back. -/
  | editGrants (kind : GrantKind) (edit : List G → List G)
  | fill (isDl : Bool) (grant : GrantInfo)
  | fillCrbs (isDl : Bool) (scs : Nat) (symbols : Interval) (crbs : List Nat)
  | clearCrbs (isDl : Bool) (scs : Nat) (symbols : Interval) (crbs : List Nat)
  | failedPdcch
  | failedUci

namespace CellSlotResourceAllocator
variable {G : Type}

def clear (r : CellSlotResourceAllocator G) : CellSlotResourceAllocator G :=
  { r with
    result := { r.result with
      grants := fun _ => []
      failedPdcch := 0
      failedUci := 0
      success := false }
    dlResGrid := .clear
    ulResGrid := .clear }

def slotIndication (cfg : CellGridConfig) (r : CellSlotResourceAllocator G) (newSlot : SlotPoint) :
    CellSlotResourceAllocator G :=
  { r.clear with
    slot := newSlot
    result := { r.clear.result with
      success := true
      nofDlSymbols := cfg.nofDlSymbolPerSlot newSlot
      nofUlSymbols := cfg.nofUlSymbolPerSlot newSlot } }

def editGrid (r : CellSlotResourceAllocator G) (isDl : Bool)
    (edit : CellSlotResourceGrid → CellSlotResourceGrid) : CellSlotResourceAllocator G :=
  if isDl then { r with dlResGrid := edit r.dlResGrid } else { r with ulResGrid := edit r.ulResGrid }

def editGrants (r : CellSlotResourceAllocator G) (kind : GrantKind) (edit : List G → List G) :
    CellSlotResourceAllocator G :=
  { r with result := { r.result with
      grants := fun kind' => if kind' = kind then edit (r.result.grants kind) else r.result.grants kind' } }

def apply (r : CellSlotResourceAllocator G) : SlotAction G → CellSlotResourceAllocator G
  | .addGrant kind grant => r.editGrants kind (· ++ [grant])
  | .editGrants kind edit => r.editGrants kind edit
  | .fill isDl grant => r.editGrid isDl (·.fill grant)
  | .fillCrbs isDl scs symbols crbs => r.editGrid isDl (·.fillCrbs scs symbols crbs)
  | .clearCrbs isDl scs symbols crbs => r.editGrid isDl (·.clearCrbs scs symbols crbs)
  | .failedPdcch => { r with result := { r.result with failedPdcch := r.result.failedPdcch + 1 } }
  | .failedUci => { r with result := { r.result with failedUci := r.result.failedUci + 1 } }

end CellSlotResourceAllocator

inductive ResourceFault where
  /-- "Slot indication was skipped". -/
  | slotSkipped
  /-- "Invalid slot numerology". -/
  | invalidNumerology
  /-- "The cell resource pool is too small for accessing a slot with delay: {}". -/
  | delayTooLong
  /-- "Bad access to uninitialized cell_resource_grid". -/
  | uninitialized
  deriving DecidableEq, Repr

structure CellResourceAllocator (G : Type) where
  lastSlotInd : SlotPoint
  /-- The slots, by their position in the ring. -/
  slots : Nat → CellSlotResourceAllocator G

inductive ResourceEvent (G : Type) where
  | slotIndication (slTx : SlotPoint)
  | allocate (slotDelay : Nat) (action : SlotAction G)
  | stop

namespace CellResourceAllocator
variable {G : Type} (cfg : CellGridConfig)

def create : CellResourceAllocator G where
  lastSlotInd := .invalid
  slots := fun _ => {
    slot := .invalid
    result := {
      success := false
      nofDlSymbols := 0
      nofUlSymbols := 0
      grants := fun _ => []
      failedPdcch := 0
      failedUci := 0 }
    dlResGrid := .clear
    ulResGrid := .clear }

def ringPos (slot : SlotPoint) : Nat := slot.count % cfg.ringSize

/-- The slot at the position of `slot` gets an indication for `newSlot`. -/
def indicate (slots : Nat → CellSlotResourceAllocator G) (slot newSlot : SlotPoint) :
    Nat → CellSlotResourceAllocator G :=
  Function.update slots (ringPos cfg slot) ((slots (ringPos cfg slot)).slotIndication cfg newSlot)

/-- The first indication sets all slots of the ring, and a later one the slot that gets too old. -/
def slotIndication (s : CellResourceAllocator G) (slTx : SlotPoint) :
    Except ResourceFault (CellResourceAllocator G) :=
  if s.lastSlotInd.valid ∧ s.lastSlotInd.add 1 ≠ slTx then .error .slotSkipped
  else if slTx.numerology ≠ cfg.numerology then .error .invalidNumerology
  else if ¬s.lastSlotInd.valid then
    .ok {
      lastSlotInd := slTx
      slots := (List.range cfg.ringSize).foldl
        (fun slots i => indicate cfg slots (slTx.add i) (slTx.add i)) s.slots }
  else
    let slotToReset := slTx.sub ringMaxHistorySize
    .ok {
      lastSlotInd := slTx
      slots := indicate cfg s.slots slotToReset (slotToReset.add cfg.ringSize) }

def stop (s : CellResourceAllocator G) : CellResourceAllocator G where
  lastSlotInd := .invalid
  slots := fun pos => if pos < cfg.ringSize then (s.slots pos).clear else s.slots pos

def atDelay (s : CellResourceAllocator G) (slotDelay : Nat) :
    Except ResourceFault (CellSlotResourceAllocator G) :=
  if slotDelay ≤ cfg.maxUlSlotAllocDelay then
    let slTx := s.lastSlotInd.add slotDelay
    let r := s.slots (ringPos cfg slTx)
    if r.slot = slTx then .ok r else .error .uninitialized
  else .error .delayTooLong

def getHistory (s : CellResourceAllocator G) (slot : SlotPoint) :
    Except ResourceFault (Option (CellSlotResourceAllocator G)) :=
  let diff := s.lastSlotInd.diff slot
  if diff < 0 ∨ (ringMaxHistorySize : Int) ≤ diff then .ok none
  else
    let r := s.slots (ringPos cfg slot)
    if r.slot = slot then .ok (some r) else .error .uninitialized

/-- An action on the slot that `operator[]` gives. -/
def allocate (s : CellResourceAllocator G) (slotDelay : Nat) (action : SlotAction G) :
    Except ResourceFault (CellResourceAllocator G) := do
  let r ← s.atDelay cfg slotDelay
  .ok { s with
    slots := Function.update s.slots (ringPos cfg (s.lastSlotInd.add slotDelay)) (r.apply action) }

def step (s : CellResourceAllocator G) : ResourceEvent G → Except ResourceFault (CellResourceAllocator G)
  | .slotIndication slTx => s.slotIndication cfg slTx
  | .allocate slotDelay action => s.allocate cfg slotDelay action
  | .stop => .ok (s.stop cfg)

def next (s : CellResourceAllocator G) (event : ResourceEvent G) : Option (CellResourceAllocator G) :=
  (s.step cfg event).toOption

end CellResourceAllocator

end Srsran.Scheduler
