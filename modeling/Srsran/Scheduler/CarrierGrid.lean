import Mathlib.Data.List.ProdSigma
import Srsran.Adt.BoundedBitset
import Srsran.Scheduler.RbHelper
import Srsran.Scheduler.ResourceGrid

/-! The symbols and RBs of a carrier in a slot (`carrier_subslot_resource_grid`). -/
namespace Srsran.Scheduler
open Srsran.Adt Checked

def nofOfdmSymPerSlotNormalCp : Nat := 14

structure ScsSpecificCarrier where
  offsetToCarrier : Nat
  scs : Nat
  carrierBandwidth : Nat
  bandwidth_le : carrierBandwidth ≤ maxNofPrbs

inductive GridFault where
  /-- "CRB interval out-of-bounds". -/
  | crbsOutOfBounds
  /-- "OFDM symbols out-of-bounds". -/
  | symbolsOutOfBounds
  /-- "Cannot have negative starting_points". -/
  | negativeStart
  | bitset (fault : BitsetFault)
  deriving DecidableEq, Repr

abbrev SlotRbBitmap := BoundedBitset (nofOfdmSymPerSlotNormalCp * maxNofPrbs)

abbrev GridRbBitmap := BoundedBitset maxNofPrbs

structure CarrierGrid where
  carrierCfg : ScsSpecificCarrier
  slotRbs : SlotRbBitmap

namespace CarrierGrid

def inGrid {α : Type} (r : Except BitsetFault α) : Except GridFault α := r.mapError .bitset

def create (carrierCfg : ScsSpecificCarrier) : Except GridFault CarrierGrid := do
  let slotRbs ← inGrid (BoundedBitset.create _ (nofOfdmSymPerSlotNormalCp * carrierCfg.carrierBandwidth))
  return { carrierCfg, slotRbs }

variable (grid : CarrierGrid)

def nofRbs : Nat := grid.carrierCfg.carrierBandwidth

def offset : Nat := grid.carrierCfg.offsetToCarrier

def containsCrb (crb : Nat) : Bool := grid.offset ≤ crb && crb < grid.offset + grid.nofRbs

def containsCrbs (crbs : RbInterval) : Bool := grid.offset ≤ crbs.start && crbs.stop ≤ grid.offset + grid.nofRbs

def checkSymbols (symbols : RbInterval) : Except GridFault Unit :=
  if symbols.stop ≤ nofOfdmSymPerSlotNormalCp then .ok () else .error .symbolsOutOfBounds

def checkCrbs (crbs : RbInterval) : Except GridFault Unit :=
  if grid.containsCrbs crbs then .ok () else .error .crbsOutOfBounds

def displaceBy (crbs : RbInterval) (offset : Nat) : Except GridFault RbInterval :=
  if offset ≤ crbs.start then .ok (crbs.displaceTo (crbs.start - offset)) else .error .negativeStart

def symbolList (symbols : RbInterval) : List Nat := List.range' symbols.start symbols.length

def clear : CarrierGrid := { grid with slotRbs := grid.slotRbs.resetAll }

def fill (symbols crbs : RbInterval) : Except GridFault CarrierGrid := do
  grid.checkCrbs crbs
  checkSymbols symbols
  let crbs ← displaceBy crbs grid.offset
  let slotRbs ← inGrid ((symbolList symbols).foldlM
    (fun (slotRbs : SlotRbBitmap) i => slotRbs.fill (crbs.start + i * grid.nofRbs) (crbs.stop + i * grid.nofRbs))
    grid.slotRbs)
  return { grid with slotRbs }

def rbOf (i crb : Nat) : Except GridFault Nat :=
  if grid.containsCrb crb then .ok (crb - grid.offset + i * grid.nofRbs) else .error .crbsOutOfBounds

def resources (symbols : RbInterval) (crbList : List Nat) : List (Nat × Nat) := (symbolList symbols).product crbList

def fillList (symbols : RbInterval) (crbList : List Nat) : Except GridFault CarrierGrid := do
  checkSymbols symbols
  let slotRbs ← (resources symbols crbList).foldlM (fun (slotRbs : SlotRbBitmap) resource => do
    inGrid (slotRbs.set (← grid.rbOf resource.1 resource.2))) grid.slotRbs
  return { grid with slotRbs }

def clearList (symbols : RbInterval) (crbList : List Nat) : Except GridFault CarrierGrid := do
  checkSymbols symbols
  let slotRbs ← (resources symbols crbList).foldlM (fun (slotRbs : SlotRbBitmap) resource => do
    inGrid (slotRbs.reset (← grid.rbOf resource.1 resource.2))) grid.slotRbs
  return { grid with slotRbs }

def collides (symbols crbs : RbInterval) : Except GridFault Bool := do
  grid.checkCrbs crbs
  checkSymbols symbols
  let crbs ← displaceBy crbs grid.offset
  (symbolList symbols).anyM fun i =>
    inGrid (grid.slotRbs.any (crbs.start + i * grid.nofRbs) (crbs.stop + i * grid.nofRbs))

def collidesList (symbols : RbInterval) (crbList : List Nat) : Except GridFault Bool := do
  checkSymbols symbols
  (resources symbols crbList).anyM fun resource => do
    inGrid (grid.slotRbs.test (← grid.rbOf resource.1 resource.2))

def usedCrbs (bwpCrbLims symbols : RbInterval) : Except GridFault GridRbBitmap := do
  checkSymbols symbols
  inGrid do
    let selected : SlotRbBitmap ←
      grid.slotRbs.slice _ (symbols.start * grid.nofRbs) (symbols.stop * grid.nofRbs)
    let crbBits : GridRbBitmap ← BoundedBitset.foldAndAccumulate _ selected grid.nofRbs 0 grid.nofRbs
    let crbBits ← crbBits.fill 0 bwpCrbLims.start
    crbBits.fill bwpCrbLims.stop crbBits.size

def usedPrbs (bwpCrbLims symbols : RbInterval) : Except GridFault GridRbBitmap := do
  checkSymbols symbols
  inGrid do
    let selected : SlotRbBitmap ←
      grid.slotRbs.slice _ (symbols.start * grid.nofRbs) (symbols.stop * grid.nofRbs)
    BoundedBitset.foldAndAccumulate _ selected grid.nofRbs bwpCrbLims.start bwpCrbLims.length

end CarrierGrid

/-- What fills and clears a carrier. -/
inductive GridCall where
  | clear
  | fill (symbols crbs : RbInterval)
  | fillList (symbols : RbInterval) (crbList : List Nat)
  | clearList (symbols : RbInterval) (crbList : List Nat)

def CarrierGrid.apply (grid : CarrierGrid) : GridCall → Except GridFault CarrierGrid
  | .clear => .ok grid.clear
  | .fill symbols crbs => grid.fill symbols crbs
  | .fillList symbols crbList => grid.fillList symbols crbList
  | .clearList symbols crbList => grid.clearList symbols crbList

end Srsran.Scheduler
