import Srsran.Adt.BoundedBitset
import Srsran.Scheduler.RbHelper

/-! The VRB-to-PRB mapping with interleaving (`vrb_to_prb.h`, `vrb_to_prb.cpp`). -/
namespace Srsran.Ran.VrbToPrb
open Srsran.Adt Scheduler

inductive MappingType where
  | nonInterleaved
  | interleavedN2
  | interleavedN4
  deriving DecidableEq

def MappingType.bundleSize : MappingType → UInt32
  | .nonInterleaved => 0
  | .interleavedN2 => 2
  | .interleavedN4 => 4

inductive MappingFault where
  /-- "Invalid bundle size". -/
  | invalidBundleSize
  /-- "Invalid configuration for interleaved mapping." -/
  | notInterleaved
  /-- A VRB, PRB or BWP does not suit the mapping. -/
  | unsuitable
  /-- A `static_vector` is too large, or an index or a span is out of its range. -/
  | outOfRange
  | bitset (fault : BitsetFault)
  deriving DecidableEq

structure Configuration where
  nofBundles : Nat
  coresetStart : Nat
  nofRbs : Nat
  firstBundleSize : Nat
  otherBundleSize : Nat
  lastBundleSize : Nat
  deriving DecidableEq

def divideCeil (num den : UInt32) : UInt32 := (num + (den - 1)) / den

def createInterleavedCoreset0 (nStartCoreset nBwpInitSize : UInt32) : Configuration :=
  let l : UInt32 := 2
  { nofBundles := (divideCeil nBwpInitSize l).toNat
    coresetStart := nStartCoreset.toNat
    nofRbs := nBwpInitSize.toNat
    firstBundleSize := l.toNat
    otherBundleSize := l.toNat
    lastBundleSize := (if nBwpInitSize % l > 0 then nBwpInitSize % l else l).toNat }

def createInterleavedCommonSs (nStartCoreset nBwpIStart nBwpInitSize : UInt32) : Configuration :=
  let l : UInt32 := 2
  { nofBundles := (divideCeil (nBwpInitSize + (nBwpIStart + nStartCoreset) % l) l).toNat
    coresetStart := nStartCoreset.toNat
    nofRbs := nBwpInitSize.toNat
    firstBundleSize := (l - (nBwpIStart + nStartCoreset) % l).toNat
    otherBundleSize := l.toNat
    lastBundleSize := (if (nBwpInitSize + nBwpIStart + nStartCoreset) % l > 0 then
      (nBwpInitSize + nBwpIStart + nStartCoreset) % l else l).toNat }

def createInterleavedOther (nBwpIStart nBwpISize : UInt32) (lI : MappingType) : Except MappingFault Configuration :=
  let l := lI.bundleSize
  if l = 2 ∨ l = 4 then
    .ok
      { nofBundles := (divideCeil (nBwpISize + nBwpIStart % l) l).toNat
        coresetStart := 0
        nofRbs := nBwpISize.toNat
        firstBundleSize := (l - nBwpIStart % l).toNat
        otherBundleSize := l.toNat
        lastBundleSize := (if (nBwpIStart + nBwpISize) % l > 0 then (nBwpIStart + nBwpISize) % l else l).toNat }
  else .error .invalidBundleSize

inductive Configuration.Produced : Configuration → Prop where
  | coreset0 (nStartCoreset nBwpInitSize : UInt32) : Produced (createInterleavedCoreset0 nStartCoreset nBwpInitSize)
  | commonSs (nStartCoreset nBwpIStart nBwpInitSize : UInt32) :
      Produced (createInterleavedCommonSs nStartCoreset nBwpIStart nBwpInitSize)
  | other {nBwpIStart nBwpISize : UInt32} {lI : MappingType} {config : Configuration} :
      createInterleavedOther nBwpIStart nBwpISize lI = .ok config → Produced config

def u32 (n : Nat) : Nat := n % 2 ^ 32

def u16 (n : Nat) : Nat := n % 2 ^ 16

/-- A subtraction of `unsigned` numbers. -/
def sub32 (a b : Nat) : Nat := u32 (a + 2 ^ 32 - b)

/-- `std::iota` over a span of the indices. -/
def fillIota (indices : List Nat) (offset count value : Nat) : Except MappingFault (List Nat) :=
  if offset + count ≤ indices.length then
    .ok (indices.mapIdx fun i x => if offset ≤ i ∧ i < offset + count then u16 (value + (i - offset)) else x)
  else .error .outOfRange

def getInterleavedPrb (prbIndices : List Nat) (offset nofBundles firstBundleSize otherBundleSize lastBundleSize : Nat) :
    Except MappingFault (List Nat) := do
  let r := 2
  let c := nofBundles / r
  let prbIndices ← fillIota prbIndices 0 firstBundleSize offset
  let prbIndices ← fillIota prbIndices (prbIndices.length - lastBundleSize) lastBundleSize
    (offset + sub32 nofBundles 2 * otherBundleSize + firstBundleSize)
  ((List.range c).product (List.range r)).foldlM (fun prbIndices (iC, iR) =>
    let j := iC * r + iR
    -- The first and last VRB bundles are skipped.
    if j = 0 ∨ nofBundles - 2 < j then .ok prbIndices
    else
      let fJ := iR * c + iC
      fillIota prbIndices ((j - 1) * otherBundleSize + firstBundleSize) otherBundleSize
        (offset + (fJ - 1) * otherBundleSize + firstBundleSize)) prbIndices

structure InterleavedMapping where
  config : Configuration
  vrbToPrbIndices : List Nat
  prbToVrbIndices : List Nat

def createVector (size : Nat) : Except MappingFault (List Nat) :=
  if size ≤ maxNofPrbs then .ok (List.replicate size 0) else .error .outOfRange

def getIndex (indices : List Nat) (i : Nat) : Except MappingFault Nat :=
  match indices[i]? with
  | some x => .ok x
  | none => .error .outOfRange

def setIndex (indices : List Nat) (i x : Nat) : Except MappingFault (List Nat) :=
  if i < indices.length then .ok (indices.set i x) else .error .outOfRange

def check (suitable : Prop) [Decidable suitable] : Except MappingFault Unit :=
  if suitable then .ok () else .error .unsuitable

/-- `prb_bitmap`, `crb_bitmap` and `vrb_bitmap`. -/
abbrev RbBitmap := BoundedBitset maxNofPrbs

namespace InterleavedMapping

def create (config : Configuration) : Except MappingFault InterleavedMapping := do
  let vrbToPrbIndices ← createVector config.nofRbs
  let prbToVrbIndices ← createVector (u32 (config.coresetStart + config.nofRbs))
  if config.nofBundles = 0 then .error .notInterleaved
  else do
    let vrbToPrbIndices ← getInterleavedPrb vrbToPrbIndices config.coresetStart config.nofBundles
      config.firstBundleSize config.otherBundleSize config.lastBundleSize
    let prbToVrbIndices ← (List.range config.nofRbs).foldlM (fun prbToVrbIndices vrb => do
      setIndex prbToVrbIndices (← getIndex vrbToPrbIndices vrb) vrb) prbToVrbIndices
    return { config, vrbToPrbIndices, prbToVrbIndices }

variable (m : InterleavedMapping)

def vrbToPrb (vrb : Nat) : Except MappingFault Nat := do
  check (vrb ≤ m.config.nofRbs)
  getIndex m.vrbToPrbIndices vrb

def prbToVrb (prb : Nat) : Except MappingFault Nat := do
  check (m.config.coresetStart ≤ prb)
  check (prb ≤ m.config.coresetStart + m.config.nofRbs)
  getIndex m.prbToVrbIndices prb

def inMapping {α : Type} (r : Except BitsetFault α) : Except MappingFault α := r.mapError .bitset

def setImages (bits : RbBitmap) (image : Nat → Except MappingFault Nat) (rbs : List Nat) :
    Except MappingFault RbBitmap :=
  rbs.foldlM (fun (bits : RbBitmap) rb => do inMapping (bits.set (← image rb))) bits

def runEnd (bits : RbBitmap) (endPrb : Nat) : Nat :=
  if endPrb + 1 < bits.size ∧ bits.bit (endPrb + 1) = true then runEnd bits (endPrb + 1) else endPrb + 1
termination_by bits.size - endPrb

theorem lt_runEnd (bits : RbBitmap) (endPrb : Nat) : endPrb < runEnd bits endPrb := by
  fun_induction runEnd bits endPrb with
  | case1 endPrb _ ih => exact Nat.lt_trans (Nat.lt_succ_self _) ih
  | case2 endPrb _ => exact Nat.lt_succ_self endPrb

def run (bits : RbBitmap) (startPrb : Nat) : RbInterval :=
  ⟨startPrb, runEnd bits startPrb, Nat.le_of_lt (lt_runEnd bits startPrb)⟩

def findIntervals (prbBits : RbBitmap) : Except MappingFault (RbInterval × RbInterval) :=
  match prbBits.findLowest 0 with
  | none => .error .outOfRange
  | some startPrb =>
    let first := run prbBits startPrb
    if first.stop = prbBits.size then .ok (first, .empty)
    else
      match prbBits.findLowest first.stop with
      | none => .ok (first, .empty)
      | some startPrb => .ok (first, run prbBits startPrb)

def vrbIntervalToPrb (vrbs : RbInterval) : Except MappingFault (RbInterval × RbInterval) :=
  if vrbs.isEmpty = true then .ok (.empty, .empty)
  else do
    let prbBits ← inMapping (BoundedBitset.create maxNofPrbs (m.config.coresetStart + m.config.nofRbs))
    let prbBits ← setImages prbBits m.vrbToPrb (List.range' vrbs.start vrbs.length)
    findIntervals prbBits

def vrbBitmapToPrb (bwpSize : Nat) (vrbs : RbBitmap) : Except MappingFault RbBitmap := do
  check (vrbs.size ≤ m.config.nofRbs)
  check (m.config.coresetStart + m.config.nofRbs ≤ bwpSize)
  let prbs ← inMapping (BoundedBitset.create maxNofPrbs bwpSize)
  setImages prbs m.vrbToPrb vrbs.setBits

def vrbToCrb (bwpStart bwpSize : Nat) (vrbs : RbBitmap) : Except MappingFault RbBitmap := do
  check (vrbs.size ≤ m.config.nofRbs)
  check (m.config.coresetStart + m.config.nofRbs ≤ bwpSize)
  let crbs ← inMapping (BoundedBitset.create maxNofPrbs (bwpStart + bwpSize))
  setImages crbs (fun vrb => return bwpStart + (← m.vrbToPrb vrb)) vrbs.setBits

def vrbToCrbIndices (bwpStart bwpSize : Nat) (vrbs : RbBitmap) : Except MappingFault (List Nat) := do
  let _crbs ← inMapping (BoundedBitset.create maxNofPrbs (bwpStart + bwpSize))
  vrbs.setBits.mapM fun vrb => return u16 (bwpStart + (← m.vrbToPrb vrb))

end InterleavedMapping
end Srsran.Ran.VrbToPrb
