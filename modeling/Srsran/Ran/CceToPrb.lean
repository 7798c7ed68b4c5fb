import Srsran.Adt.BoundedBitset
import Srsran.Scheduler.RbHelper

/-! CORESETs and the RBs of their CCEs (`coreset.h`, `cce_to_prb_mapping.cpp`). -/
namespace Srsran.Ran.Pdcch
open Srsran.Adt Scheduler

def nofRegPerCce : Nat := 6

def nofRbPerFreqResource : Nat := 6

def maxNofFreqResources : Nat := maxNofPrbs / nofRbPerFreqResource

abbrev FreqResourceBitmap := BoundedBitset maxNofFreqResources

structure InterleavedMappingType where
  regBundleSz : Nat
  interleaverSz : Nat
  shiftIndex : Nat
  regBundleSz_mem : regBundleSz ∈ [2, 3, 6]
  interleaverSz_mem : interleaverSz ∈ [2, 3, 6]
  shiftIndex_lt : shiftIndex < maxNofPrbs

structure CoresetConfiguration where
  id : Nat
  duration : Nat
  interleaved : Option InterleavedMappingType
  coreset0Rbs : RbInterval
  otherCoresetFreqResources : FreqResourceBitmap

inductive PdcchFault where
  /-- "Invalid CORESET configuration". -/
  | invalidCoreset
  /-- An index of a `static_vector` is out of range. -/
  | outOfRange
  /-- An RB falls outside of the BWP. -/
  | outsideBwp
  deriving DecidableEq

namespace CoresetConfiguration
variable (csCfg : CoresetConfiguration)

def getCoresetNofPrbs : Nat :=
  if csCfg.id = 0 then csCfg.coreset0Rbs.length
  else csCfg.otherCoresetFreqResources.setBits.length * nofRbPerFreqResource

def getNofCces : Nat := csCfg.getCoresetNofPrbs * csCfg.duration / nofRegPerCce

end CoresetConfiguration

inductive AggregationLevel where
  | n1
  | n2
  | n4
  | n8
  | n16
  deriving DecidableEq

def AggregationLevel.toNofCces : AggregationLevel → Nat
  | .n1 => 1
  | .n2 => 2
  | .n4 => 4
  | .n8 => 8
  | .n16 => 16

def cceToRegMappingNonInterleaved (aggregationLevel cceIndex : Nat) : List Nat :=
  List.range' (nofRegPerCce * cceIndex) (nofRegPerCce * aggregationLevel)

/-- The place of a REG bundle `x = c * R + r`. -/
def dstRegBundleIndex (nRegCoreset l r nShift x : Nat) : Nat :=
  let c := nRegCoreset / (l * r)
  (x % r * c + x / r + nShift) % (nRegCoreset / l)

def cceToRegMappingInterleaved (nRbCoreset nSymbCoreset regBundleSize interleaverSize shiftIndex aggregationLevel
    cceIndex : Nat) : Except PdcchFault (List Nat) :=
  let nRegCoreset := nRbCoreset * nSymbCoreset
  if 0 < nRegCoreset ∧ nRegCoreset % (regBundleSize * interleaverSize) = 0 ∧ regBundleSize % nSymbCoreset = 0 then
    let nofRegBundleInCce := nofRegPerCce / regBundleSize
    let regs := (List.range' (cceIndex * nofRegBundleInCce) (aggregationLevel * nofRegBundleInCce)).flatMap fun x =>
      List.range' (dstRegBundleIndex nRegCoreset regBundleSize interleaverSize shiftIndex x * regBundleSize) regBundleSize
    .ok regs.mergeSort
  else .error .invalidCoreset

def getIndex (indexes : List Nat) (i : Nat) : Except PdcchFault Nat :=
  match indexes[i]? with
  | some x => .ok x
  | none => .error .outOfRange

def regToPrbMappingCoreset0 (nCoreset0Start nSymbCoreset : Nat) (regIndexes : List Nat) :
    Except PdcchFault (List Nat) :=
  -- The loop ends when its index is the size.
  if regIndexes.length % nSymbCoreset = 0 then
    (List.range (regIndexes.length / nSymbCoreset)).mapM fun i => do
      return (← getIndex regIndexes (i * nSymbCoreset)) / nSymbCoreset + nCoreset0Start
  else .error .outOfRange

def regToPrbLoop (nSymbCoreset : Nat) (regIndexes : List Nat) :
    List Nat → (regIndex regCount : Nat) → List Nat → Except PdcchFault (List Nat)
  | [], _, _, result => .ok result
  | prbIndex :: prbs, regIndex, regCount, result => do
    let reg ← getIndex regIndexes regCount
    if regIndex ≠ reg then regToPrbLoop nSymbCoreset regIndexes prbs (regIndex + nSymbCoreset) regCount result
    else if regCount + nSymbCoreset = regIndexes.length then .ok (result ++ [prbIndex])
    else
      regToPrbLoop nSymbCoreset regIndexes prbs (regIndex + nSymbCoreset) (regCount + nSymbCoreset)
        (result ++ [prbIndex])

def freqResourceRbs (nBwpStart : Nat) (freqResources : FreqResourceBitmap) : List Nat :=
  freqResources.setBits.flatMap fun freqResourceIndex =>
    List.range' (freqResourceIndex * nofRbPerFreqResource + nBwpStart) nofRbPerFreqResource

def regToPrbMappingOther (nBwpStart : Nat) (freqResources : FreqResourceBitmap) (nSymbCoreset : Nat)
    (regIndexes : List Nat) : Except PdcchFault (List Nat) :=
  regToPrbLoop nSymbCoreset regIndexes (freqResourceRbs nBwpStart freqResources) 0 0 []

def cceToPrbMappingCoreset0 (nCoreset0Start nCoreset0Size nSymbCoreset nIdCell aggregationLevel cceIndex : Nat) :
    Except PdcchFault (List Nat) := do
  let regIndexes ← cceToRegMappingInterleaved nCoreset0Size nSymbCoreset 6 2 nIdCell aggregationLevel cceIndex
  regToPrbMappingCoreset0 nCoreset0Start nSymbCoreset regIndexes

def cceToPrbMappingNonInterleaved (nBwpStart : Nat) (freqResources : FreqResourceBitmap)
    (nSymbCoreset aggregationLevel cceIndex : Nat) : Except PdcchFault (List Nat) :=
  regToPrbMappingOther nBwpStart freqResources nSymbCoreset (cceToRegMappingNonInterleaved aggregationLevel cceIndex)

def cceToPrbMappingInterleaved (nBwpStart : Nat) (freqResources : FreqResourceBitmap)
    (nSymbCoreset regBundleSize interleaverSize shiftIndex aggregationLevel cceIndex : Nat) :
    Except PdcchFault (List Nat) := do
  let regIndexes ← cceToRegMappingInterleaved (freqResources.setBits.length * 6) nSymbCoreset regBundleSize
    interleaverSize shiftIndex aggregationLevel cceIndex
  regToPrbMappingOther nBwpStart freqResources nSymbCoreset regIndexes

/-- `pdcch_helper::cce_to_prb_mapping`, for a BWP that starts at `bwpStart`. -/
def cceToPrbMapping (bwpStart : Nat) (csCfg : CoresetConfiguration) (pci : UInt16) (aggrLvl : AggregationLevel)
    (ncce : Nat) : Except PdcchFault (List Nat) :=
  if csCfg.id = 0 then
    cceToPrbMappingCoreset0 csCfg.coreset0Rbs.start csCfg.getCoresetNofPrbs csCfg.duration pci.toNat
      aggrLvl.toNofCces ncce
  else
    match csCfg.interleaved with
    | some interleaved =>
      cceToPrbMappingInterleaved bwpStart csCfg.otherCoresetFreqResources csCfg.duration interleaved.regBundleSz
        interleaved.interleaverSz interleaved.shiftIndex aggrLvl.toNofCces ncce
    | none =>
      cceToPrbMappingNonInterleaved bwpStart csCfg.otherCoresetFreqResources csCfg.duration aggrLvl.toNofCces ncce

end Srsran.Ran.Pdcch
