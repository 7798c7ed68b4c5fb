import Srsran.Ran.SlotPoint

/-! A slot together with a symbol of it (`slot_symbol_point.h`), for slots of 14 symbols. -/
namespace Srsran.Ofh
open Ran

def nofOfdmSymPerSlotNormalCp : Nat := 14

def nofSymbolsPerSlotWrap (numerology : Nat) : Nat :=
  nofSlotsPerHyperSystemFrame numerology * nofOfdmSymPerSlotNormalCp

theorem nofSymbolsPerSlotWrap_pos (numerology : Nat) : 0 < nofSymbolsPerSlotWrap numerology := by
  have hslots := le_nofSlotsPerHyperSystemFrame numerology
  rw [nofSymbolsPerSlotWrap, nofOfdmSymPerSlotNormalCp]
  omega

structure SlotSymbolPoint where
  numerology : Nat
  countVal : Nat
  numerology_lt : numerology < nofNumerologies
  countVal_lt : countVal < nofSymbolsPerSlotWrap numerology
  deriving DecidableEq, Repr

namespace SlotSymbolPoint

def ofSlot (slot : SlotPoint) (symbol : Nat) (hslot : slot.numerology < nofNumerologies)
    (hcount : slot.count < nofSlotsPerHyperSystemFrame slot.numerology)
    (hsymbol : symbol < nofOfdmSymPerSlotNormalCp) : SlotSymbolPoint where
  numerology := slot.numerology
  countVal := slot.count * nofOfdmSymPerSlotNormalCp + symbol
  numerology_lt := hslot
  countVal_lt := by
    rw [nofSymbolsPerSlotWrap]
    rw [nofOfdmSymPerSlotNormalCp] at hsymbol ⊢
    omega

def getSlot (point : SlotSymbolPoint) : SlotPoint where
  numerology := point.numerology
  count := point.countVal / nofOfdmSymPerSlotNormalCp

def getSymbolIndex (point : SlotSymbolPoint) : Nat := point.countVal % nofOfdmSymPerSlotNormalCp

/-- `operator+=`, by a number of symbols. -/
def add (point : SlotSymbolPoint) (jump : Int) : SlotSymbolPoint :=
  { point with
    countVal := ((point.countVal + jump) % nofSymbolsPerSlotWrap point.numerology).toNat
    countVal_lt := by
      have hpos := nofSymbolsPerSlotWrap_pos point.numerology
      have hlt := Int.emod_lt_of_pos (point.countVal + jump)
        (show (0 : Int) < nofSymbolsPerSlotWrap point.numerology by omega)
      omega }

/-- `operator<`: the order within half of all symbols. -/
def lt (point other : SlotSymbolPoint) : Bool :=
  let half : Int := nofSymbolsPerSlotWrap point.numerology / 2
  let v : Int := (other.countVal : Int) - point.countVal
  if 0 < v then v < half else v < -half

def gt (point other : SlotSymbolPoint) : Bool := point ≠ other && !point.lt other

/-- `operator-` of two points, in symbols. -/
def diff (point other : SlotSymbolPoint) : Int :=
  let half : Int := nofSymbolsPerSlotWrap point.numerology / 2
  let tmp : Int := (point.countVal : Int) - other.countVal
  if half < tmp then tmp - nofSymbolsPerSlotWrap point.numerology
  else if tmp < -half then tmp + nofSymbolsPerSlotWrap point.numerology else tmp

end SlotSymbolPoint

end Srsran.Ofh
