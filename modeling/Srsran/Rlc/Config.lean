import Srsran.Lib.ModOrder

/-! Constants and enumerations shared by the RLC entities (`rlc_config.h`, `rlc_am_pdu.h`). -/
namespace Srsran.Rlc
open ModOrder

/-- RLC UM NR sequence number field. -/
inductive RlcUmSnSize where
  | size6bits
  | size12bits
  deriving DecidableEq, Repr

def RlcUmSnSize.toNumber : RlcUmSnSize → Nat
  | .size6bits => 6
  | .size12bits => 12

/-- RLC AM NR sequence number field. -/
inductive RlcAmSnSize where
  | size12bits
  | size18bits
  deriving DecidableEq, Repr

def RlcAmSnSize.toNumber : RlcAmSnSize → Nat
  | .size12bits => 12
  | .size18bits => 18

def cardinality (snSize : Nat) : Nat := 1 <<< snSize

def windowSize (snSize : Nat) : Nat := cardinality (snSize - 1)

inductive RlcSiField where
  | fullSdu
  | firstSegment
  | lastSegment
  | middleSegment
  deriving DecidableEq, Repr

def RlcSiField.toNumber : RlcSiField → Nat
  | .fullSdu => 0
  | .firstSegment => 1
  | .lastSegment => 2
  | .middleSegment => 3

/-- The cast of a two-bit field to `rlc_si_field`. -/
def RlcSiField.ofNumber : Nat → RlcSiField
  | 0 => .fullSdu
  | 1 => .firstSegment
  | 2 => .lastSegment
  | _ => .middleSegment

/-- Reserved number representing an invalid RLC sequence number. -/
def invalidRlcSn : Nat := 0xffffffff

theorem cardinality_eq (n : Nat) : cardinality n = 2 ^ n := Nat.one_shiftLeft n

theorem cardinality_modulus {n : Nat} (h : n ≤ 32) : Modulus (cardinality n) := by
  rw [cardinality_eq]
  exact .of_two_pow h

theorem cardinality_eq_two_windows {n : Nat} (h : 0 < n) :
    cardinality n = 2 * windowSize n := by
  obtain ⟨k, rfl⟩ := Nat.exists_eq_add_of_lt h
  simp only [windowSize, cardinality_eq, Nat.zero_add, Nat.add_sub_cancel]
  exact Nat.pow_succ'

theorem RlcAmSnSize.modulus (snSize : RlcAmSnSize) : Modulus (cardinality snSize.toNumber) :=
  cardinality_modulus (by cases snSize <;> decide)

theorem RlcUmSnSize.modulus (snSize : RlcUmSnSize) : Modulus (cardinality snSize.toNumber) :=
  cardinality_modulus (by cases snSize <;> decide)

theorem RlcAmSnSize.cardinality_eq (snSize : RlcAmSnSize) :
    cardinality snSize.toNumber = 2 * windowSize snSize.toNumber :=
  cardinality_eq_two_windows (by cases snSize <;> decide)

theorem RlcUmSnSize.cardinality_eq (snSize : RlcUmSnSize) :
    cardinality snSize.toNumber = 2 * windowSize snSize.toNumber :=
  cardinality_eq_two_windows (by cases snSize <;> decide)

end Srsran.Rlc
