import Mathlib.Tactic.Common
import Mathlib.Data.Rat.Defs

/-! MCS tables of the PDSCH (`sch_mcs.h`, `pdsch_mcs.cpp`). -/
namespace Srsran.Ran

/-- `modulation_scheme`, as far as the tables use it. -/
inductive ModulationScheme where
  | qpsk
  | qam16
  | qam64
  | qam256
  deriving DecidableEq

/-- `sch_mcs_index`, whose constructor asserts the bounds. -/
abbrev SchMcsIndex := Fin 32

/-- `sch_mcs_description`; the code rate is in units of 1/1024, and zero for reserved indices. -/
structure SchMcsDescription where
  modulation : ModulationScheme
  targetCodeRate : Rat

inductive PdschMcsTable where
  | qam64
  | qam256
  | qam64LowSe
  deriving DecidableEq

def mcsIndexTable1 : Vector SchMcsDescription 32 := #v[
  ⟨.qpsk, 120⟩, ⟨.qpsk, 157⟩, ⟨.qpsk, 193⟩, ⟨.qpsk, 251⟩, ⟨.qpsk, 308⟩, ⟨.qpsk, 379⟩, ⟨.qpsk, 449⟩,
  ⟨.qpsk, 526⟩, ⟨.qpsk, 602⟩, ⟨.qpsk, 679⟩, ⟨.qam16, 340⟩, ⟨.qam16, 378⟩, ⟨.qam16, 434⟩, ⟨.qam16, 490⟩,
  ⟨.qam16, 553⟩, ⟨.qam16, 616⟩, ⟨.qam16, 658⟩, ⟨.qam64, 438⟩, ⟨.qam64, 466⟩, ⟨.qam64, 517⟩, ⟨.qam64, 567⟩,
  ⟨.qam64, 616⟩, ⟨.qam64, 666⟩, ⟨.qam64, 719⟩, ⟨.qam64, 772⟩, ⟨.qam64, 822⟩, ⟨.qam64, 873⟩, ⟨.qam64, 910⟩,
  ⟨.qam64, 948⟩, ⟨.qpsk, 0⟩, ⟨.qam16, 0⟩, ⟨.qam64, 0⟩]

def mcsIndexTable2 : Vector SchMcsDescription 32 := #v[
  ⟨.qpsk, 120⟩, ⟨.qpsk, 193⟩, ⟨.qpsk, 308⟩, ⟨.qpsk, 449⟩, ⟨.qpsk, 602⟩, ⟨.qam16, 378⟩, ⟨.qam16, 434⟩,
  ⟨.qam16, 490⟩, ⟨.qam16, 553⟩, ⟨.qam16, 616⟩, ⟨.qam16, 658⟩, ⟨.qam64, 466⟩, ⟨.qam64, 517⟩, ⟨.qam64, 567⟩,
  ⟨.qam64, 616⟩, ⟨.qam64, 666⟩, ⟨.qam64, 719⟩, ⟨.qam64, 772⟩, ⟨.qam64, 822⟩, ⟨.qam64, 873⟩,
  ⟨.qam256, 682.5⟩, ⟨.qam256, 711⟩, ⟨.qam256, 754⟩, ⟨.qam256, 797⟩, ⟨.qam256, 841⟩, ⟨.qam256, 885⟩,
  ⟨.qam256, 916.5⟩, ⟨.qam256, 948⟩, ⟨.qpsk, 0⟩, ⟨.qam16, 0⟩, ⟨.qam64, 0⟩, ⟨.qam256, 0⟩]

def mcsIndexTable3 : Vector SchMcsDescription 32 := #v[
  ⟨.qpsk, 30⟩, ⟨.qpsk, 40⟩, ⟨.qpsk, 50⟩, ⟨.qpsk, 64⟩, ⟨.qpsk, 78⟩, ⟨.qpsk, 99⟩, ⟨.qpsk, 120⟩, ⟨.qpsk, 157⟩,
  ⟨.qpsk, 193⟩, ⟨.qpsk, 251⟩, ⟨.qpsk, 308⟩, ⟨.qpsk, 379⟩, ⟨.qpsk, 449⟩, ⟨.qpsk, 526⟩, ⟨.qpsk, 602⟩,
  ⟨.qam16, 340⟩, ⟨.qam16, 378⟩, ⟨.qam16, 434⟩, ⟨.qam16, 490⟩, ⟨.qam16, 553⟩, ⟨.qam16, 616⟩, ⟨.qam64, 438⟩,
  ⟨.qam64, 466⟩, ⟨.qam64, 517⟩, ⟨.qam64, 567⟩, ⟨.qam64, 616⟩, ⟨.qam64, 666⟩, ⟨.qam64, 719⟩, ⟨.qam64, 772⟩,
  ⟨.qpsk, 0⟩, ⟨.qam16, 0⟩, ⟨.qam64, 0⟩]

def pdschMcsGetConfig (table : PdschMcsTable) (index : SchMcsIndex) : SchMcsDescription :=
  match table with
  | .qam64 => mcsIndexTable1[index]
  | .qam256 => mcsIndexTable2[index]
  | .qam64LowSe => mcsIndexTable3[index]

def PdschMcsTable.Valid (table : PdschMcsTable) (index : SchMcsIndex) : Prop :=
  (pdschMcsGetConfig table index).targetCodeRate ≠ 0

instance (table : PdschMcsTable) (index : SchMcsIndex) : Decidable (table.Valid index) :=
  inferInstanceAs (Decidable (_ ≠ _))

end Srsran.Ran
