import Srsran.Support.BitEncoding

/-! PDCP SN of a PDCP PDU (`pdcp_sn_util.h`), by which RLC identifies its SDUs. -/
namespace Srsran.Pdcp
open Srsran.Support

/-- The SN sizes that the entities accept. -/
inductive PdcpSnSize where
  | size12bits
  | size18bits
  deriving DecidableEq, Repr

def PdcpSnSize.toNumber : PdcpSnSize → Nat
  | .size12bits => 12
  | .size18bits => 18

def PdcpSnSize.nofReserved : PdcpSnSize → Nat
  | .size12bits => 3
  | .size18bits => 5

/-- The SN of a data PDU; control PDUs and PDUs with reserved bits set have none. The first bit is
D/C in a DRB and reserved in an SRB. -/
def getPdcpSn (pdcpPdu : List UInt8) (pdcpSnLen : PdcpSnSize) (isSrb : Bool) : Option Nat :=
  if pdcpPdu.isEmpty then none
  else if isSrb && pdcpSnLen ≠ .size12bits then none
  else
    match BitDecoder.unpack { bytes := pdcpPdu } 1 with
    | (none, _) => none
    | (some dcField, decoder) =>
      if !isSrb && dcField == 0 then none
      else if isSrb && dcField == 1 then none
      else
        let (reserved, decoder) := decoder.unpack pdcpSnLen.nofReserved
        let (pdcpSn, _) := decoder.unpack pdcpSnLen.toNumber
        match reserved, pdcpSn with
        | some 0, some pdcpSn => some pdcpSn
        | _, _ => none

theorem getPdcpSn_lt {pdcpPdu : List UInt8} {pdcpSnLen : PdcpSnSize} {isSrb : Bool} {pdcpSn : Nat}
    (h : getPdcpSn pdcpPdu pdcpSnLen isSrb = some pdcpSn) : pdcpSn < 2 ^ pdcpSnLen.toNumber := by
  rw [getPdcpSn] at h
  split at h
  · cases h
  · split at h
    · cases h
    · have hoffset : (BitDecoder.unpack { bytes := pdcpPdu } 1).2.offset < 8 :=
        BitDecoder.offset_unpackLoop (Nat.zero_lt_succ 7)
      generalize BitDecoder.unpack { bytes := pdcpPdu } 1 = first at h hoffset
      obtain ⟨dcField, decoder⟩ := first
      cases dcField with
      | none => cases h
      | some dcField =>
        dsimp only at h
        split at h
        · cases h
        · split at h
          · cases h
          · have hoffset' : (decoder.unpack pdcpSnLen.nofReserved).2.offset < 8 :=
              BitDecoder.offset_unpackLoop hoffset
            split at h
            · rename_i hsn
              cases h
              refine BitDecoder.unpack_lt hoffset'.le (Prod.ext hsn rfl)
            · cases h

end Srsran.Pdcp
