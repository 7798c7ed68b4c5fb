import Srsran.Support.ByteView

/-! MAC PDUs of the UL-SCH (`lcid_ul_sch.h`, `mac_ul_sch_pdu.cpp`). -/
namespace Srsran.Mac
open Srsran.Support

abbrev LcidUlSch := Nat

namespace LcidUlSch

def ccchSize64 : LcidUlSch := 0b000000
def lcid1 : LcidUlSch := 1
def lcid32 : LcidUlSch := 32
def minReserved : LcidUlSch := 33
def maxReserved : LcidUlSch := 51
def ccchSize48 : LcidUlSch := 0b110100
def sePhr : LcidUlSch := 0b111001
def crnti : LcidUlSch := 0b111010
def shortTruncBsr : LcidUlSch := 0b111011
def longTruncBsr : LcidUlSch := 0b111100
def shortBsr : LcidUlSch := 0b111101
def longBsr : LcidUlSch := 0b111110
def padding : LcidUlSch := 0b111111

def isCcch (lcid : LcidUlSch) : Bool := lcid = ccchSize48 || lcid = ccchSize64

def isSdu (lcid : LcidUlSch) : Bool := lcid ≤ lcid32 && lcid ≥ lcid1

def isValidLcid (lcid : LcidUlSch) : Bool :=
  lcid ≤ padding && (lcid < minReserved || lcid > maxReserved)

def isVarLenCe (lcid : LcidUlSch) : Bool := lcid = longTruncBsr || lcid = longBsr

def hasLengthField (lcid : LcidUlSch) : Bool :=
  if isCcch lcid then false else isSdu lcid || isVarLenCe lcid

def sizeofCe (lcid : LcidUlSch) : Nat :=
  if lcid = ccchSize48 then 6
  else if lcid = ccchSize64 then 8
  else if lcid = crnti then 2
  else if lcid = shortBsr ∨ lcid = shortTruncBsr then 1
  else if lcid = sePhr then 2
  else if lcid = longBsr ∨ lcid = longTruncBsr then 1
  else 0

end LcidUlSch

open LcidUlSch

/-- The errors, each with the numbers that its text shows. -/
inductive UnpackError where
  | emptySubpdu
  | unrecognizedLcid (lcid : LcidUlSch)
  | noLengthPrefix
  | noSduPayload (remaining sduLength : Nat)
  | noCePayload (remaining sduLength : Nat)
  deriving DecidableEq, Repr

structure MacUlSchSubpdu where
  lcid : LcidUlSch
  headerLength : Nat
  fBit : Bool
  payload : ByteView
  deriving DecidableEq, Repr

namespace MacUlSchSubpdu

def sduLength (subpdu : MacUlSchSubpdu) : Nat := subpdu.payload.length

def totalLength (subpdu : MacUlSchSubpdu) : Nat := subpdu.headerLength + subpdu.payload.length

def fBitOf (first : UInt8) : Bool := first.toNat &&& 0x40 > 0

def lcidOf (first : UInt8) : LcidUlSch := first.toNat &&& 0x3f

/-- The subPDU of a payload with a length field; `body` is what follows the subheader. -/
def takeSdu (lcid : LcidUlSch) (headerLength : Nat) (fBit : Bool) (sduLength : Nat)
    (body : ByteView) : Except UnpackError (MacUlSchSubpdu × ByteView) :=
  if body.length < sduLength then .error (.noSduPayload body.length sduLength)
  else .ok (⟨lcid, headerLength, fBit, body.split sduLength⟩, body.advance sduLength)

/-- The subPDU of a payload without a length field. Padding is the rest of the PDU. -/
def takeCe (lcid : LcidUlSch) (fBit : Bool) (body : ByteView) :
    Except UnpackError (MacUlSchSubpdu × ByteView) :=
  if lcid = padding then .ok (⟨lcid, 1, fBit, body⟩, {})
  else if body.length < sizeofCe lcid then .error (.noCePayload body.length (sizeofCe lcid))
  else .ok (⟨lcid, 1, fBit, body.split (sizeofCe lcid)⟩, body.advance (sizeofCe lcid))

def unpack (reader : ByteView) : Except UnpackError (MacUlSchSubpdu × ByteView) :=
  match reader.bytes with
  | [] => .error .emptySubpdu
  | first :: rest =>
    let fBit := fBitOf first
    let lcid := lcidOf first
    if !isValidLcid lcid then .error (.unrecognizedLcid lcid)
    else if hasLengthField lcid then
      match fBit, rest with
      | false, length :: _ => takeSdu lcid 2 fBit length.toNat (reader.advance 2)
      | true, high :: low :: _ =>
        takeSdu lcid 3 fBit (high.toNat <<< 8 ||| low.toNat) (reader.advance 3)
      | _, _ => .error .noLengthPrefix
    else takeCe lcid fBit (reader.advance 1)

end MacUlSchSubpdu

namespace MacUlSchPdu

def maxSubpdusPerPdu : Nat := 4096

/-- The loop of `unpack`; `room` is how many more subPDUs the list can hold. An error discards those
decoded before. -/
def unpackLoop : Nat → ByteView → Except UnpackError (List MacUlSchSubpdu)
  | room, reader =>
    if reader.bytes.isEmpty then .ok []
    else
      match room with
      | 0 => .ok []
      | room + 1 =>
        match MacUlSchSubpdu.unpack reader with
        | .error err => .error err
        | .ok (subpdu, reader) =>
          match unpackLoop room reader with
          | .error err => .error err
          | .ok subpdus => .ok (subpdu :: subpdus)

def unpack (payload : List UInt8) : Except UnpackError (List MacUlSchSubpdu) :=
  unpackLoop maxSubpdusPerPdu ⟨0, payload⟩

end MacUlSchPdu

end Srsran.Mac
