import Srsran.Rlc.AmPdu
import Mathlib.Data.Nat.Bitwise

/-! Byte layout of the AM status PDU (`pack`, `unpack` of `rlc_am_pdu.cpp`). The reader walks over
the remaining bytes and faults when it is dereferenced at the end; the NACK loop of the decoder
carries fuel and faults when it runs out. Both faults are shown unreachable. -/
namespace Srsran.Rlc
open RlcAmStatusPdu

def packNackExt (nack : RlcAmStatusNack) : List UInt8 :=
  (if nack.hasSo then
    [UInt8.ofNat (nack.soStart >>> 8), UInt8.ofNat nack.soStart,
     UInt8.ofNat (nack.soEnd >>> 8), UInt8.ofNat nack.soEnd] else []) ++
  (if nack.hasNackRange then [UInt8.ofNat nack.nackRange] else [])

/-- NACK SN of 12 bits with E1, E2 and E3; `e1` says that further NACKs follow. -/
def packNackSn12bit (e1 : Bool) (nack : RlcAmStatusNack) : List UInt8 :=
  [UInt8.ofNat ((nack.nackSn >>> 4) &&& 0xff),
   UInt8.ofNat (((nack.nackSn &&& 0x0f) <<< 4) ||| (if e1 then 0x08 else 0) |||
     (if nack.hasSo then 0x04 else 0) ||| (if nack.hasNackRange then 0x02 else 0))]

def packNackSn18bit (e1 : Bool) (nack : RlcAmStatusNack) : List UInt8 :=
  [UInt8.ofNat ((nack.nackSn >>> 10) &&& 0xff),
   UInt8.ofNat ((nack.nackSn >>> 2) &&& 0xff),
   UInt8.ofNat (((nack.nackSn <<< 6) &&& 0xc0) ||| (if e1 then 0x20 else 0) |||
     (if nack.hasSo then 0x10 else 0) ||| (if nack.hasNackRange then 0x08 else 0))]

/-- The loop over the NACKs; E1 is set on all but the last one. -/
def packNacks (packNackSn : Bool → RlcAmStatusNack → List UInt8) :
    List RlcAmStatusNack → List UInt8
  | [] => []
  | nack :: rest => packNackSn (!rest.isEmpty) nack ++ packNackExt nack ++
      packNacks packNackSn rest

def pack12bit (pdu : RlcAmStatusPdu) : List UInt8 :=
  [UInt8.ofNat ((pdu.ackSn >>> 8) &&& 0x0f),
   UInt8.ofNat (pdu.ackSn &&& 0xff),
   if pdu.nacks.isEmpty then 0x00 else 0x80] ++ packNacks packNackSn12bit pdu.nacks

def pack18bit (pdu : RlcAmStatusPdu) : List UInt8 :=
  [UInt8.ofNat ((pdu.ackSn >>> 14) &&& 0x0f),
   UInt8.ofNat ((pdu.ackSn >>> 6) &&& 0xff),
   UInt8.ofNat (((pdu.ackSn <<< 2) &&& 0xfc) ||| (if pdu.nacks.isEmpty then 0 else 0x02))] ++
    packNacks packNackSn18bit pdu.nacks

def RlcAmStatusPdu.pack (pdu : RlcAmStatusPdu) : List UInt8 :=
  match pdu.snSize with
  | .size12bits => pack12bit pdu
  | .size18bits => pack18bit pdu

/-- Reasons to refuse a status PDU, and the two faults. -/
inductive UnpackError where
  | headerTooShort
  | notControlPdu
  | unsupportedCpt
  | reservedHeaderBits
  | nackSnTooShort
  | reservedNackBits
  | nackSoTooShort
  | nackRangeTooShort
  | pastEnd
  | outOfFuel
  deriving DecidableEq, Repr

/-- The two ways in which the decoder itself would be at fault. -/
def UnpackError.isFault : UnpackError → Bool
  | .pastEnd => true
  | .outOfFuel => true
  | _ => false

def readByte : List UInt8 → Except UnpackError (Nat × List UInt8)
  | [] => .error .pastEnd
  | byte :: rest => .ok (byte.toNat, rest)

def isControlPdu (bytes : List UInt8) : Except UnpackError Bool := do
  let (byte, _) ← readByte bytes
  return (byte >>> 7) &&& 0x01 == 0

def unpackNackSo (e2 : Bool) (nack : RlcAmStatusNack) (bytes : List UInt8) :
    Except UnpackError (RlcAmStatusNack × List UInt8) := do
  if !e2 then return (nack, bytes)
  if bytes.length < sizeofNackSo then throw .nackSoTooShort
  let (b0, bytes) ← readByte bytes
  let (b1, bytes) ← readByte bytes
  let (b2, bytes) ← readByte bytes
  let (b3, bytes) ← readByte bytes
  return ({ nack with
    hasSo := true, soStart := (b0 <<< 8) ||| b1, soEnd := (b2 <<< 8) ||| b3 }, bytes)

def unpackNackRange (e3 : Bool) (nack : RlcAmStatusNack) (bytes : List UInt8) :
    Except UnpackError (RlcAmStatusNack × List UInt8) := do
  if !e3 then return (nack, bytes)
  if bytes.length < sizeofNackRange then throw .nackRangeTooShort
  let (b0, bytes) ← readByte bytes
  return ({ nack with hasNackRange := true, nackRange := b0 }, bytes)

/-- NACK SN with the flags E1, E2 and E3, as read from the bytes. -/
structure NackSnExt where
  nackSn : Nat
  e1 : Bool
  e2 : Bool
  e3 : Bool
  deriving DecidableEq, Repr

def unpackNackSn12bit (bytes : List UInt8) : Except UnpackError (NackSnExt × List UInt8) := do
  if bytes.length < sizeofNackSnExt .size12bits then throw .nackSnTooShort
  let (b0, bytes) ← readByte bytes
  let (b1, bytes) ← readByte bytes
  if b1 &&& 0x01 ≠ 0 then throw .reservedNackBits
  return ({
    nackSn := ((b0 &&& 0xff) <<< 4) ||| ((b1 &&& 0xf0) >>> 4)
    e1 := b1 &&& 0x08 != 0, e2 := b1 &&& 0x04 != 0, e3 := b1 &&& 0x02 != 0 }, bytes)

def unpackNackSn18bit (bytes : List UInt8) : Except UnpackError (NackSnExt × List UInt8) := do
  if bytes.length < sizeofNackSnExt .size18bits then throw .nackSnTooShort
  let (b0, bytes) ← readByte bytes
  let (b1, bytes) ← readByte bytes
  let (b2, bytes) ← readByte bytes
  if b2 &&& 0x07 ≠ 0 then throw .reservedNackBits
  return ({
    nackSn := ((b0 &&& 0xff) <<< 10) ||| ((b1 &&& 0xff) <<< 2) ||| ((b2 &&& 0xc0) >>> 6)
    e1 := b2 &&& 0x20 != 0, e2 := b2 &&& 0x10 != 0, e3 := b2 &&& 0x08 != 0 }, bytes)

/-- The `while (e1 != 0)` loop. -/
def unpackNacks (unpackNackSn : List UInt8 → Except UnpackError (NackSnExt × List UInt8)) :
    Nat → Bool → RlcAmStatusPdu → List UInt8 → Except UnpackError RlcAmStatusPdu
  | _, false, pdu, _ => .ok pdu
  | 0, true, _, _ => .error .outOfFuel
  | fuel + 1, true, pdu, bytes => do
    let (ext, bytes) ← unpackNackSn bytes
    let (nack, bytes) ← unpackNackSo ext.e2 { nackSn := ext.nackSn } bytes
    let (nack, bytes) ← unpackNackRange ext.e3 nack bytes
    unpackNacks unpackNackSn fuel ext.e1 (pdu.pushNack nack) bytes

def unpack12bit (pdu : RlcAmStatusPdu) (bytes : List UInt8) :
    Except UnpackError RlcAmStatusPdu := do
  if bytes.length < sizeofHeaderAckSn then throw .headerTooShort
  if !(← isControlPdu bytes) then throw .notControlPdu
  let (b0, bytes) ← readByte bytes
  if (b0 >>> 4) &&& 0x07 ≠ 0 then throw .unsupportedCpt
  let (b1, bytes) ← readByte bytes
  let (b2, bytes) ← readByte bytes
  if b2 &&& 0x7f ≠ 0 then throw .reservedHeaderBits
  unpackNacks unpackNackSn12bit (bytes.length + 1) (b2 &&& 0x80 != 0)
    (pdu.reset.setAckSn (((b0 &&& 0x0f) <<< 8) ||| (b1 &&& 0xff))) bytes

def unpack18bit (pdu : RlcAmStatusPdu) (bytes : List UInt8) :
    Except UnpackError RlcAmStatusPdu := do
  if bytes.length < sizeofHeaderAckSn then throw .headerTooShort
  if !(← isControlPdu bytes) then throw .notControlPdu
  let (b0, bytes) ← readByte bytes
  if (b0 >>> 4) &&& 0x07 ≠ 0 then throw .unsupportedCpt
  let (b1, bytes) ← readByte bytes
  let (b2, bytes) ← readByte bytes
  if b2 &&& 0x01 ≠ 0 then throw .reservedHeaderBits
  unpackNacks unpackNackSn18bit (bytes.length + 1) (b2 &&& 0x02 != 0)
    (pdu.reset.setAckSn (((b0 &&& 0x0f) <<< 14) ||| ((b1 &&& 0xff) <<< 6) |||
      ((b2 &&& 0xfc) >>> 2))) bytes

/-- Decodes into a status PDU of the same SN size; the previous content is reset. -/
def RlcAmStatusPdu.unpack (pdu : RlcAmStatusPdu) (bytes : List UInt8) :
    Except UnpackError RlcAmStatusPdu :=
  match pdu.snSize with
  | .size12bits => unpack12bit pdu bytes
  | .size18bits => unpack18bit pdu bytes

end Srsran.Rlc
