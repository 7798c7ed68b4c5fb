import Mathlib.Algebra.Order.Ring.Int
import Srsran.Lib.Checked

/-! Reception of eCPRI packets (`network_order_binary_deserializer.h`, `ecpri_packet_decoder_impl.cpp`). The
program checks no access to the bytes that it was given; here one outside of them is a fault. -/
namespace Srsran.Ofh

inductive OfhFault where
  /-- A byte outside the buffer is read. -/
  | outOfBuffer
  /-- "Offset is out of bounds!" or "Offset plus size is out of bounds!". -/
  | outOfSpan
  /-- A section is added to results that are full. -/
  | sectionsFull
  /-- More samples than a section holds. -/
  | tooManySamples
  /-- "Input does not contain enough bytes to decompress {} PRBs". -/
  | shortInput
  /-- "The bit range starting at {} for {} bits exceed the buffer size". -/
  | outOfBits
  /-- "Decompression type '{}' is not supported", with which the application exits. -/
  | unsupportedDecompression
  deriving DecidableEq, Repr

def uintMod : Nat := 2 ^ 32

def uintSub (x y : Nat) : Nat := (x + uintMod - y) % uintMod

def subspan (bytes : List UInt8) (offset count : Nat) : Except OfhFault (List UInt8) :=
  if offset ≤ bytes.length ∧ count ≤ bytes.length - offset then .ok ((bytes.drop offset).take count)
  else .error .outOfSpan

structure NetworkOrderDeserializer where
  buffer : List UInt8
  offset : Nat := 0

namespace NetworkOrderDeserializer

def size (d : NetworkOrderDeserializer) : Nat := d.buffer.length % uintMod

def remainingBytes (d : NetworkOrderDeserializer) : Nat := uintSub d.size d.offset

def advance (d : NetworkOrderDeserializer) (x : Nat) : NetworkOrderDeserializer :=
  { d with offset := d.offset + x }

def readOneByte (d : NetworkOrderDeserializer) : Except OfhFault (Nat × NetworkOrderDeserializer) :=
  match d.buffer[d.offset]? with
  | none => .error .outOfBuffer
  | some byte => .ok (byte.toNat, d.advance 1)

def readTwoBytes (d : NetworkOrderDeserializer) : Except OfhFault (Nat × NetworkOrderDeserializer) := do
  let (high, d) ← d.readOneByte
  let (low, d) ← d.readOneByte
  .ok (high <<< 8 ||| low, d)

def getViewAndAdvance (d : NetworkOrderDeserializer) (x : Nat) :
    Except OfhFault (List UInt8 × NetworkOrderDeserializer) :=
  if d.offset + x ≤ d.buffer.length then .ok ((d.buffer.drop d.offset).take x, d.advance x)
  else .error .outOfBuffer

end NetworkOrderDeserializer

def ecpriProtocolRevision : Nat := 1

def ecpriCommonHeaderSize : Nat := 4

def ecpriIqDataPacketFieldsSize : Nat := 4

def ecpriRealtimeControlPacketFieldsSize : Nat := 4

def iqData : Nat := 0

def rtControlData : Nat := 2

structure CommonHeader where
  revision : Nat
  isLastPacket : Bool
  msgType : Nat
  payloadSize : Nat
  deriving DecidableEq, Repr

inductive TypeParams where
  | iqData (pcId seqId : Nat)
  | realtimeControl (rtcId seqId : Nat)
  deriving DecidableEq, Repr

structure PacketParameters where
  header : CommonHeader
  typeParams : TypeParams
  deriving DecidableEq, Repr

/-- The two packet decoders. -/
inductive PayloadSizePolicy where
  | useHeaderPayloadSize
  | ignoreHeaderPayloadSize
  deriving DecidableEq, Repr

def deserializeHeader (d : NetworkOrderDeserializer) :
    Except OfhFault (CommonHeader × NetworkOrderDeserializer) := do
  let (value, d) ← d.readOneByte
  let (msgType, d) ← d.readOneByte
  let (payloadSize, d) ← d.readTwoBytes
  .ok ({
    revision := value >>> 4
    isLastPacket := value &&& 1 == 0
    msgType := msgType
    payloadSize := payloadSize }, d)

def isCommonHeaderValid (header : CommonHeader) : Bool :=
  header.revision == ecpriProtocolRevision && header.isLastPacket

def decodeHeader (packet : List UInt8) : Except OfhFault (Option (CommonHeader × List UInt8)) :=
  if packet.length % uintMod < ecpriCommonHeaderSize then .ok none
  else do
    let (header, d) ← deserializeHeader { buffer := packet }
    if isCommonHeaderValid header then do
      let payload ← subspan packet d.offset d.remainingBytes
      .ok (some (header, payload))
    else .ok none

def deserializeTypeParams (params : Nat → Nat → TypeParams) (d : NetworkOrderDeserializer) :
    Except OfhFault (TypeParams × NetworkOrderDeserializer) := do
  let (id, d) ← d.readTwoBytes
  let (seqId, d) ← d.readTwoBytes
  .ok (params id seqId, d)

def deserializeIqDataParameters : NetworkOrderDeserializer → Except OfhFault (TypeParams × NetworkOrderDeserializer) :=
  deserializeTypeParams .iqData

def deserializeRtControlParameters :
    NetworkOrderDeserializer → Except OfhFault (TypeParams × NetworkOrderDeserializer) :=
  deserializeTypeParams .realtimeControl

def decodePayloadUseHeader (header : CommonHeader) (packet : List UInt8) :
    Except OfhFault (Option (PacketParameters × List UInt8)) :=
  if packet.length % uintMod < header.payloadSize then .ok none
  else if header.msgType = iqData then do
    let (params, d) ← deserializeIqDataParameters { buffer := packet }
    let payload ← subspan packet d.offset (uintSub header.payloadSize ecpriIqDataPacketFieldsSize)
    .ok (some (⟨header, params⟩, payload))
  else if header.msgType = rtControlData then do
    let (params, d) ← deserializeRtControlParameters { buffer := packet }
    let payload ← subspan packet d.offset (uintSub header.payloadSize ecpriRealtimeControlPacketFieldsSize)
    .ok (some (⟨header, params⟩, payload))
  else .ok none

def decodePayloadIgnoreHeader (header : CommonHeader) (packet : List UInt8) :
    Except OfhFault (Option (PacketParameters × List UInt8)) :=
  if header.msgType = iqData then do
    let (params, d) ← deserializeIqDataParameters { buffer := packet }
    let payload ← subspan packet d.offset d.remainingBytes
    .ok (some (⟨header, params⟩, payload))
  else if header.msgType = rtControlData then do
    let (params, d) ← deserializeRtControlParameters { buffer := packet }
    let payload ← subspan packet d.offset d.remainingBytes
    .ok (some (⟨header, params⟩, payload))
  else .ok none

def decodePayload : PayloadSizePolicy → CommonHeader → List UInt8 →
    Except OfhFault (Option (PacketParameters × List UInt8))
  | .useHeaderPayloadSize => decodePayloadUseHeader
  | .ignoreHeaderPayloadSize => decodePayloadIgnoreHeader

def decodePacket (policy : PayloadSizePolicy) (packet : List UInt8) :
    Except OfhFault (Option (PacketParameters × List UInt8)) := do
  match ← decodeHeader packet with
  | none => .ok none
  | some (header, payload) => if payload.isEmpty then .ok none else decodePayload policy header payload

end Srsran.Ofh
