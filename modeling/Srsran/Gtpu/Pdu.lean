import Srsran.Support.BitAligned

/-! GTP-U headers with their extension headers (`gtpu_pdu.cpp`). Log messages are left out, and
appending to byte buffers is taken to succeed. -/
namespace Srsran.Gtpu
open Srsran.Support

def gtpuBaseHeaderLen : Nat := 8

def gtpuExtendedHeaderLen : Nat := 12

def gtpuFlagsVersionV1 : Nat := 1

def gtpuFlagsGtpProtocol : Nat := 1

def gtpuMsgEchoRequest : UInt8 := 1

def gtpuMsgEchoResponse : UInt8 := 2

def gtpuMsgErrorIndication : UInt8 := 26

def gtpuMsgEndMarker : UInt8 := 254

def gtpuMsgDataPdu : UInt8 := 255

def gtpuMaxNumHeaderExtensions : Nat := 10

abbrev GtpuExtensionHeaderType := UInt8

namespace GtpuExtensionHeaderType

def noMoreExtensionHeaders : GtpuExtensionHeaderType := 0b00000000
def reserved0 : GtpuExtensionHeaderType := 0b00000001
def reserved1 : GtpuExtensionHeaderType := 0b00000010
def ranContainer : GtpuExtensionHeaderType := 0b10000001
def nrRanContainer : GtpuExtensionHeaderType := 0b10000100
def pduSessionContainer : GtpuExtensionHeaderType := 0b10000101
def pdcpPduNumber : GtpuExtensionHeaderType := 0b11000000
def reserved2 : GtpuExtensionHeaderType := 0b11000001
def reserved3 : GtpuExtensionHeaderType := 0b11000010

end GtpuExtensionHeaderType

open GtpuExtensionHeaderType

/-- The bytes of a view, and where they start in the buffer that it looks at. -/
structure ByteBufferView where
  start : Nat := 0
  bytes : List UInt8
  deriving DecidableEq, Repr

structure GtpuExtensionHeader where
  extensionHeaderType : GtpuExtensionHeaderType
  container : ByteBufferView
  deriving DecidableEq, Repr

structure GtpuFlags where
  version : Nat := 1
  protocolType : Nat := 0
  extHdr : Bool := false
  seqNumber : Bool := false
  nPdu : Bool := false
  deriving DecidableEq, Repr

structure GtpuHeader where
  flags : GtpuFlags := {}
  messageType : UInt8 := 0
  length : UInt16 := 0
  teid : UInt32 := 0
  seqNumber : UInt16 := 0
  nPdu : UInt8 := 0
  nextExtHdrType : GtpuExtensionHeaderType := noMoreExtensionHeaders
  extList : List GtpuExtensionHeader := []
  deriving DecidableEq, Repr

structure GtpuDissectedPdu where
  buf : List UInt8
  hdr : GtpuHeader
  hdrLen : Nat
  deriving DecidableEq, Repr

def gtpuSupportedFlagsCheck (flags : GtpuFlags) : Bool :=
  flags.version = gtpuFlagsVersionV1 && flags.protocolType = gtpuFlagsGtpProtocol && !flags.nPdu

def gtpuSupportedMsgTypeCheck (messageType : UInt8) : Bool :=
  messageType = gtpuMsgDataPdu || messageType = gtpuMsgEchoRequest ||
    messageType = gtpuMsgEchoResponse || messageType = gtpuMsgErrorIndication ||
    messageType = gtpuMsgEndMarker

/-- Unknown types are accepted when their upper two bits do not ask the endpoint to comprehend them. -/
def gtpuExtensionHeaderComprehensionCheck (type : GtpuExtensionHeaderType) : Bool :=
  if type = noMoreExtensionHeaders ∨ type = nrRanContainer ∨ type = pduSessionContainer ∨
      type = pdcpPduNumber then true
  else if type = reserved0 ∨ type = reserved1 ∨ type = reserved2 ∨ type = reserved3 then false
  else !(type.toNat >>> 6 = 2 || type.toNat >>> 6 = 3)

inductive WriteError where
  | unhandledFlags
  | unhandledMessageType
  /-- The assertion in `gtpu_write_ext_header`. -/
  | invalidExtensionSize
  deriving DecidableEq, Repr

def hasOptionalFields (header : GtpuHeader) : Bool :=
  !header.extList.isEmpty || header.flags.seqNumber || header.flags.nPdu

def gtpuGetLength (header : GtpuHeader) (sdu : List UInt8) : Nat :=
  let len := (sdu.length + if hasOptionalFields header then 4 else 0) % 2 ^ 16
  header.extList.foldl (fun len ext => (len + 2 + ext.container.bytes.length) % 2 ^ 16) len

/-- `payload` has 8 bits. -/
def gtpuWriteExtHeader (enc : BitEncoder) (ext : GtpuExtensionHeader)
    (next : GtpuExtensionHeaderType) : Except WriteError BitEncoder :=
  let payload := (1 + ext.container.bytes.length + 1) % 2 ^ 8
  if payload % 4 ≠ 0 then .error .invalidExtensionSize
  else .ok (((enc.pack (payload / 4) 8).packBytes ext.container.bytes).pack next.toNat 8)

def gtpuWriteExtHeaders (enc : BitEncoder) :
    List GtpuExtensionHeader → Except WriteError BitEncoder
  | [] => .ok enc
  | ext :: rest =>
    let next :=
      match rest with
      | [] => noMoreExtensionHeaders
      | following :: _ => following.extensionHeaderType
    match gtpuWriteExtHeader enc ext next with
    | .error err => .error err
    | .ok enc => gtpuWriteExtHeaders enc rest

def firstExtHdrType (header : GtpuHeader) : GtpuExtensionHeaderType :=
  match header.extList with
  | [] => noMoreExtensionHeaders
  | ext :: _ => ext.extensionHeaderType

def packFlags (header : GtpuHeader) : BitEncoder :=
  let enc := ({} : BitEncoder).pack header.flags.version 3
  let enc := enc.pack header.flags.protocolType 1
  let enc := enc.pack 0 1
  let enc := enc.pack (if header.extList.isEmpty then 0 else 1) 1
  let enc := enc.pack (if header.flags.seqNumber then 1 else 0) 1
  enc.pack (if header.flags.nPdu then 1 else 0) 1

def gtpuWriteHeader (pdu : List UInt8) (header : GtpuHeader) : Except WriteError (List UInt8) :=
  if !gtpuSupportedFlagsCheck header.flags then .error .unhandledFlags
  else if !gtpuSupportedMsgTypeCheck header.messageType then .error .unhandledMessageType
  else
    let enc := packFlags header
    let enc := enc.pack header.messageType.toNat 8
    let enc := enc.pack (gtpuGetLength header pdu) 16
    let enc := enc.pack header.teid.toNat 32
    let enc :=
      if hasOptionalFields header then
        ((enc.pack header.seqNumber.toNat 16).pack header.nPdu.toNat 8).pack
          (firstExtHdrType header).toNat 8
      else enc
    match gtpuWriteExtHeaders enc header.extList with
    | .error err => .error err
    | .ok enc => .ok (enc.bytes ++ pdu)

def gtpuUnpackExtHeaderType (dec : BitDecoder) : GtpuExtensionHeaderType × BitDecoder :=
  let (value, dec) := dec.read 8
  (UInt8.ofNat value, dec)

/-- Size of the container for the length field of an extension header, in 16 bits. -/
def containerLength (lengthField : Nat) : Nat := (lengthField * 4 + 2 ^ 16 - 2) % 2 ^ 16

/-- `gtpu_read_ext_header`: the container, the type of the next extension header, and the decoder. The
results of the reads are not checked. -/
def gtpuReadExtHeader (length : Nat) (dec : BitDecoder) :
    ByteBufferView × GtpuExtensionHeaderType × BitDecoder :=
  let lengthField := dec.read 8
  let container := lengthField.2.unpackAlignedBytes (containerLength lengthField.1)
  ({ start := length - lengthField.2.alignBytes.bytes.length, bytes := container.1 },
    gtpuUnpackExtHeaderType container.2)

/-- The loop over the extension headers; `room` is what is left of the capacity of the list. -/
def readExtHeaders (length : Nat) : Nat → BitDecoder → GtpuExtensionHeaderType →
    List GtpuExtensionHeader → Option (List GtpuExtensionHeader × BitDecoder)
  | room, dec, type, extList =>
    if !gtpuExtensionHeaderComprehensionCheck type then none
    else
      let read := gtpuReadExtHeader length dec
      match room with
      | 0 => none
      | room + 1 =>
        let extList := extList ++ [{ extensionHeaderType := type, container := read.1 }]
        if read.2.1 = noMoreExtensionHeaders then some (extList, read.2.2)
        else readExtHeaders length room read.2.2 read.2.1 extList

def unpackFlags (dec : BitDecoder) : GtpuFlags × BitDecoder :=
  let (version, dec) := dec.read 3
  let (protocolType, dec) := dec.read 1
  let (_, dec) := dec.read 1
  let (extHdr, dec) := dec.read 1
  let (seqNumber, dec) := dec.read 1
  let (nPdu, dec) := dec.read 1
  ({ version, protocolType, extHdr := extHdr ≠ 0, seqNumber := seqNumber ≠ 0, nPdu := nPdu ≠ 0 }, dec)

/-- The optional fields of the header, when a flag says that they are there. -/
def unpackOptionalFields (length : Nat) (hdr : GtpuHeader) (dec : BitDecoder) :
    Option (GtpuHeader × BitDecoder) :=
  if hdr.flags.extHdr || hdr.flags.seqNumber || hdr.flags.nPdu then
    if length < gtpuExtendedHeaderLen then none
    else
      let (seqNumber, dec) := dec.read 16
      let (nPdu, dec) := dec.read 8
      let (nextExtHdrType, dec) := gtpuUnpackExtHeaderType dec
      if !gtpuExtensionHeaderComprehensionCheck nextExtHdrType then none
      else
        some ({ hdr with seqNumber := UInt16.ofNat seqNumber, nPdu := UInt8.ofNat nPdu, nextExtHdrType },
          dec)
  else some (hdr, dec)

/-- The end of `gtpu_dissect_pdu`, after the length was checked. -/
def dissectFields (rawPdu : List UInt8) (hdr : GtpuHeader) (dec : BitDecoder) :
    Option GtpuDissectedPdu :=
  match unpackOptionalFields rawPdu.length hdr dec with
  | none => none
  | some (hdr, dec) =>
    if hdr.flags.extHdr then
      if hdr.nextExtHdrType = noMoreExtensionHeaders then none
      else
        match readExtHeaders rawPdu.length gtpuMaxNumHeaderExtensions dec hdr.nextExtHdrType [] with
        | none => none
        | some (extList, dec) =>
          some { buf := rawPdu, hdr := { hdr with extList },
                 hdrLen := dec.nofBytes rawPdu.length }
    else some { buf := rawPdu, hdr, hdrLen := dec.nofBytes rawPdu.length }

def gtpuDissectPdu (rawPdu : List UInt8) : Option GtpuDissectedPdu :=
  if rawPdu.length < gtpuBaseHeaderLen then none
  else
    let (flags, dec) := unpackFlags { bytes := rawPdu }
    if !gtpuSupportedFlagsCheck flags then none
    else
      let (messageType, dec) := dec.read 8
      let (length, dec) := dec.read 16
      let (teid, dec) := dec.read 32
      -- Longer PDUs are compared modulo 2^16.
      if length ≠ (rawPdu.length - gtpuBaseHeaderLen) % 2 ^ 16 then none
      else
        dissectFields rawPdu
          { flags, messageType := UInt8.ofNat messageType, length := UInt16.ofNat length,
            teid := UInt32.ofNat teid } dec

def gtpuExtractMsg (dissectedPdu : GtpuDissectedPdu) : List UInt8 :=
  dissectedPdu.buf.drop dissectedPdu.hdrLen

end Srsran.Gtpu
