import Srsran.Lib.Checked

/-! Assembly of the MAC PDUs of the DL-SCH (`mac_pdu_format.h`, `lcid_dl_sch.h`,
`dl_sch_pdu_assembler.cpp`). Writes outside the transport block and failed assertions are faults. -/
namespace Srsran.Mac

def macSduSubheaderLengthThres : Nat := 256

def minMacSduSubheaderSize : Nat := 2

def maxMacSduSubheaderSize : Nat := 3

def getMacSduSubheaderSize (payload : Nat) : Nat :=
  if payload = 0 then 0
  else if payload ≥ macSduSubheaderLengthThres then maxMacSduSubheaderSize
  else minMacSduSubheaderSize

def getMacSduRequiredBytes (payload : Nat) : Nat := payload + getMacSduSubheaderSize payload

def getMacSduPayloadSize (macSduSize : Nat) : Nat :=
  if macSduSize ≤ macSduSubheaderLengthThres + minMacSduSubheaderSize - 1 then
    macSduSize - minMacSduSubheaderSize
  else macSduSize - maxMacSduSubheaderSize

abbrev LcidDlSch := Nat

namespace LcidDlSch

def ccch : LcidDlSch := 0b000000
def lcid32 : LcidDlSch := 32
def scellActiv4Octet : LcidDlSch := 0b111001
def scellActiv1Octet : LcidDlSch := 0b111010
def taCmd : LcidDlSch := 0b111101
def ueConResId : LcidDlSch := 0b111110
def padding : LcidDlSch := 0b111111

def isSdu (lcid : LcidDlSch) : Bool := lcid ≤ lcid32

def sizeofCe (lcid : LcidDlSch) : Nat :=
  if lcid = scellActiv4Octet then 4
  else if lcid = scellActiv1Octet then 1
  else if lcid = taCmd then 1
  else if lcid = ueConResId then 6
  else 0

end LcidDlSch

open LcidDlSch

/-- `min_mac_subhdr_and_sdu_space_required`; LCID 0 is SRB0. -/
def minMacSubhdrAndSduSpaceRequired (lcid : LcidDlSch) : Nat :=
  minMacSduSubheaderSize + 1 + if lcid ≠ 0 then 2 else 0

inductive AssemblyFault where
  | outsideTb
  | unsupportedHeaderLength (length : Nat)
  | unexpectedSubheaderSize
  | emptySdu
  | invalidCe (lcid : LcidDlSch)
  | tooManyBytes
  deriving DecidableEq, Repr

structure DlSchPdu where
  pdu : List UInt8
  byteOffset : Nat := 0
  deriving DecidableEq, Repr

structure MacSduEncoder where
  lcid : LcidDlSch
  subhrLen : Nat
  maxSduSize : Nat
  deriving DecidableEq, Repr

def overwriteBytes (buffer : List UInt8) (position : Nat) (bytes : List UInt8) : List UInt8 :=
  buffer.take position ++ bytes ++ buffer.drop (position + bytes.length)

namespace DlSchPdu

def nofEmptyBytes (p : DlSchPdu) : Nat := p.pdu.length - p.byteOffset

def get (p : DlSchPdu) : List UInt8 := p.pdu.take p.byteOffset

def write (p : DlSchPdu) (distance : Nat) (bytes : List UInt8) : Except AssemblyFault DlSchPdu :=
  if p.byteOffset + distance + bytes.length ≤ p.pdu.length then
    .ok { p with pdu := overwriteBytes p.pdu (p.byteOffset + distance) bytes }
  else .error .outsideTb

def push (p : DlSchPdu) (bytes : List UInt8) : Except AssemblyFault DlSchPdu := do
  let p ← p.write 0 bytes
  return { p with byteOffset := p.byteOffset + bytes.length }

def subheaderBytes (fBit : Bool) (lcid : LcidDlSch) (headerLen payloadLen : Nat) :
    Except AssemblyFault (List UInt8) :=
  let first := UInt8.ofNat ((if fBit then 1 else 0) <<< 6 ||| (lcid &&& 0x3f))
  if headerLen = 3 then
    .ok [first, UInt8.ofNat ((payloadLen &&& 0xff00) >>> 8), UInt8.ofNat (payloadLen &&& 0xff)]
  else if headerLen = 2 then .ok [first, UInt8.ofNat (payloadLen &&& 0xff)]
  else if headerLen = 1 then .ok [first]
  else .error (.unsupportedHeaderLength headerLen)

def encodeSubheader (p : DlSchPdu) (fBit : Bool) (lcid : LcidDlSch) (headerLen payloadLen : Nat) :
    Except AssemblyFault DlSchPdu := do
  p.push (← subheaderBytes fBit lcid headerLen payloadLen)

/-- No encoder when there is no space for the smallest possible SDU. -/
def getSduEncoder (p : DlSchPdu) (lcid : LcidDlSch) (sduPayloadLenEstimate : Nat) :
    Option MacSduEncoder :=
  if sduPayloadLenEstimate = 0 then none
  else if p.nofEmptyBytes < minMacSubhdrAndSduSpaceRequired lcid then none
  else
    let spaceEstim := min p.nofEmptyBytes (getMacSduRequiredBytes sduPayloadLenEstimate)
    let sduSpaceEstim := getMacSduPayloadSize spaceEstim
    some { lcid, subhrLen := getMacSduSubheaderSize sduSpaceEstim, maxSduSize := sduSpaceEstim }

/-- Shifts the SDU to the left by one position, under a shorter subheader. -/
def shiftSdu (p : DlSchPdu) (sduBytesWritten : Nat) : Except AssemblyFault DlSchPdu :=
  let oldStart := p.byteOffset + minMacSduSubheaderSize + 1
  if oldStart + sduBytesWritten ≤ p.pdu.length then
    p.write minMacSduSubheaderSize ((p.pdu.drop oldStart).take sduBytesWritten)
  else .error .outsideTb

/-- `encode_sdu`, with the number of bytes added. -/
def encodeSdu (p : DlSchPdu) (enc : MacSduEncoder) (sduBytesWritten : Nat) :
    Except AssemblyFault (Nat × DlSchPdu) :=
  if sduBytesWritten = 0 ∨ sduBytesWritten > enc.maxSduSize then .ok (0, p)
  else if getMacSduSubheaderSize sduBytesWritten ≠ enc.subhrLen then
    if enc.subhrLen = maxMacSduSubheaderSize then do
      let p ← p.shiftSdu sduBytesWritten
      let p ← p.encodeSubheader false enc.lcid minMacSduSubheaderSize sduBytesWritten
      return (minMacSduSubheaderSize + sduBytesWritten,
        { p with byteOffset := p.byteOffset + sduBytesWritten })
    else .error .unexpectedSubheaderSize
  else do
    let fBit := enc.subhrLen > minMacSduSubheaderSize
    let p ← p.encodeSubheader fBit enc.lcid enc.subhrLen sduBytesWritten
    return (enc.subhrLen + sduBytesWritten, { p with byteOffset := p.byteOffset + sduBytesWritten })

/-- `add_sdu`, with the number of bytes added. The copy of the SDU is not bounded by the buffer of the
encoder. -/
def addSdu (p : DlSchPdu) (lcid : LcidDlSch) (sdu : List UInt8) :
    Except AssemblyFault (Nat × DlSchPdu) :=
  if sdu.isEmpty then .error .emptySdu
  else
    match p.getSduEncoder lcid sdu.length with
    | none => .ok (0, p)
    | some enc => do
      let p ← p.write enc.subhrLen sdu
      p.encodeSdu enc sdu.length

/-- The contention resolution identity has the six bytes of its type. -/
def addUeConResId (p : DlSchPdu) (conRes : Vector UInt8 6) : Except AssemblyFault DlSchPdu := do
  let p ← p.encodeSubheader false ueConResId 1 (sizeofCe ueConResId)
  p.push conRes.toList

structure TaCmdCePayload where
  tagId : UInt8
  taCmd : Nat
  deriving DecidableEq, Repr

def addTagCmd (p : DlSchPdu) (cePayload : TaCmdCePayload) : Except AssemblyFault DlSchPdu := do
  let p ← p.encodeSubheader false LcidDlSch.taCmd 1 (sizeofCe LcidDlSch.taCmd)
  p.push [UInt8.ofNat ((cePayload.tagId.toNat &&& 0xc0) ||| (cePayload.taCmd &&& 0x3f))]

def addPadding (p : DlSchPdu) (len : Nat) : Except AssemblyFault DlSchPdu := do
  let p ← p.encodeSubheader false padding 1 (len - 1)
  p.push (List.replicate (len - 1) 0)

end DlSchPdu

/-- An RLC bearer fills the span that it is given, and says how many of the bytes are the SDU. -/
structure MacSduTxBuilder (S : Type) where
  onNewTxSdu : S → LcidDlSch → Nat → List UInt8 × Nat × S
  length_eq : ∀ s lcid size, (onNewTxSdu s lcid size).1.length = size
  length_le : ∀ s lcid size, (onNewTxSdu s lcid size).2.1 ≤ size

/-- What is put into a PDU, as `pdu_log_builder` records it. -/
inductive DlSubpdu where
  | sdu (lcid : LcidDlSch) (bytes : List UInt8)
  | conRes (id : List UInt8)
  | taCmd (tagId taCmd : Nat)
  | padding (length : Nat)
  deriving DecidableEq, Repr

/-- The PDU under construction, the RLC bearers, and what was put into the PDU. -/
structure Assembly (S : Type) where
  pdu : DlSchPdu
  rlc : S
  log : List DlSubpdu := []

structure DlMsgLcInfo where
  lcid : LcidDlSch
  schedBytes : Nat := 0
  cePayload : Option DlSchPdu.TaCmdCePayload := none
  deriving DecidableEq, Repr

section
variable {S : Type} (bearer : MacSduTxBuilder S)

namespace Assembly

/-- One turn of the loop: the number of bytes added, or none when the loop ends. -/
def assembleSdu (a : Assembly S) (lcid : LcidDlSch) (remBytes : Nat) :
    Except AssemblyFault (Option Nat × Assembly S) :=
  let macOpportunitySize := getMacSduPayloadSize remBytes
  match a.pdu.getSduEncoder lcid macOpportunitySize with
  | none => .ok (none, a)
  | some enc => do
    let (written, sduActualLen, rlc) := bearer.onNewTxSdu a.rlc lcid enc.maxSduSize
    let pdu ← a.pdu.write enc.subhrLen written
    if sduActualLen = 0 then return (none, { a with pdu, rlc })
    let (size, pdu) ← pdu.encodeSdu enc sduActualLen
    if size = 0 then return (none, { a with pdu, rlc })
    return (some size, { pdu, rlc, log := a.log ++ [.sdu lcid (written.take sduActualLen)] })

/-- The loop of `assemble_sdus`. Each turn takes bytes away, so that as many turns as there are bytes
suffice. -/
def assembleSdusLoop (lcid : LcidDlSch) :
    Nat → Nat → Assembly S → Except AssemblyFault (Assembly S)
  | 0, _, a => .ok a
  | turns + 1, remBytes, a =>
    if remBytes < minMacSubhdrAndSduSpaceRequired lcid then .ok a
    else
      match a.assembleSdu bearer lcid remBytes with
      | .error fault => .error fault
      | .ok (none, a) => .ok a
      | .ok (some size, a) =>
        if remBytes ≥ size then assembleSdusLoop lcid turns (remBytes - size) a
        else .error .tooManyBytes

def assembleSdus (a : Assembly S) (lcGrantInfo : DlMsgLcInfo) :
    Except AssemblyFault (Assembly S) :=
  let totalSpace := min (getMacSduRequiredBytes lcGrantInfo.schedBytes) a.pdu.nofEmptyBytes
  a.assembleSdusLoop bearer lcGrantInfo.lcid totalSpace totalSpace

def assembleCe (conRes : Vector UInt8 6) (a : Assembly S) (subpdu : DlMsgLcInfo) :
    Except AssemblyFault (Assembly S) :=
  if subpdu.lcid = ueConResId then do
    let pdu ← a.pdu.addUeConResId conRes
    return { a with pdu, log := a.log ++ [.conRes conRes.toList] }
  else
    match subpdu.cePayload with
    | some cePayload =>
      if subpdu.lcid = LcidDlSch.taCmd then do
        let pdu ← a.pdu.addTagCmd cePayload
        return { a with pdu, log := a.log ++ [.taCmd cePayload.tagId.toNat cePayload.taCmd] }
      else .error (.invalidCe subpdu.lcid)
    | none => .error (.invalidCe subpdu.lcid)

def assembleSubpdu (conRes : Vector UInt8 6) (a : Assembly S) (schedLch : DlMsgLcInfo) :
    Except AssemblyFault (Assembly S) :=
  if schedLch.lcid.isSdu then a.assembleSdus bearer schedLch else assembleCe conRes a schedLch

end Assembly

/-- `assemble_newtx_pdu` with the RLC bearers and what was put into the PDU. There is no buffer when the
RNTI has no UE or no HARQ buffer is free. -/
def assembleNewtxPdu (conRes : Vector UInt8 6) (rlc : S) (buffer : Option (List UInt8))
    (lcChsToSched : List DlMsgLcInfo) (tbSizeBytes : Nat) :
    Except AssemblyFault (List UInt8 × S × List DlSubpdu) :=
  match buffer.filter (·.length ≥ tbSizeBytes) with
  | none => .ok (List.replicate tbSizeBytes 0, rlc, [])
  | some buffer => do
    let a ← lcChsToSched.foldlM (Assembly.assembleSubpdu bearer conRes)
      { pdu := { pdu := buffer.take tbSizeBytes }, rlc }
    if a.pdu.byteOffset < tbSizeBytes then
      let pdu ← a.pdu.addPadding (tbSizeBytes - a.pdu.byteOffset)
      return (pdu.get, a.rlc, a.log)
    else if a.pdu.byteOffset > tbSizeBytes then
      return (List.replicate tbSizeBytes 0, a.rlc, a.log)
    else return (a.pdu.get, a.rlc, a.log)

end

end Srsran.Mac
