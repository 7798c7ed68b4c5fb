import Srsran.Support.BitPrograms

/-! NR-U messages in their containers (`nru_packing`). Appending to a byte buffer is taken to succeed. -/
namespace Srsran.Nru
open Srsran.Support

def nruMaxNofPdcpSnDiscardBlocks : Nat := 16

def nruMaxNofLostNruSnRanges : Nat := 2

structure NruPdcpSnDiscardBlock where
  pdcpSnStart : Nat
  blockSize : Nat
  deriving DecidableEq, Repr

structure NruDlUserData where
  reportPolling : Bool := false
  requestOutOfSeqReport : Bool := false
  reportDelivered : Bool := false
  userDataExistenceFlag : Bool := false
  assistInfoReportPollingFlag : Bool := false
  retransmissionFlag : Bool := false
  nruSn : Nat := 0
  dlDiscardPdcpSn : Option Nat := none
  discardBlocks : Option (List NruPdcpSnDiscardBlock) := none
  dlReportPdcpSn : Nat := 0
  deriving DecidableEq, Repr

structure NruLostNruSnRange where
  nruSnStart : Nat
  nruSnEnd : Nat
  deriving DecidableEq, Repr

structure NruDlDataDeliveryStatus where
  finalFrameInd : Bool := false
  desiredBufferSizeForDrb : Nat := 0
  desiredDataRate : Option Nat := none
  lostNruSnRanges : Option (List NruLostNruSnRange) := none
  highestDeliveredPdcpSn : Option Nat := none
  highestTransmittedPdcpSn : Option Nat := none
  causeValue : Option Nat := none
  highestDeliveredRetransmittedPdcpSn : Option Nat := none
  highestRetransmittedPdcpSn : Option Nat := none
  deriving DecidableEq, Repr

def padLoop : Nat → Nat → List UInt8 → List UInt8
  | 0, _, outBuf => outBuf
  | turns + 1, startLen, outBuf =>
    if (outBuf.length - startLen + 2) % 4 ≠ 0 then padLoop turns startLen (outBuf ++ [0]) else outBuf

def packContainer (outBuf : List UInt8) (writes : List BitWrite) : List UInt8 :=
  padLoop 3 outBuf.length (BitEncoder.packWrites { bytes := outBuf } writes).bytes

def unpackContainer {α : Type} (p : Unpacker α) (container : List UInt8) : Option α × BitDecoder :=
  if container = [] then (none, { bytes := container })
  else if (container.length + 2) % 4 ≠ 0 then (none, { bytes := container })
  else p { bytes := container }

def optionalField (nBits : Nat) (field : Option Nat) : List BitWrite := field.toList.map (⟨·, nBits⟩)

/-- A list behind its length, which is there if its flag is set. -/
def listField {α : Type} (writes : α → List BitWrite) : Option (List α) → List BitWrite
  | none => []
  | some as => ⟨as.length, 8⟩ :: as.flatMap writes

def unpackList {α : Type} (limit : Nat) (p : Unpacker α) (present : Bool) (absent : Option (List α)) :
    Unpacker (Option (List α)) :=
  if present then do
    let n ← Unpacker.bits 8
    Unpacker.check (n ≤ limit)
    some <$> Unpacker.times n p
  else pure absent

namespace NruPdcpSnDiscardBlock

def writes (block : NruPdcpSnDiscardBlock) : List BitWrite := [⟨block.pdcpSnStart, 24⟩, ⟨block.blockSize, 8⟩]

def unpack : Unpacker NruPdcpSnDiscardBlock := do
  let pdcpSnStart ← Unpacker.bits 24
  let blockSize ← Unpacker.bits 8
  pure { pdcpSnStart, blockSize }

end NruPdcpSnDiscardBlock

namespace NruDlUserData

/-- Whether discard blocks are announced: an empty list is not packed. -/
def dlDiscardBlocks (dlUserData : NruDlUserData) : Bool :=
  dlUserData.discardBlocks.isSome && !(dlUserData.discardBlocks.getD []).isEmpty

def discardBlocksWrites : Option (List NruPdcpSnDiscardBlock) → List BitWrite :=
  listField NruPdcpSnDiscardBlock.writes

/-- The fields in the order of `pack`. -/
def writes (dlUserData : NruDlUserData) : List BitWrite :=
  ⟨0, 4⟩ :: ⟨0, 1⟩ ::
  ⟨dlUserData.dlDiscardBlocks.toNat, 1⟩ ::
  ⟨dlUserData.dlDiscardPdcpSn.isSome.toNat, 1⟩ ::
  ⟨dlUserData.reportPolling.toNat, 1⟩ ::
  ⟨0, 3⟩ ::
  ⟨dlUserData.requestOutOfSeqReport.toNat, 1⟩ ::
  ⟨dlUserData.reportDelivered.toNat, 1⟩ ::
  ⟨dlUserData.userDataExistenceFlag.toNat, 1⟩ ::
  ⟨dlUserData.assistInfoReportPollingFlag.toNat, 1⟩ ::
  ⟨dlUserData.retransmissionFlag.toNat, 1⟩ ::
  ⟨dlUserData.nruSn, 24⟩ ::
  (optionalField 24 dlUserData.dlDiscardPdcpSn ++
    ((if dlUserData.dlDiscardBlocks then discardBlocksWrites dlUserData.discardBlocks else []) ++
      (if dlUserData.reportDelivered then [⟨dlUserData.dlReportPdcpSn, 24⟩] else [])))

def pack (outBuf : List UInt8) (dlUserData : NruDlUserData) : List UInt8 := packContainer outBuf dlUserData.writes

def unpackDiscardBlocks (dlDiscardBlocks : Bool) (absent : Option (List NruPdcpSnDiscardBlock)) :
    Unpacker (Option (List NruPdcpSnDiscardBlock)) :=
  unpackList nruMaxNofPdcpSnDiscardBlocks NruPdcpSnDiscardBlock.unpack dlDiscardBlocks absent

def unpackReportPdcpSn (reportDelivered : Bool) (absent : Nat) : Unpacker Nat :=
  if reportDelivered then Unpacker.bits 24 else pure absent

/-- The fields in the order of `unpack`, which fills the message it is given. -/
def unpackFields (dlUserData : NruDlUserData) : Unpacker NruDlUserData := do
  Unpacker.expect 0 4
  Unpacker.expect 0 1
  let dlDiscardBlocks ← Unpacker.flag
  let dlFlush ← Unpacker.flag
  let reportPolling ← Unpacker.flag
  Unpacker.expect 0 3
  let requestOutOfSeqReport ← Unpacker.flagUnchecked
  let reportDelivered ← Unpacker.flagUnchecked
  let userDataExistenceFlag ← Unpacker.flagUnchecked
  let assistInfoReportPollingFlag ← Unpacker.flagUnchecked
  let retransmissionFlag ← Unpacker.flag
  let nruSn ← Unpacker.bits 24
  let dlDiscardPdcpSn ← Unpacker.bitsIf dlFlush 24 dlUserData.dlDiscardPdcpSn
  let discardBlocks ← unpackDiscardBlocks dlDiscardBlocks dlUserData.discardBlocks
  let dlReportPdcpSn ← unpackReportPdcpSn reportDelivered dlUserData.dlReportPdcpSn
  pure {
    reportPolling, requestOutOfSeqReport, reportDelivered, userDataExistenceFlag, assistInfoReportPollingFlag,
    retransmissionFlag, nruSn, dlDiscardPdcpSn, discardBlocks, dlReportPdcpSn }

def unpack (dlUserData : NruDlUserData) (container : List UInt8) : Option NruDlUserData × BitDecoder :=
  unpackContainer (unpackFields dlUserData) container

end NruDlUserData

namespace NruLostNruSnRange

def writes (range : NruLostNruSnRange) : List BitWrite := [⟨range.nruSnStart, 24⟩, ⟨range.nruSnEnd, 24⟩]

def unpack : Unpacker NruLostNruSnRange := do
  let nruSnStart ← Unpacker.bits 24
  let nruSnEnd ← Unpacker.bits 24
  pure { nruSnStart, nruSnEnd }

end NruLostNruSnRange

namespace NruDlDataDeliveryStatus

def lostNruSnRangesWrites : Option (List NruLostNruSnRange) → List BitWrite := listField NruLostNruSnRange.writes

/-- The fields in the order of `pack`. -/
def writes (status : NruDlDataDeliveryStatus) : List BitWrite :=
  ⟨1, 4⟩ ::
  ⟨status.highestTransmittedPdcpSn.isSome.toNat, 1⟩ ::
  ⟨status.highestDeliveredPdcpSn.isSome.toNat, 1⟩ ::
  ⟨status.finalFrameInd.toNat, 1⟩ ::
  ⟨status.lostNruSnRanges.isSome.toNat, 1⟩ ::
  ⟨0, 4⟩ ::
  ⟨status.desiredDataRate.isSome.toNat, 1⟩ ::
  ⟨status.highestRetransmittedPdcpSn.isSome.toNat, 1⟩ ::
  ⟨status.highestDeliveredRetransmittedPdcpSn.isSome.toNat, 1⟩ ::
  ⟨status.causeValue.isSome.toNat, 1⟩ ::
  ⟨status.desiredBufferSizeForDrb, 32⟩ ::
  (optionalField 32 status.desiredDataRate ++
    (lostNruSnRangesWrites status.lostNruSnRanges ++
      (optionalField 24 status.highestDeliveredPdcpSn ++
        (optionalField 24 status.highestTransmittedPdcpSn ++
          (optionalField 8 status.causeValue ++
            (optionalField 24 status.highestDeliveredRetransmittedPdcpSn ++
              optionalField 24 status.highestRetransmittedPdcpSn))))))

def pack (outBuf : List UInt8) (status : NruDlDataDeliveryStatus) : List UInt8 := packContainer outBuf status.writes

def unpackLostNruSnRanges (lostPacketReport : Bool) (absent : Option (List NruLostNruSnRange)) :
    Unpacker (Option (List NruLostNruSnRange)) :=
  unpackList nruMaxNofLostNruSnRanges NruLostNruSnRange.unpack lostPacketReport absent

/-- The fields in the order of `unpack`, which fills the message it is given. -/
def unpackFields (status : NruDlDataDeliveryStatus) : Unpacker NruDlDataDeliveryStatus := do
  Unpacker.expect 1 4
  let highestTransmittedPdcpSnIndication ← Unpacker.flag
  let highestDeliveredPdcpSnIndication ← Unpacker.flag
  let finalFrameInd ← Unpacker.flag
  let lostPacketReport ← Unpacker.flag
  Unpacker.expect 0 4
  let dataRateIndication ← Unpacker.flag
  let highestRetransmittedPdcpSnIndication ← Unpacker.flag
  let highestDeliveredRetransmittedPdcpSnIndication ← Unpacker.flag
  let causeReport ← Unpacker.flag
  let desiredBufferSizeForDrb ← Unpacker.bits 32
  let desiredDataRate ← Unpacker.bitsIf dataRateIndication 32 status.desiredDataRate
  let lostNruSnRanges ← unpackLostNruSnRanges lostPacketReport status.lostNruSnRanges
  let highestDeliveredPdcpSn ← Unpacker.bitsIf highestDeliveredPdcpSnIndication 24 status.highestDeliveredPdcpSn
  let highestTransmittedPdcpSn ←
    Unpacker.bitsIf highestTransmittedPdcpSnIndication 24 status.highestTransmittedPdcpSn
  let causeValue ← Unpacker.bitsIf causeReport 8 status.causeValue
  let highestDeliveredRetransmittedPdcpSn ←
    Unpacker.bitsIf highestDeliveredRetransmittedPdcpSnIndication 24 status.highestDeliveredRetransmittedPdcpSn
  let highestRetransmittedPdcpSn ←
    Unpacker.bitsIf highestRetransmittedPdcpSnIndication 24 status.highestRetransmittedPdcpSn
  pure {
    finalFrameInd, desiredBufferSizeForDrb, desiredDataRate, lostNruSnRanges, highestDeliveredPdcpSn,
    highestTransmittedPdcpSn, causeValue, highestDeliveredRetransmittedPdcpSn, highestRetransmittedPdcpSn }

def unpack (status : NruDlDataDeliveryStatus) (container : List UInt8) :
    Option NruDlDataDeliveryStatus × BitDecoder :=
  unpackContainer (unpackFields status) container

end NruDlDataDeliveryStatus

end Srsran.Nru
