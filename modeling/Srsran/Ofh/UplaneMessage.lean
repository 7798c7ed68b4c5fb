import Srsran.Ofh.EcpriPacket
import Srsran.Ofh.PackingUtils
import Srsran.Ran.SlotPoint

/-! User-Plane messages (`ofh_uplane_message_decoder_impl.cpp` with its two compression headers) and the
decompression of their IQ data by the generic implementation. Samples stay integers with the exponent of
their PRB; their conversion to floating point is left out. -/
namespace Srsran.Ofh
open Ran (SlotPoint)
open Adt (BitBuffer BitBufferFault)

def nofSubcarriersPerRb : Nat := 12

def maxNofPrbs : Nat := 275

def maxIqWidth : Nat := 16

inductive CompressionType where
  | none
  | bfp
  | blockScaling
  | muLaw
  | modulation
  | bfpSelective
  | modSelective
  | reserved
  deriving DecidableEq, Repr

def toCompressionType : Nat → CompressionType
  | 0 => .none
  | 1 => .bfp
  | 2 => .blockScaling
  | 3 => .muLaw
  | 4 => .modulation
  | 5 => .bfpSelective
  | 6 => .modSelective
  | _ => .reserved

structure RuCompressionParams where
  type : CompressionType
  dataWidth : Nat
  deriving DecidableEq, Repr

def isCompressionParamPresent (type : CompressionType) : Bool :=
  type == .bfp || type == .muLaw || type == .bfpSelective || type == .modSelective

def roundUpToBytes (bits : Nat) : Nat := (bits + 7) / 8

def getCompressedPrbSize (params : RuCompressionParams) : Nat :=
  roundUpToBytes (nofSubcarriersPerRb * 2 * params.dataWidth +
    if isCompressionParamPresent params.type then 8 else 0)

/-- An IQ sample, scaled by two to the power of `exponent`. -/
structure IqSample where
  re : Int
  im : Int
  exponent : Nat
  deriving DecidableEq, Repr

/-- The checks of `bit_buffer_reader::extract`. -/
def bitFault : BitBufferFault → OfhFault
  | .outOfArray => .outOfBuffer
  | _ => .outOfBits

/-- The `i`-th sample of a PRB. -/
def unpackSample (samples : BitBuffer) (width exponent i : Nat) : Except BitBufferFault IqSample := do
  let re ← Bfp.unpackBits samples (2 * width * i) width
  let im ← Bfp.unpackBits samples (2 * width * i + width) width
  .ok ⟨(Bfp.signExtend width re).toInt, (Bfp.signExtend width im).toInt, exponent⟩

def unpackSamples (bytes : List UInt8) (width exponent : Nat) : Except OfhFault (List IqSample) :=
  ((List.range nofSubcarriersPerRb).mapM
    (unpackSample (Bfp.fromBytes (bytes.map UInt8.toBitVec)) width exponent)).mapError bitFault

/-- The loop body of `iq_compression_none_impl::decompress`. -/
def decompressPrbNone (width : Nat) (prb : List UInt8) : Except OfhFault (List IqSample) :=
  unpackSamples prb width 0

/-- `decompress_prb_generic`; the first byte of a PRB is its exponent. -/
def decompressPrbBfp (width : Nat) : List UInt8 → Except OfhFault (List IqSample)
  | [] => .error .outOfBuffer
  | exponent :: samples => unpackSamples samples width exponent.toNat

def prbBytes (params : RuCompressionParams) (input : List UInt8) (prb : Nat) : List UInt8 :=
  (input.drop (prb * getCompressedPrbSize params)).take (getCompressedPrbSize params)

def decompressPrbs (decompressPrb : List UInt8 → Except OfhFault (List IqSample))
    (params : RuCompressionParams) (nofSamples : Nat) (input : List UInt8) : Except OfhFault (List IqSample) :=
  if input.length < nofSamples / nofSubcarriersPerRb * getCompressedPrbSize params then .error .shortInput
  else do
    let prbs ← (List.range (nofSamples / nofSubcarriersPerRb)).mapM fun prb =>
      decompressPrb (prbBytes params input prb)
    .ok prbs.flatten

/-- `iq_decompressor_selector::decompress` over the decompressors of `create_iq_decompressor`. -/
def decompress (params : RuCompressionParams) (nofSamples : Nat) (input : List UInt8) :
    Except OfhFault (List IqSample) :=
  match params.type with
  | .none => decompressPrbs (decompressPrbNone params.dataWidth) params nofSamples input
  | .bfp => decompressPrbs (decompressPrbBfp params.dataWidth) params nofSamples input
  | _ => .error .unsupportedDecompression

inductive DataDirection where
  | uplink
  | downlink
  deriving DecidableEq, Repr

inductive FilterIndexType where
  | standardChannelFilter
  | ulPrachPreamble1p25khz
  | ulPrachPreamble5khz
  | ulPrachPreambleShort
  | ulNprachPreamble
  | ulPrachPreamble7p5khz
  | ulPrachPreambleShort15khz
  | ulPrachPreambleShort30khz
  | reserved
  deriving DecidableEq, Repr

def toFilterIndexType : Nat → FilterIndexType
  | 0 => .standardChannelFilter
  | 1 => .ulPrachPreamble1p25khz
  | 2 => .ulPrachPreamble5khz
  | 3 => .ulPrachPreambleShort
  | 4 => .ulNprachPreamble
  | 5 => .ulPrachPreamble7p5khz
  | 6 => .ulPrachPreambleShort15khz
  | 7 => .ulPrachPreambleShort30khz
  | _ => .reserved

structure UplaneMessageParams where
  direction : DataDirection
  filterIndex : FilterIndexType
  slot : SlotPoint
  symbolId : Nat
  deriving DecidableEq, Repr

structure UplaneSectionParams where
  sectionId : Nat
  isEveryRbUsed : Bool
  useCurrentSymbolNumber : Bool
  startPrb : Nat
  nofPrbs : Nat
  udCompHdr : RuCompressionParams := ⟨.none, 0⟩
  udCompLen : Option Nat := none
  iqSamples : List IqSample := []
  deriving DecidableEq, Repr

structure UplaneMessageDecoderResults where
  params : UplaneMessageParams
  sections : List UplaneSectionParams
  deriving DecidableEq, Repr

def resultsMaxNofSupportedSections : Nat := 2

/-- A decoder as it is created: the Radio Unit has PRBs, as many as a carrier at most, and the compression
header, if it is a static one, is of a known type and of 1 to 16 bits. -/
structure UplaneMessageDecoder where
  numerology : Nat
  nofSymbols : Nat
  ruNofPrbs : Nat
  /-- The static compression header; nothing for the dynamic decoder. -/
  compressionParams : Option RuCompressionParams
  ruNofPrbs_pos : 1 ≤ ruNofPrbs
  ruNofPrbs_le : ruNofPrbs ≤ maxNofPrbs
  type_known : ∀ params ∈ compressionParams, params.type ≠ .reserved
  width_pos : ∀ params ∈ compressionParams, 1 ≤ params.dataWidth
  width_le : ∀ params ∈ compressionParams, params.dataWidth ≤ maxIqWidth

inductive DecodedSection (α : Type) where
  | ok (value : α) (d : NetworkOrderDeserializer)
  | incomplete
  | malformed

def nofBytesUpHeader : Nat := 4

def sectionIdHeaderNoCompressionSize : Nat := 4

def ofhPayloadVersion : Nat := 1

namespace UplaneMessageDecoder
variable (dec : UplaneMessageDecoder)

def isHeaderValid (params : UplaneMessageParams) (version : Nat) : Bool :=
  params.direction == .uplink && version == ofhPayloadVersion && params.filterIndex != .reserved &&
    decide (params.symbolId < dec.nofSymbols)

def decodeHeader (d : NetworkOrderDeserializer) :
    Except OfhFault (Option (UplaneMessageParams × NetworkOrderDeserializer)) :=
  if d.remainingBytes < nofBytesUpHeader then .ok none
  else do
    let (value, d) ← d.readOneByte
    let (frame, d) ← d.readOneByte
    let (subframeAndSlot, d) ← d.readOneByte
    let (slotAndSymbol, d) ← d.readOneByte
    let subframe := subframeAndSlot >>> 4
    let slotId := (subframeAndSlot &&& 0x0f) <<< 2 ||| slotAndSymbol >>> 6
    if Ran.nofSubframesPerFrame ≤ subframe then .ok none
    else if Ran.nofSlotsPerSubframe dec.numerology ≤ slotId then .ok none
    else
      let params : UplaneMessageParams := {
        direction := if value >>> 7 = 0 then .uplink else .downlink
        filterIndex := toFilterIndexType (value &&& 0xf)
        slot := ⟨dec.numerology, frame * Ran.nofSlotsPerFrame dec.numerology +
          subframe * Ran.nofSlotsPerSubframe dec.numerology + slotId⟩
        symbolId := slotAndSymbol &&& 0x3f }
      if dec.isHeaderValid params (value >>> 4 &&& 7) then .ok (some (params, d)) else .ok none

def decodeSectionHeader (d : NetworkOrderDeserializer) : Except OfhFault (DecodedSection UplaneSectionParams) :=
  if d.remainingBytes < sectionIdHeaderNoCompressionSize then .ok .incomplete
  else do
    let (first, d) ← d.readOneByte
    let (sectionAndRest, d) ← d.readOneByte
    let (startPrb, d) ← d.readOneByte
    let (nofPrb, d) ← d.readOneByte
    .ok (.ok {
      sectionId := first <<< 4 ||| sectionAndRest >>> 4
      isEveryRbUsed := sectionAndRest >>> 3 &&& 1 == 0
      useCurrentSymbolNumber := sectionAndRest >>> 2 &&& 1 == 0
      startPrb := if nofPrb = 0 then 0 else (sectionAndRest &&& 0x03) <<< 8 ||| startPrb
      nofPrbs := if nofPrb = 0 then dec.ruNofPrbs else nofPrb } d)

def decodeCompressionHeader (results : UplaneSectionParams) (d : NetworkOrderDeserializer) :
    Except OfhFault (DecodedSection UplaneSectionParams) :=
  match dec.compressionParams with
  | some params => .ok (.ok { results with udCompHdr := params } d)
  | none =>
    if d.remainingBytes < 2 then .ok .incomplete
    else do
      let (value, d) ← d.readOneByte
      let type := toCompressionType (value &&& 0x0f)
      if type = .reserved then .ok .malformed
      else
        let dataWidth := value >>> 4
        .ok (.ok { results with
          udCompHdr := ⟨type, if dataWidth = 0 then maxIqWidth else dataWidth⟩ } (d.advance 1))

/-- The compression types whose sections give the length of their data. -/
def hasCompressionLength : CompressionType → Bool
  | .none => false
  | .bfp => false
  | .blockScaling => false
  | .muLaw => false
  | .modulation => false
  | _ => true

def decodeCompressionLength (results : UplaneSectionParams) (d : NetworkOrderDeserializer) :
    Except OfhFault (DecodedSection UplaneSectionParams) :=
  if hasCompressionLength results.udCompHdr.type then
    if d.remainingBytes < 2 then .ok .incomplete
    else do
      let (length, d) ← d.readTwoBytes
      .ok (.ok { results with udCompLen := some length } d)
  else .ok (.ok results d)

def checkIqDataSize (nofPrb : Nat) (d : NetworkOrderDeserializer) (params : RuCompressionParams) : Bool :=
  let prbIqDataSize := roundUpToBytes (nofSubcarriersPerRb * 2 * params.dataWidth) +
    if isCompressionParamPresent params.type then 1 else 0
  !decide (d.remainingBytes < prbIqDataSize * nofPrb)

def decodeIqData (results : UplaneSectionParams) (d : NetworkOrderDeserializer) (params : RuCompressionParams) :
    Except OfhFault (UplaneSectionParams × NetworkOrderDeserializer) := do
  let prbIqDataSizeBits := nofSubcarriersPerRb * 2 * params.dataWidth +
    if isCompressionParamPresent params.type then 8 else 0
  let (compressedData, d) ← d.getViewAndAdvance (results.nofPrbs * roundUpToBytes prbIqDataSizeBits)
  let nofSamples := results.nofPrbs * nofSubcarriersPerRb
  if maxNofPrbs * nofSubcarriersPerRb < nofSamples then .error .tooManySamples
  else
    let iqSamples ← decompress params nofSamples compressedData
    .ok ({ results with iqSamples := iqSamples }, d)

def decodeSection (d : NetworkOrderDeserializer) : Except OfhFault (DecodedSection UplaneSectionParams) := do
  match ← dec.decodeSectionHeader d with
  | .incomplete => .ok .incomplete
  | .malformed => .ok .malformed
  | .ok results d =>
    match ← dec.decodeCompressionHeader results d with
    | .incomplete => .ok .incomplete
    | .malformed => .ok .malformed
    | .ok results d =>
      match ← decodeCompressionLength results d with
      | .incomplete => .ok .incomplete
      | .malformed => .ok .malformed
      | .ok results d =>
        if checkIqDataSize results.nofPrbs d results.udCompHdr then do
          let (results, d) ← decodeIqData results d results.udCompHdr
          .ok (.ok results d)
        else .ok .incomplete

def validSections (sections : List UplaneSectionParams) : Option (List UplaneSectionParams) :=
  if sections.isEmpty then none else some sections

/-- The loop of `decode_all_sections`, with room for some more sections; full results are dropped. -/
def decodeAllSections (room : Nat) (sections : List UplaneSectionParams) (d : NetworkOrderDeserializer) :
    Except OfhFault (Option (List UplaneSectionParams)) :=
  if d.remainingBytes = 0 then .ok (validSections sections)
  else do
    match ← dec.decodeSection d with
    | .incomplete => .ok (validSections sections)
    | .malformed => .ok none
    | .ok results d =>
      match room with
      | 0 => .error .sectionsFull
      | room + 1 =>
        if room = 0 then .ok none else decodeAllSections room (sections ++ [results]) d

/-- `uplane_message_decoder_impl::decode`. -/
def decode (message : List UInt8) : Except OfhFault (Option UplaneMessageDecoderResults) := do
  match ← dec.decodeHeader { buffer := message } with
  | none => .ok none
  | some (params, d) => do
    let sections ← dec.decodeAllSections resultsMaxNofSupportedSections [] d
    .ok (sections.map fun sections => ⟨params, sections⟩)

/-- A packet goes to the message decoder unless its payload is empty, as in `process_new_frame`. -/
def receivePacket (policy : PayloadSizePolicy) (packet : List UInt8) :
    Except OfhFault (Option UplaneMessageDecoderResults) := do
  match ← decodePacket policy packet with
  | none => .ok none
  | some (_, payload) => if payload.isEmpty then .ok none else dec.decode payload

end UplaneMessageDecoder

end Srsran.Ofh
