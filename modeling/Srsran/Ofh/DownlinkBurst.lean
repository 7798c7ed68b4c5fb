import Srsran.Ofh.EthFramePool
import Mathlib.Data.List.Nodup
import Mathlib.Data.List.Pairwise

/-! Downlink User-Plane messages of a burst of symbols (`ofh_data_flow_uplane_downlink_data_impl.cpp`,
`ofh_uplane_fragment_size_calculator.cpp`, `ofh_uplane_message_builder_impl.cpp`). The contents of the
Ethernet and eCPRI headers are left out. -/
namespace Srsran.Ofh
open Ran (SlotPoint)
open Checked

inductive DlUplaneFault where
  /-- "Invalid symbol index". -/
  | invalidSymbol
  /-- The IQ samples are not those of the PRBs. -/
  | wrongIqSize
  /-- "Can't set_size: new size if out-of-bounds". -/
  | sizeOutOfBounds
  /-- Zeros written behind the end of the buffer. -/
  | paddingOutsideBuffer
  deriving DecidableEq, Repr

def getPrbDataSize (comprParams : RuCompressionParams) : Nat :=
  let size := roundUpToBytes (comprParams.dataWidth * nofSubcarriersPerRb * 2)
  if comprParams.type = .none ∨ comprParams.type = .modulation then size else size + 1

structure Fragment where
  startPrb : Nat
  nofPrbs : Nat
  isLast : Bool

/-- `calculate_fragment_size` of a calculator that starts at PRB 0, and the next PRB. -/
def calculateFragmentSize (prbSize nofPrbs next frameSize : Nat) : Fragment × Nat :=
  if frameSize < prbSize then (⟨next, 0, false⟩, next)
  else
    let nofPrbsFitInFrame := frameSize / prbSize
    let remainingPrbs := nofPrbs - next
    if remainingPrbs ≤ nofPrbsFitInFrame then (⟨next, remainingPrbs, true⟩, next + remainingPrbs)
    else (⟨next, nofPrbsFitInFrame, false⟩, next + nofPrbsFitInFrame)

/-- The data flow, its builders and compressor, and one resource grid with the cell's bandwidth. -/
structure DownlinkFlow (S : Type) [Zero S] where
  nofSymbolsPerSlot : Nat
  ruNofPrbs : Nat
  comprParams : RuCompressionParams
  isStatic : Bool
  udCompLengthSupport : Bool
  /-- Sizes of the Ethernet and of the eCPRI header. -/
  ethHeaderSize : Nat
  ecpriHeaderSize : Nat
  compress : List S → List UInt8
  nofSubc : Nat
  /-- `reader.get_view` of the port. -/
  getView : Nat → List S
  bufferSize : Nat
  nofSymbols_le : nofSymbolsPerSlot ≤ 14
  ruNofPrbs_pos : 1 ≤ ruNofPrbs
  ruNofPrbs_le : ruNofPrbs ≤ maxNofPrbs
  dataWidth_pos : 1 ≤ comprParams.dataWidth
  dataWidth_le : comprParams.dataWidth ≤ maxIqWidth
  nofSubc_le : nofSubc ≤ ruNofPrbs * nofSubcarriersPerRb
  view_length : ∀ symbol, (getView symbol).length = nofSubc
  compress_length : ∀ iqData nofPrbs, iqData.length = nofPrbs * nofSubcarriersPerRb →
    (compress iqData).length = nofPrbs * getCompressedPrbSize comprParams

/-- A frame buffer: the User-Plane message behind the other headers, and the used size. -/
structure DlFrame where
  message : List UInt8
  size : Nat

/-- The frame with zeros up to the length of the smallest one. -/
def DlFrame.padded (frame : DlFrame) : DlFrame :=
  ⟨frame.message ++ List.replicate (minEthFrameLength - frame.size) 0, writtenSize frame.size⟩

namespace DownlinkFlow
variable {S : Type} [Zero S] (flow : DownlinkFlow S)

def isSelective : Bool := flow.comprParams.type == .bfpSelective || flow.comprParams.type == .modSelective

/-- `get_header_size` of the message builder. -/
def upHeaderSize : Nat := (if flow.isStatic then 8 else 10) + if flow.isSelective then 2 else 0

def headersSize : Nat := flow.ethHeaderSize + flow.ecpriHeaderSize + flow.upHeaderSize

def radioAppHeader (slot : SlotPoint) (symbolId : Nat) : List UInt8 :=
  let subframeSlotIndex := slot.count % Ran.nofSlotsPerSubframe slot.numerology
  [UInt8.ofNat (1 <<< 7 ||| ofhPayloadVersion <<< 4),
    UInt8.ofNat (slot.count / Ran.nofSlotsPerFrame slot.numerology),
    UInt8.ofNat ((slot.count / Ran.nofSlotsPerSubframe slot.numerology % Ran.nofSubframesPerFrame) <<< 4 |||
      subframeSlotIndex >>> 2),
    UInt8.ofNat ((subframeSlotIndex &&& 0x3) <<< 6 ||| symbolId)]

def section1Header (startPrb nofPrb : Nat) : List UInt8 :=
  [0, UInt8.ofNat (startPrb >>> 8 &&& 0x3), UInt8.ofNat startPrb, UInt8.ofNat (if 255 < nofPrb then 0 else nofPrb)]

def comprTypeValue : CompressionType → Nat
  | .none => 0
  | .bfp => 1
  | .blockScaling => 2
  | .muLaw => 3
  | .modulation => 4
  | .bfpSelective => 5
  | .modSelective => 6
  | .reserved => 7

def compressionHeader : List UInt8 :=
  if flow.isStatic then []
  else
    let dataWidth := flow.comprParams.dataWidth
    [UInt8.ofNat ((if dataWidth = 16 then 0 else dataWidth) <<< 4 ||| comprTypeValue flow.comprParams.type), 0]

def udCompLen : List UInt8 :=
  if flow.udCompLengthSupport && flow.isSelective then
    let length := roundUpToBytes (nofSubcarriersPerRb * 2 * flow.comprParams.dataWidth)
    [UInt8.ofNat (length >>> 8), UInt8.ofNat length]
  else []

def messageHeader (slot : SlotPoint) (symbolId startPrb nofPrb : Nat) : List UInt8 :=
  radioAppHeader slot symbolId ++ section1Header startPrb nofPrb ++ flow.compressionHeader ++ flow.udCompLen

def buildMessage (iqData : List S) (slot : SlotPoint) (symbolId startPrb nofPrb : Nat) :
    Except DlUplaneFault (List UInt8) :=
  if iqData.length ≠ nofPrb * nofSubcarriersPerRb then .error .wrongIqSize
  else .ok (flow.messageHeader slot symbolId startPrb nofPrb ++ flow.compress iqData)

/-- The samples of a symbol; without the whole RU bandwidth in the grid, those of the temporary buffer. -/
def iqData (symbolId : Nat) : List S :=
  if flow.ruNofPrbs * nofSubcarriersPerRb = flow.nofSubc then flow.getView symbolId
  else flow.getView symbolId ++ List.replicate (flow.ruNofPrbs * nofSubcarriersPerRb - flow.nofSubc) 0

def samplesOf (symbolId startPrb nofPrbs : Nat) : List S :=
  ((flow.iqData symbolId).drop (startPrb * nofSubcarriersPerRb)).take (nofPrbs * nofSubcarriersPerRb)

/-- `frame_buffer::set_size`. -/
def setSize (frame : DlFrame) : Except DlUplaneFault DlFrame :=
  if maxEthFrameLength < frame.size then .error .sizeOutOfBounds
  else if frame.size < minEthFrameLength ∧ flow.bufferSize < minEthFrameLength then .error .paddingOutsideBuffer
  else .ok frame.padded

def enqueueSymbol (slot : SlotPoint) (symbolId : Nat) (fragment : Fragment) : Except DlUplaneFault DlFrame := do
  let message ← flow.buildMessage (flow.samplesOf symbolId fragment.startPrb fragment.nofPrbs) slot symbolId
    fragment.startPrb fragment.nofPrbs
  flow.setSize ⟨message, flow.ethHeaderSize + flow.ecpriHeaderSize + message.length⟩

/-- The messages of a symbol. `pool` is the number of reservations of the pool that succeed; nothing is left
of it if one fails, with which the burst ends. -/
def fragmentLoop (slot : SlotPoint) (symbolId : Nat) :
    (pool next : Nat) → List DlFrame → Except DlUplaneFault (Option Nat × List DlFrame)
  | 0, _, frames => .ok (none, frames)
  | pool + 1, next, frames => do
    let (fragment, next) := calculateFragmentSize (getPrbDataSize flow.comprParams) flow.ruNofPrbs next
      (flow.bufferSize - flow.headersSize)
    let frames ←
      if fragment.nofPrbs = 0 then pure frames
      else do
        let frame ← flow.enqueueSymbol slot symbolId fragment
        pure (frames ++ [frame])
    if fragment.isLast then pure (some pool, frames) else fragmentLoop slot symbolId pool next frames

def symbolLoop (slot : SlotPoint) : (turns symbolId pool : Nat) → List DlFrame → Except DlUplaneFault (List DlFrame)
  | 0, _, _, frames => .ok frames
  | turns + 1, symbolId, pool, frames =>
    if flow.nofSymbolsPerSlot ≤ symbolId then .error .invalidSymbol
    else do
      match ← flow.fragmentLoop slot symbolId pool 0 frames with
      | (none, frames) => pure frames
      | (some pool, frames) => symbolLoop slot turns (symbolId + 1) pool frames

/-- The symbol counter goes from the start of the range to its length. -/
def enqueueBurst (slot : SlotPoint) (start length pool : Nat) : Except DlUplaneFault (List DlFrame) :=
  flow.symbolLoop slot ((length + 2 ^ 32 - start) % 2 ^ 32) start pool []

/-! What a receiver reads in a frame. -/

def decoder : UplaneMessageDecoder where
  numerology := 0
  nofSymbols := flow.nofSymbolsPerSlot
  ruNofPrbs := flow.ruNofPrbs
  compressionParams := none
  ruNofPrbs_pos := flow.ruNofPrbs_pos
  ruNofPrbs_le := flow.ruNofPrbs_le
  type_known := nofun
  width_pos := nofun
  width_le := nofun

def symbolOf (frame : DlFrame) : Nat := (frame.message.getD 3 0).toNat &&& 0x3f

/-- The decoder reads a section of these PRBs. -/
def Reads (frame : DlFrame) (startPrb nofPrbs : Nat) : Prop :=
  ∃ results d, flow.decoder.decodeSectionHeader ⟨frame.message, nofBytesUpHeader⟩ = .ok (.ok results d) ∧
    results.startPrb = startPrb ∧ results.nofPrbs = nofPrbs

def dataOf (frame : DlFrame) : List UInt8 :=
  frame.message.drop (8 + flow.compressionHeader.length + flow.udCompLen.length)

/-- A frame of the symbol with these PRBs and, before any padding, their samples. -/
structure Carries (symbolId : Nat) (frame : DlFrame) (startPrb nofPrbs : Nat) : Prop where
  symbol : symbolOf frame = symbolId
  reads : flow.Reads frame startPrb nofPrbs
  samples : flow.compress (flow.samplesOf symbolId startPrb nofPrbs) <+: flow.dataOf frame
  size : frame.size ≤ flow.bufferSize

/-- The frames are of the symbol, and their sections cover each PRB of the RU once. -/
structure Covers (symbolId : Nat) (sections : List (DlFrame × Nat × Nat)) : Prop where
  carries : ∀ s ∈ sections, flow.Carries symbolId s.1 s.2.1 s.2.2
  prbs : (sections.flatMap fun s => List.range' s.2.1 s.2.2).Perm (List.range flow.ruNofPrbs)

/-- The burst has the frames of the symbols of the range, and no others. -/
def BurstCovers (slot : SlotPoint) (start length pool : Nat) : Prop :=
  ∃ sections : Nat → List (DlFrame × Nat × Nat),
    flow.enqueueBurst slot start length pool =
      .ok ((List.range' start length).flatMap fun symbol => (sections symbol).map Prod.fst) ∧
    ∀ symbol, start ≤ symbol → symbol < start + length → flow.Covers symbol (sections symbol)

def nofPrbsFit : Nat := (flow.bufferSize - flow.headersSize) / getPrbDataSize flow.comprParams

def nofFragments : Nat := Ran.divideCeil flow.ruNofPrbs flow.nofPrbsFit

def HoldsPrb : Prop := flow.headersSize + getPrbDataSize flow.comprParams ≤ flow.bufferSize

def usedSize (nofPrbs : Nat) : Nat :=
  flow.ethHeaderSize + flow.ecpriHeaderSize + (8 + flow.compressionHeader.length + flow.udCompLen.length +
    nofPrbs * getCompressedPrbSize flow.comprParams)

/-- The buffers hold the smallest Ethernet frame, and the first message of a symbol is not above the largest. -/
def FitsEthernet : Prop :=
  minEthFrameLength ≤ flow.bufferSize ∧ flow.usedSize (min flow.nofPrbsFit flow.ruNofPrbs) ≤ maxEthFrameLength

variable {flow}

theorem prbDataSize_pos : 0 < getPrbDataSize flow.comprParams := by
  have := flow.dataWidth_pos
  simp only [getPrbDataSize, roundUpToBytes, nofSubcarriersPerRb]
  split <;> omega

theorem HoldsPrb.fit_pos (h : flow.HoldsPrb) : 0 < flow.nofPrbsFit := by
  rw [HoldsPrb] at h
  exact Nat.div_pos (by omega) prbDataSize_pos

theorem lt_nofFragments_iff (h : flow.HoldsPrb) (k : Nat) :
    k < flow.nofFragments ↔ k * flow.nofPrbsFit < flow.ruNofPrbs := by
  have hpos := h.fit_pos
  have := flow.ruNofPrbs_pos
  rw [nofFragments, Ran.divideCeil, Nat.lt_iff_add_one_le, Nat.le_div_iff_mul_le hpos, Nat.succ_mul]
  omega

/-- The PRBs of the `k`-th fragment. -/
def nofPrbsAt (flow : DownlinkFlow S) (k : Nat) : Nat :=
  min flow.nofPrbsFit (flow.ruNofPrbs - k * flow.nofPrbsFit)

def messageAt (flow : DownlinkFlow S) (slot : SlotPoint) (symbol k : Nat) : List UInt8 :=
  flow.messageHeader slot symbol (k * flow.nofPrbsFit) (flow.nofPrbsAt k) ++
    flow.compress (flow.samplesOf symbol (k * flow.nofPrbsFit) (flow.nofPrbsAt k))

def frameAt (flow : DownlinkFlow S) (slot : SlotPoint) (symbol k : Nat) : DlFrame :=
  DlFrame.padded ⟨flow.messageAt slot symbol k, flow.usedSize (flow.nofPrbsAt k)⟩

theorem length_samplesOf (symbol : Nat) {start nofPrbs : Nat} (h : start + nofPrbs ≤ flow.ruNofPrbs) :
    (flow.samplesOf symbol start nofPrbs).length = nofPrbs * nofSubcarriersPerRb := by
  have hview := flow.view_length symbol
  have hle := flow.nofSubc_le
  have hlength : (flow.iqData symbol).length = flow.ruNofPrbs * nofSubcarriersPerRb := by
    rw [iqData]
    split
    · omega
    · rw [List.length_append, List.length_replicate]
      omega
  rw [samplesOf, List.length_take, List.length_drop, hlength]
  simp only [nofSubcarriersPerRb]
  omega

variable {k : Nat}

theorem calculateFragmentSize_eq (h : flow.HoldsPrb) (hk : k < flow.nofFragments) :
    calculateFragmentSize (getPrbDataSize flow.comprParams) flow.ruNofPrbs (k * flow.nofPrbsFit)
        (flow.bufferSize - flow.headersSize) =
      (⟨k * flow.nofPrbsFit, flow.nofPrbsAt k, decide (k + 1 = flow.nofFragments)⟩,
        k * flow.nofPrbsFit + flow.nofPrbsAt k) := by
  have hlt := (lt_nofFragments_iff h k).mp hk
  have hnext := lt_nofFragments_iff h (k + 1)
  rw [Nat.succ_mul] at hnext
  have hroom : getPrbDataSize flow.comprParams ≤ flow.bufferSize - flow.headersSize := by
    rw [HoldsPrb] at h
    omega
  rw [calculateFragmentSize, if_neg (Nat.not_lt.mpr hroom), ← nofPrbsFit, nofPrbsAt]
  by_cases hlast : flow.ruNofPrbs - k * flow.nofPrbsFit ≤ flow.nofPrbsFit
  · rw [if_pos hlast, Nat.min_eq_right hlast, decide_eq_true (by omega)]
  · rw [if_neg hlast, Nat.min_eq_left (by omega), decide_eq_false (by omega)]

theorem nofPrbsAt_pos (h : flow.HoldsPrb) (hk : k < flow.nofFragments) : 0 < flow.nofPrbsAt k := by
  have hfit := h.fit_pos
  have hlt := (lt_nofFragments_iff h k).mp hk
  rw [nofPrbsAt]
  omega

variable (slot : SlotPoint)

theorem length_messageHeader (symbol start nofPrbs : Nat) :
    (flow.messageHeader slot symbol start nofPrbs).length =
      8 + flow.compressionHeader.length + flow.udCompLen.length := by
  simp only [messageHeader, radioAppHeader, section1Header, List.length_append, List.length_cons, List.length_nil]

theorem length_messageAt (h : flow.HoldsPrb) (slot : SlotPoint) (symbol : Nat)
    (hk : k < flow.nofFragments) :
    (flow.messageAt slot symbol k).length = 8 + flow.compressionHeader.length + flow.udCompLen.length +
      flow.nofPrbsAt k * getCompressedPrbSize flow.comprParams := by
  have hlt := (lt_nofFragments_iff h k).mp hk
  rw [messageAt, List.length_append, length_messageHeader,
    flow.compress_length _ _ (length_samplesOf symbol (by rw [nofPrbsAt]; omega))]

theorem enqueueSymbol_eq (h : flow.HoldsPrb) (symbol : Nat) (isLast : Bool) (hk : k < flow.nofFragments) :
    flow.enqueueSymbol slot symbol ⟨k * flow.nofPrbsFit, flow.nofPrbsAt k, isLast⟩ =
      flow.setSize ⟨flow.messageAt slot symbol k, flow.usedSize (flow.nofPrbsAt k)⟩ := by
  have hlt := (lt_nofFragments_iff h k).mp hk
  have hlength := @length_samplesOf S _ flow symbol (k * flow.nofPrbsFit) (flow.nofPrbsAt k)
    (by rw [nofPrbsAt]; omega)
  rw [enqueueSymbol, buildMessage, if_neg (not_not.mpr hlength), ok_bind, ← messageAt, length_messageAt h slot symbol hk]
  rfl

theorem usedSize_mono {few many : Nat} (h : few ≤ many) : flow.usedSize few ≤ flow.usedSize many := by
  have := Nat.mul_le_mul_right (getCompressedPrbSize flow.comprParams) h
  rw [usedSize, usedSize]
  omega

theorem setSize_eq (hfits : flow.FitsEthernet) (symbol k : Nat) :
    flow.setSize ⟨flow.messageAt slot symbol k, flow.usedSize (flow.nofPrbsAt k)⟩ = .ok (flow.frameAt slot symbol k) := by
  have hle := @usedSize_mono S _ flow (flow.nofPrbsAt k) (min flow.nofPrbsFit flow.ruNofPrbs)
    (by rw [nofPrbsAt]; omega)
  rw [setSize, if_neg (Nat.not_lt.mpr (hle.trans hfits.2)), if_neg fun hsmall => Nat.not_lt.mpr hfits.1 hsmall.2]
  rfl

theorem fragmentLoop_ok (h : flow.HoldsPrb) (hfits : flow.FitsEthernet) (slot : SlotPoint) (symbol : Nat) {left k pool : Nat}
    (hleft : k + (left + 1) = flow.nofFragments) (hpool : left + 1 ≤ pool) (frames : List DlFrame) :
    flow.fragmentLoop slot symbol pool (k * flow.nofPrbsFit) frames =
      .ok (some (pool - (left + 1)), frames ++ (List.range' k (left + 1)).map (flow.frameAt slot symbol)) := by
  induction left generalizing k pool frames with
  | zero =>
    obtain ⟨pool, rfl⟩ : ∃ less, pool = less + 1 := ⟨pool - 1, by omega⟩
    have hk : k < flow.nofFragments := by omega
    rw [fragmentLoop, calculateFragmentSize_eq h hk]
    simp only [if_neg (Nat.ne_of_gt (nofPrbsAt_pos h hk)),
      enqueueSymbol_eq slot h symbol _ hk, setSize_eq slot hfits, ok_bind, decide_eq_true hleft]
    rfl
  | succ left ih =>
    obtain ⟨pool, rfl⟩ : ∃ less, pool = less + 1 := ⟨pool - 1, by omega⟩
    have hk : k < flow.nofFragments := by omega
    have hnext : k * flow.nofPrbsFit + flow.nofPrbsAt k = (k + 1) * flow.nofPrbsFit := by
      have hlt := (lt_nofFragments_iff h (k + 1)).mp (by omega)
      rw [Nat.succ_mul] at hlt ⊢
      rw [nofPrbsAt, Nat.min_eq_left (by omega)]
    rw [fragmentLoop, calculateFragmentSize_eq h hk]
    simp only [if_neg (Nat.ne_of_gt (nofPrbsAt_pos h hk)),
      enqueueSymbol_eq slot h symbol _ hk, setSize_eq slot hfits, ok_bind,
      decide_eq_false (by omega : ¬k + 1 = flow.nofFragments), hnext]
    refine (ih (by omega) (by omega) _).trans ?_
    rw [List.range'_succ, List.map_cons, List.append_assoc, Nat.add_sub_add_right]
    rfl

def framesOf (flow : DownlinkFlow S) (slot : SlotPoint) (symbol : Nat) : List DlFrame :=
  (List.range flow.nofFragments).map (flow.frameAt slot symbol)

variable {symbol : Nat}

theorem symbolLoop_ok (h : flow.HoldsPrb) (hfits : flow.FitsEthernet) (slot : SlotPoint) {turns pool : Nat}
    (hsymbol : symbol + turns ≤ flow.nofSymbolsPerSlot) (hpool : turns * flow.nofFragments ≤ pool)
    (frames : List DlFrame) :
    flow.symbolLoop slot turns symbol pool frames =
      .ok (frames ++ (List.range' symbol turns).flatMap (flow.framesOf slot)) := by
  induction turns generalizing symbol pool frames with
  | zero => simp [symbolLoop]
  | succ turns ih =>
    have hfragments := (lt_nofFragments_iff h 0).mpr (by have := flow.ruNofPrbs_pos; omega)
    rw [Nat.succ_mul] at hpool
    have hloop := @fragmentLoop_ok S _ flow h hfits slot symbol (flow.nofFragments - 1) 0 pool (by omega) (by omega) frames
    rw [Nat.zero_mul, Nat.sub_add_cancel hfragments, ← List.range_eq_range'] at hloop
    rw [symbolLoop, if_neg (by omega), hloop, ok_bind]
    refine (ih (by omega) (by omega) _).trans ?_
    rw [List.range'_succ, List.flatMap_cons, List.append_assoc, framesOf]

theorem symbolLoop_error (h : flow.HoldsPrb) (hfits : flow.FitsEthernet) (slot : SlotPoint) {turns pool : Nat}
    (hsymbol : symbol ≤ flow.nofSymbolsPerSlot) (hturns : flow.nofSymbolsPerSlot < symbol + turns)
    (hpool : (flow.nofSymbolsPerSlot - symbol) * flow.nofFragments ≤ pool) (frames : List DlFrame) :
    flow.symbolLoop slot turns symbol pool frames = .error .invalidSymbol := by
  induction turns generalizing symbol pool frames with
  | zero => omega
  | succ turns ih =>
    rw [symbolLoop]
    by_cases hlast : flow.nofSymbolsPerSlot ≤ symbol
    · rw [if_pos hlast]
    · have hfragments := (lt_nofFragments_iff h 0).mpr (by have := flow.ruNofPrbs_pos; omega)
      have hless : flow.nofSymbolsPerSlot - symbol = flow.nofSymbolsPerSlot - (symbol + 1) + 1 := by omega
      rw [hless, Nat.succ_mul] at hpool
      have hloop := @fragmentLoop_ok S _ flow h hfits slot symbol (flow.nofFragments - 1) 0 pool (by omega) (by omega) frames
      rw [Nat.zero_mul, Nat.sub_add_cancel hfragments] at hloop
      rw [if_neg hlast, hloop, ok_bind]
      exact ih (by omega) (by omega) (by omega) _

theorem upHeader_le : 8 + flow.compressionHeader.length + flow.udCompLen.length ≤ flow.upHeaderSize := by
  rw [compressionHeader, udCompLen, upHeaderSize]
  cases flow.isStatic <;> cases flow.isSelective <;> cases flow.udCompLengthSupport <;> simp

theorem compressedPrbSize_le : getCompressedPrbSize flow.comprParams ≤ getPrbDataSize flow.comprParams := by
  rw [getCompressedPrbSize, getPrbDataSize, isCompressionParamPresent]
  simp only [roundUpToBytes, nofSubcarriersPerRb]
  cases flow.comprParams.type <;> simp <;> omega

theorem usedSize_le (h : flow.HoldsPrb) (k : Nat) : flow.usedSize (flow.nofPrbsAt k) ≤ flow.bufferSize := by
  have hdata : flow.nofPrbsAt k * getCompressedPrbSize flow.comprParams ≤ flow.bufferSize - flow.headersSize :=
    calc flow.nofPrbsAt k * getCompressedPrbSize flow.comprParams
      _ ≤ flow.nofPrbsFit * getPrbDataSize flow.comprParams :=
        Nat.mul_le_mul (Nat.min_le_left _ _) compressedPrbSize_le
      _ ≤ flow.bufferSize - flow.headersSize := Nat.div_mul_le_self _ _
  have hheader := @upHeader_le S _ flow
  rw [HoldsPrb] at h
  rw [usedSize]
  rw [headersSize] at *
  omega

/-- A size that cannot be set ends the burst with the first message of a symbol. -/
theorem symbolLoop_fault (h : flow.HoldsPrb) (hfits : ¬flow.FitsEthernet) (slot : SlotPoint) (turns symbol pool : Nat)
    (frames : List DlFrame) : ∃ fault, flow.symbolLoop slot (turns + 1) symbol (pool + 1) frames = .error fault := by
  have h0 : 0 < flow.nofFragments := (lt_nofFragments_iff h 0).mpr (by have := flow.ruNofPrbs_pos; omega)
  have hheld := @usedSize_le S _ flow h 0
  have hset : ∃ fault, flow.setSize ⟨flow.messageAt slot symbol 0, flow.usedSize (flow.nofPrbsAt 0)⟩ = .error fault := by
    rw [setSize]
    split
    · exact ⟨_, rfl⟩
    · next hle =>
      have hsmall : flow.bufferSize < minEthFrameLength := by
        rw [nofPrbsAt, Nat.zero_mul, Nat.sub_zero] at hle
        exact Nat.not_le.mp fun hlarge => hfits ⟨hlarge, Nat.not_lt.mp hle⟩
      rw [if_pos ⟨hheld.trans_lt hsmall, hsmall⟩]
      exact ⟨_, rfl⟩
  obtain ⟨fault, hset⟩ := hset
  rw [symbolLoop]
  split
  · exact ⟨_, rfl⟩
  · have hsize := calculateFragmentSize_eq h h0
    rw [Nat.zero_mul] at hsize
    have hfirst := enqueueSymbol_eq slot h symbol (decide (0 + 1 = flow.nofFragments)) h0
    rw [Nat.zero_mul] at hfirst
    rw [fragmentLoop, hsize]
    simp only [if_neg (Nat.ne_of_gt (nofPrbsAt_pos h h0)), hfirst, hset]
    exact ⟨fault, rfl⟩

/-! What the frames hold. -/

theorem symbolOf_frameAt (hsymbol : symbol < 64) (k : Nat) :
    symbolOf (flow.frameAt slot symbol k) = symbol := by
  change (UInt8.ofNat ((slot.count % Ran.nofSlotsPerSubframe slot.numerology &&& 0x3) <<< 6 ||| symbol)).toNat &&& 0x3f
    = symbol
  rw [UInt8.toNat_ofNat', ← Nat.shiftLeft_add_eq_or_of_lt hsymbol, Nat.shiftLeft_eq,
    Nat.and_two_pow_sub_one_eq_mod _ 6]
  omega

theorem size_frameAt (h : flow.HoldsPrb) (hfits : flow.FitsEthernet) (symbol k : Nat) :
    (flow.frameAt slot symbol k).size ≤ flow.bufferSize := by
  rw [frameAt, DlFrame.padded, writtenSize]
  split
  · exact hfits.1
  · exact usedSize_le h k

theorem samples_frameAt (symbol k : Nat) :
    flow.compress (flow.samplesOf symbol (k * flow.nofPrbsFit) (flow.nofPrbsAt k)) <+:
      flow.dataOf (flow.frameAt slot symbol k) := by
  have hmessage : (flow.frameAt slot symbol k).message = flow.messageAt slot symbol k ++ _ := rfl
  rw [dataOf, hmessage, messageAt, List.append_assoc, List.drop_left' (length_messageHeader slot symbol _ _)]
  exact List.prefix_append _ _

theorem reads_written {message : List UInt8} {start nofPrbs size : Nat} (hstart : start < 1024)
    (hpos : 0 < nofPrbs) (hle : nofPrbs ≤ 275) (hlength : 8 ≤ message.length) (hlt : message.length < 2 ^ 32)
    (hbytes : ∀ i < 4, message[4 + i]? = (section1Header start nofPrbs)[i]?) :
    flow.Reads ⟨message, size⟩ (if 255 < nofPrbs then 0 else start)
      (if 255 < nofPrbs then flow.ruNofPrbs else nofPrbs) := by
  have hremaining : ¬NetworkOrderDeserializer.remainingBytes ⟨message, 4⟩ < 4 := by
    simp only [NetworkOrderDeserializer.remainingBytes, NetworkOrderDeserializer.size, uintSub, uintMod]
    omega
  have hhigh : (UInt8.ofNat (start >>> 8 &&& 0x3)).toNat &&& 0x03 = start / 256 := by
    rw [UInt8.toNat_ofNat', Nat.shiftRight_eq_div_pow, Nat.and_two_pow_sub_one_eq_mod _ 2,
      Nat.and_two_pow_sub_one_eq_mod _ 2]
    omega
  have hvalue : (start / 256) <<< 8 ||| (UInt8.ofNat start).toNat = start := by
    rw [UInt8.toNat_ofNat', ← Nat.shiftLeft_add_eq_or_of_lt (Nat.mod_lt _ (by decide)), Nat.shiftLeft_eq]
    omega
  have hcount : (UInt8.ofNat (if 255 < nofPrbs then 0 else nofPrbs)).toNat = 0 ↔ 255 < nofPrbs := by
    rw [UInt8.toNat_ofNat']
    split <;> omega
  have h0 : message[4]? = some 0 := hbytes 0 (by decide)
  have h1 : message[5]? = some (UInt8.ofNat (start >>> 8 &&& 0x3)) := hbytes 1 (by decide)
  have h2 : message[6]? = some (UInt8.ofNat start) := hbytes 2 (by decide)
  have h3 : message[7]? = some (UInt8.ofNat (if 255 < nofPrbs then 0 else nofPrbs)) := hbytes 3 (by decide)
  rw [Reads, nofBytesUpHeader, UplaneMessageDecoder.decodeSectionHeader, sectionIdHeaderNoCompressionSize,
    if_neg hremaining]
  simp only [NetworkOrderDeserializer.readOneByte, h0]
  simp only [NetworkOrderDeserializer.advance, h1, h2, h3, ok_bind, hhigh, hvalue, hcount]
  refine ⟨_, _, rfl, rfl, ?_⟩
  by_cases h255 : 255 < nofPrbs
  · simp only [if_pos h255]
    rfl
  · simp only [if_neg h255, UInt8.toNat_ofNat']
    omega

/-- The decoder takes a section of more than 255 PRBs for one of all PRBs. -/
theorem reads_frameAt (h : flow.HoldsPrb) (slot : SlotPoint) (symbol : Nat)
    (hk : k < flow.nofFragments) :
    flow.Reads (flow.frameAt slot symbol k) (if 255 < flow.nofPrbsAt k then 0 else k * flow.nofPrbsFit)
      (if 255 < flow.nofPrbsAt k then flow.ruNofPrbs else flow.nofPrbsAt k) := by
  have hlt := (lt_nofFragments_iff h k).mp hk
  have hru := flow.ruNofPrbs_le
  rw [maxNofPrbs] at hru
  have hn : flow.nofPrbsAt k ≤ 275 := by
    rw [nofPrbsAt]
    omega
  have hprb : getCompressedPrbSize flow.comprParams ≤ 49 := by
    have hwidth := flow.dataWidth_le
    simp only [getCompressedPrbSize, roundUpToBytes, nofSubcarriersPerRb, maxIqWidth] at *
    split <;> omega
  have hdata := Nat.mul_le_mul hn hprb
  have hheader : 8 + flow.compressionHeader.length + flow.udCompLen.length ≤ 12 := by
    have := @upHeader_le S _ flow
    rw [upHeaderSize] at this
    split at this <;> split at this <;> omega
  have hmessage := length_messageAt h slot symbol hk
  have hlength (n : Nat) : (flow.messageAt slot symbol k ++ List.replicate n (0 : UInt8)).length =
      (flow.messageAt slot symbol k).length + n := by
    rw [List.length_append, List.length_replicate]
  refine reads_written (by omega) (nofPrbsAt_pos h hk) hn (by rw [hlength]; omega)
    (by rw [hlength, minEthFrameLength]; omega) fun i hi => ?_
  obtain rfl | rfl | rfl | rfl : i = 0 ∨ i = 1 ∨ i = 2 ∨ i = 3 := by omega
  all_goals rfl

/-! Bursts. -/

theorem flatMap_fragments (fit n total : Nat) :
    ((List.range n).flatMap fun k => List.range' (k * fit) (min fit (total - k * fit))) =
      List.range (min (n * fit) total) := by
  induction n with
  | zero => simp
  | succ n ih =>
    rw [List.range_succ, List.flatMap_append, ih, List.flatMap_singleton, Nat.succ_mul]
    rcases Nat.le_total total (n * fit) with hle | hle
    · rw [Nat.sub_eq_zero_of_le hle, Nat.min_zero, List.range'_zero, List.append_nil, Nat.min_eq_right hle,
        Nat.min_eq_right (by omega)]
    · have happend := @List.range'_append_1 0 (n * fit) (min fit (total - n * fit))
      rw [Nat.zero_add] at happend
      rw [Nat.min_eq_left hle, List.range_eq_range', List.range_eq_range', happend]
      congr 1
      omega

theorem covers_framesOf (h : flow.HoldsPrb) (hfits : flow.FitsEthernet) (slot : SlotPoint) (hsymbol : symbol < 64)
    (hgood : flow.nofPrbsFit ≤ 255 ∨ flow.ruNofPrbs ≤ flow.nofPrbsFit) :
    flow.Covers symbol ((List.range flow.nofFragments).map fun k =>
      (flow.frameAt slot symbol k, k * flow.nofPrbsFit, flow.nofPrbsAt k)) where
  carries s hs := by
    obtain ⟨k, hk, rfl⟩ := List.mem_map.mp hs
    have hk := List.mem_range.mp hk
    refine ⟨symbolOf_frameAt slot hsymbol k, ?_, samples_frameAt slot symbol k, size_frameAt slot h hfits symbol k⟩
    have hreads := reads_frameAt h slot symbol hk
    have hlt := (lt_nofFragments_iff h k).mp hk
    split at hreads
    · next h255 =>
      rw [nofPrbsAt] at h255
      have hk0 : k = 0 := by
        by_contra hne
        have := Nat.mul_le_mul_right flow.nofPrbsFit (Nat.one_le_iff_ne_zero.mpr hne)
        omega
      subst hk0
      have hall : flow.nofPrbsAt 0 = flow.ruNofPrbs := by
        rw [nofPrbsAt]
        omega
      rw [Nat.zero_mul, hall]
      exact hreads
    · exact hreads
  prbs := by
    have hlast := lt_nofFragments_iff h flow.nofFragments
    rw [List.flatMap_map]
    simp only [nofPrbsAt]
    rw [flatMap_fragments, Nat.min_eq_right (by omega)]

theorem Reads.unique {frame : DlFrame} {start nofPrbs start' nofPrbs' : Nat} (h : flow.Reads frame start nofPrbs)
    (h' : flow.Reads frame start' nofPrbs') : start = start' ∧ nofPrbs = nofPrbs' := by
  obtain ⟨results, d, hdecode, rfl, rfl⟩ := h
  obtain ⟨results', d', hdecode', rfl, rfl⟩ := h'
  rw [hdecode] at hdecode'
  cases hdecode'
  exact ⟨rfl, rfl⟩

theorem Covers.ne_nil {sections : List (DlFrame × Nat × Nat)} (h : flow.Covers symbol sections) : sections ≠ [] := by
  rintro rfl
  have hlength := h.prbs.length_eq
  rw [List.length_range] at hlength
  exact Nat.ne_of_lt flow.ruNofPrbs_pos hlength

theorem burstCovers_iff_of_not_fitsEthernet (h : flow.HoldsPrb) (hfits : ¬flow.FitsEthernet) (slot : SlotPoint)
    {start length pool : Nat} (hrange : start + length ≤ flow.nofSymbolsPerSlot)
    (hpool : flow.nofSymbolsPerSlot * flow.nofFragments ≤ pool) :
    flow.BurstCovers slot start length pool ↔ start = 0 ∧ length = 0 := by
  have hslot := flow.nofSymbols_le
  constructor
  · rintro ⟨sections, hok, hcovers⟩
    rw [enqueueBurst] at hok
    by_cases heq : start = length
    · have hturns : (length + 2 ^ 32 - start) % 2 ^ 32 = 0 := by omega
      rw [hturns, symbolLoop] at hok
      have hnil := List.flatMap_eq_nil_iff.mp (Except.ok.inj hok).symm
      by_contra hne
      refine (hcovers start le_rfl (by omega)).ne_nil (List.map_eq_nil_iff.mp (hnil start ?_))
      exact List.mem_range'_1.mpr (by omega)
    · obtain ⟨turns, hturns⟩ : ∃ turns, (length + 2 ^ 32 - start) % 2 ^ 32 = turns + 1 :=
        ⟨(length + 2 ^ 32 - start) % 2 ^ 32 - 1, by omega⟩
      have h0 : 0 < flow.nofFragments := (lt_nofFragments_iff h 0).mpr (by have := flow.ruNofPrbs_pos; omega)
      have hpos : 0 < flow.nofSymbolsPerSlot * flow.nofFragments := Nat.mul_pos (by omega) h0
      obtain ⟨less, rfl⟩ : ∃ less, pool = less + 1 := ⟨pool - 1, by omega⟩
      obtain ⟨fault, hfault⟩ := symbolLoop_fault h hfits slot turns start less []
      rw [hturns, hfault] at hok
      cases hok
  · rintro ⟨rfl, rfl⟩
    exact ⟨fun _ => [], rfl, fun symbol _ hlt => by omega⟩

theorem burstCovers_iff_of_fitsEthernet (h : flow.HoldsPrb) (hfits : flow.FitsEthernet) (slot : SlotPoint)
    {start length pool : Nat} (hrange : start + length ≤ flow.nofSymbolsPerSlot)
    (hpool : flow.nofSymbolsPerSlot * flow.nofFragments ≤ pool) :
    flow.BurstCovers slot start length pool ↔
      start = 0 ∧ (length = 0 ∨ flow.nofPrbsFit ≤ 255 ∨ flow.ruNofPrbs ≤ flow.nofPrbsFit) := by
  have hslot := flow.nofSymbols_le
  have hburst (hle : start ≤ length) : flow.enqueueBurst slot start length pool =
      .ok ((List.range' start (length - start)).flatMap (flow.framesOf slot)) := by
    have hturns : (length + 2 ^ 32 - start) % 2 ^ 32 = length - start := by omega
    have hless := Nat.mul_le_mul_right flow.nofFragments (by omega : length - start ≤ flow.nofSymbolsPerSlot)
    rw [enqueueBurst, hturns, symbolLoop_ok h hfits slot (by omega) (by omega), List.nil_append]
  constructor
  · rintro ⟨sections, hok, hcovers⟩
    have hle : start ≤ length := by
      by_contra hlt
      have hless := Nat.mul_le_mul_right flow.nofFragments
        (by omega : flow.nofSymbolsPerSlot - start ≤ flow.nofSymbolsPerSlot)
      rw [enqueueBurst, symbolLoop_error h hfits slot (by omega) (by omega) (by omega)] at hok
      cases hok
    rw [hburst hle] at hok
    have hframes := Except.ok.inj hok
    -- a frame of the burst is one of its symbol's sections
    have hsections (symbol k : Nat) (hge : start ≤ symbol) (hlt : symbol < length) (hk : k < flow.nofFragments) :
        ∃ s ∈ sections symbol, s.1 = flow.frameAt slot symbol k := by
      have hmem : flow.frameAt slot symbol k ∈ (List.range' start (length - start)).flatMap (flow.framesOf slot) :=
        List.mem_flatMap.mpr ⟨symbol, List.mem_range'_1.mpr (by omega), List.mem_map_of_mem (List.mem_range.mpr hk)⟩
      rw [hframes] at hmem
      obtain ⟨other, hother, hmem⟩ := List.mem_flatMap.mp hmem
      obtain ⟨s, hs, heq⟩ := List.mem_map.mp hmem
      have hbounds := List.mem_range'_1.mp hother
      have hsymbol := ((hcovers other hbounds.1 hbounds.2).carries s hs).symbol
      rw [heq, symbolOf_frameAt slot (by omega)] at hsymbol
      exact ⟨s, hsymbol ▸ hs, heq⟩
    have hstart : start = 0 := by
      by_contra hstart
      -- the last symbol of the range has no frame
      obtain ⟨hcarries, hprbs⟩ := hcovers (start + length - 1) (by omega) (by omega)
      have hfirst := hprbs.mem_iff.mpr (List.mem_range.mpr flow.ruNofPrbs_pos)
      obtain ⟨s, hs, -⟩ := List.mem_flatMap.mp hfirst
      have hmem : s.1 ∈ (List.range' start length).flatMap fun symbol => (sections symbol).map Prod.fst :=
        List.mem_flatMap.mpr ⟨start + length - 1, List.mem_range'_1.mpr (by omega), List.mem_map_of_mem hs⟩
      rw [← hframes] at hmem
      obtain ⟨symbol, hsymbol, hmem⟩ := List.mem_flatMap.mp hmem
      obtain ⟨k, -, heq⟩ := List.mem_map.mp hmem
      have hbounds := List.mem_range'_1.mp hsymbol
      have hread := (hcarries s hs).symbol
      rw [← heq, symbolOf_frameAt slot (by omega)] at hread
      omega
    refine ⟨hstart, ?_⟩
    by_contra hbad
    have hru := flow.ruNofPrbs_le
    rw [maxNofPrbs] at hru
    have h0 : 0 < flow.nofFragments := (lt_nofFragments_iff h 0).mpr (by omega)
    have h1 : 1 < flow.nofFragments := (lt_nofFragments_iff h 1).mpr (by omega)
    have hfirst : flow.nofPrbsAt 0 = flow.nofPrbsFit := by
      rw [nofPrbsAt]
      omega
    have hsecond : flow.nofPrbsAt 1 = flow.ruNofPrbs - flow.nofPrbsFit := by
      rw [nofPrbsAt]
      omega
    have hreads0 := reads_frameAt h slot 0 h0
    have hreads1 := reads_frameAt h slot 0 h1
    rw [hfirst, if_pos (by omega), if_pos (by omega)] at hreads0
    rw [hsecond, if_neg (by omega), if_neg (by omega), Nat.one_mul] at hreads1
    obtain ⟨all, hall, hallFrame⟩ := hsections 0 0 (by omega) (by omega) h0
    obtain ⟨rest, hrest, hrestFrame⟩ := hsections 0 1 (by omega) (by omega) h1
    obtain ⟨hcarries, hprbs⟩ := hcovers 0 (by omega) (by omega)
    obtain ⟨hallStart, hallCount⟩ := (hallFrame ▸ (hcarries all hall).reads).unique hreads0
    obtain ⟨hrestStart, hrestCount⟩ := (hrestFrame ▸ (hcarries rest hrest).reads).unique hreads1
    have hdistinct : all ≠ rest := by
      rintro rfl
      omega
    -- both sections have the first PRB of the second fragment
    have hnodup := (List.nodup_flatMap.mp (hprbs.nodup_iff.mpr List.nodup_range)).2
    have : Std.Symm (Function.onFun List.Disjoint fun s : DlFrame × Nat × Nat => List.range' s.2.1 s.2.2) :=
      ⟨fun _ _ hd _ ha hb => hd hb ha⟩
    have hdisjoint := hnodup.forall hall hrest hdistinct
    have hboth : flow.nofPrbsFit ∈ List.range' all.2.1 all.2.2 ∧ flow.nofPrbsFit ∈ List.range' rest.2.1 rest.2.2 :=
      ⟨List.mem_range'_1.mpr (by omega), List.mem_range'_1.mpr (by omega)⟩
    exact hdisjoint hboth.1 hboth.2
  · rintro ⟨rfl, hgood⟩
    refine ⟨fun symbol => (List.range flow.nofFragments).map fun k =>
      (flow.frameAt slot symbol k, k * flow.nofPrbsFit, flow.nofPrbsAt k), ?_, fun symbol _ hlt => ?_⟩
    · rw [hburst (Nat.zero_le _), Nat.sub_zero]
      simp only [List.map_map]
      rfl
    · exact covers_framesOf h hfits slot (by omega) (by omega)

/-- A burst covers its symbols exactly if the range starts at the first symbol, the sizes of its frames are in
the bounds of `set_size`, and no section of more than 255 PRBs leaves PRBs out. -/
theorem burstCovers_iff (h : flow.HoldsPrb) (slot : SlotPoint) {start length pool : Nat}
    (hrange : start + length ≤ flow.nofSymbolsPerSlot)
    (hpool : flow.nofSymbolsPerSlot * flow.nofFragments ≤ pool) :
    flow.BurstCovers slot start length pool ↔
      start = 0 ∧
        (length = 0 ∨ flow.FitsEthernet ∧ (flow.nofPrbsFit ≤ 255 ∨ flow.ruNofPrbs ≤ flow.nofPrbsFit)) := by
  by_cases hfits : flow.FitsEthernet
  · rw [burstCovers_iff_of_fitsEthernet h hfits slot hrange hpool, and_iff_right hfits]
  · rw [burstCovers_iff_of_not_fitsEthernet h hfits slot hrange hpool, or_iff_left fun hboth => hfits hboth.1]

/-- An RU of 3 PRBs, of which a cell has two, with frames for two PRBs. -/
def tinyFlow : DownlinkFlow Nat where
  nofSymbolsPerSlot := 14
  ruNofPrbs := 3
  comprParams := ⟨.none, 16⟩
  isStatic := true
  udCompLengthSupport := false
  ethHeaderSize := 14
  ecpriHeaderSize := 8
  compress iqData := List.replicate (iqData.length / 12 * 48) 0
  nofSubc := 24
  getView _ := List.replicate 24 1
  bufferSize := 126
  nofSymbols_le := by decide
  ruNofPrbs_pos := by decide
  ruNofPrbs_le := by decide
  dataWidth_pos := by decide
  dataWidth_le := by decide
  nofSubc_le := by decide
  view_length _ := List.length_replicate
  compress_length iqData nofPrbs h := by
    rw [List.length_replicate, h, nofSubcarriersPerRb, Nat.mul_div_cancel _ (by decide)]
    rfl

theorem burstCovers_firstSymbols : tinyFlow.BurstCovers ⟨1, 0⟩ 0 2 28 :=
  (burstCovers_iff (show tinyFlow.headersSize + 48 ≤ 126 by decide) ⟨1, 0⟩ (by decide) (by decide)).mpr
    ⟨rfl, .inr ⟨⟨by decide, by decide⟩, .inl (by decide)⟩⟩

/-- The counter of symbols that start in the middle of the slot is at their number from the outset. -/
theorem secondHalf_notSent : tinyFlow.enqueueBurst ⟨1, 0⟩ 7 7 28 = .ok [] ∧ ¬tinyFlow.BurstCovers ⟨1, 0⟩ 7 7 28 := by
  have hnone : tinyFlow.enqueueBurst ⟨1, 0⟩ 7 7 28 = .ok [] := rfl
  refine ⟨hnone, ?_⟩
  rintro ⟨sections, hok, hcovers⟩
  rw [hnone] at hok
  have hempty := List.flatMap_eq_nil_iff.mp (Except.ok.inj hok).symm 7 (by decide)
  have hprbs := (hcovers 7 (by decide) (by decide)).prbs
  rw [List.map_eq_nil_iff.mp hempty] at hprbs
  exact absurd hprbs.length_eq (by decide)

end DownlinkFlow
end Srsran.Ofh
