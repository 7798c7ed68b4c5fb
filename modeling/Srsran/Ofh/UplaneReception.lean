import Srsran.Ofh.UplaneMessage

/-! What is received of a packet. The bytes that are read lie in the packet, and the sections of the results
stand one after the other in it, each with the IQ data of its own PRBs. -/
namespace Srsran.Ofh
open Checked UplaneMessageDecoder

namespace NetworkOrderDeserializer

structure At (d : NetworkOrderDeserializer) (rest : List UInt8) : Prop where
  small : d.buffer.length < uintMod
  inside : d.offset ≤ d.buffer.length
  left : d.buffer.drop d.offset = rest

variable {d : NetworkOrderDeserializer} {rest : List UInt8} {byte byte' : UInt8}

theorem at_start (h : rest.length < uintMod) : At { buffer := rest } rest where
  small := h
  inside := Nat.zero_le _
  left := rfl

theorem At.length_eq (h : d.At rest) : rest.length = d.buffer.length - d.offset := by
  rw [← h.left, List.length_drop]

theorem At.remainingBytes_eq (h : d.At rest) : d.remainingBytes = rest.length := by
  have hsmall := h.small
  have hinside := h.inside
  rw [remainingBytes, size, uintSub, h.length_eq, Nat.mod_eq_of_lt hsmall]
  rw [show d.buffer.length + uintMod - d.offset = d.buffer.length - d.offset + uintMod by omega,
    Nat.add_mod_right]
  exact Nat.mod_eq_of_lt (by omega)

theorem At.advance (skipped : List UInt8) (h : d.At (skipped ++ rest)) {n : Nat} (hn : skipped.length = n) :
    (d.advance n).At rest := by
  have hlength := h.length_eq
  have hinside := h.inside
  rw [List.length_append] at hlength
  refine ⟨h.small, ?_, ?_⟩
  · rw [NetworkOrderDeserializer.advance]
    simp only
    omega
  · rw [NetworkOrderDeserializer.advance, ← List.drop_drop, h.left]
    exact List.drop_left' hn

theorem At.readOneByte (h : d.At (byte :: rest)) :
    d.readOneByte = .ok (byte.toNat, d.advance 1) ∧ (d.advance 1).At rest := by
  have hget : d.buffer[d.offset]? = some byte := by
    rw [← List.head?_drop, h.left, List.head?_cons]
  exact ⟨by simp only [NetworkOrderDeserializer.readOneByte, hget], h.advance [byte] rfl⟩

theorem At.readTwoBytes (h : d.At (byte :: byte' :: rest)) :
    ∃ d', d.readTwoBytes = .ok (byte.toNat <<< 8 ||| byte'.toNat, d') ∧ d'.At rest := by
  obtain ⟨hfirst, hnext⟩ := h.readOneByte
  obtain ⟨hsecond, hrest⟩ := hnext.readOneByte
  refine ⟨_, ?_, hrest⟩
  rw [NetworkOrderDeserializer.readTwoBytes, hfirst, ok_bind]
  simp only [hsecond, ok_bind]

theorem At.getViewAndAdvance {view : List UInt8} (h : d.At (view ++ rest)) :
    ∃ d', d.getViewAndAdvance view.length = .ok (view, d') ∧ d'.At rest := by
  have hlength := h.length_eq
  have hinside := h.inside
  rw [List.length_append] at hlength
  refine ⟨_, ?_, h.advance view rfl⟩
  rw [NetworkOrderDeserializer.getViewAndAdvance, if_pos (by omega), h.left, List.take_left]

end NetworkOrderDeserializer

open NetworkOrderDeserializer

/-! The IQ data of a PRB is long enough for its samples. -/

variable {bytes : List UInt8}

theorem unpackSample_ok {samples : Adt.BitBuffer} {width exponent i : Nat} (hpos : 0 < width)
    (hle : width ≤ maxIqWidth) (h : 2 * width * (i + 1) ≤ samples.size) :
    ∃ sample, unpackSample samples width exponent i = .ok sample := by
  rw [Nat.mul_succ] at h
  obtain ⟨re, hre, -⟩ := @Bfp.unpackBits_ok samples (2 * width * i) width hpos hle (by omega)
  obtain ⟨im, him, -⟩ := @Bfp.unpackBits_ok samples (2 * width * i + width) width hpos hle (by omega)
  rw [unpackSample, hre, ok_bind, him, ok_bind]
  exact ⟨_, rfl⟩

theorem mapM_length {ε α β : Type} {f : α → Except ε β} {xs : List α} (h : ∀ x ∈ xs, ∃ y, f x = .ok y) :
    ∃ ys, xs.mapM f = .ok ys ∧ ys.length = xs.length := by
  have hmap : Ensures (fun _ => False) (fun ys => List.Forall₂ (fun _ _ => True) xs ys) (xs.mapM f) := by
    refine Ensures.mapM fun x hx => ?_
    obtain ⟨y, hy⟩ := h x hx
    rw [hy]
    exact trivial
  obtain ⟨ys, hys, hforall⟩ := hmap.exists_ok
  exact ⟨ys, hys, hforall.length_eq.symm⟩

theorem unpackSamples_ok {width exponent : Nat} (hpos : 0 < width) (hle : width ≤ maxIqWidth)
    (h : nofSubcarriersPerRb * 2 * width ≤ 8 * bytes.length) (hsmall : bytes.length < 2 ^ 29) :
    ∃ samples, unpackSamples bytes width exponent = .ok samples ∧ samples.length = nofSubcarriersPerRb := by
  have hsize : (Bfp.fromBytes (bytes.map UInt8.toBitVec)).size = 8 * bytes.length := by
    rw [Bfp.fromBytes]
    dsimp only
    rw [List.length_map]
    omega
  have hmap : ∀ i ∈ List.range nofSubcarriersPerRb, ∃ sample,
      unpackSample (Bfp.fromBytes (bytes.map UInt8.toBitVec)) width exponent i = .ok sample := by
    intro i hi
    have hlt : i + 1 ≤ nofSubcarriersPerRb := List.mem_range.mp hi
    refine unpackSample_ok hpos hle (Nat.le_trans (Nat.mul_le_mul_left _ hlt) ?_)
    rwa [Nat.mul_comm (2 * width), ← Nat.mul_assoc, hsize]
  obtain ⟨samples, hsamples, hlength⟩ := mapM_length hmap
  refine ⟨samples, ?_, by rw [hlength, List.length_range]⟩
  rw [unpackSamples, hsamples]
  rfl

/-- The types that `create_iq_decompressor` has a decompressor for. -/
def supportsDecompression (type : CompressionType) : Bool := type == .none || type == .bfp

variable {params : RuCompressionParams}

theorem decompressPrb_ok {prb : List UInt8} (hpos : 0 < params.dataWidth)
    (hle : params.dataWidth ≤ maxIqWidth) (h : prb.length = getCompressedPrbSize params) :
    (params.type = .none → ∃ samples, decompressPrbNone params.dataWidth prb = .ok samples ∧
      samples.length = nofSubcarriersPerRb) ∧
    (params.type = .bfp → ∃ samples, decompressPrbBfp params.dataWidth prb = .ok samples ∧
      samples.length = nofSubcarriersPerRb) := by
  have hwidth : params.dataWidth ≤ 16 := hle
  rw [getCompressedPrbSize, roundUpToBytes, nofSubcarriersPerRb] at h
  constructor
  · intro htype
    rw [htype, isCompressionParamPresent] at h
    exact unpackSamples_ok hpos hle (by simp [nofSubcarriersPerRb] at h ⊢; omega) (by simp at h; omega)
  · intro htype
    rw [htype, isCompressionParamPresent] at h
    cases prb with
    | nil =>
      simp at h
      omega
    | cons exponent samples =>
      exact unpackSamples_ok hpos hle (by simp [nofSubcarriersPerRb] at h ⊢; omega) (by simp at h; omega)

variable {input : List UInt8}

theorem length_prbBytes {nofPrbs prb : Nat}
    (h : nofPrbs * getCompressedPrbSize params ≤ input.length) (hprb : prb < nofPrbs) :
    (prbBytes params input prb).length = getCompressedPrbSize params := by
  have hle := Nat.mul_le_mul_right (getCompressedPrbSize params) (Nat.succ_le_of_lt hprb)
  rw [Nat.succ_mul] at hle
  rw [prbBytes, List.length_take, List.length_drop]
  omega

theorem length_flatten_of_all {prbs : List (List IqSample)}
    (h : ∀ samples ∈ prbs, samples.length = nofSubcarriersPerRb) :
    prbs.flatten.length = prbs.length * nofSubcarriersPerRb := by
  induction prbs with
  | nil => rw [List.length_nil, Nat.zero_mul]; rfl
  | cons samples prbs ih =>
    rw [List.forall_mem_cons] at h
    rw [List.flatten_cons, List.length_append, h.1, ih h.2, List.length_cons, Nat.succ_mul, Nat.add_comm]

theorem decompressPrbs_ok {decompressPrb : List UInt8 → Except OfhFault (List IqSample)} {nofPrbs : Nat}
    (hprb : ∀ prb : List UInt8, prb.length = getCompressedPrbSize params →
      ∃ samples, decompressPrb prb = .ok samples ∧ samples.length = nofSubcarriersPerRb)
    (h : input.length = nofPrbs * getCompressedPrbSize params) :
    ∃ samples, decompressPrbs decompressPrb params (nofPrbs * nofSubcarriersPerRb) input = .ok samples ∧
      samples.length = nofPrbs * nofSubcarriersPerRb := by
  rw [decompressPrbs, Nat.mul_div_cancel _ (by decide), if_neg (by omega)]
  have hmap : Ensures (fun _ => False)
      (fun prbs => List.Forall₂ (fun _ samples => samples.length = nofSubcarriersPerRb) (List.range nofPrbs) prbs)
      ((List.range nofPrbs).mapM fun prb => decompressPrb (prbBytes params input prb)) := by
    refine Ensures.mapM fun prb hmem => ?_
    obtain ⟨samples, hsamples, hlength⟩ :=
      hprb _ (length_prbBytes (Nat.le_of_eq h.symm) (List.mem_range.mp hmem))
    rw [hsamples]
    exact hlength
  obtain ⟨prbs, hprbs, hforall⟩ := hmap.exists_ok
  rw [hprbs, ok_bind]
  refine ⟨_, rfl, ?_⟩
  rw [length_flatten_of_all, ← hforall.length_eq, List.length_range]
  intro samples hsamples
  obtain ⟨i, hi, hget⟩ := List.getElem_of_mem hsamples
  rw [← hget]
  exact hforall.get (by rw [hforall.length_eq]; exact hi) hi

theorem decompress_ok {nofPrbs : Nat} (hpos : 0 < params.dataWidth) (hle : params.dataWidth ≤ maxIqWidth)
    (htype : supportsDecompression params.type = true)
    (h : input.length = nofPrbs * getCompressedPrbSize params) :
    ∃ samples, decompress params (nofPrbs * nofSubcarriersPerRb) input = .ok samples ∧
      samples.length = nofPrbs * nofSubcarriersPerRb := by
  rw [supportsDecompression, Bool.or_eq_true, beq_iff_eq, beq_iff_eq] at htype
  rw [decompress]
  rcases htype with htype | htype
  · rw [htype]
    exact decompressPrbs_ok (fun prb hprb => (decompressPrb_ok hpos hle hprb).1 htype) h
  · rw [htype]
    exact decompressPrbs_ok (fun prb hprb => (decompressPrb_ok hpos hle hprb).2 htype) h

theorem decompress_unsupported {nofSamples : Nat}
    (htype : supportsDecompression params.type = false) :
    decompress params nofSamples input = .error .unsupportedDecompression := by
  rw [decompress]
  cases hcase : params.type <;> simp [supportsDecompression, hcase] at htype ⊢

namespace UplaneMessageDecoder
variable {dec : UplaneMessageDecoder}

def sectionStart (dec : UplaneMessageDecoder) (b₀ b₁ b₂ b₃ : UInt8) : UplaneSectionParams where
  sectionId := b₀.toNat <<< 4 ||| b₁.toNat >>> 4
  isEveryRbUsed := b₁.toNat >>> 3 &&& 1 == 0
  useCurrentSymbolNumber := b₁.toNat >>> 2 &&& 1 == 0
  startPrb := if b₃.toNat = 0 then 0 else (b₁.toNat &&& 0x03) <<< 8 ||| b₂.toNat
  nofPrbs := if b₃.toNat = 0 then dec.ruNofPrbs else b₃.toNat

/-- The compression header: none with a static one, else a byte and a reserved byte. -/
inductive CompressionHeader (dec : UplaneMessageDecoder) : List UInt8 → RuCompressionParams → Prop where
  | static {params : RuCompressionParams} (h : dec.compressionParams = some params) :
      CompressionHeader dec [] params
  | dynamic (h : dec.compressionParams = none) (value reserved : UInt8)
      (htype : toCompressionType (value.toNat &&& 0x0f) ≠ .reserved) :
      CompressionHeader dec [value, reserved] ⟨toCompressionType (value.toNat &&& 0x0f),
        if value.toNat >>> 4 = 0 then maxIqWidth else value.toNat >>> 4⟩

theorem CompressionHeader.width {comp : List UInt8} {params : RuCompressionParams}
    (h : CompressionHeader dec comp params) : 0 < params.dataWidth ∧ params.dataWidth ≤ maxIqWidth := by
  cases h with
  | static h => exact ⟨dec.width_pos _ h, dec.width_le _ h⟩
  | dynamic h value reserved htype =>
    have hvalue := value.toNat_lt
    rw [maxIqWidth, Nat.shiftRight_eq_div_pow]
    dsimp only
    split <;> omega

inductive CompressionLength : CompressionType → List UInt8 → Option Nat → Prop where
  | absent {type : CompressionType} (h : hasCompressionLength type = false) : CompressionLength type [] none
  | present {type : CompressionType} (h : hasCompressionLength type = true) (high low : UInt8) :
      CompressionLength type [high, low] (some (high.toNat <<< 8 ||| low.toNat))

/-- A complete section: its header, and as much IQ data as its PRBs have. The samples are not decoded yet. -/
inductive Frame (dec : UplaneMessageDecoder) : List UInt8 → List UInt8 → UplaneSectionParams → Prop where
  | mk {b₀ b₁ b₂ b₃ : UInt8} {comp len data : List UInt8} {params : RuCompressionParams} {length : Option Nat}
      (hcomp : CompressionHeader dec comp params) (hlen : CompressionLength params.type len length)
      (hdata : data.length = (dec.sectionStart b₀ b₁ b₂ b₃).nofPrbs * getCompressedPrbSize params) :
      Frame dec ([b₀, b₁, b₂, b₃] ++ comp ++ len) data
        { dec.sectionStart b₀ b₁ b₂ b₃ with udCompHdr := params, udCompLen := length }

variable {d : NetworkOrderDeserializer} {rest : List UInt8} {results : UplaneSectionParams}

theorem decodeSectionHeader_eq {b₀ b₁ b₂ b₃ : UInt8} (h : d.At (b₀ :: b₁ :: b₂ :: b₃ :: rest)) :
    ∃ d', dec.decodeSectionHeader d = .ok (.ok (dec.sectionStart b₀ b₁ b₂ b₃) d') ∧ d'.At rest := by
  have hremaining := h.remainingBytes_eq
  obtain ⟨h₀, hat₀⟩ := h.readOneByte
  obtain ⟨h₁, hat₁⟩ := hat₀.readOneByte
  obtain ⟨h₂, hat₂⟩ := hat₁.readOneByte
  obtain ⟨h₃, hat₃⟩ := hat₂.readOneByte
  refine ⟨_, ?_, hat₃⟩
  rw [decodeSectionHeader, if_neg (by rw [hremaining]; simp [sectionIdHeaderNoCompressionSize])]
  simp only [h₀, h₁, h₂, h₃, ok_bind]
  rfl

theorem decodeSectionHeader_short (h : d.At rest) (hshort : rest.length < 4) :
    dec.decodeSectionHeader d = .ok .incomplete := by
  rw [decodeSectionHeader, if_pos]
  rw [h.remainingBytes_eq, sectionIdHeaderNoCompressionSize]
  exact hshort

theorem decodeCompressionHeader_eq (results : UplaneSectionParams) {comp : List UInt8} (h : d.At (comp ++ rest))
    (hcomp : CompressionHeader dec comp params) :
    ∃ d', dec.decodeCompressionHeader results d = .ok (.ok { results with udCompHdr := params } d') ∧
      d'.At rest := by
  cases hcomp with
  | static hstatic =>
    refine ⟨d, ?_, h⟩
    simp only [decodeCompressionHeader, hstatic]
  | dynamic hdynamic value reserved htype =>
    have hremaining := h.remainingBytes_eq
    obtain ⟨hvalue, hat⟩ := h.readOneByte
    refine ⟨(d.advance 1).advance 1, ?_, hat.advance [reserved] rfl⟩
    simp only [decodeCompressionHeader, hdynamic]
    rw [if_neg (by rw [hremaining]; simp), hvalue, ok_bind]
    simp only [if_neg htype]

theorem decodeCompressionLength_eq (results : UplaneSectionParams) {len : List UInt8} {length : Option Nat} (h : d.At (len ++ rest))
    (hnone : results.udCompLen = none) (hlen : CompressionLength results.udCompHdr.type len length) :
    ∃ d', decodeCompressionLength results d = .ok (.ok { results with udCompLen := length } d') ∧
      d'.At rest := by
  cases hlen with
  | absent habsent =>
    refine ⟨d, ?_, h⟩
    rw [decodeCompressionLength, habsent, if_neg Bool.false_ne_true, ← hnone]
  | present hpresent high low =>
    obtain ⟨d', hread, hat⟩ := h.readTwoBytes
    refine ⟨d', ?_, hat⟩
    rw [decodeCompressionLength, hpresent, if_pos rfl,
      if_neg (by rw [h.remainingBytes_eq]; simp), hread, ok_bind]

theorem checkIqDataSize_eq {nofPrb : Nat} (h : d.At rest) :
    checkIqDataSize nofPrb d params = !decide (rest.length < nofPrb * getCompressedPrbSize params) := by
  rw [checkIqDataSize, h.remainingBytes_eq, getCompressedPrbSize, Nat.mul_comm nofPrb]
  cases isCompressionParamPresent params.type with
  | false => rfl
  | true =>
    simp only [if_true, roundUpToBytes]
    rw [show (nofSubcarriersPerRb * 2 * params.dataWidth + 7) / 8 + 1 =
      (nofSubcarriersPerRb * 2 * params.dataWidth + 8 + 7) / 8 by omega]

theorem sectionStart_nofPrbs (b₀ b₁ b₂ b₃ : UInt8) :
    1 ≤ (dec.sectionStart b₀ b₁ b₂ b₃).nofPrbs ∧ (dec.sectionStart b₀ b₁ b₂ b₃).nofPrbs ≤ maxNofPrbs := by
  rw [sectionStart]
  simp only
  split
  · exact ⟨dec.ruNofPrbs_pos, dec.ruNofPrbs_le⟩
  · have hbyte := b₃.toNat_lt
    simp only [maxNofPrbs]
    omega

variable {header data : List UInt8}

section
variable (h : Frame dec header data results)
include h

theorem Frame.nofPrbs : 1 ≤ results.nofPrbs ∧ results.nofPrbs ≤ maxNofPrbs := by
  cases h with
  | @mk b₀ b₁ b₂ b₃ => exact sectionStart_nofPrbs b₀ b₁ b₂ b₃

theorem Frame.length_data : data.length = results.nofPrbs * getCompressedPrbSize results.udCompHdr := by
  cases h with
  | mk hcomp hlen hdata => exact hdata

theorem Frame.length_header : 4 ≤ header.length := by
  cases h with
  | mk hcomp hlen hdata => simp

end

theorem decodeIqData_eq (results : UplaneSectionParams) {data : List UInt8} (h : d.At (data ++ rest)) (hprbs : results.nofPrbs ≤ maxNofPrbs)
    (hdata : data.length = results.nofPrbs * getCompressedPrbSize results.udCompHdr) :
    ∃ d', decodeIqData results d results.udCompHdr = (do
        let iqSamples ← decompress results.udCompHdr (results.nofPrbs * nofSubcarriersPerRb) data
        .ok ({ results with iqSamples := iqSamples }, d')) ∧ d'.At rest := by
  obtain ⟨d', hview, hat⟩ := h.getViewAndAdvance
  refine ⟨d', ?_, hat⟩
  rw [hdata, getCompressedPrbSize] at hview
  have hroom := Nat.mul_le_mul_right nofSubcarriersPerRb hprbs
  simp only [decodeIqData, hview, ok_bind]
  rw [if_neg (by omega)]

/-- A complete section is decoded, unless nothing can decompress it. -/
theorem Frame.decodeSection (hframe : Frame dec header data results)
    (h : d.At (header ++ data ++ rest)) :
    ∃ d', dec.decodeSection d = (do
        let iqSamples ← decompress results.udCompHdr (results.nofPrbs * nofSubcarriersPerRb) data
        .ok (.ok { results with iqSamples := iqSamples } d')) ∧ d'.At rest := by
  have hprbs := hframe.nofPrbs.2
  cases hframe with
  | mk hcomp hlen hdata =>
    rename_i b₀ b₁ b₂ b₃ comp len params length
    rw [List.append_assoc, List.append_assoc, List.append_assoc] at h
    have hat₀ : d.At (b₀ :: b₁ :: b₂ :: b₃ :: (comp ++ (len ++ (data ++ rest)))) := h
    obtain ⟨d₁, h₁, hat₁⟩ : ∃ d₁, dec.decodeSectionHeader d = .ok (.ok (dec.sectionStart b₀ b₁ b₂ b₃) d₁) ∧
      d₁.At (comp ++ (len ++ (data ++ rest))) := decodeSectionHeader_eq hat₀
    obtain ⟨d₂, h₂, hat₂⟩ := decodeCompressionHeader_eq (dec.sectionStart b₀ b₁ b₂ b₃) hat₁ hcomp
    obtain ⟨d₃, h₃, hat₃⟩ := decodeCompressionLength_eq
      { dec.sectionStart b₀ b₁ b₂ b₃ with udCompHdr := params } hat₂ rfl hlen
    obtain ⟨d₄, h₄, hat₄⟩ := decodeIqData_eq
      { dec.sectionStart b₀ b₁ b₂ b₃ with udCompHdr := params, udCompLen := length } hat₃ hprbs hdata
    refine ⟨d₄, ?_, hat₄⟩
    have hcheck : checkIqDataSize (dec.sectionStart b₀ b₁ b₂ b₃).nofPrbs d₃ params = true := by
      rw [checkIqDataSize_eq hat₃, List.length_append, hdata]
      simp
    rw [decodeSection, h₁, ok_bind]
    simp only
    rw [h₂, ok_bind]
    simp only
    rw [h₃, ok_bind]
    simp only
    rw [if_pos hcheck, h₄]
    simp only
    cases decompress params ((dec.sectionStart b₀ b₁ b₂ b₃).nofPrbs * nofSubcarriersPerRb) data with
    | ok samples => rfl
    | error fault => rfl

def Refused (r : Except OfhFault (DecodedSection UplaneSectionParams)) : Prop :=
  r = .ok .incomplete ∨ r = .ok .malformed

theorem Refused.bind {r : Except OfhFault (DecodedSection UplaneSectionParams)} (h : Refused r)
    {f : UplaneSectionParams → NetworkOrderDeserializer → Except OfhFault (DecodedSection UplaneSectionParams)} :
    Refused (do
      match ← r with
      | .incomplete => .ok .incomplete
      | .malformed => .ok .malformed
      | .ok results d => f results d) := by
  rcases h with rfl | rfl
  · exact .inl rfl
  · exact .inr rfl

theorem decodeCompressionHeader_cases (dec : UplaneMessageDecoder) (results : UplaneSectionParams) (h : d.At rest) :
    (∃ comp params left, rest = comp ++ left ∧ CompressionHeader dec comp params) ∨
      Refused (dec.decodeCompressionHeader results d) := by
  have hremaining := h.remainingBytes_eq
  cases hparams : dec.compressionParams with
  | some params => exact .inl ⟨[], params, rest, rfl, .static hparams⟩
  | none =>
    simp only [decodeCompressionHeader, hparams]
    match rest, h, hremaining with
    | [], _, hremaining => exact .inr (.inl (if_pos (by rw [hremaining]; simp)))
    | [_], _, hremaining => exact .inr (.inl (if_pos (by rw [hremaining]; simp)))
    | value :: reserved :: left, h, hremaining =>
      obtain ⟨hvalue, -⟩ := h.readOneByte
      rw [if_neg (by rw [hremaining]; simp), hvalue, ok_bind]
      by_cases htype : toCompressionType (value.toNat &&& 0x0f) = .reserved
      · exact .inr (.inr (by simp only [if_pos htype]))
      · exact .inl ⟨[value, reserved], _, left, rfl, .dynamic hparams value reserved htype⟩

theorem decodeCompressionLength_cases (results : UplaneSectionParams) (h : d.At rest) :
    (∃ len length left, rest = len ++ left ∧ CompressionLength results.udCompHdr.type len length) ∨
      Refused (decodeCompressionLength results d) := by
  have hremaining := h.remainingBytes_eq
  rw [decodeCompressionLength]
  cases hlength : hasCompressionLength results.udCompHdr.type with
  | false => exact .inl ⟨[], none, rest, rfl, .absent hlength⟩
  | true =>
    rw [if_pos rfl]
    match rest, hremaining with
    | [], hremaining => exact .inr (.inl (if_pos (by rw [hremaining]; simp)))
    | [_], hremaining => exact .inr (.inl (if_pos (by rw [hremaining]; simp)))
    | high :: low :: left, _ => exact .inl ⟨[high, low], _, left, rfl, .present hlength high low⟩

theorem decodeSection_cases (dec : UplaneMessageDecoder) (h : d.At rest) :
    (∃ header data left results, rest = header ++ data ++ left ∧ Frame dec header data results) ∨
      Refused (dec.decodeSection d) := by
  rw [decodeSection]
  match rest, h with
  | [], h => exact .inr (.bind (.inl (decodeSectionHeader_short h (by simp))))
  | [_], h => exact .inr (.bind (.inl (decodeSectionHeader_short h (by simp))))
  | [_, _], h => exact .inr (.bind (.inl (decodeSectionHeader_short h (by simp))))
  | [_, _, _], h => exact .inr (.bind (.inl (decodeSectionHeader_short h (by simp))))
  | b₀ :: b₁ :: b₂ :: b₃ :: rest₁, h =>
    obtain ⟨d₁, h₁, hat₁⟩ := decodeSectionHeader_eq h
    rw [h₁, ok_bind]
    simp only
    rcases decodeCompressionHeader_cases dec (dec.sectionStart b₀ b₁ b₂ b₃) hat₁ with
      ⟨comp, params, rest₂, rfl, hcomp⟩ | hrefused
    · obtain ⟨d₂, h₂, hat₂⟩ := decodeCompressionHeader_eq (dec.sectionStart b₀ b₁ b₂ b₃) hat₁ hcomp
      rw [h₂, ok_bind]
      simp only
      rcases decodeCompressionLength_cases { dec.sectionStart b₀ b₁ b₂ b₃ with udCompHdr := params } hat₂ with
        ⟨len, length, rest₃, rfl, hlen⟩ | hrefused
      · obtain ⟨d₃, h₃, hat₃⟩ := decodeCompressionLength_eq
          { dec.sectionStart b₀ b₁ b₂ b₃ with udCompHdr := params } hat₂ rfl hlen
        rw [h₃, ok_bind]
        simp only
        by_cases hdata : rest₃.length < (dec.sectionStart b₀ b₁ b₂ b₃).nofPrbs * getCompressedPrbSize params
        · have hcheck : checkIqDataSize (dec.sectionStart b₀ b₁ b₂ b₃).nofPrbs d₃ params = false := by
            rw [checkIqDataSize_eq hat₃, decide_eq_true hdata]
            rfl
          exact .inr (.inl (by rw [hcheck, if_neg Bool.false_ne_true]))
        · let size := (dec.sectionStart b₀ b₁ b₂ b₃).nofPrbs * getCompressedPrbSize params
          refine .inl ⟨[b₀, b₁, b₂, b₃] ++ comp ++ len, rest₃.take size, rest₃.drop size, _, ?_,
            .mk hcomp hlen ?_⟩
          · rw [List.append_assoc, List.take_append_drop, List.append_assoc, List.append_assoc]
            rfl
          · rw [List.length_take]
            exact Nat.min_eq_left (Nat.le_of_not_lt hdata)
      · exact .inr hrefused.bind
    · exact .inr hrefused.bind

end UplaneMessageDecoder

end Srsran.Ofh
