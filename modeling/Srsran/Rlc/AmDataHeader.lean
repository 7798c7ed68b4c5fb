import Srsran.Rlc.AmPduRoundTrip

/-! Header of the AM data PDU (`rlc_am_read_data_pdu_header`, `rlc_am_write_data_pdu_header`). -/
namespace Srsran.Rlc
open Srsran.Support

inductive RlcDcField where
  | control
  | data
  deriving DecidableEq, Repr

def RlcDcField.toNumber : RlcDcField → Nat
  | .control => 0
  | .data => 1

def RlcDcField.ofNumber : Nat → RlcDcField
  | 0 => .control
  | _ => .data

structure RlcAmPduHeader where
  dc : RlcDcField := .control
  p : Nat := 0
  si : RlcSiField := .fullSdu
  snSize : RlcAmSnSize := .size12bits
  sn : Nat := 0
  so : Nat := 0
  deriving DecidableEq, Repr

def rlcAmPduHeaderMinSize : RlcAmSnSize → Nat
  | .size12bits => 2
  | .size18bits => 3

def rlcAmPduHeaderSoSize : Nat := 2

def rlcAmPduHeaderMaxSize (snSize : RlcAmSnSize) : Nat :=
  rlcAmPduHeaderMinSize snSize + rlcAmPduHeaderSoSize

/-- The segmentation info says that the header carries a segment offset. -/
def RlcSiField.hasSo (si : RlcSiField) : Bool := si = .lastSegment || si = .middleSegment

def RlcAmPduHeader.getPackedSize (header : RlcAmPduHeader) : Nat :=
  if header.si.hasSo then rlcAmPduHeaderMaxSize header.snSize
  else rlcAmPduHeaderMinSize header.snSize

/-- SN in the first bytes, and the bytes behind it; a missing byte makes the PDU malformed. -/
def readSn : RlcAmSnSize → List UInt8 → Option (Nat × List UInt8)
  | .size12bits, b0 :: b1 :: rest =>
    some (((b0.toNat &&& 0x0f) <<< 8) ||| (b1.toNat &&& 0xff), rest)
  | .size18bits, b0 :: b1 :: b2 :: rest =>
    -- reserved bits
    if b0.toNat &&& 0x0c ≠ 0 then none
    else some (((b0.toNat &&& 0x03) <<< 16) ||| ((b1.toNat &&& 0xff) <<< 8) |||
      (b2.toNat &&& 0xff), rest)
  | _, _ => none

def readSo : List UInt8 → Option Nat
  | b0 :: b1 :: _ => some (((b0.toNat &&& 0xff) <<< 8) ||| (b1.toNat &&& 0xff))
  | _ => none

def readOptionalSo (si : RlcSiField) (bytes : List UInt8) : Option Nat :=
  if si.hasSo then readSo bytes else some 0

def rlcAmReadDataPduHeader (bytes : List UInt8) (snSize : RlcAmSnSize) : Option RlcAmPduHeader :=
  if bytes.length ≤ rlcAmPduHeaderMinSize snSize then none
  else do
    let byte ← bytes.head?
    let si := RlcSiField.ofNumber ((byte.toNat >>> 4) &&& 0x03)
    let (sn, rest) ← readSn snSize bytes
    let so ← readOptionalSo si rest
    return {
      dc := RlcDcField.ofNumber ((byte.toNat >>> 7) &&& 0x01)
      p := (byte.toNat >>> 6) &&& 0x01
      si, snSize, sn, so }

def headerFlags (header : RlcAmPduHeader) : Nat :=
  ((header.dc.toNumber &&& 0x01) <<< 7) ||| ((header.p &&& 0x01) <<< 6) |||
    ((header.si.toNumber &&& 0x03) <<< 4)

def rlcAmWriteDataPduHeader (header : RlcAmPduHeader) : List UInt8 :=
  (match header.snSize with
  | .size12bits =>
    [UInt8.ofNat (headerFlags header ||| ((header.sn >>> 8) &&& 0x0f)),
     UInt8.ofNat (header.sn &&& 0xff)]
  | .size18bits =>
    [UInt8.ofNat (headerFlags header ||| ((header.sn >>> 16) &&& 0x3)),
     UInt8.ofNat (header.sn >>> 8),
     UInt8.ofNat (header.sn &&& 0xff)]) ++
  if header.so ≠ 0 then
    [UInt8.ofNat (header.so >>> 8), UInt8.ofNat (header.so &&& 0xff)]
  else []

theorem readSn_lt {snSize : RlcAmSnSize} {bytes rest : List UInt8} {sn : Nat}
    (h : readSn snSize bytes = some (sn, rest)) : sn < cardinality snSize.toNumber := by
  unfold readSn at h
  split at h
  · cases h
    show _ < 2 ^ 12
    refine Nat.or_lt_two_pow ?_ ?_
    · rw [land_nibble, Nat.shiftLeft_eq]
      omega
    · rw [land_byte]
      omega
  · split at h
    · cases h
    · rename_i b0 b1 b2 rest' hreserved
      cases h
      show _ < 2 ^ 18
      have hmask : b0.toNat &&& 0x03 = b0.toNat % 4 := Nat.and_two_pow_sub_one_eq_mod b0.toNat 2
      refine Nat.or_lt_two_pow (Nat.or_lt_two_pow ?_ ?_) ?_
      · rw [hmask, Nat.shiftLeft_eq]
        omega
      · rw [land_byte, Nat.shiftLeft_eq]
        omega
      · rw [land_byte]
        omega
  · cases h

theorem readSo_lt {bytes : List UInt8} {so : Nat} (h : readSo bytes = some so) : so < 2 ^ 16 := by
  unfold readSo at h
  split at h
  · cases h
    refine Nat.or_lt_two_pow ?_ ?_
    · rw [land_byte, Nat.shiftLeft_eq]
      omega
    · rw [land_byte]
      omega
  · cases h

theorem rlcAmReadDataPduHeader_range {bytes : List UInt8} {snSize : RlcAmSnSize}
    {header : RlcAmPduHeader} (h : rlcAmReadDataPduHeader bytes snSize = some header) :
    header.sn < cardinality snSize.toNumber ∧ header.so < 2 ^ 16 := by
  unfold rlcAmReadDataPduHeader at h
  split at h
  · cases h
  · simp only [Option.bind_eq_bind, Option.bind_eq_some_iff, Prod.exists, Option.pure_def,
      Option.some.injEq] at h
    obtain ⟨byte, -, sn, rest, hsn, so, hso, rfl⟩ := h
    refine ⟨readSn_lt hsn, ?_⟩
    unfold readOptionalSo at hso
    split at hso
    · exact readSo_lt hso
    · cases hso
      exact Nat.two_pow_pos 16

end Srsran.Rlc
