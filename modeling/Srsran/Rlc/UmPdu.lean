import Srsran.Rlc.AmDataHeader

/-! Header of the UM data PDU (`rlc_um_pdu.h`). -/
namespace Srsran.Rlc
open Srsran.Support

structure RlcUmPduHeader where
  si : RlcSiField := .fullSdu
  snSize : RlcUmSnSize := .size6bits
  sn : Nat := 0
  so : Nat := 0
  deriving DecidableEq, Repr

def readUmSi (byte : UInt8) : RlcSiField := RlcSiField.ofNumber ((byte.toNat >>> 6) &&& 0x03)

/-- Fixed part: segmentation info and SN, and the bytes behind them. A full SDU carries no SN; set
reserved bits or a missing byte make the PDU malformed. -/
def readUmFixedPart : RlcUmSnSize → List UInt8 → Option (RlcSiField × Nat × List UInt8)
  | .size6bits, b0 :: rest =>
    let sn := b0.toNat &&& 0x3f
    if readUmSi b0 = .fullSdu ∧ sn ≠ 0 then none
    else some (readUmSi b0, sn, rest)
  | .size12bits, b0 :: rest =>
    let sn := (b0.toNat &&& 0x0f) <<< 8
    if readUmSi b0 = .fullSdu then
      if sn ≠ 0 then none else some (.fullSdu, sn, rest)
    else if readUmSi b0 = .firstSegment ∧ (b0.toNat >>> 4) &&& 0x03 ≠ 0 then none
    else
      match rest with
      | [] => none
      | b1 :: rest => some (readUmSi b0, sn ||| (b1.toNat &&& 0xff), rest)
  | _, [] => none

def rlcUmReadDataPduHeader (pdu : List UInt8) (snSize : RlcUmSnSize) : Option RlcUmPduHeader := do
  let (si, sn, rest) ← readUmFixedPart snSize pdu
  let so ← readOptionalSo si rest
  return { si, snSize, sn, so }

/-- Two bytes of segment offset are counted when the offset is not zero, whatever the segmentation
info says. -/
def rlcUmNrPackedLength (header : RlcUmPduHeader) : Nat :=
  if header.si = .fullSdu then 1
  else
    (match header.snSize with
    | .size6bits => 1
    | .size12bits => 2) + if header.so ≠ 0 then 2 else 0

def rlcUmPduHeaderSizeCompleteSdu : Nat := 1

def rlcUmPduHeaderSizeNoSo : RlcUmSnSize → Nat
  | .size6bits => 1
  | .size12bits => 2

def rlcUmPduHeaderSizeWithSo : RlcUmSnSize → Nat
  | .size6bits => 3
  | .size12bits => 4

/-- Segmentation info in the upper two bits, and for a segment the SN and an offset that is not
zero. -/
def rlcUmWriteDataPduHeader (header : RlcUmPduHeader) : List UInt8 :=
  let si := (header.si.toNumber &&& 0x03) <<< 6
  if header.si = .fullSdu then [UInt8.ofNat si]
  else
    (match header.snSize with
    | .size6bits => [UInt8.ofNat (si ||| (header.sn &&& 0x3f))]
    | .size12bits =>
      [UInt8.ofNat (si ||| ((header.sn >>> 8) &&& 0xf)), UInt8.ofNat (header.sn &&& 0xff)]) ++
    if header.so ≠ 0 then
      [UInt8.ofNat (header.so >>> 8), UInt8.ofNat (header.so &&& 0xff)]
    else []

theorem land_sixBits (n : Nat) : n &&& 0x3f = n % 64 := Nat.and_two_pow_sub_one_eq_mod n 6

theorem readUmFixedPart_lt {snSize : RlcUmSnSize} {bytes rest : List UInt8} {si : RlcSiField}
    {sn : Nat} (h : readUmFixedPart snSize bytes = some (si, sn, rest)) :
    sn < cardinality snSize.toNumber := by
  cases snSize with
  | size6bits =>
    cases bytes with
    | nil => cases h
    | cons b0 rest' =>
      simp only [readUmFixedPart] at h
      split at h
      · cases h
      · cases h
        rw [land_sixBits]
        exact Nat.mod_lt _ (by decide)
  | size12bits =>
    have hhigh : ∀ n : Nat, (n &&& 0x0f) <<< 8 < 2 ^ 12 := by
      intro n
      rw [land_nibble, Nat.shiftLeft_eq]
      omega
    cases bytes with
    | nil => cases h
    | cons b0 rest' =>
      simp only [readUmFixedPart] at h
      split at h
      · split at h
        · cases h
        · cases h
          exact hhigh _
      · split at h
        · cases h
        · cases rest' with
          | nil => cases h
          | cons b1 rest' =>
            cases h
            show _ < 2 ^ 12
            apply Nat.or_lt_two_pow (hhigh _)
            rw [land_byte]
            omega

variable {header : RlcUmPduHeader}

theorem rlcUmReadDataPduHeader_range {pdu : List UInt8} {snSize : RlcUmSnSize}
    (h : rlcUmReadDataPduHeader pdu snSize = some header) :
    header.snSize = snSize ∧ header.sn < cardinality snSize.toNumber := by
  simp only [rlcUmReadDataPduHeader, Option.bind_eq_bind, Option.bind_eq_some_iff, Prod.exists,
    Option.pure_def, Option.some.injEq] at h
  obtain ⟨si, sn, rest, hfixed, so, -, rfl⟩ := h
  exact ⟨rfl, readUmFixedPart_lt hfixed⟩

theorem length_rlcUmWriteDataPduHeader (header : RlcUmPduHeader) :
    (rlcUmWriteDataPduHeader header).length = rlcUmNrPackedLength header := by
  obtain ⟨si, snSize, sn, so⟩ := header
  rw [rlcUmWriteDataPduHeader, rlcUmNrPackedLength]
  by_cases hsi : si = .fullSdu
  · rw [if_pos hsi, if_pos hsi]
    rfl
  · rw [if_neg hsi, if_neg hsi]
    by_cases hso : so = 0
    · cases snSize <;> simp [hso]
    · cases snSize <;> simp [hso]

theorem umByte6bit (si : RlcSiField) (sn : Fin 64) :
    let byte := UInt8.ofNat ((si.toNumber &&& 0x03) <<< 6 ||| (sn.val &&& 0x3f))
    readUmSi byte = si ∧ byte.toNat &&& 0x3f = sn := by
  revert sn
  cases si <;> decide

theorem umByte12bit (si : RlcSiField) (high : Fin 16) :
    let byte := UInt8.ofNat ((si.toNumber &&& 0x03) <<< 6 ||| (high.val &&& 0xf))
    readUmSi byte = si ∧ (byte.toNat >>> 4) &&& 0x03 = 0 ∧ byte.toNat &&& 0x0f = high := by
  revert high
  cases si <;> decide

theorem readSo_write {so : Nat} (h : so < 2 ^ 16) (rest : List UInt8) :
    readSo (UInt8.ofNat (so >>> 8) :: UInt8.ofNat (so &&& 0xff) :: rest) = some so := by
  have hlow : UInt8.ofNat (so &&& 0xff) = UInt8.ofNat so := by
    rw [land_byte]
    apply UInt8.toNat_inj.mp
    rw [UInt8.toNat_ofNat', UInt8.toNat_ofNat', Nat.mod_mod]
  have hhigh : (UInt8.ofNat (so >>> 8)).toNat &&& 0xff = (UInt8.ofNat (so >>> 8)).toNat := by
    rw [land_byte, Nat.mod_eq_of_lt (UInt8.toNat_lt _)]
  have hbyte : (UInt8.ofNat so).toNat &&& 0xff = (UInt8.ofNat so).toNat := by
    rw [land_byte, Nat.mod_eq_of_lt (UInt8.toNat_lt _)]
  rw [readSo, hlow, hhigh, hbyte, uint16_bytes h]

theorem rlcUmReadDataPduHeader_fullSdu (h : header.si = .fullSdu) (payload : List UInt8) :
    rlcUmReadDataPduHeader (rlcUmWriteDataPduHeader header ++ payload) header.snSize =
      some { si := .fullSdu, snSize := header.snSize, sn := 0, so := 0 } := by
  rw [rlcUmWriteDataPduHeader, if_pos h, h]
  cases header.snSize <;> rfl

end Srsran.Rlc
