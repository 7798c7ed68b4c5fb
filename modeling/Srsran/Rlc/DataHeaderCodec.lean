import Srsran.Rlc.UmPdu

/-! Data headers, written and read (`rlc_um_pdu.h`, `rlc_am_pdu.h`). The readers leave their position
behind the header. -/
namespace Srsran.Rlc
open Srsran.Support

def readOptionalSoRest (si : RlcSiField) (bytes : List UInt8) : Option (Nat × List UInt8) :=
  (readOptionalSo si bytes).map fun so => (so, if si.hasSo then bytes.drop 2 else bytes)

/-- `rlc_um_read_data_pdu_header` with the position of the reader. -/
def rlcUmReadHeader (pdu : List UInt8) (snSize : RlcUmSnSize) : Option (RlcUmPduHeader × List UInt8) := do
  let (si, sn, rest) ← readUmFixedPart snSize pdu
  let (so, rest) ← readOptionalSoRest si rest
  return ({ si, snSize, sn, so }, rest)

/-- `rlc_am_read_data_pdu_header` with the position of the reader. -/
def rlcAmReadHeader (pdu : List UInt8) (snSize : RlcAmSnSize) : Option (RlcAmPduHeader × List UInt8) :=
  if pdu.length ≤ rlcAmPduHeaderMinSize snSize then none
  else do
    let byte ← pdu.head?
    let si := RlcSiField.ofNumber ((byte.toNat >>> 4) &&& 0x03)
    let (sn, rest) ← readSn snSize pdu
    let (so, rest) ← readOptionalSoRest si rest
    return ({
      dc := RlcDcField.ofNumber ((byte.toNat >>> 7) &&& 0x01)
      p := (byte.toNat >>> 6) &&& 0x01
      si, snSize, sn, so }, rest)

theorem ofNat_land_byte (n : Nat) : UInt8.ofNat (n &&& 0xff) = UInt8.ofNat n := by
  apply UInt8.toNat_inj.mp
  rw [land_byte, UInt8.toNat_ofNat', UInt8.toNat_ofNat', Nat.mod_mod]

theorem joinBytes_eq (hi lo : Nat) (hlo : lo < 256) : hi <<< 8 ||| (lo &&& 0xff) = hi * 256 + lo := by
  rw [land_byte, Nat.mod_eq_of_lt hlo]
  exact shiftLeft_lor_eq (show lo < 2 ^ 8 from hlo)

theorem splitBytes (hi : Nat) (lo : UInt8) :
    UInt8.ofNat ((hi * 256 + lo.toNat) &&& 0xff) = lo ∧ (hi * 256 + lo.toNat) >>> 8 = hi := by
  have hlo := lo.toNat_lt
  constructor
  · apply UInt8.toNat_inj.mp
    rw [ofNat_land_byte, UInt8.toNat_ofNat']
    omega
  · rw [Nat.shiftRight_eq_div_pow]
    omega

def writeSo (so : Nat) : List UInt8 :=
  if so ≠ 0 then [UInt8.ofNat (so >>> 8), UInt8.ofNat (so &&& 0xff)] else []

/-- Bytes that were read, and what is written in their place. -/
structure Rewrites (pdu rest written : List UInt8) (same : Prop) : Prop where
  read : ∃ first, pdu = first ++ rest ∧ first.length = written.length ∧ (written = first ↔ same)

theorem Rewrites.append_iff {pdu rest written : List UInt8} {same : Prop}
    (h : Rewrites pdu rest written same) (more : List UInt8) :
    written ++ more = pdu ↔ same ∧ more = rest := by
  obtain ⟨first, rfl, hlength, hsame⟩ := h.read
  rw [← hsame]
  constructor
  · intro heq
    exact List.append_inj heq hlength.symm
  · rintro ⟨rfl, rfl⟩
    rfl

variable {pdu rest : List UInt8}

theorem Rewrites.length_eq {written : List UInt8} {same : Prop} (h : Rewrites pdu rest written same) :
    pdu.length = written.length + rest.length := by
  obtain ⟨first, rfl, hlength, -⟩ := h.read
  rw [List.length_append, hlength]

variable {si : RlcSiField}

/-- What the readers take for the segment offset is what the writers append for it, unless it is 0. -/
theorem writeSo_readOptionalSoRest {bytes : List UInt8} {so : Nat}
    (h : readOptionalSoRest si bytes = some (so, rest)) :
    (writeSo so ++ rest = bytes ↔ (si.hasSo → so ≠ 0)) ∧
      bytes.length = (if si.hasSo then 2 else 0) + rest.length ∧ (¬si.hasSo → so = 0) := by
  rw [readOptionalSoRest, readOptionalSo] at h
  by_cases hsi : si.hasSo = true
  · rw [if_pos hsi, if_pos hsi] at h
    obtain ⟨so', hso, heq⟩ := Option.map_eq_some_iff.mp h
    cases heq
    unfold readSo at hso
    split at hso
    · rename_i b0 b1 bytes
      cases hso
      have hb0 := b0.toNat_lt
      have hb1 := b1.toNat_lt
      rw [land_byte, Nat.mod_eq_of_lt hb0, joinBytes_eq _ _ hb1]
      obtain ⟨hlow, hhigh⟩ := splitBytes b0.toNat b1
      refine ⟨?_, by simp [hsi]; omega, fun hnot => absurd hsi hnot⟩
      by_cases hzero : b0.toNat * 256 + b1.toNat = 0
      · have hne : bytes ≠ b0 :: b1 :: bytes := by
          intro heq
          have hlength := congrArg List.length heq
          simp only [List.length_cons] at hlength
          omega
        simp [writeSo, hzero, hsi, hne]
      · simp only [writeSo, ne_eq, hzero, not_false_eq_true, if_true, hlow, hhigh]
        simp
    · cases hso
  · rw [if_neg hsi, if_neg hsi] at h
    cases h
    refine ⟨?_, by simp [hsi], fun _ => rfl⟩
    simp [writeSo, hsi]

theorem readOptionalSoRest_writeSo {so : Nat} (hlt : so < 2 ^ 16) (hso : si.hasSo ↔ so ≠ 0)
    (payload : List UInt8) :
    readOptionalSoRest si (writeSo so ++ payload) = some (so, payload) := by
  rw [readOptionalSoRest, readOptionalSo, writeSo]
  by_cases hsi : si.hasSo = true
  · rw [if_pos hsi, if_pos (hso.mp hsi), List.cons_append, List.cons_append, List.nil_append,
      readSo_write hlt]
    simp [hsi]
  · have hzero : so = 0 := not_not.mp fun hne => hsi (hso.mpr hne)
    simp [hsi, hzero]

/-- The fields are in range, and the segment offset is there for the segments that have one. -/
structure RlcUmPduHeader.InRange (header : RlcUmPduHeader) : Prop where
  sn : header.sn < cardinality header.snSize.toNumber
  so : header.so < 2 ^ 16
  hasSo : header.si.hasSo ↔ header.so ≠ 0

def writeUmFixedPart (snSize : RlcUmSnSize) (si : RlcSiField) (sn : Nat) : List UInt8 :=
  let flags := (si.toNumber &&& 0x03) <<< 6
  if si = .fullSdu then [UInt8.ofNat flags]
  else
    match snSize with
    | .size6bits => [UInt8.ofNat (flags ||| (sn &&& 0x3f))]
    | .size12bits => [UInt8.ofNat (flags ||| ((sn >>> 8) &&& 0xf)), UInt8.ofNat (sn &&& 0xff)]

theorem rlcUmWriteDataPduHeader_eq (header : RlcUmPduHeader) :
    rlcUmWriteDataPduHeader header = writeUmFixedPart header.snSize header.si header.sn ++
      if header.si = .fullSdu then [] else writeSo header.so := by
  simp only [rlcUmWriteDataPduHeader, writeUmFixedPart]
  by_cases hsi : header.si = .fullSdu
  · simp [hsi]
  · simp only [hsi, if_false]
    rfl

variable {snSize : RlcUmSnSize}

theorem readUmFixedPart_write {sn : Nat} (hsn : sn < cardinality snSize.toNumber)
    (rest : List UInt8) :
    readUmFixedPart snSize (writeUmFixedPart snSize si sn ++ rest) =
      some (si, if si = .fullSdu then 0 else sn, rest) := by
  by_cases hsi : si = .fullSdu
  · subst hsi
    cases snSize <;> rfl
  · simp only [writeUmFixedPart, if_neg hsi]
    cases snSize with
    | size6bits =>
      have hlt : sn < 64 := hsn
      obtain ⟨hread, hvalue⟩ := umByte6bit si ⟨sn, hlt⟩
      simp only [List.cons_append, List.nil_append, readUmFixedPart, hread, hvalue, hsi, false_and,
        if_false]
    | size12bits =>
      have hlt : sn < 4096 := hsn
      have hhigh : sn >>> 8 = sn / 256 := Nat.shiftRight_eq_div_pow sn 8
      obtain ⟨hread, hreserved, hvalue⟩ := umByte12bit si ⟨sn / 256, by omega⟩
      have hlow : (UInt8.ofNat (sn &&& 0xff)).toNat = sn % 256 := by
        rw [land_byte, UInt8.toNat_ofNat']
        omega
      have hjoin : (sn / 256) <<< 8 ||| (sn % 256 &&& 0xff) = sn := by
        rw [joinBytes_eq _ _ (by omega)]
        omega
      simp only [List.cons_append, List.nil_append, readUmFixedPart, hhigh, hread, hreserved, hvalue, hlow,
        hjoin, hsi, ne_eq, not_true_eq_false, and_false, if_false]

def umReservedBits : RlcUmSnSize → List UInt8 → Nat
  | .size12bits, b0 :: _ => (b0.toNat >>> 4) &&& 0x03
  | _, _ => 0

variable (b : Fin 256)

theorem umByte6bit_fields : let byte := UInt8.ofNat b
    (readUmSi byte = .fullSdu → byte.toNat &&& 0x3f = 0 →
      UInt8.ofNat ((RlcSiField.fullSdu.toNumber &&& 0x03) <<< 6) = byte) ∧
    UInt8.ofNat (((readUmSi byte).toNumber &&& 0x03) <<< 6 ||| ((byte.toNat &&& 0x3f) &&& 0x3f)) = byte := by
  revert b
  decide +kernel

/-- A first byte is its fields unless a reserved bit is set; 12 bits. -/
theorem umByte12bit_fields : let byte := UInt8.ofNat b
    (readUmSi byte = .fullSdu → (byte.toNat &&& 0x0f) <<< 8 = 0 →
      (UInt8.ofNat ((RlcSiField.fullSdu.toNumber &&& 0x03) <<< 6) = byte ↔
        (byte.toNat >>> 4) &&& 0x03 = 0)) ∧
    (UInt8.ofNat (((readUmSi byte).toNumber &&& 0x03) <<< 6 ||| ((byte.toNat &&& 0x0f) &&& 0xf)) = byte ↔
      (byte.toNat >>> 4) &&& 0x03 = 0) := by
  revert b
  decide +kernel

/-- The fixed part that was read is what is written for it, unless a reserved bit is set. -/
theorem writeUmFixedPart_read {sn : Nat} (h : readUmFixedPart snSize pdu = some (si, sn, rest)) :
    Rewrites pdu rest (writeUmFixedPart snSize si sn) (umReservedBits snSize pdu = 0) := by
  cases pdu with
  | nil => cases snSize <;> cases h
  | cons b0 bytes =>
    have hb0 : UInt8.ofNat (Fin.mk b0.toNat b0.toNat_lt) = b0 := UInt8.ofNat_toNat
    cases snSize with
    | size6bits =>
      obtain ⟨hfull, hsegment⟩ := umByte6bit_fields ⟨b0.toNat, b0.toNat_lt⟩
      rw [hb0] at hfull hsegment
      simp only [readUmFixedPart] at h
      split at h
      · cases h
      · rename_i hreserved
        cases h
        refine ⟨[b0], rfl, ?_⟩
        simp only [writeUmFixedPart]
        by_cases hsi : readUmSi b0 = .fullSdu
        · have hzero : b0.toNat &&& 0x3f = 0 := not_not.mp fun hne => hreserved ⟨hsi, hne⟩
          rw [if_pos hsi, hsi, hfull hsi hzero]
          exact ⟨rfl, iff_of_true rfl rfl⟩
        · rw [if_neg hsi, hsegment]
          exact ⟨rfl, iff_of_true rfl rfl⟩
    | size12bits =>
      obtain ⟨hfull, hsegment⟩ := umByte12bit_fields ⟨b0.toNat, b0.toNat_lt⟩
      rw [hb0] at hfull hsegment
      simp only [readUmFixedPart] at h
      split at h
      · rename_i hsi
        split at h
        · cases h
        · rename_i hzero
          cases h
          refine ⟨[b0], rfl, rfl, ?_⟩
          simp only [writeUmFixedPart, if_true, List.cons.injEq, and_true, umReservedBits]
          exact hfull hsi (not_not.mp hzero)
      · rename_i hsi
        split at h
        · cases h
        · cases bytes with
          | nil => cases h
          | cons b1 bytes =>
            cases h
            obtain ⟨hlow, hhigh⟩ := splitBytes (b0.toNat &&& 0x0f) b1
            refine ⟨[b0, b1], rfl, ?_⟩
            rw [joinBytes_eq _ _ b1.toNat_lt]
            simp only [writeUmFixedPart, if_neg hsi, hlow, hhigh, List.cons.injEq, and_true,
              umReservedBits]
            exact ⟨rfl, hsegment⟩

variable {header : RlcUmPduHeader}

theorem rlcUmReadHeader_write (h : header.InRange) (payload : List UInt8) :
    rlcUmReadHeader (rlcUmWriteDataPduHeader header ++ payload) header.snSize = some (header, payload) ↔
      (header.si = .fullSdu → header.sn = 0) := by
  have hrest := readOptionalSoRest_writeSo h.so h.hasSo payload
  have hzero : header.si = .fullSdu → header.so = 0 :=
    fun hsi => not_not.mp fun hne => by
      have hhas := h.hasSo.mpr hne
      rw [hsi] at hhas
      cases hhas
  rw [rlcUmWriteDataPduHeader_eq, List.append_assoc, rlcUmReadHeader, readUmFixedPart_write h.sn]
  simp only [Option.bind_eq_bind, Option.bind_some]
  by_cases hsi : header.si = .fullSdu
  · rw [hzero hsi] at hrest
    have hnil : writeSo 0 ++ payload = payload := rfl
    rw [hnil] at hrest
    simp only [hsi] at hrest
    obtain ⟨si, snSize, sn, so⟩ := header
    simp only at hsi hzero ⊢
    subst hsi
    rw [hzero rfl]
    simp only [if_true, List.nil_append, hrest, Option.bind_some, Option.pure_def]
    simp [eq_comm]
  · simp [hsi, hrest]

theorem rlcUmReadDataPduHeader_eq (pdu : List UInt8) (snSize : RlcUmSnSize) :
    rlcUmReadDataPduHeader pdu snSize = (rlcUmReadHeader pdu snSize).map Prod.fst := by
  rw [rlcUmReadDataPduHeader, rlcUmReadHeader]
  simp only [readOptionalSoRest, Option.bind_eq_bind, Option.pure_def, Option.map_bind, Option.bind_map,
    Option.map_some, Function.comp_def]

/-- The fields fit their widths, and the offset is zero exactly for the first segment. -/
structure RlcUmPduHeader.Segment (header : RlcUmPduHeader) : Prop where
  si : header.si ≠ .fullSdu
  sn : header.sn < cardinality header.snSize.toNumber
  so : header.so < 2 ^ 16
  so_ne_zero : header.si ≠ .firstSegment ↔ header.so ≠ 0

theorem RlcUmPduHeader.Segment.inRange (h : header.Segment) : header.InRange where
  __ := h
  hasSo := by
    rw [← h.so_ne_zero]
    have hsi := h.si
    cases hfield : header.si <;> simp_all [RlcSiField.hasSo]

theorem rlcUmReadDataPduHeader_write (h : header.Segment) (payload : List UInt8) :
    rlcUmReadDataPduHeader (rlcUmWriteDataPduHeader header ++ payload) header.snSize = some header := by
  have hread := (rlcUmReadHeader_write h.inRange payload).mpr fun hsi => absurd hsi h.si
  rw [rlcUmReadDataPduHeader_eq, hread]
  rfl

/-- What the reader consumed is the packed length of the header, and is what is written for it, unless a
segment has offset 0 or a reserved bit is set. -/
theorem rlcUmReadHeader_consumed (h : rlcUmReadHeader pdu snSize = some (header, rest)) :
    (pdu.length = rlcUmNrPackedLength header + rest.length ↔ (header.si.hasSo → header.so ≠ 0)) ∧
    (rlcUmWriteDataPduHeader header ++ rest = pdu ↔
      (header.si.hasSo → header.so ≠ 0) ∧ umReservedBits snSize pdu = 0) := by
  simp only [rlcUmReadHeader, Option.bind_eq_bind, Option.bind_eq_some_iff, Prod.exists, Option.pure_def,
    Option.some.injEq, Prod.mk.injEq] at h
  obtain ⟨si, sn, middle, hfixed, so, rest', hso, rfl, rfl⟩ := h
  have hrewrites := writeUmFixedPart_read hfixed
  obtain ⟨hsoBytes, hsoLength, hnoSo⟩ := writeSo_readOptionalSoRest hso
  have hpart : (if si = .fullSdu then [] else writeSo so) = writeSo so := by
    by_cases hsi : si = .fullSdu
    · rw [hnoSo (by rw [hsi]; decide)]
      exact ite_self _
    · rw [if_neg hsi]
  have hlength := hrewrites.length_eq
  rw [← length_rlcUmWriteDataPduHeader, rlcUmWriteDataPduHeader_eq, hpart, List.append_assoc,
    hrewrites.append_iff, hsoBytes, List.length_append]
  refine ⟨?_, and_comm⟩
  by_cases hsi : si.hasSo = true
  · by_cases hzero : so = 0
    · simp [writeSo, hzero, hsi] at hsoLength ⊢
      omega
    · simp [writeSo, hzero, hsi] at hsoLength ⊢
      omega
  · rw [hnoSo hsi]
    simp [writeSo, hsi] at hsoLength ⊢
    omega

/-- The fields are in range, and the segment offset is there for the segments that have one. -/
structure RlcAmPduHeader.InRange (header : RlcAmPduHeader) : Prop where
  p : header.p < 2
  sn : header.sn < cardinality header.snSize.toNumber
  so : header.so < 2 ^ 16
  hasSo : header.si.hasSo ↔ header.so ≠ 0

def writeAmFixedPart (header : RlcAmPduHeader) : List UInt8 :=
  match header.snSize with
  | .size12bits =>
    [UInt8.ofNat (headerFlags header ||| ((header.sn >>> 8) &&& 0x0f)), UInt8.ofNat (header.sn &&& 0xff)]
  | .size18bits =>
    [UInt8.ofNat (headerFlags header ||| ((header.sn >>> 16) &&& 0x3)), UInt8.ofNat (header.sn >>> 8),
      UInt8.ofNat (header.sn &&& 0xff)]

theorem rlcAmWriteDataPduHeader_eq (header : RlcAmPduHeader) :
    rlcAmWriteDataPduHeader header = writeAmFixedPart header ++ writeSo header.so := rfl

theorem length_writeAmFixedPart (header : RlcAmPduHeader) :
    (writeAmFixedPart header).length = rlcAmPduHeaderMinSize header.snSize := by
  rw [writeAmFixedPart]
  cases header.snSize <;> rfl

def readAmFlags (byte : UInt8) : RlcDcField × Nat × RlcSiField :=
  (RlcDcField.ofNumber ((byte.toNat >>> 7) &&& 0x01), (byte.toNat >>> 6) &&& 0x01,
    RlcSiField.ofNumber ((byte.toNat >>> 4) &&& 0x03))

theorem amByte_fields (dc : RlcDcField) (p : Fin 2) (si : RlcSiField) (low : Fin 16) :
    let byte := UInt8.ofNat
      ((((dc.toNumber &&& 0x01) <<< 7) ||| ((p.val &&& 0x01) <<< 6) ||| ((si.toNumber &&& 0x03) <<< 4)) |||
        low.val)
    readAmFlags byte = (dc, p.val, si) ∧ byte.toNat &&& 0x0f = low ∧ byte.toNat &&& 0x0c = low.val &&& 0x0c ∧
      byte.toNat &&& 0x03 = low.val &&& 0x03 := by
  revert p low
  cases dc <;> cases si <;> decide +kernel

theorem amByte_eq : let byte := UInt8.ofNat b
    let flags := readAmFlags byte
    let upper := ((flags.1.toNumber &&& 0x01) <<< 7) ||| ((flags.2.1 &&& 0x01) <<< 6) |||
      ((flags.2.2.toNumber &&& 0x03) <<< 4)
    UInt8.ofNat (upper ||| ((byte.toNat &&& 0x0f) &&& 0x0f)) = byte ∧
      (byte.toNat &&& 0x0c = 0 → UInt8.ofNat (upper ||| ((byte.toNat &&& 0x03) &&& 0x3)) = byte) := by
  revert b
  decide +kernel

theorem joinThreeBytes_eq (hi mid lo : Nat) (hmid : mid < 256) (hlo : lo < 256) :
    hi <<< 16 ||| ((mid &&& 0xff) <<< 8) ||| (lo &&& 0xff) = (hi * 256 + mid) * 256 + lo := by
  have hupper : hi <<< 16 ||| mid <<< 8 = (hi * 256 + mid) <<< 8 := by
    have hshift : hi <<< 16 = (hi <<< 8) <<< 8 := by rw [← Nat.shiftLeft_add]
    rw [hshift, ← Nat.shiftLeft_or_distrib, shiftLeft_lor_eq (show mid < 2 ^ 8 from hmid)]
    rfl
  rw [land_byte mid, Nat.mod_eq_of_lt hmid, hupper, joinBytes_eq _ _ hlo]

theorem twoBits (n : Fin 4) : n.val &&& 0x0c = 0 ∧ n.val &&& 0x03 = n := by
  revert n
  decide

variable {header : RlcAmPduHeader}

theorem readAmFixedPart_write (h : header.InRange) (rest : List UInt8) :
    ∃ byte, (writeAmFixedPart header ++ rest).head? = some byte ∧
      readAmFlags byte = (header.dc, header.p, header.si) ∧
      readSn header.snSize (writeAmFixedPart header ++ rest) = some (header.sn, rest) := by
  have hsn := h.sn
  rw [writeAmFixedPart]
  cases hsize : header.snSize with
  | size12bits =>
    rw [hsize] at hsn
    have hlt : header.sn < 4096 := hsn
    have hhigh : (header.sn >>> 8) &&& 0x0f = header.sn / 256 := by
      rw [Nat.shiftRight_eq_div_pow, land_nibble]
      omega
    obtain ⟨hflags, hnibble, -⟩ := amByte_fields header.dc ⟨header.p, h.p⟩ header.si
      ⟨header.sn / 256, by omega⟩
    have hlow : (UInt8.ofNat (header.sn &&& 0xff)).toNat = header.sn % 256 := by
      rw [land_byte, UInt8.toNat_ofNat']
      omega
    have hjoin : (header.sn / 256) <<< 8 ||| (header.sn % 256 &&& 0xff) = header.sn := by
      rw [joinBytes_eq _ _ (by omega)]
      omega
    refine ⟨_, rfl, ?_, ?_⟩
    · rw [hhigh]
      exact hflags
    · simp only [hhigh, List.cons_append, List.nil_append, readSn, headerFlags, hnibble, hlow, hjoin]
  | size18bits =>
    rw [hsize] at hsn
    have hlt : header.sn < 262144 := hsn
    have hhigh : (header.sn >>> 16) &&& 0x3 = header.sn / 65536 := by
      rw [Nat.shiftRight_eq_div_pow, show (0x3 : Nat) = 2 ^ 2 - 1 from rfl, Nat.and_two_pow_sub_one_eq_mod]
      omega
    have htop : header.sn / 65536 < 4 := by omega
    obtain ⟨hflags, -, hreserved, hbits⟩ := amByte_fields header.dc ⟨header.p, h.p⟩ header.si
      ⟨header.sn / 65536, by omega⟩
    obtain ⟨hnone, hall⟩ := twoBits ⟨header.sn / 65536, htop⟩
    have hmid : (UInt8.ofNat (header.sn >>> 8)).toNat = header.sn / 256 % 256 := by
      rw [Nat.shiftRight_eq_div_pow, UInt8.toNat_ofNat']
    have hlow : (UInt8.ofNat (header.sn &&& 0xff)).toNat = header.sn % 256 := by
      rw [land_byte, UInt8.toNat_ofNat']
      omega
    have hjoin : (header.sn / 65536) <<< 16 ||| ((header.sn / 256 % 256 &&& 0xff) <<< 8) |||
        (header.sn % 256 &&& 0xff) = header.sn := by
      rw [joinThreeBytes_eq _ _ _ (by omega) (by omega)]
      omega
    refine ⟨_, rfl, ?_, ?_⟩
    · rw [hhigh]
      exact hflags
    · simp only [hhigh, List.cons_append, List.nil_append, readSn, headerFlags, hreserved, hnone, hbits,
        hall, hmid, hlow, hjoin, ne_eq, not_true_eq_false, if_false]

theorem rlcAmReadDataPduHeader_eq (pdu : List UInt8) (snSize : RlcAmSnSize) :
    rlcAmReadDataPduHeader pdu snSize = (rlcAmReadHeader pdu snSize).map Prod.fst := by
  rw [rlcAmReadDataPduHeader, rlcAmReadHeader]
  split
  · rfl
  · simp only [readOptionalSoRest, Option.bind_eq_bind, Option.pure_def, Option.map_bind, Option.bind_map,
      Option.map_some, Function.comp_def]

/-- Reading back a header that was written; one without segment offset needs a payload. -/
theorem rlcAmReadHeader_write (h : header.InRange) (payload : List UInt8) :
    rlcAmReadHeader (rlcAmWriteDataPduHeader header ++ payload) header.snSize = some (header, payload) ↔
      header.si.hasSo ∨ payload ≠ [] := by
  have hrest := readOptionalSoRest_writeSo h.so h.hasSo payload
  obtain ⟨byte, hhead, hflags, hsn⟩ := readAmFixedPart_write h (writeSo header.so ++ payload)
  have hlength : (writeAmFixedPart header ++ (writeSo header.so ++ payload)).length ≤
      rlcAmPduHeaderMinSize header.snSize ↔ ¬(header.si.hasSo ∨ payload ≠ []) := by
    rw [List.length_append, length_writeAmFixedPart, List.length_append, h.hasSo, writeSo]
    by_cases hso : header.so = 0
    · cases payload <;> simp [hso]
    · rw [if_pos hso, List.length_cons]
      exact iff_of_false (by omega) fun hnone => hnone (Or.inl hso)
  rw [rlcAmWriteDataPduHeader_eq, List.append_assoc, rlcAmReadHeader]
  by_cases hfits : header.si.hasSo ∨ payload ≠ []
  · rw [if_neg fun hle => hlength.mp hle hfits]
    simp only [readAmFlags, Prod.mk.injEq] at hflags
    simp only [hhead, hflags, hsn, hrest, Option.bind_eq_bind, Option.bind_some, Option.pure_def]
    exact iff_of_true trivial hfits
  · rw [if_pos (hlength.mpr hfits)]
    simp [hfits]

theorem writeAmFixedPart_read {snSize : RlcAmSnSize} {byte : UInt8} (hhead : pdu.head? = some byte)
    (hflags : readAmFlags byte = (header.dc, header.p, header.si)) (hsize : header.snSize = snSize)
    (h : readSn snSize pdu = some (header.sn, rest)) :
    Rewrites pdu rest (writeAmFixedPart header) True := by
  have hb : UInt8.ofNat (Fin.mk byte.toNat byte.toNat_lt) = byte := UInt8.ofNat_toNat
  obtain ⟨hnibble, htwo⟩ := amByte_eq ⟨byte.toNat, byte.toNat_lt⟩
  rw [hb, hflags] at hnibble htwo
  rw [writeAmFixedPart, hsize]
  unfold readSn at h
  split at h
  · rename_i first b1 rest
    cases hhead
    simp only [Option.some.injEq, Prod.mk.injEq] at h
    obtain ⟨hsn, rfl⟩ := h
    rw [joinBytes_eq _ _ b1.toNat_lt] at hsn
    obtain ⟨hlow, hhigh⟩ := splitBytes (byte.toNat &&& 0x0f) b1
    refine ⟨[byte, b1], rfl, ?_⟩
    simp only [← hsn, hlow, hhigh, headerFlags, hnibble]
    exact ⟨trivial, trivial⟩
  · rename_i first b1 b2 rest
    cases hhead
    split at h
    · cases h
    · rename_i hreserved
      simp only [Option.some.injEq, Prod.mk.injEq] at h
      obtain ⟨hsn, rfl⟩ := h
      rw [joinThreeBytes_eq _ _ _ b1.toNat_lt b2.toNat_lt] at hsn
      obtain ⟨hlow, hmid⟩ := splitBytes ((byte.toNat &&& 0x03) * 256 + b1.toNat) b2
      obtain ⟨hmidLow, hhigh⟩ := splitBytes (byte.toNat &&& 0x03) b1
      rw [ofNat_land_byte] at hmidLow
      have htop : header.sn >>> 16 = byte.toNat &&& 0x03 := by
        rw [← hsn, show 16 = 8 + 8 from rfl, Nat.shiftRight_add, hmid, hhigh]
      refine ⟨[byte, b1, b2], rfl, ?_⟩
      rw [htop]
      simp only [← hsn, hlow, hmid, hmidLow, headerFlags, htwo (not_not.mp hreserved)]
      exact ⟨trivial, trivial⟩
  · cases h

/-- What the reader consumed is the packed length of the header, and is what is written for it, unless a
segment has offset 0. -/
theorem rlcAmReadHeader_consumed {snSize : RlcAmSnSize}
    (h : rlcAmReadHeader pdu snSize = some (header, rest)) :
    pdu.length = header.getPackedSize + rest.length ∧
    (rlcAmWriteDataPduHeader header ++ rest = pdu ↔ (header.si.hasSo → header.so ≠ 0)) := by
  rw [rlcAmReadHeader] at h
  split at h
  · cases h
  · simp only [Option.bind_eq_bind, Option.bind_eq_some_iff, Prod.exists, Option.pure_def,
      Option.some.injEq, Prod.mk.injEq] at h
    obtain ⟨byte, hhead, sn, middle, hsn, so, rest', hso, hheader, rfl⟩ := h
    have hsn : readSn snSize pdu = some (header.sn, middle) := by rwa [← hheader]
    have hso : readOptionalSoRest header.si middle = some (header.so, rest') := by rwa [← hheader]
    obtain ⟨hsoBytes, hsoLength, -⟩ := writeSo_readOptionalSoRest hso
    have hrewrites := writeAmFixedPart_read hhead (by rw [← hheader]; rfl) (by rw [← hheader]) hsn
    have hlength := hrewrites.length_eq
    rw [length_writeAmFixedPart] at hlength
    refine ⟨?_, ?_⟩
    · rw [hlength, hsoLength, RlcAmPduHeader.getPackedSize, rlcAmPduHeaderMaxSize, rlcAmPduHeaderSoSize]
      split <;> omega
    · rw [rlcAmWriteDataPduHeader_eq, List.append_assoc, hrewrites.append_iff, hsoBytes]
      simp

/-- Both codecs, in both directions. -/
theorem dataHeaders_codec (um : RlcUmPduHeader) (am : RlcAmPduHeader) (payload pdu : List UInt8) :
    (um.InRange →
      (rlcUmReadHeader (rlcUmWriteDataPduHeader um ++ payload) um.snSize = some (um, payload) ↔
        (um.si = .fullSdu → um.sn = 0))) ∧
    (am.InRange →
      (rlcAmReadHeader (rlcAmWriteDataPduHeader am ++ payload) am.snSize = some (am, payload) ↔
        am.si.hasSo ∨ payload ≠ [])) ∧
    (∀ snSize header rest, rlcUmReadHeader pdu snSize = some (header, rest) →
      (pdu.length = rlcUmNrPackedLength header + rest.length ∧ rlcUmWriteDataPduHeader header ++ rest = pdu ↔
        (header.si.hasSo → header.so ≠ 0) ∧ umReservedBits snSize pdu = 0)) ∧
    (∀ snSize header rest, rlcAmReadHeader pdu snSize = some (header, rest) →
      (pdu.length = header.getPackedSize + rest.length ∧ rlcAmWriteDataPduHeader header ++ rest = pdu ↔
        (header.si.hasSo → header.so ≠ 0))) := by
  refine ⟨fun h => rlcUmReadHeader_write h payload, fun h => rlcAmReadHeader_write h payload,
    fun snSize header rest h => ?_, fun snSize header rest h => ?_⟩
  · obtain ⟨hlength, hbytes⟩ := rlcUmReadHeader_consumed h
    rw [hlength, hbytes]
    exact ⟨And.right, fun hall => ⟨hall.1, hall⟩⟩
  · obtain ⟨hlength, hbytes⟩ := rlcAmReadHeader_consumed h
    rw [hbytes]
    exact ⟨And.right, fun hso => ⟨hlength, hso⟩⟩

/-- Headers with and without segment offset, and received PDUs of both kinds. -/
theorem dataHeaders_codec_examples :
    rlcUmReadHeader [0x83, 0x00, 0x07, 0xaa] .size6bits = some (⟨.lastSegment, .size6bits, 3, 7⟩, [0xaa]) ∧
      rlcAmReadHeader (rlcAmWriteDataPduHeader ⟨.data, 1, .fullSdu, .size18bits, 70000, 0⟩ ++ [0xaa])
        .size18bits = some (⟨.data, 1, .fullSdu, .size18bits, 70000, 0⟩, [0xaa]) ∧
      rlcUmWriteDataPduHeader ⟨.lastSegment, .size6bits, 3, 7⟩ ++ [0xaa] = [0x83, 0x00, 0x07, 0xaa] ∧
      rlcAmWriteDataPduHeader ⟨.data, 0, .firstSegment, .size12bits, 5, 0⟩ ++ [0xaa] = [0x90, 0x05, 0xaa] := by
  obtain ⟨hum, ham, humRead, _⟩ := dataHeaders_codec ⟨.lastSegment, .size6bits, 3, 7⟩
    ⟨.data, 1, .fullSdu, .size18bits, 70000, 0⟩ [0xaa] [0x83, 0x00, 0x07, 0xaa]
  obtain ⟨_, _, _, hamRead⟩ := dataHeaders_codec ⟨.lastSegment, .size6bits, 3, 7⟩
    ⟨.data, 1, .fullSdu, .size18bits, 70000, 0⟩ [0xaa] [0x90, 0x05, 0xaa]
  have hread : rlcUmReadHeader [0x83, 0x00, 0x07, 0xaa] .size6bits =
      some (⟨.lastSegment, .size6bits, 3, 7⟩, [0xaa]) :=
    (hum ⟨by decide, by decide, by decide⟩).mpr nofun
  exact ⟨hread, (ham ⟨by decide, by decide, by decide, by decide⟩).mpr (by decide),
    ((humRead _ _ _ hread).mpr (by decide)).2, ((hamRead .size12bits _ _ rfl).mpr (by decide)).2⟩

/-- The last segment with offset 0 of a UM SDU: three bytes are read, and the packed length is 1. -/
theorem rlcUmReadHeader_zeroSo :
    rlcUmReadHeader [0x83, 0x00, 0x00, 0xaa] .size6bits = some (⟨.lastSegment, .size6bits, 3, 0⟩, [0xaa]) ∧
      ¬[0x83, 0x00, 0x00, (0xaa : UInt8)].length =
        rlcUmNrPackedLength ⟨.lastSegment, .size6bits, 3, 0⟩ + [(0xaa : UInt8)].length :=
  ⟨by decide, by decide⟩

end Srsran.Rlc
