import Srsran.Mac.DlSchPdu
import Srsran.Mac.UlSchPdu
import Srsran.Support.ByteArith

/-! What the receiver of a DL-SCH PDU reads. The grammar is the one of the UL-SCH parser, with the LCIDs
of the DL-SCH; it is stated here independently of the assembler. -/
namespace Srsran.Mac
open Srsran.Support LcidDlSch

/-- The subPDUs of a PDU; `fuel` is at least its length. -/
def decodeDlSchLoop : Nat → List UInt8 → Option (List DlSubpdu)
  | _, [] => some []
  | 0, _ :: _ => none
  | fuel + 1, first :: rest =>
    let lcid := MacUlSchSubpdu.lcidOf first
    if isSdu lcid then
      match MacUlSchSubpdu.fBitOf first, rest with
      | false, length :: body =>
        if body.length < length.toNat then none
        else (decodeDlSchLoop fuel (body.drop length.toNat)).map
          (.sdu lcid (body.take length.toNat) :: ·)
      | true, high :: low :: body =>
        let length := high.toNat <<< 8 ||| low.toNat
        if body.length < length then none
        else (decodeDlSchLoop fuel (body.drop length)).map (.sdu lcid (body.take length) :: ·)
      | _, _ => none
    else if lcid = ueConResId then
      if rest.length < sizeofCe ueConResId then none
      else (decodeDlSchLoop fuel (rest.drop (sizeofCe ueConResId))).map
        (.conRes (rest.take (sizeofCe ueConResId)) :: ·)
    else if lcid = LcidDlSch.taCmd then
      match rest with
      | [] => none
      | ce :: rest =>
        (decodeDlSchLoop fuel rest).map (.taCmd (ce.toNat >>> 6) (ce.toNat &&& 0x3f) :: ·)
    else if lcid = padding then some [.padding rest.length]
    else none

def decodeDlSch (pdu : List UInt8) : Option (List DlSubpdu) := decodeDlSchLoop pdu.length pdu

def subheaderByte (fBit : Bool) (lcid : LcidDlSch) : UInt8 :=
  UInt8.ofNat ((if fBit then 1 else 0) <<< 6 ||| (lcid &&& 0x3f))

def encodeSubpdu : DlSubpdu → List UInt8
  | .sdu lcid bytes =>
    if bytes.length ≥ macSduSubheaderLengthThres then
      subheaderByte true lcid :: UInt8.ofNat ((bytes.length &&& 0xff00) >>> 8) ::
        UInt8.ofNat (bytes.length &&& 0xff) :: bytes
    else subheaderByte false lcid :: UInt8.ofNat (bytes.length &&& 0xff) :: bytes
  | .conRes id => subheaderByte false ueConResId :: id
  | .taCmd tagId ta =>
    [subheaderByte false LcidDlSch.taCmd, UInt8.ofNat ((tagId <<< 6) ||| (ta &&& 0x3f))]
  | .padding length => subheaderByte false padding :: List.replicate length 0

def Encodable : DlSubpdu → Prop
  | .sdu lcid bytes => lcid ≤ lcid32 ∧ bytes.length < 2 ^ 16
  | .conRes id => id.length = sizeofCe ueConResId
  | .taCmd tagId ta => tagId < 4 ∧ ta < 64
  | .padding _ => False

theorem subheaderByte_fields (fBit : Bool) {lcid : LcidDlSch} (h : lcid < 64) :
    MacUlSchSubpdu.lcidOf (subheaderByte fBit lcid) = lcid ∧
      MacUlSchSubpdu.fBitOf (subheaderByte fBit lcid) = fBit := by
  have hall : ∀ (fBit : Bool) (lcid : Fin 64),
      MacUlSchSubpdu.lcidOf (subheaderByte fBit lcid) = lcid ∧
        MacUlSchSubpdu.fBitOf (subheaderByte fBit lcid) = fBit := by decide
  exact hall fBit ⟨lcid, h⟩

theorem taByte_fields {tagId ta : Nat} (htag : tagId < 4) (hta : ta < 64) :
    (UInt8.ofNat ((tagId <<< 6) ||| (ta &&& 0x3f))).toNat >>> 6 = tagId ∧
      (UInt8.ofNat ((tagId <<< 6) ||| (ta &&& 0x3f))).toNat &&& 0x3f = ta := by
  have hall : ∀ (tagId : Fin 4) (ta : Fin 64),
      (UInt8.ofNat ((tagId.val <<< 6) ||| (ta.val &&& 0x3f))).toNat >>> 6 = tagId.val ∧
        (UInt8.ofNat ((tagId.val <<< 6) ||| (ta.val &&& 0x3f))).toNat &&& 0x3f = ta.val := by decide
  exact hall ⟨tagId, htag⟩ ⟨ta, hta⟩

theorem lengthField_bytes {n : Nat} (h : n < 2 ^ 16) :
    (UInt8.ofNat ((n &&& 0xff00) >>> 8)).toNat <<< 8 ||| (UInt8.ofNat (n &&& 0xff)).toNat = n := by
  have hhigh : (n &&& 0xff00) >>> 8 = n >>> 8 := by
    rw [Nat.shiftRight_and_distrib]
    have hmask : (0xff00 : Nat) >>> 8 = 2 ^ 8 - 1 := rfl
    rw [hmask, Nat.and_two_pow_sub_one_eq_mod, Nat.shiftRight_eq_div_pow]
    omega
  have hlow : UInt8.ofNat (n &&& 0xff) = UInt8.ofNat n := by
    rw [land_byte]
    exact UInt8.toNat.inj (by simp)
  rw [hhigh, hlow, uint16_bytes h]

theorem decodeDlSchLoop_encode {subpdu : DlSubpdu} (h : Encodable subpdu) (fuel : Nat)
    (rest : List UInt8) :
    decodeDlSchLoop (fuel + 1) (encodeSubpdu subpdu ++ rest) =
      (decodeDlSchLoop fuel rest).map (subpdu :: ·) := by
  cases subpdu with
  | sdu lcid bytes =>
    obtain ⟨hlcid, hlength⟩ := h
    have hsdu : isSdu lcid = true := by simpa [isSdu] using hlcid
    have hlt : lcid < 64 := Nat.lt_of_le_of_lt hlcid (by decide)
    rw [encodeSubpdu]
    split
    · obtain ⟨hl, hf⟩ := subheaderByte_fields true hlt
      have hroom : ¬ (bytes ++ rest).length < bytes.length := by simp
      simp only [List.cons_append, decodeDlSchLoop, hl, hf, hsdu, if_true,
        lengthField_bytes hlength, if_neg hroom, List.drop_left, List.take_left]
    · rename_i hshort
      have hshort : bytes.length < 256 := Nat.lt_of_not_le hshort
      have hbyte : (UInt8.ofNat (bytes.length &&& 0xff)).toNat = bytes.length := by
        rw [land_byte, Nat.mod_eq_of_lt hshort, toNat_ofNat_byte hshort]
      obtain ⟨hl, hf⟩ := subheaderByte_fields false hlt
      have hroom : ¬ (bytes ++ rest).length < bytes.length := by simp
      simp only [List.cons_append, decodeDlSchLoop, hl, hf, hsdu, if_true, hbyte, if_neg hroom,
        List.drop_left, List.take_left]
  | conRes id =>
    have hid : id.length = sizeofCe ueConResId := h
    obtain ⟨hl, -⟩ := subheaderByte_fields false (by decide : ueConResId < 64)
    have hsdu : isSdu ueConResId = false := by decide
    simp [encodeSubpdu, decodeDlSchLoop, hl, hsdu, ← hid]
  | taCmd tagId ta =>
    obtain ⟨htag, hta⟩ := taByte_fields h.1 h.2
    obtain ⟨hl, -⟩ := subheaderByte_fields false (by decide : LcidDlSch.taCmd < 64)
    have hsdu : isSdu LcidDlSch.taCmd = false := by decide
    have hne : LcidDlSch.taCmd ≠ ueConResId := by decide
    simp only [encodeSubpdu, List.cons_append, List.nil_append, decodeDlSchLoop, hl, hsdu, hne,
      Bool.false_eq_true, if_false, if_true, htag, hta]
  | padding length => exact absurd h id

theorem length_encodeSubpdu_pos (subpdu : DlSubpdu) : 0 < (encodeSubpdu subpdu).length := by
  cases subpdu <;> simp only [encodeSubpdu]
  · split <;> simp
  all_goals simp

theorem decodeDlSchLoop_append {subpdus : List DlSubpdu} (h : ∀ s ∈ subpdus, Encodable s)
    {fuel : Nat} {rest : List UInt8} (hfuel : (subpdus.flatMap encodeSubpdu).length + rest.length ≤ fuel)
    {after : List DlSubpdu}
    (hrest : ∀ fuel', rest.length ≤ fuel' → decodeDlSchLoop fuel' rest = some after) :
    decodeDlSchLoop fuel (subpdus.flatMap encodeSubpdu ++ rest) = some (subpdus ++ after) := by
  induction subpdus generalizing fuel with
  | nil => exact hrest fuel (Nat.le_trans (Nat.le_add_left _ _) hfuel)
  | cons subpdu subpdus ih =>
    obtain ⟨hfirst, hothers⟩ := List.forall_mem_cons.mp h
    have hpos := length_encodeSubpdu_pos subpdu
    rw [List.flatMap_cons, List.length_append] at hfuel
    obtain ⟨fuel, rfl⟩ : ∃ k, fuel = k + 1 := ⟨fuel - 1, by omega⟩
    rw [List.flatMap_cons, List.append_assoc, decodeDlSchLoop_encode hfirst,
      ih hothers (by omega)]
    rfl

theorem decodeDlSchLoop_padding (fuel length : Nat) :
    decodeDlSchLoop (fuel + 1) (encodeSubpdu (.padding length)) = some [.padding length] := by
  obtain ⟨hl, -⟩ := subheaderByte_fields false (by decide : padding < 64)
  have hsdu : isSdu padding = false := by decide
  have hne : padding ≠ ueConResId ∧ padding ≠ LcidDlSch.taCmd := by decide
  simp [encodeSubpdu, decodeDlSchLoop, hl, hsdu, hne]

theorem decodeDlSch_encode {subpdus : List DlSubpdu} (h : ∀ s ∈ subpdus, Encodable s) :
    decodeDlSch (subpdus.flatMap encodeSubpdu) = some subpdus ∧
      ∀ length, decodeDlSch (subpdus.flatMap encodeSubpdu ++ encodeSubpdu (.padding length)) =
        some (subpdus ++ [.padding length]) := by
  constructor
  · have hloop := @decodeDlSchLoop_append subpdus h (subpdus.flatMap encodeSubpdu).length []
      (by simp) [] fun fuel' _ => by cases fuel' <;> rfl
    simpa [decodeDlSch] using hloop
  · intro length
    rw [decodeDlSch]
    refine decodeDlSchLoop_append h (by rw [List.length_append]) fun fuel' hfuel => ?_
    have hpos := length_encodeSubpdu_pos (.padding length)
    obtain ⟨k, rfl⟩ : ∃ k, fuel' = k + 1 := ⟨fuel' - 1, by omega⟩
    exact decodeDlSchLoop_padding k length

end Srsran.Mac
