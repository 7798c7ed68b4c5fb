import Srsran.Lib.Checked
import Srsran.Rlc.AmPduCodec
import Srsran.Support.ByteArith
import Mathlib.Data.List.Chain

/-! Decoding a packed status PDU returns it, and decoding never faults. The decoder merges through
`pushNack` again, so the round trip rests on an invariant of every built PDU: no two neighbouring
NACKs can be merged any more. -/
namespace Srsran.Rlc
open RlcAmStatusPdu Checked Srsran.Support RlcAmStatusNack

theorem nackFlags12bit (low : Fin 16) (e1 e2 e3 : Bool) :
    let byte := (UInt8.ofNat ((low.val <<< 4) ||| (if e1 then 0x08 else 0) |||
      (if e2 then 0x04 else 0) ||| (if e3 then 0x02 else 0))).toNat
    byte &&& 0x01 = 0 ∧ (byte &&& 0xf0) >>> 4 = low ∧ (byte &&& 0x08 != 0) = e1 ∧
      (byte &&& 0x04 != 0) = e2 ∧ (byte &&& 0x02 != 0) = e3 := by
  revert low e1 e2 e3
  decide

theorem nackFlags18bit (low : Fin 4) (e1 e2 e3 : Bool) :
    let byte := (UInt8.ofNat ((low.val <<< 6) ||| (if e1 then 0x20 else 0) |||
      (if e2 then 0x10 else 0) ||| (if e3 then 0x08 else 0))).toNat
    byte &&& 0x07 = 0 ∧ (byte &&& 0xc0) >>> 6 = low ∧ (byte &&& 0x20 != 0) = e1 ∧
      (byte &&& 0x10 != 0) = e2 ∧ (byte &&& 0x08 != 0) = e3 := by
  revert low e1 e2 e3
  decide

theorem headerByte (high : Fin 16) :
    let byte := (UInt8.ofNat high.val).toNat
    ((byte >>> 7) &&& 0x01 == 0) = true ∧ (byte >>> 4) &&& 0x07 = 0 ∧ byte &&& 0x0f = high := by
  revert high
  decide

/-- Third byte of the header with the low six bits of an 18-bit ACK_SN. -/
theorem ackFlags18bit (low : Fin 64) (empty : Bool) :
    let byte := (UInt8.ofNat ((low.val <<< 2) ||| (if empty then 0 else 0x02))).toNat
    byte &&& 0x01 = 0 ∧ (byte &&& 0xfc) >>> 2 = low ∧ (byte &&& 0x02 != 0) = !empty := by
  revert low empty
  decide

@[simp] theorem readByte_cons (byte : UInt8) (rest : List UInt8) :
    readByte (byte :: rest) = .ok (byte.toNat, rest) := rfl

variable {nack : RlcAmStatusNack}

theorem unpackNackSn12bit_pack (e1 : Bool)
    (hsn : nack.nackSn < cardinality 12) (rest : List UInt8) :
    unpackNackSn12bit (packNackSn12bit e1 nack ++ rest) =
      .ok (⟨nack.nackSn, e1, nack.hasSo, nack.hasNackRange⟩, rest) := by
  have hlt : nack.nackSn < 4096 := hsn
  have hlow : nack.nackSn % 16 < 16 := Nat.mod_lt _ (by decide)
  have hhigh : nack.nackSn >>> 4 = nack.nackSn / 16 := Nat.shiftRight_eq_div_pow _ 4
  obtain ⟨hres, hval, hflag1, hflag2, hflag3⟩ :=
    nackFlags12bit ⟨nack.nackSn % 16, hlow⟩ e1 nack.hasSo nack.hasNackRange
  simp only [packNackSn12bit, unpackNackSn12bit, land_nibble, List.cons_append, List.nil_append]
  rw [if_neg (by simp [sizeofNackSnExt])]
  simp only [readByte_cons, ok_bind, hres, hval, hflag1, hflag2, hflag3]
  rw [land_byte, land_byte, toNat_ofNat_byte (by omega), shiftLeft_lor_eq hlow, hhigh]
  simp only [ne_eq, not_true_eq_false, if_false]
  have hjoin : nack.nackSn / 16 % 256 % 256 * 2 ^ 4 + nack.nackSn % 16 = nack.nackSn := by omega
  rw [hjoin]
  rfl

theorem unpackNackSn18bit_pack (e1 : Bool)
    (hsn : nack.nackSn < cardinality 18) (rest : List UInt8) :
    unpackNackSn18bit (packNackSn18bit e1 nack ++ rest) =
      .ok (⟨nack.nackSn, e1, nack.hasSo, nack.hasNackRange⟩, rest) := by
  have hlt : nack.nackSn < 262144 := hsn
  have hlow : nack.nackSn % 4 < 4 := Nat.mod_lt _ (by decide)
  have hhigh : nack.nackSn >>> 10 = nack.nackSn / 1024 := Nat.shiftRight_eq_div_pow _ 10
  have hmid : nack.nackSn >>> 2 = nack.nackSn / 4 := Nat.shiftRight_eq_div_pow _ 2
  have hmask : (nack.nackSn <<< 6) &&& 0xc0 = (nack.nackSn % 4) <<< 6 :=
    shiftLeft_land_mask nack.nackSn 6 2
  obtain ⟨hres, hval, hflag1, hflag2, hflag3⟩ :=
    nackFlags18bit ⟨nack.nackSn % 4, hlow⟩ e1 nack.hasSo nack.hasNackRange
  simp only [packNackSn18bit, unpackNackSn18bit, hmask, List.cons_append, List.nil_append]
  rw [if_neg (by simp [sizeofNackSnExt])]
  simp only [readByte_cons, ok_bind, hres, hval, hflag1, hflag2, hflag3, land_byte]
  have hlower : (nack.nackSn / 4 % 256 % 256) <<< 2 ||| nack.nackSn % 4 =
      nack.nackSn / 4 % 256 % 256 * 2 ^ 2 + nack.nackSn % 4 := shiftLeft_lor_eq hlow
  rw [toNat_ofNat_byte (by omega), toNat_ofNat_byte (by omega), Nat.lor_assoc, hhigh, hmid, hlower,
    shiftLeft_lor_eq (by omega)]
  have hjoin : nack.nackSn / 1024 % 256 % 256 * 2 ^ 10 +
      (nack.nackSn / 4 % 256 % 256 * 2 ^ 2 + nack.nackSn % 4) = nack.nackSn := by omega
  simp only [ne_eq, not_true_eq_false, if_false, hjoin]
  rfl

/-- A NACK whose absent fields have the values of the constructor. -/
def RlcAmStatusNack.canonical (nack : RlcAmStatusNack) : RlcAmStatusNack :=
  { nackSn := nack.nackSn
    hasSo := nack.hasSo
    soStart := if nack.hasSo then nack.soStart else 0
    soEnd := if nack.hasSo then nack.soEnd else soEndOfSdu
    hasNackRange := nack.hasNackRange
    nackRange := if nack.hasNackRange then nack.nackRange else 0 }

/-- Every field fits its width on the wire. -/
structure RlcAmStatusNack.InRange (snSize : RlcAmSnSize) (nack : RlcAmStatusNack) : Prop where
  nackSn : nack.nackSn < cardinality snSize.toNumber
  soStart : nack.soStart < 2 ^ 16
  soEnd : nack.soEnd < 2 ^ 16
  nackRange : nack.nackRange < 2 ^ 8

theorem unpackNackSo_pack (hstart : nack.soStart < 2 ^ 16)
    (hend : nack.soEnd < 2 ^ 16) (rest : List UInt8) :
    unpackNackSo nack.hasSo { nackSn := nack.nackSn } (packNackExt nack ++ rest) =
      .ok ({ nack.canonical with hasNackRange := false, nackRange := 0 },
        (if nack.hasNackRange then [UInt8.ofNat nack.nackRange] else []) ++ rest) := by
  obtain ⟨sn, hasSo, soStart, soEnd, hasNackRange, nackRange⟩ := nack
  cases hasSo with
  | false => rfl
  | true =>
    simp only [packNackExt, unpackNackSo, if_true, List.cons_append, List.nil_append]
    rw [if_neg (by simp), if_neg (by simp [sizeofNackSo])]
    simp only [readByte_cons, ok_bind, uint16_bytes hstart, uint16_bytes hend]
    rfl

theorem unpackNackRange_pack (hrange : nack.nackRange < 2 ^ 8) (rest : List UInt8) :
    unpackNackRange nack.hasNackRange { nack.canonical with hasNackRange := false, nackRange := 0 }
      ((if nack.hasNackRange then [UInt8.ofNat nack.nackRange] else []) ++ rest) =
        .ok (nack.canonical, rest) := by
  obtain ⟨sn, hasSo, soStart, soEnd, hasNackRange, nackRange⟩ := nack
  cases hasNackRange with
  | false => rfl
  | true =>
    simp only [unpackNackRange, if_true, List.cons_append, List.nil_append]
    rw [if_neg (by simp), if_neg (by simp [sizeofNackRange])]
    simp only [readByte_cons, ok_bind, toNat_ofNat_byte hrange]
    rfl

theorem canBeMerged_canonical (pdu : RlcAmStatusPdu) (left right : RlcAmStatusNack) :
    pdu.canBeMerged left.canonical right.canonical = pdu.canBeMerged left right := by
  unfold canBeMerged nofSns canonical
  cases left.hasSo <;> cases left.hasNackRange <;> cases right.hasSo <;>
    cases right.hasNackRange <;> rfl

theorem canBeMerged_congr {pdu pdu' : RlcAmStatusPdu} (h : pdu.snSize = pdu'.snSize)
    (left right : RlcAmStatusNack) : pdu.canBeMerged left right = pdu'.canBeMerged left right := by
  unfold canBeMerged modNr
  rw [h]

/-- No two neighbouring NACKs can be merged. -/
def Unmerged (pdu : RlcAmStatusPdu) : Prop :=
  pdu.nacks.IsChain fun left right => pdu.canBeMerged left right = false

/-- Growing the right NACK by a merge does not make it mergeable with its left neighbour. -/
theorem canBeMerged_expandPrev {pdu : RlcAmStatusPdu} {left prev : RlcAmStatusNack}
    (h : pdu.canBeMerged left prev = false) (nack : RlcAmStatusNack) :
    pdu.canBeMerged left (expandPrev prev nack) = false := by
  rw [Bool.eq_false_iff] at h ⊢
  intro hmerge
  rw [ne_eq, canBeMerged_iff] at h
  rw [canBeMerged_iff, nackSn_expandPrev, nofSns_expandPrev, soStart_expandPrev] at hmerge
  obtain ⟨hsn, hend, hstart, hsum⟩ := hmerge
  exact h ⟨hsn, hend, hstart, by omega⟩

theorem Unmerged.pushNack {pdu : RlcAmStatusPdu} (h : Unmerged pdu) (nack : RlcAmStatusNack) :
    Unmerged (pdu.pushNack nack) := by
  have hsame : ∀ left right, (pdu.pushNack nack).canBeMerged left right =
      pdu.canBeMerged left right := canBeMerged_congr (snSize_pushNack pdu nack)
  simp only [Unmerged, hsame] at h ⊢
  rcases nacks_pushNack_cases pdu nack with ⟨init, prev, hsplit, -, hnacks, -⟩ | ⟨hlast, hnacks, -⟩
  · rw [hsplit, List.isChain_append] at h
    rw [hnacks, List.isChain_append]
    refine ⟨h.1, .singleton _, ?_⟩
    rintro left hleft right hright
    obtain rfl : expandPrev prev nack = right := by simpa using hright
    exact canBeMerged_expandPrev (h.2.2 left hleft prev (by simp)) nack
  · rw [hnacks, List.isChain_append]
    refine ⟨h, .singleton _, ?_⟩
    rintro left hleft right hright
    obtain rfl : nack = right := by simpa using hright
    exact hlast left hleft

theorem RlcAmStatusNack.InRange.expandPrev {pdu : RlcAmStatusPdu} {prev nack : RlcAmStatusNack}
    (hprev : prev.InRange pdu.snSize) (hnack : nack.InRange pdu.snSize)
    (hmerge : pdu.canBeMerged prev nack = true) :
    (RlcAmStatusPdu.expandPrev prev nack).InRange pdu.snSize := by
  have hrange : prev.nofSns + nack.nofSns ≤ 255 := (canBeMerged_iff.mp hmerge).2.2.2
  obtain ⟨sn, hasSo, soStart, soEnd, hasNackRange, nackRange⟩ := prev
  obtain ⟨sn', hasSo', soStart', soEnd', hasNackRange', nackRange'⟩ := nack
  cases hasSo <;> cases hasNackRange <;> cases hasSo' <;> cases hasNackRange' <;>
    simp only [nofSns, Bool.false_eq_true, if_false, if_true] at hrange <;>
    refine ⟨hprev.nackSn, ?_, ?_, ?_⟩ <;>
    first
      | exact hprev.soStart
      | exact hprev.soEnd
      | exact hnack.soEnd
      | (simp [RlcAmStatusPdu.expandPrev, soEndOfSdu]; try omega)

/-- Status PDUs that can be built with the operations of the container. -/
inductive Built (snSize : RlcAmSnSize) : RlcAmStatusPdu → Prop where
  | init : Built snSize { snSize }
  | reset {pdu} : Built snSize pdu → Built snSize pdu.reset
  | setAckSn {pdu} (ackSn : Nat) : Built snSize pdu → Built snSize (pdu.setAckSn ackSn)
  | pushNack {pdu nack} : Built snSize pdu → nack.InRange snSize → Built snSize (pdu.pushNack nack)
  | trim {pdu} (maxPackedSize : Nat) : Built snSize pdu → Built snSize (pdu.trim maxPackedSize).2

/-- What every operation of the container keeps. -/
structure PduInv (snSize : RlcAmSnSize) (pdu : RlcAmStatusPdu) : Prop where
  snSize_eq : pdu.snSize = snSize
  sizeInSync : pdu.SizeInSync
  unmerged : Unmerged pdu
  inRange : ∀ nack ∈ pdu.nacks, nack.InRange snSize

variable {snSize : RlcAmSnSize}

theorem PduInv.empty {pdu : RlcAmStatusPdu} (hsize : pdu.snSize = snSize)
    (hnacks : pdu.nacks = []) (hpacked : pdu.packedSize = sizeofHeaderAckSn) :
    PduInv snSize pdu := by
  refine ⟨hsize, ?_, ?_, ?_⟩
  · rw [SizeInSync, refreshedSize, hnacks, hpacked, nacksSize_nil, Nat.add_zero]
  · rw [Unmerged, hnacks]
    exact .nil
  · rw [hnacks]
    exact fun _ hmem => absurd hmem List.not_mem_nil

theorem PduInv.pushNack {pdu : RlcAmStatusPdu} (h : PduInv snSize pdu) (hnack : nack.InRange snSize) :
    PduInv snSize (pdu.pushNack nack) := by
  refine ⟨?_, h.sizeInSync.pushNack nack, h.unmerged.pushNack nack, ?_⟩
  · rw [snSize_pushNack, h.snSize_eq]
  · have hold := h.inRange
    rcases nacks_pushNack_cases pdu nack with
      ⟨init, prev, hsplit, hmerge, hnacks, -⟩ | ⟨-, hnacks, -⟩
    · rw [hsplit] at hold
      rw [hnacks]
      simp only [List.forall_mem_append, List.forall_mem_singleton] at hold ⊢
      refine ⟨hold.1, ?_⟩
      rw [← h.snSize_eq] at hold hnack ⊢
      exact hold.2.expandPrev hnack hmerge
    · rw [hnacks]
      simp only [List.forall_mem_append, List.forall_mem_singleton]
      exact ⟨hold, hnack⟩

theorem PduInv.trim {pdu : RlcAmStatusPdu} (h : PduInv snSize pdu)
    (maxPackedSize : Nat) : PduInv snSize (pdu.trim maxPackedSize).2 := by
  have hinitial := nacks_trim_initial h.sizeInSync maxPackedSize
  have hsize := @snSize_trim pdu maxPackedSize
  refine ⟨hsize.trans h.snSize_eq, h.sizeInSync.trim maxPackedSize, ?_, ?_⟩
  · simp only [Unmerged, canBeMerged_congr hsize]
    obtain ⟨removed, hsplit⟩ := hinitial
    have hall := h.unmerged
    rw [Unmerged, ← hsplit, List.isChain_append] at hall
    exact hall.1
  · exact fun nack hn => h.inRange nack (hinitial.subset hn)

theorem Built.inv {pdu : RlcAmStatusPdu} (h : Built snSize pdu) : PduInv snSize pdu := by
  induction h with
  | init => exact .empty rfl rfl rfl
  | reset _ ih => exact .empty ih.snSize_eq rfl rfl
  | setAckSn ackSn _ ih => exact ⟨ih.snSize_eq, ih.sizeInSync, ih.unmerged, ih.inRange⟩
  | pushNack _ hnack ih => exact ih.pushNack hnack
  | trim maxPackedSize _ ih => exact ih.trim maxPackedSize

theorem length_packNackExt (nack : RlcAmStatusNack) :
    (packNackExt nack).length = (if nack.hasSo then sizeofNackSo else 0) +
      (if nack.hasNackRange then sizeofNackRange else 0) := by
  unfold packNackExt
  cases nack.hasSo <;> cases nack.hasNackRange <;> rfl

theorem length_packNacks {packNackSn : Bool → RlcAmStatusNack → List UInt8} (snSize : RlcAmSnSize)
    (hlen : ∀ e1 nack, (packNackSn e1 nack).length = sizeofNackSnExt snSize)
    (nacks : List RlcAmStatusNack) :
    (packNacks packNackSn nacks).length = nacksSize snSize nacks := by
  induction nacks with
  | nil => rfl
  | cons nack rest ih =>
    rw [packNacks, List.length_append, List.length_append, hlen, length_packNackExt, ih,
      nacksSize_cons, nackSize]
    omega

theorem length_pack {pdu : RlcAmStatusPdu} (h : pdu.SizeInSync) :
    pdu.pack.length = pdu.packedSize := by
  rw [h, refreshedSize, pack]
  cases pdu.snSize with
  | size12bits =>
    rw [pack12bit, List.length_append, length_packNacks .size12bits fun _ _ => rfl]
    rfl
  | size18bits =>
    rw [pack18bit, List.length_append, length_packNacks .size18bits fun _ _ => rfl]
    rfl

theorem pushNack_append {pdu : RlcAmStatusPdu}
    (h : ∀ prev ∈ pdu.nacks.getLast?, pdu.canBeMerged prev nack = false) :
    pdu.pushNack nack = { pdu with
      nacks := pdu.nacks ++ [nack]
      packedSize := pdu.packedSize + nackSize pdu.snSize nack } := by
  unfold pushNack
  cases hlast : pdu.nacks.getLast? with
  | none => rfl
  | some prev =>
    have hmerge := h prev hlast
    simp only [hmerge, Bool.false_eq_true, if_false]

theorem nackSize_canonical (snSize : RlcAmSnSize) (nack : RlcAmStatusNack) :
    nackSize snSize nack.canonical = nackSize snSize nack := rfl

section Decode
variable {packNackSn : Bool → RlcAmStatusNack → List UInt8} {snSize : RlcAmSnSize}
  {unpackNackSn : List UInt8 → Except UnpackError (NackSnExt × List UInt8)}

/-- The decoder loop appends the packed NACKs one by one, as none of them can be merged. -/
theorem unpackNacks_pack
    (hsn : ∀ (e1 : Bool) (nack : RlcAmStatusNack), nack.InRange snSize → ∀ rest,
      unpackNackSn (packNackSn e1 nack ++ rest) =
        .ok (⟨nack.nackSn, e1, nack.hasSo, nack.hasNackRange⟩, rest))
    {nacks : List RlcAmStatusNack} {fuel : Nat} {pdu : RlcAmStatusPdu}
    (hfuel : nacks.length ≤ fuel) (hrange : ∀ nack ∈ nacks, nack.InRange snSize)
    (hchain : (pdu.nacks ++ nacks.map canonical).IsChain fun left right =>
      pdu.canBeMerged left right = false) :
    unpackNacks unpackNackSn fuel (!nacks.isEmpty) pdu (packNacks packNackSn nacks) =
      .ok { pdu with
        nacks := pdu.nacks ++ nacks.map canonical
        packedSize := pdu.packedSize + nacksSize pdu.snSize nacks } := by
  induction nacks generalizing fuel pdu with
  | nil =>
    rw [List.map_nil, List.append_nil, nacksSize_nil, Nat.add_zero]
    cases fuel <;> rfl
  | cons nack rest ih =>
    obtain ⟨fuel, rfl⟩ : ∃ n, fuel = n + 1 := by
      rw [List.length_cons] at hfuel
      exact ⟨fuel - 1, by omega⟩
    have hnack := hrange nack List.mem_cons_self
    have hpush : pdu.pushNack nack.canonical = _ := pushNack_append (by
      intro prev hprev
      exact (List.isChain_append.mp hchain).2.2 prev hprev nack.canonical (by simp))
    rw [packNacks, List.append_assoc, List.isEmpty_cons, Bool.not_false, unpackNacks,
      hsn _ _ hnack]
    simp only [ok_bind]
    rw [unpackNackSo_pack hnack.soStart hnack.soEnd]
    simp only [ok_bind]
    rw [unpackNackRange_pack hnack.nackRange]
    simp only [ok_bind]
    rw [hpush, ih]
    · simp only [List.map_cons, List.append_assoc, List.singleton_append, nacksSize_cons,
        nackSize_canonical, Nat.add_assoc]
    · rw [List.length_cons] at hfuel
      omega
    · exact fun n hn => hrange n (List.mem_cons_of_mem _ hn)
    · have hstep : (pdu.nacks ++ [nack.canonical]) ++ rest.map canonical =
          pdu.nacks ++ (nack :: rest).map canonical := by
        rw [List.append_assoc, List.map_cons, List.singleton_append]
      rw [hstep]
      exact hchain

end Decode

def RlcAmStatusPdu.canonical (pdu : RlcAmStatusPdu) : RlcAmStatusPdu :=
  { pdu with nacks := pdu.nacks.map RlcAmStatusNack.canonical }

theorem length_le_nacksSize (snSize : RlcAmSnSize) (nacks : List RlcAmStatusNack) :
    nacks.length ≤ nacksSize snSize nacks := by
  induction nacks with
  | nil => exact le_rfl
  | cons nack rest ih =>
    have hpos : 0 < nackSize snSize nack := by
      have hsn : 0 < sizeofNackSnExt snSize := by cases snSize <;> decide
      rw [nackSize]
      omega
    rw [List.length_cons, nacksSize_cons]
    omega

variable {pdu target : RlcAmStatusPdu}
variable {unpackNackSn : List UInt8 → Except UnpackError (NackSnExt × List UInt8)}

theorem unpackNacks_packNacks (packNackSn : Bool → RlcAmStatusNack → List UInt8)
    (hlen : ∀ e1 nack, (packNackSn e1 nack).length = sizeofNackSnExt snSize)
    (hsn : ∀ (e1 : Bool) (nack : RlcAmStatusNack), nack.InRange snSize → ∀ rest,
      unpackNackSn (packNackSn e1 nack ++ rest) =
        .ok (⟨nack.nackSn, e1, nack.hasSo, nack.hasNackRange⟩, rest)) (hpdu : PduInv snSize pdu)
    (htarget : target.snSize = snSize) :
    unpackNacks unpackNackSn ((packNacks packNackSn pdu.nacks).length + 1) (!pdu.nacks.isEmpty)
      (target.reset.setAckSn pdu.ackSn) (packNacks packNackSn pdu.nacks) = .ok pdu.canonical := by
  have hsame : (target.reset.setAckSn pdu.ackSn).snSize = pdu.snSize :=
    htarget.trans hpdu.snSize_eq.symm
  rw [unpackNacks_pack hsn _ hpdu.inRange]
  · obtain ⟨psize, nacks, packedSize, ackSn⟩ := pdu
    have hsync := hpdu.sizeInSync
    simp only [SizeInSync, refreshedSize] at hsync
    subst hsync
    simp only [setAckSn, snSize_reset] at hsame
    simp only [RlcAmStatusPdu.canonical, setAckSn, snSize_reset, nacks_reset, packedSize_reset,
      List.nil_append, hsame]
  · have hchain := hpdu.unmerged
    rw [show (target.reset.setAckSn pdu.ackSn).nacks = [] from rfl, List.nil_append,
      List.isChain_map]
    simp only [canBeMerged_canonical, canBeMerged_congr hsame]
    exact hchain
  · rw [length_packNacks snSize hlen]
    have := length_le_nacksSize snSize pdu.nacks
    omega

theorem unpack12bit_pack (hpdu : PduInv .size12bits pdu)
    (htarget : target.snSize = .size12bits) (hack : pdu.ackSn < cardinality 12) :
    unpack12bit target (pack12bit pdu) = .ok pdu.canonical := by
  have hlt : pdu.ackSn < 4096 := hack
  have hlow : pdu.ackSn % 256 < 256 := Nat.mod_lt _ (by decide)
  have hhigh : pdu.ackSn >>> 8 = pdu.ackSn / 256 := Nat.shiftRight_eq_div_pow _ 8
  obtain ⟨hdc, hcpt, hval⟩ := headerByte ⟨pdu.ackSn / 256 % 16, Nat.mod_lt _ (by decide)⟩
  have hjoin : (pdu.ackSn / 256 % 16) <<< 8 ||| pdu.ackSn % 256 % 256 = pdu.ackSn := by
    rw [shiftLeft_lor_eq (by omega)]
    omega
  have he1 : ((if pdu.nacks.isEmpty then 0x00 else 0x80 : UInt8).toNat &&& 0x80 != 0) =
      !pdu.nacks.isEmpty := by
    cases pdu.nacks.isEmpty <;> decide
  have hreserved : (if pdu.nacks.isEmpty then 0x00 else 0x80 : UInt8).toNat &&& 0x7f = 0 := by
    cases pdu.nacks.isEmpty <;> decide
  rw [unpack12bit, pack12bit, land_nibble, land_byte, hhigh, isControlPdu]
  simp only [List.cons_append, List.nil_append, readByte_cons, ok_bind, hdc, hcpt, hval]
  rw [if_neg (by simp [sizeofHeaderAckSn])]
  simp only [pure_bind, Bool.not_true, Bool.false_eq_true, if_false, ne_eq, not_true_eq_false,
    hreserved, he1, toNat_ofNat_byte hlow, land_byte, hjoin]
  exact unpackNacks_packNacks packNackSn12bit (fun _ _ => rfl)
    (fun e1 nack hnack rest => unpackNackSn12bit_pack e1 hnack.nackSn rest) hpdu htarget

theorem unpack18bit_pack (hpdu : PduInv .size18bits pdu)
    (htarget : target.snSize = .size18bits) (hack : pdu.ackSn < cardinality 18) :
    unpack18bit target (pack18bit pdu) = .ok pdu.canonical := by
  have hlt : pdu.ackSn < 262144 := hack
  have hlow : pdu.ackSn % 64 < 64 := Nat.mod_lt _ (by decide)
  have hhigh : pdu.ackSn >>> 14 = pdu.ackSn / 16384 := Nat.shiftRight_eq_div_pow _ 14
  have hmid : pdu.ackSn >>> 6 = pdu.ackSn / 64 := Nat.shiftRight_eq_div_pow _ 6
  have hmask : (pdu.ackSn <<< 2) &&& 0xfc = (pdu.ackSn % 64) <<< 2 :=
    shiftLeft_land_mask pdu.ackSn 2 6
  obtain ⟨hdc, hcpt, hval⟩ := headerByte ⟨pdu.ackSn / 16384 % 16, Nat.mod_lt _ (by decide)⟩
  obtain ⟨hreserved, hackLow, he1⟩ := ackFlags18bit ⟨pdu.ackSn % 64, hlow⟩ pdu.nacks.isEmpty
  have hjoin : (pdu.ackSn / 16384 % 16) <<< 14 ||| (pdu.ackSn / 64 % 256 % 256) <<< 6 |||
      pdu.ackSn % 64 = pdu.ackSn := by
    have hlower : (pdu.ackSn / 64 % 256 % 256) <<< 6 ||| pdu.ackSn % 64 =
        pdu.ackSn / 64 % 256 % 256 * 2 ^ 6 + pdu.ackSn % 64 := shiftLeft_lor_eq hlow
    rw [Nat.lor_assoc, hlower, shiftLeft_lor_eq (by omega)]
    omega
  rw [unpack18bit, pack18bit, land_nibble, land_byte, hmask, hhigh, hmid, isControlPdu]
  simp only [List.cons_append, List.nil_append, readByte_cons, ok_bind, hdc, hcpt, hval]
  rw [if_neg (by simp [sizeofHeaderAckSn])]
  simp only [pure_bind, Bool.not_true, Bool.false_eq_true, if_false, ne_eq, not_true_eq_false,
    hreserved, he1, hackLow, toNat_ofNat_byte (Nat.mod_lt (pdu.ackSn / 64) (by decide : 256 > 0)),
    land_byte, hjoin]
  exact unpackNacks_packNacks packNackSn18bit (fun _ _ => rfl)
    (fun e1 nack hnack rest => unpackNackSn18bit_pack e1 hnack.nackSn rest) hpdu htarget

theorem unpack_pack (hpdu : PduInv snSize pdu)
    (htarget : target.snSize = snSize) (hack : pdu.ackSn < cardinality snSize.toNumber) :
    target.unpack pdu.pack = .ok pdu.canonical := by
  rw [RlcAmStatusPdu.unpack, RlcAmStatusPdu.pack, htarget, hpdu.snSize_eq]
  cases snSize with
  | size12bits => exact unpack12bit_pack hpdu htarget hack
  | size18bits => exact unpack18bit_pack hpdu htarget hack

/-- Neither a read past the end nor an endless loop. -/
def NoFault {α : Type} (result : Except UnpackError α) : Prop :=
  Ensures (fun e => e.isFault = false) (fun _ => True) result

/-- A reading step does not fault, and consumes at least `k` bytes when it succeeds. -/
def Reads {α : Type} (k : Nat) (bytes : List UInt8)
    (result : Except UnpackError (α × List UInt8)) : Prop :=
  Ensures (fun e => e.isFault = false) (fun p => p.2.length + k ≤ bytes.length) result

theorem Reads.error {α : Type} {k : Nat} {bytes : List UInt8} {e : UnpackError}
    (h : e.isFault = false) :
    Reads k bytes (.error e : Except UnpackError (α × List UInt8)) := h

theorem Reads.ok {α : Type} {k : Nat} {bytes rest : List UInt8} (a : α)
    (h : rest.length + k ≤ bytes.length) : Reads k bytes (.ok (a, rest)) := h

theorem reads_unpackNackSn12bit (bytes : List UInt8) : Reads 1 bytes (unpackNackSn12bit bytes) := by
  match bytes with
  | [] => exact .error rfl
  | [_] => exact .error rfl
  | b0 :: b1 :: rest =>
    rw [unpackNackSn12bit, if_neg (by simp [sizeofNackSnExt])]
    simp only [readByte_cons, ok_bind]
    split
    · exact .error rfl
    · exact .ok _ (by simp only [List.length_cons]; omega)

theorem reads_unpackNackSn18bit (bytes : List UInt8) : Reads 1 bytes (unpackNackSn18bit bytes) := by
  match bytes with
  | [] => exact .error rfl
  | [_] => exact .error rfl
  | [_, _] => exact .error rfl
  | b0 :: b1 :: b2 :: rest =>
    rw [unpackNackSn18bit, if_neg (by simp [sizeofNackSnExt])]
    simp only [readByte_cons, ok_bind]
    split
    · exact .error rfl
    · exact .ok _ (by simp only [List.length_cons]; omega)

theorem reads_unpackNackSo (e2 : Bool) (nack : RlcAmStatusNack) (bytes : List UInt8) :
    Reads 0 bytes (unpackNackSo e2 nack bytes) := by
  cases e2 with
  | false => exact .ok nack le_rfl
  | true =>
    match bytes with
    | [] => exact .error rfl
    | [_] => exact .error rfl
    | [_, _] => exact .error rfl
    | [_, _, _] => exact .error rfl
    | b0 :: b1 :: b2 :: b3 :: rest =>
      rw [unpackNackSo, if_neg (by simp), if_neg (by simp [sizeofNackSo])]
      exact .ok _ (by simp only [List.length_cons]; omega)

theorem reads_unpackNackRange (e3 : Bool) (nack : RlcAmStatusNack) (bytes : List UInt8) :
    Reads 0 bytes (unpackNackRange e3 nack bytes) := by
  cases e3 with
  | false => exact .ok nack le_rfl
  | true =>
    match bytes with
    | [] => exact .error rfl
    | b0 :: rest =>
      rw [unpackNackRange, if_neg (by simp), if_neg (by simp [sizeofNackRange])]
      exact .ok _ (by simp only [List.length_cons]; omega)

/-- Each round consumes a byte, so the loop ends before the fuel does. -/
theorem unpackNacks_noFault
    (hsn : ∀ bytes, Reads 1 bytes (unpackNackSn bytes)) {fuel : Nat} {e1 : Bool}
    {pdu : RlcAmStatusPdu} {bytes : List UInt8} (hfuel : bytes.length < fuel) :
    NoFault (unpackNacks unpackNackSn fuel e1 pdu bytes) := by
  induction fuel generalizing e1 pdu bytes with
  | zero => omega
  | succ fuel ih =>
    cases e1 with
    | false => exact trivial
    | true =>
      rw [unpackNacks]
      refine Ensures.bind (hsn bytes) fun (ext, rest) hrest => ?_
      refine Ensures.bind (reads_unpackNackSo _ _ rest) fun (nack, restSo) hso => ?_
      refine Ensures.bind (reads_unpackNackRange _ _ restSo) fun (nack', restRange) hrange => ?_
      dsimp only at hrest hso hrange
      exact ih (by omega)

theorem noFault_error {α : Type} {e : UnpackError} (h : e.isFault = false) :
    NoFault (.error e : Except UnpackError α) := h

theorem unpack_noFault (pdu : RlcAmStatusPdu) (bytes : List UInt8) :
    NoFault (pdu.unpack bytes) := by
  unfold RlcAmStatusPdu.unpack
  match bytes with
  | [] | [_] | [_, _] => cases pdu.snSize <;> exact noFault_error rfl
  | b0 :: b1 :: b2 :: rest =>
    cases pdu.snSize with
    | size12bits | size18bits =>
      dsimp only
      first
      | rw [unpack12bit, if_neg (by simp [sizeofHeaderAckSn]), isControlPdu]
      | rw [unpack18bit, if_neg (by simp [sizeofHeaderAckSn]), isControlPdu]
      simp only [readByte_cons, ok_bind, pure_bind]
      split
      · exact noFault_error rfl
      · split
        · exact noFault_error rfl
        · split
          · exact noFault_error rfl
          · first
            | exact unpackNacks_noFault reads_unpackNackSn12bit (Nat.lt_succ_self _)
            | exact unpackNacks_noFault reads_unpackNackSn18bit (Nat.lt_succ_self _)

theorem canonical_eq_self {pdu : RlcAmStatusPdu}
    (h : ∀ nack ∈ pdu.nacks, nack.canonical = nack) : pdu.canonical = pdu := by
  rw [RlcAmStatusPdu.canonical, List.map_congr_left h, List.map_id']

/-- The status PDU codec: the bytes written are as many as the maintained packed size says,
decoding them returns the PDU (with the constructor's values in fields that are absent on the wire,
hence the very same PDU when it has them already), and decoding any bytes at all ends without
reading past their end. -/
theorem statusPdu_codec (snSize : RlcAmSnSize) (pdu target : RlcAmStatusPdu)
    (hbuilt : Built snSize pdu) (htarget : target.snSize = snSize)
    (hack : pdu.ackSn < cardinality snSize.toNumber) :
    target.unpack pdu.pack = .ok pdu.canonical ∧
    ((∀ nack ∈ pdu.nacks, nack.canonical = nack) → target.unpack pdu.pack = .ok pdu) ∧
    pdu.pack.length = pdu.packedSize ∧
    ∀ bytes, NoFault (target.unpack bytes) := by
  have hround := unpack_pack hbuilt.inv htarget hack
  refine ⟨hround, ?_, length_pack hbuilt.inv.sizeInSync, unpack_noFault target⟩
  intro hcanonical
  rw [hround, canonical_eq_self hcanonical]

/-- A report with a merged range and a segment, as built by the receiver. -/
def sampleStatus : RlcAmStatusPdu :=
  (((({ snSize := .size18bits } : RlcAmStatusPdu).pushNack { nackSn := 262143 }).pushNack
    { nackSn := 0, hasSo := true, soStart := 0, soEnd := 4 }).pushNack
    { nackSn := 0, hasSo := true, soStart := 10, soEnd := soEndOfSdu }).setAckSn 1

theorem sampleStatus_codec :
    sampleStatus.nacks.length = 2 ∧
      ({ snSize := .size18bits } : RlcAmStatusPdu).unpack sampleStatus.pack = .ok sampleStatus := by
  refine ⟨by decide, ?_⟩
  have hbuilt : Built .size18bits sampleStatus :=
    .setAckSn 1 (.pushNack (.pushNack (.pushNack .init ⟨by decide, by decide, by decide, by decide⟩)
      ⟨by decide, by decide, by decide, by decide⟩) ⟨by decide, by decide, by decide, by decide⟩)
  exact (statusPdu_codec .size18bits sampleStatus { snSize := .size18bits } hbuilt rfl
    (by decide)).2.1 (by decide)

end Srsran.Rlc
