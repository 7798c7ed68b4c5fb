import Mathlib.Tactic.IntervalCases
import Mathlib.Tactic.LinearCombination
import Srsran.Lib.Gf2
import Srsran.Phy.CrcCalculatorLut

/-! The checksums are remainders of polynomials over GF(2). -/
namespace Srsran.Phy
open Srsran.Adt Checked Gf2 Polynomial CrcTable

namespace CrcTable

noncomputable def generator (table : CrcTable) : (ZMod 2)[X] := ofNat table.polynom.toNat

/-- A table of a polynomial of an order that is supported. -/
structure Supported (table : CrcTable) : Prop where
  eight_lt : 8 < table.order
  order_le : table.order ≤ 24
  generates : Generator table.polynom.toNat table.order
  create : table = create table.polynom table.order

theorem crcmask_create (polynom : BitVec 32) {order : Nat} (hpos : 8 < order) (hle : order ≤ 24) :
    (create polynom order).crcmask.toNat = 2 ^ order - 1 := by
  simp only [create]
  interval_cases order <;> rfl

theorem Supported.crcmask {table : CrcTable} (h : table.Supported) :
    table.crcmask.toNat = 2 ^ table.order - 1 := by
  have hmask := crcmask_create table.polynom h.eight_lt h.order_le
  rwa [← h.create] at hmask

end CrcTable

theorem supported_of_crcTables {poly : CrcGeneratorPoly} {table : CrcTable} (h : crcTables poly = some table) :
    table.Supported := by
  have hcreate {polynom : BitVec 32} {order : Nat} (hpos : 8 < order) (hle : order ≤ 24)
      (hgenerates : Generator polynom.toNat order) (htable : some (create polynom order) = some table) :
      table.Supported := by
    obtain rfl := Option.some.inj htable
    exact ⟨hpos, hle, hgenerates, rfl⟩
  cases poly with
  | crc6 => exact absurd h nofun
  | crc24A => exact hcreate (by decide) (by decide) ⟨by decide, by decide, by decide, by decide⟩ h
  | crc24B => exact hcreate (by decide) (by decide) ⟨by decide, by decide, by decide, by decide⟩ h
  | crc24C => exact hcreate (by decide) (by decide) ⟨by decide, by decide, by decide, by decide⟩ h
  | crc16 => exact hcreate (by decide) (by decide) ⟨by decide, by decide, by decide, by decide⟩ h
  | crc11 => exact hcreate (by decide) (by decide) ⟨by decide, by decide, by decide, by decide⟩ h

namespace CrcTable
variable {table : CrcTable}

theorem toNat_getChecksum (h : table.Supported) (crc : BitVec 32) :
    (table.getChecksum crc).toNat = crc.toNat % 2 ^ table.order := by
  rw [getChecksum, BitVec.toNat_and, h.crcmask, Nat.and_two_pow_sub_one_eq_mod]

theorem shiftLoop_spec {P r : Nat} (hP : Generator P r) (hr : r ≤ 24) {polynom : BitVec 64}
    (hpolynom : polynom.toNat = P) (turns : Nat) {remainder : BitVec 64} (hlt : remainder.toNat < 2 ^ r) :
    (shiftLoop polynom (1#64 <<< (r - 1)) turns remainder).toNat < 2 ^ r ∧
      AdjoinRoot.mk (ofNat P) (ofNat (shiftLoop polynom (1#64 <<< (r - 1)) turns remainder).toNat) =
        AdjoinRoot.mk (ofNat P) (ofNat remainder.toNat * X ^ turns) := by
  induction turns generalizing remainder with
  | zero => exact ⟨hlt, by rw [shiftLoop, pow_zero, mul_one]⟩
  | succ turns ih =>
    have hpos := hP.pos
    have hbit : (remainder &&& 1#64 <<< (r - 1) = 0) ↔ remainder.toNat.testBit (r - 1) = false := by
      have hlt' : 2 ^ (r - 1) < 2 ^ 64 := Nat.pow_lt_pow_right (by decide) (by omega)
      rw [← BitVec.toNat_inj, BitVec.toNat_and, BitVec.toNat_shiftLeft, BitVec.toNat_one (by decide),
        Nat.one_shiftLeft, Nat.mod_eq_of_lt hlt', Nat.and_two_pow]
      cases remainder.toNat.testBit (r - 1) <;> simp
    have hshift : (remainder <<< 1).toNat = remainder.toNat <<< 1 := by
      have hle : 2 ^ r ≤ 2 ^ 24 := Nat.pow_le_pow_right (by decide) hr
      rw [BitVec.toNat_shiftLeft, Nat.mod_eq_of_lt]
      rw [Nat.shiftLeft_eq]
      omega
    have hnext (next : BitVec 64) (heq : next.toNat = shiftReduce P r remainder.toNat) :
        (shiftLoop polynom (1#64 <<< (r - 1)) turns next).toNat < 2 ^ r ∧
          AdjoinRoot.mk (ofNat P) (ofNat (shiftLoop polynom (1#64 <<< (r - 1)) turns next).toNat) =
            AdjoinRoot.mk (ofNat P) (ofNat remainder.toNat * X ^ (turns + 1)) := by
      obtain ⟨hresult, hmk⟩ := ih (heq ▸ hP.shiftReduce_lt hlt)
      refine ⟨hresult, hmk.trans ?_⟩
      rw [heq, map_mul, mk_shiftReduce, ← map_mul, mul_assoc, ← pow_succ']
    rw [shiftLoop]
    split
    · next hzero =>
        apply hnext
        rw [shiftReduce, hbit.mp hzero, hshift]
        rfl
    · next hone =>
        apply hnext
        rw [shiftReduce, if_pos (by simpa using mt hbit.mpr hone), BitVec.toNat_xor, hshift, hpolynom]

theorem entries_create (polynom : BitVec 32) {order : Nat} (hpos : 8 < order) (idx : BitVec 8) :
    (create polynom order).entries.get idx.toFin =
      (shiftLoop (polynom.setWidth 64) (1#64 <<< (order - 1)) 8
        (BitVec.ofNat 64 idx.toNat <<< (order - 8))).setWidth 32 &&& (create polynom order).crcmask := by
  have hpad : ¬order < 8 := Nat.not_lt.mpr (Nat.le_of_lt hpos)
  have hget {α : Type} {n : Nat} (f : Fin n → α) (i : Fin n) : (Vector.ofFn f).get i = f i := by
    simp only [Vector.get, Vector.toArray_ofFn, Array.getElem_ofFn]
    rfl
  simp only [create, hget, if_neg hpad, Nat.add_zero, BitVec.ushiftRight_zero, BitVec.val_toFin]

theorem entry_spec (h : table.Supported) (idx : BitVec 8) :
    (table.entries.get idx.toFin).toNat < 2 ^ table.order ∧
      AdjoinRoot.mk table.generator (ofNat (table.entries.get idx.toFin).toNat) =
        AdjoinRoot.mk table.generator (ofNat idx.toNat * X ^ table.order) := by
  have hpos := h.eight_lt
  have hmax : 2 ^ table.order ≤ 2 ^ 24 := Nat.pow_le_pow_right (by decide) h.order_le
  have hlt : idx.toNat <<< (table.order - 8) < 2 ^ table.order := by
    rw [Nat.shiftLeft_eq]
    calc idx.toNat * 2 ^ (table.order - 8) < 2 ^ 8 * 2 ^ (table.order - 8) :=
          Nat.mul_lt_mul_of_pos_right idx.isLt (Nat.two_pow_pos _)
      _ = 2 ^ table.order := by rw [← Nat.pow_add, Nat.add_sub_cancel' (Nat.le_of_lt hpos)]
  have hstart : (BitVec.ofNat 64 idx.toNat <<< (table.order - 8)).toNat = idx.toNat <<< (table.order - 8) := by
    have hidx := idx.isLt
    rw [BitVec.toNat_shiftLeft, BitVec.toNat_ofNat, Nat.mod_eq_of_lt (by omega : idx.toNat < 2 ^ 64),
      Nat.mod_eq_of_lt (by omega)]
  have hpolynom : (table.polynom.setWidth 64).toNat = table.polynom.toNat := by
    have hlt := table.polynom.isLt
    rw [BitVec.toNat_setWidth, Nat.mod_eq_of_lt (by omega)]
  obtain ⟨hloop, hmk⟩ := shiftLoop_spec h.generates h.order_le hpolynom 8 (hstart ▸ hlt)
  have hentry : (table.entries.get idx.toFin).toNat =
      (shiftLoop (table.polynom.setWidth 64) (1#64 <<< (table.order - 1)) 8
        (BitVec.ofNat 64 idx.toNat <<< (table.order - 8))).toNat := by
    have hcreate := entries_create table.polynom hpos idx
    rw [← h.create] at hcreate
    rw [hcreate, BitVec.toNat_and, h.crcmask, Nat.and_two_pow_sub_one_eq_mod, BitVec.toNat_setWidth,
      Nat.mod_eq_of_lt (by omega : _ < 2 ^ 32), Nat.mod_eq_of_lt hloop]
  refine ⟨hentry ▸ hloop, ?_⟩
  rw [hentry, generator, hmk, hstart, ofNat_shiftLeft, mul_assoc, ← pow_add, Nat.sub_add_cancel (Nat.le_of_lt hpos)]

/-! The register after some bits of the message. -/

/-- The register holds the remainder of the bits. -/
def Holds (table : CrcTable) (bits : List Bool) (crc : BitVec 32) : Prop :=
  AdjoinRoot.mk table.generator (ofNat (crc.toNat % 2 ^ table.order)) =
    AdjoinRoot.mk table.generator (ofBits bits * X ^ table.order)

theorem holds_nil (table : CrcTable) : table.Holds [] 0 := by
  simp [Holds]

variable {bits : List Bool} {crc : BitVec 32}

theorem Holds.putByte (h : table.Supported) (hcrc : table.Holds bits crc) (byte : BitVec 8) :
    table.Holds (bits ++ bitsOf byte.toNat 8) (table.putByte crc byte) := by
  have hpos := h.eight_lt
  have hle := h.order_le
  obtain ⟨k, horder⟩ : ∃ k, table.order = k + 8 := ⟨table.order - 8, by omega⟩
  have hput : table.putByte crc byte =
      crc <<< 8 ^^^ table.entries.get ((crc >>> k).setWidth 8 ^^^ byte).toFin := by
    rw [CrcTable.putByte]
    by_cases h24 : table.order = 24
    · rw [if_pos h24, show k = 16 by omega]
    · rw [if_neg h24, if_pos hpos, show table.order - 8 = k by omega]
  obtain ⟨hlt, hmk⟩ := entry_spec h ((crc >>> k).setWidth 8 ^^^ byte)
  generalize table.entries.get ((crc >>> k).setWidth 8 ^^^ byte).toFin = entry at hput hlt hmk
  -- the high byte of the register leaves it, the low bits move up
  have hregister : (table.putByte crc byte).toNat % 2 ^ table.order =
      (crc.toNat % 2 ^ k) <<< 8 ^^^ entry.toNat := by
    apply Nat.eq_of_testBit_eq
    intro i
    rw [hput, Nat.testBit_mod_two_pow, BitVec.toNat_xor, BitVec.toNat_shiftLeft, Nat.testBit_xor, Nat.testBit_xor,
      Nat.testBit_mod_two_pow, Nat.testBit_shiftLeft, Nat.testBit_shiftLeft, Nat.testBit_mod_two_pow]
    by_cases hi : i < table.order
    · simp [hi, show i < 32 by omega, show i - 8 < k by omega]
    · have hentry := Nat.testBit_lt_two_pow
        (Nat.lt_of_lt_of_le hlt (Nat.pow_le_pow_right (by decide) (Nat.le_of_not_lt hi)))
      simp [hi, show ¬i - 8 < k by omega, hentry]
  have hidx : ((crc >>> k).setWidth 8 ^^^ byte).toNat = (crc.toNat % 2 ^ table.order) >>> k ^^^ byte.toNat := by
    rw [BitVec.toNat_xor, BitVec.toNat_setWidth, BitVec.toNat_ushiftRight]
    congr 1
    apply Nat.eq_of_testBit_eq
    intro i
    rw [Nat.testBit_mod_two_pow, Nat.testBit_shiftRight, Nat.testBit_shiftRight, Nat.testBit_mod_two_pow]
    simp [horder]
  have hsplit := ofNat_split (crc.toNat % 2 ^ table.order) k
  rw [Nat.mod_mod_of_dvd _ (Nat.pow_dvd_pow 2 (by omega))] at hsplit
  have hbits : ofBits (bitsOf byte.toNat 8) = ofNat byte.toNat := by
    rw [ofBits_bitsOf, Nat.mod_eq_of_lt byte.isLt]
  rw [Holds, hsplit] at hcrc
  rw [Holds, hregister, ofNat_xor, map_add, hmk, hidx, ofNat_shiftLeft, ofNat_xor, ofBits_append, hbits, length_bitsOf]
  simp only [map_add, map_mul, map_pow, horder, pow_add] at hcrc ⊢
  linear_combination AdjoinRoot.mk table.generator X ^ 8 * hcrc

theorem Holds.getChecksum (h : table.Supported) (hcrc : table.Holds bits crc) :
    ofNat (table.getChecksum crc).toNat = (ofBits bits * X ^ table.order) %ₘ table.generator := by
  apply eq_modByMonic h.generates.monic
  · rw [toNat_getChecksum h, h.generates.degree]
    exact degree_ofNat_lt (Nat.mod_lt _ (Nat.two_pow_pos _))
  · rw [toNat_getChecksum h]
    exact hcrc

theorem reversecrcbitLoop_spec {P r : Nat} (hP : Generator P r) {polynom : BitVec 32}
    (hpolynom : polynom.toNat = P) (turns : Nat) (hlt : crc.toNat < 2 ^ r) :
    (reversecrcbitLoop polynom turns crc).toNat < 2 ^ r ∧
      AdjoinRoot.mk (ofNat P) (ofNat (reversecrcbitLoop polynom turns crc).toNat * X ^ turns) =
        AdjoinRoot.mk (ofNat P) (ofNat crc.toNat) := by
  induction turns generalizing crc with
  | zero => exact ⟨hlt, by rw [reversecrcbitLoop, pow_zero, mul_one]⟩
  | succ turns ih =>
    have hbit : (1 &&& crc = 1) ↔ crc.toNat.testBit 0 = true := by
      have hone : (1 : BitVec 32).toNat = 1 := rfl
      rw [← BitVec.toNat_inj, BitVec.toNat_and, hone, Nat.and_comm, Nat.and_one_is_mod, Nat.testBit_zero,
        decide_eq_true_eq]
    have hnext (next : BitVec 32) (heq : next.toNat = unshiftReduce P crc.toNat) :
        (reversecrcbitLoop polynom turns next).toNat < 2 ^ r ∧
          AdjoinRoot.mk (ofNat P) (ofNat (reversecrcbitLoop polynom turns next).toNat * X ^ (turns + 1)) =
            AdjoinRoot.mk (ofNat P) (ofNat crc.toNat) := by
      obtain ⟨hresult, hmk⟩ := ih (heq ▸ hP.unshiftReduce_lt hlt)
      refine ⟨hresult, ?_⟩
      rw [pow_succ, ← mul_assoc, map_mul, hmk, heq, ← map_mul, hP.mk_unshiftReduce]
    rw [reversecrcbitLoop]
    split
    · next hone =>
        apply hnext
        rw [unshiftReduce, if_pos (hbit.mp hone), BitVec.toNat_ushiftRight, BitVec.toNat_xor, hpolynom]
    · next hzero =>
        apply hnext
        rw [unshiftReduce, if_neg (mt hbit.mpr hzero), BitVec.toNat_ushiftRight]

theorem Holds.reversecrcbit (h : table.Supported) {nbits : Nat}
    (hcrc : table.Holds (bits ++ List.replicate nbits false) crc) :
    table.Holds bits (table.reversecrcbit (table.getChecksum crc) nbits) := by
  have hlt : (table.getChecksum crc).toNat < 2 ^ table.order := by
    rw [toNat_getChecksum h]
    exact Nat.mod_lt _ (Nat.two_pow_pos _)
  obtain ⟨hresult, hmk⟩ := reversecrcbitLoop_spec h.generates rfl nbits hlt
  have hmask : table.reversecrcbit (table.getChecksum crc) nbits =
      table.getChecksum (reversecrcbitLoop table.polynom nbits (table.getChecksum crc)) := rfl
  rw [Holds, hmask, toNat_getChecksum h, Nat.mod_mod, Nat.mod_eq_of_lt hresult]
  apply h.generates.mul_X_cancel
  rw [toNat_getChecksum h] at hmk
  rw [hmk]
  refine Eq.trans hcrc ?_
  rw [ofBits_append, ofBits_replicate_false, add_zero, List.length_replicate, mul_right_comm]
  rfl

def byteBits (byte : BitVec 8) : List Bool := bitsOf byte.toNat 8

def checksumBits (table : CrcTable) (crc : BitVec 32) : List Bool := bitsOf crc.toNat table.order

/-- The remainder of a string times `X ^ order`. -/
noncomputable def remainder (table : CrcTable) (bits : List Bool) : (ZMod 2)[X] :=
  (ofBits bits * X ^ table.order) %ₘ table.generator

theorem Holds.putBytes (h : table.Supported) (hcrc : table.Holds bits crc) (bytes : List (BitVec 8)) :
    table.Holds (bits ++ bytes.flatMap byteBits) (bytes.foldl table.putByte crc) := by
  induction bytes generalizing bits crc with
  | nil => simpa using hcrc
  | cons byte bytes ih =>
    rw [List.flatMap_cons, ← List.append_assoc, List.foldl_cons]
    exact ih (hcrc.putByte h byte)

theorem calculateByte_eq (h : table.Supported) (input : List (BitVec 8)) :
    ofNat (table.calculateByte input).toNat = table.remainder (input.flatMap byteBits) :=
  ((holds_nil table).putBytes h input).getChecksum h

/-- The string with its checksum is a multiple of the generator. -/
theorem remainder_append_checksum (h : table.Supported)
    (hcrc : ofNat crc.toNat = table.remainder bits) :
    table.remainder (bits ++ table.checksumBits crc) = 0 := by
  have hmonic : table.generator.Monic := h.generates.monic
  have hlt : crc.toNat < 2 ^ table.order := by
    apply lt_two_pow_of_degree_lt
    rw [hcrc, ← h.generates.degree]
    exact degree_modByMonic_lt _ hmonic
  have hcrcBits : ofBits (table.checksumBits crc) = table.remainder bits := by
    rw [checksumBits, ofBits_bitsOf, Nat.mod_eq_of_lt hlt, hcrc]
  have hdvd : table.generator ∣ ofBits bits * X ^ table.order + table.remainder bits := by
    rw [← CharTwo.sub_eq_add, remainder, modByMonic_eq_sub_mul_div, sub_sub_cancel]
    exact dvd_mul_right _ _
  rw [remainder, modByMonic_eq_zero_iff_dvd hmonic, ofBits_append, hcrcBits, checksumBits, length_bitsOf]
  exact hdvd.mul_right _

variable {f : Nat → Bool}

/-- A byte, the first bits of which are the next ones of the string. -/
theorem append_byteBits {n count : Nat} (hcount : count ≤ 8) {byte : BitVec 8}
    (hbyte : ∀ k < 8, byte.getLsbD (7 - k) = (decide (k < count) && f (n + k))) :
    (List.range n).map f ++ byteBits byte =
      (List.range (n + count)).map f ++ List.replicate (8 - count) false := by
  have hbits : byteBits byte = (List.range 8).map fun k => byte.getLsbD (7 - k) := rfl
  have hrange : List.range 8 = List.range count ++ (List.range (8 - count)).map (count + ·) := by
    rw [← List.range_add, Nat.add_sub_cancel' hcount]
  rw [hbits, List.range_add, List.map_append, List.append_assoc, hrange, List.map_append, List.map_map, List.map_map]
  congr 2
  · apply List.map_congr_left
    intro k hk
    have hk := List.mem_range.mp hk
    rw [hbyte k (by omega), decide_eq_true hk, Bool.true_and]
    rfl
  · rw [List.eq_replicate_iff]
    refine ⟨by simp, ?_⟩
    intro bit hbit
    obtain ⟨k, hk, rfl⟩ := List.mem_map.mp hbit
    have hk := List.mem_range.mp hk
    simp [hbyte (count + k) (by omega)]

section
variable (h : table.Supported)
include h

theorem Holds.putFirst {n count : Nat} (hcount : count ≤ 8)
    (hcrc : table.Holds ((List.range n).map f) crc) {byte : BitVec 8}
    (hbyte : ∀ k < 8, byte.getLsbD (7 - k) = (decide (k < count) && f (n + k))) :
    table.Holds ((List.range (n + count)).map f ++ List.replicate (8 - count) false) (table.putByte crc byte) := by
  rw [← append_byteBits hcount hbyte]
  exact hcrc.putByte h byte

/-- A loop over full bytes. -/
theorem Holds.putAll (f : Nat → Bool) (byteAt : Nat → BitVec 8) {nbytes : Nat}
    (hbyte : ∀ i < nbytes, ∀ k < 8, (byteAt i).getLsbD (7 - k) = f (i * 8 + k)) :
    table.Holds ((List.range (nbytes * 8)).map f)
      ((List.range nbytes).foldl (fun crc i => table.putByte crc (byteAt i)) 0) := by
  induction nbytes with
  | zero => simpa using holds_nil table
  | succ nbytes ih =>
    rw [List.range_succ, List.foldl_append, Nat.succ_mul]
    have hloop := ih fun i hi => hbyte i (Nat.lt_succ_of_lt hi)
    simpa using hloop.putFirst h (Nat.le_refl 8) fun k hk => by
      rw [hbyte nbytes (Nat.lt_succ_self _) k hk, decide_eq_true hk, Bool.true_and]

/-- The end of both calculators, with `res8` bits left over. -/
theorem Holds.finish {n res8 : Nat} (hres : res8 < 8) {crc : BitVec 32}
    (hcrc : table.Holds ((List.range n).map f) crc) {byte : BitVec 8}
    (hbyte : ∀ k < 8, byte.getLsbD (7 - k) = (decide (k < res8) && f (n + k))) :
    ofNat (table.getChecksum (table.reversecrcbit (table.getChecksum (table.putByte crc byte)) (8 - res8))).toNat =
      table.remainder ((List.range (n + res8)).map f) :=
  ((hcrc.putFirst h (Nat.le_of_lt hres) hbyte).reversecrcbit h).getChecksum h

theorem Holds.finishAligned (hcrc : table.Holds bits crc) :
    ofNat (table.getChecksum (table.getChecksum crc)).toNat = table.remainder bits := by
  rw [toNat_getChecksum h, toNat_getChecksum h, Nat.mod_mod, ← toNat_getChecksum h]
  exact hcrc.getChecksum h

theorem calculate_eq (input : BitBuffer) :
    ∃ crc, table.calculate input = .ok crc ∧ ofNat crc.toNat = table.remainder input.toBits := by
  have hsize := input.size_le
  have hgetByte (i : Nat) (hi : i < input.size / 8) : input.getByte i = .ok (input.byte i) := by
    rw [BitBuffer.getByte, if_pos (by exact hi), BitBuffer.getWord_ok (by omega)]
  have hcrc := @Holds.putAll table h input.bit input.byte (input.size / 8) fun i hi k hk => by
    rw [BitBuffer.bit, show (i * 8 + k) / 8 = i by omega, show (i * 8 + k) % 8 = k by omega]
  rw [calculate, foldlM_of_ok fun i hi crc => by rw [hgetByte i (List.mem_range.mp hi), ok_bind]; rfl, ok_bind]
  by_cases hres : 0 < input.size % 8
  · rw [if_pos hres]
    obtain ⟨word, hword, hbits⟩ := @BitBuffer.extract_ok input (input.size / 8 * 8) _ hres (by omega) (by omega)
    refine ⟨_, by rw [hword]; rfl, ?_⟩
    rw [hcrc.finish h (Nat.mod_lt _ (by decide)) fun k hk => ?_, BitBuffer.toBits, Nat.div_add_mod']
    rw [BitVec.getLsbD_shiftLeft, hbits]
    by_cases hlt : k < input.size % 8
    · have hindex : input.size / 8 * 8 + input.size % 8 - 1 - (7 - k - (8 - input.size % 8)) =
          input.size / 8 * 8 + k := by omega
      rw [hindex]
      grind
    · grind
  · rw [if_neg hres]
    refine ⟨_, rfl, ?_⟩
    rw [hcrc.finishAligned h, BitBuffer.toBits, Nat.div_mul_cancel (by omega)]

end

def unpackedBit (bit : Bool) : BitVec 8 := if bit then 1 else 0

def unpackedBits (bits : List Bool) : List (BitVec 8) := bits.map unpackedBit

theorem foldl_shift (g : Nat → Bool) (n : Nat) (hn : n ≤ 8) {k : Nat} (hk : k < 8) :
    ((List.range n).foldl (fun value i => value ||| unpackedBit (g i) <<< (7 - i)) (0 : BitVec 8)).getLsbD (7 - k) =
      (decide (k < n) && g k) := by
  induction n with
  | zero => simp
  | succ n ih =>
    have hlast : (unpackedBit (g n) <<< (7 - n)).getLsbD (7 - k) = (decide (k = n) && g n) := by
      cases g n <;> simp [unpackedBit, BitVec.getLsbD_one]
      grind
    rw [List.range_succ, List.foldl_append, List.foldl_cons, List.foldl_nil, BitVec.getLsbD_or, ih (by omega), hlast]
    grind

theorem foldl_mask (g : Nat → Bool) (n : Nat) (hn : n ≤ 8) (k : Nat) :
    ((List.range n).foldl (fun mask i => if 0 < (unpackedBit (g i)).toInt then mask ||| 1#8 <<< i else mask)
      0#8).getLsbD k = (decide (k < n) && g k) := by
  induction n with
  | zero => simp
  | succ n ih =>
    rw [List.range_succ, List.foldl_append, List.foldl_cons, List.foldl_nil]
    cases hg : g n with
    | false =>
      rw [if_neg (by decide), ih (by omega)]
      grind
    | true =>
      rw [if_pos (by decide), BitVec.getLsbD_or, ih (by omega)]
      simp [BitVec.getLsbD_one]
      grind

theorem packByte_bits (sse41 : Bool) {elements : List (BitVec 8)} {g : Nat → Bool}
    (h : ∀ k < 8, elements.getD k 0 = unpackedBit (g k)) {k : Nat} (hk : k < 8) :
    (packByte sse41 elements).getLsbD (7 - k) = g k := by
  rw [packByte]
  split
  · have hmask : movemask elements = (List.range 8).foldl
        (fun mask i => if 0 < (unpackedBit (g i)).toInt then mask ||| 1#8 <<< i else mask) 0#8 :=
      List.foldl_ext _ _ _ fun mask i hi => by rw [h i (List.mem_range.mp hi)]
    rw [hmask, BitVec.getLsbD_reverse, BitVec.getMsbD_eq_getLsbD, show 8 - 1 - (7 - k) = k by omega,
      foldl_mask g 8 (Nat.le_refl 8)]
    simp [hk]
    omega
  · have hpack : bitPack elements =
        (List.range 8).foldl (fun value i => value ||| unpackedBit (g i) <<< (7 - i)) 0 :=
      List.foldl_ext _ _ _ fun value i hi => by rw [h i (List.mem_range.mp hi)]
    rw [hpack, foldl_shift g 8 (Nat.le_refl 8) hk, decide_eq_true hk, Bool.true_and]

theorem remainderByte_bits {input : List (BitVec 8)} {iByte res8 : Nat} (hres : res8 < 8) {g : Nat → Bool}
    (h : ∀ k < res8, input.getD ((iByte * 8 + k) % unsignedMod) 0 = unpackedBit (g k)) {k : Nat} (hk : k < 8) :
    (remainderByte input iByte res8).getLsbD (7 - k) = (decide (k < res8) && g k) := by
  have hpack : remainderByte input iByte res8 =
      (List.range res8).foldl (fun value i => value ||| unpackedBit (g i) <<< (7 - i)) 0 :=
    List.foldl_ext _ _ _ fun value i hi => by rw [h i (List.mem_range.mp hi)]
  rw [hpack, foldl_shift g res8 (Nat.le_of_lt hres) hk]

theorem getD_unpackedBits (bits : List Bool) (i : Nat) :
    (unpackedBits bits).getD i 0 = unpackedBit (bits.getD i false) := by
  simp only [unpackedBits, List.getD_eq_getElem?_getD, List.getElem?_map]
  cases bits[i]? <;> rfl

/-- The elements from one on, as the code takes eight of them. -/
theorem getD_take_drop (elements : List (BitVec 8)) (offset : Nat) {k : Nat} (hk : k < 8) :
    ((elements.drop offset).take 8).getD k 0 = elements.getD (offset + k) 0 := by
  simp [List.getD_eq_getElem?_getD, hk]

theorem map_getD (bits : List Bool) : (List.range bits.length).map (fun i => bits.getD i false) = bits := by
  apply List.ext_getElem
  · simp
  · intro i hi hi'
    simp [hi']

theorem calculateBit_eq (h : table.Supported) (sse41 : Bool) (hlength : bits.length ≤ 2 ^ 32) :
    ofNat (table.calculateBit sse41 (unpackedBits bits)).toNat = table.remainder bits := by
  have hmod : unsignedMod = 2 ^ 32 := rfl
  have hsize : (unpackedBits bits).length = bits.length := List.length_map _
  have hnbytes : bits.length / 8 % unsignedMod = bits.length / 8 := Nat.mod_eq_of_lt (by omega)
  have hcrc := @Holds.putAll table h (fun i => bits.getD i false)
    (fun i => packByte sse41 (((unpackedBits bits).drop (8 * i % unsignedMod)).take 8)) (bits.length / 8)
    fun i hi k hk => by
      have hoffset : 8 * i % unsignedMod = 8 * i := Nat.mod_eq_of_lt (by omega)
      rw [Nat.mul_comm i, hoffset]
      refine @packByte_bits sse41 _ (fun k => bits.getD (8 * i + k) false) (fun k hk => ?_) _ hk
      rw [getD_take_drop _ _ hk, getD_unpackedBits]
  rw [calculateBit, putBits]
  simp only [hsize, hnbytes]
  by_cases hres : 0 < bits.length % 8
  · have hturn : bits.length / 8 < (bits.length / 8 + 1) % unsignedMod := by
      rw [hmod]
      omega
    rw [if_pos hres, if_pos hres, if_pos hturn]
    rw [hcrc.finish h (Nat.mod_lt _ (by decide)) fun k hk => ?_, Nat.div_add_mod', map_getD]
    refine @remainderByte_bits _ _ _ (Nat.mod_lt _ (by decide))
      (fun k => bits.getD (bits.length / 8 * 8 + k) false) (fun k hk => ?_) _ hk
    rw [Nat.mod_eq_of_lt (by omega), getD_unpackedBits]
  · have hturn : ¬bits.length / 8 < (bits.length / 8 + 0) % unsignedMod := by
      rw [hmod]
      omega
    rw [if_neg hres, if_neg hres, if_neg hturn, hcrc.finishAligned h, Nat.div_mul_cancel (by omega), map_getD]

/-! A string of which the elements before element `2 ^ 32` are zeros. The calculator does not see the others. -/

theorem Holds.of_zeros (hbits : ofBits bits = 0) {bits' : List Bool} (hbits' : ofBits bits' = 0)
    (hcrc : table.Holds bits crc) : table.Holds bits' crc := by
  rw [Holds, hbits'] at *
  rwa [hbits] at hcrc

theorem Holds.putZero (h : table.Supported) (hcrc : table.Holds [] crc) {byte : BitVec 8}
    (hbyte : ∀ k < 8, byte.getLsbD (7 - k) = false) : table.Holds [] (table.putByte crc byte) := by
  have hzero := @append_byteBits (fun _ => false) 0 8 (Nat.le_refl 8) byte fun k hk => by simp [hbyte k hk]
  refine (hcrc.putByte h byte).of_zeros ?_ rfl
  rw [show [] ++ bitsOf byte.toNat 8 = _ from hzero]
  exact ofBits_replicate_false 8

theorem Holds.ite {p : Prop} [Decidable p] {crc' : BitVec 32} (hcrc : table.Holds bits crc)
    (hcrc' : table.Holds bits crc') : table.Holds bits (if p then crc else crc') := by
  split
  · exact hcrc
  · exact hcrc'

theorem offset_le (i : Nat) : 8 * i % unsignedMod + 8 ≤ unsignedMod := by
  have hmod : unsignedMod = 8 * 2 ^ 29 := rfl
  have hlt : i % 2 ^ 29 < 2 ^ 29 := Nat.mod_lt _ (Nat.two_pow_pos 29)
  rw [hmod, Nat.mul_mod_mul_left]
  omega

theorem calculateBit_of_zeros (h : table.Supported) (sse41 : Bool) {input : List (BitVec 8)}
    (hzeros : ∀ i < unsignedMod, input.getD i 0 = unpackedBit false) :
    ofNat (table.calculateBit sse41 input).toNat = 0 := by
  have hpos : 0 < unsignedMod := Nat.two_pow_pos 32
  have hloop (nbytes : Nat) : table.Holds [] ((List.range nbytes).foldl
      (fun crc i => table.putByte crc (packByte sse41 ((input.drop (8 * i % unsignedMod)).take 8))) 0) := by
    induction nbytes with
    | zero => exact holds_nil table
    | succ nbytes ih =>
      rw [List.range_succ, List.foldl_append]
      refine ih.putZero h fun k hk => @packByte_bits sse41 _ (fun _ => false) (fun k hk => ?_) _ hk
      rw [getD_take_drop _ _ hk]
      exact hzeros _ (Nat.lt_of_lt_of_le (Nat.add_lt_add_left hk _) (offset_le nbytes))
  have hremainder (iByte : Nat) {k : Nat} (hk : k < 8) :
      (remainderByte input iByte (input.length % 8)).getLsbD (7 - k) = false := by
    have hbits := @remainderByte_bits input iByte _ (Nat.mod_lt input.length (by decide : 0 < 8)) (fun _ => false)
      (fun k _ => hzeros _ (Nat.mod_lt _ hpos)) k hk
    rw [hbits, Bool.and_false]
  have hchecksum {crc : BitVec 32} (hcrc : table.Holds [] crc) : table.Holds [] (table.getChecksum crc) := by
    rwa [Holds, toNat_getChecksum h, Nat.mod_mod]
  have hput : table.Holds [] (table.putBits sse41 input) := by
    rw [putBits]
    exact ((hloop _).putZero h fun k hk => hremainder _ hk).ite (hloop _)
  have hpadded : table.Holds ([] ++ List.replicate (8 - input.length % 8) false) (table.putBits sse41 input) :=
    hput.of_zeros ofBits_nil (ofBits_replicate_false _)
  have hend : table.Holds [] (if 0 < input.length % 8
      then table.reversecrcbit (table.getChecksum (table.putBits sse41 input)) (8 - input.length % 8)
      else table.getChecksum (table.putBits sse41 input)) := (hpadded.reversecrcbit h).ite (hchecksum hput)
  have hresult := hend.getChecksum h
  rw [ofBits_nil, zero_mul, zero_modByMonic] at hresult
  exact hresult

theorem remainder_lastBit_ne_zero (h : table.Supported) (n : Nat) :
    table.remainder (List.replicate n false ++ [true]) ≠ 0 := by
  have hbits : ofBits (List.replicate n false ++ [true]) = 1 := by
    rw [ofBits_append, ofBits_replicate_false, zero_mul, zero_add]
    simp [ofBits]
  have hmonic : table.generator.Monic := h.generates.monic
  intro hzero
  rw [remainder, hbits, modByMonic_eq_zero_iff_dvd hmonic, ← AdjoinRoot.mk_eq_zero] at hzero
  have hone : AdjoinRoot.mk table.generator 1 = AdjoinRoot.mk table.generator 0 := by
    apply h.generates.mul_X_cancel
    exact hzero.trans (by rw [zero_mul]; exact (map_zero _).symm)
  have hdegree : (1 : (ZMod 2)[X]).degree < table.generator.degree := by
    rw [degree_one, show table.generator.degree = table.order from h.generates.degree]
    exact_mod_cast h.generates.pos
  have heq := eq_modByMonic hmonic hdegree hone
  rw [zero_modByMonic] at heq
  exact one_ne_zero heq

theorem calculateBit_lastBit (h : table.Supported) (sse41 : Bool) {n : Nat} (hn : 2 ^ 32 ≤ n) :
    ofNat (table.calculateBit sse41 (unpackedBits (List.replicate n false ++ [true]))).toNat ≠
      table.remainder (List.replicate n false ++ [true]) := by
  rw [calculateBit_of_zeros h sse41]
  · exact (remainder_lastBit_ne_zero h n).symm
  · intro i hi
    rw [getD_unpackedBits, List.getD_append _ _ _ _ (by simpa using Nat.lt_of_lt_of_le hi hn)]
    simp [unpackedBit]

/-- A calculator returns this for a form of the string. -/
inductive Calculates (table : CrcTable) : List Bool → Except BitBufferFault (BitVec 32) → Prop
  | byte (input : List (BitVec 8)) : Calculates table (input.flatMap byteBits) (.ok (table.calculateByte input))
  | bit (sse41 : Bool) (bits : List Bool) : Calculates table bits (.ok (table.calculateBit sse41 (unpackedBits bits)))
  | packed (input : BitBuffer) : Calculates table input.toBits (table.calculate input)

theorem Calculates.eq (h : table.Supported) {result : Except BitBufferFault (BitVec 32)}
    (hlength : bits.length ≤ 2 ^ 32) (hcalculates : table.Calculates bits result) :
    ∃ crc, result = .ok crc ∧ ofNat crc.toNat = table.remainder bits := by
  cases hcalculates with
  | byte input => exact ⟨_, rfl, calculateByte_eq h input⟩
  | bit sse41 => exact ⟨_, rfl, calculateBit_eq h sse41 hlength⟩
  | packed input => exact calculate_eq h input

/-- For the strings of a length every calculator returns the remainder, which is 0 for a string that ends with the
checksum of the bits before it. -/
def ChecksStrings (table : CrcTable) (length : Nat) : Prop :=
  ∀ bits result, bits.length = length → table.Calculates bits result →
    ∃ crc, result = .ok crc ∧ ofNat crc.toNat = table.remainder bits ∧
      ∀ message checksum, table.Calculates message (.ok checksum) →
        bits = message ++ table.checksumBits checksum → crc = 0

end CrcTable

/-- The counters of `calculate_bit` are of 32 bits. -/
theorem checksum_isRemainder_iff {poly : CrcGeneratorPoly} {table : CrcTable} (h : crcTables poly = some table)
    (length : Nat) : table.ChecksStrings length ↔ length ≤ 2 ^ 32 := by
  have hsupported := supported_of_crcTables h
  constructor
  · intro hchecks
    by_contra hlong
    obtain ⟨n, rfl⟩ : ∃ n, length = n + 1 := ⟨length - 1, by omega⟩
    obtain ⟨crc, hcrc, hremainder, _⟩ := hchecks (List.replicate n false ++ [true]) _ (by simp) (.bit false _)
    cases hcrc
    exact calculateBit_lastBit hsupported false (by omega) hremainder
  · rintro hlength bits result rfl hcalculates
    obtain ⟨crc, hresult, hcrc⟩ := hcalculates.eq hsupported hlength
    refine ⟨crc, hresult, hcrc, ?_⟩
    rintro message checksum hmessage rfl
    rw [List.length_append] at hlength
    obtain ⟨crc', hcrc', hchecksum⟩ := hmessage.eq hsupported (by omega)
    cases hcrc'
    rw [remainder_append_checksum hsupported hchecksum] at hcrc
    have hlt : crc.toNat < 2 ^ 0 := lt_two_pow_of_degree_lt (by simp [hcrc])
    exact BitVec.eq_of_toNat_eq (by simpa using hlt)

theorem checksum_isRemainder_eightBits :
    crcTables .crc11 = some (create 0xe21 11) ∧
      (create 0xe21 11).ChecksStrings 8 :=
  ⟨rfl, (@checksum_isRemainder_iff .crc11 _ rfl 8).mpr (by decide)⟩

/-- The last of `2 ^ 32 + 1` unpacked bits is not in the checksum. -/
theorem calculateBit_misses_lastBit :
    crcTables .crc24A = some (create 0x1864cfb 24) ∧
      ofNat ((create 0x1864cfb 24).calculateBit true
          (unpackedBits (List.replicate (2 ^ 32) false ++ [true]))).toNat ≠
        (create 0x1864cfb 24).remainder (List.replicate (2 ^ 32) false ++ [true]) :=
  ⟨rfl, calculateBit_lastBit (@supported_of_crcTables .crc24A _ rfl) true (Nat.le_refl _)⟩

end Srsran.Phy
