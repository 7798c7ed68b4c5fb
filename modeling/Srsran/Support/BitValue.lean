import Srsran.Support.BitEncoding
import Mathlib.Tactic.Ring

/-! What the bit encoder writes and the bit decoder reads, as numbers: the bits packed so far, or still
to be read, are the binary digits of one number. -/
namespace Srsran.Support

def bytesValue : List UInt8 → Nat
  | [] => 0
  | byte :: rest => byte.toNat * 256 ^ rest.length + bytesValue rest

theorem bytesValue_lt (bytes : List UInt8) : bytesValue bytes < 256 ^ bytes.length := by
  induction bytes with
  | nil => exact Nat.one_pos
  | cons byte rest ih =>
    have hbyte : byte.toNat + 1 ≤ 256 := byte.toNat_lt
    have hmul := Nat.mul_le_mul_right (256 ^ rest.length) hbyte
    rw [Nat.add_mul, Nat.one_mul] at hmul
    rw [bytesValue, List.length_cons, Nat.pow_succ]
    omega

theorem bytesValue_concat (bytes : List UInt8) (byte : UInt8) :
    bytesValue (bytes ++ [byte]) = bytesValue bytes * 256 + byte.toNat := by
  induction bytes with
  | nil => simp [bytesValue]
  | cons first rest ih =>
    rw [List.cons_append, bytesValue, bytesValue, ih, List.length_append, List.length_singleton]
    ring

theorem two_pow_eight_mul (n : Nat) : 2 ^ (8 * n) = 256 ^ n := by
  rw [Nat.pow_mul]

def valueBits : Nat → Nat → List Nat
  | 0, _ => []
  | n + 1, value => value / 2 ^ n :: valueBits n (value % 2 ^ n)

def bitsValue (bits : List Nat) : Nat := bits.foldl (fun value bit => value * 2 + bit) 0

theorem bitsValue_concat (bits : List Nat) (bit : Nat) :
    bitsValue (bits ++ [bit]) = bitsValue bits * 2 + bit := by
  rw [bitsValue, List.foldl_append]
  rfl

namespace BitEncoder

def free (enc : BitEncoder) : Nat := (8 - enc.offset) % 8

/-- The first `n` bits are the digits of `value`, and the others are 0. -/
structure Holds (enc : BitEncoder) (n value : Nat) : Prop where
  offset_lt : enc.offset < 8
  length : 8 * enc.bytes.length = n + enc.free
  value_eq : bytesValue enc.bytes = value * 2 ^ enc.free

theorem holds_nil : Holds {} 0 0 := ⟨by decide, rfl, rfl⟩

theorem addToBack_concat (bytes : List UInt8) (byte : UInt8) (value : Nat) :
    addToBack (bytes ++ [byte]) value = bytes ++ [UInt8.ofNat (byte.toNat + value)] := by
  induction bytes with
  | nil => rfl
  | cons first rest ih =>
    cases rest with
    | nil => rfl
    | cons second rest =>
      rw [List.cons_append, List.cons_append, addToBack, ← List.cons_append, ih]
      · rfl
      · intro h
        cases h

theorem bytesValue_addToBack {bytes : List UInt8} {value room add : Nat} (hbytes : bytes ≠ [])
    (hroom : room ≤ 8) (hvalue : bytesValue bytes = value * 2 ^ room) (hadd : add < 2 ^ room) :
    bytesValue (addToBack bytes add) = value * 2 ^ room + add ∧
      (addToBack bytes add).length = bytes.length := by
  obtain ⟨front, byte, rfl⟩ : ∃ front byte, bytes = front ++ [byte] :=
    ⟨bytes.dropLast, bytes.getLast hbytes, (List.dropLast_concat_getLast hbytes).symm⟩
  rw [bytesValue_concat] at hvalue
  -- The byte is a multiple of 2^room, so that the sum stays below 256.
  have hdvd : 2 ^ room ∣ byte.toNat := by
    have h256 : 2 ^ room ∣ 256 := Nat.pow_dvd_pow 2 hroom
    have hsum : 2 ^ room ∣ bytesValue front * 256 + byte.toNat := by
      rw [hvalue]
      exact Nat.dvd_mul_left _ _
    exact (Nat.dvd_add_right (Nat.dvd_mul_left_of_dvd h256 _)).mp hsum
  have hsum : byte.toNat + add < 256 := by
    obtain ⟨digits, hdigits⟩ := hdvd
    have hpow : 2 ^ room * 2 ^ (8 - room) = 256 := by
      rw [← Nat.pow_add, Nat.add_sub_cancel' hroom]
    have hlt : byte.toNat < 256 := byte.toNat_lt
    rw [hdigits, ← hpow] at hlt
    have hdigit : digits + 1 ≤ 2 ^ (8 - room) := Nat.lt_of_mul_lt_mul_left hlt
    have hmul := Nat.mul_le_mul_left (2 ^ room) hdigit
    rw [Nat.mul_add, Nat.mul_one, hpow] at hmul
    omega
  rw [addToBack_concat, bytesValue_concat, UInt8.toNat_ofNat', Nat.mod_eq_of_lt hsum]
  refine ⟨by omega, ?_⟩
  rw [List.length_append, List.length_append]
  rfl

variable {enc : BitEncoder}

theorem Holds.openByte {n value : Nat} (h : Holds enc n value) :
    ∃ bytes, (if enc.offset = 0 then enc.bytes ++ [0] else enc.bytes) = bytes ∧ bytes ≠ [] ∧
      8 * bytes.length = n + (8 - enc.offset) ∧
      bytesValue bytes = value * 2 ^ (8 - enc.offset) := by
  have hlength := h.length
  have hvalue := h.value_eq
  have hoffset := h.offset_lt
  rw [free] at hlength hvalue
  by_cases hzero : enc.offset = 0
  · rw [hzero, Nat.sub_zero, Nat.mod_self] at hlength hvalue
    refine ⟨_, if_pos hzero, List.append_ne_nil_of_right_ne_nil _ (List.cons_ne_nil _ _), ?_, ?_⟩
    · rw [List.length_append, List.length_singleton, hzero]
      omega
    · have hbyte : (0 : UInt8).toNat = 0 := rfl
      rw [bytesValue_concat, hvalue, hzero, hbyte, Nat.pow_zero, Nat.mul_one, Nat.add_zero,
        Nat.sub_zero, show 2 ^ 8 = 256 from rfl]
  · have hmod : (8 - enc.offset) % 8 = 8 - enc.offset := Nat.mod_eq_of_lt (by omega)
    rw [hmod] at hlength hvalue
    refine ⟨_, if_neg hzero, ?_, hlength, hvalue⟩
    intro hnil
    rw [hnil, List.length_nil] at hlength
    omega

theorem maskedValue {val nBits : Nat} (hval : val < 2 ^ 64) (hbits : nBits ≤ 64) :
    (if nBits < 64 then val &&& (1 <<< nBits - 1) else val) = val % 2 ^ nBits := by
  split
  · rw [Nat.one_shiftLeft, Nat.and_two_pow_sub_one_eq_mod]
  · have heq : nBits = 64 := by omega
    rw [heq, Nat.mod_eq_of_lt hval]

theorem packLoop_holds {turns : Nat} {n value val nBits : Nat}
    (h : Holds enc n value) (hturns : nBits ≤ turns) (hbits : nBits ≤ 64) (hval : val < 2 ^ 64) :
    Holds (packLoop turns enc val nBits) (n + nBits) (value * 2 ^ nBits + val % 2 ^ nBits) := by
  induction turns generalizing enc n value val nBits with
  | zero =>
    have hzero : nBits = 0 := Nat.le_zero.mp hturns
    rw [packLoop, hzero, Nat.pow_zero, Nat.mul_one, Nat.mod_one]
    exact h
  | succ turns ih =>
    rw [packLoop]
    split
    · rename_i hzero
      rw [hzero, Nat.pow_zero, Nat.mul_one, Nat.mod_one]
      exact h
    · rename_i hpos
      have hoffset := h.offset_lt
      obtain ⟨bytes, hbytes, hnil, hlength, hvalue⟩ := h.openByte
      rw [hbytes, maskedValue hval hbits]
      have hlt : val % 2 ^ nBits < 2 ^ nBits := Nat.mod_lt _ (Nat.two_pow_pos _)
      dsimp only
      generalize val % 2 ^ nBits = v at hlt ⊢
      split
      · rename_i hroom
        -- The value fits into the byte.
        have hpow : 2 ^ (8 - enc.offset) = 2 ^ nBits * 2 ^ (8 - enc.offset - nBits) := by
          rw [← Nat.pow_add]
          congr 1
          omega
        have hshift : v * 2 ^ (8 - enc.offset - nBits) < 2 ^ (8 - enc.offset) := by
          rw [hpow]
          exact Nat.mul_lt_mul_of_pos_right hlt (Nat.two_pow_pos _)
        have hbyte : 2 ^ (8 - enc.offset) ≤ 256 := Nat.pow_le_pow_right Nat.two_pos (Nat.sub_le 8 _)
        rw [Nat.shiftLeft_eq, Nat.mod_eq_of_lt (Nat.lt_of_lt_of_le hshift hbyte)]
        obtain ⟨hsum, hlen⟩ := bytesValue_addToBack hnil (by omega) hvalue hshift
        have hfree : (8 - (enc.offset + nBits)) % 8 = 8 - enc.offset - nBits := by omega
        refine ⟨by dsimp only; omega, ?_, ?_⟩
        · rw [free, hfree]
          dsimp only
          omega
        · rw [free, hfree, hsum, hpow]
          ring
      · rename_i hroom
        -- The first bits of the value complete the byte.
        have hrest : nBits + enc.offset - 8 = nBits - (8 - enc.offset) := by omega
        have hpow : 2 ^ nBits = 2 ^ (8 - enc.offset) * 2 ^ (nBits - (8 - enc.offset)) := by
          rw [← Nat.pow_add]
          congr 1
          omega
        have hhigh : v / 2 ^ (nBits - (8 - enc.offset)) < 2 ^ (8 - enc.offset) := by
          rw [Nat.div_lt_iff_lt_mul (Nat.two_pow_pos _), ← hpow]
          exact hlt
        have hbyte : 2 ^ (8 - enc.offset) ≤ 256 := Nat.pow_le_pow_right Nat.two_pos (Nat.sub_le 8 _)
        rw [Nat.shiftRight_eq_div_pow, hrest, Nat.mod_eq_of_lt (Nat.lt_of_lt_of_le hhigh hbyte)]
        obtain ⟨hsum, hlen⟩ := bytesValue_addToBack hnil (by omega) hvalue hhigh
        have hstep : Holds
            { bytes := addToBack bytes (v / 2 ^ (nBits - (8 - enc.offset))), offset := 0 }
            (n + (8 - enc.offset))
            (value * 2 ^ (8 - enc.offset) + v / 2 ^ (nBits - (8 - enc.offset))) := by
          refine ⟨Nat.zero_lt_succ 7, ?_, ?_⟩
          · rw [free]
            dsimp only
            omega
          · rw [free]
            dsimp only
            rw [hsum, Nat.pow_zero, Nat.mul_one]
        have hv : v < 2 ^ 64 :=
          Nat.lt_of_lt_of_le hlt (Nat.pow_le_pow_right (by decide) hbits)
        have hfinal := @ih _ _ _ v (nBits - (8 - enc.offset)) hstep (by omega) (by omega) hv
        have hcount : n + (8 - enc.offset) + (nBits - (8 - enc.offset)) = n + nBits := by omega
        have hsplit := Nat.div_add_mod' v (2 ^ (nBits - (8 - enc.offset)))
        rw [hcount] at hfinal
        have hdigits : (value * 2 ^ (8 - enc.offset) + v / 2 ^ (nBits - (8 - enc.offset))) *
              2 ^ (nBits - (8 - enc.offset)) + v % 2 ^ (nBits - (8 - enc.offset)) =
            value * 2 ^ nBits + v := by
          rw [Nat.add_mul, Nat.mul_assoc, ← hpow]
          omega
        rw [hdigits] at hfinal
        exact hfinal

theorem pack_holds {n value val nBits : Nat} (h : Holds enc n value)
    (hbits : nBits ≤ 64) (hval : val < 2 ^ 64) :
    Holds (enc.pack val nBits) (n + nBits) (value * 2 ^ nBits + val % 2 ^ nBits) :=
  packLoop_holds h (Nat.le_refl _) hbits hval

end BitEncoder

namespace BitDecoder

/-- The last `n` bits, which are the digits of `value`, are still to be read. -/
structure Holds (dec : BitDecoder) (n value : Nat) : Prop where
  offset_lt : dec.offset < 8
  length : 8 * dec.bytes.length = n + dec.offset
  value_eq : bytesValue dec.bytes % 2 ^ n = value

variable {dec : BitDecoder}

theorem Holds.lt {n value : Nat} (h : Holds dec n value) : value < 2 ^ n := by
  rw [← h.value_eq]
  exact Nat.mod_lt _ (Nat.two_pow_pos n)

theorem holds_start (bytes : List UInt8) :
    Holds { bytes } (8 * bytes.length) (bytesValue bytes) := by
  refine ⟨Nat.zero_lt_succ 7, rfl, Nat.mod_eq_of_lt ?_⟩
  rw [two_pow_eight_mul]
  exact bytesValue_lt bytes

theorem masked_shiftRight {byte offset nBits : Nat} (hpos : 0 < nBits) (h : nBits < 8 - offset) :
    (byte &&& (1 <<< (8 - offset) - 1 <<< (8 - offset - nBits)) % 256) >>> (8 - offset - nBits) =
      byte % 2 ^ (8 - offset) / 2 ^ (8 - offset - nBits) := by
  have hpow : 2 ^ (8 - offset) = 2 ^ nBits * 2 ^ (8 - offset - nBits) := by
    rw [← Nat.pow_add]
    congr 1
    omega
  have hlow := Nat.two_pow_pos (8 - offset - nBits)
  have hbound : 2 ^ (8 - offset) ≤ 256 := Nat.pow_le_pow_right Nat.two_pos (Nat.sub_le 8 _)
  have hmask : (1 <<< (8 - offset) - 1 <<< (8 - offset - nBits)) % 256 =
      (2 ^ nBits - 1) <<< (8 - offset - nBits) := by
    rw [Nat.one_shiftLeft, Nat.one_shiftLeft, Nat.shiftLeft_eq, Nat.sub_mul, Nat.one_mul, ← hpow]
    exact Nat.mod_eq_of_lt (by omega)
  rw [hmask, Nat.shiftRight_and_distrib, Nat.shiftLeft_shiftRight, Nat.and_two_pow_sub_one_eq_mod,
    Nat.shiftRight_eq_div_pow, hpow, Nat.mul_comm, Nat.mod_mul_right_div_self]

/-- Value of the unread bits, split at the end of the current byte. -/
theorem value_cons (byte : UInt8) (rest : List UInt8) (room : Nat) :
    bytesValue (byte :: rest) % 2 ^ (8 * rest.length + room) =
      byte.toNat % 2 ^ room * 2 ^ (8 * rest.length) + bytesValue rest := by
  have hlt : bytesValue rest < 2 ^ (8 * rest.length) := by
    rw [two_pow_eight_mul]
    exact bytesValue_lt rest
  rw [bytesValue, ← two_pow_eight_mul, Nat.pow_add, Nat.mod_mul, Nat.mul_comm byte.toNat,
    Nat.mul_add_mod, Nat.mod_eq_of_lt hlt, Nat.mul_add_div (Nat.two_pow_pos _), Nat.div_eq_of_lt hlt,
    Nat.add_zero]
  ring

theorem unpackLoop_holds {bytes : List UInt8} {offset n value nBits val : Nat}
    (h : Holds { bytes, offset } n value) (hbits : nBits ≤ n) :
    ∃ dec, unpackLoop bytes offset nBits val = (some (val + value / 2 ^ (n - nBits)), dec) ∧
      Holds dec (n - nBits) (value % 2 ^ (n - nBits)) := by
  induction bytes generalizing offset n value nBits val with
  | nil =>
    have hlength : 8 * 0 = n + offset := h.length
    have hn : n = 0 := by omega
    have hzero : nBits = 0 := by omega
    have hvalue : value = 0 := by
      have hlt := h.lt
      rw [hn] at hlt
      omega
    subst hn hzero hvalue
    exact ⟨_, rfl, h⟩
  | cons byte rest ih =>
    have hoffset : offset < 8 := h.offset_lt
    have hlength : 8 * (rest.length + 1) = n + offset := h.length
    have hn : n = 8 * rest.length + (8 - offset) := by omega
    have hvalue : byte.toNat % 2 ^ (8 - offset) * 2 ^ (8 * rest.length) + bytesValue rest = value := by
      rw [← value_cons, ← hn]
      exact h.value_eq
    have hlt : bytesValue rest < 2 ^ (8 * rest.length) := by
      rw [two_pow_eight_mul]
      exact bytesValue_lt rest
    have hmod : ∀ k ≤ n, bytesValue (byte :: rest) % 2 ^ k = value % 2 ^ k := by
      intro k hk
      have hval : bytesValue (byte :: rest) % 2 ^ n = value := h.value_eq
      rw [← hval, Nat.mod_mod_of_dvd _ (Nat.pow_dvd_pow 2 hk)]
    rw [unpackLoop]
    split
    · rename_i hzero
      refine ⟨{ bytes := byte :: rest, offset }, ?_, ?_⟩
      · rw [hzero, Nat.sub_zero, Nat.div_eq_of_lt h.lt, Nat.add_zero]
      · rw [hzero, Nat.sub_zero, Nat.mod_eq_of_lt h.lt]
        exact h
    · rename_i hpos
      split
      · rename_i hroom
        have hrest : n - nBits = 8 * rest.length + (8 - offset - nBits) := by omega
        refine ⟨{ bytes := byte :: rest, offset := offset + nBits }, ?_, ⟨?_, ?_, ?_⟩⟩
        · have hdiv : value / 2 ^ (n - nBits) =
              byte.toNat % 2 ^ (8 - offset) / 2 ^ (8 - offset - nBits) := by
            rw [← hvalue, hrest, Nat.pow_add, ← Nat.div_div_eq_div_mul, Nat.mul_comm,
              Nat.mul_add_div (Nat.two_pow_pos _), Nat.div_eq_of_lt hlt, Nat.add_zero]
          rw [hdiv, ← masked_shiftRight (Nat.pos_of_ne_zero hpos) hroom]
        · dsimp only
          omega
        · dsimp only
          rw [List.length_cons]
          omega
        · exact hmod _ (Nat.sub_le _ _)
      · rename_i hroom
        have hstart : Holds { bytes := rest, offset := 0 } (8 * rest.length) (bytesValue rest) :=
          holds_start rest
        have hshift : nBits + offset - 8 = nBits - (8 - offset) := by omega
        have hleft : 8 * rest.length - (nBits - (8 - offset)) = n - nBits := by omega
        obtain ⟨dec, hloop, hdec⟩ := @ih 0 (8 * rest.length) (bytesValue rest)
          (nBits - (8 - offset)) (val + byte.toNat % 2 ^ (8 - offset) * 2 ^ (nBits - (8 - offset)))
          hstart (by omega)
        rw [hleft] at hloop hdec
        have hpow : 2 ^ (8 * rest.length) = 2 ^ (nBits - (8 - offset)) * 2 ^ (n - nBits) := by
          rw [← Nat.pow_add]
          congr 1
          omega
        refine ⟨dec, ?_, ?_⟩
        · dsimp only
          rw [Nat.one_shiftLeft, Nat.and_two_pow_sub_one_eq_mod, Nat.shiftLeft_eq, hshift, hloop,
            ← hvalue, hpow, ← Nat.mul_assoc, Nat.mul_comm _ (2 ^ (n - nBits)),
            Nat.mul_add_div (Nat.two_pow_pos _), Nat.add_assoc]
        · rw [← hvalue, hpow, ← Nat.mul_assoc, Nat.mul_comm _ (2 ^ (n - nBits)), Nat.mul_add_mod]
          exact hdec

theorem unpack_holds {n value nBits : Nat} (h : Holds dec n value) (hbits : nBits ≤ n) :
    dec.unpackValue nBits = value / 2 ^ (n - nBits) ∧
      ∃ rest, dec.unpack nBits = (some (value / 2 ^ (n - nBits)), rest) ∧
        Holds rest (n - nBits) (value % 2 ^ (n - nBits)) := by
  obtain ⟨rest, hloop, hrest⟩ := @unpackLoop_holds dec.bytes dec.offset n value nBits 0 h hbits
  rw [Nat.zero_add] at hloop
  exact ⟨valueLoop_eq hloop, rest, hloop, hrest⟩

theorem unpack_of_holds_zero {value : Nat} (h : Holds dec 0 value) : (dec.unpack 1).1 = none := by
  have hlength := h.length
  have hoffset := h.offset_lt
  have hnil : dec.bytes = [] := List.length_eq_zero_iff.mp (by omega)
  rw [unpack, hnil]
  rfl

end BitDecoder

end Srsran.Support
