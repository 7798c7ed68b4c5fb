import Srsran.Support.BitValue

/-! Whole bytes: what the bit encoder writes and the bit decoder reads at byte boundaries. -/
namespace Srsran.Support

/-- The last `n` bytes of a number, most significant first. -/
def beBytes : Nat → Nat → List UInt8
  | 0, _ => []
  | n + 1, value => UInt8.ofNat (value / 256 ^ n) :: beBytes n value

@[simp] theorem length_beBytes (n value : Nat) : (beBytes n value).length = n := by
  induction n with
  | zero => rfl
  | succ n ih => rw [beBytes, List.length_cons, ih]

theorem beBytes_mod (n value k : Nat) (h : n ≤ k) : beBytes n (value % 256 ^ k) = beBytes n value := by
  induction n with
  | zero => rfl
  | succ n ih =>
    rw [beBytes, beBytes, ih (Nat.le_of_succ_le h)]
    congr 1
    apply UInt8.toNat.inj
    rw [UInt8.toNat_ofNat', UInt8.toNat_ofNat']
    have hpow : 256 ^ k = 256 ^ (n + 1) * 256 ^ (k - (n + 1)) := by
      rw [← Nat.pow_add, Nat.add_sub_cancel' h]
    have hdiv : value % 256 ^ (n + 1) / 256 ^ n = value / 256 ^ n % 256 := by
      rw [Nat.pow_succ, Nat.mod_mul_right_div_self]
    have hdiv' : value % 256 ^ k % 256 ^ (n + 1) / 256 ^ n = value % 256 ^ k / 256 ^ n % 256 := by
      rw [Nat.pow_succ, Nat.mod_mul_right_div_self]
    have hdvd : 256 ^ (n + 1) ∣ 256 ^ k := ⟨_, hpow⟩
    rw [Nat.mod_mod_of_dvd _ hdvd] at hdiv'
    exact hdiv'.symm.trans hdiv

theorem bytesValue_beBytes (n value : Nat) : bytesValue (beBytes n value) = value % 256 ^ n := by
  induction n with
  | zero =>
    rw [Nat.pow_zero, Nat.mod_one]
    rfl
  | succ n ih =>
    have hsplit : value % 256 ^ (n + 1) = value % 256 ^ n + 256 ^ n * (value / 256 ^ n % 256) := by
      rw [Nat.pow_succ, Nat.mod_mul]
    rw [beBytes, bytesValue, ih, length_beBytes, UInt8.toNat_ofNat', hsplit, Nat.add_comm,
      Nat.mul_comm]

namespace BitEncoder

def packBytes (enc : BitEncoder) (bytes : List UInt8) : BitEncoder :=
  if enc.offset = 0 then { enc with bytes := enc.bytes ++ bytes }
  else bytes.foldl (fun enc byte => enc.pack byte.toNat 8) enc

theorem packLoop_aligned {turns n val : Nat} {bytes : List UInt8} (hn : n < 8) (hturns : n ≤ turns) :
    packLoop turns { bytes, offset := 0 } val (8 * n) = { bytes := bytes ++ beBytes n val, offset := 0 } := by
  induction n generalizing turns val bytes with
  | zero =>
    rw [beBytes, List.append_nil]
    cases turns with
    | zero => rfl
    | succ turns => exact if_pos rfl
  | succ n ih =>
    cases turns with
    | zero => exact absurd hturns (Nat.not_succ_le_zero n)
    | succ turns =>
      have hmask : val &&& (1 <<< (8 * (n + 1)) - 1) = val % 256 ^ (n + 1) := by
        rw [Nat.one_shiftLeft, Nat.and_two_pow_sub_one_eq_mod, two_pow_eight_mul]
      have hshift : 8 * (n + 1) + 0 - 8 = 8 * n := by omega
      have hrest : 8 * (n + 1) - (8 - 0) = 8 * n := by omega
      have hnot : ¬8 - 0 > 8 * (n + 1) := by omega
      have hlt : 8 * (n + 1) < 64 := by omega
      have hne : ¬8 * (n + 1) = 0 := by omega
      rw [packLoop, if_neg hne]
      dsimp only
      rw [if_pos rfl, if_neg hnot, if_pos hlt, hmask, hshift, hrest, addToBack_concat,
        ih (Nat.lt_of_succ_lt hn) (Nat.le_of_succ_le_succ hturns), beBytes_mod n val (n + 1) (Nat.le_succ n), List.append_assoc, beBytes]
      congr 2
      rw [List.singleton_append]
      congr 1
      apply UInt8.toNat.inj
      have hzero : (0 : UInt8).toNat = 0 := rfl
      rw [UInt8.toNat_ofNat', UInt8.toNat_ofNat', hzero, Nat.zero_add, Nat.mod_mod,
        Nat.shiftRight_eq_div_pow, two_pow_eight_mul, Nat.pow_succ, Nat.mod_mul_right_div_self,
        Nat.mod_mod]

theorem pack_aligned {n val : Nat} {bytes : List UInt8} (hn : n < 8) :
    ({ bytes, offset := 0 } : BitEncoder).pack val (8 * n) =
      { bytes := bytes ++ beBytes n val, offset := 0 } :=
  packLoop_aligned hn (by omega)

end BitEncoder

namespace BitDecoder

/-- `unpack` whose result is not checked: the value that is left, and the decoder. -/
def read (dec : BitDecoder) (nBits : Nat) : Nat × BitDecoder :=
  (dec.unpackValue nBits, (dec.unpack nBits).2)

def alignBytes (dec : BitDecoder) : BitDecoder :=
  if dec.offset ≠ 0 then { bytes := dec.bytes.drop 1, offset := 0 } else dec

/-- `unpack_aligned_bytes`: nothing is read, and nothing returned, when there are too few bytes. -/
def unpackAlignedBytes (dec : BitDecoder) (nBytes : Nat) : List UInt8 × BitDecoder :=
  let dec := dec.alignBytes
  if nBytes = 0 then ([], dec)
  else if nBytes > dec.bytes.length then ([], dec)
  else (dec.bytes.take nBytes, { dec with bytes := dec.bytes.drop nBytes })

/-- `nof_bytes` of a decoder for a buffer of some length. -/
def nofBytes (dec : BitDecoder) (length : Nat) : Nat :=
  (length - dec.bytes.length + if dec.offset ≠ 0 then 1 else 0) % 2 ^ 32

theorem land_255 (byte : UInt8) : byte.toNat &&& (1 <<< (8 - 0) - 1) = byte.toNat := by
  rw [Nat.one_shiftLeft, Nat.and_two_pow_sub_one_eq_mod]
  exact Nat.mod_eq_of_lt byte.toNat_lt

theorem unpackLoop_aligned {n val : Nat} {bytes : List UInt8} (h : n ≤ bytes.length) :
    unpackLoop bytes 0 (8 * n) val =
      (some (val + bytesValue (bytes.take n)), { bytes := bytes.drop n, offset := 0 }) := by
  induction bytes generalizing n val with
  | nil =>
    rw [List.length_nil, Nat.le_zero] at h
    rw [h]
    rfl
  | cons byte rest ih =>
    cases n with
    | zero => rfl
    | succ n =>
      have hle : n ≤ rest.length := Nat.le_of_succ_le_succ h
      have hshift : 8 * (n + 1) + 0 - 8 = 8 * n := by omega
      have hrest : 8 * (n + 1) - (8 - 0) = 8 * n := by omega
      rw [unpackLoop, if_neg (by omega), if_neg (by omega)]
      dsimp only
      rw [land_255, hshift, hrest, ih hle, List.take_succ_cons, List.drop_succ_cons, bytesValue,
        List.length_take, Nat.min_eq_left hle, Nat.shiftLeft_eq, two_pow_eight_mul,
        Nat.add_assoc]

theorem read_aligned {n : Nat} {bytes : List UInt8} (h : n ≤ bytes.length) :
    ({ bytes, offset := 0 } : BitDecoder).read (8 * n) =
      (bytesValue (bytes.take n), { bytes := bytes.drop n, offset := 0 }) := by
  have hloop := @unpackLoop_aligned n 0 bytes h
  rw [Nat.zero_add] at hloop
  rw [read, unpackValue, unpack, valueLoop_eq hloop, hloop]

theorem read_beBytes {n value : Nat} {rest : List UInt8} :
    ({ bytes := beBytes n value ++ rest, offset := 0 } : BitDecoder).read (8 * n) =
      (value % 256 ^ n, { bytes := rest, offset := 0 }) := by
  have hlength : n ≤ (beBytes n value ++ rest).length := by
    rw [List.length_append, length_beBytes]
    exact Nat.le_add_right _ _
  rw [read_aligned hlength, List.take_left' (length_beBytes n value),
    List.drop_left' (length_beBytes n value), bytesValue_beBytes]

theorem read_byte (bytes : List UInt8) :
    ({ bytes, offset := 0 } : BitDecoder).read 8 =
      ((bytes.head?.getD 0).toNat, { bytes := bytes.drop 1, offset := 0 }) := by
  cases bytes with
  | nil => rfl
  | cons byte rest =>
    have hread := @read_aligned 1 (byte :: rest) (by simp)
    rw [Nat.mul_one] at hread
    rw [hread]
    congr 1
    exact (Nat.add_zero _).trans (Nat.mul_one _)

end BitDecoder

end Srsran.Support
