import Srsran.Ofh.UplaneMessage

/-! Block floating point compression of quantised samples (`iq_compression_bfp_impl.cpp`). -/
namespace Srsran.Ofh.Bfp
open Srsran.Adt Checked

/-- The width is from 1 to 16. The number of leading zeros is an `unsigned`. -/
def determineExponent (x dataWidth : Nat) : Nat :=
  let maxShift := 16 - dataWidth
  let lzWithoutSign := if 0 < x ∧ 0 < maxShift then (31 - x.log2 + (2 ^ 32 - 17)) % 2 ^ 32 else maxShift
  16 - dataWidth - min maxShift lzWithoutSign

def maxAbs (samples : List (BitVec 16)) : Nat :=
  let maxSample := (samples.map BitVec.toInt).max?.getD 0
  let minSample := (samples.map BitVec.toInt).min?.getD 0
  (max (maxSample.natAbs : Int) (minSample.natAbs - 1)).toNat

def compressPrb (compPrb : List (BitVec 8)) (inputQuantized : List (BitVec 16)) (dataWidth : Nat) :
    Except BitBufferFault (List (BitVec 8)) := do
  let exponent := determineExponent (maxAbs inputQuantized) dataWidth
  let compressedSamples := inputQuantized.map (fun sample => sample.sshiftRight exponent)
  match compPrb with
  | [] => throw .outOfArray
  | _ :: compPrb =>
    let buffer ← packBytes (fromBytes compPrb) compressedSamples dataWidth
    pure (BitVec.ofNat 8 exponent :: buffer.buffer)

/-- `decompress_prb_generic` up to the conversion of the integers. -/
def decompressPrb (compPrb : List (BitVec 8)) (dataWidth : Nat) : Except BitBufferFault (List Int) :=
  match compPrb with
  | [] => .error .outOfArray
  | exponent :: compPrb =>
    let scaler := 1#16 <<< exponent.toNat
    (List.range 12).foldlM
      (fun output i => do
        let readPos := i * (dataWidth * 2)
        let re ← unpackBits (fromBytes compPrb) readPos dataWidth
        let im ← unpackBits (fromBytes compPrb) (readPos + dataWidth) dataWidth
        pure (output ++ [(signExtend dataWidth re).toInt * scaler.toInt,
          (signExtend dataWidth im).toInt * scaler.toInt])) []

/-! Packing. -/

theorem packSampleLoop_short {turns left startPos : Nat} (hpos : 0 < left) (hle : left ≤ 8) (buffer : BitBuffer)
    (sample : BitVec 16) :
    packSampleLoop (turns + 1) buffer sample startPos left =
      buffer.insert (sample.setWidth 8).toNat startPos left := by
  have hdone (buffer : BitBuffer) (startPos : Nat) : packSampleLoop turns buffer sample startPos 0 = .ok buffer := by
    cases turns <;> rfl
  simp only [packSampleLoop, Nat.min_eq_right hle, if_neg (Nat.not_lt.mpr hle), if_neg (Nat.ne_of_gt hpos),
    Nat.sub_self, hdone]
  cases buffer.insert (sample.setWidth 8).toNat startPos left <;> rfl

variable {sample : BitVec 16}

theorem testBit_setWidth {k : Nat} (hk : k < 8) :
    (sample.setWidth 8).toNat.testBit k = sample.toNat.testBit k := by
  rw [BitVec.testBit_toNat, BitVec.getLsbD_setWidth, decide_eq_true hk, Bool.true_and, BitVec.testBit_toNat]

theorem packSampleLoop_ok {width : Nat} (hpos : 0 < width) (hwidth : width ≤ 16) {buffer : BitBuffer}
    {sample : BitVec 16} {startPos : Nat} (hsize : startPos + width ≤ buffer.size)
    (hsmall : width < 8 → (sample.setWidth 8).toNat < 2 ^ width) :
    ∃ buffer', packSampleLoop width buffer sample startPos width = .ok buffer' ∧
      buffer.Inserted buffer' sample.toNat startPos width := by
  obtain ⟨turns, rfl⟩ : ∃ turns, width = turns + 1 := ⟨width - 1, by omega⟩
  by_cases h8 : turns + 1 ≤ 8
  · rw [packSampleLoop_short hpos h8]
    have hlt : (sample.setWidth 8).toNat < 2 ^ (turns + 1) := by
      by_cases heq : turns + 1 = 8
      · rw [heq]
        exact (sample.setWidth 8).isLt
      · exact hsmall (by omega)
    obtain ⟨buffer', hinsert, hinserted⟩ := BitBuffer.insert_ok hpos h8 hlt hsize
    refine ⟨buffer', hinsert, hinserted.congr fun k hk => testBit_setWidth (by omega)⟩
  · rw [packSampleLoop, if_neg (Nat.succ_ne_zero _), Nat.min_eq_left (by omega)]
    simp only [if_pos (Nat.lt_of_not_le h8)]
    obtain ⟨first, hfirst, hinsertedFirst⟩ := @BitBuffer.insert_ok buffer
      ((sample.sshiftRight (turns + 1 - 8)).setWidth 8).toNat startPos 8 (by decide) (Nat.le_refl 8)
      (BitVec.isLt _) (by omega)
    obtain ⟨rest, rfl⟩ : ∃ rest, turns = rest + 1 := ⟨turns - 1, by omega⟩
    have hlow : ((sample &&& maskLsbOnes 16 (rest + 1 + 1 - 8)).setWidth 8).toNat < 2 ^ (rest + 1 + 1 - 8) := by
      apply Nat.lt_pow_two_of_testBit
      intro k hk
      rw [BitVec.testBit_toNat, BitVec.getLsbD_setWidth, BitVec.getLsbD_and, getLsbD_maskLsbOnes (by omega),
        decide_eq_false (Nat.not_lt.mpr hk), Bool.and_false, Bool.and_false]
    obtain ⟨buffer', hsecond, hinserted⟩ := @BitBuffer.insert_ok first _ (startPos + 8) (rest + 1 + 1 - 8) (by omega)
      (by omega) hlow (by rw [hinsertedFirst.size]; omega)
    rw [hfirst, ok_bind, packSampleLoop_short (by omega) (by omega)]
    refine ⟨buffer', hsecond, hinserted.size.trans hinsertedFirst.size, hinserted.length.trans hinsertedFirst.length,
      fun j => ?_⟩
    rw [hinserted.bit, hinsertedFirst.bit]
    simp only [BitVec.testBit_toNat, BitVec.getLsbD_setWidth, BitVec.getLsbD_and, BitVec.getLsbD_sshiftRight,
      getLsbD_maskLsbOnes (by omega : rest + 1 + 1 - 8 ≤ 16)]
    by_cases hj : startPos ≤ j ∧ j < startPos + (rest + 1 + 1)
    · rw [if_pos hj]
      by_cases hsecond : startPos + 8 ≤ j
      · have hindex : startPos + 8 + (rest + 1 + 1 - 8) - 1 - j = startPos + (rest + 1 + 1) - 1 - j := by omega
        rw [if_pos ⟨hsecond, by omega⟩, hindex, decide_eq_true (by omega), decide_eq_true (by omega), Bool.true_and,
          Bool.and_true]
      · have hindex : rest + 1 + 1 - 8 + (startPos + 8 - 1 - j) = startPos + (rest + 1 + 1) - 1 - j := by omega
        rw [if_neg (by omega), if_pos ⟨hj.1, by omega⟩, if_pos (by omega), decide_eq_true (by omega),
          decide_eq_false (by omega), hindex]
        rfl
    · rw [if_neg hj, if_neg (by omega), if_neg (by omega)]

theorem packSamples_ok {width : Nat} (hpos : 0 < width) (hwidth : width ≤ 16) {samples : List (BitVec 16)}
    (hsmall : width < 8 → ∀ sample ∈ samples, (sample.setWidth 8).toNat < 2 ^ width) {buffer : BitBuffer}
    {startPos : Nat} (hsize : startPos + samples.length * width ≤ buffer.size) (haligned : 8 ∣ buffer.size) :
    ∃ buffer', packSamples width buffer startPos samples = .ok buffer' ∧ buffer'.size = buffer.size ∧
      buffer'.buffer.length = buffer.buffer.length ∧ (∀ j < startPos, buffer'.bit j = buffer.bit j) ∧
      ∀ i sample, samples[i]? = some sample → ∀ k < width,
        buffer'.bit (startPos + i * width + width - 1 - k) = sample.toNat.testBit k := by
  induction samples generalizing buffer startPos with
  | nil =>
    rw [packSamples]
    split
    · exact ⟨buffer, rfl, rfl, rfl, fun _ _ => rfl, nofun⟩
    · next htail =>
        have hfits : startPos + (8 - startPos % 8) ≤ buffer.size := by
          simp only [List.length_nil, Nat.zero_mul, Nat.add_zero] at hsize
          omega
        obtain ⟨buffer', hinsert, hinserted⟩ :=
          BitBuffer.insert_ok (by omega) (by omega) (Nat.two_pow_pos (8 - startPos % 8)) hfits
        refine ⟨buffer', hinsert, hinserted.size, hinserted.length, fun j hj => ?_, nofun⟩
        rw [hinserted.bit, if_neg (by omega)]
  | cons sample samples ih =>
    rw [List.length_cons, Nat.succ_mul] at hsize
    obtain ⟨first, hfirst, hinserted⟩ := @packSampleLoop_ok width hpos hwidth buffer sample startPos (by omega)
      fun h => hsmall h sample List.mem_cons_self
    obtain ⟨buffer', hrest, hsize', hlength, hbefore, hbits⟩ := @ih
      (fun h sample' hsample' => hsmall h sample' (List.mem_cons_of_mem _ hsample')) first (startPos + width)
      (by rw [hinserted.size]; omega) (hinserted.size ▸ haligned)
    refine ⟨buffer', by rw [packSamples, hfirst, ok_bind, hrest], hsize'.trans hinserted.size,
      hlength.trans hinserted.length, fun j hj => ?_, fun i sample' hi k hk => ?_⟩
    · rw [hbefore j (by omega), hinserted.bit, if_neg (by omega)]
    · cases i with
      | zero =>
        obtain rfl : sample = sample' := Option.some.inj hi
        rw [hbefore _ (by omega), hinserted.bit, if_pos (by omega)]
        congr 1
        omega
      | succ i =>
        rw [← hbits i sample' hi k hk, Nat.succ_mul]
        congr 1
        omega

variable {width : Nat} {samples : List (BitVec 16)} {buffer : BitBuffer}

/-- A call that returns has packed only small values, if they take less than a byte. -/
theorem small_of_packSamples (hpos : 0 < width) (hwidth : width < 8) {buffer' : BitBuffer}
    {startPos : Nat} (h : packSamples width buffer startPos samples = .ok buffer') :
    ∀ sample ∈ samples, (sample.setWidth 8).toNat < 2 ^ width := by
  induction samples generalizing buffer startPos with
  | nil => exact nofun
  | cons sample samples ih =>
    rw [packSamples] at h
    obtain ⟨first, hfirst, hrest⟩ := bind_ok h
    obtain ⟨turns, rfl⟩ : ∃ turns, width = turns + 1 := ⟨width - 1, by omega⟩
    rw [packSampleLoop_short hpos (Nat.le_of_lt hwidth)] at hfirst
    exact List.forall_mem_cons.mpr ⟨BitBuffer.lt_of_insert hfirst, ih hrest⟩

/-! Unpacking. -/

/-- The sample is a signed number of this width. -/
def Fits (width : Nat) (sample : BitVec 16) : Prop :=
  -2 ^ (width - 1) ≤ sample.toInt ∧ sample.toInt < 2 ^ (width - 1)

theorem Fits.getLsbD_eq (h : Fits width sample) {k : Nat} (hk : width - 1 ≤ k) (hk' : k < 16) :
    sample.getLsbD k = sample.msb := by
  have hshift (j : Nat) (hj : width - 1 ≤ j) (hj' : j < 16) :
      (sample.sshiftRight (width - 1)).getLsbD (j - (width - 1)) = sample.getLsbD j := by
    rw [BitVec.getLsbD_sshiftRight, Nat.add_sub_cancel' hj, if_pos hj', decide_eq_false (by omega), Bool.not_false,
      Bool.true_and]
  have hmsb : sample.msb = sample.getLsbD 15 := by
    rw [BitVec.msb_eq_getLsbD_last]
  have hpow : (0 : Int) < 2 ^ (width - 1) := Int.pow_pos (by decide)
  have hvalue : (sample.sshiftRight (width - 1)).toInt = 0 ∨ (sample.sshiftRight (width - 1)).toInt = -1 := by
    rw [BitVec.toInt_sshiftRight, Int.shiftRight_eq_div_pow]
    obtain ⟨hle, hlt⟩ := h
    by_cases hneg : sample.toInt < 0
    · right
      rw [Int.ediv_eq_iff_of_pos (by exact_mod_cast hpow)]
      push_cast
      omega
    · left
      exact Int.ediv_eq_zero_of_lt (by omega) (by exact_mod_cast hlt)
  rw [hmsb, ← hshift k hk hk', ← hshift 15 (by omega) (by decide)]
  rcases hvalue with hvalue | hvalue
  · rw [BitVec.eq_of_toInt_eq (hvalue.trans BitVec.toInt_zero.symm)]
    simp
  · rw [BitVec.eq_of_toInt_eq (hvalue.trans (by decide : (-1 : Int) = (BitVec.allOnes 16).toInt))]
    rw [BitVec.getLsbD_allOnes, BitVec.getLsbD_allOnes, decide_eq_true (by omega), decide_eq_true (by omega)]

theorem signExtend_of_bits (hpos : 0 < width) (hwidth : width ≤ 16) {value : BitVec 16}
    (hbits : ∀ k < width, value.getLsbD k = sample.getLsbD k) (h : Fits width sample) :
    signExtend width value = sample := by
  apply BitVec.eq_of_getLsbD_eq
  intro k hk
  rw [signExtend, BitVec.getLsbD_sshiftRight, decide_eq_false (by omega), Bool.not_false, Bool.true_and]
  split
  · rw [BitVec.getLsbD_shiftLeft, Nat.add_sub_cancel_left, hbits k (by omega)]
    simp
    omega
  · have hlast : (value <<< (16 - width)).msb = sample.getLsbD (width - 1) := by
      rw [BitVec.msb_eq_getLsbD_last, BitVec.getLsbD_shiftLeft, ← hbits (width - 1) (by omega),
        show 16 - 1 - (16 - width) = width - 1 by omega]
      simp
      omega
    rw [hlast, h.getLsbD_eq (Nat.le_refl _) (by omega), h.getLsbD_eq (by omega) hk]

/-! The exponent. -/

/-- The least number that bounds the sample and its complement. -/
def magnitude (sample : BitVec 16) : Nat := if 0 ≤ sample.toInt then sample.toInt.toNat else (-sample.toInt - 1).toNat

theorem magnitude_lt (sample : BitVec 16) : magnitude sample < 2 ^ 15 := by
  have hle := BitVec.le_toInt sample
  have hlt := BitVec.toInt_lt (x := sample)
  rw [magnitude]
  split <;> omega

theorem fits_sshiftRight_iff (sample : BitVec 16) (exponent : Nat) :
    Fits width (sample.sshiftRight exponent) ↔ magnitude sample < 2 ^ (width - 1 + exponent) := by
  have hpow : (0 : Int) < 2 ^ exponent := Int.pow_pos (by decide)
  have hcast : ((2 ^ (width - 1 + exponent) : Nat) : Int) = 2 ^ (width - 1) * 2 ^ exponent := by
    push_cast
    rw [Int.pow_add]
  rw [Fits, BitVec.toInt_sshiftRight, Int.shiftRight_eq_div_pow]
  push_cast
  rw [Int.le_ediv_iff_mul_le hpow, Int.ediv_lt_iff_lt_mul hpow, Int.neg_mul, ← hcast, magnitude]
  split <;> omega

/-- All samples have the width after a shift. -/
def Admits (width : Nat) (samples : List (BitVec 16)) (exponent : Nat) : Prop :=
  ∀ sample ∈ samples, Fits width (sample.sshiftRight exponent)

theorem determineExponent_le_iff (hpos : 0 < width) (hwidth : width ≤ 16) {x : Nat}
    (hx : x < 2 ^ 15) (exponent : Nat) :
    determineExponent x width ≤ exponent ↔ x < 2 ^ (width - 1 + exponent) := by
  rw [determineExponent]
  by_cases hzero : x = 0
  · exact iff_of_true (by simp [hzero]) (hzero ▸ Nat.two_pow_pos _)
  · have hlog : x.log2 < 15 := (Nat.log2_lt hzero).mpr hx
    rw [← Nat.log2_lt hzero]
    by_cases h16 : width = 16
    · simp [h16]
      omega
    · have hlz : (31 - x.log2 + (2 ^ 32 - 17)) % 2 ^ 32 = 14 - x.log2 := by omega
      simp only [hlz, if_pos (⟨Nat.pos_of_ne_zero hzero, by omega⟩ : 0 < x ∧ 0 < 16 - width)]
      omega

theorem determineExponent_minimum (hwidth : width < 16) : determineExponent (2 ^ 15) width = 0 := by
  have hlz : (31 - (2 ^ 15 : Nat).log2 + (2 ^ 32 - 17)) % 2 ^ 32 = 2 ^ 32 - 1 := by decide
  simp only [determineExponent, hlz, if_pos (⟨by decide, by omega⟩ : 0 < 2 ^ 15 ∧ 0 < 16 - width)]
  omega

section
variable (hne : samples ≠ [])
include hne

theorem maxSample_spec : ∃ top ∈ samples, (samples.map BitVec.toInt).max?.getD 0 = top.toInt ∧
      ∀ sample ∈ samples, sample.toInt ≤ top.toInt := by
  have hsome : (samples.map BitVec.toInt).max?.isSome := List.isSome_max?_of_ne_nil (by simpa using hne)
  obtain ⟨value, hvalue⟩ := Option.isSome_iff_exists.mp hsome
  obtain ⟨hmem, hle⟩ := List.max?_eq_some_iff.mp hvalue
  obtain ⟨top, htop, rfl⟩ := List.mem_map.mp hmem
  exact ⟨top, htop, by rw [hvalue]; rfl, fun sample h => hle _ (List.mem_map_of_mem h)⟩

theorem minSample_spec : ∃ bottom ∈ samples, (samples.map BitVec.toInt).min?.getD 0 = bottom.toInt ∧
      ∀ sample ∈ samples, bottom.toInt ≤ sample.toInt := by
  have hsome : (samples.map BitVec.toInt).min?.isSome := List.isSome_min?_of_ne_nil (by simpa using hne)
  obtain ⟨value, hvalue⟩ := Option.isSome_iff_exists.mp hsome
  obtain ⟨hmem, hle⟩ := List.min?_eq_some_iff.mp hvalue
  obtain ⟨bottom, hbottom, rfl⟩ := List.mem_map.mp hmem
  exact ⟨bottom, hbottom, by rw [hvalue]; rfl, fun sample h => hle _ (List.mem_map_of_mem h)⟩

theorem maxAbs_of_equal {n : Nat}
    (hall : ∀ sample ∈ samples, sample.toInt = -n) : maxAbs samples = n := by
  obtain ⟨top, htop, hmax, -⟩ := maxSample_spec hne
  obtain ⟨bottom, hbottom, hmin, -⟩ := minSample_spec hne
  rw [maxAbs, hmax, hmin, hall top htop, hall bottom hbottom]
  simp only [Int.natAbs_neg, Int.natAbs_natCast]
  omega

theorem maxAbs_of_not_equal (hall : ¬∃ n : Nat, 0 < n ∧ ∀ sample ∈ samples, sample.toInt = -n) :
    ∃ top ∈ samples, maxAbs samples = magnitude top ∧ ∀ sample ∈ samples, magnitude sample ≤ magnitude top := by
  obtain ⟨top, htop, hmax, hle⟩ := maxSample_spec hne
  obtain ⟨bottom, hbottom, hmin, hge⟩ := minSample_spec hne
  have hbounds (sample : BitVec 16) (h : sample ∈ samples) :
      magnitude sample ≤ max (magnitude top) (magnitude bottom) := by
    have hle := hle sample h
    have hge := hge sample h
    simp only [magnitude]
    split <;> split <;> split <;> omega
  have hvalue : maxAbs samples = max (magnitude top) (magnitude bottom) := by
    have hlt : top.toInt < 0 → bottom.toInt < top.toInt := by
      intro hneg
      by_contra hnot
      refine hall ⟨top.toInt.natAbs, by omega, fun sample h => ?_⟩
      have hle := hle sample h
      have hge := hge sample h
      omega
    rw [maxAbs, hmax, hmin]
    simp only [magnitude]
    have hle := hle bottom hbottom
    split <;> split <;> omega
  rcases Nat.le_total (magnitude top) (magnitude bottom) with h | h
  · rw [Nat.max_eq_right h] at hvalue hbounds
    exact ⟨bottom, hbottom, hvalue, hbounds⟩
  · rw [Nat.max_eq_left h] at hvalue hbounds
    exact ⟨top, htop, hvalue, hbounds⟩

end

/-- The exponent is the least one, but for a block of one negative power of two. -/
theorem determineExponent_least_iff (hpos : 0 < width) (hwidth : width ≤ 16) (hne : samples ≠ []) :
    (∀ exponent, Admits width samples exponent ↔ determineExponent (maxAbs samples) width ≤ exponent) ↔
      (width < 16 → ∀ k, width - 1 ≤ k → ¬∀ sample ∈ samples, sample.toInt = -2 ^ k) := by
  have hadmits (exponent : Nat) :
      Admits width samples exponent ↔ ∀ sample ∈ samples, magnitude sample < 2 ^ (width - 1 + exponent) :=
    forall₂_congr fun sample _ => fits_sshiftRight_iff sample exponent
  simp only [hadmits]
  obtain ⟨first, hfirst⟩ := List.exists_mem_of_ne_nil samples hne
  by_cases hall : ∃ n : Nat, 0 < n ∧ ∀ sample ∈ samples, sample.toInt = -n
  · obtain ⟨n, hn, hall⟩ := hall
    have hmagnitude (sample : BitVec 16) (h : sample ∈ samples) : magnitude sample = n - 1 := by
      rw [magnitude, hall sample h]
      split <;> omega
    have hbound (exponent : Nat) : (∀ sample ∈ samples, magnitude sample < 2 ^ (width - 1 + exponent)) ↔
        n ≤ 2 ^ (width - 1 + exponent) := by
      refine ⟨fun h => ?_, fun h sample hsample => ?_⟩
      · have := hmagnitude first hfirst ▸ h first hfirst
        omega
      · rw [hmagnitude sample hsample]
        omega
    have hpower (k : Nat) : (∀ sample ∈ samples, sample.toInt = -2 ^ k) ↔ n = 2 ^ k := by
      refine ⟨fun h => ?_, fun h sample hsample => by rw [hall sample hsample, h]; push_cast; rfl⟩
      have := (hall first hfirst).symm.trans (h first hfirst)
      exact_mod_cast Int.neg_inj.mp this
    simp only [hbound, hpower, maxAbs_of_equal hne hall]
    have hle : n ≤ 2 ^ 15 := by
      have hmin := BitVec.le_toInt first
      rw [hall first hfirst] at hmin
      omega
    rcases Nat.lt_or_eq_of_le hle with hlt | rfl
    · simp only [determineExponent_le_iff hpos hwidth hlt]
      refine ⟨fun h _ k hk heq => ?_, fun h exponent => ?_⟩
      · have := h (k - (width - 1))
        rw [Nat.add_sub_cancel' hk] at this
        omega
      · have hne' : n ≠ 2 ^ (width - 1 + exponent) := by
          by_cases h16 : width < 16
          · exact h h16 _ (Nat.le_add_right _ _)
          · have := Nat.pow_le_pow_right (by decide : 0 < 2) (by omega : 15 ≤ width - 1 + exponent)
            omega
        omega
    · by_cases h16 : width < 16
      · refine ⟨fun h => ?_, fun h => absurd rfl (h h16 15 (by omega))⟩
        have := (h 0).mpr (Nat.le_of_eq (determineExponent_minimum h16))
        have := (Nat.pow_le_pow_iff_right (by decide : 1 < 2)).mp this
        omega
      · obtain rfl : width = 16 := by omega
        refine ⟨fun _ h => absurd h h16, fun _ exponent => ?_⟩
        exact ⟨fun _ => by simp [determineExponent], fun _ => Nat.pow_le_pow_right (by decide) (by omega)⟩
  · obtain ⟨top, htop, hmax, hle⟩ := maxAbs_of_not_equal hne hall
    refine ⟨fun _ _ k _ h => hall ⟨2 ^ k, Nat.two_pow_pos k, fun sample hs => by rw [h sample hs]; push_cast; rfl⟩,
      fun _ exponent => ?_⟩
    rw [hmax, determineExponent_le_iff hpos hwidth (magnitude_lt top)]
    exact ⟨fun h => h top htop, fun h sample hsample => Nat.lt_of_le_of_lt (hle sample hsample) h⟩

/-! Round trips. -/

theorem small_iff_nonneg (hpos : 0 < width) (hwidth : width < 8) (h : Fits width sample) :
    (sample.setWidth 8).toNat < 2 ^ width ↔ 0 ≤ sample.toInt := by
  have hpow : 2 ^ (width - 1) ≤ 2 ^ width := Nat.pow_le_pow_right (by decide) (Nat.sub_le _ _)
  have hbyte : 2 ^ width ≤ 2 ^ 7 := Nat.pow_le_pow_right (by decide) (by omega)
  have hsign : 0 ≤ sample.toInt ↔ sample.msb = false := by simp [BitVec.msb_eq_toInt]
  rw [hsign]
  constructor
  · intro hlt
    rw [← h.getLsbD_eq (by omega : width - 1 ≤ 7) (by decide), ← BitVec.testBit_toNat,
      ← testBit_setWidth (by decide : 7 < 8)]
    exact Nat.testBit_lt_two_pow (by omega)
  · intro hmsb
    have hle := h.2
    rw [BitVec.toInt_eq_toNat_of_msb hmsb] at hle
    rw [BitVec.toNat_setWidth]
    have := Nat.mod_le sample.toNat (2 ^ 8)
    have : sample.toNat < 2 ^ (width - 1) := by exact_mod_cast hle
    omega

theorem unpack_packed (hpos : 0 < width) (hwidth : width ≤ 16) {offset : Nat}
    (hsize : offset + width ≤ buffer.size) (h : Fits width sample)
    (hbits : ∀ k < width, buffer.bit (offset + width - 1 - k) = sample.toNat.testBit k) :
    ∃ value, unpackBits buffer offset width = .ok value ∧ signExtend width value = sample := by
  obtain ⟨value, hvalue, hread⟩ := unpackBits_ok hpos hwidth hsize
  refine ⟨value, hvalue, signExtend_of_bits hpos hwidth (fun k hk => ?_) h⟩
  rw [hread, decide_eq_true hk, Bool.true_and, hbits k hk, BitVec.testBit_toNat]

/-- `unpack_bits` with the sign extension undoes `pack_bytes`. -/
def Undoes (width : Nat) (samples : List (BitVec 16)) (buffer : BitBuffer) : Prop :=
  ∃ buffer', packBytes buffer samples width = .ok buffer' ∧ buffer'.size = buffer.size ∧
    buffer'.buffer.length = buffer.buffer.length ∧
    ∀ i sample, samples[i]? = some sample →
      ∃ value, unpackBits buffer' (i * width) width = .ok value ∧ signExtend width value = sample

theorem undoes_iff {width : Nat} (hpos : 0 < width) (hwidth : width ≤ 16) {samples : List (BitVec 16)}
    (hfits : ∀ sample ∈ samples, Fits width sample) {buffer : BitBuffer}
    (hsize : samples.length * width ≤ buffer.size) (haligned : 8 ∣ buffer.size) :
    Undoes width samples buffer ↔ (width < 8 → ∀ sample ∈ samples, 0 ≤ sample.toInt) := by
  constructor
  · rintro ⟨buffer', hpack, -⟩ h8 sample hsample
    exact (small_iff_nonneg hpos h8 (hfits sample hsample)).mp (small_of_packSamples hpos h8 hpack sample hsample)
  · intro h
    obtain ⟨buffer', hpack, hsize', hlength, -, hbits⟩ := @packSamples_ok width hpos hwidth samples
      (fun h8 sample hsample => (small_iff_nonneg hpos h8 (hfits sample hsample)).mpr (h h8 sample hsample)) buffer 0
      (by omega) haligned
    refine ⟨buffer', hpack, hsize', hlength, fun i sample hi => ?_⟩
    have hroom : i * width + width ≤ buffer'.size := by
      obtain ⟨hlt, -⟩ := List.getElem?_eq_some_iff.mp hi
      have := Nat.mul_le_mul_right width hlt
      rw [Nat.succ_mul] at this
      omega
    refine unpack_packed hpos hwidth hroom (hfits sample (List.mem_of_getElem? hi)) fun k hk => ?_
    rw [← hbits i sample hi k hk, Nat.zero_add]

def restored (exponent : Nat) (sample : BitVec 16) : Int := sample.toInt / 2 ^ exponent * 2 ^ exponent

/-- The round trip over one resource block. -/
def Compresses (width : Nat) (samples : List (BitVec 16)) : Prop :=
  ∃ exponent, (∀ e, Admits width samples e ↔ exponent ≤ e) ∧
    (∀ compPrb : List (BitVec 8), compPrb.length = getCompressedPrbSize ⟨.bfp, width⟩ →
      ∃ packed, compressPrb compPrb samples width = .ok (BitVec.ofNat 8 exponent :: packed) ∧
        packed.length + 1 = getCompressedPrbSize ⟨.bfp, width⟩ ∧
        decompressPrb (BitVec.ofNat 8 exponent :: packed) width = .ok (samples.map (restored exponent))) ∧
    ∀ sample ∈ samples, restored exponent sample ≤ sample.toInt ∧
      sample.toInt - restored exponent sample ≤ 2 ^ exponent - 1 ∧ -2 ^ 15 ≤ restored exponent sample

/-- The samples that the block floating point code takes through the round trip. -/
def Representable (width : Nat) (samples : List (BitVec 16)) : Prop :=
  (width < 8 → ∀ sample ∈ samples, 0 ≤ sample.toInt) ∧
    (width < 16 → ∀ k, width - 1 ≤ k → ¬∀ sample ∈ samples, sample.toInt = -2 ^ k)

theorem restored_bounds {exponent : Nat} (h : exponent ≤ 15) (sample : BitVec 16) :
    restored exponent sample ≤ sample.toInt ∧ sample.toInt - restored exponent sample ≤ 2 ^ exponent - 1 ∧
      -2 ^ 15 ≤ restored exponent sample := by
  have hpow : (0 : Int) < 2 ^ exponent := Int.pow_pos (by decide)
  have hsplit := Int.emod_add_mul_ediv sample.toInt (2 ^ exponent)
  have hnonneg := Int.emod_nonneg sample.toInt (Int.ne_of_gt hpow)
  have hlt := Int.emod_lt_of_pos sample.toInt hpow
  rw [Int.mul_comm, ← restored] at hsplit
  refine ⟨by omega, by omega, ?_⟩
  have hle : -2 ^ (15 - exponent) ≤ sample.toInt / 2 ^ exponent := by
    rw [Int.le_ediv_iff_mul_le hpow, Int.neg_mul, ← Int.pow_add, Nat.sub_add_cancel h]
    exact BitVec.le_toInt sample
  have hmul := Int.mul_le_mul_of_nonneg_right hle (Int.le_of_lt hpow)
  rwa [Int.neg_mul, ← Int.pow_add, Nat.sub_add_cancel h] at hmul

theorem foldl_pairs (values : List Int) {n : Nat} (h : 2 * n ≤ values.length) :
    (List.range n).foldl (fun output i => output ++ [values.getD (2 * i) 0, values.getD (2 * i + 1) 0]) [] =
      values.take (2 * n) := by
  induction n with
  | zero => rfl
  | succ n ih =>
    rw [List.range_succ, List.foldl_append, ih (by omega), show 2 * (n + 1) = 2 * n + 1 + 1 by omega,
      List.take_succ_eq_append_getElem (by omega : 2 * n + 1 < values.length),
      List.take_succ_eq_append_getElem (by omega : 2 * n < values.length), List.append_assoc,
      List.getElem_eq_getD 0, List.getElem_eq_getD 0]
    rfl

theorem decompressPrb_ok {exponent : BitVec 8} {packed : List (BitVec 8)}
    {shifted : List (BitVec 16)} (hlength : shifted.length = 24)
    (hread : ∀ i sample, shifted[i]? = some sample →
      ∃ value, unpackBits (fromBytes packed) (i * width) width = .ok value ∧ signExtend width value = sample) :
    decompressPrb (exponent :: packed) width =
      .ok (shifted.map fun sample => sample.toInt * (1#16 <<< exponent.toNat).toInt) := by
  rw [decompressPrb]
  generalize hvalues : (shifted.map fun sample => sample.toInt * (1#16 <<< exponent.toNat).toInt) = values
  have hvaluesLength : values.length = 24 := by rw [← hvalues, List.length_map, hlength]
  refine (foldlM_of_ok (g := fun output i => output ++ [values.getD (2 * i) 0, values.getD (2 * i + 1) 0])
    (fun i hi output => ?_) []).trans ?_
  · have hi := List.mem_range.mp hi
    have hre : 2 * i < shifted.length := by omega
    have him : 2 * i + 1 < shifted.length := by omega
    obtain ⟨re, hre', hreSign⟩ := hread (2 * i) _ (List.getElem?_eq_getElem hre)
    obtain ⟨im, him', himSign⟩ := hread (2 * i + 1) _ (List.getElem?_eq_getElem him)
    have hpos : i * (width * 2) = 2 * i * width := by rw [Nat.mul_comm width, ← Nat.mul_assoc, Nat.mul_comm i]
    simp only [hpos, ← Nat.succ_mul, hre', him', ok_bind, hreSign, himSign, ← hvalues]
    simp [List.getD_eq_getElem?_getD, hre, him]
    rfl
  · rw [foldl_pairs values (by omega), List.take_of_length_le (by omega)]

theorem scaled_eq_restored {exponent : Nat} (hpos : 0 < width) (hexponent : exponent ≤ 16 - width)
    (h8 : width < 8 → 0 ≤ sample.toInt) :
    (sample.sshiftRight exponent).toInt * (1#16 <<< (BitVec.ofNat 8 exponent).toNat).toInt =
      restored exponent sample := by
  have hscaler : ∀ e < 15, (1#16 <<< (BitVec.ofNat 8 e).toNat).toInt = 2 ^ e := by decide
  have hshift : (sample.sshiftRight exponent).toInt = sample.toInt / 2 ^ exponent := by
    rw [BitVec.toInt_sshiftRight, Int.shiftRight_eq_div_pow]
    push_cast
    rfl
  rw [hshift, restored]
  by_cases h15 : exponent < 15
  · rw [hscaler exponent h15]
  · obtain rfl : exponent = 15 := by omega
    -- the scaler of this exponent is negative, but all samples are zero after the shift
    rw [Int.ediv_eq_zero_of_lt (h8 (by omega)) BitVec.toInt_lt, Int.zero_mul, Int.zero_mul]

theorem fromBytes_eq {bytes : List (BitVec 8)} (hsize : buffer.size = (fromBytes bytes).size)
    (hlength : buffer.buffer.length = bytes.length) : fromBytes buffer.buffer = buffer := by
  obtain ⟨buffer, size, hlt, hle⟩ := buffer
  simp only [fromBytes] at *
  simp [hsize, hlength]

theorem prbSize_eq (width : Nat) : getCompressedPrbSize ⟨.bfp, width⟩ = 3 * width + 1 := by
  simp only [getCompressedPrbSize, isCompressionParamPresent, nofSubcarriersPerRb, roundUpToBytes]
  simp
  omega

theorem admits_fifteen (width : Nat) (samples : List (BitVec 16)) : Admits width samples 15 := by
  intro sample _
  rw [fits_sshiftRight_iff]
  exact Nat.lt_of_lt_of_le (magnitude_lt sample) (Nat.pow_le_pow_right (by decide) (by omega))

theorem compresses_iff (hpos : 0 < width) (hwidth : width ≤ 16) (hlength : samples.length = 24) :
    Compresses width samples ↔ Representable width samples := by
  have hne : samples ≠ [] := by
    rintro rfl
    cases hlength
  have hexponent : determineExponent (maxAbs samples) width ≤ 16 - width := by
    rw [determineExponent]
    omega
  have hnonneg (exponent : Nat) (sample : BitVec 16) : 0 ≤ (sample.sshiftRight exponent).toInt ↔ 0 ≤ sample.toInt := by
    rw [BitVec.toInt_sshiftRight, Int.shiftRight_eq_div_pow,
      Int.le_ediv_iff_mul_le (by exact_mod_cast Nat.two_pow_pos exponent), Int.zero_mul]
  constructor
  · rintro ⟨exponent, hleast, hblock, -⟩
    obtain ⟨packed, hcompress, -⟩ := hblock (List.replicate (3 * width + 1) 0)
      (List.length_replicate.trans (prbSize_eq width).symm)
    have hle : exponent ≤ 15 := (hleast 15).mp (admits_fifteen width samples)
    simp only [compressPrb, List.replicate_succ] at hcompress
    obtain ⟨buffer, hpack, hresult⟩ := bind_ok hcompress
    have hhead := (List.cons.inj (Except.ok.inj hresult)).1
    have heq : determineExponent (maxAbs samples) width = exponent := by
      have := congrArg BitVec.toNat hhead
      simp only [BitVec.toNat_ofNat] at this
      omega
    rw [heq] at hpack
    refine ⟨fun h8 sample hsample => ?_, ?_⟩
    · have hsmall := small_of_packSamples hpos h8 hpack _ (List.mem_map_of_mem hsample)
      rw [small_iff_nonneg hpos h8 ((hleast exponent).mpr (Nat.le_refl _) sample hsample), hnonneg] at hsmall
      exact hsmall
    · rw [← determineExponent_least_iff hpos hwidth hne, heq]
      exact hleast
  · rintro ⟨h8, hpower⟩
    have hleast := (determineExponent_least_iff hpos hwidth hne).mpr hpower
    have hfits : ∀ sample ∈ samples.map fun sample => sample.sshiftRight (determineExponent (maxAbs samples) width),
        Fits width sample := by
      intro shifted hshifted
      obtain ⟨sample, hsample, rfl⟩ := List.mem_map.mp hshifted
      exact (hleast _).mpr (Nat.le_refl _) sample hsample
    refine ⟨_, hleast, fun compPrb hcompPrb => ?_, fun sample _ => restored_bounds (by omega) sample⟩
    obtain ⟨first, rest, rfl⟩ := List.exists_cons_of_ne_nil
      (fun hnil : compPrb = [] => by rw [hnil, List.length_nil, prbSize_eq] at hcompPrb; omega)
    have hrest : rest.length = 3 * width := by
      rw [List.length_cons, prbSize_eq] at hcompPrb
      omega
    have hsize : (fromBytes rest).size = 24 * width := by
      simp only [fromBytes, hrest]
      omega
    obtain ⟨buffer, hpack, hsize', hlength', hread⟩ := (@undoes_iff width hpos hwidth _ hfits (fromBytes rest)
      (by rw [List.length_map, hlength, hsize]) (by omega)).mpr fun h shifted hshifted => by
        obtain ⟨sample, hsample, rfl⟩ := List.mem_map.mp hshifted
        exact (hnonneg _ sample).mpr (h8 h sample hsample)
    refine ⟨buffer.buffer, ?_, by rw [hlength', prbSize_eq]; exact congrArg (· + 1) hrest, ?_⟩
    · simp only [compressPrb, hpack, ok_bind]
      rfl
    · rw [← fromBytes_eq hsize' hlength'] at hread
      rw [decompressPrb_ok (by rw [List.length_map, hlength]) hread, List.map_map]
      congr 1
      exact List.map_congr_left fun sample hsample => scaled_eq_restored hpos hexponent fun h => h8 h sample hsample

/-- The resource blocks of one width that go through the round trip, and the sequences that `pack_bytes` keeps. -/
theorem compressPrb_roundTrip_iff {width : Nat} (hpos : 0 < width) (hwidth : width ≤ 16) :
    (∀ samples : List (BitVec 16), samples.length = 24 →
      (Compresses width samples ↔ Representable width samples)) ∧
    ∀ (samples : List (BitVec 16)) (buffer : BitBuffer), (∀ sample ∈ samples, Fits width sample) →
      samples.length * width ≤ buffer.size → 8 ∣ buffer.size →
      (Undoes width samples buffer ↔ (width < 8 → ∀ sample ∈ samples, 0 ≤ sample.toInt)) :=
  ⟨fun _ => compresses_iff hpos hwidth, fun _ _ hfits => undoes_iff hpos hwidth hfits⟩

theorem compressPrb_roundTrip_nineBits :
    Compresses 9 ((List.range 24).map (BitVec.ofNat 16)) ∧
      Undoes 9 [BitVec.ofInt 16 (-3), 5#16] (fromBytes [0, 0, 0]) := by
  obtain ⟨hblock, hsequence⟩ := @compressPrb_roundTrip_iff 9 (by decide) (by decide)
  refine ⟨(hblock _ (by decide)).mpr ⟨fun h => absurd h (by decide), fun _ k _ h => ?_⟩,
    (hsequence _ _ (by simp [Fits]) (by decide) (by decide)).mpr fun h => absurd h (by decide)⟩
  have hzero := h 0 (by decide)
  have hpow : (0 : Int) < 2 ^ k := Int.pow_pos (by decide)
  change (0 : Int) = -2 ^ k at hzero
  omega

/-- The magnitude of a block of the least samples does not fit in 15 bits, and the exponent 0 drops all of them. -/
theorem compressPrb_loses_minimum :
    ¬Compresses 9 (List.replicate 24 0x8000#16) ∧
      compressPrb (List.replicate 28 0) (List.replicate 24 0x8000#16) 9 = .ok (List.replicate 28 0) ∧
      decompressPrb (List.replicate 28 0) 9 = .ok (List.replicate 24 0) := by
  refine ⟨fun h => ?_, by decide +kernel, by decide +kernel⟩
  refine ((compresses_iff (by decide) (by decide) List.length_replicate).mp h).2 (by decide) 15 (by decide) ?_
  intro sample hsample
  rw [List.eq_of_mem_replicate hsample]
  decide

end Srsran.Ofh.Bfp
