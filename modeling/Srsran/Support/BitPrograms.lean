import Srsran.Support.BitRoundTrip

/-! Messages of bit fields: the fields that an encoder writes one after the other, and programs that read
fields with a decoder. -/
namespace Srsran.Support
open BitDecoder BitEncoder

/-- A call of `bit_encoder::pack`. -/
structure BitWrite where
  val : Nat
  nBits : Nat
  deriving DecidableEq, Repr

/-- The value has its bits, and a call takes no more than 64. -/
def BitWrite.Fits (w : BitWrite) : Prop := w.val < 2 ^ w.nBits ∧ w.nBits ≤ 64

def bitCount : List BitWrite → Nat
  | [] => 0
  | w :: writes => w.nBits + bitCount writes

def writesValue : List BitWrite → Nat
  | [] => 0
  | w :: writes => w.val * 2 ^ bitCount writes + writesValue writes

@[simp] theorem bitCount_append (writes more : List BitWrite) :
    bitCount (writes ++ more) = bitCount writes + bitCount more := by
  induction writes with
  | nil => simp [bitCount]
  | cons w writes ih => simp [bitCount, ih, Nat.add_assoc]

variable {writes : List BitWrite}

theorem writesValue_lt (h : ∀ w ∈ writes, w.Fits) : writesValue writes < 2 ^ bitCount writes := by
  induction writes with
  | nil => exact Nat.one_pos
  | cons w writes ih =>
    rw [List.forall_mem_cons] at h
    have hrest := ih h.2
    rw [writesValue, bitCount, Nat.pow_add]
    calc w.val * 2 ^ bitCount writes + writesValue writes
        < (w.val + 1) * 2 ^ bitCount writes := by
          rw [Nat.succ_mul]
          omega
      _ ≤ _ := Nat.mul_le_mul_right _ h.1.1

theorem bytesValue_inj {bytes bytes' : List UInt8} (hlength : bytes.length = bytes'.length)
    (hvalue : bytesValue bytes = bytesValue bytes') : bytes = bytes' := by
  induction bytes generalizing bytes' with
  | nil => exact (List.length_eq_zero_iff.mp hlength.symm).symm
  | cons byte bytes ih =>
    cases bytes' with
    | nil => cases hlength
    | cons byte' bytes' =>
      have hlength' : bytes.length = bytes'.length := Nat.succ.inj hlength
      rw [bytesValue, bytesValue, hlength'] at hvalue
      have hlt := bytesValue_lt bytes
      have hlt' := bytesValue_lt bytes'
      rw [hlength'] at hlt
      have hdiv := congrArg (· / 256 ^ bytes'.length) hvalue
      have hmod := congrArg (· % 256 ^ bytes'.length) hvalue
      have hpos : 0 < 256 ^ bytes'.length := Nat.pow_pos (by decide)
      simp only [Nat.mul_comm _ (256 ^ bytes'.length), Nat.mul_add_div hpos,
        Nat.mul_add_mod, Nat.div_eq_of_lt hlt, Nat.div_eq_of_lt hlt', Nat.mod_eq_of_lt hlt,
        Nat.mod_eq_of_lt hlt', Nat.add_zero] at hdiv hmod
      rw [UInt8.toNat_inj.mp hdiv, ih hlength' hmod]

namespace BitEncoder

def packWrites (enc : BitEncoder) (writes : List BitWrite) : BitEncoder :=
  writes.foldl (fun enc w => enc.pack w.val w.nBits) enc

theorem packWrites_holds {enc : BitEncoder} {n value : Nat} (h : Holds enc n value)
    (hfits : ∀ w ∈ writes, w.Fits) :
    Holds (enc.packWrites writes) (n + bitCount writes) (value * 2 ^ bitCount writes + writesValue writes) := by
  induction writes generalizing enc n value with
  | nil => simpa [packWrites, bitCount, writesValue] using h
  | cons w writes ih =>
    rw [List.forall_mem_cons] at hfits
    obtain ⟨⟨hval, hbits⟩, hrest⟩ := hfits
    have hval' : w.val < 2 ^ 64 := Nat.lt_of_lt_of_le hval (Nat.pow_le_pow_right (by decide) hbits)
    have hall := ih (pack_holds h hbits hval') hrest
    rw [Nat.mod_eq_of_lt hval] at hall
    rw [packWrites, List.foldl_cons, bitCount, writesValue, ← Nat.add_assoc]
    have hvalue : (value * 2 ^ w.nBits + w.val) * 2 ^ bitCount writes + writesValue writes =
        value * 2 ^ (w.nBits + bitCount writes) + (w.val * 2 ^ bitCount writes + writesValue writes) := by
      rw [Nat.pow_add]
      ring
    rw [← hvalue]
    exact hall

end BitEncoder

def packed (writes : List BitWrite) : List UInt8 := (packWrites {} writes).bytes

section Packed
variable {writes : List BitWrite} (hfits : ∀ w ∈ writes, w.Fits) (haligned : 8 ∣ bitCount writes)
include hfits haligned

theorem length_packed : 8 * (packed writes).length = bitCount writes := by
  have hholds := packWrites_holds holds_nil hfits
  have hlength := hholds.length
  have hfree : (packWrites {} writes).free < 8 := Nat.mod_lt _ (by decide)
  rw [packed]
  omega

theorem bytesValue_packed : bytesValue (packed writes) = writesValue writes := by
  have hholds := packWrites_holds holds_nil hfits
  have hlength := hholds.length
  have hvalue := hholds.value_eq
  have hlength' := length_packed hfits haligned
  have hfree : (packWrites {} writes).free = 0 := by
    rw [packed] at hlength'
    omega
  rw [packed, hvalue, hfree]
  simp

theorem packWrites_append (buffer : List UInt8) :
    (BitEncoder.packWrites { bytes := buffer } writes).bytes = buffer ++ packed writes := by
  have hstart : BitEncoder.Holds { bytes := buffer } (8 * buffer.length) (bytesValue buffer) :=
    ⟨Nat.zero_lt_succ 7, by simp [BitEncoder.free], by simp [BitEncoder.free]⟩
  have hholds := BitEncoder.packWrites_holds hstart hfits
  have hlength := hholds.length
  have hvalue := hholds.value_eq
  have hpacked := length_packed hfits haligned
  have hfree : (packWrites { bytes := buffer } writes).free = 0 := by
    have hlt : (packWrites { bytes := buffer } writes).free < 8 := Nat.mod_lt _ (by decide)
    omega
  rw [hfree] at hlength hvalue
  apply bytesValue_inj
  · rw [List.length_append]
    omega
  · rw [bytesValue_append, bytesValue_packed hfits haligned, hvalue, ← two_pow_eight_mul, hpacked]
    simp

end Packed

def Reads : BitDecoder → List BitWrite → BitDecoder → Prop
  | dec, [], dec' => dec' = dec
  | dec, w :: writes, dec' => ∃ mid, dec.unpack w.nBits = (some w.val, mid) ∧ Reads mid writes dec'

namespace Reads
variable {dec mid dec' : BitDecoder} {writes more : List BitWrite}

theorem append_iff : Reads dec (writes ++ more) dec' ↔ ∃ mid, Reads dec writes mid ∧ Reads mid more dec' := by
  induction writes generalizing dec with
  | nil => simp [Reads]
  | cons w writes ih =>
    simp only [List.cons_append, Reads, ih]
    constructor
    · rintro ⟨next, hw, mid, hwrites, hmore⟩
      exact ⟨mid, ⟨next, hw, hwrites⟩, hmore⟩
    · rintro ⟨mid, ⟨next, hw, hwrites⟩, hmore⟩
      exact ⟨next, hw, mid, hwrites, hmore⟩

theorem offset_lt (h : Reads dec writes dec') (hoffset : dec.offset < 8) : dec'.offset < 8 := by
  induction writes generalizing dec with
  | nil => rwa [show dec' = dec from h]
  | cons w writes ih =>
    obtain ⟨mid, hw, hwrites⟩ := h
    refine ih hwrites ?_
    have hmid := @offset_unpackLoop dec.bytes dec.offset w.nBits 0 hoffset
    rw [unpack] at hw
    rwa [hw] at hmid

theorem of_holds {k r : Nat} (hr : r < 2 ^ k) (hfits : ∀ w ∈ writes, w.Fits)
    (h : Holds dec (bitCount writes + k) (writesValue writes * 2 ^ k + r)) :
    ∃ dec', Reads dec writes dec' ∧ Holds dec' k r := by
  induction writes generalizing dec with
  | nil =>
    refine ⟨dec, rfl, ?_⟩
    simpa [bitCount, writesValue] using h
  | cons w writes ih =>
    rw [List.forall_mem_cons] at hfits
    have hrest := writesValue_lt hfits.2
    have hlt : writesValue writes * 2 ^ k + r < 2 ^ (bitCount writes + k) := by
      rw [Nat.pow_add]
      calc _ < (writesValue writes + 1) * 2 ^ k := by
            rw [Nat.succ_mul]
            omega
        _ ≤ _ := Nat.mul_le_mul_right _ hrest
    have hvalue : writesValue (w :: writes) * 2 ^ k + r =
        w.val * 2 ^ (bitCount writes + k) + (writesValue writes * 2 ^ k + r) := by
      rw [writesValue, Nat.pow_add]
      ring
    rw [bitCount, Nat.add_assoc, hvalue] at h
    obtain ⟨mid, hw, hmid⟩ := Holds.unpack hlt h
    obtain ⟨dec', hwrites, hdec'⟩ := ih hfits.2 hmid
    exact ⟨dec', ⟨mid, hw, hwrites⟩, hdec'⟩

/-- Fields that are read are the first digits of what the decoder held. -/
theorem holds {n value : Nat} (h : Reads dec writes dec') (hdec : Holds dec n value) :
    ∃ k r, n = bitCount writes + k ∧ value = writesValue writes * 2 ^ k + r ∧ Holds dec' k r := by
  induction writes generalizing dec n value with
  | nil =>
    obtain rfl : dec' = dec := h
    exact ⟨n, value, by simp [bitCount], by simp [writesValue], hdec⟩
  | cons w writes ih =>
    obtain ⟨mid, hw, hwrites⟩ := h
    have hle : w.nBits ≤ n := by
      by_contra hlt
      have hlength := hdec.length
      have hnone := @unpackLoop_pastEnd dec.bytes dec.offset w.nBits 0 hdec.offset_lt (by omega)
      rw [unpack] at hw
      rw [hw] at hnone
      cases hnone
    obtain ⟨-, rest, hrest, hmid⟩ := unpack_holds hdec hle
    rw [hrest, Prod.mk.injEq, Option.some.injEq] at hw
    obtain ⟨hval, rfl⟩ := hw
    obtain ⟨k, r, hn, hvalue, hdec'⟩ := ih hwrites hmid
    refine ⟨k, r, ?_, ?_, hdec'⟩
    · rw [bitCount]
      omega
    · have hdiv := Nat.div_add_mod value (2 ^ (n - w.nBits))
      have hcount : n - w.nBits = bitCount writes + k := hn
      rw [hval, hvalue, hcount, Nat.pow_add] at hdiv
      rw [← hdiv, writesValue]
      ring

theorem val_lt (h : Reads dec writes dec') (hoffset : dec.offset < 8) : ∀ w ∈ writes, w.val < 2 ^ w.nBits := by
  induction writes generalizing dec with
  | nil => exact nofun
  | cons w writes ih =>
    obtain ⟨mid, hw, hwrites⟩ := h
    have hmid : Reads dec [w] mid := ⟨mid, hw, rfl⟩
    rw [List.forall_mem_cons]
    exact ⟨unpack_lt (Nat.le_of_lt hoffset) hw, ih hwrites (hmid.offset_lt hoffset)⟩

end Reads

theorem BitDecoder.Holds.bytes_eq {dec : BitDecoder} {tail : List UInt8}
    (h : Holds dec (8 * tail.length) (bytesValue tail)) : dec = { bytes := tail } := by
  have hlength := h.length
  have hoffset := h.offset_lt
  have hvalue := h.value_eq
  obtain ⟨bytes, offset⟩ := dec
  simp only at hlength hoffset hvalue
  obtain rfl : offset = 0 := by omega
  have hsame : bytes.length = tail.length := by omega
  rw [two_pow_eight_mul, ← hsame, Nat.mod_eq_of_lt (bytesValue_lt bytes)] at hvalue
  rw [bytesValue_inj hsame hvalue]

section Inverse
variable {writes : List BitWrite}

theorem reads_packed (hfits : ∀ w ∈ writes, w.Fits) (haligned : 8 ∣ bitCount writes) (tail : List UInt8) :
    Reads { bytes := packed writes ++ tail } writes { bytes := tail } := by
  have hstart := holds_start (packed writes ++ tail)
  rw [bytesValue_append, bytesValue_packed hfits haligned, List.length_append, Nat.mul_add,
    length_packed hfits haligned, ← two_pow_eight_mul] at hstart
  have htail : bytesValue tail < 2 ^ (8 * tail.length) := by
    rw [two_pow_eight_mul]
    exact bytesValue_lt tail
  obtain ⟨dec', hreads, hdec'⟩ := Reads.of_holds htail hfits hstart
  rw [hdec'.bytes_eq] at hreads
  exact hreads

theorem packed_of_reads {buffer : List UInt8} {dec' : BitDecoder} (h : Reads { bytes := buffer } writes dec')
    (hbits : ∀ w ∈ writes, w.nBits ≤ 64) (haligned : 8 ∣ bitCount writes) :
    buffer = packed writes ++ dec'.bytes := by
  have hfits : ∀ w ∈ writes, w.Fits := fun w hw => ⟨h.val_lt (Nat.zero_lt_succ 7) w hw, hbits w hw⟩
  obtain ⟨k, r, hn, hvalue, hdec'⟩ := h.holds (holds_start buffer)
  have hlength := hdec'.length
  have hoffset := hdec'.offset_lt
  have hpacked := length_packed hfits haligned
  have hk : k = 8 * dec'.bytes.length := by omega
  have hr := hdec'.value_eq
  rw [hk, two_pow_eight_mul, Nat.mod_eq_of_lt (bytesValue_lt _)] at hr
  apply bytesValue_inj
  · rw [List.length_append]
    omega
  · rw [bytesValue_append, bytesValue_packed hfits haligned, hvalue, hr, hk, two_pow_eight_mul]

end Inverse

/-- A program that reads fields. It fails with `none`, and stops there. -/
def Unpacker (α : Type) : Type := BitDecoder → Option α × BitDecoder

namespace Unpacker
variable {α β : Type}

instance : Monad Unpacker where
  pure a := fun dec => (some a, dec)
  bind p f := fun dec =>
    match p dec with
    | (some a, dec) => f a dec
    | (none, dec) => (none, dec)

def fail : Unpacker α := fun dec => (none, dec)

def bits (nBits : Nat) : Unpacker Nat := fun dec => dec.unpack nBits

/-- A field of which it is not checked whether it could be read. -/
def bitsUnchecked (nBits : Nat) : Unpacker Nat := fun dec => (some (dec.unpackValue nBits), (dec.unpack nBits).2)

def flag : Unpacker Bool := do
  let val ← bits 1
  pure (val != 0)

def flagUnchecked : Unpacker Bool := do
  let val ← bitsUnchecked 1
  pure (val != 0)

def check (p : Prop) [Decidable p] : Unpacker Unit := if p then pure () else fail

def expect (val nBits : Nat) : Unpacker Unit := do
  let field ← bits nBits
  check (field = val)

def bitsIf (present : Bool) (nBits : Nat) (absent : Option Nat) : Unpacker (Option Nat) :=
  if present then some <$> bits nBits else pure absent

def times : Nat → Unpacker α → Unpacker (List α)
  | 0, _ => pure []
  | n + 1, p => do
    let a ← p
    let rest ← times n p
    pure (a :: rest)

/-- A program succeeds with a value. -/
def Yields (p : Unpacker α) (dec : BitDecoder) (a : α) (dec' : BitDecoder) : Prop := p dec = (some a, dec')

/-- A program stays within the buffer, whether it succeeds or fails. -/
def StaysWithin (p : Unpacker α) : Prop := ∀ dec buffer, dec.Valid buffer → (p dec).2.Valid buffer

variable {p : Unpacker α} {f : α → Unpacker β} {dec dec' : BitDecoder} {a : α} {b : β}

theorem yields_pure {a' : α} : (pure a : Unpacker α).Yields dec a' dec' ↔ a' = a ∧ dec' = dec := by
  constructor
  · rintro h
    cases h
    exact ⟨rfl, rfl⟩
  · rintro ⟨rfl, rfl⟩
    rfl

theorem yields_bind : (p >>= f).Yields dec b dec' ↔ ∃ a mid, p.Yields dec a mid ∧ (f a).Yields mid b dec' := by
  have hbind : (p >>= f) dec = match p dec with
    | (some a, dec) => f a dec
    | (none, dec) => (none, dec) := rfl
  rw [Yields, hbind]
  cases hp : p dec with
  | mk r mid =>
    cases r with
    | none =>
      refine iff_of_false (nomatch ·) ?_
      rintro ⟨a, mid', h, -⟩
      rw [Yields, hp] at h
      cases h
    | some a =>
      constructor
      · exact fun h => ⟨a, mid, hp, h⟩
      · rintro ⟨a', mid', h, hb⟩
        rw [Yields, hp] at h
        cases h
        exact hb

theorem yields_map {g : α → β} : (g <$> p).Yields dec b dec' ↔ ∃ a, p.Yields dec a dec' ∧ b = g a := by
  have hmap : g <$> p = p >>= fun a => pure (g a) := rfl
  rw [hmap, yields_bind]
  simp only [yields_pure]
  constructor
  · rintro ⟨a, mid, hp, rfl, rfl⟩
    exact ⟨a, hp, rfl⟩
  · rintro ⟨a, hp, rfl⟩
    exact ⟨a, dec', hp, rfl, rfl⟩

theorem yields_check {c : Prop} [Decidable c] {u : Unit} : (check c).Yields dec u dec' ↔ c ∧ dec' = dec := by
  rw [check]
  split
  · rename_i hc
    simp [yields_pure, hc]
  · rename_i hc
    refine iff_of_false (nomatch ·) fun h => hc h.1

variable {nBits val : Nat}

theorem yields_bits : (bits nBits).Yields dec val dec' ↔ Reads dec [⟨val, nBits⟩] dec' := by
  simp [Yields, bits, Reads]

theorem bytes_of_unpackLoop_none {bytes : List UInt8} {offset : Nat}
    (h : (unpackLoop bytes offset nBits val).1 = none) :
    (unpackLoop bytes offset nBits val).2.bytes = [] := by
  induction bytes generalizing offset nBits val with
  | nil => rfl
  | cons byte rest ih =>
    rw [unpackLoop] at h ⊢
    split at h
    · cases h
    split at h
    · cases h
    · rename_i hbits hlast
      rw [if_neg hbits, if_neg hlast]
      exact ih h

theorem bytes_of_reads {w : BitWrite} (hbits : 0 < w.nBits)
    (h : Reads dec (w :: writes) dec') : dec.bytes ≠ [] := by
  obtain ⟨mid, hw, -⟩ := h
  intro hbytes
  rw [unpack, hbytes, unpackLoop, if_neg (Nat.ne_of_gt hbits)] at hw
  cases hw

/-- A field that is not checked was read if there is more to be read. -/
theorem yields_bitsUnchecked (h : (bitsUnchecked nBits).Yields dec val dec')
    (hbytes : dec'.bytes ≠ []) : Reads dec [⟨val, nBits⟩] dec' := by
  obtain ⟨hval, hmid⟩ := Prod.mk.inj h
  cases hr : (dec.unpack nBits).1 with
  | none =>
    rw [← hmid] at hbytes
    exact absurd (bytes_of_unpackLoop_none hr) hbytes
  | some read =>
    have hunpack : dec.unpack nBits = (some read, dec') := Prod.ext hr hmid
    rw [unpackValue, valueLoop_eq hunpack] at hval
    rw [← Option.some.inj hval]
    exact ⟨dec', hunpack, rfl⟩

theorem bitsUnchecked_of_reads (h : Reads dec [⟨val, nBits⟩] dec') :
    (bitsUnchecked nBits).Yields dec val dec' := by
  obtain ⟨mid, hunpack, rfl⟩ := h
  rw [Yields, bitsUnchecked, unpackValue, valueLoop_eq hunpack, hunpack]

/-- A program yields values that satisfy `P`, and those of them that satisfy `N` exactly if their fields
are read. -/
structure Codes (N P : α → Prop) (p : Unpacker α) (writes : α → List BitWrite) : Prop where
  sound : ∀ dec a dec', dec.offset < 8 → p.Yields dec a dec' →
    dec'.offset < 8 ∧ P a ∧ (N a → Reads dec (writes a) dec')
  complete : ∀ dec a dec', dec.offset < 8 → N a → P a → Reads dec (writes a) dec' → p.Yields dec a dec'

namespace Codes
variable {γ : Type} {N P : γ → Prop} {Np Q : α → Prop} {g : α → Unpacker γ} {writes : α → List BitWrite}
  {more : γ → List BitWrite} {q : Unpacker γ}

theorem congr {more' : γ → List BitWrite} (h : Codes N P q more) (hmore : ∀ c, N c → P c → more c = more' c) :
    Codes N P q more' where
  sound := by
    intro dec c dec' hoffset hc
    obtain ⟨hoffset', hP, hreads⟩ := h.sound dec c dec' hoffset hc
    exact ⟨hoffset', hP, fun hN => hmore c hN hP ▸ hreads hN⟩
  complete := by
    intro dec c dec' hoffset hN hP hreads
    rw [← hmore c hN hP] at hreads
    exact h.complete dec c dec' hoffset hN hP hreads

theorem bits (nBits : Nat) : Codes (fun _ => True) (fun _ => True) (bits nBits) (fun val => [⟨val, nBits⟩]) where
  sound := by
    intro dec val dec' hoffset h
    rw [yields_bits] at h
    exact ⟨h.offset_lt hoffset, trivial, fun _ => h⟩
  complete := fun _ _ _ _ _ _ h => yields_bits.mpr h

theorem bool_of_reads {val : Nat} (hoffset : dec.offset < 8) (h : Reads dec [⟨val, 1⟩] dec') :
    val = (val != 0).toNat := by
  have hlt := h.val_lt hoffset _ List.mem_cons_self
  simp only at hlt
  obtain rfl | rfl : val = 0 ∨ val = 1 := by omega
  · rfl
  · rfl

theorem bool_toNat (b : Bool) : b = (b.toNat != 0) := by
  cases b <;> rfl

theorem flag : Codes (fun _ => True) (fun _ => True) flag (fun b => [⟨b.toNat, 1⟩]) where
  sound := by
    intro dec b dec' hoffset h
    rw [Unpacker.flag, yields_bind] at h
    obtain ⟨val, mid, hval, h⟩ := h
    obtain ⟨rfl, rfl⟩ := yields_pure.mp h
    rw [yields_bits] at hval
    rw [← bool_of_reads hoffset hval]
    exact ⟨hval.offset_lt hoffset, trivial, fun _ => hval⟩
  complete := by
    intro dec b dec' _ _ _ h
    rw [Unpacker.flag, yields_bind]
    exact ⟨_, dec', yields_bits.mpr h, yields_pure.mpr ⟨bool_toNat b, rfl⟩⟩

theorem expect (val nBits : Nat) :
    Codes (fun _ => True) (fun _ => True) (expect val nBits) (fun _ => [⟨val, nBits⟩]) where
  sound := by
    intro dec u dec' hoffset h
    rw [Unpacker.expect, yields_bind] at h
    obtain ⟨field, mid, hfield, h⟩ := h
    obtain ⟨rfl, rfl⟩ := yields_check.mp h
    rw [yields_bits] at hfield
    exact ⟨hfield.offset_lt hoffset, trivial, fun _ => hfield⟩
  complete := by
    intro dec u dec' _ _ _ h
    rw [Unpacker.expect, yields_bind]
    exact ⟨val, dec', yields_bits.mpr h, yields_check.mpr ⟨rfl, rfl⟩⟩

theorem bitsIf (present : Bool) (nBits : Nat) :
    Codes (fun _ => True) (fun o => present = o.isSome) (bitsIf present nBits none)
      (fun o => o.toList.map (⟨·, nBits⟩)) where
  sound := by
    intro dec o dec' hoffset h
    rw [Unpacker.bitsIf] at h
    split at h
    · rename_i hpresent
      obtain ⟨val, hval, rfl⟩ := yields_map.mp h
      rw [yields_bits] at hval
      exact ⟨hval.offset_lt hoffset, hpresent, fun _ => hval⟩
    · rename_i hpresent
      obtain ⟨rfl, rfl⟩ := yields_pure.mp h
      exact ⟨hoffset, by simpa using hpresent, fun _ => rfl⟩
  complete := by
    intro dec o dec' _ _ hpresent h
    rw [Unpacker.bitsIf]
    cases o with
    | none =>
      rw [if_neg (by simp [hpresent])]
      exact yields_pure.mpr ⟨rfl, h⟩
    | some val =>
      rw [if_pos (hpresent.trans Option.isSome_some)]
      exact yields_map.mpr ⟨val, yields_bits.mpr h, rfl⟩

theorem times (n : Nat) (hp : Codes (fun _ => True) (fun _ => True) p writes) :
    Codes (fun _ => True) (fun as => as.length = n) (times n p) (fun as => as.flatMap writes) where
  sound := by
    induction n with
    | zero =>
      intro dec as dec' hoffset h
      obtain ⟨rfl, rfl⟩ := yields_pure.mp h
      exact ⟨hoffset, rfl, fun _ => rfl⟩
    | succ n ih =>
      intro dec as dec' hoffset h
      rw [Unpacker.times, yields_bind] at h
      obtain ⟨a, mid, ha, h⟩ := h
      rw [yields_bind] at h
      obtain ⟨rest, mid', hrest, h⟩ := h
      obtain ⟨rfl, rfl⟩ := yields_pure.mp h
      obtain ⟨hmid, -, hread⟩ := hp.sound dec a mid hoffset ha
      obtain ⟨hmid', hlength, hreads⟩ := ih mid rest dec' hmid hrest
      exact ⟨hmid', congrArg Nat.succ hlength, fun _ =>
        Reads.append_iff.mpr ⟨mid, hread trivial, hreads trivial⟩⟩
  complete := by
    induction n with
    | zero =>
      intro dec as dec' _ _ hlength h
      rw [List.length_eq_zero_iff] at hlength
      subst hlength
      exact yields_pure.mpr ⟨rfl, h⟩
    | succ n ih =>
      intro dec as dec' hoffset _ hlength h
      cases as with
      | nil => cases hlength
      | cons a rest =>
        obtain ⟨mid, ha, hrest⟩ := Reads.append_iff.mp h
        rw [Unpacker.times, yields_bind]
        refine ⟨a, mid, hp.complete dec a mid hoffset trivial trivial ha, ?_⟩
        rw [yields_bind]
        exact ⟨rest, dec', ih mid rest dec' (ha.offset_lt hoffset) trivial (Nat.succ.inj hlength) hrest,
          yields_pure.mpr ⟨rfl, rfl⟩⟩

/-- One part after the other: `get` finds the value of the first part in that of the whole. -/
theorem bind (get : γ → α) (hp : Codes Np Q p writes) (hN : ∀ c, N c → Np (get c))
    (hQ : ∀ c, N c → P c → Q (get c)) (hg : ∀ a, Q a → Codes N (fun c => get c = a ∧ P c) (g a) more) :
    Codes N P (p >>= g) (fun c => writes (get c) ++ more c) where
  sound := by
    intro dec c dec' hoffset h
    rw [yields_bind] at h
    obtain ⟨a, mid, ha, h⟩ := h
    obtain ⟨hmid, hQa, hread⟩ := hp.sound dec a mid hoffset ha
    obtain ⟨hoffset', ⟨rfl, hP⟩, hmore⟩ := (hg a hQa).sound mid c dec' hmid h
    exact ⟨hoffset', hP, fun hNc => Reads.append_iff.mpr ⟨mid, hread (hN c hNc), hmore hNc⟩⟩
  complete := by
    intro dec c dec' hoffset hNc hP h
    obtain ⟨mid, hread, hmore⟩ := Reads.append_iff.mp h
    rw [yields_bind]
    have hQc := hQ c hNc hP
    exact ⟨get c, mid, hp.complete dec (get c) mid hoffset (hN c hNc) hQc hread,
      (hg (get c) hQc).complete mid c dec' (hread.offset_lt hoffset) hNc ⟨rfl, hP⟩ hmore⟩

theorem bindAny (get : γ → α) (hp : Codes (fun _ => True) (fun _ => True) p writes)
    (hg : ∀ a, Codes N (fun c => get c = a ∧ P c) (g a) more) :
    Codes N P (p >>= g) (fun c => writes (get c) ++ more c) :=
  hp.bind get (fun _ _ => trivial) (fun _ _ _ => trivial) fun a _ => hg a

theorem bindExpect (val nBits : Nat) (hq : Codes N P q more) :
    Codes N P (Unpacker.expect val nBits >>= fun _ => q) (fun c => ⟨val, nBits⟩ :: more c) where
  sound := by
    intro dec c dec' hoffset h
    rw [yields_bind] at h
    obtain ⟨u, mid, hu, h⟩ := h
    obtain ⟨hmid, -, hread⟩ := (expect val nBits).sound dec u mid hoffset hu
    obtain ⟨hoffset', hP, hmore⟩ := hq.sound mid c dec' hmid h
    exact ⟨hoffset', hP, fun hN => Reads.append_iff.mpr ⟨mid, hread trivial, hmore hN⟩⟩
  complete := by
    intro dec c dec' hoffset hN hP h
    obtain ⟨mid, hread, hmore⟩ := (@Reads.append_iff _ _ [_] _).mp h
    rw [yields_bind]
    exact ⟨(), mid, (expect val nBits).complete dec () mid hoffset trivial trivial hread,
      hq.complete mid c dec' (hread.offset_lt hoffset) hN hP hmore⟩

/-- The end of a program, where all parts of the value are known. -/
theorem pure (c : γ) (h : ∀ c', P c' ↔ c' = c) : Codes N P (Pure.pure c) (fun _ => []) where
  sound := by
    intro dec c' dec' hoffset hc
    obtain ⟨rfl, rfl⟩ := yields_pure.mp hc
    exact ⟨hoffset, (h c').mpr rfl, fun _ => rfl⟩
  complete := by
    intro dec c' dec' _ _ hP hreads
    exact yields_pure.mpr ⟨(h c').mp hP, hreads⟩

theorem bindLast {mk : α → γ} (get : γ → α) (hp : Codes Np Q p writes) (hN : ∀ c, N c → Np (get c))
    (hQ : ∀ c, N c → P c → Q (get c)) (hmk : ∀ a, Q a → ∀ c, get c = a ∧ P c ↔ c = mk a) :
    Codes N P (p >>= fun a => Pure.pure (mk a)) (fun c => writes (get c)) :=
  (hp.bind get hN hQ fun a ha => .pure (mk a) (hmk a ha)).congr fun _ _ _ => List.append_nil _

/-- A flag that is not checked is read like one that is, where another field follows. -/
theorem bindFlagUnchecked {g : Bool → Unpacker γ} (get : γ → Bool)
    (hmore : ∀ c, ∃ w rest, more c = w :: rest ∧ 0 < w.nBits)
    (hg : ∀ a, Codes N (fun c => get c = a ∧ P c) (g a) more) :
    Codes N P (flagUnchecked >>= g) (fun c => ⟨(get c).toNat, 1⟩ :: more c) where
  sound := by
    intro dec c dec' hoffset h
    rw [yields_bind] at h
    obtain ⟨b, mid, hb, h⟩ := h
    rw [flagUnchecked, yields_bind] at hb
    obtain ⟨val, mid', hval, hb⟩ := hb
    obtain ⟨rfl, rfl⟩ := yields_pure.mp hb
    have hmid : mid.offset < 8 := by
      rw [← (Prod.mk.inj hval).2]
      exact offset_unpackLoop hoffset
    obtain ⟨hoffset', ⟨hget, hP⟩, hreads⟩ := (hg _).sound mid c dec' hmid h
    refine ⟨hoffset', hP, fun hN => ?_⟩
    obtain ⟨w, rest, hw, hbits⟩ := hmore c
    have hnext := hreads hN
    have hread := yields_bitsUnchecked hval (bytes_of_reads hbits (hw ▸ hnext))
    have hfirst := hread
    rw [bool_of_reads hoffset hread, ← hget] at hfirst
    exact Reads.append_iff.mpr ⟨mid, hfirst, hnext⟩
  complete := by
    intro dec c dec' hoffset hN hP h
    obtain ⟨mid, hread, hnext⟩ := (@Reads.append_iff _ _ [_] _).mp h
    rw [yields_bind]
    refine ⟨get c, mid, ?_, (hg _).complete mid c dec' (hread.offset_lt hoffset) hN ⟨rfl, hP⟩ hnext⟩
    rw [flagUnchecked, yields_bind]
    exact ⟨_, mid, bitsUnchecked_of_reads hread, yields_pure.mpr ⟨bool_toNat _, rfl⟩⟩

end Codes

/-! Programs stay within the buffer if their parts do. -/

theorem StaysWithin.pure (a : α) : (Pure.pure a : Unpacker α).StaysWithin := fun _ _ h => h

theorem StaysWithin.fail : (Unpacker.fail : Unpacker α).StaysWithin := fun _ _ h => h

theorem StaysWithin.bind (hp : p.StaysWithin) (hf : ∀ a, (f a).StaysWithin) : (p >>= f).StaysWithin := by
  intro dec buffer h
  have hmid := hp dec buffer h
  have hbind : (p >>= f) dec = match p dec with
    | (some a, dec) => f a dec
    | (none, dec) => (none, dec) := rfl
  rw [hbind]
  cases hd : p dec with
  | mk r mid =>
    rw [hd] at hmid
    cases r with
    | none => exact hmid
    | some a => exact hf a mid buffer hmid

theorem StaysWithin.bits (nBits : Nat) : (bits nBits).StaysWithin := fun _ _ h => h.unpack nBits

theorem StaysWithin.bitsUnchecked (nBits : Nat) : (bitsUnchecked nBits).StaysWithin := fun _ _ h => h.unpack nBits

theorem StaysWithin.flag : flag.StaysWithin := (StaysWithin.bits 1).bind fun _ => .pure _

theorem StaysWithin.flagUnchecked : flagUnchecked.StaysWithin := (StaysWithin.bitsUnchecked 1).bind fun _ => .pure _

theorem StaysWithin.check (c : Prop) [Decidable c] : (check c).StaysWithin := by
  rw [Unpacker.check]
  split
  · exact .pure ()
  · exact .fail

theorem StaysWithin.expect (val nBits : Nat) : (expect val nBits).StaysWithin :=
  (StaysWithin.bits nBits).bind fun _ => .check _

theorem StaysWithin.bitsIf (present : Bool) (nBits : Nat) (absent : Option Nat) :
    (bitsIf present nBits absent).StaysWithin := by
  rw [Unpacker.bitsIf]
  split
  · exact (StaysWithin.bits nBits).bind fun _ => .pure _
  · exact .pure absent

theorem StaysWithin.times (hp : p.StaysWithin) (n : Nat) : (times n p).StaysWithin := by
  induction n with
  | zero => exact .pure []
  | succ n ih => exact hp.bind fun _ => ih.bind fun _ => .pure _

end Unpacker

end Srsran.Support
