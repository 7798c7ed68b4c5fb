import Srsran.Support.BitAligned

/-! What `bit_encoder` writes is what `bit_decoder` reads (`bit_encoding.cpp`), for bit fields, bytes and
alignments in any order. -/
namespace Srsran.Support

inductive BitItem where
  | bits (val : UInt64) (nBits : Fin 65)
  | bytes (data : List UInt8)
  | align
  deriving DecidableEq, Repr

inductive BitField where
  | bits (nBits : Fin 65)
  | bytes (nofBytes : Nat)
  | align
  deriving DecidableEq, Repr

/-- What a call of the decoder returns. -/
inductive BitContent where
  | bits (val : Nat)
  | bytes (data : List UInt8)
  | align
  deriving DecidableEq, Repr

namespace BitItem

def field : BitItem → BitField
  | .bits _ nBits => .bits nBits
  | .bytes data => .bytes data.length
  | .align => .align

def content : BitItem → BitContent
  | .bits val nBits => .bits (val.toNat % 2 ^ nBits.val)
  | .bytes data => .bytes data
  | .align => .align

def value : BitItem → Nat
  | .bits val nBits => val.toNat % 2 ^ nBits.val
  | .bytes data => bytesValue data
  | .align => 0

end BitItem

def BitField.width (pos : Nat) : BitField → Nat
  | .bits nBits => nBits
  | .bytes nofBytes => 8 * nofBytes
  | .align => (8 - pos % 8) % 8

def bitLength : Nat → List BitField → Nat
  | _, [] => 0
  | pos, field :: rest => field.width pos + bitLength (pos + field.width pos) rest

def itemsValue : Nat → List BitItem → Nat
  | _, [] => 0
  | pos, item :: rest =>
    let next := pos + item.field.width pos
    item.value * 2 ^ bitLength next (rest.map BitItem.field) + itemsValue next rest

variable (pos : Nat)

theorem bitLength_append (fields rest : List BitField) :
    bitLength pos (fields ++ rest) = bitLength pos fields + bitLength (pos + bitLength pos fields) rest := by
  induction fields generalizing pos with
  | nil => simp [bitLength]
  | cons field fields ih =>
    rw [List.cons_append, bitLength, bitLength, ih]
    simp only [Nat.add_assoc]

theorem itemsValue_append (items rest : List BitItem) :
    itemsValue pos (items ++ rest) =
      itemsValue pos items * 2 ^ bitLength (pos + bitLength pos (items.map BitItem.field))
        (rest.map BitItem.field) + itemsValue (pos + bitLength pos (items.map BitItem.field)) rest := by
  induction items generalizing pos with
  | nil => simp [itemsValue, bitLength]
  | cons item items ih =>
    simp only [List.cons_append, itemsValue, ih, List.map_cons, List.map_append, bitLength,
      bitLength_append, Nat.add_assoc]
    rw [Nat.pow_add]
    ring

theorem BitItem.value_lt (item : BitItem) (pos : Nat) : item.value < 2 ^ item.field.width pos := by
  cases item with
  | bits val nBits => exact Nat.mod_lt _ (Nat.two_pow_pos _)
  | bytes data =>
    simp only [BitItem.value, BitItem.field, BitField.width, two_pow_eight_mul]
    exact bytesValue_lt data
  | align => exact Nat.two_pow_pos _

theorem itemsValue_lt (items : List BitItem) :
    itemsValue pos items < 2 ^ bitLength pos (items.map BitItem.field) := by
  induction items generalizing pos with
  | nil => exact Nat.one_pos
  | cons item items ih =>
    have hrest := ih (pos + item.field.width pos)
    have hitem := item.value_lt pos
    rw [List.map_cons, bitLength, Nat.pow_add, itemsValue]
    calc item.value * 2 ^ bitLength (pos + item.field.width pos) (items.map BitItem.field) +
          itemsValue (pos + item.field.width pos) items
        < (item.value + 1) * 2 ^ bitLength (pos + item.field.width pos) (items.map BitItem.field) := by
          rw [Nat.succ_mul]
          omega
      _ ≤ _ := Nat.mul_le_mul_right _ hitem

namespace BitEncoder

def alignBytesZero (enc : BitEncoder) : BitEncoder := { enc with offset := 0 }

def nofBytes (enc : BitEncoder) : Nat := enc.bytes.length % 2 ^ 32

def nofBits (enc : BitEncoder) : Nat :=
  (8 * (enc.bytes.length - if enc.offset = 0 then 0 else 1) + enc.offset) % 2 ^ 32

def packItem (enc : BitEncoder) : BitItem → BitEncoder
  | .bits val nBits => enc.pack val.toNat nBits
  | .bytes data => enc.packBytes data
  | .align => enc.alignBytesZero

def packItems (enc : BitEncoder) (items : List BitItem) : BitEncoder := items.foldl packItem enc

variable {enc : BitEncoder} {n value : Nat}

theorem Holds.free_eq (h : Holds enc n value) : enc.free = (8 - n % 8) % 8 := by
  have hlength := h.length
  have hfree : enc.free < 8 := Nat.mod_lt _ (by decide)
  omega

theorem bytesValue_append (bytes rest : List UInt8) :
    bytesValue (bytes ++ rest) = bytesValue bytes * 256 ^ rest.length + bytesValue rest := by
  induction bytes with
  | nil => simp [bytesValue]
  | cons byte bytes ih =>
    rw [List.cons_append, bytesValue, bytesValue, ih, List.length_append, Nat.pow_add]
    ring

variable (h : Holds enc n value)
include h

theorem holds_foldl_pack (bytes : List UInt8) :
    Holds (bytes.foldl (fun enc byte => enc.pack byte.toNat 8) enc) (n + 8 * bytes.length)
      (value * 2 ^ (8 * bytes.length) + bytesValue bytes) := by
  induction bytes generalizing enc n value with
  | nil => simpa [bytesValue] using h
  | cons byte rest ih =>
    have hbyte : byte.toNat < 2 ^ 8 := byte.toNat_lt
    have hfirst := @pack_holds enc n value byte.toNat 8 h (by decide) (by omega)
    have hall := ih hfirst
    have hlength : n + 8 + 8 * rest.length = n + 8 * (rest.length + 1) := by omega
    have hvalue : (value * 2 ^ 8 + byte.toNat % 2 ^ 8) * 2 ^ (8 * rest.length) + bytesValue rest =
        value * 2 ^ (8 * (rest.length + 1)) + bytesValue (byte :: rest) := by
      rw [Nat.mod_eq_of_lt hbyte, bytesValue, Nat.mul_add, Nat.pow_add, two_pow_eight_mul]
      ring
    rw [hlength, hvalue] at hall
    exact hall

theorem packBytes_holds (bytes : List UInt8) : Holds (enc.packBytes bytes) (n + 8 * bytes.length)
      (value * 2 ^ (8 * bytes.length) + bytesValue bytes) := by
  rw [packBytes]
  split
  · rename_i hzero
    have hfree : enc.free = 0 := by rw [free, hzero]
    have hlength := h.length
    have hvalue := h.value_eq
    rw [hfree] at hlength hvalue
    refine ⟨h.offset_lt, ?_, ?_⟩
    · rw [free, hzero, List.length_append]
      omega
    · rw [free, hzero, bytesValue_append, hvalue, two_pow_eight_mul]
      simp
  · exact holds_foldl_pack h bytes

theorem alignBytesZero_holds : Holds enc.alignBytesZero (n + enc.free) (value * 2 ^ enc.free) := by
  have hfree : enc.alignBytesZero.free = 0 := by simp [alignBytesZero, free]
  refine ⟨Nat.zero_lt_succ 7, ?_, ?_⟩
  · rw [hfree, Nat.add_zero]
    exact h.length
  · rw [hfree, Nat.pow_zero, Nat.mul_one]
    exact h.value_eq

theorem packItem_holds (item : BitItem) : Holds (enc.packItem item) (n + item.field.width n)
      (value * 2 ^ item.field.width n + item.value) := by
  cases item with
  | bits val nBits => exact pack_holds h (Nat.le_of_lt_succ nBits.isLt) val.toNat_lt
  | bytes data => exact packBytes_holds h data
  | align =>
    have haligned := alignBytesZero_holds h
    rw [h.free_eq] at haligned
    exact haligned

theorem packItems_holds (items : List BitItem) :
    Holds (enc.packItems items) (n + bitLength n (items.map BitItem.field))
      (value * 2 ^ bitLength n (items.map BitItem.field) + itemsValue n items) := by
  induction items generalizing enc n value with
  | nil => simpa [packItems, bitLength, itemsValue] using h
  | cons item items ih =>
    have hall := ih (packItem_holds h item)
    rw [packItems, List.foldl_cons, List.map_cons, bitLength, itemsValue, ← Nat.add_assoc]
    have hvalue : (value * 2 ^ item.field.width n + item.value) *
          2 ^ bitLength (n + item.field.width n) (items.map BitItem.field) +
          itemsValue (n + item.field.width n) items =
        value * 2 ^ (item.field.width n + bitLength (n + item.field.width n) (items.map BitItem.field)) +
          (item.value * 2 ^ bitLength (n + item.field.width n) (items.map BitItem.field) +
            itemsValue (n + item.field.width n) items) := by
      rw [Nat.pow_add]
      ring
    rw [← hvalue]
    exact hall

theorem Holds.nofBits : enc.nofBits = n % 2 ^ 32 := by
  have hlength := h.length
  have hoffset := h.offset_lt
  rw [free] at hlength
  rw [BitEncoder.nofBits]
  congr 1
  split <;> omega

end BitEncoder

namespace BitDecoder

def nofBits (dec : BitDecoder) (length : Nat) : Nat :=
  (dec.offset + 8 * (length - dec.bytes.length)) % 2 ^ 32

def unpackBytesLoop : Nat → BitDecoder → Option (List UInt8) × BitDecoder
  | 0, dec => (some [], dec)
  | n + 1, dec =>
    match dec.unpack 8 with
    | (none, dec) => (none, dec)
    | (some byte, dec) =>
      let (bytes, dec) := unpackBytesLoop n dec
      (bytes.map (UInt8.ofNat byte :: ·), dec)

def unpackBytes (dec : BitDecoder) (nofBytes : Nat) : Option (List UInt8) × BitDecoder :=
  if nofBytes = 0 then (some [], dec)
  else if nofBytes > dec.bytes.length then (none, dec)
  else if dec.offset = 0 then
    (some (dec.bytes.take nofBytes), { dec with bytes := dec.bytes.drop nofBytes })
  else unpackBytesLoop nofBytes dec

def unpackField (dec : BitDecoder) : BitField → Option BitContent × BitDecoder
  | .bits nBits =>
    let (val, dec) := dec.unpack nBits
    (val.map .bits, dec)
  | .bytes nofBytes =>
    let (bytes, dec) := dec.unpackBytes nofBytes
    (bytes.map .bytes, dec)
  | .align => (some .align, dec.alignBytes)

/-- Reads one field after the other, whether or not the reads succeed. -/
def unpackFields : BitDecoder → List BitField → List (Option BitContent) × BitDecoder
  | dec, [] => ([], dec)
  | dec, field :: rest =>
    let (content, dec) := dec.unpackField field
    let (contents, dec) := unpackFields dec rest
    (content :: contents, dec)

variable {dec : BitDecoder} {k r : Nat}

theorem Holds.unpack (hr : r < 2 ^ k) {w v : Nat} (h : Holds dec (w + k) (v * 2 ^ k + r)) :
    ∃ rest, dec.unpack w = (some v, rest) ∧ Holds rest k r := by
  obtain ⟨-, rest, hunpack, hrest⟩ := unpack_holds h (Nat.le_add_right w k)
  have hk : w + k - w = k := Nat.add_sub_cancel_left w k
  have hdiv : (v * 2 ^ k + r) / 2 ^ k = v := by
    rw [Nat.mul_comm, Nat.mul_add_div (Nat.two_pow_pos k), Nat.div_eq_of_lt hr, Nat.add_zero]
  have hmod : (v * 2 ^ k + r) % 2 ^ k = r := by
    rw [Nat.mul_comm, Nat.mul_add_mod, Nat.mod_eq_of_lt hr]
  rw [hk, hdiv] at hunpack
  rw [hk, hmod] at hrest
  exact ⟨rest, hunpack, hrest⟩

theorem Holds.unpackBytesLoop (hr : r < 2 ^ k) {data : List UInt8}
    (h : Holds dec (8 * data.length + k) (bytesValue data * 2 ^ k + r)) :
    ∃ rest, BitDecoder.unpackBytesLoop data.length dec = (some data, rest) ∧ Holds rest k r := by
  induction data generalizing dec with
  | nil =>
    refine ⟨dec, rfl, ?_⟩
    simpa [bytesValue] using h
  | cons byte data ih =>
    have hlength : 8 * (byte :: data).length + k = 8 + (8 * data.length + k) := by
      rw [List.length_cons]
      omega
    have hvalue : bytesValue (byte :: data) * 2 ^ k + r =
        byte.toNat * 2 ^ (8 * data.length + k) + (bytesValue data * 2 ^ k + r) := by
      rw [bytesValue, Nat.pow_add, two_pow_eight_mul]
      ring
    have hlt : bytesValue data * 2 ^ k + r < 2 ^ (8 * data.length + k) := by
      have hdata := bytesValue_lt data
      rw [Nat.pow_add, two_pow_eight_mul]
      calc bytesValue data * 2 ^ k + r < (bytesValue data + 1) * 2 ^ k := by
            rw [Nat.succ_mul]
            omega
        _ ≤ 256 ^ data.length * 2 ^ k := Nat.mul_le_mul_right _ hdata
    rw [hlength, hvalue] at h
    obtain ⟨next, hunpack, hnext⟩ := Holds.unpack hlt h
    obtain ⟨rest, hloop, hrest⟩ := ih hnext
    refine ⟨rest, ?_, hrest⟩
    rw [List.length_cons, BitDecoder.unpackBytesLoop, hunpack]
    simp only [hloop, Option.map_some, UInt8.ofNat_toNat]

variable {n : Nat} {bytes : List UInt8}

theorem unpackBytesLoop_aligned (h : n ≤ bytes.length) :
    unpackBytesLoop n { bytes, offset := 0 } = (some (bytes.take n), { bytes := bytes.drop n, offset := 0 }) := by
  induction n generalizing bytes with
  | zero => rfl
  | succ n ih =>
    cases bytes with
    | nil => exact absurd h (Nat.not_succ_le_zero n)
    | cons byte bytes =>
      have hread := @unpackLoop_aligned 1 0 (byte :: bytes) (Nat.succ_le_succ (Nat.zero_le _))
      have hvalue : 0 + bytesValue ((byte :: bytes).take 1) = byte.toNat := by
        simp [bytesValue]
      rw [hvalue] at hread
      rw [unpackBytesLoop, BitDecoder.unpack, hread]
      simp only [List.drop_succ_cons, List.drop_zero, ih (Nat.le_of_succ_le_succ h), Option.map_some,
        UInt8.ofNat_toNat, List.take_succ_cons]

theorem unpackBytes_eq_loop (h : n ≤ dec.bytes.length) :
    dec.unpackBytes n = unpackBytesLoop n dec := by
  rw [unpackBytes]
  split
  · rename_i hzero
    rw [hzero, unpackBytesLoop]
  · rw [if_neg (Nat.not_lt_of_le h)]
    split
    · rename_i hoffset
      obtain ⟨bytes, offset⟩ := dec
      cases hoffset
      exact (unpackBytesLoop_aligned h).symm
    · rfl

theorem Holds.unpackBytes (hr : r < 2 ^ k) {data : List UInt8}
    (h : Holds dec (8 * data.length + k) (bytesValue data * 2 ^ k + r)) :
    ∃ rest, dec.unpackBytes data.length = (some data, rest) ∧ Holds rest k r := by
  have hlength := h.length
  rw [unpackBytes_eq_loop (by omega)]
  exact Holds.unpackBytesLoop hr h

theorem Holds.alignBytes (hr : r < 2 ^ k) (h : Holds dec ((8 - dec.offset) % 8 + k) r) :
    Holds dec.alignBytes k r := by
  have hoffset := h.offset_lt
  have hlength := h.length
  have hvalue := h.value_eq
  rw [BitDecoder.alignBytes]
  split
  · rename_i hne
    have hmod : (8 - dec.offset) % 8 = 8 - dec.offset := Nat.mod_eq_of_lt (by omega)
    rw [hmod] at hlength hvalue
    refine ⟨Nat.zero_lt_succ 7, ?_, ?_⟩
    · dsimp only
      rw [List.length_drop]
      omega
    · cases hbytes : dec.bytes with
      | nil =>
        rw [hbytes, List.length_nil] at hlength
        omega
      | cons byte rest =>
        rw [hbytes, List.length_cons] at hlength
        have hk : k = 8 * rest.length := by omega
        have hrest := congrArg (· % 2 ^ k) hvalue
        simp only [hbytes] at hrest
        rw [Nat.mod_mod_of_dvd _ (Nat.pow_dvd_pow 2 (Nat.le_add_left _ _)), Nat.mod_eq_of_lt hr, bytesValue,
          hk, two_pow_eight_mul, Nat.mul_add_mod_self_right] at hrest
        rw [hk, two_pow_eight_mul]
        exact hrest
  · rename_i hzero
    have hzero : dec.offset = 0 := not_not.mp hzero
    rw [hzero] at h
    rwa [show (8 - 0) % 8 = 0 from rfl, Nat.zero_add] at h

variable {pos : Nat}

theorem Holds.offset_eq {value : Nat} (h : Holds dec n value) (hpos : 8 ∣ pos + n) :
    dec.offset = pos % 8 := by
  have hlength := h.length
  have hoffset := h.offset_lt
  omega

theorem Holds.unpackItem {item : BitItem} (hr : r < 2 ^ k)
    (h : Holds dec (item.field.width pos + k) (item.value * 2 ^ k + r))
    (hpos : 8 ∣ pos + (item.field.width pos + k)) :
    ∃ rest, dec.unpackField item.field = (some item.content, rest) ∧ Holds rest k r := by
  cases item with
  | bits val nBits =>
    obtain ⟨rest, hunpack, hrest⟩ := Holds.unpack hr h
    have hvalue : dec.unpack nBits = (some (val.toNat % 2 ^ nBits.val), rest) := hunpack
    refine ⟨rest, ?_, hrest⟩
    simp only [BitItem.field, unpackField, hvalue, Option.map_some, BitItem.content]
  | bytes data =>
    obtain ⟨rest, hunpack, hrest⟩ := Holds.unpackBytes hr h
    refine ⟨rest, ?_, hrest⟩
    simp only [BitItem.field, unpackField, hunpack, Option.map_some, BitItem.content]
  | align =>
    have hoffset := h.offset_eq hpos
    refine ⟨dec.alignBytes, rfl, Holds.alignBytes hr ?_⟩
    simp only [BitItem.field, BitField.width, BitItem.value, Nat.zero_mul, Nat.zero_add] at h
    rwa [hoffset]

theorem Holds.unpackItems {items : List BitItem} (hr : r < 2 ^ k)
    (h : Holds dec (bitLength pos (items.map BitItem.field) + k) (itemsValue pos items * 2 ^ k + r))
    (hpos : 8 ∣ pos + (bitLength pos (items.map BitItem.field) + k)) :
    ∃ rest, dec.unpackFields (items.map BitItem.field) = (items.map (some ·.content), rest) ∧
      Holds rest k r := by
  induction items generalizing dec pos with
  | nil =>
    refine ⟨dec, rfl, ?_⟩
    simpa [bitLength, itemsValue] using h
  | cons item items ih =>
    rw [List.map_cons, bitLength, Nat.add_assoc] at h hpos
    have hitems := itemsValue_lt (pos + item.field.width pos) items
    have hlt : itemsValue (pos + item.field.width pos) items * 2 ^ k + r <
        2 ^ (bitLength (pos + item.field.width pos) (items.map BitItem.field) + k) := by
      rw [Nat.pow_add]
      calc _ < (itemsValue (pos + item.field.width pos) items + 1) * 2 ^ k := by
            rw [Nat.succ_mul]
            omega
        _ ≤ _ := Nat.mul_le_mul_right _ hitems
    have hvalue : itemsValue pos (item :: items) * 2 ^ k + r =
        item.value * 2 ^ (bitLength (pos + item.field.width pos) (items.map BitItem.field) + k) +
          (itemsValue (pos + item.field.width pos) items * 2 ^ k + r) := by
      rw [itemsValue, Nat.pow_add]
      ring
    rw [hvalue] at h
    obtain ⟨next, hunpack, hnext⟩ := Holds.unpackItem hlt h hpos
    rw [← Nat.add_assoc] at hpos
    obtain ⟨rest, hrest, hholds⟩ := ih hnext hpos
    refine ⟨rest, ?_, hholds⟩
    rw [List.map_cons, unpackFields, hunpack]
    simp only [hrest, List.map_cons]

theorem Holds.position {value length : Nat} (h : Holds dec n value) (hpos : 8 * length = pos + n) :
    dec.nofBits length = pos % 2 ^ 32 ∧ dec.nofBytes length = (pos + 7) / 8 % 2 ^ 32 := by
  have hlength := h.length
  have hoffset := h.offset_lt
  constructor
  · rw [BitDecoder.nofBits]
    congr 1
    omega
  · rw [BitDecoder.nofBytes]
    congr 1
    split <;> omega

/-- A position of a buffer: at its end the offset is 0. -/
structure Valid (dec : BitDecoder) (buffer : List UInt8) : Prop where
  offset_lt : dec.offset < 8
  atEnd : dec.bytes = [] → dec.offset = 0
  suffix : dec.bytes <:+ buffer

def remaining (dec : BitDecoder) : Nat := 8 * dec.bytes.length - dec.offset

theorem Valid.start (buffer : List UInt8) : Valid { bytes := buffer } buffer :=
  ⟨Nat.zero_lt_succ 7, fun _ => rfl, List.suffix_rfl⟩

variable {buffer : List UInt8}

theorem Valid.holds (h : Valid dec buffer) :
    Holds dec dec.remaining (bytesValue dec.bytes % 2 ^ dec.remaining) := by
  refine ⟨h.offset_lt, ?_, rfl⟩
  have hoffset := h.offset_lt
  rw [remaining]
  cases hbytes : dec.bytes with
  | nil =>
    rw [h.atEnd hbytes]
    rfl
  | cons byte rest =>
    rw [List.length_cons]
    omega

theorem unpackLoop_pastEnd {offset nBits val : Nat} (hoffset : offset < 8)
    (h : 8 * bytes.length - offset < nBits) : (unpackLoop bytes offset nBits val).1 = none := by
  induction bytes generalizing offset nBits val with
  | nil =>
    rw [unpackLoop, if_neg]
    exact Nat.ne_of_gt (Nat.lt_of_le_of_lt (Nat.zero_le _) h)
  | cons byte rest ih =>
    rw [List.length_cons] at h
    rw [unpackLoop, if_neg (by omega), if_neg (by omega)]
    exact ih (by decide) (by omega)

theorem unpackLoop_valid {offset nBits val : Nat}
    (h : Valid { bytes, offset } buffer) : Valid (unpackLoop bytes offset nBits val).2 buffer := by
  induction bytes generalizing offset nBits val with
  | nil => exact h
  | cons byte rest ih =>
    rw [unpackLoop]
    split
    · exact h
    · split
      · exact ⟨by dsimp only; omega, (by rintro ⟨⟩), h.suffix⟩
      · exact ih ⟨Nat.zero_lt_succ 7, fun _ => rfl, (List.suffix_cons byte rest).trans h.suffix⟩

variable (h : Valid dec buffer)
include h

theorem Valid.unpack_eq_none (nBits : Nat) : (dec.unpack nBits).1 = none ↔ dec.remaining < nBits := by
  constructor
  · intro hnone
    by_contra hle
    obtain ⟨-, rest, hunpack, -⟩ := unpack_holds h.holds (Nat.le_of_not_lt hle)
    rw [hunpack] at hnone
    cases hnone
  · exact unpackLoop_pastEnd h.offset_lt

theorem Valid.unpack (nBits : Nat) : Valid (dec.unpack nBits).2 buffer :=
  unpackLoop_valid h

theorem unpackBytesLoop_valid (n : Nat) : Valid (unpackBytesLoop n dec).2 buffer := by
  induction n generalizing dec with
  | zero => exact h
  | succ n ih =>
    have hnext := h.unpack 8
    rw [unpackBytesLoop]
    split
    · rename_i next hunpack
      rwa [hunpack] at hnext
    · rename_i byte next hunpack
      rw [hunpack] at hnext
      exact ih hnext

theorem Valid.unpackBytesLoop_eq_none (n : Nat) :
    (unpackBytesLoop n dec).1 = none ↔ dec.remaining < 8 * n := by
  induction n generalizing dec with
  | zero =>
    rw [unpackBytesLoop]
    simp
  | succ n ih =>
    have hfails := h.unpack_eq_none 8
    have hvalid := h.unpack 8
    rw [unpackBytesLoop]
    split
    · rename_i next hunpack
      rw [hunpack] at hfails
      have hshort := hfails.mp rfl
      exact iff_of_true rfl (by omega)
    · rename_i byte next hunpack
      rw [hunpack] at hfails hvalid
      have henough : 8 ≤ dec.remaining := Nat.le_of_not_lt fun hlt => nomatch hfails.mpr hlt
      obtain ⟨-, rest, hrest, hholds⟩ := unpack_holds h.holds henough
      rw [hunpack] at hrest
      cases hrest
      have hleft := hholds.length
      have hnext : next.remaining = dec.remaining - 8 := by
        rw [remaining]
        omega
      simp only [Option.map_eq_none_iff, ih hvalid, hnext]
      omega

theorem Valid.unpackBytes (n : Nat) : Valid (dec.unpackBytes n).2 buffer := by
  by_cases hn : n ≤ dec.bytes.length
  · rw [unpackBytes_eq_loop hn]
    exact unpackBytesLoop_valid h n
  · rw [BitDecoder.unpackBytes, if_neg (by omega), if_pos (Nat.lt_of_not_le hn)]
    exact h

theorem Valid.unpackBytes_eq_none (n : Nat) : (dec.unpackBytes n).1 = none ↔ dec.remaining < 8 * n := by
  by_cases hn : n ≤ dec.bytes.length
  · rw [unpackBytes_eq_loop hn]
    exact h.unpackBytesLoop_eq_none n
  · rw [BitDecoder.unpackBytes, if_neg (by omega), if_pos (Nat.lt_of_not_le hn), remaining]
    exact iff_of_true rfl (by omega)

theorem Valid.alignBytes : Valid dec.alignBytes buffer := by
  rw [BitDecoder.alignBytes]
  split
  · exact ⟨Nat.zero_lt_succ 7, fun _ => rfl, (List.drop_suffix 1 dec.bytes).trans h.suffix⟩
  · exact h

theorem Valid.unpackField (field : BitField) : Valid (dec.unpackField field).2 buffer ∧
      ((dec.unpackField field).1 = none ↔ dec.remaining < field.width dec.offset) := by
  cases field with
  | bits nBits =>
    refine ⟨h.unpack nBits, ?_⟩
    rw [BitField.width, ← h.unpack_eq_none]
    exact Option.map_eq_none_iff
  | bytes nofBytes =>
    refine ⟨h.unpackBytes nofBytes, ?_⟩
    rw [BitField.width, ← h.unpackBytes_eq_none]
    exact Option.map_eq_none_iff
  | align =>
    refine ⟨h.alignBytes, iff_of_false nofun ?_⟩
    have hoffset := h.offset_lt
    have hlength := h.holds.length
    rw [BitField.width]
    omega

theorem Valid.unpackFields (fields : List BitField) : Valid (dec.unpackFields fields).2 buffer := by
  induction fields generalizing dec with
  | nil => exact h
  | cons field fields ih => exact ih (h.unpackField field).1

end BitDecoder

namespace BitEncoder

/-- Reading the fields in which a buffer was written returns what was written, at the same positions. Any
reads end at a position of the buffer, and fail exactly when they ask for more bits than are left. -/
theorem bitEncoding_inverse (items rest : List BitItem) :
    let bytes := (BitEncoder.packItems {} (items ++ rest)).bytes
    let nofBits := bitLength 0 (items.map BitItem.field)
    ((BitEncoder.packItems {} items).nofBits = nofBits % 2 ^ 32 ∧
      (BitEncoder.packItems {} items).nofBytes = (nofBits + 7) / 8 % 2 ^ 32) ∧
    (∃ dec, ({ bytes } : BitDecoder).unpackFields (items.map BitItem.field) =
        (items.map (some ·.content), dec) ∧
      dec.nofBits bytes.length = nofBits % 2 ^ 32 ∧
      dec.nofBytes bytes.length = (nofBits + 7) / 8 % 2 ^ 32) ∧
    ∀ buffer fields field, ∃ contents dec,
      ({ bytes := buffer } : BitDecoder).unpackFields fields = (contents, dec) ∧ dec.Valid buffer ∧
        (dec.unpackField field).2.Valid buffer ∧
        ((dec.unpackField field).1 = none ↔ dec.remaining < field.width dec.offset) := by
  refine ⟨?_, ?_, fun buffer fields field => ?_⟩
  · have hholds := packItems_holds holds_nil items
    rw [Nat.zero_add] at hholds
    refine ⟨hholds.nofBits, ?_⟩
    have hlength := hholds.length
    have hfree : (BitEncoder.packItems {} items).free < 8 := Nat.mod_lt _ (by decide)
    rw [BitEncoder.nofBytes]
    congr 1
    omega
  · have hholds := packItems_holds holds_nil (items ++ rest)
    rw [Nat.zero_mul, Nat.zero_add, Nat.zero_add, List.map_append, bitLength_append, itemsValue_append,
      Nat.zero_add] at hholds
    have hlength := hholds.length
    have hvalue := hholds.value_eq
    generalize (BitEncoder.packItems {} (items ++ rest)).free = free at hlength hvalue
    generalize (BitEncoder.packItems {} (items ++ rest)).bytes = bytes at hlength hvalue ⊢
    have hrest := itemsValue_lt (bitLength 0 (items.map BitItem.field)) rest
    generalize bitLength (bitLength 0 (items.map BitItem.field)) (rest.map BitItem.field) = more
      at hlength hvalue hrest
    generalize itemsValue (bitLength 0 (items.map BitItem.field)) rest = tail at hvalue hrest
    have hlt : tail * 2 ^ free < 2 ^ (more + free) := by
      rw [Nat.pow_add]
      exact Nat.mul_lt_mul_of_pos_right hrest (Nat.two_pow_pos _)
    have hstart := BitDecoder.holds_start bytes
    rw [hlength, hvalue, Nat.add_assoc, Nat.add_mul, Nat.mul_assoc, ← Nat.pow_add] at hstart
    have hpos : 8 ∣ 0 + (bitLength 0 (items.map BitItem.field) + (more + free)) := by omega
    obtain ⟨dec, hread, hdec⟩ := BitDecoder.Holds.unpackItems hlt hstart hpos
    exact ⟨dec, hread, hdec.position (by omega)⟩
  · have hvalid := (BitDecoder.Valid.start buffer).unpackFields fields
    exact ⟨_, _, rfl, hvalid, hvalid.unpackField field⟩

end BitEncoder

end Srsran.Support
