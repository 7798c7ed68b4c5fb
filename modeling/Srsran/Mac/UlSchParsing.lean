import Srsran.Mac.UlPduHandler

/-! The grammar of UL-SCH PDUs and what the parser accepts, and which bytes the CE decoders read. -/
namespace Srsran.Mac
open Srsran.Support LcidUlSch MacUlSchSubpdu DecodedMacRxPdu ByteView

/-- A subPDU that starts at a position of the PDU, and its bytes. -/
inductive WellFormedSubpdu (position : Nat) : MacUlSchSubpdu → List UInt8 → Prop where
  /-- An SDU or variable-sized CE with a length field of one byte. -/
  | shortLength {first length : UInt8} {payload : List UInt8}
      (hvalid : isValidLcid (lcidOf first) = true)
      (hfield : hasLengthField (lcidOf first) = true)
      (hbit : fBitOf first = false) (hlength : payload.length = length.toNat) :
      WellFormedSubpdu position
        ⟨lcidOf first, 2, false, ⟨position + 2, payload⟩⟩
        (first :: length :: payload)
  /-- The same with a length field of two bytes. -/
  | longLength {first high low : UInt8} {payload : List UInt8}
      (hvalid : isValidLcid (lcidOf first) = true)
      (hfield : hasLengthField (lcidOf first) = true)
      (hbit : fBitOf first = true)
      (hlength : payload.length = high.toNat <<< 8 ||| low.toNat) :
      WellFormedSubpdu position
        ⟨lcidOf first, 3, true, ⟨position + 3, payload⟩⟩
        (first :: high :: low :: payload)
  | fixedSize {first : UInt8} {payload : List UInt8}
      (hvalid : isValidLcid (lcidOf first) = true)
      (hfield : hasLengthField (lcidOf first) = false)
      (hpadding : lcidOf first ≠ padding)
      (hlength : payload.length = sizeofCe (lcidOf first)) :
      WellFormedSubpdu position
        ⟨lcidOf first, 1, fBitOf first, ⟨position + 1, payload⟩⟩
        (first :: payload)
  | padding {first : UInt8} {payload : List UInt8}
      (hpadding : lcidOf first = padding) :
      WellFormedSubpdu position
        ⟨padding, 1, fBitOf first, ⟨position + 1, payload⟩⟩ (first :: payload)

/-- A concatenation of at most `room` subPDUs. Padding comes last, and what is beyond the limit is not
looked at. -/
inductive Concatenation : Nat → Nat → List UInt8 → List MacUlSchSubpdu → Prop where
  | done (room position : Nat) : Concatenation room position [] []
  | limit (position : Nat) (beyond : List UInt8) : Concatenation 0 position beyond []
  | next {room position : Nat} {subpdu : MacUlSchSubpdu} {bytes rest : List UInt8}
      {subpdus : List MacUlSchSubpdu} (hfirst : WellFormedSubpdu position subpdu bytes)
      (hlast : subpdu.lcid = LcidUlSch.padding → rest = [])
      (hrest : Concatenation room (position + bytes.length) rest subpdus) :
      Concatenation (room + 1) position (bytes ++ rest) (subpdu :: subpdus)

variable {subpdu : MacUlSchSubpdu} {subpdus : List MacUlSchSubpdu} {position room : Nat}

theorem hasLengthField_padding : hasLengthField padding = false := by decide

theorem isValidLcid_padding : isValidLcid padding = true := by decide

theorem takeSdu_append (lcid : LcidUlSch) (headerLength start : Nat) (fBit : Bool)
    (payload rest : List UInt8) :
    takeSdu lcid headerLength fBit payload.length ⟨start, payload ++ rest⟩ =
      .ok (⟨lcid, headerLength, fBit, ⟨start, payload⟩⟩, ⟨start + payload.length, rest⟩) := by
  simp [takeSdu, length, split, advance]

variable {lcid : LcidUlSch}

theorem takeCe_append (hne : lcid ≠ padding) (start : Nat) (fBit : Bool) {payload : List UInt8}
    (rest : List UInt8) (hlength : payload.length = sizeofCe lcid) :
    takeCe lcid fBit ⟨start, payload ++ rest⟩ =
      .ok (⟨lcid, 1, fBit, ⟨start, payload⟩⟩, ⟨start + payload.length, rest⟩) := by
  simp [takeCe, hne, ← hlength, length, split, advance]

variable {bytes : List UInt8}

theorem unpack_wellFormed {rest : List UInt8} (h : WellFormedSubpdu position subpdu bytes)
    (hlast : subpdu.lcid = LcidUlSch.padding → rest = []) :
    ∃ after, unpack ⟨position, bytes ++ rest⟩ = .ok (subpdu, after) ∧
      after.bytes = rest ∧ (rest ≠ [] → after.start = position + bytes.length) := by
  cases h with
  | @shortLength first length payload hvalid hfield hbit hlength =>
    refine ⟨⟨position + 2 + payload.length, rest⟩, ?_, rfl, fun _ => ?_⟩
    · simp only [unpack, List.cons_append, hvalid, hfield, hbit, Bool.not_true,
        Bool.false_eq_true, if_false, if_true, ← hlength, advance, List.drop_succ_cons,
        List.drop_zero, takeSdu_append]
    · simp only [List.length_cons]
      omega
  | @longLength first high low payload hvalid hfield hbit hlength =>
    refine ⟨⟨position + 3 + payload.length, rest⟩, ?_, rfl, fun _ => ?_⟩
    · simp only [unpack, List.cons_append, hvalid, hfield, hbit, Bool.not_true,
        Bool.false_eq_true, if_false, if_true, ← hlength, advance, List.drop_succ_cons,
        List.drop_zero, takeSdu_append]
    · simp only [List.length_cons]
      omega
  | @fixedSize first payload hvalid hfield hpadding hlength =>
    refine ⟨⟨position + 1 + payload.length, rest⟩, ?_, rfl, fun _ => ?_⟩
    · simp only [unpack, List.cons_append, hvalid, hfield, Bool.not_true,
        Bool.false_eq_true, if_false, advance, List.drop_succ_cons, List.drop_zero,
        takeCe_append hpadding _ _ rest hlength]
    · simp only [List.length_cons]
      omega
  | @padding first payload hpadding =>
    obtain rfl := hlast rfl
    refine ⟨{}, ?_, rfl, fun hne => absurd rfl hne⟩
    simp only [unpack, List.append_nil, hpadding, isValidLcid_padding,
      hasLengthField_padding, Bool.not_true, Bool.false_eq_true, if_false, advance,
      List.drop_succ_cons, List.drop_zero, takeCe, if_true]

variable {after : ByteView}

theorem takeSdu_ok {headerLength sduLength : Nat} {fBit : Bool} {body : ByteView}
    (h : takeSdu lcid headerLength fBit sduLength body = .ok (subpdu, after)) :
    ∃ payload, payload.length = sduLength ∧ body.bytes = payload ++ after.bytes ∧
      subpdu = ⟨lcid, headerLength, fBit, ⟨body.start, payload⟩⟩ ∧
      after.start = body.start + payload.length := by
  rw [takeSdu] at h
  split at h
  · cases h
  · rename_i hlength
    cases h
    have hle : sduLength ≤ body.bytes.length := Nat.le_of_not_lt hlength
    have htake : (body.bytes.take sduLength).length = sduLength := List.length_take_of_le hle
    refine ⟨body.bytes.take sduLength, htake, (List.take_append_drop _ _).symm, rfl, ?_⟩
    rw [htake]
    rfl

theorem takeCe_ok (hne : lcid ≠ padding) {fBit : Bool} {body : ByteView}
    (h : takeCe lcid fBit body = .ok (subpdu, after)) :
    ∃ payload, payload.length = sizeofCe lcid ∧ body.bytes = payload ++ after.bytes ∧
      subpdu = ⟨lcid, 1, fBit, ⟨body.start, payload⟩⟩ ∧
      after.start = body.start + payload.length := by
  rw [takeCe, if_neg hne] at h
  split at h
  · cases h
  · rename_i hlength
    exact takeSdu_ok ((if_neg hlength).trans h)

theorem wellFormed_of_unpack {reader : ByteView}
    (h : unpack reader = .ok (subpdu, after)) :
    ∃ bytes, WellFormedSubpdu reader.start subpdu bytes ∧ reader.bytes = bytes ++ after.bytes ∧
      (subpdu.lcid = LcidUlSch.padding → after.bytes = []) ∧
      (after.bytes ≠ [] → after.start = reader.start + bytes.length) := by
  obtain ⟨start, input⟩ := reader
  rw [unpack] at h
  dsimp only at h
  split at h
  · cases h
  rename_i first rest
  split at h
  · cases h
  rename_i hvalid
  rw [Bool.not_eq_true', Bool.not_eq_false] at hvalid
  split at h
  · rename_i hfield
    have hne : lcidOf first ≠ padding := by
      intro heq
      rw [heq, hasLengthField_padding] at hfield
      cases hfield
    split at h
    · rename_i length tail hbit
      obtain ⟨payload, hlength, hbytes, rfl, hstart⟩ := takeSdu_ok h
      rw [hbit]
      refine ⟨_, .shortLength hvalid hfield hbit hlength, ?_, fun heq => absurd heq hne, fun _ => ?_⟩
      · exact congrArg (fun bytes => first :: length :: bytes) hbytes
      · rw [hstart]
        simp only [advance, List.length_cons]
        omega
    · rename_i high low tail hbit
      obtain ⟨payload, hlength, hbytes, rfl, hstart⟩ := takeSdu_ok h
      rw [hbit]
      refine ⟨_, .longLength hvalid hfield hbit hlength, ?_, fun heq => absurd heq hne, fun _ => ?_⟩
      · exact congrArg (fun bytes => first :: high :: low :: bytes) hbytes
      · rw [hstart]
        simp only [advance, List.length_cons]
        omega
    · cases h
  · rename_i hfield
    rw [Bool.not_eq_true] at hfield
    by_cases hne : lcidOf first = padding
    · rw [takeCe, if_pos hne] at h
      cases h
      rw [hne]
      exact ⟨first :: rest, .padding hne, (List.append_nil _).symm, fun _ => rfl,
        fun hnil => absurd rfl hnil⟩
    · obtain ⟨payload, hlength, hbytes, rfl, hstart⟩ := takeCe_ok hne h
      refine ⟨_, .fixedSize hvalid hfield hne hlength, ?_, fun heq => absurd heq hne, fun _ => ?_⟩
      · exact congrArg (first :: ·) hbytes
      · rw [hstart]
        simp only [advance, List.length_cons]
        omega

theorem wellFormed_length (h : WellFormedSubpdu position subpdu bytes) :
    bytes.length = subpdu.totalLength ∧ subpdu.payload.start = position + subpdu.headerLength ∧
      0 < subpdu.headerLength ∧ subpdu.payload.bytes = bytes.drop subpdu.headerLength := by
  cases h <;> simp [totalLength, length] <;> omega

theorem wellFormed_ne_nil (h : WellFormedSubpdu position subpdu bytes) : bytes ≠ [] := by
  cases h <;> simp

theorem concatenation_nil (hbytes : bytes = []) (h : Concatenation room position bytes subpdus) :
    subpdus = [] := by
  cases h with
  | done => rfl
  | limit => rfl
  | next hfirst _ _ => exact absurd (List.append_eq_nil_iff.mp hbytes).1 (wellFormed_ne_nil hfirst)

theorem concatenation_congr {position' : Nat} (h : Concatenation room position bytes subpdus)
    (hstart : bytes ≠ [] → position' = position) : Concatenation room position' bytes subpdus := by
  by_cases hbytes : bytes = []
  · rw [concatenation_nil hbytes h, hbytes]
    exact .done room position'
  · rw [hstart hbytes]
    exact h

theorem concatenation_of_unpackLoop {reader : ByteView}
    (h : MacUlSchPdu.unpackLoop room reader = .ok subpdus) :
    Concatenation room reader.start reader.bytes subpdus := by
  induction room generalizing reader subpdus with
  | zero =>
    rw [MacUlSchPdu.unpackLoop] at h
    split at h <;> cases h <;> exact .limit _ _
  | succ room ih =>
    rw [MacUlSchPdu.unpackLoop] at h
    split at h
    · rename_i hempty
      cases h
      rw [List.isEmpty_iff.mp hempty]
      exact .done _ _
    split at h
    · cases h
    rename_i after hfirst
    split at h
    · cases h
    rename_i rest hrest
    cases h
    obtain ⟨bytes, hwell, hbytes, hlast, hstart⟩ := wellFormed_of_unpack hfirst
    rw [hbytes]
    exact .next hwell hlast (concatenation_congr (ih hrest) fun hne => (hstart hne).symm)

theorem unpackLoop_nil (room start : Nat) :
    MacUlSchPdu.unpackLoop room ⟨start, []⟩ = .ok [] := by
  cases room <;> rfl

theorem unpackLoop_of_concatenation (h : Concatenation room position bytes subpdus) :
    MacUlSchPdu.unpackLoop room ⟨position, bytes⟩ = .ok subpdus := by
  induction h with
  | done room position => exact unpackLoop_nil room position
  | limit position beyond =>
    rw [MacUlSchPdu.unpackLoop]
    split <;> rfl
  | @next room position subpdu bytes rest subpdus hfirst hlast hrest ih =>
    obtain ⟨⟨start, after⟩, hunpack, rfl, hstart⟩ := unpack_wellFormed hfirst hlast
    have hloop : MacUlSchPdu.unpackLoop room ⟨start, after⟩ = .ok subpdus := by
      by_cases hempty : after = []
      · rw [concatenation_nil hempty hrest, hempty, unpackLoop_nil]
      · rw [← ih, ← hstart hempty]
    rw [MacUlSchPdu.unpackLoop, if_neg (by simp [wellFormed_ne_nil hfirst])]
    simp only [hunpack, hloop]

theorem unpack_eq_ok_iff :
    MacUlSchPdu.unpack bytes = .ok subpdus ↔
      Concatenation MacUlSchPdu.maxSubpdusPerPdu 0 bytes subpdus :=
  ⟨concatenation_of_unpackLoop, unpackLoop_of_concatenation⟩

/-- Subheaders and payloads one after the other, from one position of the PDU to another. -/
def Tiles (pdu : List UInt8) : Nat → List MacUlSchSubpdu → Nat → Prop
  | first, [], last => first = last
  | first, subpdu :: subpdus, last =>
    0 < subpdu.headerLength ∧ subpdu.payload.start = first + subpdu.headerLength ∧
      subpdu.payload.bytes = (pdu.drop subpdu.payload.start).take subpdu.sduLength ∧
      Tiles pdu (first + subpdu.totalLength) subpdus last

theorem tiles_of_concatenation {pdu : List UInt8} (h : Concatenation room position bytes subpdus)
    (hpdu : pdu.drop position = bytes) (hle : position ≤ pdu.length) :
    ∃ last, Tiles pdu position subpdus last ∧ last ≤ pdu.length ∧
      (last = pdu.length ∨ subpdus.length = room) := by
  induction h with
  | done room position =>
    exact ⟨position, rfl, hle, .inl (Nat.le_antisymm hle (List.drop_eq_nil_iff.mp hpdu))⟩
  | limit position beyond => exact ⟨position, rfl, hle, .inr rfl⟩
  | @next room position subpdu bytes rest subpdus hfirst hlast hrest ih =>
    obtain ⟨hlength, hstart, hpos, hpayload⟩ := wellFormed_length hfirst
    have hdrop : pdu.drop (position + bytes.length) = rest := by
      rw [← List.drop_drop, hpdu, List.drop_left]
    have hend : position + bytes.length ≤ pdu.length := by
      have hsum := congrArg List.length hpdu
      rw [List.length_drop, List.length_append] at hsum
      omega
    obtain ⟨last, htiles, hlast, hcover⟩ := ih hdrop hend
    refine ⟨last, ⟨hpos, hstart, ?_, hlength ▸ htiles⟩, hlast, hcover.imp_right ?_⟩
    · have hheader : subpdu.headerLength ≤ bytes.length := by
        rw [hlength]
        exact Nat.le_add_right _ _
      have hsdu : subpdu.sduLength = (bytes.drop subpdu.headerLength).length := by
        rw [List.length_drop, hlength, totalLength, sduLength]
        omega
      rw [hstart, ← List.drop_drop, hpdu, List.drop_append_of_le_length hheader, hsdu,
        List.take_left, hpayload]
    · intro hroom
      rw [List.length_cons, hroom]

def InView {α : Type} (result : Except OutOfView α) : Prop := ∃ value, result = .ok value

variable {α : Type}

theorem InView.bind {β : Type} {result : Except OutOfView α} {f : α → Except OutOfView β}
    (h : InView result) (hf : ∀ value, InView (f value)) : InView (result >>= f) := by
  obtain ⟨value, rfl⟩ := h
  exact hf value

theorem InView.of_bind {β : Type} {result : Except OutOfView α} {f : α → Except OutOfView β}
    (h : InView (result >>= f)) : InView result := by
  cases result with
  | ok value => exact ⟨value, rfl⟩
  | error fault => exact nomatch h

theorem InView.ok (value : α) : InView (.ok value) := ⟨value, rfl⟩

theorem InView.pure (value : α) : InView (Pure.pure value) := ⟨value, rfl⟩

theorem inView_read {view : ByteView} {index : Nat} :
    InView (view.read index) ↔ index < view.length := by
  constructor
  · rintro ⟨byte, hread⟩
    by_contra hlt
    have hnone : view.bytes[index]? = none := List.getElem?_eq_none (Nat.le_of_not_lt hlt)
    rw [ByteView.read, hnone] at hread
    cases hread
  · intro hlt
    exact ByteView.read_of_lt hlt

variable {payload : ByteView}

theorem inView_decodeSbsr (h : 0 < payload.length) : InView (decodeSbsr payload) :=
  (inView_read.mpr h).bind fun _ => .pure _

theorem inView_decodeLbsr {format : BsrFormat} :
    InView (decodeLbsr format payload) ↔ 0 < payload.length := by
  constructor
  · intro h
    exact inView_read.mp (InView.of_bind h)
  · intro h
    refine (inView_read.mpr h).bind fun bitmap => ?_
    split
    · exact .pure _
    · exact .pure _

theorem inView_decodeSePhr (h : 1 < payload.length) : InView (decodeSePhr payload) :=
  (inView_read.mpr (Nat.zero_lt_of_lt h)).bind fun _ => (inView_read.mpr h).bind fun _ => .pure _

theorem inView_decodeCrntiCe (payload : ByteView) : InView (decodeCrntiCe payload) := by
  rw [decodeCrntiCe]
  split
  · exact .ok _
  · rename_i hlength
    have hlength : 2 ≤ payload.length := Nat.le_of_not_lt hlength
    refine (inView_read.mpr (Nat.lt_of_lt_of_le (by decide) hlength)).bind fun _ => ?_
    exact (inView_read.mpr hlength).bind fun _ => .pure _

/-- A Long BSR has the byte of the bitmap. -/
def HasBitmap (subpdu : MacUlSchSubpdu) : Prop :=
  subpdu.lcid = LcidUlSch.longBsr ∨ subpdu.lcid = LcidUlSch.longTruncBsr → subpdu.payload.bytes ≠ []

/-- The CEs of one fixed size have it. -/
structure Sized (subpdu : MacUlSchSubpdu) : Prop where
  sbsr : subpdu.lcid = LcidUlSch.shortBsr ∨ subpdu.lcid = LcidUlSch.shortTruncBsr →
    subpdu.payload.length = 1
  sePhr : subpdu.lcid = LcidUlSch.sePhr → subpdu.payload.length = 2

theorem sized_of_wellFormed (h : WellFormedSubpdu position subpdu bytes) : Sized subpdu := by
  have hfixed : ∀ lcid, hasLengthField lcid = true → lcid ≠ LcidUlSch.shortBsr ∧
      lcid ≠ LcidUlSch.shortTruncBsr ∧ lcid ≠ LcidUlSch.sePhr := by
    intro lcid hfield
    refine ⟨?_, ?_, ?_⟩ <;> rintro rfl <;> exact nomatch hfield
  cases h with
  | shortLength hvalid hfield hbit hlength =>
    obtain ⟨hshort, htrunc, hphr⟩ := hfixed _ hfield
    exact ⟨fun h => absurd h (not_or.mpr ⟨hshort, htrunc⟩), fun h => absurd h hphr⟩
  | longLength hvalid hfield hbit hlength =>
    obtain ⟨hshort, htrunc, hphr⟩ := hfixed _ hfield
    exact ⟨fun h => absurd h (not_or.mpr ⟨hshort, htrunc⟩), fun h => absurd h hphr⟩
  | @fixedSize first payload hvalid hfield hpadding hlength =>
    constructor
    · intro h
      dsimp only at h
      have hsize : sizeofCe (lcidOf first) = 1 := by rcases h with h | h <;> rw [h] <;> rfl
      exact hlength.trans hsize
    · intro h
      dsimp only at h
      have hsize : sizeofCe (lcidOf first) = 2 := by rw [h]; rfl
      exact hlength.trans hsize
  | padding hpadding =>
    constructor
    · rintro (h | h) <;> exact absurd (show padding = _ from h) (by decide)
    · intro h
      exact absurd (show padding = sePhr from h) (by decide)

theorem HasBitmap.pos (h : HasBitmap subpdu)
    (hlong : subpdu.lcid = LcidUlSch.longBsr ∨ subpdu.lcid = LcidUlSch.longTruncBsr) :
    0 < subpdu.payload.length := List.length_pos_iff.mpr (h hlong)

theorem Sized.pos (h : Sized subpdu)
    (hshort : subpdu.lcid = LcidUlSch.shortBsr ∨ subpdu.lcid = LcidUlSch.shortTruncBsr) :
    0 < subpdu.payload.length := by
  rw [h.sbsr hshort]
  exact Nat.one_pos

section Handler
variable {ctx : DecodedMacRxPdu}

theorem inView_handleBsr (hsized : Sized subpdu) (hbitmap : HasBitmap subpdu)
    (hbsr : subpdu.lcid = LcidUlSch.shortBsr ∨ subpdu.lcid = LcidUlSch.shortTruncBsr ∨
      subpdu.lcid = LcidUlSch.longBsr ∨ subpdu.lcid = LcidUlSch.longTruncBsr) :
    InView (ctx.handleBsr subpdu) := by
  rw [handleBsr]
  split
  · exact .ok _
  dsimp only
  split
  · rename_i hshort
    exact (inView_decodeSbsr (hsized.pos hshort)).bind fun _ => .pure _
  · rename_i hshort
    rw [← or_assoc] at hbsr
    have hlong := hbsr.resolve_left hshort
    refine (inView_decodeLbsr.mpr (hbitmap.pos hlong)).bind fun reports => ?_
    cases reports <;> exact .pure _

theorem inView_handleMacCe (hsized : Sized subpdu) (hbitmap : HasBitmap subpdu) :
    InView (ctx.handleMacCe subpdu) := by
  rw [handleMacCe]
  split
  · exact .ok _
  split
  · exact inView_handleBsr hsized hbitmap ‹_›
  split
  · exact (inView_decodeCrntiCe _).bind fun _ => .pure _
  split
  · rename_i hphr
    split
    · exact .ok _
    · have hlength : 1 < subpdu.payload.length := by
        rw [hsized.sePhr hphr]
        exact Nat.one_lt_two
      exact (inView_decodeSePhr hlength).bind fun _ => .pure _
  · exact .ok _

/-- Without the bitmap, the decoder reads outside the payload for any UE. -/
theorem not_inView_handleMacCe {ueIndex : Nat} (hue : ctx.ueIndex = some ueIndex)
    (hbitmap : ¬ HasBitmap subpdu) : ¬ InView (ctx.handleMacCe subpdu) := by
  rw [HasBitmap, not_forall] at hbitmap
  obtain ⟨hlong, hempty⟩ := hbitmap
  rw [not_not] at hempty
  have hread : ¬ InView (decodeLbsr (bsrFormatOf subpdu.lcid) subpdu.payload) := by
    rw [inView_decodeLbsr, length, hempty]
    exact Nat.lt_irrefl 0
  have hnotCcch : ¬ (subpdu.lcid = ccchSize48 ∨ subpdu.lcid = ccchSize64) := by
    rcases hlong with h | h <;> rw [h] <;> decide
  have hnotShort : ¬ (subpdu.lcid = LcidUlSch.shortBsr ∨ subpdu.lcid = LcidUlSch.shortTruncBsr) := by
    rcases hlong with h | h <;> rw [h] <;> decide
  rw [handleMacCe, if_neg hnotCcch, if_pos (.inr (.inr hlong)),
    handleBsr, hue]
  dsimp only
  rw [if_neg hnotShort]
  exact fun h => hread (InView.of_bind h)

theorem inView_handleMacCe_iff (hsized : Sized subpdu) :
    (∀ ctx : DecodedMacRxPdu, InView (ctx.handleMacCe subpdu)) ↔ HasBitmap subpdu := by
  constructor
  · intro h
    by_contra hbitmap
    exact not_inView_handleMacCe rfl hbitmap (h ⟨some 0, 0, []⟩)
  · intro hbitmap ctx
    exact inView_handleMacCe hsized hbitmap

variable (ues : UlUeTable)

theorem inView_handleSdu : InView (ctx.handleSdu ues subpdu) := by
  rw [handleSdu]
  repeat' split
  all_goals exact .ok _

theorem inView_handleSubpdus (h : ∀ subpdu ∈ subpdus, Sized subpdu ∧ HasBitmap subpdu) :
    InView (ctx.handleSubpdus ues subpdus) := by
  induction subpdus with
  | nil => exact .ok _
  | cons subpdu subpdus ih =>
    obtain ⟨⟨hsized, hbitmap⟩, hrest⟩ := List.forall_mem_cons.mp h
    rw [handleSubpdus]
    split
    · refine (inView_handleSdu ues).bind fun result => ?_
      dsimp only
      split
      · exact .pure _
      · exact (ih hrest).bind fun _ => .pure _
    · refine (inView_handleMacCe hsized hbitmap).bind fun result => ?_
      dsimp only
      split
      · exact .pure _
      · exact (ih hrest).bind fun _ => .pure _

theorem inView_containsPositiveBsr (h : ∀ subpdu ∈ subpdus, Sized subpdu ∧ HasBitmap subpdu) :
    InView (containsPositiveBsr subpdus) := by
  induction subpdus with
  | nil => exact .ok _
  | cons subpdu subpdus ih =>
    obtain ⟨⟨hsized, hbitmap⟩, hrest⟩ := List.forall_mem_cons.mp h
    rw [containsPositiveBsr]
    split
    · rename_i hshort
      refine (inView_decodeSbsr (hsized.pos hshort.symm)).bind fun report => ?_
      split
      · exact .pure _
      · exact ih hrest
    split
    · rename_i hlong
      refine (inView_decodeLbsr.mpr (hbitmap.pos hlong.symm)).bind fun reports => ?_
      cases reports with
      | none => exact ih hrest
      | some reports =>
        dsimp only
        split
        · exact .pure _
        · exact ih hrest
    · exact ih hrest

theorem inView_handle (uesLater : Option UlUeTable)
    (h : ∀ subpdu ∈ ctx.subpdus, Sized subpdu ∧ HasBitmap subpdu) :
    InView (ctx.handle ues uesLater) := by
  rw [handle]
  split
  · split
    · refine (inView_decodeCrntiCe _).bind fun rnti => ?_
      split
      · exact .pure _
      split
      · exact .pure _
      · exact .pure _
      · refine InView.bind ?_ fun _ => .pure _
        rw [continueCrntiCe]
        split
        · exact .ok _
        · refine (inView_handleSubpdus _ h).bind fun result => ?_
          dsimp only
          split
          · exact .pure _
          · exact (inView_containsPositiveBsr h).bind fun _ => .pure _
    · exact .ok _
  · exact inView_handleSubpdus ues h

end Handler

theorem sized_of_concatenation (h : Concatenation room position bytes subpdus) :
    ∀ subpdu ∈ subpdus, Sized subpdu := by
  induction h with
  | done => nofun
  | limit => nofun
  | next hfirst _ _ ih => exact List.forall_mem_cons.mpr ⟨sized_of_wellFormed hfirst, ih⟩

/-- The parser accepts the concatenations of the grammar, the views tile the PDU, and the decoders read
only payload bytes exactly when every Long BSR has its bitmap. -/
theorem ulSchPdu_parsing (pdu : List UInt8) :
    (∀ subpdus, MacUlSchPdu.unpack pdu = .ok subpdus ↔
      Concatenation MacUlSchPdu.maxSubpdusPerPdu 0 pdu subpdus) ∧
    ∀ subpdus, MacUlSchPdu.unpack pdu = .ok subpdus →
      (∃ last, Tiles pdu 0 subpdus last ∧ last ≤ pdu.length ∧
        (last = pdu.length ∨ subpdus.length = MacUlSchPdu.maxSubpdusPerPdu)) ∧
      ((∀ subpdu ∈ subpdus, ∀ ctx : DecodedMacRxPdu, InView (ctx.handleMacCe subpdu)) ↔
        ∀ subpdu ∈ subpdus, HasBitmap subpdu) ∧
      ((∀ subpdu ∈ subpdus, HasBitmap subpdu) →
        ∀ ues uesLater rnti, InView (handleRxPdu ues uesLater rnti pdu)) := by
  refine ⟨fun subpdus => unpack_eq_ok_iff, fun subpdus hunpack => ?_⟩
  have hconcat := unpack_eq_ok_iff.mp hunpack
  have hsized := sized_of_concatenation hconcat
  refine ⟨tiles_of_concatenation hconcat rfl (Nat.zero_le _), ?_, fun hbitmap ues uesLater rnti => ?_⟩
  · exact forall₂_congr fun subpdu hmem => inView_handleMacCe_iff (hsized subpdu hmem)
  · rw [handleRxPdu, hunpack]
    exact inView_handle ues uesLater fun subpdu hmem => ⟨hsized subpdu hmem, hbitmap subpdu hmem⟩

/-- A Long BSR whose length field is zero is accepted, and its bitmap is read nevertheless. -/
theorem ulSchPdu_emptyLongBsr :
    ∃ subpdus, MacUlSchPdu.unpack [0x3e, 0x00] = .ok subpdus ∧
      ¬ ∀ subpdu ∈ subpdus, ∀ ctx : DecodedMacRxPdu, InView (ctx.handleMacCe subpdu) := by
  refine ⟨[⟨LcidUlSch.longBsr, 2, false, ⟨2, []⟩⟩], rfl, fun h => ?_⟩
  obtain ⟨result, hresult⟩ := h _ List.mem_cons_self ⟨some 0, 1, []⟩
  cases hresult

end Srsran.Mac
