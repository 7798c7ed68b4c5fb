import Srsran.Mac.DlSchDecoder

/-! The assembler puts subPDUs one after the other: whatever the RLC returns, the encoded part of the
buffer is the sequence of subPDUs that were put in, and the rest of the buffer shrinks by their length. -/
namespace Srsran.Mac
open Srsran.Support Checked LcidDlSch DlSchPdu

/-! The encoded part of a buffer and the rest. -/

/-- A PDU with `done` encoded. -/
def layout (done rest : List UInt8) : DlSchPdu := ⟨done ++ rest, done.length⟩

variable {done rest : List UInt8}

@[simp] theorem nofEmptyBytes_layout : (layout done rest).nofEmptyBytes = rest.length := by
  simp [layout, DlSchPdu.nofEmptyBytes]

@[simp] theorem get_layout : (layout done rest).get = done := by
  simp [layout, DlSchPdu.get]

theorem overwriteBytes_append (position : Nat) (bytes : List UInt8) :
    overwriteBytes (done ++ rest) (done.length + position) bytes =
      done ++ overwriteBytes rest position bytes := by
  rw [overwriteBytes, Nat.add_assoc, List.take_length_add_append, List.drop_length_add_append,
    overwriteBytes, List.append_assoc, List.append_assoc, List.append_assoc]

variable {bytes : List UInt8}

theorem length_overwriteBytes {buffer : List UInt8} {position : Nat}
    (h : position + bytes.length ≤ buffer.length) :
    (overwriteBytes buffer position bytes).length = buffer.length := by
  simp only [overwriteBytes, List.length_append, List.length_take, List.length_drop]
  omega

theorem drop_overwriteBytes {buffer bytes : List UInt8} {position : Nat}
    (h : position ≤ buffer.length) : (overwriteBytes buffer position bytes).drop position =
      bytes ++ buffer.drop (position + bytes.length) := by
  have hlength : (buffer.take position).length = position := List.length_take_of_le h
  rw [overwriteBytes, List.append_assoc, List.drop_left' hlength]

theorem write_layout {distance : Nat} (h : distance + bytes.length ≤ rest.length) :
    (layout done rest).write distance bytes =
      .ok (layout done (overwriteBytes rest distance bytes)) := by
  rw [write, if_pos]
  · simp only [layout, overwriteBytes_append]
  · simp only [layout, List.length_append]
    omega

theorem write_outside {distance : Nat} (h : rest.length < distance + bytes.length) :
    (layout done rest).write distance bytes = .error .outsideTb := by
  rw [write, if_neg]
  simp only [layout, List.length_append]
  omega

theorem push_layout (h : bytes.length ≤ rest.length) :
    (layout done rest).push bytes = .ok (layout (done ++ bytes) (rest.drop bytes.length)) := by
  rw [push, write_layout (by omega), ok_bind]
  have hbytes : overwriteBytes rest 0 bytes = bytes ++ rest.drop bytes.length := by
    simp [overwriteBytes]
  simp only [layout, hbytes, List.append_assoc, List.length_append]
  rfl

theorem advance_layout (sdu tail : List UInt8) :
    { layout done (sdu ++ tail) with
      byteOffset := (layout done (sdu ++ tail)).byteOffset + sdu.length : DlSchPdu } =
        layout (done ++ sdu) tail := by
  simp [layout]

theorem payloadSize_add_subheader {size : Nat} (h : 3 ≤ size) :
    getMacSduPayloadSize size + getMacSduSubheaderSize (getMacSduPayloadSize size) ≤ size ∧
      0 < getMacSduPayloadSize size := by
  unfold getMacSduPayloadSize getMacSduSubheaderSize macSduSubheaderLengthThres
    minMacSduSubheaderSize maxMacSduSubheaderSize
  split <;> split <;> (try split) <;> omega

theorem subheaderSize_mono {a b : Nat} (h : a ≤ b) :
    getMacSduSubheaderSize a ≤ getMacSduSubheaderSize b := by
  unfold getMacSduSubheaderSize macSduSubheaderLengthThres minMacSduSubheaderSize
    maxMacSduSubheaderSize
  split <;> split <;> (try split) <;> (try split) <;> omega

theorem subheaderSize_cases {n : Nat} (h : 0 < n) :
    getMacSduSubheaderSize n = 2 ∧ n < 256 ∨ getMacSduSubheaderSize n = 3 ∧ 256 ≤ n := by
  unfold getMacSduSubheaderSize macSduSubheaderLengthThres minMacSduSubheaderSize
    maxMacSduSubheaderSize
  split
  · omega
  · split <;> omega

variable (lcid : LcidDlSch)

theorem three_le_minSpace : 3 ≤ minMacSubhdrAndSduSpaceRequired lcid := by
  unfold minMacSubhdrAndSduSpaceRequired minMacSduSubheaderSize
  split <;> omega

/-- What an encoder offers fits into the space that is left. -/
structure Offered (p : DlSchPdu) (lcid : LcidDlSch) (enc : MacSduEncoder) : Prop where
  lcid : enc.lcid = lcid
  subhrLen : enc.subhrLen = getMacSduSubheaderSize enc.maxSduSize
  pos : 0 < enc.maxSduSize
  fits : enc.subhrLen + enc.maxSduSize ≤ p.nofEmptyBytes

theorem getSduEncoder_some {p : DlSchPdu} {lcid : LcidDlSch} {estimate : Nat} {enc : MacSduEncoder}
    (h : p.getSduEncoder lcid estimate = some enc) : Offered p lcid enc ∧
      enc.maxSduSize = getMacSduPayloadSize (min p.nofEmptyBytes (getMacSduRequiredBytes estimate)) ∧
      minMacSubhdrAndSduSpaceRequired lcid ≤ p.nofEmptyBytes := by
  rw [getSduEncoder] at h
  split at h
  · cases h
  rename_i hestimate
  split at h
  · cases h
  rename_i hspace
  cases h
  have hspace := Nat.le_of_not_lt hspace
  have hmin := three_le_minSpace lcid
  have hrequired : 3 ≤ getMacSduRequiredBytes estimate := by
    have := subheaderSize_cases (Nat.pos_of_ne_zero hestimate)
    rw [getMacSduRequiredBytes]
    omega
  obtain ⟨hfits, hpos⟩ := @payloadSize_add_subheader
    (min p.nofEmptyBytes (getMacSduRequiredBytes estimate)) (by omega)
  refine ⟨⟨rfl, rfl, hpos, ?_⟩, rfl, hspace⟩
  dsimp only
  omega

def sduHeader (lcid : LcidDlSch) (length : Nat) : List UInt8 :=
  if length ≥ macSduSubheaderLengthThres then
    [subheaderByte true lcid, UInt8.ofNat ((length &&& 0xff00) >>> 8),
      UInt8.ofNat (length &&& 0xff)]
  else [subheaderByte false lcid, UInt8.ofNat (length &&& 0xff)]

theorem encodeSubpdu_sdu (bytes : List UInt8) :
    encodeSubpdu (.sdu lcid bytes) = sduHeader lcid bytes.length ++ bytes := by
  rw [encodeSubpdu, sduHeader]
  split <;> rfl

variable {length : Nat}

theorem length_sduHeader (h : 0 < length) :
    (sduHeader lcid length).length = getMacSduSubheaderSize length := by
  rw [sduHeader, getMacSduSubheaderSize, if_neg (Nat.pos_iff_ne_zero.mp h)]
  split <;> rfl

theorem subheaderBytes_sdu (h : 0 < length) :
    subheaderBytes (getMacSduSubheaderSize length > minMacSduSubheaderSize) lcid
      (getMacSduSubheaderSize length) length = .ok (sduHeader lcid length) := by
  rcases subheaderSize_cases h with ⟨hsize, hlt⟩ | ⟨hsize, hge⟩
  · rw [hsize, sduHeader, if_neg (by rw [macSduSubheaderLengthThres]; omega)]
    rfl
  · rw [hsize, sduHeader, if_pos (by rw [macSduSubheaderLengthThres]; omega)]
    rfl

theorem encodeSubheader_sdu {lcid : LcidDlSch} {sdu tail : List UInt8} (hpos : 0 < sdu.length)
    (hsize : getMacSduSubheaderSize sdu.length ≤ rest.length)
    (hrest : rest.drop (getMacSduSubheaderSize sdu.length) = sdu ++ tail) :
    (layout done rest).encodeSubheader
      (getMacSduSubheaderSize sdu.length > minMacSduSubheaderSize) lcid
      (getMacSduSubheaderSize sdu.length) sdu.length =
        .ok (layout (done ++ sduHeader lcid sdu.length) (sdu ++ tail)) := by
  rw [encodeSubheader, subheaderBytes_sdu lcid hpos, ok_bind, push_layout, length_sduHeader lcid hpos,
    hrest]
  rwa [length_sduHeader lcid hpos]

/-- The SDU behind its subheader, wherever it was written first. -/
theorem encodeSdu_layout {lcid : LcidDlSch} {enc : MacSduEncoder} {written : List UInt8}
    (hoffer : Offered (layout done rest) lcid enc) (hwritten : length ≤ written.length)
    (hfits : enc.subhrLen + written.length ≤ rest.length) (hpos : 0 < length)
    (hle : length ≤ enc.maxSduSize) :
    ∃ rest', (layout done (overwriteBytes rest enc.subhrLen written)).encodeSdu enc length =
        .ok (getMacSduSubheaderSize length + length,
          layout (done ++ encodeSubpdu (.sdu lcid (written.take length))) rest') ∧
      rest'.length + (getMacSduSubheaderSize length + length) = rest.length := by
  have htake : (written.take length).length = length := List.length_take_of_le hwritten
  have hbuffer := length_overwriteBytes hfits
  have hdrop := @drop_overwriteBytes rest written enc.subhrLen
    (Nat.le_trans (Nat.le_add_right _ _) hfits)
  have hsizes := subheaderSize_cases hpos
  have hmax := subheaderSize_cases hoffer.pos
  rw [← hoffer.subhrLen] at hmax
  rw [encodeSdu, if_neg (by omega), hoffer.lcid]
  by_cases hsame : getMacSduSubheaderSize length = enc.subhrLen
  · have hsplit : (overwriteBytes rest enc.subhrLen written).drop enc.subhrLen =
        written.take length ++
          (written.drop length ++ rest.drop (enc.subhrLen + written.length)) := by
      rw [hdrop, ← List.append_assoc, List.take_append_drop]
    have hencode := @encodeSubheader_sdu done (overwriteBytes rest enc.subhrLen written) lcid
      (written.take length) _ (by omega) (by rw [htake, hsame, hbuffer]; omega)
      (by rw [htake, hsame]; exact hsplit)
    rw [htake, hsame] at hencode
    rw [if_neg (not_not.mpr hsame)]
    dsimp only
    rw [hencode, ok_bind]
    refine ⟨written.drop length ++ rest.drop (enc.subhrLen + written.length), ?_, ?_⟩
    · have hadvance := @advance_layout (done ++ sduHeader lcid length) (written.take length)
        (written.drop length ++ rest.drop (enc.subhrLen + written.length))
      rw [htake] at hadvance
      rw [encodeSubpdu_sdu, htake, ← List.append_assoc done, ← hadvance, hsame]
      rfl
    · simp only [List.length_append, List.length_drop]
      omega
  · have hthree : enc.subhrLen = maxMacSduSubheaderSize := by
      rw [maxMacSduSubheaderSize]
      omega
    have htwo : getMacSduSubheaderSize length = minMacSduSubheaderSize := by
      rw [minMacSduSubheaderSize]
      rw [maxMacSduSubheaderSize] at hthree
      omega
    rw [hthree] at hdrop hbuffer hfits
    rw [if_pos hsame, if_pos hthree, hthree]
    have hmoved : ((done ++ overwriteBytes rest maxMacSduSubheaderSize written).drop
        (done.length + minMacSduSubheaderSize + 1)).take length = written.take length := by
      rw [Nat.add_assoc, List.drop_length_add_append]
      show ((overwriteBytes rest maxMacSduSubheaderSize written).drop
        maxMacSduSubheaderSize).take length = _
      rw [hdrop, List.take_append_of_le_length hwritten]
    have hshift : (layout done (overwriteBytes rest maxMacSduSubheaderSize written)).shiftSdu length =
        .ok (layout done (overwriteBytes (overwriteBytes rest maxMacSduSubheaderSize written)
          minMacSduSubheaderSize (written.take length))) := by
      rw [shiftSdu]
      have hin : (layout done (overwriteBytes rest maxMacSduSubheaderSize written)).byteOffset +
          minMacSduSubheaderSize + 1 + length ≤
            (layout done (overwriteBytes rest maxMacSduSubheaderSize written)).pdu.length := by
        simp only [layout, List.length_append, hbuffer]
        rw [maxMacSduSubheaderSize] at hfits
        rw [minMacSduSubheaderSize]
        omega
      rw [if_pos hin]
      show write _ _ (((done ++ _).drop (done.length + _ + 1)).take length) = _
      rw [hmoved, write_layout]
      rw [hbuffer, htake]
      rw [maxMacSduSubheaderSize] at hfits
      rw [minMacSduSubheaderSize]
      omega
    have hroom : minMacSduSubheaderSize + (written.take length).length ≤
        (overwriteBytes rest maxMacSduSubheaderSize written).length := by
      rw [hbuffer, htake]
      rw [maxMacSduSubheaderSize] at hfits
      rw [minMacSduSubheaderSize]
      omega
    have hsplit := @drop_overwriteBytes _ (written.take length) _
      (Nat.le_trans (Nat.le_add_right _ _) hroom)
    have hencode := @encodeSubheader_sdu done
      (overwriteBytes (overwriteBytes rest maxMacSduSubheaderSize written) minMacSduSubheaderSize
        (written.take length)) lcid (written.take length) _ (by omega)
      (by rw [htake, htwo, length_overwriteBytes hroom]; omega) (by rw [htake, htwo]; exact hsplit)
    rw [htake, htwo] at hencode
    have hflag : decide (minMacSduSubheaderSize > minMacSduSubheaderSize) = false := by decide
    rw [hflag] at hencode
    rw [hshift, ok_bind, hencode, ok_bind]
    refine ⟨(overwriteBytes rest maxMacSduSubheaderSize written).drop
      (minMacSduSubheaderSize + length), ?_, ?_⟩
    · have hadvance := @advance_layout (done ++ sduHeader lcid length) (written.take length)
        ((overwriteBytes rest maxMacSduSubheaderSize written).drop (minMacSduSubheaderSize + length))
      rw [htake] at hadvance
      rw [encodeSubpdu_sdu, htake, ← List.append_assoc done, ← hadvance, htwo]
      rfl
    · rw [List.length_drop, hbuffer]
      omega

/-- The TAG id keeps only its two upper bits, which come to stand where the receiver looks for the id. -/
def sent : DlSubpdu → DlSubpdu
  | .taCmd tagId ta => .taCmd (tagId >>> 6) (ta &&& 0x3f)
  | subpdu => subpdu

def sentBytes (subpdus : List DlSubpdu) : List UInt8 := (subpdus.map sent).flatMap encodeSubpdu

theorem sentBytes_append (first second : List DlSubpdu) :
    sentBytes (first ++ second) = sentBytes first ++ sentBytes second := by
  simp [sentBytes]

/-- The SDUs that the RLC hands over in a sequence of calls. -/
inductive Handed {S : Type} (bearer : MacSduTxBuilder S) : S → List DlSubpdu → S → Prop
  | refl (s : S) : Handed bearer s [] s
  | nothing {s s' : S} {lcid : LcidDlSch} {size : Nat} {sdus : List DlSubpdu}
      (hzero : (bearer.onNewTxSdu s lcid size).2.1 = 0)
      (rest : Handed bearer (bearer.onNewTxSdu s lcid size).2.2 sdus s') : Handed bearer s sdus s'
  | sdu {s s' : S} {lcid : LcidDlSch} {size : Nat} {sdus : List DlSubpdu}
      (hpos : (bearer.onNewTxSdu s lcid size).2.1 ≠ 0)
      (rest : Handed bearer (bearer.onNewTxSdu s lcid size).2.2 sdus s') :
      Handed bearer s (.sdu lcid ((bearer.onNewTxSdu s lcid size).1.take
        (bearer.onNewTxSdu s lcid size).2.1) :: sdus) s'

theorem Handed.trans {S : Type} {bearer : MacSduTxBuilder S} {s mid s' : S}
    {first second : List DlSubpdu} (h : Handed bearer s first mid) (h' : Handed bearer mid second s') :
    Handed bearer s (first ++ second) s' := by
  induction h with
  | refl s => exact h'
  | nothing hzero _ ih => exact .nothing hzero (ih h')
  | sdu hpos _ ih => exact .sdu hpos (ih h')

theorem Handed.single {S : Type} {bearer : MacSduTxBuilder S} {s s' : S} {lcid : LcidDlSch}
    {size : Nat} {written : List UInt8}
    (hcall : bearer.onNewTxSdu s lcid size = (written, length, s')) :
    Handed bearer s (if length = 0 then [] else [.sdu lcid (written.take length)]) s' := by
  by_cases hzero : length = 0
  · rw [if_pos hzero]
    refine @Handed.nothing S bearer s s' lcid size [] ?_ ?_
    · rw [hcall]
      exact hzero
    · rw [hcall]
      exact .refl s'
  · rw [if_neg hzero]
    have hsdu := @Handed.sdu S bearer s s' lcid size []
    rw [hcall] at hsdu
    exact hsdu hzero (.refl s')

def DlSubpdu.isSdu : DlSubpdu → Bool
  | .sdu _ _ => true
  | _ => false

/-- The subPDUs `added` and at most `bytes` bytes have gone into the PDU. -/
structure Added {S : Type} (bearer : MacSduTxBuilder S) (a a' : Assembly S) (added : List DlSubpdu)
    (bytes : Nat) : Prop where
  log : a'.log = a.log ++ added
  rlc : Handed bearer a.rlc (added.filter DlSubpdu.isSdu) a'.rlc
  pdu : ∀ done rest, a.pdu = layout done rest →
    ∃ rest', a'.pdu = layout (done ++ sentBytes added) rest' ∧
      rest'.length + (sentBytes added).length = rest.length
  le : (sentBytes added).length ≤ bytes

section
variable {S : Type} {bearer : MacSduTxBuilder S} {a a' : Assembly S}

theorem Added.refl (a : Assembly S) (bytes : Nat) : Added bearer a a [] bytes where
  log := (List.append_nil _).symm
  rlc := .refl _
  pdu := fun done rest h => ⟨rest, by simpa [sentBytes] using h, rfl⟩
  le := Nat.zero_le _

theorem Added.trans {mid : Assembly S} {first second : List DlSubpdu} {m n : Nat}
    (h : Added bearer a mid first m) (h' : Added bearer mid a' second n) :
    Added bearer a a' (first ++ second) (m + n) where
  log := by rw [h'.log, h.log, List.append_assoc]
  rlc := by
    rw [List.filter_append]
    exact h.rlc.trans h'.rlc
  pdu := by
    intro done rest hpdu
    obtain ⟨rest₁, hpdu₁, hlength₁⟩ := h.pdu done rest hpdu
    obtain ⟨rest₂, hpdu₂, hlength₂⟩ := h'.pdu _ rest₁ hpdu₁
    refine ⟨rest₂, by rw [hpdu₂, sentBytes_append, List.append_assoc], ?_⟩
    rw [sentBytes_append, List.length_append]
    omega
  le := by
    have := h.le
    have := h'.le
    rw [sentBytes_append, List.length_append]
    omega

theorem Added.mono {added : List DlSubpdu} {m n : Nat} (h : Added bearer a a' added m) (hmn : m ≤ n) :
    Added bearer a a' added n :=
  ⟨h.log, h.rlc, h.pdu, h.le.trans hmn⟩

/-- An SDU that an entry for the LCID may contain. -/
def IsSduOf (lcid : LcidDlSch) (subpdu : DlSubpdu) : Prop :=
  ∃ bytes, subpdu = .sdu lcid bytes ∧ 0 < bytes.length ∧ bytes.length < 2 ^ 16

theorem sentBytes_sdu (lcid : LcidDlSch) (bytes : List UInt8) :
    sentBytes [.sdu lcid bytes] = encodeSubpdu (.sdu lcid bytes) := by
  simp [sentBytes, sent]

theorem payloadSize_requiredBytes {n : Nat} (h : 0 < n) :
    getMacSduPayloadSize (getMacSduRequiredBytes n) = n := by
  have := subheaderSize_cases h
  unfold getMacSduPayloadSize getMacSduRequiredBytes macSduSubheaderLengthThres
    minMacSduSubheaderSize maxMacSduSubheaderSize
  split <;> omega

theorem Added.scribbled {rest' : List UInt8} {rlc : S} (hpdu : a.pdu = layout done rest)
    (hlength : rest'.length = rest.length) (hrlc : Handed bearer a.rlc [] rlc) :
    Added bearer a { a with pdu := layout done rest', rlc } [] 0 where
  log := (List.append_nil _).symm
  rlc := hrlc
  pdu := by
    intro done' rest'' h
    have hsame := hpdu.symm.trans h
    simp only [layout, mk.injEq] at hsame
    obtain ⟨rfl, rfl⟩ := List.append_inj hsame.1 hsame.2
    exact ⟨rest', by simp [sentBytes], by simpa [sentBytes] using hlength⟩
  le := Nat.le_refl _

theorem Added.appended {rest' : List UInt8} {rlc : S} {subpdu : DlSubpdu}
    (hpdu : a.pdu = layout done rest)
    (hlength : rest'.length + (sentBytes [subpdu]).length = rest.length)
    (hrlc : Handed bearer a.rlc ([subpdu].filter DlSubpdu.isSdu) rlc) :
    Added bearer a { pdu := layout (done ++ sentBytes [subpdu]) rest', rlc, log := a.log ++ [subpdu] }
      [subpdu] (sentBytes [subpdu]).length where
  log := rfl
  rlc := hrlc
  pdu := by
    intro done' rest'' h
    have hsame := hpdu.symm.trans h
    simp only [layout, mk.injEq] at hsame
    obtain ⟨rfl, rfl⟩ := List.append_inj hsame.1 hsame.2
    exact ⟨rest', rfl, hlength⟩
  le := Nat.le_refl _

theorem assembleSdu_spec {lcid : LcidDlSch} {remBytes : Nat}
    (hpdu : a.pdu = layout done rest) (hmin : minMacSubhdrAndSduSpaceRequired lcid ≤ remBytes)
    (hle : remBytes ≤ rest.length) (hlimit : getMacSduPayloadSize remBytes < 2 ^ 16) :
    ∃ size a', a.assembleSdu bearer lcid remBytes = .ok (size, a') ∧
      ((size = none ∧ Added bearer a a' [] 0) ∨
        ∃ subpdu n, size = some n ∧ IsSduOf lcid subpdu ∧ Added bearer a a' [subpdu] n ∧
          (sentBytes [subpdu]).length = n ∧ n ≤ remBytes) := by
  have hthree := three_le_minSpace lcid
  obtain ⟨hopp, hoppPos⟩ := payloadSize_add_subheader (Nat.le_trans hthree hmin)
  rw [Assembly.assembleSdu, hpdu]
  dsimp only
  cases henc : (layout done rest).getSduEncoder lcid (getMacSduPayloadSize remBytes) with
  | none => exact ⟨none, a, rfl, .inl ⟨rfl, .refl a 0⟩⟩
  | some enc =>
    obtain ⟨hoffer, hmax, -⟩ := getSduEncoder_some henc
    have hrequired : getMacSduRequiredBytes (getMacSduPayloadSize remBytes) ≤ remBytes := hopp
    rw [nofEmptyBytes_layout, Nat.min_eq_right (Nat.le_trans hrequired hle),
      payloadSize_requiredBytes hoppPos] at hmax
    have hwritten := bearer.length_eq a.rlc lcid enc.maxSduSize
    have hactual := bearer.length_le a.rlc lcid enc.maxSduSize
    rcases hresult : bearer.onNewTxSdu a.rlc lcid enc.maxSduSize with ⟨written, length, rlc⟩
    have hhanded := Handed.single hresult
    simp only [hresult] at hwritten hactual ⊢
    have hfits : enc.subhrLen + written.length ≤ rest.length := by
      have := hoffer.fits
      rw [nofEmptyBytes_layout] at this
      omega
    rw [write_layout hfits, ok_bind]
    by_cases hzero : length = 0
    · rw [if_pos hzero]
      exact ⟨none, _, rfl, .inl ⟨rfl, .scribbled hpdu (length_overwriteBytes hfits)
        (by rwa [if_pos hzero] at hhanded)⟩⟩
    · rw [if_neg hzero] at hhanded ⊢
      have hpos := Nat.pos_of_ne_zero hzero
      obtain ⟨rest', hencode, hlength⟩ :=
        encodeSdu_layout hoffer (by omega) hfits hpos (by omega)
      have hsizes := subheaderSize_cases hpos
      have htake : (written.take length).length = length := List.length_take_of_le (by omega)
      have hsent : (sentBytes [.sdu lcid (written.take length)]).length =
          getMacSduSubheaderSize length + length := by
        rw [sentBytes_sdu, encodeSubpdu_sdu, List.length_append, htake, length_sduHeader lcid hpos]
      rw [hencode, ok_bind]
      dsimp only
      rw [if_neg (by omega), ← sentBytes_sdu, ← hsent]
      refine ⟨_, _, rfl, .inr ⟨_, _, rfl, ⟨_, rfl, ?_, ?_⟩, .appended hpdu ?_ ?_, rfl, ?_⟩⟩
      · rwa [htake]
      · rw [htake]
        omega
      · rw [hsent]
        exact hlength
      · exact hhanded
      · rw [hsent]
        have := subheaderSize_mono hactual
        rw [hmax] at this hactual
        omega

theorem assembleSdusLoop_spec {lcid : LcidDlSch} {turns remBytes : Nat}
    (hpdu : a.pdu = layout done rest) (hle : remBytes ≤ rest.length) (hturns : remBytes ≤ turns)
    (hlimit : remBytes ≤ 65538) :
    ∃ a' added, a.assembleSdusLoop bearer lcid turns remBytes = .ok a' ∧
      Added bearer a a' added remBytes ∧ ∀ subpdu ∈ added, IsSduOf lcid subpdu := by
  induction turns generalizing a done rest remBytes with
  | zero => exact ⟨a, [], rfl, .refl a remBytes, nofun⟩
  | succ turns ih =>
    rw [Assembly.assembleSdusLoop]
    split
    · exact ⟨a, [], rfl, .refl a remBytes, nofun⟩
    rename_i hspace
    have hmin := Nat.le_of_not_lt hspace
    have hopp : getMacSduPayloadSize remBytes < 2 ^ 16 := by
      unfold getMacSduPayloadSize macSduSubheaderLengthThres minMacSduSubheaderSize
        maxMacSduSubheaderSize
      split <;> omega
    obtain ⟨size, mid, hsdu, hcases⟩ := @assembleSdu_spec done rest S bearer a lcid remBytes hpdu
      hmin hle hopp
    rw [hsdu]
    rcases hcases with ⟨rfl, hadded⟩ | ⟨subpdu, n, rfl, hof, hadded, hlength, hn⟩
    · exact ⟨mid, [], rfl, hadded.mono (Nat.zero_le _), nofun⟩
    · obtain ⟨rest', hpdu', hrest'⟩ := hadded.pdu done rest hpdu
      have hpos : 0 < n := by
        rw [← hlength]
        obtain ⟨bytes, rfl, -, -⟩ := hof
        rw [sentBytes_sdu]
        exact length_encodeSubpdu_pos _
      obtain ⟨a', added, hloop, hadded', hall⟩ :=
        ih hpdu' (show remBytes - n ≤ rest'.length by omega) (by omega) (by omega)
      dsimp only
      rw [if_pos hn]
      refine ⟨a', subpdu :: added, hloop, ?_, List.forall_mem_cons.mpr ⟨hof, hall⟩⟩
      exact (hadded.trans hadded').mono (by omega)

end

end Srsran.Mac
