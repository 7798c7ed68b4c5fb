import Srsran.Gtpu.Pdu

/-! What `gtpu_write_header` writes is dissected again, and what `gtpu_dissect_pdu` accepts lies inside
the PDU. -/
namespace Srsran.Gtpu
open Srsran.Support GtpuExtensionHeaderType BitDecoder

/-- The container fills up whole words of 4 bytes, and its length fits the 8 bits of the writer. -/
def wellSized (ext : GtpuExtensionHeader) : Bool :=
  ext.container.bytes.length % 4 = 2 && ext.container.bytes.length + 2 < 2 ^ 8

def nextType : List GtpuExtensionHeader → GtpuExtensionHeaderType
  | [] => noMoreExtensionHeaders
  | ext :: _ => ext.extensionHeaderType

def extBytes : List GtpuExtensionHeader → List UInt8
  | [] => []
  | ext :: rest =>
    beBytes 1 ((ext.container.bytes.length + 2) / 4) ++ ext.container.bytes ++
      beBytes 1 (nextType rest).toNat ++ extBytes rest

def optionalBytes (header : GtpuHeader) : List UInt8 :=
  if hasOptionalFields header then
    beBytes 2 header.seqNumber.toNat ++ beBytes 1 header.nPdu.toNat ++
      beBytes 1 (nextType header.extList).toNat
  else []

def flagsByte (extHdr seqNumber : Bool) : UInt8 :=
  match extHdr, seqNumber with
  | false, false => 0x30
  | false, true => 0x32
  | true, false => 0x34
  | true, true => 0x36

def headerBytes (header : GtpuHeader) (payload : List UInt8) : List UInt8 :=
  [flagsByte (!header.extList.isEmpty) header.flags.seqNumber] ++ beBytes 1 header.messageType.toNat ++
    beBytes 2 (gtpuGetLength header payload) ++ beBytes 4 header.teid.toNat ++ optionalBytes header ++
    extBytes header.extList

theorem supportedFlags_eq {flags : GtpuFlags} (h : gtpuSupportedFlagsCheck flags = true) :
    flags.version = 1 ∧ flags.protocolType = 1 ∧ flags.nPdu = false := by
  rw [gtpuSupportedFlagsCheck, Bool.and_eq_true, Bool.and_eq_true, decide_eq_true_eq, decide_eq_true_eq,
    Bool.not_eq_true'] at h
  exact ⟨h.1.1, h.1.2, h.2⟩

theorem packFlags_eq {header : GtpuHeader} (h : gtpuSupportedFlagsCheck header.flags = true) :
    packFlags header =
      { bytes := [flagsByte (!header.extList.isEmpty) header.flags.seqNumber], offset := 0 } := by
  obtain ⟨hversion, hprotocol, hnPdu⟩ := supportedFlags_eq h
  rw [packFlags, hversion, hprotocol, hnPdu]
  cases header.extList.isEmpty <;> cases header.flags.seqNumber <;> decide +kernel

theorem pack_byte (bytes : List UInt8) (val : Nat) :
    ({ bytes, offset := 0 } : BitEncoder).pack val 8 =
      { bytes := bytes ++ beBytes 1 val, offset := 0 } :=
  @BitEncoder.pack_aligned 1 val bytes (by decide)

theorem packBytes_aligned (bytes container : List UInt8) :
    ({ bytes, offset := 0 } : BitEncoder).packBytes container =
      { bytes := bytes ++ container, offset := 0 } :=
  rfl

theorem gtpuWriteExtHeader_eq {ext : GtpuExtensionHeader} (h : wellSized ext = true)
    (bytes : List UInt8) (next : GtpuExtensionHeaderType) :
    gtpuWriteExtHeader { bytes, offset := 0 } ext next =
      .ok { bytes := bytes ++ (beBytes 1 ((ext.container.bytes.length + 2) / 4) ++
              ext.container.bytes ++ beBytes 1 next.toNat), offset := 0 } := by
  simp only [wellSized, Bool.and_eq_true, decide_eq_true_eq] at h
  have hpayload : (1 + ext.container.bytes.length + 1) % 2 ^ 8 = ext.container.bytes.length + 2 := by
    omega
  have hwords : ¬(ext.container.bytes.length + 2) % 4 ≠ 0 := by omega
  rw [gtpuWriteExtHeader, hpayload, if_neg hwords, pack_byte, packBytes_aligned, pack_byte]
  simp only [List.append_assoc]

theorem gtpuWriteExtHeaders_cons (enc : BitEncoder) (ext : GtpuExtensionHeader)
    (rest : List GtpuExtensionHeader) :
    gtpuWriteExtHeaders enc (ext :: rest) =
      match gtpuWriteExtHeader enc ext (nextType rest) with
      | .error err => .error err
      | .ok enc => gtpuWriteExtHeaders enc rest := by
  cases rest <;> rfl

variable {extList : List GtpuExtensionHeader}

theorem gtpuWriteExtHeaders_eq (h : ∀ ext ∈ extList, wellSized ext = true) (bytes : List UInt8) :
    gtpuWriteExtHeaders { bytes, offset := 0 } extList =
      .ok { bytes := bytes ++ extBytes extList, offset := 0 } := by
  induction extList generalizing bytes with
  | nil => rw [gtpuWriteExtHeaders, extBytes, List.append_nil]
  | cons ext rest ih =>
    rw [gtpuWriteExtHeaders_cons, gtpuWriteExtHeader_eq (h ext List.mem_cons_self)]
    dsimp only
    rw [ih (fun other hmem => h other (List.mem_cons_of_mem ext hmem)), extBytes, List.append_assoc]

variable (header : GtpuHeader)

theorem firstExtHdrType_eq : firstExtHdrType header = nextType header.extList := by
  rw [firstExtHdrType]
  cases header.extList <;> rfl

theorem packOptionalFields_eq (bytes : List UInt8) :
    (if hasOptionalFields header then
        ((({ bytes, offset := 0 } : BitEncoder).pack header.seqNumber.toNat 16).pack
          header.nPdu.toNat 8).pack (firstExtHdrType header).toNat 8
      else { bytes, offset := 0 }) = { bytes := bytes ++ optionalBytes header, offset := 0 } := by
  rw [optionalBytes, firstExtHdrType_eq]
  split
  · have hseq := @BitEncoder.pack_aligned 2 header.seqNumber.toNat bytes (by decide)
    rw [hseq, pack_byte, pack_byte]
    simp only [List.append_assoc]
  · rw [List.append_nil]

theorem gtpuWriteHeader_eq {header : GtpuHeader} {payload : List UInt8}
    (hflags : gtpuSupportedFlagsCheck header.flags = true)
    (hmsg : gtpuSupportedMsgTypeCheck header.messageType = true)
    (hext : ∀ ext ∈ header.extList, wellSized ext = true) :
    gtpuWriteHeader payload header = .ok (headerBytes header payload ++ payload) := by
  have hlength (bytes : List UInt8) :=
    @BitEncoder.pack_aligned 2 (gtpuGetLength header payload) bytes (by decide)
  have hteid (bytes : List UInt8) := @BitEncoder.pack_aligned 4 header.teid.toNat bytes (by decide)
  rw [gtpuWriteHeader, hflags, hmsg]
  dsimp only [Bool.not_true, Bool.false_eq_true, if_false]
  rw [packFlags_eq hflags, pack_byte, hlength, hteid, packOptionalFields_eq,
    gtpuWriteExtHeaders_eq hext]
  rfl

theorem extBytes_length_cons (ext : GtpuExtensionHeader) (rest : List GtpuExtensionHeader) :
    (extBytes (ext :: rest)).length = 2 + ext.container.bytes.length + (extBytes rest).length := by
  rw [extBytes]
  simp only [List.length_append, length_beBytes]
  omega

theorem extBytes_length_le {extList : List GtpuExtensionHeader}
    (h : ∀ ext ∈ extList, wellSized ext = true) : (extBytes extList).length ≤ 256 * extList.length := by
  induction extList with
  | nil => exact Nat.zero_le _
  | cons ext rest ih =>
    have hext := h ext List.mem_cons_self
    simp only [wellSized, Bool.and_eq_true, decide_eq_true_eq] at hext
    have hrest := ih fun other hmem => h other (List.mem_cons_of_mem ext hmem)
    rw [extBytes_length_cons, List.length_cons]
    omega

theorem foldl_length (extList : List GtpuExtensionHeader) (len : Nat) :
    extList.foldl (fun len ext => (len + 2 + ext.container.bytes.length) % 2 ^ 16) (len % 2 ^ 16) =
      (len + (extBytes extList).length) % 2 ^ 16 := by
  induction extList generalizing len with
  | nil => rfl
  | cons ext rest ih =>
    have hstep : (len % 2 ^ 16 + 2 + ext.container.bytes.length) % 2 ^ 16 =
        (len + 2 + ext.container.bytes.length) % 2 ^ 16 := by omega
    rw [List.foldl_cons, hstep, ih, extBytes_length_cons]
    congr 1
    omega

theorem optionalBytes_length :
    (optionalBytes header).length = if hasOptionalFields header then 4 else 0 := by
  rw [optionalBytes]
  split <;> simp

theorem gtpuGetLength_eq (payload : List UInt8) :
    gtpuGetLength header payload =
      ((optionalBytes header).length + (extBytes header.extList).length + payload.length) % 2 ^ 16 := by
  rw [gtpuGetLength, optionalBytes_length, foldl_length]
  congr 1
  omega

theorem headerBytes_length (payload : List UInt8) :
    (headerBytes header payload).length =
      gtpuBaseHeaderLen + (optionalBytes header).length + (extBytes header.extList).length := by
  rw [headerBytes]
  simp only [List.length_append, length_beBytes, List.length_singleton, gtpuBaseHeaderLen]

theorem read_inside {offset nBits : Nat} (hpos : 0 < nBits) (h : nBits < 8 - offset) (byte : UInt8)
    (rest : List UInt8) :
    ({ bytes := byte :: rest, offset } : BitDecoder).read nBits =
      (({ bytes := [byte], offset } : BitDecoder).unpackValue nBits,
        { bytes := byte :: rest, offset := offset + nBits }) := by
  have hne : ¬nBits = 0 := by omega
  simp only [BitDecoder.read, BitDecoder.unpackValue, BitDecoder.unpack, BitDecoder.unpackLoop,
    BitDecoder.valueLoop, if_neg hne, if_pos h, gt_iff_lt]

theorem read_end {offset nBits : Nat} (hpos : 0 < nBits) (h : nBits = 8 - offset) (byte : UInt8)
    (rest : List UInt8) :
    ({ bytes := byte :: rest, offset } : BitDecoder).read nBits =
      (({ bytes := [byte], offset } : BitDecoder).unpackValue nBits,
        { bytes := rest, offset := 0 }) := by
  have hne : ¬nBits = 0 := by omega
  have hend : ¬8 - offset > nBits := by omega
  have hzero : nBits - (8 - offset) = 0 := by omega
  cases rest <;>
    simp only [BitDecoder.read, BitDecoder.unpackValue, BitDecoder.unpack, BitDecoder.unpackLoop,
      BitDecoder.valueLoop, if_neg hne, if_neg hend, hzero, if_true]

theorem unpackFlags_cons (byte : UInt8) (rest : List UInt8) :
    unpackFlags { bytes := byte :: rest } =
      ((unpackFlags { bytes := [byte] }).1, { bytes := rest, offset := 0 }) := by
  rw [unpackFlags, read_inside (by decide) (by decide)]
  dsimp only
  rw [read_inside (by decide) (by decide)]
  dsimp only
  rw [read_inside (by decide) (by decide)]
  dsimp only
  rw [read_inside (by decide) (by decide)]
  dsimp only
  rw [read_inside (by decide) (by decide)]
  dsimp only
  rw [read_end (by decide) (by decide)]
  rfl

theorem unpackFlags_flagsByte (extHdr seqNumber : Bool) (rest : List UInt8) :
    unpackFlags { bytes := flagsByte extHdr seqNumber :: rest } =
      ({ version := 1, protocolType := 1, extHdr, seqNumber, nPdu := false },
        { bytes := rest, offset := 0 }) := by
  rw [unpackFlags_cons]
  cases extHdr <;> cases seqNumber <;> rfl

theorem read_beByte (val : Nat) (rest : List UInt8) :
    ({ bytes := beBytes 1 val ++ rest, offset := 0 } : BitDecoder).read 8 =
      (val % 256, { bytes := rest, offset := 0 }) :=
  @read_beBytes 1 val rest

theorem unpackExtHeaderType_beByte (type : GtpuExtensionHeaderType) (rest : List UInt8) :
    gtpuUnpackExtHeaderType { bytes := beBytes 1 type.toNat ++ rest, offset := 0 } =
      (type, { bytes := rest, offset := 0 }) := by
  have hsmall : type.toNat % 256 = type.toNat := Nat.mod_eq_of_lt type.toNat_lt
  rw [gtpuUnpackExtHeaderType, read_beByte, hsmall]
  dsimp only
  rw [UInt8.ofNat_toNat]

theorem unpackAlignedBytes_append {container : List UInt8} (hcontainer : container ≠ [])
    (rest : List UInt8) :
    ({ bytes := container ++ rest, offset := 0 } : BitDecoder).unpackAlignedBytes container.length =
      (container, { bytes := rest, offset := 0 }) := by
  have halign : ({ bytes := container ++ rest, offset := 0 } : BitDecoder).alignBytes =
      { bytes := container ++ rest, offset := 0 } := rfl
  have hlength : ¬container.length = 0 := fun hzero =>
    hcontainer (List.length_eq_zero_iff.mp hzero)
  have hroom : ¬container.length > (container ++ rest).length := by
    rw [List.length_append]
    omega
  rw [unpackAlignedBytes, halign]
  dsimp only
  rw [if_neg hlength, if_neg hroom, List.take_left, List.drop_left]

theorem containerLength_eq {lengthField : Nat} (hpos : 0 < lengthField) (h : lengthField < 2 ^ 8) :
    containerLength lengthField = 4 * lengthField - 2 := by
  rw [containerLength]
  omega

variable {dec : BitDecoder}

theorem gtpuReadExtHeader_eq (length : Nat) {afterField afterBytes afterType : BitDecoder}
    {lengthField : Nat} {bytes : List UInt8} {next : GtpuExtensionHeaderType}
    (hfield : dec.read 8 = (lengthField, afterField))
    (hbytes : afterField.unpackAlignedBytes (containerLength lengthField) = (bytes, afterBytes))
    (hnext : gtpuUnpackExtHeaderType afterBytes = (next, afterType)) :
    gtpuReadExtHeader length dec =
      ({ start := length - afterField.alignBytes.bytes.length, bytes }, next, afterType) := by
  rw [gtpuReadExtHeader, hfield, hbytes, hnext]

theorem gtpuReadExtHeader_written {ext : GtpuExtensionHeader} (h : wellSized ext = true)
    (length : Nat) (next : GtpuExtensionHeaderType) (rest : List UInt8) :
    ∃ start, gtpuReadExtHeader length
        { bytes := beBytes 1 ((ext.container.bytes.length + 2) / 4) ++ ext.container.bytes ++
            beBytes 1 next.toNat ++ rest, offset := 0 } =
      ({ start, bytes := ext.container.bytes }, next, { bytes := rest, offset := 0 }) := by
  simp only [wellSized, Bool.and_eq_true, decide_eq_true_eq] at h
  have hne : ext.container.bytes ≠ [] := by
    intro hnil
    rw [hnil] at h
    exact absurd h.1 (by decide)
  have hpayload : containerLength ((ext.container.bytes.length + 2) / 4 % 256) =
      ext.container.bytes.length := by
    rw [containerLength_eq] <;> omega
  have hbytes := unpackAlignedBytes_append hne (beBytes 1 next.toNat ++ rest)
  rw [← hpayload] at hbytes
  rw [List.append_assoc, List.append_assoc, gtpuReadExtHeader_eq length (read_beByte _ _) hbytes
    (unpackExtHeaderType_beByte next rest)]
  exact ⟨_, rfl⟩

def readableType (type : GtpuExtensionHeaderType) : Bool :=
  gtpuExtensionHeaderComprehensionCheck type && type ≠ noMoreExtensionHeaders

def content (ext : GtpuExtensionHeader) : GtpuExtensionHeaderType × List UInt8 :=
  (ext.extensionHeaderType, ext.container.bytes)

theorem nextType_ne_noMore (hne : extList ≠ [])
    (h : ∀ ext ∈ extList, readableType ext.extensionHeaderType = true) :
    nextType extList ≠ noMoreExtensionHeaders ∧
      gtpuExtensionHeaderComprehensionCheck (nextType extList) = true := by
  cases extList with
  | nil => exact absurd rfl hne
  | cons ext rest =>
    have hread := h ext List.mem_cons_self
    rw [readableType, Bool.and_eq_true, decide_eq_true_eq] at hread
    exact ⟨hread.2, hread.1⟩

/-- Every turn of the loop takes one of the extension headers that were written. -/
theorem readExtHeaders_written (hne : extList ≠ []) (hsize : ∀ ext ∈ extList, wellSized ext = true)
    (htype : ∀ ext ∈ extList, readableType ext.extensionHeaderType = true) {room : Nat}
    (hroom : extList.length ≤ room) (length : Nat) (payload : List UInt8)
    (acc : List GtpuExtensionHeader) :
    ∃ placed, readExtHeaders length room { bytes := extBytes extList ++ payload, offset := 0 }
        (nextType extList) acc = some (acc ++ placed, { bytes := payload, offset := 0 }) ∧
      placed.map content = extList.map content := by
  induction extList generalizing room acc with
  | nil => exact absurd rfl hne
  | cons ext rest ih =>
    obtain ⟨_, hcheck⟩ := nextType_ne_noMore hne htype
    obtain ⟨start, hread⟩ := gtpuReadExtHeader_written (hsize ext List.mem_cons_self) length
      (nextType rest) (extBytes rest ++ payload)
    obtain ⟨room, rfl⟩ : ∃ smaller, room = smaller + 1 := ⟨room - 1, by
      rw [List.length_cons] at hroom
      omega⟩
    rw [readExtHeaders, hcheck, if_neg (by decide), extBytes, List.append_assoc _ (extBytes rest), hread]
    dsimp only
    by_cases hrest : rest = []
    · subst hrest
      have hend : nextType [] = noMoreExtensionHeaders := rfl
      rw [if_pos hend]
      exact ⟨[{ extensionHeaderType := ext.extensionHeaderType,
                container := { start, bytes := ext.container.bytes } }], rfl, rfl⟩
    · obtain ⟨hmore, _⟩ := nextType_ne_noMore hrest
        (fun other hmem => htype other (List.mem_cons_of_mem ext hmem))
      obtain ⟨placed, hloop, hplaced⟩ := ih hrest
        (fun other hmem => hsize other (List.mem_cons_of_mem ext hmem))
        (fun other hmem => htype other (List.mem_cons_of_mem ext hmem))
        (Nat.le_of_succ_le_succ hroom)
        (acc ++ [{ extensionHeaderType := nextType (ext :: rest),
                   container := { start, bytes := ext.container.bytes } }])
      rw [if_neg hmore, hloop, List.append_assoc]
      exact ⟨_, rfl, congrArg (content ext :: ·) hplaced⟩

theorem read_messageType (messageType : UInt8) (rest : List UInt8) :
    ({ bytes := beBytes 1 messageType.toNat ++ rest, offset := 0 } : BitDecoder).read 8 =
      (messageType.toNat, { bytes := rest, offset := 0 }) := by
  rw [read_beByte, Nat.mod_eq_of_lt messageType.toNat_lt]

theorem read_halfWord {val : Nat} (h : val < 2 ^ 16) (rest : List UInt8) :
    ({ bytes := beBytes 2 val ++ rest, offset := 0 } : BitDecoder).read 16 =
      (val, { bytes := rest, offset := 0 }) := by
  have hread := @read_beBytes 2 val rest
  have hmod : val % 256 ^ 2 = val := Nat.mod_eq_of_lt h
  rwa [hmod] at hread

theorem read_word {val : Nat} (h : val < 2 ^ 32) (rest : List UInt8) :
    ({ bytes := beBytes 4 val ++ rest, offset := 0 } : BitDecoder).read 32 =
      (val, { bytes := rest, offset := 0 }) := by
  have hread := @read_beBytes 4 val rest
  have hmod : val % 256 ^ 4 = val := Nat.mod_eq_of_lt h
  rwa [hmod] at hread

def baseHeader (header : GtpuHeader) (payload : List UInt8) : GtpuHeader :=
  { flags := { version := 1, protocolType := 1, extHdr := !header.extList.isEmpty,
               seqNumber := header.flags.seqNumber, nPdu := false }
    messageType := header.messageType
    length := UInt16.ofNat (gtpuGetLength header payload)
    teid := header.teid }

theorem unpackOptionalFields_written {header : GtpuHeader} (payload rest : List UInt8) {length : Nat}
    (hlength : hasOptionalFields header = true → gtpuExtendedHeaderLen ≤ length)
    (hflags : gtpuSupportedFlagsCheck header.flags = true)
    (htype : gtpuExtensionHeaderComprehensionCheck (nextType header.extList) = true) :
    ∃ hdr, unpackOptionalFields length (baseHeader header payload)
        { bytes := optionalBytes header ++ rest, offset := 0 } =
          some (hdr, { bytes := rest, offset := 0 }) ∧
      hdr.flags = (baseHeader header payload).flags ∧ hdr.teid = header.teid ∧
      hdr.messageType = header.messageType ∧ hdr.extList = [] ∧
      (hasOptionalFields header = true →
        hdr.seqNumber = header.seqNumber ∧ hdr.nextExtHdrType = nextType header.extList) := by
  obtain ⟨_, _, hnPdu⟩ := supportedFlags_eq hflags
  have hopt : ((baseHeader header payload).flags.extHdr ||
      (baseHeader header payload).flags.seqNumber || (baseHeader header payload).flags.nPdu) =
        hasOptionalFields header := by
    rw [hasOptionalFields, hnPdu]
    rfl
  rw [unpackOptionalFields, hopt, optionalBytes]
  split
  · rename_i hthere
    have hlong : ¬length < gtpuExtendedHeaderLen := Nat.not_lt.mpr (hlength hthere)
    rw [if_neg hlong, List.append_assoc, List.append_assoc, read_halfWord header.seqNumber.toNat_lt]
    dsimp only
    rw [read_messageType]
    dsimp only
    rw [unpackExtHeaderType_beByte]
    dsimp only
    rw [htype, if_neg (by decide)]
    exact ⟨_, rfl, rfl, rfl, rfl, rfl, fun _ => ⟨UInt16.ofNat_toNat, rfl⟩⟩
  · rename_i hthere
    exact ⟨_, rfl, rfl, rfl, rfl, rfl, fun h => absurd h hthere⟩

theorem comprehended_nextType (h : ∀ ext ∈ extList, readableType ext.extensionHeaderType = true) :
    gtpuExtensionHeaderComprehensionCheck (nextType extList) = true := by
  by_cases hne : extList = []
  · rw [hne]
    rfl
  · exact (nextType_ne_noMore hne h).2

theorem nofBytes_append (header payload : List UInt8) :
    ({ bytes := payload, offset := 0 } : BitDecoder).nofBytes (header ++ payload).length =
      header.length % 2 ^ 32 := by
  have haligned : ¬(0 : Nat) ≠ 0 := by decide
  rw [nofBytes, if_neg haligned, List.length_append, Nat.add_sub_cancel, Nat.add_zero]

/-- What the receiver gets back. -/
structure Transferred (header : GtpuHeader) (payload : List UInt8) (pdu : List UInt8)
    (dissected : GtpuDissectedPdu) : Prop where
  teid : dissected.hdr.teid = header.teid
  messageType : dissected.hdr.messageType = header.messageType
  /-- It is written when the header has its optional fields. -/
  seqNumber : hasOptionalFields header = true → dissected.hdr.seqNumber = header.seqNumber
  extList : dissected.hdr.extList.map content = header.extList.map content
  hdrLen : dissected.hdrLen + payload.length = pdu.length
  payload : gtpuExtractMsg dissected = payload

theorem gtpuDissectPdu_base {header : GtpuHeader} {payload rest rawPdu : List UInt8}
    (hraw : rawPdu = flagsByte (!header.extList.isEmpty) header.flags.seqNumber ::
      (beBytes 1 header.messageType.toNat ++ (beBytes 2 (gtpuGetLength header payload) ++
        (beBytes 4 header.teid.toNat ++ rest))))
    (hlength : gtpuGetLength header payload = (rawPdu.length - gtpuBaseHeaderLen) % 2 ^ 16)
    (hbase : gtpuBaseHeaderLen ≤ rawPdu.length) :
    gtpuDissectPdu rawPdu =
      dissectFields rawPdu (baseHeader header payload) { bytes := rest, offset := 0 } := by
  have hsmall : gtpuGetLength header payload < 2 ^ 16 := by
    rw [hlength]
    exact Nat.mod_lt _ (by decide)
  have hflags : unpackFlags { bytes := rawPdu } = ((baseHeader header payload).flags,
      { bytes := beBytes 1 header.messageType.toNat ++ (beBytes 2 (gtpuGetLength header payload) ++
          (beBytes 4 header.teid.toNat ++ rest)), offset := 0 }) := by
    rw [hraw, unpackFlags_flagsByte]
    rfl
  have hcheck : ¬(!gtpuSupportedFlagsCheck (baseHeader header payload).flags) = true := by
    rw [show gtpuSupportedFlagsCheck (baseHeader header payload).flags = true from rfl]
    decide
  rw [gtpuDissectPdu, if_neg (Nat.not_lt.mpr hbase), hflags]
  dsimp only
  rw [if_neg hcheck, read_messageType]
  dsimp only
  rw [read_halfWord hsmall]
  dsimp only
  rw [read_word header.teid.toNat_lt]
  dsimp only
  rw [if_neg (not_not.mpr hlength), UInt8.ofNat_toNat, UInt32.ofNat_toNat]
  rfl

theorem gtpuDissectPdu_written {header : GtpuHeader} {payload : List UInt8}
    (hflags : gtpuSupportedFlagsCheck header.flags = true)
    (hsize : ∀ ext ∈ header.extList, wellSized ext = true)
    (htype : ∀ ext ∈ header.extList, readableType ext.extensionHeaderType = true)
    (hroom : header.extList.length ≤ gtpuMaxNumHeaderExtensions) :
    ∃ dissected, gtpuDissectPdu (headerBytes header payload ++ payload) = some dissected ∧
      Transferred header payload (headerBytes header payload ++ payload) dissected := by
  have hlength := headerBytes_length header payload
  have htotal : (headerBytes header payload ++ payload).length =
      gtpuBaseHeaderLen + (optionalBytes header).length + (extBytes header.extList).length +
        payload.length := by rw [List.length_append, hlength]
  have hbase : gtpuBaseHeaderLen ≤ (headerBytes header payload ++ payload).length := by omega
  have hannounced : gtpuGetLength header payload =
      ((headerBytes header payload ++ payload).length - gtpuBaseHeaderLen) % 2 ^ 16 := by
    rw [gtpuGetLength_eq, htotal]
    congr 1
    omega
  have hlong : hasOptionalFields header = true →
      gtpuExtendedHeaderLen ≤ (headerBytes header payload ++ payload).length := by
    intro hthere
    have hopt := optionalBytes_length header
    rw [if_pos hthere] at hopt
    rw [htotal, hopt, gtpuBaseHeaderLen, gtpuExtendedHeaderLen]
    omega
  have hbytes : headerBytes header payload ++ payload =
      flagsByte (!header.extList.isEmpty) header.flags.seqNumber ::
        (beBytes 1 header.messageType.toNat ++ (beBytes 2 (gtpuGetLength header payload) ++
          (beBytes 4 header.teid.toNat ++ (optionalBytes header ++
            (extBytes header.extList ++ payload))))) := by
    simp only [headerBytes, List.append_assoc, List.cons_append, List.nil_append]
  obtain ⟨hdr, hunpack, hsame, hteid, hmessage, hnil, hfields⟩ := unpackOptionalFields_written payload
    (extBytes header.extList ++ payload) hlong hflags (comprehended_nextType htype)
  have hnof := nofBytes_append (headerBytes header payload) payload
  have hheader : (headerBytes header payload).length < 2 ^ 32 := by
    have hopt := optionalBytes_length header
    have hext := extBytes_length_le hsize
    simp only [gtpuMaxNumHeaderExtensions, gtpuBaseHeaderLen] at hroom hlength
    split at hopt <;> omega
  rw [Nat.mod_eq_of_lt hheader] at hnof
  have hprefix : (headerBytes header payload).length + payload.length =
      (headerBytes header payload ++ payload).length := List.length_append.symm
  have hdrop : (headerBytes header payload ++ payload).drop (headerBytes header payload).length =
      payload := List.drop_left
  have hextHdr : hdr.flags.extHdr = !header.extList.isEmpty := by
    rw [hsame]
    rfl
  rw [gtpuDissectPdu_base hbytes hannounced hbase, dissectFields, hunpack]
  dsimp only
  rw [hextHdr]
  by_cases hne : header.extList = []
  · have hextBytes : extBytes header.extList ++ payload = payload := by
      rw [hne]
      rfl
    have hnone : hdr.extList.map content = header.extList.map content := by
      rw [hnil, hne]
    rw [hextBytes, hnof, hne, List.isEmpty_nil, if_neg (by decide)]
    exact ⟨_, rfl, hteid, hmessage, fun hthere => (hfields hthere).1, hnone, hprefix, hdrop⟩
  · have hthere : hasOptionalFields header = true := by
      rw [hasOptionalFields, List.isEmpty_eq_false_iff.mpr hne]
      rfl
    obtain ⟨hmore, _⟩ := nextType_ne_noMore hne htype
    obtain ⟨placed, hloop, hplaced⟩ := readExtHeaders_written hne hsize htype hroom
      (headerBytes header payload ++ payload).length payload []
    rw [List.isEmpty_eq_false_iff.mpr hne, Bool.not_false, if_pos rfl, (hfields hthere).2,
      if_neg hmore, hloop]
    dsimp only
    rw [hnof]
    exact ⟨_, rfl, hteid, hmessage, fun _ => (hfields hthere).1, hplaced, hprefix, hdrop⟩

/-- The decoder stands between two bytes of the PDU. -/
def Within (pdu : List UInt8) (dec : BitDecoder) : Prop := dec.offset = 0 ∧ dec.bytes <:+ pdu

theorem unpackLoop_rest (bytes : List UInt8) (n val : Nat) :
    (unpackLoop bytes 0 (8 * n) val).2 = { bytes := bytes.drop n, offset := 0 } := by
  induction bytes generalizing n val with
  | nil => rw [unpackLoop, List.drop_nil]
  | cons byte rest ih =>
    cases n with
    | zero => rfl
    | succ n =>
      have hrest : 8 * (n + 1) - (8 - 0) = 8 * n := by omega
      rw [unpackLoop, if_neg (by omega), if_neg (by omega), hrest, ih,
        List.drop_succ_cons]

variable {pdu : List UInt8}

theorem Within.read (h : Within pdu dec) (n : Nat) : Within pdu (dec.read (8 * n)).2 := by
  obtain ⟨bytes, offset⟩ := dec
  obtain ⟨hoffset, hsuffix⟩ := h
  dsimp only at hoffset hsuffix
  subst hoffset
  have hread : (({ bytes, offset := 0 } : BitDecoder).read (8 * n)).2 =
      { bytes := bytes.drop n, offset := 0 } := unpackLoop_rest bytes n 0
  rw [hread]
  exact ⟨rfl, (List.drop_suffix n bytes).trans hsuffix⟩

theorem Within.nofBytes_le (h : Within pdu dec) : dec.nofBytes pdu.length ≤ pdu.length := by
  rw [nofBytes, if_neg (not_not.mpr h.1), Nat.add_zero]
  exact (Nat.mod_le _ _).trans (Nat.sub_le _ _)

/-- Where the container of an accepted extension header lies; the length field is the byte before it. -/
structure LiesInside (pdu : List UInt8) (container : ByteBufferView) : Prop where
  afterField : 0 < container.start
  inside : container.start + container.bytes.length ≤ pdu.length
  bytes : (pdu.drop container.start).take container.bytes.length = container.bytes
  announced : ∀ lengthField, pdu[container.start - 1]? = some lengthField → 0 < lengthField.toNat →
    container.start + (4 * lengthField.toNat - 2) ≤ pdu.length →
    container.bytes.length = 4 * lengthField.toNat - 2

theorem liesInside_end (h : 0 < pdu.length) :
    LiesInside pdu { start := pdu.length, bytes := [] } where
  afterField := h
  inside := Nat.le_refl _
  bytes := List.take_zero
  announced := by
    intro lengthField _ hpos hroom
    dsimp only at hroom
    omega

theorem unpackAlignedBytes_within {bytes : List UInt8} (hsuffix : bytes <:+ pdu) (n : Nat) :
    ∃ taken left, ({ bytes, offset := 0 } : BitDecoder).unpackAlignedBytes n =
        (taken, { bytes := left, offset := 0 }) ∧
      left <:+ pdu ∧ taken <+: bytes ∧ (0 < n → n ≤ bytes.length → taken.length = n) := by
  have halign : ({ bytes, offset := 0 } : BitDecoder).alignBytes = { bytes, offset := 0 } := rfl
  rw [unpackAlignedBytes, halign]
  dsimp only
  split
  · rename_i hzero
    exact ⟨[], bytes, rfl, hsuffix, List.nil_prefix, fun hpos => absurd hzero (Nat.ne_of_gt hpos)⟩
  · split
    · rename_i hshort
      exact ⟨[], bytes, rfl, hsuffix, List.nil_prefix,
        fun _ hroom => absurd hroom (Nat.not_le.mpr hshort)⟩
    · exact ⟨bytes.take n, bytes.drop n, rfl, (List.drop_suffix n bytes).trans hsuffix,
        List.take_prefix n bytes, fun _ hroom => by rw [List.length_take, Nat.min_eq_left hroom]⟩

theorem gtpuUnpackExtHeaderType_within (h : Within pdu dec) :
    Within pdu (gtpuUnpackExtHeaderType dec).2 :=
  h.read 1

theorem gtpuReadExtHeader_inside (hpdu : 0 < pdu.length) (h : Within pdu dec) :
    LiesInside pdu (gtpuReadExtHeader pdu.length dec).1 ∧
      Within pdu (gtpuReadExtHeader pdu.length dec).2.2 := by
  obtain ⟨bytes, offset⟩ := dec
  obtain ⟨hoffset, before, rfl⟩ := h
  dsimp only at hoffset
  subst hoffset
  dsimp only at hpdu ⊢
  have hsuffix : bytes.drop 1 <:+ before ++ bytes :=
    (List.drop_suffix 1 bytes).trans (List.suffix_append before bytes)
  obtain ⟨taken, left, hunpack, hleft, htaken, hall⟩ := unpackAlignedBytes_within hsuffix
    (containerLength (bytes.head?.getD 0).toNat)
  have hread := gtpuReadExtHeader_eq (before ++ bytes).length (read_byte bytes) hunpack
    (Prod.mk.eta : _ = gtpuUnpackExtHeaderType { bytes := left, offset := 0 }).symm
  rw [hread]
  refine ⟨?_, gtpuUnpackExtHeaderType_within ⟨rfl, hleft⟩⟩
  have hstart : (before ++ bytes).length - (({ bytes := bytes.drop 1, offset := 0 } :
      BitDecoder).alignBytes.bytes).length = (before ++ bytes).length - (bytes.drop 1).length := rfl
  rw [hstart]
  cases bytes with
  | nil =>
    rw [List.prefix_nil.mp htaken]
    exact liesInside_end hpdu
  | cons byte rest =>
    have hhead : (byte :: rest).head?.getD 0 = byte := rfl
    rw [List.drop_succ_cons, List.drop_zero] at htaken hall ⊢
    rw [hhead] at hall
    have hlength : (before ++ byte :: rest).length = before.length + 1 + rest.length := by
      rw [List.length_append, List.length_cons]
      omega
    have hplace : (before ++ byte :: rest).length - rest.length = before.length + 1 := by omega
    have hdrop : (before ++ byte :: rest).drop (before.length + 1) = rest := by
      rw [← List.drop_drop, List.drop_left, List.drop_succ_cons, List.drop_zero]
    rw [hplace]
    refine ⟨Nat.succ_pos _, ?_, ?_, ?_⟩
    · have hle := htaken.length_le
      dsimp only
      omega
    · dsimp only
      rw [hdrop]
      exact List.prefix_iff_eq_take.mp htaken |>.symm
    · intro lengthField hfield hpos hroom
      dsimp only at hfield hroom ⊢
      have hsame : byte = lengthField := by
        rw [Nat.add_sub_cancel, List.getElem?_append_right (Nat.le_refl _), Nat.sub_self] at hfield
        exact Option.some.inj hfield
      have hpayload : containerLength byte.toNat = 4 * byte.toNat - 2 :=
        containerLength_eq (hsame ▸ hpos) byte.toNat_lt
      subst hsame
      rw [← hpayload]
      exact hall (by omega) (by omega)

theorem readExtHeaders_inside (hpdu : 0 < pdu.length) {room : Nat} {dec' : BitDecoder}
    {type : GtpuExtensionHeaderType} {acc : List GtpuExtensionHeader} (h : Within pdu dec)
    (hacc : ∀ ext ∈ acc, LiesInside pdu ext.container)
    (hread : readExtHeaders pdu.length room dec type acc = some (extList, dec')) :
    (∀ ext ∈ extList, LiesInside pdu ext.container) ∧ Within pdu dec' := by
  induction room generalizing dec type acc with
  | zero =>
    rw [readExtHeaders] at hread
    split at hread <;> cases hread
  | succ room ih =>
    obtain ⟨hcontainer, hnext⟩ := gtpuReadExtHeader_inside hpdu h
    have hmore : ∀ ext ∈ acc ++ [GtpuExtensionHeader.mk type (gtpuReadExtHeader pdu.length dec).1],
        LiesInside pdu ext.container := by
      intro ext hmem
      rcases List.mem_append.mp hmem with hold | hnew
      · exact hacc ext hold
      · rw [List.mem_singleton.mp hnew]
        exact hcontainer
    rw [readExtHeaders] at hread
    split at hread
    · cases hread
    · dsimp only at hread
      split at hread
      · cases hread
        exact ⟨hmore, hnext⟩
      · exact ih hnext hmore hread

theorem unpackOptionalFields_within {hdr hdr' : GtpuHeader} {dec' : BitDecoder} (h : Within pdu dec)
    (hunpack : unpackOptionalFields pdu.length hdr dec = some (hdr', dec')) :
    Within pdu dec' ∧ hdr'.extList = hdr.extList := by
  rw [unpackOptionalFields] at hunpack
  split at hunpack
  · split at hunpack
    · cases hunpack
    · dsimp only at hunpack
      split at hunpack
      · cases hunpack
      · cases hunpack
        exact ⟨gtpuUnpackExtHeaderType_within ((h.read 2).read 1), rfl⟩
  · cases hunpack
    exact ⟨h, rfl⟩

theorem dissectFields_inside {hdr : GtpuHeader} {dissected : GtpuDissectedPdu}
    (hpdu : 0 < pdu.length) (h : Within pdu dec) (hnil : hdr.extList = [])
    (hfields : dissectFields pdu hdr dec = some dissected) :
    dissected.hdrLen ≤ pdu.length ∧
      ∀ ext ∈ dissected.hdr.extList, LiesInside pdu ext.container := by
  rw [dissectFields] at hfields
  split at hfields
  · cases hfields
  · rename_i hdr' dec' hunpack
    obtain ⟨hwithin, hsame⟩ := unpackOptionalFields_within h hunpack
    split at hfields
    · split at hfields
      · cases hfields
      · split at hfields
        · cases hfields
        · rename_i extList dec'' hread
          obtain ⟨hinside, hend⟩ := readExtHeaders_inside hpdu hwithin
            (fun _ hmem => absurd hmem List.not_mem_nil) hread
          cases hfields
          exact ⟨hend.nofBytes_le, hinside⟩
    · cases hfields
      refine ⟨hwithin.nofBytes_le, fun ext hmem => ?_⟩
      rw [hsame, hnil] at hmem
      exact absurd hmem List.not_mem_nil

theorem gtpuDissectPdu_inside {dissected : GtpuDissectedPdu}
    (h : gtpuDissectPdu pdu = some dissected) :
    dissected.hdrLen ≤ pdu.length ∧
      ∀ ext ∈ dissected.hdr.extList, LiesInside pdu ext.container := by
  cases pdu with
  | nil => cases h
  | cons byte rest =>
    have hstart : Within (byte :: rest) { bytes := rest, offset := 0 } :=
      ⟨rfl, List.suffix_cons byte rest⟩
    rw [gtpuDissectPdu, unpackFlags_cons] at h
    split at h
    · cases h
    · dsimp only at h
      split at h
      · cases h
      · split at h
        · cases h
        · exact dissectFields_inside (Nat.succ_pos _) (((hstart.read 1).read 2).read 4) rfl h

/-- Headers whose extension headers the receiver is able to read come back with the payload, and
whatever is dissected lies inside the PDU. -/
theorem gtpuHeader_roundTrip_and_inside :
    (∀ (header : GtpuHeader) (payload : List UInt8),
      gtpuSupportedFlagsCheck header.flags = true →
      gtpuSupportedMsgTypeCheck header.messageType = true →
      (∀ ext ∈ header.extList, wellSized ext = true) →
      (∀ ext ∈ header.extList, readableType ext.extensionHeaderType = true) →
      header.extList.length ≤ gtpuMaxNumHeaderExtensions →
      ∃ pdu dissected, gtpuWriteHeader payload header = .ok pdu ∧
        gtpuDissectPdu pdu = some dissected ∧ Transferred header payload pdu dissected) ∧
    ∀ (pdu : List UInt8) (dissected : GtpuDissectedPdu), gtpuDissectPdu pdu = some dissected →
      dissected.hdrLen ≤ pdu.length ∧
        ∀ ext ∈ dissected.hdr.extList, LiesInside pdu ext.container := by
  refine ⟨?_, fun pdu dissected => gtpuDissectPdu_inside⟩
  intro header payload hflags hmsg hsize htype hroom
  obtain ⟨dissected, hdissect, htransferred⟩ :=
    @gtpuDissectPdu_written header payload hflags hsize htype hroom
  exact ⟨_, dissected, gtpuWriteHeader_eq hflags hmsg hsize, hdissect, htransferred⟩

def sessionHeader : GtpuHeader :=
  { flags := { version := 1, protocolType := 1, extHdr := true }, messageType := gtpuMsgDataPdu,
    teid := 7, seqNumber := 3,
    extList := [{ extensionHeaderType := pduSessionContainer, container := { bytes := [0x10, 0x01] } }] }

theorem sessionHeader_roundTrip :
    ∃ pdu dissected, gtpuWriteHeader [0xab] sessionHeader = .ok pdu ∧
      gtpuDissectPdu pdu = some dissected ∧ Transferred sessionHeader [0xab] pdu dissected ∧
      dissected.hdrLen ≤ pdu.length := by
  obtain ⟨pdu, dissected, hwrite, hdissect, htransferred⟩ := gtpuHeader_roundTrip_and_inside.1
    sessionHeader [0xab] (by decide) (by decide) (by decide) (by decide) (by decide)
  exact ⟨pdu, dissected, hwrite, hdissect, htransferred,
    (gtpuHeader_roundTrip_and_inside.2 pdu dissected hdissect).1⟩

/-- A RAN container is written but not comprehended. -/
theorem ranContainer_not_dissected :
    ∃ (header : GtpuHeader) (pdu : List UInt8), gtpuSupportedFlagsCheck header.flags = true ∧
      gtpuSupportedMsgTypeCheck header.messageType = true ∧
      (∀ ext ∈ header.extList,
        ext.container.bytes.length % 4 = 2 ∧ ext.container.bytes.length + 2 ≤ 1020) ∧
      header.extList.length ≤ gtpuMaxNumHeaderExtensions ∧ pdu.length ≤ 65535 ∧
      gtpuWriteHeader [0xab] header = .ok pdu ∧ gtpuDissectPdu pdu = none :=
  ⟨{ sessionHeader with
      extList := [{ extensionHeaderType := ranContainer, container := { bytes := [0x10, 0x01] } }] },
    [0x34, 0xff, 0x00, 0x09, 0x00, 0x00, 0x00, 0x07, 0x00, 0x03, 0x00, 0x81, 0x01, 0x10, 0x01, 0x00,
      0xab], by decide, by decide, by decide, by decide, by decide, by decide +kernel,
    by decide +kernel⟩

end Srsran.Gtpu
