import Srsran.Nru.NruPacking

/-! Packing and unpacking of NR-U messages are inverse to each other. -/
namespace Srsran.Nru
open Srsran.Support Unpacker

def padding (length : Nat) : List UInt8 := List.replicate ((4 - (length + 2) % 4) % 4) 0

theorem length_padding (length : Nat) : (padding length).length < 4 ∧ (length + (padding length).length) % 4 = 2 := by
  rw [padding, List.length_replicate]
  omega

theorem padLoop_eq {turns startLen : Nat} {outBuf : List UInt8} (hstart : startLen ≤ outBuf.length)
    (hturns : (4 - (outBuf.length - startLen + 2) % 4) % 4 ≤ turns) :
    padLoop turns startLen outBuf = outBuf ++ padding (outBuf.length - startLen) := by
  induction turns generalizing outBuf with
  | zero =>
    have hzero : (4 - (outBuf.length - startLen + 2) % 4) % 4 = 0 := Nat.le_zero.mp hturns
    rw [padLoop, padding, hzero, List.replicate_zero, List.append_nil]
  | succ turns ih =>
    rw [padLoop]
    split
    · rename_i hmod
      have hlength : (outBuf ++ [0]).length - startLen = outBuf.length - startLen + 1 := by
        rw [List.length_append, List.length_singleton]
        omega
      have hcount : (4 - (outBuf.length - startLen + 2) % 4) % 4 =
          (4 - (outBuf.length - startLen + 1 + 2) % 4) % 4 + 1 := by omega
      rw [ih (by rw [List.length_append]; omega) (by rw [hlength]; omega), hlength, padding, padding, hcount,
        List.replicate_succ, List.append_assoc]
      rfl
    · rename_i hmod
      have hzero : (4 - (outBuf.length - startLen + 2) % 4) % 4 = 0 := by omega
      rw [padding, hzero, List.replicate_zero, List.append_nil]

section Container
variable {writes : List BitWrite} (hfits : ∀ w ∈ writes, w.Fits) (haligned : 8 ∣ bitCount writes)
include hfits haligned

theorem packContainer_eq (outBuf : List UInt8) :
    packContainer outBuf writes = outBuf ++ (packed writes ++ padding (packed writes).length) := by
  have hlength : (outBuf ++ packed writes).length - outBuf.length = (packed writes).length := by
    rw [List.length_append]
    omega
  rw [packContainer, packWrites_append hfits haligned, padLoop_eq (by rw [List.length_append]; omega) (by omega),
    hlength, List.append_assoc]

theorem length_packContainer (outBuf : List UInt8) :
    ((packContainer outBuf writes).length - outBuf.length) % 4 = 2 := by
  have hpadding := (length_padding (packed writes).length).2
  rw [packContainer_eq hfits haligned, List.length_append, List.length_append]
  omega

end Container


variable {α : Type} {p : Unpacker α} {fields : α → List BitWrite}

theorem unpack_packContainer {N P : α → Prop}
    (hp : Codes N P p fields) {a : α} (hN : N a) (hP : P a) (hfits : ∀ w ∈ fields a, w.Fits)
    (haligned : 8 ∣ bitCount (fields a)) :
    (unpackContainer p (packContainer [] (fields a))).1 = some a := by
  have hlength := length_packContainer hfits haligned []
  have hreads := reads_packed hfits haligned (padding (packed (fields a)).length)
  rw [← List.nil_append (packed (fields a) ++ _), ← packContainer_eq hfits haligned] at hreads
  have hyields := hp.complete _ _ _ (Nat.zero_lt_succ 7) hN hP hreads
  rw [unpackContainer, if_neg, if_neg]
  · exact congrArg Prod.fst hyields
  · rw [List.length_nil] at hlength
    omega
  · intro hnil
    rw [hnil] at hlength
    cases hlength

theorem packContainer_of_unpack {N P : α → Prop}
    (hp : Codes N P p fields) {container : List UInt8} {a : α}
    (h : (unpackContainer p container).1 = some a) (hN : N a) (hbits : ∀ w ∈ fields a, w.nBits ≤ 64)
    (haligned : 8 ∣ bitCount (fields a)) :
    ∃ content rest, container = content ++ rest ∧
      packContainer [] (fields a) = content ++ padding content.length := by
  rw [unpackContainer] at h
  split at h
  · cases h
  split at h
  · cases h
  obtain ⟨-, -, hreads⟩ := hp.sound { bytes := container } a _ (Nat.zero_lt_succ 7) (Prod.ext h rfl)
  have hcontainer := packed_of_reads (hreads hN) hbits haligned
  have hfits : ∀ w ∈ fields a, w.Fits :=
    fun w hw => ⟨(hreads hN).val_lt (Nat.zero_lt_succ 7) w hw, hbits w hw⟩
  refine ⟨packed (fields a), _, hcontainer, ?_⟩
  rw [packContainer_eq hfits haligned, List.nil_append]

theorem unpackContainer_staysWithin (hp : p.StaysWithin) (container : List UInt8) :
    (unpackContainer p container).2.Valid container := by
  have hstart := BitDecoder.Valid.start container
  rw [unpackContainer]
  split
  · exact hstart
  split
  · exact hstart
  · exact hp _ container hstart

theorem codes_discardBlock :
    Codes (fun _ => True) (fun _ => True) NruPdcpSnDiscardBlock.unpack NruPdcpSnDiscardBlock.writes := by
  refine .bindAny NruPdcpSnDiscardBlock.pdcpSnStart (.bits 24) fun pdcpSnStart => ?_
  refine .bindLast NruPdcpSnDiscardBlock.blockSize (.bits 8) (fun _ _ => trivial) (fun _ _ _ => trivial) ?_
  rintro blockSize - ⟨pdcpSnStart', blockSize'⟩
  simp [and_comm]

theorem codes_lostRange :
    Codes (fun _ => True) (fun _ => True) NruLostNruSnRange.unpack NruLostNruSnRange.writes := by
  refine .bindAny NruLostNruSnRange.nruSnStart (.bits 24) fun nruSnStart => ?_
  refine .bindLast NruLostNruSnRange.nruSnEnd (.bits 24) (fun _ _ => trivial) (fun _ _ _ => trivial) ?_
  rintro nruSnEnd - ⟨nruSnStart', nruSnEnd'⟩
  simp [and_comm]

theorem codes_list (limit : Nat) (present : Bool)
    (hp : Codes (fun _ => True) (fun _ => True) p fields) :
    Codes (fun _ => True) (fun o => present = o.isSome ∧ ∀ as ∈ o, as.length ≤ limit)
      (unpackList limit p present none) (listField fields) where
  sound := by
    intro dec o dec' hoffset h
    rw [unpackList] at h
    split at h
    · rename_i hpresent
      rw [yields_bind] at h
      obtain ⟨n, mid, hn, h⟩ := h
      rw [yields_bits] at hn
      rw [yields_bind] at h
      obtain ⟨u, mid', hu, h⟩ := h
      obtain ⟨hle, rfl⟩ := yields_check.mp hu
      obtain ⟨as, has, rfl⟩ := yields_map.mp h
      obtain ⟨hoffset', rfl, hreads⟩ := (Codes.times n hp).sound _ as dec' (hn.offset_lt hoffset) has
      refine ⟨hoffset', ⟨hpresent, ?_⟩, fun _ => Reads.append_iff.mpr ⟨_, hn, hreads trivial⟩⟩
      rintro as' has'
      cases has'
      exact hle
    · rename_i hpresent
      obtain ⟨rfl, rfl⟩ := yields_pure.mp h
      exact ⟨hoffset, ⟨by simpa using hpresent, nofun⟩, fun _ => rfl⟩
  complete := by
    rintro dec o dec' hoffset - ⟨hpresent, hle⟩ h
    rw [unpackList]
    cases o with
    | none =>
      rw [if_neg (by simp [hpresent])]
      exact yields_pure.mpr ⟨rfl, h⟩
    | some as =>
      rw [if_pos (hpresent.trans Option.isSome_some), yields_bind]
      obtain ⟨mid, hn, has⟩ := Reads.append_iff.mp (show Reads dec ([⟨as.length, 8⟩] ++ _) dec' from h)
      refine ⟨as.length, mid, yields_bits.mpr hn, ?_⟩
      rw [yields_bind]
      refine ⟨(), mid, yields_check.mpr ⟨hle as rfl, rfl⟩, yields_map.mpr ⟨as, ?_, rfl⟩⟩
      exact (Codes.times as.length hp).complete mid as dec' (hn.offset_lt hoffset) trivial rfl has

theorem codes_discardBlocks (dlDiscardBlocks : Bool) :
    Codes (fun _ => True)
      (fun o => dlDiscardBlocks = o.isSome ∧ ∀ blocks ∈ o, blocks.length ≤ nruMaxNofPdcpSnDiscardBlocks)
      (NruDlUserData.unpackDiscardBlocks dlDiscardBlocks none) NruDlUserData.discardBlocksWrites :=
  codes_list _ _ codes_discardBlock

theorem codes_lostRanges (lostPacketReport : Bool) :
    Codes (fun _ => True)
      (fun o => lostPacketReport = o.isSome ∧ ∀ ranges ∈ o, ranges.length ≤ nruMaxNofLostNruSnRanges)
      (NruDlDataDeliveryStatus.unpackLostNruSnRanges lostPacketReport none)
      NruDlDataDeliveryStatus.lostNruSnRangesWrites :=
  codes_list _ _ codes_lostRange

theorem codes_reportPdcpSn (reportDelivered : Bool) :
    Codes (fun _ => True) (fun sn => reportDelivered = false → sn = 0)
      (NruDlUserData.unpackReportPdcpSn reportDelivered 0)
      (fun sn => if reportDelivered then [⟨sn, 24⟩] else []) where
  sound := by
    intro dec sn dec' hoffset h
    rw [NruDlUserData.unpackReportPdcpSn] at h
    cases reportDelivered with
    | true => exact ⟨(yields_bits.mp h).offset_lt hoffset, nofun, fun _ => yields_bits.mp h⟩
    | false =>
      obtain ⟨rfl, rfl⟩ := yields_pure.mp h
      exact ⟨hoffset, fun _ => rfl, fun _ => rfl⟩
  complete := by
    intro dec sn dec' _ _ hsn h
    rw [NruDlUserData.unpackReportPdcpSn]
    cases reportDelivered with
    | true => exact yields_bits.mpr h
    | false =>
      rw [hsn rfl]
      exact yields_pure.mpr ⟨rfl, h⟩

theorem writes_discardBlocks {dlUserData : NruDlUserData} (h : dlUserData.discardBlocks ≠ some []) :
    dlUserData.dlDiscardBlocks = dlUserData.discardBlocks.isSome ∧
      (if dlUserData.dlDiscardBlocks then NruDlUserData.discardBlocksWrites dlUserData.discardBlocks else []) =
        NruDlUserData.discardBlocksWrites dlUserData.discardBlocks := by
  rw [NruDlUserData.dlDiscardBlocks]
  cases hblocks : dlUserData.discardBlocks with
  | none => exact ⟨rfl, rfl⟩
  | some blocks =>
    cases blocks with
    | nil => exact absurd hblocks h
    | cons block rest => exact ⟨rfl, rfl⟩

/-- Values of the message as they are unpacked into a new one. -/
structure NruDlUserData.Plain (dlUserData : NruDlUserData) : Prop where
  dlReportPdcpSn : dlUserData.reportDelivered = false → dlUserData.dlReportPdcpSn = 0
  nofDiscardBlocks : ∀ blocks ∈ dlUserData.discardBlocks, blocks.length ≤ nruMaxNofPdcpSnDiscardBlocks

theorem codes_dlUserData :
    Codes (fun c => c.discardBlocks ≠ some []) NruDlUserData.Plain (NruDlUserData.unpackFields {})
      NruDlUserData.writes := by
  -- Without an empty list the discard blocks are announced exactly if there are any.
  have hcodes : Codes (fun c => c.discardBlocks ≠ some []) NruDlUserData.Plain (NruDlUserData.unpackFields {})
      fun c : NruDlUserData => ⟨0, 4⟩ :: ⟨0, 1⟩ :: ⟨c.discardBlocks.isSome.toNat, 1⟩ ::
        ⟨c.dlDiscardPdcpSn.isSome.toNat, 1⟩ :: ⟨c.reportPolling.toNat, 1⟩ :: ⟨0, 3⟩ ::
        ⟨c.requestOutOfSeqReport.toNat, 1⟩ :: ⟨c.reportDelivered.toNat, 1⟩ ::
        ⟨c.userDataExistenceFlag.toNat, 1⟩ :: ⟨c.assistInfoReportPollingFlag.toNat, 1⟩ ::
        ⟨c.retransmissionFlag.toNat, 1⟩ :: ⟨c.nruSn, 24⟩ :: (optionalField 24 c.dlDiscardPdcpSn ++
          (NruDlUserData.discardBlocksWrites c.discardBlocks ++
            (if c.reportDelivered then [⟨c.dlReportPdcpSn, 24⟩] else []))) := by
    refine .bindExpect 0 4 ?_
    refine .bindExpect 0 1 ?_
    refine .bindAny (fun c : NruDlUserData => c.discardBlocks.isSome) .flag fun dlDiscardBlocks => ?_
    refine .bindAny (fun c : NruDlUserData => c.dlDiscardPdcpSn.isSome) .flag fun dlFlush => ?_
    refine .bindAny NruDlUserData.reportPolling .flag fun reportPolling => ?_
    refine .bindExpect 0 3 ?_
    refine .bindFlagUnchecked NruDlUserData.requestOutOfSeqReport (fun _ => ⟨_, _, rfl, Nat.one_pos⟩)
      fun requestOutOfSeqReport => ?_
    refine .bindFlagUnchecked NruDlUserData.reportDelivered (fun _ => ⟨_, _, rfl, Nat.one_pos⟩)
      fun reportDelivered => ?_
    refine .bindFlagUnchecked NruDlUserData.userDataExistenceFlag (fun _ => ⟨_, _, rfl, Nat.one_pos⟩)
      fun userDataExistenceFlag => ?_
    refine .bindFlagUnchecked NruDlUserData.assistInfoReportPollingFlag (fun _ => ⟨_, _, rfl, Nat.one_pos⟩)
      fun assistInfoReportPollingFlag => ?_
    refine .bindAny NruDlUserData.retransmissionFlag .flag fun retransmissionFlag => ?_
    refine .bindAny NruDlUserData.nruSn (.bits 24) fun nruSn => ?_
    refine .bind NruDlUserData.dlDiscardPdcpSn (.bitsIf dlFlush 24) (fun _ _ => trivial) ?_
      fun dlDiscardPdcpSn hdlDiscardPdcpSn => ?_
    · rintro c - h
      grind
    refine .bind NruDlUserData.discardBlocks (codes_discardBlocks dlDiscardBlocks) (fun _ _ => trivial) ?_
      fun discardBlocks hdiscardBlocks => ?_
    · rintro c - h
      have hlength : c.Plain := by grind
      exact ⟨by grind, hlength.nofDiscardBlocks⟩
    refine (Codes.bindLast NruDlUserData.dlReportPdcpSn (codes_reportPdcpSn reportDelivered) (fun _ _ => trivial)
      ?_ ?_).congr ?_
    · rintro c - h hreport
      have hlength : c.Plain := by grind
      exact hlength.dlReportPdcpSn (by grind)
    · intro dlReportPdcpSn hreport c
      constructor
      · intro h
        cases c
        grind
      · rintro rfl
        have hplain : NruDlUserData.Plain
            { reportPolling, requestOutOfSeqReport, reportDelivered, userDataExistenceFlag,
              assistInfoReportPollingFlag, retransmissionFlag, nruSn, dlDiscardPdcpSn, discardBlocks,
              dlReportPdcpSn } := ⟨hreport, hdiscardBlocks.2⟩
        grind
    · rintro c - h
      have hdelivered : c.reportDelivered = reportDelivered := by grind
      rw [hdelivered]
  refine hcodes.congr fun c hN _ => ?_
  obtain ⟨hannounced, hblocks⟩ := writes_discardBlocks hN
  rw [NruDlUserData.writes, hblocks, hannounced]

theorem codes_dlDataDeliveryStatus :
    Codes (fun _ => True)
      (fun c => ∀ ranges ∈ c.lostNruSnRanges, ranges.length ≤ nruMaxNofLostNruSnRanges)
      (NruDlDataDeliveryStatus.unpackFields {}) NruDlDataDeliveryStatus.writes := by
  refine .bindExpect 1 4 ?_
  refine .bindAny (fun c : NruDlDataDeliveryStatus => c.highestTransmittedPdcpSn.isSome) .flag
    fun highestTransmittedPdcpSnIndication => ?_
  refine .bindAny (fun c : NruDlDataDeliveryStatus => c.highestDeliveredPdcpSn.isSome) .flag
    fun highestDeliveredPdcpSnIndication => ?_
  refine .bindAny NruDlDataDeliveryStatus.finalFrameInd .flag fun finalFrameInd => ?_
  refine .bindAny (fun c : NruDlDataDeliveryStatus => c.lostNruSnRanges.isSome) .flag fun lostPacketReport => ?_
  refine .bindExpect 0 4 ?_
  refine .bindAny (fun c : NruDlDataDeliveryStatus => c.desiredDataRate.isSome) .flag fun dataRateIndication => ?_
  refine .bindAny (fun c : NruDlDataDeliveryStatus => c.highestRetransmittedPdcpSn.isSome) .flag
    fun highestRetransmittedPdcpSnIndication => ?_
  refine .bindAny (fun c : NruDlDataDeliveryStatus => c.highestDeliveredRetransmittedPdcpSn.isSome) .flag
    fun highestDeliveredRetransmittedPdcpSnIndication => ?_
  refine .bindAny (fun c : NruDlDataDeliveryStatus => c.causeValue.isSome) .flag fun causeReport => ?_
  refine .bindAny NruDlDataDeliveryStatus.desiredBufferSizeForDrb (.bits 32) fun desiredBufferSizeForDrb => ?_
  refine .bind NruDlDataDeliveryStatus.desiredDataRate (.bitsIf dataRateIndication 32) (fun _ _ => trivial) ?_
    fun desiredDataRate hdesiredDataRate => ?_
  · rintro c - h
    grind
  refine .bind NruDlDataDeliveryStatus.lostNruSnRanges (codes_lostRanges lostPacketReport) (fun _ _ => trivial) ?_
    fun lostNruSnRanges hlostNruSnRanges => ?_
  · rintro c - h
    have hlength : ∀ ranges ∈ c.lostNruSnRanges, ranges.length ≤ nruMaxNofLostNruSnRanges := by grind
    exact ⟨by grind, hlength⟩
  refine .bind NruDlDataDeliveryStatus.highestDeliveredPdcpSn (.bitsIf highestDeliveredPdcpSnIndication 24)
    (fun _ _ => trivial) ?_ fun highestDeliveredPdcpSn hhighestDeliveredPdcpSn => ?_
  · rintro c - h
    grind
  refine .bind NruDlDataDeliveryStatus.highestTransmittedPdcpSn (.bitsIf highestTransmittedPdcpSnIndication 24)
    (fun _ _ => trivial) ?_ fun highestTransmittedPdcpSn hhighestTransmittedPdcpSn => ?_
  · rintro c - h
    grind
  refine .bind NruDlDataDeliveryStatus.causeValue (.bitsIf causeReport 8) (fun _ _ => trivial) ?_
    fun causeValue hcauseValue => ?_
  · rintro c - h
    grind
  refine .bind NruDlDataDeliveryStatus.highestDeliveredRetransmittedPdcpSn
    (.bitsIf highestDeliveredRetransmittedPdcpSnIndication 24) (fun _ _ => trivial) ?_
    fun highestDeliveredRetransmittedPdcpSn hhighestDeliveredRetransmittedPdcpSn => ?_
  · rintro c - h
    grind
  refine .bindLast NruDlDataDeliveryStatus.highestRetransmittedPdcpSn
    (.bitsIf highestRetransmittedPdcpSnIndication 24) (fun _ _ => trivial) ?_ ?_
  · rintro c - h
    grind
  · intro highestRetransmittedPdcpSn hhighestRetransmittedPdcpSn c
    constructor
    · intro h
      cases c
      grind
    · rintro rfl
      have hlength := hlostNruSnRanges.2
      grind

/-! Reading stays within the container, for whatever bytes are received. -/

theorem staysWithin_unpackList (hp : p.StaysWithin) (limit : Nat) (present : Bool)
    (absent : Option (List α)) : (unpackList limit p present absent).StaysWithin := by
  rw [unpackList]
  split
  · exact (StaysWithin.bits 8).bind fun n => (StaysWithin.check _).bind fun _ =>
      (hp.times n).bind fun _ => .pure _
  · exact .pure absent

theorem staysWithin_discardBlock : NruPdcpSnDiscardBlock.unpack.StaysWithin :=
  (StaysWithin.bits 24).bind fun _ => (StaysWithin.bits 8).bind fun _ => .pure _

theorem staysWithin_lostRange : NruLostNruSnRange.unpack.StaysWithin :=
  (StaysWithin.bits 24).bind fun _ => (StaysWithin.bits 24).bind fun _ => .pure _

theorem staysWithin_reportPdcpSn (reportDelivered : Bool) (absent : Nat) :
    (NruDlUserData.unpackReportPdcpSn reportDelivered absent).StaysWithin := by
  rw [NruDlUserData.unpackReportPdcpSn]
  split
  · exact .bits 24
  · exact .pure absent

theorem staysWithin_dlUserData (init : NruDlUserData) : (NruDlUserData.unpackFields init).StaysWithin :=
  (StaysWithin.expect 0 4).bind fun _ => (StaysWithin.expect 0 1).bind fun _ =>
  StaysWithin.flag.bind fun _ => StaysWithin.flag.bind fun _ => StaysWithin.flag.bind fun _ =>
  (StaysWithin.expect 0 3).bind fun _ =>
  StaysWithin.flagUnchecked.bind fun _ => StaysWithin.flagUnchecked.bind fun _ =>
  StaysWithin.flagUnchecked.bind fun _ => StaysWithin.flagUnchecked.bind fun _ =>
  StaysWithin.flag.bind fun _ => (StaysWithin.bits 24).bind fun _ =>
  (StaysWithin.bitsIf _ 24 _).bind fun _ =>
  (staysWithin_unpackList staysWithin_discardBlock _ _ _).bind fun _ =>
  (staysWithin_reportPdcpSn _ _).bind fun _ => .pure _

theorem staysWithin_dlDataDeliveryStatus (init : NruDlDataDeliveryStatus) :
    (NruDlDataDeliveryStatus.unpackFields init).StaysWithin :=
  (StaysWithin.expect 1 4).bind fun _ => StaysWithin.flag.bind fun _ => StaysWithin.flag.bind fun _ =>
  StaysWithin.flag.bind fun _ => StaysWithin.flag.bind fun _ => (StaysWithin.expect 0 4).bind fun _ =>
  StaysWithin.flag.bind fun _ => StaysWithin.flag.bind fun _ => StaysWithin.flag.bind fun _ =>
  StaysWithin.flag.bind fun _ => (StaysWithin.bits 32).bind fun _ => (StaysWithin.bitsIf _ 32 _).bind fun _ =>
  (staysWithin_unpackList staysWithin_lostRange _ _ _).bind fun _ =>
  (StaysWithin.bitsIf _ 24 _).bind fun _ => (StaysWithin.bitsIf _ 24 _).bind fun _ =>
  (StaysWithin.bitsIf _ 8 _).bind fun _ => (StaysWithin.bitsIf _ 24 _).bind fun _ =>
  (StaysWithin.bitsIf _ 24 _).bind fun _ => .pure _

/-! The fields of a message take whole octets. -/

variable {nBits : Nat}

theorem bitCount_optionalField (hbits : 8 ∣ nBits) (field : Option Nat) :
    8 ∣ bitCount (optionalField nBits field) := by
  cases field with
  | none => exact Nat.dvd_zero 8
  | some val => exact hbits

variable {writes : α → List BitWrite}

theorem bitCount_listField (hwrites : ∀ a, 8 ∣ bitCount (writes a))
    (list : Option (List α)) : 8 ∣ bitCount (listField writes list) := by
  cases list with
  | none => exact Nat.dvd_zero 8
  | some as =>
    refine Nat.dvd_add (Nat.dvd_refl 8) ?_
    induction as with
    | nil => exact Nat.dvd_zero 8
    | cons a as ih =>
      rw [List.flatMap_cons, bitCount_append]
      exact Nat.dvd_add (hwrites a) ih

theorem bitCount_dlUserData (dlUserData : NruDlUserData) : 8 ∣ bitCount dlUserData.writes := by
  have hblocks : 8 ∣ bitCount (NruDlUserData.discardBlocksWrites dlUserData.discardBlocks) :=
    bitCount_listField (fun _ => ⟨4, rfl⟩) _
  have hdiscard := bitCount_optionalField (by decide : 8 ∣ 24) dlUserData.dlDiscardPdcpSn
  simp only [NruDlUserData.writes, bitCount, bitCount_append]
  split <;> split <;> simp only [bitCount] <;> omega

theorem bitCount_dlDataDeliveryStatus (status : NruDlDataDeliveryStatus) : 8 ∣ bitCount status.writes := by
  have hranges : 8 ∣ bitCount (NruDlDataDeliveryStatus.lostNruSnRangesWrites status.lostNruSnRanges) :=
    bitCount_listField (fun _ => ⟨6, rfl⟩) _
  have hrate := bitCount_optionalField (by decide : 8 ∣ 32) status.desiredDataRate
  have hdelivered := bitCount_optionalField (by decide : 8 ∣ 24) status.highestDeliveredPdcpSn
  have htransmitted := bitCount_optionalField (by decide : 8 ∣ 24) status.highestTransmittedPdcpSn
  have hcause := bitCount_optionalField (by decide : 8 ∣ 8) status.causeValue
  have hdeliveredRetx := bitCount_optionalField (by decide : 8 ∣ 24) status.highestDeliveredRetransmittedPdcpSn
  have hretransmitted := bitCount_optionalField (by decide : 8 ∣ 24) status.highestRetransmittedPdcpSn
  simp only [NruDlDataDeliveryStatus.writes, bitCount, bitCount_append, ← Nat.add_assoc, Nat.reduceAdd]
  have hflags : 8 ∣ 48 := by decide
  exact Nat.dvd_add (Nat.dvd_add (Nat.dvd_add (Nat.dvd_add (Nat.dvd_add (Nat.dvd_add (Nat.dvd_add
    hflags hrate) hranges) hdelivered) htransmitted) hcause) hdeliveredRetx) hretransmitted

/-! The values of the fields are in their bit ranges. -/

structure NruDlUserData.InRange (dlUserData : NruDlUserData) : Prop where
  nruSn : dlUserData.nruSn < 2 ^ 24
  dlDiscardPdcpSn : ∀ sn ∈ dlUserData.dlDiscardPdcpSn, sn < 2 ^ 24
  nofDiscardBlocks : ∀ blocks ∈ dlUserData.discardBlocks, blocks.length ≤ nruMaxNofPdcpSnDiscardBlocks
  discardBlocks : ∀ blocks ∈ dlUserData.discardBlocks, ∀ block ∈ blocks,
    block.pdcpSnStart < 2 ^ 24 ∧ block.blockSize < 2 ^ 8
  dlReportPdcpSn : dlUserData.dlReportPdcpSn < 2 ^ 24

structure NruDlDataDeliveryStatus.InRange (status : NruDlDataDeliveryStatus) : Prop where
  desiredBufferSizeForDrb : status.desiredBufferSizeForDrb < 2 ^ 32
  desiredDataRate : ∀ rate ∈ status.desiredDataRate, rate < 2 ^ 32
  nofLostNruSnRanges : ∀ ranges ∈ status.lostNruSnRanges, ranges.length ≤ nruMaxNofLostNruSnRanges
  lostNruSnRanges : ∀ ranges ∈ status.lostNruSnRanges, ∀ range ∈ ranges,
    range.nruSnStart < 2 ^ 24 ∧ range.nruSnEnd < 2 ^ 24
  highestDeliveredPdcpSn : ∀ sn ∈ status.highestDeliveredPdcpSn, sn < 2 ^ 24
  highestTransmittedPdcpSn : ∀ sn ∈ status.highestTransmittedPdcpSn, sn < 2 ^ 24
  causeValue : ∀ cause ∈ status.causeValue, cause < 2 ^ 8
  highestDeliveredRetransmittedPdcpSn : ∀ sn ∈ status.highestDeliveredRetransmittedPdcpSn, sn < 2 ^ 24
  highestRetransmittedPdcpSn : ∀ sn ∈ status.highestRetransmittedPdcpSn, sn < 2 ^ 24

theorem fits_flag (b : Bool) : BitWrite.Fits ⟨b.toNat, 1⟩ := by
  cases b <;> exact ⟨by decide, by decide⟩

theorem fits_optionalField (hbits : nBits ≤ 64) {field : Option Nat}
    (h : ∀ val ∈ field, val < 2 ^ nBits) : ∀ w ∈ optionalField nBits field, w.Fits := by
  cases field with
  | none => exact nofun
  | some val => exact List.forall_mem_singleton.mpr ⟨h val rfl, hbits⟩

theorem fits_listField {limit : Nat} (hlimit : limit < 2 ^ 8)
    {list : Option (List α)} (hlength : ∀ as ∈ list, as.length ≤ limit)
    (hwrites : ∀ as ∈ list, ∀ a ∈ as, ∀ w ∈ writes a, w.Fits) :
    ∀ w ∈ listField writes list, w.Fits := by
  cases list with
  | none => exact nofun
  | some as =>
    refine List.forall_mem_cons.mpr ⟨⟨Nat.lt_of_le_of_lt (hlength as rfl) hlimit, (by decide : 8 ≤ 64)⟩, ?_⟩
    intro w hw
    obtain ⟨a, ha, hwa⟩ := List.mem_flatMap.mp hw
    exact hwrites as rfl a ha w hwa

theorem fits_dlUserData {dlUserData : NruDlUserData} (h : dlUserData.InRange) :
    ∀ w ∈ dlUserData.writes, w.Fits := by
  have hblocks : ∀ w ∈ NruDlUserData.discardBlocksWrites dlUserData.discardBlocks, w.Fits := by
    refine fits_listField (by decide) h.nofDiscardBlocks fun blocks hblocks block hblock => ?_
    obtain ⟨hstart, hsize⟩ := h.discardBlocks blocks hblocks block hblock
    exact List.forall_mem_cons.mpr ⟨⟨hstart, (by decide : 24 ≤ 64)⟩,
      List.forall_mem_singleton.mpr ⟨hsize, (by decide : 8 ≤ 64)⟩⟩
  have hdiscard := fits_optionalField (by decide : 24 ≤ 64) h.dlDiscardPdcpSn
  have hsn : BitWrite.Fits ⟨dlUserData.nruSn, 24⟩ := ⟨h.nruSn, (by decide : 24 ≤ 64)⟩
  have hreport : BitWrite.Fits ⟨dlUserData.dlReportPdcpSn, 24⟩ := ⟨h.dlReportPdcpSn, (by decide : 24 ≤ 64)⟩
  have hzero (nBits : Nat) (hbits : nBits ≤ 64) : BitWrite.Fits ⟨0, nBits⟩ := ⟨Nat.two_pow_pos _, hbits⟩
  simp only [NruDlUserData.writes, List.forall_mem_cons, List.forall_mem_append, fits_flag, hsn, true_and]
  refine ⟨hzero 4 (by decide), hzero 1 (by decide), hzero 3 (by decide), hdiscard, ?_, ?_⟩
  · split
    · exact hblocks
    · exact nofun
  · split
    · exact List.forall_mem_singleton.mpr hreport
    · exact nofun

theorem fits_dlDataDeliveryStatus {status : NruDlDataDeliveryStatus} (h : status.InRange) :
    ∀ w ∈ status.writes, w.Fits := by
  have hranges : ∀ w ∈ NruDlDataDeliveryStatus.lostNruSnRangesWrites status.lostNruSnRanges, w.Fits := by
    refine fits_listField (by decide) h.nofLostNruSnRanges fun ranges hranges range hrange => ?_
    obtain ⟨hstart, hend⟩ := h.lostNruSnRanges ranges hranges range hrange
    exact List.forall_mem_cons.mpr ⟨⟨hstart, (by decide : 24 ≤ 64)⟩,
      List.forall_mem_singleton.mpr ⟨hend, (by decide : 24 ≤ 64)⟩⟩
  have hsize : BitWrite.Fits ⟨status.desiredBufferSizeForDrb, 32⟩ := ⟨h.desiredBufferSizeForDrb, (by decide : 32 ≤ 64)⟩
  simp only [NruDlDataDeliveryStatus.writes, List.forall_mem_cons, List.forall_mem_append, fits_flag, hsize,
    true_and]
  exact ⟨⟨by decide, by decide⟩, ⟨by decide, by decide⟩, fits_optionalField (by decide : 32 ≤ 64) h.desiredDataRate, hranges,
    fits_optionalField (by decide : 24 ≤ 64) h.highestDeliveredPdcpSn,
    fits_optionalField (by decide : 24 ≤ 64) h.highestTransmittedPdcpSn, fits_optionalField (by decide : 8 ≤ 64) h.causeValue,
    fits_optionalField (by decide : 24 ≤ 64) h.highestDeliveredRetransmittedPdcpSn,
    fits_optionalField (by decide : 24 ≤ 64) h.highestRetransmittedPdcpSn⟩

/-- The fields take at most 64 bits, whatever their values are. -/
def FieldWidths (writes : List BitWrite) : Prop := ∀ w ∈ writes, w.nBits ≤ 64

theorem fieldWidths_optionalField (hbits : nBits ≤ 64) (field : Option Nat) :
    FieldWidths (optionalField nBits field) := by
  cases field with
  | none => exact nofun
  | some val => exact List.forall_mem_singleton.mpr hbits

theorem fieldWidths_listField (hwrites : ∀ a, FieldWidths (writes a))
    (list : Option (List α)) : FieldWidths (listField writes list) := by
  cases list with
  | none => exact nofun
  | some as =>
    refine List.forall_mem_cons.mpr ⟨(by decide : 8 ≤ 64), fun w hw => ?_⟩
    obtain ⟨a, -, hwa⟩ := List.mem_flatMap.mp hw
    exact hwrites a w hwa

theorem fieldWidths_dlUserData (dlUserData : NruDlUserData) : FieldWidths dlUserData.writes := by
  have hblocks : FieldWidths (NruDlUserData.discardBlocksWrites dlUserData.discardBlocks) :=
    fieldWidths_listField
      (fun _ => List.forall_mem_cons.mpr ⟨(by decide : 24 ≤ 64), List.forall_mem_singleton.mpr (by decide : 8 ≤ 64)⟩) _
  have hdiscard := fieldWidths_optionalField (by decide : 24 ≤ 64) dlUserData.dlDiscardPdcpSn
  rw [FieldWidths] at hblocks hdiscard ⊢
  simp only [NruDlUserData.writes, List.forall_mem_cons, List.forall_mem_append, Nat.reduceLeDiff, true_and]
  refine ⟨hdiscard, ?_, ?_⟩
  · split
    · exact hblocks
    · exact nofun
  · split
    · exact List.forall_mem_singleton.mpr (by decide : 24 ≤ 64)
    · exact nofun

theorem fieldWidths_dlDataDeliveryStatus (status : NruDlDataDeliveryStatus) : FieldWidths status.writes := by
  have hranges : FieldWidths (NruDlDataDeliveryStatus.lostNruSnRangesWrites status.lostNruSnRanges) :=
    fieldWidths_listField
      (fun _ => List.forall_mem_cons.mpr ⟨(by decide : 24 ≤ 64), List.forall_mem_singleton.mpr (by decide : 24 ≤ 64)⟩) _
  have hfield (nBits : Nat) (hbits : nBits ≤ 64) (field : Option Nat) :
      ∀ w ∈ optionalField nBits field, w.nBits ≤ 64 := fieldWidths_optionalField hbits field
  rw [FieldWidths] at hranges ⊢
  simp only [NruDlDataDeliveryStatus.writes, List.forall_mem_cons, List.forall_mem_append, Nat.reduceLeDiff, true_and]
  exact ⟨hfield 32 (by decide) _, hranges, hfield 24 (by decide) _, hfield 24 (by decide) _, hfield 8 (by decide) _,
    hfield 24 (by decide) _, hfield 24 (by decide) _⟩

/-- A value and a container: what was received is the beginning of the container, and the value is packed to
it and to zeros. -/
def Repacks (container repacked : List UInt8) : Prop :=
  ∃ content rest, container = content ++ rest ∧ repacked = content ++ padding content.length

/-- Packing and unpacking of both messages. The announcement of discard blocks without any block is the one
value that is not packed as it was received. -/
theorem nruPacking_inverse :
    (∀ dlUserData : NruDlUserData, dlUserData.InRange → dlUserData.discardBlocks ≠ some [] →
      (dlUserData.reportDelivered = false → dlUserData.dlReportPdcpSn = 0) →
        (NruDlUserData.unpack {} (dlUserData.pack [])).1 = some dlUserData) ∧
    (∀ status : NruDlDataDeliveryStatus, status.InRange →
      (NruDlDataDeliveryStatus.unpack {} (status.pack [])).1 = some status) ∧
    (∀ outBuf, ∀ dlUserData : NruDlUserData, dlUserData.InRange →
      ((dlUserData.pack outBuf).length - outBuf.length) % 4 = 2) ∧
    (∀ outBuf, ∀ status : NruDlDataDeliveryStatus, status.InRange →
      ((status.pack outBuf).length - outBuf.length) % 4 = 2) ∧
    (∀ container dlUserData, (NruDlUserData.unpack {} container).1 = some dlUserData →
      dlUserData.discardBlocks ≠ some [] → Repacks container (dlUserData.pack [])) ∧
    (∀ container status, (NruDlDataDeliveryStatus.unpack {} container).1 = some status →
      Repacks container (status.pack [])) ∧
    (∀ init container, (NruDlUserData.unpack init container).2.Valid container) ∧
    ∀ init container, (NruDlDataDeliveryStatus.unpack init container).2.Valid container := by
  refine ⟨?_, ?_, ?_, ?_, ?_, ?_, ?_, ?_⟩
  · intro dlUserData hrange hblocks hreport
    exact unpack_packContainer codes_dlUserData hblocks ⟨hreport, hrange.nofDiscardBlocks⟩
      (fits_dlUserData hrange) (bitCount_dlUserData dlUserData)
  · intro status hrange
    exact unpack_packContainer codes_dlDataDeliveryStatus trivial hrange.nofLostNruSnRanges
      (fits_dlDataDeliveryStatus hrange) (bitCount_dlDataDeliveryStatus status)
  · intro outBuf dlUserData hrange
    exact length_packContainer (fits_dlUserData hrange) (bitCount_dlUserData dlUserData) outBuf
  · intro outBuf status hrange
    exact length_packContainer (fits_dlDataDeliveryStatus hrange) (bitCount_dlDataDeliveryStatus status) outBuf
  · intro container dlUserData h hblocks
    exact packContainer_of_unpack codes_dlUserData h hblocks (fieldWidths_dlUserData dlUserData)
      (bitCount_dlUserData dlUserData)
  · intro container status h
    exact packContainer_of_unpack codes_dlDataDeliveryStatus h trivial (fieldWidths_dlDataDeliveryStatus status)
      (bitCount_dlDataDeliveryStatus status)
  · exact fun init => unpackContainer_staysWithin (staysWithin_dlUserData init)
  · exact fun init => unpackContainer_staysWithin (staysWithin_dlDataDeliveryStatus init)

/-- Discard blocks are announced in the first octet, and their number is 0: the value is packed without the
announcement. -/
theorem empty_discardBlocks_not_repacked :
    (NruDlUserData.unpack {} [4, 0, 0, 0, 0, 0]).1.map (fun dlUserData => dlUserData.pack []) =
        some [0, 0, 0, 0, 0, 0] ∧ ¬Repacks [4, 0, 0, 0, 0, 0] [0, 0, 0, 0, 0, 0] := by
  refine ⟨by decide +kernel, ?_⟩
  rintro ⟨content, rest, hcontainer, hrepacked⟩
  cases content with
  | nil => cases hrepacked
  | cons byte content =>
    cases (List.cons.inj hcontainer).1
    cases (List.cons.inj hrepacked).1

end Srsran.Nru
