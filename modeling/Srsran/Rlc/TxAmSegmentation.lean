import Srsran.Lib.Runs
import Srsran.Rlc.TxAmWindow

/-! Segmentation of SDUs by the AM transmitter while nothing is retransmitted. -/
namespace Srsran.Rlc
open ModOrder Srsran.Adt Checked

theorem length_rlcAmWriteDataPduHeader (header : RlcAmPduHeader) :
    (rlcAmWriteDataPduHeader header).length =
      if header.so = 0 then rlcAmPduHeaderMinSize header.snSize
      else rlcAmPduHeaderMaxSize header.snSize := by
  rw [rlcAmWriteDataPduHeader]
  by_cases hso : header.so = 0
  · rw [if_neg (not_not.mpr hso), if_pos hso]
    cases header.snSize <;> rfl
  · rw [if_pos hso, if_neg hso]
    cases header.snSize <;> rfl

theorem length_byteBufferView {buf : List UInt8} {offset length : Nat} (h : offset + length ≤ buf.length) :
    (byteBufferView buf offset length).length = length := by
  rw [byteBufferView, List.length_take, List.length_drop]
  omega

abbrev AmdPdu := RlcAmPduHeader × List UInt8

/-- Segmentation info of the bytes from `first` to `last` of an SDU. -/
def rangeSi (first last length : Nat) : RlcSiField :=
  if first = 0 then if last = length then .fullSdu else .firstSegment
  else if last = length then .lastSegment else .middleSegment

/-- PDUs with one SN that carry the bytes of an SDU from `first` to `last`, one range behind the other. -/
def Segments (snSize : RlcAmSnSize) (sn : Nat) (sdu : List UInt8) : Nat → List AmdPdu → Nat → Prop
  | first, [], last => first = last
  | first, (header, payload) :: rest, last =>
    payload ≠ [] ∧ first + payload.length ≤ sdu.length ∧
      payload = byteBufferView sdu first payload.length ∧
      header = { dc := .data
                 p := header.p
                 si := rangeSi first (first + payload.length) sdu.length
                 snSize
                 sn
                 so := first } ∧
      Segments snSize sn sdu (first + payload.length) rest last

/-- PDUs that carry SDUs one after the other, with consecutive SNs from the number `n` on. -/
def SegmentedSdus (snSize : RlcAmSnSize) : Nat → List (List UInt8) → List AmdPdu → Prop
  | _, [], pdus => pdus = []
  | n, sdu :: rest, pdus => ∃ own others, pdus = own ++ others ∧
      Segments snSize (n % cardinality snSize.toNumber) sdu 0 own sdu.length ∧
        SegmentedSdus snSize (n + 1) rest others

section Segments
variable {snSize : RlcAmSnSize} {sn first mid last n : Nat} {sdu : List UInt8} {pdus own : List AmdPdu}

theorem Segments.append {rest : List AmdPdu} (h : Segments snSize sn sdu first pdus mid)
    (hrest : Segments snSize sn sdu mid rest last) : Segments snSize sn sdu first (pdus ++ rest) last := by
  induction pdus generalizing first with
  | nil =>
    have heq : first = mid := h
    rw [heq]
    exact hrest
  | cons pdu pdus ih =>
    obtain ⟨header, payload⟩ := pdu
    obtain ⟨hne, hle, hview, hheader, hsegments⟩ := h
    exact ⟨hne, hle, hview, hheader, ih hsegments⟩

theorem SegmentedSdus.concat {sdus : List (List UInt8)} (h : SegmentedSdus snSize n sdus pdus)
    (hown : Segments snSize ((n + sdus.length) % cardinality snSize.toNumber) sdu 0 own sdu.length) :
    SegmentedSdus snSize n (sdus ++ [sdu]) (pdus ++ own) := by
  induction sdus generalizing n pdus with
  | nil =>
    have hempty : pdus = [] := h
    rw [hempty]
    exact ⟨own, [], (List.append_nil own).symm, hown, rfl⟩
  | cons head rest ih =>
    obtain ⟨headPdus, others, hsplit, hhead, hothers⟩ := h
    refine ⟨headPdus, others ++ own, ?_, hhead, ?_⟩
    · rw [hsplit, List.append_assoc]
    · apply ih hothers
      rw [List.length_cons] at hown
      rw [Nat.add_right_comm, Nat.add_assoc]
      exact hown

end Segments

namespace RlcTxAmEntity
variable {ent ent' : RlcTxAmEntity}

/-- The entity without its polling counters, its notices and the last retransmission. -/
def dataPart (ent : RlcTxAmEntity) : RlcTxAmEntity :=
  { ent with
    st := { txNextAck := ent.st.txNextAck, txNext := ent.st.txNext }
    retxSn := invalidRlcSn
    pollRetransmitTimerRunning := false
    notices := [] }

theorem getPollingBit_dataPart (sn : Nat) (isRetx : Bool) (payloadSize : Nat) :
    (ent.getPollingBit sn isRetx payloadSize).1.dataPart = ent.dataPart := by
  rw [getPollingBit]
  split
  · split <;> rfl
  · split <;> rfl

theorem getPollingBit_cfg (sn : Nat) (isRetx : Bool) (payloadSize : Nat) :
    (ent.getPollingBit sn isRetx payloadSize).1.cfg = ent.cfg := by
  have hdata := @getPollingBit_dataPart ent sn isRetx payloadSize
  exact congrArg (fun part => part.cfg) hdata

theorem getPollingBit_txNext (sn : Nat) (isRetx : Bool) (payloadSize : Nat) :
    (ent.getPollingBit sn isRetx payloadSize).1.st.txNext = ent.st.txNext := by
  have hdata := @getPollingBit_dataPart ent sn isRetx payloadSize
  exact congrArg (fun part => part.st.txNext) hdata

theorem dataHeader_eq {p so : Nat} {si : RlcSiField} (hso : so < 2 ^ 16) (sn : Nat) :
    ent.dataHeader p si sn so =
      { dc := .data, p, si, snSize := ent.cfg.snFieldLength, sn, so } := by
  rw [dataHeader, Nat.mod_eq_of_lt hso]

theorem length_dataHeader {p so : Nat} {si : RlcSiField} (hso : so < 2 ^ 16) (sn : Nat) :
    (rlcAmWriteDataPduHeader (ent.dataHeader p si sn so)).length =
      if so = 0 then ent.headMinSize else ent.headMaxSize := by
  rw [length_rlcAmWriteDataPduHeader, dataHeader_eq hso]
  rfl

theorem take_byteBufferView {sdu : List UInt8} {p so payloadLen grantLen : Nat} {si : RlcSiField}
    (hso : so < 2 ^ 16) (hle : so + payloadLen ≤ sdu.length) (sn : Nat)
    (hgrant : (if so = 0 then ent.headMinSize else ent.headMaxSize) + payloadLen ≤ grantLen) :
    (byteBufferView sdu (ent.dataHeader p si sn so).so payloadLen).take
        (grantLen - (rlcAmWriteDataPduHeader (ent.dataHeader p si sn so)).length) =
      byteBufferView sdu so payloadLen := by
  have hview := length_byteBufferView hle
  rw [length_dataHeader hso, dataHeader_eq hso]
  apply List.take_of_length_le
  rw [hview]
  omega

def rangePdu (ent : RlcTxAmEntity) (p : Nat) (sdu : List UInt8) (first length : Nat) : TxAmPdu :=
  .data
    { dc := .data
      p
      si := rangeSi first (first + length) sdu.length
      snSize := ent.cfg.snFieldLength
      sn := ent.st.txNext
      so := first }
    (byteBufferView sdu first length)

variable {ent' : RlcTxAmEntity}

theorem data_dataHeader {sdu : List UInt8} {p so payloadLen : Nat} {si : RlcSiField}
    (hcfg : ent'.cfg = ent.cfg) (htxNext : ent'.st.txNext = ent.st.txNext) (hso : so < 2 ^ 16)
    (hsi : rangeSi so (so + payloadLen) sdu.length = si) :
    TxAmPdu.data (ent'.dataHeader p si ent'.st.txNext so) (byteBufferView sdu so payloadLen) =
      ent.rangePdu p sdu so payloadLen := by
  rw [dataHeader_eq hso, hcfg, htxNext, ← hsi]
  rfl

def releaseSegmented (ent : RlcTxAmEntity) (length nextSo : Nat) : RlcTxAmEntity :=
  if nextSo = length then { ent with snUnderSegmentation := invalidRlcSn } else ent

def storeProgress (ent : RlcTxAmEntity) (sn : Nat) (info : RlcTxAmSduInfo) (nextSo : Nat) :
    RlcTxAmEntity :=
  if nextSo = info.sdu.length then (ent.setSduInfo sn { info with nextSo }).incrementTxNext
  else ent.setSduInfo sn { info with nextSo }

variable {info : RlcTxAmSduInfo}

/-- The next segment of the SDU under segmentation, as long as the grant allows. -/
theorem buildContinuedSduSegment_eq {grantLen payloadLen : Nat}
    (hso : 0 < info.nextSo) (hso' : info.nextSo < 2 ^ 16) (hlt : info.nextSo < info.sdu.length)
    (hlen : info.sdu.length < 2 ^ 32) (hgrant : ent.headMaxSize < grantLen)
    (hpayload : payloadLen = min (info.sdu.length - info.nextSo) (grantLen - ent.headMaxSize)) :
    ent.buildContinuedSduSegment grantLen info =
      (((ent.releaseSegmented info.sdu.length (info.nextSo + payloadLen)).getPollingBit ent.st.txNext
          false payloadLen).1.storeProgress ent.snUnderSegmentation info (info.nextSo + payloadLen),
        some (ent.rangePdu
          ((ent.releaseSegmented info.sdu.length (info.nextSo + payloadLen)).getPollingBit
            ent.st.txNext false payloadLen).2
          info.sdu info.nextSo payloadLen)) := by
  have hrest : (info.sdu.length - info.nextSo) % 2 ^ 32 = info.sdu.length - info.nextSo :=
    Nat.mod_eq_of_lt (by omega)
  have hsegment : ∀ ent' : RlcTxAmEntity, ent'.cfg = ent.cfg → ∀ p si,
      (byteBufferView info.sdu (ent'.dataHeader p si ent'.st.txNext info.nextSo).so payloadLen).take
          (grantLen - (rlcAmWriteDataPduHeader (ent'.dataHeader p si ent'.st.txNext info.nextSo)).length) =
        byteBufferView info.sdu info.nextSo payloadLen := by
    intro ent' hcfg p si
    apply take_byteBufferView hso' (by omega)
    rw [if_neg (Nat.ne_of_gt hso), headMaxSize, hcfg]
    have hmax : ent.headMaxSize + payloadLen ≤ grantLen := by omega
    exact hmax
  have hview : (byteBufferView info.sdu info.nextSo payloadLen).length = payloadLen :=
    length_byteBufferView (by omega)
  have hnonempty : ¬(payloadLen = 0 ∨ payloadLen ≠ payloadLen) := by omega
  rw [buildContinuedSduSegment, if_neg (Nat.ne_of_gt hso), if_neg (Nat.not_le_of_lt hlt),
    if_neg (Nat.not_le_of_lt hgrant), hrest]
  have hnextSo : (info.nextSo + payloadLen) % 2 ^ 32 = info.nextSo + payloadLen :=
    Nat.mod_eq_of_lt (by omega)
  by_cases hlast : info.sdu.length - info.nextSo + ent.headMaxSize ≤ grantLen
  · have hall : info.sdu.length - info.nextSo = payloadLen := by omega
    have hend : info.nextSo + payloadLen = info.sdu.length := by omega
    have hsi : rangeSi info.nextSo (info.nextSo + payloadLen) info.sdu.length = .lastSegment := by
      rw [rangeSi, if_neg (Nat.ne_of_gt hso), if_pos hend]
    rw [hall] at hlast
    rw [releaseSegmented, if_pos hend, hall]
    simp only [if_pos hlast]
    have hcfg := @getPollingBit_cfg { ent with snUnderSegmentation := invalidRlcSn }
      ent.st.txNext false payloadLen
    have htxNext := @getPollingBit_txNext { ent with snUnderSegmentation := invalidRlcSn }
      ent.st.txNext false payloadLen
    generalize getPollingBit _ ent.st.txNext false payloadLen = polled at hcfg htxNext ⊢
    obtain ⟨ent', p⟩ := polled
    rw [hsegment ent' hcfg, hview, if_neg hnonempty, storeProgress, if_pos hend,
      advanceSegmentation, hnextSo, data_dataHeader hcfg htxNext hso' hsi]
    rfl
  · have hgrant' : payloadLen = grantLen - ent.headMaxSize := by omega
    have hend : info.nextSo + payloadLen ≠ info.sdu.length := by omega
    have hpayloadLen : (grantLen - ent.headMaxSize) % 2 ^ 32 = payloadLen := by
      rw [← hgrant']
      exact Nat.mod_eq_of_lt (by omega)
    have hsi : rangeSi info.nextSo (info.nextSo + payloadLen) info.sdu.length = .middleSegment := by
      rw [rangeSi, if_neg (Nat.ne_of_gt hso), if_neg hend]
    rw [releaseSegmented, if_neg hend]
    simp only [if_neg hlast, hpayloadLen]
    have hcfg := @getPollingBit_cfg ent ent.st.txNext false payloadLen
    have htxNext := @getPollingBit_txNext ent ent.st.txNext false payloadLen
    generalize getPollingBit _ ent.st.txNext false payloadLen = polled at hcfg htxNext ⊢
    obtain ⟨ent', p⟩ := polled
    rw [hsegment ent' hcfg, hview, if_neg hnonempty, storeProgress, if_neg hend,
      advanceSegmentation, hnextSo, data_dataHeader hcfg htxNext hso' hsi]

theorem buildFirstSduSegment_eq {grantLen payloadLen : Nat}
    (hso : info.nextSo = 0) (hlen : info.sdu.length < 2 ^ 32) (hgrant : ent.headMinSize < grantLen)
    (hlarge : grantLen < info.sdu.length + ent.headMinSize)
    (hpayload : payloadLen = grantLen - ent.headMinSize) :
    ent.buildFirstSduSegment grantLen info =
      ((({ ent with snUnderSegmentation := ent.st.txNext } : RlcTxAmEntity).getPollingBit
          ent.st.txNext false payloadLen).1.storeProgress ent.st.txNext info payloadLen,
        some (ent.rangePdu
          (({ ent with snUnderSegmentation := ent.st.txNext } : RlcTxAmEntity).getPollingBit
            ent.st.txNext false payloadLen).2
          info.sdu 0 payloadLen)) := by
  have hpayloadLen : (grantLen - ent.headMinSize) % 2 ^ 32 = payloadLen := by
    rw [← hpayload]
    exact Nat.mod_eq_of_lt (by omega)
  have hend : payloadLen ≠ info.sdu.length := by omega
  have hsi : rangeSi 0 (0 + payloadLen) info.sdu.length = .firstSegment := by
    rw [rangeSi, if_pos rfl, Nat.zero_add, if_neg hend]
  have hview : (byteBufferView info.sdu 0 payloadLen).length = payloadLen :=
    length_byteBufferView (by omega)
  have hnonempty : ¬(payloadLen = 0 ∨ payloadLen ≠ payloadLen) := by omega
  have hnextSo : (0 + payloadLen) % 2 ^ 32 = payloadLen := by
    rw [Nat.zero_add]
    exact Nat.mod_eq_of_lt (by omega)
  rw [buildFirstSduSegment, if_neg (Nat.not_le_of_lt hlarge), if_neg (Nat.not_le_of_lt hgrant),
    hpayloadLen]
  simp only [hso]
  have hcfg := @getPollingBit_cfg { ent with snUnderSegmentation := ent.st.txNext }
    ent.st.txNext false payloadLen
  have htxNext := @getPollingBit_txNext { ent with snUnderSegmentation := ent.st.txNext }
    ent.st.txNext false payloadLen
  generalize getPollingBit _ ent.st.txNext false payloadLen = polled at hcfg htxNext ⊢
  obtain ⟨ent', p⟩ := polled
  have hfits : (if (0 : Nat) = 0 then ent'.headMinSize else ent'.headMaxSize) + payloadLen ≤ grantLen := by
    rw [if_pos rfl, headMinSize, hcfg]
    have hmin : ent.headMinSize + payloadLen ≤ grantLen := by omega
    exact hmin
  rw [take_byteBufferView (by decide) (by omega) _ hfits, hview, if_neg hnonempty, storeProgress,
    if_neg hend, advanceSegmentation, hso, hnextSo, data_dataHeader hcfg htxNext (by decide) hsi, htxNext]
  rfl

theorem buildFullSdu_eq {grantLen : Nat} {moved : List UInt8}
    (hpos : 0 < info.sdu.length) (hgrant : info.sdu.length + ent.headMinSize ≤ grantLen) :
    ent.buildFullSdu grantLen info moved =
      ((ent.getPollingBit ent.st.txNext false moved.length).1.incrementTxNext,
        some (ent.rangePdu (ent.getPollingBit ent.st.txNext false moved.length).2 info.sdu 0
          info.sdu.length)) := by
  have hsi : rangeSi 0 (0 + info.sdu.length) info.sdu.length = .fullSdu := by
    rw [rangeSi, if_pos rfl, Nat.zero_add, if_pos rfl]
  have hcfg := @getPollingBit_cfg ent ent.st.txNext false moved.length
  have htxNext := @getPollingBit_txNext ent ent.st.txNext false moved.length
  rw [buildFullSdu]
  generalize getPollingBit ent ent.st.txNext false moved.length = polled at hcfg htxNext ⊢
  obtain ⟨ent', p⟩ := polled
  have hfits : (if (0 : Nat) = 0 then ent'.headMinSize else ent'.headMaxSize) + info.sdu.length ≤
      grantLen := by
    rw [if_pos rfl, headMinSize, hcfg]
    have hmin : ent.headMinSize + info.sdu.length ≤ grantLen := by omega
    exact hmin
  have hview : byteBufferView info.sdu 0 info.sdu.length = info.sdu := by
    rw [byteBufferView, List.drop_zero, List.take_length]
  have htake := @take_byteBufferView ent' info.sdu p 0 info.sdu.length grantLen .fullSdu (by decide)
    (Nat.le_of_eq (Nat.zero_add info.sdu.length)) ent'.st.txNext hfits
  rw [dataHeader_eq (by decide), hview] at htake
  have hdata := @data_dataHeader ent ent' info.sdu p 0 info.sdu.length .fullSdu hcfg htxNext (by decide) hsi
  rw [hview] at hdata
  simp only [@dataHeader_eq ent' p 0 .fullSdu (by decide), htake, if_neg (Nat.ne_of_gt hpos)] at hdata ⊢
  rw [hdata]

def acceptSdu (ent : RlcTxAmEntity) (sdu : RlcSdu) : RlcTxAmEntity :=
  (ent.addToWindow sdu).notifyTransfer sdu

theorem notifyTransfer_dataPart (sdu : RlcSdu) : (ent.notifyTransfer sdu).dataPart = ent.dataPart := by
  rw [notifyTransfer]
  cases sdu.pdcpSn with
  | none => rfl
  | some pdcpSn =>
    dsimp only
    split <;> rfl

theorem acceptSdu_dataPart (sdu : RlcSdu) : (ent.acceptSdu sdu).dataPart = (ent.addToWindow sdu).dataPart :=
  notifyTransfer_dataPart sdu

theorem buildSdu_eq {grantLen : Nat} {sdu : RlcSdu} (hsn : ent.hasSn ent.st.txNext = false) :
    ent.buildSdu grantLen sdu =
      .ok (if sdu.buf.length + ent.headMinSize ≤ grantLen then
          (ent.acceptSdu sdu).buildFullSdu grantLen
            { sdu := sdu.buf, isRetx := sdu.isRetx, pdcpSn := sdu.pdcpSn } []
        else
          (ent.acceptSdu sdu).buildFirstSduSegment grantLen
            { sdu := sdu.buf, isRetx := sdu.isRetx, pdcpSn := sdu.pdcpSn }) := by
  have hcfg : (ent.acceptSdu sdu).cfg = ent.cfg := by
    have hdata := @acceptSdu_dataPart ent sdu
    exact congrArg (fun part => part.cfg) hdata
  have hmin : (ent.acceptSdu sdu).headMinSize = ent.headMinSize := by
    rw [headMinSize, hcfg]
    rfl
  rw [buildSdu, hsn, if_neg Bool.false_ne_true]
  change (if sdu.buf.length + (ent.acceptSdu sdu).headMinSize > grantLen then _ else _) = _
  rw [hmin]
  by_cases hfits : sdu.buf.length + ent.headMinSize ≤ grantLen
  · rw [if_neg (Nat.not_lt_of_le hfits), if_pos hfits]
    rfl
  · rw [if_pos (Nat.lt_of_not_le hfits), if_neg hfits]
    rfl

theorem storeProgress_dataPart (h : ent'.dataPart = ent.dataPart) (sn : Nat)
    (info : RlcTxAmSduInfo) (nextSo : Nat) :
    (ent'.storeProgress sn info nextSo).dataPart = (ent.storeProgress sn info nextSo).dataPart := by
  have hpart : ∀ ent : RlcTxAmEntity, (ent.storeProgress sn info nextSo).dataPart =
      (ent.dataPart.storeProgress sn info nextSo).dataPart := by
    intro ent
    rw [storeProgress, storeProgress]
    split <;> rfl
  rw [hpart ent', h, ← hpart ent]

theorem incrementTxNext_dataPart (h : ent'.dataPart = ent.dataPart) :
    ent'.incrementTxNext.dataPart = ent.incrementTxNext.dataPart := by
  have hpart : ∀ ent : RlcTxAmEntity, ent.incrementTxNext.dataPart =
      ent.dataPart.incrementTxNext.dataPart := fun ent => rfl
  rw [hpart ent', h, ← hpart ent]

end RlcTxAmEntity

end Srsran.Rlc
