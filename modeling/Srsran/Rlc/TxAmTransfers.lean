import Srsran.Rlc.TxAmSegmentation

/-! First transmissions of the AM transmitter over whole runs without retransmissions. -/
namespace Srsran.Rlc
open ModOrder Runs Checked Srsran.Adt

/-- The entity with the SDUs that it was given and the data PDUs that it returned. -/
structure TxAmHistory where
  ent : RlcTxAmEntity
  handed : List (List UInt8) := []
  sent : List AmdPdu := []

def dataPdus : Option TxAmPdu → List AmdPdu
  | some (.data header payload) => [(header, payload)]
  | _ => []

def TxAmHistory.hand (handed : List (List UInt8)) : TxAmEvent → List (List UInt8)
  | .handleSdu sduBuf _ => handed ++ [sduBuf]
  | _ => handed

def TxAmHistory.step (h : TxAmHistory) (event : TxAmEvent) : Option TxAmHistory :=
  match h.ent.step event with
  | .ok (ent, pdu) =>
    some
      { ent
        handed := TxAmHistory.hand h.handed event
        sent := h.sent ++ dataPdus pdu }
  | .error _ => none

def TxAmEvent.grantLen : TxAmEvent → Nat
  | .pullPdu grantLen => grantLen
  | _ => 0

def endsSdu : Option TxAmPdu → Bool
  | some (.data header _) => header.si = .fullSdu ∨ header.si = .lastSegment
  | _ => false

/-- The PDU fits into the grant, and TX_Next moves on exactly behind the end of an SDU. -/
structure Emitted (ent ent' : RlcTxAmEntity) (grantLen : Nat) (pdu : Option TxAmPdu) : Prop where
  fits : pduLen pdu ≤ grantLen
  advance : ent'.st.txNext = if endsSdu pdu then (ent.st.txNext + 1) % ent.mod else ent.st.txNext

/-- The PDUs carry SDUs in the order in which they were handed over, each one from its first to its last
byte, and at last a part of an SDU. -/
def SentInOrder (snSize : RlcAmSnSize) (handed : List (List UInt8)) (sent : List AmdPdu) : Prop :=
  ∃ finished done, (finished.Sublist handed ∧ sent = done ∨
      ∃ sdu own last, last < sdu.length ∧ (finished ++ [sdu]).Sublist handed ∧ sent = done ++ own ∧
        Segments snSize (finished.length % cardinality snSize.toNumber) sdu 0 own last) ∧
    SegmentedSdus snSize 0 finished done

namespace RlcTxAmEntity
variable {ent ent' : RlcTxAmEntity} {grantLen : Nat}

/-- A grant with which an SDU is taken from the queue, if it has one. -/
def takesSdu (ent : RlcTxAmEntity) (grantLen : Nat) : Bool :=
  ent.headMinSize < grantLen && !ent.isTxWindowFull

/-- The expiry of t-PollRetransmit finds an SDU to retransmit. -/
def expiryRetransmits (ent : RlcTxAmEntity) : Bool :=
  ent.pollRetransmitTimerRunning && ent.pollForced && !ent.txWindow.isEmpty

/-- No status report is sent, and nothing is retransmitted: acknowledgements are positive, up to
TX_Next at most. -/
def OnlyNewData (ent : RlcTxAmEntity) : TxAmEvent → Prop
  | .statusPdu status => status.nacks = [] ∧ ent.txModBase status.ackSn ≤ ent.txModBase ent.st.txNext
  | .pollRetransmitExpiry => ent.expiryRetransmits = false
  | .statusReport _ _ => False
  | _ => True

/-- No empty SDU is taken from the queue, and no segment begins behind the offsets that a header can
hold. Lengths have 32 bits. -/
def SegmentationSafe (ent : RlcTxAmEntity) : TxAmEvent → Prop
  | .handleSdu sduBuf _ => sduBuf.length < 2 ^ 32
  | .pullPdu grantLen =>
    (ent.headMaxSize < grantLen → ∀ info ∈ ent.txWindow.get? ent.snUnderSegmentation, info.nextSo < 2 ^ 16) ∧
      (ent.snUnderSegmentation = invalidRlcSn → ent.takesSdu grantLen = true → ∀ sdu ∈ ent.sduQueue.read.2, sdu.buf ≠ [])
  | _ => True

instance (ent : RlcTxAmEntity) : ∀ event, Decidable (ent.OnlyNewData event)
  | .statusPdu _ => inferInstanceAs (Decidable (_ ∧ _))
  | .pollRetransmitExpiry => inferInstanceAs (Decidable (_ = _))
  | .statusReport _ _ => inferInstanceAs (Decidable False)
  | .handleSdu _ _ | .discardSdu _ | .pullPdu _ | .bufferStateUpdate | .stop =>
    inferInstanceAs (Decidable True)

instance (ent : RlcTxAmEntity) : ∀ event, Decidable (ent.SegmentationSafe event)
  | .handleSdu _ _ => inferInstanceAs (Decidable (_ < _))
  | .pullPdu _ => inferInstanceAs (Decidable (_ ∧ _))
  | .discardSdu _ | .statusPdu _ | .pollRetransmitExpiry | .bufferStateUpdate | .statusReport _ _ | .stop =>
    inferInstanceAs (Decidable True)

/-- How far the SDUs behind `finished` are sent. -/
def Progress (ent : RlcTxAmEntity) (sent : List AmdPdu) (finished : List (List UInt8)) :
    Option (List UInt8) → Prop
  | none =>
    ent.snUnderSegmentation = invalidRlcSn ∧ SegmentedSdus ent.cfg.snFieldLength 0 finished sent
  | some sdu =>
    ent.snUnderSegmentation = finished.length % ent.mod ∧
      ∃ info done own, ent.txWindow.get? (finished.length % ent.mod) = some info ∧ info.sdu = sdu ∧
        0 < info.nextSo ∧ info.nextSo < sdu.length ∧ sdu.length < 2 ^ 32 ∧ sent = done ++ own ∧
        SegmentedSdus ent.cfg.snFieldLength 0 finished done ∧
        Segments ent.cfg.snFieldLength (finished.length % ent.mod) sdu 0 own info.nextSo

/-- The window holds the SDUs that are not acknowledged, the last one maybe in part. -/
structure Transferring (ent : RlcTxAmEntity) (cfg : RlcTxAmConfig) (handed : List (List UInt8)) (sent : List AmdPdu)
    (finished : List (List UInt8)) (current : Option (List UInt8)) (lo : Nat) : Prop where
  cfg_eq : ent.cfg = cfg
  window : SnInterval ent.txWindow ent.mod ent.amWindowSize lo (finished.length + current.toList.length)
  lo_le : lo ≤ finished.length
  txNextAck : ent.st.txNextAck = lo % ent.mod
  txNext : ent.st.txNext = finished.length % ent.mod
  noRetx : ent.retxQueue.Holds []
  noStatus : ent.statusProvider.statusReportRequired = false
  notReached : ent.maxRetxReached = false
  lengths : ∀ sdu ∈ ent.sduQueue.queue, sdu.buf.length < 2 ^ 32
  order : (finished ++ current.toList ++ ent.sduQueue.queue.map RlcSdu.buf).Sublist handed
  progress : ent.Progress sent finished current

section Transferring
variable {cfg : RlcTxAmConfig} {handed : List (List UInt8)} {sent : List AmdPdu} {finished : List (List UInt8)}
  {current : Option (List UInt8)} {lo : Nat}

theorem Transferring.congr (h : ent.Transferring cfg handed sent finished current lo)
    (hdata : ent'.dataPart = ent.dataPart) : ent'.Transferring cfg handed sent finished current lo := by
  have hof : ∀ ent : RlcTxAmEntity, ent.Transferring cfg handed sent finished current lo →
      ent.dataPart.Transferring cfg handed sent finished current lo := fun ent h =>
    { h with
      progress := by
        cases current with
        | none => exact h.progress
        | some sdu => exact h.progress }
  have hpart : ent'.dataPart.Transferring cfg handed sent finished current lo := by
    rw [hdata]
    exact hof ent h
  exact
    { hpart with
      progress := by
        cases current with
        | none => exact hpart.progress
        | some sdu => exact hpart.progress }

theorem Transferring.shape (ent : RlcTxAmEntity) : WindowShape ent.mod ent.amWindowSize :=
  ent.cfg.snFieldLength.windowShape

theorem Transferring.sentInOrder (h : ent.Transferring cfg handed sent finished current lo) :
    SentInOrder cfg.snFieldLength handed sent := by
  rw [← h.cfg_eq]
  have horder := (List.sublist_append_left _ _).trans h.order
  have hprogress := h.progress
  cases current with
  | none =>
    rw [Option.toList_none, List.append_nil] at horder
    exact ⟨finished, sent, .inl ⟨horder, rfl⟩, hprogress.2⟩
  | some sdu =>
    obtain ⟨-, info, done, own, -, -, -, hlt, -, hsent, hdone, hown⟩ := hprogress
    exact ⟨finished, done, .inr ⟨sdu, own, info.nextSo, hlt, horder, hsent, hown⟩, hdone⟩

theorem length_rangePdu {p first length : Nat} {sdu : List UInt8} (h : first + length ≤ sdu.length) :
    pduLen (some (ent.rangePdu p sdu first length)) =
      (if first = 0 then ent.headMinSize else ent.headMaxSize) + length := by
  have hview := length_byteBufferView h
  rw [pduLen, rangePdu, TxAmPdu.bytes, List.length_append, length_rlcAmWriteDataPduHeader, hview]
  rfl

theorem endsSdu_rangePdu {p first length : Nat} {sdu : List UInt8} :
    endsSdu (some (ent.rangePdu p sdu first length)) = decide (first + length = sdu.length) := by
  change decide (rangeSi first (first + length) sdu.length = .fullSdu ∨
    rangeSi first (first + length) sdu.length = .lastSegment) = _
  rw [rangeSi]
  by_cases hend : first + length = sdu.length
  · rw [if_pos hend, if_pos hend, decide_eq_true hend]
    split <;> rfl
  · rw [if_neg hend, if_neg hend, decide_eq_false hend]
    split <;> rfl

theorem rangePdu_congr (hcfg : ent'.cfg = ent.cfg) (htxNext : ent'.st.txNext = ent.st.txNext) :
    ent'.rangePdu = ent.rangePdu := by
  funext p sdu first length
  rw [rangePdu, rangePdu, hcfg, htxNext]

theorem segments_rangePdu {p first length sn : Nat} {sdu : List UInt8} (hpos : 0 < length)
    (h : first + length ≤ sdu.length) (hsn : ent.st.txNext = sn) :
    Segments ent.cfg.snFieldLength sn sdu first
      (dataPdus (some (ent.rangePdu p sdu first length))) (first + length) := by
  subst hsn
  have hview := length_byteBufferView h
  refine ⟨?_, ?_, ?_, ?_, ?_⟩
  · intro hempty
    rw [hempty] at hview
    exact Nat.ne_of_lt hpos hview
  · rw [hview]
    exact h
  · rw [hview]
  · rw [hview]
  · rw [hview]
    exact rfl

theorem txNext_congr (h : ent'.dataPart = ent.dataPart) : ent'.st.txNext = ent.st.txNext := by
  have htxNext := congrArg (fun part => part.st.txNext) h
  exact htxNext

theorem txNext_storeProgress (sn : Nat) (info : RlcTxAmSduInfo) (nextSo : Nat) :
    (ent.storeProgress sn info nextSo).st.txNext =
      if nextSo = info.sdu.length then (ent.st.txNext + 1) % ent.mod else ent.st.txNext := by
  rw [storeProgress]
  split <;> rfl

theorem txNext_releaseSegmented (length nextSo sn : Nat) (info : RlcTxAmSduInfo) :
    ((ent.releaseSegmented length nextSo).storeProgress sn info nextSo).st.txNext =
      (ent.storeProgress sn info nextSo).st.txNext := by
  rw [releaseSegmented]
  split
  · rw [txNext_storeProgress, txNext_storeProgress]
    rfl
  · rfl

variable {pdus : List AmdPdu}

theorem Transferring.store {info : RlcTxAmSduInfo} {nextSo : Nat}
    (h : ent.Transferring cfg handed sent finished (some info.sdu) lo)
    (hinfo : ent.txWindow.get? ent.snUnderSegmentation = some info) (hlt : info.nextSo < nextSo)
    (hle : nextSo ≤ info.sdu.length)
    (hsegments : Segments ent.cfg.snFieldLength ent.st.txNext info.sdu info.nextSo pdus nextSo) :
    ∃ finished' current',
      ((ent.releaseSegmented info.sdu.length nextSo).storeProgress ent.snUnderSegmentation info
        nextSo).Transferring cfg handed (sent ++ pdus) finished' current' lo := by
  obtain ⟨hunder, info', done, own, hinfo', -, hpos, -, hlen, hsent, hdone, hown⟩ := h.progress
  rw [hunder, hinfo'] at hinfo
  cases hinfo
  rw [h.txNext] at hsegments
  have hshape := shape ent
  have hlo := h.lo_le
  have hwindow := h.window.set hshape hlo (Nat.lt_succ_self _) { info with nextSo }
  have hpdus := hown.append hsegments
  by_cases hend : nextSo = info.sdu.length
  · rw [hend] at hpdus
    refine ⟨finished ++ [info.sdu], none, ?_⟩
    rw [releaseSegmented, if_pos hend, storeProgress, if_pos hend, hunder]
    exact
      { h with
        window := by
          rw [List.length_append]
          exact hwindow
        lo_le := by
          rw [List.length_append]
          exact Nat.le_add_right_of_le hlo
        txNext := by
          have hnext : (ent.st.txNext + 1) % ent.mod = (finished.length + 1) % ent.mod := by
            rw [h.txNext, succ_mod_mod]
          rw [List.length_append]
          exact hnext
        order := by
          have horder := h.order
          rw [Option.toList_none, List.append_nil]
          exact horder
        progress := by
          refine ⟨rfl, ?_⟩
          rw [hsent, List.append_assoc]
          apply hdone.concat
          rw [Nat.zero_add]
          exact hpdus }
  · refine ⟨finished, some info.sdu, ?_⟩
    rw [releaseSegmented, if_neg hend, storeProgress, if_neg hend, hunder]
    exact
      { h with
        window := hwindow
        lo_le := hlo
        progress := by
          refine ⟨hunder, { info with nextSo }, done, own ++ pdus, ?_, rfl, ?_, ?_, hlen, ?_, hdone, hpdus⟩
          · exact (CircularMap.get?_overwrite _ _ _ _).trans (if_pos rfl)
          · exact Nat.lt_trans hpos hlt
          · exact Nat.lt_of_le_of_ne hle hend
          · rw [hsent, List.append_assoc] }

theorem Transferring.continued {sdu : List UInt8} {info : RlcTxAmSduInfo}
    (h : ent.Transferring cfg handed sent finished (some sdu) lo)
    (hinfo : ent.txWindow.get? ent.snUnderSegmentation = some info)
    (hso : ent.headMaxSize < grantLen → info.nextSo < 2 ^ 16) :
    ∃ ent' pdu finished' current', ent.buildContinuedSduSegment grantLen info = (ent', pdu) ∧
      Emitted ent ent' grantLen pdu ∧
      ent'.Transferring cfg handed (sent ++ dataPdus pdu) finished' current' lo := by
  obtain ⟨hunder, info', -, -, hinfo', hsdu, hpos, hlt, hlen, -, -, -⟩ := h.progress
  rw [hunder, hinfo'] at hinfo
  cases hinfo
  subst hsdu
  rw [← hunder] at hinfo'
  by_cases hgrant : grantLen ≤ ent.headMaxSize
  · refine ⟨ent, none, finished, some info.sdu, ?_, ⟨Nat.zero_le _, rfl⟩, ?_⟩
    · rw [buildContinuedSduSegment, if_neg (Nat.ne_of_gt hpos), if_neg (Nat.not_le_of_lt hlt),
        if_pos hgrant]
    · have hnone : sent ++ dataPdus none = sent := List.append_nil sent
      rw [hnone]
      exact h
  · rw [Nat.not_le] at hgrant
    have hstep := fun payloadLen => @buildContinuedSduSegment_eq ent info grantLen payloadLen hpos (hso hgrant)
      hlt hlen hgrant
    generalize hpayload : min (info.sdu.length - info.nextSo) (grantLen - ent.headMaxSize) = payloadLen
      at hstep
    have hle : info.nextSo + payloadLen ≤ info.sdu.length := by omega
    have hpositive : 0 < payloadLen := by omega
    have hdata := storeProgress_dataPart
      (@getPollingBit_dataPart (ent.releaseSegmented info.sdu.length (info.nextSo + payloadLen))
        ent.st.txNext false payloadLen)
      ent.snUnderSegmentation info (info.nextSo + payloadLen)
    obtain ⟨finished', current', hnext⟩ := h.store hinfo' (Nat.lt_add_of_pos_right hpositive) hle
      (segments_rangePdu hpositive hle rfl)
    refine ⟨_, _, finished', current', hstep payloadLen rfl, ⟨?_, ?_⟩, hnext.congr hdata⟩
    · rw [length_rangePdu hle, if_neg (Nat.ne_of_gt hpos)]
      omega
    · rw [txNext_congr hdata, txNext_releaseSegmented, txNext_storeProgress, endsSdu_rangePdu]
      simp only [decide_eq_true_eq]

theorem isTxWindowFull_room (h : ent.Transferring cfg handed sent finished none lo)
    (hfull : ent.isTxWindowFull = false) : finished.length < lo + ent.amWindowSize := by
  have hcount := h.window.full_eq
  have hle := h.window.le
  rw [isTxWindowFull, Bool.or_eq_false_iff] at hfull
  rw [hfull.1, eq_comm, decide_eq_false_iff_not] at hcount
  exact Nat.lt_of_le_of_ne hle hcount

variable {sdu : RlcSdu}

section
variable (h : ent.Transferring cfg handed sent finished none lo)
include h

theorem Transferring.read (hread : ent.sduQueue.read.2 = some sdu) :
    sdu.buf.length < 2 ^ 32 ∧ (∀ sdu ∈ ent.sduQueue.read.1.queue, sdu.buf.length < 2 ^ 32) ∧
      (finished ++ [sdu.buf] ++ ent.sduQueue.read.1.queue.map RlcSdu.buf).Sublist handed := by
  have hsuffix := ent.sduQueue.queue_read
  rw [hread, Option.toList_some, List.singleton_append] at hsuffix
  refine ⟨h.lengths sdu (hsuffix.subset List.mem_cons_self),
    fun other hother => h.lengths other (hsuffix.subset (List.mem_cons_of_mem sdu hother)), ?_⟩
  have horder := h.order
  rw [Option.toList_none, List.append_nil] at horder
  rw [List.append_assoc]
  exact ((List.Sublist.refl finished).append (hsuffix.sublist.map RlcSdu.buf)).trans horder

theorem Transferring.full (hfull : ent.isTxWindowFull = false)
    (hread : ent.sduQueue.read.2 = some sdu)
    (hsegments : Segments ent.cfg.snFieldLength ent.st.txNext sdu.buf 0 pdus sdu.buf.length) :
    (({ ent with sduQueue := ent.sduQueue.read.1 } : RlcTxAmEntity).addToWindow
      sdu).incrementTxNext.Transferring cfg handed (sent ++ pdus) (finished ++ [sdu.buf]) none lo := by
  obtain ⟨-, hlengths, horder⟩ := h.read hread
  have hwindow := h.window.add (shape ent) (isTxWindowFull_room h hfull)
    { sdu := sdu.buf, isRetx := sdu.isRetx, pdcpSn := sdu.pdcpSn }
  rw [h.txNext] at hsegments
  obtain ⟨hunder, hdone⟩ := h.progress
  exact
    { h with
      window := by
        rw [List.length_append, incrementTxNext, addToWindow, setSduInfo, h.txNext]
        exact hwindow
      lo_le := by
        rw [List.length_append]
        exact Nat.le_add_right_of_le h.lo_le
      txNext := by
        have hnext : (ent.st.txNext + 1) % ent.mod = (finished.length + 1) % ent.mod := by
          rw [h.txNext, succ_mod_mod]
        rw [List.length_append]
        exact hnext
      lengths := hlengths
      order := by
        rw [Option.toList_none, List.append_nil]
        exact horder
      progress := by
        refine ⟨hunder, ?_⟩
        apply hdone.concat
        rw [Nat.zero_add]
        exact hsegments }

theorem Transferring.first {nextSo : Nat} (hfull : ent.isTxWindowFull = false)
    (hread : ent.sduQueue.read.2 = some sdu) (hpos : 0 < nextSo) (hlt : nextSo < sdu.buf.length)
    (hsegments : Segments ent.cfg.snFieldLength ent.st.txNext sdu.buf 0 pdus nextSo) :
    (({ ({ ent with sduQueue := ent.sduQueue.read.1 } : RlcTxAmEntity).addToWindow sdu with
        snUnderSegmentation := ent.st.txNext } : RlcTxAmEntity).storeProgress ent.st.txNext
      { sdu := sdu.buf, isRetx := sdu.isRetx, pdcpSn := sdu.pdcpSn } nextSo).Transferring cfg handed
        (sent ++ pdus) finished (some sdu.buf) lo := by
  obtain ⟨hlen, hlengths, horder⟩ := h.read hread
  have hwindow := (h.window.add (shape ent) (isTxWindowFull_room h hfull)
    { sdu := sdu.buf, isRetx := sdu.isRetx, pdcpSn := sdu.pdcpSn }).set (shape ent) h.lo_le
      (Nat.lt_succ_self _)
      { sdu := sdu.buf, isRetx := sdu.isRetx, pdcpSn := sdu.pdcpSn, nextSo }
  rw [h.txNext] at hsegments
  obtain ⟨-, hdone⟩ := h.progress
  rw [storeProgress, if_neg (Nat.ne_of_lt hlt)]
  exact
    { h with
      window := by
        rw [setSduInfo, addToWindow, setSduInfo, h.txNext]
        exact hwindow
      lengths := hlengths
      order := horder
      progress := by
        refine ⟨h.txNext, { sdu := sdu.buf, isRetx := sdu.isRetx, pdcpSn := sdu.pdcpSn, nextSo }, sent,
          pdus, ?_, rfl, hpos, hlt, hlen, rfl, hdone, hsegments⟩
        rw [setSduInfo, h.txNext]
        exact (CircularMap.get?_overwrite _ _ _ _).trans (if_pos rfl) }

end

theorem dataPart_under (h : ent'.dataPart = ent.dataPart) (sn : Nat) :
    ({ ent' with snUnderSegmentation := sn } : RlcTxAmEntity).dataPart =
      ({ ent with snUnderSegmentation := sn } : RlcTxAmEntity).dataPart := by
  have hpart := congrArg (fun part : RlcTxAmEntity => { part with snUnderSegmentation := sn }) h
  exact hpart

theorem Transferring.built (h : ent.Transferring cfg handed sent finished none lo)
    (hfull : ent.isTxWindowFull = false) (hread : ent.sduQueue.read.2 = some sdu)
    (hne : sdu.buf ≠ []) (hgrant : ent.headMinSize < grantLen) :
    ∃ ent' pdu finished' current',
      ({ ent with sduQueue := ent.sduQueue.read.1 } : RlcTxAmEntity).buildSdu grantLen sdu =
        .ok (ent', pdu) ∧
      Emitted ent ent' grantLen pdu ∧
      ent'.Transferring cfg handed (sent ++ dataPdus pdu) finished' current' lo := by
  obtain ⟨hlen, -, -⟩ := h.read hread
  have hpos : 0 < sdu.buf.length := List.length_pos_of_ne_nil hne
  have habsent : ({ ent with sduQueue := ent.sduQueue.read.1 } : RlcTxAmEntity).hasSn
      ent.st.txNext = false := by
    have hget : ent.txWindow.get? (finished.length % ent.mod) = none :=
      h.window.get?_hi (shape ent) (isTxWindowFull_room h hfull)
    rw [← h.txNext] at hget
    rw [hasSn, CircularMap.contains, hget]
    rfl
  have hdata := @acceptSdu_dataPart { ent with sduQueue := ent.sduQueue.read.1 } sdu
  have hqueue : ({ ent with sduQueue := ent.sduQueue.read.1 } : RlcTxAmEntity).headMinSize =
      ent.headMinSize := rfl
  rw [buildSdu_eq habsent, hqueue]
  generalize hent : ({ ent with sduQueue := ent.sduQueue.read.1 } : RlcTxAmEntity).acceptSdu sdu = accepted
    at hdata ⊢
  have htxNext : accepted.st.txNext = ent.st.txNext := by
    have hpart := congrArg (fun part => part.st.txNext) hdata
    exact hpart
  have hcfg : accepted.cfg = ent.cfg := by
    have hpart := congrArg (fun part => part.cfg) hdata
    exact hpart
  have hmin : accepted.headMinSize = ent.headMinSize := by
    rw [headMinSize, hcfg]
    rfl
  have hmod : accepted.mod = ent.mod := by
    rw [mod, hcfg]
    rfl
  by_cases hfits : sdu.buf.length + ent.headMinSize ≤ grantLen
  · have hpolled := incrementTxNext_dataPart
      ((getPollingBit_dataPart accepted.st.txNext false 0).trans hdata)
    have hbuild := @buildFullSdu_eq accepted
      { sdu := sdu.buf, isRetx := sdu.isRetx, pdcpSn := sdu.pdcpSn } grantLen [] hpos (hmin ▸ hfits)
    rw [if_pos hfits, hbuild]
    refine ⟨_, _, _, _, rfl, ⟨?_, ?_⟩, (h.full hfull hread ?_).congr hpolled⟩
    · rw [rangePdu_congr hcfg htxNext, length_rangePdu (Nat.le_of_eq (Nat.zero_add _)), if_pos rfl,
        Nat.add_comm]
      exact hfits
    · rw [endsSdu_rangePdu, Nat.zero_add, decide_eq_true rfl, if_pos rfl]
      exact txNext_congr hpolled
    · rw [rangePdu_congr hcfg htxNext]
      have hsegments := @segments_rangePdu ent
        (accepted.getPollingBit accepted.st.txNext false 0).2 0 sdu.buf.length _ sdu.buf hpos
        (Nat.le_of_eq (Nat.zero_add _)) rfl
      rw [Nat.zero_add] at hsegments
      exact hsegments
  · have hpolled := storeProgress_dataPart
      ((getPollingBit_dataPart accepted.st.txNext false (grantLen - accepted.headMinSize)).trans
        (dataPart_under hdata accepted.st.txNext))
      accepted.st.txNext { sdu := sdu.buf, isRetx := sdu.isRetx, pdcpSn := sdu.pdcpSn }
      (grantLen - accepted.headMinSize)
    have hbuild := @buildFirstSduSegment_eq accepted
      { sdu := sdu.buf, isRetx := sdu.isRetx, pdcpSn := sdu.pdcpSn } grantLen
      (grantLen - accepted.headMinSize) rfl hlen (hmin ▸ hgrant) (hmin ▸ Nat.lt_of_not_le hfits) rfl
    have hpayload : 0 < grantLen - accepted.headMinSize := by omega
    have hlt : grantLen - accepted.headMinSize < sdu.buf.length := by omega
    rw [if_neg hfits, hbuild]
    rw [htxNext] at hpolled ⊢
    refine ⟨_, _, _, _, rfl, ⟨?_, ?_⟩, (h.first hfull hread hpayload hlt ?_).congr hpolled⟩
    · have hle : 0 + (grantLen - accepted.headMinSize) ≤ sdu.buf.length := by omega
      rw [rangePdu_congr hcfg htxNext, length_rangePdu hle, if_pos rfl]
      omega
    · rw [endsSdu_rangePdu, Nat.zero_add, decide_eq_false (Nat.ne_of_lt hlt), if_neg Bool.false_ne_true]
      rw [txNext_congr hpolled, txNext_storeProgress, if_neg (Nat.ne_of_lt hlt)]
      rfl
    · rw [rangePdu_congr hcfg htxNext]
      have hsegments := @segments_rangePdu ent
        (({ accepted with snUnderSegmentation := ent.st.txNext } : RlcTxAmEntity).getPollingBit
          ent.st.txNext false (grantLen - accepted.headMinSize)).2
        0 (grantLen - accepted.headMinSize) _ sdu.buf hpayload (by omega) rfl
      rw [Nat.zero_add] at hsegments
      exact hsegments

theorem Transferring.requeue {q : RlcSduQueue} {handed' : List (List UInt8)}
    (h : ent.Transferring cfg handed sent finished current lo)
    (hlengths : ∀ sdu ∈ q.queue, sdu.buf.length < 2 ^ 32)
    (horder : (finished ++ current.toList ++ q.queue.map RlcSdu.buf).Sublist handed') :
    ({ ent with sduQueue := q } : RlcTxAmEntity).Transferring cfg handed' sent finished current lo :=
  { h with
    lengths := hlengths
    order := horder
    progress := by
      cases current with
      | none => exact h.progress
      | some sdu => exact h.progress }

theorem Transferring.shrink {q : RlcSduQueue} (h : ent.Transferring cfg handed sent finished current lo)
    (hsublist : q.queue.Sublist ent.sduQueue.queue) :
    ({ ent with sduQueue := q } : RlcTxAmEntity).Transferring cfg handed sent finished current lo := by
  apply h.requeue (fun sdu hsdu => h.lengths sdu (hsublist.subset hsdu))
  exact ((List.Sublist.refl _).append (hsublist.map RlcSdu.buf)).trans h.order

theorem Transferring.pullNewPdu (h : ent.Transferring cfg handed sent finished none lo)
    (hne : ent.takesSdu grantLen = true → ∀ sdu, ent.sduQueue.read.2 = some sdu → sdu.buf ≠ []) :
    ∃ ent' pdu finished' current', ent.pullNewPdu grantLen = .ok (ent', pdu) ∧
      Emitted ent ent' grantLen pdu ∧
      ent'.Transferring cfg handed (sent ++ dataPdus pdu) finished' current' lo := by
  have hnothing : ∃ ent' pdu finished' current',
      (Except.ok (ent, none) : Except TxAmFault _) = .ok (ent', pdu) ∧ Emitted ent ent' grantLen pdu ∧
        ent'.Transferring cfg handed (sent ++ dataPdus pdu) finished' current' lo := by
    refine ⟨ent, none, finished, none, rfl, ⟨Nat.zero_le _, rfl⟩, ?_⟩
    have hnone : sent ++ dataPdus none = sent := List.append_nil sent
    rw [hnone]
    exact h
  rw [RlcTxAmEntity.pullNewPdu]
  split
  · exact hnothing
  · rw [buildNewPdu]
    split
    · exact hnothing
    · rename_i hgrant
      split
      · exact hnothing
      · rename_i hfull
        rw [Nat.not_le] at hgrant
        rw [Bool.not_eq_true] at hfull
        rw [takesSdu, decide_eq_true hgrant, hfull] at hne
        have hsuffix := ent.sduQueue.queue_read
        have hbuilt := fun sdu hread => h.built hfull hread (hne rfl sdu hread) hgrant
        generalize ent.sduQueue.read = read at hsuffix hbuilt ⊢
        obtain ⟨queue, sdu⟩ := read
        cases sdu with
        | none =>
          refine ⟨_, none, finished, none, rfl, ⟨Nat.zero_le _, rfl⟩, ?_⟩
          have hnone : sent ++ dataPdus none = sent := List.append_nil sent
          rw [hnone]
          exact h.shrink hsuffix.sublist
        | some sdu => exact hbuilt sdu rfl

theorem ne_invalidRlcSn (ent : RlcTxAmEntity) (k : Nat) : k % ent.mod ≠ invalidRlcSn := by
  have hle : ent.mod ≤ 2 ^ 18 := by
    rw [mod]
    cases ent.cfg.snFieldLength <;> decide
  have hlt : k % ent.mod < ent.mod := Nat.mod_lt _ ent.cfg.snFieldLength.modulus.pos
  rw [invalidRlcSn]
  omega

theorem Transferring.pull (h : ent.Transferring cfg handed sent finished current lo)
    (hsafe : ent.SegmentationSafe (.pullPdu grantLen)) :
    ∃ ent' pdu finished' current', ent.pullPdu grantLen = .ok (ent', pdu) ∧
      Emitted ent ent' grantLen pdu ∧
      ent'.Transferring cfg handed (sent ++ dataPdus pdu) finished' current' lo := by
  have hempty : ent.retxQueue.empty = true := h.noRetx.empty_eq
  rw [pullPdu, if_neg (by rw [h.notReached]; exact Bool.false_ne_true),
    if_neg (by rw [h.noStatus]; exact Bool.false_ne_true), hempty, if_neg Bool.noConfusion]
  obtain ⟨hso, hne⟩ := hsafe
  cases current with
  | none =>
    have hunder := h.progress.1
    rw [if_neg (not_not.mpr hunder)]
    exact h.pullNewPdu (hne hunder)
  | some sdu =>
    obtain ⟨hunder, info, -, -, hinfo, -⟩ := h.progress
    rw [← hunder] at hinfo
    obtain ⟨ent', pdu, finished', current', hbuild, hpulled⟩ :=
      h.continued hinfo fun hgrant => hso hgrant info hinfo
    have hne : ent.snUnderSegmentation ≠ invalidRlcSn := by
      rw [hunder]
      exact ne_invalidRlcSn ent _
    refine ⟨ent', pdu, finished', current', ?_, hpulled⟩
    rw [if_pos hne, hinfo]
    exact congrArg Except.ok hbuild

theorem Transferring.handleSdu {sduBuf : List UInt8} (isRetx : Bool)
    (h : ent.Transferring cfg handed sent finished current lo) (hlen : sduBuf.length < 2 ^ 32) :
    (ent.handleSdu sduBuf isRetx).1.Transferring cfg (handed ++ [sduBuf]) sent finished current lo := by
  rw [RlcTxAmEntity.handleSdu]
  apply h.requeue
  · intro sdu hsdu
    rw [RlcSduQueue.queue_write, List.mem_append] at hsdu
    rcases hsdu with hold | hnew
    · exact h.lengths sdu hold
    · split at hnew
      · rw [List.mem_singleton.mp hnew]
        exact hlen
      · cases hnew
  · rw [RlcSduQueue.queue_write, List.map_append, ← List.append_assoc]
    apply h.order.append
    split
    · exact List.Sublist.refl _
    · exact List.nil_sublist _

theorem dropAbsentRetx_empty (hempty : ent.retxQueue.Holds []) :
    dropAbsentRetx ent.retxQueue.size ent = ent := by
  have hsize : ent.retxQueue.size = 0 := by
    rw [RlcRetxQueue.size, hempty]
    rfl
  rw [hsize, dropAbsentRetx]

variable (h : ent.Transferring cfg handed sent finished current lo)
include h

theorem Transferring.getBufferState :
    ent.getBufferState.1.Transferring cfg handed sent finished current lo := by
  rw [RlcTxAmEntity.getBufferState]
  simp only
  split
  · have hfront := h.shrink (q := ent.sduQueue.front.1) ent.sduQueue.queue_front.sublist
    rw [dropAbsentRetx_empty hfront.noRetx]
    exact hfront
  · rw [dropAbsentRetx_empty h.noRetx]
    exact h

theorem Transferring.acked (hlt : lo < finished.length) : ({ ent with
        txWindow := ent.txWindow.erase (lo % ent.mod)
        st := { ent.st with txNextAck := (lo + 1) % ent.mod } } : RlcTxAmEntity).Transferring cfg handed sent
      finished current (lo + 1) where
  __ := h
  window := h.window.erase (shape ent) (by omega)
  lo_le := hlt
  txNextAck := rfl
  progress := by
    cases current with
    | none => exact h.progress
    | some sdu =>
      obtain ⟨hunder, info, done, own, hinfo, hrest⟩ := h.progress
      have hle : finished.length + 1 ≤ lo + ent.amWindowSize := h.window.le
      have htwo := (shape ent).two_windows
      have hget : (ent.txWindow.erase (lo % ent.mod)).get? (finished.length % ent.mod) =
          if finished.length = lo then none else ent.txWindow.get? (finished.length % ent.mod) :=
        get?_erase_near h.lo_le (by omega) (Nat.le_refl lo) (by omega)
      refine ⟨hunder, info, done, own, ?_, hrest⟩
      exact hget.trans ((if_neg (Nat.ne_of_gt hlt)).trans hinfo)

theorem Transferring.processAcks {stopSn turns d : Nat} {sns : DeliveredSns} (hstop : rebase ent.mod lo stopSn = d)
    (hd : lo + d ≤ finished.length) :
    ∃ lo', (RlcTxAmEntity.processAcks stopSn turns (lo % ent.mod) ent sns).1.Transferring cfg handed sent
      finished current lo' := by
  induction turns generalizing ent lo d sns with
  | zero => exact ⟨lo, h⟩
  | succ turns ih =>
    rw [RlcTxAmEntity.processAcks]
    split
    · rename_i hmore
      cases hget : ent.txWindow.get? (lo % ent.mod) with
      | none => exact ⟨lo, h⟩
      | some info =>
        have hm := (shape ent).modulus
        have hbase : ent.txModBase stopSn = d := by
          rw [txModBase, h.txNextAck, rebase_mod_base hm, hstop]
        rw [hbase] at hmore
        have hpos : 1 ≤ d := Nat.zero_lt_of_lt hmore
        have hnext : rebase ent.mod (lo + 1) stopSn = d - 1 := by
          rw [rebase_advance hm hm.pos, hstop, if_pos hpos]
        dsimp only
        rw [succ_mod_mod]
        exact ih (h.acked (by omega)) hnext (by omega)
    · exact ⟨lo, h⟩

theorem Transferring.rewindRetx : ent.rewindRetx.Transferring cfg handed sent finished current lo := by
  have hsize : ent.retxQueue.size = 0 := by
    rw [RlcRetxQueue.size, h.noRetx]
    rfl
  have hdata : ent.rewindRetx.dataPart = ent.dataPart := by
    rw [RlcTxAmEntity.rewindRetx, hsize, clearRetxQueue]
    rfl
  exact h.congr hdata

theorem Transferring.processStatus {status : RlcAmStatusPdu} (hnacks : status.nacks = [])
    (hack : ent.txModBase status.ackSn ≤ ent.txModBase ent.st.txNext) :
    ∃ ent' lo', ent.processStatus status = .ok ent' ∧ ent'.st.txNext = ent.st.txNext ∧
      ent'.Transferring cfg handed sent finished current lo' := by
  have hm := (shape ent).modulus
  have hle : finished.length ≤ lo + ent.amWindowSize :=
    Nat.le_trans (Nat.le_add_right _ _) h.window.le
  have htwo := (shape ent).two_windows
  have hroom : finished.length < lo + ent.mod := by
    have hpos := (shape ent).pos
    omega
  have hlo := h.lo_le
  have hnext : ent.txModBase ent.st.txNext = finished.length - lo := by
    rw [txModBase, h.txNextAck, h.txNext]
    exact rebase_lift hm hlo hroom
  rw [hnext, txModBase, h.txNextAck, rebase_mod_base hm] at hack
  have hstopped : (ent.stopPollRetransmitTimer status.ackSn).dataPart = ent.dataPart := by
    rw [stopPollRetransmitTimer]
    split <;> rfl
  have hmod : (ent.stopPollRetransmitTimer status.ackSn).mod = ent.mod := by
    have hpart := congrArg (fun part => part.mod) hstopped
    exact hpart
  have hstart := h.congr hstopped
  have hstop : rebase (ent.stopPollRetransmitTimer status.ackSn).mod lo status.ackSn =
      rebase ent.mod lo status.ackSn := by
    rw [hmod]
  obtain ⟨lo', hacked⟩ := @Transferring.processAcks _ _ _ _ _ _ _ hstart status.ackSn
    ((ent.stopPollRetransmitTimer status.ackSn).txModBase status.ackSn) _ {} hstop (by omega)
  rw [← hstart.txNextAck] at hacked
  have hacks : ((ent.stopPollRetransmitTimer status.ackSn).handleAcks status).Transferring cfg handed
      sent finished current lo' := by
    have hhandled : ((ent.stopPollRetransmitTimer status.ackSn).handleAcks status).dataPart =
        (RlcTxAmEntity.processAcks status.ackSn
          ((ent.stopPollRetransmitTimer status.ackSn).txModBase status.ackSn)
          (ent.stopPollRetransmitTimer status.ackSn).st.txNextAck
          (ent.stopPollRetransmitTimer status.ackSn) {}).1.dataPart := by
      rw [handleAcks, hnacks]
      rfl
    exact hacked.congr hhandled
  have hrewound := hacks.rewindRetx.getBufferState
  refine ⟨_, lo', ?_, ?_, hrewound⟩
  · rw [RlcTxAmEntity.processStatus, hnacks]
    rfl
  · rw [hrewound.txNext, h.txNext, mod, mod, hrewound.cfg_eq, h.cfg_eq]

theorem Transferring.step {event : TxAmEvent}
    (hnew : ent.OnlyNewData event) (hsafe : ent.SegmentationSafe event) :
    ∃ ent' pdu finished' current' lo', ent.step event = .ok (ent', pdu) ∧
      Emitted ent ent' event.grantLen pdu ∧
      ent'.Transferring cfg (TxAmHistory.hand handed event) (sent ++ dataPdus pdu) finished' current'
        lo' := by
  have hnone : sent ++ dataPdus none = sent := List.append_nil sent
  cases event with
  | handleSdu sduBuf isRetx =>
    refine ⟨_, none, finished, current, lo, rfl, ⟨Nat.zero_le _, rfl⟩, ?_⟩
    rw [hnone]
    exact h.handleSdu isRetx hsafe
  | discardSdu pdcpSn =>
    refine ⟨_, none, finished, current, lo, rfl, ⟨Nat.zero_le _, rfl⟩, ?_⟩
    rw [hnone]
    apply h.shrink
    rw [RlcSduQueue.queue_tryDiscard]
  | pullPdu grantLen =>
    obtain ⟨ent', pdu, finished', current', hpull, hemitted, hnext⟩ := h.pull hsafe
    exact ⟨ent', pdu, finished', current', lo, hpull, hemitted, hnext⟩
  | statusPdu status =>
    obtain ⟨hnacks, hack⟩ := hnew
    have hresult : ∃ ent' lo', ent.handleStatusPdu status = .ok ent' ∧
        ent'.st.txNext = ent.st.txNext ∧
        ent'.Transferring cfg handed sent finished current lo' := by
      rw [handleStatusPdu, hnacks]
      split
      · exact ⟨ent, lo, rfl, rfl, h⟩
      · split
        · exact ⟨ent.notify .protocolFailure, lo, rfl, rfl, h.congr rfl⟩
        · exact h.processStatus hnacks hack
    obtain ⟨ent', lo', hhandled, htxNext, hnext⟩ := hresult
    refine ⟨ent', none, finished, current, lo', ?_, ⟨Nat.zero_le _, htxNext⟩, ?_⟩
    · rw [RlcTxAmEntity.step, hhandled]
      rfl
    · rw [hnone]
      exact hnext
  | pollRetransmitExpiry =>
    have hexpired : ∃ running, ent.expirePollRetransmit = .ok { ent with pollRetransmitTimerRunning := running } := by
      rw [RlcTxAmEntity.expirePollRetransmit]
      split
      · rename_i hrunning
        rw [OnlyNewData, expiryRetransmits, hrunning, Bool.true_and, Bool.and_eq_false_iff,
          Bool.not_eq_false'] at hnew
        refine ⟨false, ?_⟩
        rw [onExpiredPollRetransmitTimer]
        split
        · rename_i hforced
          exact if_pos (hnew.resolve_left (Bool.not_eq_false _ ▸ hforced))
        · rfl
      · exact ⟨_, rfl⟩
    obtain ⟨running, hexpired⟩ := hexpired
    refine ⟨{ ent with pollRetransmitTimerRunning := running }, none, finished, current, lo, ?_,
      ⟨Nat.zero_le _, rfl⟩, ?_⟩
    · rw [RlcTxAmEntity.step, hexpired]
      rfl
    · rw [hnone]
      exact h.congr rfl
  | bufferStateUpdate =>
    have hnext := h.getBufferState
    refine ⟨_, none, finished, current, lo, rfl, ⟨Nat.zero_le _, ?_⟩, ?_⟩
    · have htxNext : ent.getBufferState.1.st.txNext = ent.st.txNext := by
        rw [hnext.txNext, h.txNext, mod, mod, hnext.cfg_eq, h.cfg_eq]
      exact htxNext
    · rw [hnone]
      exact hnext
  | statusReport required pdu => exact absurd hnew id
  | stop =>
    refine ⟨_, none, finished, current, lo, rfl, ⟨Nat.zero_le _, rfl⟩, ?_⟩
    rw [hnone]
    exact
      { h with
        progress := by
          cases current with
          | none => exact h.progress
          | some sdu => exact h.progress }

end Transferring

theorem transferring_create (cfg : RlcTxAmConfig) :
    (create cfg).Transferring cfg [] [] [] none 0 where
  cfg_eq := rfl
  window := snInterval_empty
  lo_le := Nat.le_refl 0
  txNextAck := (Nat.zero_mod _).symm
  txNext := (Nat.zero_mod _).symm
  noRetx := rfl
  noStatus := rfl
  notReached := rfl
  lengths := nofun
  order := List.Sublist.refl _
  progress := ⟨rfl, rfl⟩

/-- The events of a run that only sends new data, with SDUs that can be segmented. -/
def SegmentationGuard (h : TxAmHistory) (event : TxAmEvent) : Prop :=
  h.ent.OnlyNewData event ∧ h.ent.SegmentationSafe event

instance (h : TxAmHistory) (event : TxAmEvent) : Decidable (SegmentationGuard h event) :=
  inferInstanceAs (Decidable (_ ∧ _))

theorem reaches_transferring {cfg : RlcTxAmConfig} {h : TxAmHistory}
    (hreach : Reaches TxAmHistory.step SegmentationGuard { ent := create cfg } h) :
    ∃ finished current lo, h.ent.Transferring cfg h.handed h.sent finished current lo := by
  refine hreach.invariant
    (I := fun h => ∃ finished current lo, h.ent.Transferring cfg h.handed h.sent finished current lo)
    ⟨[], none, 0, transferring_create cfg⟩ ?_
  intro h event h' hinv hguard hstep
  obtain ⟨finished, current, lo, htransferring⟩ := hinv
  obtain ⟨ent', pdu, finished', current', lo', hevent, -, hnext⟩ :=
    htransferring.step hguard.1 hguard.2
  rw [TxAmHistory.step, hevent] at hstep
  cases hstep
  exact ⟨finished', current', lo', hnext⟩

/-- A bearer with SNs of 12 bits that polls only when nothing is left. -/
def shortSnConfig : RlcTxAmConfig where
  snFieldLength := .size12bits
  pdcpSnLen := .size12bits
  tPollRetx := 45
  maxRetxThresh := 4
  pollPdu := -1
  pollByte := -1
  queue := { capacity := 8, byteLimit := 1000 }

def txAmFault? : Except TxAmFault (RlcTxAmEntity × Option TxAmPdu) → Option TxAmFault
  | .ok _ => none
  | .error fault => some fault

end RlcTxAmEntity
end Srsran.Rlc
