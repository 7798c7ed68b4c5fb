import Srsran.Rlc.TxAmTransfers

/-! The polling counters of the AM transmitter over runs of SDUs and grants. -/
namespace Srsran.Rlc
open Runs

/-- The numbers of PDUs and of their data bytes behind the last PDU with a poll. -/
def unpolled (sent : List AmdPdu) : Nat × Nat :=
  sent.foldl (fun counts pdu =>
    if pdu.1.p = 1 then (0, 0) else (counts.1 + 1, counts.2 + pdu.2.length)) (0, 0)

def TxAmEvent.isSduOrGrant : TxAmEvent → Bool
  | .handleSdu _ _ | .discardSdu _ | .pullPdu _ | .bufferStateUpdate => true
  | _ => false

namespace RlcTxAmEntity
variable {ent ent' : RlcTxAmEntity} {grantLen : Nat}

def segmented? (ent : RlcTxAmEntity) : Option RlcTxAmSduInfo :=
  if ent.snUnderSegmentation = invalidRlcSn then none else ent.txWindow.get? ent.snUnderSegmentation

/-- A poll is due with the PDU of a whole SDU, also without its bytes. -/
def pollDueWithoutBytes (ent : RlcTxAmEntity) (sdu : RlcSdu) : Bool :=
  let taken : RlcTxAmEntity :=
    { ent with snUnderSegmentation := invalidRlcSn, sduQueue := ent.sduQueue.read.1 }
  ((taken.acceptSdu sdu).countNewPdu 0).pollThresholdReached || (taken.acceptSdu sdu).pollForced

/-- No empty SDU is taken from the queue, whole SDUs go with a poll that is due without their bytes, and
the counters do not wrap around. -/
def pollSafe (ent : RlcTxAmEntity) : TxAmEvent → Bool
  | .pullPdu grantLen =>
    ent.st.pduWithoutPoll + 1 < 2 ^ 32 &&
      match ent.segmented? with
      | some info => ent.st.byteWithoutPoll + info.sdu.length < 2 ^ 32
      | none => !ent.takesSdu grantLen || ent.sduQueue.read.2.all fun sdu =>
        0 < sdu.buf.length && ent.st.byteWithoutPoll + sdu.buf.length < 2 ^ 32 &&
          (grantLen < sdu.buf.length + ent.headMinSize || ent.pollDueWithoutBytes sdu)
  | _ => true

/-- The counters have not reached the thresholds that are configured. -/
def Unreached (cfg : RlcTxAmConfig) (counts : Nat × Nat) : Prop :=
  (0 < cfg.pollPdu → counts.1 < cfg.pollPdu.toNat) ∧ (0 < cfg.pollByte → counts.2 < cfg.pollByte.toNat)

theorem unreached_zero (cfg : RlcTxAmConfig) : Unreached cfg (0, 0) :=
  ⟨fun hpos => by omega, fun hpos => by omega⟩

/-- Nothing is retransmitted, and the counters are those of the PDUs. -/
structure Polling (ent : RlcTxAmEntity) (cfg : RlcTxAmConfig) (sent : List AmdPdu) : Prop where
  cfg_eq : ent.cfg = cfg
  noRetx : ent.retxQueue.Holds []
  noStatus : ent.statusProvider.statusReportRequired = false
  counts_eq : (ent.st.pduWithoutPoll, ent.st.byteWithoutPoll) = unpolled sent
  unreached : Unreached cfg (unpolled sent)

/-- The part of the entity that polling depends on. -/
def pollPart (ent : RlcTxAmEntity) : RlcTxAmConfig × RlcRetxQueue × RlcStatusProvider × Nat × Nat :=
  (ent.cfg, ent.retxQueue, ent.statusProvider, ent.st.pduWithoutPoll, ent.st.byteWithoutPoll)

section Polling
variable {cfg : RlcTxAmConfig} {sent : List AmdPdu}

theorem Polling.congr (h : ent.Polling cfg sent) (hpart : ent'.pollPart = ent.pollPart) :
    ent'.Polling cfg sent := by
  rw [pollPart, pollPart, Prod.mk.injEq, Prod.mk.injEq, Prod.mk.injEq] at hpart
  obtain ⟨hcfg, hretx, hstatus, hcounts⟩ := hpart
  exact ⟨hcfg.trans h.cfg_eq, hretx ▸ h.noRetx, hstatus ▸ h.noStatus, hcounts.trans h.counts_eq, h.unreached⟩

theorem Polling.unsent (h : ent.Polling cfg sent) (hpart : ent'.pollPart = ent.pollPart) :
    ent'.Polling cfg (sent ++ dataPdus none) := (List.append_nil sent).symm ▸ h.congr hpart

/-- A PDU that is counted with its data, or carries a poll. -/
theorem Polling.add {ent₁ : RlcTxAmEntity} {sn n : Nat} {header : RlcAmPduHeader} {payload : List UInt8}
    (h : ent.Polling cfg sent) (hpart : ent₁.pollPart = ent.pollPart)
    (hpdu : ent.st.pduWithoutPoll + 1 < 2 ^ 32) (hbytes : ent.st.byteWithoutPoll + n < 2 ^ 32)
    (hp : header.p = (ent₁.getPollingBit sn false n).2)
    (hlen : (ent₁.getPollingBit sn false n).2 = 1 ∨ payload.length = n) :
    (ent₁.getPollingBit sn false n).1.Polling cfg (sent ++ [(header, payload)]) := by
  have h₁ := h.congr hpart
  have hcounts := h.counts_eq
  have hcounts₁ := h₁.counts_eq
  rw [← hcounts, Prod.mk.injEq] at hcounts₁
  have hsent : unpolled (sent ++ [(header, payload)]) =
      if header.p = 1 then (0, 0) else (ent.st.pduWithoutPoll + 1, ent.st.byteWithoutPoll + payload.length) := by
    rw [unpolled, List.foldl_append, ← unpolled, ← hcounts]
    rfl
  rw [hp] at hsent
  rw [getPollingBit] at hlen hsent ⊢
  rw [if_neg Bool.false_ne_true] at hlen hsent ⊢
  split
  · rename_i hdue
    rw [if_pos hdue, if_pos rfl] at hsent
    refine ⟨h₁.cfg_eq, h₁.noRetx, h₁.noStatus, hsent.symm, ?_⟩
    rw [hsent]
    exact unreached_zero cfg
  · rename_i hnone
    rw [if_neg hnone] at hlen hsent
    rw [hlen.resolve_left Nat.zero_ne_one, if_neg Nat.zero_ne_one] at hsent
    simp only [Bool.not_false, Bool.true_and, Bool.or_eq_true, not_or, pollThresholdReached, countNewPdu,
      Bool.and_eq_true, decide_eq_true_eq, not_and, not_le, hcounts₁.1, hcounts₁.2, Nat.mod_eq_of_lt hpdu,
      Nat.mod_eq_of_lt hbytes, h₁.cfg_eq] at hnone
    refine ⟨h₁.cfg_eq, h₁.noRetx, h₁.noStatus, ?_, ?_⟩
    · rw [hsent, countNewPdu, hcounts₁.1, hcounts₁.2, Nat.mod_eq_of_lt hpdu,
        Nat.mod_eq_of_lt hbytes]
    · rw [hsent]
      exact hnone.1

/-- An offset that the header cannot hold comes before the one that is meant. -/
theorem length_segment {sdu : List UInt8} {p so payloadLen grantLen sn : Nat} {si : RlcSiField}
    (hcfg : ent'.cfg = ent.cfg) (hle : so + payloadLen ≤ sdu.length)
    (hgrant : payloadLen ≤ grantLen - ent.headMaxSize) :
    ((byteBufferView sdu (ent'.dataHeader p si sn so).so payloadLen).take
      (grantLen - (rlcAmWriteDataPduHeader (ent'.dataHeader p si sn so)).length)).length = payloadLen := by
  have hso : (ent'.dataHeader p si sn so).so ≤ so := Nat.mod_le _ _
  have hheader : (rlcAmWriteDataPduHeader (ent'.dataHeader p si sn so)).length ≤ ent.headMaxSize := by
    rw [length_rlcAmWriteDataPduHeader, headMaxSize, ← hcfg]
    split
    · exact Nat.le_add_right _ _
    · exact Nat.le_refl _
  rw [List.length_take, length_byteBufferView (by omega)]
  omega

theorem pollPart_storeProgress (sn : Nat) (info : RlcTxAmSduInfo) (nextSo : Nat) :
    (ent.storeProgress sn info nextSo).pollPart = ent.pollPart := by
  rw [storeProgress]
  split <;> rfl

theorem pollPart_acceptSdu (sdu : RlcSdu) : (ent.acceptSdu sdu).pollPart = ent.pollPart := by
  rw [acceptSdu, notifyTransfer]
  split
  · rfl
  · split <;> rfl

variable (h : ent.Polling cfg sent)
include h

theorem Polling.continued {info : RlcTxAmSduInfo} (hpdu : ent.st.pduWithoutPoll + 1 < 2 ^ 32) (hbytes : ent.st.byteWithoutPoll + info.sdu.length < 2 ^ 32) :
    (ent.buildContinuedSduSegment grantLen info).1.Polling cfg
      (sent ++ dataPdus (ent.buildContinuedSduSegment grantLen info).2) := by
  rw [buildContinuedSduSegment]
  split
  · exact h.unsent rfl
  · split
    · exact h.unsent rfl
    · split
      · exact h.unsent rfl
      · rw [Nat.mod_eq_of_lt (by omega : info.sdu.length - info.nextSo < 2 ^ 32)]
        dsimp only
        generalize hpayload : (if info.sdu.length - info.nextSo + ent.headMaxSize ≤ grantLen then
          info.sdu.length - info.nextSo else (grantLen - ent.headMaxSize) % 2 ^ 32) = payloadLen
        have hbounds : 0 < payloadLen ∧ payloadLen ≤ info.sdu.length - info.nextSo ∧
            payloadLen ≤ grantLen - ent.headMaxSize := by
          split at hpayload <;> omega
        obtain ⟨hpos, hrest, hgrant⟩ := hbounds
        generalize hreleased : (if info.sdu.length - info.nextSo + ent.headMaxSize ≤ grantLen then
          ({ ent with snUnderSegmentation := invalidRlcSn } : RlcTxAmEntity) else ent) = ent₁
        have hpart : ent₁.pollPart = ent.pollPart := by
          rw [← hreleased]
          split <;> rfl
        have hcfg := (@getPollingBit_cfg ent₁ ent₁.st.txNext false payloadLen).trans (congrArg Prod.fst hpart)
        have hadd := fun header payload hp hlen => @Polling.add _ _ _ ent₁ ent₁.st.txNext payloadLen header payload h
          hpart hpdu (by omega) hp (.inr hlen)
        generalize ent₁.getPollingBit ent₁.st.txNext false payloadLen = polled at hcfg hadd ⊢
        generalize (if info.sdu.length - info.nextSo + ent.headMaxSize ≤ grantLen then RlcSiField.lastSegment
          else .middleSegment) = si
        have hlen := @length_segment ent polled.1 info.sdu polled.2 info.nextSo payloadLen grantLen
          polled.1.st.txNext si hcfg (by omega) hgrant
        split
        · omega
        · refine (hadd _ _ rfl hlen).congr ?_
          split <;> rfl

variable {r : RlcTxAmEntity × Option TxAmPdu}

theorem Polling.built {sdu : RlcSdu} (hpdu : ent.st.pduWithoutPoll + 1 < 2 ^ 32)
    (hpos : 0 < sdu.buf.length) (hbytes : ent.st.byteWithoutPoll + sdu.buf.length < 2 ^ 32)
    (hdue : sdu.buf.length + ent.headMinSize ≤ grantLen →
      (((ent.acceptSdu sdu).countNewPdu 0).pollThresholdReached || (ent.acceptSdu sdu).pollForced) = true)
    (hgrant : ent.headMinSize < grantLen) (hbuilt : ent.buildSdu grantLen sdu = .ok r) :
    r.1.Polling cfg (sent ++ dataPdus r.2) := by
  have hpart := @pollPart_acceptSdu ent sdu
  have hmin : (ent.acceptSdu sdu).headMinSize = ent.headMinSize :=
    congrArg (fun cfg : RlcTxAmConfig => rlcAmPduHeaderMinSize cfg.snFieldLength) (congrArg Prod.fst hpart)
  cases hsn : ent.hasSn ent.st.txNext with
  | true =>
    rw [buildSdu, if_pos hsn] at hbuilt
    cases hbuilt
  | false =>
    rw [buildSdu_eq hsn] at hbuilt
    cases hbuilt
    split
    · rename_i hwhole
      rw [buildFullSdu_eq hpos (hmin ▸ hwhole)]
      refine (h.add hpart hpdu (by rw [List.length_nil]; omega) rfl (.inl ?_)).congr rfl
      rw [getPollingBit, if_neg Bool.false_ne_true]
      exact congrArg Prod.snd (if_pos (hdue hwhole))
    · rename_i hlarge
      rw [← hmin, not_le] at hlarge
      have hsmall : sdu.buf.length < 2 ^ 32 := by omega
      have hle : grantLen - (ent.acceptSdu sdu).headMinSize ≤ sdu.buf.length := by omega
      rw [buildFirstSduSegment_eq rfl hsmall (hmin ▸ hgrant) hlarge rfl]
      refine Polling.congr ?_ (pollPart_storeProgress _ _ _)
      exact h.add hpart hpdu (by omega) rfl (.inr (length_byteBufferView ((Nat.zero_add _).trans_le hle)))

theorem Polling.pulledNew
    (hsafe : ent.pollSafe (.pullPdu grantLen) = true) (hnone : ent.segmented? = none)
    (hpull : ({ ent with snUnderSegmentation := invalidRlcSn } : RlcTxAmEntity).pullNewPdu grantLen = .ok r) :
    r.1.Polling cfg (sent ++ dataPdus r.2) := by
  simp only [pollSafe, hnone, Bool.and_eq_true, Bool.or_eq_true, decide_eq_true_eq, Option.all_eq_true,
    Bool.not_eq_true'] at hsafe
  obtain ⟨hpdu, hsafe⟩ := hsafe
  rw [pullNewPdu] at hpull
  split at hpull
  · cases hpull
    exact h.unsent rfl
  · rw [buildNewPdu] at hpull
    split at hpull
    · cases hpull
      exact h.unsent rfl
    · rename_i hgrant
      split at hpull
      · cases hpull
        exact h.unsent rfl
      · split at hpull
        · cases hpull
          exact h.unsent rfl
        · rename_i hfull _ queue sdu hread
          rw [Nat.not_le] at hgrant
          rw [Bool.not_eq_true] at hfull
          have htakes : ent.takesSdu grantLen = true :=
            Bool.and_eq_true_iff.mpr ⟨decide_eq_true hgrant, congrArg Bool.not hfull⟩
          obtain ⟨⟨hpos, hbytes⟩, hdue⟩ := hsafe.resolve_left (ne_of_eq_of_ne htakes Bool.noConfusion) sdu
            (congrArg Prod.snd hread)
          have hqueue : ent.sduQueue.read.1 = queue := congrArg Prod.fst hread
          rw [pollDueWithoutBytes, hqueue] at hdue
          have htaken : ({ ent with snUnderSegmentation := invalidRlcSn, sduQueue := queue } :
              RlcTxAmEntity).Polling cfg sent := h.congr rfl
          exact htaken.built hpdu hpos hbytes (fun hwhole => hdue.resolve_left (Nat.not_lt_of_le hwhole))
            hgrant hpull

theorem Polling.pulled
    (hsafe : ent.pollSafe (.pullPdu grantLen) = true) (hpull : ent.pullPdu grantLen = .ok r) :
    r.1.Polling cfg (sent ++ dataPdus r.2) := by
  have hempty : ¬ent.retxQueue.empty = false := by
    rw [RlcRetxQueue.empty, h.noRetx]
    decide
  rw [pullPdu, h.noStatus, if_neg Bool.false_ne_true, if_neg hempty] at hpull
  split at hpull
  · cases hpull
    exact h.unsent rfl
  · split at hpull
    · rename_i hunder
      split at hpull
      · rename_i info hinfo
        have hsome : ent.segmented? = some info := (if_neg hunder).trans hinfo
        simp only [pollSafe, hsome, Bool.and_eq_true, decide_eq_true_eq] at hsafe
        cases hpull
        exact h.continued hsafe.1 hsafe.2
      · rename_i hinfo
        exact h.pulledNew hsafe ((if_neg hunder).trans hinfo) hpull
    · rename_i hunder
      rw [ne_eq, not_not] at hunder
      refine h.pulledNew hsafe (if_pos hunder) ?_
      rw [← hunder]
      exact hpull

theorem Polling.step {event : TxAmEvent}
    (hdomain : event.isSduOrGrant = true) (hsafe : ent.pollSafe event = true) (hstep : ent.step event = .ok r) :
    r.1.Polling cfg (sent ++ dataPdus r.2) := by
  cases event with
  | pullPdu grantLen => exact h.pulled hsafe hstep
  | handleSdu sduBuf isRetx =>
    cases hstep
    exact h.unsent rfl
  | discardSdu pdcpSn =>
    cases hstep
    exact h.unsent rfl
  | bufferStateUpdate =>
    cases hstep
    have hdrop : ∀ ent₁ : RlcTxAmEntity, ent₁.pollPart = ent.pollPart →
        (dropAbsentRetx ent₁.retxQueue.size ent₁).pollPart = ent.pollPart := by
      intro ent₁ hpart
      have hsize := congrArg (fun part => part.2.1.queue.length) hpart
      have hzero : ent₁.retxQueue.size = 0 := hsize.trans (congrArg List.length h.noRetx)
      rw [hzero]
      exact hpart
    exact h.unsent (hdrop _ (by split <;> rfl))
  | statusPdu _ | pollRetransmitExpiry | statusReport _ _ | stop => cases hdomain

end Polling

/-- The counters are the numbers of PDUs and of data bytes since the last poll, and a poll was sent with
the PDU that reached a threshold. -/
def CountsUnpolled (cfg : RlcTxAmConfig) (h : TxAmHistory) : Prop :=
  h.ent.st.pduWithoutPoll = (unpolled h.sent).1 ∧ h.ent.st.byteWithoutPoll = (unpolled h.sent).2 ∧
    Unreached cfg (unpolled h.sent)

theorem pollCounters_exact {cfg : RlcTxAmConfig} {h : TxAmHistory}
    (hreach : Reaches TxAmHistory.step (fun h event => event.isSduOrGrant = true ∧ h.ent.pollSafe event = true)
      { ent := create cfg } h) : CountsUnpolled cfg h := by
  have hpolling : h.ent.Polling cfg h.sent := by
    refine hreach.invariant (I := fun h => h.ent.Polling cfg h.sent)
      ⟨rfl, rfl, rfl, rfl, unreached_zero cfg⟩ ?_
    intro h event h' hpolling hguard hstep
    rw [TxAmHistory.step] at hstep
    split at hstep
    · rename_i hevent
      cases hstep
      exact hpolling.step hguard.1 hguard.2 hevent
    · cases hstep
  have hcounts := Prod.mk.inj hpolling.counts_eq
  exact ⟨hcounts.1, hcounts.2, hpolling.unreached⟩

def pollByteConfig : RlcTxAmConfig := { shortSnConfig with pollByte := 3 }

/-- An SDU in segments of two bytes, of which every second one carries a poll. -/
theorem pollCounters_exact_segments :
    ∃ h : TxAmHistory, h.sent.map (fun pdu => (pdu.1.p, pdu.2.length)) = [(0, 2), (1, 2), (0, 2)] ∧
      CountsUnpolled pollByteConfig h := by
  have hobserved : (runAll (guarded TxAmHistory.step fun h event =>
        event.isSduOrGrant = true ∧ h.ent.pollSafe event = true) { ent := create pollByteConfig }
      [.handleSdu [1, 2, 3, 4, 5, 6, 7, 8] false, .pullPdu 4, .pullPdu 6, .pullPdu 6]).map
      (fun h => h.sent.map fun pdu => (pdu.1.p, pdu.2.length)) = some [(0, 2), (1, 2), (0, 2)] := by
    decide +kernel
  obtain ⟨h, hrun, hsent⟩ := Option.map_eq_some_iff.mp hobserved
  exact ⟨h, hsent, pollCounters_exact (reaches_of_runGuarded .start hrun)⟩

/-- The bytes of SDUs that are sent whole are not counted: no poll with the second PDU. -/
theorem pollCounters_wholeSdus :
    ∃ h : TxAmHistory, Reaches TxAmHistory.step (fun _ event => event.isSduOrGrant = true)
        { ent := create pollByteConfig } h ∧
      h.sent.map (fun pdu => (pdu.1.p, pdu.2.length)) = [(0, 2), (0, 2)] ∧ h.ent.st.byteWithoutPoll = 0 ∧
      unpolled h.sent = (2, 4) ∧ pollByteConfig.pollByte.toNat ≤ (unpolled h.sent).2 := by
  have hobserved : (runAll (guarded TxAmHistory.step fun _ event => event.isSduOrGrant = true)
        { ent := create pollByteConfig }
      [.handleSdu [1, 2] false, .handleSdu [3, 4] false, .handleSdu [5] false, .pullPdu 9, .pullPdu 9]).map
      (fun h => (h.sent.map fun pdu => (pdu.1.p, pdu.2.length), h.ent.st.byteWithoutPoll, unpolled h.sent)) =
      some ([(0, 2), (0, 2)], 0, (2, 4)) := by
    decide +kernel
  obtain ⟨h, hrun, hobs⟩ := Option.map_eq_some_iff.mp hobserved
  rw [Prod.mk.injEq, Prod.mk.injEq] at hobs
  refine ⟨h, reaches_of_runGuarded .start hrun, hobs.1, hobs.2.1, hobs.2.2, ?_⟩
  rw [hobs.2.2]
  decide

end RlcTxAmEntity
end Srsran.Rlc
