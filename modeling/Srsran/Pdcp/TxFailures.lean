import Srsran.Pdcp.TxWindowTotals

/-! The transmitting PDCP entity stays consistent when handling SDUs fails. -/
namespace Srsran.Pdcp
open Srsran.Adt Checked SecurityEngine
namespace PdcpEntityTx
variable {ent ent' : PdcpEntityTx}

def reachesWindow (ent : PdcpEntityTx) (buf : List UInt8) : Bool :=
  !ent.stopped && !ent.buffering && (ent.cfg.isSrb || decide (ent.checkEarlyDrop buf = .noDrop)) &&
    decide (ent.st.txNext < ent.cfg.maxCount.hard)

/-- The slots of the next SDUs of an SRB hold no SDU. -/
def SlotsFree (ent : PdcpEntityTx) (nofSdus : Nat) : Prop :=
  ent.cfg.isSrb = true → ent.stopped = false → ent.st.txNext < ent.cfg.maxCount.hard →
    ∀ i, i < nofSdus → ent.txWindow.slotFree (ent.st.txNext + i) = true

instance {nofSdus : Nat} : Decidable (SlotsFree ent nofSdus) := inferInstanceAs (Decidable (_ → _))

def protects (engine : SecurityContext → SecurityEngine) (ent : PdcpEntityTx) (idx : Nat) : Bool :=
  match ent.cryptoJobs[idx]?, ent.secEngine with
  | some info, some context =>
    ((engine context).encryptAndProtectIntegrity info.buf (pdcpDataPduHeaderSize ent.cfg.snSize)
      info.count).isOk
  | _, _ => true

/-- There is memory for every header, no engine fails, and nothing concerns the slots or the COUNTs of
SDUs that are not passed on yet. -/
def safeFailing (engine : SecurityContext → SecurityEngine) (ent : PdcpEntityTx) :
    FailureEvent → Bool
  | .handleSdu outcome buf _ =>
    (decide (outcome ≠ .headerPrependFails) || !ent.reachesWindow buf) &&
      (ent.buffering || decide (ent.RoomForSdus 1 ∧ ent.SlotsFree 1))
  | .endBuffering outcomes _ =>
    decide (.headerPrependFails ∉ outcomes) &&
      decide (ent.RoomForSdus ent.sduBuffer.length ∧ ent.SlotsFree ent.sduBuffer.length)
  | .other (.runCryptoJob idx) => protects engine ent idx
  | .other event => ent.safe event
  | _ => true

/-- The COUNT is unused, or the next one follows and the SDU is in the window. -/
def SduEffect (ent ent' : PdcpEntityTx) (buf : List UInt8) : Prop :=
  (ent'.st = ent.st ∧ ent'.txWindow = ent.txWindow) ∨
    (ent.reachesWindow buf = true ∧ ent'.st = { ent.st with txNext := ent.st.txNext + 1 } ∧
      ∃ elem : PdcpTxWindowElement, elem.count = ent.st.txNext ∧ elem.sduLength = buf.length ∧
        ent'.txWindow = ent.txWindow.addSdu elem)

inductive SduEffects : PdcpEntityTx → List (List UInt8) → PdcpEntityTx → Prop where
  | nil (ent : PdcpEntityTx) : SduEffects ent [] ent
  | cons {ent mid ent' : PdcpEntityTx} {buf : List UInt8} {rest : List (List UInt8)} :
      SduEffect ent mid buf → SduEffects mid rest ent' → SduEffects ent (buf :: rest) ent'

def withJobs (cryptoJobs : List PdcpTxBufferInfo) (ent : PdcpEntityTx) : PdcpEntityTx :=
  { ent with cryptoJobs }

def afterCopyFailure (ent : PdcpEntityTx) : PdcpEntityTx :=
  ent.checkMaxCountNotify.startDiscardTimer.notify .protocolFailure

theorem startDiscardTimer_jobs : ent.startDiscardTimer.cryptoJobs = ent.cryptoJobs := by
  obtain ⟨_, heq, _⟩ := @startDiscardTimer_eq ent
  rw [heq]

theorem checkMaxCountNotify_jobs : ent.checkMaxCountNotify.cryptoJobs = ent.cryptoJobs := by
  rw [checkMaxCountNotify]
  split <;> rfl

variable {buf : List UInt8} {now : Nat} {outcome : SduOutcome}

/-- A failure other than that of the header costs the job, or the COUNT stays unused. -/
theorem transmitSduFailing_cases
    (hprepend : outcome ≠ .headerPrependFails ∨ ent.cfg.maxCount.hard ≤ ent.st.txNext) :
    ent.transmitSduFailing outcome buf now = ent.transmitSdu buf now ∨
      ent.transmitSduFailing outcome buf now =
        (ent.transmitSdu buf now).map (withJobs ent.cryptoJobs) ∨
      ent.transmitSduFailing outcome buf now = .ok ent.afterCopyFailure := by
  by_cases hhard : ent.st.txNext ≥ ent.cfg.maxCount.hard
  · left
    rw [transmitSduFailing, transmitSdu, if_pos hhard, if_pos hhard]
  · have hjobs : ent.checkMaxCountNotify.startDiscardTimer.cryptoJobs = ent.cryptoJobs :=
      startDiscardTimer_jobs.trans checkMaxCountNotify_jobs
    rw [transmitSduFailing, transmitSdu, if_neg hhard, if_neg hhard, afterCopyFailure]
    generalize ent.checkMaxCountNotify.startDiscardTimer = mid at hjobs ⊢
    cases outcome with
    | sent =>
      left
      exact if_neg fun hcond => SduOutcome.noConfusion hcond.1
    | deepCopyFails =>
      by_cases hcopies : mid.copiesSdu = true
      · right
        right
        exact if_pos ⟨rfl, hcopies⟩
      · left
        exact if_neg fun hcond => hcopies hcond.2
    | headerPrependFails => exact absurd hprepend (not_or.mpr ⟨fun hne => hne rfl, hhard⟩)
    | cryptoEnqueueFails =>
      right
      left
      dsimp only
      rw [if_neg fun hcond => SduOutcome.noConfusion hcond.1]
      split
      · rfl
      · rw [Except.map, ← hjobs]
        rfl

theorem handleSduFailing_cases {buf : List UInt8} {now : Nat}
    (hprepend : outcome ≠ .headerPrependFails ∨ ent.reachesWindow buf = false) :
    ent.handleSduFailing outcome buf now = ent.handleSdu buf now ∨
      ent.handleSduFailing outcome buf now = (ent.handleSdu buf now).map (withJobs ent.cryptoJobs) ∨
      ent.handleSduFailing outcome buf now = .ok ent.afterCopyFailure := by
  rw [handleSduFailing, handleSdu]
  cases hstopped : ent.stopped with
  | true => exact Or.inl rfl
  | false =>
    cases hbuffering : ent.buffering with
    | true => exact Or.inl rfl
    | false =>
      by_cases hdrop : ent.cfg.isSrb = false ∧ ent.checkEarlyDrop buf ≠ .noDrop
      · left
        simp [hdrop]
      · have hreaches : ent.reachesWindow buf = decide (ent.st.txNext < ent.cfg.maxCount.hard) := by
          rw [reachesWindow, hstopped, hbuffering]
          cases hsrb : ent.cfg.isSrb with
          | true => simp
          | false =>
            have hno : ent.checkEarlyDrop buf = .noDrop := by
              by_contra hne
              exact hdrop ⟨hsrb, hne⟩
            simp [hno]
        rw [hreaches, decide_eq_false_iff_not, Nat.not_lt] at hprepend
        simp only [Bool.false_eq_true, if_false, if_neg hdrop]
        exact transmitSduFailing_cases hprepend

theorem startDiscardTimer_same : ent.startDiscardTimer.st = ent.st ∧
    ent.startDiscardTimer.cfg = ent.cfg ∧ ent.startDiscardTimer.txWindow = ent.txWindow ∧
    ent.startDiscardTimer.stopped = ent.stopped := by
  obtain ⟨_, heq, _⟩ := @startDiscardTimer_eq ent
  rw [heq]
  exact ⟨rfl, rfl, rfl, rfl⟩

theorem transmitSdu_effect (hok : ent.transmitSdu buf now = .ok ent') :
    (ent'.st = ent.st ∧ ent'.txWindow = ent.txWindow) ∨
      (ent.st.txNext < ent.cfg.maxCount.hard ∧ ent'.st = { ent.st with txNext := ent.st.txNext + 1 } ∧
        ∃ elem : PdcpTxWindowElement, elem.count = ent.st.txNext ∧ elem.sduLength = buf.length ∧
          ent'.txWindow = ent.txWindow.addSdu elem) := by
  rw [transmitSdu] at hok
  split at hok
  · cases hok
    exact Or.inl ⟨refuseMaxCount_same.st, refuseMaxCount_same.window⟩
  · rename_i hhard
    rw [Nat.not_le] at hhard
    have hsame := @checkMaxCountNotify_same ent
    obtain ⟨hst, _, hwindow, _⟩ := @startDiscardTimer_same ent.checkMaxCountNotify
    rw [hsame.st] at hst
    rw [hsame.window] at hwindow
    generalize ent.checkMaxCountNotify.startDiscardTimer = mid at hok hst hwindow
    dsimp only at hok
    split at hok
    · cases hok
    · have hlt : mid.st.txNext + 1 < 2 ^ 32 := by
        rw [hst]
        exact Nat.lt_of_le_of_lt hhard ent.cfg.maxCount.hard_lt
      rw [assignCount_eq hlt] at hok
      cases hok
      right
      refine ⟨hhard, ?_, mid.windowElement buf now, ?_, rfl, ?_⟩
      · rw [← hst]
        rfl
      · rw [← hst]
        rfl
      · rw [← hwindow]
        rfl

theorem handleSdu_effect (hok : ent.handleSdu buf now = .ok ent') : SduEffect ent ent' buf := by
  rw [handleSdu] at hok
  split at hok
  · cases hok
    exact Or.inl ⟨rfl, rfl⟩
  · rename_i hstopped
    split at hok
    · split at hok <;> cases hok <;> exact Or.inl ⟨rfl, rfl⟩
    · rename_i hbuffering
      split at hok
      · cases hok
        exact Or.inl ⟨rfl, rfl⟩
      · rename_i hdrop
        obtain hunused | ⟨hhard, hconsumed⟩ := transmitSdu_effect hok
        · exact Or.inl hunused
        · right
          refine ⟨?_, hconsumed⟩
          rw [Bool.not_eq_true] at hstopped hbuffering
          rw [reachesWindow, hstopped, hbuffering, decide_eq_true hhard]
          cases hsrb : ent.cfg.isSrb with
          | true => rfl
          | false =>
            have hno : ent.checkEarlyDrop buf = .noDrop := by
              by_contra hne
              exact hdrop ⟨hsrb, hne⟩
            rw [decide_eq_true hno]
            rfl

/-- State variables and PDUs in order, and totals that are those of the window. -/
structure Sound (ent : PdcpEntityTx) : Prop where
  inv : Inv ent
  inOrder : InOrder False ent
  totals : ent.txWindow.Totals

theorem Sound.same (h : Sound ent) (hs : SameWindow ent ent') (hc : Calm ent ent') : Sound ent' where
  inv := h.inv.same hs
  inOrder := h.inOrder.calm hc
  totals := by
    rw [hs.window]
    exact h.totals

theorem slotFree_txNext (h : Consistent ent) (hslots : SlotsFree ent 1) (hrunning : ent.stopped = false)
    (hhard : ent.st.txNext < ent.cfg.maxCount.hard) : ent.txWindow.slotFree ent.st.txNext = true := by
  cases hsrb : ent.cfg.isSrb with
  | true => exact hslots hsrb hrunning hhard 0 Nat.one_pos
  | false =>
    rw [PdcpTxWindow.slotFree]
    cases hslot : ent.txWindow.txWindow.slots (ent.txWindow.txWindow.getCircularIdx ent.st.txNext) with
    | none => rfl
    | some entry =>
      obtain ⟨count, elem⟩ := entry
      have hget : ent.txWindow.get? count = some elem := CircularMap.slots_eq_some hslot
      have hidx : ent.txWindow.txWindow.getCircularIdx count =
          ent.txWindow.txWindow.getCircularIdx ent.st.txNext :=
        ent.txWindow.txWindow.keyed _ _ _ hslot
      have hlower := h.lowerEdge count elem hget
      have hupper := h.upperEdge count elem hget
      have hbound := h.bound hsrb
      rw [getCircularIdx_eq_mod h.capacity, getCircularIdx_eq_mod h.capacity] at hidx
      exfalso
      cases hsize : ent.cfg.snSize <;> rw [hsize] at hidx hbound <;>
        simp only [pdcpWindowSize] at hidx hbound <;> omega

theorem SduEffect.totals (he : SduEffect ent ent' buf) (h : Sound ent)
    (hlength : buf.length < 2 ^ 32) (hslots : ent.buffering = false → SlotsFree ent 1) :
    ent'.txWindow.Totals := by
  obtain ⟨_, hwindow⟩ | ⟨hreaches, _, elem, hcount, hsdu, hwindow⟩ := he
  · rw [hwindow]
    exact h.totals
  · rw [reachesWindow, Bool.and_eq_true, Bool.and_eq_true, Bool.and_eq_true, Bool.not_eq_true',
      Bool.not_eq_true', decide_eq_true_eq] at hreaches
    obtain ⟨⟨⟨hrunning, hbuffering⟩, _⟩, hhard⟩ := hreaches
    rw [hwindow]
    apply h.totals.addSdu
    · rw [hcount]
      exact slotFree_txNext h.inv.consistent (hslots hbuffering) hrunning hhard
    · rw [hsdu]
      exact hlength

theorem notify_same (notice : TxNotice) : SameWindow ent (ent.notify notice) :=
  ⟨rfl, rfl, rfl, rfl, rfl, rfl⟩

theorem afterCopyFailure_sound (h : Sound ent) : Sound ent.afterCopyFailure ∧
    ent.afterCopyFailure.st = ent.st ∧ ent.afterCopyFailure.txWindow = ent.txWindow ∧
    ent.afterCopyFailure.cfg = ent.cfg ∧ ent.afterCopyFailure.stopped = ent.stopped := by
  have hsame := @checkMaxCountNotify_same ent
  have hlimit : Sound ent.checkMaxCountNotify := h.same hsame checkMaxCountNotify_calm
  obtain ⟨hst, hcfg, hwindow, hstopped⟩ := @startDiscardTimer_same ent.checkMaxCountNotify
  rw [hsame.st] at hst
  rw [hsame.cfg] at hcfg
  rw [hsame.window] at hwindow
  rw [hsame.stopped] at hstopped
  have hstarted : Sound ent.checkMaxCountNotify.startDiscardTimer := by
    refine ⟨hlimit.inv.startDiscardTimer.1, hlimit.inOrder.calm startDiscardTimer_trimmed.calm, ?_⟩
    rw [hwindow]
    exact h.totals
  exact ⟨hstarted.same (notify_same _) (notify_calm rfl), hst, hwindow, hcfg, hstopped⟩

theorem handleSduFailing_ok {buf : List UInt8} {now : Nat} (h : Sound ent)
    (hlength : buf.length < 2 ^ 32)
    (hprepend : outcome ≠ .headerPrependFails ∨ ent.reachesWindow buf = false)
    (hroom : ent.buffering = false → RoomForSdus ent 1)
    (hslots : ent.buffering = false → SlotsFree ent 1) :
    ∃ ent', ent.handleSduFailing outcome buf now = .ok ent' ∧ Sound ent' ∧ SduEffect ent ent' buf ∧
      ent'.cfg = ent.cfg ∧ ent'.stopped = ent.stopped := by
  obtain ⟨sent, hok, hinv, hcfg, hstopped, _⟩ := @handleSdu_ok ent buf now h.inv hroom
  have heffect := handleSdu_effect hok
  have hsent : Sound sent :=
    ⟨hinv, h.inOrder.calm (handleSdu_calm hok), heffect.totals h hlength hslots⟩
  obtain heq | heq | heq := @handleSduFailing_cases ent outcome buf now hprepend
  · rw [heq]
    exact ⟨sent, hok, hsent, heffect, hcfg, hstopped⟩
  · rw [heq, hok]
    refine ⟨_, rfl, hsent.same ⟨rfl, rfl, rfl, rfl, rfl, rfl⟩ ?_, heffect, hcfg, hstopped⟩
    refine calm_of_same ⟨rfl, rfl, rfl, rfl, rfl, rfl⟩ ⟨[], (List.append_nil _).symm, nofun⟩ ?_
      fun _ hmem => Or.inl hmem
    intro info hmem
    right
    rw [hcfg]
    exact h.inOrder.jobs info hmem
  · obtain ⟨hsound, hst, hwindow, hcfg, hstopped⟩ := afterCopyFailure_sound h
    rw [heq]
    exact ⟨_, rfl, hsound, Or.inl ⟨hst, hwindow⟩, hcfg, hstopped⟩

theorem slotFree_addSdu {window : PdcpTxWindow} {snSize : PdcpSnSize} {elem : PdcpTxWindowElement}
    {distance : Nat} (hcapacity : window.txWindow.capacity = pdcpWindowSize snSize)
    (hpos : 0 < distance) (hnear : distance < pdcpWindowSize snSize)
    (h : window.slotFree (elem.count + distance) = true) :
    (window.addSdu elem).slotFree (elem.count + distance) = true := by
  have hother : window.txWindow.getCircularIdx (elem.count + distance) ≠
      window.txWindow.getCircularIdx elem.count := by
    rw [getCircularIdx_eq_mod hcapacity, getCircularIdx_eq_mod hcapacity]
    cases snSize <;> simp only [pdcpWindowSize] at hnear ⊢ <;> omega
  have hsame : (window.addSdu elem).txWindow.getCircularIdx (elem.count + distance) =
      window.txWindow.getCircularIdx (elem.count + distance) := by
    rw [PdcpTxWindow.addSdu, CircularMap.getCircularIdx, CircularMap.capacity_overwrite]
    rfl
  rw [PdcpTxWindow.slotFree, hsame, PdcpTxWindow.addSdu, CircularMap.slots_overwrite,
    Function.update_of_ne hother]
  exact h

theorem SduEffect.slotsFree {nofSdus : Nat} (he : SduEffect ent ent' buf) (hc : Consistent ent)
    (hcfg : ent'.cfg = ent.cfg) (hstopped : ent'.stopped = ent.stopped)
    (hroom : RoomForSdus ent (nofSdus + 1)) (h : SlotsFree ent (nofSdus + 1)) :
    SlotsFree ent' nofSdus := by
  rw [SlotsFree, hcfg, hstopped]
  intro hsrb hrunning hhard i hi
  obtain ⟨hst, hwindow⟩ | ⟨_, hst, elem, hcount, _, hwindow⟩ := he
  · rw [hst] at hhard ⊢
    rw [hwindow]
    exact h hsrb hrunning hhard i (Nat.lt_succ_of_lt hi)
  · rw [hst] at hhard ⊢
    have hbelow : ent.st.txNext < ent.cfg.maxCount.hard := Nat.lt_of_succ_lt hhard
    have hsum := hroom hsrb hrunning hbelow
    have hcrypto := hc.crypto_le
    have hfree := h hsrb hrunning hbelow (i + 1) (Nat.succ_lt_succ hi)
    have hnext : ent.st.txNext + 1 + i = elem.count + (i + 1) := by omega
    dsimp only
    rw [hwindow, hnext]
    apply slotFree_addSdu hc.capacity (Nat.succ_pos i) (by omega)
    rw [hcount]
    exact hfree

theorem SduEffect.room {nofSdus : Nat} (he : SduEffect ent ent' buf) (hcfg : ent'.cfg = ent.cfg)
    (hstopped : ent'.stopped = ent.stopped) (hroom : RoomForSdus ent (nofSdus + 1)) :
    RoomForSdus ent' nofSdus := by
  rw [RoomForSdus, hcfg, hstopped]
  intro hsrb hrunning hhard
  obtain ⟨hst, _⟩ | ⟨_, hst, _⟩ := he
  · rw [hst] at hhard ⊢
    have hsum := hroom hsrb hrunning hhard
    omega
  · rw [hst] at hhard ⊢
    have hsum := hroom hsrb hrunning (Nat.lt_of_succ_lt hhard)
    dsimp only
    omega

theorem handleSdusFailing_ok {outcomes : List SduOutcome} {sdus : List (List UInt8)} (h : Sound ent)
    (hlengths : ∀ buf ∈ sdus, buf.length < 2 ^ 32) (hprepend : .headerPrependFails ∉ outcomes)
    (hroom : RoomForSdus ent sdus.length) (hslots : SlotsFree ent sdus.length) :
    ∃ ent', handleSdusFailing now outcomes sdus ent = .ok ent' ∧ Sound ent' ∧
      SduEffects ent sdus ent' := by
  induction sdus generalizing outcomes ent with
  | nil => exact ⟨ent, rfl, h, .nil ent⟩
  | cons buf rest ih =>
    rw [List.forall_mem_cons] at hlengths
    rw [List.length_cons] at hroom hslots
    have hfirst : outcomes.headD .sent ≠ .headerPrependFails := by
      cases outcomes with
      | nil => nofun
      | cons outcome _ => exact fun heq => hprepend (heq ▸ List.mem_cons_self)
    have hroom1 : RoomForSdus ent 1 := by
      intro hsrb hrunning hhard
      have hsum := hroom hsrb hrunning hhard
      omega
    have hslots1 : SlotsFree ent 1 := by
      intro hsrb hrunning hhard i hi
      exact hslots hsrb hrunning hhard i (by omega)
    obtain ⟨mid, hok, hmid, heffect, hcfg, hstopped⟩ := @handleSduFailing_ok ent
      (outcomes.headD .sent) buf now h hlengths.1 (Or.inl hfirst) (fun _ => hroom1) fun _ => hslots1
    rw [handleSdusFailing, hok, ok_bind]
    obtain ⟨ent', hrest, hsound, heffects⟩ := ih hmid hlengths.2
      (fun hmem => hprepend (List.mem_of_mem_tail hmem)) (heffect.room hcfg hstopped hroom)
      (heffect.slotsFree h.inv.consistent hcfg hstopped hroom hslots)
    exact ⟨ent', hrest, hsound, .cons heffect heffects⟩

variable {idx : Nat}

theorem macAppendFails_sound (h : Sound ent) : Sound (ent.macAppendFails idx) := by
  rw [macAppendFails]
  split
  · exact h
  · have hsame : SameWindow ent { ent with
        cryptoJobs := ent.cryptoJobs.eraseIdx idx
        cryptoResults := ent.cryptoResults ++ [.error .bufferFailure] } :=
      ⟨rfl, rfl, rfl, rfl, rfl, rfl⟩
    refine h.same hsame (calm_of_same hsame ⟨[], (List.append_nil _).symm, by simp⟩
      (fun _ hmem => Or.inl (List.mem_of_mem_eraseIdx hmem)) ?_)
    intro info hmem
    rw [List.mem_append] at hmem
    left
    exact hmem.resolve_right (by simp)

variable {engine : SecurityContext → SecurityEngine}

theorem step_totals {event : TxEvent} (h : ent.txWindow.Totals)
    (henabled : ent.enabledFailing (.other event) = true) (hok : step engine ent event = .ok ent') :
    ent'.txWindow.Totals := by
  cases event with
  | handleSdu buf now => cases henabled
  | endBuffering now => cases henabled
  | beginBuffering =>
    cases hok
    exact h
  | runCryptoJob idx =>
    rw [step, runCryptoJob] at hok
    split at hok
    · cases hok
      exact h
    · obtain ⟨result, _, hok⟩ := bind_ok hok
      cases hok
      exact h
  | loseCryptoJob idx =>
    cases hok
    exact h
  | runResult idx => exact (runResult_routine hok).processed.totals h
  | loseResult idx =>
    cases hok
    exact h
  | cryptoReorderingExpiry => exact (cryptoReorderingTimeout_routine hok).processed.totals h
  | discardExpiry => exact (discardCallback_trimmed hok).routine.processed.totals h
  | statusReport status =>
    cases hok
    exact (handleStatusReport_trimmed status).routine.processed.totals h
  | transmitNotification notifSn => exact (handleTransmitNotification_trimmed hok).routine.processed.totals h
  | deliveryNotification notifSn => exact (handleDeliveryNotification_trimmed hok).routine.processed.totals h
  | retransmitNotification notifSn => exact (handleRetransmitNotification_trimmed hok).routine.processed.totals h
  | deliveryRetransmittedNotification notifSn =>
    exact (handleDeliveryRetransmittedNotification_trimmed hok).routine.processed.totals h
  | desiredBufferSize desiredBs =>
    cases hok
    rw [handleDesiredBufferSizeNotification]
    split <;> exact h
  | configureSecurity secCfg integrityEnabled cipheringEnabled =>
    cases hok
    rw [(configureSecurity_same secCfg integrityEnabled cipheringEnabled).window]
    exact h
  | dataRecovery =>
    cases hok
    rw [dataRecovery, retransmitAllPdus_window]
    exact h
  | reestablish secCfg =>
    cases hok
    exact reestablish_totals h
  | stop =>
    cases hok
    exact stop_routine.processed.totals h

theorem runCryptoJob_ok (h : Inv ent) (hprotects : protects engine ent idx = true) :
    ∃ ent', runCryptoJob engine ent idx = .ok ent' ∧ Inv ent' := by
  obtain hok | hfault := @runCryptoJob_handled ent engine idx h
  · exact hok
  · exfalso
    rw [protects] at hprotects
    rw [runCryptoJob] at hfault
    cases hjob : ent.cryptoJobs[idx]? with
    | none =>
      rw [hjob] at hfault
      cases hfault
    | some info =>
      rw [hjob] at hfault hprotects
      dsimp only at hfault hprotects
      rw [applySecurity, applyCipheringAndIntegrityProtection] at hfault
      cases hengine : ent.secEngine with
      | none =>
        rw [hengine] at hfault
        dsimp only at hfault
        split at hfault <;> cases hfault
      | some context =>
        rw [hengine] at hfault hprotects
        dsimp only at hfault hprotects
        cases hresult : (engine context).encryptAndProtectIntegrity info.buf
            (pdcpDataPduHeaderSize ent.cfg.snSize) info.count with
        | ok pdu =>
          rw [hresult] at hfault
          cases hfault
        | error err =>
          rw [hresult] at hprotects
          cases hprotects

theorem handleSduFailing_safe (h : Sound ent)
    (henabled : ent.enabledFailing (.handleSdu outcome buf now) = true)
    (hsafe : ent.safeFailing engine (.handleSdu outcome buf now) = true) :
    ∃ ent', ent.handleSduFailing outcome buf now = .ok ent' ∧ Sound ent' ∧ SduEffect ent ent' buf := by
  rw [safeFailing, Bool.and_eq_true, Bool.or_eq_true, Bool.or_eq_true, Bool.not_eq_true',
    decide_eq_true_eq] at hsafe
  obtain ⟨hprepend, hroom⟩ := hsafe
  have hconditions : ent.buffering = false → RoomForSdus ent 1 ∧ SlotsFree ent 1 := by
    intro hbuffering
    rw [hbuffering] at hroom
    exact of_decide_eq_true (hroom.resolve_left Bool.false_ne_true)
  obtain ⟨ent', hok, hsound, heffect, _⟩ := @handleSduFailing_ok ent outcome buf now h
    (of_decide_eq_true henabled) hprepend (fun hb => (hconditions hb).1) fun hb => (hconditions hb).2
  exact ⟨ent', hok, hsound, heffect⟩

theorem endBufferingFailing_safe {outcomes : List SduOutcome} (h : Sound ent)
    (henabled : ent.enabledFailing (.endBuffering outcomes now) = true)
    (hsafe : ent.safeFailing engine (.endBuffering outcomes now) = true) :
    ∃ ent', handleSdusFailing now outcomes ent.sduBuffer
        { ent with buffering := false, sduBuffer := [] } = .ok ent' ∧ Sound ent' ∧
      SduEffects { ent with buffering := false, sduBuffer := [] } ent.sduBuffer ent' := by
  rw [safeFailing, Bool.and_eq_true, decide_eq_true_eq, decide_eq_true_eq] at hsafe
  obtain ⟨hprepend, hroom, hslots⟩ := hsafe
  rw [enabledFailing, List.all_eq_true] at henabled
  have hidle : Sound { ent with buffering := false, sduBuffer := [] } :=
    h.same ⟨rfl, rfl, rfl, rfl, rfl, rfl⟩ setBuffer_calm
  exact handleSdusFailing_ok hidle (fun buf hmem => of_decide_eq_true (henabled buf hmem)) hprepend
    hroom hslots

theorem stepFailing_ok {event : FailureEvent} (h : Sound ent)
    (henabled : ent.enabledFailing event = true) (hsafe : ent.safeFailing engine event = true) :
    ∃ ent', stepFailing engine ent event = .ok ent' ∧ Sound ent' := by
  cases event with
  | handleSdu outcome buf now =>
    obtain ⟨ent', hok, hsound, _⟩ := handleSduFailing_safe h henabled hsafe
    exact ⟨ent', hok, hsound⟩
  | endBuffering outcomes now =>
    obtain ⟨ent', hok, hsound, _⟩ := endBufferingFailing_safe h henabled hsafe
    exact ⟨ent', hok, hsound⟩
  | macAppendFails idx => exact ⟨_, rfl, macAppendFails_sound h⟩
  | other event =>
    have hevent : ent.enabled event = true := by
      cases event <;> first | rfl | exact henabled
    have hstep : ∃ ent', step engine ent event = .ok ent' ∧ Inv ent' := by
      by_cases hjob : ∃ idx, event = .runCryptoJob idx
      · obtain ⟨idx, heq⟩ := hjob
        rw [heq] at hsafe ⊢
        exact runCryptoJob_ok h.inv hsafe
      · have hkeeps : ent.safe event = true := by
          cases event with
          | runCryptoJob idx => exact absurd ⟨idx, rfl⟩ hjob
          | _ => exact hsafe
        exact step_ok h.inv hevent hkeeps fun idx heq => hjob ⟨idx, heq⟩
    obtain ⟨ent', hok, hinv⟩ := hstep
    exact ⟨ent', hok, hinv, step_inOrder h.inOrder hevent nofun hok,
      step_totals h.totals henabled hok⟩

/-- The PDUs at the COUNTs that TX_TRANS_CRYPTO passes go out if they wait. -/
def PassesOn (waits : Nat → Prop) (ent ent' : PdcpEntityTx) : Prop :=
  ∃ rest, ent'.notices = ent.notices ++ rest ∧
    ∀ count, ent.st.txTransCrypto ≤ count → count < ent'.st.txTransCrypto → waits count →
      ∃ pdu isRetx generated, TxNotice.newPdu count pdu isRetx generated ∈ rest

variable {waits : Nat → Prop}

theorem PassesOn.trans {waits' : Nat → Prop} {mid : PdcpEntityTx} (h : PassesOn waits ent mid)
    (h' : PassesOn waits' mid ent')
    (hwaits : ∀ count, mid.st.txTransCrypto ≤ count → waits count → waits' count) :
    PassesOn waits ent ent' := by
  obtain ⟨first, hfirst, hout⟩ := h
  obtain ⟨second, hsecond, hout'⟩ := h'
  refine ⟨first ++ second, by rw [hsecond, hfirst, List.append_assoc], ?_⟩
  intro count hge hlt hcount
  by_cases hbelow : count < mid.st.txTransCrypto
  · obtain ⟨pdu, isRetx, generated, hmem⟩ := hout count hge hbelow hcount
    exact ⟨pdu, isRetx, generated, List.mem_append_left _ hmem⟩
  · have hmid : mid.st.txTransCrypto ≤ count := Nat.le_of_not_lt hbelow
    obtain ⟨pdu, isRetx, generated, hmem⟩ := hout' count hmid hlt (hwaits count hmid hcount)
    exact ⟨pdu, isRetx, generated, List.mem_append_right _ hmem⟩

theorem passesOn_of_same (hcrypto : ent'.st.txTransCrypto = ent.st.txTransCrypto)
    (hnotices : ∃ rest, ent'.notices = ent.notices ++ rest) : PassesOn waits ent ent' := by
  obtain ⟨rest, hrest⟩ := hnotices
  refine ⟨rest, hrest, ?_⟩
  intro count hge hlt
  rw [hcrypto] at hlt
  exact absurd hge (Nat.not_le_of_lt hlt)

theorem passOn_passesOn {elem : PdcpTxWindowElement} {isRetx : Bool} :
    PassesOn waits ent (ent.passOn elem isRetx) := by
  refine ⟨[.newPdu ent.st.txTransCrypto elem.pdu isRetx elem.pduIsRetx], rfl, ?_⟩
  intro count hge hlt _
  have heq : count = ent.st.txTransCrypto := Nat.le_antisymm (Nat.le_of_lt_succ hlt) hge
  rw [heq]
  exact ⟨_, _, _, List.mem_singleton.mpr rfl⟩

theorem releaseLoop_passesOn {isRetx : Bool} {turns : Nat}
    (hturns : ent.st.txNext ≤ ent.st.txTransCrypto + turns)
    (hok : releaseLoop isRetx turns ent = .ok ent') :
    PassesOn (fun _ => True) ent ent' ∧ ent.st.txTransCrypto ≤ ent'.st.txTransCrypto ∧
      (ent'.st.txTransCrypto < ent'.st.txNext → ent'.ready ent'.st.txTransCrypto = false) := by
  induction turns generalizing ent with
  | zero =>
    cases hok
    refine ⟨passesOn_of_same rfl ⟨[], (List.append_nil _).symm⟩, Nat.le_refl _, ?_⟩
    intro hlt
    exact absurd hturns (Nat.not_le_of_lt hlt)
  | succ turns ih =>
    rw [releaseLoop] at hok
    split at hok
    · obtain ⟨elem, helem, hok⟩ := bind_ok hok
      split at hok
      · rename_i hempty
        cases hok
        refine ⟨passesOn_of_same rfl ⟨[], (List.append_nil _).symm⟩, Nat.le_refl _, ?_⟩
        intro _
        rw [ready, element_get? helem, Option.any_some, hempty]
        rfl
      · obtain ⟨mid, hmid, hok⟩ := bind_ok hok
        have htrimmed := notifyInTestMode_trimmed hmid
        have hcrypto : mid.st.txTransCrypto = ent.st.txTransCrypto + 1 := htrimmed.txTransCrypto
        have hnext : mid.st.txNext = ent.st.txNext := htrimmed.txNext
        obtain ⟨hrest, hge, hfront⟩ := ih (by rw [hcrypto, hnext]; omega) hok
        obtain ⟨rest, hnotices, _⟩ := htrimmed.notices
        have hfirst : PassesOn (fun _ => True) ent mid :=
          passOn_passesOn.trans (passesOn_of_same htrimmed.txTransCrypto ⟨rest, hnotices⟩)
            fun _ _ _ => trivial
        exact ⟨hfirst.trans hrest fun _ _ _ => trivial, by omega, hfront⟩
    · rename_i hnext
      cases hok
      refine ⟨passesOn_of_same rfl ⟨[], (List.append_nil _).symm⟩, Nat.le_refl _, ?_⟩
      intro hlt
      exact absurd hlt hnext

theorem writeIfReady_passesOn : PassesOn (fun count => ent.ready count = true) ent
      (ent.writeIfReady.setTxTransCrypto (ent.st.txTransCrypto + 1)) ∧
    ∀ count, ent.st.txTransCrypto + 1 ≤ count → ent.ready count = true →
      (ent.writeIfReady.setTxTransCrypto (ent.st.txTransCrypto + 1)).ready count = true := by
  cases hready : ent.ready ent.st.txTransCrypto with
  | true =>
    obtain ⟨elem, hget, hpdu⟩ := ready_iff.mp hready
    have hwritten : ent.writeIfReady = ent.writeDataPdu elem false := by
      rw [PdcpTxWindow.get?] at hget
      rw [writeIfReady, hget]
      exact if_neg fun hempty => hpdu (List.isEmpty_iff.mp hempty)
    rw [hwritten]
    refine ⟨passOn_passesOn, ?_⟩
    intro count hge hcount
    have hset : ((ent.txWindow.setElement ent.st.txTransCrypto
        { elem with pdu := [] }).get? count).any (fun elem => !elem.pdu.isEmpty) = true := by
      rw [get?_setElement hget, if_neg (by omega)]
      exact hcount
    exact hset
  | false =>
    have hkept : ent.writeIfReady = ent := by
      rw [writeIfReady]
      cases hget : ent.txWindow.txWindow.get? ent.st.txTransCrypto with
      | none => rfl
      | some elem =>
        rw [ready, PdcpTxWindow.get?, hget, Option.any_some, Bool.not_eq_false'] at hready
        exact if_pos hready
    rw [hkept]
    refine ⟨⟨[], (List.append_nil _).symm, ?_⟩, fun _ _ hcount => hcount⟩
    intro count hge hlt hcount
    have heq : count = ent.st.txTransCrypto := Nat.le_antisymm (Nat.le_of_lt_succ hlt) hge
    rw [heq, hready] at hcount
    cases hcount

theorem releaseBelowReord_passesOn {turns : Nat} (hlt : ent.st.txTransCrypto + turns < 2 ^ 32) :
    PassesOn (fun count => ent.ready count = true) ent (releaseBelowReord turns ent) ∧
      (releaseBelowReord turns ent).st.txTransCrypto = ent.st.txTransCrypto + turns := by
  induction turns generalizing ent with
  | zero => exact ⟨passesOn_of_same rfl ⟨[], (List.append_nil _).symm⟩, rfl⟩
  | succ turns ih =>
    have hmod : (ent.st.txTransCrypto + 1) % 2 ^ 32 = ent.st.txTransCrypto + 1 :=
      Nat.mod_eq_of_lt (by omega)
    obtain ⟨hfirst, hready⟩ := @writeIfReady_passesOn ent
    have hcrypto : (ent.writeIfReady.setTxTransCrypto (ent.st.txTransCrypto + 1)).st.txTransCrypto =
        ent.st.txTransCrypto + 1 := rfl
    rw [releaseBelowReord, hmod]
    obtain ⟨hrest, hend⟩ := @ih (ent.writeIfReady.setTxTransCrypto (ent.st.txTransCrypto + 1))
      (by rw [hcrypto]; omega)
    refine ⟨hfirst.trans hrest ?_, by rw [hend, hcrypto]; omega⟩
    rw [hcrypto]
    exact hready

/-- If TX_TRANS_CRYPTO waits for a PDU, the crypto reordering timer runs. -/
def WaitsInTime (ent : PdcpEntityTx) : Prop :=
  ent.st.txTransCrypto < ent.st.txNext →
    ent.cryptoReorderingTimerRunning = true ∧ ent.ready ent.st.txTransCrypto = false

theorem updateCryptoReordering_waits
    (hfront : ent.st.txTransCrypto < ent.st.txNext → ent.ready ent.st.txTransCrypto = false) :
    ent.updateCryptoReordering.st.txTransCrypto = ent.st.txTransCrypto ∧
      ent.updateCryptoReordering.notices = ent.notices ∧ WaitsInTime ent.updateCryptoReordering := by
  have hstart : ∀ mid : PdcpEntityTx, mid.st = ent.st → mid.txWindow = ent.txWindow →
      mid.notices = ent.notices →
      ((if mid.cryptoReorderingTimerRunning = false ∧ mid.st.txTransCrypto < mid.st.txNext then
        mid.startCryptoReordering else mid).st.txTransCrypto = ent.st.txTransCrypto ∧
      (if mid.cryptoReorderingTimerRunning = false ∧ mid.st.txTransCrypto < mid.st.txNext then
        mid.startCryptoReordering else mid).notices = ent.notices ∧
      WaitsInTime (if mid.cryptoReorderingTimerRunning = false ∧ mid.st.txTransCrypto < mid.st.txNext
        then mid.startCryptoReordering else mid)) := by
    intro mid hst hwindow hnotices
    have hready : mid.st.txTransCrypto < mid.st.txNext → mid.ready mid.st.txTransCrypto = false := by
      rw [ready, hst, hwindow]
      exact hfront
    have hcrypto : mid.st.txTransCrypto = ent.st.txTransCrypto := by rw [hst]
    split
    · refine ⟨hcrypto, hnotices, ?_⟩
      intro hlt
      exact ⟨rfl, hready hlt⟩
    · rename_i hcond
      refine ⟨hcrypto, hnotices, ?_⟩
      intro hlt
      refine ⟨?_, hready hlt⟩
      by_contra hrunning
      exact hcond ⟨Bool.eq_false_iff.mpr hrunning, hlt⟩
  rw [updateCryptoReordering]
  split
  · exact hstart _ rfl rfl rfl
  · exact hstart _ rfl rfl rfl

/-- An accepted result releases what it can, and the timer runs for what is missing. -/
theorem runResult_waits {info : PdcpTxBufferInfo}
    (hresult : ent.cryptoResults[idx]? = some (.ok info)) (haccepts : ent.acceptsResult info = true)
    (hok : ent.runResult idx = .ok ent') :
    PassesOn (fun _ => True) ent ent' ∧ WaitsInTime ent' := by
  rw [runResult, hresult] at hok
  dsimp only [handleResult] at hok
  have htaken : ({ ent with cryptoResults := ent.cryptoResults.eraseIdx idx }).acceptsResult info =
      true := haccepts
  rw [applyReordering, if_pos htaken] at hok
  obtain ⟨elem, _, hok⟩ := bind_ok hok
  obtain ⟨mid, hmid, hok⟩ := bind_ok hok
  cases hok
  obtain ⟨hout, _, hfront⟩ := releaseLoop_passesOn (by omega) hmid
  obtain ⟨hcrypto, hnotices, hwaits⟩ := updateCryptoReordering_waits hfront
  refine ⟨?_, hwaits⟩
  have hreleased : PassesOn (fun _ => True) ent mid := hout
  exact hreleased.trans (passesOn_of_same hcrypto ⟨[], by rw [hnotices, List.append_nil]⟩)
    fun _ _ _ => trivial

/-- The expiry moves TX_TRANS_CRYPTO over the missing PDUs up to TX_REORD_CRYPTO at least. -/
theorem cryptoReorderingTimeout_skips (h : Inv ent) (hrunning : ent.cryptoReorderingTimerRunning = true)
    (hon : ent.stopped = false) (hok : ent.cryptoReorderingTimeout = .ok ent') :
    PassesOn (fun count => ent.ready count = true) ent ent' ∧
      ent.st.txReordCrypto ≤ ent'.st.txTransCrypto ∧ WaitsInTime ent' := by
  obtain ⟨hlt, hle⟩ := h.timer hrunning
  have hnext := h.consistent.next_lt
  have hdistance : countDistance ent.st.txTransCrypto ent.st.txReordCrypto =
      ent.st.txReordCrypto - ent.st.txTransCrypto :=
    countDistance_of_le (Nat.le_of_lt hlt) (Nat.lt_of_le_of_lt hle hnext)
  rw [cryptoReorderingTimeout] at hok
  dsimp only at hok
  rw [if_neg (by rw [stopCryptoReordering, hon]; exact Bool.false_ne_true)] at hok
  obtain ⟨mid, hmid, hok⟩ := bind_ok hok
  have hstart : ent.stopCryptoReordering.st = ent.st := rfl
  rw [hstart, hdistance] at hmid
  obtain ⟨hbelow, hend⟩ := @releaseBelowReord_passesOn ent.stopCryptoReordering
    (ent.st.txReordCrypto - ent.st.txTransCrypto) (by rw [hstart]; omega)
  rw [hstart] at hend
  generalize releaseBelowReord (ent.st.txReordCrypto - ent.st.txTransCrypto)
    ent.stopCryptoReordering = first at hmid hbelow hend
  obtain ⟨hout, hge, hfront⟩ := releaseLoop_passesOn (by omega) hmid
  have hreleased : PassesOn (fun count => ent.ready count = true) ent mid :=
    hbelow.trans hout fun _ _ _ => trivial
  split at hok
  · cases hok
    exact ⟨hreleased, by dsimp only [startCryptoReordering]; omega, fun hwait => ⟨rfl, hfront hwait⟩⟩
  · rename_i hdone
    cases hok
    exact ⟨hreleased, by omega, fun hwait => absurd hwait hdone⟩

/-- What failures leave behind: totals that are the sums over the window, an unused TX_NEXT, an SDU for
every COUNT up to it that is still to be passed on, and PDUs in order; no event that meets the
conditions ends in a fault. An SDU uses its COUNT with an entry in the window or not at all, and COUNTs
whose PDU never comes are passed over in order. -/
structure FailureConsistent (engine : SecurityContext → SecurityEngine) (ent : PdcpEntityTx) : Prop where
  totals : ent.txWindow.Totals
  nextUnused : ent.txWindow.hasSn ent.st.txNext = false
  accounted : ent.stopped = false → ∀ count, ent.st.txTransCrypto ≤ count → count < ent.st.txNext →
    ent.txWindow.hasSn count = true
  inOrder : Epochs.Ordered TxNotice.startsEpoch TxNotice.Ascending ent.notices
  noFault : ∀ event, ent.enabledFailing event = true → ent.safeFailing engine event = true →
    ∃ ent', stepFailing engine ent event = .ok ent'
  sdu : ∀ outcome buf now ent', ent.enabledFailing (.handleSdu outcome buf now) = true →
    ent.safeFailing engine (.handleSdu outcome buf now) = true →
    ent.handleSduFailing outcome buf now = .ok ent' → SduEffect ent ent' buf
  sdus : ∀ outcomes now ent', ent.enabledFailing (.endBuffering outcomes now) = true →
    ent.safeFailing engine (.endBuffering outcomes now) = true →
    stepFailing engine ent (.endBuffering outcomes now) = .ok ent' →
      SduEffects { ent with buffering := false, sduBuffer := [] } ent.sduBuffer ent'
  waits : ∀ idx info ent', ent.cryptoResults[idx]? = some (.ok info) →
    ent.acceptsResult info = true → ent.runResult idx = .ok ent' →
      PassesOn (fun _ => True) ent ent' ∧ WaitsInTime ent'
  skips : ∀ ent', ent.cryptoReorderingTimerRunning = true → ent.stopped = false →
    ent.cryptoReorderingTimeout = .ok ent' →
      PassesOn (fun count => ent.ready count = true) ent ent' ∧
        ent.st.txReordCrypto ≤ ent'.st.txTransCrypto ∧ WaitsInTime ent'

theorem Sound.failureConsistent (h : Sound ent) : FailureConsistent engine ent where
  totals := h.totals
  nextUnused := by
    cases hnext : ent.txWindow.hasSn ent.st.txNext with
    | false => rfl
    | true =>
      obtain ⟨elem, helem⟩ := Option.isSome_iff_exists.mp hnext
      exact absurd (h.inv.consistent.upperEdge _ elem helem) (Nat.lt_irrefl _)
  accounted := h.inv.consistent.present
  inOrder := h.inOrder.ordered
  noFault := by
    intro event henabled hsafe
    obtain ⟨ent', hok, _⟩ := stepFailing_ok h henabled hsafe
    exact ⟨ent', hok⟩
  sdu := by
    intro outcome buf now ent' henabled hsafe hok
    obtain ⟨taken, htaken, _, heffect⟩ := handleSduFailing_safe h henabled hsafe
    rw [hok] at htaken
    cases htaken
    exact heffect
  sdus := by
    intro outcomes now ent' henabled hsafe hok
    obtain ⟨taken, htaken, _, heffects⟩ := endBufferingFailing_safe h henabled hsafe
    rw [stepFailing, htaken] at hok
    cases hok
    exact heffects
  waits := fun _ _ _ hresult haccepts hok => runResult_waits hresult haccepts hok
  skips := fun _ hrunning hon hok => cryptoReorderingTimeout_skips h.inv hrunning hon hok

theorem setCount_sound (cfg : PdcpTxConfig) (hfn : Nat) {sn : Nat} (hsn : sn < 2 ^ 32) :
    Sound ((create cfg).setCount hfn sn) where
  inv := setCount_inv cfg hfn hsn
  inOrder := setCount_inOrder cfg hfn hsn
  totals := by
    refine ⟨?_, ?_, nofun, pdcpWindowSize_pos cfg.snSize⟩
    · exact (congrArg (· % 2 ^ 32) (CircularMap.total_empty _ _)).symm
    · exact (congrArg (· % 2 ^ 32) (CircularMap.total_empty _ _)).symm

/-- In every run with failures whose steps meet the conditions, every failure leaves a consistent
state. -/
theorem pdcpTx_failuresConsistent {engine : SecurityContext → SecurityEngine} {cfg : PdcpTxConfig}
    {hfn sn : Nat} (hsn : sn < 2 ^ 32)
    (hrun : Runs.Reaches (nextFailing engine) (fun ent event => ent.safeFailing engine event = true)
      ((create cfg).setCount hfn sn) ent) : FailureConsistent engine ent := by
  have hsound : Sound ent := by
    apply hrun.invariant (setCount_sound cfg hfn hsn)
    intro s event s' hs hsafe hnext
    rw [nextFailing] at hnext
    split at hnext
    · rename_i henabled
      obtain ⟨ent', hok, hent'⟩ := stepFailing_ok hs henabled hsafe
      rw [hok] at hnext
      cases hnext
      exact hent'
    · cases hnext
  exact hsound.failureConsistent

/-- An AM bearer whose second SDU is not copied and whose third gets no job. After the expiry the first
and the fourth are passed on. -/
theorem pdcpTx_failuresConsistent_expiry : ∃ ent : PdcpEntityTx,
    (ent.st = { txNext := 3, txTransCrypto := 3, txReordCrypto := 3 } ∧
      ent.notices.filter TxNotice.isNewPdu =
        [.newPdu 0 [0x80, 0, 0xaa] false false, .newPdu 2 [0x80, 2, 0xdd] false false]) ∧
      FailureConsistent (fun _ => disabled) ent := by
  have hobserved : (Runs.runAll (Runs.guarded (nextFailing fun _ => disabled)
        fun ent event => ent.safeFailing (fun _ => disabled) event = true)
      ((create ⟨.drb, .am, .size12bits, some .infinity, false,
        ⟨0xc0000000, 0xfffffffe, by decide⟩, (by rintro ⟨⟩)⟩).setCount 0 0)
      [.other (.configureSecurity ⟨none, [], none, .nea0⟩ false false), .other (.desiredBufferSize 1000),
        .handleSdu .sent [0xaa] 0, .handleSdu .deepCopyFails [0xbb] 0,
        .handleSdu .cryptoEnqueueFails [0xcc] 0, .handleSdu .sent [0xdd] 0, .other (.runCryptoJob 1),
        .other (.runResult 0), .other (.runCryptoJob 0), .other (.runResult 0),
        .other .cryptoReorderingExpiry]).map
      (fun ent => (ent.st, ent.notices.filter TxNotice.isNewPdu)) =
      some ({ txNext := 3, txTransCrypto := 3, txReordCrypto := 3 },
        [.newPdu 0 [0x80, 0, 0xaa] false false, .newPdu 2 [0x80, 2, 0xdd] false false]) := by
    decide +kernel
  obtain ⟨ent, hrun, hent⟩ := Option.map_eq_some_iff.mp hobserved
  rw [Prod.mk.injEq] at hent
  exact ⟨ent, hent, pdcpTx_failuresConsistent (by decide) (Runs.reaches_of_runGuarded .start hrun)⟩

def failingEngine : SecurityEngine where
  encryptAndProtectIntegrity _ _ _ := .error .cipheringFailure
  decryptAndVerifyIntegrity _ _ _ := .error .cipheringFailure
  keepsHeader := nofun

/-- After a failure of the header the SDU is in the window at TX_NEXT, and the next SDU finds its COUNT
taken. The error of an engine is read as if it were a PDU. After a failure of the queue the expiry of
the discard timer takes COUNT 0 away, which the result of COUNT 1 then reads. -/
theorem pdcpTx_failuresInconsistent :
    (∃ ent : PdcpEntityTx, Runs.Reaches (nextFailing fun _ => disabled) (fun _ _ => True)
        ((create ⟨.drb, .am, .size12bits, some .infinity, false,
          ⟨0xc0000000, 0xfffffffe, by decide⟩, nofun⟩).setCount 0 0) ent ∧
      (ent.st.txNext = 0 ∧ ent.txWindow.hasSn 0 = true ∧
        fault? (stepFailing (fun _ => disabled) ent (.handleSdu .sent [0xbb] 0)) =
          some (.countPresent 0))) ∧
      (∃ ent : PdcpEntityTx, Runs.Reaches (nextFailing fun _ => failingEngine) (fun _ _ => True)
          ((create ⟨.drb, .am, .size12bits, some .infinity, false,
            ⟨0xc0000000, 0xfffffffe, by decide⟩, nofun⟩).setCount 0 0) ent ∧
        fault? (stepFailing (fun _ => failingEngine) ent (.other (.runCryptoJob 0))) =
          some .badExpectedAccess) ∧
      ∃ ent : PdcpEntityTx, Runs.Reaches (nextFailing fun _ => disabled) (fun _ _ => True)
          ((create ⟨.drb, .am, .size12bits, some (.ms 10), false,
            ⟨0xc0000000, 0xfffffffe, by decide⟩, nofun⟩).setCount 0 0) ent ∧
        fault? (stepFailing (fun _ => disabled) ent (.other (.runResult 0))) =
          some (.absentCount 0) := by
  have hheader : (Runs.runAll (nextFailing fun _ => disabled)
      ((create ⟨.drb, .am, .size12bits, some .infinity, false,
        ⟨0xc0000000, 0xfffffffe, by decide⟩, nofun⟩).setCount 0 0)
      [.other (.desiredBufferSize 1000), .handleSdu .headerPrependFails [0xaa] 0]).map
      (fun ent => (ent.st.txNext, ent.txWindow.hasSn 0,
        fault? (stepFailing (fun _ => disabled) ent (.handleSdu .sent [0xbb] 0)))) =
      some (0, true, some (.countPresent 0)) := by
    decide +kernel
  have hengine : (Runs.runAll (nextFailing fun _ => failingEngine)
      ((create ⟨.drb, .am, .size12bits, some .infinity, false,
        ⟨0xc0000000, 0xfffffffe, by decide⟩, nofun⟩).setCount 0 0)
      [.other (.configureSecurity ⟨none, [], none, .nea0⟩ false false), .other (.desiredBufferSize 1000),
        .handleSdu .sent [0xaa] 0]).map
      (fun ent => fault? (stepFailing (fun _ => failingEngine) ent (.other (.runCryptoJob 0)))) =
      some (some .badExpectedAccess) := by
    decide +kernel
  have hdiscard : (Runs.runAll (nextFailing fun _ => disabled)
      ((create ⟨.drb, .am, .size12bits, some (.ms 10), false,
        ⟨0xc0000000, 0xfffffffe, by decide⟩, nofun⟩).setCount 0 0)
      [.other (.configureSecurity ⟨none, [], none, .nea0⟩ false false), .other (.desiredBufferSize 1000),
        .handleSdu .cryptoEnqueueFails [0xaa] 0, .handleSdu .sent [0xbb] 1, .other .discardExpiry,
        .other (.runCryptoJob 0)]).map
      (fun ent => fault? (stepFailing (fun _ => disabled) ent (.other (.runResult 0)))) =
      some (some (.absentCount 0)) := by
    decide +kernel
  refine ⟨?_, ?_, ?_⟩
  · obtain ⟨ent, hrun, hent⟩ := Option.map_eq_some_iff.mp hheader
    rw [Prod.mk.injEq, Prod.mk.injEq] at hent
    exact ⟨ent, Runs.reaches_of_runAll .start (fun _ _ _ => trivial) hrun, hent⟩
  · obtain ⟨ent, hrun, hent⟩ := Option.map_eq_some_iff.mp hengine
    exact ⟨ent, Runs.reaches_of_runAll .start (fun _ _ _ => trivial) hrun, hent⟩
  · obtain ⟨ent, hrun, hent⟩ := Option.map_eq_some_iff.mp hdiscard
    exact ⟨ent, Runs.reaches_of_runAll .start (fun _ _ _ => trivial) hrun, hent⟩

end PdcpEntityTx

end Srsran.Pdcp
