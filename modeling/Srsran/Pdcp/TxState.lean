import Srsran.Lib.Runs
import Srsran.Pdcp.TxDiscard

/-! Order of the state variables of the transmitting PDCP entity over all runs, and presence of the
SDUs that it reads from its window. -/
namespace Srsran.Pdcp
open Srsran.Adt Checked PdcpTxWindow PdcpTxWindowElement

inductive TxEvent where
  | handleSdu (buf : List UInt8) (now : Nat)
  | beginBuffering
  | endBuffering (now : Nat)
  | runCryptoJob (idx : Nat)
  | loseCryptoJob (idx : Nat)
  | runResult (idx : Nat)
  | loseResult (idx : Nat)
  | cryptoReorderingExpiry
  | discardExpiry
  | statusReport (status : List UInt8)
  | transmitNotification (notifSn : Nat)
  | deliveryNotification (notifSn : Nat)
  | retransmitNotification (notifSn : Nat)
  | deliveryRetransmittedNotification (notifSn : Nat)
  | desiredBufferSize (desiredBs : Nat)
  | configureSecurity (secCfg : Sec128AsConfig) (integrityEnabled cipheringEnabled : Bool)
  | dataRecovery
  | reestablish (secCfg : Sec128AsConfig)
  | stop
  deriving DecidableEq, Repr

namespace PdcpEntityTx
variable {ent ent' : PdcpEntityTx}

def securityAllowed (ent : PdcpEntityTx) (integrityEnabled : Bool) : Bool :=
  integrityEnabled || !ent.cfg.isSrb

/-- Timers expire only while they run, and assertions on the use of the interface are kept. -/
def enabled (ent : PdcpEntityTx) : TxEvent → Bool
  | .cryptoReorderingExpiry => ent.cryptoReorderingTimerRunning
  | .discardExpiry => ent.discardTimer.running
  | .configureSecurity _ integrityEnabled _ => ent.securityAllowed integrityEnabled
  | .dataRecovery => !ent.cfg.isSrb && ent.cfg.isAm
  | .reestablish _ => ent.securityAllowed ent.integrityEnabled
  | _ => true

/-- A job ends: the SDU is protected and its result is on the way back. -/
def runCryptoJob (engine : SecurityContext → SecurityEngine) (ent : PdcpEntityTx) (idx : Nat) :
    Except TxFault PdcpEntityTx :=
  match ent.cryptoJobs[idx]? with
  | none => .ok ent
  | some info => do
    let result ← applySecurity engine ent info
    .ok { ent.notify (.protectedSdu info.count info.buf) with
          cryptoJobs := ent.cryptoJobs.eraseIdx idx
          cryptoResults := ent.cryptoResults ++ [result] }

def handleResult (ent : PdcpEntityTx) :
    Except SecurityError PdcpTxBufferInfo → Except TxFault PdcpEntityTx
  | .ok info => ent.applyReordering info
  | .error _ => .ok (ent.notify .protocolFailure)

def runResult (ent : PdcpEntityTx) (idx : Nat) : Except TxFault PdcpEntityTx :=
  match ent.cryptoResults[idx]? with
  | none => .ok ent
  | some result => handleResult { ent with cryptoResults := ent.cryptoResults.eraseIdx idx } result

def step (engine : SecurityContext → SecurityEngine) (ent : PdcpEntityTx) :
    TxEvent → Except TxFault PdcpEntityTx
  | .handleSdu buf now => ent.handleSdu buf now
  | .beginBuffering => .ok ent.beginBuffering
  | .endBuffering now => ent.endBuffering now
  | .runCryptoJob idx => runCryptoJob engine ent idx
  | .loseCryptoJob idx => .ok { ent with cryptoJobs := ent.cryptoJobs.eraseIdx idx }
  | .runResult idx => ent.runResult idx
  | .loseResult idx => .ok { ent with cryptoResults := ent.cryptoResults.eraseIdx idx }
  | .cryptoReorderingExpiry => ent.cryptoReorderingTimeout
  | .discardExpiry => ent.discardCallback
  | .statusReport status => .ok (ent.handleStatusReport status)
  | .transmitNotification notifSn => ent.handleTransmitNotification notifSn
  | .deliveryNotification notifSn => ent.handleDeliveryNotification notifSn
  | .retransmitNotification notifSn => ent.handleRetransmitNotification notifSn
  | .deliveryRetransmittedNotification notifSn => ent.handleDeliveryRetransmittedNotification notifSn
  | .desiredBufferSize desiredBs => .ok (ent.handleDesiredBufferSizeNotification desiredBs)
  | .configureSecurity secCfg integrityEnabled cipheringEnabled =>
    .ok (ent.configureSecurity secCfg integrityEnabled cipheringEnabled)
  | .dataRecovery => .ok ent.dataRecovery
  | .reestablish secCfg => .ok (ent.reestablish secCfg)
  | .stop => .ok ent.stop

def next (engine : SecurityContext → SecurityEngine) (ent : PdcpEntityTx) (event : TxEvent) :
    Option PdcpEntityTx :=
  if ent.enabled event then (step engine ent event).toOption else none

/-- The slots of the next SDUs of an SRB are not those of SDUs that are not passed on yet. Only DRBs
check the size of the window. -/
def RoomForSdus (ent : PdcpEntityTx) (nofSdus : Nat) : Prop :=
  ent.cfg.isSrb = true → ent.stopped = false → ent.st.txNext < ent.cfg.maxCount.hard →
    ent.st.txNext + nofSdus ≤ ent.st.txTransCrypto + pdcpWindowSize ent.cfg.snSize

/-- The oldest SDU and the first one that is not passed on did not arrive together. -/
def DiscardsPassedOn (ent : PdcpEntityTx) : Prop :=
  ent.txWindow.get? ent.st.txNextAck = none ∨
    (ent.txWindow.get? ent.st.txTransCrypto).map tickPointOfArrival ≠
      (ent.txWindow.get? ent.st.txNextAck).map tickPointOfArrival

/-- The COUNTs that a status report declares as received. -/
def Reports (fmc : Nat) (bits : List Nat) (count : Nat) : Prop :=
  count < fmc ∨ ∃ i, i < bits.length ∧ bits[i]? = some 1 ∧ (fmc + 1 + i) % 2 ^ 32 = count

def ReportsPassedOn (ent : PdcpEntityTx) (status : List UInt8) : Prop :=
  ent.cfg.discardTimer.isSome = true →
    match decodeStatusReport status with
    | none => True
    | some (fmc, bits) =>
      ∀ count, count < ent.st.txNext → ent.st.txTransCrypto ≤ count → ¬Reports fmc bits count

/-- The SDUs up to the notified COUNT are passed on, and the next one, for which the discard timer is
to be restarted, is in the window. -/
def StopsPassedOn (ent : PdcpEntityTx) (highestCount : Nat) : Prop :=
  ent.cfg.discardTimer.isSome = true → ent.st.txNextAck ≤ highestCount →
    highestCount < ent.st.txNext → ent.txWindow.hasSn ent.st.txNextAck = true →
    highestCount < ent.st.txTransCrypto ∧
      (ent.cfg.discardTimer = some .infinity ∨ highestCount + 1 = ent.st.txNext ∨
        ent.txWindow.hasSn (highestCount + 1) = true)

/-- No SDU was discarded between two that are still in the window. -/
def NoGaps (ent : PdcpEntityTx) : Prop :=
  ent.cfg.discardTimer.isSome = true →
    ∀ count, count < ent.st.txNext → ent.st.txNextAck ≤ count → ent.txWindow.hasSn count = true

instance {nofSdus : Nat} : Decidable (RoomForSdus ent nofSdus) :=
  inferInstanceAs (Decidable (_ → _))

instance : Decidable (DiscardsPassedOn ent) := inferInstanceAs (Decidable (_ ∨ _))

instance {fmc count : Nat} {bits : List Nat} : Decidable (Reports fmc bits count) :=
  inferInstanceAs (Decidable (_ ∨ _))

instance {status : List UInt8} : Decidable (ReportsPassedOn ent status) := by
  unfold ReportsPassedOn
  cases decodeStatusReport status <;> infer_instance

instance {highestCount : Nat} : Decidable (StopsPassedOn ent highestCount) :=
  inferInstanceAs (Decidable (_ → _))

instance : Decidable (NoGaps ent) := inferInstanceAs (Decidable (_ → _))

/-- No event but these concerns SDUs that are not passed on yet. -/
def safe (ent : PdcpEntityTx) : TxEvent → Bool
  | .handleSdu _ _ => ent.buffering || decide (ent.RoomForSdus 1)
  | .endBuffering _ => decide (ent.RoomForSdus ent.sduBuffer.length)
  | .discardExpiry => decide ent.DiscardsPassedOn
  | .statusReport status => decide (ent.ReportsPassedOn status)
  | .transmitNotification notifSn =>
    let notifCount := ent.notificationCountEstimation notifSn
    !(ent.cfg.isUm && decide (notifSn < pdcpSnCardinality ent.cfg.snSize) &&
        decide (ent.st.txTrans ≤ notifCount) && decide (notifCount < ent.st.txTransCrypto)) ||
      decide (ent.StopsPassedOn notifCount)
  | .deliveryNotification notifSn =>
    !(ent.cfg.isAm && decide (notifSn < pdcpSnCardinality ent.cfg.snSize)) ||
      decide (ent.StopsPassedOn (ent.notificationCountEstimation notifSn))
  | .deliveryRetransmittedNotification notifSn =>
    !(!ent.cfg.isSrb && ent.cfg.isAm && decide (notifSn < pdcpSnCardinality ent.cfg.snSize)) ||
      decide (ent.StopsPassedOn (ent.notificationCountEstimation notifSn))
  | .dataRecovery => decide ent.NoGaps
  | .reestablish _ =>
    if ent.cfg.isSrb || ent.cfg.isUm then !ent.cryptoReorderingTimerRunning
    else decide ent.NoGaps
  | _ => true

/-- State variables in order, and a window that reaches from TX_NEXT_ACK to TX_NEXT and holds
everything that is not passed on yet. -/
structure Consistent (ent : PdcpEntityTx) : Prop where
  ack_le : ent.st.txNextAck ≤ ent.st.txTrans
  trans_le : ent.st.txTrans ≤ ent.st.txTransCrypto
  crypto_le : ent.st.txTransCrypto ≤ ent.st.txNext
  next_lt : ent.st.txNext < 2 ^ 32
  lowerEdge : LowerEdge ent
  upperEdge : ∀ count elem, ent.txWindow.get? count = some elem → count < ent.st.txNext
  present : ent.stopped = false → ∀ count, ent.st.txTransCrypto ≤ count →
    count < ent.st.txNext → ent.txWindow.hasSn count = true
  stoppedEmpty : ent.stopped = true → ∀ count, ent.txWindow.get? count = none
  capacity : ent.txWindow.txWindow.capacity = pdcpWindowSize ent.cfg.snSize
  bound : ent.cfg.isSrb = false →
    ent.st.txNext < ent.st.txNextAck + pdcpWindowSize ent.cfg.snSize
  arrival : ∀ duration, ent.cfg.discardTimer = some (.ms duration) → ∀ count elem,
    ent.txWindow.get? count = some elem → elem.tickPointOfArrival.isSome = true

/-- While the crypto reordering timer runs something is waited for. -/
def TimerConsistent (ent : PdcpEntityTx) : Prop :=
  ent.cryptoReorderingTimerRunning = true →
    ent.st.txTransCrypto < ent.st.txReordCrypto ∧ ent.st.txReordCrypto ≤ ent.st.txNext

/-- The discard timer runs for finite durations only. -/
def DiscardConsistent (ent : PdcpEntityTx) : Prop :=
  ent.discardTimer.running = true → ∃ duration, ent.cfg.discardTimer = some (.ms duration)

/-- A trim that takes away nothing that is not passed on. -/
structure Kept (ent ent' : PdcpEntityTx) : Prop extends Trimmed ent ent' where
  kept : ∀ count, ent.st.txTransCrypto ≤ count → ent.txWindow.hasSn count = true →
    ent'.txWindow.hasSn count = true
  ack_le : ent'.st.txNextAck ≤ ent'.st.txTrans
  trans_le : ent'.st.txTrans ≤ ent.st.txTransCrypto

theorem Kept.refl (h : Consistent ent) : Kept ent ent where
  toTrimmed := Trimmed.refl ent
  kept := fun _ _ h => h
  __ := h

variable {mid : PdcpEntityTx}

theorem Kept.trans (h : Kept ent mid) (h' : Kept mid ent') : Kept ent ent' where
  toTrimmed := h.toTrimmed.trans h'.toTrimmed
  kept := by
    intro count hcount hsn
    apply h'.kept count _ (h.kept count hcount hsn)
    rw [h.txTransCrypto]
    exact hcount
  ack_le := h'.ack_le
  trans_le := by
    rw [← h.txTransCrypto]
    exact h'.trans_le

theorem Consistent.kept (h : Consistent ent) (hk : Kept ent ent') : Consistent ent' where
  ack_le := hk.ack_le
  trans_le := by
    rw [hk.txTransCrypto]
    exact hk.trans_le
  crypto_le := by
    rw [hk.txTransCrypto, hk.txNext]
    exact h.crypto_le
  next_lt := by
    rw [hk.txNext]
    exact h.next_lt
  lowerEdge := hk.lowerEdge h.lowerEdge
  upperEdge := by
    intro count elem hget
    rw [hk.txNext]
    exact h.upperEdge count elem (hk.window count elem hget)
  present := by
    rw [hk.txTransCrypto, hk.txNext, hk.stopped]
    intro hstopped count hge hlt
    exact hk.kept count hge (h.present hstopped count hge hlt)
  stoppedEmpty := by
    rw [hk.stopped]
    intro hstopped count
    cases hget : ent'.txWindow.get? count with
    | none => rfl
    | some elem =>
      have hold := hk.window count elem hget
      rw [h.stoppedEmpty hstopped count] at hold
      cases hold
  capacity := by
    rw [hk.capacity, hk.cfg]
    exact h.capacity
  bound := by
    rw [hk.txNext, hk.cfg]
    intro hsrb
    exact Nat.lt_of_lt_of_le (h.bound hsrb) (Nat.add_le_add_right hk.nextAck _)
  arrival := by
    rw [hk.cfg]
    intro duration hduration count elem hget
    exact h.arrival duration hduration count elem (hk.window count elem hget)

theorem TimerConsistent.trimmed (h : TimerConsistent ent) (ht : Trimmed ent ent') :
    TimerConsistent ent' := by
  rw [TimerConsistent, ht.cryptoTimer, ht.txTransCrypto, ht.txReordCrypto, ht.txNext]
  exact h

variable {turns : Nat}

theorem skipAbsent_nextAck_le (hle : ent.st.txNextAck ≤ ent.st.txTransCrypto)
    (hcrypto : ent.st.txTransCrypto ≤ ent.st.txNext)
    (hpresent : ∀ count, ent.st.txTransCrypto ≤ count → count < ent.st.txNext →
      ent.txWindow.hasSn count = true) :
    (skipAbsent turns ent).st.txNextAck ≤ ent.st.txTransCrypto := by
  induction turns generalizing ent with
  | zero => exact hle
  | succ turns ih =>
    rw [skipAbsent]
    split
    · rename_i hcond
      have hne : ent.st.txNextAck ≠ ent.st.txTransCrypto := by
        intro heq
        have hhas := hpresent ent.st.txNextAck (Nat.le_of_eq heq.symm) hcond.1
        rw [hcond.2] at hhas
        cases hhas
      exact ih (Nat.lt_of_le_of_ne hle hne) hcrypto hpresent
    · exact hle

theorem skipAbsent_frame {turns : Nat} : (skipAbsent turns ent).txWindow = ent.txWindow ∧
    (skipAbsent turns ent).st.txTrans = ent.st.txTrans := by
  induction turns generalizing ent with
  | zero => exact ⟨rfl, rfl⟩
  | succ turns ih =>
    rw [skipAbsent]
    split
    · exact ih
    · exact ⟨rfl, rfl⟩

variable {count : Nat}

theorem discardPdu_kept (h : Consistent ent)
    (hcount : ent.st.txTransCrypto ≤ count → ent.st.txNext ≤ count) :
    Kept ent (ent.discardPdu count) := by
  have htrimmed : Trimmed ent (ent.discardPdu count) := discardPdu_trimmed count
  rw [discardPdu] at htrimmed ⊢
  split
  · exact Kept.refl h
  · split
    · exact Kept.refl h
    · split
      · exact Kept.refl h
      · rename_i hnone hrange habsent
        rw [if_neg hnone, if_neg hrange, if_neg habsent] at htrimmed
        rw [not_or, Nat.not_lt, ge_iff_le, Nat.not_le] at hrange
        have hrunning : ent.stopped = false := by
          cases hstopped : ent.stopped with
          | false => rfl
          | true =>
            rw [hasSn_eq, h.stoppedEmpty hstopped count] at habsent
            exact absurd rfl habsent
        have hother : ∀ other, ent.st.txTransCrypto ≤ other →
            ent.txWindow.hasSn other = true → (ent.txWindow.removeSdu count).hasSn other = true := by
          intro other hge hhas
          rw [hasSn_eq, get?_removeSdu, if_neg]
          · exact hhas
          · intro heq
            subst heq
            exact absurd (hcount hge) (Nat.not_le_of_lt hrange.2)
        have hack : ent.st.txNextAck ≤ ent.st.txTransCrypto := Nat.le_trans h.ack_le h.trans_le
        have hskip : (skipAbsent ((ent.dropSdu count).st.txNext - (ent.dropSdu count).st.txNextAck)
            (ent.dropSdu count)).st.txNextAck ≤ ent.st.txTransCrypto := by
          have hdropped : (ent.dropSdu count).st.txNextAck ≤ (ent.dropSdu count).st.txTransCrypto :=
            hack
          apply skipAbsent_nextAck_le hdropped h.crypto_le
          intro other hge hlt
          exact hother other hge (h.present hrunning other hge hlt)
        obtain ⟨hwindow, htrans⟩ := @skipAbsent_frame (ent.dropSdu count)
          ((ent.dropSdu count).st.txNext - (ent.dropSdu count).st.txNextAck)
        dsimp only at htrimmed ⊢
        refine ⟨htrimmed, ?_, Nat.le_max_right _ _, ?_⟩
        · intro other hge hhas
          rw [raiseTxTrans, hwindow]
          exact hother other hge hhas
        · apply Nat.max_le.mpr
          rw [htrans]
          exact ⟨h.trans_le, hskip⟩

theorem discardRange_kept (h : Consistent ent)
    (hcounts : ∀ other, other < count + turns → ent.st.txTransCrypto ≤ other →
      ent.st.txNext ≤ other) : Kept ent (discardRange turns count ent) := by
  induction turns generalizing ent count with
  | zero => exact Kept.refl h
  | succ turns ih =>
    have hkept : Kept ent (ent.discardPdu count) := discardPdu_kept h (hcounts count (by omega))
    apply hkept.trans
    apply ih (h.kept hkept)
    rw [hkept.txTransCrypto, hkept.txNext]
    intro other hlt
    exact hcounts other (by omega)

theorem discardBitmap_kept {bits : List Nat} {fmc : Nat} (h : Consistent ent)
    (hbits : ∀ i, bits[i]? = some 1 → ent.st.txTransCrypto ≤ (fmc + 1 + i) % 2 ^ 32 →
      ent.st.txNext ≤ (fmc + 1 + i) % 2 ^ 32) : Kept ent (discardBitmap bits fmc ent) := by
  induction bits generalizing ent fmc with
  | nil => exact Kept.refl h
  | cons bit rest ih =>
    have hrest : ∀ i, ((fmc + 1) % 2 ^ 32 + 1 + i) % 2 ^ 32 = (fmc + 1 + (i + 1)) % 2 ^ 32 := by
      intro i
      omega
    rw [discardBitmap]
    split
    · rename_i hbit
      have hkept : Kept ent (ent.discardPdu ((fmc + 1) % 2 ^ 32)) := by
        apply discardPdu_kept h
        exact hbits 0 (by rw [hbit]; rfl)
      apply hkept.trans
      apply ih (h.kept hkept)
      rw [hkept.txTransCrypto, hkept.txNext]
      intro i hi
      rw [hrest]
      exact hbits (i + 1) hi
    · apply ih h
      intro i hi
      rw [hrest]
      exact hbits (i + 1) hi

section
variable (hnone : ent.cfg.discardTimer.isSome = false)
include hnone

theorem discardPdu_of_none (count : Nat) : ent.discardPdu count = ent := by
  rw [discardPdu, if_pos]
  rw [← Option.not_isSome, hnone]
  rfl

theorem discardRange_of_none : discardRange turns count ent = ent := by
  induction turns generalizing count with
  | zero => rfl
  | succ turns ih => rw [discardRange, discardPdu_of_none hnone, ih]

theorem discardBitmap_of_none {bits : List Nat} {fmc : Nat} : discardBitmap bits fmc ent = ent := by
  induction bits generalizing fmc with
  | nil => rfl
  | cons bit rest ih => rw [discardBitmap, discardPdu_of_none hnone, ite_self, ih]

end

theorem skipAbsent_discardTimer :
    (skipAbsent turns ent).discardTimer = ent.discardTimer := by
  induction turns generalizing ent with
  | zero => rfl
  | succ turns ih =>
    rw [skipAbsent]
    split
    · exact ih
    · rfl

theorem discardPdu_discardTimer (count : Nat) :
    (ent.discardPdu count).discardTimer = ent.discardTimer := by
  rw [discardPdu]
  split
  · rfl
  · split
    · rfl
    · split
      · rfl
      · exact skipAbsent_discardTimer

theorem handleStatusReport_discardTimer {status : List UInt8} :
    (ent.handleStatusReport status).discardTimer = ent.discardTimer :=
  handleStatusReport_induction (motive := fun after => after.discardTimer = ent.discardTimer)
    (fun _ count h => (discardPdu_discardTimer count).trans h) rfl

theorem handleStatusReport_kept {status : List UInt8} (h : Consistent ent)
    (hreport : ReportsPassedOn ent status) : Kept ent (ent.handleStatusReport status) := by
  rw [handleStatusReport]
  cases hdecoded : decodeStatusReport status with
  | none => exact Kept.refl h
  | some report =>
    obtain ⟨fmc, bits⟩ := report
    dsimp only
    cases hsome : ent.cfg.discardTimer.isSome with
    | false =>
      rw [discardRange_of_none hsome, discardBitmap_of_none hsome]
      exact Kept.refl h
    | true =>
      have hnot := hreport hsome
      rw [hdecoded] at hnot
      dsimp only at hnot
      have hrange : Kept ent (discardRange (fmc - ent.st.txNextAck) ent.st.txNextAck ent) := by
        apply discardRange_kept h
        intro other hlt hge
        apply Nat.le_of_not_lt
        intro hnext
        apply hnot other hnext hge
        left
        have hack : ent.st.txNextAck ≤ ent.st.txTransCrypto := Nat.le_trans h.ack_le h.trans_le
        omega
      apply hrange.trans
      apply discardBitmap_kept (h.kept hrange)
      rw [hrange.txTransCrypto, hrange.txNext]
      intro i hbit hge
      apply Nat.le_of_not_lt
      intro hnext
      apply hnot _ hnext hge
      right
      exact ⟨i, (List.getElem?_eq_some_iff.mp hbit).1, hbit, rfl⟩

theorem get?_removeUpTo (hcount : ent.st.txNextAck + turns ≤ count) :
    (removeUpTo turns ent).txWindow.get? count = ent.txWindow.get? count := by
  induction turns generalizing ent with
  | zero => rfl
  | succ turns ih =>
    have hnext : ent.st.txNextAck + 1 + turns ≤ count := by omega
    rw [removeUpTo, ih hnext]
    dsimp only
    rw [get?_removeSdu, if_neg (by omega)]

theorem removeUpTo_st {turns : Nat} : (removeUpTo turns ent).st.txNextAck = ent.st.txNextAck + turns ∧
    (removeUpTo turns ent).st.txTrans = ent.st.txTrans ∧
    (removeUpTo turns ent).discardTimer = ent.discardTimer := by
  induction turns generalizing ent with
  | zero => exact ⟨rfl, rfl, rfl⟩
  | succ turns ih =>
    rw [removeUpTo]
    refine ⟨ih.1.trans ?_, ih.2⟩
    dsimp only
    omega

/-- The discard timer is restarted without a fault, and only when it is finite. -/
theorem restartDiscardTimer_ok (hsome : ent.cfg.discardTimer.isSome = true)
    (harrival : ∀ duration, ent.cfg.discardTimer = some (.ms duration) → ∀ count elem,
      ent.txWindow.get? count = some elem → elem.tickPointOfArrival.isSome = true)
    (hnext : ent.cfg.discardTimer = some .infinity ∨ ent.st.txNextAck = ent.st.txNext ∨
      ent.txWindow.hasSn ent.st.txNextAck = true) (htimer : ent.discardTimer.running = false) :
    ∃ timer, ent.restartDiscardTimer = .ok { ent with discardTimer := timer } ∧
      timer.now = ent.discardTimer.now ∧
      (timer.running = true → ∃ duration, ent.cfg.discardTimer = some (.ms duration)) := by
  have hidle : ent.discardTimer.running = true →
      ∃ duration, ent.cfg.discardTimer = some (.ms duration) := by
    rw [htimer]
    rintro ⟨⟩
  rw [restartDiscardTimer]
  split
  · exact ⟨_, rfl, rfl, hidle⟩
  · rename_i hinf
    split
    · rename_i hne
      obtain ⟨elem, helem⟩ : ∃ elem, ent.txWindow.get? ent.st.txNextAck = some elem :=
        Option.isSome_iff_exists.mp ((hnext.resolve_left hinf).resolve_left hne)
      obtain ⟨duration, hduration⟩ : ∃ duration, ent.cfg.discardTimer = some (.ms duration) := by
        obtain ⟨timer, htimer'⟩ := Option.isSome_iff_exists.mp hsome
        cases timer with
        | ms duration => exact ⟨duration, htimer'⟩
        | infinity => exact absurd htimer' hinf
      obtain ⟨tick, htick⟩ := Option.isSome_iff_exists.mp (harrival duration hduration _ elem helem)
      have helement : ent.element ent.st.txNextAck = .ok elem := by
        rw [get?] at helem
        rw [element, helem]
      have hread : PdcpEntityTx.arrival elem = .ok tick := by
        rw [PdcpEntityTx.arrival, htick]
      rw [helement, ok_bind, hread, ok_bind]
      exact ⟨_, rfl, rfl, fun _ => ⟨duration, hduration⟩⟩
    · exact ⟨_, rfl, rfl, hidle⟩

section
variable (h : Consistent ent)
include h

theorem stopDiscardTimer_ok {highestCount : Nat} (hd : DiscardConsistent ent)
    (hstops : StopsPassedOn ent highestCount) :
    ∃ ent', ent.stopDiscardTimer highestCount = .ok ent' ∧ Kept ent ent' ∧ DiscardConsistent ent' := by
  rw [stopDiscardTimer]
  split
  · exact ⟨ent, rfl, Kept.refl h, hd⟩
  · rename_i hnone
    split
    · exact ⟨ent, rfl, Kept.refl h, hd⟩
    · rename_i hrange
      split
      · exact ⟨ent, rfl, Kept.refl h, hd⟩
      · rename_i hfirst
        rw [not_or, Nat.not_lt, ge_iff_le, Nat.not_le] at hrange
        rw [Bool.not_eq_true, ← Option.not_isSome, Bool.not_eq_false'] at hnone
        rw [Bool.not_eq_false] at hfirst
        obtain ⟨hpassed, hsucc⟩ := hstops hnone hrange.1 hrange.2 hfirst
        have hturns : ent.st.txNextAck + (highestCount + 1 - ent.st.txNextAck) = highestCount + 1 := by
          omega
        have hremoved : Trimmed { ent with discardTimer := ent.discardTimer.stop }
            (removeUpTo (highestCount + 1 - ent.st.txNextAck)
              { ent with discardTimer := ent.discardTimer.stop }) :=
          removeUpTo_trimmed (Nat.le_trans (Nat.le_of_eq hturns) hrange.2)
        have hget : ∀ count, highestCount + 1 ≤ count →
            (removeUpTo (highestCount + 1 - ent.st.txNextAck)
              { ent with discardTimer := ent.discardTimer.stop }).txWindow.get? count =
              ent.txWindow.get? count := by
          intro count hcount
          apply get?_removeUpTo
          exact Nat.le_trans (Nat.le_of_eq hturns) hcount
        obtain ⟨hack, htrans, htimer⟩ := @removeUpTo_st
          { ent with discardTimer := ent.discardTimer.stop } (highestCount + 1 - ent.st.txNextAck)
        rw [hturns] at hack
        dsimp only at htrans htimer ⊢
        generalize removeUpTo (highestCount + 1 - ent.st.txNextAck)
          { ent with discardTimer := ent.discardTimer.stop } = mid at hremoved hget hack htrans htimer ⊢
        have hmid : Trimmed ent mid.raiseTxTrans :=
          (idle_trimmed.trans hremoved).trans raiseTxTrans_trimmed
        have hcfg : mid.raiseTxTrans.cfg = ent.cfg := hmid.cfg
        have hmidAck : mid.raiseTxTrans.st.txNextAck = highestCount + 1 := hack
        have hmidNext : mid.raiseTxTrans.st.txNext = ent.st.txNext := hmid.txNext
        obtain ⟨timer, hrestart, hnow, hfinite⟩ := @restartDiscardTimer_ok mid.raiseTxTrans
          (by rw [hcfg]; exact hnone)
          (by
            rw [hcfg]
            intro duration hduration count elem hcount
            exact h.arrival duration hduration count elem (hmid.window count elem hcount))
          (by
            rw [hcfg, hmidAck, hmidNext, hasSn_eq]
            have hsame : mid.raiseTxTrans.txWindow.get? (highestCount + 1) =
                ent.txWindow.get? (highestCount + 1) := hget _ (Nat.le_refl _)
            rw [hsame]
            exact hsucc)
          (congrArg DiscardTimer.running htimer)
        refine ⟨_, hrestart, ⟨hmid.trans (setDiscardTimer_trimmed hnow), ?_, ?_, ?_⟩, ?_⟩
        · intro count hge hhas
          rw [hasSn_eq] at hhas ⊢
          have hsame : mid.raiseTxTrans.txWindow.get? count = ent.txWindow.get? count :=
            hget count (by omega)
          rw [hsame]
          exact hhas
        · exact Nat.le_max_right _ _
        · apply Nat.max_le.mpr
          rw [htrans, hack]
          exact ⟨h.trans_le, hpassed⟩
        · intro hrunning
          exact hfinite hrunning

/-- A valid notification moves TX_TRANS, which stays below what is not passed on. -/
theorem setTxTrans_kept {txTrans : Nat} (hge : ent.st.txTrans ≤ txTrans)
    (hle : txTrans ≤ ent.st.txTransCrypto) :
    Kept ent { ent with st := { ent.st with txTrans } } where
  toTrimmed := setTxTrans_trimmed txTrans
  kept := fun _ _ hhas => hhas
  ack_le := Nat.le_trans h.ack_le hge
  trans_le := hle

theorem handleTransmitNotificationImpl_ok {notifSn : Nat} (hd : DiscardConsistent ent)
    (hstops : ent.cfg.isUm = true → notifSn < pdcpSnCardinality ent.cfg.snSize →
      ent.st.txTrans ≤ ent.notificationCountEstimation notifSn →
      ent.notificationCountEstimation notifSn < ent.st.txTransCrypto →
      StopsPassedOn ent (ent.notificationCountEstimation notifSn)) :
    ∃ ent', ent.handleTransmitNotificationImpl notifSn = .ok ent' ∧ Kept ent ent' ∧
      DiscardConsistent ent' := by
  rw [handleTransmitNotificationImpl]
  split
  · exact ⟨ent, rfl, Kept.refl h, hd⟩
  · rename_i hsn
    dsimp only
    split
    · exact ⟨ent, rfl, Kept.refl h, hd⟩
    · rename_i hcrypto
      split
      · exact ⟨ent, rfl, Kept.refl h, hd⟩
      · rename_i htrans
        split
        · exact ⟨ent, rfl, Kept.refl h, hd⟩
        · rw [Nat.not_le] at hsn hcrypto
          rw [Nat.not_lt] at htrans
          have hmod : (ent.notificationCountEstimation notifSn + 1) % 2 ^ 32 =
              ent.notificationCountEstimation notifSn + 1 := by
            have hnext : ent.st.txTransCrypto < 2 ^ 32 := Nat.lt_of_le_of_lt h.crypto_le h.next_lt
            exact Nat.mod_eq_of_lt (by omega)
          rw [hmod]
          have hset := setTxTrans_kept h (Nat.le_succ_of_le htrans) hcrypto
          have hd' : DiscardConsistent { ent with st := { ent.st with
              txTrans := ent.notificationCountEstimation notifSn + 1 } } := hd
          split
          · exact ⟨_, rfl, hset, hd'⟩
          · split
            · rename_i hum
              obtain ⟨ent', hok, hkept, hdiscard⟩ := stopDiscardTimer_ok (h.kept hset) hd'
                (hstops hum hsn htrans hcrypto)
              exact ⟨ent', hok, hset.trans hkept, hdiscard⟩
            · exact ⟨_, rfl, hset, hd'⟩

theorem handleDeliveryNotificationImpl_ok {notifSn : Nat} (hd : DiscardConsistent ent)
    (hstops : ent.cfg.isAm = true → notifSn < pdcpSnCardinality ent.cfg.snSize →
      StopsPassedOn ent (ent.notificationCountEstimation notifSn)) :
    ∃ ent', ent.handleDeliveryNotificationImpl notifSn = .ok ent' ∧ Kept ent ent' ∧
      DiscardConsistent ent' := by
  rw [handleDeliveryNotificationImpl]
  split
  · exact ⟨ent, rfl, Kept.refl h, hd⟩
  · rename_i hsn
    rw [Nat.not_le] at hsn
    dsimp only
    split
    · exact ⟨ent, rfl, Kept.refl h, hd⟩
    · split
      · exact ⟨ent, rfl, Kept.refl h, hd⟩
      · split
        · rename_i ham
          exact stopDiscardTimer_ok h hd (hstops ham hsn)
        · exact ⟨ent, rfl, Kept.refl h, hd⟩

theorem setDiscardTimer_kept {timer : DiscardTimer} (hnow : timer.now = ent.discardTimer.now) :
    Kept ent { ent with discardTimer := timer } where
  toTrimmed := setDiscardTimer_trimmed hnow
  kept := fun _ _ hhas => hhas
  __ := h

end

variable {elem : PdcpTxWindowElement}

theorem arrival_ok {duration : Nat} (h : Consistent ent)
    (hcfg : ent.cfg.discardTimer = some (.ms duration)) (hget : ent.txWindow.get? count = some elem) :
    ∃ tick, elem.tickPointOfArrival = some tick ∧ PdcpEntityTx.arrival elem = .ok tick := by
  obtain ⟨tick, htick⟩ := Option.isSome_iff_exists.mp (h.arrival duration hcfg count elem hget)
  refine ⟨tick, htick, ?_⟩
  rw [PdcpEntityTx.arrival, htick]

/-- Each turn discards an SDU that arrived with the oldest one, hence is passed on. -/
theorem discardLoop_ok {oldest turns duration : Nat} (h : Consistent ent)
    (hcfg : ent.cfg.discardTimer = some (.ms duration)) {first : PdcpTxWindowElement}
    (hfirst : ent.txWindow.get? ent.st.txNextAck = some first)
    (htick : first.tickPointOfArrival = some oldest)
    (hcrypto : ∀ elem, ent.txWindow.get? ent.st.txTransCrypto = some elem →
      elem.tickPointOfArrival ≠ some oldest) :
    ∃ ent', discardLoop oldest turns ent = .ok ent' ∧ Kept ent ent' := by
  induction turns generalizing ent first with
  | zero => exact ⟨ent, rfl, Kept.refl h⟩
  | succ turns ih =>
    have hne : ent.st.txNextAck ≠ ent.st.txTransCrypto := by
      intro heq
      rw [heq] at hfirst
      exact hcrypto first hfirst htick
    have hlt : ent.st.txNextAck < ent.st.txTransCrypto :=
      Nat.lt_of_le_of_ne (Nat.le_trans h.ack_le h.trans_le) hne
    have hdiscarded : Kept ent (ent.discardPdu ent.st.txNextAck) :=
      discardPdu_kept h fun hge => absurd hge (Nat.not_le_of_lt hlt)
    have hkept : Kept ent (ent.expireSdu ent.st.txNextAck) :=
      hdiscarded.trans (setDiscardTimer_kept (h.kept hdiscarded) hdiscarded.now.symm)
    rw [discardLoop]
    generalize ent.expireSdu ent.st.txNextAck = mid at hkept ⊢
    have hmid := h.kept hkept
    have hmidCfg : mid.cfg.discardTimer = some (.ms duration) := by
      rw [hkept.cfg]
      exact hcfg
    cases hget : mid.txWindow.txWindow.get? mid.st.txNextAck with
    | none => exact ⟨mid, rfl, hkept⟩
    | some elem =>
      obtain ⟨tick, htick', hread⟩ := arrival_ok hmid hmidCfg hget
      dsimp only
      rw [hread, ok_bind]
      split
      · exact ⟨_, rfl, hkept.trans (setDiscardTimer_kept hmid rfl)⟩
      · rename_i hsame
        rw [ne_eq, not_not] at hsame
        split
        · rw [hsame] at htick'
          obtain ⟨ent', hok, hrest⟩ := ih hmid hmidCfg hget htick' (by
            rw [hkept.txTransCrypto]
            intro other hother
            exact hcrypto other (hkept.window _ other hother))
          exact ⟨ent', hok, hkept.trans hrest⟩
        · exact ⟨mid, rfl, hkept⟩

theorem discardCallback_ok {duration : Nat} (h : Consistent ent)
    (hcfg : ent.cfg.discardTimer = some (.ms duration)) (hpassed : DiscardsPassedOn ent) :
    ∃ ent', ent.discardCallback = .ok ent' ∧ Kept ent ent' := by
  have hidle := @setDiscardTimer_kept _ h ent.discardTimer.stop rfl
  rw [discardCallback]
  dsimp only
  split
  · exact ⟨_, rfl, hidle⟩
  · cases hget : ent.txWindow.txWindow.get? ent.st.txNextAck with
    | none => exact ⟨_, rfl, hidle⟩
    | some elem =>
      obtain ⟨oldest, htick, hread⟩ := arrival_ok h hcfg hget
      dsimp only
      rw [hread, ok_bind]
      have hold : ent.txWindow.get? ent.st.txNextAck = some elem := hget
      rw [DiscardsPassedOn, hold] at hpassed
      obtain ⟨ent', hok, hkept⟩ := @discardLoop_ok { ent with discardTimer := ent.discardTimer.stop } oldest
        (ent.st.txNext - ent.st.txNextAck) duration (h.kept hidle) hcfg elem hget htick (by
          intro other hother htick'
          have hcrypto : ent.txWindow.get? ent.st.txTransCrypto = some other := hother
          rw [hcrypto, Option.map_some, Option.map_some, htick, htick'] at hpassed
          exact hpassed.elim (by rintro ⟨⟩) fun hne => hne rfl)
      exact ⟨ent', hok, hidle.trans hkept⟩

variable {window : PdcpTxWindow}

theorem get?_setElement {other : Nat} {elem' : PdcpTxWindowElement}
    (hget : window.get? count = some elem) :
    (window.setElement count elem').get? other =
      if other = count then some elem' else window.get? other := by
  rw [setElement, get?, CircularMap.get?_overwrite]
  by_cases heq : other = count
  · rw [if_pos heq, if_pos heq]
  · rw [if_neg heq, if_neg heq]
    split
    · rename_i hslot
      exact (CircularMap.get?_eq_none_of_sameSlot hget hslot heq).symm
    · rfl

/-- Elements are replaced by ones with the same arrival. -/
structure Rewritten (ent ent' : PdcpEntityTx) : Prop where
  cfg : ent'.cfg = ent.cfg
  stopped : ent'.stopped = ent.stopped
  txNext : ent'.st.txNext = ent.st.txNext
  txTrans : ent'.st.txTrans = ent.st.txTrans
  txNextAck : ent'.st.txNextAck = ent.st.txNextAck
  capacity : ent'.txWindow.txWindow.capacity = ent.txWindow.txWindow.capacity
  window : ∀ count, (ent'.txWindow.get? count).map tickPointOfArrival =
    (ent.txWindow.get? count).map tickPointOfArrival

theorem Rewritten.hasSn (h : Rewritten ent ent') (count : Nat) :
    ent'.txWindow.hasSn count = ent.txWindow.hasSn count := by
  rw [hasSn_eq, hasSn_eq, ← Option.isSome_map, h.window count,
    Option.isSome_map]

theorem Rewritten.get? (h : Rewritten ent ent') (hget : ent'.txWindow.get? count = some elem) :
    ∃ old,
    ent.txWindow.get? count = some old ∧ old.tickPointOfArrival = elem.tickPointOfArrival := by
  have hmap := h.window count
  rw [hget, Option.map_some] at hmap
  exact Option.map_eq_some_iff.mp hmap.symm

theorem Consistent.rewritten (h : Consistent ent) (hw : Rewritten ent ent')
    (hge : ent.st.txTransCrypto ≤ ent'.st.txTransCrypto)
    (hle : ent'.st.txTransCrypto ≤ ent.st.txNext) : Consistent ent' where
  ack_le := by
    rw [hw.txNextAck, hw.txTrans]
    exact h.ack_le
  trans_le := by
    rw [hw.txTrans]
    exact Nat.le_trans h.trans_le hge
  crypto_le := by
    rw [hw.txNext]
    exact hle
  next_lt := by
    rw [hw.txNext]
    exact h.next_lt
  lowerEdge := by
    intro count elem hget
    obtain ⟨old, hold, _⟩ := hw.get? hget
    rw [hw.txNextAck]
    exact h.lowerEdge count old hold
  upperEdge := by
    intro count elem hget
    obtain ⟨old, hold, _⟩ := hw.get? hget
    rw [hw.txNext]
    exact h.upperEdge count old hold
  present := by
    intro hstopped count hcount hlt
    rw [hw.hasSn]
    rw [hw.stopped] at hstopped
    rw [hw.txNext] at hlt
    exact h.present hstopped count (Nat.le_trans hge hcount) hlt
  stoppedEmpty := by
    intro hstopped count
    rw [hw.stopped] at hstopped
    have hmap := hw.window count
    rw [h.stoppedEmpty hstopped count, Option.map_none, Option.map_eq_none_iff] at hmap
    exact hmap
  capacity := by
    rw [hw.capacity, hw.cfg]
    exact h.capacity
  bound := by
    rw [hw.txNext, hw.txNextAck, hw.cfg]
    exact h.bound
  arrival := by
    intro duration hduration count elem hget
    obtain ⟨old, hold, htick⟩ := hw.get? hget
    rw [← htick]
    rw [hw.cfg] at hduration
    exact h.arrival duration hduration count old hold

theorem setElement_rewritten {e : PdcpTxWindowElement} (hget : window.get? count = some elem)
    (htick : e.tickPointOfArrival = elem.tickPointOfArrival) (other : Nat) :
    ((window.setElement count e).get? other).map tickPointOfArrival =
      (window.get? other).map tickPointOfArrival := by
  rw [get?_setElement hget]
  split
  · rename_i heq
    rw [heq, hget, Option.map_some, Option.map_some, htick]
  · rfl

/-- What the loops of the release leave as it is, while TX_TRANS_CRYPTO moves forward. -/
structure Advanced (ent ent' : PdcpEntityTx) : Prop where
  cfg : ent'.cfg = ent.cfg
  stopped : ent'.stopped = ent.stopped
  txNext : ent'.st.txNext = ent.st.txNext
  txReordCrypto : ent'.st.txReordCrypto = ent.st.txReordCrypto
  timer : ent'.cryptoReorderingTimerRunning = ent.cryptoReorderingTimerRunning
  txTransCrypto : ent.st.txTransCrypto ≤ ent'.st.txTransCrypto

theorem Advanced.refl (ent : PdcpEntityTx) : Advanced ent ent where
  cfg := rfl
  stopped := rfl
  txNext := rfl
  txReordCrypto := rfl
  timer := rfl
  txTransCrypto := Nat.le_refl _

theorem Advanced.trans (h : Advanced ent mid) (h' : Advanced mid ent') : Advanced ent ent' where
  cfg := h'.cfg.trans h.cfg
  stopped := h'.stopped.trans h.stopped
  txNext := h'.txNext.trans h.txNext
  txReordCrypto := h'.txReordCrypto.trans h.txReordCrypto
  timer := h'.timer.trans h.timer
  txTransCrypto := Nat.le_trans h.txTransCrypto h'.txTransCrypto

theorem Trimmed.advanced (h : Trimmed ent ent') : Advanced ent ent' where
  cfg := h.cfg
  stopped := h.stopped
  txNext := h.txNext
  txReordCrypto := h.txReordCrypto
  timer := h.cryptoTimer
  txTransCrypto := Nat.le_of_eq h.txTransCrypto.symm

theorem passOn_advanced (elem : PdcpTxWindowElement) (isRetx : Bool) :
    Advanced ent (ent.passOn elem isRetx) where
  cfg := rfl
  stopped := rfl
  txNext := rfl
  txReordCrypto := rfl
  timer := rfl
  txTransCrypto := Nat.le_succ _

theorem passOn_consistent {isRetx : Bool} (h : Consistent ent)
    (hlt : ent.st.txTransCrypto < ent.st.txNext)
    (hget : ent.txWindow.get? ent.st.txTransCrypto = some elem) :
    Consistent (ent.passOn elem isRetx) := by
  have hw : Rewritten ent (ent.passOn elem isRetx) := by
    refine ⟨rfl, rfl, rfl, rfl, rfl, CircularMap.capacity_overwrite _ _ _, ?_⟩
    intro count
    have hsame := setElement_rewritten (e := { elem with pdu := [] }) hget rfl count
    exact hsame
  exact h.rewritten hw (Nat.le_succ _) hlt

theorem isSrb_of_isUm {cfg : PdcpTxConfig} (hum : cfg.isUm = true) : cfg.isSrb = false := by
  cases hsrb : cfg.isSrb with
  | false => rfl
  | true =>
    rw [PdcpTxConfig.isSrb, beq_iff_eq] at hsrb
    rw [PdcpTxConfig.isUm, beq_iff_eq, (cfg.srb_am hsrb).1] at hum
    cases hum

/-- In test mode the notification of a PDU is for the COUNT that was just passed on. -/
theorem testMode_ok (h : Consistent ent) (hd : DiscardConsistent ent)
    (hcount : ent.st.txTransCrypto = count + 1) (hrunning : ent.stopped = false)
    (hack : ent.st.txNextAck ≤ count) :
    ∃ ent', ent.handleTransmitNotification (pdcpComputeSn count ent.cfg.snSize) = .ok ent' ∧
      Kept ent ent' ∧ DiscardConsistent ent' := by
  rw [handleTransmitNotification, if_neg (by rw [hrunning]; exact Bool.false_ne_true)]
  apply handleTransmitNotificationImpl_ok h hd
  intro hum _ _ _ hsome hle hnext hfirst
  have hcrypto : count + 1 ≤ ent.st.txNext := by
    rw [← hcount]
    exact h.crypto_le
  have hnextLt : ent.st.txNext < 2 ^ 32 := h.next_lt
  have hbound : ent.st.txNext < ent.st.txNextAck + pdcpWindowSize ent.cfg.snSize :=
    h.bound (isSrb_of_isUm hum)
  have hestimate :
      ent.notificationCountEstimation (pdcpComputeSn count ent.cfg.snSize) = count := by
    rw [notificationCountEstimation, txLower, if_pos hsome]
    exact countEstimation_eq (by omega) (by omega) ⟨by omega, by omega⟩
  rw [hestimate, hcount]
  refine ⟨Nat.lt_succ_self _, ?_⟩
  right
  by_cases hlast : count + 1 = ent.st.txNext
  · exact Or.inl hlast
  · right
    exact h.present hrunning (count + 1) (Nat.le_of_eq hcount) (Nat.lt_of_le_of_ne hcrypto hlast)

theorem element_ok (hhas : ent.txWindow.hasSn count = true) :
    ∃ elem, ent.txWindow.get? count = some elem ∧ ent.element count = .ok elem := by
  obtain ⟨elem, helem⟩ := Option.isSome_iff_exists.mp hhas
  refine ⟨elem, helem, ?_⟩
  rw [element, helem]

theorem releaseLoop_ok {r : Bool} {t : Nat} (h : Consistent ent) (hd : DiscardConsistent ent)
    (hrunning : ent.stopped = false) :
    ∃ ent', releaseLoop r t ent = .ok ent' ∧ Consistent ent' ∧ DiscardConsistent ent' ∧
      Advanced ent ent' := by
  induction t generalizing ent with
  | zero => exact ⟨ent, rfl, h, hd, Advanced.refl ent⟩
  | succ t ih =>
    rw [releaseLoop]
    split
    · rename_i hlt
      obtain ⟨elem, hget, helem⟩ :=
        element_ok (h.present hrunning ent.st.txTransCrypto (Nat.le_refl _) hlt)
      rw [helem, ok_bind]
      split
      · exact ⟨ent, rfl, h, hd, Advanced.refl ent⟩
      · have hpassed : Consistent (ent.passOn elem r) := passOn_consistent h hlt hget
        have hadvanced : Advanced ent (ent.passOn elem r) := passOn_advanced elem r
        have hd' : DiscardConsistent (ent.passOn elem r) := hd
        have hnotified : ∃ mid, (ent.passOn elem r).notifyInTestMode ent.st.txTransCrypto =
            .ok mid ∧ Consistent mid ∧ DiscardConsistent mid ∧
            Advanced (ent.passOn elem r) mid := by
          rw [notifyInTestMode]
          split
          · obtain ⟨mid, hok, hkept, hdiscard⟩ := testMode_ok hpassed hd' rfl hrunning
              (Nat.le_trans h.ack_le h.trans_le)
            exact ⟨mid, hok, hpassed.kept hkept, hdiscard, hkept.toTrimmed.advanced⟩
          · exact ⟨_, rfl, hpassed, hd', Advanced.refl _⟩
        obtain ⟨mid, hok, hmid, hdMid, hadvMid⟩ := hnotified
        have hmidRunning : mid.stopped = false := by
          rw [hadvMid.stopped, hadvanced.stopped]
          exact hrunning
        obtain ⟨ent', hrest, hconsistent, hdiscard, hadvRest⟩ := ih hmid hdMid hmidRunning
        refine ⟨ent', ?_, hconsistent, hdiscard, (hadvanced.trans hadvMid).trans hadvRest⟩
        rw [hok, ok_bind]
        exact hrest
    · exact ⟨ent, rfl, h, hd, Advanced.refl ent⟩

theorem writeIfReady_rewritten (count : Nat) :
    Rewritten ent (ent.writeIfReady.setTxTransCrypto count) ∧
      ent.writeIfReady.st.txReordCrypto = ent.st.txReordCrypto ∧
      ent.writeIfReady.cryptoReorderingTimerRunning = ent.cryptoReorderingTimerRunning ∧
      ent.writeIfReady.discardTimer = ent.discardTimer := by
  rw [writeIfReady]
  cases hget : ent.txWindow.txWindow.get? ent.st.txTransCrypto with
  | none => exact ⟨⟨rfl, rfl, rfl, rfl, rfl, rfl, fun _ => rfl⟩, rfl, rfl, rfl⟩
  | some elem =>
    dsimp only
    split
    · exact ⟨⟨rfl, rfl, rfl, rfl, rfl, rfl, fun _ => rfl⟩, rfl, rfl, rfl⟩
    · refine ⟨⟨rfl, rfl, rfl, rfl, rfl, CircularMap.capacity_overwrite _ _ _, ?_⟩, rfl, rfl, rfl⟩
      intro other
      have hsame := setElement_rewritten (e := { elem with pdu := [] }) hget rfl other
      exact hsame

theorem releaseBelowReord_consistent (h : Consistent ent)
    (hturns : ent.st.txTransCrypto + turns ≤ ent.st.txNext) :
    Consistent (releaseBelowReord turns ent) ∧ Advanced ent (releaseBelowReord turns ent) ∧
      (releaseBelowReord turns ent).discardTimer = ent.discardTimer := by
  induction turns generalizing ent with
  | zero => exact ⟨h, Advanced.refl ent, rfl⟩
  | succ turns ih =>
    have hnext : ent.st.txNext < 2 ^ 32 := h.next_lt
    have hmod : (ent.st.txTransCrypto + 1) % 2 ^ 32 = ent.st.txTransCrypto + 1 :=
      Nat.mod_eq_of_lt (by omega)
    rw [releaseBelowReord, hmod]
    obtain ⟨hw, hreord, htimer, hdiscard⟩ := @writeIfReady_rewritten ent (ent.st.txTransCrypto + 1)
    have hcrypto : (ent.writeIfReady.setTxTransCrypto (ent.st.txTransCrypto + 1)).st.txTransCrypto =
        ent.st.txTransCrypto + 1 := rfl
    have hmid : Consistent (ent.writeIfReady.setTxTransCrypto (ent.st.txTransCrypto + 1)) :=
      h.rewritten hw (Nat.le_succ _) (by rw [hcrypto]; omega)
    have hadvanced : Advanced ent
        (ent.writeIfReady.setTxTransCrypto (ent.st.txTransCrypto + 1)) :=
      ⟨hw.cfg, hw.stopped, hw.txNext, hreord, htimer, Nat.le_succ _⟩
    obtain ⟨hconsistent, hadvRest, hdiscardRest⟩ := ih hmid (by rw [hcrypto, hw.txNext]; omega)
    exact ⟨hconsistent, hadvanced.trans hadvRest, hdiscardRest.trans hdiscard⟩

theorem startCryptoReordering_consistent (h : Consistent ent)
    (hlt : ent.st.txTransCrypto < ent.st.txNext) :
    Consistent ent.startCryptoReordering ∧ TimerConsistent ent.startCryptoReordering := by
  refine ⟨h.rewritten ⟨rfl, rfl, rfl, rfl, rfl, rfl, fun _ => rfl⟩ (Nat.le_refl _) h.crypto_le, ?_⟩
  intro _
  exact ⟨hlt, Nat.le_refl _⟩

theorem stopCryptoReordering_consistent (h : Consistent ent) : Consistent ent.stopCryptoReordering :=
  h.rewritten ⟨rfl, rfl, rfl, rfl, rfl, rfl, fun _ => rfl⟩ (Nat.le_refl _) h.crypto_le

theorem updateCryptoReordering_consistent (h : Consistent ent) (hd : DiscardConsistent ent)
    (hreord : ent.cryptoReorderingTimerRunning = true → ent.st.txReordCrypto ≤ ent.st.txNext) :
    Consistent ent.updateCryptoReordering ∧ TimerConsistent ent.updateCryptoReordering ∧
      DiscardConsistent ent.updateCryptoReordering := by
  have hstop : ∃ mid : PdcpEntityTx, (if ent.cryptoReorderingTimerRunning ∧
        ent.st.txTransCrypto ≥ ent.st.txReordCrypto then ent.stopCryptoReordering else ent) = mid ∧
      Consistent mid ∧ TimerConsistent mid ∧ DiscardConsistent mid := by
    by_cases hcond : ent.cryptoReorderingTimerRunning = true ∧
        ent.st.txTransCrypto ≥ ent.st.txReordCrypto
    · exact ⟨_, if_pos hcond, stopCryptoReordering_consistent h, nofun, hd⟩
    · refine ⟨ent, if_neg hcond, h, ?_, hd⟩
      intro hrunning
      exact ⟨Nat.lt_of_not_le fun hge => hcond ⟨hrunning, hge⟩, hreord hrunning⟩
  obtain ⟨mid, heq, hmid, htimer, hdiscard⟩ := hstop
  rw [updateCryptoReordering, heq]
  split
  · rename_i hcond
    obtain ⟨hc, ht⟩ := startCryptoReordering_consistent hmid hcond.2
    exact ⟨hc, ht, hdiscard⟩
  · exact ⟨hmid, htimer, hdiscard⟩

/-- The whole invariant between two events. -/
structure Inv (ent : PdcpEntityTx) : Prop where
  consistent : Consistent ent
  timer : TimerConsistent ent
  discard : DiscardConsistent ent

variable {info : PdcpTxBufferInfo}

theorem parkPdu_consistent (h : Consistent ent) (hget : ent.txWindow.get? info.count = some elem) :
    Consistent (ent.parkPdu elem info) := by
  refine h.rewritten ⟨rfl, rfl, rfl, rfl, rfl, CircularMap.capacity_overwrite _ _ _, ?_⟩
    (Nat.le_refl _) h.crypto_le
  intro other
  have hsame := setElement_rewritten (e := { elem with pdu := info.buf, pduIsRetx := info.isRetx })
    hget rfl other
  exact hsame

theorem applyReordering_ok (h : Inv ent) :
    ∃ ent', ent.applyReordering info = .ok ent' ∧ Inv ent' := by
  rw [applyReordering]
  split
  · rename_i haccepts
    rw [acceptsResult, Bool.and_eq_true, Bool.and_eq_true, Bool.and_eq_true, Bool.and_eq_true,
      Bool.not_eq_true'] at haccepts
    obtain ⟨elem, hget, helem⟩ := element_ok haccepts.2
    have hrunning : (ent.parkPdu elem info).stopped = false := haccepts.1.1.1.1
    have hparked := parkPdu_consistent h.consistent hget
    have hd : DiscardConsistent (ent.parkPdu elem info) := h.discard
    obtain ⟨mid, hok, hmid, hdMid, hadvanced⟩ := releaseLoop_ok (r := info.isRetx)
      (t := (ent.parkPdu elem info).st.txNext - (ent.parkPdu elem info).st.txTransCrypto)
      hparked hd hrunning
    have hreord : mid.cryptoReorderingTimerRunning = true →
        mid.st.txReordCrypto ≤ mid.st.txNext := by
      rw [hadvanced.timer, hadvanced.txReordCrypto, hadvanced.txNext]
      intro htimer
      exact (h.timer htimer).2
    obtain ⟨hc, ht, hdis⟩ := updateCryptoReordering_consistent hmid hdMid hreord
    refine ⟨mid.updateCryptoReordering, ?_, hc, ht, hdis⟩
    rw [helem, ok_bind, releaseInOrder, hok, ok_bind]
  · exact ⟨ent, rfl, h⟩

theorem cryptoReorderingTimeout_ok (h : Inv ent)
    (hrunning : ent.cryptoReorderingTimerRunning = true) :
    ∃ ent', ent.cryptoReorderingTimeout = .ok ent' ∧ Inv ent' := by
  obtain ⟨hlt, hle⟩ := h.timer hrunning
  have hstopped := stopCryptoReordering_consistent h.consistent
  rw [cryptoReorderingTimeout]
  split
  · exact ⟨_, rfl, hstopped, nofun, h.discard⟩
  · rename_i hon
    rw [Bool.not_eq_true] at hon
    have hdistance : countDistance ent.stopCryptoReordering.st.txTransCrypto
        ent.stopCryptoReordering.st.txReordCrypto = ent.st.txReordCrypto - ent.st.txTransCrypto :=
      countDistance_of_le (Nat.le_of_lt hlt) (Nat.lt_of_le_of_lt hle h.consistent.next_lt)
    have hturns : ent.stopCryptoReordering.st.txTransCrypto +
        countDistance ent.stopCryptoReordering.st.txTransCrypto
          ent.stopCryptoReordering.st.txReordCrypto ≤ ent.stopCryptoReordering.st.txNext := by
      rw [hdistance]
      have hsum : ent.st.txTransCrypto + (ent.st.txReordCrypto - ent.st.txTransCrypto) ≤
          ent.st.txNext := by omega
      exact hsum
    obtain ⟨hfirst, hadvFirst, hdFirst⟩ := releaseBelowReord_consistent hstopped hturns
    dsimp only
    generalize releaseBelowReord (countDistance ent.stopCryptoReordering.st.txTransCrypto
      ent.stopCryptoReordering.st.txReordCrypto) ent.stopCryptoReordering = first
      at hfirst hadvFirst hdFirst ⊢
    have hdiscard : DiscardConsistent first := by
      rw [DiscardConsistent, hdFirst, hadvFirst.cfg]
      exact h.discard
    have hfirstOn : first.stopped = false := hadvFirst.stopped.trans hon
    obtain ⟨mid, hok, hmid, hdMid, hadvanced⟩ := releaseLoop_ok (r := false)
      (t := first.st.txNext - first.st.txTransCrypto) hfirst hdiscard hfirstOn
    rw [releaseInOrder, hok, ok_bind]
    split
    · rename_i hwait
      obtain ⟨hc, ht⟩ := startCryptoReordering_consistent hmid hwait
      exact ⟨_, rfl, hc, ht, hdMid⟩
    · refine ⟨mid, rfl, hmid, ?_, hdMid⟩
      intro hmidRunning
      rw [hadvanced.timer, hadvFirst.timer] at hmidRunning
      cases hmidRunning

/-- The events that only concern jobs, notices, limits and security. -/
structure SameWindow (ent ent' : PdcpEntityTx) : Prop where
  cfg : ent'.cfg = ent.cfg
  st : ent'.st = ent.st
  window : ent'.txWindow = ent.txWindow
  stopped : ent'.stopped = ent.stopped
  cryptoTimer : ent'.cryptoReorderingTimerRunning = ent.cryptoReorderingTimerRunning
  discardTimer : ent'.discardTimer = ent.discardTimer

theorem SameWindow.trans (h : SameWindow ent mid) (h' : SameWindow mid ent') :
    SameWindow ent ent' where
  cfg := h'.cfg.trans h.cfg
  st := h'.st.trans h.st
  window := h'.window.trans h.window
  stopped := h'.stopped.trans h.stopped
  cryptoTimer := h'.cryptoTimer.trans h.cryptoTimer
  discardTimer := h'.discardTimer.trans h.discardTimer

theorem Consistent.same (h : Consistent ent) (hs : SameWindow ent ent') : Consistent ent' := by
  have hw : Rewritten ent ent' := by
    refine ⟨hs.cfg, hs.stopped, ?_, ?_, ?_, ?_, ?_⟩
    · rw [hs.st]
    · rw [hs.st]
    · rw [hs.st]
    · rw [hs.window]
    · rw [hs.window]
      intro count
      rfl
  apply h.rewritten hw
  · rw [hs.st]
  · rw [hs.st]
    exact h.crypto_le

theorem Inv.same (h : Inv ent) (hs : SameWindow ent ent') : Inv ent' where
  consistent := h.consistent.same hs
  timer := by
    rw [TimerConsistent, hs.cryptoTimer, hs.st]
    exact h.timer
  discard := by
    rw [DiscardConsistent, hs.discardTimer, hs.cfg]
    exact h.discard

theorem getCircularIdx_eq_mod {map : CircularMap PdcpTxWindowElement} {snSize : PdcpSnSize}
    (hcapacity : map.capacity = pdcpWindowSize snSize) (count : Nat) :
    map.getCircularIdx count = count % pdcpWindowSize snSize := by
  rw [CircularMap.getCircularIdx, hcapacity]
  cases snSize with
  | size12bits => exact Nat.and_two_pow_sub_one_eq_mod count 11
  | size18bits => exact Nat.and_two_pow_sub_one_eq_mod count 17

/-- A new SDU does not take the slot of a COUNT less than a window below. -/
theorem get?_addSdu {snSize : PdcpSnSize}
    (hcapacity : window.txWindow.capacity = pdcpWindowSize snSize) (hlt : count < elem.count)
    (hnear : elem.count < count + pdcpWindowSize snSize) :
    (window.addSdu elem).get? count = window.get? count := by
  rw [addSdu, get?, CircularMap.get?_overwrite, if_neg (Nat.ne_of_lt hlt),
    if_neg]
  · rfl
  · rw [getCircularIdx_eq_mod hcapacity, getCircularIdx_eq_mod hcapacity]
    cases snSize <;> simp only [pdcpWindowSize] at hnear ⊢ <;> omega

theorem get?_addSdu_cases {value : PdcpTxWindowElement}
    (hget : (window.addSdu elem).get? count = some value) :
    (count = elem.count ∧ value = elem) ∨ window.get? count = some value := by
  rw [addSdu, get?, CircularMap.get?_overwrite] at hget
  split at hget
  · rename_i heq
    left
    exact ⟨heq, (Option.some.inj hget).symm⟩
  · split at hget
    · cases hget
    · exact Or.inr hget

def withSdu (ent : PdcpEntityTx) (elem : PdcpTxWindowElement) : PdcpEntityTx :=
  { ent with
    txWindow := ent.txWindow.addSdu elem
    st := { ent.st with txNext := ent.st.txNext + 1 } }

theorem withSdu_consistent (h : Consistent ent) (hrunning : ent.stopped = false)
    (hcount : elem.count = ent.st.txNext) (hhard : ent.st.txNext + 1 < 2 ^ 32)
    (hroom : ent.st.txNext < ent.st.txTransCrypto + pdcpWindowSize ent.cfg.snSize)
    (hbound : ent.cfg.isSrb = false →
      ent.st.txNext + 1 < ent.st.txNextAck + pdcpWindowSize ent.cfg.snSize)
    (harrival : ∀ duration, ent.cfg.discardTimer = some (.ms duration) →
      elem.tickPointOfArrival.isSome = true) : Consistent (ent.withSdu elem) where
  __ := h
  crypto_le := Nat.le_succ_of_le h.crypto_le
  next_lt := hhard
  lowerEdge := by
    intro count value hget
    obtain ⟨heq, _⟩ | hold := get?_addSdu_cases hget
    · rw [heq, hcount]
      exact Nat.le_trans h.ack_le (Nat.le_trans h.trans_le h.crypto_le)
    · exact h.lowerEdge count value hold
  upperEdge := by
    intro count value hget
    obtain ⟨heq, _⟩ | hold := get?_addSdu_cases hget
    · rw [heq, hcount]
      exact Nat.lt_succ_self _
    · exact Nat.lt_succ_of_lt (h.upperEdge count value hold)
  present := by
    intro _ count hge hlt
    have hle : count ≤ ent.st.txNext := Nat.le_of_lt_succ hlt
    rw [hasSn_eq, withSdu]
    dsimp only
    by_cases heq : count = ent.st.txNext
    · rw [addSdu, get?, CircularMap.get?_overwrite, hcount, if_pos heq]
      rfl
    · have hcrypto : ent.st.txTransCrypto ≤ count := hge
      have hbelow : count < ent.st.txNext := Nat.lt_of_le_of_ne hle heq
      rw [get?_addSdu h.capacity (by omega) (by omega)]
      exact h.present hrunning count hcrypto hbelow
  stoppedEmpty := by
    intro hstopped
    have hnot : ent.stopped = true := hstopped
    rw [hrunning] at hnot
    cases hnot
  capacity := by
    rw [withSdu]
    exact (CircularMap.capacity_overwrite _ _ _).trans h.capacity
  bound := hbound
  arrival := by
    intro duration hduration count value hget
    obtain ⟨_, heq⟩ | hold := get?_addSdu_cases hget
    · rw [heq]
      exact harrival duration hduration
    · exact h.arrival duration hduration count value hold

theorem startDiscardTimer_eq : ∃ timer, ent.startDiscardTimer = { ent with discardTimer := timer } ∧
    timer.now = ent.discardTimer.now ∧ (timer.running = true → ent.discardTimer.running = true ∨
      ∃ duration, ent.cfg.discardTimer = some (.ms duration)) := by
  rw [startDiscardTimer]
  split
  · rename_i duration heq
    split
    · exact ⟨_, rfl, rfl, Or.inl⟩
    · exact ⟨_, rfl, rfl, fun _ => Or.inr ⟨duration, heq⟩⟩
  · exact ⟨_, rfl, rfl, Or.inl⟩

theorem startDiscardTimer_trimmed : Trimmed ent ent.startDiscardTimer := by
  obtain ⟨timer, heq, hnow, _⟩ := @startDiscardTimer_eq ent
  rw [heq]
  exact setDiscardTimer_trimmed hnow

theorem Inv.startDiscardTimer (h : Inv ent) : Inv ent.startDiscardTimer ∧
    ent.startDiscardTimer.st = ent.st ∧ ent.startDiscardTimer.cfg = ent.cfg ∧
    ent.startDiscardTimer.stopped = ent.stopped := by
  obtain ⟨timer, heq, hnow, hfinite⟩ := @startDiscardTimer_eq ent
  rw [heq]
  exact ⟨⟨h.consistent.kept (setDiscardTimer_kept h.consistent hnow), h.timer,
    fun hrunning => (hfinite hrunning).elim h.discard id⟩, rfl, rfl, rfl⟩

theorem checkMaxCountNotify_same : SameWindow ent ent.checkMaxCountNotify := by
  rw [checkMaxCountNotify]
  split <;> exact ⟨rfl, rfl, rfl, rfl, rfl, rfl⟩

theorem refuseMaxCount_same : SameWindow ent ent.refuseMaxCount := by
  rw [refuseMaxCount]
  split <;> exact ⟨rfl, rfl, rfl, rfl, rfl, rfl⟩

variable {buf : List UInt8}

theorem checkEarlyDrop_bound (hnext : ent.st.txNext < 2 ^ 32)
    (hack : ent.st.txNextAck ≤ ent.st.txNext) (hdrop : ent.checkEarlyDrop buf = .noDrop) :
    ent.st.txNext + 1 < ent.st.txNextAck + pdcpWindowSize ent.cfg.snSize := by
  rw [checkEarlyDrop] at hdrop
  split at hdrop
  · cases hdrop
  · split at hdrop
    · cases hdrop
    · split at hdrop
      · cases hdrop
      · rename_i hwindow
        rw [countDistance_of_le hack hnext] at hwindow
        omega

theorem transmitSdu_ok {now : Nat} (h : Inv ent) (hrunning : ent.stopped = false)
    (hroom : ent.st.txNext < ent.cfg.maxCount.hard →
      ent.st.txNext < ent.st.txTransCrypto + pdcpWindowSize ent.cfg.snSize)
    (hbound : ent.cfg.isSrb = false →
      ent.st.txNext + 1 < ent.st.txNextAck + pdcpWindowSize ent.cfg.snSize) :
    ∃ ent', ent.transmitSdu buf now = .ok ent' ∧ Inv ent' ∧ ent'.cfg = ent.cfg ∧
      ent'.stopped = ent.stopped ∧ ent'.st.txTransCrypto = ent.st.txTransCrypto ∧
      ent.st.txNext ≤ ent'.st.txNext ∧ ent'.st.txNext ≤ ent.st.txNext + 1 := by
  rw [transmitSdu]
  split
  · have hsame := @refuseMaxCount_same ent
    refine ⟨_, rfl, h.same hsame, hsame.cfg, hsame.stopped, ?_⟩
    rw [hsame.st]
    exact ⟨rfl, Nat.le_refl _, Nat.le_succ _⟩
  · rename_i hhard
    rw [Nat.not_le] at hhard
    have hsame := @checkMaxCountNotify_same ent
    obtain ⟨hinv, hst, hcfg, hstopped⟩ := (h.same hsame).startDiscardTimer
    rw [hsame.st] at hst
    rw [hsame.cfg] at hcfg
    rw [hsame.stopped] at hstopped
    generalize ent.checkMaxCountNotify.startDiscardTimer = mid at hinv hst hcfg hstopped ⊢
    dsimp only
    split
    · rename_i hpresent
      obtain ⟨elem, helem⟩ := Option.isSome_iff_exists.mp hpresent
      exact absurd (hinv.consistent.upperEdge _ elem helem) (Nat.lt_irrefl _)
    · have hnext : ent.st.txNext + 1 < 2 ^ 32 := Nat.lt_of_le_of_lt hhard ent.cfg.maxCount.hard_lt
      have hmod : (mid.st.txNext + 1) % 2 ^ 32 = mid.st.txNext + 1 := by
        rw [hst]
        exact Nat.mod_eq_of_lt hnext
      have hwith : Consistent (mid.withSdu (mid.windowElement buf now)) := by
        apply withSdu_consistent hinv.consistent (hstopped.trans hrunning) rfl
        · rw [hst]
          exact hnext
        · rw [hst, hcfg]
          exact hroom hhard
        · rw [hst, hcfg]
          exact hbound
        · intro duration hduration
          rw [windowElement, hduration]
          rfl
      have hinvWith : Inv (mid.withSdu (mid.windowElement buf now)) := by
        refine ⟨hwith, ?_, hinv.discard⟩
        intro htimer
        obtain ⟨hlt, hle⟩ := hinv.timer htimer
        exact ⟨hlt, Nat.le_succ_of_le hle⟩
      have hassigned : SameWindow (mid.withSdu (mid.windowElement buf now))
          (mid.assignCount buf now) := by
        refine ⟨rfl, ?_, rfl, rfl, rfl, rfl⟩
        rw [assignCount, withSdu]
        dsimp only [submit]
        rw [hmod]
      refine ⟨_, rfl, hinvWith.same hassigned, hcfg, hstopped, ?_⟩
      rw [hassigned.st, withSdu, hst]
      exact ⟨rfl, Nat.le_succ _, Nat.le_refl _⟩

theorem handleSdu_ok {now : Nat} (h : Inv ent) (hroom : ent.buffering = false → RoomForSdus ent 1) :
    ∃ ent', ent.handleSdu buf now = .ok ent' ∧ Inv ent' ∧ ent'.cfg = ent.cfg ∧
      ent'.stopped = ent.stopped ∧ ent'.st.txTransCrypto = ent.st.txTransCrypto ∧
      ent.st.txNext ≤ ent'.st.txNext ∧ ent'.st.txNext ≤ ent.st.txNext + 1 := by
  rw [handleSdu]
  split
  · exact ⟨ent, rfl, h, rfl, rfl, rfl, Nat.le_refl _, Nat.le_succ _⟩
  · rename_i hrunning
    rw [Bool.not_eq_true] at hrunning
    split
    · split
      · exact ⟨_, rfl, h.same ⟨rfl, rfl, rfl, rfl, rfl, rfl⟩, rfl, rfl, rfl, Nat.le_refl _, Nat.le_succ _⟩
      · exact ⟨ent, rfl, h, rfl, rfl, rfl, Nat.le_refl _, Nat.le_succ _⟩
    · rename_i hbuffering
      rw [Bool.not_eq_true] at hbuffering
      split
      · exact ⟨ent, rfl, h, rfl, rfl, rfl, Nat.le_refl _, Nat.le_succ _⟩
      · rename_i hdrop
        have hack : ent.st.txNextAck ≤ ent.st.txTransCrypto :=
          Nat.le_trans h.consistent.ack_le h.consistent.trans_le
        have hbound : ent.cfg.isSrb = false →
            ent.st.txNext + 1 < ent.st.txNextAck + pdcpWindowSize ent.cfg.snSize := by
          intro hsrb
          exact checkEarlyDrop_bound h.consistent.next_lt
            (Nat.le_trans hack h.consistent.crypto_le) (not_not.mp fun hne => hdrop ⟨hsrb, hne⟩)
        apply transmitSdu_ok h hrunning _ hbound
        intro hhard
        cases hsrb : ent.cfg.isSrb with
        | true => exact hroom hbuffering hsrb hrunning hhard
        | false =>
          have hlt := hbound hsrb
          omega

theorem handleSdus_ok {sdus : List (List UInt8)} {now : Nat} (h : Inv ent)
    (hroom : RoomForSdus ent sdus.length) :
    ∃ ent', sdus.foldlM (fun ent buf => ent.handleSdu buf now) ent = .ok ent' ∧ Inv ent' := by
  induction sdus generalizing ent with
  | nil => exact ⟨ent, rfl, h⟩
  | cons buf rest ih =>
    obtain ⟨mid, hok, hmid, hcfg, hstopped, hcrypto, hge, hnext⟩ := @handleSdu_ok ent buf now h (by
      intro _ hsrb hrunning hhard
      have hsum := hroom hsrb hrunning hhard
      rw [List.length_cons] at hsum
      omega)
    rw [List.foldlM_cons, hok, ok_bind]
    apply ih hmid
    rw [RoomForSdus, hcfg, hstopped, hcrypto]
    intro hsrb hrunning hhard
    have hsum := hroom hsrb hrunning (Nat.lt_of_le_of_lt hge hhard)
    rw [List.length_cons] at hsum
    omega

theorem submit_same (isRetx : Bool) (count : Nat) (buf : List UInt8) :
    SameWindow ent (ent.submit isRetx count buf) := ⟨rfl, rfl, rfl, rfl, rfl, rfl⟩

theorem retransmitLoop_same : SameWindow ent (retransmitLoop turns count ent) := by
  induction turns generalizing ent count with
  | zero => exact ⟨rfl, rfl, rfl, rfl, rfl, rfl⟩
  | succ turns ih =>
    rw [retransmitLoop]
    split
    · exact (submit_same true count _).trans ih
    · exact ih

theorem rewind_inv (h : Inv ent)
    (hpresent : ∀ count, count < ent.st.txNext → ent.st.txNextAck ≤ count →
      ent.stopped = false → ent.txWindow.hasSn count = true) : Inv ent.rewind := by
  have hc := h.consistent
  have hack : ent.st.txNextAck ≤ ent.st.txTransCrypto := Nat.le_trans hc.ack_le hc.trans_le
  refine ⟨⟨Nat.le_refl _, Nat.le_refl _, Nat.le_trans hack hc.crypto_le, hc.next_lt, hc.lowerEdge,
    hc.upperEdge, ?_, hc.stoppedEmpty, hc.capacity, hc.bound, hc.arrival⟩, ?_, h.discard⟩
  · intro hrunning count hge hlt
    exact hpresent count hlt hge hrunning
  · intro htimer
    obtain ⟨hlt, hle⟩ := h.timer htimer
    exact ⟨Nat.lt_of_le_of_lt hack hlt, hle⟩

theorem retransmitAllPdus_inv (h : Inv ent) (hgaps : ent.stopped = false → NoGaps ent) :
    Inv ent.retransmitAllPdus := by
  rw [retransmitAllPdus]
  split
  · exact h
  · rename_i hcond
    rw [not_or, Bool.not_eq_true, ← Option.not_isSome, Bool.not_eq_false'] at hcond
    have hrewound : Inv ent.rewind := by
      apply rewind_inv h
      intro count hlt hge hrunning
      exact hgaps hrunning hcond.1 count hlt hge
    exact hrewound.same retransmitLoop_same

theorem configureSecurity_same (secCfg : Sec128AsConfig) (integrityEnabled cipheringEnabled : Bool) :
    SameWindow ent (ent.configureSecurity secCfg integrityEnabled cipheringEnabled) := by
  rw [configureSecurity]
  split <;> exact ⟨rfl, rfl, rfl, rfl, rfl, rfl⟩

theorem reset_inv (h : Inv ent) (htimer : ent.cryptoReorderingTimerRunning = false) : Inv ent.reset where
  consistent := by
    refine ⟨Nat.le_refl _, Nat.le_refl _, Nat.le_refl _, Nat.two_pow_pos 32, ?_, ?_, ?_, ?_,
      h.consistent.capacity, ?_, ?_⟩
    · intro count elem hget
      cases hget
    · intro count elem hget
      cases hget
    · intro _ count _ hlt
      cases hlt
    · intro _ count
      rfl
    · intro _
      exact Nat.lt_add_of_pos_right (pdcpWindowSize_pos ent.cfg.snSize)
    · intro _ _ count elem hget
      cases hget
  timer := by
    intro hrunning
    have hnot : ent.cryptoReorderingTimerRunning = true := hrunning
    rw [htimer] at hnot
    cases hnot
  discard := h.discard

theorem reestablish_inv {secCfg : Sec128AsConfig} (h : Inv ent)
    (hsafe : ent.safe (.reestablish secCfg) = true) : Inv (ent.reestablish secCfg) := by
  rw [safe] at hsafe
  have hstart : Inv (ent.notify .reestablished) := h.same ⟨rfl, rfl, rfl, rfl, rfl, rfl⟩
  have hrestart : ∃ mid : PdcpEntityTx, (if (ent.notify .reestablished).cfg.isSrb ∨
        (ent.notify .reestablished).cfg.isUm then (ent.notify .reestablished).reset
      else ent.notify .reestablished) = mid ∧ Inv mid ∧ NoGaps mid := by
    by_cases hcond : ent.cfg.isSrb = true ∨ ent.cfg.isUm = true
    · rw [if_pos (by rw [Bool.or_eq_true]; exact hcond), Bool.not_eq_true'] at hsafe
      refine ⟨_, if_pos hcond, reset_inv hstart hsafe, ?_⟩
      intro _ count hlt
      cases hlt
    · rw [if_neg (by rw [Bool.or_eq_true]; exact hcond)] at hsafe
      exact ⟨_, if_neg hcond, hstart, of_decide_eq_true hsafe⟩
  obtain ⟨mid, heq, hmid, hgaps⟩ := hrestart
  rw [reestablish, heq]
  have hsame : SameWindow mid (mid.configureSecurity secCfg mid.integrityEnabled
      mid.cipheringEnabled) := configureSecurity_same _ _ _
  have hsecured := hmid.same hsame
  split
  · apply retransmitAllPdus_inv hsecured
    intro _
    rw [NoGaps, hsame.cfg, hsame.st, hsame.window]
    exact hgaps
  · exact hsecured

theorem stop_inv (h : Inv ent) : Inv ent.stop := by
  rw [stop]
  split
  · exact h
  · have hc := h.consistent
    refine ⟨⟨hc.ack_le, hc.trans_le, hc.crypto_le, hc.next_lt, ?_, ?_, nofun, ?_, hc.capacity,
      hc.bound, ?_⟩, nofun, nofun⟩
    · intro count elem hget
      cases hget
    · intro count elem hget
      cases hget
    · intro _ count
      rfl
    · intro _ _ count elem hget
      cases hget

theorem Inv.kept (h : Inv ent) (hk : Kept ent ent') (hd : DiscardConsistent ent') : Inv ent' where
  consistent := h.consistent.kept hk
  timer := h.timer.trimmed hk.toTrimmed
  discard := hd

/-- The fault of a crypto job is the only one. -/
def Handled (result : Except TxFault PdcpEntityTx) : Prop :=
  (∃ ent', result = .ok ent' ∧ Inv ent') ∨ result = .error .badExpectedAccess

variable {engine : SecurityContext → SecurityEngine}

theorem applySecurity_fault {fault : TxFault} (h : applySecurity engine ent info = .error fault) :
    fault = .badExpectedAccess := by
  rw [applySecurity, applyCipheringAndIntegrityProtection] at h
  cases hengine : ent.secEngine with
  | none =>
    rw [hengine] at h
    dsimp only at h
    split at h <;> cases h
  | some context =>
    rw [hengine] at h
    dsimp only at h
    cases hprotect : (engine context).encryptAndProtectIntegrity info.buf
        (pdcpDataPduHeaderSize ent.cfg.snSize) info.count with
    | ok pdu =>
      rw [hprotect] at h
      cases h
    | error err =>
      rw [hprotect] at h
      cases h
      rfl

theorem runCryptoJob_handled {engine : SecurityContext → SecurityEngine} {idx : Nat} (h : Inv ent) :
    Handled (runCryptoJob engine ent idx) := by
  rw [runCryptoJob]
  cases ent.cryptoJobs[idx]? with
  | none => exact Or.inl ⟨ent, rfl, h⟩
  | some info =>
    dsimp only
    cases hsecurity : applySecurity engine ent info with
    | error fault =>
      right
      rw [applySecurity_fault hsecurity]
      rfl
    | ok result =>
      left
      exact ⟨_, rfl, h.same ⟨rfl, rfl, rfl, rfl, rfl, rfl⟩⟩

theorem runResult_ok {idx : Nat} (h : Inv ent) : ∃ ent', ent.runResult idx = .ok ent' ∧ Inv ent' := by
  rw [runResult]
  cases ent.cryptoResults[idx]? with
  | none => exact ⟨ent, rfl, h⟩
  | some result =>
    have htaken : Inv { ent with cryptoResults := ent.cryptoResults.eraseIdx idx } :=
      h.same ⟨rfl, rfl, rfl, rfl, rfl, rfl⟩
    cases result with
    | ok info => exact applyReordering_ok htaken
    | error err => exact ⟨_, rfl, htaken.same ⟨rfl, rfl, rfl, rfl, rfl, rfl⟩⟩

theorem notification_ok {result : Except TxFault PdcpEntityTx} (h : Inv ent)
    (hok : ∃ ent', result = .ok ent' ∧ Kept ent ent' ∧ DiscardConsistent ent') :
    ∃ ent', result = .ok ent' ∧ Inv ent' := by
  obtain ⟨ent', heq, hkept, hdiscard⟩ := hok
  exact ⟨ent', heq, h.kept hkept hdiscard⟩

theorem step_ok {event : TxEvent} (h : Inv ent) (henabled : ent.enabled event = true)
    (hsafe : ent.safe event = true) (hjob : ∀ idx, event ≠ .runCryptoJob idx) :
    ∃ ent', step engine ent event = .ok ent' ∧ Inv ent' := by
  cases event with
  | handleSdu buf now =>
    rw [safe, Bool.or_eq_true] at hsafe
    obtain ⟨ent', hok, hinv, _⟩ := @handleSdu_ok ent buf now h (by
      intro hbuffering
      rw [hbuffering] at hsafe
      exact of_decide_eq_true (hsafe.resolve_left Bool.false_ne_true))
    exact ⟨ent', hok, hinv⟩
  | beginBuffering => exact ⟨_, rfl, h.same ⟨rfl, rfl, rfl, rfl, rfl, rfl⟩⟩
  | endBuffering now =>
    have hidle : Inv { ent with buffering := false, sduBuffer := [] } :=
      h.same ⟨rfl, rfl, rfl, rfl, rfl, rfl⟩
    exact handleSdus_ok hidle (of_decide_eq_true hsafe)
  | runCryptoJob idx => exact absurd rfl (hjob idx)
  | loseCryptoJob idx => exact ⟨_, rfl, h.same ⟨rfl, rfl, rfl, rfl, rfl, rfl⟩⟩
  | runResult idx => exact runResult_ok h
  | loseResult idx => exact ⟨_, rfl, h.same ⟨rfl, rfl, rfl, rfl, rfl, rfl⟩⟩
  | cryptoReorderingExpiry => exact cryptoReorderingTimeout_ok h henabled
  | discardExpiry =>
    obtain ⟨duration, hduration⟩ := h.discard henabled
    obtain ⟨ent', hok, hkept⟩ :=
      discardCallback_ok h.consistent hduration (of_decide_eq_true hsafe)
    refine notification_ok h ⟨ent', hok, hkept, ?_⟩
    intro _
    rw [hkept.cfg]
    exact ⟨duration, hduration⟩
  | statusReport status =>
    have hkept := handleStatusReport_kept h.consistent (of_decide_eq_true hsafe)
    refine notification_ok h ⟨_, rfl, hkept, ?_⟩
    rw [DiscardConsistent, handleStatusReport_discardTimer, hkept.cfg]
    exact h.discard
  | transmitNotification notifSn =>
    apply notification_ok h
    rw [step, handleTransmitNotification]
    split
    · exact ⟨ent, rfl, Kept.refl h.consistent, h.discard⟩
    · apply handleTransmitNotificationImpl_ok h.consistent h.discard
      intro hum hsn htrans hcrypto
      rw [safe, hum, decide_eq_true hsn, decide_eq_true htrans, decide_eq_true hcrypto] at hsafe
      exact of_decide_eq_true hsafe
  | deliveryNotification notifSn =>
    apply notification_ok h
    rw [step, handleDeliveryNotification]
    split
    · exact ⟨ent, rfl, Kept.refl h.consistent, h.discard⟩
    · apply handleDeliveryNotificationImpl_ok h.consistent h.discard
      intro ham hsn
      rw [safe, ham, decide_eq_true hsn] at hsafe
      exact of_decide_eq_true hsafe
  | retransmitNotification notifSn =>
    apply notification_ok h
    rw [step, handleRetransmitNotification]
    split
    · exact ⟨ent, rfl, Kept.refl h.consistent, h.discard⟩
    · rename_i hcond
      apply handleTransmitNotificationImpl_ok h.consistent h.discard
      intro hum
      exact absurd (Or.inr (Or.inr hum)) hcond
  | deliveryRetransmittedNotification notifSn =>
    apply notification_ok h
    rw [step, handleDeliveryRetransmittedNotification]
    split
    · exact ⟨ent, rfl, Kept.refl h.consistent, h.discard⟩
    · rename_i hcond
      apply handleDeliveryNotificationImpl_ok h.consistent h.discard
      intro ham hsn
      have hsrb : ent.cfg.isSrb = false := by
        cases hs : ent.cfg.isSrb with
        | false => rfl
        | true => exact absurd (Or.inr (Or.inl hs)) hcond
      rw [safe, hsrb, ham, decide_eq_true hsn] at hsafe
      exact of_decide_eq_true hsafe
  | desiredBufferSize desiredBs =>
    refine ⟨_, rfl, ?_⟩
    rw [handleDesiredBufferSizeNotification]
    split
    · exact h
    · exact h.same ⟨rfl, rfl, rfl, rfl, rfl, rfl⟩
  | configureSecurity secCfg integrityEnabled cipheringEnabled =>
    exact ⟨_, rfl, h.same (configureSecurity_same _ _ _)⟩
  | dataRecovery =>
    refine ⟨_, rfl, ?_⟩
    have hstart : Inv (ent.notify .dataRecovery) := h.same ⟨rfl, rfl, rfl, rfl, rfl, rfl⟩
    exact retransmitAllPdus_inv hstart fun _ => of_decide_eq_true hsafe
  | reestablish secCfg => exact ⟨_, rfl, reestablish_inv h hsafe⟩
  | stop => exact ⟨_, rfl, stop_inv h⟩

theorem step_handled {event : TxEvent} (h : Inv ent) (henabled : ent.enabled event = true)
    (hsafe : ent.safe event = true) : Handled (step engine ent event) := by
  by_cases hjob : ∃ idx, event = .runCryptoJob idx
  · obtain ⟨idx, heq⟩ := hjob
    rw [heq]
    exact runCryptoJob_handled h
  · exact Or.inl (step_ok h henabled hsafe fun idx heq => hjob ⟨idx, heq⟩)

theorem setCount_inv (cfg : PdcpTxConfig) (hfn : Nat) {sn : Nat} (hsn : sn < 2 ^ 32) :
    Inv ((create cfg).setCount hfn sn) where
  consistent := by
    refine ⟨Nat.le_refl _, Nat.le_refl _, Nat.le_refl _, ?_, ?_, ?_, ?_, ?_, rfl, ?_, ?_⟩
    · exact Nat.or_lt_two_pow (Nat.mod_lt _ (Nat.two_pow_pos 32)) hsn
    · intro count elem hget
      cases hget
    · intro count elem hget
      cases hget
    · intro _ count hge hlt
      exact absurd hlt (Nat.not_lt_of_le hge)
    · intro hstopped
      cases hstopped
    · intro _
      exact Nat.lt_add_of_pos_right (pdcpWindowSize_pos cfg.snSize)
    · intro _ _ count elem hget
      cases hget
  timer := nofun
  discard := nofun

/-- In every run whose events concern nothing that is not passed on yet, the state variables are in
order, no SDU is read from the window that is not there, and the crypto reordering timer runs only
while TX_TRANS_CRYPTO is below TX_REORD_CRYPTO. -/
theorem pdcpTx_stateOrdered {engine : SecurityContext → SecurityEngine} {cfg : PdcpTxConfig}
    {hfn sn : Nat} (hsn : sn < 2 ^ 32)
    (hrun : Runs.Reaches (next engine) (fun ent event => ent.safe event = true)
      ((create cfg).setCount hfn sn) ent) :
    (ent.st.txNextAck ≤ ent.st.txTrans ∧ ent.st.txTrans ≤ ent.st.txTransCrypto ∧
        ent.st.txTransCrypto ≤ ent.st.txNext) ∧
      (∀ event fault, ent.enabled event = true → ent.safe event = true →
        step engine ent event = .error fault → fault = .badExpectedAccess) ∧
      (ent.cryptoReorderingTimerRunning = true →
        ent.st.txTransCrypto < ent.st.txReordCrypto ∧ ent.st.txReordCrypto ≤ ent.st.txNext) := by
  have hinv : Inv ent := by
    apply hrun.invariant (setCount_inv cfg hfn hsn)
    intro s event s' hs hsafe hnext
    rw [next] at hnext
    split at hnext
    · rename_i henabled
      have hhandled : Handled (step engine s event) := step_handled hs henabled hsafe
      obtain ⟨ent', hok, hent'⟩ | hfault := hhandled
      · rw [hok] at hnext
        cases hnext
        exact hent'
      · rw [hfault] at hnext
        cases hnext
    · cases hnext
  refine ⟨⟨hinv.consistent.ack_le, hinv.consistent.trans_le, hinv.consistent.crypto_le⟩, ?_,
    hinv.timer⟩
  intro event fault henabled hsafe hstep
  have hhandled : Handled (step engine ent event) := step_handled hinv henabled hsafe
  obtain ⟨ent', hok, _⟩ | hfault := hhandled
  · rw [hok] at hstep
    cases hstep
  · rw [hfault] at hstep
    cases hstep
    rfl

/-- An AM bearer whose second SDU is protected before the first. -/
theorem pdcpTx_stateOrdered_secondFirst : ∃ ent : PdcpEntityTx,
    (ent.st = { txNext := 2, txReordCrypto := 2 } ∧ ent.cryptoReorderingTimerRunning = true) ∧
      (ent.st.txNextAck ≤ ent.st.txTrans ∧ ent.st.txTrans ≤ ent.st.txTransCrypto ∧
        ent.st.txTransCrypto ≤ ent.st.txNext) ∧
      (∀ event fault, ent.enabled event = true → ent.safe event = true →
        step (fun _ => SecurityEngine.disabled) ent event = .error fault →
          fault = .badExpectedAccess) ∧
      (ent.cryptoReorderingTimerRunning = true →
        ent.st.txTransCrypto < ent.st.txReordCrypto ∧ ent.st.txReordCrypto ≤ ent.st.txNext) := by
  have hobserved : (Runs.runAll (Runs.guarded (next fun _ => SecurityEngine.disabled)
        fun ent event => ent.safe event = true)
      ((create ⟨.drb, .am, .size12bits, some .infinity, false,
        ⟨0xc0000000, 0xfffffffe, by decide⟩, (by rintro ⟨⟩)⟩).setCount 0 0)
      [.configureSecurity ⟨none, [], none, .nea0⟩ false false, .desiredBufferSize 1000,
        .handleSdu [0xaa] 0, .handleSdu [0xbb] 0, .runCryptoJob 1, .runResult 0]).map
      (fun ent => (ent.st, ent.cryptoReorderingTimerRunning)) =
      some ({ txNext := 2, txReordCrypto := 2 }, true) := by
    decide +kernel
  obtain ⟨ent, hrun, hent⟩ := Option.map_eq_some_iff.mp hobserved
  rw [Prod.mk.injEq] at hent
  exact ⟨ent, hent, pdcpTx_stateOrdered (by decide) (Runs.reaches_of_runGuarded .start hrun)⟩

def fault? : Except TxFault PdcpEntityTx → Option TxFault
  | .ok _ => none
  | .error fault => some fault

/-- COUNTs 0 to 2 are sent, the peer reports 1 as received, and data recovery protects 0 and 2 again:
the result for COUNT 0 reads COUNT 1, which is no longer in the window. -/
theorem pdcpTx_absentCountRead : ∃ ent : PdcpEntityTx,
    Runs.Reaches (next fun _ => SecurityEngine.disabled) (fun _ _ => True)
        ((create ⟨.drb, .am, .size12bits, some .infinity, false,
          ⟨0xc0000000, 0xfffffffe, by decide⟩, nofun⟩).setCount 0 0) ent ∧
      fault? (step (fun _ => SecurityEngine.disabled) ent (.runResult 0)) =
        some (.absentCount 1) := by
  have hobserved : (Runs.runAll (next fun _ => SecurityEngine.disabled)
      ((create ⟨.drb, .am, .size12bits, some .infinity, false,
        ⟨0xc0000000, 0xfffffffe, by decide⟩, nofun⟩).setCount 0 0)
      [.configureSecurity ⟨none, [], none, .nea0⟩ false false, .desiredBufferSize 1000,
        .handleSdu [0xaa] 0, .handleSdu [0xbb] 0, .handleSdu [0xcc] 0,
        .runCryptoJob 0, .runCryptoJob 0, .runCryptoJob 0, .runResult 0, .runResult 0, .runResult 0,
        .statusReport [0x00, 0, 0, 0, 0, 0x80], .dataRecovery, .runCryptoJob 0]).map
      (fun ent => fault? (step (fun _ => SecurityEngine.disabled) ent (.runResult 0))) =
      some (some (.absentCount 1)) := by
    decide +kernel
  obtain ⟨ent, hrun, hent⟩ := Option.map_eq_some_iff.mp hobserved
  exact ⟨ent, Runs.reaches_of_runAll .start (fun _ _ _ => trivial) hrun, hent⟩

end PdcpEntityTx

end Srsran.Pdcp
