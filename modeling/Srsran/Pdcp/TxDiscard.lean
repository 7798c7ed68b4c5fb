import Srsran.Lib.Checked
import Srsran.Pdcp.TxEntity

/-! What discards and notifications change in the transmitting PDCP entity: SDUs leave the window,
TX_NEXT_ACK and TX_TRANS move forward. -/
namespace Srsran.Pdcp
open Srsran.Adt Checked

def PdcpTxWindow.get? (window : PdcpTxWindow) (count : Nat) : Option PdcpTxWindowElement :=
  window.txWindow.get? count

namespace PdcpTxWindow
variable {window : PdcpTxWindow} {count other : Nat} {elem : PdcpTxWindowElement}

theorem hasSn_eq : window.hasSn count = (window.get? count).isSome := rfl

theorem hasSn_of_get? (h : window.get? count = some elem) : window.hasSn count = true := by
  rw [hasSn_eq, h]
  rfl

theorem get?_removeSdu :
    (window.removeSdu count).get? other = if other = count then none else window.get? other := by
  rw [removeSdu]
  cases hget : window.txWindow.get? count with
  | some elem => exact CircularMap.get?_erase _ _ _
  | none =>
    by_cases heq : other = count
    · rw [if_pos heq, heq]
      exact hget
    · rw [if_neg heq]

theorem capacity_removeSdu :
    (window.removeSdu count).txWindow.capacity = window.txWindow.capacity := by
  rw [removeSdu]
  cases window.txWindow.get? count with
  | some elem => exact CircularMap.capacity_erase _ _
  | none => rfl

variable {counts : List Nat}

theorem get?_foldl_removeSdu (h : (counts.foldl removeSdu window).get? other = some elem) :
    window.get? other = some elem := by
  induction counts generalizing window with
  | nil => exact h
  | cons count counts ih =>
    have hget := ih h
    rw [get?_removeSdu] at hget
    split at hget
    · cases hget
    · exact hget

theorem capacity_foldl_removeSdu :
    (counts.foldl removeSdu window).txWindow.capacity = window.txWindow.capacity := by
  induction counts generalizing window with
  | nil => rfl
  | cons count counts ih => exact ih.trans capacity_removeSdu

end PdcpTxWindow

namespace PdcpEntityTx
variable {ent ent' : PdcpEntityTx}

def core (ent : PdcpEntityTx) : PdcpEntityTx :=
  { ent with
    st := {}
    txWindow := { txWindow := CircularMap.empty _ 0 }
    discardTimer := { now := ent.discardTimer.now }
    notices := [] }

/-- No COUNT below TX_NEXT_ACK is in the window. -/
def LowerEdge (ent : PdcpEntityTx) : Prop :=
  ∀ count elem, ent.txWindow.get? count = some elem → ent.st.txNextAck ≤ count

def TxNotice.isDiscard : TxNotice → Bool
  | .discardPdu _ => true
  | _ => false

/-- SDUs have left the window at its lower edge or before it. -/
structure Trimmed (ent ent' : PdcpEntityTx) : Prop where
  core : ent'.core = ent.core
  txNext : ent'.st.txNext = ent.st.txNext
  txTransCrypto : ent'.st.txTransCrypto = ent.st.txTransCrypto
  txReordCrypto : ent'.st.txReordCrypto = ent.st.txReordCrypto
  nextAck : ent.st.txNextAck ≤ ent'.st.txNextAck
  nextAck_le : ent.st.txNextAck ≤ ent.st.txNext → ent'.st.txNextAck ≤ ent.st.txNext
  removed : ∃ counts : List Nat, ent'.txWindow = counts.foldl PdcpTxWindow.removeSdu ent.txWindow
  lowerEdge : LowerEdge ent → LowerEdge ent'
  notices : ∃ rest, ent'.notices = ent.notices ++ rest ∧ ∀ notice ∈ rest, TxNotice.isDiscard notice = true

section
variable (h : Trimmed ent ent')
include h

theorem Trimmed.cfg : ent'.cfg = ent.cfg := by
  have hcfg := congrArg PdcpEntityTx.cfg h.core
  exact hcfg

theorem Trimmed.stopped : ent'.stopped = ent.stopped := by
  have hstopped := congrArg PdcpEntityTx.stopped h.core
  exact hstopped

theorem Trimmed.cryptoTimer : ent'.cryptoReorderingTimerRunning = ent.cryptoReorderingTimerRunning := by
  have htimer := congrArg PdcpEntityTx.cryptoReorderingTimerRunning h.core
  exact htimer

theorem Trimmed.now : ent'.discardTimer.now = ent.discardTimer.now := by
  have hnow := congrArg (fun ent => ent.discardTimer.now) h.core
  exact hnow

theorem Trimmed.window (count : Nat) (elem : PdcpTxWindowElement)
    (hget : ent'.txWindow.get? count = some elem) : ent.txWindow.get? count = some elem := by
  obtain ⟨counts, heq⟩ := h.removed
  rw [heq] at hget
  exact PdcpTxWindow.get?_foldl_removeSdu hget

theorem Trimmed.capacity : ent'.txWindow.txWindow.capacity = ent.txWindow.txWindow.capacity := by
  obtain ⟨counts, heq⟩ := h.removed
  rw [heq, PdcpTxWindow.capacity_foldl_removeSdu]

end

theorem Trimmed.refl (ent : PdcpEntityTx) : Trimmed ent ent where
  core := rfl
  txNext := rfl
  txTransCrypto := rfl
  txReordCrypto := rfl
  nextAck := Nat.le_refl _
  nextAck_le := id
  removed := ⟨[], rfl⟩
  lowerEdge := id
  notices := ⟨[], (List.append_nil _).symm, by simp⟩

theorem Trimmed.trans {mid : PdcpEntityTx} (h : Trimmed ent mid) (h' : Trimmed mid ent') :
    Trimmed ent ent' where
  core := h'.core.trans h.core
  txNext := h'.txNext.trans h.txNext
  txTransCrypto := h'.txTransCrypto.trans h.txTransCrypto
  txReordCrypto := h'.txReordCrypto.trans h.txReordCrypto
  nextAck := Nat.le_trans h.nextAck h'.nextAck
  nextAck_le := by
    intro hle
    have hmid := h.nextAck_le hle
    rw [← h.txNext] at hmid ⊢
    exact h'.nextAck_le hmid
  removed := by
    obtain ⟨first, hfirst⟩ := h.removed
    obtain ⟨rest, hrest⟩ := h'.removed
    exact ⟨first ++ rest, by rw [hrest, hfirst, List.foldl_append]⟩
  lowerEdge := fun hedge => h'.lowerEdge (h.lowerEdge hedge)
  notices := by
    obtain ⟨first, hfirst, hdiscard⟩ := h.notices
    obtain ⟨rest, hrest, hdiscard'⟩ := h'.notices
    refine ⟨first ++ rest, by rw [hrest, hfirst, List.append_assoc], ?_⟩
    intro notice hmem
    exact (List.mem_append.mp hmem).elim (hdiscard notice) (hdiscard' notice)

variable {turns : Nat}

theorem skipAbsent_trimmed : Trimmed ent (skipAbsent turns ent) := by
  induction turns generalizing ent with
  | zero => exact Trimmed.refl ent
  | succ turns ih =>
    rw [skipAbsent]
    split
    · rename_i hcond
      obtain ⟨hlt, habsent⟩ := hcond
      have hstep : Trimmed ent { ent with st := { ent.st with txNextAck := ent.st.txNextAck + 1 } } := by
        refine ⟨rfl, rfl, rfl, rfl, Nat.le_succ _, fun _ => hlt, ⟨[], rfl⟩, ?_,
          [], (List.append_nil _).symm, by simp⟩
        intro hedge count elem hget
        refine Nat.lt_of_le_of_ne (hedge count elem hget) ?_
        intro heq
        subst heq
        rw [PdcpTxWindow.hasSn_of_get? hget] at habsent
        cases habsent
      exact hstep.trans ih
    · exact Trimmed.refl ent

theorem raiseTxTrans_trimmed : Trimmed ent ent.raiseTxTrans where
  __ := Trimmed.refl ent

theorem dropSdu_trimmed {count : Nat} : Trimmed ent (ent.dropSdu count) where
  __ := Trimmed.refl ent
  removed := ⟨[count], rfl⟩
  lowerEdge := by
    intro hedge other elem hget
    rw [dropSdu, PdcpTxWindow.get?_removeSdu] at hget
    split at hget
    · cases hget
    · exact hedge other elem hget
  notices := by
    refine ⟨[.discardPdu (pdcpComputeSn count ent.cfg.snSize)], rfl, ?_⟩
    intro notice hmem
    rw [List.mem_singleton.mp hmem]
    rfl

theorem discardPdu_trimmed (count : Nat) : Trimmed ent (ent.discardPdu count) := by
  rw [discardPdu]
  split
  · exact Trimmed.refl ent
  · split
    · exact Trimmed.refl ent
    · split
      · exact Trimmed.refl ent
      · exact (dropSdu_trimmed.trans skipAbsent_trimmed).trans raiseTxTrans_trimmed

section StatusReport
variable {motive : PdcpEntityTx → Prop} (hstep : ∀ ent count, motive ent → motive (ent.discardPdu count))
include hstep

theorem discardRange_induction {turns count : Nat} (h : motive ent) : motive (discardRange turns count ent) := by
  induction turns generalizing ent count with
  | zero => exact h
  | succ turns ih => exact ih (hstep ent count h)

/-- What each discarded PDU keeps, a status report keeps. -/
theorem handleStatusReport_induction {status : List UInt8} (h : motive ent) :
    motive (ent.handleStatusReport status) := by
  have hbitmap (bits : List Nat) : ∀ (fmc : Nat) (ent : PdcpEntityTx), motive ent →
      motive (discardBitmap bits fmc ent) := by
    induction bits with
    | nil => exact fun _ _ h => h
    | cons bit rest ih =>
      intro fmc ent h
      rw [discardBitmap]
      split
      · exact ih _ _ (hstep _ _ h)
      · exact ih _ _ h
  rw [handleStatusReport]
  cases decodeStatusReport status with
  | none => exact h
  | some report => exact hbitmap _ _ _ (discardRange_induction hstep h)

end StatusReport

theorem discardRange_trimmed {count : Nat} : Trimmed ent (discardRange turns count ent) :=
  discardRange_induction (fun _ _ h => h.trans (discardPdu_trimmed _)) (Trimmed.refl ent)

theorem handleStatusReport_trimmed (status : List UInt8) : Trimmed ent (ent.handleStatusReport status) :=
  handleStatusReport_induction (fun _ _ h => h.trans (discardPdu_trimmed _)) (Trimmed.refl ent)

theorem setDiscardTimer_trimmed {timer : DiscardTimer} (hnow : timer.now = ent.discardTimer.now) :
    Trimmed ent { ent with discardTimer := timer } where
  __ := Trimmed.refl ent
  core := by
    rw [core, hnow]
    rfl

theorem idle_trimmed : Trimmed ent { ent with discardTimer := ent.discardTimer.stop } :=
  setDiscardTimer_trimmed rfl

theorem expireSdu_trimmed (count : Nat) : Trimmed ent (ent.expireSdu count) :=
  (discardPdu_trimmed count).trans (setDiscardTimer_trimmed (discardPdu_trimmed count).now.symm)

theorem removeUpTo_trimmed (hturns : ent.st.txNextAck + turns ≤ ent.st.txNext) :
    Trimmed ent (removeUpTo turns ent) := by
  induction turns generalizing ent with
  | zero => exact Trimmed.refl ent
  | succ turns ih =>
    rw [removeUpTo]
    have hstep : Trimmed ent { ent with
        txWindow := ent.txWindow.removeSdu ent.st.txNextAck
        st := { ent.st with txNextAck := ent.st.txNextAck + 1 } } := by
      refine ⟨rfl, rfl, rfl, rfl, Nat.le_succ _, fun _ => ?_, ⟨[ent.st.txNextAck], rfl⟩, ?_,
        [], (List.append_nil _).symm, by simp⟩
      · have hle : ent.st.txNextAck + 1 ≤ ent.st.txNext := by omega
        exact hle
      · intro hedge count elem hget
        rw [PdcpTxWindow.get?_removeSdu] at hget
        split at hget
        · cases hget
        · rename_i hne
          exact Nat.lt_of_le_of_ne (hedge count elem hget) (Ne.symm hne)
    apply hstep.trans
    apply ih
    have hsum : ent.st.txNextAck + 1 + turns ≤ ent.st.txNext := by omega
    exact hsum

/-- A call with an early return trims the entity if the rest of it does. -/
theorem trimmed_of_ite {c : Prop} [Decidable c] {rest : Except TxFault PdcpEntityTx}
    (h : (if c then .ok ent else rest) = .ok ent') (hrest : ¬c → rest = .ok ent' → Trimmed ent ent') :
    Trimmed ent ent' := by
  split at h
  · cases h
    exact Trimmed.refl ent
  · rename_i hc
    exact hrest hc h

theorem restartDiscardTimer_trimmed (h : ent.restartDiscardTimer = .ok ent') : Trimmed ent ent' := by
  rw [restartDiscardTimer] at h
  refine trimmed_of_ite h fun _ h => ?_
  split at h
  · obtain ⟨elem, _, h⟩ := bind_ok h
    obtain ⟨tick, _, h⟩ := bind_ok h
    cases h
    exact setDiscardTimer_trimmed rfl
  · cases h
    exact Trimmed.refl ent

theorem stopDiscardTimer_trimmed {highestCount : Nat}
    (h : ent.stopDiscardTimer highestCount = .ok ent') : Trimmed ent ent' := by
  rw [stopDiscardTimer] at h
  refine trimmed_of_ite h fun _ h => trimmed_of_ite h fun hrange h => trimmed_of_ite h fun _ h => ?_
  rw [not_or, Nat.not_lt, ge_iff_le, Nat.not_le] at hrange
  have hturns : ent.st.txNextAck + (highestCount + 1 - ent.st.txNextAck) ≤ ent.st.txNext := by
    omega
  have hremoved : Trimmed { ent with discardTimer := ent.discardTimer.stop }
      (removeUpTo (highestCount + 1 - ent.st.txNextAck)
        { ent with discardTimer := ent.discardTimer.stop }) := removeUpTo_trimmed hturns
  exact ((idle_trimmed.trans hremoved).trans raiseTxTrans_trimmed).trans
    (restartDiscardTimer_trimmed h)

theorem setTxTrans_trimmed (txTrans : Nat) :
    Trimmed ent { ent with st := { ent.st with txTrans } } where
  __ := Trimmed.refl ent

variable {notifSn : Nat}

theorem handleTransmitNotificationImpl_trimmed
    (h : ent.handleTransmitNotificationImpl notifSn = .ok ent') : Trimmed ent ent' := by
  rw [handleTransmitNotificationImpl] at h
  refine trimmed_of_ite h fun _ h => trimmed_of_ite h fun _ h => trimmed_of_ite h fun _ h => ?_
  refine trimmed_of_ite h fun _ h => (setTxTrans_trimmed _).trans (trimmed_of_ite h fun _ h => ?_)
  split at h
  · exact stopDiscardTimer_trimmed h
  · cases h
    exact Trimmed.refl _

theorem handleDeliveryNotificationImpl_trimmed
    (h : ent.handleDeliveryNotificationImpl notifSn = .ok ent') : Trimmed ent ent' := by
  rw [handleDeliveryNotificationImpl] at h
  refine trimmed_of_ite h fun _ h => trimmed_of_ite h fun _ h => trimmed_of_ite h fun _ h => ?_
  split at h
  · exact stopDiscardTimer_trimmed h
  · cases h
    exact Trimmed.refl ent

theorem handleTransmitNotification_trimmed (h : ent.handleTransmitNotification notifSn = .ok ent') :
    Trimmed ent ent' := by
  rw [handleTransmitNotification] at h
  exact trimmed_of_ite h fun _ => handleTransmitNotificationImpl_trimmed

theorem handleDeliveryNotification_trimmed (h : ent.handleDeliveryNotification notifSn = .ok ent') :
    Trimmed ent ent' := by
  rw [handleDeliveryNotification] at h
  exact trimmed_of_ite h fun _ => handleDeliveryNotificationImpl_trimmed

theorem handleRetransmitNotification_trimmed
    (h : ent.handleRetransmitNotification notifSn = .ok ent') : Trimmed ent ent' := by
  rw [handleRetransmitNotification] at h
  exact trimmed_of_ite h fun _ => handleTransmitNotificationImpl_trimmed

theorem handleDeliveryRetransmittedNotification_trimmed
    (h : ent.handleDeliveryRetransmittedNotification notifSn = .ok ent') : Trimmed ent ent' := by
  rw [handleDeliveryRetransmittedNotification] at h
  exact trimmed_of_ite h fun _ => handleDeliveryNotificationImpl_trimmed

theorem discardLoop_trimmed {oldest : Nat} (h : discardLoop oldest turns ent = .ok ent') :
    Trimmed ent ent' := by
  induction turns generalizing ent with
  | zero =>
    cases h
    exact Trimmed.refl _
  | succ turns ih =>
    rw [discardLoop] at h
    have hdiscard : Trimmed ent (ent.expireSdu ent.st.txNextAck) := expireSdu_trimmed _
    apply hdiscard.trans
    generalize ent.expireSdu ent.st.txNextAck = mid at h
    split at h
    · cases h
      exact Trimmed.refl _
    · obtain ⟨tick, _, h⟩ := bind_ok h
      split at h
      · cases h
        exact setDiscardTimer_trimmed rfl
      · split at h
        · exact ih h
        · cases h
          exact Trimmed.refl _

theorem discardCallback_trimmed (h : ent.discardCallback = .ok ent') : Trimmed ent ent' := by
  rw [discardCallback] at h
  dsimp only at h
  split at h
  · cases h
    exact idle_trimmed
  · split at h
    · cases h
      exact idle_trimmed
    · obtain ⟨oldest, _, h⟩ := bind_ok h
      exact idle_trimmed.trans (discardLoop_trimmed h)

end PdcpEntityTx

end Srsran.Pdcp
