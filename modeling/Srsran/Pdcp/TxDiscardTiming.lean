import Mathlib.Order.Bounds.Basic
import Srsran.Pdcp.TxDiscardView

/-! The discard timer of the transmitting PDCP entity serves the deadlines of all SDUs in the window:
it runs for the oldest of them, in every run whose steps leave or find it so. -/
namespace Srsran.Pdcp
open Srsran.Adt Checked

def pdcpDiscardTimerValues : List Nat :=
  [10, 20, 30, 40, 50, 60, 75, 100, 150, 200, 250, 300, 500, 750, 1500]

inductive TimedTxEvent where
  | tick
  | entity (event : TxEvent)
  deriving DecidableEq, Repr

namespace PdcpEntityTx
variable {ent ent' : PdcpEntityTx}

def startAt (cfg : PdcpTxConfig) (hfn sn now : Nat) : PdcpEntityTx :=
  { (create cfg).setCount hfn sn with discardTimer := { now } }

/-- SDUs arrive now. The callback of the discard timer runs in the tick of the expiry or later. -/
def onTime (ent : PdcpEntityTx) : TxEvent → Bool
  | .handleSdu _ now => now == ent.discardTimer.now
  | .endBuffering now => now == ent.discardTimer.now
  | .discardExpiry => decide (ent.discardTimer.expiry ≤ ent.discardTimer.now)
  | _ => true

/-- The steps of the entity and the ticks between them. -/
def timedNext (engine : SecurityContext → SecurityEngine) (ent : PdcpEntityTx) :
    TimedTxEvent → Option PdcpEntityTx
  | .tick => some { ent with discardTimer := { ent.discardTimer with now := ent.discardTimer.now + 1 } }
  | .entity event => if ent.onTime event then next engine ent event else none

/-- No step but these takes the oldest SDU from under the timer, or starts the timer late. -/
def prompt (ent : PdcpEntityTx) : TxEvent → Bool
  | .handleSdu _ _ => ent.buffering || decide (ent.RoomInWindow 1)
  | .endBuffering _ => decide (ent.RoomInWindow ent.sduBuffer.length)
  | .runResult idx =>
    match ent.cryptoResults[idx]? with
    | some (.ok info) =>
      !(ent.notifiesItself && ent.acceptsResult info) ||
        decide (ent.AheadFrom ent.discardTimer.now (ent.st.txTransCrypto + 1))
    | _ => true
  | .cryptoReorderingExpiry =>
    !(ent.notifiesItself && !ent.stopped) ||
      decide (ent.AheadFrom ent.discardTimer.now (ent.resumeCount + 1))
  | .discardExpiry => ent.discardTimer.now == ent.discardTimer.expiry || decide ent.ArrivedTogether
  | .statusReport status => decide (ent.KeepsOldest status)
  | .transmitNotification notifSn =>
    let notifCount := ent.notificationCountEstimation notifSn
    !(ent.cfg.isUm && decide (notifSn < pdcpSnCardinality ent.cfg.snSize) &&
        decide (ent.st.txTrans ≤ notifCount) && decide (notifCount < ent.st.txTransCrypto)) ||
      decide (ent.StopsInTime ent.discardTimer.now notifCount)
  | .deliveryNotification notifSn =>
    !(ent.cfg.isAm && decide (notifSn < pdcpSnCardinality ent.cfg.snSize)) ||
      decide (ent.StopsInTime ent.discardTimer.now (ent.notificationCountEstimation notifSn))
  | .deliveryRetransmittedNotification notifSn =>
    !(!ent.cfg.isSrb && ent.cfg.isAm &&
        decide (notifSn < pdcpSnCardinality ent.cfg.snSize)) ||
      decide (ent.StopsInTime ent.discardTimer.now (ent.notificationCountEstimation notifSn))
  | .reestablish _ => !(ent.cfg.isSrb || ent.cfg.isUm) || !ent.discardTimer.running
  | _ => true

def Prompt (ent : PdcpEntityTx) : TimedTxEvent → Prop
  | .tick => True
  | .entity event => ent.prompt event = true

instance {event : TimedTxEvent} : Decidable (Prompt ent event) := by
  cases event <;> unfold Prompt <;> infer_instance

def deadlines (ent : PdcpEntityTx) (duration : Nat) : Set Nat :=
  {deadline | ∃ count arrival, ent.arrivalOf count = some arrival ∧ deadline = arrival + duration}

/-- What the discard timer is for: nothing expires early, the timer runs for the earliest deadline
while some deadline is not past, and no duration is negative. -/
structure Timely (duration : Nat) (ent : PdcpEntityTx) : Prop where
  expired : ∀ arrival removal, (arrival, removal) ∈ ent.discardTimer.expired →
    arrival + duration ≤ removal
  covered : (∃ deadline ∈ ent.deadlines duration, ent.discardTimer.now ≤ deadline) →
    ent.discardTimer.running = true ∧ IsLeast (ent.deadlines duration) ent.discardTimer.expiry
  newTimeouts : ∀ newTimeout ∈ ent.discardTimer.newTimeouts, 0 ≤ newTimeout

variable {duration : Nat}
open DiscardView

/-- The invariant of an entity with a finite discard timer. -/
structure Served (duration : Nat) (ent : PdcpEntityTx) : Prop where
  timer : ent.cfg.discardTimer = some (.ms duration)
  value : 0 < duration ∧ duration < 2 ^ 32
  line : ent.view.Line ent.discardTimer.now
  armed : ent.view.Armed duration
  newTimeouts : ∀ newTimeout ∈ ent.discardTimer.newTimeouts, 0 ≤ newTimeout
  expired : ∀ arrival removal, (arrival, removal) ∈ ent.discardTimer.expired →
    arrival + duration ≤ removal

section
variable (h : Served duration ent)
include h

omit h in
theorem discardTimer_of_view (hview : ent'.view = ent.view) : ent'.discardTimer = ent.discardTimer :=
  congrArg DiscardView.timer hview

theorem Served.same (hview : ent'.view = ent.view) : Served duration ent' := by
  have hcfg : ent'.cfg = ent.cfg := congrArg DiscardView.cfg hview
  have htimer := discardTimer_of_view hview
  have hline := h.line
  have harmed := h.armed
  rw [← hview, ← htimer] at hline
  rw [← hview] at harmed
  refine ⟨hcfg ▸ h.timer, h.value, hline, harmed, ?_, ?_⟩
  · rw [htimer]
    exact h.newTimeouts
  · rw [htimer]
    exact h.expired

theorem Served.discardTicks : ent.cfg.discardTicks = duration := by
  rw [PdcpTxConfig.discardTicks, h.timer]

/-- A restart for an SDU whose deadline is ahead runs to this deadline. -/
theorem Served.restart {tick : Nat} (hs : Shrinks ent.view ent'.view)
    (htimer : ent'.discardTimer = ent.discardTimer.stop) (hrunning : ent'.stopped = false)
    (hold : ent'.view.arrivals ent'.st.txNextAck = some (some tick))
    (hahead : ent.discardTimer.now < tick + duration) :
    Served duration { ent' with
      discardTimer := ent'.discardTimer.restart
        (tick + ent'.cfg.discardTicks - ent'.discardTimer.now) } := by
  have hcfg : ent'.cfg = ent.cfg := hs.cfg
  have hticks : ent'.cfg.discardTicks = duration := by
    rw [hcfg]
    exact h.discardTicks
  have hline : ent'.view.Line ent.discardTimer.now := h.line.shrinks hs
  have hvalue := h.value
  obtain ⟨_, heq, hpast⟩ := hline.dated _ _ hold
  cases heq
  rw [htimer, hticks]
  refine ⟨hcfg ▸ h.timer, h.value, hline.setTimer _, Or.inr ⟨rfl, hrunning, tick, hold, ?_⟩, ?_, h.expired⟩
  · have hexpiry : ent.discardTimer.now +
        max ((tick + duration - ent.discardTimer.now : Int) % 2 ^ 32).toNat 1 = tick + duration := by omega
    exact hexpiry
  · intro newTimeout hmem
    rcases List.mem_append.mp hmem with hmem | hmem
    · exact h.newTimeouts newTimeout hmem
    · rw [List.mem_singleton.mp hmem]
      exact Int.sub_nonneg_of_le (by exact_mod_cast Nat.le_of_lt hahead)

theorem Served.restartDiscardTimer {mid : PdcpEntityTx} (hs : Shrinks ent.view mid.view)
    (htimer : mid.discardTimer = ent.discardTimer.stop) (hrunning : mid.stopped = false)
    (hahead : ∀ tick, mid.view.arrivals mid.st.txNextAck = some (some tick) →
      ent.discardTimer.now < tick + duration)
    (hok : mid.restartDiscardTimer = .ok ent') : Served duration ent' := by
  have hcfg : mid.cfg = ent.cfg := hs.cfg
  rw [PdcpEntityTx.restartDiscardTimer] at hok
  split at hok
  · rename_i hinfinite
    rw [hcfg, h.timer] at hinfinite
    cases hinfinite
  · split at hok
    · obtain ⟨elem, helem, hok⟩ := bind_ok hok
      obtain ⟨tick, htick, hok⟩ := bind_ok hok
      cases hok
      have hold : mid.view.arrivals mid.st.txNextAck = some (some tick) := by
        rw [← tick_of_arrival htick]
        exact arrivals_of_get? (element_get? helem)
      exact h.restart hs htimer hrunning hold (hahead tick hold)
    · rename_i hempty
      cases hok
      have hidle : ent'.discardTimer.running = false := congrArg DiscardTimer.running htimer
      have hline := h.line.shrinks hs
      refine ⟨hcfg ▸ h.timer, h.value, ?_, Or.inl ⟨hidle, Or.inr (not_not.mp hempty)⟩, ?_, ?_⟩
      · rw [htimer]
        exact hline
      · rw [htimer]
        exact h.newTimeouts
      · rw [htimer]
        exact h.expired

theorem Served.stopDiscardTimer {highestCount : Nat}
    (htime : ent.StopsInTime ent.discardTimer.now highestCount)
    (hok : ent.stopDiscardTimer highestCount = .ok ent') : Served duration ent' := by
  rw [PdcpEntityTx.stopDiscardTimer] at hok
  split at hok
  · cases hok
    exact h
  · split at hok
    · cases hok
      exact h
    · split at hok
      · cases hok
        exact h
      · rename_i hrange hhas
        rw [not_or, Nat.not_lt, ge_iff_le, Nat.not_le] at hrange
        rw [Bool.not_eq_false, PdcpTxWindow.hasSn_eq] at hhas
        obtain ⟨first, hfirst⟩ := Option.isSome_iff_exists.mp hhas
        have hrunning : ent.stopped = false := by
          rw [← Bool.not_eq_true]
          intro hstopped
          have hnone := h.line.emptied hstopped ent.st.txNextAck
          rw [arrivals_of_get? hfirst] at hnone
          cases hnone
        have hremoved : Trimmed { ent with discardTimer := ent.discardTimer.stop }
            (removeUpTo (highestCount + 1 - ent.st.txNextAck)
              { ent with discardTimer := ent.discardTimer.stop }) := by
          apply removeUpTo_trimmed
          dsimp only
          omega
        have htrimmed := (idle_trimmed.trans hremoved).trans raiseTxTrans_trimmed
        obtain ⟨hack, _, htimer⟩ := @removeUpTo_st
          { ent with discardTimer := ent.discardTimer.stop } (highestCount + 1 - ent.st.txNextAck)
        have hnext : ent.st.txNextAck + (highestCount + 1 - ent.st.txNextAck) =
            highestCount + 1 := by omega
        refine h.restartDiscardTimer htrimmed.shrinks htimer (htrimmed.stopped.trans hrunning) ?_ hok
        intro tick hold
        have hstill : ent.arrivalOf (highestCount + 1) = some tick := by
          rw [arrivalOf_eq_some, ← hnext, ← hack]
          exact htrimmed.shrinks.arrivals _ _ hold
        have hinside := (h.line.inside _ _ (arrivalOf_eq_some.mp hstill)).2
        have hahead := htime hrange.1 (highestCount + 1) hinside (Nat.le_refl _)
        rw [hstill, h.discardTicks] at hahead
        exact of_decide_eq_true hahead

theorem Served.transmitImpl {notifSn : Nat}
    (htime : ent.cfg.isUm = true → notifSn < pdcpSnCardinality ent.cfg.snSize →
      ent.st.txTrans ≤ ent.notificationCountEstimation notifSn →
      ent.notificationCountEstimation notifSn < ent.st.txTransCrypto →
      ent.StopsInTime ent.discardTimer.now (ent.notificationCountEstimation notifSn))
    (hok : ent.handleTransmitNotificationImpl notifSn = .ok ent') : Served duration ent' := by
  rw [handleTransmitNotificationImpl] at hok
  split at hok
  · cases hok
    exact h
  · rename_i hsn
    dsimp only at hok
    split at hok
    · cases hok
      exact h
    · rename_i hcrypto
      split at hok
      · cases hok
        exact h
      · rename_i htrans
        split at hok
        · cases hok
          exact h
        · have hnotified : Served duration { ent with st := { ent.st with
              txTrans := (ent.notificationCountEstimation notifSn + 1) % 2 ^ 32 } } := h.same rfl
          split at hok
          · cases hok
            exact hnotified
          · split at hok
            · rename_i hum
              exact hnotified.stopDiscardTimer
                (htime hum (Nat.lt_of_not_le hsn) (Nat.le_of_not_lt htrans)
                  (Nat.lt_of_not_le hcrypto)) hok
            · cases hok
              exact hnotified

theorem Served.deliveryImpl {notifSn : Nat}
    (htime : ent.cfg.isAm = true → notifSn < pdcpSnCardinality ent.cfg.snSize →
      ent.StopsInTime ent.discardTimer.now (ent.notificationCountEstimation notifSn))
    (hok : ent.handleDeliveryNotificationImpl notifSn = .ok ent') : Served duration ent' := by
  rw [handleDeliveryNotificationImpl] at hok
  split at hok
  · cases hok
    exact h
  · rename_i hsn
    dsimp only at hok
    split at hok
    · cases hok
      exact h
    · split at hok
      · cases hok
        exact h
      · split at hok
        · rename_i ham
          exact h.stopDiscardTimer (htime ham (Nat.lt_of_not_le hsn)) hok
        · cases hok
          exact h

/-- In test mode the notification is for the COUNT that was just passed on. -/
theorem Served.notifyInTestMode {count : Nat}
    (hinside : ent.st.txNextAck ≤ count ∧ count < ent.st.txNext)
    (htime : ent.notifiesItself = true → ent.AheadFrom ent.discardTimer.now (count + 1))
    (hok : ent.notifyInTestMode count = .ok ent') : Served duration ent' := by
  rw [PdcpEntityTx.notifyInTestMode] at hok
  split at hok
  · rename_i htest
    rw [handleTransmitNotification] at hok
    split at hok
    · cases hok
      exact h
    · apply h.transmitImpl _ hok
      intro hum _ _ _ _
      have hnext : ent.st.txNext < 2 ^ 32 := h.line.next_lt
      have hbound : ent.st.txNext < ent.st.txNextAck + pdcpWindowSize ent.cfg.snSize :=
        h.line.bound (isSrb_of_isUm hum)
      have hestimate :
          ent.notificationCountEstimation (pdcpComputeSn count ent.cfg.snSize) = count := by
        rw [notificationCountEstimation, txLower,
          if_pos (by rw [h.timer]; rfl)]
        exact countEstimation_eq (by omega) (by omega) ⟨by omega, by omega⟩
      rw [hestimate]
      exact htime (by rw [notifiesItself, htest, hum]; rfl)
  · cases hok
    exact h

theorem Served.releaseLoop {isRetx : Bool} {turns : Nat}
    (htime : ent.notifiesItself = true →
      ent.AheadFrom ent.discardTimer.now (ent.st.txTransCrypto + 1))
    (hok : releaseLoop isRetx turns ent = .ok ent') : Served duration ent' := by
  induction turns generalizing ent with
  | zero =>
    cases hok
    exact h
  | succ turns ih =>
    rw [PdcpEntityTx.releaseLoop] at hok
    split at hok
    · rename_i hlt
      obtain ⟨elem, helem, hok⟩ := bind_ok hok
      have hget := element_get? helem
      split at hok
      · cases hok
        exact h
      · obtain ⟨mid, hnotify, hok⟩ := bind_ok hok
        have hview : (ent.passOn elem isRetx).view = ent.view := view_passOn hget
        have hpassed := h.same hview
        have hinside := h.line.inside _ _ (arrivals_of_get? hget)
        have hahead : ent.notifiesItself = true →
            (ent.passOn elem isRetx).AheadFrom ent.discardTimer.now (ent.st.txTransCrypto + 1) :=
          fun hself => (htime hself).shrinks (Shrinks.of_eq hview) (Nat.le_refl _)
        have hmid := hpassed.notifyInTestMode hinside hahead hnotify
        have htrimmed : Trimmed (ent.passOn elem isRetx) mid := notifyInTestMode_trimmed hnotify
        refine ih hmid ?_ hok
        intro hself
        rw [htrimmed.now, htrimmed.txTransCrypto]
        rw [notifiesItself, htrimmed.cfg] at hself
        exact (hahead hself).shrinks htrimmed.shrinks (Nat.le_succ _)
    · cases hok
      exact h

theorem Served.applyReordering {info : PdcpTxBufferInfo}
    (htime : ent.notifiesItself = true → ent.acceptsResult info = true →
      ent.AheadFrom ent.discardTimer.now (ent.st.txTransCrypto + 1))
    (hok : ent.applyReordering info = .ok ent') : Served duration ent' := by
  rw [PdcpEntityTx.applyReordering] at hok
  split at hok
  · rename_i haccepts
    obtain ⟨elem, helem, hok⟩ := bind_ok hok
    obtain ⟨mid, hrelease, hok⟩ := bind_ok hok
    cases hok
    have hview := view_parkPdu (element_get? helem)
    have hahead : ent.notifiesItself = true →
        (ent.parkPdu elem info).AheadFrom ent.discardTimer.now (ent.st.txTransCrypto + 1) :=
      fun hself => (htime hself haccepts).shrinks (Shrinks.of_eq hview) (Nat.le_refl _)
    have hmid := (h.same hview).releaseLoop hahead hrelease
    exact hmid.same view_updateCryptoReordering
  · cases hok
    exact h

theorem Served.runResult {idx : Nat}
    (hprompt : ent.prompt (.runResult idx) = true) (hok : ent.runResult idx = .ok ent') :
    Served duration ent' := by
  rw [PdcpEntityTx.runResult] at hok
  rw [prompt] at hprompt
  cases hresult : ent.cryptoResults[idx]? with
  | none =>
    rw [hresult] at hok
    cases hok
    exact h
  | some result =>
    rw [hresult] at hok hprompt
    have htaken : Served duration { ent with cryptoResults := ent.cryptoResults.eraseIdx idx } :=
      h.same rfl
    cases result with
    | error err =>
      cases hok
      exact htaken.same rfl
    | ok info =>
      refine htaken.applyReordering ?_ hok
      intro hself haccepts
      have hnotifies : ent.notifiesItself = true := hself
      have hwaits : ent.acceptsResult info = true := haccepts
      dsimp only at hprompt
      rw [hnotifies, hwaits] at hprompt
      exact of_decide_eq_true hprompt

theorem Served.cryptoReorderingTimeout (hprompt : ent.prompt .cryptoReorderingExpiry = true)
    (hok : ent.cryptoReorderingTimeout = .ok ent') : Served duration ent' := by
  rw [PdcpEntityTx.cryptoReorderingTimeout] at hok
  dsimp only at hok
  have hidle : Served duration ent.stopCryptoReordering := h.same rfl
  split at hok
  · cases hok
    exact hidle
  · rename_i hrunning
    obtain ⟨mid, hrelease, hok⟩ := bind_ok hok
    obtain ⟨hview, hcfg, hcrypto⟩ := @releaseBelowReord_view ent.stopCryptoReordering
      (countDistance ent.st.txTransCrypto ent.st.txReordCrypto)
    have hmid := (hidle.same hview).releaseLoop (by
      intro hself
      rw [notifiesItself, hcfg] at hself
      have hnotifies : ent.notifiesItself = true := hself
      have hgoes : ent.stopped = false := Bool.eq_false_iff.mpr hrunning
      rw [prompt, hnotifies, hgoes] at hprompt
      have hahead : ent.AheadFrom ent.discardTimer.now (ent.resumeCount + 1) :=
        of_decide_eq_true hprompt
      rw [resumeCount] at hahead
      rw [discardTimer_of_view hview]
      exact hahead.shrinks (Shrinks.of_eq hview) (Nat.add_le_add_right hcrypto 1)) hrelease
    split at hok
    · cases hok
      exact hmid.same rfl
    · cases hok
      exact hmid

end

/-- The window while an SDU is handled. -/
structure Grows (v v' : DiscardView) : Prop where
  now : v'.timer.now = v.timer.now
  cfg : v'.cfg = v.cfg
  stopped : v'.stopped = v.stopped
  txNextAck : v'.txNextAck = v.txNextAck
  txNext_ge : v.txNext ≤ v'.txNext
  txNext_le : v'.txNext ≤ v.txNext + 1

theorem Grows.of_eq {v v' : DiscardView} (h : v' = v) : Grows v v' := by
  subst h
  exact ⟨rfl, rfl, rfl, rfl, Nat.le_refl _, Nat.le_succ _⟩

/-- The timer before an SDU is added: it runs, for the oldest SDU or for the new one. -/
theorem Served.startDiscardTimer (h : Served duration ent) (hrunning : ent.stopped = false) :
    ∃ timer, ent.startDiscardTimer = { ent with discardTimer := timer } ∧
      (timer.running = true ∧ timer.now = ent.discardTimer.now ∧
        timer.newTimeouts = ent.discardTimer.newTimeouts ∧ timer.expired = ent.discardTimer.expired) ∧
      (ent.st.txNextAck = ent.st.txNext ∧ timer.expiry = ent.discardTimer.now + duration ∨
        ∃ tick, ent.view.arrivals ent.st.txNextAck = some (some tick) ∧
          timer.expiry = tick + duration) := by
  have hvalue := h.value
  rw [PdcpEntityTx.startDiscardTimer, h.timer]
  dsimp only
  rcases h.armed with ⟨hidle, hempty⟩ | ⟨hruns, _, tick, hold, hexpiry⟩
  · have hstopped : ent.discardTimer.running = false := hidle
    rw [hstopped, if_neg Bool.false_ne_true]
    refine ⟨_, rfl, ⟨rfl, rfl, rfl, rfl⟩, Or.inl ⟨?_, ?_⟩⟩
    · rcases hempty with hnot | hempty
      · have hhalted : ent.stopped = true := hnot
        rw [hrunning] at hhalted
        cases hhalted
      · exact hempty
    · rw [DiscardTimer.run]
      dsimp only
      omega
  · have hstarted : ent.discardTimer.running = true := hruns
    rw [hstarted, if_pos rfl]
    exact ⟨_, rfl, ⟨hstarted, rfl, rfl, rfl⟩, Or.inr ⟨tick, hold, hexpiry⟩⟩

theorem Served.assignCount {buf : List UInt8} (h : Served duration ent)
    (hrunning : ent.stopped = false) (hlast : ent.st.txNext + 1 < 2 ^ 32)
    (hroom : ent.st.txNext < ent.st.txNextAck + pdcpWindowSize ent.cfg.snSize)
    (hbound : ent.cfg.isSrb = false →
      ent.st.txNext + 1 < ent.st.txNextAck + pdcpWindowSize ent.cfg.snSize) :
    Served duration (ent.startDiscardTimer.assignCount buf ent.discardTimer.now) ∧
      Grows ent.view (ent.startDiscardTimer.assignCount buf ent.discardTimer.now).view := by
  obtain ⟨timer, heq, ⟨hruns, hnow, htimeouts, hexpired⟩, hexpiry⟩ := h.startDiscardTimer hrunning
  rw [heq]
  have hline : Line { ent.view with timer } ent.discardTimer.now := h.line.setTimer timer
  have hpushed : (PdcpEntityTx.assignCount { ent with discardTimer := timer } buf
      ent.discardTimer.now).view = DiscardView.push { ent.view with timer } ent.discardTimer.now :=
    view_assignCount h.timer hline hlast hroom
  constructor
  · refine ⟨h.timer, h.value, ?_, ?_, ?_, ?_⟩
    · have hlater : Line (DiscardView.push { ent.view with timer } ent.discardTimer.now) timer.now := by
        rw [hnow]
        exact hline.push hrunning hlast hbound
      rw [hpushed]
      exact hlater
    · rw [hpushed]
      right
      refine ⟨hruns, hrunning, ?_⟩
      rcases hexpiry with ⟨hempty, hexpiry⟩ | ⟨tick, hold, hexpiry⟩
      · refine ⟨ent.discardTimer.now, ?_, hexpiry⟩
        have hfirst : ent.view.txNextAck = ent.view.txNext := hempty
        exact (congrArg _ hfirst).trans push_arrivals_new
      · refine ⟨tick, ?_, hexpiry⟩
        have hbelow := (h.line.inside _ _ hold).2
        exact (push_arrivals_old (v := { ent.view with timer }) (Nat.ne_of_lt hbelow)).trans hold
    · intro newTimeout hmem
      exact h.newTimeouts newTimeout (htimeouts ▸ hmem)
    · intro arrival removal hmem
      exact h.expired arrival removal (hexpired ▸ hmem)
  · rw [hpushed]
    exact ⟨hnow, rfl, rfl, rfl, Nat.le_succ _, Nat.le_refl _⟩

theorem Served.transmitSdu {buf : List UInt8} (h : Served duration ent)
    (hrunning : ent.stopped = false)
    (hroom : ent.st.txNext < ent.cfg.maxCount.hard →
      ent.st.txNext < ent.st.txNextAck + pdcpWindowSize ent.cfg.snSize)
    (hbound : ent.cfg.isSrb = false →
      ent.st.txNext + 1 < ent.st.txNextAck + pdcpWindowSize ent.cfg.snSize)
    (hok : ent.transmitSdu buf ent.discardTimer.now = .ok ent') :
    Served duration ent' ∧ Grows ent.view ent'.view := by
  rw [PdcpEntityTx.transmitSdu] at hok
  split at hok
  · cases hok
    have hview := (@refuseMaxCount_same ent).view
    exact ⟨h.same hview, Grows.of_eq hview⟩
  · rename_i hhard
    rw [Nat.not_le] at hhard
    have hlimit := ent.cfg.maxCount.hard_lt
    have hsame := @checkMaxCountNotify_same ent
    have hchecked := h.same hsame.view
    dsimp only at hok
    split at hok
    · cases hok
    · cases hok
      rw [← hsame.view, ← hsame.discardTimer]
      apply hchecked.assignCount
      · rw [hsame.stopped]
        exact hrunning
      · rw [hsame.st]
        omega
      · rw [hsame.st, hsame.cfg]
        exact hroom hhard
      · rw [hsame.st, hsame.cfg]
        exact hbound

theorem Served.handleSdu {buf : List UInt8} (h : Served duration ent)
    (hroom : ent.buffering = false → ent.RoomInWindow 1)
    (hok : ent.handleSdu buf ent.discardTimer.now = .ok ent') :
    Served duration ent' ∧ Grows ent.view ent'.view := by
  rw [PdcpEntityTx.handleSdu] at hok
  split at hok
  · cases hok
    exact ⟨h, Grows.of_eq rfl⟩
  · rename_i hrunning
    rw [Bool.not_eq_true] at hrunning
    split at hok
    · split at hok
      · cases hok
        exact ⟨h.same rfl, Grows.of_eq rfl⟩
      · cases hok
        exact ⟨h, Grows.of_eq rfl⟩
    · rename_i hbuffering
      rw [Bool.not_eq_true] at hbuffering
      split at hok
      · cases hok
        exact ⟨h, Grows.of_eq rfl⟩
      · rename_i hdrop
        have hbound : ent.cfg.isSrb = false →
            ent.st.txNext + 1 < ent.st.txNextAck + pdcpWindowSize ent.cfg.snSize := by
          intro hsrb
          apply checkEarlyDrop_bound h.line.next_lt h.line.ack_le
          by_contra hdropped
          exact hdrop ⟨hsrb, hdropped⟩
        refine h.transmitSdu hrunning ?_ hbound hok
        intro hhard
        cases hsrb : ent.cfg.isSrb with
        | false => exact Nat.lt_of_succ_lt (hbound hsrb)
        | true => exact hroom hbuffering hsrb hrunning hhard

theorem Grows.room {nofSdus : Nat} (h : Grows ent.view ent'.view)
    (hroom : ent.RoomInWindow (nofSdus + 1)) : ent'.RoomInWindow nofSdus := by
  have hcfg : ent'.cfg = ent.cfg := h.cfg
  have hstopped : ent'.stopped = ent.stopped := h.stopped
  have hack : ent'.st.txNextAck = ent.st.txNextAck := h.txNextAck
  have hle : ent'.st.txNext ≤ ent.st.txNext + 1 := h.txNext_le
  rw [RoomInWindow, hcfg, hstopped, hack]
  intro hsrb hrunning hhard
  have hfits := hroom hsrb hrunning (Nat.lt_of_le_of_lt h.txNext_ge hhard)
  omega

theorem Served.handleSdus {bufs : List (List UInt8)} {now : Nat} (h : Served duration ent)
    (hnow : ent.discardTimer.now = now) (hroom : ent.RoomInWindow bufs.length)
    (hok : bufs.foldlM (fun ent buf => ent.handleSdu buf now) ent = .ok ent') :
    Served duration ent' := by
  induction bufs generalizing ent with
  | nil =>
    cases hok
    exact h
  | cons buf bufs ih =>
    rw [List.foldlM_cons] at hok
    obtain ⟨mid, hhandle, hok⟩ := bind_ok hok
    rw [← hnow] at hhandle
    obtain ⟨hmid, hgrows⟩ := h.handleSdu (fun _ => hroom.mono (Nat.succ_le_succ (Nat.zero_le _))) hhandle
    exact ih hmid (hgrows.now.trans hnow) (hgrows.room hroom) hok

theorem Served.statusReport {status : List UInt8} (h : Served duration ent)
    (hkeeps : ent.KeepsOldest status) :
    Served duration (ent.handleStatusReport status) := by
  have htrimmed := @handleStatusReport_trimmed ent status
  have hs := htrimmed.shrinks
  have htimer : (ent.handleStatusReport status).discardTimer = ent.discardTimer :=
    handleStatusReport_discardTimer
  refine ⟨htrimmed.cfg ▸ h.timer, h.value, ?_, ?_, htimer ▸ h.newTimeouts, htimer ▸ h.expired⟩
  · rw [htimer]
    exact h.line.shrinks hs
  · rcases h.armed with hidle | harmed
    · exact Armed.idle hidle h.line hs htimer
    · have harms : ent.view.Armed duration := Or.inr harmed
      obtain ⟨_, _, tick, hold, _⟩ := harmed
      have hheaded : ent.view.Headed := by
        intro _
        rw [hold]
        rfl
      have holdest : ent.arrivalOf ent.st.txNextAck = some tick :=
        arrivalOf_eq_some.mpr hold
      rw [KeepsOldest] at hkeeps
      cases hdecoded : decodeStatusReport status with
      | none =>
        rw [handleStatusReport, hdecoded]
        exact harms
      | some report =>
        obtain ⟨fmc, bits⟩ := report
        rw [hdecoded, holdest] at hkeeps
        obtain ⟨count, _, hnot, harrival⟩ := hkeeps rfl
        have hstays : (ent.handleStatusReport status).view.arrivals count = some (some tick) := by
          obtain ⟨hlower, hupper⟩ := edges_of_line h.line
          rw [view_arrivals, get?_handleStatusReport
            (by rw [h.timer]; rfl) hlower hupper hdecoded, if_neg hnot]
          exact arrivalOf_eq_some.mp harrival
        exact harms.shrinks h.line hs htimer (handleStatusReport_headed hheaded)
          hold hstays

/-- The state in the loop of `discard_callback`: the oldest SDU is due, and either the timer is on
time or no other arrival is in the window. -/
structure Expiring (duration oldest : Nat) (ent : PdcpEntityTx) : Prop where
  timer : ent.cfg.discardTimer = some (.ms duration)
  value : 0 < duration ∧ duration < 2 ^ 32
  line : ent.view.Line ent.discardTimer.now
  headed : ent.view.Headed
  idle : ent.discardTimer.running = false
  running : ent.stopped = false
  due : oldest + duration ≤ ent.discardTimer.now
  onTime : ent.discardTimer.now = oldest + duration ∨
    ∀ count tick, ent.view.arrivals count = some (some tick) → tick = oldest
  newTimeouts : ∀ newTimeout ∈ ent.discardTimer.newTimeouts, 0 ≤ newTimeout
  expired : ∀ arrival removal, (arrival, removal) ∈ ent.discardTimer.expired →
    arrival + duration ≤ removal

theorem Expiring.expireSdu {oldest : Nat} (h : Expiring duration oldest ent)
    (hold : ent.view.arrivals ent.st.txNextAck = some (some oldest)) :
    Expiring duration oldest (ent.expireSdu ent.st.txNextAck) ∧
      Shrinks ent.view (ent.expireSdu ent.st.txNextAck).view ∧
      ent.st.txNextAck < (ent.expireSdu ent.st.txNextAck).st.txNextAck := by
  have htrimmed := @discardPdu_trimmed ent ent.st.txNextAck
  have hs := htrimmed.shrinks
  have hline := h.line.shrinks hs
  have hheaded := discardPdu_headed ent.st.txNextAck h.headed
  have hinside := h.line.inside _ _ hold
  have hcfg : (ent.discardPdu ent.st.txNextAck).cfg = ent.cfg := htrimmed.cfg
  refine ⟨⟨hcfg ▸ h.timer, h.value, hline.setTimer _, hheaded, h.idle, htrimmed.stopped.trans h.running, h.due, ?_,
    h.newTimeouts, ?_⟩, (expireSdu_trimmed _).shrinks, ?_⟩
  · exact h.onTime.imp_right fun hall count tick harrival => hall count tick (hs.arrivals _ _ harrival)
  · intro arrival removal hmem
    rcases List.mem_append.mp hmem with hmem | hmem
    · exact h.expired arrival removal hmem
    · have hread : (ent.txWindow.txWindow.get? ent.st.txNextAck).bind
          PdcpTxWindowElement.tickPointOfArrival = some oldest :=
        arrivalOf_eq_some.mpr hold
      rw [hread] at hmem
      cases List.mem_singleton.mp hmem
      exact h.due
  · -- TX_NEXT_ACK does not stay, since its SDU is gone.
    refine Nat.lt_of_le_of_ne htrimmed.nextAck ?_
    intro heq
    have hsame : (ent.discardPdu ent.st.txNextAck).st.txNextAck = ent.st.txNextAck := heq.symm
    have hbelow : (ent.discardPdu ent.st.txNextAck).view.txNextAck <
        (ent.discardPdu ent.st.txNextAck).view.txNext := by
      have hlt : (ent.discardPdu ent.st.txNextAck).st.txNextAck <
          (ent.discardPdu ent.st.txNextAck).st.txNext := by
        rw [hsame, htrimmed.txNext]
        exact hinside.2
      exact hlt
    obtain ⟨hlower, hupper⟩ := edges_of_line h.line
    have hgone : (ent.discardPdu ent.st.txNextAck).txWindow.get? ent.st.txNextAck = none := by
      rw [get?_discardPdu (by rw [h.timer]; rfl) hlower hupper, if_pos rfl]
    have hhas := headed_iff.mp hheaded hbelow
    rw [PdcpTxWindow.hasSn_eq, hsame, hgone] at hhas
    cases hhas

theorem Expiring.discardLoop {oldest turns : Nat} (h : Expiring duration oldest ent)
    (hold : ent.view.arrivals ent.st.txNextAck = some (some oldest))
    (hturns : ent.st.txNext ≤ ent.st.txNextAck + turns)
    (hok : discardLoop oldest turns ent = .ok ent') : Served duration ent' := by
  induction turns generalizing ent with
  | zero =>
    have hbelow := (h.line.inside _ _ hold).2
    exact absurd hbelow (Nat.not_lt_of_le hturns)
  | succ turns ih =>
    obtain ⟨hmid, hs, hlater⟩ := h.expireSdu hold
    have hnext : (ent.expireSdu ent.st.txNextAck).st.txNext = ent.st.txNext := hs.txNext
    rw [PdcpEntityTx.discardLoop] at hok
    generalize ent.expireSdu ent.st.txNextAck = mid at hok hmid hs hlater hnext
    split at hok
    · rename_i hnone
      cases hok
      refine ⟨hmid.timer, hmid.value, hmid.line, Or.inl ⟨hmid.idle, Or.inr ?_⟩, hmid.newTimeouts,
        hmid.expired⟩
      apply Nat.le_antisymm hmid.line.ack_le
      apply Nat.le_of_not_lt
      intro hlt
      have hhas := headed_iff.mp hmid.headed hlt
      rw [PdcpTxWindow.hasSn_eq, PdcpTxWindow.get?, hnone] at hhas
      cases hhas
    · rename_i elem hget
      obtain ⟨tick, htick, hok⟩ := bind_ok hok
      have hfirst : mid.view.arrivals mid.st.txNextAck = some (some tick) := by
        rw [← tick_of_arrival htick]
        exact arrivals_of_get? hget
      have hinside := (hmid.line.inside _ _ hfirst).2
      split at hok
      · rename_i hne
        cases hok
        have hvalue := h.value
        have hle : oldest ≤ tick :=
          h.line.ordered _ _ _ _ (Nat.le_of_lt hlater) hold (hs.arrivals _ _ hfirst)
        obtain ⟨_, heq, hpast⟩ := hmid.line.dated _ _ hfirst
        cases heq
        have htime : mid.discardTimer.now = oldest + duration :=
          hmid.onTime.resolve_right fun hall => hne (hall _ _ hfirst)
        refine ⟨hmid.timer, hmid.value, hmid.line.setTimer _,
          Or.inr ⟨rfl, hmid.running, tick, hfirst, ?_⟩, hmid.newTimeouts, hmid.expired⟩
        simp only [view, DiscardTimer.run]
        omega
      · rename_i hsame
        rw [not_not] at hsame
        subst hsame
        split at hok
        · refine ih hmid hfirst ?_ hok
          rw [hnext]
          omega
        · rename_i hlast
          exact absurd (not_not.mp hlast) (Nat.ne_of_lt hinside)

theorem Served.discardCallback (h : Served duration ent) (hruns : ent.discardTimer.running = true)
    (hdue : ent.discardTimer.expiry ≤ ent.discardTimer.now)
    (hprompt : ent.prompt .discardExpiry = true)
    (hok : ent.discardCallback = .ok ent') : Served duration ent' := by
  rcases h.armed with ⟨hidle, _⟩ | ⟨_, hrunning, tick, hold, hexpiry⟩
  · have hnot : ent.discardTimer.running = false := hidle
    rw [hruns] at hnot
    cases hnot
  · have hgoes : ent.stopped = false := hrunning
    obtain ⟨elem, helem, htick⟩ := get?_of_arrivals hold
    have hread : ent.txWindow.txWindow.get? ent.st.txNextAck = some elem := helem
    have hfirst : ent.arrivalOf ent.st.txNextAck = some tick :=
      arrivalOf_eq_some.mpr hold
    have hheaded : ent.view.Headed := by
      intro _
      rw [hold]
      rfl
    have hstart : ent.discardTimer.expiry = tick + duration := hexpiry
    rw [hstart] at hdue
    have hloop : Expiring duration tick { ent with discardTimer := ent.discardTimer.stop } := by
      refine ⟨h.timer, h.value, h.line.setTimer _, hheaded, rfl, hgoes, hdue, ?_,
        h.newTimeouts, h.expired⟩
      rw [prompt, Bool.or_eq_true] at hprompt
      rcases hprompt with htime | htogether
      · left
        rw [← hstart]
        exact eq_of_beq htime
      · right
        intro count other harrival
        have hother : ent.arrivalOf count = some other :=
          arrivalOf_eq_some.mpr harrival
        have hsame := of_decide_eq_true htogether count (h.line.inside _ _ harrival).2
          (by rw [hother]; exact Option.some_ne_none _)
        rw [hother, hfirst] at hsame
        exact Option.some.inj hsame
    rw [PdcpEntityTx.discardCallback] at hok
    dsimp only at hok
    split at hok
    · rename_i hstopped
      rw [hgoes] at hstopped
      cases hstopped
    · rw [hread] at hok
      obtain ⟨oldest, holdest, hok⟩ := bind_ok hok
      have hsame := tick_of_arrival holdest
      rw [htick] at hsame
      cases hsame
      exact hloop.discardLoop hold (Nat.le_of_eq (Nat.add_sub_cancel' h.line.ack_le).symm) hok

theorem Served.reset (h : Served duration ent) (hidle : ent.discardTimer.running = false) :
    Served duration ent.reset where
  __ := h
  line := line_reset h.line
  armed := Or.inl ⟨hidle, Or.inr rfl⟩

theorem Served.stop (h : Served duration ent) : Served duration ent.stop := by
  rw [PdcpEntityTx.stop]
  split
  · exact h
  · exact ⟨h.timer, h.value, line_halted h.line, Or.inl ⟨rfl, Or.inl rfl⟩, h.newTimeouts, h.expired⟩

theorem view_retransmitAllPdus (ent : PdcpEntityTx) : ent.retransmitAllPdus.view = ent.view := by
  rw [retransmitAllPdus]
  split
  · rfl
  · exact retransmitLoop_same.view

theorem Served.reestablish {secCfg : Sec128AsConfig} (h : Served duration ent)
    (hprompt : ent.prompt (.reestablish secCfg) = true) : Served duration (ent.reestablish secCfg) := by
  have hsecured : ∀ mid : PdcpEntityTx, Served duration mid → Served duration
      (if (mid.configureSecurity secCfg mid.integrityEnabled mid.cipheringEnabled).cfg.isAm then
        (mid.configureSecurity secCfg mid.integrityEnabled mid.cipheringEnabled).retransmitAllPdus
      else mid.configureSecurity secCfg mid.integrityEnabled mid.cipheringEnabled) := by
    intro mid hmid
    have hview := (@configureSecurity_same mid secCfg mid.integrityEnabled
      mid.cipheringEnabled).view
    split
    · exact hmid.same ((view_retransmitAllPdus _).trans hview)
    · exact hmid.same hview
  rw [PdcpEntityTx.reestablish]
  apply hsecured
  have hnoted : Served duration (ent.notify .reestablished) := h.same rfl
  split
  · rename_i hresets
    apply hnoted.reset
    have hresets' : ent.cfg.isSrb = true ∨ ent.cfg.isUm = true := hresets
    rw [← Bool.or_eq_true] at hresets'
    rw [prompt, hresets', Bool.not_true, Bool.false_or, Bool.not_eq_true'] at hprompt
    exact hprompt
  · exact hnoted

theorem Served.tick (h : Served duration ent) : Served duration
    { ent with discardTimer := { ent.discardTimer with now := ent.discardTimer.now + 1 } } where
  __ := h
  line := (h.line.later (Nat.le_succ _)).setTimer _

theorem Served.step {engine : SecurityContext → SecurityEngine} {event : TxEvent}
    (h : Served duration ent) (henabled : ent.enabled event = true) (htime : ent.onTime event = true)
    (hprompt : ent.prompt event = true) (hok : step engine ent event = .ok ent') :
    Served duration ent' := by
  cases event with
  | handleSdu buf now =>
    cases eq_of_beq htime
    refine (h.handleSdu ?_ hok).1
    intro hbuffering
    rw [prompt, hbuffering, Bool.false_or] at hprompt
    exact of_decide_eq_true hprompt
  | endBuffering now =>
    cases eq_of_beq htime
    have hidle : Served duration { ent with buffering := false, sduBuffer := [] } := h.same rfl
    exact hidle.handleSdus rfl (of_decide_eq_true hprompt) hok
  | runResult idx => exact h.runResult hprompt hok
  | cryptoReorderingExpiry => exact h.cryptoReorderingTimeout hprompt hok
  | discardExpiry => exact h.discardCallback henabled (of_decide_eq_true htime) hprompt hok
  | transmitNotification notifSn =>
    rw [PdcpEntityTx.step, handleTransmitNotification] at hok
    split at hok
    · cases hok
      exact h
    · refine h.transmitImpl ?_ hok
      intro hum hsn htrans hcrypto
      rw [prompt, hum, decide_eq_true hsn, decide_eq_true htrans, decide_eq_true hcrypto] at hprompt
      exact of_decide_eq_true hprompt
  | deliveryNotification notifSn =>
    rw [PdcpEntityTx.step, handleDeliveryNotification] at hok
    split at hok
    · cases hok
      exact h
    · refine h.deliveryImpl ?_ hok
      intro ham hsn
      rw [prompt, ham, decide_eq_true hsn] at hprompt
      exact of_decide_eq_true hprompt
  | retransmitNotification notifSn =>
    rw [PdcpEntityTx.step, handleRetransmitNotification] at hok
    split at hok
    · cases hok
      exact h
    · rename_i hcond
      exact h.transmitImpl (fun hum => absurd (Or.inr (Or.inr hum)) hcond) hok
  | deliveryRetransmittedNotification notifSn =>
    rw [PdcpEntityTx.step, handleDeliveryRetransmittedNotification] at hok
    split at hok
    · cases hok
      exact h
    · rename_i hcond
      refine h.deliveryImpl ?_ hok
      intro ham hsn
      have hsrb : ent.cfg.isSrb = false := by
        rw [← Bool.not_eq_true]
        exact fun hsrb => hcond (Or.inr (Or.inl hsrb))
      rw [prompt, hsrb, ham, decide_eq_true hsn] at hprompt
      exact of_decide_eq_true hprompt
  | beginBuffering =>
    cases hok
    exact h.same rfl
  | runCryptoJob idx =>
    apply h.same
    rw [PdcpEntityTx.step, PdcpEntityTx.runCryptoJob] at hok
    split at hok
    · cases hok
      rfl
    · obtain ⟨result, _, hok⟩ := bind_ok hok
      cases hok
      rfl
  | loseCryptoJob idx =>
    cases hok
    exact h.same rfl
  | loseResult idx =>
    cases hok
    exact h.same rfl
  | statusReport status =>
    cases hok
    exact h.statusReport (of_decide_eq_true hprompt)
  | desiredBufferSize desiredBs =>
    cases hok
    apply h.same
    rw [handleDesiredBufferSizeNotification]
    split <;> rfl
  | configureSecurity secCfg integrityEnabled cipheringEnabled =>
    cases hok
    exact h.same (configureSecurity_same _ _ _).view
  | dataRecovery =>
    cases hok
    exact h.same (view_retransmitAllPdus _)
  | reestablish secCfg =>
    cases hok
    exact h.reestablish hprompt
  | stop =>
    cases hok
    exact h.stop

theorem Served.timely (h : Served duration ent) : Timely duration ent where
  expired := h.expired
  newTimeouts := h.newTimeouts
  covered := by
    rintro ⟨_, ⟨count, arrival, harrival, rfl⟩, _⟩
    rw [arrivalOf_eq_some] at harrival
    have hinside := h.line.inside _ _ harrival
    rcases h.armed with ⟨_, hempty⟩ | ⟨hruns, _, tick, hold, hexpiry⟩
    · exfalso
      rcases hempty with hstopped | hempty
      · rw [h.line.emptied hstopped] at harrival
        cases harrival
      · omega
    · refine ⟨hruns, ⟨ent.st.txNextAck, tick, arrivalOf_eq_some.mpr hold, hexpiry⟩, ?_⟩
      rintro _ ⟨other, arrival', harrival', rfl⟩
      rw [arrivalOf_eq_some] at harrival'
      have hstart : ent.discardTimer.expiry = tick + duration := hexpiry
      rw [hstart]
      exact Nat.add_le_add_right
        (h.line.ordered _ _ _ _ (h.line.inside _ _ harrival').1 hold harrival') _

/-- In every run in which no status report takes the oldest SDU away from those that arrived later,
no notification leaves an oldest SDU past its deadline, the callback runs in the tick of the expiry
unless all SDUs arrived together, and no reset finds the timer running, the discard timer does what
it is for. -/
theorem discardTimer_timely {engine : SecurityContext → SecurityEngine} {cfg : PdcpTxConfig}
    {hfn sn start : Nat} (htimer : cfg.discardTimer = some (.ms duration))
    (hvalue : duration ∈ pdcpDiscardTimerValues) (hsn : sn < 2 ^ 32)
    (hrun : Runs.Reaches (timedNext engine) Prompt (startAt cfg hfn sn start) ent) :
    Timely duration ent := by
  have hrange : ∀ value ∈ pdcpDiscardTimerValues, 0 < value ∧ value < 2 ^ 32 := by decide
  have hserved : Served duration ent := by
    apply hrun.invariant (I := Served duration)
    · have hcount : pdcpComputeCount hfn sn cfg.snSize < 2 ^ 32 :=
        Nat.or_lt_two_pow (Nat.mod_lt _ (Nat.two_pow_pos 32)) hsn
      refine ⟨htimer, hrange duration hvalue,
        Line.of_empty (fun _ => rfl) (Nat.le_refl _) hcount rfl fun _ => ?_,
        Or.inl ⟨rfl, Or.inr rfl⟩, nofun, nofun⟩
      exact Nat.lt_add_of_pos_right (pdcpWindowSize_pos _)
    · intro s event s' hs hprompt hnext
      cases event with
      | tick =>
        cases hnext
        exact hs.tick
      | entity event =>
        rw [timedNext] at hnext
        split at hnext
        · rename_i htime
          rw [next] at hnext
          split at hnext
          · rename_i henabled
            exact hs.step henabled htime hprompt (toOption_eq_some hnext)
          · cases hnext
        · cases hnext
  exact hserved.timely

/-- An AM bearer whose second SDU is discarded on time after the first was delivered. -/
theorem discardTimer_timely_secondSdu : ∃ ent : PdcpEntityTx,
    (ent.discardTimer.expired = [(5, 15)] ∧ ent.discardTimer.newTimeouts = [8]) ∧ Timely 10 ent := by
  have hobserved : (Runs.runAll (Runs.guarded (timedNext fun _ => SecurityEngine.disabled) Prompt)
      (startAt ⟨.drb, .am, .size12bits, some (.ms 10), false, ⟨0xc0000000, 0xfffffffe, by decide⟩, (by rintro ⟨⟩)⟩
        0 0 0)
      ([.entity (.desiredBufferSize 1000), .entity (.handleSdu [0xaa] 0)] ++
        List.replicate 5 .tick ++ [.entity (.handleSdu [0xbb] 5)] ++ List.replicate 2 .tick ++
        [.entity (.deliveryNotification 0)] ++ List.replicate 8 .tick ++ [.entity .discardExpiry])).map
      (fun ent => (ent.discardTimer.expired, ent.discardTimer.newTimeouts)) = some ([(5, 15)], [8]) := by
    decide +kernel
  obtain ⟨ent, hrun, hent⟩ := Option.map_eq_some_iff.mp hobserved
  rw [Prod.mk.injEq] at hent
  exact ⟨ent, hent, discardTimer_timely rfl (by decide) (by decide)
    (Runs.reaches_of_runGuarded .start hrun)⟩

/-- A status report takes the first SDU away: the timer runs on for it and takes the second, which
arrived 5 ticks before. -/
theorem discardTimer_earlyExpiry : ∃ ent : PdcpEntityTx,
    Runs.Reaches (timedNext fun _ => SecurityEngine.disabled) (fun _ _ => True)
      (startAt ⟨.drb, .am, .size12bits, some (.ms 10), false, ⟨0xc0000000, 0xfffffffe, by decide⟩, nofun⟩
        0 0 0) ent ∧ ¬Timely 10 ent := by
  have hobserved : (Runs.runAll (timedNext fun _ => SecurityEngine.disabled)
      (startAt ⟨.drb, .am, .size12bits, some (.ms 10), false, ⟨0xc0000000, 0xfffffffe, by decide⟩, nofun⟩
        0 0 0)
      ([.entity (.desiredBufferSize 1000), .entity (.handleSdu [0xaa] 0)] ++
        List.replicate 5 .tick ++ [.entity (.handleSdu [0xbb] 5)] ++ List.replicate 2 .tick ++
        [.entity (.statusReport [0x00, 0, 0, 0, 1])] ++ List.replicate 3 .tick ++
        [.entity .discardExpiry])).map (fun ent => ent.discardTimer.expired) = some [(5, 10)] := by
    decide +kernel
  obtain ⟨ent, hrun, hent⟩ := Option.map_eq_some_iff.mp hobserved
  refine ⟨ent, Runs.reaches_of_runAll .start (fun _ _ _ => trivial) hrun, fun htimely => ?_⟩
  have hearly := htimely.expired 5 10 (by rw [hent]; decide)
  omega

end PdcpEntityTx

end Srsran.Pdcp
