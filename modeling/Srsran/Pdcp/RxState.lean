import Srsran.Lib.Epochs
import Srsran.Lib.Runs
import Srsran.Pdcp.RxEntity

/-! State variables, window, timer and deliveries of the receiving PDCP entity over all runs. -/
namespace Srsran.Pdcp
open Srsran.Adt

inductive RxEvent where
  | handlePdu (buf : List UInt8)
  | beginBuffering
  | endBuffering
  | runCryptoJob (idx : Nat)
  | loseCryptoJob (idx : Nat)
  | runResult (idx : Nat)
  | loseResult (idx : Nat)
  | reorderingExpiry
  | configureSecurity (secCfg : Sec128AsConfig) (integrityEnabled cipheringEnabled : Bool)
  | reestablish (secCfg : Sec128AsConfig)
  | stop
  deriving DecidableEq, Repr

namespace PdcpEntityRx

def securityAllowed (ent : PdcpEntityRx) (integrityEnabled : Bool) : Bool :=
  integrityEnabled || !ent.cfg.isSrb

def handleResult (ent : PdcpEntityRx) : Except SecurityError PdcpRxPduInfo → PdcpEntityRx
  | .ok info => ent.applyReordering info
  | .error err => ent.handleFailure err

/-- One event. Jobs and results are taken in any order, the timer expires only while it runs, and
what an assertion of the source excludes is not enabled. -/
def step (engine : SecurityContext → SecurityEngine) (ent : PdcpEntityRx) :
    RxEvent → Option PdcpEntityRx
  | .handlePdu buf => some (ent.handlePdu buf)
  | .beginBuffering => some ent.beginBuffering
  | .endBuffering => some ent.endBuffering
  | .runCryptoJob idx =>
    (ent.cryptoJobs[idx]?).map fun info =>
      { ent with
        cryptoJobs := ent.cryptoJobs.eraseIdx idx
        cryptoResults := ent.cryptoResults ++ [applySecurity engine ent info] }
  | .loseCryptoJob idx => some { ent with cryptoJobs := ent.cryptoJobs.eraseIdx idx }
  | .runResult idx =>
    (ent.cryptoResults[idx]?).map fun result =>
      handleResult { ent with cryptoResults := ent.cryptoResults.eraseIdx idx } result
  | .loseResult idx => some { ent with cryptoResults := ent.cryptoResults.eraseIdx idx }
  | .reorderingExpiry => if ent.reorderingTimerRunning then some ent.reorderingCallback else none
  | .configureSecurity secCfg integrityEnabled cipheringEnabled =>
    if ent.securityAllowed integrityEnabled then
      some (ent.configureSecurity secCfg integrityEnabled cipheringEnabled)
    else none
  | .reestablish secCfg =>
    if ent.securityAllowed ent.integrityEnabled then some (ent.reestablish secCfg) else none
  | .stop => some ent.stop

end PdcpEntityRx

def RxNotice.count? : RxNotice → Option Nat
  | .newSdu count _ => some count
  | _ => none

def RxNotice.isReestablished : RxNotice → Bool
  | .reestablished => true
  | _ => false

/-- Of two deliveries the later one has the higher COUNT. -/
def Ascending (first later : RxNotice) : Prop :=
  ∀ count count', first.count? = some count → later.count? = some count' → count < count'

/-- Deliveries ascend up to each re-establishment, and since the last one stay below a bound. -/
structure DeliveredBelow (notices : List RxNotice) (bound : Nat) : Prop where
  ordered : Epochs.Ordered RxNotice.isReestablished Ascending notices
  below : ∀ notice ∈ Epochs.current RxNotice.isReestablished notices,
    ∀ count, notice.count? = some count → count < bound

variable {count : Nat} {notice : RxNotice}

namespace DeliveredBelow
variable {notices : List RxNotice} {bound bound' : Nat}

theorem nil : DeliveredBelow [] bound where
  ordered := Epochs.ordered_nil
  below := nofun

variable (h : DeliveredBelow notices bound)
include h

theorem mono (hbound : bound ≤ bound') : DeliveredBelow notices bound' where
  ordered := h.ordered
  below := fun notice hmem count hcount => Nat.lt_of_lt_of_le (h.below notice hmem count hcount) hbound

theorem deliver (hcount : bound ≤ count)
    (sdu : List UInt8) : DeliveredBelow (notices ++ [.newSdu count sdu]) (count + 1) where
  ordered := by
    apply h.ordered.concat
    intro notice hmem c c' hc hc'
    cases hc'
    exact Nat.lt_of_lt_of_le (h.below notice hmem c hc) hcount
  below := by
    intro notice hmem c hc
    rw [Epochs.current_concat_of_not_marker rfl, List.mem_append, List.mem_singleton] at hmem
    cases hmem with
    | inl hmem =>
      have hlt : c < bound := h.below notice hmem c hc
      omega
    | inr heq =>
      subst heq
      cases hc
      exact Nat.lt_succ_self count

theorem notify (hnotice : notice.count? = none) : DeliveredBelow (notices ++ [notice]) bound where
  ordered := by
    apply h.ordered.concat
    intro other _ c c' _ hc'
    rw [hnotice] at hc'
    cases hc'
  below := by
    intro other hmem c hc
    rw [Epochs.current_concat] at hmem
    split at hmem
    · cases hmem
    · rw [List.mem_append, List.mem_singleton] at hmem
      cases hmem with
      | inl hmem => exact h.below other hmem c hc
      | inr heq =>
        subst heq
        rw [hnotice] at hc
        cases hc

theorem reestablished : DeliveredBelow (notices ++ [.reestablished]) bound' where
  ordered := (h.notify rfl : DeliveredBelow (notices ++ [.reestablished]) bound).ordered
  below := by
    rw [Epochs.current_concat_of_marker rfl]
    simp

end DeliveredBelow

/-- The COUNTs in the window are between two bounds. -/
def WindowIn (window : CircularMap PdcpRxSduInfo) (lo hi : Nat) : Prop :=
  ∀ count info, window.get? count = some info → lo ≤ count ∧ count < hi

namespace WindowIn
variable {window : CircularMap PdcpRxSduInfo} {lo hi lo' hi' : Nat}

variable (h : WindowIn window lo hi)
include h

theorem mono (hlo : lo' ≤ lo) (hhi : hi ≤ hi') : WindowIn window lo' hi' := by
  intro count info hget
  obtain ⟨hge, hlt⟩ := h count info hget
  exact ⟨Nat.le_trans hlo hge, Nat.lt_of_lt_of_le hlt hhi⟩

theorem erase : WindowIn (window.erase lo) (lo + 1) hi := by
  intro count info hget
  rw [CircularMap.get?_erase] at hget
  split at hget
  · cases hget
  · rename_i hne
    obtain ⟨hge, hlt⟩ := h count info hget
    exact ⟨Nat.lt_of_le_of_ne hge (Ne.symm hne), hlt⟩

/-- Without an element at its lower end the window starts above. -/
theorem succ (hfree : window.get? lo = none) : WindowIn window (lo + 1) hi := by
  intro count info hget
  obtain ⟨hge, hlt⟩ := h count info hget
  refine ⟨Nat.lt_of_le_of_ne hge ?_, hlt⟩
  intro heq
  rw [← heq, hfree] at hget
  cases hget

theorem overwrite (hlo : lo ≤ count) (hhi : count < hi')
    (hle : hi ≤ hi') (info : PdcpRxSduInfo) : WindowIn (window.overwrite count info) lo hi' := by
  intro other value hget
  rw [CircularMap.get?_overwrite] at hget
  split at hget
  · rename_i heq
    subst heq
    exact ⟨hlo, hhi⟩
  · split at hget
    · cases hget
    · obtain ⟨hge, hlt⟩ := h other value hget
      exact ⟨hge, Nat.lt_of_lt_of_le hlt hle⟩

end WindowIn

namespace PdcpEntityRx
variable {ent : PdcpEntityRx}

def context (ent : PdcpEntityRx) : PdcpEntityRx :=
  { ent with
    st := {}
    rxWindow := CircularMap.empty _ 0
    reorderingTimerRunning := false
    notices := [] }

/-- The state within a delivery: RX_DELIV itself may be in the window. -/
structure Delivering (ent : PdcpEntityRx) : Prop where
  next_lt : ent.st.rxNext < 2 ^ 32
  deliv_le : ent.st.rxDeliv ≤ ent.st.rxNext
  window : WindowIn ent.rxWindow ent.st.rxDeliv ent.st.rxNext
  delivered : DeliveredBelow ent.notices ent.st.rxDeliv

/-- From one state to another SDUs of the window were passed to the upper layers. -/
structure Passed (ent ent' : PdcpEntityRx) : Prop where
  context : ent'.context = ent.context
  window : ∀ count info, ent'.rxWindow.get? count = some info →
    ent.rxWindow.get? count = some info
  notices : ∃ sdus, ent'.notices = ent.notices ++ sdus ∧ ∀ notice ∈ sdus, ∃ count info,
    notice = .newSdu count info.buf ∧ ent.rxWindow.get? count = some info

variable {ent' : PdcpEntityRx}

theorem Passed.of_eq (hcontext : ent'.context = ent.context)
    (hwindow : ent'.rxWindow = ent.rxWindow) (hnotices : ent'.notices = ent.notices) :
    Passed ent ent' where
  context := hcontext
  window := fun count info h => by
    rw [← hwindow]
    exact h
  notices := ⟨[], by rw [hnotices, List.append_nil], by simp⟩

variable {mid : PdcpEntityRx}

theorem Passed.trans (h : Passed ent mid) (h' : Passed mid ent') : Passed ent ent' where
  context := h'.context.trans h.context
  window := fun count info hget => h.window count info (h'.window count info hget)
  notices := by
    obtain ⟨first, hfirst, hold⟩ := h.notices
    obtain ⟨rest, hrest, hold'⟩ := h'.notices
    refine ⟨first ++ rest, by rw [hrest, hfirst, List.append_assoc], ?_⟩
    intro notice hmem
    rw [List.mem_append] at hmem
    cases hmem with
    | inl hmem => exact hold notice hmem
    | inr hmem =>
      obtain ⟨count, info, hnotice, hget⟩ := hold' notice hmem
      exact ⟨count, info, hnotice, h.window count info hget⟩

theorem Passed.cfg (h : Passed ent ent') : ent'.cfg = ent.cfg := by
  have hcfg := congrArg PdcpEntityRx.cfg h.context
  exact hcfg

theorem deliverAt_passed (count : Nat) : Passed ent (ent.deliverAt count) := by
  rw [deliverAt]
  cases hget : ent.rxWindow.get? count with
  | none => exact Passed.of_eq rfl rfl rfl
  | some info =>
    refine ⟨rfl, ?_, [.newSdu count info.buf], rfl, ?_⟩
    · intro other value h
      rw [CircularMap.get?_erase] at h
      split at h
      · cases h
      · exact h
    · intro notice hmem
      rw [List.mem_singleton] at hmem
      exact ⟨count, info, hmem, hget⟩

/-- A delivery that moves RX_DELIV forward. -/
structure Released (ent ent' : PdcpEntityRx) : Prop extends Passed ent ent' where
  rxNext : ent'.st.rxNext = ent.st.rxNext
  rxReord : ent'.st.rxReord = ent.st.rxReord
  timer : ent'.reorderingTimerRunning = ent.reorderingTimerRunning
  deliv : ent.st.rxDeliv ≤ ent'.st.rxDeliv

theorem Released.refl (ent : PdcpEntityRx) : Released ent ent where
  toPassed := Passed.of_eq rfl rfl rfl
  rxNext := rfl
  rxReord := rfl
  timer := rfl
  deliv := Nat.le_refl _

theorem Released.trans (h : Released ent mid) (h' : Released mid ent') : Released ent ent' where
  toPassed := h.toPassed.trans h'.toPassed
  rxNext := h'.rxNext.trans h.rxNext
  rxReord := h'.rxReord.trans h.rxReord
  timer := h'.timer.trans h.timer
  deliv := Nat.le_trans h.deliv h'.deliv

/-- One turn of the loops: the SDU at RX_DELIV goes out if it is there. -/
def advance (ent : PdcpEntityRx) : PdcpEntityRx :=
  (ent.deliverAt ent.st.rxDeliv).setRxDeliv ((ent.st.rxDeliv + 1) % 2 ^ 32)

theorem deliverAt_st (count : Nat) : (ent.deliverAt count).st = ent.st ∧
    (ent.deliverAt count).reorderingTimerRunning = ent.reorderingTimerRunning := by
  rw [deliverAt]
  cases ent.rxWindow.get? count <;> exact ⟨rfl, rfl⟩

theorem advance_released (hnext : ent.st.rxNext < 2 ^ 32) (hlt : ent.st.rxDeliv < ent.st.rxNext) :
    Released ent ent.advance ∧ ent.advance.st.rxDeliv = ent.st.rxDeliv + 1 := by
  have hmod : (ent.st.rxDeliv + 1) % 2 ^ 32 = ent.st.rxDeliv + 1 := Nat.mod_eq_of_lt (by omega)
  obtain ⟨hst, htimer⟩ := @deliverAt_st ent ent.st.rxDeliv
  have hrxNext := congrArg PdcpRxState.rxNext hst
  have hrxReord := congrArg PdcpRxState.rxReord hst
  have hpassed : Passed (ent.deliverAt ent.st.rxDeliv) ent.advance := Passed.of_eq rfl rfl rfl
  have hdeliv : ent.advance.st.rxDeliv = ent.st.rxDeliv + 1 := hmod
  refine ⟨⟨(deliverAt_passed _).trans hpassed, hrxNext, hrxReord, htimer, ?_⟩, hdeliv⟩
  rw [hdeliv]
  exact Nat.le_succ _

theorem Delivering.advance (h : Delivering ent) (hlt : ent.st.rxDeliv < ent.st.rxNext) :
    Delivering ent.advance := by
  have hmod : (ent.st.rxDeliv + 1) % 2 ^ 32 = ent.st.rxDeliv + 1 :=
    Nat.mod_eq_of_lt (Nat.lt_of_le_of_lt hlt h.next_lt)
  rw [PdcpEntityRx.advance, setRxDeliv, deliverAt, hmod]
  cases hget : ent.rxWindow.get? ent.st.rxDeliv with
  | none =>
    exact ⟨h.next_lt, hlt, h.window.succ hget, h.delivered.mono (Nat.le_succ _)⟩
  | some info =>
    exact ⟨h.next_lt, hlt, h.window.erase, h.delivered.deliver (Nat.le_refl _) info.buf⟩

/-- After a delivery RX_DELIV is not in the window. -/
structure Settled (ent : PdcpEntityRx) : Prop where
  next_lt : ent.st.rxNext < 2 ^ 32
  deliv_le : ent.st.rxDeliv ≤ ent.st.rxNext
  window : WindowIn ent.rxWindow (ent.st.rxDeliv + 1) ent.st.rxNext
  delivered : DeliveredBelow ent.notices ent.st.rxDeliv

theorem Settled.delivering (h : Settled ent) : Delivering ent where
  __ := h
  window := h.window.mono (Nat.le_succ _) (Nat.le_refl _)

theorem Delivering.settled (h : Delivering ent) (hfree : ent.rxWindow.get? ent.st.rxDeliv = none) :
    Settled ent where
  __ := h
  window := h.window.succ hfree

theorem Delivering.free_of_done (h : Delivering ent) (hdone : ent.st.rxDeliv = ent.st.rxNext) :
    ent.rxWindow.get? ent.st.rxDeliv = none := by
  cases hget : ent.rxWindow.get? ent.st.rxDeliv with
  | none => rfl
  | some info =>
    have hlt : ent.st.rxDeliv < ent.st.rxNext := (h.window _ info hget).2
    omega

variable {turns : Nat}

theorem deliverConsecutive_settled (h : Delivering ent)
    (hturns : ent.st.rxNext - ent.st.rxDeliv ≤ turns) :
    Settled (deliverConsecutive turns ent) ∧ Released ent (deliverConsecutive turns ent) := by
  induction turns generalizing ent with
  | zero =>
    have hle : ent.st.rxDeliv ≤ ent.st.rxNext := h.deliv_le
    exact ⟨h.settled (h.free_of_done (by omega)), Released.refl ent⟩
  | succ turns ih =>
    rw [deliverConsecutive]
    split
    · rename_i hcond
      have hlt : ent.st.rxDeliv < ent.st.rxNext := Nat.lt_of_le_of_ne h.deliv_le hcond.1
      obtain ⟨hreleased, hdeliv⟩ := advance_released h.next_lt hlt
      have hturns' : ent.advance.st.rxNext - ent.advance.st.rxDeliv ≤ turns := by
        rw [hreleased.rxNext, hdeliv]
        omega
      obtain ⟨hsettled, hrest⟩ := ih (h.advance hlt) hturns'
      exact ⟨hsettled, hreleased.trans hrest⟩
    · rename_i hcond
      refine ⟨h.settled ?_, Released.refl ent⟩
      by_cases hdone : ent.st.rxDeliv = ent.st.rxNext
      · exact h.free_of_done hdone
      · have hcontains : ¬ent.rxWindow.contains ent.st.rxDeliv = true := fun hc => hcond ⟨hdone, hc⟩
        rw [CircularMap.contains, Bool.not_eq_true, Option.isSome_eq_false_iff,
          Option.isNone_iff_eq_none] at hcontains
        exact hcontains

theorem deliverAllConsecutiveCounts_settled (h : Delivering ent) :
    Settled ent.deliverAllConsecutiveCounts ∧ Released ent ent.deliverAllConsecutiveCounts := by
  apply deliverConsecutive_settled h
  rw [countDistance_of_le h.deliv_le h.next_lt]

theorem deliverBelowReord_delivering (h : Delivering ent)
    (hturns : ent.st.rxDeliv + turns ≤ ent.st.rxNext) :
    Delivering (deliverBelowReord turns ent) ∧ Released ent (deliverBelowReord turns ent) ∧
      (deliverBelowReord turns ent).st.rxDeliv = ent.st.rxDeliv + turns := by
  induction turns generalizing ent with
  | zero => exact ⟨h, Released.refl ent, rfl⟩
  | succ turns ih =>
    have hlt : ent.st.rxDeliv < ent.st.rxNext := by omega
    obtain ⟨hreleased, hdeliv⟩ := advance_released h.next_lt hlt
    have hturns' : ent.advance.st.rxDeliv + turns ≤ ent.advance.st.rxNext := by
      rw [hreleased.rxNext, hdeliv]
      omega
    obtain ⟨hdelivering, hrest, hsum⟩ := ih (h.advance hlt) hturns'
    refine ⟨hdelivering, hreleased.trans hrest, ?_⟩
    rw [deliverBelowReord]
    rw [hdeliv, advance] at hsum
    omega

theorem deliverExpired_settled (h : Delivering ent) (hreord : ent.st.rxDeliv ≤ ent.st.rxReord)
    (hnext : ent.st.rxReord ≤ ent.st.rxNext) :
    Settled ent.deliverExpired ∧ Released ent ent.deliverExpired := by
  have hturns : ent.st.rxDeliv + countDistance ent.st.rxDeliv ent.st.rxReord ≤ ent.st.rxNext := by
    rw [countDistance_of_le hreord (Nat.lt_of_le_of_lt hnext h.next_lt)]
    omega
  obtain ⟨hbelow, hfirst, _⟩ := deliverBelowReord_delivering h hturns
  obtain ⟨hsettled, hsecond⟩ := deliverAllConsecutiveCounts_settled hbelow
  exact ⟨hsettled, hfirst.trans hsecond⟩

/-- RX_REORD while t-Reordering runs, and that it runs whenever something is waited for. -/
structure TimerState (ent : PdcpEntityRx) : Prop where
  reord : ent.reorderingTimerRunning = true → (∃ duration, ent.cfg.tReordering = .ms duration) ∧
    ent.st.rxDeliv < ent.st.rxReord ∧ ent.st.rxReord ≤ ent.st.rxNext
  running : ∀ duration, ent.cfg.tReordering = .ms duration → ent.stopped = false →
    ent.st.rxDeliv < ent.st.rxNext → ent.reorderingTimerRunning = true

theorem Settled.startReordering (h : Settled ent) : Settled ent.startReordering where
  __ := h

theorem startReordering_passed : Passed ent ent.startReordering := Passed.of_eq rfl rfl rfl

theorem startReordering_timer {duration : Nat} (hcfg : ent.cfg.tReordering = .ms duration)
    (hlt : ent.st.rxDeliv < ent.st.rxNext) : TimerState ent.startReordering where
  reord := fun _ => ⟨⟨duration, hcfg⟩, hlt, Nat.le_refl _⟩
  running := fun _ _ _ _ => rfl

theorem handleTReorderingExpire_settled (h : Delivering ent)
    (hreord : ent.st.rxDeliv ≤ ent.st.rxReord) (hnext : ent.st.rxReord ≤ ent.st.rxNext)
    (hstopped : ent.reorderingTimerRunning = false) (hcfg : ent.cfg.tReordering ≠ .infinity) :
    Settled ent.handleTReorderingExpire ∧ TimerState ent.handleTReorderingExpire ∧
      Passed ent ent.handleTReorderingExpire := by
  obtain ⟨hsettled, hreleased⟩ := deliverExpired_settled h hreord hnext
  rw [handleTReorderingExpire]
  generalize ent.deliverExpired = ent' at hsettled hreleased ⊢
  have htimer : ent'.reorderingTimerRunning = false := hreleased.timer.trans hstopped
  rw [← hreleased.cfg] at hcfg
  split
  · rename_i hwait
    cases hduration : ent'.cfg.tReordering with
    | ms0 => exact absurd hduration hwait.2
    | infinity => exact absurd hduration hcfg
    | ms duration =>
      exact ⟨hsettled.startReordering, startReordering_timer hduration hwait.1,
        hreleased.toPassed.trans startReordering_passed⟩
  · rename_i hwait
    refine ⟨hsettled, ⟨?_, ?_⟩, hreleased.toPassed⟩
    · intro hrunning
      rw [htimer] at hrunning
      cases hrunning
    · intro duration hduration _ hlt
      have hne : ent'.cfg.tReordering ≠ .ms0 := by
        rw [hduration]
        nofun
      exact absurd ⟨hlt, hne⟩ hwait

theorem updateReordering_settled (h : Settled ent)
    (hreord : ent.reorderingTimerRunning = true →
      (∃ duration, ent.cfg.tReordering = .ms duration) ∧ ent.st.rxReord ≤ ent.st.rxNext) :
    Settled ent.updateReordering ∧ TimerState ent.updateReordering ∧
      Passed ent ent.updateReordering := by
  rw [updateReordering]
  dsimp only
  -- The timer stops at RX_REORD; afterwards a running timer still waits for something.
  have hstop : ∃ ent' : PdcpEntityRx, (if ent.reorderingTimerRunning ∧ ent.st.rxDeliv ≥ ent.st.rxReord
        then ent.stopTimer else ent) = ent' ∧ Settled ent' ∧
      Passed ent ent' ∧ (ent'.reorderingTimerRunning = true →
        (∃ duration, ent'.cfg.tReordering = .ms duration) ∧ ent'.st.rxDeliv < ent'.st.rxReord ∧
          ent'.st.rxReord ≤ ent'.st.rxNext) := by
    refine ⟨_, rfl, ?_⟩
    split
    · exact ⟨{ h with }, Passed.of_eq rfl rfl rfl, nofun⟩
    · rename_i hcond
      refine ⟨h, Passed.of_eq rfl rfl rfl, ?_⟩
      intro hrunning
      obtain ⟨hduration, hle⟩ := hreord hrunning
      exact ⟨hduration, Nat.lt_of_not_le fun hge => hcond ⟨hrunning, hge⟩, hle⟩
  obtain ⟨ent', heq, hsettled, hpassed, hreord'⟩ := hstop
  rw [heq]
  cases hduration : ent'.cfg.tReordering with
  | infinity =>
    refine ⟨hsettled, ⟨hreord', ?_⟩, hpassed⟩
    intro duration hms
    rw [hduration] at hms
    cases hms
  | ms0 =>
    have hidle : ent'.reorderingTimerRunning = false := by
      cases hrunning : ent'.reorderingTimerRunning with
      | false => rfl
      | true =>
        obtain ⟨⟨duration, hms⟩, _⟩ := hreord' hrunning
        rw [hduration] at hms
        cases hms
    have hdelivering : Delivering { ent' with st := { ent'.st with rxReord := ent'.st.rxNext } } :=
      ⟨hsettled.next_lt, hsettled.deliv_le, hsettled.delivering.window, hsettled.delivered⟩
    obtain ⟨hs, ht, hp⟩ := handleTReorderingExpire_settled hdelivering hsettled.deliv_le
      (Nat.le_refl _) hidle (by simp [hduration])
    have hreordSet : Passed ent' { ent' with st := { ent'.st with rxReord := ent'.st.rxNext } } :=
      Passed.of_eq rfl rfl rfl
    exact ⟨hs, ht, hpassed.trans (hreordSet.trans hp)⟩
  | ms duration =>
    dsimp only
    split
    · rename_i hcond
      exact ⟨hsettled.startReordering, startReordering_timer hduration hcond.2,
        hpassed.trans startReordering_passed⟩
    · rename_i hcond
      refine ⟨hsettled, ⟨hreord', ?_⟩, hpassed⟩
      intro _ _ _ hlt
      cases hrunning : ent'.reorderingTimerRunning with
      | true => rfl
      | false => exact absurd ⟨hrunning, hlt⟩ hcond

variable {info : PdcpRxPduInfo}

theorem storeSdu_delivering (h : Settled ent) (hcount : ent.st.rxDeliv ≤ info.count)
    (hlt : info.count + 1 < 2 ^ 32) :
    Delivering (ent.storeSdu info) ∧ ent.st.rxNext ≤ (ent.storeSdu info).st.rxNext ∧
      (info.count ≠ ent.st.rxDeliv → Settled (ent.storeSdu info)) := by
  have hmod : (info.count + 1) % 2 ^ 32 = info.count + 1 := Nat.mod_eq_of_lt hlt
  have hnext : ent.st.rxNext ≤ (ent.storeSdu info).st.rxNext ∧
      info.count < (ent.storeSdu info).st.rxNext ∧ (ent.storeSdu info).st.rxNext < 2 ^ 32 := by
    have hold : ent.st.rxNext < 2 ^ 32 := h.next_lt
    rw [storeSdu, hmod]
    dsimp only
    split <;> omega
  obtain ⟨hle, hcount', hbound⟩ := hnext
  have hdeliv : ent.st.rxDeliv ≤ (ent.storeSdu info).st.rxNext := Nat.le_trans h.deliv_le hle
  refine ⟨⟨hbound, hdeliv, ?_, h.delivered⟩, hle, ?_⟩
  · exact h.delivering.window.overwrite hcount hcount' hle _
  · intro hne
    exact ⟨hbound, hdeliv, h.window.overwrite (by omega) hcount' hle _, h.delivered⟩

/-- What `apply_reordering` does with a result that is not dropped: store, deliver, set the timer. -/
theorem applyReordering_settled (h : Settled ent) (ht : TimerState ent)
    (hlt : info.count + 1 < 2 ^ 32) :
    Settled (ent.applyReordering info) ∧ TimerState (ent.applyReordering info) ∧
      (ent.applyReordering info = ent ∨ Passed (ent.storeSdu info) (ent.applyReordering info)) := by
  rw [applyReordering]
  split
  · exact ⟨h, ht, Or.inl rfl⟩
  · rename_i hcount
    split
    · exact ⟨h, ht, Or.inl rfl⟩
    · obtain ⟨hdelivering, hnext, hsettled⟩ := storeSdu_delivering h (Nat.le_of_not_lt hcount) hlt
      dsimp only
      have hdeliver : ∃ ent' : PdcpEntityRx, (if info.count = (ent.storeSdu info).st.rxDeliv then
            (ent.storeSdu info).deliverAllConsecutiveCounts else ent.storeSdu info) = ent' ∧
          Settled ent' ∧ Released (ent.storeSdu info) ent' := by
        refine ⟨_, rfl, ?_⟩
        split
        · exact deliverAllConsecutiveCounts_settled hdelivering
        · rename_i hne
          exact ⟨hsettled hne, Released.refl _⟩
      obtain ⟨ent', heq, hsettled', hreleased⟩ := hdeliver
      rw [heq]
      have hreord : ent'.reorderingTimerRunning = true →
          (∃ duration, ent'.cfg.tReordering = .ms duration) ∧ ent'.st.rxReord ≤ ent'.st.rxNext := by
        intro hrunning
        rw [hreleased.timer] at hrunning
        obtain ⟨hduration, _, hle⟩ := ht.reord hrunning
        rw [hreleased.cfg, hreleased.rxReord, hreleased.rxNext]
        exact ⟨hduration, Nat.le_trans hle hnext⟩
      obtain ⟨hs, htimer, hpassed⟩ := updateReordering_settled hsettled' hreord
      exact ⟨hs, htimer, Or.inr (hreleased.toPassed.trans hpassed)⟩

theorem discardRange_delivering (h : Delivering ent)
    (hturns : ent.st.rxDeliv + turns = ent.st.rxNext) :
    Delivering (discardRange turns ent) ∧ Passed ent (discardRange turns ent) ∧
      (discardRange turns ent).st.rxDeliv = (discardRange turns ent).st.rxNext := by
  induction turns generalizing ent with
  | zero => exact ⟨h, Passed.of_eq rfl rfl rfl, hturns⟩
  | succ turns ih =>
    have hlt : ent.st.rxDeliv < ent.st.rxNext := by omega
    have hmod : (ent.st.rxDeliv + 1) % 2 ^ 32 = ent.st.rxDeliv + 1 :=
      Nat.mod_eq_of_lt (Nat.lt_of_le_of_lt hlt h.next_lt)
    rw [discardRange, hmod]
    have hnext : Delivering ({ ent with rxWindow := ent.rxWindow.erase ent.st.rxDeliv }.setRxDeliv
        (ent.st.rxDeliv + 1)) :=
      ⟨h.next_lt, hlt, h.window.erase, h.delivered.mono (Nat.le_succ _)⟩
    have hturns' : ent.st.rxDeliv + 1 + turns = ent.st.rxNext := by omega
    obtain ⟨hdelivering, hpassed, hdone⟩ := ih hnext hturns'
    have hfirst : Passed ent ({ ent with rxWindow := ent.rxWindow.erase ent.st.rxDeliv }.setRxDeliv
        (ent.st.rxDeliv + 1)) := by
      refine ⟨rfl, ?_, [], (List.append_nil _).symm, by simp⟩
      intro count info hget
      rw [setRxDeliv, CircularMap.get?_erase] at hget
      split at hget
      · cases hget
      · exact hget
    exact ⟨hdelivering, hfirst.trans hpassed, hdone⟩

theorem deliverRange_passed (hwindow : WindowIn ent.rxWindow count (count + turns))
    (hdelivered : DeliveredBelow ent.notices count) :
    Passed ent (deliverRange turns count ent) ∧
      (∀ other, (deliverRange turns count ent).rxWindow.get? other = none) ∧
      DeliveredBelow (deliverRange turns count ent).notices (count + turns) := by
  induction turns generalizing ent count with
  | zero =>
    refine ⟨Passed.of_eq rfl rfl rfl, ?_, hdelivered⟩
    intro other
    cases hget : ent.rxWindow.get? other with
    | none => exact hget
    | some info =>
      obtain ⟨hge, hlt⟩ := hwindow other info hget
      omega
  | succ turns ih =>
    rw [deliverRange]
    have hend : count + (turns + 1) = count + 1 + turns := by omega
    rw [hend] at hwindow ⊢
    have hnext : WindowIn (ent.deliverAt count).rxWindow (count + 1) (count + 1 + turns) ∧
        DeliveredBelow (ent.deliverAt count).notices (count + 1) := by
      rw [deliverAt]
      cases hget : ent.rxWindow.get? count with
      | none => exact ⟨hwindow.succ hget, hdelivered.mono (Nat.le_succ _)⟩
      | some info => exact ⟨hwindow.erase, hdelivered.deliver (Nat.le_refl _) info.buf⟩
    obtain ⟨hpassed, hempty, hbelow⟩ := ih hnext.1 hnext.2
    exact ⟨(deliverAt_passed count).trans hpassed, hempty, hbelow⟩

theorem deliverRange_timer :
    (deliverRange turns count ent).reorderingTimerRunning = ent.reorderingTimerRunning := by
  induction turns generalizing ent count with
  | zero => rfl
  | succ turns ih =>
    rw [deliverRange, ih]
    exact (deliverAt_st count).2

/-- Reception starts again with an empty window. -/
structure Restarted (ent ent' : PdcpEntityRx) : Prop where
  timer : ent'.reorderingTimerRunning = false
  window : ∀ count, ent'.rxWindow.get? count = none
  delivered : ∃ bound, DeliveredBelow ent'.notices bound
  passed : ∃ mid, Passed ent mid ∧ ent' = mid.resetState

theorem Restarted.st (h : Restarted ent ent') : ent'.st = {} := by
  obtain ⟨mid, _, heq⟩ := h.passed
  rw [heq]
  rfl

theorem resetState_restarted {bound : Nat} (hpassed : Passed ent mid)
    (htimer : mid.reorderingTimerRunning = false)
    (hwindow : ∀ count, mid.rxWindow.get? count = none)
    (hdelivered : DeliveredBelow mid.notices bound) : Restarted ent mid.resetState where
  timer := htimer
  window := hwindow
  delivered := ⟨bound, hdelivered.notify rfl⟩
  passed := ⟨mid, hpassed, rfl⟩

theorem deliverAllSdus_restarted (h : Delivering ent)
    (htimer : ent.reorderingTimerRunning = false) : Restarted ent ent.deliverAllSdus.resetState := by
  have hend : ent.st.rxDeliv + (ent.st.rxNext - ent.st.rxDeliv) = ent.st.rxNext := by
    have hle : ent.st.rxDeliv ≤ ent.st.rxNext := h.deliv_le
    omega
  have hwindow := h.window
  rw [← hend] at hwindow
  obtain ⟨hpassed, hempty, hbelow⟩ := deliverRange_passed hwindow h.delivered
  exact resetState_restarted hpassed (deliverRange_timer.trans htimer) hempty hbelow

theorem Delivering.empty_of_done (h : Delivering ent) (hdone : ent.st.rxDeliv = ent.st.rxNext)
    (count : Nat) : ent.rxWindow.get? count = none := by
  cases hget : ent.rxWindow.get? count with
  | none => rfl
  | some info =>
    obtain ⟨hge, hlt⟩ := h.window count info hget
    omega

theorem discardAllSdus_delivering (h : Delivering ent) :
    Delivering ent.discardAllSdus ∧ Passed ent ent.discardAllSdus ∧
      ent.discardAllSdus.st.rxDeliv = ent.discardAllSdus.st.rxNext := by
  apply discardRange_delivering h
  rw [countDistance_of_le h.deliv_le h.next_lt]
  exact Nat.add_sub_cancel' h.deliv_le

theorem Restarted.after (h : Restarted mid ent') (hpassed : Passed ent mid) :
    Restarted ent ent' where
  __ := h
  passed := by
    obtain ⟨last, hlast, heq⟩ := h.passed
    exact ⟨last, hpassed.trans hlast, heq⟩

theorem stopTimer_passed : Passed ent ent.stopTimer := Passed.of_eq rfl rfl rfl

theorem Delivering.stopTimer (h : Delivering ent) : Delivering ent.stopTimer where
  __ := h

theorem restartReception_cases (h : Settled ent) :
    (ent.cfg.isSrb = false ∧ ent.cfg.isUm = false ∧ ent.restartReception = ent) ∨
      Restarted ent ent.restartReception := by
  have hdiscard : ∃ mid : PdcpEntityRx, (if ent.cfg.isSrb then ent.discardAllSdus else ent) = mid ∧
      Delivering mid ∧ Passed ent mid ∧ (ent.cfg.isSrb = true → mid.st.rxDeliv = mid.st.rxNext) ∧
      (ent.cfg.isSrb = false → mid = ent) := by
    by_cases hsrb : ent.cfg.isSrb = true
    · obtain ⟨hdelivering, hpassed, hdone⟩ := discardAllSdus_delivering h.delivering
      refine ⟨ent.discardAllSdus, if_pos hsrb, hdelivering, hpassed, fun _ => hdone, ?_⟩
      intro hnot
      rw [hsrb] at hnot
      cases hnot
    · exact ⟨ent, if_neg hsrb, h.delivering, Passed.of_eq rfl rfl rfl, fun hs => absurd hs hsrb,
        fun _ => rfl⟩
  obtain ⟨mid, heq, hdelivering, hpassed, hdone, hsame⟩ := hdiscard
  have hcfg : mid.cfg = ent.cfg := hpassed.cfg
  rw [restartReception, heq]
  dsimp only
  by_cases hcond : mid.cfg.isSrb = true ∨ mid.cfg.isUm = true
  · rw [if_pos hcond]
    right
    apply Restarted.after _ (hpassed.trans stopTimer_passed)
    by_cases hum : mid.stopTimer.cfg.isUm = true
    · rw [if_pos hum]
      exact deliverAllSdus_restarted hdelivering.stopTimer rfl
    · rw [if_neg hum]
      have hsrb : ent.cfg.isSrb = true := by
        rw [← hcfg]
        exact hcond.resolve_right hum
      exact resetState_restarted (Passed.of_eq rfl rfl rfl) rfl
        (hdelivering.stopTimer.empty_of_done (hdone hsrb)) hdelivering.delivered
  · rw [if_neg hcond]
    rw [not_or, Bool.not_eq_true, Bool.not_eq_true, hcfg] at hcond
    left
    exact ⟨hcond.1, hcond.2, hsame hcond.1⟩

/-- The state between two events. -/
structure WellFormed (ent : PdcpEntityRx) : Prop extends Settled ent, TimerState ent where
  jobs : ∀ info ∈ ent.cryptoJobs, info.count < ent.cfg.maxCount.hard
  results : ∀ info, Except.ok info ∈ ent.cryptoResults → info.count < ent.cfg.maxCount.hard

/-- The events that only concern PDUs before reordering, security and notices. -/
structure Unmoved (ent ent' : PdcpEntityRx) : Prop where
  st : ent'.st = ent.st
  window : ent'.rxWindow = ent.rxWindow
  timer : ent'.reorderingTimerRunning = ent.reorderingTimerRunning
  cfg : ent'.cfg = ent.cfg
  stopped : ent'.stopped = ent.stopped
  notices : ∃ rest, ent'.notices = ent.notices ++ rest ∧ ∀ notice ∈ rest, notice.count? = none

theorem notify_unmoved (hnotice : notice.count? = none) : Unmoved ent (ent.notify notice) where
  st := rfl
  window := rfl
  timer := rfl
  cfg := rfl
  stopped := rfl
  notices := by
    refine ⟨[notice], rfl, ?_⟩
    intro other hmem
    rw [List.mem_singleton.mp hmem]
    exact hnotice

theorem DeliveredBelow_append {notices rest : List RxNotice} {bound : Nat}
    (h : DeliveredBelow notices bound) (hrest : ∀ notice ∈ rest, notice.count? = none) :
    DeliveredBelow (notices ++ rest) bound := by
  induction rest generalizing notices with
  | nil =>
    rw [List.append_nil]
    exact h
  | cons notice rest ih =>
    rw [List.forall_mem_cons] at hrest
    rw [List.append_cons]
    exact ih (h.notify hrest.1) hrest.2

section
variable (h : WellFormed ent)
include h

theorem WellFormed.unmoved (hsame : Unmoved ent ent')
    (hjobs : ∀ info ∈ ent'.cryptoJobs, info.count < ent.cfg.maxCount.hard)
    (hresults : ∀ info, Except.ok info ∈ ent'.cryptoResults → info.count < ent.cfg.maxCount.hard) :
    WellFormed ent' := by
  obtain ⟨rest, hrest, hnone⟩ := hsame.notices
  refine ⟨⟨?_, ?_, ?_, ?_⟩, ⟨?_, ?_⟩, ?_, ?_⟩
  · rw [hsame.st]
    exact h.next_lt
  · rw [hsame.st]
    exact h.deliv_le
  · rw [hsame.st, hsame.window]
    exact h.window
  · rw [hsame.st, hrest]
    exact DeliveredBelow_append h.delivered hnone
  · rw [hsame.st, hsame.cfg, hsame.timer]
    exact h.reord
  · rw [hsame.st, hsame.cfg, hsame.timer, hsame.stopped]
    exact h.running
  · rw [hsame.cfg]
    exact hjobs
  · rw [hsame.cfg]
    exact hresults

/-- Reordering and delivery touch neither the jobs nor the results. -/
theorem WellFormed.reordered (hcontext : ent'.context = ent.context)
    (hs : Settled ent') (ht : TimerState ent') : WellFormed ent' := by
  have hcfg : ent'.context.cfg = ent.context.cfg := by rw [hcontext]
  have hjobs : ent'.context.cryptoJobs = ent.context.cryptoJobs := by rw [hcontext]
  have hresults : ent'.context.cryptoResults = ent.context.cryptoResults := by rw [hcontext]
  refine ⟨hs, ht, ?_, ?_⟩
  · intro info hmem
    have hold : info ∈ ent.cryptoJobs := hjobs ▸ hmem
    have hlt : info.count < ent.context.cfg.maxCount.hard := h.jobs info hold
    rw [← hcfg] at hlt
    exact hlt
  · intro info hmem
    have hold : Except.ok info ∈ ent.cryptoResults := hresults ▸ hmem
    have hlt : info.count < ent.context.cfg.maxCount.hard := h.results info hold
    rw [← hcfg] at hlt
    exact hlt

theorem WellFormed.untouched (hsame : Unmoved ent ent')
    (hjobs : ent'.cryptoJobs = ent.cryptoJobs) (hresults : ent'.cryptoResults = ent.cryptoResults) :
    WellFormed ent' := by
  apply h.unmoved hsame
  · rw [hjobs]
    exact h.jobs
  · rw [hresults]
    exact h.results

theorem WellFormed.notify (hnotice : notice.count? = none) : WellFormed (ent.notify notice) :=
  h.untouched (notify_unmoved hnotice) rfl rfl

theorem WellFormed.checkMaxCountNotify (count : Nat) : WellFormed (ent.checkMaxCountNotify count) := by
  rw [PdcpEntityRx.checkMaxCountNotify]
  split
  · exact h.untouched ⟨rfl, rfl, rfl, rfl, rfl, [.maxCountReached], rfl, by simp [RxNotice.count?]⟩
      rfl rfl
  · exact h

theorem WellFormed.refuseMaxCount : WellFormed ent.refuseMaxCount := by
  rw [PdcpEntityRx.refuseMaxCount]
  split
  · exact h
  · exact h.untouched ⟨rfl, rfl, rfl, rfl, rfl, [.protocolFailure], rfl, by simp [RxNotice.count?]⟩
      rfl rfl

theorem WellFormed.handleDataPdu (pdu : List UInt8) : WellFormed (ent.handleDataPdu pdu) := by
  rw [PdcpEntityRx.handleDataPdu]
  cases readDataPduHeader ent.cfg pdu with
  | none => exact h
  | some sn =>
    have hchecked := h.checkMaxCountNotify (ent.rcvdCount sn)
    dsimp only
    split
    · exact hchecked.refuseMaxCount
    · rename_i hhard
      refine hchecked.unmoved ⟨rfl, rfl, rfl, rfl, rfl, [], (List.append_nil _).symm, by simp⟩
        ?_ hchecked.results
      intro info hmem
      rw [List.mem_append, List.mem_singleton] at hmem
      cases hmem with
      | inl hmem => exact hchecked.jobs info hmem
      | inr heq =>
        rw [heq]
        exact Nat.lt_of_not_le hhard

theorem WellFormed.handlePdu (buf : List UInt8) : WellFormed (ent.handlePdu buf) := by
  unfold PdcpEntityRx.handlePdu
  split
  · exact h
  · split
    · split
      · exact h.untouched ⟨rfl, rfl, rfl, rfl, rfl, [], (List.append_nil _).symm, by simp⟩ rfl rfl
      · exact h
    · cases buf with
      | nil => exact h
      | cons hdrByte rest =>
        dsimp only
        split
        · exact h.handleDataPdu _
        · rw [handleControlPdu]
          split
          · exact h.notify rfl
          · exact h

theorem WellFormed.handlePdus (pdus : List (List UInt8)) :
    WellFormed (pdus.foldl PdcpEntityRx.handlePdu ent) := by
  induction pdus generalizing ent with
  | nil => exact h
  | cons buf rest ih => exact ih (h.handlePdu buf)

theorem WellFormed.configureSecurity (secCfg : Sec128AsConfig)
    (integrityEnabled cipheringEnabled : Bool) :
    WellFormed (ent.configureSecurity secCfg integrityEnabled cipheringEnabled) := by
  rw [PdcpEntityRx.configureSecurity]
  split
  · exact h
  · exact h.untouched ⟨rfl, rfl, rfl, rfl, rfl, [.securityConfigured], rfl, by simp [RxNotice.count?]⟩
      rfl rfl

theorem WellFormed.handleFailure (err : SecurityError) : WellFormed (ent.handleFailure err) := by
  cases err with
  | integrityFailure => exact h.notify rfl
  | cipheringFailure => exact h.notify rfl
  | bufferFailure => exact h.notify rfl
  | engineFailure => exact h.notify rfl

theorem WellFormed.applyReordering (hhard : info.count < ent.cfg.maxCount.hard) :
    WellFormed (ent.applyReordering info) := by
  have hlt : info.count + 1 < 2 ^ 32 := Nat.lt_of_le_of_lt hhard ent.cfg.maxCount.hard_lt
  obtain ⟨hs, ht, hpassed⟩ := applyReordering_settled h.toSettled h.toTimerState hlt
  apply h.reordered _ hs ht
  cases hpassed with
  | inl heq => rw [heq]
  | inr hpassed => exact hpassed.context

end

theorem Settled.stopTimer (h : Settled ent) : Settled ent.stopTimer where
  __ := h

theorem WellFormed.reorderingCallback (h : WellFormed ent)
    (hrunning : ent.reorderingTimerRunning = true) : WellFormed ent.reorderingCallback := by
  obtain ⟨⟨duration, hduration⟩, hlt, hle⟩ := h.reord hrunning
  rw [PdcpEntityRx.reorderingCallback]
  split
  · rename_i hstopped
    refine h.reordered rfl h.toSettled.stopTimer ⟨nofun, ?_⟩
    intro _ _ hnot
    rw [hstopped] at hnot
    cases hnot
  · have hcfg : ent.stopTimer.cfg.tReordering ≠ .infinity := by
      intro hinf
      rw [stopTimer, hduration] at hinf
      cases hinf
    obtain ⟨hs, ht, hpassed⟩ := handleTReorderingExpire_settled h.toSettled.stopTimer.delivering
      (Nat.le_of_lt hlt) hle rfl hcfg
    exact h.reordered hpassed.context hs ht

theorem Restarted.context (h : Restarted ent ent') : ent'.context = ent.context := by
  obtain ⟨mid, hpassed, heq⟩ := h.passed
  rw [heq]
  exact hpassed.context

theorem WellFormed.restartReception (h : WellFormed ent) :
    ∃ bound, DeliveredBelow ent.restartReception.notices bound ∧
      ∀ notices, DeliveredBelow notices ent.restartReception.st.rxDeliv →
        WellFormed { ent.restartReception with notices } := by
  obtain ⟨_, _, heq⟩ | hrestarted := restartReception_cases h.toSettled
  · rw [heq]
    refine ⟨ent.st.rxDeliv, h.delivered, ?_⟩
    intro notices hdelivered
    exact h.reordered rfl ⟨h.next_lt, h.deliv_le, h.window, hdelivered⟩ ⟨h.reord, h.running⟩
  · obtain ⟨bound, hbound⟩ := hrestarted.delivered
    refine ⟨bound, hbound, ?_⟩
    intro notices hdelivered
    have hcontext := hrestarted.context
    have hst := hrestarted.st
    have htimer := hrestarted.timer
    have hwindow := hrestarted.window
    generalize ent.restartReception = ent' at hcontext hst htimer hwindow hdelivered ⊢
    refine h.reordered hcontext ⟨?_, ?_, ?_, hdelivered⟩ ⟨?_, ?_⟩
    · rw [hst]
      exact Nat.two_pow_pos 32
    · rw [hst]
    · intro count info hget
      rw [hwindow count] at hget
      cases hget
    · intro hrunning
      rw [htimer] at hrunning
      cases hrunning
    · intro _ _ _ hlt
      rw [hst] at hlt
      cases hlt

theorem WellFormed.reestablish (h : WellFormed ent) (secCfg : Sec128AsConfig) :
    WellFormed (ent.reestablish secCfg) := by
  obtain ⟨bound, hbound, hwell⟩ := h.restartReception
  rw [PdcpEntityRx.reestablish, PdcpEntityRx.configureSecurity]
  split
  · exact hwell _ hbound.reestablished
  · have hnotices : DeliveredBelow (ent.restartReception.notices ++ [.securityConfigured]) bound :=
      hbound.notify rfl
    have hlast := hwell _ hnotices.reestablished
    exact hlast.untouched ⟨rfl, rfl, rfl, rfl, rfl, [], (List.append_nil _).symm, by simp⟩ rfl rfl

theorem WellFormed.stop (h : WellFormed ent) : WellFormed ent.stop := by
  rw [PdcpEntityRx.stop]
  split
  · exact h
  · exact ⟨{ h with }, ⟨nofun, nofun⟩, h.jobs, h.results⟩

variable {engine : SecurityContext → SecurityEngine}

theorem WellFormed.step (h : WellFormed ent)
    (event : RxEvent) (hstep : step engine ent event = some ent') : WellFormed ent' := by
  cases event with
  | handlePdu buf =>
    cases hstep
    exact h.handlePdu buf
  | beginBuffering =>
    cases hstep
    exact h.untouched ⟨rfl, rfl, rfl, rfl, rfl, [], (List.append_nil _).symm, by simp⟩ rfl rfl
  | endBuffering =>
    cases hstep
    apply WellFormed.handlePdus
    exact h.untouched ⟨rfl, rfl, rfl, rfl, rfl, [], (List.append_nil _).symm, by simp⟩ rfl rfl
  | runCryptoJob idx =>
    obtain ⟨info, hinfo, heq⟩ := Option.map_eq_some_iff.mp hstep
    subst heq
    refine h.unmoved ⟨rfl, rfl, rfl, rfl, rfl, [], (List.append_nil _).symm, by simp⟩ ?_ ?_
    · intro other hmem
      exact h.jobs other (List.mem_of_mem_eraseIdx hmem)
    · intro other hmem
      rw [List.mem_append, List.mem_singleton] at hmem
      cases hmem with
      | inl hmem => exact h.results other hmem
      | inr heq =>
        rw [applySecurity] at heq
        split at heq
        · cases heq
        · cases heq
          exact h.jobs info (List.mem_of_getElem? hinfo)
  | loseCryptoJob idx =>
    cases hstep
    refine h.unmoved ⟨rfl, rfl, rfl, rfl, rfl, [], (List.append_nil _).symm, by simp⟩ ?_ h.results
    intro info hmem
    exact h.jobs info (List.mem_of_mem_eraseIdx hmem)
  | runResult idx =>
    obtain ⟨result, hresult, heq⟩ := Option.map_eq_some_iff.mp hstep
    subst heq
    have htaken : WellFormed { ent with cryptoResults := ent.cryptoResults.eraseIdx idx } := by
      refine h.unmoved ⟨rfl, rfl, rfl, rfl, rfl, [], (List.append_nil _).symm, by simp⟩ h.jobs ?_
      intro info hmem
      exact h.results info (List.mem_of_mem_eraseIdx hmem)
    cases result with
    | error err => exact htaken.handleFailure err
    | ok info => exact htaken.applyReordering (h.results info (List.mem_of_getElem? hresult))
  | loseResult idx =>
    cases hstep
    refine h.unmoved ⟨rfl, rfl, rfl, rfl, rfl, [], (List.append_nil _).symm, by simp⟩ h.jobs ?_
    intro info hmem
    exact h.results info (List.mem_of_mem_eraseIdx hmem)
  | reorderingExpiry =>
    rw [PdcpEntityRx.step] at hstep
    split at hstep
    · rename_i hrunning
      cases hstep
      exact h.reorderingCallback hrunning
    · cases hstep
  | configureSecurity secCfg integrityEnabled cipheringEnabled =>
    rw [PdcpEntityRx.step] at hstep
    split at hstep
    · cases hstep
      exact h.configureSecurity secCfg integrityEnabled cipheringEnabled
    · cases hstep
  | reestablish secCfg =>
    rw [PdcpEntityRx.step] at hstep
    split at hstep
    · cases hstep
      exact h.reestablish secCfg
    · cases hstep
  | stop =>
    cases hstep
    exact h.stop

theorem pdcpComputeCount_lt {hfn sn : Nat} {snSize : PdcpSnSize} (hsn : sn < 2 ^ 32) :
    pdcpComputeCount hfn sn snSize < 2 ^ 32 :=
  Nat.or_lt_two_pow (Nat.mod_lt _ (Nat.two_pow_pos 32)) hsn

theorem setCount_wellFormed (cfg : PdcpRxConfig) (hfn : Nat) {sn : Nat} (hsn : sn < 2 ^ 32) :
    WellFormed ((create cfg).setCount hfn sn) where
  next_lt := pdcpComputeCount_lt hsn
  deliv_le := Nat.le_refl _
  window := by
    intro count info hget
    cases hget
  delivered := DeliveredBelow.nil
  reord := nofun
  running := fun _ _ _ hlt => absurd hlt (Nat.lt_irrefl _)
  jobs := nofun
  results := nofun

theorem reaches_wellFormed {cfg : PdcpRxConfig}
    {hfn sn : Nat} {guard : PdcpEntityRx → RxEvent → Prop} (hsn : sn < 2 ^ 32)
    (hrun : Runs.Reaches (step engine) guard ((create cfg).setCount hfn sn) ent) :
    WellFormed ent := by
  apply hrun.invariant (setCount_wellFormed cfg hfn hsn)
  intro s event s' hs _ hstep
  exact hs.step event hstep

/-- In every run, whatever the order and the losses of the crypto results: SDUs are delivered in
ascending COUNT up to each re-establishment, the window only holds what is waited for behind
RX_DELIV, and t-Reordering runs as long as something is missing. -/
theorem pdcpRx_deliversInOrder {engine : SecurityContext → SecurityEngine} {cfg : PdcpRxConfig}
    {hfn sn : Nat} (hsn : sn < 2 ^ 32)
    (hrun : Runs.Reaches (step engine) (fun _ _ => True) ((create cfg).setCount hfn sn) ent) :
    Epochs.Ordered RxNotice.isReestablished Ascending ent.notices ∧
      ent.st.rxDeliv ≤ ent.st.rxNext ∧
      (∀ count, ent.rxWindow.contains count = true →
        ent.st.rxDeliv < count ∧ count < ent.st.rxNext) ∧
      (∀ duration, ent.cfg.tReordering = .ms duration → ent.stopped = false →
        (ent.reorderingTimerRunning = true ↔ ent.st.rxDeliv < ent.st.rxNext)) := by
  have hwell := reaches_wellFormed hsn hrun
  refine ⟨hwell.delivered.ordered, hwell.deliv_le, ?_, ?_⟩
  · intro count hcontains
    obtain ⟨info, hinfo⟩ := Option.isSome_iff_exists.mp hcontains
    exact hwell.window count info hinfo
  · intro duration hduration hstopped
    constructor
    · intro hrunning
      obtain ⟨_, hlt, hle⟩ := hwell.reord hrunning
      exact Nat.lt_of_lt_of_le hlt hle
    · exact hwell.running duration hduration hstopped

/-- A UM bearer to which COUNTs 1, 0 and 3 arrive and whose results for 1 and 0 are exchanged. -/
theorem pdcpRx_deliversInOrder_exchanged : ∃ ent : PdcpEntityRx,
    (ent.notices = [.newSdu 0 [0xbb], .newSdu 1 [0xaa]] ∧ ent.reorderingTimerRunning = true) ∧
      Epochs.Ordered RxNotice.isReestablished Ascending ent.notices ∧
      ent.st.rxDeliv ≤ ent.st.rxNext ∧
      (∀ count, ent.rxWindow.contains count = true →
        ent.st.rxDeliv < count ∧ count < ent.st.rxNext) ∧
      (∀ duration, ent.cfg.tReordering = .ms duration → ent.stopped = false →
        (ent.reorderingTimerRunning = true ↔ ent.st.rxDeliv < ent.st.rxNext)) := by
  have hobserved : (Runs.runAll (step fun _ => SecurityEngine.disabled)
      ((create ⟨.drb, .um, .size12bits, .ms 100, ⟨0xc0000000, 0xd0000000, by decide⟩⟩).setCount 0 0)
      [.handlePdu [0x80, 1, 0xaa], .handlePdu [0x80, 0, 0xbb], .handlePdu [0x80, 3, 0xcc],
        .runCryptoJob 0, .runCryptoJob 0, .runCryptoJob 0, .runResult 1, .runResult 0,
        .runResult 0]).map (fun ent => (ent.notices, ent.reorderingTimerRunning)) =
      some ([.newSdu 0 [0xbb], .newSdu 1 [0xaa]], true) := by
    decide +kernel
  obtain ⟨ent, hrun, hent⟩ := Option.map_eq_some_iff.mp hobserved
  rw [Prod.mk.injEq] at hent
  exact ⟨ent, hent,
    pdcpRx_deliversInOrder (by decide) (Runs.reaches_of_runAll .start (fun _ _ _ => trivial) hrun)⟩

end PdcpEntityRx

end Srsran.Pdcp
