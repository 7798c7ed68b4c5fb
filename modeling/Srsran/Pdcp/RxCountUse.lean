import Srsran.Pdcp.RxState
import Srsran.Pdcp.TxCountUse

/-! Use of COUNTs by the receiving PDCP entity: the hard limit, one SDU for each COUNT between two key
changes, and the notification of RRC before the limit for it is exceeded. -/
namespace Srsran.Pdcp
open Srsran.Adt PdcpEntityTx RxNotice

variable {notice : RxNotice}

namespace RxNotice

def isKeyChange : RxNotice → Bool
  | .securityConfigured => true
  | _ => false

def isCounterReset : RxNotice → Bool
  | .countersReset => true
  | _ => false

/-- Two SDUs delivered with one COUNT are the same. -/
def SameSdu (first second : RxNotice) : Prop :=
  ∀ count sdu sdu', first = .newSdu count sdu → second = .newSdu count sdu' → sdu = sdu'

/-- An SDU with a COUNT above a limit. -/
def Exceeds (limit : Nat) (notice : RxNotice) : Prop :=
  ∃ count sdu, notice = .newSdu count sdu ∧ limit < count

/-- An SDU is the one received with its COUNT. -/
def Agrees (sdus : Nat → List UInt8) (notice : RxNotice) : Prop :=
  ∀ count sdu, notice = .newSdu count sdu → sdu = sdus count

theorem sameSdu_of_agrees {sdus : Nat → List UInt8} (first second : RxNotice)
    (h : Agrees sdus first) (h' : Agrees sdus second) : SameSdu first second := by
  intro count sdu sdu' heq heq'
  rw [h count sdu heq, h' count sdu' heq']

def isRoutine : RxNotice → Bool
  | .protocolFailure => true
  | .integrityFailure => true
  | .statusReport _ => true
  | .reestablished => true
  | _ => false

theorem isRoutine_kind (h : notice.isRoutine = true) :
    notice.isKeyChange = false ∧ notice.isCounterReset = false ∧
      ∀ count sdu, notice ≠ .newSdu count sdu := by
  cases notice <;> first | contradiction | exact ⟨rfl, rfl, nofun⟩

end RxNotice

namespace PdcpEntityRx
variable {ent ent' : PdcpEntityRx}

/-- What the notices say about the COUNTs: all below the hard limit, one SDU for each between two key
changes, RRC notified in time since the last reset. -/
structure CountsUsed (cfg : PdcpRxConfig) (notices : List RxNotice) : Prop where
  below : ∀ count sdu, .newSdu count sdu ∈ notices → count < cfg.maxCount.hard
  unique : Epochs.Ordered isKeyChange SameSdu notices
  notified : Epochs.Announced isCounterReset (Exceeds cfg.maxCount.notify)
    (· = .maxCountReached) notices

/-- RRC knows of a COUNT above the first limit. -/
def Warned (ent : PdcpEntityRx) (count : Nat) : Prop :=
  ent.cfg.maxCount.notify < count → ent.maxCountNotified = true

/-- The COUNTs in the window, in the crypto executor and on their way back respect the limits. -/
structure Limited (ent : PdcpEntityRx) : Prop where
  window : ∀ count info, ent.rxWindow.get? count = some info →
    count < ent.cfg.maxCount.hard ∧ ent.Warned count
  jobs : ∀ info ∈ ent.cryptoJobs, ent.Warned info.count
  results : ∀ info, .ok info ∈ ent.cryptoResults → ent.Warned info.count
  notified : ent.maxCountNotified = true →
    .maxCountReached ∈ Epochs.current isCounterReset ent.notices
  used : CountsUsed ent.cfg ent.notices

/-- `sdus` is what was received with the COUNTs under the current key. -/
structure Keyed (sdus : Nat → List UInt8) (ent : PdcpEntityRx) : Prop where
  window : ∀ count info, ent.rxWindow.get? count = some info → info.buf = sdus count
  done : ∀ count sdu, .newSdu count sdu ∈ Epochs.current isKeyChange ent.notices →
    count < ent.st.rxDeliv ∧ sdu = sdus count

/-- The part of the invariant that also holds while SDUs are delivered. -/
structure CountState (ent : PdcpEntityRx) : Prop extends Limited ent where
  keyed : ∃ sdus, Keyed sdus ent

/-- PDUs leave the crypto executor, and notices that do not concern COUNTs are added. -/
structure Routine (ent ent' : PdcpEntityRx) : Prop where
  cfg : ent'.cfg = ent.cfg
  rxDeliv : ent'.st.rxDeliv = ent.st.rxDeliv
  window : ent'.rxWindow = ent.rxWindow
  maxCountNotified : ent'.maxCountNotified = ent.maxCountNotified
  jobs : ∀ info ∈ ent'.cryptoJobs, info ∈ ent.cryptoJobs
  results : ∀ info, .ok info ∈ ent'.cryptoResults →
    .ok info ∈ ent.cryptoResults ∨ ∃ job ∈ ent.cryptoJobs, job.count = info.count
  notices : ∃ rest, ent'.notices = ent.notices ++ rest ∧ ∀ notice ∈ rest, notice.isRoutine = true

theorem Routine.refl (ent : PdcpEntityRx) : Routine ent ent where
  cfg := rfl
  rxDeliv := rfl
  window := rfl
  maxCountNotified := rfl
  jobs := fun _ hmem => hmem
  results := fun _ hmem => Or.inl hmem
  notices := ⟨[], (List.append_nil _).symm, by simp⟩

variable {cfg : PdcpRxConfig}

theorem CountsUsed.notify {notices : List RxNotice} (h : CountsUsed cfg notices)
    (hsdu : ∀ count sdu, notice ≠ .newSdu count sdu) : CountsUsed cfg (notices ++ [notice]) where
  below := by
    intro count sdu hmem
    obtain hold | hlast := List.mem_append.mp hmem
    · exact h.below count sdu hold
    · exact absurd (List.mem_singleton.mp hlast).symm (hsdu count sdu)
  unique := by
    apply h.unique.concat
    intro first _ count sdu sdu' _ heq
    exact absurd heq (hsdu count sdu')
  notified := by
    apply h.notified.concat
    rintro ⟨count, sdu, heq, _⟩
    exact absurd heq (hsdu count sdu)

theorem CountsUsed.append {notices rest : List RxNotice} (h : CountsUsed cfg notices)
    (hrest : ∀ notice ∈ rest, notice.isRoutine = true) : CountsUsed cfg (notices ++ rest) := by
  induction rest using List.reverseRecOn with
  | nil =>
    rw [List.append_nil]
    exact h
  | append_singleton rest last ih =>
    rw [← List.append_assoc]
    have hlast := hrest last (List.mem_append_right _ List.mem_cons_self)
    exact (ih fun notice hmem => hrest notice (List.mem_append_left _ hmem)).notify
      (isRoutine_kind hlast).2.2

theorem CountState.routine (h : CountState ent) (hr : Routine ent ent') : CountState ent' := by
  obtain ⟨rest, hnotices, hrest⟩ := hr.notices
  obtain ⟨sdus, hkeyed⟩ := h.keyed
  have hwarned : ∀ count, ent.Warned count → ent'.Warned count := by
    intro count hwarned
    rw [Warned, hr.cfg, hr.maxCountNotified]
    exact hwarned
  refine ⟨⟨?_, ?_, ?_, ?_, ?_⟩, sdus, ?_, ?_⟩
  · rw [hr.window, hr.cfg]
    intro count info hget
    obtain ⟨hhard, hold⟩ := h.window count info hget
    exact ⟨hhard, hwarned count hold⟩
  · intro info hmem
    exact hwarned _ (h.jobs info (hr.jobs info hmem))
  · intro info hmem
    obtain hold | ⟨job, hjob, hcount⟩ := hr.results info hmem
    · exact hwarned _ (h.results info hold)
    · rw [← hcount]
      exact hwarned _ (h.jobs job hjob)
  · rw [hr.maxCountNotified, hnotices]
    intro hflag
    exact Epochs.mem_current_append
      (fun notice hmem => (isRoutine_kind (hrest notice hmem)).2.1) (h.notified hflag)
  · rw [hr.cfg, hnotices]
    exact h.used.append hrest
  · rw [hr.window]
    exact hkeyed.window
  · rw [hnotices, hr.rxDeliv]
    intro count sdu hmem
    obtain hold | hnew := Epochs.mem_current_append_cases hmem
    · exact hkeyed.done count sdu hold
    · exact absurd rfl ((isRoutine_kind (hrest _ hnew)).2.2 count sdu)

theorem notify_routine (h : notice.isRoutine = true) : Routine ent (ent.notify notice) :=
  ⟨rfl, rfl, rfl, rfl, fun _ hmem => hmem, fun _ hmem => Or.inl hmem, [notice], rfl,
    fun _ hmem => by rw [List.mem_singleton.mp hmem]; exact h⟩

theorem maxCountReached_countState (h : CountState ent) :
    CountState { ent.notify .maxCountReached with maxCountNotified := true } := by
  obtain ⟨sdus, hkeyed⟩ := h.keyed
  refine ⟨⟨?_, fun _ _ _ => rfl, fun _ _ _ => rfl, ?_, h.used.notify nofun⟩, sdus,
    hkeyed.window, ?_⟩
  · intro count info hget
    exact ⟨(h.window count info hget).1, fun _ => rfl⟩
  · intro _
    rw [notify, Epochs.current_concat_of_not_marker rfl]
    exact List.mem_append_right _ List.mem_cons_self
  · intro count sdu hmem
    have hcurrent : .newSdu count sdu ∈
        Epochs.current isKeyChange (ent.notices ++ [.maxCountReached]) := hmem
    obtain hold | hlast := Epochs.mem_current_append_cases hcurrent
    · exact hkeyed.done count sdu hold
    · cases List.mem_singleton.mp hlast

theorem checkMaxCountNotify_countState (h : CountState ent) (count : Nat) :
    CountState (ent.checkMaxCountNotify count) ∧ (ent.checkMaxCountNotify count).Warned count := by
  rw [checkMaxCountNotify]
  split
  · exact ⟨maxCountReached_countState h, fun _ => rfl⟩
  · rename_i hcond
    refine ⟨h, ?_⟩
    intro hlt
    cases hflag : ent.maxCountNotified with
    | true => rfl
    | false => exact absurd ⟨hlt, hflag⟩ hcond

theorem refuseMaxCount_routine : Routine ent ent.refuseMaxCount := by
  rw [refuseMaxCount]
  split
  · exact Routine.refl ent
  · refine ⟨rfl, rfl, rfl, rfl, fun _ hmem => hmem, fun _ hmem => Or.inl hmem, [.protocolFailure],
      rfl, ?_⟩
    intro notice hmem
    rw [List.mem_singleton.mp hmem]
    rfl

theorem handleDataPdu_countState (h : CountState ent) (pdu : List UInt8) :
    CountState (ent.handleDataPdu pdu) := by
  rw [handleDataPdu]
  cases readDataPduHeader ent.cfg pdu with
  | none => exact h
  | some sn =>
    obtain ⟨hchecked, hwarned⟩ := checkMaxCountNotify_countState h (ent.rcvdCount sn)
    dsimp only
    split
    · exact hchecked.routine refuseMaxCount_routine
    · obtain ⟨sdus, hkeyed⟩ := hchecked.keyed
      refine ⟨⟨hchecked.window, ?_, hchecked.results, hchecked.notified, hchecked.used⟩, sdus,
        hkeyed.window, hkeyed.done⟩
      intro info hmem
      obtain hold | hlast := List.mem_append.mp hmem
      · exact hchecked.jobs info hold
      · rw [List.mem_singleton.mp hlast]
        exact hwarned

theorem setBuffer_routine {buffering : Bool} {pduBuffer : List (List UInt8)} :
    Routine ent { ent with buffering, pduBuffer } :=
  ⟨rfl, rfl, rfl, rfl, fun _ hmem => hmem, fun _ hmem => Or.inl hmem, [], (List.append_nil _).symm,
    by simp⟩

section
variable (h : CountState ent)
include h

theorem handlePdu_countState (buf : List UInt8) : CountState (ent.handlePdu buf) := by
  unfold PdcpEntityRx.handlePdu
  split
  · exact h
  · split
    · split
      · exact h.routine setBuffer_routine
      · exact h
    · cases buf with
      | nil => exact h
      | cons hdrByte rest =>
        dsimp only
        split
        · exact handleDataPdu_countState h _
        · rw [handleControlPdu]
          split
          · exact h.routine (notify_routine rfl)
          · exact h

theorem handlePdus_countState (pdus : List (List UInt8)) : CountState (pdus.foldl handlePdu ent) := by
  induction pdus generalizing ent with
  | nil => exact h
  | cons buf rest ih => exact ih (handlePdu_countState h buf)

theorem configureSecurity_countState (secCfg : Sec128AsConfig)
    (integrityEnabled cipheringEnabled : Bool) :
    CountState (ent.configureSecurity secCfg integrityEnabled cipheringEnabled) := by
  rw [configureSecurity]
  split
  · exact h
  · obtain ⟨sdus, hkeyed⟩ := h.keyed
    refine ⟨⟨h.window, h.jobs, h.results, ?_, h.used.notify (by rintro _ _ ⟨⟩)⟩, sdus, hkeyed.window, ?_⟩
    · intro hflag
      rw [notify, Epochs.current_concat_of_not_marker rfl]
      exact List.mem_append_left _ (h.notified hflag)
    · intro count sdu hmem
      rw [notify, Epochs.current_concat_of_marker rfl] at hmem
      cases hmem

theorem CountState.used_passed (hp : Passed ent ent') : CountsUsed ent'.cfg ent'.notices := by
  obtain ⟨rest, hnotices, hsource⟩ := hp.notices
  obtain ⟨sdus, hkeyed⟩ := h.keyed
  rw [hp.cfg, hnotices]
  refine ⟨?_, ?_, ?_⟩
  · intro count sdu hmem
    obtain hold | hnew := List.mem_append.mp hmem
    · exact h.used.below count sdu hold
    · obtain ⟨count', info, heq, hget⟩ := hsource _ hnew
      cases heq
      exact (h.window _ info hget).1
  · apply h.used.unique.append (G := Agrees sdus) _ _ sameSdu_of_agrees
    · intro notice hmem count sdu heq
      rw [heq] at hmem
      exact (hkeyed.done count sdu hmem).2
    · intro notice hmem count sdu heq
      obtain ⟨count', info, heq', hget⟩ := hsource notice hmem
      rw [heq] at heq'
      cases heq'
      exact hkeyed.window _ info hget
  · apply h.used.notified.append
    · intro notice hmem
      obtain ⟨count, info, heq, _⟩ := hsource notice hmem
      rw [heq]
      rfl
    · rintro notice hmem ⟨count, sdu, heq, hlt⟩
      obtain ⟨count', info, heq', hget⟩ := hsource notice hmem
      rw [heq] at heq'
      cases heq'
      exact ⟨.maxCountReached, h.notified ((h.window _ info hget).2 hlt), rfl⟩

theorem CountState.passed (hp : Passed ent ent') (hdeliv : ent.st.rxDeliv ≤ ent'.st.rxDeliv)
    (hbelow : DeliveredBelow ent'.notices ent'.st.rxDeliv) : CountState ent' := by
  obtain ⟨rest, hnotices, hsource⟩ := hp.notices
  obtain ⟨sdus, hkeyed⟩ := h.keyed
  have hflag : ent'.maxCountNotified = ent.maxCountNotified := by
    have hcontext := congrArg PdcpEntityRx.maxCountNotified hp.context
    exact hcontext
  have hjobs : ent'.cryptoJobs = ent.cryptoJobs := by
    have hcontext := congrArg PdcpEntityRx.cryptoJobs hp.context
    exact hcontext
  have hresults : ent'.cryptoResults = ent.cryptoResults := by
    have hcontext := congrArg PdcpEntityRx.cryptoResults hp.context
    exact hcontext
  have hwarned : ∀ count, ent.Warned count → ent'.Warned count := by
    intro count hwarned
    rw [Warned, hp.cfg, hflag]
    exact hwarned
  -- What was just delivered belongs to the current epoch of either kind.
  have hrest : ∀ notice ∈ rest, notice.isReestablished = false ∧ notice.isCounterReset = false := by
    intro notice hmem
    obtain ⟨count, info, heq, _⟩ := hsource notice hmem
    rw [heq]
    exact ⟨rfl, rfl⟩
  refine ⟨⟨?_, ?_, ?_, ?_, h.used_passed hp⟩, sdus, ?_, ?_⟩
  · intro count info hget
    obtain ⟨hhard, hold⟩ := h.window count info (hp.window count info hget)
    rw [hp.cfg]
    exact ⟨hhard, hwarned count hold⟩
  · rw [hjobs]
    exact fun info hmem => hwarned _ (h.jobs info hmem)
  · rw [hresults]
    exact fun info hmem => hwarned _ (h.results info hmem)
  · rw [hflag, hnotices]
    intro hnotified
    exact Epochs.mem_current_append (fun notice hmem => (hrest notice hmem).2) (h.notified hnotified)
  · intro count info hget
    exact hkeyed.window count info (hp.window count info hget)
  · intro count sdu hmem
    rw [hnotices] at hmem hbelow
    obtain hold | hnew := Epochs.mem_current_append_cases hmem
    · obtain ⟨hlt, hsdu⟩ := hkeyed.done count sdu hold
      exact ⟨Nat.lt_of_lt_of_le hlt hdeliv, hsdu⟩
    · have hcurrent : .newSdu count sdu ∈
          Epochs.current isReestablished (ent.notices ++ rest) :=
        Epochs.mem_current_append_right (fun notice hmem => (hrest notice hmem).1) hnew
      obtain ⟨count', info, heq, hget⟩ := hsource _ hnew
      cases heq
      exact ⟨hbelow.below _ hcurrent count rfl, hkeyed.window count info hget⟩

end

variable {info : PdcpRxPduInfo}

theorem storeSdu_countState (h : CountState ent) (hhard : info.count < ent.cfg.maxCount.hard)
    (hwarned : ent.Warned info.count) (hcount : ent.st.rxDeliv ≤ info.count) :
    CountState (ent.storeSdu info) := by
  obtain ⟨sdus, hkeyed⟩ := h.keyed
  have hget : ∀ count value, (ent.storeSdu info).rxWindow.get? count = some value →
      (count = info.count ∧ value.buf = info.buf) ∨
        (count ≠ info.count ∧ ent.rxWindow.get? count = some value) := by
    intro count value hvalue
    have hoverwrite : (ent.rxWindow.overwrite info.count
        { buf := info.buf, count := info.count }).get? count = some value := hvalue
    rw [CircularMap.get?_overwrite] at hoverwrite
    split at hoverwrite
    · rename_i heq
      cases hoverwrite
      exact Or.inl ⟨heq, rfl⟩
    · rename_i hne
      split at hoverwrite
      · cases hoverwrite
      · exact Or.inr ⟨hne, hoverwrite⟩
  refine ⟨⟨?_, h.jobs, h.results, h.notified, h.used⟩,
    Function.update sdus info.count info.buf, ?_, ?_⟩
  · intro count value hvalue
    obtain ⟨heq, _⟩ | ⟨_, hold⟩ := hget count value hvalue
    · rw [heq]
      exact ⟨hhard, hwarned⟩
    · exact h.window count value hold
  · intro count value hvalue
    obtain ⟨heq, hbuf⟩ | ⟨hne, hold⟩ := hget count value hvalue
    · rw [heq, hbuf, Function.update_self]
    · rw [Function.update_of_ne hne]
      exact hkeyed.window count value hold
  · intro count sdu hmem
    obtain ⟨hlt, hsdu⟩ := hkeyed.done count sdu hmem
    rw [Function.update_of_ne (Nat.ne_of_lt (Nat.lt_of_lt_of_le hlt hcount))]
    exact ⟨hlt, hsdu⟩

theorem startReordering_deliv : ent.startReordering.st.rxDeliv = ent.st.rxDeliv := rfl

theorem handleTReorderingExpire_cases :
    ent.handleTReorderingExpire = ent.deliverExpired.startReordering ∨
      ent.handleTReorderingExpire = ent.deliverExpired :=
  ite_eq_or_eq _ _ _

theorem handleTReorderingExpire_deliv (h : Delivering ent)
    (hreord : ent.st.rxDeliv ≤ ent.st.rxReord) (hnext : ent.st.rxReord ≤ ent.st.rxNext) :
    ent.st.rxDeliv ≤ ent.handleTReorderingExpire.st.rxDeliv := by
  obtain ⟨_, hreleased⟩ := deliverExpired_settled h hreord hnext
  obtain heq | heq := @handleTReorderingExpire_cases ent
  · rw [heq, startReordering_deliv]
    exact hreleased.deliv
  · rw [heq]
    exact hreleased.deliv

theorem updateReordering_deliv (h : Settled ent) :
    ent.st.rxDeliv ≤ ent.updateReordering.st.rxDeliv := by
  have hstop : ∃ mid : PdcpEntityRx, (if ent.reorderingTimerRunning ∧
        ent.st.rxDeliv ≥ ent.st.rxReord then ent.stopTimer else ent) = mid ∧ Settled mid ∧
      mid.st = ent.st := by
    refine ⟨_, rfl, ?_⟩
    split
    · exact ⟨h.stopTimer, rfl⟩
    · exact ⟨h, rfl⟩
  obtain ⟨mid, heq, hmid, hst⟩ := hstop
  rw [updateReordering, heq, ← hst]
  cases mid.cfg.tReordering with
  | infinity => exact Nat.le_refl _
  | ms0 =>
    have hdelivering : Delivering { mid with st := { mid.st with rxReord := mid.st.rxNext } } :=
      ⟨hmid.next_lt, hmid.deliv_le, hmid.delivering.window, hmid.delivered⟩
    exact handleTReorderingExpire_deliv hdelivering hmid.deliv_le (Nat.le_refl _)
  | ms duration =>
    dsimp only
    split
    · exact Nat.le_refl _
    · exact Nat.le_refl _

theorem applyReordering_deliv (h : Settled ent) (hlt : info.count + 1 < 2 ^ 32) :
    ent.st.rxDeliv ≤ (ent.applyReordering info).st.rxDeliv := by
  rw [applyReordering]
  split
  · exact Nat.le_refl _
  · rename_i hcount
    split
    · exact Nat.le_refl _
    · obtain ⟨hdelivering, _, hsettled⟩ := storeSdu_delivering h (Nat.le_of_not_lt hcount) hlt
      have hdeliver : ∃ mid : PdcpEntityRx, (if info.count = (ent.storeSdu info).st.rxDeliv then
            (ent.storeSdu info).deliverAllConsecutiveCounts else ent.storeSdu info) = mid ∧
          Settled mid ∧ (ent.storeSdu info).st.rxDeliv ≤ mid.st.rxDeliv := by
        refine ⟨_, rfl, ?_⟩
        split
        · obtain ⟨hs, hreleased⟩ := deliverAllConsecutiveCounts_settled hdelivering
          exact ⟨hs, hreleased.deliv⟩
        · rename_i hne
          exact ⟨hsettled hne, Nat.le_refl _⟩
      obtain ⟨mid, heq, hmid, hdeliv⟩ := hdeliver
      dsimp only
      rw [heq]
      exact Nat.le_trans hdeliv (updateReordering_deliv hmid)

/-! Results of the crypto executor and expiry of t-Reordering. -/

theorem applyReordering_old (h : info.count < ent.st.rxDeliv) : ent.applyReordering info = ent := by
  rw [applyReordering, if_pos h]

theorem applyReordering_countState (h : CountState ent) (hw : WellFormed ent)
    (hhard : info.count < ent.cfg.maxCount.hard) (hwarned : ent.Warned info.count) :
    CountState (ent.applyReordering info) := by
  have hlt : info.count + 1 < 2 ^ 32 := Nat.lt_of_le_of_lt hhard ent.cfg.maxCount.hard_lt
  by_cases hold : info.count < ent.st.rxDeliv
  · rw [applyReordering_old hold]
    exact h
  · obtain ⟨hsettled, _, heq | hpassed⟩ :=
      applyReordering_settled hw.toSettled hw.toTimerState hlt
    · rw [heq]
      exact h
    · have hstored := storeSdu_countState h hhard hwarned (Nat.le_of_not_lt hold)
      exact hstored.passed hpassed (applyReordering_deliv hw.toSettled hlt) hsettled.delivered

theorem reorderingCallback_countState (h : CountState ent) (hw : WellFormed ent)
    (hrunning : ent.reorderingTimerRunning = true) : CountState ent.reorderingCallback := by
  obtain ⟨⟨duration, hduration⟩, hlt, hle⟩ := hw.reord hrunning
  obtain ⟨sdus, hkeyed⟩ := h.keyed
  have hstop : CountState ent.stopTimer :=
    ⟨⟨h.window, h.jobs, h.results, h.notified, h.used⟩, sdus, hkeyed.window, hkeyed.done⟩
  have hdelivering := hw.toSettled.stopTimer.delivering
  rw [reorderingCallback]
  split
  · exact hstop
  · have hcfg : ent.stopTimer.cfg.tReordering ≠ .infinity := by
      intro hinf
      rw [stopTimer, hduration] at hinf
      cases hinf
    obtain ⟨hsettled, _, hpassed⟩ :=
      handleTReorderingExpire_settled hdelivering (Nat.le_of_lt hlt) hle rfl hcfg
    exact hstop.passed hpassed
      (handleTReorderingExpire_deliv hdelivering (Nat.le_of_lt hlt) hle) hsettled.delivered

theorem handleFailure_routine (err : SecurityError) : Routine ent (ent.handleFailure err) := by
  cases err with
  | integrityFailure => exact notify_routine rfl
  | cipheringFailure => exact notify_routine rfl
  | bufferFailure => exact notify_routine rfl
  | engineFailure => exact notify_routine rfl

variable {engine : SecurityContext → SecurityEngine}

theorem applySecurity_count {job : PdcpRxPduInfo} (h : applySecurity engine ent job = .ok info) :
    job.count = info.count := by
  rw [applySecurity] at h
  split at h
  · cases h
  · cases h
    rfl

theorem runCryptoJob_routine {idx : Nat} {job : PdcpRxPduInfo}
    (hjob : ent.cryptoJobs[idx]? = some job) :
    Routine ent { ent with
      cryptoJobs := ent.cryptoJobs.eraseIdx idx
      cryptoResults := ent.cryptoResults ++ [applySecurity engine ent job] } := by
  refine ⟨rfl, rfl, rfl, rfl, fun _ hmem => List.mem_of_mem_eraseIdx hmem, ?_, [],
    (List.append_nil _).symm, by simp⟩
  intro info hmem
  obtain hold | hlast := List.mem_append.mp hmem
  · exact Or.inl hold
  · exact Or.inr ⟨job, List.mem_of_getElem? hjob,
      applySecurity_count (List.mem_singleton.mp hlast).symm⟩

theorem eraseJob_routine (idx : Nat) :
    Routine ent { ent with cryptoJobs := ent.cryptoJobs.eraseIdx idx } :=
  ⟨rfl, rfl, rfl, rfl, fun _ hmem => List.mem_of_mem_eraseIdx hmem, fun _ hmem => Or.inl hmem, [],
    (List.append_nil _).symm, by simp⟩

theorem eraseResult_routine (idx : Nat) :
    Routine ent { ent with cryptoResults := ent.cryptoResults.eraseIdx idx } :=
  ⟨rfl, rfl, rfl, rfl, fun _ hmem => hmem, fun _ hmem => Or.inl (List.mem_of_mem_eraseIdx hmem), [],
    (List.append_nil _).symm, by simp⟩

theorem stop_routine : Routine ent ent.stop := by
  rw [PdcpEntityRx.stop]
  split
  · exact Routine.refl ent
  · exact ⟨rfl, rfl, rfl, rfl, fun _ hmem => hmem, fun _ hmem => Or.inl hmem, [],
      (List.append_nil _).symm, by simp⟩

/-- When the counters are reset, the notification of RRC is still to come and the new key is
accepted. -/
def countersFresh (ent : PdcpEntityRx) : RxEvent → Bool
  | .reestablish secCfg =>
    !(ent.cfg.isSrb || ent.cfg.isUm) ||
      (!ent.maxCountNotified && acceptsSecurity ent.integrityEnabled secCfg)
  | _ => true

variable {secCfg : Sec128AsConfig}

theorem configureSecurity_of_accepts {integrityEnabled : Bool}
    (h : acceptsSecurity integrityEnabled secCfg = true) (cipheringEnabled : Bool) :
    ent.configureSecurity secCfg integrityEnabled cipheringEnabled =
      { ent.notify .securityConfigured with
        integrityEnabled
        cipheringEnabled
        secEngine := some { secCfg, integrityEnabled, cipheringEnabled } } := by
  rw [configureSecurity, if_neg (not_missing_of_accepts h)]

/-- The counters start again with an empty window, for a new key. What is still in the crypto executor
is below the first limit, since RRC has not been notified. -/
theorem restarted_countState {cipheringEnabled : Bool} (h : CountState ent)
    (hr : Restarted ent ent') (hflag : ent.maxCountNotified = false)
    (haccepts : acceptsSecurity ent'.integrityEnabled secCfg = true) :
    CountState (ent'.configureSecurity secCfg ent'.integrityEnabled cipheringEnabled) := by
  obtain ⟨mid, hpassed, heq⟩ := hr.passed
  have hwindow := hr.window
  have hflag' : mid.maxCountNotified = false := by
    have hcontext := congrArg PdcpEntityRx.maxCountNotified hpassed.context
    exact hcontext.trans hflag
  have hjobs : mid.cryptoJobs = ent.cryptoJobs := by
    have hcontext := congrArg PdcpEntityRx.cryptoJobs hpassed.context
    exact hcontext
  have hresults : mid.cryptoResults = ent.cryptoResults := by
    have hcontext := congrArg PdcpEntityRx.cryptoResults hpassed.context
    exact hcontext
  have hwarned : ∀ count, ent.Warned count → mid.Warned count := by
    intro count hwarned
    rw [Warned, hpassed.cfg, hflag', ← hflag]
    exact hwarned
  have hreset : CountsUsed mid.cfg (mid.notices ++ [.countersReset]) :=
    (h.used_passed hpassed).notify nofun
  have hused : CountsUsed mid.cfg (mid.notices ++ [.countersReset] ++ [.securityConfigured]) :=
    hreset.notify nofun
  subst heq
  rw [configureSecurity_of_accepts haccepts]
  refine ⟨⟨?_, ?_, ?_, ?_, hused⟩, fun _ => [], ?_, ?_⟩
  · intro count info hget
    cases (hwindow count).symm.trans hget
  · intro info hmem
    exact hwarned _ (h.jobs info (hjobs ▸ hmem))
  · intro info hmem
    exact hwarned _ (h.results info (hresults ▸ hmem))
  · intro hnotified
    cases hflag'.symm.trans hnotified
  · intro count info hget
    cases (hwindow count).symm.trans hget
  · intro count sdu hmem
    have hcurrent : .newSdu count sdu ∈ Epochs.current isKeyChange
        (mid.notices ++ [.countersReset] ++ [.securityConfigured]) := hmem
    rw [Epochs.current_concat_of_marker rfl] at hcurrent
    cases hcurrent

theorem reestablish_countState (h : CountState ent) (hw : WellFormed ent)
    (hfresh : ent.countersFresh (.reestablish secCfg) = true) :
    CountState (ent.reestablish secCfg) := by
  have hsecured : CountState (ent.restartReception.configureSecurity secCfg
      ent.restartReception.integrityEnabled ent.restartReception.cipheringEnabled) := by
    rw [countersFresh, Bool.or_eq_true, Bool.not_eq_true', Bool.or_eq_false_iff, Bool.and_eq_true,
      Bool.not_eq_true'] at hfresh
    obtain ⟨_, _, heq⟩ | hrestarted := restartReception_cases hw.toSettled
    · rw [heq]
      exact configureSecurity_countState h _ _ _
    · by_cases ham : ent.cfg.isSrb = false ∧ ent.cfg.isUm = false
      · have heq : ent.restartReception = ent := by
          rw [restartReception]
          simp only [ham.1, ham.2, Bool.false_eq_true, if_false, or_self]
        rw [heq]
        exact configureSecurity_countState h _ _ _
      · obtain ⟨hflag, haccepts⟩ := hfresh.resolve_left ham
        have hintegrity : ent.restartReception.integrityEnabled = ent.integrityEnabled := by
          have hcontext := congrArg PdcpEntityRx.integrityEnabled hrestarted.context
          exact hcontext
        apply restarted_countState h hrestarted hflag
        rw [hintegrity]
        exact haccepts
  exact hsecured.routine (notify_routine rfl)

theorem step_countState {event : RxEvent} (h : CountState ent) (hw : WellFormed ent)
    (hfresh : ent.countersFresh event = true) (hstep : step engine ent event = some ent') :
    CountState ent' := by
  cases event with
  | handlePdu buf =>
    cases hstep
    exact handlePdu_countState h buf
  | beginBuffering =>
    cases hstep
    exact h.routine setBuffer_routine
  | endBuffering =>
    cases hstep
    exact handlePdus_countState (h.routine setBuffer_routine) _
  | runCryptoJob idx =>
    obtain ⟨job, hjob, heq⟩ := Option.map_eq_some_iff.mp hstep
    subst heq
    exact h.routine (runCryptoJob_routine hjob)
  | loseCryptoJob idx =>
    cases hstep
    exact h.routine (eraseJob_routine idx)
  | runResult idx =>
    obtain ⟨result, hresult, heq⟩ := Option.map_eq_some_iff.mp hstep
    subst heq
    have hstate := h.routine (eraseResult_routine idx)
    cases result with
    | error err => exact hstate.routine (handleFailure_routine err)
    | ok info =>
      have hmem := List.mem_of_getElem? hresult
      have hwell := hw.step (.loseResult idx) (@rfl _ (step engine ent (.loseResult idx)))
      exact applyReordering_countState hstate hwell (hw.results info hmem) (h.results info hmem)
  | loseResult idx =>
    cases hstep
    exact h.routine (eraseResult_routine idx)
  | reorderingExpiry =>
    rw [step] at hstep
    split at hstep
    · rename_i hrunning
      cases hstep
      exact reorderingCallback_countState h hw hrunning
    · cases hstep
  | configureSecurity secCfg integrityEnabled cipheringEnabled =>
    rw [step] at hstep
    split at hstep
    · cases hstep
      exact configureSecurity_countState h _ _ _
    · cases hstep
  | reestablish secCfg =>
    rw [step] at hstep
    split at hstep
    · cases hstep
      exact reestablish_countState h hw hfresh
    · cases hstep
  | stop =>
    cases hstep
    exact h.routine stop_routine

theorem setCount_countState (cfg : PdcpRxConfig) (hfn sn : Nat) :
    CountState ((create cfg).setCount hfn sn) := by
  refine ⟨⟨?_, nofun, nofun, nofun, ⟨nofun, Epochs.ordered_nil, Epochs.announced_nil⟩⟩,
    fun _ => [], ?_, ?_⟩
  · intro count info hget
    cases hget
  · intro count info hget
    cases hget
  · intro count sdu hmem
    cases hmem

/-- The COUNTs of every run that resets the counters only for a new key and with the notification still
to come. -/
theorem reaches_countsUsed {hfn sn : Nat} (hsn : sn < 2 ^ 32)
    (hrun : Runs.Reaches (step engine) (fun ent event => ent.countersFresh event = true)
      ((create cfg).setCount hfn sn) ent) : CountsUsed ent.cfg ent.notices := by
  have hstate : WellFormed ent ∧ CountState ent := by
    apply hrun.invariant ⟨setCount_wellFormed cfg hfn hsn, setCount_countState cfg hfn sn⟩
    intro s event s' hs hfresh hstep
    exact ⟨hs.1.step event hstep, step_countState hs.2 hs.1 hfresh hstep⟩
  exact hstate.2.used

end PdcpEntityRx

/-- In every run of either entity, also if handling SDUs fails when transmitting, that resets the
counters only for a new key, with the notification of RRC still to come and, when transmitting, no job
left in the crypto executor: no COUNT from the hard limit on is used, no COUNT serves two SDUs under
one key, and RRC is notified before the first COUNT above its limit since the reset. -/
theorem pdcpCount_perKeyEpoch {engine : SecurityContext → SecurityEngine} {txCfg : PdcpTxConfig}
    {rxCfg : PdcpRxConfig} {txHfn txSn rxHfn rxSn : Nat} {tx : PdcpEntityTx} {rx : PdcpEntityRx}
    (htxSn : txSn < 2 ^ 32) (hrxSn : rxSn < 2 ^ 32)
    (htx : Runs.Reaches (next engine) (fun ent event => ent.countersFresh event = true)
        ((create txCfg).setCount txHfn txSn) tx ∨
      Runs.Reaches (nextFailing engine) (fun ent event => ent.countersFreshFailing event = true)
        ((create txCfg).setCount txHfn txSn) tx)
    (hrx : Runs.Reaches (PdcpEntityRx.step engine) (fun ent event => ent.countersFresh event = true)
      ((PdcpEntityRx.create rxCfg).setCount rxHfn rxSn) rx) :
    CountsUsed tx.cfg tx.notices ∧ PdcpEntityRx.CountsUsed rx.cfg rx.notices :=
  ⟨reaches_countsUsed htxSn htx, PdcpEntityRx.reaches_countsUsed hrxSn hrx⟩

/-- Both entities of a UM bearer are re-established before the limit and pass it afterwards. At last an SDU gets
no header. -/
theorem pdcpCount_perKeyEpoch_reestablished : ∃ (tx : PdcpEntityTx) (rx : PdcpEntityRx),
    (tx.notices = [.securityConfigured, .protectedSdu 0 [0x80, 0, 0xaa],
        .newPdu 0 [0x80, 0, 0xaa] false false, .reestablished, .countersReset, .securityConfigured,
        .protectedSdu 0 [0x80, 0, 0xbb], .newPdu 0 [0x80, 0, 0xbb] false false, .maxCountReached,
        .protectedSdu 1 [0x80, 1, 0xcc], .newPdu 1 [0x80, 1, 0xcc] false false, .protocolFailure] ∧
      rx.notices = [.newSdu 0 [0xaa], .countersReset, .securityConfigured, .reestablished,
        .newSdu 0 [0xbb], .maxCountReached, .newSdu 1 [0xcc]]) ∧
      CountsUsed tx.cfg tx.notices ∧ PdcpEntityRx.CountsUsed rx.cfg rx.notices := by
  have htx : (Runs.runAll (Runs.guarded (nextFailing fun _ => SecurityEngine.disabled)
        fun ent event => ent.countersFreshFailing event = true)
      ((create ⟨.drb, .um, .size12bits, none, false, ⟨1, 10, by decide⟩,
        (by rintro ⟨⟩)⟩).setCount 0 0)
      [.other (.configureSecurity ⟨none, [], none, .nea0⟩ false false), .other (.desiredBufferSize 1000),
        .handleSdu .sent [0xaa] 0, .other (.runCryptoJob 0), .other (.runResult 0),
        .other (.reestablish ⟨none, [], none, .nea0⟩), .other (.desiredBufferSize 1000),
        .handleSdu .sent [0xbb] 0, .other (.runCryptoJob 0), .other (.runResult 0), .handleSdu .sent [0xcc] 0,
        .other (.runCryptoJob 0), .other (.runResult 0), .handleSdu .headerPrependFails [0xdd] 0]).map notices =
      some [.securityConfigured, .protectedSdu 0 [0x80, 0, 0xaa],
        .newPdu 0 [0x80, 0, 0xaa] false false, .reestablished, .countersReset, .securityConfigured,
        .protectedSdu 0 [0x80, 0, 0xbb], .newPdu 0 [0x80, 0, 0xbb] false false, .maxCountReached,
        .protectedSdu 1 [0x80, 1, 0xcc], .newPdu 1 [0x80, 1, 0xcc] false false, .protocolFailure] := by
    decide +kernel
  have hrx : (Runs.runAll (Runs.guarded (PdcpEntityRx.step fun _ => SecurityEngine.disabled)
        fun ent event => ent.countersFresh event = true)
      ((PdcpEntityRx.create ⟨.drb, .um, .size12bits, .ms 100, ⟨0, 10, by decide⟩⟩).setCount 0 0)
      [.handlePdu [0x80, 0, 0xaa], .runCryptoJob 0, .runResult 0,
        .reestablish ⟨none, [], none, .nea0⟩, .handlePdu [0x80, 0, 0xbb], .runCryptoJob 0,
        .runResult 0, .handlePdu [0x80, 1, 0xcc], .runCryptoJob 0, .runResult 0]).map
      PdcpEntityRx.notices =
      some [.newSdu 0 [0xaa], .countersReset, .securityConfigured, .reestablished,
        .newSdu 0 [0xbb], .maxCountReached, .newSdu 1 [0xcc]] := by
    decide +kernel
  obtain ⟨tx, htxRun, htx⟩ := Option.map_eq_some_iff.mp htx
  obtain ⟨rx, hrxRun, hrx⟩ := Option.map_eq_some_iff.mp hrx
  exact ⟨tx, rx, ⟨htx, hrx⟩, pdcpCount_perKeyEpoch (by decide) (by decide)
    (.inr (Runs.reaches_of_runGuarded .start htxRun)) (Runs.reaches_of_runGuarded .start hrxRun)⟩

/-- RRC is notified once for COUNT 0. After re-establishment COUNT 1 is sent, above the limit, and RRC
has not been notified since the counters were reset. -/
theorem pdcpCount_notificationSkipped : ∃ ent : PdcpEntityTx,
    Runs.Reaches (next fun _ => SecurityEngine.disabled) (fun _ _ => True)
        ((create ⟨.drb, .um, .size12bits, none, false, ⟨0, 10, by decide⟩,
          nofun⟩).setCount 0 0) ent ∧
      ¬CountsUsed ⟨.drb, .um, .size12bits, none, false, ⟨0, 10, by decide⟩, nofun⟩
        ent.notices := by
  have hobserved : (Runs.runAll (next fun _ => SecurityEngine.disabled)
      ((create ⟨.drb, .um, .size12bits, none, false, ⟨0, 10, by decide⟩,
        nofun⟩).setCount 0 0)
      [.configureSecurity ⟨none, [], none, .nea0⟩ false false, .desiredBufferSize 1000,
        .handleSdu [0xaa] 0, .runCryptoJob 0, .runResult 0, .reestablish ⟨none, [], none, .nea0⟩,
        .desiredBufferSize 1000, .handleSdu [0xbb] 0, .runCryptoJob 0, .runResult 0,
        .handleSdu [0xcc] 0, .runCryptoJob 0, .runResult 0]).map notices =
      some ([.securityConfigured, .maxCountReached, .protectedSdu 0 [0x80, 0, 0xaa],
        .newPdu 0 [0x80, 0, 0xaa] false false, .reestablished, .countersReset, .securityConfigured,
        .protectedSdu 0 [0x80, 0, 0xbb], .newPdu 0 [0x80, 0, 0xbb] false false,
        .protectedSdu 1 [0x80, 1, 0xcc]] ++ [.newPdu 1 [0x80, 1, 0xcc] false false]) := by
    decide +kernel
  obtain ⟨ent, hrun, hent⟩ := Option.map_eq_some_iff.mp hobserved
  refine ⟨ent, Runs.reaches_of_runAll .start (fun _ _ _ => trivial) hrun, ?_⟩
  intro hused
  obtain ⟨notice, hmem, heq⟩ :=
    hused.notified _ _ [] hent ⟨1, [0x80, 1, 0xcc], false, false, rfl, Nat.zero_lt_one⟩
  revert hmem
  rw [heq]
  decide

end Srsran.Pdcp
