import Srsran.Pdcp.TxFailureEvents

/-! Use of COUNTs by the transmitting PDCP entity: the hard limit, one SDU for each COUNT between two
key changes, and the notification of RRC before the limit for it is exceeded. -/
namespace Srsran.Pdcp
open Srsran.Adt Checked

namespace TxNotice

def isKeyChange : TxNotice → Bool
  | .securityConfigured => true
  | _ => false

def isCounterReset : TxNotice → Bool
  | .countersReset => true
  | _ => false

/-- Two SDUs protected with one COUNT are the same. -/
def SameSdu (first second : TxNotice) : Prop :=
  ∀ count buf buf', first = .protectedSdu count buf → second = .protectedSdu count buf' → buf = buf'

/-- A PDU with a COUNT above a limit. -/
def Exceeds (limit : Nat) (notice : TxNotice) : Prop :=
  ∃ count pdu isRetx generated, notice = .newPdu count pdu isRetx generated ∧ limit < count

/-- An SDU is protected with the COUNT it was given. -/
def Agrees (sdus : Nat → List UInt8) (notice : TxNotice) : Prop :=
  ∀ count buf, notice = .protectedSdu count buf → buf = sdus count

theorem sameSdu_of_agrees {sdus : Nat → List UInt8} (first second : TxNotice)
    (h : Agrees sdus first) (h' : Agrees sdus second) : SameSdu first second := by
  intro count buf buf' heq heq'
  rw [h count buf heq, h' count buf' heq']

def isRoutine : TxNotice → Bool
  | .discardPdu _ => true
  | .protocolFailure => true
  | .dataRecovery => true
  | .reestablished => true
  | _ => false

end TxNotice

namespace PdcpTxWindow

/-- SDUs leave the window, or all but the SDU changes. -/
inductive Processed (first : PdcpTxWindow) : PdcpTxWindow → Prop
  | refl : Processed first first
  | removeSdu (window : PdcpTxWindow) (count : Nat) (h : Processed first window) :
    Processed first (window.removeSdu count)
  | setElement (window : PdcpTxWindow) (count : Nat) (elem elem' : PdcpTxWindowElement) (h : Processed first window)
    (hget : window.get? count = some elem) (hsdu : elem'.sdu = elem.sdu)
    (hlength : elem'.sduLength = elem.sduLength) : Processed first (window.setElement count elem')
  | clear (window : PdcpTxWindow) (h : Processed first window) : Processed first window.clear

theorem Processed.trans {first mid window : PdcpTxWindow} (h : Processed first mid) (h' : Processed mid window) :
    Processed first window := by
  induction h' with
  | refl => exact h
  | removeSdu window count _ ih => exact .removeSdu window count ih
  | setElement window count elem elem' _ hget hsdu hlength ih =>
    exact .setElement window count elem elem' ih hget hsdu hlength
  | clear window _ ih => exact .clear window ih

theorem Processed.get? {first window : PdcpTxWindow} (h : Processed first window) {count : Nat}
    {elem : PdcpTxWindowElement} (hget : window.get? count = some elem) :
    ∃ old, first.get? count = some old ∧ old.sdu = elem.sdu := by
  induction h generalizing count elem with
  | refl => exact ⟨elem, hget, rfl⟩
  | removeSdu window other _ ih =>
    rw [get?_removeSdu] at hget
    split at hget
    · cases hget
    · exact ih hget
  | setElement window other old elem' _ hold hsdu _ ih =>
    rw [PdcpEntityTx.get?_setElement hold] at hget
    split at hget
    · rename_i heq
      cases hget
      rw [hsdu, heq]
      exact ih hold
    · exact ih hget
  | clear window _ ih => cases hget

end PdcpTxWindow

namespace PdcpEntityTx
variable {ent ent' : PdcpEntityTx} {sdus : Nat → List UInt8}

/-- What the notices say about the COUNTs: all below the hard limit, one SDU for each between two key
changes, RRC notified in time since the last reset. -/
structure CountsUsed (cfg : PdcpTxConfig) (notices : List TxNotice) : Prop where
  below : ∀ count pdu isRetx generated, .newPdu count pdu isRetx generated ∈ notices →
    count < cfg.maxCount.hard
  unique : Epochs.Ordered TxNotice.isKeyChange TxNotice.SameSdu notices
  notified : Epochs.Announced TxNotice.isCounterReset (TxNotice.Exceeds cfg.maxCount.notify)
    (· = .maxCountReached) notices

def withHeader (cfg : PdcpTxConfig) (count : Nat) (sdu : List UInt8) : List UInt8 :=
  writeDataPduHeader cfg (pdcpComputeSn count cfg.snSize) ++ sdu

def keepsSdus (cfg : PdcpTxConfig) : Bool := cfg.discardTimer.isSome && cfg.isAm

/-- `sdus` is what the COUNTs below TX_NEXT are used for under the current key. -/
structure Keyed (sdus : Nat → List UInt8) (ent : PdcpEntityTx) : Prop where
  jobs : ∀ info ∈ ent.cryptoJobs, info.count < ent.st.txNext ∧ info.buf = sdus info.count
  kept : keepsSdus ent.cfg = true → ∀ count elem, ent.txWindow.get? count = some elem →
    withHeader ent.cfg count elem.sdu = sdus count
  done : ∀ count buf,
    .protectedSdu count buf ∈ Epochs.current TxNotice.isKeyChange ent.notices →
      count < ent.st.txNext ∧ buf = sdus count

/-- The COUNTs in the window respect the limits. -/
structure Limited (ent : PdcpEntityTx) : Prop where
  next_lt : ent.st.txNext < 2 ^ 32
  window : ∀ count elem, ent.txWindow.get? count = some elem → count ≤ ent.st.txNext ∧
    count < ent.cfg.maxCount.hard ∧ (ent.cfg.maxCount.notify ≤ count → ent.maxCountNotified = true)
  notified : ent.maxCountNotified = true →
    .maxCountReached ∈ Epochs.current TxNotice.isCounterReset ent.notices
  used : CountsUsed ent.cfg ent.notices

structure CountState (ent : PdcpEntityTx) : Prop extends Limited ent where
  keyed : ∃ sdus, Keyed sdus ent

/-- SDUs leave the window, jobs leave the executor, and PDUs of the window are passed on. -/
structure Routine (ent ent' : PdcpEntityTx) : Prop where
  cfg : ent'.cfg = ent.cfg
  txNext : ent'.st.txNext = ent.st.txNext
  maxCountNotified : ent'.maxCountNotified = ent.maxCountNotified
  processed : PdcpTxWindow.Processed ent.txWindow ent'.txWindow
  jobs : ∀ info ∈ ent'.cryptoJobs, info ∈ ent.cryptoJobs
  notices : ∃ rest, ent'.notices = ent.notices ++ rest ∧ ∀ notice ∈ rest,
    notice.isRoutine = true ∨ ∃ count pdu isRetx generated,
      notice = .newPdu count pdu isRetx generated ∧ (ent.txWindow.get? count).isSome = true

theorem Routine.refl (ent : PdcpEntityTx) : Routine ent ent where
  cfg := rfl
  txNext := rfl
  maxCountNotified := rfl
  processed := .refl
  jobs := fun _ hmem => hmem
  notices := ⟨[], (List.append_nil _).symm, by simp⟩

variable {count : Nat}

theorem Routine.isSome (h : Routine ent ent') (hsome : (ent'.txWindow.get? count).isSome = true) :
    (ent.txWindow.get? count).isSome = true := by
  obtain ⟨elem, helem⟩ := Option.isSome_iff_exists.mp hsome
  obtain ⟨old, hold, _⟩ := h.processed.get? helem
  rw [hold]
  rfl

theorem Routine.trans {mid : PdcpEntityTx} (h : Routine ent mid) (h' : Routine mid ent') :
    Routine ent ent' where
  cfg := h'.cfg.trans h.cfg
  txNext := h'.txNext.trans h.txNext
  maxCountNotified := h'.maxCountNotified.trans h.maxCountNotified
  processed := h.processed.trans h'.processed
  jobs := fun info hmem => h.jobs info (h'.jobs info hmem)
  notices := by
    obtain ⟨first, hfirst, hkind⟩ := h.notices
    obtain ⟨rest, hrest, hkind'⟩ := h'.notices
    refine ⟨first ++ rest, by rw [hrest, hfirst, List.append_assoc], ?_⟩
    intro notice hmem
    obtain hmem | hmem := List.mem_append.mp hmem
    · exact hkind notice hmem
    · obtain hroutine | ⟨count, pdu, isRetx, generated, heq, hsome⟩ := hkind' notice hmem
      · exact Or.inl hroutine
      · exact Or.inr ⟨count, pdu, isRetx, generated, heq, h.isSome hsome⟩

/-- Entries of the log that a routine event adds. -/
def AddedBy (ent : PdcpEntityTx) (notice : TxNotice) : Prop :=
  notice.isRoutine = true ∨ ∃ count pdu isRetx generated,
    notice = .newPdu count pdu isRetx generated ∧ (ent.txWindow.get? count).isSome = true

variable {notice : TxNotice}

theorem AddedBy.kind (h : AddedBy ent notice) :
    notice.isKeyChange = false ∧ notice.isCounterReset = false ∧
      ∀ count buf, notice ≠ .protectedSdu count buf := by
  obtain hroutine | ⟨count, pdu, isRetx, generated, heq, _⟩ := h
  · cases notice <;> first | contradiction | exact ⟨rfl, rfl, nofun⟩
  · rw [heq]
    exact ⟨rfl, rfl, nofun⟩

theorem CountState.routine (h : CountState ent) (hr : Routine ent ent') : CountState ent' := by
  obtain ⟨rest, hnotices, hadded⟩ := hr.notices
  have hadded : ∀ notice ∈ rest, AddedBy ent notice := hadded
  obtain ⟨sdus, hkeyed⟩ := h.keyed
  refine ⟨⟨?_, ?_, ?_, ?_, ?_, ?_⟩, sdus, ?_, ?_, ?_⟩
  · rw [hr.txNext]
    exact h.next_lt
  · intro count elem hget
    obtain ⟨old, hold, _⟩ := hr.processed.get? hget
    rw [hr.txNext, hr.cfg, hr.maxCountNotified]
    exact h.window count old hold
  · rw [hr.maxCountNotified, hnotices]
    intro hflag
    exact Epochs.mem_current_append (fun notice hmem => (hadded notice hmem).kind.2.1)
      (h.notified hflag)
  · rw [hnotices, hr.cfg]
    intro count pdu isRetx generated hmem
    obtain hold | hnew := List.mem_append.mp hmem
    · exact h.used.below count pdu isRetx generated hold
    · obtain hroutine | ⟨count, pdu, isRetx, generated, heq, hsome⟩ := hadded _ hnew
      · cases hroutine
      · cases heq
        obtain ⟨elem, hget⟩ := Option.isSome_iff_exists.mp hsome
        exact (h.window _ elem hget).2.1
  · rw [hnotices]
    apply h.used.unique.append (G := TxNotice.Agrees sdus) _ _ TxNotice.sameSdu_of_agrees
    · intro notice hmem count buf heq
      rw [heq] at hmem
      exact (hkeyed.done count buf hmem).2
    · intro notice hmem count buf heq
      exact absurd heq ((hadded notice hmem).kind.2.2 count buf)
  · rw [hnotices, hr.cfg]
    apply h.used.notified.append fun notice hmem => (hadded notice hmem).kind.2.1
    rintro notice hmem ⟨count, pdu, isRetx, generated, heq, hlt⟩
    refine ⟨.maxCountReached, h.notified ?_, rfl⟩
    obtain hroutine | ⟨count', pdu', isRetx', generated', heq', hsome⟩ := hadded notice hmem
    · rw [heq] at hroutine
      cases hroutine
    · rw [heq] at heq'
      cases heq'
      obtain ⟨elem, hget⟩ := Option.isSome_iff_exists.mp hsome
      exact (h.window _ elem hget).2.2 (Nat.le_of_lt hlt)
  · intro info hmem
    rw [hr.txNext]
    exact hkeyed.jobs info (hr.jobs info hmem)
  · rw [hr.cfg]
    intro hkeeps count elem hget
    obtain ⟨old, hold, hsdu⟩ := hr.processed.get? hget
    rw [← hsdu]
    exact hkeyed.kept hkeeps count old hold
  · rw [hnotices, hr.txNext]
    intro count buf hmem
    obtain hold | hnew := Epochs.mem_current_append_cases hmem
    · exact hkeyed.done count buf hold
    · exact absurd rfl ((hadded _ hnew).kind.2.2 count buf)

theorem Trimmed.routine (h : Trimmed ent ent') : Routine ent ent' where
  cfg := h.cfg
  txNext := h.txNext
  maxCountNotified := by
    have hcore := congrArg PdcpEntityTx.maxCountNotified h.core
    exact hcore
  processed := by
    obtain ⟨counts, heq⟩ := h.removed
    rw [heq]
    clear heq
    induction counts using List.reverseRecOn with
    | nil => exact .refl
    | append_singleton counts count ih =>
      rw [List.foldl_append]
      exact .removeSdu _ count ih
  jobs := by
    have hjobs : ent'.cryptoJobs = ent.cryptoJobs := by
      have hcore := congrArg PdcpEntityTx.cryptoJobs h.core
      exact hcore
    rw [hjobs]
    exact fun _ hmem => hmem
  notices := by
    obtain ⟨rest, hnotices, hdiscard⟩ := h.notices
    refine ⟨rest, hnotices, ?_⟩
    intro notice hmem
    have hkind := hdiscard notice hmem
    left
    cases notice <;> first | rfl | cases hkind

theorem routine_of_same (hs : SameWindow ent ent')
    (hflag : ent'.maxCountNotified = ent.maxCountNotified)
    (hjobs : ∀ info ∈ ent'.cryptoJobs, info ∈ ent.cryptoJobs)
    (hnotices : ∃ rest, ent'.notices = ent.notices ++ rest ∧
      ∀ notice ∈ rest, notice.isRoutine = true) : Routine ent ent' where
  cfg := hs.cfg
  txNext := by rw [hs.st]
  maxCountNotified := hflag
  processed := by
    rw [hs.window]
    exact .refl
  jobs := hjobs
  notices := by
    obtain ⟨rest, heq, hroutine⟩ := hnotices
    exact ⟨rest, heq, fun notice hmem => Or.inl (hroutine notice hmem)⟩

theorem notify_routine (h : notice.isRoutine = true) : Routine ent (ent.notify notice) :=
  routine_of_same ⟨rfl, rfl, rfl, rfl, rfl, rfl⟩ rfl (fun _ hmem => hmem)
    ⟨[notice], rfl, fun _ hmem => by rw [List.mem_singleton.mp hmem]; exact h⟩

variable {elem : PdcpTxWindowElement}

theorem setElement_routine {e : PdcpTxWindowElement} (hget : ent.txWindow.get? count = some elem)
    (hsdu : e.sdu = elem.sdu) (hlength : e.sduLength = elem.sduLength) :
    Routine ent { ent with txWindow := ent.txWindow.setElement count e } where
  __ := Routine.refl ent
  processed := .setElement _ count elem e .refl hget hsdu hlength

theorem setTxTransCrypto_routine (count : Nat) : Routine ent (ent.setTxTransCrypto count) where
  __ := Routine.refl ent

theorem writeDataPdu_routine {isRetx : Bool}
    (hget : ent.txWindow.get? ent.st.txTransCrypto = some elem) :
    Routine ent (ent.writeDataPdu elem isRetx) := by
  have hset := setElement_routine (e := { elem with pdu := [] }) hget rfl rfl
  refine ⟨rfl, rfl, rfl, hset.processed, fun _ hmem => hmem, [_], rfl, ?_⟩
  intro notice hmem
  rw [List.mem_singleton.mp hmem]
  refine Or.inr ⟨_, _, _, _, rfl, ?_⟩
  rw [hget]
  rfl

variable {turns : Nat}

theorem releaseLoop_routine {isRetx : Bool} (hok : releaseLoop isRetx turns ent = .ok ent') :
    Routine ent ent' := by
  induction turns generalizing ent with
  | zero =>
    cases hok
    exact Routine.refl _
  | succ turns ih =>
    rw [releaseLoop] at hok
    split at hok
    · obtain ⟨elem, helem, hok⟩ := bind_ok hok
      split at hok
      · cases hok
        exact Routine.refl _
      · obtain ⟨mid, hmid, hok⟩ := bind_ok hok
        have hwritten : Routine ent (ent.writeDataPdu elem isRetx) :=
          writeDataPdu_routine (element_get? helem)
        have hpassed : Routine ent (ent.passOn elem isRetx) :=
          hwritten.trans (setTxTransCrypto_routine _)
        exact (hpassed.trans (notifyInTestMode_trimmed hmid).routine).trans (ih hok)
    · cases hok
      exact Routine.refl _

theorem releaseBelowReord_routine : Routine ent (releaseBelowReord turns ent) := by
  induction turns generalizing ent with
  | zero => exact Routine.refl _
  | succ turns ih =>
    rw [releaseBelowReord]
    refine Routine.trans ?_ ih
    obtain ⟨elem, hget, _, heq⟩ | heq :=
      @writeIfReady_cases ent ((ent.st.txTransCrypto + 1) % 2 ^ 32)
    · rw [heq]
      exact (writeDataPdu_routine hget).trans (setTxTransCrypto_routine _)
    · rw [heq]
      exact setTxTransCrypto_routine _

theorem startCryptoReordering_routine : Routine ent ent.startCryptoReordering where
  __ := Routine.refl ent

theorem stopCryptoReordering_routine : Routine ent ent.stopCryptoReordering where
  __ := Routine.refl ent

theorem updateCryptoReordering_routine : Routine ent ent.updateCryptoReordering := by
  have hstop : ∃ mid : PdcpEntityTx, (if ent.cryptoReorderingTimerRunning ∧
        ent.st.txTransCrypto ≥ ent.st.txReordCrypto then ent.stopCryptoReordering else ent) = mid ∧
      Routine ent mid := by
    refine ⟨_, rfl, ?_⟩
    split
    · exact stopCryptoReordering_routine
    · exact Routine.refl _
  obtain ⟨mid, heq, hmid⟩ := hstop
  rw [updateCryptoReordering, heq]
  split
  · exact hmid.trans startCryptoReordering_routine
  · exact hmid

theorem cryptoReorderingTimeout_routine (hok : ent.cryptoReorderingTimeout = .ok ent') :
    Routine ent ent' := by
  rw [cryptoReorderingTimeout] at hok
  dsimp only at hok
  have hstopped : Routine ent ent.stopCryptoReordering := stopCryptoReordering_routine
  split at hok
  · cases hok
    exact hstopped
  · obtain ⟨mid, hmid, hok⟩ := bind_ok hok
    have hreleased := (hstopped.trans releaseBelowReord_routine).trans (releaseLoop_routine hmid)
    split at hok
    · cases hok
      exact hreleased.trans startCryptoReordering_routine
    · cases hok
      exact hreleased

theorem applyReordering_routine {info : PdcpTxBufferInfo}
    (hok : ent.applyReordering info = .ok ent') : Routine ent ent' := by
  rw [applyReordering] at hok
  split at hok
  · obtain ⟨elem, helem, hok⟩ := bind_ok hok
    obtain ⟨mid, hmid, hok⟩ := bind_ok hok
    cases hok
    have hparked : Routine ent (ent.parkPdu elem info) :=
      setElement_routine (e := { elem with pdu := info.buf, pduIsRetx := info.isRetx })
        (element_get? helem) rfl rfl
    exact (hparked.trans (releaseLoop_routine hmid)).trans updateCryptoReordering_routine
  · cases hok
    exact Routine.refl _

theorem takeResult_routine (idx : Nat) :
    Routine ent { ent with cryptoResults := ent.cryptoResults.eraseIdx idx } :=
  routine_of_same ⟨rfl, rfl, rfl, rfl, rfl, rfl⟩ rfl (fun _ hmem => hmem)
    ⟨[], (List.append_nil _).symm, by simp⟩

theorem runResult_routine {idx : Nat} (hok : ent.runResult idx = .ok ent') : Routine ent ent' := by
  rw [runResult] at hok
  have htaken : Routine ent { ent with cryptoResults := ent.cryptoResults.eraseIdx idx } :=
    takeResult_routine idx
  cases hresult : ent.cryptoResults[idx]? with
  | none =>
    rw [hresult] at hok
    cases hok
    exact Routine.refl _
  | some result =>
    rw [hresult] at hok
    cases result with
    | ok info => exact htaken.trans (applyReordering_routine hok)
    | error err =>
      cases hok
      exact htaken.trans (notify_routine rfl)

theorem rewind_routine : Routine ent ent.rewind where
  __ := Routine.refl ent

theorem stop_routine : Routine ent ent.stop := by
  rw [stop]
  split
  · exact Routine.refl ent
  · exact ⟨rfl, rfl, rfl, .clear _ .refl, fun _ hmem => hmem, [], (List.append_nil _).symm, by simp⟩

/-- A log entry that is neither a PDU, nor protected, nor a marker. -/
theorem CountsUsed.notify {cfg : PdcpTxConfig} {notices : List TxNotice}
    (h : CountsUsed cfg notices) (hpdu : notice.isNewPdu = false)
    (hprotected : ∀ count buf, notice ≠ .protectedSdu count buf) :
    CountsUsed cfg (notices ++ [notice]) where
  below := by
    intro count pdu isRetx generated hmem
    obtain hold | hlast := List.mem_append.mp hmem
    · exact h.below count pdu isRetx generated hold
    · rw [← List.mem_singleton.mp hlast] at hpdu
      cases hpdu
  unique := by
    apply h.unique.concat
    intro first _ count buf buf' _ heq
    exact absurd heq (hprotected count buf')
  notified := by
    apply h.notified.concat
    rintro ⟨count, pdu, isRetx, generated, heq, _⟩
    rw [heq] at hpdu
    cases hpdu

theorem maxCountReached_countState (h : CountState ent) :
    CountState { ent.notify .maxCountReached with maxCountNotified := true } := by
  obtain ⟨sdus, hkeyed⟩ := h.keyed
  refine ⟨⟨h.next_lt, ?_, ?_, h.used.notify rfl nofun⟩, sdus, hkeyed.jobs, hkeyed.kept, ?_⟩
  · intro count elem hget
    obtain ⟨hlt, hhard, _⟩ := h.window count elem hget
    exact ⟨hlt, hhard, fun _ => rfl⟩
  · intro _
    rw [notify, Epochs.current_concat_of_not_marker rfl]
    exact List.mem_append_right _ List.mem_cons_self
  · intro count buf hmem
    have hcurrent : .protectedSdu count buf ∈
        Epochs.current TxNotice.isKeyChange (ent.notices ++ [.maxCountReached]) := hmem
    obtain hold | hlast := Epochs.mem_current_append_cases hcurrent
    · exact hkeyed.done count buf hold
    · cases List.mem_singleton.mp hlast

theorem checkMaxCountNotify_countState (h : CountState ent) : CountState ent.checkMaxCountNotify ∧
    (ent.cfg.maxCount.notify ≤ ent.st.txNext → ent.checkMaxCountNotify.maxCountNotified = true) := by
  rw [checkMaxCountNotify]
  split
  · exact ⟨maxCountReached_countState h, fun _ => rfl⟩
  · rename_i hcond
    refine ⟨h, ?_⟩
    intro hge
    cases hflag : ent.maxCountNotified with
    | true => rfl
    | false => exact absurd ⟨hge, hflag⟩ hcond

variable {buf : List UInt8} {now : Nat}

theorem addToWindow_limited (h : Limited ent) (hhard : ent.st.txNext < ent.cfg.maxCount.hard)
    (hnotify : ent.cfg.maxCount.notify ≤ ent.st.txNext → ent.maxCountNotified = true) :
    Limited (ent.addToWindow buf now) := by
  refine ⟨h.next_lt, ?_, h.notified, h.used⟩
  intro count elem hget
  obtain ⟨rfl, _⟩ | hget := get?_addSdu_cases hget
  · exact ⟨Nat.le_refl _, hhard, hnotify⟩
  · exact h.window count elem hget

/-- The next COUNT is used for the SDU that comes into the window. -/
theorem addToWindow_keyed (h : Keyed sdus ent) :
    Keyed (Function.update sdus ent.st.txNext (withHeader ent.cfg ent.st.txNext buf)) (ent.addToWindow buf now) := by
  have hold : ∀ count < ent.st.txNext,
      Function.update sdus ent.st.txNext (withHeader ent.cfg ent.st.txNext buf) count =
        sdus count := fun count hcount => Function.update_of_ne (Nat.ne_of_lt hcount) _ _
  refine ⟨?_, ?_, ?_⟩
  · intro info hmem
    obtain ⟨hcount, hbuf⟩ := h.jobs info hmem
    exact ⟨hcount, hbuf.trans (hold _ hcount).symm⟩
  · intro hkeeps count elem hget
    rw [addToWindow, PdcpTxWindow.addSdu, PdcpTxWindow.get?, CircularMap.get?_overwrite] at hget
    split at hget
    · rename_i heq
      cases hget
      have heq : count = ent.st.txNext := heq
      rw [heq, Function.update_self]
      exact congrArg (withHeader ent.cfg ent.st.txNext) (if_pos hkeeps)
    · rename_i hne
      have hne : count ≠ ent.st.txNext := hne
      split at hget
      · cases hget
      · rw [Function.update_of_ne hne]
        exact h.kept hkeeps count elem hget
  · intro count buf' hmem
    obtain ⟨hcount, hbuf⟩ := h.done count buf' hmem
    exact ⟨hcount, hbuf.trans (hold _ hcount).symm⟩

theorem assignCount_countState (h : CountState ent) (hlt : ent.st.txNext + 1 < 2 ^ 32)
    (hhard : ent.st.txNext < ent.cfg.maxCount.hard)
    (hnotify : ent.cfg.maxCount.notify ≤ ent.st.txNext → ent.maxCountNotified = true) :
    CountState (ent.assignCount buf now) := by
  obtain ⟨sdus, hkeyed⟩ := h.keyed
  have hlimited := @addToWindow_limited ent buf now h.toLimited hhard hnotify
  have hadded := @addToWindow_keyed ent sdus buf now hkeyed
  rw [assignCount_eq hlt]
  refine ⟨⟨hlt, ?_, h.notified, h.used⟩, _, ?_, hadded.kept, ?_⟩
  · intro count elem hget
    obtain ⟨hnext, hwindow⟩ := hlimited.window count elem hget
    exact ⟨Nat.le_succ_of_le hnext, hwindow⟩
  · intro info hmem
    obtain hmem | hlast := List.mem_append.mp hmem
    · obtain ⟨hcount, hbuf⟩ := hadded.jobs info hmem
      exact ⟨Nat.lt_succ_of_lt hcount, hbuf⟩
    · rw [List.mem_singleton.mp hlast]
      exact ⟨Nat.lt_succ_self _,
        (Function.update_self ent.st.txNext (withHeader ent.cfg ent.st.txNext buf) sdus).symm⟩
  · intro count buf' hmem
    obtain ⟨hcount, hbuf⟩ := hadded.done count buf' hmem
    exact ⟨Nat.lt_succ_of_lt hcount, hbuf⟩

theorem refuseMaxCount_routine : Routine ent ent.refuseMaxCount := by
  rw [refuseMaxCount]
  split
  · exact Routine.refl ent
  · refine routine_of_same ⟨rfl, rfl, rfl, rfl, rfl, rfl⟩ rfl (fun _ hmem => hmem)
      ⟨[.protocolFailure], rfl, ?_⟩
    intro notice hmem
    rw [List.mem_singleton.mp hmem]
    rfl

theorem transmitSduFailing_countState {outcome : SduOutcome} (h : CountState ent)
    (hok : ent.transmitSduFailing outcome buf now = .ok ent') : CountState ent' := by
  rw [transmitSduFailing] at hok
  split at hok
  · cases hok
    exact h.routine refuseMaxCount_routine
  · rename_i hhard
    rw [Nat.not_le] at hhard
    obtain ⟨hchecked, hnotify⟩ := checkMaxCountNotify_countState h
    have hroutine : Routine ent.checkMaxCountNotify ent.checkMaxCountNotify.startDiscardTimer :=
      startDiscardTimer_trimmed.routine
    have hsame := @checkMaxCountNotify_same ent
    have hstarted := hchecked.routine hroutine
    have hnext : ent.checkMaxCountNotify.startDiscardTimer.st.txNext = ent.st.txNext := by
      rw [hroutine.txNext, hsame.st]
    have hcfg : ent.checkMaxCountNotify.startDiscardTimer.cfg = ent.cfg :=
      hroutine.cfg.trans hsame.cfg
    rw [← hroutine.maxCountNotified] at hnotify
    generalize ent.checkMaxCountNotify.startDiscardTimer = mid at hok hstarted hnext hcfg hnotify
    rw [← hnext, ← hcfg] at hhard hnotify
    have hassigned : CountState (mid.assignCount buf now) :=
      assignCount_countState hstarted (Nat.lt_of_le_of_lt hhard mid.cfg.maxCount.hard_lt) hhard hnotify
    dsimp only at hok
    split at hok
    · cases hok
      exact hstarted.routine (notify_routine rfl)
    · split at hok
      · cases hok
      · cases outcome with
        | sent | deepCopyFails =>
          cases hok
          exact hassigned
        | headerPrependFails =>
          cases hok
          obtain ⟨sdus, hkeyed⟩ := hstarted.keyed
          have hadded : CountState (mid.addToWindow buf now) :=
            ⟨addToWindow_limited hstarted.toLimited hhard hnotify, _, addToWindow_keyed hkeyed⟩
          exact hadded.routine (notify_routine rfl)
        | cryptoEnqueueFails =>
          cases hok
          exact hassigned.routine
            { Routine.refl (mid.assignCount buf now) with jobs := fun _ hmem => List.mem_append_left _ hmem }

theorem setBuffer_routine {buffering : Bool} {sduBuffer : List (List UInt8)} :
    Routine ent { ent with buffering, sduBuffer } :=
  routine_of_same ⟨rfl, rfl, rfl, rfl, rfl, rfl⟩ rfl (fun _ hmem => hmem)
    ⟨[], (List.append_nil _).symm, by simp⟩

theorem handleSduFailing_countState {outcome : SduOutcome} (h : CountState ent)
    (hok : ent.handleSduFailing outcome buf now = .ok ent') : CountState ent' := by
  rw [handleSduFailing] at hok
  split at hok
  · cases hok
    exact h
  · split at hok
    · split at hok
      · cases hok
        exact h.routine setBuffer_routine
      · cases hok
        exact h
    · split at hok
      · cases hok
        exact h
      · exact transmitSduFailing_countState h hok

theorem handleSdusFailing_countState {outcomes : List SduOutcome} {sdus : List (List UInt8)} (h : CountState ent)
    (hok : handleSdusFailing now outcomes sdus ent = .ok ent') : CountState ent' := by
  induction sdus generalizing ent outcomes with
  | nil =>
    cases hok
    exact h
  | cons buf rest ih =>
    obtain ⟨mid, hmid, hok⟩ := bind_ok hok
    exact ih (handleSduFailing_countState h hmid) hok

theorem handleSdu_countState (h : CountState ent) (hok : ent.handleSdu buf now = .ok ent') : CountState ent' :=
  handleSduFailing_countState h ((handleSduFailing_sent ..).trans hok)

theorem handleSdus_countState {sdus : List (List UInt8)} (h : CountState ent)
    (hok : sdus.foldlM (fun ent buf => ent.handleSdu buf now) ent = .ok ent') :
    CountState ent' := by
  induction sdus generalizing ent with
  | nil =>
    cases hok
    exact h
  | cons buf rest ih =>
    rw [List.foldlM_cons] at hok
    obtain ⟨mid, hmid, hok⟩ := bind_ok hok
    exact ih (handleSdu_countState h hmid) hok

theorem protectedSdu_countState {info : PdcpTxBufferInfo} (h : CountState ent)
    (hinfo : info ∈ ent.cryptoJobs) : CountState (ent.notify (.protectedSdu info.count info.buf)) := by
  obtain ⟨sdus, hkeyed⟩ := h.keyed
  obtain ⟨hcount, hbuf⟩ := hkeyed.jobs info hinfo
  refine ⟨⟨h.next_lt, h.window, ?_, ⟨?_, ?_, ?_⟩⟩, sdus, hkeyed.jobs, hkeyed.kept, ?_⟩
  · intro hflag
    rw [notify, Epochs.current_concat_of_not_marker rfl]
    exact List.mem_append_left _ (h.notified hflag)
  · intro count pdu isRetx generated hmem
    obtain hold | hlast := List.mem_append.mp hmem
    · exact h.used.below count pdu isRetx generated hold
    · cases List.mem_singleton.mp hlast
  · apply h.used.unique.concat
    intro first hmem count buf buf' heq heq'
    cases heq'
    subst heq
    rw [(hkeyed.done info.count buf hmem).2, hbuf]
  · apply h.used.notified.concat
    rintro ⟨count, pdu, isRetx, generated, heq, _⟩
    cases heq
  · intro count buf hmem
    rw [notify, Epochs.current_concat_of_not_marker rfl] at hmem
    obtain hold | hlast := List.mem_append.mp hmem
    · exact hkeyed.done count buf hold
    · cases List.mem_singleton.mp hlast
      exact ⟨hcount, hbuf⟩

variable {engine : SecurityContext → SecurityEngine}

section
variable (h : CountState ent)
include h

theorem runCryptoJob_countState {idx : Nat}
    (hok : runCryptoJob engine ent idx = .ok ent') : CountState ent' := by
  rw [runCryptoJob] at hok
  cases hjob : ent.cryptoJobs[idx]? with
  | none =>
    rw [hjob] at hok
    cases hok
    exact h
  | some info =>
    rw [hjob] at hok
    obtain ⟨result, _, hok⟩ := bind_ok hok
    cases hok
    have hprotected := protectedSdu_countState h (List.mem_of_getElem? hjob)
    apply hprotected.routine
    exact routine_of_same ⟨rfl, rfl, rfl, rfl, rfl, rfl⟩ rfl
      (fun _ hmem => List.mem_of_mem_eraseIdx hmem) ⟨[], (List.append_nil _).symm, by simp⟩

theorem configureSecurity_countState (secCfg : Sec128AsConfig)
    (integrityEnabled cipheringEnabled : Bool) :
    CountState (ent.configureSecurity secCfg integrityEnabled cipheringEnabled) := by
  rw [configureSecurity]
  split
  · exact h
  · obtain ⟨sdus, hkeyed⟩ := h.keyed
    refine ⟨⟨h.next_lt, h.window, ?_, h.used.notify rfl (by rintro _ _ ⟨⟩)⟩, sdus, hkeyed.jobs, hkeyed.kept, ?_⟩
    · intro hflag
      rw [notify, Epochs.current_concat_of_not_marker rfl]
      exact List.mem_append_left _ (h.notified hflag)
    · intro count buf hmem
      rw [notify, Epochs.current_concat_of_marker rfl] at hmem
      cases hmem

theorem submit_countState (hkeeps : keepsSdus ent.cfg = true) (hlt : count < ent.st.txNext)
    (hget : ent.txWindow.get? count = some elem) : CountState (ent.submit true count elem.sdu) := by
  obtain ⟨sdus, hkeyed⟩ := h.keyed
  refine ⟨⟨h.next_lt, h.window, h.notified, h.used⟩, sdus, ?_, hkeyed.kept, hkeyed.done⟩
  intro info hmem
  obtain hold | hlast := List.mem_append.mp hmem
  · exact hkeyed.jobs info hold
  · rw [List.mem_singleton.mp hlast]
    exact ⟨hlt, hkeyed.kept hkeeps count elem hget⟩

theorem retransmitLoop_countState (hkeeps : keepsSdus ent.cfg = true)
    (hle : turns = 0 ∨ count + turns ≤ ent.st.txNext) : CountState (retransmitLoop turns count ent) := by
  induction turns generalizing ent count with
  | zero => exact h
  | succ turns ih =>
    rw [retransmitLoop]
    split
    · rename_i elem hget
      exact ih (submit_countState h hkeeps (by omega) hget) hkeeps (.inr (by show _ ≤ ent.st.txNext; omega))
    · exact ih h hkeeps (.inr (by omega))

theorem retransmitAllPdus_countState : CountState ent.retransmitAllPdus := by
  rw [retransmitAllPdus]
  split
  · exact h
  · rename_i hcond
    rw [not_or, Bool.not_eq_true, ← Option.not_isSome, Bool.not_eq_false', Bool.not_eq_false] at hcond
    refine retransmitLoop_countState (h.routine rewind_routine) (Bool.and_eq_true_iff.mpr hcond) ?_
    show _ ∨ _ ≤ ent.st.txNext
    omega

end

def acceptsSecurity (integrityEnabled : Bool) (secCfg : Sec128AsConfig) : Bool :=
  !integrityEnabled || (secCfg.k128Int.isSome && secCfg.integAlgo.isSome)

/-- When the counters are reset, the notification of RRC is still to come, no job for an old COUNT is
in the crypto executor, and the new key is accepted. -/
def countersFresh (ent : PdcpEntityTx) : TxEvent → Bool
  | .reestablish secCfg =>
    !(ent.cfg.isSrb || ent.cfg.isUm) ||
      (!ent.maxCountNotified && ent.cryptoJobs.isEmpty &&
        acceptsSecurity ent.integrityEnabled secCfg)
  | _ => true

variable {secCfg : Sec128AsConfig} {integrityEnabled : Bool}

theorem not_missing_of_accepts (h : acceptsSecurity integrityEnabled secCfg = true) :
    ¬(integrityEnabled = true ∧ (secCfg.k128Int.isNone = true ∨ secCfg.integAlgo.isNone = true)) := by
  rintro ⟨hintegrity, hmissing⟩
  rw [acceptsSecurity, hintegrity, Bool.not_true, Bool.false_or, Bool.and_eq_true] at h
  rw [← Option.not_isSome, ← Option.not_isSome, h.1, h.2] at hmissing
  exact hmissing.elim Bool.noConfusion Bool.noConfusion

theorem configureSecurity_of_accepts (h : acceptsSecurity integrityEnabled secCfg = true)
    (cipheringEnabled : Bool) :
    ent.configureSecurity secCfg integrityEnabled cipheringEnabled =
      { ent.notify .securityConfigured with
        integrityEnabled
        cipheringEnabled
        secEngine := some { secCfg, integrityEnabled, cipheringEnabled } } := by
  rw [configureSecurity, if_neg (not_missing_of_accepts h)]

theorem reset_countState {cipheringEnabled : Bool} (h : CountState ent)
    (hflag : ent.maxCountNotified = false) (hjobs : ent.cryptoJobs = [])
    (haccepts : acceptsSecurity ent.integrityEnabled secCfg = true) :
    CountState (ent.reset.configureSecurity secCfg ent.integrityEnabled cipheringEnabled) := by
  rw [configureSecurity_of_accepts haccepts]
  have hreset : CountsUsed ent.cfg (ent.notices ++ [.countersReset]) := h.used.notify rfl nofun
  have hused : CountsUsed ent.cfg (ent.notices ++ [.countersReset] ++ [.securityConfigured]) :=
    hreset.notify rfl nofun
  refine ⟨⟨Nat.two_pow_pos 32, ?_, ?_, hused⟩, fun _ => [], ?_, ?_, ?_⟩
  · intro count elem hget
    cases hget
  · intro hnotified
    have hold : ent.maxCountNotified = true := hnotified
    rw [hflag] at hold
    cases hold
  · intro info hmem
    have hold : info ∈ ent.cryptoJobs := hmem
    rw [hjobs] at hold
    cases hold
  · intro _ count elem hget
    cases hget
  · intro count buf hmem
    have hcurrent : .protectedSdu count buf ∈ Epochs.current TxNotice.isKeyChange
        (ent.notices ++ [.countersReset] ++ [.securityConfigured]) := hmem
    rw [Epochs.current_concat_of_marker rfl] at hcurrent
    cases hcurrent

theorem reestablish_countState (h : CountState ent)
    (hfresh : ent.countersFresh (.reestablish secCfg) = true) :
    CountState (ent.reestablish secCfg) := by
  have hstart : CountState (ent.notify .reestablished) := h.routine (notify_routine rfl)
  have hsecured : ∃ mid : PdcpEntityTx, (if (ent.notify .reestablished).cfg.isSrb ∨
        (ent.notify .reestablished).cfg.isUm then (ent.notify .reestablished).reset
      else ent.notify .reestablished) = mid ∧
      CountState (mid.configureSecurity secCfg mid.integrityEnabled mid.cipheringEnabled) := by
    by_cases hcond : ent.cfg.isSrb = true ∨ ent.cfg.isUm = true
    · rw [countersFresh, Bool.or_eq_true, Bool.not_eq_true', Bool.or_eq_false_iff, Bool.and_eq_true,
        Bool.and_eq_true, Bool.not_eq_true'] at hfresh
      obtain ⟨⟨hflag, hjobs⟩, haccepts⟩ := hfresh.resolve_left (by
        rintro ⟨hsrb, hum⟩
        rw [hsrb, hum] at hcond
        exact hcond.elim nofun nofun)
      refine ⟨_, if_pos hcond, ?_⟩
      exact reset_countState hstart hflag (List.isEmpty_iff.mp hjobs) haccepts
    · exact ⟨_, if_neg hcond, configureSecurity_countState hstart _ _ _⟩
  obtain ⟨mid, heq, hmid⟩ := hsecured
  rw [reestablish, heq]
  split
  · exact retransmitAllPdus_countState hmid
  · exact hmid

theorem step_countState {event : TxEvent} (h : CountState ent)
    (hfresh : ent.countersFresh event = true) (hok : step engine ent event = .ok ent') :
    CountState ent' := by
  cases event with
  | handleSdu buf now => exact handleSdu_countState h hok
  | beginBuffering =>
    cases hok
    exact h.routine setBuffer_routine
  | endBuffering now => exact handleSdus_countState (h.routine setBuffer_routine) hok
  | runCryptoJob idx => exact runCryptoJob_countState h hok
  | loseCryptoJob idx =>
    cases hok
    apply h.routine
    exact routine_of_same ⟨rfl, rfl, rfl, rfl, rfl, rfl⟩ rfl
      (fun _ hmem => List.mem_of_mem_eraseIdx hmem) ⟨[], (List.append_nil _).symm, by simp⟩
  | runResult idx => exact h.routine (runResult_routine hok)
  | loseResult idx =>
    cases hok
    exact h.routine (takeResult_routine idx)
  | cryptoReorderingExpiry => exact h.routine (cryptoReorderingTimeout_routine hok)
  | discardExpiry => exact h.routine (discardCallback_trimmed hok).routine
  | statusReport status =>
    cases hok
    exact h.routine (handleStatusReport_trimmed status).routine
  | transmitNotification notifSn => exact h.routine (handleTransmitNotification_trimmed hok).routine
  | deliveryNotification notifSn => exact h.routine (handleDeliveryNotification_trimmed hok).routine
  | retransmitNotification notifSn =>
    exact h.routine (handleRetransmitNotification_trimmed hok).routine
  | deliveryRetransmittedNotification notifSn =>
    exact h.routine (handleDeliveryRetransmittedNotification_trimmed hok).routine
  | desiredBufferSize desiredBs =>
    cases hok
    rw [handleDesiredBufferSizeNotification]
    split
    · exact h
    · apply h.routine
      exact routine_of_same ⟨rfl, rfl, rfl, rfl, rfl, rfl⟩ rfl (fun _ hmem => hmem)
        ⟨[], (List.append_nil _).symm, by simp⟩
  | configureSecurity secCfg integrityEnabled cipheringEnabled =>
    cases hok
    exact configureSecurity_countState h _ _ _
  | dataRecovery =>
    cases hok
    exact retransmitAllPdus_countState (h.routine (notify_routine rfl))
  | reestablish secCfg =>
    cases hok
    exact reestablish_countState h hfresh
  | stop =>
    cases hok
    exact h.routine stop_routine

theorem macAppendFails_routine (idx : Nat) : Routine ent (ent.macAppendFails idx) := by
  rw [macAppendFails]
  split
  · exact .refl ent
  · exact { Routine.refl ent with jobs := fun _ hmem => List.mem_of_mem_eraseIdx hmem }

def countersFreshFailing (ent : PdcpEntityTx) : FailureEvent → Bool
  | .other event => ent.countersFresh event
  | _ => true

theorem stepFailing_countState {event : FailureEvent} (h : CountState ent)
    (hfresh : ent.countersFreshFailing event = true) (hok : stepFailing engine ent event = .ok ent') :
    CountState ent' := by
  cases event with
  | handleSdu outcome buf now => exact handleSduFailing_countState h hok
  | endBuffering outcomes now => exact handleSdusFailing_countState (h.routine setBuffer_routine) hok
  | macAppendFails idx =>
    cases hok
    exact h.routine (macAppendFails_routine idx)
  | other event => exact step_countState h hfresh hok

theorem setCount_countState (cfg : PdcpTxConfig) (hfn : Nat) {sn : Nat} (hsn : sn < 2 ^ 32) :
    CountState ((create cfg).setCount hfn sn) := by
  have hcount : pdcpComputeCount hfn sn cfg.snSize < 2 ^ 32 :=
    Nat.or_lt_two_pow (Nat.mod_lt _ (Nat.two_pow_pos 32)) hsn
  refine ⟨⟨hcount, ?_, ?_, ⟨?_, Epochs.ordered_nil, Epochs.announced_nil⟩⟩, fun _ => [],
    ?_, ?_, ?_⟩
  · intro count elem hget
    cases hget
  · intro hflag
    cases hflag
  · intro count pdu isRetx generated hmem
    cases hmem
  · intro info hmem
    cases hmem
  · intro _ count elem hget
    cases hget
  · intro count buf hmem
    cases hmem

/-- The COUNTs of every run that resets the counters only for a new key, with the notification still to
come and no job left. -/
theorem reaches_countsUsed {cfg : PdcpTxConfig} {hfn sn : Nat} (hsn : sn < 2 ^ 32)
    (hrun : Runs.Reaches (next engine) (fun ent event => ent.countersFresh event = true)
        ((create cfg).setCount hfn sn) ent ∨
      Runs.Reaches (nextFailing engine) (fun ent event => ent.countersFreshFailing event = true)
        ((create cfg).setCount hfn sn) ent) : CountsUsed ent.cfg ent.notices := by
  have hstart := setCount_countState cfg hfn hsn
  have hstate : CountState ent := by
    rcases hrun with hrun | hrun
    · refine hrun.invariant hstart fun s event s' hs hfresh hnext => ?_
      exact step_countState hs hfresh (toOption_eq_some (Option.ite_none_right_eq_some.mp hnext).2)
    · refine hrun.invariant hstart fun s event s' hs hfresh hnext => ?_
      exact stepFailing_countState hs hfresh (toOption_eq_some (Option.ite_none_right_eq_some.mp hnext).2)
  exact hstate.used

end PdcpEntityTx

end Srsran.Pdcp
