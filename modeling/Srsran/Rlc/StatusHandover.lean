import Srsran.Lib.Runs
import Srsran.Rlc.RxAmEntity

/-! Hand-over of status reports between the threads of the receiver and of the transmitter
(`store_status_report`, `get_status_pdu`, `status_report_required`), in atomic steps. -/
namespace Srsran.Rlc
open Runs

/-- Where the receiver is in `refresh_status_report` and the update of `do_status` behind it. -/
inductive RxThread where
  | idle
  | rebuilt (requested : Bool)
  | exchanged (requested : Bool)
  deriving DecidableEq, Repr

/-- Where the transmitter is in the status part of `pull_pdu`. -/
inductive TxThread where
  | idle
  | doStatusLoaded
  | required
  | cleared
  | prohibitStarted
  | holding
  deriving DecidableEq, Repr

/-- The three buffers, the pointers to them, the shared flags and the two threads. `serial` says
which refresh handed over the content of a buffer, with 0 for none, and `latest` is the report of
the last refresh. -/
structure StatusHandover where
  tStatusProhibit : Nat := 0
  statusBuf : Fin 3 → RlcAmStatusPdu
  statusOwnedByWriter : Fin 3 := 0
  statusForExchange : Fin 3 := 1
  statusOwnedByReader : Fin 3 := 2
  doStatus : Bool := false
  statusProhibitTimerIsRunning : Bool := false
  rx : RxThread := .idle
  tx : TxThread := .idle
  serial : Fin 3 → Nat := fun _ => 0
  nofRefreshed : Nat := 0
  latest : RlcAmStatusPdu

namespace StatusHandover

/-- Atomic steps. The transmitter may give up on a small grant, and it trims the report it holds. -/
inductive Action where
  | rxRebuild (report : RlcAmStatusPdu) (requested : Bool)
  | rxExchange
  | rxSetDoStatus
  | rxStatusProhibitExpired
  | txLoadDoStatus
  | txLoadStatusProhibit
  | txSmallGrant
  | txClearDoStatus
  | txStartStatusProhibit
  | txExchange
  | txTrim (maxPackedSize : Nat)
  | txDone

/-- The entity as constructed; the report for exchange acknowledges nothing. -/
def create (cfg : RlcRxAmConfig) : StatusHandover where
  tStatusProhibit := cfg.tStatusProhibit
  statusBuf := fun i =>
    if i = 1 then { snSize := cfg.snFieldLength, ackSn := 0 } else { snSize := cfg.snFieldLength }
  latest := { snSize := cfg.snFieldLength }

/-- `status_for_exchange.exchange(status_owned_by_writer)`. -/
def exchangeWriter (s : StatusHandover) (requested : Bool) : StatusHandover :=
  { s with
    statusOwnedByWriter := s.statusForExchange
    statusForExchange := s.statusOwnedByWriter
    rx := .exchanged requested
    serial := Function.update s.serial s.statusOwnedByWriter (s.nofRefreshed + 1)
    nofRefreshed := s.nofRefreshed + 1
    latest := s.statusBuf s.statusOwnedByWriter }

/-- `status_for_exchange.exchange(status_owned_by_reader)`. -/
def exchangeReader (s : StatusHandover) : StatusHandover :=
  { s with
    statusOwnedByReader := s.statusForExchange
    statusForExchange := s.statusOwnedByReader
    tx := .holding }

def step (s : StatusHandover) : Action → Option StatusHandover
  | .rxRebuild report requested =>
    if s.rx = .idle then
      some { s with
        statusBuf := Function.update s.statusBuf s.statusOwnedByWriter report
        rx := .rebuilt requested }
    else none
  | .rxExchange =>
    match s.rx with
    | .rebuilt requested => some (s.exchangeWriter requested)
    | _ => none
  | .rxSetDoStatus =>
    match s.rx with
    | .exchanged requested => some { s with doStatus := s.doStatus || requested, rx := .idle }
    | _ => none
  | .rxStatusProhibitExpired =>
    if s.rx = .idle then some { s with statusProhibitTimerIsRunning := false } else none
  | .txLoadDoStatus =>
    if s.tx = .idle then some { s with tx := if s.doStatus then .doStatusLoaded else .idle }
    else none
  | .txLoadStatusProhibit =>
    if s.tx = .doStatusLoaded then
      some { s with tx := if s.statusProhibitTimerIsRunning then .idle else .required }
    else none
  | .txSmallGrant => if s.tx = .required then some { s with tx := .idle } else none
  | .txClearDoStatus =>
    if s.tx = .required then some { s with doStatus := false, tx := .cleared } else none
  | .txStartStatusProhibit =>
    if s.tx = .cleared then
      some { s with
        statusProhibitTimerIsRunning :=
          s.statusProhibitTimerIsRunning || s.tStatusProhibit > 0
        tx := .prohibitStarted }
    else none
  | .txExchange => if s.tx = .prohibitStarted then some s.exchangeReader else none
  | .txTrim maxPackedSize =>
    if s.tx = .holding then
      some { s with
        statusBuf := Function.update s.statusBuf s.statusOwnedByReader
          ((s.statusBuf s.statusOwnedByReader).trim maxPackedSize).2 }
    else none
  | .txDone => if s.tx = .holding then some { s with tx := .idle } else none

/-- The update of `do_status` that belongs to the last exchange of the receiver is still to
come. -/
def flagOutstanding (s : StatusHandover) : Bool := s.rx = .exchanged true

/-- The exchange of the transmitter meets no request that is set or about to be set. -/
def ExchangeUndisturbed (s : StatusHandover) : Action → Prop
  | .txExchange => s.doStatus = false ∧ s.flagOutstanding = false
  | _ => True

/-- An exchange of the transmitter in this state obtains the report of the last refresh. -/
def ObtainsLatest (s : StatusHandover) : Prop :=
  0 < s.nofRefreshed ∧ s.serial s.statusForExchange = s.nofRefreshed ∧
    s.statusBuf s.statusForExchange = s.latest

/-- The transmitter was told that a report is required and has not taken it yet. -/
def reportDue (s : StatusHandover) : Bool :=
  s.tx = .doStatusLoaded || s.tx = .required || s.tx = .cleared || s.tx = .prohibitStarted

/-- The pointers are distinct, and a report that is or will be asked for is the latest one. -/
structure HandoverInv (s : StatusHandover) : Prop where
  writer_ne_exchange : s.statusOwnedByWriter ≠ s.statusForExchange
  writer_ne_reader : s.statusOwnedByWriter ≠ s.statusOwnedByReader
  exchange_ne_reader : s.statusForExchange ≠ s.statusOwnedByReader
  due : s.doStatus = true ∨ s.flagOutstanding = true ∨ s.reportDue = true → s.ObtainsLatest

theorem HandoverInv.create (cfg : RlcRxAmConfig) : HandoverInv (create cfg) := by
  refine ⟨Fin.zero_ne_one, ?_, ?_, ?_⟩
  · show (0 : Fin 3) ≠ 2
    decide
  · show (1 : Fin 3) ≠ 2
    decide
  · rintro (h | h | h) <;> cases h

section Steps
variable {s s' : StatusHandover}

variable (h : HandoverInv s)
include h

/-- Steps that touch neither the pointers nor the report for exchange, and ask for no more. -/
theorem HandoverInv.keep (hptrs : s'.statusOwnedByWriter = s.statusOwnedByWriter ∧
      s'.statusForExchange = s.statusForExchange ∧ s'.statusOwnedByReader = s.statusOwnedByReader)
    (hbuf : s'.statusBuf s.statusForExchange = s.statusBuf s.statusForExchange)
    (hghost : s'.serial = s.serial ∧ s'.nofRefreshed = s.nofRefreshed ∧ s'.latest = s.latest)
    (hdue : s'.doStatus = true ∨ s'.flagOutstanding = true ∨ s'.reportDue = true →
      s.doStatus = true ∨ s.flagOutstanding = true ∨ s.reportDue = true) : HandoverInv s' := by
  obtain ⟨hw, he, hr⟩ := hptrs
  obtain ⟨hserial, hnof, hlatest⟩ := hghost
  refine ⟨by rw [hw, he]; exact h.writer_ne_exchange, by rw [hw, hr]; exact h.writer_ne_reader,
    by rw [he, hr]; exact h.exchange_ne_reader, fun hask => ?_⟩
  obtain ⟨h1, h2, h3⟩ := h.due (hdue hask)
  refine ⟨by rw [hnof]; exact h1, ?_, ?_⟩
  · rw [hserial, he, hnof]
    exact h2
  · rw [he, hbuf, hlatest]
    exact h3

theorem HandoverInv.exchangeWriter (requested : Bool) : HandoverInv (s.exchangeWriter requested) := by
  refine ⟨h.writer_ne_exchange.symm, h.exchange_ne_reader, h.writer_ne_reader, fun _ => ?_⟩
  refine ⟨Nat.succ_pos _, ?_, rfl⟩
  exact Function.update_self _ _ _

theorem HandoverInv.exchangeReader (hquiet : s.doStatus = false)
    (hout : s.flagOutstanding = false) : HandoverInv s.exchangeReader := by
  refine ⟨h.writer_ne_reader, h.writer_ne_exchange, h.exchange_ne_reader.symm, ?_⟩
  rintro (hask | hask | hask)
  · exact absurd (hquiet.symm.trans hask) (by decide)
  · exact absurd (hout.symm.trans hask) (by decide)
  · cases hask

theorem HandoverInv.rebuild (report : RlcAmStatusPdu) (requested : Bool) : HandoverInv { s with
      statusBuf := Function.update s.statusBuf s.statusOwnedByWriter report
      rx := .rebuilt requested } := by
  refine h.keep ⟨rfl, rfl, rfl⟩ ?_ ⟨rfl, rfl, rfl⟩ ?_
  · exact Function.update_of_ne h.writer_ne_exchange.symm _ _
  · rintro (hask | hask | hask)
    · exact .inl hask
    · cases hask
    · exact .inr (.inr hask)

theorem HandoverInv.trim (report : RlcAmStatusPdu) :
    HandoverInv { s with statusBuf := Function.update s.statusBuf s.statusOwnedByReader report } := by
  refine h.keep ⟨rfl, rfl, rfl⟩ ?_ ⟨rfl, rfl, rfl⟩ id
  exact Function.update_of_ne h.exchange_ne_reader _ _

/-- `do_status` is set for an exchange that was made with a request. -/
theorem HandoverInv.setDoStatus {requested : Bool} (hrx : s.rx = .exchanged requested) :
    HandoverInv { s with doStatus := s.doStatus || requested, rx := .idle } := by
  refine h.keep ⟨rfl, rfl, rfl⟩ rfl ⟨rfl, rfl, rfl⟩ ?_
  rintro (hask | hask | hask)
  · rcases Bool.or_eq_true _ _ |>.mp hask with hset | rfl
    · exact .inl hset
    · exact .inr (.inl (decide_eq_true hrx))
  · cases hask
  · exact .inr (.inr hask)

/-- The transmitter moves on; it can be due a report only where it was or where `do_status` is
set. -/
theorem HandoverInv.txMove {tx : TxThread} {doStatus prohibit : Bool}
    (hset : doStatus = true → s.doStatus = true)
    (htx : reportDue { s with tx } = true → s.doStatus = true ∨ s.reportDue = true) :
    HandoverInv { s with doStatus, statusProhibitTimerIsRunning := prohibit, tx } := by
  refine h.keep ⟨rfl, rfl, rfl⟩ rfl ⟨rfl, rfl, rfl⟩ ?_
  rintro (hask | hask | hask)
  · exact .inl (hset hask)
  · exact .inr (.inl hask)
  · rcases htx hask with hdo | hdue
    · exact .inl hdo
    · exact .inr (.inr hdue)

theorem HandoverInv.step {a : Action} (hguard : s.ExchangeUndisturbed a)
    (hstep : s.step a = some s') : HandoverInv s' := by
  cases a <;> simp only [StatusHandover.step] at hstep <;> split at hstep <;> cases hstep
  case rxRebuild report requested _ => exact h.rebuild report requested
  -- `rxExchange` and `rxSetDoStatus`
  · exact h.exchangeWriter _
  · rename_i hrx
    exact h.setDoStatus hrx
  case rxStatusProhibitExpired => exact h.txMove id .inr
  case txLoadDoStatus =>
    refine h.txMove id fun hdue => .inl ?_
    by_contra hdo
    rw [Bool.not_eq_true] at hdo
    simp [reportDue, hdo] at hdue
  case txLoadStatusProhibit htx => exact h.txMove id fun _ => .inr (by simp [reportDue, htx])
  case txSmallGrant => exact h.txMove id fun hdue => by cases hdue
  case txClearDoStatus htx =>
    refine h.txMove (fun hfalse => by cases hfalse) fun _ => .inr ?_
    simp [reportDue, htx]
  case txStartStatusProhibit htx => exact h.txMove id fun _ => .inr (by simp [reportDue, htx])
  case txExchange => exact h.exchangeReader hguard.1 hguard.2
  case txTrim => exact h.trim _
  case txDone => exact h.txMove id fun hdue => by cases hdue

end Steps

/-- The report in the hands of the transmitter is the one of the last refresh. -/
def HoldsLatest (s : StatusHandover) : Prop :=
  0 < s.nofRefreshed ∧ s.serial s.statusOwnedByReader = s.nofRefreshed ∧
    s.statusBuf s.statusOwnedByReader = s.latest

/-- In runs in which no exchange of the transmitter meets a request that is set or about to be
set, every exchange obtains the report of the last refresh. -/
theorem statusHandover_obtainsLatest (cfg : RlcRxAmConfig) (s s' : StatusHandover)
    (h : Reaches step ExchangeUndisturbed (create cfg) s) (hstep : s.step .txExchange = some s') :
    s'.HoldsLatest := by
  have hinv : HandoverInv s :=
    h.invariant (HandoverInv.create cfg) fun _ _ _ hs hguard hnext => hs.step hguard hnext
  simp only [step] at hstep
  split at hstep
  · rename_i htx
    cases hstep
    exact hinv.due (.inr (.inr (by simp [reportDue, htx])))
  · cases hstep

/-- A report is refreshed, requested and fetched without interference. -/
theorem statusHandover_obtainsLatest_once :
    ∃ s s', Reaches step ExchangeUndisturbed
        (create { snFieldLength := .size12bits, tReassembly := 35 }) s ∧
      s.step .txExchange = some s' ∧ s'.HoldsLatest := by
  have hrun : ((runAll step (create { snFieldLength := .size12bits, tReassembly := 35 })
      [.rxRebuild { snSize := .size12bits, ackSn := 1 } true, .rxExchange, .rxSetDoStatus,
        .txLoadDoStatus, .txLoadStatusProhibit, .txClearDoStatus, .txStartStatusProhibit]).bind
        fun s => (s.step .txExchange).map fun s' => s'.nofRefreshed) = some 1 := by
    decide
  obtain ⟨s, hs, hlast⟩ := Option.bind_eq_some_iff.mp hrun
  obtain ⟨s', hstep, -⟩ := Option.map_eq_some_iff.mp hlast
  have hreach := reaches_of_runAll (.start : Reaches step ExchangeUndisturbed _ _)
    (by simp [ExchangeUndisturbed]) hs
  exact ⟨s, s', hreach, hstep, statusHandover_obtainsLatest _ s s' hreach hstep⟩

/-- The receiver refreshes its report again and sets `do_status` between the clearing and the
exchange of the transmitter: the next report that is fetched on that request was never written. -/
theorem statusHandover_lateRequest_not_latest :
    ∃ s s', Reaches step (fun _ _ => True)
        (create { snFieldLength := .size12bits, tReassembly := 35 }) s ∧
      s.step .txExchange = some s' ∧ s'.serial s'.statusOwnedByReader = 0 ∧ ¬ s'.HoldsLatest := by
  have hrun : ((runAll step (create { snFieldLength := .size12bits, tReassembly := 35 })
      [.rxRebuild { snSize := .size12bits, ackSn := 1 } true, .rxExchange, .rxSetDoStatus,
        .txLoadDoStatus, .txLoadStatusProhibit, .txClearDoStatus, .txStartStatusProhibit,
        .rxRebuild { snSize := .size12bits, ackSn := 2 } true, .rxExchange, .rxSetDoStatus,
        .txExchange, .txDone,
        .txLoadDoStatus, .txLoadStatusProhibit, .txClearDoStatus, .txStartStatusProhibit]).bind
        fun s => (s.step .txExchange).map fun s' =>
          (s'.serial s'.statusOwnedByReader, s'.nofRefreshed)) = some (0, 2) := by
    decide
  obtain ⟨s, hs, hlast⟩ := Option.bind_eq_some_iff.mp hrun
  obtain ⟨s', hstep, hobs⟩ := Option.map_eq_some_iff.mp hlast
  obtain ⟨hserial, hnof⟩ := Prod.mk.inj hobs
  refine ⟨s, s', reaches_of_runAll .start (fun _ _ _ => trivial) hs, hstep, hserial, ?_⟩
  rintro ⟨-, hlatest, -⟩
  rw [hserial, hnof] at hlatest
  cases hlatest

end StatusHandover
end Srsran.Rlc
