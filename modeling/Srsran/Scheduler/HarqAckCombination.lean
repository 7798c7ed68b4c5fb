import Mathlib.Data.Multiset.Filter
import Srsran.Scheduler.HarqPartition

/-! The HARQ-ACKs of several PUCCHs for one DL process, in any order. -/
namespace Srsran.Scheduler
open HarqManager

/-- Arguments of `dl_ack_info`. -/
structure HarqAckReport where
  ackStatus : HarqAckReportStatus
  pucchSnr : Option Int
  deriving DecidableEq

def snrLe : Option Int → Option Int → Prop
  | none, _ => True
  | some _, none => False
  | some snr, some snr' => snr ≤ snr'

instance : (snr snr' : Option Int) → Decidable (snrLe snr snr')
  | none, _ => isTrue trivial
  | some _, none => isFalse id
  | some snr, some snr' => inferInstanceAs (Decidable (snr ≤ snr'))

theorem snrLe_refl (snr : Option Int) : snrLe snr snr := by
  cases snr with
  | none => trivial
  | some snr => exact Int.le_refl snr

theorem snrLe_trans {snr snr' snr'' : Option Int} (h : snrLe snr snr') (h' : snrLe snr' snr'') :
    snrLe snr snr'' := by
  cases snr <;> cases snr' <;> cases snr'' <;> simp only [snrLe] at h h' ⊢
  omega

theorem snrLe_antisymm {snr snr' : Option Int} (h : snrLe snr snr') (h' : snrLe snr' snr) : snr = snr' := by
  cases snr <;> cases snr' <;> simp only [snrLe, Option.some.injEq] at h h' ⊢
  omega

variable {pucchSnr : Option Int}

theorem snrLe_of_isBetterSnr {last : Option Int} (h : isBetterSnr last pucchSnr = true) :
    snrLe last pucchSnr := by
  cases last <;> cases pucchSnr <;> simp only [isBetterSnr, snrLe, decide_eq_true_eq] at h ⊢
  · cases h
  · omega

theorem snrLe_of_not_isBetterSnr {last : Option Int} (h : ¬ isBetterSnr last pucchSnr = true) :
    snrLe pucchSnr last := by
  cases last <;> cases pucchSnr <;> simp only [isBetterSnr, snrLe, decide_eq_true_eq] at h ⊢
  · exact h trivial
  · omega

/-- All decoded HARQ-ACKs among the reports have at most this SNR. -/
def HasHighestSnr (reports : Multiset HarqAckReport) (pucchSnr : Option Int) : Prop :=
  ∀ other ∈ reports, other.ackStatus ≠ .dtx → snrLe other.pucchSnr pucchSnr

/-- The decoded HARQ-ACK with the highest SNR is an ACK. -/
def BestIsAck (reports : Multiset HarqAckReport) : Prop :=
  ∃ best ∈ reports, best.ackStatus = .ack ∧ HasHighestSnr reports best.pucchSnr

instance (reports : Multiset HarqAckReport) (pucchSnr : Option Int) : Decidable (HasHighestSnr reports pucchSnr) :=
  Multiset.decidableForallMultiset

instance (reports : Multiset HarqAckReport) : Decidable (BestIsAck reports) :=
  Multiset.decidableExistsMultiset

/-- Decoded HARQ-ACKs with pairwise distinct SNRs. -/
def DistinctSnrs (reports : Multiset HarqAckReport) : Prop :=
  ((reports.filter fun report => report.ackStatus ≠ .dtx).map (·.pucchSnr)).Nodup

instance (reports : Multiset HarqAckReport) : Decidable (DistinctSnrs reports) :=
  inferInstanceAs (Decidable (Multiset.Nodup _))

/-- What the fields of a process say about the reports so far. -/
structure Chosen (reports : Multiset HarqAckReport) (params : DlHarqParams) : Prop where
  highest : HasHighestSnr reports params.lastPucchSnr
  chosen : (∀ report ∈ reports, report.ackStatus = .dtx) ∧ params.chosenAck = .dtx ∧ params.lastPucchSnr = none ∨
    ⟨params.chosenAck, params.lastPucchSnr⟩ ∈ reports ∧ params.chosenAck ≠ .dtx

theorem HasHighestSnr.mono {reports : Multiset HarqAckReport} {pucchSnr' : Option Int}
    (h : HasHighestSnr reports pucchSnr) (hle : snrLe pucchSnr pucchSnr') :
    HasHighestSnr reports pucchSnr' :=
  fun other hother hdecoded => snrLe_trans (h other hother hdecoded) hle

theorem HasHighestSnr.cons {reports : Multiset HarqAckReport} {report : HarqAckReport} {pucchSnr : Option Int}
    (h : HasHighestSnr reports pucchSnr) (hreport : report.ackStatus ≠ .dtx → snrLe report.pucchSnr pucchSnr) :
    HasHighestSnr (report ::ₘ reports) pucchSnr := by
  intro other hother hdecoded
  rcases Multiset.mem_cons.mp hother with rfl | hother
  · exact hreport hdecoded
  · exact h other hother hdecoded

namespace Chosen
variable {reports : Multiset HarqAckReport} {params : DlHarqParams}

theorem start (hchosen : params.chosenAck = .dtx) (hlast : params.lastPucchSnr = none) : Chosen 0 params where
  highest := nofun
  chosen := .inl ⟨nofun, hchosen, hlast⟩

theorem cons (h : Chosen reports params) (report : HarqAckReport) :
    Chosen (report ::ₘ reports) (params.chooseAck report.ackStatus report.pucchSnr) := by
  rw [DlHarqParams.chooseAck]
  split
  · rename_i hbetter
    obtain ⟨hdecoded, hbetter⟩ := hbetter
    refine ⟨?_, .inr ⟨Multiset.mem_cons_self .., hdecoded⟩⟩
    exact (h.highest.mono (snrLe_of_isBetterSnr hbetter)).cons fun _ => snrLe_refl _
  · rename_i hkeep
    have hworse : report.ackStatus ≠ .dtx → ¬ isBetterSnr params.lastPucchSnr report.pucchSnr = true :=
      fun hdecoded hbetter => hkeep ⟨hdecoded, hbetter⟩
    refine ⟨h.highest.cons fun hdecoded => snrLe_of_not_isBetterSnr (hworse hdecoded), ?_⟩
    rcases h.chosen with ⟨hdtx, hchosen, hlast⟩ | ⟨hmem, hchosen⟩
    · refine .inl ⟨?_, hchosen, hlast⟩
      intro other hother
      rcases Multiset.mem_cons.mp hother with rfl | hother
      · by_contra hdecoded
        exact hworse hdecoded (by rw [hlast, isBetterSnr])
      · exact hdtx other hother
    · exact .inr ⟨Multiset.mem_cons_of_mem hmem, hchosen⟩

theorem eq_of_distinctSnrs (hdistinct : DistinctSnrs reports) {report report' : HarqAckReport}
    (hmem : report ∈ reports) (hmem' : report' ∈ reports) (hdecoded : report.ackStatus ≠ .dtx)
    (hdecoded' : report'.ackStatus ≠ .dtx) (hsnr : report.pucchSnr = report'.pucchSnr) : report = report' :=
  Multiset.inj_on_of_nodup_map hdistinct _ (Multiset.mem_filter.mpr ⟨hmem, hdecoded⟩) _
    (Multiset.mem_filter.mpr ⟨hmem', hdecoded'⟩) hsnr

theorem chosenAck_eq_ack_iff (h : Chosen reports params) (hdistinct : DistinctSnrs reports) :
    params.chosenAck = .ack ↔ BestIsAck reports := by
  constructor
  · intro hack
    rcases h.chosen with ⟨-, hdtx, -⟩ | ⟨hmem, -⟩
    · rw [hdtx] at hack
      cases hack
    · exact ⟨_, hmem, hack, h.highest⟩
  · rintro ⟨best, hmem, hack, hhighest⟩
    have hdecoded : best.ackStatus ≠ .dtx := by simp [hack]
    rcases h.chosen with ⟨hdtx, -, -⟩ | ⟨hmem', hdecoded'⟩
    · exact absurd (hdtx best hmem) hdecoded
    · have hsnr := snrLe_antisymm (h.highest best hmem hdecoded) (hhighest _ hmem' hdecoded')
      have hsame := eq_of_distinctSnrs hdistinct hmem' hmem hdecoded' hdecoded hsnr.symm
      rw [← hack, ← hsame]

end Chosen

/-! Reports to one process among other calls. -/

def Untouched (ref : HarqRef) (m m' : HarqManager) : Prop :=
  ∀ h, m.dl.harq? ref = some h → ∃ h', m'.dl.harq? ref = some h' ∧ h'.status = h.status ∧ h'.params = h.params

section
variable (cfg : HarqManagerConfig) (ref : HarqRef)

/-- The reports to a process with what they return, among other calls that leave it as it is. -/
inductive AckRun : HarqManager → List HarqAckReport → List StatusUpdate → HarqManager → Prop where
  | done (m : HarqManager) : AckRun m [] [] m
  | other {m mid m' : HarqManager} {event : HarqEvent} {reports : List HarqAckReport}
      {updates : List StatusUpdate} (hsafe : m.safeCall cfg event = true) (hstep : m.step cfg event = .ok mid)
      (huntouched : Untouched ref m mid) (hrest : AckRun mid reports updates m') : AckRun m reports updates m'
  | report {m m' : HarqManager} {report : HarqAckReport} {reports : List HarqAckReport} {dl : DlHarqRepository}
      {update : StatusUpdate} {updates : List StatusUpdate}
      (hreport : dlAckInfo cfg.dl m.dl ref report.ackStatus report.pucchSnr = .ok (dl, update))
      (hrest : AckRun { m with dl } reports updates m') : AckRun m (report :: reports) (update :: updates) m'

end

variable {cfg : HarqManagerConfig} {ref : HarqRef} {m m' : HarqManager} {h : DlHarqProcess}

/-- In NTN mode B the HARQ-ACKs are for processes of the history. -/
def CanReport (cfg : HarqManagerConfig) (ref : HarqRef) : Prop :=
  ref.isProcess = true → cfg.dl.isNtnHarqModeBEnabled = false

theorem report_step (hinv : m.Inv cfg) (hmode : CanReport cfg ref) (hh : m.dl.harq? ref = some h)
    (report : HarqAckReport) :
    ∃ dl update h', dlAckInfo cfg.dl m.dl ref report.ackStatus report.pucchSnr = .ok (dl, update) ∧
      Inv cfg { m with dl } ∧ dl.harq? ref = some h' ∧
      (h.status = .waitingAck → Reported h report.ackStatus report.pucchSnr update h') := by
  obtain ⟨dl, update, h', hok, -, hh', hreported⟩ :=
    @dlAckInfo_reported cfg.dl m.dl ref h True hinv.dl hh report.ackStatus report.pucchSnr
    (fun hon hprocess _ => absurd (hmode (isProcess_of_process hprocess)) (by simp [hon])) fun _ => trivial
  have hsafe : m.safeCall cfg (.dlAckInfo ref report.ackStatus report.pucchSnr) = true := by
    cases hprocess : ref.isProcess with
    | true => simp [safeCall, hh, hmode hprocess]
    | false => simp [safeCall, hh, hprocess]
  obtain ⟨m', hstep, hinv', -⟩ := hinv.step hsafe
  rw [step, hok, Checked.ok_bind] at hstep
  cases hstep
  exact ⟨dl, update, h', hok, hinv', hh', hreported⟩

/-- The process waits for more reports. -/
def Waits (ref : HarqRef) (m : HarqManager) (seen : Multiset HarqAckReport) (expected : Nat) : Prop :=
  ∃ h, m.dl.harq? ref = some h ∧ h.status = .waitingAck ∧ Chosen seen h.params ∧
    max h.params.pucchAckToReceive 1 = expected

/-- The process waits for no report. -/
def Settled (ref : HarqRef) (m : HarqManager) (acked : Prop) : Prop :=
  ∃ h, m.dl.harq? ref = some h ∧ h.status ≠ .waitingAck ∧ (acked → h.status = .empty)

variable {seen : Multiset HarqAckReport}

theorem Waits.untouched {expected : Nat} (h : Waits ref m seen expected)
    (huntouched : Untouched ref m m') : Waits ref m' seen expected := by
  obtain ⟨p, hp, hstatus, hchosen, hexpected⟩ := h
  obtain ⟨p', hp', hstatus', hparams⟩ := huntouched p hp
  exact ⟨p', hp', hstatus'.trans hstatus, hparams ▸ hchosen, hparams ▸ hexpected⟩

theorem Settled.untouched {acked : Prop} (h : Settled ref m acked) (huntouched : Untouched ref m m') :
    Settled ref m' acked := by
  obtain ⟨p, hp, hstatus, hempty⟩ := h
  obtain ⟨p', hp', hstatus', -⟩ := huntouched p hp
  exact ⟨p', hp', hstatus' ▸ hstatus, hstatus' ▸ hempty⟩

theorem Settled.report {acked : Prop} (h : Settled ref m acked) (ackStatus : HarqAckReportStatus)
    (pucchSnr : Option Int) : dlAckInfo cfg.dl m.dl ref ackStatus pucchSnr = .ok (m.dl, .error) := by
  obtain ⟨p, hp, hstatus, -⟩ := h
  rw [dlAckInfo, HarqRepository.access_of_harq hp, Checked.ok_bind, if_pos hstatus]

theorem Waits.more {expected : Nat} (hwaits : Waits ref m seen (expected + 2)) (hinv : m.Inv cfg)
    (hmode : CanReport cfg ref) (report : HarqAckReport) :
    ∃ dl, dlAckInfo cfg.dl m.dl ref report.ackStatus report.pucchSnr = .ok (dl, .noUpdate) ∧
      Inv cfg { m with dl } ∧ Waits ref { m with dl } (report ::ₘ seen) (expected + 1) := by
  obtain ⟨h, hh, hstatus, hchosen, hexpected⟩ := hwaits
  obtain ⟨dl, update, h', hok, hinv', hh', hreported⟩ := report_step hinv hmode hh report
  have hcount : h.params.pucchAckToReceive = expected + 2 := by omega
  obtain ⟨rfl, hstatus', hparams⟩ := (hreported hstatus).more (by omega)
  refine ⟨dl, hok, hinv', h', hh', hstatus', ?_, ?_⟩
  · have hcons := hchosen.cons report
    rw [hparams]
    exact ⟨hcons.highest, hcons.chosen⟩
  · rw [hparams]
    dsimp only
    omega

theorem Waits.last (hwaits : Waits ref m seen 1) (hinv : m.Inv cfg) (hmode : CanReport cfg ref)
    {report : HarqAckReport} (hdistinct : DistinctSnrs (report ::ₘ seen)) :
    ∃ dl, dlAckInfo cfg.dl m.dl ref report.ackStatus report.pucchSnr =
        .ok (dl, if BestIsAck (report ::ₘ seen) then .acked else .nacked) ∧
      Inv cfg { m with dl } ∧ Settled ref { m with dl } (BestIsAck (report ::ₘ seen)) := by
  obtain ⟨h, hh, hstatus, hchosen, hexpected⟩ := hwaits
  obtain ⟨dl, update, h', hok, hinv', hh', hreported⟩ := report_step hinv hmode hh report
  have hack := (hchosen.cons report).chosenAck_eq_ack_iff hdistinct
  obtain ⟨rfl, hstatus', hempty⟩ := (hreported hstatus).last (by omega)
  refine ⟨dl, ?_, hinv', h', hh', hstatus', fun hbest => hempty (hack.mpr hbest)⟩
  rw [hok]
  simp only [hack, decide_eq_true_eq]

theorem AckRun.settled {updates : List StatusUpdate} {acked : Prop} (hrun : AckRun cfg ref m [] updates m')
    (hsettled : Settled ref m acked) : updates = [] ∧ Settled ref m' acked := by
  generalize hnone : ([] : List HarqAckReport) = reports at hrun
  induction hrun with
  | done m => exact ⟨rfl, hsettled⟩
  | other _ _ huntouched _ ih => exact ih (hsettled.untouched huntouched) hnone
  | report _ _ _ => cases hnone

/-- The last of the expected reports settles the process, and the ones before do not. -/
theorem AckRun.waits {order : List HarqAckReport} {updates : List StatusUpdate}
    (hrun : AckRun cfg ref m order updates m') (hinv : m.Inv cfg) (hmode : CanReport cfg ref)
    (hwaits : Waits ref m seen order.length) (hdistinct : DistinctSnrs (seen + order)) :
    updates = List.replicate (order.length - 1) .noUpdate ++
        [if BestIsAck (seen + order) then .acked else .nacked] ∧
      Settled ref m' (BestIsAck (seen + order)) := by
  induction hrun generalizing seen with
  | done m =>
    obtain ⟨h, -, -, -, hexpected⟩ := hwaits
    exact absurd hexpected (by simp)
  | other hsafe hstep huntouched _ ih =>
    obtain ⟨mid', hstep', hinv', -⟩ := hinv.step hsafe
    rw [hstep] at hstep'
    cases hstep'
    exact ih hinv' (hwaits.untouched huntouched) hdistinct
  | @report m m' report rest dl update updates hreport hrest ih =>
    have hsum : seen + ↑(report :: rest) = (report ::ₘ seen) + ↑rest := by
      rw [← Multiset.cons_coe, Multiset.add_cons, Multiset.cons_add]
    rw [hsum] at hdistinct ⊢
    cases rest with
    | nil =>
      rw [Multiset.coe_nil, Multiset.add_zero] at hdistinct ⊢
      obtain ⟨dl', hok, -, hsettled⟩ := hwaits.last hinv hmode hdistinct
      rw [hreport] at hok
      cases hok
      obtain ⟨rfl, hsettled'⟩ := hrest.settled hsettled
      exact ⟨rfl, hsettled'⟩
    | cons next rest =>
      obtain ⟨dl', hok, hinv', hwaits'⟩ := hwaits.more hinv hmode report
      rw [hreport] at hok
      cases hok
      obtain ⟨rfl, hsettled⟩ := ih hinv' hwaits' hdistinct
      exact ⟨rfl, hsettled⟩

theorem AckRun.exists_of_inv (hinv : m.Inv cfg) (hmode : CanReport cfg ref) (hh : m.dl.harq? ref = some h)
    (order : List HarqAckReport) : ∃ updates m', AckRun cfg ref m order updates m' := by
  induction order generalizing m h with
  | nil => exact ⟨[], m, .done m⟩
  | cons report rest ih =>
    obtain ⟨dl, update, h', hok, hinv', hh', -⟩ := report_step hinv hmode hh report
    obtain ⟨updates, m', hrun⟩ := ih hinv' hh'
    exact ⟨update :: updates, m', .report hok hrun⟩

/-- The HARQ-ACKs of all expected PUCCHs settle a process by the decoded one with the highest SNR, in whatever
order and among whatever other calls they come. -/
theorem harqAcks_combined (hm : Runs.Reaches (next cfg) (fun m event => m.safeCall cfg event = true) {} m)
    (hmode : CanReport cfg ref) (hh : m.dl.harq? ref = some h) (hstatus : h.status = .waitingAck)
    (hchosen : h.params.chosenAck = .dtx) (hlast : h.params.lastPucchSnr = none)
    {reports : Multiset HarqAckReport} (hcard : reports.card = max h.params.pucchAckToReceive 1)
    (hdistinct : DistinctSnrs reports) :
    ∀ order : List HarqAckReport, ↑order = reports →
      (∃ updates m', AckRun cfg ref m order updates m') ∧
      ∀ updates m', AckRun cfg ref m order updates m' →
        updates = List.replicate (reports.card - 1) .noUpdate ++ [if BestIsAck reports then .acked else .nacked] ∧
        Settled ref m' (BestIsAck reports) ∧
        ∀ ackStatus pucchSnr, dlAckInfo cfg.dl m'.dl ref ackStatus pucchSnr = .ok (m'.dl, .error) := by
  have hinv : m.Inv cfg := hm.invariant inv_init fun _ _ _ hinv hsafe hnext => by
    obtain ⟨m', hstep, hinv', -⟩ := hinv.step hsafe
    rw [next, hstep] at hnext
    cases hnext
    exact hinv'
  rintro order rfl
  refine ⟨AckRun.exists_of_inv hinv hmode hh order, fun updates m' hrun => ?_⟩
  have hwaits : Waits ref m 0 order.length := ⟨h, hh, hstatus, .start hchosen hlast, hcard.symm⟩
  have hseen : DistinctSnrs (0 + ↑order) := by rwa [Multiset.zero_add]
  obtain ⟨hupdates, hsettled⟩ := hrun.waits hinv hmode hwaits hseen
  rw [Multiset.zero_add] at hupdates hsettled
  exact ⟨hupdates, hsettled, hsettled.report⟩

/-- Two PUCCHs, of which the one with the lower SNR is decoded as a NACK. -/
theorem harqAcks_combined_twoPucchs :
    ∃ m : HarqManager, ∃ updates m',
      AckRun terrestrialHarqs (.process 0 0) m [⟨.ack, some 3⟩, ⟨.nack, some 1⟩] updates m' ∧
        updates = [.noUpdate, .acked] := by
  have hrun : (Runs.runAll (Runs.guarded (next terrestrialHarqs)
      fun m event => m.safeCall terrestrialHarqs event = true) {}
        [.addUe 0 2 1, .slotIndication 100, .newDlTx 0 100 4 1 0, .incrementPucchCounter (.process 0 0),
          .incrementPucchCounter (.process 0 0)]).map (fun m => (m.dl.harq? (.process 0 0)).map fun h =>
          (h.status, h.params.chosenAck, h.params.lastPucchSnr, h.params.pucchAckToReceive)) =
      some (some (.waitingAck, .dtx, none, 2)) := by decide +kernel
  obtain ⟨m, hrun, hm⟩ := Option.map_eq_some_iff.mp hrun
  obtain ⟨h, hh, hfields⟩ := Option.map_eq_some_iff.mp hm
  simp only [Prod.mk.injEq] at hfields
  have hcard : ({⟨.nack, some 1⟩, ⟨.ack, some 3⟩} : Multiset HarqAckReport).card =
      max h.params.pucchAckToReceive 1 := by
    rw [hfields.2.2.2]
    rfl
  have hcombined := harqAcks_combined (Runs.reaches_of_runGuarded .start hrun) (fun _ => by decide) hh hfields.1
    hfields.2.1 hfields.2.2.1 hcard (by decide) [⟨.ack, some 3⟩, ⟨.nack, some 1⟩] (by decide)
  obtain ⟨⟨updates, m', hacks⟩, hupdates⟩ := hcombined
  exact ⟨m, updates, m', hacks, (hupdates updates m' hacks).1⟩

end Srsran.Scheduler
