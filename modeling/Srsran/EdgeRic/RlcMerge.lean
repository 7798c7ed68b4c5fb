import Srsran.EdgeRic.Conservation

/-! Merge of the RLC metrics of a bearer. Its collector (`rlc_bearer_metrics_collector.cpp`) reports
whole records, and the scheduler sets the DL buffer in them. -/
namespace Srsran.EdgeRic

structure RlcTxMetricsHigher where
  numSdus : Nat := 0
  numSduBytes : Nat := 0
  numDroppedSdus : Nat := 0
  numDiscardedSdus : Nat := 0
  counter : Nat := 0

/-- The mode of a bearer, with the metrics of UM and AM that are reported. -/
inductive RlcModeSpecific where
  | tm
  | um (numPdusWithSegmentation numPduBytesWithSegmentation : Nat)
  | am (numPdusWithSegmentation numPduBytesWithSegmentation numRetxPdus : Nat)

structure RlcTxMetricsLower where
  numPdusNoSegmentation : Nat := 0
  numPduBytesNoSegmentation : Nat := 0
  numOfPulledSdus : Nat := 0
  sumSduLatencyUs : Nat := 0
  modeSpecific : RlcModeSpecific := .tm
  counter : Nat := 0

structure RlcRxMetrics where
  numSdus : Nat := 0
  numSduBytes : Nat := 0
  numPdus : Nat := 0
  numPduBytes : Nat := 0
  numLostPdus : Nat := 0
  sduLatencyUs : Nat := 0
  counter : Nat := 0

inductive RbId where
  | srb (srbId : Nat)
  | drb (drbId : Nat)
  deriving DecidableEq

structure RlcBearerMetricsCollector where
  mLower : RlcTxMetricsLower := { counter := 2 ^ 32 - 1 }
  mHigher : RlcTxMetricsHigher := { counter := 2 ^ 32 - 1 }
  mRxHigh : RlcRxMetrics := { counter := 2 ^ 32 - 1 }

namespace RlcBearerMetricsCollector

def erMetrics (collector : RlcBearerMetricsCollector) : RlcDrbMetrics :=
  let higher := collector.mHigher
  let lower := collector.mLower
  let rx := collector.mRxHigh
  let metrics : RlcDrbMetrics :=
    { txSdus := higher.numSdus
      txSduBytes := higher.numSduBytes
      txDroppedSdus := addU32 higher.numDroppedSdus higher.numDiscardedSdus
      txPdus := lower.numPdusNoSegmentation
      txPduBytes := lower.numPduBytesNoSegmentation
      txSduLatencyUs :=
        if lower.numOfPulledSdus > 0 then lower.sumSduLatencyUs / lower.numOfPulledSdus else 0
      rxSdus := rx.numSdus
      rxSduBytes := rx.numSduBytes
      rxPdus := rx.numPdus
      rxPduBytes := rx.numPduBytes
      rxLostPdus := rx.numLostPdus
      rxSduLatencyUs := rx.sduLatencyUs }
  match lower.modeSpecific with
  | .tm => metrics
  | .um pdus pduBytes =>
    { metrics with
      txPdus := (metrics.txPdus + pdus) % 2 ^ 64
      txPduBytes := (metrics.txPduBytes + pduBytes) % 2 ^ 64 }
  | .am pdus pduBytes retxPdus =>
    { metrics with
      txRetxPdus := retxPdus
      txPdus := (metrics.txPdus + pdus) % 2 ^ 64
      txPduBytes := (metrics.txPduBytes + pduBytes) % 2 ^ 64 }

/-- The LCID and the record of `push_report`, once all parts have the same count. Only DRBs are
reported. -/
def pushReport (collector : RlcBearerMetricsCollector) (rb : RbId) : Option (Nat × RlcDrbMetrics) :=
  if collector.mLower.counter ≠ collector.mHigher.counter ∨
      collector.mLower.counter ≠ collector.mRxHigh.counter then
    none
  else
    match rb with
    | .srb _ => none
    | .drb drbId => some ((drbId + 3) % 2 ^ 8, collector.erMetrics)

end RlcBearerMetricsCollector

inductive RlcMetricsPart where
  | txHigh (metrics : RlcTxMetricsHigher)
  | txLow (metrics : RlcTxMetricsLower)
  | rxHigh (metrics : RlcRxMetrics)

/-- What `push_tx_high_metrics_impl` and its siblings store. -/
def RlcBearerMetricsCollector.store (collector : RlcBearerMetricsCollector) :
    RlcMetricsPart → RlcBearerMetricsCollector
  | .txHigh metrics => { collector with mHigher := metrics }
  | .txLow metrics => { collector with mLower := metrics }
  | .rxHigh metrics => { collector with mRxHigh := metrics }

inductive RlcEvent where
  | createBearer (ue : Nat) (rb : RbId)
  | pushMetrics (ue : Nat) (rb : RbId) (part : RlcMetricsPart)
  | setRlcDlBuffer (rnti : Rnti) (lcid dlBuffer : Nat)
  | registerDuUe (duUeIndex : Nat) (rnti : Rnti)
  | unregisterUeByRnti (rnti : Rnti)
  | mac (event : TelemetryEvent)

/-- The registry and the collectors, and beside them, for each bearer, the DL buffer that was set last,
the last report, and whether this came behind. -/
structure RlcHistory where
  er : EdgeRic := {}
  collectors : Nat → RbId → RlcBearerMetricsCollector := fun _ _ => {}
  lastSet : DrbKey → Option Nat := fun _ => none
  lastReport : DrbKey → Option RlcDrbMetrics := fun _ => none
  reportedSinceSet : DrbKey → Bool := fun _ => false

namespace RlcHistory

def report (h : RlcHistory) (ue lcid : Nat) (metrics : RlcDrbMetrics) : RlcHistory :=
  let h' := { h with er := h.er.reportRlcMetrics ue lcid metrics }
  match h.er.duUeToRnti.find? ue with
  | none => h'
  | some rnti =>
    { h' with
      lastReport := Function.update h.lastReport (drbKey rnti lcid) (some metrics)
      reportedSinceSet := Function.update h.reportedSinceSet (drbKey rnti lcid) true }

/-- A collector stores a part, and reports when it has all of them. -/
def push (h : RlcHistory) (ue : Nat) (rb : RbId) (part : RlcMetricsPart) : RlcHistory :=
  let collector := (h.collectors ue rb).store part
  let h' :=
    { h with collectors := Function.update h.collectors ue (Function.update (h.collectors ue) rb collector) }
  match collector.pushReport rb with
  | none => h'
  | some (lcid, metrics) => h'.report ue lcid metrics

def step (h : RlcHistory) : RlcEvent → Option RlcHistory
  | .createBearer ue rb =>
    some { h with collectors := Function.update h.collectors ue (Function.update (h.collectors ue) rb {}) }
  | .pushMetrics ue rb part => some (h.push ue rb part)
  | .setRlcDlBuffer rnti lcid dlBuffer =>
    some
      { h with
        er := h.er.setRlcDlBuffer rnti lcid dlBuffer
        lastSet := Function.update h.lastSet (drbKey rnti lcid) (some dlBuffer)
        reportedSinceSet := Function.update h.reportedSinceSet (drbKey rnti lcid) false }
  | .registerDuUe duUeIndex rnti => some { h with er := h.er.registerDuUe duUeIndex rnti }
  | .unregisterUeByRnti rnti =>
    some
      { h with
        er := h.er.unregisterUeByRnti rnti
        lastSet := fun key => if key.ue = rnti then none else h.lastSet key
        lastReport := fun key => if key.ue = rnti then none else h.lastReport key
        reportedSinceSet := fun key => if key.ue = rnti then false else h.reportedSinceSet key }
  | .mac event => some { h with er := h.er.handle event }

def mergedEntry (lastSet : Option Nat) (lastReport : Option RlcDrbMetrics) : Option RlcDrbMetrics :=
  match lastSet, lastReport with
  | none, none => none
  | _, _ => some { lastReport.getD {} with dlBuffer := lastSet.getD 0 }

def exportedRlc (er : EdgeRic) (rnti : Rnti) (lcid : Nat) : List RlcDrbMetrics :=
  ((er.ueMetrics rnti).rlcDrb.filter fun d => d.1 = lcid).map Prod.snd

/-- Neither producer erases what the other one wrote. -/
def Merged (h : RlcHistory) (rnti : Rnti) (lcid : Nat) : Prop :=
  exportedRlc h.er rnti lcid =
    (mergedEntry (h.lastSet (drbKey rnti lcid)) (h.lastReport (drbKey rnti lcid))).toList

/-- The buffer that was set last is 0, or nothing was reported since. -/
def BufferKept (h : RlcHistory) (rnti : Rnti) (lcid : Nat) : Prop :=
  ∀ dlBuffer, h.lastSet (drbKey rnti lcid) = some dlBuffer →
    h.reportedSinceSet (drbKey rnti lcid) = true → dlBuffer = 0

/-- Behind a report the entry is the record as it was reported. -/
structure Held (h : RlcHistory) (key : DrbKey) : Prop where
  entry : h.er.rlcDrb.find? key =
    if h.reportedSinceSet key then h.lastReport key else mergedEntry (h.lastSet key) (h.lastReport key)
  noBuffer : ∀ metrics, h.lastReport key = some metrics → metrics.dlBuffer = 0
  reported : h.reportedSinceSet key = true → (h.lastReport key).isSome = true

variable {h h' : RlcHistory} {key : DrbKey} {rnti : Rnti} {lcid : Nat}

theorem Held.congr (hheld : h.Held key) (her : h'.er.rlcDrb.find? key = h.er.rlcDrb.find? key)
    (hset : h'.lastSet key = h.lastSet key) (hreport : h'.lastReport key = h.lastReport key)
    (hsince : h'.reportedSinceSet key = h.reportedSinceSet key) : h'.Held key where
  entry := by
    rw [her, hset, hreport, hsince]
    exact hheld.entry
  noBuffer := by
    rw [hreport]
    exact hheld.noBuffer
  reported := by
    rw [hsince, hreport]
    exact hheld.reported

theorem erMetrics_dlBuffer (collector : RlcBearerMetricsCollector) :
    collector.erMetrics.dlBuffer = 0 := by
  rw [RlcBearerMetricsCollector.erMetrics]
  split <;> rfl

variable {metrics : RlcDrbMetrics}

theorem pushReport_dlBuffer {collector : RlcBearerMetricsCollector} {rb : RbId}
    (hpush : collector.pushReport rb = some (lcid, metrics)) : metrics.dlBuffer = 0 := by
  simp only [RlcBearerMetricsCollector.pushReport] at hpush
  split at hpush
  · cases hpush
  · cases rb with
    | srb srbId => cases hpush
    | drb drbId =>
      cases hpush
      exact erMetrics_dlBuffer collector

theorem rlcDrb_handle (er : EdgeRic) (event : TelemetryEvent) : (er.handle event).rlcDrb = er.rlcDrb := by
  cases event <;> rfl

theorem report_registered {ue : Nat} (hrnti : h.er.duUeToRnti.find? ue = some rnti) :
    h.report ue lcid metrics =
      { h with
        er := { h.er with rlcDrb := h.er.rlcDrb.insert (drbKey rnti lcid) metrics }
        lastReport := Function.update h.lastReport (drbKey rnti lcid) (some metrics)
        reportedSinceSet := Function.update h.reportedSinceSet (drbKey rnti lcid) true } := by
  rw [RlcHistory.report, EdgeRic.reportRlcMetrics, hrnti]

theorem report_unknown {ue : Nat} (hrnti : h.er.duUeToRnti.find? ue = none) :
    h.report ue lcid metrics = h := by
  rw [RlcHistory.report, EdgeRic.reportRlcMetrics, hrnti]

theorem Held.report {ue : Nat} {metrics : RlcDrbMetrics} (hheld : h.Held key)
    (hbuffer : metrics.dlBuffer = 0) : (h.report ue lcid metrics).Held key := by
  cases hrnti : h.er.duUeToRnti.find? ue with
  | none =>
    rw [report_unknown hrnti]
    exact hheld
  | some rnti =>
    rw [report_registered hrnti]
    by_cases hkey : key = drbKey rnti lcid
    · subst hkey
      refine ⟨?_, ?_, ?_⟩
      · simp
      · intro metrics' hmetrics
        have hlast : some metrics = some metrics' :=
          (Function.update_self (drbKey rnti lcid) (some metrics) h.lastReport).symm.trans hmetrics
        cases hlast
        exact hbuffer
      · simp
    · exact hheld.congr (OrdMap.find?_insert_of_ne hkey) rfl (Function.update_of_ne hkey _ _)
        (Function.update_of_ne hkey _ _)

theorem Held.push {ue : Nat} {rb : RbId} {part : RlcMetricsPart} (hheld : h.Held key) :
    (h.push ue rb part).Held key := by
  rw [RlcHistory.push]
  split
  · exact hheld.congr rfl rfl rfl rfl
  · rename_i lcid metrics hpush
    apply Held.report ?_ (pushReport_dlBuffer hpush)
    exact hheld.congr rfl rfl rfl rfl

/-- The entry with another buffer is the merge with this buffer. -/
theorem mergedEntry_set (hheld : h.Held key) (dlBuffer : Nat) :
    some { (h.er.rlcDrb.find? key).getD {} with dlBuffer } =
      mergedEntry (some dlBuffer) (h.lastReport key) := by
  have hentry := hheld.entry
  rw [hentry]
  cases hsince : h.reportedSinceSet key with
  | true => rfl
  | false =>
    cases hset : h.lastSet key with
    | none => cases hreport : h.lastReport key <;> rfl
    | some value => cases hreport : h.lastReport key <;> rfl

theorem Held.set (hheld : h.Held key) (dlBuffer : Nat) :
    ({ h with
      er := h.er.setRlcDlBuffer rnti lcid dlBuffer
      lastSet := Function.update h.lastSet (drbKey rnti lcid) (some dlBuffer)
      reportedSinceSet := Function.update h.reportedSinceSet (drbKey rnti lcid) false } :
        RlcHistory).Held key := by
  by_cases hkey : key = drbKey rnti lcid
  · subst hkey
    refine ⟨?_, hheld.noBuffer, ?_⟩
    · have hmerged := mergedEntry_set hheld dlBuffer
      simpa [EdgeRic.setRlcDlBuffer, OrdMap.find?_update] using hmerged
    · simp
  · have hfind : (h.er.setRlcDlBuffer rnti lcid dlBuffer).rlcDrb.find? key = h.er.rlcDrb.find? key := by
      rw [EdgeRic.setRlcDlBuffer, OrdMap.find?_update, if_neg hkey]
    exact hheld.congr hfind (Function.update_of_ne hkey _ _) rfl (Function.update_of_ne hkey _ _)

theorem Held.unregister (hheld : h.Held key) :
    ({ h with
      er := h.er.unregisterUeByRnti rnti
      lastSet := fun key => if key.ue = rnti then none else h.lastSet key
      lastReport := fun key => if key.ue = rnti then none else h.lastReport key
      reportedSinceSet := fun key => if key.ue = rnti then false else h.reportedSinceSet key } :
        RlcHistory).Held key := by
  by_cases hkey : key.ue = rnti
  · have hgone : (h.er.unregisterUeByRnti rnti).rlcDrb.find? key = none :=
      OrdMap.find?_filter_eq_none fun _ _ => decide_eq_false (not_not.mpr hkey)
    refine ⟨?_, ?_, ?_⟩
    · simp [hkey, hgone, mergedEntry]
    · simp [hkey]
    · simp [hkey]
  · have hkept : (h.er.unregisterUeByRnti rnti).rlcDrb.find? key = h.er.rlcDrb.find? key :=
      OrdMap.find?_filter_of_keep fun _ _ => decide_eq_true hkey
    exact hheld.congr hkept (if_neg hkey) (if_neg hkey) (if_neg hkey)

theorem Held.step {event : RlcEvent} (hheld : h.Held key) (hstep : h.step event = some h') :
    h'.Held key := by
  cases event with
  | createBearer ue rb =>
    cases hstep
    exact hheld.congr rfl rfl rfl rfl
  | pushMetrics ue rb part =>
    cases hstep
    exact hheld.push
  | setRlcDlBuffer rnti lcid dlBuffer =>
    cases hstep
    exact hheld.set dlBuffer
  | registerDuUe duUeIndex rnti =>
    cases hstep
    exact hheld.congr rfl rfl rfl rfl
  | unregisterUeByRnti rnti =>
    cases hstep
    exact hheld.unregister
  | mac event =>
    cases hstep
    have hrlc : (h.er.handle event).rlcDrb.find? key = h.er.rlcDrb.find? key := by rw [rlcDrb_handle]
    exact hheld.congr hrlc rfl rfl rfl

theorem exportedRlc_eq (er : EdgeRic) :
    exportedRlc er rnti lcid = (er.rlcDrb.find? (drbKey rnti lcid)).toList := by
  have hkey : ((er.rlcDrb.entries.filter fun e => e.1.ue = rnti).filter fun e => e.1.bearer = lcid) =
      er.rlcDrb.entries.filter fun e => e.1 = drbKey rnti lcid := by
    rw [List.filter_filter]
    apply List.filter_congr
    intro e _
    rw [← Bool.decide_and, decide_eq_decide, drbKey_eq_iff, and_comm]
  have hfilter : ((er.ueMetrics rnti).rlcDrb.filter fun d => d.1 = lcid) =
      ((er.rlcDrb.entries.filter fun e => e.1.ue = rnti).filter fun e => e.1.bearer = lcid).map
        fun e => (e.1.bearer, e.2) := List.filter_map
  rw [exportedRlc, hfilter, hkey, OrdMap.filter_key]
  cases er.rlcDrb.find? (drbKey rnti lcid) with
  | none => rfl
  | some metrics => rfl

theorem merged_iff (hheld : h.Held (drbKey rnti lcid)) : h.Merged rnti lcid ↔ h.BufferKept rnti lcid := by
  have hentry := hheld.entry
  rw [Merged, exportedRlc_eq, hentry, BufferKept]
  cases hsince : h.reportedSinceSet (drbKey rnti lcid) with
  | false => simp
  | true =>
    obtain ⟨metrics, hmetrics⟩ := Option.isSome_iff_exists.mp (hheld.reported hsince)
    have hzero := hheld.noBuffer metrics hmetrics
    rw [hmetrics, if_pos rfl]
    cases hset : h.lastSet (drbKey rnti lcid) with
    | none => simp [mergedEntry, ← hzero]
    | some dlBuffer =>
      obtain ⟨dlBuffer', _⟩ := metrics
      cases hzero
      simp [mergedEntry, eq_comm]

/-- In every history, the exported entry of a bearer is the merge of what its producers wrote last if
and only if the scheduler set the buffer to 0 or set it behind the last report. -/
theorem rlcMetrics_merged_iff (hrun : Runs.Reaches step (fun _ _ => True) {} h) (rnti : Rnti)
    (lcid : Nat) : h.Merged rnti lcid ↔ h.BufferKept rnti lcid := by
  apply merged_iff
  apply hrun.invariant ⟨rfl, nofun, nofun⟩
  intro s event s' hs _ hstep
  exact hs.step hstep

/-- The buffer of 100 bytes is gone as soon as the parts of a report are there. -/
theorem rlcMetrics_bufferErased : ∃ h : RlcHistory,
    Runs.Reaches step (fun _ _ => True) {} h ∧ ¬h.Merged 0x4601 4 := by
  have hobserved : (Runs.runAll step {} [.registerDuUe 0 0x4601, .setRlcDlBuffer 0x4601 4 100,
      .pushMetrics 0 (.drb 1) (.txHigh { numSdus := 7 }), .pushMetrics 0 (.drb 1) (.txLow {}),
      .pushMetrics 0 (.drb 1) (.rxHigh {})]).map (fun h =>
        (exportedRlc h.er 0x4601 4, h.lastSet (drbKey 0x4601 4), h.lastReport (drbKey 0x4601 4))) =
      some ([{ txSdus := 7 }], some 100, some { txSdus := 7 }) := by
    decide +kernel
  obtain ⟨h, hrun, hh⟩ := Option.map_eq_some_iff.mp hobserved
  rw [Prod.mk.injEq, Prod.mk.injEq] at hh
  refine ⟨h, Runs.reaches_of_runAll .start (fun _ _ _ => trivial) hrun, ?_⟩
  rw [Merged, hh.1, hh.2.1, hh.2.2]
  decide

/-- A history in which the scheduler sets the buffer behind the report. -/
theorem rlcMetrics_merged_iff_setLast : ∃ h : RlcHistory,
    h.lastReport (drbKey 0x4601 4) = some { txSdus := 7 } ∧
      (h.Merged 0x4601 4 ↔ h.BufferKept 0x4601 4) := by
  have hobserved : (Runs.runAll step {} [.registerDuUe 0 0x4601,
      .pushMetrics 0 (.drb 1) (.txHigh { numSdus := 7 }), .pushMetrics 0 (.drb 1) (.txLow {}),
      .pushMetrics 0 (.drb 1) (.rxHigh {}), .setRlcDlBuffer 0x4601 4 100]).map
        (fun h => h.lastReport (drbKey 0x4601 4)) = some (some { txSdus := 7 }) := by
    decide +kernel
  obtain ⟨h, hrun, hh⟩ := Option.map_eq_some_iff.mp hobserved
  exact ⟨h, hh, rlcMetrics_merged_iff (Runs.reaches_of_runAll .start (fun _ _ _ => trivial) hrun)
    0x4601 4⟩

end RlcHistory
end Srsran.EdgeRic
