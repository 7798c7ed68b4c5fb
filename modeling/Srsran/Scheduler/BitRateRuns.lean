import Srsran.Scheduler.BitRateSteps
import Srsran.Scheduler.SliceRuns

/-! Runs of the logical channel system together with the ledger of the bytes that are scheduled: when the
tracked averages are those of the ledger. -/
namespace Srsran.Scheduler
open Adt Checked Runs

namespace Ledger

def add (l : Ledger) (d : Direction) (ue id bytes : Nat) : Ledger :=
  l.set d ue id ((l d ue id).map fun t => { t with current := t.current + bytes })

def restrict (l : Ledger) (sys : LogicalChannelSystem) : Ledger :=
  fun d ue id => if (sys.trackedRow d ue id).isSome then l d ue id else none

def after (l : Ledger) (sys : LogicalChannelSystem) : LogicalChannelSystem.LcEvent → Ledger
  | .slotIndication => fun d ue id => (l d ue id).map TrackedChannel.closeSlot
  | .macSdu ue remBytes lcid => l.add .dl ue lcid (sys.sduBytes ue remBytes lcid)
  | .ulGrant ue grantSize =>
    fun d ue' id => l.add .ul ue id (sys.grantBytes ue grantSize id) d ue' id
  | .createUe ue slotsPerMsec _ cfgs =>
    (cfgs.getD []).foldl (fun l cfg => l.configure ue slotsPerMsec cfg) l
  | .configure ue cfgs =>
    cfgs.foldl (fun l cfg => l.configure ue ((sys.ues.find? ue).elim 0 UeRow.slotsPerMsec) cfg) l
  | _ => l

theorem add_zero {l : Ledger} {d : Direction} {ue id : Nat} : l.add d ue id 0 = l := by
  funext d' ue' id'
  rw [add, set]
  split
  · rename_i heq
    obtain ⟨rfl, rfl, rfl⟩ := heq
    cases h : l d' ue' id' with
    | none => rfl
    | some t => rfl
  · rfl

theorem add_of_none {l : Ledger} {d : Direction} {ue id bytes : Nat} (h : l d ue id = none) :
    l.add d ue id bytes = l := by
  funext d' ue' id'
  rw [add, set, h]
  split
  · rename_i heq
    rw [heq.1, heq.2.1, heq.2.2, h]
    rfl
  · rfl

end Ledger

namespace LogicalChannelSystem
variable {sys sys' : LogicalChannelSystem} {l : Ledger} {d : Direction} {ue id : Nat} {row : UeRow}

def recordedStep (s : LogicalChannelSystem × Ledger) (e : LcEvent) : Option (LogicalChannelSystem × Ledger) :=
  (s.1.step e).map fun sys' => (sys', (s.2.after s.1 e).restrict sys')

def everyChannel (sys : LogicalChannelSystem) (ue : Nat) (p : Direction → ChannelContext → Bool) : Bool :=
  (sys.ues.find? ue).all fun row =>
    [Direction.dl, .ul].all fun d => (row.side d).channels.entries.all fun e => p d e.2

/-- An event whose bytes are counted: no second SDU for a tracked channel in a slot, no grant for the data of
a tracked group, and no use of the row IDs that the deactivation of a UE leaves in its channels, unless the
table has no row for them. A configuration may insert rows under them before it drops them, so that it
must not find any. -/
def counted (s : LogicalChannelSystem × Ledger) : LcEvent → Bool
  | .macSdu ue remBytes lcid =>
    !s.1.canAllocateSdu ue remBytes lcid || (s.2 .dl ue lcid).all fun t => t.current = 0
  | .ulGrant ue grantSize => grantSize = 0 || s.1.allGranted ue
  | .configure ue _ => s.1.everyChannel ue fun _ ch => ch.active || ch.qosRow.isNone
  | .deactivate ue | .removeUe ue =>
    s.1.everyChannel ue fun d ch => ch.active || ch.qosRow.all (s.1.qos d).vacant
  | _ => true

theorem everyChannel_status {p : Direction → ChannelContext → Bool} (h : sys.everyChannel ue p = true)
    {u : UeStatus} {ch : ChannelStatus} (hu : sys.status ue = some u) (hch : u.channel? d id = some ch) :
    ∃ ch', ch'.status = ch ∧ p d ch' = true := by
  rw [status] at hu
  obtain ⟨row, hrow, rfl⟩ := Option.map_eq_some_iff.mp hu
  rw [UeRow.channel?_status] at hch
  obtain ⟨ch', hch', hstatus⟩ := Option.map_eq_some_iff.mp hch
  refine ⟨ch', hstatus, ?_⟩
  rw [everyChannel, hrow, Option.all_some, List.all_eq_true] at h
  have hd := h d (by cases d <;> decide)
  rw [List.all_eq_true] at hd
  exact hd (id, ch') (OrdMap.find?_eq_some_iff.mp hch')

theorem erasable_of_everyChannel
    (h : sys.everyChannel ue (fun d ch => ch.active || ch.qosRow.all (sys.qos d).vacant) = true) :
    Erasable d ue sys := by
  intro u id ch rid hu hch hrid
  obtain ⟨ch', rfl, hp⟩ := everyChannel_status h hu hch
  rw [Bool.or_eq_true] at hp
  refine hp.imp_right fun hvacant => ?_
  rw [show ch'.qosRow = some rid from hrid, Option.all_some] at hvacant
  exact hvacant

/-- What holds in every state of a run. -/
structure Recorded (s : LogicalChannelSystem × Ledger) : Prop where
  consistent : s.1.Consistent
  tracking : Tracking s.2 s.1
  live : ∀ d ue id, s.1.trackedRow d ue id = none → s.2 d ue id = none

theorem Tracking.restrict (h : Tracking l sys) : Tracking (l.restrict sys) sys := by
  apply h.congr
  · intro d ue id htracked
    exact if_pos (Option.isSome_iff_ne_none.mpr htracked)
  · intro ue id t ht
    rw [Ledger.restrict] at ht
    split at ht
    · exact h.idle ue id t ht
    · cases ht

theorem recorded_empty : Recorded ({}, fun _ _ _ => none) := by
  refine ⟨consistent_empty, ⟨?_, nofun, nofun, nofun⟩, fun _ _ _ _ => rfl⟩
  exact fun _ => SoaTable.wellFormed_empty

section
variable (h : Recorded (sys, l))
include h

theorem Recorded.macSdu {remBytes lcid : Nat}
    (hcounted : counted (sys, l) (.macSdu ue remBytes lcid) = true)
    (hstep : sys.handle (.macSdu ue remBytes lcid) = .ok sys') :
    Tracking (l.after sys (.macSdu ue remBytes lcid)) sys' := by
  obtain ⟨r, hr, hresult⟩ := bind_ok hstep
  cases hresult
  rw [Ledger.after]
  rcases allocateMacSdu_gives.result hr with ⟨hnone, hsame⟩ | ⟨row, ch, sys₁, hcan, hrow, hch, h₁, hqos⟩
  · have hzero : sys.sduBytes ue remBytes lcid = 0 := by
      rw [sduBytes, hr]
      split
      · rename_i heq _
        cases heq
        rw [hnone]
        exact Nat.zero_min _
      · rfl
    rw [hzero, Ledger.add_zero, hsame]
    exact h.tracking
  · have hbytes : sys.sduBytes ue remBytes lcid = min r.2.1.schedBytes ch.bufSt := by
      rw [sduBytes, hr, hrow, Option.bind_some, hch]
    have htracked : sys.trackedRow .dl ue lcid = ch.qosRow := by
      rw [trackedRow_eq hrow, hch]
      rfl
    have htracking : Tracking l sys := h.tracking
    rw [hbytes]
    split at hqos
    · rename_i hnone
      rw [hnone] at htracked
      rw [Ledger.add_of_none (h.live .dl ue lcid htracked), hqos]
      exact htracking.framed h₁
    · rename_i rid hrid
      rw [hrid] at htracked
      obtain ⟨ctx, hctx, hsys⟩ := hqos
      obtain ⟨ctx', t, hctx', ht, hcounts⟩ := htracking.counts .dl ue lcid rid htracked
      rw [h₁.qos_eq] at hctx
      rw [hctx] at hctx'
      cases hctx'
      have hfirst : t.current = 0 := by
        rw [counted, hcan, Bool.not_true, Bool.false_or] at hcounted
        dsimp only at hcounted
        rw [ht, Option.all_some] at hcounted
        exact of_decide_eq_true hcounted
      have hsmall : min r.2.1.schedBytes ch.bufSt < 2 ^ 32 := by
        obtain hnone | ⟨row', ces, hsound, -, hview⟩ := h.consistent.row_cases ue
        · rw [hrow] at hnone
          cases hnone
        · have hsame := hview.row_eq
          rw [hrow] at hsame
          cases hsame
          have hle := hsound.bufSt_le .dl lcid ch (Option.filter_eq_some_iff.mp hch).1
          have hlt : maxBufferStatus < 2 ^ 32 := by decide
          exact ((min_le_right _ _).trans hle).trans_lt hlt
      have htracked₁ : sys₁.trackedRow .dl ue lcid = some rid := by
        rw [h₁.trackedRow_eq]
        exact htracked
      have hctx₁ : (sys₁.qos .dl).row? rid = some ctx := by
        rw [h₁.qos_eq]
        exact hctx
      rw [hsys, Ledger.add, ht, Option.map_some]
      refine (htracking.framed h₁).update htracked₁ hctx₁ ⟨hcounts.average, fun _ => ?_, fun _ => ?_, nofun⟩
      · rw [hfirst, Nat.zero_add]
      · rw [hfirst, Nat.zero_add]
        exact hsmall

theorem Recorded.configured {cfgs : List LogicalChannelConfig}
    (hcounted : counted (sys, l) (.configure ue cfgs) = true) (hrow : sys.ues.find? ue = some row) :
    Tidy ue row.slotsPerMsec cfgs l sys := by
  refine ⟨h.tracking, ⟨row.status, ?_, rfl, ?_⟩, fun cfg _ => h.live .dl ue cfg.lcid⟩
  · rw [status, hrow]
    rfl
  · intro d id ch hch hsome
    have hstatus : sys.status ue = some row.status := by
      rw [status, hrow]
      rfl
    rw [counted] at hcounted
    obtain ⟨ch', rfl, hp⟩ := everyChannel_status hcounted hstatus hch
    rw [Bool.or_eq_true] at hp
    rcases hp with hactive | hnone
    · exact hactive
    · rw [ChannelContext.status, Option.isNone_iff_eq_none.mp hnone] at hsome
      cases hsome

theorem Recorded.createUe {slotsPerMsec : Nat} {startsInFallback : Bool}
    {cfgs : Option (List LogicalChannelConfig)} :
    Gives (Tracking (l.after sys (.createUe ue slotsPerMsec startsInFallback cfgs)))
      (sys.createUe ue slotsPerMsec startsInFallback cfgs) := by
  rw [LogicalChannelSystem.createUe]
  split
  · exact .error trivial
  · rename_i hunconfigured
    have hrow : sys.ues.find? ue = none := by
      rw [Option.eq_none_iff_forall_ne_some]
      exact fun row hrow => hunconfigured (h.consistent.configured hrow)
    have hnone : ∀ d id, sys.trackedRow d ue id = none := by
      intro d id
      rw [trackedRow, status, hrow]
      rfl
    have hnew : ∀ sys₁ : LogicalChannelSystem, sys₁.qos = sys.qos →
        sys₁.ues = sys.ues.insert ue { slotsPerMsec, fallbackState := startsInFallback } →
        Tidy ue slotsPerMsec (cfgs.getD []) l sys₁ := by
      intro sys₁ hqos hues
      have hstatus : sys₁.status = Function.update sys.status ue
          (some ⟨slotsPerMsec, fun _ _ => none⟩) := by
        have hset := @status_setUe sys ue { slotsPerMsec, fallbackState := startsInFallback }
        have hsame : sys₁.status = (sys.setUe ue { slotsPerMsec, fallbackState := startsInFallback }).status := by
          funext ue'
          rw [status, status, hues]
          rfl
        rw [hsame, hset]
        rfl
      refine ⟨h.tracking.mono hqos fun d ue' id rid hrid => ?_, ⟨⟨slotsPerMsec, fun _ _ => none⟩, ?_, rfl, (by rintro _ _ _ ⟨⟩)⟩,
        fun cfg _ _ => h.live .dl ue cfg.lcid (hnone .dl cfg.lcid)⟩
      · rw [trackedRow, hstatus] at hrid
        by_cases hue : ue' = ue
        · rw [hue, Function.update_self] at hrid
          cases hrid
        · rw [Function.update_of_ne hue] at hrid
          exact hrid
      · rw [hstatus, Function.update_self]
    dsimp only
    refine setBit_gives.bind fun bits _ => ?_
    cases cfgs with
    | none =>
      refine .ok (hnew _ ?_ ?_).tracking
      · split <;> rfl
      · split <;> rfl
    | some cfgs =>
      refine (hnew _ ?_ ?_).configure.mono fun _ h' => h'.tracking
      · split <;> rfl
      · split <;> rfl

theorem Recorded.after {e : LcEvent} (hcounted : counted (sys, l) e = true)
    (hstep : sys.handle e = .ok sys') : Tracking (l.after sys e) sys' := by
  cases e with
  | slotIndication => exact h.tracking.slotIndication.result hstep
  | createUe ue slotsPerMsec startsInFallback cfgs => exact h.createUe.result hstep
  | removeUe ue => exact (h.tracking.removeUe fun d => erasable_of_everyChannel hcounted).result hstep
  | configure ue cfgs =>
    cases hrow : sys.ues.find? ue with
    | none =>
      rw [handle, configure, getUe, hrow] at hstep
      cases hstep
    | some row =>
      have htidy := (h.configured hcounted hrow).configure.result hstep
      rw [Ledger.after, hrow]
      exact htidy.tracking
  | deactivate ue => exact (h.tracking.deactivate fun d => erasable_of_everyChannel hcounted).result hstep
  | setFallbackState ue enterFallback => exact h.tracking.framed (keeps_setFallbackState.result hstep)
  | setRanSlice ue d id slice => exact h.tracking.framed (keeps_setRanSlice.result hstep)
  | resetRanSlice ue d id => exact h.tracking.framed (keeps_deregisterRanSlice.result hstep)
  | dlBufferStatus ue lcid bufferStatus =>
    exact h.tracking.framed (keeps_handleDlBufferStatusIndication.result hstep)
  | bsr ue isLongBsr reportedLcgs => exact h.tracking.handleBsrIndication.result hstep
  | sr ue => exact h.tracking.framed (keeps_setPendingSrBit.result hstep)
  | resetSr ue => exact h.tracking.framed (keeps_setPendingSrBit.result hstep)
  | macCe ue ce => exact h.tracking.framed (keeps_handleMacCeIndication.result hstep)
  | ulGrant ue grantSize =>
    have hgranted : grantSize = 0 ∨ sys.allGranted ue = true := by
      rw [counted, Bool.or_eq_true, decide_eq_true_eq] at hcounted
      exact hcounted
    have hsame : l.after sys (.ulGrant ue grantSize) = l := by
      funext d ue' id
      dsimp only [Ledger.after]
      rw [grantBytes_eq_zero hgranted, Ledger.add_zero]
    rw [hsame]
    exact h.tracking.framed ((keeps_handleUlGrant hgranted).result hstep)
  | macSdu ue remBytes lcid => exact h.macSdu hcounted hstep
  | allocateMacCe ue remBytes =>
    obtain ⟨r, hr, hresult⟩ := bind_ok hstep
    cases hresult
    exact h.tracking.framed (keeps_allocateMacCe.result hr)
  | allocateUeConResIdMacCe ue remBytes =>
    obtain ⟨r, hr, hresult⟩ := bind_ok hstep
    cases hresult
    exact h.tracking.framed (keeps_allocateUeConResIdMacCe.result hr)

end

theorem recorded_of_reaches {s : LogicalChannelSystem × Ledger}
    (h : Reaches recordedStep (fun s e => counted s e = true) ({}, fun _ _ _ => none) s) : Recorded s := by
  refine h.invariant recorded_empty fun s e s' hs hcounted hstep => ?_
  obtain ⟨sys, l⟩ := s
  obtain ⟨sys', hsys', rfl⟩ := Option.map_eq_some_iff.mp hstep
  have hhandle := toOption_eq_some hsys'
  refine ⟨(hs.consistent.handle e).result hhandle, (hs.after hcounted hhandle).restrict, fun d ue id hnone => ?_⟩
  exact if_neg (by rw [hnone]; decide)

/-- In every state of a run whose events are all counted, the average of every tracked channel is that of the
bytes scheduled for it in its window. -/
theorem averageBitRate_exact {s : LogicalChannelSystem × Ledger} {ch : ChannelContext}
    (h : Reaches recordedStep (fun s e => counted s e = true) ({}, fun _ _ _ => none) s)
    (hrow : s.1.ues.find? ue = some row) (hch : row.findActive d id = some ch) (htracked : ch.qosRow.isSome) :
    ∃ t, s.2 d ue id = some t ∧
      s.1.averageBitRate d ue id = .ok (t.bytesPerSlot * 8 * row.slotsPerMsec * 1000) := by
  obtain ⟨rid, hrid⟩ := Option.isSome_iff_exists.mp htracked
  have hrow' : s.1.trackedRow d ue id = some rid := by
    rw [trackedRow_eq hrow, hch]
    exact hrid
  obtain ⟨ctx, t, hctx, ht, hcounts⟩ := (recorded_of_reaches h).tracking.counts d ue id rid hrow'
  refine ⟨t, ht, ?_⟩
  rw [averageBitRate, getUe, hrow, ok_bind, hch, Option.bind_some, hrid]
  dsimp only
  rw [hctx, ← hcounts.average_eq]
  rfl

/-- A UE with a DRB of a guaranteed bit rate over two slots, and data for it in both directions. -/
def gbrEvents : List LcEvent :=
  [.createUe 0 1 false (some
      [{ lcid := 4, lcGroup := 2,
         qos := some { priority := 1, arpPriority := 1, averageWindowMs := some 2, isGbr := true } }]),
    .dlBufferStatus 0 4 1000, .bsr 0 true [(2, 1000)]]

/-- One SDU in a slot. -/
theorem averageBitRate_exact_oneSdu : ∃ (s : LogicalChannelSystem × Ledger) (t : TrackedChannel),
    s.2 .dl 0 4 = some t ∧ t.slots = [98] ∧
    s.1.averageBitRate .dl 0 4 = .ok (t.bytesPerSlot * 8 * (1 : Nat) * 1000) := by
  obtain ⟨s, hrun, hobs⟩ : ∃ s,
      runAll (guarded recordedStep fun s e => counted s e = true) ({}, fun _ _ _ => none)
        (gbrEvents ++ [.macSdu 0 100 4, .slotIndication]) = some s ∧
      ((s.1.ues.find? 0).map fun row =>
        (row.slotsPerMsec, (row.findActive .dl 4).map fun ch => ch.qosRow.isSome),
        (s.2 .dl 0 4).map TrackedChannel.slots) = (some (1, some true), some [98]) :=
    Option.map_eq_some_iff.mp (by decide +kernel)
  rw [Prod.mk.injEq] at hobs
  obtain ⟨row, hrow, hrowObs⟩ := Option.map_eq_some_iff.mp hobs.1
  rw [Prod.mk.injEq] at hrowObs
  obtain ⟨ch, hch, htracked⟩ := Option.map_eq_some_iff.mp hrowObs.2
  obtain ⟨t, ht, haverage⟩ := averageBitRate_exact (reaches_of_runGuarded .start hrun) hrow hch htracked
  rw [ht, Option.map_some, Option.some.injEq] at hobs
  rw [hrowObs.1] at haverage
  exact ⟨s, t, ht, hobs.2, haverage⟩

/-- Of two SDUs in a slot only the bytes of the last one are counted, and those of a grant are not counted at
all. -/
theorem averageBitRate_twoSdus : ∃ (s : LogicalChannelSystem × Ledger) (dl ul : TrackedChannel),
    Reaches recordedStep (fun _ _ => True) ({}, fun _ _ _ => none) s ∧
    s.2 .dl 0 4 = some dl ∧ dl.slots = [98 + 48] ∧
    s.1.averageBitRate .dl 0 4 = .ok ((48 : Rat) / 2 * 8 * 1 * 1000) ∧
    s.1.averageBitRate .dl 0 4 ≠ .ok (dl.bytesPerSlot * 8 * 1 * 1000) ∧
    s.2 .ul 0 2 = some ul ∧ ul.slots = [500] ∧ s.1.averageBitRate .ul 0 2 = .ok 0 ∧
    s.1.averageBitRate .ul 0 2 ≠ .ok (ul.bytesPerSlot * 8 * 1 * 1000) := by
  obtain ⟨s, hrun, hobs⟩ : ∃ s,
      runAll recordedStep ({}, fun _ _ _ => none)
        (gbrEvents ++ [.macSdu 0 100 4, .macSdu 0 50 4, .ulGrant 0 500, .slotIndication]) = some s ∧
      [((s.2 .dl 0 4).map fun t => (t.slots, t.bytesPerSlot), (s.1.averageBitRate .dl 0 4).toOption),
        ((s.2 .ul 0 2).map fun t => (t.slots, t.bytesPerSlot), (s.1.averageBitRate .ul 0 2).toOption)] =
        [(some ([98 + 48], (73 : Rat)), some ((48 : Rat) / 2 * 8 * 1 * 1000)),
          (some ([500], (250 : Rat)), some 0)] :=
    Option.map_eq_some_iff.mp (by decide +kernel)
  simp only [List.cons.injEq, Prod.mk.injEq, and_true] at hobs
  obtain ⟨⟨hdl, hdlAverage⟩, hul, hulAverage⟩ := hobs
  obtain ⟨dl, hdl, hdlObs⟩ := Option.map_eq_some_iff.mp hdl
  obtain ⟨ul, hul, hulObs⟩ := Option.map_eq_some_iff.mp hul
  rw [Prod.mk.injEq] at hdlObs hulObs
  have hdlAverage := toOption_eq_some hdlAverage
  have hulAverage := toOption_eq_some hulAverage
  refine ⟨s, dl, ul, reaches_of_runAll .start (fun _ _ _ => trivial) hrun, hdl, hdlObs.1, hdlAverage, ?_, hul,
    hulObs.1, hulAverage, ?_⟩
  · rw [hdlAverage, hdlObs.2, Ne, Except.ok.injEq]
    decide +kernel
  · rw [hulAverage, hulObs.2, Ne, Except.ok.injEq]
    decide +kernel

end LogicalChannelSystem
end Srsran.Scheduler
