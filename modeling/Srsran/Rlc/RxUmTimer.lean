import Srsran.Rlc.RxUmState

/-! When t-Reassembly of the UM receiver runs. -/
namespace Srsran.Rlc
open ModOrder Srsran.Adt Checked

namespace RlcRxUmEntity

/-- RX_Next_Highest > RX_Next_Reassembly + 1, or they are equal and the SDU at RX_Next_Reassembly
misses a byte before a received one. -/
def NeedsTimer (ent : RlcRxUmEntity) : Prop :=
  ent.rxModBase ent.st.rxNextHighest > ent.rxModBase (ent.st.rxNextReassembly + 1) ∨
  (ent.st.rxNextHighest = (ent.st.rxNextReassembly + 1) % ent.mod ∧
    ∃ info, ent.rxWindow.get? ent.st.rxNextReassembly = some info ∧ MissesByte info.segments)

/-- RX_Next_Highest is right above RX_Next_Reassembly, where there is a gap, but the gap test looks
at RX_Next_Highest, where there is none. -/
def gapUnseen (ent : RlcRxUmEntity) : Bool :=
  ent.st.rxNextHighest == (ent.st.rxNextReassembly + 1) % ent.mod &&
    hasGapAt ent.rxWindow ent.st.rxNextReassembly && !hasGapAt ent.rxWindow ent.st.rxNextHighest

/-- The event leaves such a gap behind, and the timer is not running or is stopped. -/
def overlooksGap (ent : RlcRxUmEntity) : Event → Bool
  | .pdu pdu =>
    match ent.acceptedSegment pdu with
    | some (header, payload) =>
      (ent.edgesAfter header payload).gapUnseen &&
        (!ent.reassemblyTimerRunning || (ent.edgesAfter header payload).mustStopTimer)
    | none => false
  | .reassemblyTimerExpired =>
    ent.reassemblyTimerRunning &&
      gapUnseen { ent with st := { ent.st with rxNextReassembly := ent.nextAfterExpiry } }

section Step
variable {ent ent' updated : RlcRxUmEntity} {next highest : Nat}

theorem RxUmInv.hasGapAt_of_misses (h : RxUmInv ent next highest) (hlt : next < highest)
    {info : RlcRxUmSduInfo} (hget : ent.rxWindow.get? ent.st.rxNextReassembly = some info)
    (hmisses : MissesByte info.segments) :
    hasGapAt ent.rxWindow (next % ent.mod) = true := by
  have hmissing := h.window.next_missing hlt
  rw [h.rxNextReassembly] at hget
  rw [fullyReceivedAt, hget] at hmissing
  rw [hasGapAt, hget]
  by_contra hgap
  exact (h.window.ok.infos _ _ hget).complete hmissing (by simpa using hgap) hmisses

theorem RxUmInv.gap_of_needsTimer (h : RxUmInv ent next highest)
    (hstart : ent.mustStartTimer = false) (hneeds : ent.NeedsTimer) :
    highest = next + 1 ∧ hasGapAt ent.rxWindow (next % ent.mod) = true ∧
      hasGapAt ent.rxWindow (highest % ent.mod) = false := by
  unfold mustStartTimer at hstart
  rw [Bool.or_eq_false_iff] at hstart
  rcases hneeds with habove | ⟨hsucc, info, hget, hmisses⟩
  · exact absurd habove (of_decide_eq_false hstart.1)
  · have hedge : highest = next + 1 := by
      refine highest_eq_succ h.window.next_le h.window.highest_le ?_
      rw [← h.rxNextHighest, hsucc, h.rxNextReassembly, succ_mod_mod]
    refine ⟨hedge, h.hasGapAt_of_misses (by omega) hget hmisses, ?_⟩
    have hbase : ent.rxModBase ent.st.rxNextHighest =
        ent.rxModBase (ent.st.rxNextReassembly + 1) := by
      rw [hsucc, rxModBase, rxModBase, rebase_mod ent.modulus]
    have hgap := hstart.2
    rw [hbase, beq_self_eq_true, Bool.true_and, h.rxNextHighest] at hgap
    exact hgap

theorem BufferUpdate.gapUnseen {header : RlcUmPduHeader} {payload : List UInt8}
    (h : BufferUpdate ent header payload updated next highest) (hedge : highest = next + 1)
    (hgap : hasGapAt updated.rxWindow (next % ent.mod) = true)
    (hnogap : hasGapAt updated.rxWindow (highest % ent.mod) = false) :
    (ent.edgesAfter header payload).gapUnseen = true := by
  have hnext := h.flags next (by omega) le_rfl (by omega)
  have hhighest := h.flags highest (by omega) (by omega) (by omega)
  rw [hasGapAt_of_flags hnext] at hgap
  rw [hasGapAt_of_flags hhighest] at hnogap
  rw [RlcRxUmEntity.gapUnseen]
  show (ent.highestAfter header payload == (ent.nextAfter header payload + 1) % ent.mod &&
    hasGapAt (ent.bufferAfter header payload) (ent.nextAfter header payload) &&
    !hasGapAt (ent.bufferAfter header payload) (ent.highestAfter header payload)) = true
  rw [← h.rxNextHighest, ← h.rxNextReassembly, hgap, hnogap, succ_mod_mod, ← hedge]
  simp

theorem ExpiryUpdate.gapUnseen (h : ExpiryUpdate ent updated next highest)
    (hnh : ent.st.rxNextHighest = highest % ent.mod) (hedge : highest = next + 1)
    (hgap : hasGapAt updated.rxWindow (next % ent.mod) = true)
    (hnogap : hasGapAt updated.rxWindow (highest % ent.mod) = false) :
    RlcRxUmEntity.gapUnseen
      { ent with st := { ent.st with rxNextReassembly := ent.nextAfterExpiry } } = true := by
  have hnext := h.flags next (by omega) le_rfl (by omega)
  have hhighest := h.flags highest (by omega) (by omega) (by omega)
  rw [hasGapAt_of_flags hnext] at hgap
  rw [hasGapAt_of_flags hhighest] at hnogap
  rw [RlcRxUmEntity.gapUnseen]
  show (ent.st.rxNextHighest == (ent.nextAfterExpiry + 1) % ent.mod &&
    hasGapAt ent.rxWindow ent.nextAfterExpiry &&
    !hasGapAt ent.rxWindow ent.st.rxNextHighest) = true
  rw [hnh, ← h.rxNextReassembly, hgap, hnogap, succ_mod_mod, ← hedge]
  simp

theorem RxUmInv.needsTimer_step (h : RxUmInv ent next highest)
    (hprev : ent.NeedsTimer → ent.reassemblyTimerRunning = true) {event : Event}
    (hguard : ent.overlooksGap event = false) {output : RxUmOutput}
    (hok : ent.step event = .ok (ent', output)) (hneeds : ent'.NeedsTimer) :
    ent'.reassemblyTimerRunning = true := by
  cases event with
  | pdu pdu =>
    change ent.handlePdu pdu = _ at hok
    cases hseg : ent.acceptedSegment pdu with
    | none =>
      obtain ⟨sdus, heq⟩ := handlePdu_discarded hseg
      rw [heq] at hok
      cases hok
      exact hprev hneeds
    | some segment =>
      obtain ⟨header, payload⟩ := segment
      obtain ⟨hsi, hsn⟩ := acceptedSegment_range hseg
      rw [handlePdu_accepted hseg] at hok
      obtain ⟨next', highest', updated, actions, -, -, -, hupdate, htimed⟩ :=
        h.receiveSegment hsi hsn hok
      have hinv := hupdate.inv h.trigger_lt
      have hrunning : updated.reassemblyTimerRunning = ent.reassemblyTimerRunning := by
        rw [hupdate.eq]
      rw [overlooksGap, hseg] at hguard
      rcases updateReassemblyTimer_cases htimed with ⟨hrun, -, rfl⟩ | ⟨hstopped, started, hstart⟩
      · exact hrun
      · rcases restartReassemblyTimer_cases hstart with ⟨-, -, rfl⟩ | ⟨hnot, -, rfl⟩
        · rfl
        · obtain ⟨hedge, hgap, hnogap⟩ := (hinv.setTimer false).gap_of_needsTimer hnot hneeds
          have hmod : updated.mod = ent.mod := by rw [hupdate.eq]; rfl
          have hunseen : (ent.edgesAfter header payload).gapUnseen = true := by
            refine hupdate.gapUnseen hedge ?_ ?_
            · rw [← hmod]
              exact hgap
            · rw [← hmod]
              exact hnogap
          simp only [hunseen, Bool.true_and, Bool.or_eq_false_iff, Bool.not_eq_false'] at hguard
          rw [hrunning, hupdate.mustStopTimer_eq] at hstopped
          rcases hstopped with hoff | hstop
          · rw [hguard.1] at hoff
            cases hoff
          · rw [hguard.2] at hstop
            cases hstop
  | reassemblyTimerExpired =>
    change ent.expireReassemblyTimer = _ at hok
    rw [expireReassemblyTimer] at hok
    split at hok
    · rename_i hrun
      obtain ⟨⟨timed, actions⟩, htimed, heq⟩ := bind_ok hok
      cases heq
      obtain ⟨next', -, hupdate⟩ := (h.setTimer false).cleanExpired
      have hinv := hupdate.inv h.rxNextHighest h.trigger_lt
      rcases restartReassemblyTimer_cases htimed with ⟨-, -, rfl⟩ | ⟨hnot, -, rfl⟩
      · rfl
      · obtain ⟨hedge, hgap, hnogap⟩ := hinv.gap_of_needsTimer hnot hneeds
        generalize hcleaned : (RlcRxUmEntity.cleanExpired { ent with reassemblyTimerRunning := false }).1 = cleaned
          at hupdate hgap hnogap
        have hmod : cleaned.mod = ent.mod := by rw [hupdate.eq]; rfl
        rw [hmod] at hgap hnogap
        have hunseen := hupdate.gapUnseen h.rxNextHighest hedge hgap hnogap
        rw [overlooksGap, hrun, Bool.true_and] at hguard
        exact absurd hunseen (ne_true_of_eq_false hguard)
    · cases hok
      exact hprev hneeds

end Step

variable {ent : RlcRxUmEntity}

theorem restartReassemblyTimer_ok (h : ent.cfg.tReassembly ≠ 0) :
    ∃ result, ent.restartReassemblyTimer = .ok result := by
  rw [restartReassemblyTimer, runReassemblyTimer, if_neg h]
  split
  · exact ⟨_, rfl⟩
  · exact ⟨_, rfl⟩

theorem updateReassemblyTimer_ok (h : ent.cfg.tReassembly ≠ 0) :
    ∃ result, ent.updateReassemblyTimer = .ok result := by
  have hstart : ∃ result, ent.stopReassemblyTimer.1.startReassemblyTimer = .ok result := by
    rw [startReassemblyTimer]
    split
    · exact ⟨_, rfl⟩
    · apply restartReassemblyTimer_ok
      rw [stopReassemblyTimer_fst]
      exact h
  obtain ⟨⟨started, actions⟩, hstarted⟩ := hstart
  rw [updateReassemblyTimer, hstarted]
  exact ⟨_, rfl⟩

/-- A configured timer can always be run, so no event fails an assertion. -/
theorem RxUmInv.step_ok {next highest : Nat} (h : RxUmInv ent next highest)
    (hcfg : ent.cfg.tReassembly ≠ 0) (event : Event) : ∃ result, ent.step event = .ok result := by
  cases event with
  | pdu pdu =>
    show ∃ result, ent.handlePdu pdu = .ok result
    cases hseg : ent.acceptedSegment pdu with
    | none =>
      obtain ⟨sdus, heq⟩ := handlePdu_discarded hseg
      exact ⟨_, heq⟩
    | some segment =>
      obtain ⟨header, payload⟩ := segment
      obtain ⟨hsi, hsn⟩ := acceptedSegment_range hseg
      obtain ⟨next', highest', -, -, -, hupdate⟩ := @RxUmInv.updateRxBuffer ent next highest header
        payload h hsi hsn
      have hcfg' : ((ent.handleSegmentDataSdu header payload).updateRxBuffer
          header.sn).1.cfg.tReassembly ≠ 0 := by
        rw [hupdate.cfg_eq]
        exact hcfg
      obtain ⟨⟨timed, actions⟩, htimed⟩ := updateReassemblyTimer_ok hcfg'
      rw [handlePdu_accepted hseg, RlcRxUmEntity.receiveSegment, htimed]
      exact ⟨_, rfl⟩
  | reassemblyTimerExpired =>
    show ∃ result, ent.expireReassemblyTimer = .ok result
    rw [expireReassemblyTimer]
    split
    · obtain ⟨next', -, hupdate⟩ := (h.setTimer false).cleanExpired
      have hcfg' : (RlcRxUmEntity.cleanExpired
          { ent with reassemblyTimerRunning := false }).1.cfg.tReassembly ≠ 0 := by
        rw [hupdate.cfg_eq]
        exact hcfg
      obtain ⟨⟨timed, actions⟩, htimed⟩ := restartReassemblyTimer_ok hcfg'
      rw [onExpiredReassemblyTimer, htimed]
      exact ⟨_, rfl⟩
    · exact ⟨_, rfl⟩

theorem RxUmInv.rxModBase_succ {next highest : Nat} (h : RxUmInv ent next highest) :
    ent.rxModBase (ent.st.rxNextReassembly + 1) =
      next + 1 - (highest - ent.umWindowSize) := by
  have hw := ent.two_le_umWindowSize
  have hle := h.window.next_le
  have hle' := h.window.highest_le
  rw [← rxModBase_lift h.rxNextHighest h.window.turn (by omega : highest - ent.umWindowSize ≤ next + 1)
    (by omega), h.rxNextReassembly, ← succ_mod_mod, rxModBase, rxModBase, rebase_mod ent.modulus]

theorem create_not_needsTimer (cfg : RlcRxUmConfig) : ¬ (create cfg).NeedsTimer := by
  have hinv := create_inv cfg
  have hm := (create cfg).mod_eq
  rintro (habove | ⟨-, info, hget, -⟩)
  · rw [rxModBase_highest hinv.rxNextHighest hinv.window.turn, hinv.rxModBase_succ] at habove
    omega
  · cases hget

/-- In every run whose events overlook no gap, t-Reassembly runs whenever it is needed. -/
theorem rxUm_timerCondition {cfg : RlcRxUmConfig} (hcfg : cfg.tReassembly ≠ 0) {ent : RlcRxUmEntity}
    (h : Runs.Reaches next (fun ent event => ent.overlooksGap event = false) (create cfg) ent) :
    (ent.NeedsTimer → ent.reassemblyTimerRunning = true) ∧
      ∀ event, ∃ result, ent.step event = .ok result := by
  have hreached : ent.cfg = cfg ∧ (∃ next highest, RxUmInv ent next highest) ∧
      (ent.NeedsTimer → ent.reassemblyTimerRunning = true) := by
    induction h with
    | start =>
      exact ⟨rfl, ⟨_, _, create_inv cfg⟩, fun hneeds => absurd hneeds (create_not_needsTimer cfg)⟩
    | next _ hguard hstep ih =>
      obtain ⟨hsame, ⟨n, highest, hinv⟩, hprev⟩ := ih
      obtain ⟨output, hok⟩ := next_eq_some hstep
      obtain ⟨hcfg', n', highest', -, -, hinv'⟩ := hinv.step hok
      exact ⟨hcfg'.trans hsame, ⟨n', highest', hinv'⟩, hinv.needsTimer_step hprev hguard hok⟩
  obtain ⟨hsame, ⟨n, highest, hinv⟩, hneeds⟩ := hreached
  refine ⟨hneeds, hinv.step_ok ?_⟩
  rw [hsame]
  exact hcfg

def sampleUmConfig : RlcRxUmConfig := { snFieldLength := .size6bits, tReassembly := 35 }

/-- The first segment of SN 1 leaves SN 0 open, and the timer is started. -/
theorem rxUm_timerCondition_openSn : ∃ ent,
    Runs.Reaches next (fun ent event => ent.overlooksGap event = false) (create sampleUmConfig) ent ∧
      ent.NeedsTimer ∧ ent.reassemblyTimerRunning = true := by
  have hstep : ((create sampleUmConfig).next (.pdu [0x41, 0x01])).map
      (fun ent => decide (ent.rxModBase ent.st.rxNextHighest >
        ent.rxModBase (ent.st.rxNextReassembly + 1))) = some true := by decide +kernel
  obtain ⟨ent, hnext, habove⟩ := Option.map_eq_some_iff.mp hstep
  have hreach : Runs.Reaches next (fun ent event => ent.overlooksGap event = false)
      (create sampleUmConfig) ent :=
    .next .start (by decide +kernel) hnext
  have hneeds : ent.NeedsTimer := .inl (of_decide_eq_true habove)
  exact ⟨ent, hreach, hneeds, (rxUm_timerCondition (by decide) hreach).1 hneeds⟩

def lastSegmentInfo : RlcRxUmSduInfo :=
  { hasGap := true, segments := [{ si := .lastSegment, so := 10, payload := [1] }] }

/-- The last segment of SN 0 alone leaves a gap with no timer to release it. -/
theorem rxUm_lastSegment_noTimer : ∃ ent,
    Runs.Reaches next (fun _ _ => True) (create sampleUmConfig) ent ∧
      ent.NeedsTimer ∧ ent.reassemblyTimerRunning = false := by
  have hstep : ((create sampleUmConfig).next (.pdu [0x80, 0x00, 0x0a, 0x01])).map
      (fun ent => (ent.rxWindow.get? 0, ent.st, ent.cfg, ent.reassemblyTimerRunning)) =
      some (some lastSegmentInfo,
        { rxNextReassembly := 0, rxTimerTrigger := 0, rxNextHighest := 1 }, sampleUmConfig, false) := by
    decide +kernel
  obtain ⟨ent, hnext, hobs⟩ := Option.map_eq_some_iff.mp hstep
  simp only [Prod.mk.injEq] at hobs
  obtain ⟨hget, hst, hcfg, hrunning⟩ := hobs
  refine ⟨ent, .next .start trivial hnext, .inr ⟨?_, lastSegmentInfo, ?_, ?_⟩, hrunning⟩
  · rw [hst, mod, hcfg]
    decide
  · rw [hst]
    exact hget
  · refine ⟨0, 10, by decide, ?_, ?_⟩
    · rintro ⟨segm, hmem, hlow, -⟩
      rw [List.mem_singleton.mp hmem] at hlow
      exact absurd hlow (by decide)
    · exact ⟨_, List.mem_singleton.mpr rfl, by decide, by decide⟩

end RlcRxUmEntity
end Srsran.Rlc
