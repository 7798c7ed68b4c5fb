import Srsran.Phy.UplinkCompletion

/-! Runs of the uplink processor: as long as every step is orderly, no assertion fails, the word counts
what is outstanding, and an idle processor has completed every PDU once. -/
namespace Srsran.Phy
open UplinkProcessorFsm
namespace UplinkProcessor

variable {s s' : UplinkProcessor}

theorem Inv.start : Inv {} where
  ok := rfl
  symbols := Nat.zero_le _
  once := .refl _
  word := .inr ⟨rfl, Nat.two_pow_pos 12⟩
  procedure := trivial
  adding := nofun

theorem Inv.startDiscard_of_orderly (h : s.Inv) {forNewSlot : Bool}
    (horderly : ((startDiscardSlot s.pendingPduCount).isNone ||
      !isStateAcceptingPdu s.pendingPduCount) = true) : (s.startDiscard forNewSlot).Inv :=
  h.startDiscard (by simpa using horderly)

variable {pdu : RepositoryEntry} {pdus : List RepositoryEntry}

theorem Inv.createPduTask_rxSymbol (h : s.Inv) {endProcessedSymbol : Nat}
    (hprocedure : s.procedure = .rxSymbol (pdu :: pdus) none endProcessedSymbol) :
    (s.createPduTask pdu fun created => .rxSymbol pdus created endProcessedSymbol).Inv := by
  have hok := h.procedure
  rw [ProcedureOk, hprocedure] at hok
  obtain ⟨hlt, hend, hskipped⟩ := hok
  refine h.createPduTask (by rw [hprocedure]; exact Procedure.noConfusion) Procedure.noConfusion
    (by simp [inExec, created, hprocedure]) (by simp [created, hprocedure]) ?_ rfl
    (by simp [waiting, unseen, hprocedure]) ⟨hlt, hend, ?_⟩
  · simp [inExec, created, Nat.add_comm]
  · intro hslot
    exact absurd (hskipped hslot).1 (List.cons_ne_nil _ _)

theorem Inv.createPduTask_invalidSymbol (h : s.Inv)
    (hprocedure : s.procedure = .invalidSymbol (pdu :: pdus) none) :
    (s.createPduTask pdu fun created => .invalidSymbol pdus created).Inv := by
  have hok := h.procedure
  rw [ProcedureOk, hprocedure] at hok
  refine h.createPduTask (by rw [hprocedure]; exact Procedure.noConfusion) Procedure.noConfusion
    (by simp [inExec, created, hprocedure]) (by simp [created, hprocedure]) ?_ rfl
    (by simp [waiting, hprocedure]) hok
  simp [inExec, created, Nat.add_comm]

/-- The PDU that a visit of the repository has created no task for is completed by the visit. -/
theorem Inv.discard (h : s.Inv) {visit : Option RepositoryEntry → Procedure} {endProcessedSymbol : Nat}
    (hvisit : visit = (.rxSymbol pdus · endProcessedSymbol) ∨ visit = (.invalidSymbol pdus ·))
    (hprocedure : s.procedure = visit (some pdu)) :
    ((s.complete pdu).proceed s.tasks (visit none)).Inv := by
  have hok := h.procedure
  rw [ProcedureOk, hprocedure] at hok
  rcases hvisit with rfl | rfl
  all_goals
    have hne : s.procedure ≠ .none := by rw [hprocedure]; exact Procedure.noConfusion
    refine h.finish (h.held_eq hne) ?_ ?_ ?_ hok (h.packed hne)
    · simp [isLocked, hprocedure]
    · simp [inExec, created, hprocedure, Nat.add_comm]
    · simp only [outstanding, waiting, unseen, created, hprocedure, Option.toList_some, Option.toList_none,
        List.append_nil]
      rw [List.append_assoc _ [pdu]]
      exact List.perm_middle

theorem step_inv {event : UplinkEvent} (h : s.Inv) (horderly : s.orderly event = true)
    (hstep : s.step event = some s') : s'.Inv := by
  have hok : ¬ s.assertionFailed = true := by
    rw [h.ok]
    exact Bool.false_ne_true
  rw [step.eq_def, if_neg hok] at hstep
  cases event <;> dsimp only at hstep
  case getPduSlotRepository =>
    split at hstep <;> cases hstep
    · exact h.calls _ s.discardedCalls s.gridRefCounter s.slotProcessorHeld
    · exact h
  case discardForNewSlot =>
    split at hstep
    · cases hstep
    · cases hstep
      exact (h.calls _ s.discardedCalls s.gridRefCounter
        s.slotProcessorHeld).startDiscard_of_orderly horderly
  case startNewSlot slot =>
    split at hstep
    · cases hstep
    · cases hstep
      exact h.startNewSlot slot
  case addPdu kind endSymbolIndex =>
    split at hstep
    · rename_i hadd
      cases hstep
      exact h.addPdu hadd.1 hadd.2 (by simpa only [orderly, Bool.or_eq_true, decide_eq_true_eq] using horderly)
    · cases hstep
  case finishAddingPdus =>
    split at hstep
    · rename_i hheld
      cases hstep
      exact h.finishAddingPdus hheld
    · cases hstep
  case releaseGrid =>
    cases hstep
    exact h.calls s.checkedCalls s.discardedCalls _ s.slotProcessorHeld
  case getSlotProcessor slot =>
    split at hstep <;> cases hstep
    · exact h.calls s.checkedCalls s.discardedCalls s.gridRefCounter _
    · exact h
  case discardSlot =>
    split at hstep
    · cases hstep
      exact h.startDiscard_of_orderly horderly
    · cases hstep
  case handleRxSymbol endSymbolIndex isValid =>
    split at hstep
    · cases hstep
      exact h.handleRxSymbol (by simpa [orderly] using horderly)
    · cases hstep
  case createPduTask =>
    split at hstep
    · rename_i hprocedure
      cases hstep
      exact h.createPduTask_rxSymbol hprocedure
    · rename_i hprocedure
      cases hstep
      exact h.createPduTask_invalidSymbol hprocedure
    · cases hstep
  case concludePdu enqueued =>
    split at hstep
    · rename_i hprocedure
      split at hstep <;> obtain rfl := Option.some.inj hstep
      · exact h.enqueue hprocedure
      · exact h.discard (.inl rfl) hprocedure
    · rename_i hprocedure
      split at hstep
      · cases hstep
      · obtain rfl := Option.some.inj hstep
        exact @Inv.discard _ _ _ h _ 0 (.inr rfl) hprocedure
    · cases hstep
  case nextSymbol =>
    split at hstep
    · rename_i hprocedure
      cases hstep
      exact h.nextSymbol hprocedure
    · rename_i hprocedure
      cases hstep
      exact h.endInvalidSymbol hprocedure
    · cases hstep
  case finishHandleRxSymbol =>
    split at hstep
    · rename_i hprocedure
      cases hstep
      exact h.finishHandleRxSymbol hprocedure
    · cases hstep
  case discardPdu =>
    split at hstep
    · rename_i hprocedure
      obtain rfl := Option.some.inj hstep
      exact h.discardPdu hprocedure
    · cases hstep
  case finishDiscardSlot =>
    split at hstep
    · rename_i hprocedure
      cases hstep
      exact h.finishDiscardSlot hprocedure
    · cases hstep
  case completeTask index =>
    split at hstep
    · cases hstep
    · rename_i htask
      obtain rfl := Option.some.inj hstep
      exact h.completeTask htask
  case stop =>
    split at hstep <;> cases hstep
    · exact h
    · rename_i hstop
      exact h.stop hstop

theorem reaches_inv (h : Runs.Reaches step (fun s event => s.orderly event = true) {} s) : s.Inv :=
  h.invariant .start fun _ _ _ hinv horderly hstep => step_inv hinv horderly hstep

/-- No assertion has failed; unless stopped, the word has in its fields how many counted PDUs are not
completed and, outside of a discard, how many of these have a task; no PDU is completed twice; and an
idle processor has no task and has completed every PDU. -/
structure Sound (s : UplinkProcessor) : Prop where
  assertions : s.assertionFailed = false
  counters : s.pendingPduCount = pendingPduCountStopped ∨ ∃ accepting locked exec,
    s.pendingPduCount = pack accepting locked exec (s.nofCounted - s.completions.length) ∧
      s.nofCounted - s.completions.length < 2 ^ 12 ∧ exec ≤ s.nofCounted - s.completions.length ∧
      ((∀ pdus forNewSlot, s.procedure ≠ .discardSlot pdus forNewSlot) →
        exec = s.created.length + s.tasks.length)
  atMostOnce : s.completions.Nodup
  counted : ∀ id ∈ s.completions, id < s.nofCounted
  idle : isStateIdle s.pendingPduCount = true →
    s.tasks = [] ∧ s.created = [] ∧ ∀ id < s.nofCounted, id ∈ s.completions

theorem Inv.sound (h : s.Inv) : s.Sound where
  assertions := h.ok
  counters := by
    have hlength := h.once.length_eq
    rw [List.length_append, List.length_map, List.length_range] at hlength
    refine h.word.imp Stopped.word fun hpacked => ?_
    have hqueue : s.nofCounted - s.completions.length = s.outstanding.length := by omega
    rw [hqueue]
    refine ⟨_, _, _, hpacked.word, hpacked.lt, inExec_le s, fun hnoDiscard => ?_⟩
    rw [inExec]
    split
    · rename_i hprocedure
      exact absurd hprocedure (hnoDiscard _ _)
    · rfl
  atMostOnce := (h.once.nodup_iff.mpr List.nodup_range).of_append_right
  counted := by
    intro id hid
    exact List.mem_range.mp (h.once.mem_iff.mp (List.mem_append_right _ hid))
  idle := by
    intro hidle
    have hpacked := h.word.resolve_left fun hstopped => by
      rw [hstopped.word] at hidle
      exact absurd hidle (by decide)
    rw [hpacked.word, isStateIdle_pack] at hidle
    simp only [Bool.and_eq_true, decide_eq_true_eq] at hidle
    have houtstanding : s.outstanding = [] := List.length_eq_zero_iff.mp hidle.2
    have honce := h.once
    rw [houtstanding] at honce
    rw [outstanding, List.append_eq_nil_iff, List.append_eq_nil_iff] at houtstanding
    exact ⟨houtstanding.2, houtstanding.1.2, fun id hid => honce.mem_iff.mpr (List.mem_range.mpr hid)⟩

/-- In a run of orderly steps every state is sound. -/
theorem uplinkProcessor_completions
    (h : Runs.Reaches step (fun s event => s.orderly event = true) {} s) : s.Sound :=
  (reaches_inv h).sound

/-- A slot with two PDUs, one of them in execution when an invalid symbol discards the other. -/
def invalidSymbolEvents : List UplinkEvent :=
  [.getPduSlotRepository, .discardForNewSlot, .startNewSlot 7, .addPdu .pusch 0, .addPdu .pusch 2,
    .finishAddingPdus, .getSlotProcessor 7,
    .handleRxSymbol 0 true, .createPduTask, .concludePdu true, .nextSymbol, .finishHandleRxSymbol,
    .handleRxSymbol 1 false, .createPduTask, .concludePdu false, .nextSymbol, .finishHandleRxSymbol]

theorem uplinkProcessor_completions_invalidSymbol :
    ∃ s, Runs.Reaches step (fun s event => s.orderly event = true) {} s ∧
      s.completions = [1, 0] ∧ s.pendingPduCount = pendingPduCountIdle ∧ s.Sound := by
  have hrun : (Runs.runAll (Runs.guarded step fun s event => s.orderly event = true) {}
      (invalidSymbolEvents ++ [.completeTask 0])).map (fun s => (s.completions, s.pendingPduCount)) =
        some ([1, 0], 0) := by decide +kernel
  obtain ⟨s, hrun, hobserved⟩ := Option.map_eq_some_iff.mp hrun
  have hreaches : Runs.Reaches step (fun s event => s.orderly event = true) {} s :=
    Runs.reaches_of_runGuarded .start hrun
  exact ⟨s, hreaches, congrArg Prod.fst hobserved, congrArg Prod.snd hobserved,
    uplinkProcessor_completions hreaches⟩

/-- The next symbol completes the discarded PDU again. -/
theorem uplinkProcessor_completedTwice :
    ∃ s, Runs.Reaches step (fun _ _ => True) {} s ∧ ¬ s.Sound := by
  have hrun : (Runs.runAll step {} (invalidSymbolEvents ++
      [.handleRxSymbol 2 true, .nextSymbol, .createPduTask, .concludePdu false])).map (·.completions) =
        some [1, 1] := by decide +kernel
  obtain ⟨s, hrun, hcompletions⟩ := Option.map_eq_some_iff.mp hrun
  have hreaches : Runs.Reaches step (fun _ _ => True) {} s :=
    Runs.reaches_of_runAll .start (fun _ _ _ => trivial) hrun
  refine ⟨s, hreaches, fun hsound => ?_⟩
  have honce := hsound.atMostOnce
  rw [hcompletions] at honce
  exact absurd honce (by decide)

end UplinkProcessor

end Srsran.Phy
