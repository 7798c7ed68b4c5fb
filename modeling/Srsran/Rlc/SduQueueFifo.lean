import Srsran.Rlc.SduQueueLockfree

/-! The queue towards the transmitter as one thread sees it while nothing is discarded: SDUs come
out in the order in which they were accepted. -/
namespace Srsran.Rlc
namespace RlcSduQueue

/-- Every SDU with a PDCP SN holds its slot, and no two SDUs share one. -/
structure Fifo (q : RlcSduQueue) : Prop where
  held : ∀ sdu ∈ q.queue, ∀ pdcpSn, sdu.pdcpSn = some pdcpSn →
    q.sduStates (q.slot pdcpSn) = pdcpSn ∧ SduQueueThreads.validPdcpSn pdcpSn
  distinct : q.queue.Pairwise fun a b => ∀ p p', a.pdcpSn = some p → b.pdcpSn = some p' →
    q.slot p ≠ q.slot p'

theorem fifo_create (cfg : RlcSduQueueConfig) : Fifo { cfg } :=
  ⟨fun _ hmem => absurd hmem List.not_mem_nil, List.Pairwise.nil⟩

variable {q : RlcSduQueue} {sdu : RlcSdu} {pdcpSn : Nat}

theorem stateFree_not_valid : ¬ SduQueueThreads.validPdcpSn stateFree := by
  rw [SduQueueThreads.validPdcpSn]
  decide

/-- Only the side table has changed, and not at the slots of queued SDUs. -/
theorem Fifo.of_table (h : Fifo q) {q' : RlcSduQueue} (hcfg : q'.cfg = q.cfg)
    (hqueue : q'.queue = q.queue)
    (hstates : ∀ sdu ∈ q.queue, ∀ p, sdu.pdcpSn = some p →
      q'.sduStates (q.slot p) = q.sduStates (q.slot p)) : Fifo q' := by
  have hslot : ∀ p, q'.slot p = q.slot p := by
    intro p
    rw [slot, slot, hcfg]
  refine ⟨?_, ?_⟩
  · intro sdu hmem p hp
    rw [hqueue] at hmem
    rw [hslot, hstates sdu hmem p hp]
    exact h.held sdu hmem p hp
  · rw [hqueue]
    refine h.distinct.imp ?_
    intro a b hab p p' hp hp'
    rw [hslot, hslot]
    exact hab p p' hp hp'

theorem Fifo.slot_ne_of_free (h : Fifo q) (hfree : q.sduStates (q.slot pdcpSn) = stateFree)
    (hmem : sdu ∈ q.queue) {p : Nat} (hp : sdu.pdcpSn = some p) : q.slot p ≠ q.slot pdcpSn := by
  intro heq
  obtain ⟨hstate, hvalid⟩ := h.held sdu hmem p hp
  rw [heq, hfree] at hstate
  rw [← hstate] at hvalid
  exact stateFree_not_valid hvalid

theorem Fifo.append (h : Fifo q) (hheld : ∀ p, sdu.pdcpSn = some p →
      q.sduStates (q.slot p) = p ∧ SduQueueThreads.validPdcpSn p)
    (hother : ∀ other ∈ q.queue, ∀ p p', other.pdcpSn = some p → sdu.pdcpSn = some p' →
      q.slot p ≠ q.slot p') : Fifo (q.push sdu) := by
  refine ⟨?_, ?_⟩
  · intro other hmem p hp
    rcases List.mem_append.mp hmem with hold | hnew
    · exact h.held other hold p hp
    · rw [List.mem_singleton.mp hnew] at hp
      exact hheld p hp
  · apply List.pairwise_append.mpr
    refine ⟨h.distinct, List.pairwise_singleton _ _, ?_⟩
    intro other hmem new hnew p p' hp hp'
    rw [List.mem_singleton.mp hnew] at hp'
    exact hother other hmem p p' hp hp'

theorem Fifo.stateAdd (h : Fifo q) (n : Nat) : Fifo (q.stateAdd n) :=
  h.of_table rfl rfl fun _ _ _ _ => rfl

theorem sduStates_storeState (q : RlcSduQueue) (p state idx : Nat) :
    (q.storeState p state).sduStates idx = if idx = q.slot p then state else q.sduStates idx := by
  exact Function.update_apply q.sduStates (q.slot p) state idx

/-- An accepted SDU is the last of the queue; a rejected one leaves the queue as it was. -/
structure Written (q : RlcSduQueue) (sdu : RlcSdu) (result : RlcSduQueue × Bool) : Prop where
  fifo : Fifo result.1
  queue : result.1.queue = q.queue ++ if result.2 then [sdu] else []

theorem Fifo.write (h : Fifo q)
    (hvalid : ∀ p, sdu.pdcpSn = some p → SduQueueThreads.validPdcpSn p) :
    Written q sdu (q.write sdu) := by
  rw [RlcSduQueue.write]
  by_cases hlimit : q.withinLimit sdu = true
  · rw [if_neg (by simp [hlimit])]
    cases hsn : sdu.pdcpSn with
    | none =>
      dsimp only
      by_cases hfull : q.isFull = true
      · rw [if_pos hfull]
        exact ⟨h, (List.append_nil _).symm⟩
      · rw [if_neg hfull]
        refine ⟨Fifo.stateAdd (h.append ?_ ?_) _, rfl⟩
        · intro p hp
          rw [hsn] at hp
          cases hp
        · intro other _ p p' _ hp'
          rw [hsn] at hp'
          cases hp'
    | some p =>
      dsimp only
      by_cases hfree : q.sduStates (q.slot p) = stateFree
      · rw [if_neg (not_not.mpr hfree)]
        have hallocated : Fifo (q.allocateSlot p sdu.buf.length) := by
          refine h.of_table rfl rfl ?_
          intro other hmem p' hp'
          exact (sduStates_storeState _ _ _ _).trans (if_neg (h.slot_ne_of_free hfree hmem hp'))
        by_cases hfull : q.isFull = true
        · rw [if_pos hfull]
          refine ⟨?_, (List.append_nil _).symm⟩
          refine hallocated.of_table rfl rfl ?_
          intro other hmem p' hp'
          exact (sduStates_storeState _ _ _ _).trans (if_neg (h.slot_ne_of_free hfree hmem hp'))
        · rw [if_neg hfull]
          refine ⟨Fifo.stateAdd (hallocated.append ?_ ?_) _, rfl⟩
          · intro p' hp'
            rw [hsn] at hp'
            cases hp'
            refine ⟨?_, hvalid p hsn⟩
            exact (sduStates_storeState _ _ _ _).trans (if_pos rfl)
          · intro other hmem p' p'' hp' hp''
            rw [hsn] at hp''
            cases hp''
            exact h.slot_ne_of_free hfree hmem hp'
      · rw [if_pos hfree]
        exact ⟨h, (List.append_nil _).symm⟩
  · rw [if_pos (by simpa using hlimit)]
    exact ⟨h, (List.append_nil _).symm⟩

theorem Fifo.read (h : Fifo q) {rest : List RlcSdu} (hqueue : q.queue = sdu :: rest) :
    ∃ q', q.read = (q', some sdu) ∧ Fifo q' ∧ q'.queue = rest := by
  have hrest : ∀ other ∈ rest, other ∈ q.queue := by
    intro other hmem
    rw [hqueue]
    exact List.mem_cons_of_mem sdu hmem
  have hmem : sdu ∈ q.queue := by
    rw [hqueue]
    exact List.mem_cons_self
  have hdistinct := h.distinct
  rw [hqueue, List.pairwise_cons] at hdistinct
  have hpopped : Fifo { q with queue := rest } := by
    refine ⟨fun other hother => h.held other (hrest other hother), hdistinct.2⟩
  have hfront : (readFront { q with queue := rest } sdu).2 = true ∧
      Fifo (readFront { q with queue := rest } sdu).1 := by
    cases hsn : sdu.pdcpSn with
    | none =>
      rw [readFront, hsn]
      exact ⟨rfl, hpopped.of_table rfl rfl fun _ _ _ _ => rfl⟩
    | some p =>
      obtain ⟨hstate, hvalid⟩ := h.held sdu hmem p hsn
      have hlive : ¬ (q.sduStates (q.slot p) = stateDiscarded ∧ stateDiscarded ≠ p) := by
        intro hdiscarded
        exact hdiscarded.2 (hdiscarded.1.symm.trans hstate)
      have hreleased : (readFront { q with queue := rest } sdu) =
          ((storeState { q with queue := rest } p stateFree).stateSub
            (q.sduSizes (q.slot p)), decide (q.sduStates (q.slot p) = p)) := by
        rw [readFront, hsn]
        exact if_neg hlive
      rw [hreleased]
      refine ⟨decide_eq_true hstate, hpopped.of_table rfl rfl ?_⟩
      intro other hother p' hp'
      apply (sduStates_storeState { q with queue := rest } p stateFree _).trans
      exact if_neg (hdistinct.1 other hother p p' hsn hp').symm
  refine ⟨(readFront { q with queue := rest } sdu).1, ?_, hfront.2, queue_readFront _ _⟩
  rw [read_cons hqueue, if_pos hfront.1]

end RlcSduQueue
end Srsran.Rlc
