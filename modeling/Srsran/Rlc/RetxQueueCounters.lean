import Srsran.Rlc.RetxQueue

/-! The counters of the retransmission queue against the entries that it holds (`rlc_retx_queue.h`). -/
namespace Srsran.Rlc.RlcRetxQueue
open RlcRetxQueueItem

def clear (q : RlcRetxQueue) : RlcRetxQueue := { capacity := q.capacity }

def Matches (sn : Nat) (item : RlcRetxQueueItem) : Bool := !item.invalid && item.retx.sn == sn

/-- The loop of `remove_sn`, with the items before and from the iterator. The iterator stays where an item is
invalidated. -/
def removeSnLoop (sn : Nat) : Nat → List RlcRetxQueueItem → List RlcRetxQueueItem → RlcRetxQueueState → Bool →
    Option (List RlcRetxQueueItem × RlcRetxQueueState × Bool)
  | 0, _, _, _, _ => none
  | _ + 1, before, [], st, result => some (before, st, result)
  | fuel + 1, before, item :: rest, st, result =>
    if Matches sn item then
      removeSnLoop sn fuel before ({ item with invalid := true } :: rest) (st.subtract item.retx) true
    else removeSnLoop sn fuel (before ++ [item]) rest st result

/-- `remove_sn`; there is no result if the loop does not end within the turns. -/
def removeSn (q : RlcRetxQueue) (sn : Nat) : Option (RlcRetxQueue × Bool) :=
  if q.empty then some (q, false)
  else
    match removeSnLoop sn (2 * q.size + 1) [] q.queue q.st false with
    | none => none
    | some (queue, st, result) => some (cleanInvalidFront { q with queue, st }, result)

inductive Op where
  | tryPush (retx : RlcTxAmdRetx)
  | pop
  | replaceFront (retx : RlcTxAmdRetx)
  | removeSn (sn : Nat)
  | clear

/-- There is no next state where an assertion fails or a loop does not end. -/
def Op.apply (q : RlcRetxQueue) : Op → Option RlcRetxQueue
  | .tryPush retx => some (q.tryPush retx).1
  | .pop => some q.pop
  | .replaceFront retx => if q.front?.isSome then some (q.replaceFront retx) else none
  | .removeSn sn => (q.removeSn sn).map Prod.fst
  | .clear => some q.clear

/-- The retransmissions of the valid entries. -/
def retxs (q : RlcRetxQueue) : List RlcTxAmdRetx := (q.queue.filter (!·.invalid)).map retx

/-- The sums over retransmissions. -/
def totals (retxs : List RlcTxAmdRetx) : RlcRetxQueueState where
  retxBytes := (retxs.map RlcTxAmdRetx.length).sum
  nRetxSoZero := retxs.countP (·.so = 0)
  nRetxSoNonzero := retxs.countP (·.so ≠ 0)

/-- A queue whose counters tell what it holds. -/
structure Accurate (q : RlcRetxQueue) : Prop where
  st_eq : q.st = totals q.retxs
  front_valid : ∀ item ∈ q.queue.head?, item.invalid = false
  size_le : q.size ≤ q.capacity

/-- The states of the runs in which the payload of the valid entries fits in the 32 bits of its counter. -/
inductive Reached (capacity : Nat) : RlcRetxQueue → Prop where
  | init : Reached capacity { capacity }
  | step {q q' : RlcRetxQueue} {op : Op} (h : Reached capacity q) (hop : op.apply q = some q')
      (hfits : (q'.retxs.map RlcTxAmdRetx.length).sum < 2 ^ 32) : Reached capacity q'

section
variable {q q' : RlcRetxQueue} {retx : RlcTxAmdRetx} {items rest : List RlcRetxQueueItem} {sn : Nat}

/-- The entries that `remove_sn` leaves, before the front is cleaned. -/
def invalidate (sn : Nat) (item : RlcRetxQueueItem) : RlcRetxQueueItem :=
  if Matches sn item then { item with invalid := true } else item

theorem add_totals {retxs : List RlcTxAmdRetx} (hsum : (retxs.map RlcTxAmdRetx.length).sum + retx.length < 2 ^ 32)
    (hlen : retxs.length + 1 < 2 ^ 32) : (totals retxs).add retx = totals (retx :: retxs) := by
  have hzero : retxs.countP (·.so = 0) ≤ retxs.length := List.countP_le_length
  have hnonzero : retxs.countP (·.so ≠ 0) ≤ retxs.length := List.countP_le_length
  simp only [RlcRetxQueueState.add, totals, List.map_cons, List.sum_cons, List.countP_cons, RlcRetxQueueState.mk.injEq]
  by_cases hso : retx.so = 0 <;> simp only [hso, decide_true, decide_false, ne_eq, not_true, not_false_eq_true,
    if_true, if_false, Bool.false_eq_true] at * <;> omega

theorem totals_perm {l l' : List RlcTxAmdRetx} (h : l.Perm l') : totals l = totals l' := by
  rw [totals, totals, (h.map _).sum_nat, h.countP_eq, h.countP_eq]

theorem subtract_totals (retx : RlcTxAmdRetx) (l : List RlcTxAmdRetx) :
    (totals (retx :: l)).subtract retx = totals l := by
  by_cases hso : retx.so = 0 <;> simp [RlcRetxQueueState.subtract, totals, hso]

theorem accurate_cleanInvalidFront (hst : q.st = totals q.retxs) (hsize : q.size ≤ q.capacity) :
    q.cleanInvalidFront.Accurate ∧ q.cleanInvalidFront.retxs = q.retxs := by
  have hretxs : q.cleanInvalidFront.retxs = q.retxs := by
    rw [retxs, retxs, cleanInvalidFront]
    dsimp only
    induction q.queue with
    | nil => rfl
    | cons item rest ih => cases hinvalid : item.invalid <;> simp [hinvalid, ih]
  refine ⟨⟨?_, ?_, ?_⟩, hretxs⟩
  · rw [hretxs]
    exact hst
  · intro item hitem
    have hnot := List.head?_dropWhile_not invalid q.queue
    rw [show (q.queue.dropWhile invalid).head? = some item from hitem] at hnot
    simpa using hnot
  · exact (List.dropWhile_sublist _).length_le.trans hsize

theorem Accurate.tryPush (h : q.Accurate) (hcapacity : q.capacity < 2 ^ 32)
    (hfits : ((q.tryPush retx).1.retxs.map RlcTxAmdRetx.length).sum < 2 ^ 32) : (q.tryPush retx).1.Accurate := by
  rw [RlcRetxQueue.tryPush] at *
  split
  · next hroom =>
    rw [if_pos hroom] at hfits
    have hretxs : retxs { q with queue := q.queue ++ [{ retx }], st := q.st.add retx } = q.retxs ++ [retx] := by
      simp [retxs]
    have hlen : q.retxs.length ≤ q.queue.length := by
      rw [retxs, List.length_map]
      exact List.length_filter_le _ _
    rw [hretxs, List.map_append, List.sum_append] at hfits
    refine ⟨?_, ?_, ?_⟩
    · rw [hretxs, h.st_eq, add_totals (by simpa using hfits) (by omega)]
      exact totals_perm (List.perm_append_singleton retx q.retxs).symm
    · intro item hitem
      cases hqueue : q.queue with
      | nil =>
        rw [hqueue] at hitem
        cases hitem
        rfl
      | cons first rest =>
        rw [hqueue] at hitem
        exact h.front_valid item (by rw [hqueue]; exact hitem)
    · rwa [size, List.length_append]
  · exact h

theorem Accurate.queue_cons {item : RlcRetxQueueItem} (h : q.Accurate) (hqueue : q.queue = item :: rest) :
    item.invalid = false ∧ q.retxs = item.retx :: (rest.filter (!·.invalid)).map RlcRetxQueueItem.retx := by
  have hvalid : item.invalid = false := h.front_valid item (by rw [hqueue]; rfl)
  rw [retxs, hqueue]
  simp [hvalid]

theorem Accurate.pop (h : q.Accurate) : q.pop.Accurate := by
  have hst := h.st_eq
  have hsize := h.size_le
  rw [RlcRetxQueue.pop]
  split
  · exact h
  · next item rest hqueue =>
    rw [(h.queue_cons hqueue).2] at hst
    rw [size, hqueue, List.length_cons] at hsize
    have hleft : ({ q with queue := rest, st := q.st.subtract item.retx } : RlcRetxQueue).size ≤ q.capacity :=
      Nat.le_of_succ_le hsize
    refine (accurate_cleanInvalidFront ?_ hleft).1
    rw [hst, subtract_totals]
    rfl

theorem Accurate.replaceFront (h : q.Accurate) (hcapacity : q.capacity < 2 ^ 32)
    (hfits : ((q.replaceFront retx).retxs.map RlcTxAmdRetx.length).sum < 2 ^ 32) : (q.replaceFront retx).Accurate := by
  have hst := h.st_eq
  have hsize := h.size_le
  rw [RlcRetxQueue.replaceFront] at *
  split
  · exact h
  · next item rest hqueue =>
    simp only [hqueue] at hfits
    rw [(h.queue_cons hqueue).2] at hst
    rw [size, hqueue, List.length_cons] at hsize
    have hlen : ((rest.filter (!·.invalid)).map RlcRetxQueueItem.retx).length ≤ rest.length := by
      rw [List.length_map]
      exact List.length_filter_le _ _
    refine ⟨?_, ?_, hsize⟩
    · rw [hst, subtract_totals, add_totals ?_ (by omega)]
      · simp [retxs]
      · simp [retxs] at hfits
        simpa [Nat.add_comm] using hfits
    · rintro item' ⟨⟩
      rfl

/-- The loop ends within two turns for each item, and has then invalidated the items of the SN. -/
theorem removeSnLoop_eq {before : List RlcRetxQueueItem} {fuel : Nat} {result : Bool} {kept : List RlcTxAmdRetx}
    (hfuel : 2 * items.length < fuel) :
    removeSnLoop sn fuel before items (totals (kept ++ (items.filter (!·.invalid)).map RlcRetxQueueItem.retx)) result =
      some (before ++ items.map (invalidate sn),
        totals (kept ++ ((items.map (invalidate sn)).filter (!·.invalid)).map RlcRetxQueueItem.retx),
        result || items.any (Matches sn)) := by
  induction items generalizing fuel before result kept with
  | nil =>
    obtain ⟨turns, rfl⟩ := Nat.exists_eq_add_one_of_ne_zero (by omega : fuel ≠ 0)
    simp [removeSnLoop]
  | cons item rest ih =>
    rw [List.length_cons] at hfuel
    obtain ⟨turns, rfl⟩ := Nat.exists_eq_add_of_le' (by omega : 2 ≤ fuel)
    by_cases hmatch : Matches sn item = true
    · have hvalid : item.invalid = false := by
        rw [Matches, Bool.and_eq_true, Bool.not_eq_true'] at hmatch
        exact hmatch.1
      have hafter : Matches sn { item with invalid := true } = false := rfl
      have hfirst : (totals (kept ++ (item.retx :: (rest.filter (!·.invalid)).map retx))).subtract
          item.retx = totals (kept ++ (rest.filter (!·.invalid)).map retx) := by
        rw [totals_perm List.perm_middle, subtract_totals]
      rw [removeSnLoop, if_pos hmatch, removeSnLoop, hafter, if_neg Bool.false_ne_true, List.filter_cons_of_pos (by
        simp [hvalid]), List.map_cons, hfirst, ih (by omega)]
      simp [invalidate, hmatch]
    · rw [removeSnLoop, if_neg hmatch]
      cases hvalid : item.invalid with
      | true =>
        rw [List.filter_cons_of_neg (by simp [hvalid]), ih (by omega)]
        simp [invalidate, hmatch, hvalid]
      | false =>
        rw [List.filter_cons_of_pos (by simp [hvalid]), List.map_cons, List.append_cons kept, ih (by omega)]
        simp [invalidate, hmatch, hvalid]

/-- What `remove_sn` does: the valid entries of the SN go, the others stay in their order. -/
theorem Accurate.removeSn (h : q.Accurate) (sn : Nat) : ∃ q', q.removeSn sn = some (q', q.retxs.any (·.sn == sn)) ∧
    q'.Accurate ∧ q'.retxs = q.retxs.filter (·.sn != sn) ∧ q'.capacity = q.capacity := by
  have hany : q.queue.any (Matches sn) = q.retxs.any (·.sn == sn) := by
    rw [retxs, List.any_map, List.any_filter]
    rfl
  have hfilter : ((q.queue.map (invalidate sn)).filter (!·.invalid)).map retx =
      q.retxs.filter (·.sn != sn) := by
    rw [retxs]
    induction q.queue with
    | nil => rfl
    | cons item rest ih =>
      cases hvalid : item.invalid <;> by_cases hsn : item.retx.sn = sn <;>
        simp [invalidate, Matches, hvalid, hsn, ih]
  rw [RlcRetxQueue.removeSn]
  split
  · next hempty =>
    have hnil : q.queue = [] := List.isEmpty_iff.mp hempty
    have hretxs : q.retxs = [] := by rw [retxs, hnil]; rfl
    exact ⟨q, by rw [hretxs]; rfl, h, by rw [hretxs]; rfl, rfl⟩
  · have hst : q.st = totals ([] ++ (q.queue.filter (!·.invalid)).map RlcRetxQueueItem.retx) := h.st_eq
    rw [hst, size, removeSnLoop_eq (Nat.lt_succ_self _)]
    dsimp only
    rw [hany, Bool.false_or, List.nil_append]
    obtain ⟨haccurate, hretxs⟩ := @accurate_cleanInvalidFront
      { q with
        queue := q.queue.map (invalidate sn)
        st := totals ((((q.queue.map (invalidate sn)).filter (!·.invalid)).map retx)) }
      rfl (by simpa [size] using h.size_le)
    exact ⟨_, rfl, haccurate, hretxs.trans hfilter, rfl⟩

theorem Reached.accurate {capacity : Nat} (hcapacity : capacity < 2 ^ 32) (h : Reached capacity q) :
    q.Accurate ∧ q.capacity = capacity := by
  induction h with
  | init => exact ⟨⟨rfl, fun _ h => (by cases h), Nat.zero_le _⟩, rfl⟩
  | @step q q' op _ hop hfits ih =>
    obtain ⟨h, hcap⟩ := ih
    cases op with
    | tryPush retx =>
      cases hop
      refine ⟨h.tryPush (hcap ▸ hcapacity) hfits, ?_⟩
      rw [RlcRetxQueue.tryPush]
      split <;> exact hcap
    | pop =>
      cases hop
      refine ⟨h.pop, ?_⟩
      rw [RlcRetxQueue.pop]
      split <;> exact hcap
    | replaceFront retx =>
      rw [Op.apply] at hop
      split at hop
      · cases hop
        refine ⟨h.replaceFront (hcap ▸ hcapacity) hfits, ?_⟩
        rw [RlcRetxQueue.replaceFront]
        split <;> exact hcap
      · cases hop
    | removeSn sn =>
      obtain ⟨q'', hrun, haccurate, -, hsame⟩ := h.removeSn sn
      rw [Op.apply, hrun] at hop
      cases hop
      exact ⟨haccurate, hsame.trans hcap⟩
    | clear =>
      cases hop
      exact ⟨⟨rfl, fun _ h => (by cases h), Nat.zero_le _⟩, hcap⟩

end

/-- The counters, the front and the emptiness of a queue tell of the valid entries, its size tells of those that
are invalidated as well, and the removal of an SN ends with the entries of other SNs. -/
theorem counters_of_reached {capacity : Nat} {q : RlcRetxQueue} (hcapacity : capacity < 2 ^ 32)
    (h : Reached capacity q) :
    q.st = totals q.retxs ∧ (q.empty = false → q.front? = q.retxs.head? ∧ q.front?.isSome) ∧
      q.empty = q.retxs.isEmpty ∧ q.size = q.retxs.length + q.queue.countP invalid ∧
      ∀ sn, ∃ q', q.removeSn sn = some (q', q.retxs.any (·.sn == sn)) ∧ q'.retxs = q.retxs.filter (·.sn != sn) := by
  have haccurate := (h.accurate hcapacity).1
  have hcount : q.size = q.retxs.length + q.queue.countP invalid := by
    have hlength := @List.length_eq_countP_add_countP _ invalid q.queue
    rw [size, retxs, List.length_map, ← List.countP_eq_length_filter, hlength, Nat.add_comm]
    simp only [Bool.not_eq_true, Bool.decide_eq_false]
  refine ⟨haccurate.st_eq, ?_, ?_, hcount, fun sn => ?_⟩
  · intro hempty
    cases hqueue : q.queue with
    | nil => simp [empty, hqueue] at hempty
    | cons item rest =>
      obtain ⟨hvalid, hretxs⟩ := haccurate.queue_cons hqueue
      simp [front?, hqueue, hvalid, hretxs]
  · cases hqueue : q.queue with
    | nil => simp [empty, retxs, hqueue]
    | cons item rest => simp [empty, hqueue, (haccurate.queue_cons hqueue).2]
  · obtain ⟨q', hrun, -, hretxs, -⟩ := haccurate.removeSn sn
    exact ⟨q', hrun, hretxs⟩

/-- A queue that was full until a removal. -/
theorem counters_of_reached_push : ∃ q, Reached 1 q ∧ q.st = totals q.retxs ∧ q.retxs = [] ∧ q.empty = true := by
  have hfull : Reached 1 (({ capacity := 1 } : RlcRetxQueue).tryPush { sn := 7, length := 100 }).1 :=
    .step .init (rfl : (Op.tryPush { sn := 7, length := 100 }).apply _ = _) (by decide)
  have hremoved := Reached.step hfull (rfl : (Op.removeSn 7).apply _ = some _) (by decide)
  obtain ⟨hst, -, hempty, -⟩ := counters_of_reached (by decide) hremoved
  exact ⟨_, hremoved, hst, by decide, hempty.trans (by decide)⟩

/-- A removed entry behind the front counts for the size. -/
theorem size_ne_length_retxs : ∃ q, Reached 2 q ∧ q.size = 2 ∧ q.retxs.length = 1 := by
  have hfirst : Reached 2 (({ capacity := 2 } : RlcRetxQueue).tryPush { sn := 7, length := 100 }).1 :=
    .step .init (rfl : (Op.tryPush { sn := 7, length := 100 }).apply _ = _) (by decide)
  have hsecond := Reached.step hfirst (rfl : (Op.tryPush { sn := 8, length := 100 }).apply _ = _) (by decide)
  exact ⟨_, .step hsecond (rfl : (Op.removeSn 8).apply _ = some _) (by decide), by decide, by decide⟩

end Srsran.Rlc.RlcRetxQueue
