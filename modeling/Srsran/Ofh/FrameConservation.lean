import Mathlib.Algebra.BigOperators.Group.List.Basic
import Srsran.Lib.Runs
import Srsran.Ofh.FrameAccounts

/-! The pool conserves frames in runs in which no burst vector is asked to hold too many. -/
namespace Srsran.Ofh

def PoolCall.burstSize : PoolCall → Nat
  | .enqueueing _ _ burst others => others + burst.length
  | .popping _ _ _ burst _ | .leaving _ burst _ _ => burst.length
  | .judging _ _ rest checked _ => rest.length + checked.length
  | _ => 0

def FrameOutcome.isLate : FrameOutcome → Bool
  | .sent => false
  | .late _ => true

namespace EthFramePool
variable {s s' : EthFramePool} {call : Nat} {c c' : PoolCall} {id : BufferId} {r r' : Role}
  {rest : List (BufferId × Role)}

def nofLateFrames (s : EthFramePool) : Nat := s.settled.countP (·.2.isLate)

def nofCounted (s : EthFramePool) : Nat := (s.calls.map PoolCall.nofLates).sum

structure Inv (s : EthFramePool) : Prop where
  owned : ∃ place, s.Owned place
  accounted : ∃ framePlace, s.Accounted framePlace
  counted : s.nofLateFrames = s.nofCounted
  bursts : ∀ c ∈ s.calls, c.burstSize ≤ maxTxBurstSize
  noFault : s.fault = none

theorem nofCounted_set {calls : List PoolCall} (c' : PoolCall) (hcall : calls[call]? = some c) :
    ((calls.set call c').map PoolCall.nofLates).sum + c.nofLates =
      (calls.map PoolCall.nofLates).sum + c'.nofLates := by
  induction calls generalizing call with
  | nil => cases hcall
  | cons first rest ih =>
    cases call with
    | zero =>
      cases hcall
      simp only [List.set_cons_zero, List.map_cons, List.sum_cons]
      omega
    | succ call =>
      have hrest := @ih call hcall
      simp only [List.set_cons_succ, List.map_cons, List.sum_cons]
      omega

theorem SetsCall.nofCounted (hset : s.SetsCall s' call c') (hcall : s.calls[call]? = some c) :
    s'.nofCounted + c.nofLates = s.nofCounted + c'.nofLates := by
  rw [EthFramePool.nofCounted, EthFramePool.nofCounted, hset.calls]
  exact nofCounted_set c' hcall

theorem SetsCall.bursts (hset : s.SetsCall s' call c') (h : ∀ c ∈ s.calls, c.burstSize ≤ maxTxBurstSize)
    (hburst : c'.burstSize ≤ maxTxBurstSize) : ∀ c ∈ s'.calls, c.burstSize ≤ maxTxBurstSize := by
  intro d hd
  rw [hset.calls] at hd
  rcases List.mem_or_eq_of_mem_set hd with hd | rfl
  · exact h d hd
  · exact hburst

theorem Inv.burst_le (h : s.Inv) (hcall : s.calls[call]? = some c) : c.burstSize ≤ maxTxBurstSize :=
  h.bursts c (List.mem_of_getElem? hcall)

theorem Accounted.lists {framePlace : Nat → Option (Option BufferId)} (h : s.Accounted framePlace)
    (hnof : s'.nofBuffers = s.nofBuffers) (hbuffers : s'.buffers = s.buffers)
    (hsettled : s'.settled = s.settled) (hfilled : s'.filled = s.filled) : s'.Accounted framePlace := by
  have hquiet : s.Quiet s' ⟨⟨0, by decide⟩, 0⟩ := by
    refine ⟨hnof, hsettled, hfilled, fun id' _ => by rw [hbuffers], ?_, fun _ => ?_⟩
    · rw [hbuffers]
    · rw [hbuffers]
      exact ⟨rfl, rfl⟩
  exact h.quiet hquiet

section
variable (h : s.Inv)
include h

theorem Inv.relabel (hcall : s.calls[call]? = some c)
    (hheld : (c'.held.map Prod.fst).Perm (c.held.map Prod.fst))
    (hfits : (∀ t ∈ c.held, t.2.Fits s.settledFrames (s.buffers t.1)) →
      ∀ t ∈ c'.held, t.2.Fits s.settledFrames (s.buffers t.1))
    (hlates : c'.nofLates = c.nofLates) (hburst : c'.burstSize ≤ maxTxBurstSize) :
    (s.setCall call c').Inv := by
  have hset : s.SetsCall (s.setCall call c') call c' := ⟨rfl, rfl, rfl, rfl⟩
  obtain ⟨place, howned⟩ := h.owned
  obtain ⟨framePlace, haccounted⟩ := h.accounted
  refine ⟨⟨place, howned.relabel hcall hset rfl rfl hheld hfits⟩, ⟨framePlace, haccounted.lists rfl rfl rfl rfl⟩,
    ?_, hset.bursts h.bursts hburst, h.noFault⟩
  · have hcounted := hset.nofCounted hcall
    have hbefore := h.counted
    rw [nofLateFrames] at hbefore ⊢
    change s.settled.countP (·.2.isLate) = _
    omega

theorem Inv.exchange (r' : Role) (hcall : s.calls[call]? = some c) (hset : s.SetsCall s' call c')
    (hheld : c.held.Perm ((id, r) :: rest)) (hheld' : c'.held.Perm ((id, r') :: rest))
    (hquiet : s.Quiet s' id) (hfits : r'.Fits s.settledFrames (s'.buffers id))
    (hlates : c'.nofLates = c.nofLates) (hburst : c'.burstSize ≤ maxTxBurstSize)
    (hfault : s'.fault = none) : s'.Inv := by
  obtain ⟨place, howned⟩ := h.owned
  obtain ⟨framePlace, haccounted⟩ := h.accounted
  refine ⟨⟨place, ?_⟩, ⟨framePlace, haccounted.quiet hquiet⟩, ?_, hset.bursts h.bursts hburst, hfault⟩
  · refine howned.exchange r' hcall hset hheld hheld' hquiet.keepsOthers ?_
    rw [hquiet.settledFrames_eq]
    exact hfits
  · have hcounted := hset.nofCounted hcall
    have hbefore := h.counted
    rw [nofLateFrames] at hbefore ⊢
    rw [hquiet.settled]
    omega

theorem Inv.settle {outcome : FrameOutcome} (hcall : s.calls[call]? = some c)
    (hset : s.SetsCall s' call c') (hheld : c.held.Perm ((id, r) :: rest))
    (hheld' : c'.held.Perm ((id, r') :: rest)) (hsettles : s.Settles s' id outcome)
    (hfits : r'.Fits s'.settledFrames (s'.buffers id))
    (hlates : c'.nofLates = c.nofLates + if outcome.isLate then 1 else 0)
    (hburst : c'.burstSize ≤ maxTxBurstSize) (hfault : s'.fault = none) : s'.Inv := by
  obtain ⟨place, howned⟩ := h.owned
  obtain ⟨framePlace, haccounted⟩ := h.accounted
  refine ⟨⟨place, ?_⟩, ⟨_, haccounted.settle hsettles⟩, ?_, hset.bursts h.bursts hburst, hfault⟩
  · exact howned.exchange r' hcall hset hheld hheld' (hsettles.keepsOthers haccounted) hfits
  · have hcounted := hset.nofCounted hcall
    have hbefore := h.counted
    rw [nofLateFrames] at hbefore ⊢
    rw [hsettles.settled, List.countP_append, List.countP_singleton]
    simp only
    omega

theorem Inv.fits (hcall : s.calls[call]? = some c) (hheld : c.held.Perm ((id, r) :: rest)) :
    r.Fits s.settledFrames (s.buffers id) := by
  obtain ⟨place, howned⟩ := h.owned
  rw [← tokens_call hcall] at hheld
  exact howned.fits_of_perm hheld

theorem Inv.idx_lt (hcall : s.calls[call]? = some c)
    (hheld : c.held.Perm ((id, r) :: rest)) : id.idx < s.nofBuffers := by
  obtain ⟨place, howned⟩ := h.owned
  rw [← tokens_call hcall] at hheld
  exact howned.idx_lt hheld

theorem Inv.addCall (hheld : c.held = []) (hlates : c.nofLates = 0)
    (hburst : c.burstSize ≤ maxTxBurstSize) : { s with calls := s.calls ++ [c] }.Inv := by
  obtain ⟨place, howned⟩ := h.owned
  obtain ⟨framePlace, haccounted⟩ := h.accounted
  have htokens : ∀ p, ({ s with calls := s.calls ++ [c] } : EthFramePool).tokens p = s.tokens p := by
    intro p
    cases p with
    | freeList entry => rfl
    | pendingList entry => rfl
    | call call =>
      simp only [tokens, List.getElem?_append]
      split
      · rfl
      · rename_i hge
        rw [List.getElem?_eq_none (Nat.le_of_not_lt hge), List.getElem?_singleton]
        split
        · exact hheld
        · rfl
  refine ⟨⟨place, ?_, howned.known, ?_⟩, ⟨framePlace, haccounted.lists rfl rfl rfl rfl⟩, ?_, ?_, h.noFault⟩
  · exact howned.placed.perm fun p => .of_eq (by rw [ids, ids, htokens])
  · intro p t ht
    rw [htokens] at ht
    exact howned.fits p t ht
  · have hbefore := h.counted
    simp only [nofLateFrames, nofCounted, List.map_append, List.sum_append] at hbefore ⊢
    simp [hbefore, hlates]
  · intro d hd
    rcases List.mem_append.mp hd with hd | hd
    · exact h.bursts d hd
    · rw [List.mem_singleton.mp hd]
      exact hburst

/-- A call and a list exchange a buffer. -/
theorem Inv.relist {entry : Fin numEntries} {destination : Destination} {list : List Nat}
    (hcall : s.calls[call]? = some c) (hset : s.SetsList s' destination entry list)
    (hcalls : s'.calls = s.calls.set call c') (hfilled : s'.filled = s.filled)
    (hlates : c'.nofLates = c.nofLates) (hburst : c'.burstSize ≤ maxTxBurstSize) (hfault : s'.fault = none)
    (howned : s'.tokens (.call call) = c'.held → (∀ other, other ≠ call → s'.calls[other]? = s.calls[other]?) →
      ∃ place, s'.Owned place) : s'.Inv := by
  obtain ⟨framePlace, haccounted⟩ := h.accounted
  obtain ⟨hlt, -⟩ := List.getElem?_eq_some_iff.mp hcall
  refine ⟨howned ?_ ?_, ⟨framePlace, haccounted.lists hset.nofBuffers hset.buffers hset.settled hfilled⟩, ?_, ?_,
    hfault⟩
  · rw [tokens_call (c := c') (by rw [hcalls, List.getElem?_set_self hlt])]
  · intro other hne
    rw [hcalls, List.getElem?_set_ne hne.symm]
  · have hbefore := h.counted
    have hcounted := nofCounted_set c' hcall
    rw [nofLateFrames, nofCounted] at hbefore ⊢
    rw [hset.settled, hcalls]
    omega
  · intro d hd
    rw [hcalls] at hd
    rcases List.mem_or_eq_of_mem_set hd with hd | rfl
    · exact h.bursts d hd
    · exact hburst

theorem Inv.pop (destination : Destination) {entry : Fin numEntries} {idx : Nat}
    {tail : List Nat} (hcall : s.calls[call]? = some c)
    (hlist : s.listOf entry destination = idx :: tail) (hset : s.SetsList s' destination entry tail)
    (hcalls : s'.calls = s.calls.set call c') (hfilled : s'.filled = s.filled)
    (hheld : c'.held.Perm ((⟨entry, idx⟩, destination.role) :: c.held))
    (hlates : c'.nofLates = c.nofLates) (hburst : c'.burstSize ≤ maxTxBurstSize)
    (hfault : s'.fault = none) : s'.Inv := by
  obtain ⟨place, howned⟩ := h.owned
  refine h.relist hcall hset hcalls hfilled hlates hburst hfault fun htokens hothers => ?_
  exact howned.pop call hlist hset (by rw [htokens, tokens_call hcall]; exact hheld) hothers

theorem Inv.push (destination : Destination) (hcall : s.calls[call]? = some c)
    (hset : s.SetsList s' destination id.entry (s.listOf id.entry destination ++ [id.idx]))
    (hcalls : s'.calls = s.calls.set call c') (hfilled : s'.filled = s.filled)
    (hheld : c.held.Perm ((id, destination.role) :: c'.held)) (hlates : c'.nofLates = c.nofLates)
    (hburst : c'.burstSize ≤ maxTxBurstSize) (hfault : s'.fault = none) : s'.Inv := by
  obtain ⟨place, howned⟩ := h.owned
  refine h.relist hcall hset hcalls hfilled hlates hburst hfault fun htokens hothers => ?_
  exact howned.push call hset (by rw [htokens, tokens_call hcall]; exact hheld) hothers

theorem Inv.reserve (symbolPoint : SlotSymbolPoint) : (s.reserve symbolPoint).Inv := by
  rw [EthFramePool.reserve]
  split
  · exact h
  · rename_i idx tail hlist
    have hadded := h.addCall (c := .returned 0) rfl rfl (Nat.zero_le _)
    have hcalls : s.calls ++ [.reserving ⟨entryOf symbolPoint, idx⟩ symbolPoint] =
        (s.calls ++ [PoolCall.returned 0]).set s.calls.length (.reserving ⟨entryOf symbolPoint, idx⟩ symbolPoint) := by
      simp
    exact hadded.pop .freeList List.getElem?_concat_length hlist ⟨rfl, rfl, rfl, rfl, rfl⟩ hcalls rfl
      (.refl _) rfl (Nat.zero_le _) h.noFault

theorem Inv.takeReserved {symbolPoint : SlotSymbolPoint}
    (hcall : s.calls[call]? = some (.reserving id symbolPoint)) :
    (s.takeReserved call id symbolPoint).Inv := by
  obtain ⟨hfree, hlive⟩ := h.fits hcall (r := .idle) (.refl _)
  have hempty : ∀ buffer : FrameBuffer, buffer.size = 0 → ¬ buffer.Live s.settledFrames := by
    rintro buffer hsize ⟨hpos, -⟩
    omega
  rw [EthFramePool.takeReserved]
  simp only [hfree, ne_eq, not_true_eq_false, if_false]
  refine h.exchange .writing hcall ⟨rfl, rfl, rfl, rfl⟩ (.refl _) (.refl _)
    ⟨rfl, rfl, rfl, fun id' hne => ?_, ?_, fun hwas => absurd hwas hlive⟩ ?_ rfl (Nat.zero_le _) h.noFault
  · exact Function.update_of_ne hne _ _
  · refine iff_of_false (hempty _ ?_) hlive
    simp [setCall, setBuffer]
  · simp [Role.Fits, FrameBuffer.Writable, setCall, setBuffer]

theorem Inv.setSize (hcall : s.calls[call]? = some (.encoding id))
    (hempty : (s.buffers id).size = 0) (newSize : Nat) : (s.setSize call id newSize).Inv := by
  obtain ⟨hreserved, -⟩ := h.fits hcall (r := .writing) (.refl _)
  obtain ⟨place, howned⟩ := h.owned
  obtain ⟨framePlace, haccounted⟩ := h.accounted
  have hset : s.SetsCall (s.setSize call id newSize) call (.encoding id) := ⟨rfl, rfl, rfl, rfl⟩
  have hbuffer : (s.setSize call id newSize).buffers id =
      { s.buffers id with size := writtenSize newSize, frame := s.filled.length } :=
    Function.update_self _ _ _
  have hfills : s.Fills (s.setSize call id newSize) id := by
    refine ⟨rfl, rfl, rfl, fun id' hne => Function.update_of_ne hne _ _, hempty,
      h.idx_lt hcall (r := .writing) (.refl _), ?_, ?_, ?_⟩
    · rw [hbuffer]
      exact writtenSize_pos newSize
    · rw [hbuffer]
    · rw [hbuffer]
  refine ⟨⟨place, howned.exchange .writing hcall hset (.refl _) (.refl _) hfills.keepsOthers ?_⟩,
    ⟨_, haccounted.fill hfills⟩, ?_, hset.bursts h.bursts (Nat.zero_le _), h.noFault⟩
  · refine ⟨?_, fun _ => hfills.live haccounted⟩
    rw [hbuffer]
    exact hreserved
  · have hcounted := hset.nofCounted hcall
    have hbefore := h.counted
    rw [nofLateFrames] at hbefore ⊢
    rw [hfills.settled]
    omega

theorem Inv.endScope (hcall : s.calls[call]? = some (.encoding id)) :
    (s.setCall call (.leaving none [id] none 0)).Inv := by
  refine h.relabel hcall (.refl _) (fun hfits t ht => ?_) rfl (show 1 ≤ maxTxBurstSize by decide)
  rw [List.mem_singleton.mp ht]
  exact .inr (hfits _ (List.mem_singleton_self _))

end

variable {entry : Fin numEntries} {entries : List (Fin numEntries)} {burst checked : List BufferId}
  {others nofLates : Nat} {slot : Ran.SlotPoint} {symbol : Nat} {symbols : List Nat}
  {clearing : Option (Ran.SlotPoint × List Nat)}

section
variable (h : s.Inv)
include h

theorem Inv.pending_lt {idx : Nat} {tail : List Nat} (hlist : s.pendingList entry = idx :: tail) :
    idx < s.nofBuffers := by
  obtain ⟨place, howned⟩ := h.owned
  have hperm : (s.tokens (.pendingList entry)).Perm
      ((⟨entry, idx⟩, .waiting) :: tail.map fun idx => (⟨entry, idx⟩, .waiting)) := by
    rw [tokens, hlist]
    exact .refl _
  exact howned.idx_lt hperm

theorem Inv.popToQueue
    (hcall : s.calls[call]? = some (.enqueueing (entry :: entries) none burst others)) :
    (s.popToQueue call entry entries burst others).Inv := by
  have hburst := h.burst_le hcall
  rw [EthFramePool.popToQueue]
  split
  · exact h.relabel hcall (.refl _) id rfl hburst
  · rename_i idx tail hlist
    rw [if_neg (Nat.not_le_of_lt (h.pending_lt hlist))]
    exact h.pop .pendingList hcall hlist ⟨rfl, rfl, rfl, rfl, rfl⟩ rfl rfl (.refl _) rfl
      hburst h.noFault

theorem Inv.queue (hcall : s.calls[call]? = some (.enqueueing entries (some id) burst others))
    (hroom : others + burst.length < maxTxBurstSize) : (s.queue call id entries burst others).Inv := by
  obtain ⟨hpending, hlive⟩ := h.fits hcall (r := .waiting) (.refl _)
  have hlater : (PoolCall.enqueueing entries none (burst ++ [id]) others).held.Perm
      ((id, .queued) :: burst.map (·, .queued)) := by
    simp only [PoolCall.held, Option.toList_none, List.map_nil, List.nil_append, List.map_append]
    exact List.perm_append_comm
  rw [EthFramePool.queue]
  simp only [hpending, ne_eq, not_true_eq_false, if_false, if_neg (Nat.not_le_of_lt hroom)]
  have hsettles : s.Settles (((s.settle id .sent).setBuffer id
      { s.buffers id with state := .queued }).setCall call (.enqueueing entries none (burst ++ [id]) others))
      id .sent := by
    refine ⟨rfl, rfl, rfl, fun id' hne => Function.update_of_ne hne _ _, ?_, hlive, nofun⟩
    simp [setCall, setBuffer]
  refine h.settle hcall ⟨rfl, rfl, rfl, rfl⟩ (.refl _) hlater hsettles ⟨?_, hsettles.not_live⟩ rfl ?_ h.noFault
  · simp [setCall, setBuffer]
  · simp only [PoolCall.burstSize, List.length_append, List.length_singleton]
    omega

theorem Inv.popToClear (hcall : s.calls[call]? = some (.popping slot symbol symbols burst nofLates))
    (hroom : s.pendingList (getPoolEntry slot symbol) ≠ [] → burst.length < maxTxBurstSize) :
    (s.popToClear call slot symbol symbols burst nofLates).Inv := by
  have hburst := h.burst_le hcall
  rw [EthFramePool.popToClear]
  split
  · refine h.relabel hcall ?_ ?_ rfl hburst
    · simp [PoolCall.held]
    · intro hfits t ht
      exact hfits t (by simpa [PoolCall.held] using ht)
  · rename_i idx tail hlist
    have hlt : burst.length < maxTxBurstSize := hroom (by rw [hlist]; exact List.cons_ne_nil _ _)
    rw [if_neg (Nat.not_le_of_lt (h.pending_lt hlist)), if_neg (Nat.not_le_of_lt hlt)]
    refine h.pop .pendingList hcall hlist ⟨rfl, rfl, rfl, rfl, rfl⟩ rfl rfl ?_ rfl ?_
      h.noFault
    · simp only [PoolCall.held, List.map_append]
      exact List.perm_append_comm
    · simp only [PoolCall.burstSize, List.length_append, List.length_singleton]
      omega

theorem Inv.judge {todo : List BufferId}
    (hcall : s.calls[call]? = some (.judging slot symbols (id :: todo) checked nofLates)) :
    (s.judge call slot symbols id todo checked nofLates).Inv := by
  obtain ⟨hpending, hlive⟩ := h.fits hcall (r := .waiting) (.refl _)
  have hburst := h.burst_le hcall
  have hsize : ∀ n, (PoolCall.judging slot symbols todo (checked ++ [id]) n).burstSize ≤ maxTxBurstSize := by
    intro n
    simp only [PoolCall.burstSize, List.length_append, List.length_cons, List.length_nil] at hburst ⊢
    omega
  have hlater : ∀ n, (PoolCall.judging slot symbols todo (checked ++ [id]) n).held.Perm
      ((id, .judged) :: (todo.map (·, Role.waiting) ++ checked.map (·, Role.judged))) := by
    intro n
    simp only [PoolCall.held, List.map_append, ← List.append_assoc]
    exact List.perm_append_comm
  rw [EthFramePool.judge]
  split
  · rename_i hslot
    have hsettles : s.Settles ((s.settle id (.late slot)).setCall call
        (.judging slot symbols todo (checked ++ [id]) (nofLates + 1))) id (.late slot) := by
      refine ⟨rfl, rfl, rfl, fun _ _ => rfl, ⟨rfl, rfl⟩, hlive, fun cleared hcleared => ?_⟩
      cases hcleared
      exact hslot
    exact h.settle hcall ⟨rfl, rfl, rfl, rfl⟩ (.refl _) (hlater _) hsettles
      (.inl ⟨hpending, hsettles.not_live⟩) rfl (hsize _) h.noFault
  · rw [if_neg (not_not.mpr hpending)]
    refine h.exchange .judged hcall ⟨rfl, rfl, rfl, rfl⟩ (.refl _) (hlater _)
      ⟨rfl, rfl, rfl, fun id' hne => Function.update_of_ne hne _ _, ?_, fun _ => ?_⟩ (.inr ⟨?_, fun _ => ?_⟩)
      rfl (hsize _) h.noFault
    · simp [setCall, setBuffer, FrameBuffer.Live]
    · simp [setCall, setBuffer]
    · simp [setCall, setBuffer]
    · simpa [setCall, setBuffer, FrameBuffer.Live] using hlive

/-- Where `update_state` sends a buffer whose state it exchanges. -/
theorem Inv.leave (destination : Destination)
    (hcall : s.calls[call]? = some (.leaving none (id :: burst) clearing nofLates)) {state : BufferState}
    (hfits : destination.role.Fits s.settledFrames { s.buffers id with state := state }) :
    ((s.setBuffer id { s.buffers id with state := state }).setCall call
      (.leaving (some (id, destination)) burst clearing nofLates)).Inv := by
  have hburst := h.burst_le hcall
  refine h.exchange destination.role hcall ⟨rfl, rfl, rfl, rfl⟩ (.refl _) (.refl _)
    ⟨rfl, rfl, rfl, fun id' hne => Function.update_of_ne hne _ _, ?_, fun _ => ?_⟩ ?_ rfl ?_ h.noFault
  · simp [setCall, setBuffer, FrameBuffer.Live]
  · simp [setCall, setBuffer]
  · simpa [setCall, setBuffer] using hfits
  · simp only [PoolCall.burstSize, List.length_cons] at hburst ⊢
    omega

theorem Inv.updateState
    (hcall : s.calls[call]? = some (.leaving none (id :: burst) clearing nofLates)) :
    (s.updateState call id burst clearing nofLates).Inv := by
  have hfits := h.fits hcall (r := .leaving) (.refl _)
  rw [EthFramePool.updateState]
  rcases hfits with ⟨hpending | hqueued, hlive⟩ | ⟨hreserved, hlive⟩
  · rw [hpending]
    exact h.leave .freeList hcall ⟨rfl, hlive⟩
  · rw [hqueued]
    exact h.leave .freeList hcall ⟨rfl, hlive⟩
  · rw [hreserved]
    simp only
    split
    · rename_i hempty
      refine h.leave .freeList hcall ⟨rfl, ?_⟩
      rintro ⟨hpos, -⟩
      exact Nat.ne_of_gt hpos hempty
    · rename_i hsize
      exact h.leave .pendingList hcall ⟨rfl, hlive (Nat.pos_of_ne_zero hsize)⟩

theorem Inv.putBack {destination : Destination}
    (hcall : s.calls[call]? = some (.leaving (some (id, destination)) burst clearing nofLates)) :
    (s.putBack call id burst clearing nofLates destination).Inv := by
  have hburst := h.burst_le hcall
  have hroom : (s.listOf id.entry destination).length < s.nofBuffers := by
    obtain ⟨place, howned⟩ := h.owned
    have hheld : (s.tokens (.call call)).Perm ((id, destination.role) :: burst.map (·, .leaving)) := by
      rw [tokens_call hcall]
      exact .refl _
    exact howned.room hheld
  cases destination with
  | freeList =>
    rw [EthFramePool.putBack, if_pos (by exact hroom)]
    exact h.push .freeList hcall ⟨rfl, rfl, rfl, rfl, rfl⟩ rfl rfl (.refl _) rfl hburst
      h.noFault
  | pendingList =>
    rw [EthFramePool.putBack, if_pos (by exact hroom)]
    exact h.push .pendingList hcall ⟨rfl, rfl, rfl, rfl, rfl⟩ rfl rfl (.refl _) rfl hburst
      h.noFault

end

/-- A call that adds a popped buffer to its burst vector finds room there. -/
def RoomForCall (s : EthFramePool) : PoolCall → Prop
  | .enqueueing _ (some _) burst others => others + burst.length < maxTxBurstSize
  | .popping slot symbol _ burst _ =>
    s.pendingList (getPoolEntry slot symbol) ≠ [] → burst.length < maxTxBurstSize
  | _ => True

instance (s : EthFramePool) : DecidablePred s.RoomForCall
  | .enqueueing _ (some _) _ _ => inferInstanceAs (Decidable (_ < _))
  | .popping _ _ _ _ _ => inferInstanceAs (Decidable (_ → _))
  | .enqueueing _ none _ _ | .reserving _ _ | .encoding _ | .judging _ _ _ _ _ | .leaving _ _ _ _
  | .returned _ => inferInstanceAs (Decidable True)

def RoomInBurst (s : EthFramePool) : FramePoolEvent → Prop
  | .step call => ∀ c ∈ s.calls[call]?, s.RoomForCall c
  | _ => True

instance (s : EthFramePool) (event : FramePoolEvent) : Decidable (s.RoomInBurst event) :=
  match event with
  | .step call => inferInstanceAs (Decidable (∀ c ∈ s.calls[call]?, s.RoomForCall c))
  | .reserve _ | .setSize _ _ | .endScope _ | .enqueuePending _ _ | .clearSlot _ =>
    inferInstanceAs (Decidable True)

theorem Inv.step (h : s.Inv) (hcall : s.calls[call]? = some c) (hroom : s.RoomForCall c)
    (hnext : s.stepCall call c = some s') : s'.Inv := by
  have hburst := h.burst_le hcall
  cases c with
  | reserving id symbolPoint =>
    cases hnext
    exact h.takeReserved hcall
  | encoding id => cases hnext
  | enqueueing entries popped burst others =>
    cases popped with
    | some id =>
      cases hnext
      exact h.queue hcall hroom
    | none =>
      cases entries with
      | cons entry entries =>
        cases hnext
        exact h.popToQueue hcall
      | nil =>
        cases hnext
        refine h.relabel hcall ?_ ?_ rfl (Nat.le_trans (Nat.le_add_left _ _) hburst)
        · simp [PoolCall.held, Function.comp_def]
        · simp only [PoolCall.held, Option.toList_none, List.map_nil, List.nil_append, List.forall_mem_map]
          intro hfits id hid
          exact .inl ⟨.inr (hfits id hid).1, (hfits id hid).2⟩
  | popping slot symbol symbols burst nofLates =>
    cases hnext
    exact h.popToClear hcall hroom
  | judging slot symbols todo checked nofLates =>
    cases todo with
    | cons id todo =>
      cases hnext
      exact h.judge hcall
    | nil =>
      cases hnext
      refine h.relabel hcall ?_ ?_ rfl (Nat.le_trans (Nat.le_add_left _ _) hburst)
      · simp [PoolCall.held, Function.comp_def]
      · simp only [PoolCall.held, Option.toList_none, List.map_nil, List.nil_append, List.forall_mem_map]
        intro hfits id hid
        rcases hfits id hid with ⟨hpending, hlive⟩ | hwritable
        · exact .inl ⟨.inl hpending, hlive⟩
        · exact .inr hwritable
  | leaving moving burst clearing nofLates =>
    cases moving with
    | some moving =>
      cases hnext
      exact h.putBack hcall
    | none =>
      cases burst with
      | cons id burst =>
        cases hnext
        exact h.updateState hcall
      | nil =>
        rcases clearing with - | ⟨slot, - | ⟨symbol, symbols⟩⟩
        all_goals
          cases hnext
          exact h.relabel hcall (.refl _) (fun _ => nofun) rfl (Nat.zero_le _)
  | returned nofLates => cases hnext

theorem encoderOf_eq_some (h : s.encoderOf call = some id) : s.calls[call]? = some (.encoding id) := by
  rw [encoderOf] at h
  split at h
  · rename_i heq
    cases h
    exact heq
  · cases h

theorem Inv.next (h : s.Inv) {event : FramePoolEvent} (hroom : s.RoomInBurst event)
    (hnext : s.next event = some s') : s'.Inv := by
  unfold EthFramePool.next at hnext
  rw [if_neg (by rw [h.noFault]; exact Bool.false_ne_true)] at hnext
  cases event with
  | reserve symbolPoint =>
    cases hnext
    exact h.reserve symbolPoint
  | setSize call newSize =>
    obtain ⟨id, hencoder, hnext⟩ := Option.bind_eq_some_iff.mp hnext
    split at hnext
    · rename_i hempty
      cases hnext
      exact h.setSize (encoderOf_eq_some hencoder) hempty newSize
    · cases hnext
  | endScope call =>
    obtain ⟨id, hencoder, rfl⟩ := Option.map_eq_some_iff.mp hnext
    exact h.endScope (encoderOf_eq_some hencoder)
  | enqueuePending interval others =>
    cases hnext
    exact h.addCall (c := .enqueueing (intervalEntries interval) none [] others) rfl rfl
      (Nat.le_of_lt_succ others.isLt)
  | clearSlot slot =>
    cases hnext
    exact h.addCall (c := .popping slot 0 s.otherSymbols [] 0) rfl rfl (Nat.zero_le _)
  | step call =>
    obtain ⟨c, hcall, hstep⟩ := Option.bind_eq_some_iff.mp hnext
    exact h.step hcall (hroom c hcall) hstep

theorem Inv.create (numOfFrames : Nat) (type : MessageType) (direction : DataDirection) :
    (create numOfFrames type direction).Inv where
  owned := by
    refine ⟨fun id => if id.idx < numOfFrames * maxNofSupportedEaxc * 2 * 2 then some (.freeList id.entry)
      else none, ?_, ?_, ?_⟩
    · intro p id
      cases p with
      | freeList entry =>
        have hids : (EthFramePool.create numOfFrames type direction).ids (.freeList entry) =
            (List.range (numOfFrames * maxNofSupportedEaxc * 2 * 2)).map (BufferId.mk entry) := by
          simp [ids, tokens, EthFramePool.create, Function.comp_def]
        have hinj : Function.Injective (BufferId.mk entry) := fun a b hab => (BufferId.mk.inj hab).2
        have hnodup := (List.nodup_map_iff hinj).mpr
          (List.nodup_range (n := numOfFrames * maxNofSupportedEaxc * 2 * 2))
        rw [hids, hnodup.count]
        obtain ⟨entry', idx⟩ := id
        by_cases hidx : idx < numOfFrames * maxNofSupportedEaxc * 2 * 2
        · simp [hidx, eq_comm]
        · simp [hidx]
      | pendingList entry =>
        simp only [ids, tokens, EthFramePool.create]
        split <;> simp
      | call call =>
        simp only [ids, tokens, EthFramePool.create]
        split <;> simp
    · intro id
      by_cases hidx : id.idx < numOfFrames * maxNofSupportedEaxc * 2 * 2
      · simp [hidx, EthFramePool.create]
      · simp [hidx, EthFramePool.create]
    · intro p t ht
      cases p with
      | freeList entry =>
        obtain ⟨idx, -, rfl⟩ := List.mem_map.mp ht
        exact ⟨rfl, fun hlive => Nat.lt_irrefl 0 hlive.1⟩
      | pendingList entry => cases ht
      | call call => cases ht
  accounted := by
    have hempty : ∀ id, ¬ ((EthFramePool.create numOfFrames type direction).buffers id).Live
        (EthFramePool.create numOfFrames type direction).settledFrames :=
      fun id hlive => Nat.lt_irrefl 0 hlive.1
    refine ⟨fun _ => none, ?_, fun n => by simp [EthFramePool.create],
      fun id hlive => absurd hlive (hempty id), fun id hlive => absurd hlive (hempty id), fun _ hmem => absurd hmem List.not_mem_nil⟩
    intro p n
    cases p with
    | none => rfl
    | some id =>
      rw [frameLists, if_neg (hempty id)]
      rfl
  counted := rfl
  bursts := fun _ hmem => absurd hmem List.not_mem_nil
  noFault := rfl

/-- Buffers and frames are where they should be, and no check has failed. -/
structure Conserves (s : EthFramePool) : Prop where
  onePlace : ∀ id, id.idx < s.nofBuffers →
    ∃ p, (s.ids p).count id = 1 ∧ ∀ q, q ≠ p → id ∉ s.ids q
  matching : ∀ p, ∀ t ∈ s.tokens p, t.2.Fits s.settledFrames (s.buffers t.1)
  settledOnce : s.settledFrames.Nodup ∧ ∀ n ∈ s.settledFrames, n < s.filled.length
  carried : ∀ n, n < s.filled.length → n ∉ s.settledFrames → ∃ id, id.idx < s.nofBuffers ∧
    (s.buffers id).Live s.settledFrames ∧ (s.buffers id).frame = n ∧
    ∀ other, (s.buffers other).Live s.settledFrames → (s.buffers other).frame = n → other = id
  late : ∀ t ∈ s.settled, ∀ slot, t.2 = .late slot → ∀ point, s.filled[t.1]? = some point →
    point.map (·.getSlot) ≠ some slot
  counted : s.nofLateFrames = s.nofCounted
  bursts : ∀ c ∈ s.calls, c.burstSize ≤ maxTxBurstSize
  noFault : s.fault = none

theorem Inv.conserves (h : s.Inv) : s.Conserves := by
  obtain ⟨place, howned⟩ := h.owned
  obtain ⟨framePlace, haccounted⟩ := h.accounted
  refine ⟨?_, howned.fits, ⟨haccounted.placed.nodup none, fun n => haccounted.lt_of_settled⟩, ?_,
    haccounted.late, h.counted, h.bursts, h.noFault⟩
  · intro id hid
    obtain ⟨p, hp⟩ := Option.isSome_iff_exists.mp ((howned.known id).mpr hid)
    refine ⟨p, ?_, fun q hq hmem => ?_⟩
    · rw [howned.placed.count_eq hp]
      simp
    · rw [howned.place_eq hmem] at hp
      exact hq (Option.some.inj hp)
  · intro n hn hsettled
    obtain ⟨p, hp⟩ := Option.isSome_iff_exists.mp ((haccounted.numbered n).mpr hn)
    have hmem := haccounted.placed.mem hp (i := p) (by simp)
    cases p with
    | none => exact absurd hmem hsettled
    | some id =>
      rw [frameLists] at hmem
      split at hmem
      · rename_i hlive
        have hframe := (List.mem_singleton.mp hmem).symm
        refine ⟨id, haccounted.known id hlive, hlive, hframe, fun other hother heq => ?_⟩
        by_contra hne
        exact haccounted.frame_ne hlive hother hne (heq.trans hframe.symm)
      · cases hmem

theorem fault_of_noRoomForCall (hroom : ¬ s.RoomForCall c) (hstep : s.stepCall call c = some s') :
    s'.fault ≠ none := by
  cases c with
  | enqueueing entries popped burst others =>
    cases popped with
    | none => exact absurd trivial hroom
    | some id =>
      cases hstep
      rw [EthFramePool.queue]
      split
      · exact Option.some_ne_none _
      · rw [if_pos (Nat.le_of_not_lt hroom)]
        exact Option.some_ne_none _
  | popping slot symbol symbols burst nofLates =>
    cases hstep
    obtain ⟨hlist, hfull⟩ := Classical.not_imp.mp hroom
    rw [EthFramePool.popToClear]
    split
    · rename_i hnil
      exact absurd hnil hlist
    · split
      · exact Option.some_ne_none _
      · rw [if_pos (Nat.le_of_not_lt hfull)]
        exact Option.some_ne_none _
  | _ => exact absurd trivial hroom

theorem fault_of_noRoom {event : FramePoolEvent} (hroom : ¬ s.RoomInBurst event)
    (hnext : s.next event = some s') : s'.fault ≠ none := by
  unfold EthFramePool.next at hnext
  split at hnext
  · cases hnext
  cases event with
  | step call =>
    obtain ⟨c, hcall, hstep⟩ := Option.bind_eq_some_iff.mp hnext
    have hfull : ¬ s.RoomForCall c := by
      intro hc
      refine hroom fun d hd => ?_
      rw [hcall] at hd
      cases hd
      exact hc
    exact fault_of_noRoomForCall hfull hstep
  | _ => exact absurd trivial hroom

/-- A run conserves frames as long as, and no longer than, every popped buffer finds room in its burst
vector. -/
theorem framePool_conserves {numOfFrames : Nat} {type : MessageType} {direction : DataDirection}
    (h : Runs.Reaches EthFramePool.next RoomInBurst (.create numOfFrames type direction) s) :
    s.Conserves ∧ ∀ event s', s.next event = some s' → (s'.Conserves ↔ s.RoomInBurst event) := by
  have hinv : s.Inv := h.invariant (.create numOfFrames type direction)
    fun _ _ _ hinv hroom hnext => hinv.next hroom hnext
  refine ⟨hinv.conserves, fun event s' hnext => ⟨fun hconserves => ?_, fun hroom => ?_⟩⟩
  · by_contra hroom
    exact fault_of_noRoom hroom hnext hconserves.noFault
  · exact (hinv.next hroom hnext).conserves

def firstSymbol : SlotSymbolPoint := .ofSlot ⟨0, 0⟩ 0 (by decide) (by decide) (by decide)

def encodeFrame (call : Nat) : List FramePoolEvent :=
  [.reserve firstSymbol, .step call, .setSize call ⟨1500, by decide⟩, .endScope call, .step call, .step call]

/-- A frame that is sent, and one that is found late when the same slot index comes again. -/
theorem framePool_conserves_sentAndLate :
    ∃ s : EthFramePool, s.settled = [(0, .sent), (1, .late ⟨0, 20⟩)] ∧ s.Conserves := by
  have hrun : (Runs.runAll (Runs.guarded EthFramePool.next RoomInBurst) (.create 1 .userPlane .downlink)
      (encodeFrame 0 ++ .enqueuePending ⟨firstSymbol, firstSymbol, rfl⟩ ⟨0, by decide⟩ ::
        List.replicate 3 (.step 1) ++ encodeFrame 2 ++ .clearSlot ⟨0, 20⟩ :: List.replicate 3 (.step 3))).map
      (·.settled) = some [(0, .sent), (1, .late ⟨0, 20⟩)] := by decide +kernel
  obtain ⟨s, hs, hsettled⟩ := Option.map_eq_some_iff.mp hrun
  exact ⟨s, hsettled, (framePool_conserves (Runs.reaches_of_runGuarded .start hs)).1⟩

/-- A symbol of a pool for 9 frames has 144 buffers, and a burst vector does not hold 129 frames, here 120 of
other pools and 9 of this one. -/
theorem framePool_fullBurst :
    ¬ ∀ s, Runs.Reaches EthFramePool.next (fun _ _ => True) (.create 9 .userPlane .downlink) s →
      s.fault = none := by
  intro hall
  have hrun : (Runs.runAll EthFramePool.next (.create 9 .userPlane .downlink)
      (.enqueuePending ⟨firstSymbol, firstSymbol, rfl⟩ ⟨120, by decide⟩ ::
        (List.range' 1 9).flatMap fun call => encodeFrame call ++ [.step 0, .step 0])).map (·.fault) =
      some (some .fullBurst) := by decide +kernel
  obtain ⟨s, hs, hfault⟩ := Option.map_eq_some_iff.mp hrun
  rw [hall s (Runs.reaches_of_runAll .start (fun _ _ _ => trivial) hs)] at hfault
  cases hfault

end EthFramePool

end Srsran.Ofh
