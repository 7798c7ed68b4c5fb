import Srsran.Ofh.FrameOwnership

/-! Every frame that was written is in one buffer until it is sent or found late, once. -/
namespace Srsran.Ofh

instance (settled : List Nat) (buffer : FrameBuffer) : Decidable (buffer.Live settled) :=
  inferInstanceAs (Decidable (_ ∧ _))

namespace EthFramePool
variable {s s' : EthFramePool} {framePlace : Nat → Option (Option BufferId)} {id : BufferId}

/-- The frames of a buffer, and those of which something has become. -/
def frameLists (s : EthFramePool) : Option BufferId → List Nat
  | none => s.settledFrames
  | some id => if (s.buffers id).Live s.settledFrames then [(s.buffers id).frame] else []

/-- Every frame is in one buffer or settled, and late frames were written for another slot than the one
that was cleared. -/
structure Accounted (s : EthFramePool) (framePlace : Nat → Option (Option BufferId)) : Prop where
  placed : Placement.Holds s.frameLists framePlace fun p q => decide (q = p)
  numbered : ∀ n, (framePlace n).isSome ↔ n < s.filled.length
  known : ∀ id, (s.buffers id).Live s.settledFrames → id.idx < s.nofBuffers
  stamped : ∀ id, (s.buffers id).Live s.settledFrames →
    s.filled[(s.buffers id).frame]? = some (s.buffers id).reservationSymbolPoint
  late : ∀ t ∈ s.settled, ∀ slot, t.2 = .late slot → ∀ point, s.filled[t.1]? = some point →
    point.map (·.getSlot) ≠ some slot

theorem Accounted.place_of_live (h : s.Accounted framePlace)
    (hlive : (s.buffers id).Live s.settledFrames) : framePlace (s.buffers id).frame = some (some id) := by
  have hmem : (s.buffers id).frame ∈ s.frameLists (some id) := by
    rw [frameLists, if_pos hlive]
    exact List.mem_singleton_self _
  obtain ⟨p, hp, heq⟩ := h.placed.mem_iff.mp hmem
  rw [hp, of_decide_eq_true heq]

theorem Accounted.lt_of_settled (h : s.Accounted framePlace) {n : Nat} (hn : n ∈ s.settledFrames) :
    n < s.filled.length := by
  obtain ⟨p, hp, -⟩ := h.placed.mem_iff.mp (show n ∈ s.frameLists none from hn)
  rw [← h.numbered, hp]
  rfl

theorem Accounted.frame_ne (h : s.Accounted framePlace) (hlive : (s.buffers id).Live s.settledFrames)
    {other : BufferId} (hother : (s.buffers other).Live s.settledFrames) (hne : other ≠ id) :
    (s.buffers other).frame ≠ (s.buffers id).frame := by
  intro heq
  have hplace := h.place_of_live hother
  rw [heq, h.place_of_live hlive] at hplace
  exact hne (Option.some.inj (Option.some.inj hplace)).symm

/-- A buffer changes, and no frame does. -/
structure Quiet (s s' : EthFramePool) (id : BufferId) : Prop where
  nofBuffers : s'.nofBuffers = s.nofBuffers
  settled : s'.settled = s.settled
  filled : s'.filled = s.filled
  others : ∀ id', id' ≠ id → s'.buffers id' = s.buffers id'
  live : (s'.buffers id).Live s.settledFrames ↔ (s.buffers id).Live s.settledFrames
  same : (s.buffers id).Live s.settledFrames → (s'.buffers id).frame = (s.buffers id).frame ∧
    (s'.buffers id).reservationSymbolPoint = (s.buffers id).reservationSymbolPoint

theorem Quiet.settledFrames_eq (h : s.Quiet s' id) : s'.settledFrames = s.settledFrames := by
  rw [settledFrames, settledFrames, h.settled]

theorem Quiet.keepsOthers (h : s.Quiet s' id) : s.KeepsOthers s' id where
  buffers := h.others
  live := by
    intro id' _
    rw [h.settledFrames_eq]

theorem Quiet.live_iff (h : s.Quiet s' id) (id' : BufferId) :
    (s'.buffers id').Live s'.settledFrames ↔ (s.buffers id').Live s.settledFrames := by
  rw [h.settledFrames_eq]
  by_cases heq : id' = id
  · rw [heq]
    exact h.live
  · rw [h.others id' heq]

theorem Quiet.same_of_live (h : s.Quiet s' id) {id' : BufferId}
    (hlive : (s.buffers id').Live s.settledFrames) : (s'.buffers id').frame = (s.buffers id').frame ∧
      (s'.buffers id').reservationSymbolPoint = (s.buffers id').reservationSymbolPoint := by
  by_cases heq : id' = id
  · rw [heq] at hlive ⊢
    exact h.same hlive
  · rw [h.others id' heq]
    exact ⟨rfl, rfl⟩

theorem Accounted.quiet (h : s.Accounted framePlace) (hquiet : s.Quiet s' id) : s'.Accounted framePlace where
  placed := by
    refine h.placed.perm fun p => ?_
    cases p with
    | none => rw [frameLists, frameLists, hquiet.settledFrames_eq]
    | some id' =>
      simp only [frameLists, hquiet.live_iff id']
      by_cases hlive : (s.buffers id').Live s.settledFrames
      · rw [if_pos hlive, if_pos hlive, (hquiet.same_of_live hlive).1]
      · rw [if_neg hlive, if_neg hlive]
  numbered := by
    rw [hquiet.filled]
    exact h.numbered
  known := by
    intro id' hlive
    rw [hquiet.nofBuffers]
    exact h.known id' ((hquiet.live_iff id').mp hlive)
  stamped := by
    intro id' hlive
    rw [hquiet.live_iff] at hlive
    rw [hquiet.filled, (hquiet.same_of_live hlive).1, (hquiet.same_of_live hlive).2]
    exact h.stamped id' hlive
  late := by
    rw [hquiet.settled, hquiet.filled]
    exact h.late

/-- Something becomes of the frame of a buffer, whose state may change. -/
structure Settles (s s' : EthFramePool) (id : BufferId) (outcome : FrameOutcome) : Prop where
  nofBuffers : s'.nofBuffers = s.nofBuffers
  settled : s'.settled = s.settled ++ [((s.buffers id).frame, outcome)]
  filled : s'.filled = s.filled
  others : ∀ id', id' ≠ id → s'.buffers id' = s.buffers id'
  same : (s'.buffers id).size = (s.buffers id).size ∧ (s'.buffers id).frame = (s.buffers id).frame
  live : (s.buffers id).Live s.settledFrames
  late : ∀ slot, outcome = .late slot →
    (s.buffers id).reservationSymbolPoint.map (·.getSlot) ≠ some slot

variable {outcome : FrameOutcome}

section
variable (h : s.Settles s' id outcome)
include h

theorem Settles.settledFrames_eq : s'.settledFrames = s.settledFrames ++ [(s.buffers id).frame] := by
  rw [settledFrames, settledFrames, h.settled, List.map_append]
  rfl

theorem Settles.not_live : ¬ (s'.buffers id).Live s'.settledFrames := by
  rintro ⟨-, hnot⟩
  rw [h.settledFrames_eq, h.same.2] at hnot
  exact hnot (List.mem_append_right _ (List.mem_singleton_self _))

variable (haccounted : s.Accounted framePlace)
include haccounted

theorem Settles.live_other {id' : BufferId} (hne : id' ≠ id) :
    (s.buffers id').Live s'.settledFrames ↔ (s.buffers id').Live s.settledFrames := by
  rw [h.settledFrames_eq]
  constructor
  · rintro ⟨hsize, hnot⟩
    exact ⟨hsize, fun hmem => hnot (List.mem_append_left _ hmem)⟩
  · intro hlive
    refine ⟨hlive.1, fun hmem => ?_⟩
    rcases List.mem_append.mp hmem with hmem | hmem
    · exact hlive.2 hmem
    · exact haccounted.frame_ne h.live hlive hne (List.mem_singleton.mp hmem)

theorem Settles.keepsOthers : s.KeepsOthers s' id where
  buffers := h.others
  live := fun _ hne => h.live_other haccounted hne

theorem Settles.live_before {id' : BufferId} (hlive : (s'.buffers id').Live s'.settledFrames) :
    id' ≠ id ∧ (s.buffers id').Live s.settledFrames := by
  have hne : id' ≠ id := by
    rintro rfl
    exact h.not_live hlive
  rw [h.others id' hne, h.live_other haccounted hne] at hlive
  exact ⟨hne, hlive⟩

end

theorem Accounted.settle (h : s.Accounted framePlace) (hsettles : s.Settles s' id outcome) :
    s'.Accounted (Function.update framePlace (s.buffers id).frame (some none)) where
  placed := by
    refine h.placed.move (h.place_of_live hsettles.live) (fun _ => rfl) (fun _ => rfl) fun p n => ?_
    cases p with
    | none =>
      rw [frameLists, frameLists, hsettles.settledFrames_eq, List.count_append, List.count_singleton]
      by_cases hn : n = (s.buffers id).frame
      · simp [hn]
      · simp [hn, Ne.symm hn]
    | some id' =>
      simp only [frameLists]
      by_cases heq : id' = id
      · rw [heq, if_neg hsettles.not_live, if_pos hsettles.live, List.count_singleton]
        by_cases hn : n = (s.buffers id).frame
        · simp [hn]
        · simp [hn, Ne.symm hn]
      · simp only [hsettles.others id' heq, hsettles.live_other h heq]
        simp [heq]
  numbered := by
    intro n
    rw [hsettles.filled, ← h.numbered n]
    by_cases hn : n = (s.buffers id).frame
    · rw [hn, Function.update_self, h.place_of_live hsettles.live]
      rfl
    · rw [Function.update_of_ne hn]
  known := by
    intro id' hlive
    rw [hsettles.nofBuffers]
    exact h.known id' (hsettles.live_before h hlive).2
  stamped := by
    intro id' hlive
    obtain ⟨hne, hbefore⟩ := hsettles.live_before h hlive
    rw [hsettles.filled, hsettles.others id' hne]
    exact h.stamped id' hbefore
  late := by
    rw [hsettles.settled, hsettles.filled]
    intro t ht slot hslot point hpoint
    rcases List.mem_append.mp ht with ht | ht
    · exact h.late t ht slot hslot point hpoint
    · cases List.mem_singleton.mp ht
      rw [h.stamped id hsettles.live] at hpoint
      cases hpoint
      exact hsettles.late slot hslot

/-- A frame is written to an empty buffer of the pool. -/
structure Fills (s s' : EthFramePool) (id : BufferId) : Prop where
  nofBuffers : s'.nofBuffers = s.nofBuffers
  settled : s'.settled = s.settled
  filled : s'.filled = s.filled ++ [(s.buffers id).reservationSymbolPoint]
  others : ∀ id', id' ≠ id → s'.buffers id' = s.buffers id'
  empty : (s.buffers id).size = 0
  known : id.idx < s.nofBuffers
  size : 0 < (s'.buffers id).size
  frame : (s'.buffers id).frame = s.filled.length
  reservationSymbolPoint : (s'.buffers id).reservationSymbolPoint = (s.buffers id).reservationSymbolPoint

theorem Fills.settledFrames_eq (h : s.Fills s' id) : s'.settledFrames = s.settledFrames := by
  rw [settledFrames, settledFrames, h.settled]

theorem Fills.keepsOthers (h : s.Fills s' id) : s.KeepsOthers s' id where
  buffers := h.others
  live := by
    intro id' _
    rw [h.settledFrames_eq]

theorem Fills.live (h : s.Fills s' id) (haccounted : s.Accounted framePlace) :
    (s'.buffers id).Live s'.settledFrames := by
  refine ⟨h.size, fun hmem => ?_⟩
  rw [h.settledFrames_eq, h.frame] at hmem
  exact Nat.lt_irrefl _ (haccounted.lt_of_settled hmem)

theorem Fills.not_live (h : s.Fills s' id) : ¬ (s.buffers id).Live s.settledFrames := by
  rintro ⟨hsize, -⟩
  exact Nat.ne_of_gt hsize h.empty

theorem Accounted.fill (h : s.Accounted framePlace) (hfills : s.Fills s' id) :
    s'.Accounted (Function.update framePlace s.filled.length (some (some id))) where
  placed := by
    have hnew : framePlace s.filled.length = none := by
      rw [← Option.not_isSome_iff_eq_none, h.numbered]
      exact Nat.lt_irrefl _
    refine h.placed.insert (i := some id) (fun p hp => ?_) ?_ (fun p => ?_) (fun _ => rfl)
    · cases p with
      | none => rw [frameLists, frameLists, hfills.settledFrames_eq]
      | some id' =>
        have hne : id' ≠ id := fun heq => hp (by rw [heq])
        rw [frameLists, frameLists, hfills.others id' hne, hfills.settledFrames_eq]
    · rw [frameLists, frameLists, if_pos (hfills.live h), if_neg hfills.not_live, hfills.frame]
    · rw [h.placed p, hnew]
      rfl
  numbered := by
    intro n
    rw [hfills.filled, List.length_append, List.length_singleton]
    by_cases hn : n = s.filled.length
    · rw [hn, Function.update_self]
      simp
    · rw [Function.update_of_ne hn, h.numbered n]
      omega
  known := by
    intro id' hlive
    rw [hfills.nofBuffers]
    by_cases heq : id' = id
    · rw [heq]
      exact hfills.known
    · rw [hfills.others id' heq, hfills.settledFrames_eq] at hlive
      exact h.known id' hlive
  stamped := by
    intro id' hlive
    rw [hfills.filled]
    by_cases heq : id' = id
    · rw [heq, hfills.frame, hfills.reservationSymbolPoint]
      exact List.getElem?_concat_length
    · rw [hfills.others id' heq, hfills.settledFrames_eq] at hlive
      have hstamped := h.stamped id' hlive
      rw [hfills.others id' heq, List.getElem?_append_left (List.getElem?_eq_some_iff.mp hstamped).1]
      exact hstamped
  late := by
    rw [hfills.settled, hfills.filled]
    intro t ht slot hslot point hpoint
    have hlt := h.lt_of_settled (List.mem_map_of_mem ht)
    rw [List.getElem?_append_left hlt] at hpoint
    exact h.late t ht slot hslot point hpoint

end EthFramePool

end Srsran.Ofh
