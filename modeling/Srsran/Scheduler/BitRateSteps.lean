import Srsran.Scheduler.BitRateConfiguration

/-! What slots, allocations, grants and the removal of UEs do to the tables of tracked bit rates. -/
namespace Srsran.Scheduler
open Adt Checked

theorem QosContext.Counts.closeSlot {ctx ctx' : QosContext} {t : TrackedChannel} (h : ctx.Counts .dl t)
    (hpush : ctx.avgBytesPerSlot.push ctx.lastSchedBytes = some ctx'.avgBytesPerSlot)
    (hlast : ctx'.lastSchedBytes = 0) : ctx'.Counts .dl t.closeSlot := by
  rw [h.current rfl] at hpush
  exact ⟨h.average.push (h.fits rfl) hpush, fun _ => hlast, fun _ => Nat.two_pow_pos 32, nofun⟩

theorem QosContext.Counts.closeIdle {ctx : QosContext} {t : TrackedChannel} (h : ctx.Counts .ul t) :
    ctx.Counts .ul t.closeSlot :=
  ⟨h.average, nofun, nofun, fun _ => (h.idle rfl).closeSlot⟩

namespace LogicalChannelSystem
variable {sys sys' : LogicalChannelSystem} {l : Ledger} {d : Direction} {ue id : Nat} {row : UeRow}

/-- The samples of a slot are those of the ledger; for groups both have nothing. -/
theorem Tracking.slotIndication (h : Tracking l sys) :
    Gives (Tracking fun d ue id => (l d ue id).map TrackedChannel.closeSlot) sys.slotIndication := by
  rw [LogicalChannelSystem.slotIndication]
  refine Ensures.bind (Ensures.mapM (S := fun row row' : RowId × QosContext => row'.1 = row.1 ∧
    (row.2.avgBytesPerSlot.push row.2.lastSchedBytes = some row'.2.avgBytesPerSlot ∧
      row'.2.lastSchedBytes = 0)) fun row _ => ?_) fun rows hrows => .ok ?_
  · split
    · exact .error trivial
    · rename_i avgBytesPerSlot hpush
      exact .ok ⟨rfl, hpush, rfl⟩
  obtain ⟨hwf, hfind⟩ := SoaTable.WellFormed.mapRows
    (R := fun ctx ctx' : QosContext => ctx.avgBytesPerSlot.push ctx.lastSchedBytes = some ctx'.avgBytesPerSlot ∧
      ctx'.lastSchedBytes = 0) (h.wellFormed .dl) hrows
  refine ⟨?_, h.distinct, ?_, ?_⟩
  · intro d
    rw [setQos]
    dsimp only
    cases d with
    | dl =>
      rw [Function.update_self]
      exact hwf
    | ul => exact h.wellFormed .ul
  · intro d ue id rid hrid
    obtain ⟨ctx, t, hctx, ht, hcounts⟩ := h.counts d ue id rid hrid
    rw [ht, setQos]
    cases d with
    | dl =>
      obtain ⟨ctx', hctx', hpush, hlast⟩ := hfind rid ctx hctx
      refine ⟨ctx', t.closeSlot, ?_, rfl, hcounts.closeSlot hpush hlast⟩
      dsimp only
      rw [Function.update_self]
      exact hctx'
    | ul => exact ⟨ctx, t.closeSlot, hctx, rfl, hcounts.closeIdle⟩
  · intro ue id t ht
    obtain ⟨t', ht', rfl⟩ := Option.map_eq_some_iff.mp ht
    exact (h.idle ue id t' ht').closeSlot

/-- What is counted since the last BSR does not concern the averages. -/
theorem Tracking.handleLcgReport {isLongBsr : Bool} {lcgReport : LcgId × Nat} (h : Tracking l sys) :
    Gives (Tracking l) (LogicalChannelSystem.handleLcgReport ue isLongBsr sys lcgReport) := by
  rw [LogicalChannelSystem.handleLcgReport]
  refine getUe_gives.bind fun row hrow => ?_
  split
  · exact .ok h
  · rename_i lcg hlcg
    have hstatus : (sys.status ue).bind (fun u => u.channel? .ul lcgReport.1) = some lcg.status := by
      rw [status, hrow]
      exact channel_status hlcg
    split
    · split
      · rename_i rid hrid
        rw [updateQos]
        split
        · rename_i ctx hctx
          rw [ok_bind]
          refine Ensures.mono (keeps_updateBufSt hstatus) fun sys' h' => Tracking.framed ?_ h'
          exact h.touch hctx fun t hcounts => { hcounts with }
        · exact .error trivial
      · exact (keeps_updateBufSt hstatus).mono fun sys' h' => h.framed h'
    · exact .ok h

theorem Tracking.handleBsrIndication {isLongBsr : Bool} {reportedLcgs : List (LcgId × Nat)} (h : Tracking l sys) :
    Gives (Tracking l) (sys.handleBsrIndication ue isLongBsr reportedLcgs) :=
  @Ensures.foldlM _ _ _ _ (fun _ => Tracking l) _ reportedLcgs sys h fun _ _ _ _ _ h' => h'.handleLcgReport

def ungrantedBytes (sys : LogicalChannelSystem) (lcg : ChannelContext) : Nat :=
  if lcg.active then
    (lcg.qosRow.bind (sys.qos .ul).row?).elim 0 fun ctx => lcg.bufSt - ctx.schedBytesAccum
  else 0

/-- The bytes of a grant for tracked groups, in the order of the groups. -/
def grantShares (sys : LogicalChannelSystem) : List (LcgId × ChannelContext) → Nat → List (LcgId × Nat)
  | [], _ => []
  | e :: rest, grantSize =>
    let share := min (sys.ungrantedBytes e.2) grantSize
    (e.1, share) :: sys.grantShares rest (grantSize - share)

def grantBytes (sys : LogicalChannelSystem) (ue grantSize : Nat) (lcgid : LcgId) : Nat :=
  match sys.ues.find? ue with
  | none => 0
  | some row => ((sys.grantShares (row.side .ul).channels.entries grantSize).lookup lcgid).getD 0

/-- No group of the UE with a tracked bit rate has data that no grant was given for. -/
def allGranted (sys : LogicalChannelSystem) (ue : Nat) : Bool :=
  (sys.ues.find? ue).all fun row =>
    (row.side .ul).channels.entries.all fun e => sys.ungrantedBytes e.2 = 0

theorem grantShares_eq_zero {entries : List (LcgId × ChannelContext)} {grantSize : Nat}
    (h : grantSize = 0 ∨ ∀ e ∈ entries, sys.ungrantedBytes e.2 = 0) :
    ∀ share ∈ sys.grantShares entries grantSize, share.2 = 0 := by
  induction entries generalizing grantSize with
  | nil => exact nofun
  | cons e rest ih =>
    have hshare : min (sys.ungrantedBytes e.2) grantSize = 0 := by
      rcases h with hzero | hall
      · rw [hzero]
        exact Nat.min_zero _
      · rw [hall e List.mem_cons_self]
        exact Nat.zero_min _
    rw [grantShares, hshare, List.forall_mem_cons]
    refine ⟨rfl, ih ?_⟩
    rcases h with hzero | hall
    · exact .inl hzero
    · exact .inr fun e he => hall e (List.mem_cons_of_mem _ he)

theorem grantBytes_eq_zero {grantSize : Nat} {lcgid : LcgId} (h : grantSize = 0 ∨ sys.allGranted ue = true) :
    sys.grantBytes ue grantSize lcgid = 0 := by
  rw [grantBytes]
  split
  · rfl
  · rename_i row hrow
    cases hlookup : (sys.grantShares (row.side .ul).channels.entries grantSize).lookup lcgid with
    | none => rfl
    | some share =>
      have hmem := List.lookup_eq_some_iff.mp hlookup
      obtain ⟨before, after, hsplit, -⟩ := hmem
      apply @grantShares_eq_zero sys (row.side .ul).channels.entries grantSize ?_ (lcgid, share) ?_
      · refine h.imp_right fun hall => ?_
        rw [allGranted, hrow, Option.all_some, List.all_eq_true] at hall
        exact fun e he => of_decide_eq_true (hall e he)
      · rw [hsplit]
        exact List.mem_append_right _ List.mem_cons_self

theorem keeps_handleUlGrant {grantSize : Nat} (h : grantSize = 0 ∨ sys.allGranted ue = true) :
    Keeps sys (sys.handleUlGrant ue grantSize) := by
  rw [handleUlGrant, setPendingSrBit]
  cases setBit sys.uesWithPendingSr ue false with
  | error e => exact .error trivial
  | ok bits =>
    rw [ok_bind]
    refine Ensures.bind (P := fun row => sys.ues.find? ue = some row) getUe_gives fun row hrow => ?_
    refine Ensures.bind
      (P := fun state => state.2 = { sys with uesWithPendingSr := bits } ∧ (grantSize = 0 → state.1 = 0)) ?_ ?_
    · refine @Ensures.foldlM _ _ _ _ (fun _ (state : Nat × LogicalChannelSystem) =>
        state.2 = { sys with uesWithPendingSr := bits } ∧ (grantSize = 0 → state.1 = 0)) grantToLcg
        (row.side .ul).channels.entries _ ⟨rfl, fun hzero => hzero⟩ ?_
      intro state done e rest hentries hstate
      rw [grantToLcg]
      split
      · exact .ok hstate
      · rename_i rid hrid
        split
        · rename_i hneeds
          split
          · exact .error trivial
          · rename_i ctx hctx
            split
            · rename_i hleft
              rcases h with hzero | hall
              · exact absurd (hstate.2 hzero) hneeds.1.ne'
              · rw [allGranted, hrow, Option.all_some, List.all_eq_true] at hall
                have hmem : e ∈ (row.side .ul).channels.entries := by
                  rw [hentries]
                  exact List.mem_append_right _ List.mem_cons_self
                have hgranted := of_decide_eq_true (hall e hmem)
                rw [hstate.1] at hctx
                have hctx : (sys.qos .ul).row? rid = some ctx := hctx
                rw [ungrantedBytes, if_pos hneeds.2.1, hrid, Option.bind_some, hctx] at hgranted
                exact absurd (Nat.sub_eq_zero_iff_le.mp hgranted) (Nat.not_le_of_lt hleft)
            · exact .ok hstate
        · exact .ok hstate
    · rintro state ⟨hstate, -⟩
      rw [hstate]
      exact .ok ⟨rfl, rfl⟩

/-- The bytes of a channel in the subPDU that an allocation gives. -/
def sduBytes (sys : LogicalChannelSystem) (ue remBytes : Nat) (lcid : Lcid) : Nat :=
  match sys.allocateMacSdu ue remBytes lcid, (sys.ues.find? ue).bind fun row => row.findActive .dl lcid with
  | .ok r, some ch => min r.2.1.schedBytes ch.bufSt
  | _, _ => 0

def canAllocateSdu (sys : LogicalChannelSystem) (ue remBytes : Nat) (lcid : Lcid) : Bool :=
  getMacSduWithSubhdrAndRlcHdrEstim lcid 1 ≤ remBytes &&
    (sys.ues.find? ue).any fun row => row.pendingBytes .dl lcid ≠ 0

/-- An allocation without a subPDU, or one whose bytes are those of the slot then. -/
theorem allocateMacSdu_gives {remBytes : Nat} {lcid : Lcid} :
    Ensures (fun _ => True)
      (fun r => (r.2.1 = noSubpdu ∧ r.2.2 = sys) ∨
        ∃ row ch sys₁, sys.canAllocateSdu ue remBytes lcid = true ∧ sys.ues.find? ue = some row ∧
          row.findActive .dl lcid = some ch ∧ Framed sys sys₁ ∧
          match ch.qosRow with
          | none => r.2.2 = sys₁
          | some rid => ∃ ctx, (sys₁.qos .dl).row? rid = some ctx ∧
              r.2.2 = sys₁.setQos .dl ((sys₁.qos .dl).set rid
                { ctx with lastSchedBytes := min r.2.1.schedBytes ch.bufSt }))
      (sys.allocateMacSdu ue remBytes lcid) := by
  rw [allocateMacSdu]
  split
  · exact .ok (.inl ⟨rfl, rfl⟩)
  · rename_i hrem
    refine getUe_gives.bind fun row hrow => ?_
    split
    · exact .ok (.inl ⟨rfl, rfl⟩)
    · rename_i ch hch
      split
      · exact .ok (.inl ⟨rfl, rfl⟩)
      · rename_i hpending
        have hcan : sys.canAllocateSdu ue remBytes lcid = true := by
          rw [canAllocateSdu, hrow, Option.any_some, UeRow.pendingBytes, hch]
          simp [hpending, Nat.le_of_not_lt hrem]
        have hstatus : (sys.status ue).bind (fun u => u.channel? .dl lcid) = some ch.status := by
          rw [status, hrow]
          exact channel_status (Option.filter_eq_some_iff.mp hch).1
        refine Ensures.bind (keeps_updateBufSt hstatus) fun sys₁ h₁ => ?_
        dsimp only
        split
        · rename_i rid hrid
          rw [updateQos]
          split
          · rename_i ctx hctx
            refine .ok (.inr ⟨row, ch, sys₁, hcan, hrow, hch, h₁, ?_⟩)
            rw [hrid]
            exact ⟨ctx, hctx, rfl⟩
          · exact .error trivial
        · rename_i hnone
          refine .ok (.inr ⟨row, ch, sys₁, hcan, hrow, hch, h₁, ?_⟩)
          rw [hnone]

/-- The row IDs of the channels can be erased: those of inactive channels are left from an earlier
deactivation and must not have a row. -/
def Erasable (d : Direction) (ue : Nat) (sys : LogicalChannelSystem) : Prop :=
  ∀ u id ch rid, sys.status ue = some u → u.channel? d id = some ch → ch.qosRow = some rid →
    ch.active = true ∨ (sys.qos d).vacant rid = true

theorem Erasable.framed (h : Erasable d ue sys) (hf : Framed sys sys') : Erasable d ue sys' := by
  rw [Erasable, hf.status_eq, hf.qos_eq]
  exact h

theorem foldl_eraseQos {entries : List (Nat × ChannelContext)} :
    entries.foldl (fun sys e => sys.eraseQos d e.2.qosRow) sys =
      sys.setQos d ((entries.filterMap fun e => e.2.qosRow).foldl SoaTable.erase (sys.qos d)) := by
  induction entries generalizing sys with
  | nil =>
    rw [List.foldl_nil, List.filterMap_nil, List.foldl_nil, setQos, Function.update_eq_self]
  | cons e rest ih =>
    rw [List.foldl_cons, ih, List.filterMap_cons]
    cases hrid : e.2.qosRow with
    | none => rfl
    | some rid =>
      dsimp only
      rw [List.foldl_cons, eraseQos, setQos, setQos, setQos]
      dsimp only
      rw [Function.update_self, Function.update_idem]

theorem status_mapChannels {f : ChannelContext → ChannelContext} :
    (row.updateSide d fun side => { side with channels := side.channels.mapValues fun _ ch => f ch }).status =
      { row.status with
        channel? := fun d' id => if d' = d then (row.channel? d id).map fun ch => (f ch).status
          else row.status.channel? d' id } := by
  rw [UeRow.status]
  congr 1
  funext d' id
  rw [UeRow.channel?, UeRow.updateSide]
  dsimp only
  by_cases hd : d' = d
  · rw [hd, Function.update_self, OrdMap.find?_mapValues, if_pos rfl, Option.map_map]
    rfl
  · rw [Function.update_of_ne hd, if_neg hd]
    rfl

theorem Tracking.detachChannels (h : Tracking l sys) (herasable : Erasable d ue sys) :
    Gives (fun sys' => Tracking l sys' ∧ ∀ d', d' ≠ d → Erasable d' ue sys → Erasable d' ue sys')
      (sys.detachChannels ue d) := by
  rw [LogicalChannelSystem.detachChannels]
  refine getUe_gives.bind fun row hrow => ?_
  rw [foldl_eraseQos]
  generalize hrids : ((row.side d).channels.entries.filterMap fun e => e.2.qosRow) = rids
  have hstatus : sys.status ue = some row.status := by
    rw [status, hrow]
    rfl
  have hmem : ∀ {rid : RowId}, rid ∈ rids → ∃ id ch, row.channel? d id = some ch ∧ ch.qosRow = some rid ∧
      (sys.trackedRow d ue id = some rid ∨ (sys.qos d).vacant rid = true) := by
    intro rid hrid
    rw [← hrids, List.mem_filterMap] at hrid
    obtain ⟨e, he, hrid⟩ := hrid
    have hch : row.channel? d e.1 = some e.2 := OrdMap.find?_eq_some_iff.mpr he
    refine ⟨e.1, e.2, hch, hrid, ?_⟩
    refine (herasable row.status e.1 e.2.status rid hstatus (channel_status hch) hrid).imp_left fun hactive => ?_
    have hactive : e.2.active = true := hactive
    rw [trackedRow_eq hrow, UeRow.findActive, hch]
    simp [Option.filter, hactive, hrid]
  have hused : ∀ rid ∈ rids, ((sys.qos d).row? rid).isSome ∨ (sys.qos d).vacant rid = true := by
    intro rid hrid
    obtain ⟨id, -, -, -, htracked | hvacant⟩ := hmem hrid
    · obtain ⟨ctx, -, hctx, -⟩ := h.counts d ue id rid htracked
      rw [hctx]
      exact .inl rfl
    · exact .inr hvacant
  have hdistinct : rids.Pairwise fun rid rid' => rid = rid' → (sys.qos d).vacant rid = true := by
    rw [← hrids, List.pairwise_filterMap]
    refine (row.side d).channels.sorted.imp_of_mem fun {e e'} he he' hlt rid hrid rid' hrid' heq => ?_
    subst heq
    have hch : row.channel? d e.1 = some e.2 := OrdMap.find?_eq_some_iff.mpr he
    have hch' : row.channel? d e'.1 = some e'.2 := OrdMap.find?_eq_some_iff.mpr he'
    rcases herasable row.status e.1 e.2.status rid hstatus (channel_status hch) hrid with hactive | hvacant
    · rcases herasable row.status e'.1 e'.2.status rid hstatus (channel_status hch') hrid' with hactive' | hvacant
      · have hactive : e.2.active = true := hactive
        have hactive' : e'.2.active = true := hactive'
        have htracked : sys.trackedRow d ue e.1 = some rid := by
          rw [trackedRow_eq hrow, UeRow.findActive, hch]
          simp [Option.filter, hactive, hrid]
        have htracked' : sys.trackedRow d ue e'.1 = some rid := by
          rw [trackedRow_eq hrow, UeRow.findActive, hch']
          simp [Option.filter, hactive', hrid']
        exact absurd (h.distinct d ue e'.1 ue e.1 rid htracked' htracked).2 (ne_of_lt hlt)
      · exact hvacant
    · exact hvacant
  obtain ⟨hwf, hrows⟩ := (h.wellFormed d).eraseAll hused hdistinct
  dsimp only
  generalize hsys' : (sys.setQos d (rids.foldl SoaTable.erase (sys.qos d))).setUe ue
    (row.updateSide d fun side =>
      { side with channels := side.channels.mapValues fun _ ch => { ch with sliceId := none, active := false } }) =
    sys'
  have hqos : sys'.qos = Function.update sys.qos d (rids.foldl SoaTable.erase (sys.qos d)) := by
    rw [← hsys']
    rfl
  have hstatus' : sys'.status = Function.update sys.status ue (some
      { row.status with
        channel? := fun d' id => if d' = d then (row.channel? d id).map fun ch => ⟨false, ch.qosRow⟩
          else row.status.channel? d' id }) := by
    rw [← hsys', status_setUe, status_mapChannels]
    rfl
  have htracked : ∀ d' ue' id, sys'.trackedRow d' ue' id =
      if d' = d ∧ ue' = ue then none else sys.trackedRow d' ue' id := by
    intro d' ue' id
    rw [trackedRow, trackedRow, hstatus']
    by_cases hue : ue' = ue
    · rw [hue, Function.update_self, hstatus, Option.bind_some, Option.bind_some, UeStatus.trackedRow,
        UeStatus.trackedRow]
      by_cases hd : d' = d
      · simp [hd]
      · simp [hd]
    · rw [Function.update_of_ne hue, if_neg fun heq => hue heq.2]
  refine .ok ⟨⟨?_, ?_, ?_, h.idle⟩, fun d' hd hother u id ch rid hu hch hrid => ?_⟩
  · intro d'
    rw [hqos]
    by_cases hd : d' = d
    · rw [hd, Function.update_self]
      exact hwf
    · rw [Function.update_of_ne hd]
      exact h.wellFormed d'
  · intro d' ue₁ id₁ ue₂ id₂ rid h₁ h₂
    rw [htracked] at h₁ h₂
    split at h₁
    · cases h₁
    · split at h₂
      · cases h₂
      · exact h.distinct d' ue₁ id₁ ue₂ id₂ rid h₁ h₂
  · intro d' ue' id rid hrid
    rw [htracked] at hrid
    split at hrid
    · cases hrid
    · rename_i hkey
      obtain ⟨ctx, t, hctx, ht, hcounts⟩ := h.counts d' ue' id rid hrid
      refine ⟨ctx, t, ?_, ht, hcounts⟩
      rw [hqos]
      by_cases hd : d' = d
      · subst hd
        have hnot : rid ∉ rids := by
          intro hmemRid
          obtain ⟨id', -, -, -, hsame | hvacant⟩ := hmem hmemRid
          · exact hkey ⟨rfl, (h.distinct _ ue id' ue' id rid hsame hrid).1⟩
          · rw [SoaTable.row?_of_vacant hvacant] at hctx
            cases hctx
        rw [Function.update_self, hrows, if_neg hnot]
        exact hctx
      · rw [Function.update_of_ne hd]
        exact hctx
  · rw [hstatus', Function.update_self, Option.some.injEq] at hu
    rw [← hu] at hch
    dsimp only at hch
    rw [if_neg hd] at hch
    rw [hqos, Function.update_of_ne hd]
    exact hother row.status id ch rid hstatus hch hrid

theorem Tracking.deactivate (h : Tracking l sys) (herasable : ∀ d, Erasable d ue sys) :
    Gives (Tracking l) (sys.deactivate ue) := by
  rw [LogicalChannelSystem.deactivate]
  refine getUe_gives.bind fun row hrow => ?_
  have hstart := @framed_setUe sys ue row
    { row with pendingConResId := false, pendingCes := [], pendingCeBytes := 0 } hrow rfl
  refine Ensures.bind (keeps_setPendingCesBit.mono fun _ => hstart.trans) fun sys₁ h₁ => ?_
  refine Ensures.bind (keeps_setPendingSrBit.mono fun _ => h₁.trans) fun sys₂ h₂ => ?_
  refine ((h.framed h₂).detachChannels ((herasable .dl).framed h₂)).bind fun sys₃ ⟨h₃, hother⟩ => ?_
  refine (h₃.detachChannels (hother .ul nofun ((herasable .ul).framed h₂))).bind fun sys₄ ⟨h₄, _⟩ => ?_
  refine Ensures.bind keeps_removeSlices fun sys₅ h₅ => ?_
  refine Ensures.bind (keeps_removeSlices.mono fun _ => h₅.trans) fun sys₆ h₆ => ?_
  refine getUe_gives.bind fun row₆ hrow₆ => .ok ?_
  exact h₄.framed (h₆.trans (framed_setUe hrow₆ rfl))

theorem Tracking.removeUe (h : Tracking l sys) (herasable : ∀ d, Erasable d ue sys) :
    Gives (Tracking l) (sys.removeUe ue) := by
  rw [LogicalChannelSystem.removeUe]
  refine (h.deactivate herasable).bind fun sys₁ h₁ => ?_
  dsimp only
  refine setBit_gives.bind fun bits _ => ?_
  have herased : Tracking l { sys₁ with ues := sys₁.ues.erase ue, configuredUes := bits } := by
    refine h₁.mono rfl fun d ue' id rid hrid => ?_
    have hstatus : status { sys₁ with ues := sys₁.ues.erase ue, configuredUes := bits } ue' =
        if ue' = ue then none else sys₁.status ue' := by
      rw [status, status, OrdMap.find?_erase]
      split <;> rfl
    rw [trackedRow, hstatus] at hrid
    split at hrid
    · cases hrid
    · exact hrid
  split
  · exact .ok (herased.framed ⟨rfl, rfl⟩)
  · exact .ok herased

end LogicalChannelSystem
end Srsran.Scheduler
