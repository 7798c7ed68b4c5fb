import Srsran.Scheduler.SliceConfiguration

/-! Allocation of SDUs and CEs, UL grants and the deactivation of a UE: the bits of its slices follow its
row. -/
namespace Srsran.Scheduler
open Checked

namespace LogicalChannelSystem
variable {sys sys' : LogicalChannelSystem} {ue : Nat} {row row' : UeRow} {base : Nat → UeView}
  {d : Direction} {id : Nat} {slice : RanSliceId} {ces configured : Bool} {ch : ChannelContext}

theorem bufStAfter_le {lcid bufSt remBytes : Nat}
    (hrem : ¬ remBytes < getMacSduWithSubhdrAndRlcHdrEstim lcid 1) :
    bufStAfter lcid bufSt (min (getMacSduSize (sduAllocBytes lcid (bufStBytes .dl lcid bufSt) remBytes)) bufSt) ≤
      bufSt := by
  by_cases hsrb : lcid = lcidSrb0
  · rw [bufStAfter, if_neg fun h => h.1 hsrb]
    exact Nat.sub_le _ _
  · have hestim : getMacSduWithSubhdrAndRlcHdrEstim lcid 1 = 6 := by
      rw [getMacSduWithSubhdrAndRlcHdrEstim, if_pos ⟨hsrb, Nat.one_pos⟩]
      decide
    rw [hestim] at hrem
    have halloc : 6 ≤ sduAllocBytes lcid (bufStBytes .dl lcid bufSt) remBytes := by
      rw [sduAllocBytes, hestim, Mac.macSduSubheaderLengthThres, Mac.minMacSduSubheaderSize]
      split <;> split <;> omega
    have hsize : 4 ≤ getMacSduSize (sduAllocBytes lcid (bufStBytes .dl lcid bufSt) remBytes) := by
      rw [getMacSduSize, Mac.macSduSubheaderLengthThres, Mac.minMacSduSubheaderSize]
      split
      · omega
      · dsimp only
        split <;> omega
    rw [bufStAfter, rlcSegmentationOverhead]
    split <;> omega

theorem ceBytes_le (lcid : Mac.LcidDlSch) : ceBytes lcid ≤ 7 := by
  rw [ceBytes, fixedSizedMacCeSubheaderSize, Mac.LcidDlSch.sizeofCe]
  split
  · decide
  · split
    · decide
    · split
      · decide
      · split <;> decide

namespace Viewed

variable {remBytes : Nat}

theorem allocateMacSdu {lcid : Nat} (h : Viewed base ue (row.view ces configured) sys) :
    Ensures (fun _ => True) (fun r => Updated base ue row ces configured r.2.2)
      (sys.allocateMacSdu ue remBytes lcid) := by
  rw [LogicalChannelSystem.allocateMacSdu]
  split
  · exact .ok h.updated
  · rename_i hrem
    rw [h.getUe, ok_bind]
    split
    · exact .ok h.updated
    · rename_i ch hactive
      split
      · exact .ok h.updated
      · have hch : row.channel? .dl lcid = some ch := (Option.filter_eq_some_iff.mp hactive).1
        have hupdate := h.updateBufSt hch fun hsound =>
          (bufStAfter_le hrem).trans (hsound.bufSt_le .dl lcid ch hch)
        refine hupdate.bind fun sys' h' => ?_
        dsimp only
        split
        · obtain ⟨row', hrow, h'⟩ := h'
          exact h'.updateQos.bind fun sys'' h'' => .ok ⟨row', hrow, h''⟩
        · exact .ok h'

theorem allocateUeConResIdMacCe (h : Viewed base ue (row.view ces configured) sys) :
    Ensures (fun _ => True) (fun r => Updated base ue row ces configured r.2.2)
      (sys.allocateUeConResIdMacCe ue remBytes) := by
  rw [LogicalChannelSystem.allocateUeConResIdMacCe, h.getUe, ok_bind]
  dsimp only
  split
  · exact .ok (h.setSame rfl rfl rfl rfl)
  · exact .ok h.updated

theorem popCe {ce : MacCeInfo} {rest : List MacCeInfo} (hsound : row.Sound) (hces : row.CesSound ces)
    (hpending : row.pendingCes = ce :: rest) (h : Viewed base ue (row.view ces configured) sys) :
    Gives (Kept base ue configured)
      (if rest = [] then
        (sys.setUe ue
          { row with
            pendingCes := rest
            pendingCeBytes := (row.pendingCeBytes + 2 ^ 32 - ceBytes ce.ceLcid) % 2 ^ 32 }).setPendingCesBit
          ue false
      else
        .ok (sys.setUe ue
          { row with
            pendingCes := rest
            pendingCeBytes := (row.pendingCeBytes + 2 ^ 32 - ceBytes ce.ceLcid) % 2 ^ 32 })) := by
  have hset := @setRow _ _ row { row with
    pendingCes := rest
    pendingCeBytes := (row.pendingCeBytes + 2 ^ 32 - ceBytes ce.ceLcid) % 2 ^ 32 } _ _ _ h rfl fun _ _ hsome => hsome
  have hbytes : (row.pendingCeBytes + 2 ^ 32 - ceBytes ce.ceLcid) % 2 ^ 32 =
      (rest.map fun ce => ceBytes ce.ceLcid).sum % 2 ^ 32 := by
    have hle := ceBytes_le ce.ceLcid
    rw [hces.bytes_eq, hpending, List.map_cons, List.sum_cons]
    omega
  split
  · rename_i hnil
    refine hset.setPendingCesBit.mono fun sys' h' => ⟨_, false, ?_, ⟨hbytes, ?_, nofun⟩, h'⟩
    · exact hsound.of_same rfl rfl
    · exact fun _ hne => absurd hnil hne
  · rename_i hne
    refine .ok ⟨_, ces, ?_, ⟨hbytes, ?_, fun _ => hne⟩, hset⟩
    · exact hsound.of_same rfl rfl
    · exact fun hnormal _ => hces.reported hnormal (hpending ▸ List.cons_ne_nil ce rest)

theorem allocateMacCe (h : Viewed base ue (row.view ces configured) sys) (hsound : row.Sound)
    (hces : row.CesSound ces) :
    Ensures (fun _ => True) (fun r => Kept base ue configured r.2.2) (sys.allocateMacCe ue remBytes) := by
  rw [LogicalChannelSystem.allocateMacCe]
  refine h.allocateUeConResIdMacCe.bind fun conRes hconRes => ?_
  split
  · exact .ok (hconRes.kept hsound hces)
  · rw [h.getUe, ok_bind]
    cases hpending : row.pendingCes with
    | nil => exact .ok ⟨row, ces, hsound, hces, h⟩
    | cons ce rest =>
      dsimp only
      split
      · exact .ok ⟨row, ces, hsound, hces, h⟩
      · have hpop := h.popCe hsound hces hpending
        split
        · rename_i hnil
          rw [if_pos hnil] at hpop
          exact hpop.bind fun sys' h' => .ok h'
        · rename_i hne
          rw [if_neg hne] at hpop
          exact .ok hpop

theorem handleUlGrant {grantSize : Nat} (h : Viewed base ue (row.view ces configured) sys) :
    Gives (Viewed base ue (row.view ces configured)) (sys.handleUlGrant ue grantSize) := by
  rw [LogicalChannelSystem.handleUlGrant]
  refine h.setPendingSrBit.bind fun sys₁ h₁ => ?_
  rw [h₁.getUe, ok_bind]
  have hloop : Ensures (fun _ => True) _ ((row.side .ul).channels.entries.foldlM grantToLcg (grantSize, sys₁)) :=
    Ensures.foldlM (I := fun _ state => Viewed base ue (row.view ces configured) state.2) h₁ ?_
  · exact hloop.bind fun state hstate => .ok hstate
  · intro state done e rest _ hstate
    rw [grantToLcg]
    split
    · exact .ok hstate
    · split
      · split
        · exact .error trivial
        · split
          · exact hstate.updateQos.bind fun sys' h' => .ok h'
          · exact .ok hstate
      · exact .ok hstate

end Viewed

def detachedRow (row : UeRow) (d : Direction) : UeRow :=
  row.updateSide d fun side =>
    { side with channels := side.channels.mapValues fun _ ch => { ch with sliceId := none, active := false } }

def unslicedRow (row : UeRow) (d : Direction) : UeRow :=
  row.updateSide d fun side => { side with pendingBytesPerSlice := .empty }

variable {d' : Direction}

theorem channel?_detachedRow : (detachedRow row d).channel? d' id =
    if d' = d then (row.channel? d id).map fun ch => { ch with sliceId := none, active := false }
    else row.channel? d' id := by
  rw [UeRow.channel?, UeRow.channel?, UeRow.channel?, detachedRow]
  by_cases h : d' = d
  · rw [h, UeRow.side_updateSide_self, OrdMap.find?_mapValues, if_pos rfl]
  · rw [UeRow.side_updateSide_of_ne h, if_neg h]

theorem pending?_detachedRow : (detachedRow row d).pending? d' slice = row.pending? d' slice := by
  rw [UeRow.pending?, UeRow.pending?, detachedRow]
  by_cases h : d' = d
  · rw [h, UeRow.side_updateSide_self]
  · rw [UeRow.side_updateSide_of_ne h]

theorem bits_detachedRow : (detachedRow row d).bits = row.bits := by
  funext d' slice
  rw [UeRow.bits, UeRow.bits, pending?_detachedRow]

theorem channel?_unslicedRow : (unslicedRow row d).channel? d' id = row.channel? d' id := by
  rw [UeRow.channel?, UeRow.channel?, unslicedRow]
  by_cases h : d' = d
  · rw [h, UeRow.side_updateSide_self]
  · rw [UeRow.side_updateSide_of_ne h]

theorem pending?_unslicedRow : (unslicedRow row d).pending? d' slice =
    if d' = d then none else row.pending? d' slice := by
  rw [UeRow.pending?, UeRow.pending?, unslicedRow]
  by_cases h : d' = d
  · rw [h, UeRow.side_updateSide_self, if_pos rfl]
    rfl
  · rw [UeRow.side_updateSide_of_ne h, if_neg h]

theorem bits_unslicedRow :
    (unslicedRow row d).bits = fun d' slice => if d' = d then false else row.bits d' slice := by
  funext d' slice
  rw [UeRow.bits, pending?_unslicedRow]
  split <;> rfl

def deactivatedRow (row : UeRow) : UeRow :=
  unslicedRow (unslicedRow (detachedRow (detachedRow row .dl) .ul) .dl) .ul

theorem pending?_deactivatedRow : (deactivatedRow row).pending? d slice = none := by
  rw [deactivatedRow, pending?_unslicedRow, pending?_unslicedRow]
  cases d <;> rfl

theorem bits_deactivatedRow : (deactivatedRow row).bits d slice = false := by
  rw [UeRow.bits, pending?_deactivatedRow]
  rfl

theorem channel?_deactivatedRow : (deactivatedRow row).channel? d id =
    (row.channel? d id).map fun ch => { ch with sliceId := none, active := false } := by
  rw [deactivatedRow, channel?_unslicedRow, channel?_unslicedRow, channel?_detachedRow, channel?_detachedRow,
    channel?_detachedRow]
  cases d <;> rfl

theorem sound_deactivatedRow (row' : UeRow) (hsound : row.Sound) (hside : row'.side = row.side) :
    (deactivatedRow row').Sound := by
  refine ⟨?_, ?_, ?_⟩
  · intro d slice bytes hbytes
    rw [pending?_deactivatedRow] at hbytes
    cases hbytes
  · intro d id ch slice hch hslice
    rw [channel?_deactivatedRow] at hch
    obtain ⟨old, -, rfl⟩ := Option.map_eq_some_iff.mp hch
    cases hslice
  · intro d id ch hch
    rw [channel?_deactivatedRow, UeRow.channel?, hside] at hch
    obtain ⟨old, hold, rfl⟩ := Option.map_eq_some_iff.mp hch
    exact hsound.bufSt_le d id old hold

namespace Viewed

variable (h : Viewed base ue (row.view ces configured) sys)
include h

theorem detachChannels :
    Gives (Viewed base ue ((detachedRow row d).view ces configured)) (sys.detachChannels ue d) := by
  rw [LogicalChannelSystem.detachChannels, h.getUe, ok_bind]
  refine .ok ?_
  have herased : ∀ (es : List (Nat × ChannelContext)) (sys : LogicalChannelSystem),
      Viewed base ue (row.view ces configured) sys →
      Viewed base ue (row.view ces configured) (es.foldl (fun sys e => sys.eraseQos d e.2.qosRow) sys) := by
    intro es
    induction es with
    | nil => exact fun _ h => h
    | cons e es ih => exact fun sys h => ih _ h.eraseQos
  refine (herased _ sys h).setRow bits_detachedRow fun d' slice hsome => ?_
  rw [pending?_detachedRow] at hsome
  exact hsome

theorem removeSlices :
    Gives (Viewed base ue ((unslicedRow row d).view ces configured)) (sys.removeSlices ue d) := by
  rw [LogicalChannelSystem.removeSlices]
  refine (h.resetSliceBits row rfl fun _ hbit => hbit).bind fun sys' h' => ?_
  rw [LogicalChannelSystem.getUe, h'.row_eq]
  rw [UeRow.view, bits_unslicedRow]
  refine .ok (h'.setUe fun d' slice hsome => ?_)
  rw [pending?_unslicedRow] at hsome
  split at hsome
  · cases hsome
  · exact h'.provisioned.known ue row d' slice h'.row_eq hsome

theorem deactivate (hsound : row.Sound) : Gives
      (fun sys => ∃ row' : UeRow, row'.Sound ∧ row'.CesSound false ∧ (∀ d slice, row'.bits d slice = false) ∧
        Viewed base ue (row'.view false configured) sys)
      (sys.deactivate ue) := by
  rw [LogicalChannelSystem.deactivate, h.getUe, ok_bind]
  have h₁ := @setRow _ _ row { row with pendingConResId := false, pendingCes := [], pendingCeBytes := 0 } _ _ _ h rfl
    fun _ _ hsome => hsome
  refine h₁.setPendingCesBit.bind fun sys₂ h₂ => ?_
  have h₂ : Viewed base ue (UeRow.view _ false configured) sys₂ := h₂
  refine h₂.setPendingSrBit.bind fun sys₃ h₃ => ?_
  refine h₃.detachChannels.bind fun sys₄ h₄ => ?_
  refine h₄.detachChannels.bind fun sys₅ h₅ => ?_
  refine h₅.removeSlices.bind fun sys₆ h₆ => ?_
  refine h₆.removeSlices.bind fun sys₇ h₇ => ?_
  rw [h₇.getUe]
  refine .ok ⟨_, ?_, ⟨rfl, fun _ hne => absurd rfl hne, nofun⟩, ?_, h₇.setRow rfl fun _ _ hsome => hsome⟩
  · exact (sound_deactivatedRow _ hsound rfl).of_same rfl rfl
  · exact fun d slice => bits_deactivatedRow

end Viewed
end LogicalChannelSystem
end Srsran.Scheduler
