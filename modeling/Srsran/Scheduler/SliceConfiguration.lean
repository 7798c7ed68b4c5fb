import Srsran.Scheduler.SliceFallback

/-! Configuration of the channels of a UE: the bits of its slices follow its row. -/
namespace Srsran.Scheduler
open Checked

namespace UeRow
variable {row : UeRow} {d d' : Direction} {id id' : Nat} {slice : RanSliceId} {ch : ChannelContext}

def eraseChannel (row : UeRow) (d : Direction) (id : Nat) : UeRow :=
  row.updateSide d fun side => { side with channels := side.channels.erase id }

theorem channel?_eraseChannel : (row.eraseChannel d id).channel? d' id' =
    if d' = d ∧ id' = id then none else row.channel? d' id' := by
  rw [channel?, channel?, eraseChannel]
  by_cases h : d' = d
  · rw [h, side_updateSide_self, OrdMap.find?_erase]
    simp
  · rw [side_updateSide_of_ne h]
    simp [h]

@[simp] theorem pending?_eraseChannel : (row.eraseChannel d id).pending? d' slice = row.pending? d' slice := by
  rw [pending?, pending?, eraseChannel]
  by_cases h : d' = d
  · rw [h, side_updateSide_self]
  · rw [side_updateSide_of_ne h]

@[simp] theorem bits_eraseChannel : (row.eraseChannel d id).bits = row.bits := by
  funext d' slice
  rw [bits, bits, pending?_eraseChannel]

theorem evolves_eraseChannel (hnone : ∀ ch, row.channel? d id = some ch → ch.sliceId = none) :
    row.Evolves (row.eraseChannel d id) := by
  refine ⟨fun h => ⟨?_, ?_, ?_⟩, rfl, rfl, rfl⟩
  · intro d' slice bytes hbytes
    rw [pending?_eraseChannel] at hbytes
    have htotal : (row.eraseChannel d id).sliceTotal d' slice = row.sliceTotal d' slice := by
      rw [sliceTotal, sliceTotal, eraseChannel]
      by_cases hd : d' = d
      · rw [hd, side_updateSide_self]
        have hsplit := @OrdMap.total_erase _ _ _ (row.side d).channels id fun id ch => ch.bytesIn d slice id
        have hzero : ((row.side d).channels.find? id).elim 0 (fun ch => ch.bytesIn d slice id) = 0 := by
          cases hch : (row.side d).channels.find? id with
          | none => rfl
          | some ch => exact ChannelContext.bytesIn_of_sliceId_none (hnone ch hch) d slice id
        rw [hzero] at hsplit
        exact hsplit
      · rw [side_updateSide_of_ne hd]
    rw [htotal]
    exact h.pending_eq d' slice bytes hbytes
  · intro d' id' ch slice hch hslice
    rw [channel?_eraseChannel] at hch
    rw [pending?_eraseChannel]
    split at hch
    · cases hch
    · exact h.known d' id' ch slice hch hslice
  · intro d' id' ch hch
    rw [channel?_eraseChannel] at hch
    split at hch
    · cases hch
    · exact h.bufSt_le d' id' ch hch

theorem deregistered_sliceId (hch : (row.deregistered d id).channel? d id = some ch) : ch.sliceId = none := by
  cases hold : row.channel? d id with
  | none =>
    rw [channel?_deregistered_none hold] at hch
    cases hch
  | some old =>
    rw [channel?_deregistered hold] at hch
    cases hch
    rfl

theorem evolves_remove : row.Evolves ((row.deregistered d id).eraseChannel d id) :=
  evolves_deregistered.trans (evolves_eraseChannel fun _ hch => deregistered_sliceId hch)

theorem evolves_activate (hch : row.channel? d id = some ch) (hinactive : ch.active = false) :
    row.Evolves ((row.bufStUpdated d id true ch.sliceId ch.bufSt 0).setChannel d id { ch with active := true }) := by
  rw [← bufStUpdated_setChannel]
  have hold : ∀ slice, ((some ch).elim 0 fun old => old.bytesIn d slice id) = 0 :=
    fun slice => ChannelContext.bytesIn_of_inactive hinactive d slice id
  refine evolves_change hch (fun h => h.bufSt_le d id ch hch) (fun _ => Nat.zero_le _) ?_ ?_ ?_
  · intro slice
    rw [hold slice]
    rfl
  · intro slice _ _
    rw [hold slice, bufStBytes_zero]
  · intro slice hslice h
    exact h.known d id ch slice hch hslice

end UeRow

namespace LogicalChannelSystem
variable {sys sys' : LogicalChannelSystem} {ue : Nat} {row row' : UeRow} {base : Nat → UeView}
  {d : Direction} {id : Nat} {slice : RanSliceId} {ces configured : Bool} {ch : ChannelContext}

namespace Viewed

section
variable (h : Viewed base ue (row.view ces configured) sys)
include h

theorem eraseChannel :
    Viewed base ue ((row.eraseChannel d id).view ces configured) (sys.setUe ue (row.eraseChannel d id)) := by
  refine h.setRow UeRow.bits_eraseChannel fun d' slice hsome => ?_
  rw [UeRow.pending?_eraseChannel] at hsome
  exact hsome

theorem removeRegistered (hsound : row.Sound) : Gives (Updated base ue row ces configured) (do
        let sys ← sys.deregisterRanSlice ue d id
        let row ← sys.getUe ue
        return sys.setUe ue (row.eraseChannel d id)) := by
  refine (h.deregisterRanSlice hsound).bind fun sys' h' => ?_
  rw [h'.getUe]
  exact .ok ⟨_, UeRow.evolves_remove, h'.eraseChannel⟩

theorem removeLcg {lcgid : LcgId} {lcg : ChannelContext}
    (hsound : row.Sound) : Gives (Updated base ue row ces configured) (sys.removeLcg ue lcgid lcg) := by
  rw [LogicalChannelSystem.removeLcg]
  split
  · exact .error trivial
  · exact h.eraseQos.removeRegistered hsound

theorem releaseLcg {lcgid removed : LcgId}
    (hsound : row.Sound) : Gives (Updated base ue row ces configured) (sys.releaseLcg ue lcgid removed) := by
  rw [LogicalChannelSystem.releaseLcg, h.getUe, ok_bind]
  split
  · exact .error trivial
  · rename_i lcg hlcg
    have hrow := @UeRow.evolves_setChannel_of_same row .ul lcgid
      { lcg with lcCount := (lcg.lcCount + 255) % 2 ^ 8 } lcg hlcg rfl rfl rfl
    dsimp only
    split
    · exact (h.setChannel.removeLcg (hrow.sound hsound)).mono fun _ => Updated.trans hrow
    · exact .ok ⟨_, hrow, h.setChannel⟩

theorem removeChannel {oldLc : LogicalChannelConfig}
    (hsound : row.Sound) : Gives (Updated base ue row ces configured) (sys.removeChannel ue oldLc) := by
  rw [LogicalChannelSystem.removeChannel, h.getUe, ok_bind]
  split
  · exact .error trivial
  · rename_i ch hch
    refine (h.eraseQos.deregisterRanSlice hsound).bind fun sys₁ h₁ => ?_
    rw [h₁.getUe, ok_bind]
    have hrow := @UeRow.evolves_remove row .dl oldLc.lcid
    exact (h₁.eraseChannel.releaseLcg (hrow.sound hsound)).mono fun _ => Updated.trans hrow

theorem emplaceChannel (hfresh : row.channel? d id = none)
    (hbufSt : ch.bufSt ≤ maxBufferStatus) (hslice : ch.sliceId = none) :
    Gives (Updated base ue row ces configured) (sys.emplaceChannel ue d id ch) := by
  have hadded : Updated base ue row ces configured (sys.setUe ue (row.setChannel d id ch)) := by
    refine ⟨_, ?_, h.setChannel⟩
    refine UeRow.evolves_setChannel hfresh (fun _ => hbufSt) ?_ ?_
    · exact fun slice => ChannelContext.bytesIn_of_sliceId_none hslice d slice id
    · intro slice hsome
      rw [hslice] at hsome
      cases hsome
  dsimp only [LogicalChannelSystem.emplaceChannel]
  rw [h.getUe, ok_bind]
  cases d with
  | dl =>
    dsimp only
    split
    · exact .error trivial
    · exact .ok hadded
  | ul =>
    dsimp only
    split
    · exact .error trivial
    · exact .ok hadded

theorem activate : Gives (Updated base ue row ces configured) (sys.activate ue d id) := by
  rw [LogicalChannelSystem.activate, h.getUe, ok_bind]
  split
  · exact .error trivial
  · rename_i ch hch
    split
    · rename_i hactive
      rw [ok_bind]
      dsimp only
      rw [h.getUe]
      refine .ok ⟨_, ?_, h.setChannel⟩
      exact UeRow.evolves_setChannel_of_same hch hactive.symm rfl rfl
    · rename_i hinactive
      refine h.onBufStUpdate.bind fun sys' h' => ?_
      dsimp only
      rw [h'.getUe]
      exact .ok ⟨_, UeRow.evolves_activate hch (Bool.eq_false_of_not_eq_true hinactive), h'.setChannel⟩

theorem trackQos {winSizeMsec : Nat} :
    Gives (Updated base ue row ces configured) (sys.trackQos ue d id winSizeMsec) := by
  rw [LogicalChannelSystem.trackQos, h.getUe, ok_bind]
  split
  · exact .error trivial
  · rename_i ch hch
    dsimp only
    split
    · exact h.updateQos.mono fun _ => Viewed.updated
    · refine h.setQos.setChannel.updateQos.mono fun sys' h' => ⟨_, ?_, h'⟩
      exact UeRow.evolves_setChannel_of_same hch rfl rfl rfl

theorem untrackQos : Gives (Updated base ue row ces configured) (sys.untrackQos ue d id) := by
  rw [LogicalChannelSystem.untrackQos, h.getUe, ok_bind]
  split
  · exact .error trivial
  · rename_i ch hch
    refine .ok ⟨_, ?_, h.eraseQos.setChannel⟩
    exact UeRow.evolves_setChannel_of_same hch rfl rfl rfl

end

variable {cfg : LogicalChannelConfig}

variable (h : Viewed base ue (row.view ces configured) sys)
include h

theorem configureQos (hsound : row.Sound) :
    Gives (Updated base ue row ces configured) (sys.configureQos ue cfg) := by
  rw [LogicalChannelSystem.configureQos]
  split
  · split
    · exact .error trivial
    · exact Updated.chain hsound h.trackQos fun _ _ _ h' => h'.trackQos
  · exact Updated.chain hsound h.untrackQos fun _ _ _ h' => h'.untrackQos

variable {oldCfgs : Option (List LogicalChannelConfig)}

theorem configureLcg {newCh : Bool} (hsound : row.Sound) :
    Gives (Updated base ue row ces configured) (sys.configureLcg ue oldCfgs cfg newCh) := by
  rw [LogicalChannelSystem.configureLcg, h.getUe, ok_bind]
  split
  · rename_i hfresh
    exact h.emplaceChannel hfresh (Nat.zero_le _) rfl
  · rename_i lcg hlcg
    have hrow := @UeRow.evolves_setChannel_of_same row .ul cfg.lcGroup
      { lcg with lcCount := (lcg.lcCount + 1) % 2 ^ 8 } lcg hlcg rfl rfl rfl
    dsimp only
    split
    · exact .ok ⟨_, hrow, h.setChannel⟩
    · split
      · exact .ok h.updated
      · split
        · exact .error trivial
        · split
          · exact .ok h.updated
          · exact (h.setChannel.releaseLcg (hrow.sound hsound)).mono fun _ => Updated.trans hrow

theorem configureChannel (hsound : row.Sound) :
    Gives (Updated base ue row ces configured) (sys.configureChannel ue oldCfgs cfg) := by
  rw [LogicalChannelSystem.configureChannel, h.getUe, ok_bind]
  have hrest : ∀ sys row' newCh, row'.Sound → Viewed base ue (row'.view ces configured) sys →
      Gives (Updated base ue row' ces configured)
        (do
          let sys ← sys.configureLcg ue oldCfgs cfg newCh
          let sys ← sys.activate ue .dl cfg.lcid
          let sys ← sys.activate ue .ul cfg.lcGroup
          sys.configureQos ue cfg) := by
    intro sys row' newCh hsound' h'
    refine Updated.chain hsound' (h'.configureLcg hsound') fun sys₁ row₁ hsound₁ h₁ => ?_
    refine Updated.chain hsound₁ h₁.activate fun sys₂ row₂ hsound₂ h₂ => ?_
    refine Updated.chain hsound₂ h₂.activate fun sys₃ row₃ hsound₃ h₃ => ?_
    exact h₃.configureQos hsound₃
  dsimp only
  split
  · rename_i hnew
    have hfresh := Option.isNone_iff_eq_none.mp hnew
    exact Updated.chain hsound (h.emplaceChannel hfresh (Nat.zero_le _) rfl) fun sys₁ row₁ hsound₁ h₁ =>
      hrest sys₁ row₁ _ hsound₁ h₁
  · exact hrest sys row _ hsound h

theorem setSame (hside : row'.side = row.side)
    (hfallback : row'.fallbackState = row.fallbackState) (hces : row'.pendingCes = row.pendingCes)
    (hbytes : row'.pendingCeBytes = row.pendingCeBytes) :
    Updated base ue row ces configured (sys.setUe ue row') := by
  refine ⟨row', ⟨fun hsound => hsound.of_same hside hfallback, hfallback, hces, hbytes⟩, h.setRow ?_ ?_⟩
  · funext d slice
    rw [UeRow.bits, UeRow.bits, UeRow.pending?, UeRow.pending?, hside]
  · intro d slice hsome
    rw [UeRow.pending?, hside] at hsome
    exact hsome

theorem configure {cfgs : List LogicalChannelConfig}
    (hsound : row.Sound) : Gives (Updated base ue row ces configured) (sys.configure ue cfgs) := by
  rw [LogicalChannelSystem.configure, h.getUe, ok_bind]
  obtain ⟨row₁, hrow₁, h₁⟩ := @setSame _ _ row { row with channelConfigs := some cfgs } _ _ _ h rfl rfl rfl rfl
  have hsound₁ := hrow₁.sound hsound
  have hremove : Gives _ ((row.channelConfigs.getD []).foldlM
      (fun sys oldLc =>
        if cfgs.any fun cfg => cfg.lcid = oldLc.lcid then .ok sys else sys.removeChannel ue oldLc) _) :=
    Updated.foldlM hsound₁ h₁ ?_
  · refine (Updated.chain hsound₁ hremove fun sys₂ row₂ hsound₂ h₂ => ?_).mono fun _ => Updated.trans hrow₁
    have hconfigure : Gives _ (cfgs.foldlM
        (fun sys cfg => sys.configureChannel ue row.channelConfigs cfg) sys₂) :=
      Updated.foldlM hsound₂ h₂ fun _ _ _ hsound' h' => h'.configureChannel hsound'
    refine Updated.chain hsound₂ hconfigure fun sys₃ row₃ hsound₃ h₃ => ?_
    rw [h₃.getUe]
    exact .ok (h₃.setSame rfl rfl rfl rfl)
  · intro sys' row' oldLc hsound' h'
    split
    · exact .ok h'.updated
    · exact h'.removeChannel hsound'

end Viewed
end LogicalChannelSystem
end Srsran.Scheduler
