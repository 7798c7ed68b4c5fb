import Srsran.Scheduler.BitRates
import Srsran.Scheduler.SliceConfiguration

/-! The configuration of the channels of a UE keeps the tables of tracked bit rates in step with the
ledger. -/
namespace Srsran.Scheduler
open Adt Checked

def ChannelStatus.tracked (ch : ChannelStatus) : Option RowId := if ch.active then ch.qosRow else none

theorem UeRow.status_eraseChannel {row : UeRow} {d : Direction} {id : Nat} :
    (row.eraseChannel d id).status = row.status.setChannel d id none := by
  rw [status, status, UeStatus.setChannel]
  congr 1
  funext d' id'
  rw [channel?_eraseChannel]
  split <;> rfl

namespace LogicalChannelSystem
variable {sys sys₁ sys' : LogicalChannelSystem} {l : Ledger} {d d' : Direction} {ue ue' id id' slotsPerMsec : Nat}
  {row row' : UeRow} {ch : ChannelContext} {ch? : Option ChannelStatus} {cfg : LogicalChannelConfig}
  {cfgs : List LogicalChannelConfig}

def SetsChannel (sys : LogicalChannelSystem) (d : Direction) (ue id : Nat) (ch? : Option ChannelStatus)
    (sys' : LogicalChannelSystem) : Prop :=
  ∃ u, sys.status ue = some u ∧ sys'.status = Function.update sys.status ue (some (u.setChannel d id ch?))

theorem setsChannel_setUe (hrow : sys.ues.find? ue = some row)
    (hstatus : row'.status = row.status.setChannel d id ch?) : SetsChannel sys d ue id ch? (sys.setUe ue row') := by
  refine ⟨row.status, ?_, ?_⟩
  · rw [status, hrow]
    rfl
  · rw [status_setUe, hstatus]

theorem SetsChannel.of_framed (h : SetsChannel sys₁ d ue id ch? sys') (hf : Framed sys sys₁) :
    SetsChannel sys d ue id ch? sys' := by
  rw [SetsChannel, ← hf.status_eq]
  exact h

variable {qosRow : Option RowId}

theorem ues_eraseQos : (sys.eraseQos d qosRow).ues = sys.ues := by
  cases qosRow <;> rfl

theorem SetsChannel.of_eraseQos (h : SetsChannel (sys.eraseQos d' qosRow) d ue id ch? sys') :
    SetsChannel sys d ue id ch? sys' := by
  cases qosRow <;> exact h

theorem SetsChannel.trackedRow (h : SetsChannel sys d ue id ch? sys') : sys'.trackedRow d' ue' id' =
    if d' = d ∧ ue' = ue ∧ id' = id then ch?.bind ChannelStatus.tracked else sys.trackedRow d' ue' id' := by
  obtain ⟨u, hu, hstatus⟩ := h
  rw [LogicalChannelSystem.trackedRow, LogicalChannelSystem.trackedRow, hstatus]
  by_cases hue : ue' = ue
  · rw [hue, Function.update_self, hu, Option.bind_some, Option.bind_some, UeStatus.trackedRow,
      UeStatus.trackedRow, UeStatus.setChannel]
    by_cases hkey : d' = d ∧ id' = id
    · simp only [hkey, and_self, if_true]
      rfl
    · simp [hkey]
  · rw [Function.update_of_ne hue, if_neg fun heq => hue heq.2.1]

/-- The UE exists, and only its active channels have rows. -/
def Configured (ue slotsPerMsec : Nat) (sys : LogicalChannelSystem) : Prop :=
  ∃ u, sys.status ue = some u ∧ u.slotsPerMsec = slotsPerMsec ∧
    ∀ d id ch, u.channel? d id = some ch → ch.qosRow.isSome → ch.active = true

section
variable (h : Configured ue slotsPerMsec sys)
include h

theorem Configured.of_status (hstatus : sys'.status = sys.status) : Configured ue slotsPerMsec sys' := by
  rw [Configured, hstatus]
  exact h

theorem Configured.setsChannel (hset : SetsChannel sys d ue id ch? sys')
    (hactive : ∀ ch, ch? = some ch → ch.qosRow.isSome → ch.active = true) : Configured ue slotsPerMsec sys' := by
  obtain ⟨u, hu, hslots, hold⟩ := h
  obtain ⟨u', hu', hstatus⟩ := hset
  rw [hu] at hu'
  cases hu'
  refine ⟨u.setChannel d id ch?, ?_, hslots, fun d' id' ch hch => ?_⟩
  · rw [hstatus, Function.update_self]
  · rw [UeStatus.setChannel] at hch
    dsimp only at hch
    split at hch
    · exact hactive ch hch
    · exact hold d' id' ch hch

theorem Configured.trackedRow (hrow : sys.ues.find? ue = some row)
    (hch : row.channel? d id = some ch) : sys.trackedRow d ue id = ch.qosRow := by
  obtain ⟨u, hu, -, hactive⟩ := h
  rw [status, hrow, Option.map_some, Option.some.injEq] at hu
  have hstatus := channel_status hch
  rw [hu] at hstatus
  rw [trackedRow_eq hrow, UeRow.findActive, hch]
  cases hqos : ch.qosRow with
  | none => cases hch : ch.active <;> simp [Option.filter, hch, hqos]
  | some rid =>
    have hqosRow : ch.status.qosRow = some rid := hqos
    have htrue : ch.active = true := hactive d id _ hstatus (by rw [hqosRow]; rfl)
    simp [Option.filter, htrue, hqos]

theorem Configured.slotsPerMsec_eq (hrow : sys.ues.find? ue = some row) :
    row.slotsPerMsec = slotsPerMsec := by
  obtain ⟨u, hu, hslots, -⟩ := h
  rw [status, hrow, Option.map_some, Option.some.injEq] at hu
  rw [← hslots, ← hu]
  rfl

end

/-- What the configuration of a UE keeps; the ledger has no channels of the new configuration that are not
tracked. -/
structure Tidy (ue slotsPerMsec : Nat) (cfgs : List LogicalChannelConfig) (l : Ledger)
    (sys : LogicalChannelSystem) : Prop where
  tracking : Tracking l sys
  configured : Configured ue slotsPerMsec sys
  live : ∀ cfg ∈ cfgs, sys.trackedRow .dl ue cfg.lcid = none → l .dl ue cfg.lcid = none

section
variable (h : Tidy ue slotsPerMsec cfgs l sys)
include h

theorem Tidy.framed (hf : Framed sys sys') : Tidy ue slotsPerMsec cfgs l sys' := by
  refine ⟨h.tracking.framed hf, h.configured.of_status hf.status_eq, ?_⟩
  rw [hf.trackedRow_eq]
  exact h.live

theorem Tidy.setsChannel (hset : SetsChannel sys d ue id ch? sys')
    (hqos : sys'.qos = sys.qos) (hsame : ch?.bind ChannelStatus.tracked = sys.trackedRow d ue id)
    (hactive : ∀ ch, ch? = some ch → ch.qosRow.isSome → ch.active = true) :
    Tidy ue slotsPerMsec cfgs l sys' := by
  have hrows : sys'.trackedRow = sys.trackedRow := by
    funext d' ue' id'
    rw [hset.trackedRow]
    split
    · rename_i heq
      rw [heq.1, heq.2.1, heq.2.2, hsame]
    · rfl
  refine ⟨h.tracking.mono hqos ?_, h.configured.setsChannel hset hactive, ?_⟩
  · rw [hrows]
    exact fun _ _ _ _ hrid => hrid
  · rw [hrows]
    exact h.live

/-- The row of a channel is erased, with or without the channel. -/
theorem Tidy.erase (hrow : sys.ues.find? ue = some row)
    (hch : row.channel? d id = some ch) (hset : SetsChannel sys d ue id ch? sys')
    (hqos : sys'.qos = (sys.eraseQos d ch.qosRow).qos) (hnone : ch?.bind ChannelStatus.tracked = none)
    (hactive : ∀ ch, ch? = some ch → ch.qosRow.isSome → ch.active = true) :
    Tracking l sys' ∧ Configured ue slotsPerMsec sys' := by
  refine ⟨?_, h.configured.setsChannel hset hactive⟩
  apply h.tracking.erase (fun rid hrid => ?_) hqos (fun d' ue' id' rid hrid => ?_)
  · rw [hset.trackedRow, if_pos ⟨rfl, rfl, rfl⟩]
    exact hnone
  · rw [h.configured.trackedRow hrow hch]
    exact hrid
  · rw [hset.trackedRow] at hrid
    split at hrid
    · rw [hnone] at hrid
      cases hrid
    · exact hrid

end

def Active (d : Direction) (ue id : Nat) (sys : LogicalChannelSystem) : Prop :=
  ∀ u ch, sys.status ue = some u → u.channel? d id = some ch → ch.active = true

theorem Active.setsChannel (h : Active d' ue id' sys) (hset : SetsChannel sys d ue id ch? sys')
    (hactive : ∀ ch, ch? = some ch → (d' = d ∧ id' = id → ch.active = true)) : Active d' ue id' sys' := by
  obtain ⟨u, hu, hstatus⟩ := hset
  intro u' ch hu' hch
  rw [hstatus, Function.update_self, Option.some.injEq] at hu'
  rw [← hu', UeStatus.setChannel] at hch
  dsimp only at hch
  split at hch
  · rename_i hkey
    exact hactive ch hch hkey
  · exact h u ch hu hch

theorem activate_gives :
    Gives (fun sys' => sys'.qos = sys.qos ∧ ∃ row ch, sys.ues.find? ue = some row ∧ row.channel? d id = some ch ∧
      SetsChannel sys d ue id (some ⟨true, ch.qosRow⟩) sys') (sys.activate ue d id) := by
  rw [activate]
  refine getUe_gives.bind fun row hrow => ?_
  split
  · exact .error trivial
  · rename_i ch hch
    have hset : ∀ sys₁, Framed sys sys₁ →
        Gives (fun sys' => sys'.qos = sys.qos ∧ ∃ row ch, sys.ues.find? ue = some row ∧
          row.channel? d id = some ch ∧ SetsChannel sys d ue id (some ⟨true, ch.qosRow⟩) sys')
          (do
            let row ← sys₁.getUe ue
            return sys₁.setUe ue (row.setChannel d id { ch with active := true })) := by
      intro sys₁ h₁
      refine getUe_gives.bind fun row₁ hrow₁ => .ok ⟨h₁.qos_eq, row, ch, hrow, hch, ?_⟩
      exact (setsChannel_setUe hrow₁ UeRow.status_setChannel).of_framed h₁
    split
    · exact hset sys .refl
    · exact Ensures.bind keeps_onBufStUpdate hset

section
variable (h : Tidy ue slotsPerMsec cfgs l sys)
include h

theorem Tidy.activate : Gives (fun sys' => Tidy ue slotsPerMsec cfgs l sys' ∧ Active d ue id sys' ∧
      ∀ d' id', Active d' ue id' sys → Active d' ue id' sys') (sys.activate ue d id) := by
  refine activate_gives.mono fun sys' ⟨hqos, row, ch, hrow, hch, hset⟩ => ⟨?_, ?_, ?_⟩
  · apply h.setsChannel hset hqos
    · rw [h.configured.trackedRow hrow hch]
      rfl
    · rintro _ ⟨⟩ -
      rfl
  · obtain ⟨u, hu, hstatus⟩ := hset
    intro u' ch' hu' hch'
    rw [hstatus, Function.update_self, Option.some.injEq] at hu'
    rw [← hu', UeStatus.setChannel] at hch'
    dsimp only at hch'
    rw [if_pos ⟨rfl, rfl⟩] at hch'
    cases hch'
    rfl
  · intro d' id' hold
    apply hold.setsChannel hset
    rintro _ ⟨⟩ -
    rfl

theorem Tidy.trackQos {winSizeMsec : Nat} (hactive : Active d ue id sys)
    (hlive : d = .dl → sys.trackedRow d ue id = none → l d ue id = none) :
    Gives
      (fun sys' =>
        Tidy ue slotsPerMsec cfgs
          (l.set d ue id (some (TrackedChannel.retrack (l d ue id) ((winSizeMsec * slotsPerMsec) % 2 ^ 32)))) sys' ∧
        ∀ d' id', Active d' ue id' sys → Active d' ue id' sys')
      (sys.trackQos ue d id winSizeMsec) := by
  have hwindow : (winSizeMsec * slotsPerMsec) % 2 ^ 32 < 2 ^ 32 := Nat.mod_lt _ (Nat.two_pow_pos 32)
  rw [LogicalChannelSystem.trackQos]
  refine getUe_gives.bind fun row hrow => ?_
  split
  · exact .error trivial
  · rename_i ch hch
    rw [h.configured.slotsPerMsec_eq hrow]
    generalize (winSizeMsec * slotsPerMsec) % 2 ^ 32 = window at hwindow
    have htracked := h.configured.trackedRow hrow hch
    dsimp only
    split
    · rename_i rid hrid
      rw [hrid] at htracked
      obtain ⟨ctx, t, hctx, ht, hcounts⟩ := h.tracking.counts d ue id rid htracked
      rw [updateQos, hctx, ht]
      refine .ok ⟨⟨?_, h.configured.of_status rfl, ?_⟩, fun _ _ hold => hold⟩
      · exact h.tracking.update htracked hctx (hcounts.resize hwindow)
      · intro cfg hcfg hnone
        rw [Ledger.set]
        split
        · rename_i heq
          rw [← heq.1, ← heq.2.2] at htracked
          exact absurd (htracked.symm.trans hnone) (Option.some_ne_none _)
        · exact h.live cfg hcfg hnone
    · rename_i hnone
      rw [hnone] at htracked
      have hchActive : ch.active = true := by
        apply hactive row.status ch.status
        · rw [status, hrow]
          rfl
        · exact channel_status hch
      have hempty : QosContext.Counts {} d { window := 0 } := by
        cases d with
        | dl => exact ⟨.inr ⟨rfl, rfl, rfl⟩, fun _ => rfl, fun _ => Nat.two_pow_pos 32, (by rintro ⟨⟩)⟩
        | ul => exact ⟨.inr ⟨rfl, rfl, rfl⟩, (by rintro ⟨⟩), (by rintro ⟨⟩),
            fun _ => ⟨rfl, fun _ hmem => absurd hmem List.not_mem_nil⟩⟩
      generalize hsys₁ : (sys.setQos d ((sys.qos d).insert {}).2).setUe ue
        (row.setChannel d id { ch with qosRow := some ((sys.qos d).insert {}).1 }) = sys₁
      have hqos : sys₁.qos = Function.update sys.qos d ((sys.qos d).insert {}).2 := by
        rw [← hsys₁]
        rfl
      have hset : SetsChannel sys d ue id (some ⟨ch.active, some ((sys.qos d).insert {}).1⟩) sys₁ := by
        rw [← hsys₁]
        exact setsChannel_setUe hrow UeRow.status_setChannel
      have hinserted : Tracking (l.set d ue id (some { window := 0 })) sys₁ := by
        apply h.tracking.insert htracked hempty hqos
        intro d' ue' id' rid' hrid'
        rw [hset.trackedRow] at hrid'
        split
        · rename_i hkey
          rw [if_pos hkey, Option.bind_some, ChannelStatus.tracked, if_pos hchActive] at hrid'
          exact (Option.some.inj hrid').symm
        · rename_i hkey
          rw [if_neg hkey] at hrid'
          exact hrid'
      have hnew : sys₁.trackedRow d ue id = some ((sys.qos d).insert {}).1 := by
        rw [hset.trackedRow, if_pos ⟨rfl, rfl, rfl⟩, Option.bind_some, ChannelStatus.tracked, if_pos hchActive]
      have hrid : (sys₁.qos d).row? ((sys.qos d).insert {}).1 = some {} := by
        rw [hqos, Function.update_self, (h.tracking.wellFormed d).row?_insert, if_pos rfl]
      have hcounts := @QosContext.counts_new (l d ue id) d window hwindow (fun hd => hlive hd htracked)
        (fun t hd ht => h.tracking.idle ue id t (hd ▸ ht))
      have hupdated := hinserted.update hnew hrid hcounts
      rw [Ledger.set_set] at hupdated
      rw [updateQos, hrid]
      refine .ok ⟨⟨hupdated, ?_, ?_⟩, fun d' id' hold => ?_⟩
      · apply (h.configured.setsChannel hset ?_).of_status rfl
        rintro _ ⟨⟩ -
        exact hchActive
      · intro cfg hcfg hnone'
        have hnone' : sys₁.trackedRow .dl ue cfg.lcid = none := hnone'
        rw [hset.trackedRow] at hnone'
        rw [Ledger.set]
        split
        · rename_i hkey
          rw [if_pos hkey, Option.bind_some, ChannelStatus.tracked, if_pos hchActive] at hnone'
          cases hnone'
        · rename_i hkey
          rw [if_neg hkey] at hnone'
          exact h.live cfg hcfg hnone'
      · have hold₁ : Active d' ue id' sys₁ := by
          apply hold.setsChannel hset
          rintro _ ⟨⟩ -
          exact hchActive
        exact hold₁

theorem Tidy.untrackQos : Gives (fun sys' => Tidy ue slotsPerMsec cfgs (l.set d ue id none) sys' ∧
        ∀ d' id', Active d' ue id' sys → Active d' ue id' sys')
      (sys.untrackQos ue d id) := by
  rw [LogicalChannelSystem.untrackQos]
  refine getUe_gives.bind fun row hrow => ?_
  split
  · exact .error trivial
  · rename_i ch hch
    generalize hsys' : (sys.eraseQos d ch.qosRow).setUe ue (row.setChannel d id { ch with qosRow := none }) = sys'
    have hset : SetsChannel sys d ue id (some ⟨ch.active, none⟩) sys' := by
      rw [← hsys']
      apply SetsChannel.of_eraseQos
      apply setsChannel_setUe _ UeRow.status_setChannel
      rw [ues_eraseQos]
      exact hrow
    have huntracked : (some (⟨ch.active, none⟩ : ChannelStatus)).bind ChannelStatus.tracked = none := by
      rw [Option.bind_some, ChannelStatus.tracked]
      split <;> rfl
    have hqos : sys'.qos = (sys.eraseQos d ch.qosRow).qos := by
      rw [← hsys']
      rfl
    obtain ⟨htracking, hconfigured⟩ := h.erase hrow hch hset hqos huntracked fun ch' hch' hsome => by
      cases hch'
      cases hsome
    refine .ok ⟨⟨?_, hconfigured, ?_⟩, fun d' id' hold => hold.setsChannel hset ?_⟩
    · apply htracking.congr
      · intro d' ue' id' htracked
        apply Ledger.set_of_ne
        rintro ⟨rfl, rfl, rfl⟩
        rw [hset.trackedRow, if_pos ⟨rfl, rfl, rfl⟩] at htracked
        exact htracked huntracked
      · intro ue' id' t ht
        rw [Ledger.set] at ht
        split at ht
        · cases ht
        · exact h.tracking.idle ue' id' t ht
    · intro cfg hcfg hnone
      rw [Ledger.set]
      split
      · rfl
      · rename_i hkey
        rw [hset.trackedRow, if_neg hkey] at hnone
        exact h.live cfg hcfg hnone
    · rintro _ ⟨⟩ ⟨rfl, rfl⟩
      apply hold row.status ch.status
      · rw [status, hrow]
        rfl
      · exact channel_status hch

/-- The tracking of an LCID and its group, which are both active. -/
theorem Tidy.configureQos (hcfg : cfg ∈ cfgs)
    (hdl : Active .dl ue cfg.lcid sys) (hul : Active .ul ue cfg.lcGroup sys) :
    Gives (Tidy ue slotsPerMsec cfgs (l.configure ue slotsPerMsec cfg)) (sys.configureQos ue cfg) := by
  rw [LogicalChannelSystem.configureQos, Ledger.configure, LogicalChannelConfig.window?]
  split
  · rename_i qos hqos
    rw [hqos, Option.bind_some]
    split
    · exact .error trivial
    · rename_i winSizeMsec hwindow
      rw [hwindow, Option.map_some]
      refine (h.trackQos hdl fun _ => h.live cfg hcfg).bind fun sys₁ hdone => ?_
      obtain ⟨h₁, hkeeps⟩ := hdone
      exact (h₁.trackQos (hkeeps .ul cfg.lcGroup hul) (by rintro ⟨⟩)).mono fun _ h' => h'.1
  · rename_i hqos
    rw [hqos]
    exact h.untrackQos.bind fun _ hdone => hdone.1.untrackQos.mono fun _ h' => h'.1

end

def Absent (d : Direction) (ue id : Nat) (sys : LogicalChannelSystem) : Prop :=
  ∀ u, sys.status ue = some u → u.channel? d id = none

theorem Absent.setsChannel (h : Absent d' ue id' sys) (hset : SetsChannel sys d ue id ch? sys')
    (hother : ¬(d' = d ∧ id' = id)) : Absent d' ue id' sys' := by
  obtain ⟨u, hu, hstatus⟩ := hset
  intro u' hu'
  rw [hstatus, Function.update_self, Option.some.injEq] at hu'
  rw [← hu', UeStatus.setChannel]
  exact (if_neg hother).trans (h u hu)

theorem SetsChannel.absent (h : SetsChannel sys d ue id none sys') : Absent d ue id sys' := by
  obtain ⟨u, hu, hstatus⟩ := h
  intro u' hu'
  rw [hstatus, Function.update_self, Option.some.injEq] at hu'
  rw [← hu', UeStatus.setChannel]
  exact if_pos ⟨rfl, rfl⟩

theorem Absent.channel_none (h : Absent d ue id sys) (hrow : sys.ues.find? ue = some row) :
    row.channel? d id = none := by
  have hstatus := h row.status (by rw [status, hrow]; rfl)
  rw [UeRow.channel?_status, Option.map_eq_none_iff] at hstatus
  exact hstatus

theorem Tidy.emplaceChannel (h : Tidy ue slotsPerMsec cfgs l sys) (hfresh : Absent d ue id sys)
    (hqos : ch.qosRow = none) : Gives (Tidy ue slotsPerMsec cfgs l) (sys.emplaceChannel ue d id ch) := by
  dsimp only [LogicalChannelSystem.emplaceChannel]
  refine getUe_gives.bind fun row hrow => ?_
  have hadded : Tidy ue slotsPerMsec cfgs l (sys.setUe ue (row.setChannel d id ch)) := by
    apply h.setsChannel (setsChannel_setUe hrow UeRow.status_setChannel) rfl
    · rw [trackedRow_eq hrow, UeRow.findActive, hfresh.channel_none hrow, Option.bind_some, ChannelStatus.tracked]
      split
      · exact hqos
      · rfl
    · rintro _ ⟨⟩ hsome
      rw [ChannelContext.status, hqos] at hsome
      cases hsome
  cases d with
  | dl =>
    dsimp only
    split
    · exact .error trivial
    · exact .ok hadded
  | ul =>
    dsimp only
    split
    · exact .error trivial
    · exact .ok hadded

/-- A channel is removed together with its row; it is not one of the new configuration. -/
theorem Tidy.remove (h : Tidy ue slotsPerMsec cfgs l sys) (hrow : sys.ues.find? ue = some row)
    (hch : row.channel? d id = some ch) (hset : SetsChannel sys d ue id none sys')
    (hqos : sys'.qos = (sys.eraseQos d ch.qosRow).qos) (hcfgs : d = .dl → ∀ cfg ∈ cfgs, cfg.lcid ≠ id) :
    Tidy ue slotsPerMsec cfgs l sys' := by
  obtain ⟨htracking, hconfigured⟩ := h.erase hrow hch hset hqos rfl nofun
  refine ⟨htracking, hconfigured, fun cfg hcfg hnone => ?_⟩
  apply h.live cfg hcfg
  rw [hset.trackedRow] at hnone
  split at hnone
  · rename_i hkey
    exact absurd hkey.2.2 (hcfgs hkey.1.symm cfg hcfg)
  · exact hnone

theorem eraseChannel_gives :
    Gives (fun sys' => sys'.qos = (sys.eraseQos d qosRow).qos ∧ SetsChannel sys d ue id none sys')
      (do
        let sys ← (sys.eraseQos d qosRow).deregisterRanSlice ue d id
        let row ← sys.getUe ue
        return sys.setUe ue (row.eraseChannel d id)) := by
  refine Ensures.bind keeps_deregisterRanSlice fun sys₁ h₁ => getUe_gives.bind fun row₁ hrow₁ => .ok ⟨?_, ?_⟩
  · exact h₁.qos_eq
  · exact ((setsChannel_setUe hrow₁ UeRow.status_eraseChannel).of_framed h₁).of_eraseQos

variable (h : Tidy ue slotsPerMsec cfgs l sys)
include h

/-- When another group is removed, that one is missing afterwards. -/
theorem Tidy.releaseLcg {lcgid removed : LcgId} :
    Gives (fun sys' => Tidy ue slotsPerMsec cfgs l sys' ∨ lcgid ≠ removed ∧ Absent .ul ue removed sys')
      (sys.releaseLcg ue lcgid removed) := by
  rw [LogicalChannelSystem.releaseLcg]
  refine getUe_gives.bind fun row hrow => ?_
  split
  · exact .error trivial
  · rename_i lcg hlcg
    have hcounted := @framed_setChannel sys ue lcgid .ul row { lcg with lcCount := (lcg.lcCount + 255) % 2 ^ 8 }
      lcg hrow hlcg rfl
    have h₁ := h.framed hcounted
    dsimp only
    split
    · rw [removeLcg]
      split
      · exact .error trivial
      · refine eraseChannel_gives.mono fun sys' hdone => ?_
        obtain ⟨hqos, hset⟩ := hdone
        by_cases hremoved : lcgid = removed
        · subst hremoved
          refine .inl (h₁.remove OrdMap.find?_insert_self ?_ hset hqos (by rintro ⟨⟩))
          rw [UeRow.channel?_setChannel, if_pos ⟨rfl, rfl⟩]
        · exact .inr ⟨hremoved, hset.absent⟩
    · exact .ok (.inl h₁)

theorem Tidy.removeChannel {oldLc : LogicalChannelConfig}
    (hcfgs : ∀ cfg ∈ cfgs, cfg.lcid ≠ oldLc.lcid) :
    Gives (Tidy ue slotsPerMsec cfgs l) (sys.removeChannel ue oldLc) := by
  rw [LogicalChannelSystem.removeChannel]
  refine getUe_gives.bind fun row hrow => ?_
  split
  · exact .error trivial
  · rename_i ch hch
    refine Ensures.bind keeps_deregisterRanSlice fun sys₁ h₁ => getUe_gives.bind fun row₁ hrow₁ => ?_
    have hset : SetsChannel sys .dl ue oldLc.lcid none (sys₁.setUe ue (row₁.eraseChannel .dl oldLc.lcid)) :=
      ((setsChannel_setUe hrow₁ UeRow.status_eraseChannel).of_framed h₁).of_eraseQos
    refine ((h.remove hrow hch hset h₁.qos_eq fun _ => hcfgs).releaseLcg).mono fun sys' h' => ?_
    rcases h' with htidy | ⟨hne, -⟩
    · exact htidy
    · exact absurd rfl hne

variable {oldCfgs : Option (List LogicalChannelConfig)}

/-- The group of an LCID is there afterwards, unless it was removed for another one. -/
theorem Tidy.configureLcg {newCh : Bool} :
    Gives (fun sys' => Tidy ue slotsPerMsec cfgs l sys' ∨ Absent .ul ue cfg.lcGroup sys')
      (sys.configureLcg ue oldCfgs cfg newCh) := by
  rw [LogicalChannelSystem.configureLcg]
  refine getUe_gives.bind fun row hrow => ?_
  split
  · rename_i hnone
    refine (h.emplaceChannel ?_ rfl).mono fun _ => Or.inl
    intro u hu
    rw [status, hrow, Option.map_some, Option.some.injEq] at hu
    rw [← hu, UeRow.channel?_status, hnone]
    rfl
  · rename_i lcg hlcg
    have hcounted := @framed_setChannel sys ue cfg.lcGroup .ul row { lcg with lcCount := (lcg.lcCount + 1) % 2 ^ 8 }
      lcg hrow hlcg rfl
    dsimp only
    split
    · exact .ok (.inl (h.framed hcounted))
    · split
      · exact .ok (.inl h)
      · split
        · exact .error trivial
        · split
          · exact .ok (.inl h)
          · exact (h.framed hcounted).releaseLcg.mono fun _ => Or.imp_right And.right

theorem Tidy.configureChannel (hcfg : cfg ∈ cfgs) :
    Gives (Tidy ue slotsPerMsec cfgs (l.configure ue slotsPerMsec cfg)) (sys.configureChannel ue oldCfgs cfg) := by
  rw [LogicalChannelSystem.configureChannel]
  refine getUe_gives.bind fun row hrow => ?_
  have hrest : ∀ sys newCh, Tidy ue slotsPerMsec cfgs l sys →
      Gives (Tidy ue slotsPerMsec cfgs (l.configure ue slotsPerMsec cfg))
        (do
          let sys ← sys.configureLcg ue oldCfgs cfg newCh
          let sys ← sys.activate ue .dl cfg.lcid
          let sys ← sys.activate ue .ul cfg.lcGroup
          sys.configureQos ue cfg) := by
    intro sys newCh h
    refine h.configureLcg.bind fun sys₁ h₁ => ?_
    rcases h₁ with htidy | habsent
    · refine htidy.activate.bind fun sys₂ hdone => ?_
      obtain ⟨h₂, hdl, -⟩ := hdone
      refine h₂.activate.bind fun sys₃ hdone => ?_
      obtain ⟨h₃, hul, hkeeps⟩ := hdone
      exact h₃.configureQos hcfg (hkeeps .dl cfg.lcid hdl) hul
    · -- The group that was removed does not become active.
      refine activate_gives.bind fun sys₂ hdone => ?_
      obtain ⟨_, _, _, _, _, hset⟩ := hdone
      have habsent₂ := habsent.setsChannel hset (by rintro ⟨⟨⟩, -⟩)
      refine activate_gives.bind fun sys₃ hdone => ?_
      obtain ⟨_, row₂, lcg, hrow₂, hlcg, _⟩ := hdone
      rw [habsent₂.channel_none hrow₂] at hlcg
      cases hlcg
  dsimp only
  split
  · rename_i hnew
    refine Ensures.bind (h.emplaceChannel ?_ rfl) fun sys₁ h₁ => hrest sys₁ _ h₁
    intro u hu
    rw [status, hrow, Option.map_some, Option.some.injEq] at hu
    rw [← hu, UeRow.channel?_status, Option.isNone_iff_eq_none.mp hnew]
    rfl
  · exact hrest sys _ h

theorem Tidy.configure :
    Gives (Tidy ue slotsPerMsec cfgs (cfgs.foldl (fun l cfg => l.configure ue slotsPerMsec cfg) l))
      (sys.configure ue cfgs) := by
  rw [LogicalChannelSystem.configure]
  refine getUe_gives.bind fun row hrow => ?_
  have hstart := h.framed (@framed_setUe sys ue row { row with channelConfigs := some cfgs } hrow rfl)
  have hremoved := @Ensures.foldlM _ _ _ (fun _ : LcFault => True) (fun _ => Tidy ue slotsPerMsec cfgs l)
    (fun sys (oldLc : LogicalChannelConfig) =>
      if cfgs.any fun cfg => cfg.lcid = oldLc.lcid then .ok sys else sys.removeChannel ue oldLc)
    (row.channelConfigs.getD []) _ hstart fun sys₁ _ oldLc _ _ h₁ => ?_
  · refine Ensures.bind hremoved fun sys₂ h₂ => ?_
    have hconfigured := @Ensures.foldlM _ _ _ (fun _ : LcFault => True)
      (fun done => Tidy ue slotsPerMsec cfgs (done.foldl (fun l cfg => l.configure ue slotsPerMsec cfg) l))
      (fun sys cfg => sys.configureChannel ue row.channelConfigs cfg) cfgs sys₂ h₂ fun sys₃ done cfg rest hcfgs h₃ => ?_
    · refine Ensures.bind hconfigured fun sys₄ h₄ => getUe_gives.bind fun row₄ hrow₄ => ?_
      exact .ok (h₄.framed (framed_setUe hrow₄ rfl))
    · rw [List.foldl_append]
      apply h₃.configureChannel
      rw [hcfgs]
      exact List.mem_append_right _ List.mem_cons_self
  · split
    · exact .ok h₁
    · rename_i hany
      apply h₁.removeChannel
      intro cfg hcfg heq
      apply hany
      rw [List.any_eq_true]
      exact ⟨cfg, hcfg, decide_eq_true heq⟩

end LogicalChannelSystem
end Srsran.Scheduler
