import Srsran.Scheduler.TrackedChannels

/-! The tracked bit rates of the logical channels, and a ledger of the bytes that were scheduled for these
channels in each slot. -/
namespace Srsran.Scheduler
open Adt Checked Support

def LogicalChannelSystem.averageBitRate (sys : LogicalChannelSystem) (d : Direction) (ue id : Nat) :
    Except LcFault Rat := do
  let row ← sys.getUe ue
  match (row.findActive d id).bind ChannelContext.qosRow with
  | none => return 0
  | some rid =>
    match (sys.qos d).row? rid with
    | none => throw .invalidRowId
    | some ctx => return ctx.avgBytesPerSlot.average * 8 * row.slotsPerMsec * 1000

/-- What was scheduled for a channel since it is tracked over its window. -/
structure TrackedChannel where
  window : Nat
  slots : List Nat := []
  current : Nat := 0

abbrev Ledger := Direction → Nat → Nat → Option TrackedChannel

variable {t? : Option TrackedChannel} {t : TrackedChannel}

namespace TrackedChannel

def bytesPerSlot (t : TrackedChannel) : Rat :=
  ((MovingAverager.lastSamples t.window t.slots).sum : Rat) / t.window

def closeSlot (t : TrackedChannel) : TrackedChannel :=
  { t with slots := t.slots ++ [t.current], current := 0 }

def retrack (t? : Option TrackedChannel) (window : Nat) : TrackedChannel :=
  match t? with
  | none => { window }
  | some t => if t.window = window then t else { window, current := t.current }

structure Idle (t : TrackedChannel) : Prop where
  current : t.current = 0
  slots : ∀ bytes ∈ t.slots, bytes = 0

theorem Idle.closeSlot (h : t.Idle) : t.closeSlot.Idle := by
  refine ⟨rfl, fun bytes hbytes => ?_⟩
  rcases List.mem_append.mp hbytes with hold | hnew
  · exact h.slots bytes hold
  · rw [List.mem_singleton.mp hnew]
    exact h.current

theorem Idle.retrack (h : ∀ t, t? = some t → t.Idle) (window : Nat) : (retrack t? window).Idle := by
  cases t? with
  | none => exact ⟨rfl, nofun⟩
  | some t =>
    rw [TrackedChannel.retrack]
    split
    · exact h t rfl
    · exact ⟨(h t rfl).current, nofun⟩

@[simp] theorem window_retrack {window : Nat} : (retrack t? window).window = window := by
  cases t? with
  | none => rfl
  | some t =>
    rw [retrack]
    split
    · assumption
    · rfl

end TrackedChannel

/-- The window of a channel with a guaranteed bit rate, in slots. -/
def LogicalChannelConfig.window? (cfg : LogicalChannelConfig) (slotsPerMsec : Nat) : Option Nat :=
  (cfg.qos.filter fun qos => !isSrb cfg.lcid && qos.isGbr).bind fun qos =>
    qos.averageWindowMs.map fun winSizeMsec => (winSizeMsec * slotsPerMsec) % 2 ^ 32

namespace Ledger
variable {l : Ledger} {d d' : Direction} {ue ue' id id' : Nat} {t? : Option TrackedChannel}

def set (l : Ledger) (d : Direction) (ue id : Nat) (t? : Option TrackedChannel) : Ledger :=
  fun d' ue' id' => if d' = d ∧ ue' = ue ∧ id' = id then t? else l d' ue' id'

/-- The configuration of an LCID tracks the channel and its group, or ends that. -/
def configure (l : Ledger) (ue slotsPerMsec : Nat) (cfg : LogicalChannelConfig) : Ledger :=
  let retracked := fun t? => (cfg.window? slotsPerMsec).map (TrackedChannel.retrack t?)
  let l := l.set .dl ue cfg.lcid (retracked (l .dl ue cfg.lcid))
  l.set .ul ue cfg.lcGroup (retracked (l .ul ue cfg.lcGroup))

@[simp] theorem set_self : l.set d ue id t? d ue id = t? := if_pos ⟨rfl, rfl, rfl⟩

theorem set_of_ne (h : ¬(d' = d ∧ ue' = ue ∧ id' = id)) : l.set d ue id t? d' ue' id' = l d' ue' id' :=
  if_neg h

@[simp] theorem set_set {t?' : Option TrackedChannel} : (l.set d ue id t?).set d ue id t?' = l.set d ue id t?' := by
  funext d' ue' id'
  rw [set, set, set]
  split <;> rfl

end Ledger

/-- The row of a channel follows the ledger. The bytes of the groups are never counted, so theirs agrees
only as long as there are none. -/
structure QosContext.Counts (ctx : QosContext) (d : Direction) (t : TrackedChannel) : Prop where
  average : ctx.avgBytesPerSlot.Averages t.window (match d with | .dl => t.slots | .ul => [])
  current : d = .dl → ctx.lastSchedBytes = t.current
  fits : d = .dl → t.current < 2 ^ 32
  idle : d = .ul → t.Idle

theorem QosContext.Counts.average_eq {ctx : QosContext} {d : Direction} (h : ctx.Counts d t) :
    ctx.avgBytesPerSlot.average = t.bytesPerSlot := by
  have haverage := h.average
  cases d with
  | dl => exact haverage.average_eq
  | ul =>
    rw [haverage.average_eq, TrackedChannel.bytesPerSlot,
      MovingAverager.sum_lastSamples_eq_zero (h.idle rfl).slots, MovingAverager.sum_lastSamples_eq_zero (List.forall_mem_nil _)]

theorem QosContext.Counts.resize {ctx : QosContext} {d : Direction} (h : ctx.Counts d t)
    {window : Nat} (hwindow : window < 2 ^ 32) :
    QosContext.Counts { ctx with avgBytesPerSlot := ctx.avgBytesPerSlot.resize window } d
      (TrackedChannel.retrack (some t) window) := by
  have hsize := h.average.size_eq
  rw [TrackedChannel.retrack]
  split
  · rename_i heq
    rw [← heq]
    exact ⟨h.average.resize_same, h.current, h.fits, h.idle⟩
  · rename_i hne
    have hstart : (ctx.avgBytesPerSlot.resize window).Averages window [] := by
      apply MovingAverager.averages_resize _ hwindow
      rw [hsize]
      exact Ne.symm hne
    refine ⟨?_, h.current, h.fits, fun hd => ⟨(h.idle hd).current, nofun⟩⟩
    cases d <;> exact hstart

theorem QosContext.counts_new {d : Direction} {window : Nat} (hwindow : window < 2 ^ 32)
    (hdl : d = .dl → t? = none) (hul : ∀ t, d = .ul → t? = some t → t.Idle) :
    QosContext.Counts { avgBytesPerSlot := MovingAverager.resize {} window } d (TrackedChannel.retrack t? window) := by
  have hstart := MovingAverager.averages_resize_empty hwindow
  cases d with
  | dl =>
    rw [hdl rfl]
    exact ⟨hstart, fun _ => rfl, fun _ => Nat.two_pow_pos 32, nofun⟩
  | ul =>
    refine ⟨?_, nofun, nofun, fun _ => TrackedChannel.Idle.retrack (fun t => hul t rfl) window⟩
    rw [TrackedChannel.window_retrack]
    exact hstart

namespace LogicalChannelSystem
variable {sys sys' : LogicalChannelSystem} {l : Ledger} {d d' : Direction} {ue ue' id id' : Nat} {rid : RowId}
  {ctx ctx' : QosContext} {t : TrackedChannel}

/-- The tables of tracked bit rates follow the ledger, and every tracked channel has a row of its own. -/
structure Tracking (l : Ledger) (sys : LogicalChannelSystem) : Prop where
  wellFormed : ∀ d, (sys.qos d).WellFormed
  distinct : ∀ d ue id ue' id' rid, sys.trackedRow d ue id = some rid → sys.trackedRow d ue' id' = some rid →
    ue' = ue ∧ id' = id
  counts : ∀ d ue id rid, sys.trackedRow d ue id = some rid →
    ∃ ctx t, (sys.qos d).row? rid = some ctx ∧ l d ue id = some t ∧ ctx.Counts d t
  idle : ∀ ue id t, l .ul ue id = some t → t.Idle

namespace Tracking

variable (h : Tracking l sys)
include h

theorem mono (hqos : sys'.qos = sys.qos)
    (hrows : ∀ d ue id rid, sys'.trackedRow d ue id = some rid → sys.trackedRow d ue id = some rid) :
    Tracking l sys' := by
  refine ⟨?_, ?_, ?_, h.idle⟩
  · rw [hqos]
    exact h.wellFormed
  · intro d ue id ue' id' rid hrid hrid'
    exact h.distinct d ue id ue' id' rid (hrows _ _ _ _ hrid) (hrows _ _ _ _ hrid')
  · intro d ue id rid hrid
    rw [hqos]
    exact h.counts d ue id rid (hrows _ _ _ _ hrid)

theorem framed (hf : Framed sys sys') : Tracking l sys' := by
  apply h.mono hf.qos_eq
  rw [hf.trackedRow_eq]
  exact fun _ _ _ _ => id

theorem congr {l' : Ledger}
    (hsame : ∀ d ue id, sys.trackedRow d ue id ≠ none → l' d ue id = l d ue id)
    (hidle : ∀ ue id t, l' .ul ue id = some t → t.Idle) : Tracking l' sys := by
  refine ⟨h.wellFormed, h.distinct, fun d ue id rid hrid => ?_, hidle⟩
  obtain ⟨ctx, t, hctx, ht, hcounts⟩ := h.counts d ue id rid hrid
  refine ⟨ctx, t, hctx, ?_, hcounts⟩
  rw [hsame d ue id (by rw [hrid]; exact nofun)]
  exact ht

theorem erase {qosRow : Option RowId}
    (hold : ∀ rid, qosRow = some rid → sys.trackedRow d ue id = some rid)
    (hqos : sys'.qos = (sys.eraseQos d qosRow).qos)
    (hrows : ∀ d ue id rid, sys'.trackedRow d ue id = some rid → sys.trackedRow d ue id = some rid)
    (hnone : sys'.trackedRow d ue id = none) : Tracking l sys' := by
  cases qosRow with
  | none => exact h.mono hqos hrows
  | some rid =>
    have htracked := hold rid rfl
    obtain ⟨ctx, t, hctx, -, -⟩ := h.counts d ue id rid htracked
    rw [eraseQos, setQos] at hqos
    dsimp only at hqos
    refine ⟨?_, ?_, ?_, h.idle⟩
    · intro d'
      rw [hqos]
      by_cases hd : d' = d
      · rw [hd, Function.update_self]
        exact (h.wellFormed d).erase hctx
      · rw [Function.update_of_ne hd]
        exact h.wellFormed d'
    · intro d ue id ue' id' rid hrid hrid'
      exact h.distinct d ue id ue' id' rid (hrows _ _ _ _ hrid) (hrows _ _ _ _ hrid')
    · intro d' ue' id' rid' hrid'
      have hrid := hrows _ _ _ _ hrid'
      obtain ⟨ctx', t', hctx', ht', hcounts'⟩ := h.counts d' ue' id' rid' hrid
      refine ⟨ctx', t', ?_, ht', hcounts'⟩
      rw [hqos]
      by_cases hd : d' = d
      · subst hd
        have hne : rid' ≠ rid := by
          rintro rfl
          obtain ⟨rfl, rfl⟩ := h.distinct _ _ _ _ _ _ htracked hrid
          rw [hnone] at hrid'
          cases hrid'
        rw [Function.update_self, (h.wellFormed _).row?_erase hctx, if_neg hne]
        exact hctx'
      · rw [Function.update_of_ne hd]
        exact hctx'

theorem update (htracked : sys.trackedRow d ue id = some rid)
    (hrow : (sys.qos d).row? rid = some ctx) (hcounts : ctx'.Counts d t) :
    Tracking (l.set d ue id (some t)) (sys.setQos d ((sys.qos d).set rid ctx')) := by
  have hrows : (sys.setQos d ((sys.qos d).set rid ctx')).trackedRow = sys.trackedRow := rfl
  refine ⟨?_, h.distinct, ?_, ?_⟩
  · intro d'
    rw [setQos]
    dsimp only
    by_cases hd : d' = d
    · rw [hd, Function.update_self]
      exact (h.wellFormed d).set hrow
    · rw [Function.update_of_ne hd]
      exact h.wellFormed d'
  · intro d' ue' id' rid' hrid'
    rw [hrows] at hrid'
    rw [setQos]
    dsimp only
    by_cases hd : d' = d
    · subst hd
      rw [Function.update_self, (h.wellFormed _).row?_set hrow]
      by_cases hkey : ue' = ue ∧ id' = id
      · obtain ⟨rfl, rfl⟩ := hkey
        rw [htracked] at hrid'
        cases hrid'
        exact ⟨ctx', t, if_pos rfl, Ledger.set_self, hcounts⟩
      · have hne : rid' ≠ rid := by
          rintro rfl
          exact hkey (h.distinct _ _ _ _ _ _ htracked hrid')
        obtain ⟨old, t', hold, ht', hcounts'⟩ := h.counts _ ue' id' rid' hrid'
        refine ⟨old, t', (if_neg hne).trans hold, ?_, hcounts'⟩
        rw [Ledger.set_of_ne fun heq => hkey heq.2]
        exact ht'
    · rw [Function.update_of_ne hd]
      obtain ⟨old, t', hold, ht', hcounts'⟩ := h.counts d' ue' id' rid' hrid'
      refine ⟨old, t', hold, ?_, hcounts'⟩
      rw [Ledger.set_of_ne fun heq => hd heq.1]
      exact ht'
  · intro ue' id' t' ht'
    rw [Ledger.set] at ht'
    split at ht'
    · rename_i heq
      cases ht'
      exact hcounts.idle heq.1.symm
    · exact h.idle ue' id' t' ht'

theorem touch (hrow : (sys.qos d).row? rid = some ctx)
    (hcounts : ∀ t, ctx.Counts d t → ctx'.Counts d t) :
    Tracking l (sys.setQos d ((sys.qos d).set rid ctx')) := by
  have hrows : (sys.setQos d ((sys.qos d).set rid ctx')).trackedRow = sys.trackedRow := rfl
  refine ⟨?_, h.distinct, ?_, h.idle⟩
  · intro d'
    rw [setQos]
    dsimp only
    by_cases hd : d' = d
    · rw [hd, Function.update_self]
      exact (h.wellFormed d).set hrow
    · rw [Function.update_of_ne hd]
      exact h.wellFormed d'
  · intro d' ue' id' rid' hrid'
    rw [hrows] at hrid'
    obtain ⟨old, t, hold, ht, hold'⟩ := h.counts d' ue' id' rid' hrid'
    rw [setQos]
    dsimp only
    by_cases hd : d' = d
    · subst hd
      rw [Function.update_self, (h.wellFormed _).row?_set hrow]
      split
      · rename_i heq
        rw [heq, hrow] at hold
        cases hold
        exact ⟨ctx', t, rfl, ht, hcounts t hold'⟩
      · exact ⟨old, t, hold, ht, hold'⟩
    · rw [Function.update_of_ne hd]
      exact ⟨old, t, hold, ht, hold'⟩

theorem insert (hnone : sys.trackedRow d ue id = none) (hcounts : ctx.Counts d t)
    (hqos : sys'.qos = Function.update sys.qos d ((sys.qos d).insert ctx).2)
    (hrows : ∀ d' ue' id' rid', sys'.trackedRow d' ue' id' = some rid' →
      if d' = d ∧ ue' = ue ∧ id' = id then rid' = ((sys.qos d).insert ctx).1
      else sys.trackedRow d' ue' id' = some rid') :
    Tracking (l.set d ue id (some t)) sys' := by
  have hnew : ∀ {ue' id' : Nat} {rid' : RowId}, sys.trackedRow d ue' id' = some rid' →
      rid' ≠ ((sys.qos d).insert ctx).1 := by
    rintro ue' id' rid' hrid' rfl
    obtain ⟨old, -, hold, -⟩ := h.counts d ue' id' _ hrid'
    rw [SoaTable.WellFormed.insert_fst, (h.wellFormed d).row?_freeListHead] at hold
    cases hold
  refine ⟨?_, ?_, ?_, ?_⟩
  · intro d'
    rw [hqos]
    by_cases hd : d' = d
    · rw [hd, Function.update_self]
      exact (h.wellFormed d).insert ctx
    · rw [Function.update_of_ne hd]
      exact h.wellFormed d'
  · intro d' ue₁ id₁ ue₂ id₂ rid' h₁ h₂
    have h₁ := hrows _ _ _ _ h₁
    have h₂ := hrows _ _ _ _ h₂
    split at h₁
    · rename_i hkey₁
      obtain ⟨rfl, rfl, rfl⟩ := hkey₁
      split at h₂
      · rename_i hkey₂
        exact hkey₂.2
      · exact absurd h₁ (hnew h₂)
    · split at h₂
      · rename_i hkey₂
        obtain ⟨rfl, rfl, rfl⟩ := hkey₂
        exact absurd h₂ (hnew h₁)
      · exact h.distinct d' ue₁ id₁ ue₂ id₂ rid' h₁ h₂
  · intro d' ue' id' rid' hrid'
    have hrid' := hrows _ _ _ _ hrid'
    rw [hqos]
    split at hrid'
    · rename_i hkey
      obtain ⟨rfl, rfl, rfl⟩ := hkey
      refine ⟨ctx, t, ?_, Ledger.set_self, hcounts⟩
      rw [Function.update_self, (h.wellFormed _).row?_insert, if_pos hrid']
    · rename_i hkey
      obtain ⟨old, t', hold, ht', hcounts'⟩ := h.counts d' ue' id' rid' hrid'
      refine ⟨old, t', ?_, (Ledger.set_of_ne hkey).trans ht', hcounts'⟩
      by_cases hd : d' = d
      · subst hd
        rw [Function.update_self, (h.wellFormed _).row?_insert, if_neg (hnew hrid')]
        exact hold
      · rw [Function.update_of_ne hd]
        exact hold
  · intro ue' id' t' ht'
    rw [Ledger.set] at ht'
    split at ht'
    · rename_i heq
      cases ht'
      exact hcounts.idle heq.1.symm
    · exact h.idle ue' id' t' ht'

end Tracking
end LogicalChannelSystem
end Srsran.Scheduler
