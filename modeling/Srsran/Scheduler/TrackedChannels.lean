import Srsran.Scheduler.SliceViews

/-! What of the logical channels decides about the tracking of their bit rates, and the operations that
leave it alone. -/
namespace Srsran.Scheduler
open Adt Checked

/-- What of a channel concerns the tables of tracked bit rates. -/
structure ChannelStatus where
  active : Bool
  qosRow : Option RowId

structure UeStatus where
  slotsPerMsec : Nat
  channel? : Direction → Nat → Option ChannelStatus

def ChannelContext.status (ch : ChannelContext) : ChannelStatus := ⟨ch.active, ch.qosRow⟩

namespace UeStatus

def setChannel (u : UeStatus) (d : Direction) (id : Nat) (ch : Option ChannelStatus) : UeStatus :=
  { u with channel? := fun d' id' => if d' = d ∧ id' = id then ch else u.channel? d' id' }

def trackedRow (u : UeStatus) (d : Direction) (id : Nat) : Option RowId :=
  (u.channel? d id).bind fun ch => if ch.active then ch.qosRow else none

end UeStatus

namespace UeRow
variable {row : UeRow} {d : Direction} {id bytes : Nat} {slice : RanSliceId} {ch : ChannelContext}

def status (row : UeRow) : UeStatus :=
  ⟨row.slotsPerMsec, fun d id => (row.channel? d id).map ChannelContext.status⟩

theorem channel?_status : row.status.channel? d id = (row.channel? d id).map ChannelContext.status := rfl

theorem status_setChannel :
    (row.setChannel d id ch).status = row.status.setChannel d id (some ch.status) := by
  rw [status, status, UeStatus.setChannel]
  congr 1
  funext d' id'
  rw [channel?_setChannel]
  split <;> rfl

theorem status_setChannel_same (h : row.status.channel? d id = some ch.status) :
    (row.setChannel d id ch).status = row.status := by
  rw [status_setChannel, UeStatus.setChannel]
  congr 1
  funext d' id'
  split
  · rename_i heq
    rw [heq.1, heq.2, ← h]
    rfl
  · rfl

theorem status_updateSide {f : UeSide → UeSide} (h : (f (row.side d)).channels = (row.side d).channels) :
    (row.updateSide d f).status = row.status := by
  rw [status, status]
  congr 1
  funext d' id'
  rw [channel?, channel?, updateSide]
  dsimp only
  by_cases hd : d' = d
  · rw [hd, Function.update_self, h]
  · rw [Function.update_of_ne hd]

theorem status_setPending : (row.setPending d slice bytes).status = row.status := status_updateSide rfl

end UeRow

namespace LogicalChannelSystem
variable {sys sys' : LogicalChannelSystem} {ue id : Nat} {d : Direction} {row row' : UeRow}
  {ch : ChannelContext}

def status (sys : LogicalChannelSystem) (ue : Nat) : Option UeStatus := (sys.ues.find? ue).map UeRow.status

def trackedRow (sys : LogicalChannelSystem) (d : Direction) (ue id : Nat) : Option RowId :=
  (sys.status ue).bind fun u => u.trackedRow d id

theorem trackedRow_eq (hrow : sys.ues.find? ue = some row) :
    sys.trackedRow d ue id = (row.findActive d id).bind ChannelContext.qosRow := by
  rw [trackedRow, status, hrow, Option.map_some, Option.bind_some, UeStatus.trackedRow, UeRow.channel?_status,
    UeRow.findActive]
  cases row.channel? d id with
  | none => rfl
  | some ch => cases h : ch.active <;> simp [ChannelContext.status, Option.filter, h]

theorem status_setUe : (sys.setUe ue row).status = Function.update sys.status ue (some row.status) := by
  funext ue'
  rw [status, setUe]
  dsimp only
  by_cases hue : ue' = ue
  · rw [hue, OrdMap.find?_insert_self, Function.update_self]
    rfl
  · rw [OrdMap.find?_insert_of_ne hue, Function.update_of_ne hue]
    rfl

theorem getUe_gives : Ensures (fun _ => True) (fun row => sys.ues.find? ue = some row) (sys.getUe ue) := by
  rw [getUe]
  split
  · rename_i row hrow
    exact .ok hrow
  · exact .error trivial

/-- Nothing changes that concerns the tracked bit rates. -/
structure Framed (sys sys' : LogicalChannelSystem) : Prop where
  qos_eq : sys'.qos = sys.qos
  status_eq : sys'.status = sys.status

theorem Framed.refl : Framed sys sys := ⟨rfl, rfl⟩

theorem Framed.trans {sys'' : LogicalChannelSystem} (h : Framed sys sys') (h' : Framed sys' sys'') :
    Framed sys sys'' :=
  ⟨h'.qos_eq.trans h.qos_eq, h'.status_eq.trans h.status_eq⟩

theorem Framed.trackedRow_eq (h : Framed sys sys') : sys'.trackedRow = sys.trackedRow := by
  funext d ue id
  rw [trackedRow, trackedRow, h.status_eq]

theorem Framed.row_status (h : Framed sys sys') (hrow : sys.ues.find? ue = some row)
    (hrow' : sys'.ues.find? ue = some row') : row'.status = row.status := by
  have hstatus := congrFun h.status_eq ue
  rw [status, status, hrow, hrow'] at hstatus
  exact Option.some.inj hstatus

/-- A computation after which nothing has changed. -/
abbrev Keeps (sys : LogicalChannelSystem) (r : Except LcFault LogicalChannelSystem) : Prop :=
  Ensures (fun _ => True) (Framed sys) r

theorem Keeps.bind {r : Except LcFault LogicalChannelSystem}
    {f : LogicalChannelSystem → Except LcFault LogicalChannelSystem} (h : Keeps sys r)
    (hf : ∀ sys', Keeps sys' (f sys')) : Keeps sys (r >>= f) :=
  Ensures.bind h fun sys' h' => (hf sys').mono fun _ => h'.trans

theorem Keeps.foldlM {α : Type} {f : LogicalChannelSystem → α → Except LcFault LogicalChannelSystem} {xs : List α}
    (hf : ∀ sys x, Keeps sys (f sys x)) : Keeps sys (xs.foldlM f sys) :=
  @Ensures.foldlM _ _ _ _ (fun _ => Framed sys) f xs sys .refl fun sys' _ x _ _ h' =>
    (hf sys' x).mono fun _ => h'.trans

theorem framed_setUe (hrow : sys.ues.find? ue = some row) (hstatus : row'.status = row.status) :
    Framed sys (sys.setUe ue row') := by
  refine ⟨rfl, ?_⟩
  rw [status_setUe, hstatus]
  apply Function.update_eq_self_iff.mpr
  rw [status, hrow]
  rfl

theorem channel_status (hch : row.channel? d id = some ch) : row.status.channel? d id = some ch.status := by
  rw [UeRow.channel?_status, hch]
  rfl

theorem framed_setChannel {old : ChannelContext} (hrow : sys.ues.find? ue = some row)
    (hold : row.channel? d id = some old) (hsame : ch.status = old.status) :
    Framed sys (sys.setUe ue (row.setChannel d id ch)) := by
  apply framed_setUe hrow
  apply UeRow.status_setChannel_same
  rw [hsame]
  exact channel_status hold

variable {slice : RanSliceId} {value : Bool}

theorem keeps_setPendingUe : Keeps sys (sys.setPendingUe d slice ue value) := by
  rw [setPendingUe]
  split
  · exact .error trivial
  · exact Ensures.bind (P := fun _ => True) (by cases setBit _ ue value <;> trivial) fun _ _ => .ok ⟨rfl, rfl⟩

theorem keeps_setPendingCesBit : Keeps sys (sys.setPendingCesBit ue value) :=
  Ensures.bind (P := fun _ => True) (by cases setBit _ ue value <;> trivial) fun _ _ => .ok ⟨rfl, rfl⟩

theorem keeps_setPendingSrBit : Keeps sys (sys.setPendingSrBit ue value) :=
  Ensures.bind (P := fun _ => True) (by cases setBit _ ue value <;> trivial) fun _ _ => .ok ⟨rfl, rfl⟩

theorem keeps_onBufStUpdate {active : Bool} {sliceId : Option RanSliceId} {newBufSt prevBufSt : Nat} :
    Keeps sys (sys.onBufStUpdate ue d id active sliceId newBufSt prevBufSt) := by
  cases sliceId with
  | none => exact .ok .refl
  | some slice =>
    rw [onBufStUpdate]
    refine getUe_gives.bind fun row hrow => ?_
    split
    · exact .ok .refl
    · split
      · exact .error trivial
      · rename_i prevPending _
        split
        · exact .error trivial
        · dsimp only
          generalize (prevPending + 2 ^ 32 + bufStBytes d id newBufSt - bufStBytes d id prevBufSt) % 2 ^ 32 =
            pending
          have hset := framed_setUe hrow (@UeRow.status_setPending row d pending slice)
          split
          · exact keeps_setPendingUe.mono fun _ => hset.trans
          · exact .ok hset

theorem keeps_deregisterRanSlice : Keeps sys (sys.deregisterRanSlice ue d id) := by
  rw [deregisterRanSlice]
  refine getUe_gives.bind fun row hrow => ?_
  split
  · exact .ok .refl
  · rename_i ch hch
    refine Ensures.bind keeps_onBufStUpdate fun sys₁ h₁ => ?_
    split
    · exact .ok h₁
    · refine getUe_gives.bind fun row₁ hrow₁ => ?_
      have hstatus : (row₁.setChannel d id { ch with sliceId := none }).status = row₁.status := by
        apply UeRow.status_setChannel_same
        have hold := channel_status hch
        rw [h₁.row_status hrow hrow₁]
        exact hold
      dsimp only
      split
      · exact .ok (h₁.trans (framed_setUe hrow₁ ((UeRow.status_updateSide rfl).trans hstatus)))
      · exact .ok (h₁.trans (framed_setUe hrow₁ hstatus))

theorem keeps_createSlice : Keeps sys (sys.createSlice ue d slice) := by
  rw [createSlice]
  refine getUe_gives.bind fun row hrow => ?_
  split
  · exact .ok .refl
  · split
    · exact .error trivial
    · exact .ok ⟨rfl, (framed_setUe hrow UeRow.status_setPending).status_eq⟩

theorem keeps_setRanSlice : Keeps sys (sys.setRanSlice ue d id slice) := by
  rw [setRanSlice]
  refine getUe_gives.bind fun row hrow => ?_
  split
  · exact .error trivial
  · rename_i ch hch
    split
    · exact .ok .refl
    · refine Ensures.bind keeps_deregisterRanSlice fun sys₁ h₁ => ?_
      refine Ensures.bind (keeps_createSlice.mono fun _ => h₁.trans) fun sys₂ h₂ => ?_
      refine getUe_gives.bind fun row₂ hrow₂ => ?_
      have hstatus : (row₂.setChannel d id { ch with sliceId := some slice }).status = row₂.status := by
        apply UeRow.status_setChannel_same
        have hold := channel_status hch
        rw [h₂.row_status hrow hrow₂]
        exact hold
      exact keeps_onBufStUpdate.mono fun _ => (h₂.trans (framed_setUe hrow₂ hstatus)).trans

theorem keeps_resetSliceBits : Keeps sys (sys.resetSliceBits ue d) := by
  rw [resetSliceBits]
  refine getUe_gives.bind fun row _ => Keeps.foldlM fun sys e => ?_
  split
  · exact keeps_setPendingUe
  · exact .ok .refl

theorem keeps_setPendingMap {f : UeSide → UeSide} (hf : ∀ side, (f side).channels = side.channels) :
    Keeps sys (do
      let row ← sys.getUe ue
      return sys.setUe ue (row.updateSide d f)) :=
  getUe_gives.bind fun _ hrow => .ok (framed_setUe hrow (UeRow.status_updateSide (hf _)))

theorem keeps_clearPending : Keeps sys (sys.clearPending ue d) :=
  keeps_resetSliceBits.bind fun _ => keeps_setPendingMap fun _ => rfl

theorem keeps_removeSlices : Keeps sys (sys.removeSlices ue d) :=
  keeps_resetSliceBits.bind fun _ => keeps_setPendingMap fun _ => rfl

theorem keeps_recomputePending : Keeps sys (sys.recomputePending ue d) := by
  rw [recomputePending]
  exact getUe_gives.bind fun _ _ => Keeps.foldlM fun _ _ => keeps_onBufStUpdate

theorem keeps_setFallbackState {enterFallback : Bool} : Keeps sys (sys.setFallbackState ue enterFallback) := by
  rw [setFallbackState]
  refine getUe_gives.bind fun row hrow => ?_
  split
  · exact .ok .refl
  · have hset := @framed_setUe sys ue row { row with fallbackState := enterFallback } hrow rfl
    dsimp only
    split
    · refine (keeps_clearPending.mono fun _ => hset.trans).bind fun _ h₁ => ?_
      refine (keeps_setPendingCesBit.mono fun _ => h₁.trans).bind fun _ h₂ => ?_
      exact keeps_clearPending.mono fun _ => h₂.trans
    · refine (keeps_recomputePending.mono fun _ => hset.trans).bind fun _ h₁ => ?_
      split
      · refine (keeps_setPendingCesBit.mono fun _ => h₁.trans).bind fun _ h₂ => ?_
        exact keeps_recomputePending.mono fun _ => h₂.trans
      · exact keeps_recomputePending.mono fun _ => h₁.trans

theorem keeps_updateBufSt {bufSt : Nat} (hstatus : (sys.status ue).bind (fun u => u.channel? d id) = some ch.status) :
    Keeps sys (sys.updateBufSt ue d id ch bufSt) := by
  rw [updateBufSt]
  refine getUe_gives.bind fun row hrow => ?_
  rw [status, hrow] at hstatus
  have hset := framed_setUe hrow (@UeRow.status_setChannel_same row d id { ch with bufSt } hstatus)
  exact keeps_onBufStUpdate.mono fun _ => hset.trans

theorem keeps_handleDlBufferStatusIndication {lcid : Lcid} {bufferStatus : Nat} :
    Keeps sys (sys.handleDlBufferStatusIndication ue lcid bufferStatus) := by
  rw [handleDlBufferStatusIndication]
  refine getUe_gives.bind fun row hrow => ?_
  split
  · exact .ok .refl
  · rename_i ch hch
    apply keeps_updateBufSt
    rw [status, hrow]
    exact channel_status hch

theorem keeps_handleMacCeIndication {ce : MacCeInfo} : Keeps sys (sys.handleMacCeIndication ue ce) := by
  rw [handleMacCeIndication]
  refine getUe_gives.bind fun row hrow => ?_
  split
  · exact .ok (framed_setUe hrow rfl)
  · split
    · exact .ok (framed_setUe hrow rfl)
    · refine keeps_setPendingCesBit.mono fun sys' h' => Framed.trans (framed_setUe hrow ?_) h'
      rfl

theorem keeps_allocateUeConResIdMacCe {remBytes : Nat} :
    Ensures (fun _ => True) (fun r : Nat × Mac.DlMsgLcInfo × LogicalChannelSystem => Framed sys r.2.2)
      (sys.allocateUeConResIdMacCe ue remBytes) := by
  rw [allocateUeConResIdMacCe]
  refine getUe_gives.bind fun row hrow => ?_
  dsimp only
  split
  · exact .ok (framed_setUe hrow rfl)
  · exact .ok .refl

theorem keeps_allocateMacCe {remBytes : Nat} :
    Ensures (fun _ => True) (fun r : Nat × Mac.DlMsgLcInfo × LogicalChannelSystem => Framed sys r.2.2)
      (sys.allocateMacCe ue remBytes) := by
  rw [allocateMacCe]
  refine keeps_allocateUeConResIdMacCe.bind fun conRes hconRes => ?_
  split
  · exact .ok hconRes
  · refine getUe_gives.bind fun row hrow => ?_
    split
    · exact .ok .refl
    · dsimp only
      split
      · exact .ok .refl
      · split
        · refine Ensures.bind keeps_setPendingCesBit fun sys' h' => .ok (Framed.trans (framed_setUe hrow ?_) h')
          rfl
        · exact .ok (framed_setUe hrow rfl)

end LogicalChannelSystem
end Srsran.Scheduler
