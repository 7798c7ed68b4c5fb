import Srsran.Scheduler.SlicePending

/-! Fallback, MAC CEs and buffer states of a UE: the bits follow its row. -/
namespace Srsran.Scheduler
open Checked

namespace UeRow
variable {row row' : UeRow} {d : Direction} {done : List (Nat × ChannelContext)} {ces : Bool}

/-- The CEs of a UE, their bytes, and its bit outside fallback. -/
structure CesSound (row : UeRow) (ces : Bool) : Prop where
  bytes_eq : row.pendingCeBytes = (row.pendingCes.map fun ce => ceBytes ce.ceLcid).sum % 2 ^ 32
  reported : row.fallbackState = false → row.pendingCes ≠ [] → ces = true
  pending : ces = true → row.pendingCes ≠ []

theorem Evolves.cesSound (h : row.Evolves row') (hces : row.CesSound ces) : row'.CesSound ces := by
  obtain ⟨hbytes, hreported, hpending⟩ := hces
  refine ⟨?_, ?_, ?_⟩
  · rw [h.pendingCeBytes_eq, h.pendingCes_eq]
    exact hbytes
  · rw [h.fallbackState_eq, h.pendingCes_eq]
    exact hreported
  · rw [h.pendingCes_eq]
    exact hpending

/-- A row whose slices of one direction count the bytes of some channels. -/
structure Recomputed (row : UeRow) (d : Direction) (done : List (Nat × ChannelContext)) (row' : UeRow) : Prop where
  channels_eq : ∀ d', (row'.side d').channels = (row.side d').channels
  other : ∀ d', d' ≠ d → ∀ slice, row'.pending? d' slice = row.pending? d' slice
  isSome_eq : ∀ slice, (row'.pending? d slice).isSome = (row.pending? d slice).isSome
  pending_eq : ∀ slice bytes, row'.pending? d slice = some bytes →
    bytes = (done.map fun e => e.2.bytesIn d slice e.1).sum % 2 ^ 32
  fallbackState_eq : row'.fallbackState = row.fallbackState
  pendingCes_eq : row'.pendingCes = row.pendingCes
  pendingCeBytes_eq : row'.pendingCeBytes = row.pendingCeBytes

theorem Recomputed.start (hzero : ∀ slice bytes, row.pending? d slice = some bytes → bytes = 0) :
    row.Recomputed d [] row where
  channels_eq := fun _ => rfl
  other := fun _ _ _ => rfl
  isSome_eq := fun _ => rfl
  pending_eq := hzero
  fallbackState_eq := rfl
  pendingCes_eq := rfl
  pendingCeBytes_eq := rfl

theorem Recomputed.step (h : row.Recomputed d done row') (hnormal : row.fallbackState = false)
    (e : Nat × ChannelContext) :
    row.Recomputed d (done ++ [e]) (row'.bufStUpdated d e.1 e.2.active e.2.sliceId e.2.bufSt 0) := by
  have hnormal' := h.fallbackState_eq.trans hnormal
  refine ⟨?_, ?_, ?_, ?_, ?_, ?_, ?_⟩
  · intro d'
    rw [channels_bufStUpdated, h.channels_eq]
  · intro d' hd slice
    rw [pending?_bufStUpdated, if_neg fun hc => hd hc.1, h.other d' hd]
  · intro slice
    rw [pending?_bufStUpdated]
    split
    · rw [Option.isSome_map, h.isSome_eq]
    · exact h.isSome_eq slice
  · intro slice bytes hbytes
    rw [pending?_bufStUpdated] at hbytes
    rw [List.map_append, List.sum_append, List.map_singleton, List.sum_singleton, ChannelContext.bytesIn]
    split at hbytes
    · rename_i hc
      obtain ⟨prevPending, hprev, rfl⟩ := Option.map_eq_some_iff.mp hbytes
      have hprevEq := h.pending_eq slice prevPending hprev
      rw [if_pos ⟨hc.2.2.1, hc.2.1⟩, bufStBytes_zero, Nat.sub_zero]
      omega
    · rename_i hc
      rw [if_neg fun hcount => hc ⟨rfl, hcount.2, hcount.1, hnormal'⟩, Nat.add_zero]
      exact h.pending_eq slice bytes hbytes
  · exact fallbackState_bufStUpdated.trans h.fallbackState_eq
  · exact evolves_bufStUpdated_rest.1.trans h.pendingCes_eq
  · exact evolves_bufStUpdated_rest.2.trans h.pendingCeBytes_eq

theorem Recomputed.total (h : row.Recomputed d (row.side d).channels.entries row') {slice : RanSliceId}
    {bytes : Nat} (hbytes : row'.pending? d slice = some bytes) : bytes = row'.sliceTotal d slice % 2 ^ 32 := by
  rw [sliceTotal_congr (h.channels_eq d)]
  exact h.pending_eq slice bytes hbytes

/-- Soundness is about the channels, the slices and the fallback state. -/
theorem Sound.of_same (h : row.Sound) (hside : row'.side = row.side)
    (hfallback : row'.fallbackState = row.fallbackState) : row'.Sound := by
  obtain ⟨hpending, hknown, hbufSt⟩ := h
  refine ⟨?_, ?_, ?_⟩
  · intro d slice bytes hbytes
    rw [hfallback, sliceTotal, hside]
    rw [pending?, hside] at hbytes
    exact hpending d slice bytes hbytes
  · intro d id ch slice hch hslice
    rw [channel?, hside] at hch
    rw [pending?, hside]
    exact hknown d id ch slice hch hslice
  · intro d id ch hch
    rw [channel?, hside] at hch
    exact hbufSt d id ch hch

theorem Sound.enterFallback (h : row.Sound) :
    ((clearedPending { row with fallbackState := true } .dl).clearedPending .ul).Sound := by
  have hpending : ∀ d slice,
      ((clearedPending { row with fallbackState := true } .dl).clearedPending .ul).pending? d slice =
        (row.pending? d slice).map fun _ => 0 := by
    intro d slice
    rw [pending?_clearedPending, pending?_clearedPending, pending?_clearedPending]
    cases d <;> rfl
  have hchannel : ∀ d id,
      ((clearedPending { row with fallbackState := true } .dl).clearedPending .ul).channel? d id =
        row.channel? d id := by
    intro d id
    rw [channel?, channels_clearedPending, channels_clearedPending, channel?]
  refine ⟨?_, ?_, ?_⟩
  · intro d slice bytes hbytes
    rw [hpending] at hbytes
    obtain ⟨_, -, rfl⟩ := Option.map_eq_some_iff.mp hbytes
    rfl
  · intro d id ch slice hch hslice
    rw [hchannel] at hch
    rw [hpending, Option.isSome_map]
    exact h.known d id ch slice hch hslice
  · intro d id ch hch
    rw [hchannel] at hch
    exact h.bufSt_le d id ch hch

theorem Sound.exitFallback {row₁ row₂ : UeRow} (h : row.Sound)
    (h₁ : Recomputed { row with fallbackState := false } .dl (row.side .dl).channels.entries row₁)
    (h₂ : row₁.Recomputed .ul (row₁.side .ul).channels.entries row₂) : row₂.Sound := by
  have hnormal : row₂.fallbackState = false := h₂.fallbackState_eq.trans h₁.fallbackState_eq
  have hchannel : ∀ d id, row₂.channel? d id = row.channel? d id := by
    intro d id
    rw [channel?, h₂.channels_eq, h₁.channels_eq]
    rfl
  refine ⟨?_, ?_, ?_⟩
  · intro d slice bytes hbytes
    rw [hnormal, if_neg Bool.false_ne_true]
    cases d with
    | dl =>
      rw [h₂.other .dl (by rintro ⟨⟩)] at hbytes
      rw [sliceTotal_congr (h₂.channels_eq .dl)]
      exact h₁.total hbytes
    | ul => exact h₂.total hbytes
  · intro d id ch slice hch hslice
    rw [hchannel] at hch
    have hsome := h.known d id ch slice hch hslice
    cases d with
    | dl =>
      rw [h₂.other .dl (by rintro ⟨⟩), h₁.isSome_eq]
      exact hsome
    | ul =>
      rw [h₂.isSome_eq, h₁.other .ul (by rintro ⟨⟩)]
      exact hsome
  · intro d id ch hch
    rw [hchannel] at hch
    exact h.bufSt_le d id ch hch

theorem CesSound.exitFallback {row₁ row₂ : UeRow} (h : row.CesSound ces)
    (h₁ : Recomputed { row with fallbackState := false } .dl (row.side .dl).channels.entries row₁)
    (h₂ : row₁.Recomputed .ul (row₁.side .ul).channels.entries row₂) :
    row₂.CesSound (ces || decide (row.pendingCes ≠ [])) := by
  have hcesEq : row₂.pendingCes = row.pendingCes := h₂.pendingCes_eq.trans h₁.pendingCes_eq
  refine ⟨?_, ?_, ?_⟩
  · rw [hcesEq, h₂.pendingCeBytes_eq, h₁.pendingCeBytes_eq]
    exact h.bytes_eq
  · intro _ hpending
    rw [hcesEq] at hpending
    rw [decide_eq_true hpending, Bool.or_true]
  · intro hbit
    rw [hcesEq]
    rcases (Bool.or_eq_true ..).mp hbit with hbit | hbit
    · exact h.pending hbit
    · exact of_decide_eq_true hbit

theorem evolves_updateBufSt {id bufSt : Nat} {ch : ChannelContext} (hch : row.channel? d id = some ch)
    (hbufSt : row.Sound → bufSt ≤ maxBufferStatus) :
    row.Evolves
      ((row.setChannel d id { ch with bufSt }).bufStUpdated d id ch.active ch.sliceId bufSt ch.bufSt) := by
  refine evolves_change hch hbufSt (fun hsound => hsound.bufSt_le d id ch hch) ?_ ?_ ?_
  · intro slice
    rw [ChannelContext.bytesIn]
    split
    · rfl
    · rename_i hcond
      rw [Option.elim_some, ChannelContext.bytesIn, if_neg hcond]
  · intro slice hactive hslice
    rw [Option.elim_some, ChannelContext.bytesIn, if_pos ⟨hactive, hslice⟩]
  · intro slice hslice hsound
    exact hsound.known d id ch slice hch hslice

end UeRow

namespace LogicalChannelSystem
variable {sys sys' : LogicalChannelSystem} {ue : Nat} {row row' : UeRow} {base : Nat → UeView}
  {d : Direction} {id : Nat} {slice : RanSliceId} {ces configured : Bool} {ch : ChannelContext}

/-- The row of the UE is sound, and its bits are those of the row. -/
def Kept (base : Nat → UeView) (ue : Nat) (configured : Bool) (sys : LogicalChannelSystem) : Prop :=
  ∃ (row : UeRow) (ces : Bool), row.Sound ∧ row.CesSound ces ∧ Viewed base ue (row.view ces configured) sys

theorem Updated.kept (hsound : row.Sound) (hces : row.CesSound ces) (h : Updated base ue row ces configured sys) :
    Kept base ue configured sys := by
  obtain ⟨row', hrow, hview⟩ := h
  exact ⟨row', ces, hrow.sound hsound, hrow.cesSound hces, hview⟩

namespace Viewed

variable (h : Viewed base ue (row.view ces configured) sys)
include h

theorem recomputePending (hnormal : row.fallbackState = false)
    (hzero : ∀ slice bytes, row.pending? d slice = some bytes → bytes = 0) :
    Gives
      (fun sys => ∃ row', row.Recomputed d (row.side d).channels.entries row' ∧
        Viewed base ue (row'.view ces configured) sys)
      (sys.recomputePending ue d) := by
  rw [LogicalChannelSystem.recomputePending, h.getUe, ok_bind]
  apply Ensures.foldlM (I := fun done sys => ∃ row', row.Recomputed d done row' ∧
    Viewed base ue (row'.view ces configured) sys)
  · exact ⟨row, .start hzero, h⟩
  · rintro sys' done e rest - ⟨row', hrow, hview⟩
    exact hview.onBufStUpdate.mono fun sys'' hview' => ⟨_, hrow.step hnormal e, hview'⟩

theorem setFallbackState {enterFallback : Bool} (hsound : row.Sound) (hces : row.CesSound ces) :
    Gives (Kept base ue configured) (sys.setFallbackState ue enterFallback) := by
  rw [LogicalChannelSystem.setFallbackState, h.getUe, ok_bind]
  split
  · exact .ok ⟨row, ces, hsound, hces, h⟩
  · rename_i htoggled
    have hflag : Viewed base ue (UeRow.view { row with fallbackState := enterFallback } ces configured)
        (sys.setUe ue { row with fallbackState := enterFallback }) :=
      h.setRow rfl fun _ _ hsome => hsome
    cases enterFallback with
    | true =>
      rw [if_pos rfl]
      refine hflag.clearPending.bind fun sys₁ h₁ => ?_
      refine h₁.setPendingCesBit.bind fun sys₂ h₂ => ?_
      have h₂' : Viewed base ue (UeRow.view _ false configured) sys₂ := h₂
      refine h₂'.clearPending.mono fun sys₃ h₃ => ?_
      exact ⟨_, false, hsound.enterFallback, ⟨hces.bytes_eq, nofun, nofun⟩, h₃⟩
    | false =>
      rw [if_neg Bool.false_ne_true]
      have hfallback : row.fallbackState = true := by
        simpa using htoggled
      have hzero : ∀ d slice bytes, row.pending? d slice = some bytes → bytes = 0 := by
        intro d slice bytes hbytes
        rw [hsound.pending_eq d slice bytes hbytes, hfallback, if_pos rfl]
      refine (hflag.recomputePending rfl (hzero .dl)).bind fun sys₁ h₁ => ?_
      obtain ⟨row₁, hrow₁, h₁⟩ := h₁
      have hzero₁ : ∀ slice bytes, row₁.pending? .ul slice = some bytes → bytes = 0 := by
        intro slice bytes hbytes
        rw [hrow₁.other .ul nofun] at hbytes
        exact hzero .ul slice bytes hbytes
      have hrest : ∀ sys₂, Viewed base ue (row₁.view (ces || decide (row.pendingCes ≠ [])) configured) sys₂ →
          Gives (Kept base ue configured) (sys₂.recomputePending ue .ul) := by
        intro sys₂ h₂
        refine (h₂.recomputePending hrow₁.fallbackState_eq hzero₁).mono fun sys₃ h₃ => ?_
        obtain ⟨row₂, hrow₂, h₃⟩ := h₃
        exact ⟨row₂, _, hsound.exitFallback hrow₁ hrow₂, hces.exitFallback hrow₁ hrow₂, h₃⟩
      split
      · rename_i hpending
        rw [decide_eq_true hpending, Bool.or_true] at hrest
        exact h₁.setPendingCesBit.bind hrest
      · rename_i hpending
        rw [decide_eq_false hpending, Bool.or_false] at hrest
        exact hrest sys₁ h₁

theorem updateBufSt {bufSt : Nat}
    (hch : row.channel? d id = some ch) (hbufSt : row.Sound → bufSt ≤ maxBufferStatus) :
    Gives (Updated base ue row ces configured) (sys.updateBufSt ue d id ch bufSt) := by
  rw [LogicalChannelSystem.updateBufSt, h.getUe, ok_bind]
  exact h.setChannel.onBufStUpdate.mono fun sys' h' => ⟨_, UeRow.evolves_updateBufSt hch hbufSt, h'⟩

theorem handleDlBufferStatusIndication {lcid bufferStatus : Nat} :
    Gives (Updated base ue row ces configured)
      (sys.handleDlBufferStatusIndication ue lcid bufferStatus) := by
  rw [LogicalChannelSystem.handleDlBufferStatusIndication, h.getUe, ok_bind]
  split
  · exact .ok h.updated
  · rename_i ch hch
    exact h.updateBufSt hch fun _ => Nat.min_le_right _ _

theorem handleLcgReport {isLongBsr : Bool} {lcgReport : LcgId × Nat} :
    Gives (Updated base ue row ces configured) (handleLcgReport ue isLongBsr sys lcgReport) := by
  rw [LogicalChannelSystem.handleLcgReport, h.getUe, ok_bind]
  split
  · exact .ok h.updated
  · rename_i lcg hlcg
    split
    · have hrest : ∀ sys', Viewed base ue (row.view ces configured) sys' →
          Gives (Updated base ue row ces configured)
            (sys'.updateBufSt ue .ul lcgReport.1 lcg (min lcgReport.2 maxBufferStatus)) :=
        fun sys' h' => h'.updateBufSt hlcg fun _ => Nat.min_le_right _ _
      cases lcg.qosRow with
      | some rid => exact h.updateQos.bind hrest
      | none => exact hrest sys h
    · exact .ok h.updated

theorem handleBsrIndication {isLongBsr : Bool} {reportedLcgs : List (LcgId × Nat)} (hsound : row.Sound) :
    Gives (Updated base ue row ces configured) (sys.handleBsrIndication ue isLongBsr reportedLcgs) :=
  Updated.foldlM hsound h fun _ _ _ _ h' => h'.handleLcgReport

theorem handleMacCeIndication {ce : MacCeInfo} (hsound : row.Sound) (hces : row.CesSound ces) :
    Gives (Kept base ue configured) (sys.handleMacCeIndication ue ce) := by
  rw [LogicalChannelSystem.handleMacCeIndication, h.getUe, ok_bind]
  split
  · exact .ok ⟨{ row with pendingConResId := true }, ces, hsound.of_same rfl rfl, { hces with },
      h.setRow rfl fun _ _ hsome => hsome⟩
  · split
    · rename_i i hi
      have hmap : (row.pendingCes.modify i fun ctx => { ctx with cePayload := ce.cePayload }).map
          (fun ce => ceBytes ce.ceLcid) = row.pendingCes.map fun ce => ceBytes ce.ceLcid := by
        apply List.ext_getElem?
        intro j
        rw [List.getElem?_map, List.getElem?_map, List.getElem?_modify]
        split <;> cases row.pendingCes[j]? <;> rfl
      have hnil : (row.pendingCes.modify i fun ctx => { ctx with cePayload := ce.cePayload }) ≠ [] ↔
          row.pendingCes ≠ [] := by
        rw [← List.length_pos_iff, ← List.length_pos_iff, List.length_modify]
      have hset := @setRow _ _ _ { row with pendingCes := row.pendingCes.modify i fun ctx =>
        { ctx with cePayload := ce.cePayload } } _ _ _ h rfl
        fun _ _ hsome => hsome
      refine .ok ⟨_, ces, ?_, ⟨?_, ?_, ?_⟩, hset⟩
      · exact hsound.of_same rfl rfl
      · dsimp only
        rw [hmap]
        exact hces.bytes_eq
      · exact fun hnormal hpending => hces.reported hnormal (hnil.mp hpending)
      · exact fun hbit => hnil.mpr (hces.pending hbit)
    · have hset := @setRow _ _ _ { row with
        pendingCes := row.pendingCes ++ [ce]
        pendingCeBytes := (row.pendingCeBytes + ceBytes ce.ceLcid) % 2 ^ 32 } _ _ _ h rfl
        fun _ _ hsome => hsome
      refine hset.setPendingCesBit.mono fun sys' h' => ⟨_, true, ?_, ⟨?_, ?_, ?_⟩, h'⟩
      · exact hsound.of_same rfl rfl
      · dsimp only
        rw [hces.bytes_eq, List.map_append, List.sum_append, List.map_singleton, List.sum_singleton,
          Nat.mod_add_mod]
      · exact fun _ _ => rfl
      · exact fun _ => List.append_ne_nil_of_right_ne_nil _ (List.cons_ne_nil _ _)

end Viewed
end LogicalChannelSystem
end Srsran.Scheduler
