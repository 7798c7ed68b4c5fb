import Srsran.Scheduler.SliceTotals

/-! Slices and fallback: the operations keep the bits of a UE equal to the bytes of its slices, and these
equal to the sums over its channels. -/
namespace Srsran.Scheduler
open Checked

namespace UeRow
variable {row : UeRow} {d d' : Direction} {slice : RanSliceId} {bytes : Nat}

theorem evolves_newSlice (hfresh : row.pending? d slice = none) : row.Evolves (row.setPending d slice 0) := by
  refine ⟨fun h => ⟨?_, ?_, ?_⟩, rfl, rfl, rfl⟩
  · intro d' slice' bytes hbytes
    rw [pending?_setPending] at hbytes
    rw [sliceTotal_congr channels_setPending]
    split at hbytes
    · rename_i heq
      cases hbytes
      have htotal : row.sliceTotal d slice = 0 := by
        apply OrdMap.total_eq_zero
        intro id ch hch
        rw [ChannelContext.bytesIn, if_neg]
        rintro ⟨-, hslice⟩
        have hsome := h.known d id ch slice hch hslice
        rw [hfresh] at hsome
        cases hsome
      rw [heq.1, heq.2, htotal, Nat.zero_mod, ite_self]
    · exact h.pending_eq d' slice' bytes hbytes
  · intro d' id ch slice' hch hslice
    rw [channel?_setPending] at hch
    rw [pending?_setPending]
    split
    · rfl
    · exact h.known d' id ch slice' hch hslice
  · intro d' id ch hch
    rw [channel?_setPending] at hch
    exact h.bufSt_le d' id ch hch

theorem bits_newSlice (hfresh : row.pending? d slice = none) : (row.setPending d slice 0).bits = row.bits := by
  funext d' slice'
  rw [bits_setPending]
  split
  · rename_i heq
    rw [heq.1, heq.2, bits, hfresh]
    rfl
  · rfl

def clearedPending (row : UeRow) (d : Direction) : UeRow :=
  row.updateSide d fun side => { side with pendingBytesPerSlice := side.pendingBytesPerSlice.mapValues fun _ _ => 0 }

theorem pending?_clearedPending : (row.clearedPending d).pending? d' slice =
    if d' = d then (row.pending? d slice).map fun _ => 0 else row.pending? d' slice := by
  rw [pending?, pending?, pending?, clearedPending]
  by_cases h : d' = d
  · rw [h, side_updateSide_self, OrdMap.find?_mapValues, if_pos rfl]
  · rw [side_updateSide_of_ne h, if_neg h]

@[simp] theorem channels_clearedPending : ((row.clearedPending d).side d').channels = (row.side d').channels := by
  rw [clearedPending]
  by_cases h : d' = d
  · rw [h, side_updateSide_self]
  · rw [side_updateSide_of_ne h]

theorem bits_clearedPending :
    (row.clearedPending d).bits = fun d' slice => if d' = d then false else row.bits d' slice := by
  funext d' slice
  rw [bits, pending?_clearedPending]
  split
  · cases row.pending? d slice <;> rfl
  · rfl

end UeRow

namespace LogicalChannelSystem
variable {sys sys' : LogicalChannelSystem} {ue : Nat} {row row' : UeRow} {v : UeView} {base : Nat → UeView}
  {d : Direction} {id : Nat} {slice : RanSliceId} {sliceId : Option RanSliceId}
  {ces configured : Bool} {ch : ChannelContext}

/-- The row of the UE evolved from a given one. -/
def Updated (base : Nat → UeView) (ue : Nat) (row : UeRow) (ces configured : Bool)
    (sys : LogicalChannelSystem) : Prop :=
  ∃ row', row.Evolves row' ∧ Viewed base ue (row'.view ces configured) sys

theorem Viewed.updated (h : Viewed base ue (row.view ces configured) sys) :
    Updated base ue row ces configured sys :=
  ⟨row, .refl row, h⟩

theorem Updated.trans (hrow : row.Evolves row') (h : Updated base ue row' ces configured sys) :
    Updated base ue row ces configured sys := by
  obtain ⟨row'', hrow', hsys⟩ := h
  exact ⟨row'', hrow.trans hrow', hsys⟩

theorem Updated.chain {r : Except LcFault LogicalChannelSystem}
    {f : LogicalChannelSystem → Except LcFault LogicalChannelSystem} (hsound : row.Sound)
    (h : Gives (Updated base ue row ces configured) r)
    (hf : ∀ sys row', row'.Sound → Viewed base ue (row'.view ces configured) sys →
      Gives (Updated base ue row' ces configured) (f sys)) :
    Gives (Updated base ue row ces configured) (r >>= f) := by
  refine h.bind fun sys hsys => ?_
  obtain ⟨row', hrow, hview⟩ := hsys
  exact (hf sys row' (hrow.sound hsound) hview).mono fun _ => Updated.trans hrow

theorem Updated.foldlM {α : Type} {f : LogicalChannelSystem → α → Except LcFault LogicalChannelSystem}
    {xs : List α} (hsound : row.Sound) (h : Viewed base ue (row.view ces configured) sys)
    (hf : ∀ sys row' x, row'.Sound → Viewed base ue (row'.view ces configured) sys →
      Gives (Updated base ue row' ces configured) (f sys x)) :
    Gives (Updated base ue row ces configured) (xs.foldlM f sys) := by
  induction xs generalizing sys row with
  | nil => exact .ok h.updated
  | cons x xs ih =>
    rw [List.foldlM_cons]
    exact Updated.chain hsound (hf sys row x hsound h) fun sys row' hsound' h' => ih hsound' h'

namespace Viewed

section
variable (h : Viewed base ue (row.view ces configured) sys)
include h

theorem deregisterRanSlice (hsound : row.Sound) :
    Gives (Viewed base ue ((row.deregistered d id).view ces configured)) (sys.deregisterRanSlice ue d id) := by
  rw [LogicalChannelSystem.deregisterRanSlice, h.getUe, ok_bind, UeRow.deregistered]
  cases hch : row.channel? d id with
  | none => exact .ok h
  | some ch =>
    dsimp only
    refine h.onBufStUpdate.bind fun sys' h' => ?_
    cases hslice : ch.sliceId with
    | none =>
      rw [hslice] at h'
      exact .ok h'
    | some prevSlice =>
      have hdetached := UeRow.evolves_detach hch
      rw [hslice] at h' hdetached
      dsimp only
      rw [h'.getUe, ok_bind]
      split
      · rename_i hall
        refine .ok (h'.setRow ?_ ?_)
        swap
        · intro d' slice hsome
          rw [UeRow.pending?_eraseSlice] at hsome
          split at hsome
          · cases hsome
          · rw [UeRow.pending?_setChannel] at hsome
            exact hsome
        have hbits := UeRow.bits_eraseSlice (hdetached.sound hsound) fun id' ch' hch' =>
          UeRow.forall_of_all_entries (p := fun ch => ch.sliceId ≠ some prevSlice) hall id' hch'
        rw [hbits, UeRow.bits_setChannel]
      · exact .ok h'.setChannel

theorem createSlice : Gives
      (fun sys => ∃ row', row.Evolves row' ∧ (∀ d' id, row'.channel? d' id = row.channel? d' id) ∧
        (row'.pending? d slice).isSome ∧ Viewed base ue (row'.view ces configured) sys)
      (sys.createSlice ue d slice) := by
  rw [LogicalChannelSystem.createSlice, h.getUe, ok_bind]
  split
  · rename_i hcontains
    exact .ok ⟨row, .refl row, fun _ _ => rfl, hcontains, h⟩
  · rename_i hcontains
    have hfresh : row.pending? d slice = none := by
      rw [← Option.isNone_iff_eq_none, ← Option.isSome_eq_false_iff]
      exact Bool.eq_false_of_not_eq_true hcontains
    split
    · exact .error trivial
    · refine .ok ⟨row.setPending d slice 0, UeRow.evolves_newSlice hfresh, ?_, ?_, ?_⟩
      · exact fun d' id => UeRow.channel?_setPending
      · rw [UeRow.pending?_setPending, if_pos ⟨rfl, rfl⟩]
        rfl
      · have hsame : Viewed base ue (row.view ces configured)
            { sys with
              slices := sys.slices.emplace slice
                { pendingUes := fun _ => List.replicate sys.configuredUes.length false } } := by
          refine ⟨?_, { h.provisioned with slices := ?_, known := ?_ }⟩
          rotate_left
          · intro slice' ctx hctx d'
            dsimp only at hctx
            rw [OrdMap.emplace] at hctx
            split at hctx
            · exact h.provisioned.slices slice' ctx hctx d'
            · rw [OrdMap.find?_insert] at hctx
              split at hctx
              · cases hctx
                exact List.length_replicate
              · exact h.provisioned.slices slice' ctx hctx d'
          · intro ue' row' d' slice' hrow' hsome
            exact OrdMap.isSome_find?_emplace (h.provisioned.known ue' row' d' slice' hrow' hsome)
          rw [← h.view_eq]
          funext ue'
          rw [view, view]
          congr 1
          funext d' slice'
          rw [pendingBit, pendingBit, OrdMap.emplace]
          split
          · rfl
          · rename_i hnew
            by_cases hslice : slice' = slice
            · rw [Bool.not_eq_true, OrdMap.contains_eq_false_iff] at hnew
              rw [hslice, OrdMap.find?_insert_self, hnew]
              simp [testBit, List.getD_eq_getElem?_getD, List.getElem?_replicate]
              split <;> rfl
            · rw [OrdMap.find?_insert_of_ne hslice]
        rw [UeRow.view, UeRow.bits_newSlice hfresh]
        refine hsame.setUe fun d' slice' hsome' => ?_
        rw [UeRow.pending?_setPending] at hsome'
        split at hsome'
        · rename_i heq
          rw [heq.2]
          exact OrdMap.isSome_find?_emplace_self
        · exact hsame.provisioned.known ue row d' slice' hsame.row_eq hsome'

theorem setRanSlice (hsound : row.Sound) :
    Gives (Updated base ue row ces configured) (sys.setRanSlice ue d id slice) := by
  rw [LogicalChannelSystem.setRanSlice, h.getUe, ok_bind]
  split
  · exact .error trivial
  · rename_i ch hch
    split
    · exact .ok h.updated
    · refine (h.deregisterRanSlice hsound).bind fun sys₁ h₁ => ?_
      refine h₁.createSlice.bind fun sys₂ h₂ => ?_
      obtain ⟨row₂, hrow₂, hchannels, hsome, h₂⟩ := h₂
      rw [h₂.getUe, ok_bind]
      have hdetached : row₂.channel? d id = some { ch with sliceId := none } := by
        rw [hchannels, UeRow.channel?_deregistered hch]
      have hrow := UeRow.evolves_deregistered.trans hrow₂
      have hold : ∀ slice', ((some { ch with sliceId := none } : Option ChannelContext).elim 0
          fun old => old.bytesIn d slice' id) = 0 :=
        fun slice' => ChannelContext.bytesIn_of_sliceId_none rfl d slice' id
      refine h₂.setChannel.onBufStUpdate.mono fun sys₃ h₃ => ⟨_, hrow.trans ?_, h₃⟩
      refine UeRow.evolves_change hdetached ?_ ?_ ?_ ?_ ?_
      · exact fun hsound₂ => (hsound₂.bufSt_le d id { ch with sliceId := none } hdetached :)
      · exact fun _ => Nat.zero_le _
      · intro slice'
        rw [hold slice']
        rfl
      · intro slice' _ _
        rw [hold slice', bufStBytes_zero]
      · intro slice' hslice' _
        rw [← Option.some.inj hslice']
        exact hsome

end

theorem resetSliceBits (h : Viewed base ue v sys) (row : UeRow) (hrow : v.row = some row)
    (hbits : ∀ slice, v.bits d slice = true → row.bits d slice = true) :
    Gives
      (Viewed base ue { v with bits := fun d' slice => if d' = d then false else v.bits d' slice })
      (sys.resetSliceBits ue d) := by
  have hget : sys.getUe ue = .ok row := by
    rw [LogicalChannelSystem.getUe, h.row_eq, hrow]
  rw [LogicalChannelSystem.resetSliceBits, hget, ok_bind]
  have hloop : Gives _ ((row.side d).pendingBytesPerSlice.entries.foldlM
      (fun sys e => if e.2 > 0 then sys.setPendingUe d e.1 ue false else .ok sys) sys) := Ensures.foldlM
    (I := fun done sys => ∃ bits : Direction → RanSliceId → Bool,
      Viewed base ue { v with bits } sys ∧ (∀ d', d' ≠ d → bits d' = v.bits d') ∧
      ∀ slice, bits d slice = true → v.bits d slice = true ∧ ∀ e ∈ done, e.1 = slice → e.2 = 0)
    ⟨v.bits, h, fun _ _ => rfl, fun slice hslice => ⟨hslice, fun _ hmem => absurd hmem List.not_mem_nil⟩⟩ ?_
  · refine hloop.mono fun sys' hsys' => ?_
    obtain ⟨bits, hview, hother, hdone⟩ := hsys'
    have hsame : bits = fun d' slice => if d' = d then false else v.bits d' slice := by
      funext d' slice
      split
      · rename_i hd
        rw [hd, Bool.eq_false_iff]
        intro hbit
        obtain ⟨hv, hzero⟩ := hdone slice hbit
        have hpos := of_decide_eq_true (hbits slice hv)
        rw [UeRow.pending?] at hpos
        cases hfind : (row.side d).pendingBytesPerSlice.find? slice with
        | none =>
          rw [hfind] at hpos
          exact absurd hpos (Nat.lt_irrefl _)
        | some bytes =>
          rw [hfind, Option.getD_some] at hpos
          exact hpos.ne' (hzero _ (OrdMap.find?_eq_some_iff.mp hfind) rfl)
      · rename_i hd
        rw [hother d' hd]
    rw [← hsame]
    exact hview
  · intro sys' done e rest _ hsys'
    obtain ⟨bits, hview, hother, hdone⟩ := hsys'
    split
    · refine hview.setPendingUe.mono fun sys'' hview' => ⟨_, hview', ?_, ?_⟩
      · intro d' hd
        funext slice
        rw [if_neg fun heq => hd heq.1]
        exact congrFun (hother d' hd) slice
      · intro slice hbit
        by_cases hslice : slice = e.1
        · rw [if_pos ⟨rfl, hslice⟩] at hbit
          cases hbit
        · rw [if_neg fun heq => hslice heq.2] at hbit
          obtain ⟨hv, hzero⟩ := hdone slice hbit
          refine ⟨hv, fun e' he' => ?_⟩
          rcases List.mem_append.mp he' with he' | he'
          · exact hzero e' he'
          · rw [List.mem_singleton.mp he']
            exact fun heq => absurd heq.symm hslice
    · rename_i hzero'
      refine .ok ⟨bits, hview, hother, fun slice hbit => ?_⟩
      obtain ⟨hv, hzero⟩ := hdone slice hbit
      refine ⟨hv, fun e' he' => ?_⟩
      rcases List.mem_append.mp he' with he' | he'
      · exact hzero e' he'
      · rw [List.mem_singleton.mp he']
        exact fun _ => Nat.eq_zero_of_not_pos hzero'

theorem clearPending (h : Viewed base ue (row.view ces configured) sys) :
    Gives (Viewed base ue ((row.clearedPending d).view ces configured)) (sys.clearPending ue d) := by
  rw [LogicalChannelSystem.clearPending]
  refine (h.resetSliceBits row rfl fun _ hbit => hbit).bind fun sys' h' => ?_
  rw [LogicalChannelSystem.getUe, h'.row_eq]
  refine .ok ?_
  rw [UeRow.view, UeRow.bits_clearedPending]
  refine h'.setUe fun d' slice hsome => ?_
  rw [UeRow.pending?_clearedPending] at hsome
  have hold : (row.pending? d' slice).isSome := by
    split at hsome
    · rename_i hd
      rw [Option.isSome_map] at hsome
      rw [hd]
      exact hsome
    · exact hsome
  exact h'.provisioned.known ue row d' slice h'.row_eq hold

end Viewed
end LogicalChannelSystem
end Srsran.Scheduler
