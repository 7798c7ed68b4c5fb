import Srsran.Scheduler.LogicalChannelSystem

/-! What the operations of the logical channel system do to the row and the bits of one UE. The bits of
the slices always say which of the bytes in the row are not zero. -/
namespace Srsran.Scheduler
open Checked

structure UeView where
  row : Option UeRow
  bits : Direction → RanSliceId → Bool
  cesBit : Bool
  configured : Bool

namespace LogicalChannelSystem

/-- A bit of a slice, which is not set in a slice that does not exist. -/
def pendingBit (sys : LogicalChannelSystem) (d : Direction) (slice : RanSliceId) (ue : Nat) : Bool :=
  (sys.slices.find? slice).any fun ctx => testBit (ctx.pendingUes d) ue

def view (sys : LogicalChannelSystem) (ue : Nat) : UeView where
  row := sys.ues.find? ue
  bits := fun d slice => sys.pendingBit d slice ue
  cesBit := testBit sys.uesWithPendingCes ue
  configured := testBit sys.configuredUes ue

end LogicalChannelSystem

namespace UeRow
variable {row : UeRow} {d d' : Direction} {id id' : Nat} {slice slice' : RanSliceId} {ch : ChannelContext}
  {bytes : Nat} {ces configured : Bool}

def bits (row : UeRow) (d : Direction) (slice : RanSliceId) : Bool :=
  decide (0 < (row.pending? d slice).getD 0)

def view (row : UeRow) (ces configured : Bool) : UeView where
  row := some row
  bits := row.bits
  cesBit := ces
  configured := configured

/-- The effect of `onBufStUpdate` on a row. -/
def bufStUpdated (row : UeRow) (d : Direction) (id : Nat) (channelActive : Bool)
    (sliceId : Option RanSliceId) (newBufSt prevBufSt : Nat) : UeRow :=
  match sliceId with
  | none => row
  | some slice =>
    if !channelActive || row.fallbackState then row
    else
      match row.pending? d slice with
      | none => row
      | some prevPending =>
        row.setPending d slice
          ((prevPending + 2 ^ 32 + bufStBytes d id newBufSt - bufStBytes d id prevBufSt) % 2 ^ 32)

variable {f : UeSide → UeSide}

@[simp] theorem fallbackState_updateSide :
    (row.updateSide d f).fallbackState = row.fallbackState := rfl

@[simp] theorem side_updateSide_self : (row.updateSide d f).side d = f (row.side d) :=
  Function.update_self ..

theorem side_updateSide_of_ne (h : d' ≠ d) : (row.updateSide d f).side d' = row.side d' :=
  Function.update_of_ne h ..

@[simp] theorem channel?_setPending : (row.setPending d slice bytes).channel? d' id = row.channel? d' id := by
  rw [channel?, channel?, setPending]
  by_cases h : d' = d
  · rw [h, side_updateSide_self]
  · rw [side_updateSide_of_ne h]

@[simp] theorem pending?_setChannel : (row.setChannel d id ch).pending? d' slice = row.pending? d' slice := by
  rw [pending?, pending?, setChannel]
  by_cases h : d' = d
  · rw [h, side_updateSide_self]
  · rw [side_updateSide_of_ne h]

theorem channel?_setChannel : (row.setChannel d id ch).channel? d' id' =
    if d' = d ∧ id' = id then some ch else row.channel? d' id' := by
  rw [channel?, channel?, setChannel]
  by_cases h : d' = d
  · rw [h, side_updateSide_self, OrdMap.find?_insert]
    simp
  · rw [side_updateSide_of_ne h]
    simp [h]

theorem pending?_setPending : (row.setPending d slice bytes).pending? d' slice' =
    if d' = d ∧ slice' = slice then some bytes else row.pending? d' slice' := by
  rw [pending?, pending?, setPending]
  by_cases h : d' = d
  · rw [h, side_updateSide_self, OrdMap.find?_insert]
    simp
  · rw [side_updateSide_of_ne h]
    simp [h]

@[simp] theorem bits_setChannel : (row.setChannel d id ch).bits = row.bits := by
  funext d' slice
  rw [bits, bits, pending?_setChannel]

theorem bits_setPending : (row.setPending d slice bytes).bits d' slice' =
    if d' = d ∧ slice' = slice then decide (0 < bytes) else row.bits d' slice' := by
  rw [bits, bits, pending?_setPending]
  split <;> rfl

end UeRow

namespace LogicalChannelSystem
variable {sys sys' : LogicalChannelSystem} {ue : Nat} {row row' : UeRow} {v : UeView} {base : Nat → UeView}
  {d : Direction} {id newBufSt prevBufSt : Nat} {slice : RanSliceId} {sliceId : Option RanSliceId}
  {active value ces configured : Bool} {ch : ChannelContext}

/-- All bitsets have the size of `configuredUes`, and the slices of all UEs exist. -/
structure Provisioned (sys : LogicalChannelSystem) : Prop where
  ces : sys.uesWithPendingCes.length = sys.configuredUes.length
  sr : sys.uesWithPendingSr.length = sys.configuredUes.length
  slices : ∀ slice ctx, sys.slices.find? slice = some ctx →
    ∀ d, (ctx.pendingUes d).length = sys.configuredUes.length
  known : ∀ ue row d slice, sys.ues.find? ue = some row → (row.pending? d slice).isSome →
    (sys.slices.find? slice).isSome

/-- All UEs but one are as in a base, and that one is as given. -/
structure Viewed (base : Nat → UeView) (ue : Nat) (v : UeView) (sys : LogicalChannelSystem) : Prop where
  view_eq : sys.view = Function.update base ue v
  provisioned : sys.Provisioned

/-- A computation that either fails or has a result with a property. -/
abbrev Gives (P : LogicalChannelSystem → Prop) (r : Except LcFault LogicalChannelSystem) : Prop :=
  Ensures (fun _ => True) P r

theorem view_setUe : (sys.setUe ue row).view = Function.update sys.view ue { sys.view ue with row := some row } := by
  funext ue'
  by_cases h : ue' = ue
  · rw [h, Function.update_self]
    simp [view, setUe, pendingBit]
  · rw [Function.update_of_ne h]
    simp [view, setUe, pendingBit, OrdMap.find?_insert_of_ne h]

variable {bits : List Bool} {pos : Nat}

theorem testBit_set {pos' : Nat} (hpos : pos < bits.length) :
    testBit (bits.set pos value) pos' = if pos' = pos then value else testBit bits pos' := by
  rw [testBit, testBit, List.getD_eq_getElem?_getD, List.getD_eq_getElem?_getD, List.getElem?_set]
  split
  · rename_i h
    rw [if_pos h.symm]
    simp
  · rename_i h
    rw [if_neg (Ne.symm h)]

theorem testBit_setBit {bits' : List Bool} {pos' : Nat} (h : setBit bits pos value = .ok bits') :
    testBit bits' pos' = if pos' = pos then value else testBit bits pos' := by
  rw [setBit] at h
  split at h
  · rename_i hpos
    cases h
    exact testBit_set hpos
  · cases h

theorem length_setBit {bits' : List Bool} (h : setBit bits pos value = .ok bits') :
    bits'.length = bits.length := by
  rw [setBit] at h
  split at h
  · cases h
    exact List.length_set
  · cases h

theorem setBit_gives :
    Ensures (fun _ => True) (fun bits' => setBit bits pos value = .ok bits') (setBit bits pos value) := by
  cases h : setBit bits pos value with
  | ok bits' => exact .ok rfl
  | error e => exact .error trivial

namespace Viewed

theorem start (h : sys.Provisioned) (ue : Nat) : Viewed sys.view ue (sys.view ue) sys :=
  ⟨(Function.update_eq_self ue sys.view).symm, h⟩

theorem view_self (h : Viewed base ue v sys) : sys.view ue = v := by
  rw [h.view_eq, Function.update_self]

theorem view_of_ne (h : Viewed base ue v sys) {ue' : Nat} (hne : ue' ≠ ue) : sys.view ue' = base ue' := by
  rw [h.view_eq, Function.update_of_ne hne]

theorem row_eq (h : Viewed base ue v sys) : sys.ues.find? ue = v.row :=
  congrArg UeView.row h.view_self

theorem getUe (h : Viewed base ue (row.view ces configured) sys) : sys.getUe ue = .ok row := by
  rw [LogicalChannelSystem.getUe, h.row_eq]
  rfl

theorem setUe (h : Viewed base ue v sys)
    (hknown : ∀ d slice, (row.pending? d slice).isSome → (sys.slices.find? slice).isSome) :
    Viewed base ue { v with row := some row } (sys.setUe ue row) := by
  refine ⟨?_, { h.provisioned with known := ?_ }⟩
  · rw [view_setUe, h.view_self, h.view_eq, Function.update_idem]
  · intro ue' row' d slice hrow'
    rw [LogicalChannelSystem.setUe, OrdMap.find?_insert] at hrow'
    split at hrow'
    · cases hrow'
      exact hknown d slice
    · exact h.provisioned.known ue' row' d slice hrow'

/-- A row is replaced by one with the same bits, in no new slice. -/
theorem setRow (h : Viewed base ue (row.view ces configured) sys) (hbits : row'.bits = row.bits)
    (hslices : ∀ d slice, (row'.pending? d slice).isSome → (row.pending? d slice).isSome) :
    Viewed base ue (row'.view ces configured) (sys.setUe ue row') := by
  rw [UeRow.view, hbits]
  exact h.setUe fun d slice hsome => h.provisioned.known ue row d slice h.row_eq (hslices d slice hsome)

theorem setChannel (h : Viewed base ue (row.view ces configured) sys) :
    Viewed base ue ((row.setChannel d id ch).view ces configured) (sys.setUe ue (row.setChannel d id ch)) := by
  refine h.setRow UeRow.bits_setChannel fun d' slice hsome => ?_
  rw [UeRow.pending?_setChannel] at hsome
  exact hsome

section
variable (h : Viewed base ue v sys)
include h

theorem setQos {table : Adt.SoaTable QosContext} : Viewed base ue v (sys.setQos d table) :=
  ⟨h.view_eq, { h.provisioned with }⟩

theorem eraseQos {qosRow : Option Adt.RowId} : Viewed base ue v (sys.eraseQos d qosRow) := by
  cases qosRow with
  | none => exact h
  | some rid => exact h.setQos

theorem updateQos {rid : Adt.RowId} {f : QosContext → QosContext} :
    Gives (Viewed base ue v) (sys.updateQos d rid f) := by
  rw [LogicalChannelSystem.updateQos]
  split
  · exact .ok h.setQos
  · exact .error trivial

theorem setPendingUe :
    Gives (Viewed base ue { v with bits := fun d' slice' => if d' = d ∧ slice' = slice then value else v.bits d' slice' })
      (sys.setPendingUe d slice ue value) := by
  rw [LogicalChannelSystem.setPendingUe]
  split
  · exact .error trivial
  · rename_i ctx hctx
    refine setBit_gives.bind fun bits hbits => .ok ?_
    have hbit : ∀ (ue' : Nat) (d' : Direction) (slice' : RanSliceId),
        LogicalChannelSystem.pendingBit
          { sys with
            slices := sys.slices.insert slice { pendingUes := Function.update ctx.pendingUes d bits } }
          d' slice' ue' =
        if ue' = ue ∧ d' = d ∧ slice' = slice then value else sys.pendingBit d' slice' ue' := by
      intro ue' d' slice'
      rw [pendingBit, pendingBit]
      by_cases hslice : slice' = slice
      · rw [hslice, OrdMap.find?_insert_self, hctx]
        by_cases hd : d' = d
        · simp [hd, testBit_setBit hbits]
        · simp [hd]
      · rw [OrdMap.find?_insert_of_ne hslice]
        simp [hslice]
    refine ⟨?_, { h.provisioned with slices := ?_, known := ?_ }⟩
    · funext ue'
      by_cases hue : ue' = ue
      · rw [hue, Function.update_self, ← h.view_self]
        simp [view, hbit]
      · rw [Function.update_of_ne hue, ← h.view_of_ne hue]
        simp [view, hbit, hue]
    · intro slice' ctx' hctx' d'
      rw [OrdMap.find?_insert] at hctx'
      split at hctx'
      · cases hctx'
        have hold := h.provisioned.slices slice ctx hctx
        dsimp only
        by_cases hd : d' = d
        · rw [hd, Function.update_self, length_setBit hbits]
          exact hold d
        · rw [Function.update_of_ne hd]
          exact hold d'
      · exact h.provisioned.slices slice' ctx' hctx' d'
    · intro ue' row' d' slice' hrow' hsome
      rw [OrdMap.find?_insert]
      split
      · rfl
      · exact h.provisioned.known ue' row' d' slice' hrow' hsome

theorem setPendingCesBit : Gives (Viewed base ue { v with cesBit := value }) (sys.setPendingCesBit ue value) := by
  rw [LogicalChannelSystem.setPendingCesBit]
  refine setBit_gives.bind fun bits hbits => .ok ⟨?_, { h.provisioned with ces := ?_ }⟩
  swap
  · exact (length_setBit hbits).trans h.provisioned.ces
  funext ue'
  by_cases hue : ue' = ue
  · rw [hue, Function.update_self, ← h.view_self]
    simp [view, pendingBit, testBit_setBit hbits]
  · rw [Function.update_of_ne hue, ← h.view_of_ne hue]
    simp [view, pendingBit, testBit_setBit hbits, hue]

theorem setPendingSrBit : Gives (Viewed base ue v) (sys.setPendingSrBit ue value) := by
  rw [LogicalChannelSystem.setPendingSrBit]
  refine setBit_gives.bind fun bits hbits => .ok ⟨h.view_eq, { h.provisioned with sr := ?_ }⟩
  exact (length_setBit hbits).trans h.provisioned.sr

end

theorem onBufStUpdate (h : Viewed base ue (row.view ces configured) sys) :
    Gives (Viewed base ue ((row.bufStUpdated d id active sliceId newBufSt prevBufSt).view ces configured))
      (sys.onBufStUpdate ue d id active sliceId newBufSt prevBufSt) := by
  cases sliceId with
  | none => exact .ok h
  | some slice =>
    dsimp only [LogicalChannelSystem.onBufStUpdate, UeRow.bufStUpdated]
    rw [h.getUe, ok_bind]
    by_cases hidle : (!active || row.fallbackState) = true
    · rw [if_pos hidle, if_pos hidle]
      exact .ok h
    · rw [if_neg hidle, if_neg hidle]
      cases hprev : row.pending? d slice with
      | none => exact .error trivial
      | some prevPending =>
        dsimp only
        generalize (prevPending + 2 ^ 32 + bufStBytes d id newBufSt - bufStBytes d id prevBufSt) % 2 ^ 32 =
          pending
        have hslices : ∀ d' slice', ((row.setPending d slice pending).pending? d' slice').isSome →
            (row.pending? d' slice').isSome := by
          intro d' slice' hsome
          rw [UeRow.pending?_setPending] at hsome
          split at hsome
          · rename_i heq
            rw [heq.1, heq.2, hprev]
            rfl
          · exact hsome
        have hrow := h.setUe fun d' slice' hsome =>
          h.provisioned.known ue row d' slice' h.row_eq (hslices d' slice' hsome)
        have hbits : ∀ d' slice', (row.setPending d slice pending).bits d' slice' =
            if d' = d ∧ slice' = slice then decide (pending > 0) else row.bits d' slice' :=
          fun _ _ => UeRow.bits_setPending
        split
        · exact .error trivial
        · split
          · refine hrow.setPendingUe.mono fun sys' hsys' => ?_
            rw [UeRow.view, funext fun d' => funext (hbits d')]
            exact hsys'
          · rename_i hcross
            refine .ok ?_
            have hsame : (row.setPending d slice pending).bits = row.bits := by
              funext d' slice'
              rw [hbits]
              split
              · rename_i heq
                rw [heq.1, heq.2, UeRow.bits, hprev]
                exact (not_not.mp hcross).symm
              · rfl
            exact h.setRow hsame hslices

end Viewed
end LogicalChannelSystem
end Srsran.Scheduler
