import Mathlib.Data.List.TakeWhile
import Srsran.Lib.Runs
import Srsran.Scheduler.SliceAllocation

/-! Runs of the logical channel system: the bits of all UEs follow their rows. -/
namespace Srsran.Scheduler
open Checked Runs

/-- The bits of a UE are those of its row, which is sound; a UE without a row has none. -/
inductive UeView.Consistent : UeView → Prop where
  | absent {v : UeView} : v.row = none → (∀ d slice, v.bits d slice = false) → v.cesBit = false → v.Consistent
  | present {row : UeRow} {ces : Bool} : row.Sound → row.CesSound ces → (row.view ces true).Consistent

/-- Views that differ in the bit of `configuredUes` of a UE without a row. -/
theorem UeView.Consistent.of_absent {v v' : UeView} (h : v.Consistent) (hrow : v.row = none)
    (hrow' : v'.row = none) (hbits : ∀ d slice, v'.bits d slice = true → v.bits d slice = true)
    (hces : v'.cesBit = true → v.cesBit = true) : v'.Consistent := by
  cases h with
  | absent _ hzero hces₀ =>
    refine .absent hrow' ?_ ?_
    · intro d slice
      rw [Bool.eq_false_iff]
      intro hbit
      have hset := hbits d slice hbit
      rw [hzero] at hset
      cases hset
    · rw [Bool.eq_false_iff]
      intro hbit
      have hset := hces hbit
      rw [hces₀] at hset
      cases hset
  | present => cases hrow

namespace LogicalChannelSystem
variable {sys sys' : LogicalChannelSystem} {ue : Nat} {row : UeRow} {base : Nat → UeView} {ces : Bool}

structure Consistent (sys : LogicalChannelSystem) : Prop where
  views : ∀ ue, (sys.view ue).Consistent
  provisioned : sys.Provisioned

theorem consistent_empty : ({} : LogicalChannelSystem).Consistent :=
  ⟨fun _ => .absent rfl (fun _ _ => rfl) rfl, rfl, rfl, nofun, nofun⟩

theorem Viewed.consistent {v : UeView} (h : Viewed base ue v sys) (hbase : ∀ ue', ue' ≠ ue → (base ue').Consistent)
    (hv : v.Consistent) : sys.Consistent := by
  refine ⟨fun ue' => ?_, h.provisioned⟩
  by_cases hue : ue' = ue
  · rw [hue, h.view_self]
    exact hv
  · rw [h.view_of_ne hue]
    exact hbase ue' hue

theorem Kept.consistent (h : Kept base ue true sys) (hbase : ∀ ue', ue' ≠ ue → (base ue').Consistent) :
    sys.Consistent := by
  obtain ⟨row, ces, hsound, hces, hview⟩ := h
  exact hview.consistent hbase (.present hsound hces)

theorem Consistent.row_cases (h : sys.Consistent) (ue : Nat) : sys.ues.find? ue = none ∨
    ∃ (row : UeRow) (ces : Bool), row.Sound ∧ row.CesSound ces ∧ Viewed sys.view ue (row.view ces true) sys := by
  have hstart := Viewed.start h.provisioned ue
  generalize hv : sys.view ue = v at hstart
  have hue := h.views ue
  rw [hv] at hue
  cases hue with
  | absent hrow => exact .inl (hstart.row_eq.trans hrow)
  | @present row ces hsound hces => exact .inr ⟨row, ces, hsound, hces, hstart⟩

variable {r : Except LcFault LogicalChannelSystem}

/-- What an operation on a UE with a row keeps, when it fails without one. -/
theorem Consistent.perform (h : sys.Consistent) (ue : Nat)
    (habsent : sys.getUe ue = .error .unknownUe → Gives Consistent r)
    (hpresent : ∀ (row : UeRow) (ces : Bool), row.Sound → row.CesSound ces →
      Viewed sys.view ue (row.view ces true) sys → Gives (Kept sys.view ue true) r) :
    Gives Consistent r := by
  rcases h.row_cases ue with hnone | ⟨row, ces, hsound, hces, hview⟩
  · apply habsent
    rw [getUe, hnone]
  · exact (hpresent row ces hsound hces hview).mono fun sys' h' => h'.consistent fun ue' _ => h.views ue'

theorem Consistent.of_view (h : sys.Consistent) (hview : sys'.view = sys.view) (hprovisioned : sys'.Provisioned) :
    sys'.Consistent := by
  refine ⟨fun ue => ?_, hprovisioned⟩
  rw [hview]
  exact h.views ue

theorem Consistent.unviewed (h : sys.Consistent)
    (hr : Gives (Viewed sys.view ue (sys.view ue)) r) : Gives Consistent r :=
  hr.mono fun _ h' => h.of_view (h'.view_eq.trans (Function.update_eq_self ue sys.view)) h'.provisioned

variable {bits : List Bool} {size pos : Nat}

theorem testBit_resizeBits :
    testBit (resizeBits bits size) pos = if pos < size then testBit bits pos else false := by
  rw [testBit, testBit, resizeBits, List.getD_eq_getElem?_getD, List.getD_eq_getElem?_getD, List.getElem?_take]
  split
  · rw [List.getElem?_append]
    split
    · rfl
    · rename_i hlength
      rw [List.getElem?_replicate, List.getElem?_eq_none (Nat.le_of_not_lt hlength)]
      split <;> rfl
  · rfl

theorem view_resize : (sys.resize size).view ue =
    { row := sys.ues.find? ue
      bits := fun d slice => if ue < size then sys.pendingBit d slice ue else false
      cesBit := if ue < size then testBit sys.uesWithPendingCes ue else false
      configured := if ue < size then testBit sys.configuredUes ue else false } := by
  rw [view, resize]
  simp only [testBit_resizeBits]
  congr 1
  funext d slice
  rw [pendingBit, pendingBit, OrdMap.find?_mapValues]
  cases sys.slices.find? slice with
  | none => simp
  | some ctx => simp [testBit_resizeBits]

theorem length_resizeBits : (resizeBits bits size).length = size := by
  rw [resizeBits, List.length_take, List.length_append, List.length_replicate]
  exact min_eq_left (Nat.le_add_left _ _)

theorem Provisioned.resize (h : sys.Provisioned) : (sys.resize size).Provisioned := by
  refine ⟨?_, ?_, ?_, ?_⟩
  · exact length_resizeBits.trans length_resizeBits.symm
  · exact length_resizeBits.trans length_resizeBits.symm
  · intro slice ctx hctx d
    rw [LogicalChannelSystem.resize, OrdMap.find?_mapValues] at hctx
    obtain ⟨old, -, rfl⟩ := Option.map_eq_some_iff.mp hctx
    exact length_resizeBits.trans length_resizeBits.symm
  · intro ue row d slice hrow hsome
    rw [LogicalChannelSystem.resize, OrdMap.find?_mapValues, Option.isSome_map]
    exact h.known ue row d slice hrow hsome

theorem Consistent.resize (h : sys.Consistent)
    (hsize : ∀ ue row, sys.ues.find? ue = some row → ue < size) : (sys.resize size).Consistent := by
  refine ⟨fun ue => ?_, h.provisioned.resize⟩
  have hue := h.views ue
  cases hrow : sys.ues.find? ue with
  | some row =>
    rw [view_resize]
    simp only [if_pos (hsize ue row hrow)]
    exact hue
  | none =>
    apply hue.of_absent hrow
    · rw [view_resize]
      exact hrow
    · intro d slice hbit
      rw [view_resize] at hbit
      dsimp only at hbit
      split at hbit
      · exact hbit
      · cases hbit
    · intro hbit
      rw [view_resize] at hbit
      dsimp only at hbit
      split at hbit
      · exact hbit
      · cases hbit

theorem Consistent.configured (h : sys.Consistent) (hrow : sys.ues.find? ue = some row) :
    testBit sys.configuredUes ue = true := by
  have hue := h.views ue
  generalize hv : sys.view ue = v at hue
  cases hue with
  | absent hnone =>
    rw [← hv] at hnone
    rw [show (sys.view ue).row = sys.ues.find? ue from rfl, hrow] at hnone
    cases hnone
  | present => exact congrArg UeView.configured hv

theorem lt_length_of_testBit (h : testBit bits pos = true) : pos < bits.length := by
  by_contra hlength
  rw [testBit, List.getD_eq_getElem?_getD, List.getElem?_eq_none (Nat.le_of_not_lt hlength)] at h
  cases h

theorem lt_strippedSize (h : testBit bits pos = true) : pos < strippedSize bits := by
  by_contra hstripped
  have hlt := lt_length_of_testBit h
  have hsplit := List.takeWhile_append_dropWhile (p := fun bit => !bit) (l := bits.reverse)
  have hbits := congrArg List.reverse hsplit
  rw [List.reverse_append, List.reverse_reverse] at hbits
  rw [testBit, List.getD_eq_getElem?_getD, ← hbits, List.getElem?_append_right, List.length_reverse] at h
  · cases hbit : ((bits.reverse.takeWhile fun bit => !bit).reverse)[
        pos - (bits.reverse.dropWhile fun bit => !bit).length]? with
    | none =>
      rw [hbit] at h
      cases h
    | some bit =>
      rw [hbit] at h
      have hmem := List.mem_reverse.mp (List.mem_of_getElem? hbit)
      have hfalse := List.mem_takeWhile_imp hmem
      rw [Option.getD_some] at h
      rw [h] at hfalse
      cases hfalse
  · rw [List.length_reverse]
    exact Nat.le_of_not_lt hstripped

theorem Consistent.addUe (h : sys.Consistent) (hrow : sys.ues.find? ue = none)
    (hbits : setBit sys.configuredUes ue true = .ok bits) (slotsPerMsec : Nat)
    (startsInFallback : Bool) :
    ∃ row : UeRow, row.Sound ∧ row.CesSound false ∧
      Viewed sys.view ue (row.view false true)
        { sys.setUe ue { slotsPerMsec, fallbackState := startsInFallback } with configuredUes := bits } := by
  refine ⟨{ slotsPerMsec, fallbackState := startsInFallback }, ⟨nofun, nofun, nofun⟩,
    ⟨rfl, fun _ hne => absurd rfl hne, nofun⟩, ?_⟩
  have hlength := length_setBit hbits
  refine ⟨?_, h.provisioned.ces.trans hlength.symm, h.provisioned.sr.trans hlength.symm,
    fun slice ctx hctx d => (h.provisioned.slices slice ctx hctx d).trans hlength.symm, ?_⟩
  swap
  · intro ue' row' d slice hrow' hsome
    rw [setUe, OrdMap.find?_insert] at hrow'
    split at hrow'
    · cases hrow'
      cases hsome
    · exact h.provisioned.known ue' row' d slice hrow' hsome
  funext ue'
  by_cases hue : ue' = ue
  · rw [hue, Function.update_self]
    have hold := h.views ue
    generalize hv : sys.view ue = v at hold
    cases hold with
    | absent _ hzero hces =>
      have hpending : ∀ d slice, sys.pendingBit d slice ue = false := by
        intro d slice
        rw [← hzero d slice, ← hv]
        rfl
      have hcesBit : testBit sys.uesWithPendingCes ue = false := by
        rw [← hces, ← hv]
        rfl
      rw [view, UeRow.view]
      congr 1
      · exact OrdMap.find?_insert_self
      · funext d slice
        exact hpending d slice
      · rw [testBit_setBit hbits, if_pos rfl]
    | present =>
      have hnone : (sys.view ue).row = none := hrow
      rw [hv] at hnone
      cases hnone
  · rw [Function.update_of_ne hue, view, view]
    congr 1
    · exact OrdMap.find?_insert_of_ne hue
    · rw [testBit_setBit hbits, if_neg hue]

theorem Consistent.createUe (h : sys.Consistent) {slotsPerMsec : Nat} {startsInFallback : Bool}
    {cfgs : Option (List LogicalChannelConfig)} :
    Gives Consistent (sys.createUe ue slotsPerMsec startsInFallback cfgs) := by
  rw [LogicalChannelSystem.createUe]
  split
  · exact .error trivial
  · rename_i hunconfigured
    have hrow : sys.ues.find? ue = none := by
      rw [Option.eq_none_iff_forall_ne_some]
      exact fun row hrow => hunconfigured (h.configured hrow)
    have hroom : ∃ sys₁ : LogicalChannelSystem, sys₁.Consistent ∧ sys₁.ues = sys.ues ∧
        (if (sys.setUe ue { slotsPerMsec, fallbackState := startsInFallback }).configuredUes.length ≤ ue then
          (sys.setUe ue { slotsPerMsec, fallbackState := startsInFallback }).resize (ue + 1)
        else sys.setUe ue { slotsPerMsec, fallbackState := startsInFallback }) =
          sys₁.setUe ue { slotsPerMsec, fallbackState := startsInFallback } := by
      split
      · rename_i hlength
        refine ⟨sys.resize (ue + 1), h.resize fun ue' row' hrow' => ?_, rfl, rfl⟩
        have hlt := lt_length_of_testBit (h.configured hrow')
        exact Nat.lt_succ_of_lt (Nat.lt_of_lt_of_le hlt hlength)
      · exact ⟨sys, h, rfl, rfl⟩
    obtain ⟨sys₁, h₁, hues, hsys₁⟩ := hroom
    dsimp only
    rw [hsys₁]
    refine setBit_gives.bind fun bits hbits => ?_
    obtain ⟨row, hsound, hces, hview⟩ :=
      h₁.addUe (hues ▸ hrow) hbits slotsPerMsec startsInFallback
    split
    · refine (hview.configure hsound).mono fun sys' h' => ?_
      exact (h'.kept hsound hces).consistent fun ue' _ => h₁.views ue'
    · exact .ok (hview.consistent (fun ue' _ => h₁.views ue') (.present hsound hces))

theorem Consistent.removeUe (h : sys.Consistent) : Gives Consistent (sys.removeUe ue) := by
  rw [LogicalChannelSystem.removeUe]
  rcases h.row_cases ue with hnone | ⟨row, ces, hsound, hces, hview⟩
  · rw [LogicalChannelSystem.deactivate, getUe, hnone]
    exact .error trivial
  · refine (hview.deactivate hsound).bind fun sys₁ h₁ => ?_
    obtain ⟨row', -, -, hzero, h₁⟩ := h₁
    dsimp only
    refine setBit_gives.bind fun bits hbits => ?_
    have hlength := length_setBit hbits
    have herased : Consistent { sys₁ with ues := sys₁.ues.erase ue, configuredUes := bits } := by
      refine ⟨fun ue' => ?_, h₁.provisioned.ces.trans hlength.symm, h₁.provisioned.sr.trans hlength.symm,
        fun slice ctx hctx d => (h₁.provisioned.slices slice ctx hctx d).trans hlength.symm, ?_⟩
      swap
      · intro ue' row' d slice hrow' hsome
        rw [OrdMap.find?_erase] at hrow'
        split at hrow'
        · cases hrow'
        · exact h₁.provisioned.known ue' row' d slice hrow' hsome
      by_cases hue : ue' = ue
      · refine .absent ?_ ?_ ?_
        · rw [view, hue]
          exact OrdMap.find?_erase.trans (if_pos rfl)
        · intro d slice
          rw [hue, ← hzero d slice]
          exact congrArg (fun v => UeView.bits v d slice) h₁.view_self
        · rw [hue]
          exact congrArg UeView.cesBit h₁.view_self
      · have hother := h.views ue'
        rw [← h₁.view_of_ne hue] at hother
        have hsame : view { sys₁ with ues := sys₁.ues.erase ue, configuredUes := bits } ue' = sys₁.view ue' := by
          rw [view, view]
          congr 1
          · exact OrdMap.find?_erase.trans (if_neg hue)
          · rw [testBit_setBit hbits, if_neg hue]
        rw [hsame]
        exact hother
    split
    · refine .ok (herased.resize fun ue' row' hrow' => ?_)
      exact lt_strippedSize (herased.configured hrow')
    · exact .ok herased

/-- What happens to the system; the handle of a UE forwards to it. -/
inductive LcEvent where
  | slotIndication
  | createUe (ue slotsPerMsec : Nat) (startsInFallback : Bool) (cfgs : Option (List LogicalChannelConfig))
  | removeUe (ue : Nat)
  | configure (ue : Nat) (cfgs : List LogicalChannelConfig)
  | deactivate (ue : Nat)
  | setFallbackState (ue : Nat) (enterFallback : Bool)
  | setRanSlice (ue : Nat) (d : Direction) (id : Nat) (slice : RanSliceId)
  | resetRanSlice (ue : Nat) (d : Direction) (id : Nat)
  | dlBufferStatus (ue : Nat) (lcid : Lcid) (bufferStatus : Nat)
  | bsr (ue : Nat) (isLongBsr : Bool) (reportedLcgs : List (LcgId × Nat))
  | sr (ue : Nat)
  | resetSr (ue : Nat)
  | macCe (ue : Nat) (ce : MacCeInfo)
  | ulGrant (ue grantSize : Nat)
  | macSdu (ue remBytes : Nat) (lcid : Lcid)
  | allocateMacCe (ue remBytes : Nat)
  | allocateUeConResIdMacCe (ue remBytes : Nat)

def handle (sys : LogicalChannelSystem) : LcEvent → Except LcFault LogicalChannelSystem
  | .slotIndication => sys.slotIndication
  | .createUe ue slotsPerMsec startsInFallback cfgs => sys.createUe ue slotsPerMsec startsInFallback cfgs
  | .removeUe ue => sys.removeUe ue
  | .configure ue cfgs => sys.configure ue cfgs
  | .deactivate ue => sys.deactivate ue
  | .setFallbackState ue enterFallback => sys.setFallbackState ue enterFallback
  | .setRanSlice ue d id slice => sys.setRanSlice ue d id slice
  | .resetRanSlice ue d id => sys.deregisterRanSlice ue d id
  | .dlBufferStatus ue lcid bufferStatus => sys.handleDlBufferStatusIndication ue lcid bufferStatus
  | .bsr ue isLongBsr reportedLcgs => sys.handleBsrIndication ue isLongBsr reportedLcgs
  | .sr ue => sys.handleSrIndication ue
  | .resetSr ue => sys.setPendingSrBit ue false
  | .macCe ue ce => sys.handleMacCeIndication ue ce
  | .ulGrant ue grantSize => sys.handleUlGrant ue grantSize
  | .macSdu ue remBytes lcid => do
    let r ← sys.allocateMacSdu ue remBytes lcid
    return r.2.2
  | .allocateMacCe ue remBytes => do
    let r ← sys.allocateMacCe ue remBytes
    return r.2.2
  | .allocateUeConResIdMacCe ue remBytes => do
    let r ← sys.allocateUeConResIdMacCe ue remBytes
    return r.2.2

def step (sys : LogicalChannelSystem) (e : LcEvent) : Option LogicalChannelSystem := (sys.handle e).toOption

theorem bind_getUe_absent {α : Type} {f : UeRow → Except LcFault α} (h : sys.getUe ue = .error .unknownUe) :
    (sys.getUe ue >>= f) = .error .unknownUe := by
  rw [h]
  rfl

theorem ensures_true {α : Type} {r : Except LcFault α} : Ensures (fun _ => True) (fun _ => True) r := by
  cases r <;> exact trivial

theorem Consistent.handle (h : sys.Consistent) (e : LcEvent) : Gives Consistent (sys.handle e) := by
  cases e with
  | slotIndication =>
    rw [LogicalChannelSystem.handle, LogicalChannelSystem.slotIndication]
    exact Ensures.bind (P := fun _ => True) ensures_true fun rows _ => .ok (h.of_view rfl { h.provisioned with })
  | createUe ue slotsPerMsec startsInFallback cfgs => exact h.createUe
  | removeUe ue => exact h.removeUe
  | configure ue cfgs =>
    apply h.perform ue
    · intro habsent
      rw [LogicalChannelSystem.handle, LogicalChannelSystem.configure, bind_getUe_absent habsent]
      exact .error trivial
    · intro row ces hsound hces hview
      exact (hview.configure hsound).mono fun _ => Updated.kept hsound hces
  | deactivate ue =>
    apply h.perform ue
    · intro habsent
      rw [LogicalChannelSystem.handle, LogicalChannelSystem.deactivate, bind_getUe_absent habsent]
      exact .error trivial
    · intro row ces hsound _ hview
      refine (hview.deactivate hsound).mono fun sys' h' => ?_
      obtain ⟨row', hsound', hces', -, hview'⟩ := h'
      exact ⟨row', false, hsound', hces', hview'⟩
  | setFallbackState ue enterFallback =>
    apply h.perform ue
    · intro habsent
      rw [LogicalChannelSystem.handle, LogicalChannelSystem.setFallbackState, bind_getUe_absent habsent]
      exact .error trivial
    · exact fun row ces hsound hces hview => hview.setFallbackState hsound hces
  | setRanSlice ue d id slice =>
    apply h.perform ue
    · intro habsent
      rw [LogicalChannelSystem.handle, LogicalChannelSystem.setRanSlice, bind_getUe_absent habsent]
      exact .error trivial
    · intro row ces hsound hces hview
      exact (hview.setRanSlice hsound).mono fun _ => Updated.kept hsound hces
  | resetRanSlice ue d id =>
    apply h.perform ue
    · intro habsent
      rw [LogicalChannelSystem.handle, LogicalChannelSystem.deregisterRanSlice, bind_getUe_absent habsent]
      exact .error trivial
    · intro row ces hsound hces hview
      refine (hview.deregisterRanSlice hsound).mono fun sys' hview' => ?_
      exact ⟨_, ces, UeRow.evolves_deregistered.sound hsound, UeRow.evolves_deregistered.cesSound hces, hview'⟩
  | dlBufferStatus ue lcid bufferStatus =>
    apply h.perform ue
    · intro habsent
      rw [LogicalChannelSystem.handle, LogicalChannelSystem.handleDlBufferStatusIndication,
        bind_getUe_absent habsent]
      exact .error trivial
    · intro row ces hsound hces hview
      exact hview.handleDlBufferStatusIndication.mono fun _ => Updated.kept hsound hces
  | bsr ue isLongBsr reportedLcgs =>
    apply h.perform ue
    · intro habsent
      rw [LogicalChannelSystem.handle, LogicalChannelSystem.handleBsrIndication]
      cases reportedLcgs with
      | nil => exact .ok h
      | cons lcgReport rest =>
        rw [List.foldlM_cons, handleLcgReport, bind_getUe_absent habsent]
        exact .error trivial
    · intro row ces hsound hces hview
      exact (hview.handleBsrIndication hsound).mono fun _ => Updated.kept hsound hces
  | sr ue => exact h.unviewed (Viewed.start h.provisioned ue).setPendingSrBit
  | resetSr ue => exact h.unviewed (Viewed.start h.provisioned ue).setPendingSrBit
  | macCe ue ce =>
    apply h.perform ue
    · intro habsent
      rw [LogicalChannelSystem.handle, LogicalChannelSystem.handleMacCeIndication, bind_getUe_absent habsent]
      exact .error trivial
    · exact fun row ces hsound hces hview => hview.handleMacCeIndication hsound hces
  | ulGrant ue grantSize =>
    apply h.perform ue
    · intro habsent
      rw [LogicalChannelSystem.handle, LogicalChannelSystem.handleUlGrant]
      refine Ensures.bind (P := fun sys' => sys'.ues = sys.ues) ?_ fun sys' hues => ?_
      · rw [setPendingSrBit]
        exact setBit_gives.bind fun bits _ => .ok rfl
      · have habsent' : sys'.getUe ue = .error .unknownUe := by
          rw [getUe, hues]
          exact habsent
        rw [bind_getUe_absent habsent']
        exact .error trivial
    · exact fun row ces hsound hces hview => hview.handleUlGrant.mono fun _ h' => ⟨row, ces, hsound, hces, h'⟩
  | macSdu ue remBytes lcid =>
    apply h.perform ue
    · intro habsent
      rw [LogicalChannelSystem.handle, LogicalChannelSystem.allocateMacSdu]
      split
      · exact .ok h
      · rw [bind_getUe_absent habsent]
        exact .error trivial
    · intro row ces hsound hces hview
      exact hview.allocateMacSdu.bind fun r hr => .ok (Updated.kept hsound hces hr)
  | allocateMacCe ue remBytes =>
    apply h.perform ue
    · intro habsent
      rw [LogicalChannelSystem.handle, LogicalChannelSystem.allocateMacCe,
        LogicalChannelSystem.allocateUeConResIdMacCe, bind_getUe_absent habsent]
      exact .error trivial
    · intro row ces hsound hces hview
      exact (hview.allocateMacCe hsound hces).bind fun r hr => .ok hr
  | allocateUeConResIdMacCe ue remBytes =>
    apply h.perform ue
    · intro habsent
      rw [LogicalChannelSystem.handle, LogicalChannelSystem.allocateUeConResIdMacCe, bind_getUe_absent habsent]
      exact .error trivial
    · intro row ces hsound hces hview
      exact hview.allocateUeConResIdMacCe.bind fun r hr => .ok (Updated.kept hsound hces hr)

/-- In every state of a run the bits of all UEs are those of their rows. -/
theorem consistent_of_reaches (h : Reaches step (fun _ _ => True) {} sys) : sys.Consistent :=
  h.invariant consistent_empty fun _ e _ hsys _ hstep => (hsys.handle e).result (toOption_eq_some hstep)

def srb1Events (startsInFallback : Bool) : List LcEvent :=
  [.createUe 0 1 startsInFallback (some [{ lcid := lcidSrb1, lcGroup := 0 }]),
    .setRanSlice 0 .dl lcidSrb1 srbRanSliceId]

end LogicalChannelSystem
end Srsran.Scheduler
