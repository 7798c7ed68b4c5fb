import Srsran.Scheduler.SliceRuns

/-! The queries for pending data of a UE in a slice (`ue_logical_channel_repository`), which read the bits
shared by all UEs on one side and the sums of the UE on the other. -/
namespace Srsran.Scheduler
open Runs

/-- `operator|` of bitsets, which asserts that they have the same size. -/
def orBits (lhs rhs : List Bool) : Option (List Bool) :=
  if rhs.length = lhs.length then some (List.zipWith (· || ·) lhs rhs) else none

namespace UeRow

def dlPendingBytes (row : UeRow) (slice : RanSliceId) : Nat :=
  if row.fallbackState then 0
  else
    match row.pending? .dl slice with
    | none => 0
    | some totalBytes =>
      if row.pendingCeBytes > 0 then
        if totalBytes > 0 then (totalBytes + row.pendingCeBytes) % 2 ^ 32
        else if slice = srbRanSliceId then
          if (row.side .dl).pendingBytesPerSlice.entries.all fun elem => elem.2 = 0 then row.pendingCeBytes
          else 0
        else totalBytes
      else totalBytes

def ulPendingBytes (row : UeRow) (slice : RanSliceId) : Nat :=
  if row.fallbackState then 0 else (row.pending? .ul slice).getD 0

end UeRow

namespace LogicalChannelSystem
variable {sys : LogicalChannelSystem} {ue : Nat} {row : UeRow} {slice : RanSliceId}

def hasPendingDlBytes (sys : LogicalChannelSystem) (ue : Nat) (slice : RanSliceId) : Bool :=
  if sys.pendingBit .dl slice ue then true
  else if slice = srbRanSliceId ∧ testBit sys.uesWithPendingCes ue = true then
    sys.slices.entries.all fun p => p.1 = slice || !testBit (p.2.pendingUes .dl) ue
  else false

def hasPendingUlBytes (sys : LogicalChannelSystem) (ue : Nat) (slice : RanSliceId) : Bool :=
  sys.pendingBit .ul slice ue

def getUesWithDlPendingData (sys : LogicalChannelSystem) (slice : RanSliceId) : Option (List Bool) :=
  match sys.slices.find? slice with
  | none => some []
  | some ctx =>
    if slice ≠ srbRanSliceId then some (ctx.pendingUes .dl)
    else orBits (ctx.pendingUes .dl) sys.uesWithPendingCes

/-- The queries of a UE give the same answers in all slices. -/
structure PendingQueriesAgree (sys : LogicalChannelSystem) (ue : Nat) (row : UeRow) : Prop where
  dl : ∀ slice, sys.hasPendingDlBytes ue slice = true ↔ row.dlPendingBytes slice > 0
  listed : ∀ slice, row.dlPendingBytes slice > 0 →
    ∃ ues, sys.getUesWithDlPendingData slice = some ues ∧ testBit ues ue = true
  ul : ∀ slice, sys.hasPendingUlBytes ue slice = true ↔ row.ulPendingBytes slice > 0

/-- A UE of which only CEs are pending can send them in its SRB slice; their bytes are not a multiple of
2^32, also not together with those of a slice. -/
structure CesSendable (sys : LogicalChannelSystem) (ue : Nat) (row : UeRow) : Prop where
  onlyCes : testBit sys.uesWithPendingCes ue = true → (∀ slice, sys.pendingBit .dl slice ue = false) →
    row.fallbackState = false ∧ (row.pending? .dl srbRanSliceId).isSome ∧ row.pendingCeBytes ≠ 0
  total : ∀ slice bytes, row.pending? .dl slice = some bytes → bytes > 0 →
    bytes + row.pendingCeBytes ≠ 2 ^ 32

theorem all_slices_iff (hzero : sys.pendingBit .dl slice ue = false) :
    (sys.slices.entries.all fun p => p.1 = slice || !testBit (p.2.pendingUes .dl) ue) = true ↔
      ∀ slice, sys.pendingBit .dl slice ue = false := by
  rw [List.all_eq_true]
  constructor
  · intro hall slice'
    rw [pendingBit]
    cases hctx : sys.slices.find? slice' with
    | none => rfl
    | some ctx =>
      have hentry := hall _ (OrdMap.find?_eq_some_iff.mp hctx)
      rw [Option.any_some]
      by_cases hslice : slice' = slice
      · rw [pendingBit, ← hslice, hctx] at hzero
        exact hzero
      · simpa [hslice] using hentry
  · intro hall p hp
    have hctx := OrdMap.find?_eq_some_iff.mpr hp
    have hbit := hall p.1
    rw [pendingBit, hctx, Option.any_some] at hbit
    rw [hbit]
    simp

theorem hasPendingDlBytes_iff : sys.hasPendingDlBytes ue slice = true ↔
    sys.pendingBit .dl slice ue = true ∨
      slice = srbRanSliceId ∧ testBit sys.uesWithPendingCes ue = true ∧
        ∀ slice, sys.pendingBit .dl slice ue = false := by
  rw [hasPendingDlBytes]
  cases hbit : sys.pendingBit .dl slice ue with
  | true => simp
  | false =>
    rw [if_neg Bool.false_ne_true]
    split
    · rename_i hces
      rw [all_slices_iff hbit]
      simp [hces]
    · rename_i hces
      refine iff_of_false Bool.false_ne_true ?_
      rintro (h | ⟨hslice, hcesBit, -⟩)
      · cases h
      · exact hces ⟨hslice, hcesBit⟩

theorem testBit_orBits {lhs rhs bits : List Bool} {pos : Nat} (h : orBits lhs rhs = some bits) :
    testBit bits pos = (testBit lhs pos || testBit rhs pos) := by
  rw [orBits] at h
  split at h
  · rename_i hlength
    cases h
    rw [testBit, testBit, testBit, List.getD_eq_getElem?_getD, List.getD_eq_getElem?_getD,
      List.getD_eq_getElem?_getD, List.getElem?_zipWith]
    by_cases hpos : pos < lhs.length
    · rw [List.getElem?_eq_getElem hpos, List.getElem?_eq_getElem (hlength ▸ hpos)]
      rfl
    · rw [List.getElem?_eq_none (Nat.le_of_not_lt hpos),
        List.getElem?_eq_none (hlength ▸ Nat.le_of_not_lt hpos)]
      rfl
  · cases h

/-- The view of a UE with a row. -/
structure Tied (sys : LogicalChannelSystem) (ue : Nat) (row : UeRow) : Prop where
  row_eq : sys.ues.find? ue = some row
  bit : ∀ d slice, sys.pendingBit d slice ue = decide (0 < (row.pending? d slice).getD 0)
  sound : row.Sound
  ces : row.CesSound (testBit sys.uesWithPendingCes ue)
  provisioned : sys.Provisioned
  configured : testBit sys.configuredUes ue = true

theorem Consistent.tied (h : sys.Consistent) (hrow : sys.ues.find? ue = some row) : sys.Tied ue row := by
  have hue := h.views ue
  generalize hv : sys.view ue = v at hue
  cases hue with
  | absent hnone =>
    rw [← hv] at hnone
    have hsome : (sys.view ue).row = some row := hrow
    rw [hnone] at hsome
    cases hsome
  | @present row' ces hsound hces =>
    have hsame : row' = row := by
      have hrow' : sys.ues.find? ue = some row' := congrArg UeView.row hv
      rw [hrow] at hrow'
      exact (Option.some.inj hrow').symm
    have hcesBit : testBit sys.uesWithPendingCes ue = ces := congrArg UeView.cesBit hv
    subst hsame
    refine ⟨hrow, ?_, hsound, ?_, h.provisioned, h.configured hrow⟩
    · exact fun d slice => congrFun (congrFun (congrArg UeView.bits hv) d) slice
    · rw [hcesBit]
      exact hces

namespace Tied
variable (h : sys.Tied ue row)
include h

theorem lt_2_pow_32 {d : Direction} {bytes : Nat} (hbytes : row.pending? d slice = some bytes) :
    bytes < 2 ^ 32 := by
  rw [h.sound.pending_eq d slice bytes hbytes]
  split
  · decide
  · exact Nat.mod_lt _ (by decide)

theorem ceBytes_lt : row.pendingCeBytes < 2 ^ 32 := by
  rw [h.ces.bytes_eq]
  exact Nat.mod_lt _ (by decide)

theorem bit_fallback (hfallback : row.fallbackState = true) (d : Direction) (slice : RanSliceId) :
    sys.pendingBit d slice ue = false := by
  rw [h.bit]
  apply decide_eq_false
  cases hbytes : row.pending? d slice with
  | none => exact Nat.lt_irrefl _
  | some bytes =>
    rw [Option.getD_some, h.sound.pending_eq d slice bytes hbytes, if_pos hfallback]
    exact Nat.lt_irrefl _

theorem cesBit (hnormal : row.fallbackState = false) (hbytes : row.pendingCeBytes > 0) :
    testBit sys.uesWithPendingCes ue = true := by
  apply h.ces.reported hnormal
  intro hnil
  rw [h.ces.bytes_eq, hnil] at hbytes
  exact Nat.lt_irrefl _ hbytes

theorem all_pending : ((row.side .dl).pendingBytesPerSlice.entries.all fun elem => elem.2 = 0) = true ↔
    ∀ slice, sys.pendingBit .dl slice ue = false := by
  rw [List.all_eq_true]
  constructor
  · intro hall slice'
    rw [h.bit]
    apply decide_eq_false
    cases hbytes : row.pending? .dl slice' with
    | none => exact Nat.lt_irrefl _
    | some bytes =>
      have hentry := of_decide_eq_true (hall _ (OrdMap.find?_eq_some_iff.mp hbytes))
      rw [Option.getD_some]
      exact hentry.le.not_gt
  · intro hall p hp
    have hbit := hall p.1
    have hbytes : row.pending? .dl p.1 = some p.2 := OrdMap.find?_eq_some_iff.mpr hp
    rw [h.bit, hbytes, Option.getD_some] at hbit
    apply decide_eq_true
    exact Nat.eq_zero_of_not_pos (of_decide_eq_false hbit)

theorem ul_agree (slice : RanSliceId) : sys.hasPendingUlBytes ue slice = true ↔ row.ulPendingBytes slice > 0 := by
  rw [hasPendingUlBytes, UeRow.ulPendingBytes]
  cases hfallback : row.fallbackState with
  | true =>
    rw [h.bit_fallback hfallback, if_pos rfl]
    exact iff_of_false Bool.false_ne_true (Nat.lt_irrefl _)
  | false =>
    rw [h.bit, if_neg Bool.false_ne_true, decide_eq_true_iff]

theorem dlPendingBytes_pos_iff : row.dlPendingBytes slice > 0 ↔ row.fallbackState = false ∧
    ∃ total, row.pending? .dl slice = some total ∧
      (total > 0 ∧ total + row.pendingCeBytes ≠ 2 ^ 32 ∨
        total = 0 ∧ slice = srbRanSliceId ∧ row.pendingCeBytes > 0 ∧
          ∀ slice, sys.pendingBit .dl slice ue = false) := by
  rw [UeRow.dlPendingBytes]
  cases hfallback : row.fallbackState with
  | true => simp
  | false =>
    rw [if_neg Bool.false_ne_true]
    cases htotal : row.pending? .dl slice with
    | none => simp
    | some total =>
      have hlt := h.lt_2_pow_32 htotal
      have hceLt := h.ceBytes_lt
      have hsame : ∀ p : Nat → Prop, (∃ total', some total = some total' ∧ p total') ↔ p total := by
        simp
      rw [hsame]
      dsimp only
      by_cases hce : row.pendingCeBytes > 0
      · rw [if_pos hce]
        by_cases hpos : total > 0
        · rw [if_pos hpos]
          have hne : total ≠ 0 := hpos.ne'
          simp only [hpos, hne, true_and, false_and, or_false]
          omega
        · rw [if_neg hpos]
          have hzero : total = 0 := Nat.eq_zero_of_not_pos hpos
          by_cases hslice : slice = srbRanSliceId
          · rw [if_pos hslice]
            by_cases hall : ∀ slice, sys.pendingBit .dl slice ue = false
            · rw [if_pos (h.all_pending.mpr hall)]
              simp only [hce, true_and]
              exact iff_of_true trivial (.inr ⟨hzero, hslice, hall⟩)
            · rw [if_neg fun hentries => hall (h.all_pending.mp hentries)]
              refine iff_of_false (Nat.lt_irrefl _) ?_
              rintro ⟨-, ⟨htotal', -⟩ | ⟨-, -, -, hall'⟩⟩
              · exact hpos htotal'
              · exact hall hall'
          · rw [if_neg hslice]
            refine iff_of_false hpos ?_
            rintro ⟨-, ⟨htotal', -⟩ | ⟨-, hslice', -⟩⟩
            · exact hpos htotal'
            · exact hslice hslice'
      · rw [if_neg hce]
        constructor
        · intro hpos
          exact ⟨rfl, .inl ⟨hpos, by omega⟩⟩
        · rintro ⟨-, ⟨hpos, -⟩ | ⟨-, -, hce', -⟩⟩
          · exact hpos
          · exact absurd hce' hce

theorem bit_iff (slice : RanSliceId) : sys.pendingBit .dl slice ue = true ↔
    ∃ total, row.pending? .dl slice = some total ∧ total > 0 := by
  rw [h.bit, decide_eq_true_iff]
  cases row.pending? .dl slice with
  | none => simp
  | some total => simp

theorem listed (hbytes : row.dlPendingBytes slice > 0) :
    ∃ ues, sys.getUesWithDlPendingData slice = some ues ∧ testBit ues ue = true := by
  obtain ⟨hnormal, total, htotal, hcases⟩ := h.dlPendingBytes_pos_iff.mp hbytes
  have hctx := h.provisioned.known ue row .dl slice h.row_eq (Option.isSome_of_eq_some htotal)
  obtain ⟨ctx, hctx⟩ := Option.isSome_iff_exists.mp hctx
  have hbit : testBit (ctx.pendingUes .dl) ue = true ∨
      slice = srbRanSliceId ∧ testBit sys.uesWithPendingCes ue = true := by
    rcases hcases with ⟨hpos, -⟩ | ⟨-, hslice, hce, -⟩
    · have hslice := (h.bit_iff slice).mpr ⟨total, htotal, hpos⟩
      rw [pendingBit, hctx] at hslice
      exact .inl hslice
    · exact .inr ⟨hslice, h.cesBit hnormal hce⟩
  rw [getUesWithDlPendingData, hctx]
  dsimp only
  split
  · rename_i hslice
    refine ⟨_, rfl, ?_⟩
    rcases hbit with hbit | ⟨hsrb, -⟩
    · exact hbit
    · exact absurd hsrb hslice
  · have hlength : sys.uesWithPendingCes.length = (ctx.pendingUes .dl).length := by
      rw [h.provisioned.ces, h.provisioned.slices slice ctx hctx]
    have hor : orBits (ctx.pendingUes .dl) sys.uesWithPendingCes =
        some (List.zipWith (· || ·) (ctx.pendingUes .dl) sys.uesWithPendingCes) := by
      rw [orBits, if_pos hlength]
    refine ⟨_, hor, ?_⟩
    rw [testBit_orBits hor]
    rcases hbit with hbit | ⟨-, hbit⟩
    · rw [hbit, Bool.true_or]
    · rw [hbit, Bool.or_true]

theorem dl_agree (hces : sys.CesSendable ue row) (slice : RanSliceId) :
    sys.hasPendingDlBytes ue slice = true ↔ row.dlPendingBytes slice > 0 := by
  rw [hasPendingDlBytes_iff, h.dlPendingBytes_pos_iff]
  constructor
  · rintro (hbit | ⟨hslice, hcesBit, hzero⟩)
    · obtain ⟨total, htotal, hpos⟩ := (h.bit_iff slice).mp hbit
      have hnormal : row.fallbackState = false := by
        rw [Bool.eq_false_iff]
        intro hfallback
        rw [h.bit_fallback hfallback] at hbit
        cases hbit
      exact ⟨hnormal, total, htotal, .inl ⟨hpos, hces.total slice total htotal hpos⟩⟩
    · obtain ⟨hnormal, hsome, hne⟩ := hces.onlyCes hcesBit hzero
      obtain ⟨total, htotal⟩ := Option.isSome_iff_exists.mp hsome
      rw [← hslice] at htotal
      refine ⟨hnormal, total, htotal, .inr ⟨?_, hslice, Nat.pos_of_ne_zero hne, hzero⟩⟩
      by_contra hpos
      have hbit := (h.bit_iff slice).mpr ⟨total, htotal, Nat.pos_of_ne_zero hpos⟩
      rw [hzero] at hbit
      cases hbit
  · rintro ⟨hnormal, total, htotal, ⟨hpos, -⟩ | ⟨-, hslice, hce, hzero⟩⟩
    · exact .inl ((h.bit_iff slice).mpr ⟨total, htotal, hpos⟩)
    · exact .inr ⟨hslice, h.cesBit hnormal hce, hzero⟩

theorem cesSendable (hagree : sys.PendingQueriesAgree ue row) : sys.CesSendable ue row := by
  refine ⟨?_, ?_⟩
  · intro hcesBit hzero
    have hbytes := (hagree.dl srbRanSliceId).mp (hasPendingDlBytes_iff.mpr (.inr ⟨rfl, hcesBit, hzero⟩))
    obtain ⟨hnormal, total, htotal, ⟨hpos, -⟩ | ⟨-, -, hce, -⟩⟩ := h.dlPendingBytes_pos_iff.mp hbytes
    · have hbit := (h.bit_iff srbRanSliceId).mpr ⟨total, htotal, hpos⟩
      rw [hzero] at hbit
      cases hbit
    · exact ⟨hnormal, Option.isSome_of_eq_some htotal, hce.ne'⟩
  · intro slice bytes hbytes hpos hwrap
    have hbit := (h.bit_iff slice).mpr ⟨bytes, hbytes, hpos⟩
    have hreported := (hagree.dl slice).mp (hasPendingDlBytes_iff.mpr (.inl hbit))
    obtain ⟨-, total, htotal, hcases⟩ := h.dlPendingBytes_pos_iff.mp hreported
    rw [hbytes] at htotal
    cases htotal
    rcases hcases with ⟨-, hne⟩ | ⟨hzero, -⟩
    · exact hne hwrap
    · exact hpos.ne' hzero

end Tied

/-- In every state of a run the queries of a UE agree exactly when it can send its CEs. -/
theorem pendingQueries_agree_iff (h : Reaches step (fun _ _ => True) {} sys) (hrow : sys.ues.find? ue = some row) :
    sys.PendingQueriesAgree ue row ↔ sys.CesSendable ue row := by
  have htied := (consistent_of_reaches h).tied hrow
  constructor
  · exact htied.cesSendable
  · exact fun hces => ⟨htied.dl_agree hces, fun _ => htied.listed, htied.ul_agree⟩

/-- A TA command outside fallback is sent in the SRB slice. -/
theorem pendingQueries_agree_iff_taCmd : ∃ sys row, sys.ues.find? 0 = some row ∧ row.pendingCeBytes = 2 ∧
    PendingQueriesAgree sys 0 row := by
  obtain ⟨sys, hrun, hobs⟩ : ∃ sys, runAll step {} (srb1Events false ++ [.macCe 0 { ceLcid := Mac.LcidDlSch.taCmd }]) =
      some sys ∧ ((sys.ues.find? 0).map fun row =>
        (row.fallbackState, (row.pending? .dl srbRanSliceId).isSome, row.pendingCeBytes,
          (row.side .dl).pendingBytesPerSlice.entries.map Prod.snd)) = some (false, true, 2, [0]) :=
    Option.map_eq_some_iff.mp (by decide +kernel)
  obtain ⟨row, hrow, hrowObs⟩ := Option.map_eq_some_iff.mp hobs
  simp only [Prod.mk.injEq] at hrowObs
  obtain ⟨hnormal, hslice, hbytes, hzero⟩ := hrowObs
  have hreach := reaches_of_runAll .start (fun _ _ _ => trivial) hrun
  refine ⟨sys, row, hrow, hbytes, (pendingQueries_agree_iff hreach hrow).mpr ⟨?_, ?_⟩⟩
  · intro _ _
    rw [hbytes]
    exact ⟨hnormal, hslice, by decide⟩
  · intro slice bytes hpending hpos
    have hmem := List.mem_map_of_mem (f := Prod.snd) (OrdMap.find?_eq_some_iff.mp hpending)
    rw [hzero, List.mem_singleton] at hmem
    exact absurd hmem hpos.ne'

/-- A TA command for a UE in fallback is reported as pending in the SRB slice, where it has no bytes. -/
theorem pendingQueries_cesInFallback : ∃ sys row, Reaches step (fun _ _ => True) {} sys ∧
    sys.ues.find? 0 = some row ∧ sys.hasPendingDlBytes 0 srbRanSliceId = true ∧
    row.dlPendingBytes srbRanSliceId = 0 ∧ ¬ sys.PendingQueriesAgree 0 row := by
  obtain ⟨sys, hrun, hobs⟩ : ∃ sys, runAll step {} (srb1Events true ++ [.macCe 0 { ceLcid := Mac.LcidDlSch.taCmd }]) =
      some sys ∧ (sys.hasPendingDlBytes 0 srbRanSliceId,
        (sys.ues.find? 0).map fun row => row.dlPendingBytes srbRanSliceId) = (true, some 0) :=
    Option.map_eq_some_iff.mp (by decide +kernel)
  rw [Prod.mk.injEq] at hobs
  obtain ⟨row, hrow, hbytes⟩ := Option.map_eq_some_iff.mp hobs.2
  refine ⟨sys, row, reaches_of_runAll .start (fun _ _ _ => trivial) hrun, hrow, hobs.1, hbytes, ?_⟩
  intro hagree
  have hpos := (hagree.dl srbRanSliceId).mp hobs.1
  rw [hbytes] at hpos
  exact Nat.lt_irrefl _ hpos

end LogicalChannelSystem
end Srsran.Scheduler
