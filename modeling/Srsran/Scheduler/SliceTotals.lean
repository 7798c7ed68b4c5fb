import Srsran.Scheduler.SliceViews

/-! The bytes pending in a slice of a UE are those of its active channels in the slice. -/
namespace Srsran.Scheduler
open Checked

def ChannelContext.bytesIn (ch : ChannelContext) (d : Direction) (slice : RanSliceId) (id : Nat) : Nat :=
  if ch.active = true ∧ ch.sliceId = some slice then bufStBytes d id ch.bufSt else 0

theorem ChannelContext.bytesIn_of_sliceId_none {ch : ChannelContext} (h : ch.sliceId = none) (d : Direction)
    (slice : RanSliceId) (id : Nat) : ch.bytesIn d slice id = 0 := by
  simp [bytesIn, h]

theorem ChannelContext.bytesIn_of_inactive {ch : ChannelContext} (h : ch.active = false) (d : Direction)
    (slice : RanSliceId) (id : Nat) : ch.bytesIn d slice id = 0 := by
  simp [bytesIn, h]

@[simp] theorem bufStBytes_zero (d : Direction) (id : Nat) : bufStBytes d id 0 = 0 := by
  cases d <;> simp [bufStBytes, addUpperLayerHeaderBytes, Mac.getMacSduRequiredBytes, Mac.getMacSduSubheaderSize]

theorem bufStBytes_le (d : Direction) (id : Nat) {bufSt : Nat} (h : bufSt ≤ maxBufferStatus) :
    bufStBytes d id bufSt ≤ 2 ^ 32 := by
  have hreq : ∀ n : Nat, n ≤ maxBufferStatus + 3 → Mac.getMacSduRequiredBytes n ≤ 2 ^ 32 := by
    intro n hn
    rw [maxBufferStatus] at hn
    rw [Mac.getMacSduRequiredBytes, Mac.getMacSduSubheaderSize, Mac.maxMacSduSubheaderSize,
      Mac.minMacSduSubheaderSize]
    split
    · omega
    · split <;> omega
  cases d with
  | dl => exact hreq bufSt (by omega)
  | ul =>
    apply hreq
    rw [addUpperLayerHeaderBytes, rlcHeaderSizeEstimate]
    split <;> omega

namespace UeRow
variable {row row' : UeRow} {d d' : Direction} {id id' newBufSt prevBufSt bytes : Nat}
  {slice slice' : RanSliceId} {sliceId : Option RanSliceId} {active : Bool} {ch ch' : ChannelContext}

def sliceTotal (row : UeRow) (d : Direction) (slice : RanSliceId) : Nat :=
  (row.side d).channels.total fun id ch => ch.bytesIn d slice id

/-- The bytes of the slices are the sums over their channels, or zero in fallback. -/
structure Sound (row : UeRow) : Prop where
  pending_eq : ∀ d slice bytes, row.pending? d slice = some bytes →
    bytes = if row.fallbackState then 0 else row.sliceTotal d slice % 2 ^ 32
  known : ∀ d id ch slice, row.channel? d id = some ch → ch.sliceId = some slice →
    (row.pending? d slice).isSome
  bufSt_le : ∀ d id ch, row.channel? d id = some ch → ch.bufSt ≤ maxBufferStatus

/-- The rest of the row that the bits depend on. -/
structure Evolves (row row' : UeRow) : Prop where
  sound : row.Sound → row'.Sound
  fallbackState_eq : row'.fallbackState = row.fallbackState
  pendingCes_eq : row'.pendingCes = row.pendingCes
  pendingCeBytes_eq : row'.pendingCeBytes = row.pendingCeBytes

theorem Evolves.refl (row : UeRow) : row.Evolves row := ⟨id, rfl, rfl, rfl⟩

theorem Evolves.trans {row'' : UeRow} (h : row.Evolves row') (h' : row'.Evolves row'') : row.Evolves row'' where
  sound := fun hsound => h'.sound (h.sound hsound)
  fallbackState_eq := h'.fallbackState_eq.trans h.fallbackState_eq
  pendingCes_eq := h'.pendingCes_eq.trans h.pendingCes_eq
  pendingCeBytes_eq := h'.pendingCeBytes_eq.trans h.pendingCeBytes_eq

theorem sliceTotal_setChannel : (row.setChannel d id ch).sliceTotal d slice +
      (row.channel? d id).elim 0 (fun old => old.bytesIn d slice id) =
    row.sliceTotal d slice + ch.bytesIn d slice id := by
  rw [sliceTotal, sliceTotal, setChannel, side_updateSide_self, channel?]
  exact OrdMap.total_insert

theorem sliceTotal_setChannel_of_ne (h : d' ≠ d) :
    (row.setChannel d id ch).sliceTotal d' slice = row.sliceTotal d' slice := by
  rw [sliceTotal, sliceTotal, setChannel, side_updateSide_of_ne h]

theorem sliceTotal_congr (h : (row'.side d).channels = (row.side d).channels) :
    row'.sliceTotal d slice = row.sliceTotal d slice := by
  rw [sliceTotal, sliceTotal, h]

@[simp] theorem channels_setPending :
    ((row.setPending d slice bytes).side d').channels = (row.side d').channels := by
  rw [setPending]
  by_cases h : d' = d
  · rw [h, side_updateSide_self]
  · rw [side_updateSide_of_ne h]

theorem bufStUpdated_eq : row.bufStUpdated d id active sliceId newBufSt prevBufSt = row ∨
    ∃ slice bytes, row.bufStUpdated d id active sliceId newBufSt prevBufSt = row.setPending d slice bytes := by
  cases sliceId with
  | none => exact .inl rfl
  | some slice =>
    dsimp only [bufStUpdated]
    split
    · exact .inl rfl
    · split
      · exact .inl rfl
      · exact .inr ⟨slice, _, rfl⟩

@[simp] theorem channels_bufStUpdated :
    ((row.bufStUpdated d id active sliceId newBufSt prevBufSt).side d').channels = (row.side d').channels := by
  obtain h | ⟨slice, bytes, h⟩ := @bufStUpdated_eq row d id newBufSt prevBufSt sliceId active
  · rw [h]
  · rw [h, channels_setPending]

@[simp] theorem channel?_bufStUpdated :
    (row.bufStUpdated d id active sliceId newBufSt prevBufSt).channel? d' id' = row.channel? d' id' := by
  rw [channel?, channel?, channels_bufStUpdated]

@[simp] theorem fallbackState_bufStUpdated :
    (row.bufStUpdated d id active sliceId newBufSt prevBufSt).fallbackState = row.fallbackState := by
  obtain h | ⟨slice, bytes, h⟩ := @bufStUpdated_eq row d id newBufSt prevBufSt sliceId active
  · rw [h]
  · rw [h]
    rfl

theorem pending?_bufStUpdated :
    (row.bufStUpdated d id active sliceId newBufSt prevBufSt).pending? d' slice' =
    if d' = d ∧ sliceId = some slice' ∧ active = true ∧ row.fallbackState = false then
      (row.pending? d slice').map fun prevPending =>
        (prevPending + 2 ^ 32 + bufStBytes d id newBufSt - bufStBytes d id prevBufSt) % 2 ^ 32
    else row.pending? d' slice' := by
  cases sliceId with
  | none => simp [bufStUpdated]
  | some slice =>
    dsimp only [bufStUpdated]
    by_cases hidle : (!active || row.fallbackState) = true
    · rw [if_pos hidle, if_neg]
      rintro ⟨-, -, hactive, hfallback⟩
      rw [hactive, hfallback] at hidle
      cases hidle
    · rw [if_neg hidle]
      have hrun : active = true ∧ row.fallbackState = false := by
        simpa using hidle
      cases hprev : row.pending? d slice with
      | none =>
        dsimp only
        split
        · rename_i h
          rw [h.1, ← Option.some.inj h.2.1, hprev]
          rfl
        · rfl
      | some prevPending =>
        dsimp only
        rw [pending?_setPending]
        by_cases hslice : slice' = slice
        · rw [hslice, hprev]
          simp [hrun]
        · rw [if_neg fun h => hslice h.2, if_neg fun h => hslice (Option.some.inj h.2.1).symm]

theorem evolves_bufStUpdated_rest :
    (row.bufStUpdated d id active sliceId newBufSt prevBufSt).pendingCes = row.pendingCes ∧
    (row.bufStUpdated d id active sliceId newBufSt prevBufSt).pendingCeBytes = row.pendingCeBytes := by
  obtain h | ⟨slice, bytes, h⟩ := @bufStUpdated_eq row d id newBufSt prevBufSt sliceId active
  · rw [h]
    exact ⟨rfl, rfl⟩
  · rw [h]
    exact ⟨rfl, rfl⟩

theorem sortedChannels_bufStUpdated :
    (row.bufStUpdated d id active sliceId newBufSt prevBufSt).sortedChannels = row.sortedChannels := by
  obtain h | ⟨slice, bytes, h⟩ := @bufStUpdated_eq row d id newBufSt prevBufSt sliceId active
  · rw [h]
  · rw [h]
    rfl

theorem updateSide_updateSide {f g : UeSide → UeSide} :
    (row.updateSide d f).updateSide d g = row.updateSide d fun side => g (f side) := by
  rw [updateSide, updateSide, updateSide]
  simp

theorem bufStUpdated_setChannel :
    (row.setChannel d id ch).bufStUpdated d id' active sliceId newBufSt prevBufSt =
      (row.bufStUpdated d id' active sliceId newBufSt prevBufSt).setChannel d id ch := by
  cases sliceId with
  | none => rfl
  | some slice =>
    dsimp only [bufStUpdated]
    rw [pending?_setChannel]
    have hfallback : (row.setChannel d id ch).fallbackState = row.fallbackState := rfl
    rw [hfallback]
    split
    · rfl
    · cases row.pending? d slice with
      | none => rfl
      | some prevPending =>
        dsimp only
        rw [setPending, setChannel, setChannel, setPending, updateSide_updateSide, updateSide_updateSide]

theorem evolves_change {old : Option ChannelContext} (hold : row.channel? d id = old)
    (hbufSt : row.Sound → ch.bufSt ≤ maxBufferStatus) (hprevLe : row.Sound → prevBufSt ≤ maxBufferStatus)
    (hnew : ∀ slice, ch.bytesIn d slice id =
      if active = true ∧ sliceId = some slice then bufStBytes d id newBufSt
      else old.elim 0 fun old => old.bytesIn d slice id)
    (hprev : ∀ slice, active = true → sliceId = some slice →
      (old.elim 0 fun old => old.bytesIn d slice id) = bufStBytes d id prevBufSt)
    (hknown : ∀ slice, ch.sliceId = some slice → row.Sound → (row.pending? d slice).isSome) :
    row.Evolves ((row.setChannel d id ch).bufStUpdated d id active sliceId newBufSt prevBufSt) := by
  refine ⟨fun h => ?_, ?_, ?_, ?_⟩
  · refine ⟨?_, ?_, ?_⟩
    · intro d' slice bytes hbytes
      rw [fallbackState_bufStUpdated, sliceTotal_congr channels_bufStUpdated]
      rw [pending?_bufStUpdated, pending?_setChannel, pending?_setChannel] at hbytes
      have hfallback : (row.setChannel d id ch).fallbackState = row.fallbackState := rfl
      rw [hfallback] at hbytes ⊢
      by_cases hd : d' = d
      · subst hd
        have htotal := @sliceTotal_setChannel row d' id slice ch
        rw [hold, hnew] at htotal
        split at hbytes
        · rename_i hcond
          obtain ⟨-, hslice, hactive, hnormal⟩ := hcond
          rw [if_pos ⟨hactive, hslice⟩, hprev slice hactive hslice] at htotal
          obtain ⟨prevPending, hpending, rfl⟩ := Option.map_eq_some_iff.mp hbytes
          have hpendingEq := h.pending_eq d' slice prevPending hpending
          have hle := bufStBytes_le d' id (hprevLe h)
          rw [hnormal] at hpendingEq ⊢
          rw [if_neg Bool.false_ne_true] at hpendingEq ⊢
          rw [hpendingEq]
          omega
        · rename_i hcond
          have hpendingEq := h.pending_eq d' slice bytes hbytes
          cases hfb : row.fallbackState with
          | true =>
            rw [hfb] at hpendingEq
            exact hpendingEq
          | false =>
            rw [hfb, if_neg Bool.false_ne_true] at hpendingEq
            rw [if_neg fun hc => hcond ⟨rfl, hc.2, hc.1, hfb⟩] at htotal
            rw [if_neg Bool.false_ne_true, hpendingEq, Nat.add_right_cancel htotal]
      · rw [if_neg fun hc => hd hc.1] at hbytes
        rw [sliceTotal_setChannel_of_ne hd]
        exact h.pending_eq d' slice bytes hbytes
    · intro d' id' ch' slice hch hslice
      rw [channel?_bufStUpdated, channel?_setChannel] at hch
      have hsome : (row.pending? d' slice).isSome := by
        split at hch
        · rename_i heq
          cases hch
          rw [heq.1]
          exact hknown slice hslice h
        · exact h.known d' id' ch' slice hch hslice
      rw [pending?_bufStUpdated, pending?_setChannel, pending?_setChannel]
      split
      · rename_i heq
        rw [Option.isSome_map, ← heq.1]
        exact hsome
      · exact hsome
    · intro d' id' ch' hch
      rw [channel?_bufStUpdated, channel?_setChannel] at hch
      split at hch
      · cases hch
        exact hbufSt h
      · exact h.bufSt_le d' id' ch' hch
  · exact fallbackState_bufStUpdated
  · exact evolves_bufStUpdated_rest.1
  · exact evolves_bufStUpdated_rest.2

theorem evolves_setChannel {old : Option ChannelContext} (hold : row.channel? d id = old)
    (hbufSt : row.Sound → ch.bufSt ≤ maxBufferStatus)
    (hbytes : ∀ slice, ch.bytesIn d slice id = old.elim 0 fun old => old.bytesIn d slice id)
    (hknown : ∀ slice, ch.sliceId = some slice → row.Sound → (row.pending? d slice).isSome) :
    row.Evolves (row.setChannel d id ch) := by
  have hchange := @evolves_change row d id 0 0 none false ch old hold hbufSt (fun _ => Nat.zero_le _)
    (fun slice => by simpa using hbytes slice) nofun hknown
  exact hchange

theorem evolves_setChannel_of_same {old : ChannelContext} (hold : row.channel? d id = some old)
    (hactive : ch.active = old.active) (hslice : ch.sliceId = old.sliceId) (hbufSt : ch.bufSt = old.bufSt) :
    row.Evolves (row.setChannel d id ch) := by
  apply evolves_setChannel hold
  · intro h
    rw [hbufSt]
    exact h.bufSt_le d id old hold
  · intro slice
    rw [ChannelContext.bytesIn, hactive, hslice, hbufSt]
    rfl
  · intro slice hsome h
    rw [hslice] at hsome
    exact h.known d id old slice hold hsome

def eraseSlice (row : UeRow) (d : Direction) (slice : RanSliceId) : UeRow :=
  row.updateSide d fun side => { side with pendingBytesPerSlice := side.pendingBytesPerSlice.erase slice }

def deregistered (row : UeRow) (d : Direction) (id : Nat) : UeRow :=
  match row.channel? d id with
  | none => row
  | some ch =>
    match ch.sliceId with
    | none => row
    | some prevSlice =>
      let updated :=
        (row.bufStUpdated d id ch.active ch.sliceId 0 ch.bufSt).setChannel d id { ch with sliceId := none }
      if (updated.side d).channels.entries.all fun e => e.2.sliceId ≠ some prevSlice then
        updated.eraseSlice d prevSlice
      else updated

theorem pending?_eraseSlice : (row.eraseSlice d slice).pending? d' slice' =
    if d' = d ∧ slice' = slice then none else row.pending? d' slice' := by
  rw [pending?, pending?, eraseSlice]
  by_cases h : d' = d
  · rw [h, side_updateSide_self, OrdMap.find?_erase]
    simp
  · rw [side_updateSide_of_ne h]
    simp [h]

@[simp] theorem channels_eraseSlice :
    ((row.eraseSlice d slice).side d').channels = (row.side d').channels := by
  rw [eraseSlice]
  by_cases h : d' = d
  · rw [h, side_updateSide_self]
  · rw [side_updateSide_of_ne h]

@[simp] theorem channel?_eraseSlice : (row.eraseSlice d slice).channel? d' id = row.channel? d' id := by
  rw [channel?, channel?, channels_eraseSlice]

theorem Sound.pending_zero (h : row.Sound)
    (hnone : ∀ id ch, row.channel? d id = some ch → ch.sliceId ≠ some slice)
    (hbytes : row.pending? d slice = some bytes) : bytes = 0 := by
  have htotal : row.sliceTotal d slice = 0 := by
    apply OrdMap.total_eq_zero
    intro id ch hch
    rw [ChannelContext.bytesIn, if_neg fun hc => hnone id ch hch hc.2]
  rw [h.pending_eq d slice bytes hbytes, htotal, Nat.zero_mod, ite_self]

theorem evolves_eraseSlice (hnone : ∀ id ch, row.channel? d id = some ch → ch.sliceId ≠ some slice) :
    row.Evolves (row.eraseSlice d slice) := by
  refine ⟨fun h => ⟨?_, ?_, ?_⟩, rfl, rfl, rfl⟩
  · intro d' slice' bytes hbytes
    rw [pending?_eraseSlice] at hbytes
    split at hbytes
    · cases hbytes
    · rw [sliceTotal_congr channels_eraseSlice]
      exact h.pending_eq d' slice' bytes hbytes
  · intro d' id ch slice' hch hslice
    rw [channel?_eraseSlice] at hch
    rw [pending?_eraseSlice, if_neg]
    · exact h.known d' id ch slice' hch hslice
    · rintro ⟨rfl, rfl⟩
      exact hnone id ch hch hslice
  · intro d' id ch hch
    rw [channel?_eraseSlice] at hch
    exact h.bufSt_le d' id ch hch

theorem bits_eraseSlice (h : row.Sound)
    (hnone : ∀ id ch, row.channel? d id = some ch → ch.sliceId ≠ some slice) :
    (row.eraseSlice d slice).bits = row.bits := by
  funext d' slice'
  rw [bits, bits, pending?_eraseSlice]
  split
  · rename_i heq
    rw [heq.1, heq.2]
    cases hbytes : row.pending? d slice with
    | none => rfl
    | some bytes =>
      rw [h.pending_zero hnone hbytes]
      rfl
  · rfl

theorem evolves_detach (hch : row.channel? d id = some ch) :
    row.Evolves
      ((row.bufStUpdated d id ch.active ch.sliceId 0 ch.bufSt).setChannel d id { ch with sliceId := none }) := by
  rw [← bufStUpdated_setChannel]
  refine evolves_change hch ?_ ?_ ?_ ?_ ?_
  · exact fun h => h.bufSt_le d id ch hch
  · exact fun h => h.bufSt_le d id ch hch
  · intro slice
    rw [ChannelContext.bytesIn_of_sliceId_none rfl, bufStBytes_zero]
    split
    · rfl
    · rename_i hcond
      rw [Option.elim_some, ChannelContext.bytesIn, if_neg hcond]
  · intro slice hactive hslice
    rw [Option.elim_some, ChannelContext.bytesIn, if_pos ⟨hactive, hslice⟩]
  · exact nofun

theorem forall_of_all_entries {p : ChannelContext → Prop} [DecidablePred p]
    (h : ((row.side d).channels.entries.all fun e => decide (p e.2)) = true) (id : Nat)
    (hch : row.channel? d id = some ch) : p ch := by
  rw [List.all_eq_true] at h
  exact of_decide_eq_true (h _ (OrdMap.find?_eq_some_iff.mp hch))

theorem evolves_deregistered : row.Evolves (row.deregistered d id) := by
  rw [deregistered]
  split
  · exact .refl row
  · rename_i ch hch
    split
    · exact .refl row
    · rename_i prevSlice hslice
      have hdetach := evolves_detach hch
      dsimp only
      split
      · rename_i hall
        exact hdetach.trans (evolves_eraseSlice fun id' ch' hch' =>
          forall_of_all_entries (p := fun ch => ch.sliceId ≠ some prevSlice) hall id' hch')
      · exact hdetach

theorem channel?_deregistered (hch : row.channel? d id = some ch) :
    (row.deregistered d id).channel? d id = some { ch with sliceId := none } := by
  rw [deregistered, hch]
  dsimp only
  split
  · rename_i hslice
    rw [hch, ← hslice]
  · split
    · rw [channel?_eraseSlice, channel?_setChannel, if_pos ⟨rfl, rfl⟩]
    · rw [channel?_setChannel, if_pos ⟨rfl, rfl⟩]

theorem channel?_deregistered_none (hch : row.channel? d id = none) :
    (row.deregistered d id).channel? d id = none := by
  rw [deregistered, hch]
  exact hch

end UeRow
end Srsran.Scheduler
