import Srsran.Scheduler.SliceRuns

/-! Composition of DL transport blocks (`allocate_mac_sdus`, `build_dl_transport_block_info`). -/
namespace Srsran.Scheduler
open Checked Mac Runs

def maxLcPerTb : Nat := 4

def minMacSduSpace : Nat := 4

/-- What the loops change: the bytes left in the TB, its subPDUs and the system. -/
structure TbState where
  remTbs : Nat
  subpdus : List DlMsgLcInfo := []
  sys : LogicalChannelSystem

variable {r : Nat × DlMsgLcInfo × LogicalChannelSystem} {tb : TbState}

namespace LogicalChannelSystem

def addSubpdu (tb : TbState) (r : Nat × DlMsgLcInfo × LogicalChannelSystem) : TbState :=
  { remTbs := tb.remTbs - r.1, subpdus := tb.subpdus ++ [r.2.1], sys := r.2.2 }

theorem length_addSubpdu (h : tb.subpdus.length < maxLcPerTb) :
    maxLcPerTb - (addSubpdu tb r).subpdus.length < maxLcPerTb - tb.subpdus.length := by
  rw [addSubpdu, List.length_append, List.length_singleton]
  omega

def allocateMacSdus (ue : Nat) (lcid : Lcid) (tb : TbState) : Except LcFault TbState :=
  if _h : tb.remTbs > minMacSduSpace ∧ tb.subpdus.length < maxLcPerTb then do
    let r ← tb.sys.allocateMacSdu ue tb.remTbs lcid
    if r.1 = 0 then
      return { tb with sys := r.2.2 }
    else
      allocateMacSdus ue lcid (addSubpdu tb r)
  else return tb
termination_by maxLcPerTb - tb.subpdus.length
decreasing_by exact length_addSubpdu _h.2

def hasPendingCes (sys : LogicalChannelSystem) (ue : Nat) : Except LcFault Bool := do
  let row ← sys.getUe ue
  return testBit sys.uesWithPendingCes ue || row.pendingConResId

def allocateMacCes (ue : Nat) (tb : TbState) : Except LcFault TbState := do
  let pending ← tb.sys.hasPendingCes ue
  if _h : pending = true ∧ tb.subpdus.length < maxLcPerTb then
    let r ← tb.sys.allocateMacCe ue tb.remTbs
    if r.1 = 0 then
      return { tb with sys := r.2.2 }
    else
      allocateMacCes ue (addSubpdu tb r)
  else
    return tb
termination_by maxLcPerTb - tb.subpdus.length
decreasing_by exact length_addSubpdu _h.2

def allocateUeConResIdMacCes (ue : Nat) (tb : TbState) : Except LcFault TbState :=
  if tb.subpdus.length < maxLcPerTb then do
    let r ← tb.sys.allocateUeConResIdMacCe ue tb.remTbs
    return if r.1 = 0 then { tb with sys := r.2.2 } else addSubpdu tb r
  else return tb

def getSliceId (sys : LogicalChannelSystem) (ue : Nat) (lcid : Lcid) : Except LcFault (Option RanSliceId) := do
  let row ← sys.getUe ue
  return (row.channel? .dl lcid).bind ChannelContext.sliceId

def composed (tbSizeBytes : Nat) (tb : TbState) : Nat × List DlMsgLcInfo × LogicalChannelSystem :=
  (tbSizeBytes - tb.remTbs, tb.subpdus, tb.sys)

def buildDlTransportBlockInfo (sys : LogicalChannelSystem) (ue tbSizeBytes : Nat) (sliceId : RanSliceId) :
    Except LcFault (Nat × List DlMsgLcInfo × LogicalChannelSystem) := do
  let tb ← allocateMacCes ue { remTbs := tbSizeBytes, sys }
  let row ← tb.sys.getUe ue
  let tb ← row.sortedChannels.foldlM
    (fun tb lcid => do
      let slice ← tb.sys.getSliceId ue lcid
      if slice = some sliceId then allocateMacSdus ue lcid tb else .ok tb)
    tb
  return composed tbSizeBytes tb

/-- SRB0 is not segmented: it is skipped when it does not fit as a whole. -/
def buildDlFallbackTransportBlockInfo (sys : LogicalChannelSystem) (ue tbSizeBytes : Nat) :
    Except LcFault (Nat × List DlMsgLcInfo × LogicalChannelSystem) := do
  let tb ← allocateUeConResIdMacCes ue { remTbs := tbSizeBytes, sys }
  let row ← tb.sys.getUe ue
  let lcid := if row.hasPendingBytes .dl lcidSrb0 ∧ tb.remTbs ≥ row.pendingBytes .dl lcidSrb0 then lcidSrb0
    else lcidSrb1
  let tb ← allocateMacSdus ue lcid tb
  return composed tbSizeBytes tb

end LogicalChannelSystem

def ceSubpduBytes (subpdu : DlMsgLcInfo) : Nat := subpdu.schedBytes + fixedSizedMacCeSubheaderSize

def sduSubpduBytes (subpdu : DlMsgLcInfo) : Nat :=
  subpdu.schedBytes + getMacSduSubheaderSize subpdu.schedBytes

def buffersAfter (buffers : Lcid → Nat) (sdu : DlMsgLcInfo) : Lcid → Nat :=
  Function.update buffers sdu.lcid
    (LogicalChannelSystem.bufStAfter sdu.lcid (buffers sdu.lcid) (min sdu.schedBytes (buffers sdu.lcid)))

def FromBuffers : (Lcid → Nat) → List DlMsgLcInfo → Prop
  | _, [] => True
  | buffers, sdu :: rest => 0 < buffers sdu.lcid ∧ FromBuffers (buffersAfter buffers sdu) rest

theorem fromBuffers_append {buffers : Lcid → Nat} {sdus sdus' : List DlMsgLcInfo} :
    FromBuffers buffers (sdus ++ sdus') ↔
      FromBuffers buffers sdus ∧ FromBuffers (sdus.foldl buffersAfter buffers) sdus' := by
  induction sdus generalizing buffers with
  | nil => exact (true_and _).to_iff.symm
  | cons sdu sdus ih => exact (and_congr_right' ih).trans and_assoc.symm

namespace UeRow

def buffers (row : UeRow) (lcid : Lcid) : Nat := (row.channel? .dl lcid).elim 0 ChannelContext.bufSt

theorem pending_of_hasPendingBytes {row : UeRow} {lcid : Lcid} (h : row.hasPendingBytes .dl lcid = true) :
    0 < row.buffers lcid ∧ row.pendingBytes .dl lcid = bufStBytes .dl lcid (row.buffers lcid) := by
  rw [hasPendingBytes] at h
  cases hfind : row.findActive .dl lcid with
  | none =>
    rw [hfind] at h
    cases h
  | some ch =>
    rw [hfind, Option.any_some] at h
    have hch := (Option.filter_eq_some_iff.mp hfind).1
    rw [buffers, hch, pendingBytes, hfind]
    exact ⟨of_decide_eq_true h, rfl⟩

/-- What of the channels does not change while a TB is composed. -/
def setup (row : UeRow) (lcid : Lcid) : Option (Bool × Option RanSliceId × Option Adt.RowId) :=
  (row.channel? .dl lcid).map fun ch => (ch.active, ch.sliceId, ch.qosRow)

end UeRow

def ceSubpdu (ce : MacCeInfo) : DlMsgLcInfo :=
  { lcid := ce.ceLcid, schedBytes := LcidDlSch.sizeofCe ce.ceLcid, cePayload := ce.cePayload }

def conResSubpdu : DlMsgLcInfo :=
  { lcid := LcidDlSch.ueConResId, schedBytes := LcidDlSch.sizeofCe LcidDlSch.ueConResId }

/-- The contention resolution of a UE, if it is pending and fits. -/
def conResChosen (row : UeRow) (space : Nat) : List DlMsgLcInfo :=
  if row.pendingConResId = true ∧ ceBytes LcidDlSch.ueConResId ≤ space then [conResSubpdu] else []

/-- The contention resolution first, then other CEs as they arrived. -/
def CesInOrder (row : UeRow) (space : Nat) (ces : List DlMsgLcInfo) : Prop :=
  ∃ sent rest, row.pendingCes = sent ++ rest ∧ ces = conResChosen row space ++ sent.map ceSubpdu

/-- The first of the other CEs that are not sent does not fit behind the CEs, or finds no place. -/
def NextCeRefused (row : UeRow) (space nofPlaces : Nat) (ces : List DlMsgLcInfo) : Prop :=
  ∀ ce, row.pendingCes[ces.length - (conResChosen row space).length]? = some ce →
    space < (ces.map ceSubpduBytes).sum + ceBytes ce.ceLcid ∨ nofPlaces ≤ ces.length

/-- A tracked channel whose row of the table was erased. -/
def StaleQosRow (sys : LogicalChannelSystem) (row : UeRow) : Prop :=
  ∃ lcid ch rid, row.channel? .dl lcid = some ch ∧ ch.active = true ∧ ch.qosRow = some rid ∧
    (sys.qos .dl).row? rid = none

namespace LogicalChannelSystem
variable {sys : LogicalChannelSystem} {ue : Nat} {row : UeRow} {base : Nat → UeView} {ces : Bool}

theorem getMacSduSize_add {bytes : Nat} (hmin : 3 ≤ bytes) (hne : bytes ≠ 258) :
    getMacSduSize bytes + getMacSduSubheaderSize (getMacSduSize bytes) = bytes := by
  rw [getMacSduSize, getMacSduSubheaderSize, macSduSubheaderLengthThres, minMacSduSubheaderSize,
    maxMacSduSubheaderSize, if_neg (by omega)]
  dsimp only
  by_cases hsmall : bytes - 2 < 256
  · rw [if_pos hsmall, if_neg (by omega), if_neg (by omega)]
    omega
  · rw [if_neg hsmall, if_neg (by omega), if_pos (by omega)]
    omega

theorem le_getMacSduWithSubhdrAndRlcHdrEstim (lcid : Lcid) : 3 ≤ getMacSduWithSubhdrAndRlcHdrEstim lcid 1 := by
  rw [getMacSduWithSubhdrAndRlcHdrEstim]
  split <;> decide

/-- The allocated bytes fit, and are never one of the sizes that cannot be reached. -/
theorem sduAllocBytes_spec {lcid pendingBytes remBytes : Nat}
    (hrem : ¬ remBytes < getMacSduWithSubhdrAndRlcHdrEstim lcid 1) :
    3 ≤ sduAllocBytes lcid pendingBytes remBytes ∧ sduAllocBytes lcid pendingBytes remBytes ≤ remBytes ∧
      sduAllocBytes lcid pendingBytes remBytes ≠ 258 := by
  have hestim := le_getMacSduWithSubhdrAndRlcHdrEstim lcid
  rw [sduAllocBytes, macSduSubheaderLengthThres, minMacSduSubheaderSize]
  split <;> split <;> omega

theorem setBit_ok {bits : List Bool} {pos : Nat} {value : Bool} (h : pos < bits.length) :
    setBit bits pos value = .ok (bits.set pos value) := by
  rw [setBit, if_pos h]

theorem Viewed.lt_length {v : UeView} (h : Viewed base ue v sys) (hconfigured : v.configured = true) :
    ue < sys.configuredUes.length := by
  apply lt_length_of_testBit
  rw [← hconfigured, ← h.view_self]
  rfl

theorem Viewed.setPendingUe_ok {v : UeView} {d : Direction} {slice : RanSliceId} {value : Bool}
    (h : Viewed base ue v sys) (hconfigured : v.configured = true) (hslice : (sys.slices.find? slice).isSome) :
    ∃ sys', sys.setPendingUe d slice ue value = .ok sys' ∧ sys'.qos = sys.qos := by
  obtain ⟨ctx, hctx⟩ := Option.isSome_iff_exists.mp hslice
  have hlt : ue < (ctx.pendingUes d).length := by
    rw [h.provisioned.slices slice ctx hctx]
    exact h.lt_length hconfigured
  rw [LogicalChannelSystem.setPendingUe, hctx]
  dsimp only
  rw [setBit_ok hlt]
  exact ⟨_, rfl, rfl⟩

theorem Viewed.setPendingCesBit_ok {v : UeView} {value : Bool} (h : Viewed base ue v sys)
    (hconfigured : v.configured = true) :
    ∃ sys', sys.setPendingCesBit ue value = .ok sys' ∧ sys'.qos = sys.qos := by
  have hlt : ue < sys.uesWithPendingCes.length := by
    rw [h.provisioned.ces]
    exact h.lt_length hconfigured
  rw [LogicalChannelSystem.setPendingCesBit, setBit_ok hlt]
  exact ⟨_, rfl, rfl⟩

theorem Viewed.onBufStUpdate_ok {id newBufSt prevBufSt : Nat} {active : Bool} {sliceId : Option RanSliceId}
    (h : Viewed base ue (row.view ces true) sys)
    (hslice : ∀ slice, sliceId = some slice → (row.pending? .dl slice).isSome) :
    ∃ sys', sys.onBufStUpdate ue .dl id active sliceId newBufSt prevBufSt = .ok sys' ∧ sys'.qos = sys.qos := by
  cases sliceId with
  | none => exact ⟨sys, rfl, rfl⟩
  | some slice =>
    have hexists := h.provisioned.known ue row .dl slice h.row_eq (hslice slice rfl)
    dsimp only [LogicalChannelSystem.onBufStUpdate]
    rw [h.getUe, ok_bind]
    split
    · exact ⟨sys, rfl, rfl⟩
    · obtain ⟨prevPending, hprev⟩ := Option.isSome_iff_exists.mp (hslice slice rfl)
      rw [hprev]
      dsimp only
      rw [if_neg fun hul => nomatch hul.1]
      generalize (prevPending + 2 ^ 32 + bufStBytes .dl id newBufSt - bufStBytes .dl id prevBufSt) % 2 ^ 32 =
        pending
      have hrow : Viewed base ue { row.view ces true with row := some (row.setPending .dl slice pending) }
          (sys.setUe ue (row.setPending .dl slice pending)) := by
        refine h.setUe fun d' slice' hsome => ?_
        rw [UeRow.pending?_setPending] at hsome
        split at hsome
        · rename_i heq
          rw [heq.2]
          exact hexists
        · exact h.provisioned.known ue row d' slice' h.row_eq hsome
      split
      · exact hrow.setPendingUe_ok rfl hexists
      · exact ⟨_, rfl, rfl⟩

theorem isSome_updateQos {rid : Adt.RowId} {f : QosContext → QosContext} {sys' : LogicalChannelSystem}
    (h : sys.updateQos .dl rid f = .ok sys') (rid' : Adt.RowId) :
    ((sys'.qos .dl).row? rid').isSome = ((sys.qos .dl).row? rid').isSome := by
  rw [updateQos] at h
  split at h
  · rename_i ctx hctx
    cases h
    rw [setQos]
    dsimp only
    rw [Function.update_self]
    exact Adt.SoaTable.isSome_row?_set hctx
  · cases h

/-- The row of the UE while a TB is composed. -/
structure Carried (base : Nat → UeView) (ue : Nat) (sys₀ : LogicalChannelSystem) (row₀ row : UeRow)
    (sys : LogicalChannelSystem) : Prop where
  view : ∃ ces, Viewed base ue (row.view ces true) sys
  sound : row.Sound
  setup : ∀ lcid, row.setup lcid = row₀.setup lcid
  qos : ∀ rid, ((sys.qos .dl).row? rid).isSome = ((sys₀.qos .dl).row? rid).isSome
  sorted : row.sortedChannels = row₀.sortedChannels

/-- The only fault: the table has no row for a tracked channel. -/
def OnlyStale (sys : LogicalChannelSystem) (row : UeRow) (e : LcFault) : Prop :=
  e = .invalidRowId ∧ StaleQosRow sys row

variable {sys₀ : LogicalChannelSystem} {row₀ : UeRow}

theorem Carried.stale {e : LcFault} (h : Carried base ue sys₀ row₀ row sys)
    (hstale : OnlyStale sys row e) : OnlyStale sys₀ row₀ e := by
  obtain ⟨rfl, lcid, ch, rid, hch, hactive, hrid, hrow⟩ := hstale
  have hsetup := h.setup lcid
  rw [UeRow.setup, UeRow.setup, hch] at hsetup
  obtain ⟨ch₀, hch₀, heq⟩ := Option.map_eq_some_iff.mp hsetup.symm
  rw [Prod.mk.injEq, Prod.mk.injEq] at heq
  refine ⟨rfl, lcid, ch₀, rid, hch₀, heq.1.trans hactive, heq.2.2.trans hrid, ?_⟩
  have hsome := h.qos rid
  rw [hrow] at hsome
  exact Option.not_isSome_iff_eq_none.mp fun hnew => absurd (hsome.trans hnew) Bool.false_ne_true

structure SduAdded (row : UeRow) (lcid : Lcid) (remBytes : Nat) (row' : UeRow) (allocBytes : Nat)
    (sdu : DlMsgLcInfo) : Prop where
  channel : ∃ ch, row.channel? .dl lcid = some ch ∧ ch.active = true
  pending : 0 < row.buffers lcid
  bytes_eq : allocBytes = sduAllocBytes lcid (bufStBytes .dl lcid (row.buffers lcid)) remBytes
  pos : 0 < allocBytes
  le : allocBytes ≤ remBytes
  lcid_eq : sdu.lcid = lcid
  size_eq : sdu.schedBytes = getMacSduSize allocBytes
  subpdu_eq : sduSubpduBytes sdu = allocBytes
  buffers_eq : row'.buffers = buffersAfter row.buffers sdu

theorem buffers_setChannel {lcid : Lcid} {ch : ChannelContext} :
    (row.setChannel .dl lcid ch).buffers = Function.update row.buffers lcid ch.bufSt := by
  funext lcid'
  rw [UeRow.buffers, UeRow.channel?_setChannel]
  by_cases h : lcid' = lcid
  · rw [if_pos ⟨rfl, h⟩, h, Function.update_self]
    rfl
  · rw [if_neg fun heq => h heq.2, Function.update_of_ne h]
    rfl

variable {lcid : Nat} {ch : ChannelContext}

theorem Carried.updateBufSt {bufSt : Nat} (h : Carried base ue sys₀ row₀ row sys)
    (hch : row.channel? .dl lcid = some ch) (hbufSt : bufSt ≤ ch.bufSt) :
    ∃ row' sys', sys.updateBufSt ue .dl lcid ch bufSt = .ok sys' ∧ sys'.qos = sys.qos ∧
      Carried base ue sys₀ row₀ row' sys' ∧ row'.buffers = Function.update row.buffers lcid bufSt := by
  obtain ⟨ces, hview⟩ := h.view
  have hset : Viewed base ue ((row.setChannel .dl lcid { ch with bufSt }).view ces true)
      (sys.setUe ue (row.setChannel .dl lcid { ch with bufSt })) := hview.setChannel
  have hslices : ∀ slice, ch.sliceId = some slice →
      ((row.setChannel .dl lcid { ch with bufSt }).pending? .dl slice).isSome := by
    intro slice hslice
    rw [UeRow.pending?_setChannel]
    exact h.sound.known .dl lcid ch slice hch hslice
  obtain ⟨sys', hok, hqos⟩ := @Viewed.onBufStUpdate_ok _ _ _ _ _ lcid bufSt ch.bufSt ch.active ch.sliceId hset hslices
  have hevolves := UeRow.evolves_updateBufSt hch fun hsound => hbufSt.trans (hsound.bufSt_le .dl lcid ch hch)
  refine ⟨_, sys', ?_, hqos, ⟨⟨ces, hset.onBufStUpdate.result hok⟩, hevolves.sound h.sound, ?_, ?_, ?_⟩, ?_⟩
  · rw [LogicalChannelSystem.updateBufSt, hview.getUe, ok_bind]
    exact hok
  · intro lcid'
    rw [← h.setup lcid', UeRow.setup, UeRow.setup, UeRow.channel?_bufStUpdated, UeRow.channel?_setChannel]
    split
    · rename_i heq
      rw [heq.2, hch]
      rfl
    · rfl
  · intro rid
    rw [hqos]
    exact h.qos rid
  · rw [← h.sorted]
    exact UeRow.sortedChannels_bufStUpdated
  · funext lcid'
    rw [UeRow.buffers, UeRow.channel?_bufStUpdated]
    exact congrFun (@buffers_setChannel row lcid { ch with bufSt }) lcid'

theorem Carried.updateQos {rid : Adt.RowId} {f : QosContext → QosContext}
    (h : Carried base ue sys₀ row₀ row sys)
    (hstale : (sys.qos .dl).row? rid = none → OnlyStale sys₀ row₀ .invalidRowId) :
    Ensures (OnlyStale sys₀ row₀) (Carried base ue sys₀ row₀ row) (sys.updateQos .dl rid f) := by
  cases hok : sys.updateQos .dl rid f with
  | ok sys' =>
    obtain ⟨ces, hview⟩ := h.view
    refine .ok { h with view := ⟨ces, hview.updateQos.result hok⟩, qos := fun rid' => ?_ }
    rw [isSome_updateQos hok]
    exact h.qos rid'
  | error e =>
    rw [LogicalChannelSystem.updateQos] at hok
    split at hok
    · cases hok
    · rename_i hnone
      cases hok
      exact .error (hstale hnone)

variable {remBytes : Nat}

theorem Carried.allocateActive (h : Carried base ue sys₀ row₀ row sys)
    (hch : row.channel? .dl lcid = some ch) (hactive : ch.active = true) (hpending : 0 < ch.bufSt)
    (hrem : ¬ remBytes < getMacSduWithSubhdrAndRlcHdrEstim lcid 1) :
    Ensures (OnlyStale sys₀ row₀)
      (fun r => ∃ row', SduAdded row lcid remBytes row' r.1 r.2.1 ∧ Carried base ue sys₀ row₀ row' r.2.2)
      (do
        let allocBytes := sduAllocBytes lcid (bufStBytes .dl lcid ch.bufSt) remBytes
        let sduSize := getMacSduSize allocBytes
        let lastSchedBytes := min sduSize ch.bufSt
        let sys ← sys.updateBufSt ue .dl lcid ch (bufStAfter lcid ch.bufSt lastSchedBytes)
        let sys ←
          match ch.qosRow with
          | some rid => sys.updateQos .dl rid fun ctx => { ctx with lastSchedBytes }
          | none => .ok sys
        return (allocBytes, { lcid, schedBytes := sduSize }, sys)) := by
  obtain ⟨row', sys', hok, hqos, hcarried, hbuffers⟩ := h.updateBufSt hch (bufStAfter_le hrem)
  have hbuffer : row.buffers lcid = ch.bufSt := by
    rw [UeRow.buffers, hch]
    rfl
  have hadded : SduAdded row lcid remBytes row' (sduAllocBytes lcid (bufStBytes .dl lcid ch.bufSt) remBytes)
      { lcid, schedBytes := getMacSduSize (sduAllocBytes lcid (bufStBytes .dl lcid ch.bufSt) remBytes) } := by
    obtain ⟨hmin, hle, hne⟩ := @sduAllocBytes_spec lcid (bufStBytes .dl lcid ch.bufSt) remBytes hrem
    refine ⟨⟨ch, hch, hactive⟩, ?_, ?_, ?_, hle, rfl, rfl, getMacSduSize_add hmin hne, ?_⟩
    · rw [hbuffer]
      exact hpending
    · rw [hbuffer]
    · omega
    · rw [hbuffers, buffersAfter, hbuffer]
  dsimp only
  rw [hok, ok_bind]
  cases hrid : ch.qosRow with
  | none => exact .ok ⟨row', hadded, hcarried⟩
  | some rid =>
    refine (hcarried.updateQos fun hnone => h.stale ⟨rfl, lcid, ch, rid, hch, hactive, hrid, ?_⟩).bind
      fun sys'' h'' => .ok ⟨row', hadded, h''⟩
    rw [← hqos]
    exact hnone

theorem Carried.allocateMacSdu (h : Carried base ue sys₀ row₀ row sys) :
    Ensures (OnlyStale sys₀ row₀)
      (fun r => r.1 = 0 ∧ Carried base ue sys₀ row₀ row r.2.2 ∨
        ∃ row', SduAdded row lcid remBytes row' r.1 r.2.1 ∧ Carried base ue sys₀ row₀ row' r.2.2)
      (sys.allocateMacSdu ue remBytes lcid) := by
  obtain ⟨ces, hview⟩ := h.view
  rw [LogicalChannelSystem.allocateMacSdu]
  split
  · exact .ok (.inl ⟨rfl, h⟩)
  · rename_i hrem
    rw [hview.getUe, ok_bind]
    split
    · exact .ok (.inl ⟨rfl, h⟩)
    · rename_i ch hfind
      obtain ⟨hch, hactive⟩ := Option.filter_eq_some_iff.mp hfind
      split
      · exact .ok (.inl ⟨rfl, h⟩)
      · rename_i hbytes
        have hpending : 0 < ch.bufSt := by
          apply Nat.pos_of_ne_zero
          intro hzero
          rw [hzero, bufStBytes_zero] at hbytes
          exact hbytes rfl
        exact (h.allocateActive hch hactive hpending hrem).mono fun _ => .inr

/-- SDUs that turn a row into another one, with the bytes of the TB before and behind them. -/
structure SdusAdded (row₀ row : UeRow) (space : Nat) (sdus : List DlMsgLcInfo) (row' : UeRow) (left : Nat) :
    Prop where
  bytes_eq : space = left + (sdus.map sduSubpduBytes).sum
  active : ∀ sdu ∈ sdus, ∃ ch, row₀.channel? .dl sdu.lcid = some ch ∧ ch.active = true
  buffers : FromBuffers row.buffers sdus
  buffers_eq : row'.buffers = sdus.foldl buffersAfter row.buffers

variable {space : Nat}

theorem SdusAdded.nil : SdusAdded row₀ row space [] row space where
  bytes_eq := rfl
  active := nofun
  buffers := trivial
  buffers_eq := rfl

theorem SdusAdded.append {row₁ row₂ : UeRow} {mid left : Nat} {sdus sdus' : List DlMsgLcInfo}
    (h : SdusAdded row₀ row space sdus row₁ mid) (h' : SdusAdded row₀ row₁ mid sdus' row₂ left) :
    SdusAdded row₀ row space (sdus ++ sdus') row₂ left where
  bytes_eq := by
    rw [List.map_append, List.sum_append, h.bytes_eq, h'.bytes_eq]
    omega
  active := by
    intro sdu hsdu
    rcases List.mem_append.mp hsdu with hsdu | hsdu
    · exact h.active sdu hsdu
    · exact h'.active sdu hsdu
  buffers := by
    rw [fromBuffers_append, ← h.buffers_eq]
    exact ⟨h.buffers, h'.buffers⟩
  buffers_eq := by
    rw [List.foldl_append, ← h.buffers_eq]
    exact h'.buffers_eq

theorem Carried.channel {lcid : Lcid} (h : Carried base ue sys₀ row₀ row sys)
    (hch : row.channel? .dl lcid = some ch) :
    ∃ ch₀, row₀.channel? .dl lcid = some ch₀ ∧ ch₀.active = ch.active ∧ ch₀.sliceId = ch.sliceId := by
  have hsetup := h.setup lcid
  rw [UeRow.setup, UeRow.setup, hch] at hsetup
  obtain ⟨ch₀, hch₀, heq⟩ := Option.map_eq_some_iff.mp hsetup.symm
  rw [Prod.mk.injEq, Prod.mk.injEq] at heq
  exact ⟨ch₀, hch₀, heq.1, heq.2.1⟩

variable {row' : UeRow}

theorem SduAdded.single {allocBytes : Nat} {sdu : DlMsgLcInfo}
    (h : SduAdded row lcid remBytes row' allocBytes sdu) (hrow : Carried base ue sys₀ row₀ row sys) :
    SdusAdded row₀ row remBytes [sdu] row' (remBytes - allocBytes) where
  bytes_eq := by
    rw [List.map_singleton, List.sum_singleton, h.subpdu_eq]
    exact (Nat.sub_add_cancel h.le).symm
  active := by
    intro sdu' hsdu
    obtain ⟨ch, hch, hactive⟩ := h.channel
    obtain ⟨ch₀, hch₀, hactive₀, -⟩ := hrow.channel hch
    rw [List.mem_singleton.mp hsdu, h.lcid_eq]
    exact ⟨ch₀, hch₀, hactive₀.trans hactive⟩
  buffers := ⟨h.lcid_eq ▸ h.pending, trivial⟩
  buffers_eq := h.buffers_eq

structure SdusOf (base : Nat → UeView) (ue : Nat) (sys₀ : LogicalChannelSystem) (row₀ row : UeRow) (lcid : Lcid)
    (tb tb' : TbState) (row' : UeRow) (sdus : List DlMsgLcInfo) : Prop where
  carried : Carried base ue sys₀ row₀ row' tb'.sys
  subpdus_eq : tb'.subpdus = tb.subpdus ++ sdus
  added : SdusAdded row₀ row tb.remTbs sdus row' tb'.remTbs
  length_le : tb'.subpdus.length ≤ maxLcPerTb
  lcid_eq : ∀ sdu ∈ sdus, sdu.lcid = lcid
  first : ∀ sdu ∈ sdus.head?, sdu.schedBytes =
    getMacSduSize (sduAllocBytes lcid (bufStBytes .dl lcid (row.buffers lcid)) tb.remTbs)

variable {sys₀ : LogicalChannelSystem}

theorem Carried.allocateMacSdus {row₀ : UeRow} {lcid : Lcid}
    (h : Carried base ue sys₀ row₀ row tb.sys) (hlength : tb.subpdus.length ≤ maxLcPerTb) :
    Ensures (OnlyStale sys₀ row₀) (fun tb' => ∃ row' sdus, SdusOf base ue sys₀ row₀ row lcid tb tb' row' sdus)
      (allocateMacSdus ue lcid tb) := by
  induction tb using allocateMacSdus.induct generalizing row with
  | case1 tb hroom ih =>
    rw [LogicalChannelSystem.allocateMacSdus, dif_pos hroom]
    refine h.allocateMacSdu.bind fun r hr => ?_
    rcases hr with ⟨hzero, hr⟩ | ⟨row₁, hadded, hr⟩
    · rw [if_pos hzero]
      exact .ok ⟨row, [], hr, (List.append_nil _).symm, .nil, hlength, nofun, nofun⟩
    · rw [if_neg hadded.pos.ne']
      have hlength' : (addSubpdu tb r).subpdus.length ≤ maxLcPerTb := by
        rw [addSubpdu, List.length_append]
        exact hroom.2
      refine (ih r hr hlength').mono fun tb' htb' => ?_
      obtain ⟨row', sdus, hrest⟩ := htb'
      refine ⟨row', r.2.1 :: sdus, hrest.carried, ?_, (hadded.single h).append hrest.added, hrest.length_le, ?_, ?_⟩
      · rw [hrest.subpdus_eq, addSubpdu, List.append_assoc]
        rfl
      · rw [List.forall_mem_cons]
        exact ⟨hadded.lcid_eq, hrest.lcid_eq⟩
      · rintro sdu ⟨⟩
        rw [hadded.size_eq, hadded.bytes_eq]
  | case2 tb hfull =>
    rw [LogicalChannelSystem.allocateMacSdus, dif_neg hfull]
    exact .ok ⟨row, [], h, (List.append_nil _).symm, .nil, hlength, nofun, nofun⟩

/-- CEs that turn a row into another one. -/
structure CesOf (base : Nat → UeView) (ue : Nat) (sys₀ : LogicalChannelSystem) (row₀ row : UeRow)
    (tb tb' : TbState) (row' : UeRow) (ces : List DlMsgLcInfo) : Prop where
  carried : Carried base ue sys₀ row₀ row' tb'.sys
  side_eq : row'.side = row.side
  subpdus_eq : tb'.subpdus = tb.subpdus ++ ces
  bytes_eq : tb.remTbs = tb'.remTbs + (ces.map ceSubpduBytes).sum
  inOrder : CesInOrder row tb.remTbs ces
  length_le : tb'.subpdus.length ≤ maxLcPerTb

theorem Carried.setRow {row₀ row' : UeRow}
    (h : Carried base ue sys₀ row₀ row sys) (hside : row'.side = row.side)
    (hfallback : row'.fallbackState = row.fallbackState) (hsorted : row'.sortedChannels = row.sortedChannels) :
    Carried base ue sys₀ row₀ row' (sys.setUe ue row') := by
  obtain ⟨ces, hview⟩ := h.view
  refine ⟨⟨ces, hview.setRow ?_ ?_⟩, h.sound.of_same hside hfallback, ?_, h.qos, hsorted.trans h.sorted⟩
  · funext d slice
    rw [UeRow.bits, UeRow.bits, UeRow.pending?, UeRow.pending?, hside]
  · intro d slice hsome
    rw [UeRow.pending?, hside] at hsome
    exact hsome
  · intro lcid
    rw [← h.setup lcid, UeRow.setup, UeRow.setup, UeRow.channel?, UeRow.channel?, hside]

theorem Carried.getUe (h : Carried base ue sys₀ row₀ row sys) : sys.getUe ue = .ok row := by
  obtain ⟨ces, hview⟩ := h.view
  exact hview.getUe

theorem Carried.setPendingCesBit {row₀ : UeRow} {value : Bool}
    (h : Carried base ue sys₀ row₀ row sys) :
    ∃ sys', sys.setPendingCesBit ue value = .ok sys' ∧ Carried base ue sys₀ row₀ row sys' := by
  obtain ⟨ces, hview⟩ := h.view
  obtain ⟨sys', hok, hqos⟩ := @Viewed.setPendingCesBit_ok _ _ _ _ value hview rfl
  refine ⟨sys', hok, { h with view := ⟨value, hview.setPendingCesBit.result hok⟩, qos := ?_ }⟩
  rw [hqos]
  exact h.qos

theorem ceBytes_pos (lcid : LcidDlSch) : 0 < ceBytes lcid := Nat.lt_add_right _ Nat.one_pos

theorem conResChosen_eq_nil_iff : conResChosen row space = [] ↔
    ¬ (row.pendingConResId = true ∧ ceBytes LcidDlSch.ueConResId ≤ space) := by
  rw [conResChosen]
  split
  · rename_i h
    exact iff_of_false (List.cons_ne_nil _ _) (not_not_intro h)
  · rename_i h
    exact iff_of_true rfl h

/-- The bit of a UE with other CEs pending is set. -/
def CesBitSet (sys : LogicalChannelSystem) (ue : Nat) (row : UeRow) : Prop :=
  row.pendingCes ≠ [] → testBit sys.uesWithPendingCes ue = true

structure CeAdded (base : Nat → UeView) (ue : Nat) (sys₀ : LogicalChannelSystem) (row₀ row : UeRow)
    (remBytes : Nat) (row' : UeRow) (r : Nat × DlMsgLcInfo × LogicalChannelSystem) : Prop where
  carried : Carried base ue sys₀ row₀ row' r.2.2
  side_eq : row'.side = row.side
  pos : 0 < r.1
  le : r.1 ≤ remBytes
  bytes_eq : ceSubpduBytes r.2.1 = r.1
  order : conResChosen row' (remBytes - r.1) = [] ∧
    (conResChosen row remBytes = [r.2.1] ∧ row'.pendingCes = row.pendingCes ∨
      conResChosen row remBytes = [] ∧ ∃ ce, row.pendingCes = ce :: row'.pendingCes ∧ r.2.1 = ceSubpdu ce)

theorem Carried.allocateUeConResIdMacCe (h : Carried base ue sys₀ row₀ row sys) :
    Ensures (OnlyStale sys₀ row₀)
      (fun r => r.1 = 0 ∧ conResChosen row remBytes = [] ∧ r.2.2 = sys ∨
        conResChosen row remBytes = [r.2.1] ∧
          ∃ row', (CesBitSet sys ue row → CesBitSet r.2.2 ue row') ∧
            CeAdded base ue sys₀ row₀ row remBytes row' r)
      (sys.allocateUeConResIdMacCe ue remBytes) := by
  rw [LogicalChannelSystem.allocateUeConResIdMacCe, h.getUe, ok_bind]
  dsimp only
  split
  · rename_i hfits
    have hchosen : conResChosen row remBytes = [conResSubpdu] := by
      rw [conResChosen, if_pos hfits]
    refine .ok (.inr ⟨hchosen, { row with pendingConResId := false }, id, ?_⟩)
    refine ⟨h.setRow rfl rfl rfl, rfl, ceBytes_pos _, hfits.2, Nat.add_comm .., ?_, .inl ⟨hchosen, rfl⟩⟩
    rw [conResChosen, if_neg fun hagain => Bool.noConfusion hagain.1]
  · rename_i hfits
    refine .ok (.inl ⟨rfl, ?_, rfl⟩)
    rw [conResChosen, if_neg hfits]

theorem Carried.allocateMacCe (h : Carried base ue sys₀ row₀ row sys) :
    Ensures (OnlyStale sys₀ row₀)
      (fun r => r.1 = 0 ∧ conResChosen row remBytes = [] ∧ r.2.2 = sys ∧
          (∀ ce, row.pendingCes[0]? = some ce → remBytes < ceBytes ce.ceLcid) ∨
        ∃ row', (CesBitSet sys ue row → CesBitSet r.2.2 ue row') ∧
          CeAdded base ue sys₀ row₀ row remBytes row' r)
      (sys.allocateMacCe ue remBytes) := by
  rw [LogicalChannelSystem.allocateMacCe]
  refine h.allocateUeConResIdMacCe.bind fun conRes hconRes => ?_
  rcases hconRes with ⟨hzero, hnone, hsame⟩ | ⟨-, row', hbit, hadded⟩
  · rw [if_neg hzero.not_gt, h.getUe, ok_bind]
    cases hpending : row.pendingCes with
    | nil =>
      refine .ok (.inl ⟨rfl, hnone, rfl, ?_⟩)
      intro _ hce
      cases hce
    | cons ce rest =>
      dsimp only
      split
      · rename_i hless
        refine .ok (.inl ⟨rfl, hnone, rfl, ?_⟩)
        rintro _ ⟨⟩
        exact hless
      · rename_i hroom
        let row' : UeRow := { row with
          pendingCes := rest
          pendingCeBytes := (row.pendingCeBytes + 2 ^ 32 - ceBytes ce.ceLcid) % 2 ^ 32 }
        have hset : Carried base ue sys₀ row₀ row' (sys.setUe ue row') := h.setRow rfl rfl rfl
        have hadded : ∀ sys', Carried base ue sys₀ row₀ row' sys' →
            CeAdded base ue sys₀ row₀ row remBytes row' (ceBytes ce.ceLcid, ceSubpdu ce, sys') := by
          intro sys' hsys'
          refine ⟨hsys', rfl, ceBytes_pos _, Nat.le_of_not_lt hroom, Nat.add_comm .., ?_,
            .inr ⟨hnone, ce, hpending, rfl⟩⟩
          rw [conResChosen_eq_nil_iff] at hnone ⊢
          exact fun hlater => hnone ⟨hlater.1, hlater.2.trans (Nat.sub_le _ _)⟩
        split
        · rename_i hlast
          obtain ⟨sys', hok, hsys'⟩ := @Carried.setPendingCesBit _ _ _ _ _ _ false hset
          rw [hok, ok_bind]
          exact .ok (.inr ⟨row', fun _ hne => absurd hlast hne, hadded sys' hsys'⟩)
        · refine .ok (.inr ⟨row', fun hbit _ => hbit ?_, hadded _ hset⟩)
          rw [hpending]
          exact List.cons_ne_nil _ _
  · rw [if_pos hadded.pos]
    exact .ok (.inr ⟨row', hbit, hadded⟩)

theorem CeAdded.inOrder {ces : List DlMsgLcInfo} (h : CeAdded base ue sys₀ row₀ row remBytes row' r)
    (hrest : CesInOrder row' (remBytes - r.1) ces) : CesInOrder row remBytes (r.2.1 :: ces) := by
  obtain ⟨sent, rest, hpending, hces⟩ := hrest
  obtain ⟨hnone, ⟨hconRes, hsame⟩ | ⟨hconRes, ce, hce, hsubpdu⟩⟩ := h.order
  · rw [hnone, List.nil_append] at hces
    refine ⟨sent, rest, hsame.symm.trans hpending, ?_⟩
    rw [hconRes, hces]
    rfl
  · rw [hnone, List.nil_append] at hces
    refine ⟨ce :: sent, rest, ?_, ?_⟩
    · rw [hce, hpending]
      rfl
    · rw [hconRes, hces, hsubpdu]
      rfl

theorem CeAdded.refused {ces : List DlMsgLcInfo} {nofPlaces : Nat}
    (h : CeAdded base ue sys₀ row₀ row remBytes row' r)
    (hrest : NextCeRefused row' (remBytes - r.1) nofPlaces ces) :
    NextCeRefused row remBytes (nofPlaces + 1) (r.2.1 :: ces) := by
  intro ce hce
  have hnext : row'.pendingCes[ces.length]? = some ce := by
    obtain ⟨-, ⟨hconRes, hsame⟩ | ⟨hconRes, first, hfirst, -⟩⟩ := h.order
    · rw [hconRes] at hce
      rw [hsame]
      exact hce
    · rw [hconRes, hfirst] at hce
      exact hce
  have hbytes := h.bytes_eq
  have hle := h.le
  have hrefused := hrest ce (by rw [h.order.1]; exact hnext)
  rw [List.map_cons, List.sum_cons, List.length_cons]
  omega

theorem cesInOrder_nil (h : conResChosen row space = []) : CesInOrder row space [] := by
  refine ⟨[], row.pendingCes, rfl, ?_⟩
  rw [h]
  rfl

theorem Carried.allocateMacCes {row₀ : UeRow}
    (h : Carried base ue sys₀ row₀ row tb.sys) (hlength : tb.subpdus.length ≤ maxLcPerTb)
    (hroom : conResChosen row tb.remTbs = [] ∨ tb.subpdus.length < maxLcPerTb) :
    Ensures (OnlyStale sys₀ row₀) (fun tb' => ∃ row' ces, CesOf base ue sys₀ row₀ row tb tb' row' ces ∧
        (CesBitSet tb.sys ue row → NextCeRefused row tb.remTbs (maxLcPerTb - tb.subpdus.length) ces))
      (allocateMacCes ue tb) := by
  induction tb using allocateMacCes.induct generalizing row with
  | case1 tb ih =>
    rw [LogicalChannelSystem.allocateMacCes, hasPendingCes, h.getUe, ok_bind]
    have hdone : ∀ sys', sys' = tb.sys → conResChosen row tb.remTbs = [] →
        CesOf base ue sys₀ row₀ row tb { tb with sys := sys' } row [] := by
      rintro _ rfl hnone
      exact ⟨h, rfl, (List.append_nil _).symm, rfl, cesInOrder_nil hnone, hlength⟩
    dsimp only [pure, Except.pure]
    rw [ok_bind]
    split
    · rename_i hpending
      refine h.allocateMacCe.bind fun r hr => ?_
      rcases hr with ⟨hzero, hnone, hsame, hrefused⟩ | ⟨row₁, hbit, hadded⟩
      · rw [if_pos hzero]
        refine .ok ⟨row, [], hdone _ hsame hnone, fun _ ce hce => .inl ?_⟩
        rw [List.map_nil, List.sum_nil, Nat.zero_add]
        exact hrefused ce (by rwa [hnone] at hce)
      · rw [if_neg hadded.pos.ne']
        have hlength' : (addSubpdu tb r).subpdus.length ≤ maxLcPerTb := by
          rw [addSubpdu, List.length_append]
          exact hpending.2
        refine (ih _ hpending r hadded.carried hlength' (.inl hadded.order.1)).mono fun tb' htb' => ?_
        obtain ⟨row', ces, hrest, hrefused⟩ := htb'
        have hplaces : maxLcPerTb - tb.subpdus.length =
            maxLcPerTb - (addSubpdu tb r).subpdus.length + 1 := by
          have hroom := hpending.2
          rw [addSubpdu, List.length_append, List.length_singleton]
          omega
        rw [hplaces]
        refine ⟨row', r.2.1 :: ces, ⟨hrest.carried, hrest.side_eq.trans hadded.side_eq, ?_, ?_,
          hadded.inOrder hrest.inOrder, hrest.length_le⟩, fun hset => hadded.refused (hrefused (hbit hset))⟩
        · rw [hrest.subpdus_eq, addSubpdu, List.append_assoc]
          rfl
        · have hbytes := hrest.bytes_eq
          have hle := hadded.le
          rw [addSubpdu] at hbytes
          rw [List.map_cons, List.sum_cons, hadded.bytes_eq]
          dsimp only at hbytes
          omega
    · rename_i hpending
      have hnone : conResChosen row tb.remTbs = [] := by
        rcases hroom with hnone | hroom
        · exact hnone
        · rw [conResChosen_eq_nil_iff]
          intro hconRes
          apply hpending
          rw [hconRes.1, Bool.or_true]
          exact ⟨rfl, hroom⟩
      refine .ok ⟨row, [], hdone _ rfl hnone, fun hbit ce hce => .inr ?_⟩
      rw [hnone] at hce
      refine Nat.le_of_eq (Nat.sub_eq_zero_of_le (Nat.le_of_not_lt fun hroom => hpending ⟨?_, hroom⟩))
      rw [hbit ?_, Bool.true_or]
      intro hempty
      rw [hempty] at hce
      cases hce

/-- A composed TB: CEs in order before SDUs of active channels, of which the bytes are exact. -/
structure TbComposed (row : UeRow) (tbSizeBytes : Nat) (total : Nat) (subpdus ces sdus : List DlMsgLcInfo) :
    Prop where
  subpdus_eq : subpdus = ces ++ sdus
  total_eq : total = (ces.map ceSubpduBytes).sum + (sdus.map sduSubpduBytes).sum
  total_le : total ≤ tbSizeBytes
  length_le : subpdus.length ≤ maxLcPerTb
  active : ∀ sdu ∈ sdus, ∃ ch, row.channel? .dl sdu.lcid = some ch ∧ ch.active = true
  buffers : FromBuffers row.buffers sdus

theorem buffers_congr {row : UeRow} (h : row'.side = row.side) : row'.buffers = row.buffers := by
  funext lcid
  rw [UeRow.buffers, UeRow.buffers, UeRow.channel?, UeRow.channel?, h]

theorem CesOf.composed {row row₁ row₂ : UeRow} {tbSizeBytes : Nat}
    {tb₁ tb₂ : TbState} {ces sdus : List DlMsgLcInfo}
    (h : CesOf base ue sys₀ row row { remTbs := tbSizeBytes, sys := sys₀ } tb₁ row₁ ces)
    (hsubpdus : tb₂.subpdus = tb₁.subpdus ++ sdus) (hlength : tb₂.subpdus.length ≤ maxLcPerTb)
    (hadded : SdusAdded row row₁ tb₁.remTbs sdus row₂ tb₂.remTbs) :
    TbComposed row tbSizeBytes (composed tbSizeBytes tb₂).1 (composed tbSizeBytes tb₂).2.1 ces sdus := by
  have hbytes := h.bytes_eq
  have hsdus := hadded.bytes_eq
  dsimp only at hbytes
  refine ⟨?_, ?_, Nat.sub_le _ _, hlength, hadded.active, ?_⟩
  · exact hsubpdus.trans (congrArg (· ++ sdus) h.subpdus_eq)
  · rw [LogicalChannelSystem.composed]
    omega
  · rw [← buffers_congr h.side_eq]
    exact hadded.buffers

theorem Carried.start {ces : Bool} (h : Viewed base ue (row.view ces true) sys) (hsound : row.Sound) :
    Carried base ue sys row row sys :=
  ⟨⟨ces, h⟩, hsound, fun _ => rfl, fun _ => rfl, rfl⟩

theorem Carried.allocateSlice {slice : RanSliceId} {lcids : List Lcid}
    (h : Carried base ue sys₀ row₀ row tb.sys) (hlength : tb.subpdus.length ≤ maxLcPerTb) :
    Ensures (OnlyStale sys₀ row₀)
      (fun tb' => ∃ row' sdus, tb'.subpdus = tb.subpdus ++ sdus ∧ tb'.subpdus.length ≤ maxLcPerTb ∧
        SdusAdded row₀ row tb.remTbs sdus row' tb'.remTbs ∧
        ∀ sdu ∈ sdus, ∃ ch, row₀.channel? .dl sdu.lcid = some ch ∧ ch.sliceId = some slice)
      (lcids.foldlM
        (fun tb lcid => do
          let sliceId ← tb.sys.getSliceId ue lcid
          if sliceId = some slice then LogicalChannelSystem.allocateMacSdus ue lcid tb else .ok tb)
        tb) := by
  induction lcids generalizing tb row with
  | nil => exact .ok ⟨row, [], (List.append_nil _).symm, hlength, .nil, nofun⟩
  | cons lcid lcids ih =>
    rw [List.foldlM_cons, getSliceId, h.getUe]
    dsimp only [pure, Except.pure]
    rw [ok_bind, ok_bind]
    split
    · rename_i hslice
      obtain ⟨ch, hch, hchSlice⟩ := Option.bind_eq_some_iff.mp hslice
      obtain ⟨ch₀, hch₀, -, hslice₀⟩ := h.channel hch
      refine (h.allocateMacSdus hlength).bind fun tb₁ htb₁ => ?_
      obtain ⟨row₁, sdus, hsdus⟩ := htb₁
      refine (ih hsdus.carried hsdus.length_le).mono fun tb₂ htb₂ => ?_
      obtain ⟨row₂, sdus', hsubpdus, hlength', hadded, hslices⟩ := htb₂
      refine ⟨row₂, sdus ++ sdus', ?_, hlength', hsdus.added.append hadded, ?_⟩
      · rw [hsubpdus, hsdus.subpdus_eq, List.append_assoc]
      · intro sdu hsdu
        rcases List.mem_append.mp hsdu with hsdu | hsdu
        · rw [hsdus.lcid_eq sdu hsdu]
          exact ⟨ch₀, hch₀, hslice₀.trans hchSlice⟩
        · exact hslices sdu hsdu
    · exact ih h hlength

theorem le_sduAllocBytes {pendingBytes : Nat}
    (hestim : getMacSduWithSubhdrAndRlcHdrEstim lcid 1 ≤ pendingBytes)
    (hrem : pendingBytes ≤ remBytes) (hne : pendingBytes ≠ 258) :
    pendingBytes ≤ sduAllocBytes lcid pendingBytes remBytes := by
  rw [sduAllocBytes, macSduSubheaderLengthThres, minMacSduSubheaderSize, max_eq_left hestim,
    min_eq_right hrem]
  split
  · split <;> omega
  · exact Nat.le_refl _

theorem getMacSduSize_mono {bytes bytes' : Nat} (h : bytes ≤ bytes') : getMacSduSize bytes ≤ getMacSduSize bytes' := by
  rw [getMacSduSize, getMacSduSize, macSduSubheaderLengthThres, minMacSduSubheaderSize]
  by_cases hzero : bytes = 0
  · rw [if_pos hzero]
    exact Nat.zero_le _
  · have hzero' : bytes' ≠ 0 := by omega
    rw [if_neg hzero, if_neg hzero']
    dsimp only
    split <;> split <;> omega

theorem le_getMacSduSize_srb0 {bufSt : Nat} (hpending : 0 < bufSt)
    (hrem : bufStBytes .dl lcidSrb0 bufSt ≤ remBytes) :
    bufSt ≤ getMacSduSize (sduAllocBytes lcidSrb0 (bufStBytes .dl lcidSrb0 bufSt) remBytes) := by
  have hestim : getMacSduWithSubhdrAndRlcHdrEstim lcidSrb0 1 = 3 := by decide
  have hbytes : bufStBytes .dl lcidSrb0 bufSt = bufSt + if bufSt ≥ 256 then 3 else 2 := by
    rw [bufStBytes, getMacSduRequiredBytes, getMacSduSubheaderSize, if_neg hpending.ne']
    rfl
  have hsize : getMacSduSize (bufStBytes .dl lcidSrb0 bufSt) = bufSt := by
    rw [hbytes, getMacSduSize, macSduSubheaderLengthThres, minMacSduSubheaderSize]
    split
    · rw [if_neg (by omega)]
      dsimp only
      rw [if_neg (by omega)]
      omega
    · rw [if_neg (by omega)]
      dsimp only
      rw [if_pos (by omega)]
      omega
  have halloc : bufStBytes .dl lcidSrb0 bufSt ≤
      sduAllocBytes lcidSrb0 (bufStBytes .dl lcidSrb0 bufSt) remBytes := by
    apply le_sduAllocBytes
    · rw [hestim, hbytes]
      split <;> omega
    · exact hrem
    · rw [hbytes]
      split <;> omega
  calc bufSt = getMacSduSize (bufStBytes .dl lcidSrb0 bufSt) := hsize.symm
    _ ≤ _ := getMacSduSize_mono halloc

theorem SdusOf.whole {tb tb' : TbState} {sdus : List DlMsgLcInfo}
    (h : SdusOf base ue sys₀ row₀ row lcidSrb0 tb tb' row' sdus)
    (hpending : 0 < row.buffers lcidSrb0)
    (hrem : bufStBytes .dl lcidSrb0 (row.buffers lcidSrb0) ≤ tb.remTbs) :
    ∀ sdu ∈ sdus, row.buffers lcidSrb0 ≤ sdu.schedBytes := by
  cases hsdus : sdus with
  | nil => exact nofun
  | cons first rest =>
    have hfirst := h.first first (by rw [hsdus]; rfl)
    have hle : row.buffers lcidSrb0 ≤ first.schedBytes := by
      rw [hfirst]
      exact le_getMacSduSize_srb0 hpending hrem
    have hlcid : ∀ sdu ∈ first :: rest, sdu.lcid = lcidSrb0 := hsdus ▸ h.lcid_eq
    have hrest : rest = [] := by
      have hbuffers := h.added.buffers
      rw [hsdus] at hbuffers
      cases rest with
      | nil => rfl
      | cons second rest =>
        have hsecond := hbuffers.2.1
        rw [hlcid second (by simp), buffersAfter, hlcid first (by simp), Function.update_self, bufStAfter,
          min_eq_right hle, Nat.sub_self] at hsecond
        exact absurd hsecond (by decide)
    intro sdu hsdu
    rw [hrest, List.mem_singleton] at hsdu
    rw [hsdu]
    exact hle

theorem Carried.conRes {tbSizeBytes : Nat} (h : Carried base ue sys₀ row₀ row sys) :
    Ensures (OnlyStale sys₀ row₀)
      (fun tb => ∃ row', CesOf base ue sys₀ row₀ row { remTbs := tbSizeBytes, sys } tb row'
        (conResChosen row tbSizeBytes))
      (allocateUeConResIdMacCes ue { remTbs := tbSizeBytes, sys }) := by
  have hroom : ([] : List DlMsgLcInfo).length < maxLcPerTb := by decide
  rw [allocateUeConResIdMacCes, if_pos hroom]
  refine h.allocateUeConResIdMacCe.bind fun r hr => .ok ?_
  rcases hr with ⟨hzero, hnone, hsame⟩ | ⟨hchosen, row', -, hadded⟩
  · rw [if_pos hzero, hnone, hsame]
    exact ⟨row, h, rfl, rfl, rfl, cesInOrder_nil hnone, Nat.zero_le _⟩
  · rw [if_neg hadded.pos.ne', hchosen]
    refine ⟨row', hadded.carried, hadded.side_eq, rfl, ?_, ?_, hroom⟩
    · rw [List.map_singleton, List.sum_singleton, hadded.bytes_eq]
      exact (Nat.sub_add_cancel hadded.le).symm
    · exact ⟨[], row.pendingCes, rfl, by rw [hchosen]; rfl⟩

/-- In every state of a run, TBs of a slice and in fallback are composed of CEs in order, as many as fit
for a UE that is not in fallback, and of SDUs of channels that have data, with exact sizes; the only
fault is a tracked channel without a row. -/
theorem dlTransportBlock_composed (h : Reaches step (fun _ _ => True) {} sys) (hrow : sys.ues.find? ue = some row)
    (tbSizeBytes : Nat) (slice : RanSliceId) :
    Ensures (OnlyStale sys row)
        (fun r => ∃ ces sdus, TbComposed row tbSizeBytes r.1 r.2.1 ces sdus ∧
          CesInOrder row tbSizeBytes ces ∧
          (row.fallbackState = false → NextCeRefused row tbSizeBytes maxLcPerTb ces) ∧
          ∀ sdu ∈ sdus, ∃ ch, row.channel? .dl sdu.lcid = some ch ∧ ch.sliceId = some slice)
        (sys.buildDlTransportBlockInfo ue tbSizeBytes slice) ∧
      Ensures (OnlyStale sys row)
        (fun r => ∃ sdus, TbComposed row tbSizeBytes r.1 r.2.1 (conResChosen row tbSizeBytes) sdus ∧
          ∀ sdu ∈ sdus, sdu.lcid = lcidSrb0 ∧ row.buffers lcidSrb0 ≤ sdu.schedBytes ∨ sdu.lcid = lcidSrb1)
        (sys.buildDlFallbackTransportBlockInfo ue tbSizeBytes) := by
  rcases (consistent_of_reaches h).row_cases ue with hnone | ⟨row', ces, hsound, hces, hview⟩
  · rw [hnone] at hrow
    cases hrow
  · have hbit : row'.fallbackState = false → CesBitSet sys ue row' := fun hactive hne =>
      (congrArg UeView.cesBit hview.view_self).trans (hces.reported hactive hne)
    have hsame : row' = row := Option.some.inj (hview.row_eq.symm.trans hrow)
    subst hsame
    have hstart := Carried.start hview hsound
    refine ⟨?_, ?_⟩
    · rw [buildDlTransportBlockInfo]
      have hroom : ([] : List DlMsgLcInfo).length < maxLcPerTb := by decide
      refine Ensures.bind (hstart.allocateMacCes hroom.le (.inr hroom)) fun tb₁ htb₁ => ?_
      obtain ⟨row₁, ces, hces, hrefused⟩ := htb₁
      rw [hces.carried.getUe, ok_bind]
      refine (hces.carried.allocateSlice hces.length_le).bind fun tb₂ htb₂ => .ok ?_
      obtain ⟨row₂, sdus, hsubpdus, hlength, hadded, hslices⟩ := htb₂
      exact ⟨ces, sdus, hces.composed hsubpdus hlength hadded, hces.inOrder,
        fun hactive => hrefused (hbit hactive), hslices⟩
    · rw [buildDlFallbackTransportBlockInfo]
      refine hstart.conRes.bind fun tb₁ htb₁ => ?_
      obtain ⟨row₁, hces⟩ := htb₁
      rw [hces.carried.getUe, ok_bind]
      dsimp only
      refine (hces.carried.allocateMacSdus hces.length_le).bind fun tb₂ htb₂ => .ok ?_
      obtain ⟨row₂, sdus, hsdus⟩ := htb₂
      refine ⟨sdus, hces.composed hsdus.subpdus_eq hsdus.length_le hsdus.added, fun sdu hsdu => ?_⟩
      have hlcid := hsdus.lcid_eq sdu hsdu
      split at hlcid
      · rename_i hwhole
        rw [if_pos hwhole] at hsdus
        obtain ⟨hpending, hbytes⟩ := UeRow.pending_of_hasPendingBytes hwhole.1
        rw [← buffers_congr hces.side_eq]
        exact .inl ⟨hlcid, hsdus.whole hpending (hbytes ▸ hwhole.2) sdu hsdu⟩
      · exact .inr hlcid

/-- A TA command and a segment of SRB1 in a TB of 20 bytes. -/
theorem dlTransportBlock_composed_taCmd : ∃ (sys : LogicalChannelSystem) (row : UeRow)
    (r : Nat × List DlMsgLcInfo × LogicalChannelSystem), sys.ues.find? 0 = some row ∧
    sys.buildDlTransportBlockInfo 0 20 srbRanSliceId = .ok r ∧ r.1 = 20 ∧
    ∃ ces sdus, TbComposed row 20 r.1 r.2.1 ces sdus ∧ CesInOrder row 20 ces ∧
      (row.fallbackState = false → NextCeRefused row 20 maxLcPerTb ces) ∧
      ∀ sdu ∈ sdus, ∃ ch, row.channel? .dl sdu.lcid = some ch ∧ ch.sliceId = some srbRanSliceId := by
  obtain ⟨sys, hrun, hobs⟩ : ∃ sys, runAll step {} (srb1Events false ++
        [.dlBufferStatus 0 lcidSrb1 100, .macCe 0 { ceLcid := LcidDlSch.taCmd }]) = some sys ∧
      ((sys.ues.find? 0).isSome,
        (sys.buildDlTransportBlockInfo 0 20 srbRanSliceId).toOption.map Prod.fst) = (true, some 20) :=
    Option.map_eq_some_iff.mp (by decide +kernel)
  rw [Prod.mk.injEq] at hobs
  obtain ⟨row, hrow⟩ := Option.isSome_iff_exists.mp hobs.1
  obtain ⟨r, hok, htotal⟩ := exists_ok_of_observed hobs.2
  have hreach := reaches_of_runAll .start (fun _ _ _ => trivial) hrun
  exact ⟨sys, row, r, hrow, hok, htotal, (dlTransportBlock_composed hreach hrow 20 srbRanSliceId).1.result hok⟩

/-- The contention resolution overtakes a TA command, and SRB0 is segmented once it is in a slice. -/
theorem dlTransportBlock_conResFirst :
    ((runAll step {} (srb1Events false ++ [.macCe 0 { ceLcid := LcidDlSch.taCmd },
        .macCe 0 { ceLcid := LcidDlSch.ueConResId }])).bind fun sys =>
      (sys.buildDlTransportBlockInfo 0 20 srbRanSliceId).toOption.map fun r => r.2.1.map DlMsgLcInfo.lcid) =
        some [LcidDlSch.ueConResId, LcidDlSch.taCmd] ∧
    ((runAll step {} [.createUe 0 1 false (some [{ lcid := lcidSrb0, lcGroup := 0 }]),
        .setRanSlice 0 .dl lcidSrb0 srbRanSliceId, .dlBufferStatus 0 lcidSrb0 100]).bind fun sys =>
      (sys.buildDlTransportBlockInfo 0 20 srbRanSliceId).toOption.map fun r =>
        r.2.1.map fun subpdu => (subpdu.lcid, subpdu.schedBytes)) = some [(lcidSrb0, 18)] := by
  decide +kernel

end LogicalChannelSystem
end Srsran.Scheduler
