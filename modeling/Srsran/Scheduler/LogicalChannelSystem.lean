import Mathlib.Logic.Function.Basic
import Srsran.Adt.SoaTable
import Srsran.Lib.OrdMap
import Srsran.Mac.DlSchPdu
import Srsran.Support.MovingAverager

/-! Logical channels of the UEs in the scheduler (`logical_channel_system.cpp`): configurations, buffer
states, MAC CEs, slices and tracked bit rates. Logical channels of the DL and logical channel groups of
the UL are handled alike, as one kind of channel with a direction. Failed assertions and lookups are
faults. -/
namespace Srsran.Scheduler
open Adt Mac Support

abbrev Lcid := Nat

abbrev LcgId := Nat

abbrev RanSliceId := Nat

def lcidSrb0 : Lcid := 0

def lcidSrb1 : Lcid := 1

def isSrb (lcid : Lcid) : Bool := lcid ≤ 3

def srbRanSliceId : RanSliceId := 0

def maxNofRbLcids : Nat := 33

def maxNofLcgs : Nat := 8

def maxRanSlicesPerUe : Nat := 8

inductive Direction where
  | dl
  | ul
  deriving DecidableEq

structure LogicalChannelQos where
  priority : Nat
  arpPriority : Nat
  averageWindowMs : Option Nat
  isGbr : Bool

structure LogicalChannelConfig where
  lcid : Lcid
  lcGroup : LcgId
  qos : Option LogicalChannelQos := none

def getLcPrio (cfg : LogicalChannelConfig) : Nat :=
  if isSrb cfg.lcid then if cfg.lcid ≤ lcidSrb1 then 0 else 1
  else
    match cfg.qos with
    | some qos => qos.priority * qos.arpPriority
    | none => 127 * 15

structure MacCeInfo where
  ceLcid : LcidDlSch
  cePayload : Option DlSchPdu.TaCmdCePayload := none
  deriving DecidableEq

/-- `qos_context` and `lcg_qos_context`; only the latter counts the bytes since the last BSR. -/
structure QosContext where
  lastSchedBytes : Nat := 0
  schedBytesAccum : Nat := 0
  avgBytesPerSlot : MovingAverager := {}

/-- `dl_logical_channel_context` and `ul_logical_channel_group_context`; only the latter counts its
LCIDs. -/
structure ChannelContext where
  active : Bool := false
  lcCount : Nat := 0
  bufSt : Nat := 0
  qosRow : Option RowId := none
  sliceId : Option RanSliceId := none

/-- The channels of a UE in one direction, and the bytes pending in each of its slices. -/
structure UeSide where
  channels : OrdMap Nat ChannelContext := .empty
  pendingBytesPerSlice : OrdMap RanSliceId Nat := .empty

/-- The row of a UE; the linked list of its CEs is in `pendingCes`. -/
structure UeRow where
  slotsPerMsec : Nat
  channelConfigs : Option (List LogicalChannelConfig) := none
  pendingCes : List MacCeInfo := []
  sortedChannels : List Lcid := []
  side : Direction → UeSide := fun _ => {}
  fallbackState : Bool
  pendingConResId : Bool := false
  pendingCeBytes : Nat := 0

/-- `ran_slice_context`: `pending_dl_ues` and `pending_ul_ues`. -/
structure RanSliceContext where
  pendingUes : Direction → List Bool

inductive LcFault where
  | duplicateUe
  | unknownUe
  | bitOutOfBounds
  | unknownSlice
  | unknownChannel
  | invalidSlicePendingBytes
  | tooManyEntries
  | lcidsInLcg
  | invalidRowId
  | noAverageWindow
  | emptyWindow
  deriving DecidableEq

structure LogicalChannelSystem where
  configuredUes : List Bool := []
  uesWithPendingCes : List Bool := []
  uesWithPendingSr : List Bool := []
  slices : OrdMap RanSliceId RanSliceContext := .empty
  qos : Direction → SoaTable QosContext := fun _ => {}
  ues : OrdMap Nat UeRow := .empty

def testBit (bits : List Bool) (pos : Nat) : Bool := bits.getD pos false

def setBit (bits : List Bool) (pos : Nat) (value : Bool) : Except LcFault (List Bool) :=
  if pos < bits.length then .ok (bits.set pos value) else .error .bitOutOfBounds

def resizeBits (bits : List Bool) (size : Nat) : List Bool :=
  (bits ++ List.replicate size false).take size

/-- The new size of `remove_ue`, without the zeros at the end. -/
def strippedSize (bits : List Bool) : Nat := (bits.reverse.dropWhile fun bit => !bit).length

def rlcSegmentationOverhead : Nat := 3

def rlcHeaderSizeEstimate : Nat := 3

def fixedSizedMacCeSubheaderSize : Nat := 1

def maxBufferStatus : Nat := 2 ^ 24

def getMacSduWithSubhdrAndRlcHdrEstim (lcid : Lcid) (payload : Nat) : Nat :=
  getMacSduRequiredBytes
    (payload + if lcid ≠ lcidSrb0 ∧ payload > 0 then rlcSegmentationOverhead else 0)

def getMacSduSize (sduAndSubheaderBytes : Nat) : Nat :=
  if sduAndSubheaderBytes = 0 then 0
  else
    let sduSize := sduAndSubheaderBytes - minMacSduSubheaderSize
    if sduSize < macSduSubheaderLengthThres then sduSize else sduSize - 1

def addUpperLayerHeaderBytes (lcgid : LcgId) (payloadBytes : Nat) : Nat :=
  if payloadBytes = 0 ∨ lcgid = 0 then payloadBytes else payloadBytes + rlcHeaderSizeEstimate

def bufStBytes (d : Direction) (id bufSt : Nat) : Nat :=
  match d with
  | .dl => getMacSduRequiredBytes bufSt
  | .ul => getMacSduRequiredBytes (addUpperLayerHeaderBytes id bufSt)

def ceBytes (lcid : LcidDlSch) : Nat := fixedSizedMacCeSubheaderSize + LcidDlSch.sizeofCe lcid

namespace UeRow

def updateSide (row : UeRow) (d : Direction) (f : UeSide → UeSide) : UeRow :=
  { row with side := Function.update row.side d (f (row.side d)) }

def channel? (row : UeRow) (d : Direction) (id : Nat) : Option ChannelContext :=
  (row.side d).channels.find? id

def setChannel (row : UeRow) (d : Direction) (id : Nat) (ch : ChannelContext) : UeRow :=
  row.updateSide d fun side => { side with channels := side.channels.insert id ch }

def pending? (row : UeRow) (d : Direction) (slice : RanSliceId) : Option Nat :=
  (row.side d).pendingBytesPerSlice.find? slice

def setPending (row : UeRow) (d : Direction) (slice : RanSliceId) (bytes : Nat) : UeRow :=
  row.updateSide d fun side =>
    { side with pendingBytesPerSlice := side.pendingBytesPerSlice.insert slice bytes }

def findActive (row : UeRow) (d : Direction) (id : Nat) : Option ChannelContext :=
  (row.channel? d id).filter ChannelContext.active

def hasPendingBytes (row : UeRow) (d : Direction) (id : Nat) : Bool :=
  (row.findActive d id).any fun ch => ch.bufSt > 0

def pendingBytes (row : UeRow) (d : Direction) (id : Nat) : Nat :=
  match row.findActive d id with
  | some ch => bufStBytes d id ch.bufSt
  | none => 0

end UeRow

namespace LogicalChannelSystem

def getUe (sys : LogicalChannelSystem) (ue : Nat) : Except LcFault UeRow :=
  match sys.ues.find? ue with
  | some row => .ok row
  | none => .error .unknownUe

def setUe (sys : LogicalChannelSystem) (ue : Nat) (row : UeRow) : LogicalChannelSystem :=
  { sys with ues := sys.ues.insert ue row }

def setQos (sys : LogicalChannelSystem) (d : Direction) (table : SoaTable QosContext) :
    LogicalChannelSystem :=
  { sys with qos := Function.update sys.qos d table }

def updateQos (sys : LogicalChannelSystem) (d : Direction) (rid : RowId) (f : QosContext → QosContext) :
    Except LcFault LogicalChannelSystem :=
  match (sys.qos d).row? rid with
  | some ctx => .ok (sys.setQos d ((sys.qos d).set rid (f ctx)))
  | none => .error .invalidRowId

def eraseQos (sys : LogicalChannelSystem) (d : Direction) (qosRow : Option RowId) :
    LogicalChannelSystem :=
  match qosRow with
  | some rid => sys.setQos d ((sys.qos d).erase rid)
  | none => sys

def setPendingUe (sys : LogicalChannelSystem) (d : Direction) (slice : RanSliceId) (ue : Nat)
    (value : Bool) : Except LcFault LogicalChannelSystem :=
  match sys.slices.find? slice with
  | none => .error .unknownSlice
  | some ctx => do
    let bits ← setBit (ctx.pendingUes d) ue value
    .ok
      { sys with
        slices := sys.slices.insert slice { pendingUes := Function.update ctx.pendingUes d bits } }

def setPendingCesBit (sys : LogicalChannelSystem) (ue : Nat) (value : Bool) :
    Except LcFault LogicalChannelSystem := do
  let bits ← setBit sys.uesWithPendingCes ue value
  return { sys with uesWithPendingCes := bits }

def setPendingSrBit (sys : LogicalChannelSystem) (ue : Nat) (value : Bool) :
    Except LcFault LogicalChannelSystem := do
  let bits ← setBit sys.uesWithPendingSr ue value
  return { sys with uesWithPendingSr := bits }

/-- `on_single_channel_buf_st_update` and `on_single_lcg_buf_st_update`. Only the latter asserts that
the bytes do not become negative. -/
def onBufStUpdate (sys : LogicalChannelSystem) (ue : Nat) (d : Direction) (id : Nat)
    (channelActive : Bool) (sliceId : Option RanSliceId) (newBufSt prevBufSt : Nat) :
    Except LcFault LogicalChannelSystem :=
  match sliceId with
  | none => .ok sys
  | some slice => do
    let row ← sys.getUe ue
    if !channelActive || row.fallbackState then
      return sys
    else
      match row.pending? d slice with
      | none => throw .unknownSlice
      | some prevPending =>
        if d = .ul ∧ (prevPending + bufStBytes d id newBufSt) % 2 ^ 32 < bufStBytes d id prevBufSt then
          throw .invalidSlicePendingBytes
        else
          let pending :=
            (prevPending + 2 ^ 32 + bufStBytes d id newBufSt - bufStBytes d id prevBufSt) % 2 ^ 32
          let sys := sys.setUe ue (row.setPending d slice pending)
          if decide (prevPending > 0) ≠ decide (pending > 0) then
            sys.setPendingUe d slice ue (decide (pending > 0))
          else
            return sys

def deregisterRanSlice (sys : LogicalChannelSystem) (ue : Nat) (d : Direction) (id : Nat) :
    Except LcFault LogicalChannelSystem := do
  let row ← sys.getUe ue
  match row.channel? d id with
  | none => return sys
  | some ch =>
    let sys ← sys.onBufStUpdate ue d id ch.active ch.sliceId 0 ch.bufSt
    match ch.sliceId with
    | none => return sys
    | some prevSlice =>
      let row ← sys.getUe ue
      let row := row.setChannel d id { ch with sliceId := none }
      if (row.side d).channels.entries.all fun e => e.2.sliceId ≠ some prevSlice then
        return sys.setUe ue (row.updateSide d fun side =>
          { side with pendingBytesPerSlice := side.pendingBytesPerSlice.erase prevSlice })
      else
        return sys.setUe ue row

def createSlice (sys : LogicalChannelSystem) (ue : Nat) (d : Direction) (slice : RanSliceId) :
    Except LcFault LogicalChannelSystem := do
  let row ← sys.getUe ue
  if (row.side d).pendingBytesPerSlice.contains slice then
    return sys
  else if (row.side d).pendingBytesPerSlice.size ≥ maxRanSlicesPerUe then
    throw .tooManyEntries
  else
    let sys :=
      { sys with
        slices := sys.slices.emplace slice
          { pendingUes := fun _ => List.replicate sys.configuredUes.length false } }
    return sys.setUe ue (row.setPending d slice 0)

def setRanSlice (sys : LogicalChannelSystem) (ue : Nat) (d : Direction) (id : Nat)
    (slice : RanSliceId) : Except LcFault LogicalChannelSystem := do
  let row ← sys.getUe ue
  match row.channel? d id with
  | none => throw .unknownChannel
  | some ch =>
    if ch.sliceId = some slice then
      return sys
    else
      let sys ← sys.deregisterRanSlice ue d id
      let sys ← sys.createSlice ue d slice
      let row ← sys.getUe ue
      let sys := sys.setUe ue (row.setChannel d id { ch with sliceId := some slice })
      sys.onBufStUpdate ue d id ch.active (some slice) ch.bufSt 0

/-- What entering fallback and deactivation do with the bits of the slices of a UE. -/
def resetSliceBits (sys : LogicalChannelSystem) (ue : Nat) (d : Direction) :
    Except LcFault LogicalChannelSystem := do
  let row ← sys.getUe ue
  (row.side d).pendingBytesPerSlice.entries.foldlM
    (fun sys e => if e.2 > 0 then sys.setPendingUe d e.1 ue false else .ok sys) sys

def clearPending (sys : LogicalChannelSystem) (ue : Nat) (d : Direction) :
    Except LcFault LogicalChannelSystem := do
  let sys ← sys.resetSliceBits ue d
  let row ← sys.getUe ue
  return sys.setUe ue (row.updateSide d fun side =>
    { side with pendingBytesPerSlice := side.pendingBytesPerSlice.mapValues fun _ _ => 0 })

def recomputePending (sys : LogicalChannelSystem) (ue : Nat) (d : Direction) :
    Except LcFault LogicalChannelSystem := do
  let row ← sys.getUe ue
  (row.side d).channels.entries.foldlM
    (fun sys e => sys.onBufStUpdate ue d e.1 e.2.active e.2.sliceId e.2.bufSt 0) sys

def setFallbackState (sys : LogicalChannelSystem) (ue : Nat) (enterFallback : Bool) :
    Except LcFault LogicalChannelSystem := do
  let row ← sys.getUe ue
  if row.fallbackState = enterFallback then
    return sys
  else
    let sys := sys.setUe ue { row with fallbackState := enterFallback }
    if enterFallback then
      let sys ← sys.clearPending ue .dl
      let sys ← sys.setPendingCesBit ue false
      sys.clearPending ue .ul
    else
      let sys ← sys.recomputePending ue .dl
      let sys ← if row.pendingCes ≠ [] then sys.setPendingCesBit ue true else .ok sys
      sys.recomputePending ue .ul

def removeLcg (sys : LogicalChannelSystem) (ue : Nat) (lcgid : LcgId) (lcg : ChannelContext) :
    Except LcFault LogicalChannelSystem :=
  if lcg.lcCount ≠ 0 then .error .lcidsInLcg
  else do
    let sys ← (sys.eraseQos .ul lcg.qosRow).deregisterRanSlice ue .ul lcgid
    let row ← sys.getUe ue
    return sys.setUe ue (row.updateSide .ul fun side =>
      { side with channels := side.channels.erase lcgid })

/-- One LCID less in a group, which is removed under the given ID without any. -/
def releaseLcg (sys : LogicalChannelSystem) (ue : Nat) (lcgid removed : LcgId) :
    Except LcFault LogicalChannelSystem := do
  let row ← sys.getUe ue
  match row.channel? .ul lcgid with
  | none => throw .unknownChannel
  | some lcg =>
    let lcg := { lcg with lcCount := (lcg.lcCount + 255) % 2 ^ 8 }
    let sys := sys.setUe ue (row.setChannel .ul lcgid lcg)
    if lcg.lcCount = 0 then sys.removeLcg ue removed lcg else return sys

def removeChannel (sys : LogicalChannelSystem) (ue : Nat) (oldLc : LogicalChannelConfig) :
    Except LcFault LogicalChannelSystem := do
  let row ← sys.getUe ue
  match row.channel? .dl oldLc.lcid with
  | none => throw .unknownChannel
  | some ch =>
    let sys ← (sys.eraseQos .dl ch.qosRow).deregisterRanSlice ue .dl oldLc.lcid
    let row ← sys.getUe ue
    let sys := sys.setUe ue (row.updateSide .dl fun side =>
      { side with channels := side.channels.erase oldLc.lcid })
    sys.releaseLcg ue oldLc.lcGroup oldLc.lcGroup

def emplaceChannel (sys : LogicalChannelSystem) (ue : Nat) (d : Direction) (id : Nat)
    (ch : ChannelContext) : Except LcFault LogicalChannelSystem := do
  let row ← sys.getUe ue
  if (row.side d).channels.size ≥ (match d with | .dl => maxNofRbLcids | .ul => maxNofLcgs) then
    throw .tooManyEntries
  else
    return sys.setUe ue (row.setChannel d id ch)

def activate (sys : LogicalChannelSystem) (ue : Nat) (d : Direction) (id : Nat) :
    Except LcFault LogicalChannelSystem := do
  let row ← sys.getUe ue
  match row.channel? d id with
  | none => throw .unknownChannel
  | some ch =>
    let sys ← if ch.active then .ok sys else sys.onBufStUpdate ue d id true ch.sliceId ch.bufSt 0
    let row ← sys.getUe ue
    return sys.setUe ue (row.setChannel d id { ch with active := true })

def trackQos (sys : LogicalChannelSystem) (ue : Nat) (d : Direction) (id winSizeMsec : Nat) :
    Except LcFault LogicalChannelSystem := do
  let row ← sys.getUe ue
  match row.channel? d id with
  | none => throw .unknownChannel
  | some ch =>
    let resized := fun ctx : QosContext =>
      { ctx with
        avgBytesPerSlot := ctx.avgBytesPerSlot.resize ((winSizeMsec * row.slotsPerMsec) % 2 ^ 32) }
    match ch.qosRow with
    | some rid => sys.updateQos d rid resized
    | none =>
      let inserted := (sys.qos d).insert {}
      let sys := (sys.setQos d inserted.2).setUe ue
        (row.setChannel d id { ch with qosRow := some inserted.1 })
      sys.updateQos d inserted.1 resized

def untrackQos (sys : LogicalChannelSystem) (ue : Nat) (d : Direction) (id : Nat) :
    Except LcFault LogicalChannelSystem := do
  let row ← sys.getUe ue
  match row.channel? d id with
  | none => throw .unknownChannel
  | some ch =>
    return (sys.eraseQos d ch.qosRow).setUe ue (row.setChannel d id { ch with qosRow := none })

def configureQos (sys : LogicalChannelSystem) (ue : Nat) (cfg : LogicalChannelConfig) :
    Except LcFault LogicalChannelSystem :=
  match cfg.qos.filter fun qos => !isSrb cfg.lcid && qos.isGbr with
  | some qos =>
    match qos.averageWindowMs with
    | none => .error .noAverageWindow
    | some winSizeMsec => do
      let sys ← sys.trackQos ue .dl cfg.lcid winSizeMsec
      sys.trackQos ue .ul cfg.lcGroup winSizeMsec
  | none => do
    let sys ← sys.untrackQos ue .dl cfg.lcid
    sys.untrackQos ue .ul cfg.lcGroup

/-- An LCID counts in its group. When it comes from another group that has no LCIDs then, the new group
is removed. -/
def configureLcg (sys : LogicalChannelSystem) (ue : Nat) (oldCfgs : Option (List LogicalChannelConfig))
    (cfg : LogicalChannelConfig) (newCh : Bool) : Except LcFault LogicalChannelSystem := do
  let row ← sys.getUe ue
  match row.channel? .ul cfg.lcGroup with
  | none => sys.emplaceChannel ue .ul cfg.lcGroup { lcCount := 1 }
  | some lcg =>
    let incremented :=
      sys.setUe ue (row.setChannel .ul cfg.lcGroup { lcg with lcCount := (lcg.lcCount + 1) % 2 ^ 8 })
    if newCh then
      return incremented
    else
      match oldCfgs with
      | none => return sys
      | some oldCfgs =>
        match oldCfgs.find? fun old => old.lcid = cfg.lcid with
        | none => throw .unknownChannel
        | some old =>
          if old.lcGroup = cfg.lcGroup then
            return sys
          else
            incremented.releaseLcg ue old.lcGroup cfg.lcGroup

def configureChannel (sys : LogicalChannelSystem) (ue : Nat) (oldCfgs : Option (List LogicalChannelConfig))
    (cfg : LogicalChannelConfig) : Except LcFault LogicalChannelSystem := do
  let row ← sys.getUe ue
  let newCh := (row.channel? .dl cfg.lcid).isNone
  let sys ← if newCh then sys.emplaceChannel ue .dl cfg.lcid {} else .ok sys
  let sys ← sys.configureLcg ue oldCfgs cfg newCh
  let sys ← sys.activate ue .dl cfg.lcid
  let sys ← sys.activate ue .ul cfg.lcGroup
  sys.configureQos ue cfg

def configure (sys : LogicalChannelSystem) (ue : Nat) (cfgs : List LogicalChannelConfig) :
    Except LcFault LogicalChannelSystem := do
  let row ← sys.getUe ue
  let oldCfgs := row.channelConfigs
  let sys := sys.setUe ue { row with channelConfigs := some cfgs }
  let sys ← (oldCfgs.getD []).foldlM
    (fun sys oldLc =>
      if cfgs.any fun cfg => cfg.lcid = oldLc.lcid then .ok sys else sys.removeChannel ue oldLc) sys
  let sys ← cfgs.foldlM (fun sys cfg => sys.configureChannel ue oldCfgs cfg) sys
  let row ← sys.getUe ue
  return sys.setUe ue
    { row with
      sortedChannels := (cfgs.mergeSort fun lhs rhs => getLcPrio lhs ≤ getLcPrio rhs).map
        LogicalChannelConfig.lcid }

/-- All channels of a UE are detached. Their rows in the tables are erased, but not their row IDs. -/
def detachChannels (sys : LogicalChannelSystem) (ue : Nat) (d : Direction) :
    Except LcFault LogicalChannelSystem := do
  let row ← sys.getUe ue
  let sys := (row.side d).channels.entries.foldl (fun sys e => sys.eraseQos d e.2.qosRow) sys
  return sys.setUe ue (row.updateSide d fun side =>
    { side with channels := side.channels.mapValues fun _ ch => { ch with sliceId := none, active := false } })

def removeSlices (sys : LogicalChannelSystem) (ue : Nat) (d : Direction) :
    Except LcFault LogicalChannelSystem := do
  let sys ← sys.resetSliceBits ue d
  let row ← sys.getUe ue
  return sys.setUe ue (row.updateSide d fun side => { side with pendingBytesPerSlice := .empty })

def deactivate (sys : LogicalChannelSystem) (ue : Nat) : Except LcFault LogicalChannelSystem := do
  let row ← sys.getUe ue
  let sys := sys.setUe ue { row with pendingConResId := false, pendingCes := [], pendingCeBytes := 0 }
  let sys ← sys.setPendingCesBit ue false
  let sys ← sys.setPendingSrBit ue false
  let sys ← sys.detachChannels ue .dl
  let sys ← sys.detachChannels ue .ul
  let sys ← sys.removeSlices ue .dl
  let sys ← sys.removeSlices ue .ul
  let row ← sys.getUe ue
  return sys.setUe ue { row with sortedChannels := [] }

def resize (sys : LogicalChannelSystem) (size : Nat) : LogicalChannelSystem :=
  { sys with
    configuredUes := resizeBits sys.configuredUes size
    uesWithPendingCes := resizeBits sys.uesWithPendingCes size
    uesWithPendingSr := resizeBits sys.uesWithPendingSr size
    slices := sys.slices.mapValues fun _ ctx =>
      { pendingUes := fun d => resizeBits (ctx.pendingUes d) size } }

def createUe (sys : LogicalChannelSystem) (ue slotsPerMsec : Nat) (startsInFallback : Bool)
    (logChannelsConfigs : Option (List LogicalChannelConfig)) : Except LcFault LogicalChannelSystem :=
  if testBit sys.configuredUes ue then .error .duplicateUe
  else do
    let sys := sys.setUe ue { slotsPerMsec, fallbackState := startsInFallback }
    let sys := if sys.configuredUes.length ≤ ue then sys.resize (ue + 1) else sys
    let bits ← setBit sys.configuredUes ue true
    let sys := { sys with configuredUes := bits }
    match logChannelsConfigs with
    | some cfgs => sys.configure ue cfgs
    | none => return sys

def removeUe (sys : LogicalChannelSystem) (ue : Nat) : Except LcFault LogicalChannelSystem := do
  let sys ← sys.deactivate ue
  let sys := { sys with ues := sys.ues.erase ue }
  let bits ← setBit sys.configuredUes ue false
  let sys := { sys with configuredUes := bits }
  return if sys.configuredUes.length ≠ strippedSize bits then sys.resize (strippedSize bits) else sys

/-- All averages get a sample for the last slot; those of the groups do not. -/
def slotIndication (sys : LogicalChannelSystem) : Except LcFault LogicalChannelSystem := do
  let rows ← (sys.qos .dl).rows.mapM fun row =>
    match row.2.avgBytesPerSlot.push row.2.lastSchedBytes with
    | none => Except.error LcFault.emptyWindow
    | some avgBytesPerSlot => .ok (row.1, { row.2 with lastSchedBytes := 0, avgBytesPerSlot })
  return sys.setQos .dl { sys.qos .dl with rows }

def updateBufSt (sys : LogicalChannelSystem) (ue : Nat) (d : Direction) (id : Nat) (ch : ChannelContext)
    (bufSt : Nat) : Except LcFault LogicalChannelSystem := do
  let row ← sys.getUe ue
  let sys := sys.setUe ue (row.setChannel d id { ch with bufSt })
  sys.onBufStUpdate ue d id ch.active ch.sliceId bufSt ch.bufSt

def handleDlBufferStatusIndication (sys : LogicalChannelSystem) (ue : Nat) (lcid : Lcid)
    (bufferStatus : Nat) : Except LcFault LogicalChannelSystem := do
  let row ← sys.getUe ue
  match row.channel? .dl lcid with
  | none => return sys
  | some ch => sys.updateBufSt ue .dl lcid ch (min bufferStatus maxBufferStatus)

def maxShortBsr : Nat := 150000

/-- One LCG of a BSR. A short BSR above its largest bounded value does not replace another such value. -/
def handleLcgReport (ue : Nat) (isLongBsr : Bool) (sys : LogicalChannelSystem)
    (lcgReport : LcgId × Nat) : Except LcFault LogicalChannelSystem := do
  let row ← sys.getUe ue
  match row.channel? .ul lcgReport.1 with
  | none => return sys
  | some lcg =>
    if isLongBsr ∨ lcg.bufSt ≤ maxShortBsr ∨ lcgReport.2 ≤ maxShortBsr then
      let sys ←
        match lcg.qosRow with
        | some rid => sys.updateQos .ul rid fun ctx => { ctx with schedBytesAccum := 0 }
        | none => .ok sys
      sys.updateBufSt ue .ul lcgReport.1 lcg (min lcgReport.2 maxBufferStatus)
    else
      return sys

def handleBsrIndication (sys : LogicalChannelSystem) (ue : Nat) (isLongBsr : Bool)
    (reportedLcgs : List (LcgId × Nat)) : Except LcFault LogicalChannelSystem :=
  reportedLcgs.foldlM (handleLcgReport ue isLongBsr) sys

def handleSrIndication (sys : LogicalChannelSystem) (ue : Nat) : Except LcFault LogicalChannelSystem :=
  sys.setPendingSrBit ue true

def handleMacCeIndication (sys : LogicalChannelSystem) (ue : Nat) (ce : MacCeInfo) :
    Except LcFault LogicalChannelSystem := do
  let row ← sys.getUe ue
  if ce.ceLcid = LcidDlSch.ueConResId then
    return sys.setUe ue { row with pendingConResId := true }
  else
    match row.pendingCes.findIdx? fun ctx => ce.ceLcid = LcidDlSch.taCmd ∧ ctx.ceLcid = LcidDlSch.taCmd with
    | some i =>
      return sys.setUe ue
        { row with pendingCes := row.pendingCes.modify i fun ctx => { ctx with cePayload := ce.cePayload } }
    | none =>
      let sys := sys.setUe ue
        { row with
          pendingCes := row.pendingCes ++ [ce]
          pendingCeBytes := (row.pendingCeBytes + ceBytes ce.ceLcid) % 2 ^ 32 }
      sys.setPendingCesBit ue true

/-- The bytes of a grant for one LCG, as far as its data is not scheduled. -/
def grantToLcg (state : Nat × LogicalChannelSystem) (e : LcgId × ChannelContext) :
    Except LcFault (Nat × LogicalChannelSystem) :=
  match e.2.qosRow with
  | none => .ok state
  | some rid =>
    if state.1 > 0 ∧ e.2.active ∧ e.2.bufSt > 0 then
      match (state.2.qos .ul).row? rid with
      | none => .error .invalidRowId
      | some ctx =>
        if e.2.bufSt > ctx.schedBytesAccum then do
          let bytesSched := min (e.2.bufSt - ctx.schedBytesAccum) state.1
          let sys ← state.2.updateQos .ul rid fun ctx =>
            { ctx with
              lastSchedBytes := (ctx.lastSchedBytes + bytesSched) % 2 ^ 32
              schedBytesAccum := (ctx.schedBytesAccum + bytesSched) % 2 ^ 32 }
          return (state.1 - bytesSched, sys)
        else .ok state
    else .ok state

def handleUlGrant (sys : LogicalChannelSystem) (ue grantSize : Nat) :
    Except LcFault LogicalChannelSystem := do
  let sys ← sys.setPendingSrBit ue false
  let row ← sys.getUe ue
  let state ← (row.side .ul).channels.entries.foldlM grantToLcg (grantSize, sys)
  return state.2

/-- The subPDU before an allocation; 33 is `MIN_RESERVED`. -/
def noSubpdu : DlMsgLcInfo := { lcid := 33 }

/-- The bytes of `allocate_mac_sdu` for what is pending, with the MAC subheader. -/
def sduAllocBytes (lcid : Lcid) (pendingBytes remBytes : Nat) : Nat :=
  let lchBytes := max pendingBytes (getMacSduWithSubhdrAndRlcHdrEstim lcid 1)
  let allocBytes := min remBytes lchBytes
  let leftoverBytes := remBytes - allocBytes
  let allocBytes := if leftoverBytes > 0 ∧ leftoverBytes ≤ 5 then allocBytes + leftoverBytes else allocBytes
  if allocBytes = macSduSubheaderLengthThres + minMacSduSubheaderSize then allocBytes - 1 else allocBytes

def bufStAfter (lcid : Lcid) (bufSt lastSchedBytes : Nat) : Nat :=
  let newBufSt := bufSt - lastSchedBytes
  if lcid ≠ lcidSrb0 ∧ newBufSt > 0 then newBufSt + rlcSegmentationOverhead else newBufSt

/-- `allocate_mac_sdu` for a given LCID: the bytes with the MAC subheader, and the subPDU. -/
def allocateMacSdu (sys : LogicalChannelSystem) (ue : Nat) (remBytes : Nat) (lcid : Lcid) :
    Except LcFault (Nat × DlMsgLcInfo × LogicalChannelSystem) := do
  if remBytes < getMacSduWithSubhdrAndRlcHdrEstim lcid 1 then
    return (0, noSubpdu, sys)
  else
    let row ← sys.getUe ue
    match row.findActive .dl lcid with
    | none => return (0, noSubpdu, sys)
    | some ch =>
      if bufStBytes .dl lcid ch.bufSt = 0 then
        return (0, noSubpdu, sys)
      else
        let allocBytes := sduAllocBytes lcid (bufStBytes .dl lcid ch.bufSt) remBytes
        let sduSize := getMacSduSize allocBytes
        let lastSchedBytes := min sduSize ch.bufSt
        let sys ← sys.updateBufSt ue .dl lcid ch (bufStAfter lcid ch.bufSt lastSchedBytes)
        let sys ←
          match ch.qosRow with
          | some rid => sys.updateQos .dl rid fun ctx => { ctx with lastSchedBytes }
          | none => .ok sys
        return (allocBytes, { lcid, schedBytes := sduSize }, sys)

def allocateUeConResIdMacCe (sys : LogicalChannelSystem) (ue remBytes : Nat) :
    Except LcFault (Nat × DlMsgLcInfo × LogicalChannelSystem) := do
  let row ← sys.getUe ue
  let allocBytes := ceBytes LcidDlSch.ueConResId
  if row.pendingConResId = true ∧ allocBytes ≤ remBytes then
    .ok
      (allocBytes,
        { lcid := LcidDlSch.ueConResId, schedBytes := LcidDlSch.sizeofCe LcidDlSch.ueConResId },
        sys.setUe ue { row with pendingConResId := false })
  else
    return (0, noSubpdu, sys)

def allocateMacCe (sys : LogicalChannelSystem) (ue remBytes : Nat) :
    Except LcFault (Nat × DlMsgLcInfo × LogicalChannelSystem) := do
  let conRes ← sys.allocateUeConResIdMacCe ue remBytes
  if conRes.1 > 0 then
    return conRes
  else
    let row ← sys.getUe ue
    match row.pendingCes with
    | [] => return (0, noSubpdu, sys)
    | ce :: rest =>
      let allocBytes := ceBytes ce.ceLcid
      if remBytes < allocBytes then
        return (0, noSubpdu, sys)
      else
        let sys := sys.setUe ue
          { row with
            pendingCes := rest
            pendingCeBytes := (row.pendingCeBytes + 2 ^ 32 - allocBytes) % 2 ^ 32 }
        let sys ← if rest = [] then sys.setPendingCesBit ue false else .ok sys
        .ok
          (allocBytes,
            { lcid := ce.ceLcid, schedBytes := LcidDlSch.sizeofCe ce.ceLcid, cePayload := ce.cePayload },
            sys)

end LogicalChannelSystem
end Srsran.Scheduler
