import Srsran.Mac.UlSchPdu

/-! Decoding of the MAC CEs of the UL-SCH (`ul_bsr.cpp`, `ul_phr.h`) and handling of the received PDU
(`pdu_rx_handler.cpp`). Logs and the PCAP are left out. -/
namespace Srsran.Mac
open Srsran.Support LcidUlSch

inductive BsrFormat where
  | shortBsr
  | longBsr
  | shortTruncBsr
  | longTruncBsr
  deriving DecidableEq, Repr

def maxNofLcgs : Nat := 8

structure LcgBsrReport where
  lcgId : Nat
  bufferSize : Nat
  deriving DecidableEq, Repr

def decodeSbsr (payload : ByteView) : Except OutOfView LcgBsrReport := do
  let first ← payload.read 0
  return { lcgId := (first.toNat &&& 0xe0) >>> 5, bufferSize := first.toNat &&& 0x1f }

def emptyLbsrReport : List LcgBsrReport := (List.range maxNofLcgs).map (⟨·, 0⟩)

/-- The loop over the LCGs; `reader` is after the bytes read so far. -/
def lbsrLoop (format : BsrFormat) (bitmap : Nat) :
    List Nat → ByteView → Option (List LcgBsrReport)
  | [], _ => some []
  | i :: lcgs, reader =>
    if bitmap &&& (1 <<< i) ≠ 0 then
      match reader.bytes with
      | bufferSize :: _ =>
        if bufferSize.toNat = 255 then none
        else (lbsrLoop format bitmap lcgs (reader.advance 1)).map (⟨i, bufferSize.toNat⟩ :: ·)
      | [] =>
        if format = .longTruncBsr then (lbsrLoop format bitmap lcgs reader).map (⟨i, 64⟩ :: ·)
        else none
    else if format = .longTruncBsr then (lbsrLoop format bitmap lcgs reader).map (⟨i, 0⟩ :: ·)
    else lbsrLoop format bitmap lcgs reader

def decodeLbsr (format : BsrFormat) (payload : ByteView) :
    Except OutOfView (Option (List LcgBsrReport)) := do
  let bitmap ← payload.read 0
  if bitmap.toNat = 0 then return some emptyLbsrReport
  return lbsrLoop format bitmap.toNat (List.range maxNofLcgs) (payload.advance 1)

def phToDbRange (ph : Nat) : Int × Int :=
  if ph = 0 then (-32, -32)
  else if ph = 63 then (38, 38)
  else if ph < 55 then (-32 + ph - 1, -32 + ph)
  else (-32 + ph - 1, -32 + ph + 1)

def pCmaxToDbmRange (pCmax : Nat) : Int × Int :=
  if pCmax = 0 then (-29, -29)
  else if pCmax = 63 then (33, 33)
  else (-29 + pCmax - 1, -29 + pCmax)

structure CellPhReport where
  ph : Int × Int
  pCmax : Int × Int
  deriving DecidableEq, Repr

def decodeSePhr (payload : ByteView) : Except OutOfView CellPhReport := do
  let ph ← payload.read 0
  let pCmax ← payload.read 1
  return { ph := phToDbRange (ph.toNat &&& 0b00111111)
           pCmax := pCmaxToDbmRange (pCmax.toNat &&& 0b00111111) }

def invalidRnti : Nat := 0

def isCrnti (rnti : Nat) : Bool := rnti ≤ 0xffef && rnti ≥ 0x1

def decodeCrntiCe (payload : ByteView) : Except OutOfView Nat :=
  if payload.length < 2 then .ok invalidRnti
  else do
    let high ← payload.read 0
    let low ← payload.read 1
    return high.toNat <<< 8 ||| low.toNat

/-- What the handler tells the upper layers and the scheduler. -/
inductive UlPduNotification where
  | ulCcch (tcRnti : Nat) (sdu : List UInt8)
  | newSdu (ueIndex lcid : Nat) (sdu : List UInt8)
  | ulBsr (ueIndex rnti : Nat) (format : BsrFormat) (reports : List LcgBsrReport)
  | ulPhr (ueIndex rnti : Nat) (report : CellPhReport)
  | crntiCe (ueIndex : Nat)
  | ulSchedCommand (ueIndex rnti : Nat)
  deriving DecidableEq, Repr

/-- The UEs that the handler knows: the UE of an RNTI, and the bearers of a UE. -/
structure UlUeTable where
  rntiTable : Nat → Option Nat
  bearers : Nat → Option (List LcidUlSch)

/-- `decoded_mac_rx_pdu`; no UE index stands for an invalid one. -/
structure DecodedMacRxPdu where
  ueIndex : Option Nat
  rnti : Nat
  subpdus : List MacUlSchSubpdu

abbrev HandlerResult := Except OutOfView (Bool × List UlPduNotification)

namespace DecodedMacRxPdu

def handleSdu (ues : UlUeTable) (ctx : DecodedMacRxPdu) (sdu : MacUlSchSubpdu) : HandlerResult :=
  match ctx.ueIndex with
  | none => .ok (false, [])
  | some ueIndex =>
    match ues.bearers ueIndex with
    | none => .ok (false, [])
    | some lcids =>
      if sdu.lcid ∈ lcids then .ok (true, [.newSdu ueIndex sdu.lcid sdu.payload.bytes])
      else .ok (false, [])

def bsrFormatOf (lcid : LcidUlSch) : BsrFormat :=
  if lcid = LcidUlSch.shortBsr then .shortBsr
  else if lcid = LcidUlSch.shortTruncBsr then .shortTruncBsr
  else if lcid = LcidUlSch.longBsr then .longBsr
  else .longTruncBsr

/-- The BSR cases of `handle_mac_ce`. -/
def handleBsr (ctx : DecodedMacRxPdu) (subpdu : MacUlSchSubpdu) : HandlerResult :=
  match ctx.ueIndex with
  | none => .ok (false, [])
  | some ueIndex =>
    let format := bsrFormatOf subpdu.lcid
    if subpdu.lcid = LcidUlSch.shortBsr ∨ subpdu.lcid = LcidUlSch.shortTruncBsr then do
      let report ← decodeSbsr subpdu.payload
      return (true, [.ulBsr ueIndex ctx.rnti format [report]])
    else do
      match ← decodeLbsr format subpdu.payload with
      | none => return (false, [])
      | some reports => return (true, [.ulBsr ueIndex ctx.rnti format reports])

def handleMacCe (ctx : DecodedMacRxPdu) (subpdu : MacUlSchSubpdu) : HandlerResult :=
  if subpdu.lcid = ccchSize48 ∨ subpdu.lcid = ccchSize64 then .ok (ctx.ueIndex.isNone, [])
  else if subpdu.lcid = LcidUlSch.shortBsr ∨ subpdu.lcid = LcidUlSch.shortTruncBsr ∨
      subpdu.lcid = LcidUlSch.longBsr ∨ subpdu.lcid = LcidUlSch.longTruncBsr then
    ctx.handleBsr subpdu
  else if subpdu.lcid = LcidUlSch.crnti then do
    let rnti ← decodeCrntiCe subpdu.payload
    return (rnti = ctx.rnti, [])
  else if subpdu.lcid = sePhr then
    match ctx.ueIndex with
    | none => .ok (false, [])
    | some ueIndex => do
      let report ← decodeSePhr subpdu.payload
      return (true, [.ulPhr ueIndex ctx.rnti report])
  else .ok (true, [])

/-- The loop of `handle_rx_subpdus`, which ends at the first subPDU that is not handled. -/
def handleSubpdus (ues : UlUeTable) (ctx : DecodedMacRxPdu) :
    List MacUlSchSubpdu → HandlerResult
  | [] => .ok (true, [])
  | subpdu :: rest => do
    let (handled, notifications) ←
      if subpdu.lcid.isSdu then ctx.handleSdu ues subpdu else ctx.handleMacCe subpdu
    if !handled then return (false, notifications)
    let (all, others) ← handleSubpdus ues ctx rest
    return (all, notifications ++ others)

def handleRxSubpdus (ues : UlUeTable) (ctx : DecodedMacRxPdu) : HandlerResult :=
  ctx.handleSubpdus ues ctx.subpdus

def containsPositiveBsr : List MacUlSchSubpdu → Except OutOfView Bool
  | [] => .ok false
  | subpdu :: rest =>
    if subpdu.lcid = LcidUlSch.shortTruncBsr ∨ subpdu.lcid = LcidUlSch.shortBsr then do
      let report ← decodeSbsr subpdu.payload
      if report.bufferSize > 0 then return true
      containsPositiveBsr rest
    else if subpdu.lcid = LcidUlSch.longTruncBsr ∨ subpdu.lcid = LcidUlSch.longBsr then do
      match ← decodeLbsr (bsrFormatOf subpdu.lcid) subpdu.payload with
      | some reports =>
        if reports.any (·.bufferSize > 0) then return true
        containsPositiveBsr rest
      | none => containsPositiveBsr rest
    else containsPositiveBsr rest

/-- The task that `handle_crnti_ce` dispatches. -/
def continueCrntiCe (ues : UlUeTable) (ctx : DecodedMacRxPdu) (ueIndex : Nat) :
    Except OutOfView (List UlPduNotification) :=
  if (ues.bearers ueIndex).isNone then .ok []
  else do
    let (handled, notifications) ← ctx.handleRxSubpdus ues
    if !handled then return notifications
    let positive ← containsPositiveBsr ctx.subpdus
    return notifications ++ .crntiCe ueIndex ::
      (if positive then [] else [.ulSchedCommand ueIndex ctx.rnti])

/-- `handle_crnti_ce`. The UEs may have changed when the task runs; `none` is a full task queue. -/
def handleCrntiCe (ues : UlUeTable) (uesLater : Option UlUeTable) (ctx : DecodedMacRxPdu)
    (subpdu : MacUlSchSubpdu) : HandlerResult := do
  let rnti ← decodeCrntiCe subpdu.payload
  if !isCrnti rnti then return (false, [])
  match ues.rntiTable rnti, uesLater with
  | none, _ => return (false, [])
  | some _, none => return (true, [])
  | some ueIndex, some uesLater =>
    let notifications ←
      { ctx with rnti, ueIndex := some ueIndex : DecodedMacRxPdu }.continueCrntiCe uesLater ueIndex
    return (true, notifications)

def handleCcchMsg (ctx : DecodedMacRxPdu) (sdu : MacUlSchSubpdu) : HandlerResult :=
  .ok (true, [.ulCcch ctx.rnti sdu.payload.bytes])

/-- The subPDU that decides about a Msg3: the last C-RNTI CE or CCCH. -/
def msg3Subpdu (subpdus : List MacUlSchSubpdu) : Option MacUlSchSubpdu :=
  subpdus.reverse.find? fun subpdu =>
    subpdu.lcid = LcidUlSch.crnti || subpdu.lcid = ccchSize48 || subpdu.lcid = ccchSize64

/-- `handle_rx_pdu` after the PDU has been decoded. -/
def handle (ues : UlUeTable) (uesLater : Option UlUeTable) (ctx : DecodedMacRxPdu) :
    HandlerResult :=
  match ctx.ueIndex, msg3Subpdu ctx.subpdus with
  | none, some subpdu =>
    if subpdu.lcid = LcidUlSch.crnti then ctx.handleCrntiCe ues uesLater subpdu
    else ctx.handleCcchMsg subpdu
  | _, _ => ctx.handleRxSubpdus ues

end DecodedMacRxPdu

def handleRxPdu (ues : UlUeTable) (uesLater : Option UlUeTable) (rnti : Nat)
    (pdu : List UInt8) : HandlerResult :=
  match MacUlSchPdu.unpack pdu with
  | .error _ => .ok (false, [])
  | .ok subpdus =>
    DecodedMacRxPdu.handle ues uesLater { ueIndex := ues.rntiTable rnti, rnti, subpdus }

end Srsran.Mac
