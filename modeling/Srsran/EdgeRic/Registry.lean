import Srsran.Lib.OrdMap

/-! Registry of the EdgeRIC agent (`edgeric.cpp`): metrics of MAC, RLC, PDCP and GTP-U, the identities
that relate them, the control values received, and the export for each TTI. Every function is one step;
the counters of the MAC have 32 bits. -/
namespace Srsran
namespace EdgeRic

abbrev Rnti := Nat

/-- `ue_drb_key` and `cu_up_drb_key`: an RNTI or a CU-UP index, and a bearer. -/
abbrev DrbKey := Nat ×ₗ Nat

def drbKey (ue bearer : Nat) : DrbKey := toLex (ue, bearer)

def DrbKey.ue (key : DrbKey) : Nat := (ofLex key).1

def DrbKey.bearer (key : DrbKey) : Nat := (ofLex key).2

structure MacDrbMetrics where
  dlBuffer : Nat := 0
  ulBuffer : Nat := 0
  dlBytes : Nat := 0
  ulBytes : Nat := 0

structure MacUeMetrics where
  cqi : Nat := 0
  snr : Float32 := 0
  dlBuffer : Nat := 0
  ulBuffer : Nat := 0
  dlTbs : Nat := 0
  ulTbs : Nat := 0
  dlAckedBytes : Nat := 0
  ulOkBytes : Nat := 0
  dlMcs : Nat := 0
  ulMcs : Nat := 0
  dlPrbs : Nat := 0
  ulPrbs : Nat := 0
  dlHarqAck : Nat := 0
  dlHarqNack : Nat := 0
  ulCrcOk : Nat := 0
  ulCrcFail : Nat := 0
  avgCeDelayMs : Float32 := 0
  avgCrcDelayMs : Float32 := 0
  avgPucchHarqDelayMs : Float32 := 0
  avgPuschHarqDelayMs : Float32 := 0
  avgSrToPuschDelayMs : Float32 := 0
  avgSumMacDelayMs : Float32 := 0

structure RlcDrbMetrics where
  dlBuffer : Nat := 0
  ulBuffer : Nat := 0
  txSdus : Nat := 0
  txSduBytes : Nat := 0
  txPdus : Nat := 0
  txPduBytes : Nat := 0
  txDroppedSdus : Nat := 0
  txRetxPdus : Nat := 0
  txSduLatencyUs : Nat := 0
  rxSdus : Nat := 0
  rxSduBytes : Nat := 0
  rxPdus : Nat := 0
  rxPduBytes : Nat := 0
  rxLostPdus : Nat := 0
  rxSduLatencyUs : Nat := 0
  deriving DecidableEq

structure PdcpDrbMetrics where
  txPdus : Nat := 0
  txPduBytes : Nat := 0
  txSdus : Nat := 0
  txDroppedSdus : Nat := 0
  txDiscardTimeouts : Nat := 0
  txPduLatencyNs : Nat := 0
  rxPdus : Nat := 0
  rxPduBytes : Nat := 0
  rxDeliveredSdus : Nat := 0
  rxDroppedPdus : Nat := 0
  rxSduLatencyNs : Nat := 0
  deriving DecidableEq

structure GtpUeMetrics where
  dlPkts : Nat := 0
  dlBytes : Nat := 0
  ulPkts : Nat := 0
  ulBytes : Nat := 0
  deriving DecidableEq

def stalenessThreshold : Nat := 2

end EdgeRic

open EdgeRic in
/-- The static members of the class `edgeric`. -/
structure EdgeRic where
  weightsRecved : OrdMap Rnti Float32 := .empty
  mcsRecved : OrdMap Rnti Nat := .empty
  macUe : OrdMap Rnti MacUeMetrics := .empty
  macDrb : OrdMap DrbKey MacDrbMetrics := .empty
  rlcDrb : OrdMap DrbKey RlcDrbMetrics := .empty
  pdcpDrb : OrdMap DrbKey PdcpDrbMetrics := .empty
  gtpUe : OrdMap Nat GtpUeMetrics := .empty
  ueIndexToRnti : OrdMap Nat Rnti := .empty
  e1apIdToRnti : OrdMap Nat Rnti := .empty
  cuUpUeToE1apId : OrdMap Nat Nat := .empty
  duUeToRnti : OrdMap Nat Rnti := .empty
  erWeightsTti : Nat := 0
  erMcsTti : Nat := 0
  ttiCnt : Nat := 0

namespace EdgeRic

def addU32 (value increment : Nat) : Nat := (value + increment) % 2 ^ 32

def setTti (er : EdgeRic) (ttiCount : Nat) : EdgeRic := { er with ttiCnt := ttiCount }

/-- A change through `mac_ue[rnti]`. -/
def updateMacUe (er : EdgeRic) (rnti : Rnti) (f : MacUeMetrics → MacUeMetrics) : EdgeRic :=
  { er with macUe := er.macUe.update rnti {} f }

/-- A change through the entry of a logical channel in `mac_drb`. -/
def updateMacDrb (er : EdgeRic) (rnti : Rnti) (lcid : Nat) (f : MacDrbMetrics → MacDrbMetrics) :
    EdgeRic :=
  { er with macDrb := er.macDrb.update (drbKey rnti lcid) {} f }

def setMacUe (er : EdgeRic) (rnti : Rnti) (cqi : Nat) (snr : Float32)
    (dlBuffer ulBuffer dlTbs ulTbs : Nat) : EdgeRic :=
  er.updateMacUe rnti fun m => { m with cqi, snr, dlBuffer, ulBuffer, dlTbs, ulTbs }

def setMacDrb (er : EdgeRic) (rnti : Rnti) (lcid dlBuffer ulBuffer dlBytes ulBytes : Nat) : EdgeRic :=
  er.updateMacDrb rnti lcid fun _ => { dlBuffer, ulBuffer, dlBytes, ulBytes }

/-- `add_mac_drb_dl_bytes`, and `add_drb_tx_bytes` for the integer part of its argument. -/
def addMacDrbDlBytes (er : EdgeRic) (rnti : Rnti) (lcid bytes : Nat) : EdgeRic :=
  er.updateMacDrb rnti lcid fun m => { m with dlBytes := addU32 m.dlBytes bytes }

def addMacDrbUlBytes (er : EdgeRic) (rnti : Rnti) (lcid bytes : Nat) : EdgeRic :=
  er.updateMacDrb rnti lcid fun m => { m with ulBytes := addU32 m.ulBytes bytes }

/-- `set_dl_tbs`, and `set_tx_bytes` for the integer part of its argument. -/
def setDlTbs (er : EdgeRic) (rnti : Rnti) (tbs : Nat) : EdgeRic :=
  er.updateMacUe rnti fun m => { m with dlTbs := addU32 m.dlTbs tbs }

def setUlTbs (er : EdgeRic) (rnti : Rnti) (tbs : Nat) : EdgeRic :=
  er.updateMacUe rnti fun m => { m with ulTbs := addU32 m.ulTbs tbs }

def setDlMcs (er : EdgeRic) (rnti : Rnti) (mcs : Nat) : EdgeRic :=
  er.updateMacUe rnti fun m => { m with dlMcs := if mcs > m.dlMcs then mcs else m.dlMcs }

def setUlMcs (er : EdgeRic) (rnti : Rnti) (mcs : Nat) : EdgeRic :=
  er.updateMacUe rnti fun m => { m with ulMcs := if mcs > m.ulMcs then mcs else m.ulMcs }

def setDlPrbs (er : EdgeRic) (rnti : Rnti) (prbs : Nat) : EdgeRic :=
  er.updateMacUe rnti fun m => { m with dlPrbs := addU32 m.dlPrbs prbs }

def setUlPrbs (er : EdgeRic) (rnti : Rnti) (prbs : Nat) : EdgeRic :=
  er.updateMacUe rnti fun m => { m with ulPrbs := addU32 m.ulPrbs prbs }

def incDlHarqAck (er : EdgeRic) (rnti : Rnti) (tbs : Nat) : EdgeRic :=
  er.updateMacUe rnti fun m =>
    { m with dlHarqAck := addU32 m.dlHarqAck 1, dlAckedBytes := addU32 m.dlAckedBytes tbs }

def incDlHarqNack (er : EdgeRic) (rnti : Rnti) : EdgeRic :=
  er.updateMacUe rnti fun m => { m with dlHarqNack := addU32 m.dlHarqNack 1 }

def incUlCrcOk (er : EdgeRic) (rnti : Rnti) (tbs : Nat) : EdgeRic :=
  er.updateMacUe rnti fun m =>
    { m with ulCrcOk := addU32 m.ulCrcOk 1, ulOkBytes := addU32 m.ulOkBytes tbs }

def incUlCrcFail (er : EdgeRic) (rnti : Rnti) : EdgeRic :=
  er.updateMacUe rnti fun m => { m with ulCrcFail := addU32 m.ulCrcFail 1 }

def reportMacDelays (er : EdgeRic) (rnti : Rnti)
    (ceDelay crcDelay pucchHarqDelay puschHarqDelay srToPuschDelay : Float32) : EdgeRic :=
  er.updateMacUe rnti fun m =>
    { m with
      avgCeDelayMs := ceDelay
      avgCrcDelayMs := crcDelay
      avgPucchHarqDelayMs := pucchHarqDelay
      avgPuschHarqDelayMs := puschHarqDelay
      avgSrToPuschDelayMs := srToPuschDelay
      avgSumMacDelayMs := ceDelay + crcDelay + pucchHarqDelay + puschHarqDelay + srToPuschDelay }

/-- `collect_ue_telemetry`: only what scheduling did not set. The CQI is the integer part of the
argument. -/
def collectUeTelemetry (er : EdgeRic) (rnti : Rnti) (cqi : Nat) (snr : Float32)
    (dlBufferBytes ulBufferBytes : Nat) : EdgeRic :=
  er.updateMacUe rnti fun m =>
    { m with cqi, snr, dlBuffer := dlBufferBytes, ulBuffer := ulBufferBytes }

def reportRlcMetrics (er : EdgeRic) (duUeIndex lcid : Nat) (metrics : RlcDrbMetrics) : EdgeRic :=
  match er.duUeToRnti.find? duUeIndex with
  | none => er
  | some rnti => { er with rlcDrb := er.rlcDrb.insert (drbKey rnti lcid) metrics }

def setRlcDlBuffer (er : EdgeRic) (rnti : Rnti) (lcid dlBuffer : Nat) : EdgeRic :=
  { er with rlcDrb := er.rlcDrb.update (drbKey rnti lcid) {} fun m => { m with dlBuffer } }

def reportPdcpMetrics (er : EdgeRic) (cuUpUeIndex drbId : Nat) (metrics : PdcpDrbMetrics) : EdgeRic :=
  { er with pdcpDrb := er.pdcpDrb.insert (drbKey cuUpUeIndex drbId) metrics }

def reportGtpDlPkt (er : EdgeRic) (cuUpUeIndex pduLen : Nat) : EdgeRic :=
  { er with
    gtpUe := er.gtpUe.update cuUpUeIndex {} fun m =>
      { m with dlPkts := (m.dlPkts + 1) % 2 ^ 64, dlBytes := (m.dlBytes + pduLen) % 2 ^ 64 } }

def reportGtpUlPkt (er : EdgeRic) (cuUpUeIndex pduLen : Nat) : EdgeRic :=
  { er with
    gtpUe := er.gtpUe.update cuUpUeIndex {} fun m =>
      { m with ulPkts := (m.ulPkts + 1) % 2 ^ 64, ulBytes := (m.ulBytes + pduLen) % 2 ^ 64 } }

def registerDuUe (er : EdgeRic) (duUeIndex : Nat) (rnti : Rnti) : EdgeRic :=
  { er with duUeToRnti := er.duUeToRnti.insert duUeIndex rnti }

def registerUe (er : EdgeRic) (ueIndex : Nat) (rnti : Rnti) : EdgeRic :=
  { er with ueIndexToRnti := er.ueIndexToRnti.insert ueIndex rnti }

def unregisterUe (er : EdgeRic) (ueIndex : Nat) : EdgeRic :=
  { er with ueIndexToRnti := er.ueIndexToRnti.erase ueIndex }

def registerE1apRnti (er : EdgeRic) (e1apId : Nat) (rnti : Rnti) : EdgeRic :=
  { er with e1apIdToRnti := er.e1apIdToRnti.insert e1apId rnti }

def registerCuUpUeE1ap (er : EdgeRic) (cuUpUeIndex e1apId : Nat) : EdgeRic :=
  { er with cuUpUeToE1apId := er.cuUpUeToE1apId.insert cuUpUeIndex e1apId }

/-- `e1ap_ids_to_remove`. -/
def e1apIdsToRemove (er : EdgeRic) (rnti : Rnti) : List Nat :=
  (er.e1apIdToRnti.filter fun _ r => r = rnti).keys

def cuUpIndicesToRemove (er : EdgeRic) (rnti : Rnti) : List Nat :=
  (er.cuUpUeToE1apId.filter fun _ e1apId => e1apId ∈ er.e1apIdsToRemove rnti).keys

def unregisterUeByRnti (er : EdgeRic) (rnti : Rnti) : EdgeRic :=
  { er with
    macUe := er.macUe.erase rnti
    macDrb := er.macDrb.filter fun key _ => key.ue ≠ rnti
    rlcDrb := er.rlcDrb.filter fun key _ => key.ue ≠ rnti
    ueIndexToRnti := er.ueIndexToRnti.filter fun _ r => r ≠ rnti
    duUeToRnti := er.duUeToRnti.filter fun _ r => r ≠ rnti
    e1apIdToRnti := er.e1apIdToRnti.filter fun _ r => r ≠ rnti
    cuUpUeToE1apId := er.cuUpUeToE1apId.filter fun _ e1apId => e1apId ∉ er.e1apIdsToRemove rnti
    pdcpDrb := er.pdcpDrb.filter fun key _ => key.ue ∉ er.cuUpIndicesToRemove rnti
    gtpUe := er.gtpUe.filter fun cuUpUeIndex _ => cuUpUeIndex ∉ er.cuUpIndicesToRemove rnti }

def e1apRnti? (er : EdgeRic) (cuUpUeIndex : Nat) : Option Rnti :=
  (er.cuUpUeToE1apId.find? cuUpUeIndex).bind er.e1apIdToRnti.find?

/-- Without the E1AP the index is taken for a position: among the UEs of the CU-CP, in the order of
their indices, then among the UEs of the MAC, in the order of their RNTIs. -/
def fallbackRnti? (er : EdgeRic) (cuUpUeIndex : Nat) : Option Rnti :=
  match er.ueIndexToRnti.entries[cuUpUeIndex]? with
  | some entry => some entry.2
  | none => er.macUe.keys[cuUpUeIndex]?

def getRntiFromCuUpUeIndex (er : EdgeRic) (cuUpUeIndex : Nat) : Rnti :=
  match er.e1apRnti? cuUpUeIndex with
  | some rnti => rnti
  | none => (er.fallbackRnti? cuUpUeIndex).getD 0

/-- `UeMetrics`. PDCP entries carry their DRB and the LCID derived from it. -/
structure UeMetrics where
  rnti : Rnti
  mac : Option MacUeMetrics
  macDrb : List (Nat × MacDrbMetrics)
  rlcDrb : List (Nat × RlcDrbMetrics)
  pdcpDrb : List (Nat × Nat × PdcpDrbMetrics)
  gtp : Option GtpUeMetrics

/-- `TtiMetrics`, without the time stamp. -/
structure TtiMetrics where
  ttiIndex : Nat
  ues : List UeMetrics

def drbsOf {M : Type} (drbs : OrdMap DrbKey M) (rnti : Rnti) : List (Nat × M) :=
  (drbs.entries.filter fun e => e.1.ue = rnti).map fun e => (e.1.bearer, e.2)

def exportedPdcp (er : EdgeRic) (rnti : Rnti) : List (DrbKey × PdcpDrbMetrics) :=
  er.pdcpDrb.entries.filter fun e => er.getRntiFromCuUpUeIndex e.1.ue = rnti

def exportedGtp (er : EdgeRic) (rnti : Rnti) : Option (Nat × GtpUeMetrics) :=
  er.gtpUe.entries.find? fun e => er.getRntiFromCuUpUeIndex e.1 = rnti

def ueMetrics (er : EdgeRic) (rnti : Rnti) : UeMetrics where
  rnti
  mac := er.macUe.find? rnti
  macDrb := drbsOf er.macDrb rnti
  rlcDrb := drbsOf er.rlcDrb rnti
  pdcpDrb := (er.exportedPdcp rnti).map fun e => (e.1.bearer, e.1.bearer + 3, e.2)
  gtp := (er.exportedGtp rnti).map Prod.snd

def ttiMetrics (er : EdgeRic) : TtiMetrics where
  ttiIndex := er.ttiCnt
  ues := er.macUe.keys.map er.ueMetrics

/-- What `send_tti_metrics` sets to zero in the entry of a UE. -/
def resetMacUe (m : MacUeMetrics) : MacUeMetrics :=
  { m with
    dlHarqAck := 0
    dlHarqNack := 0
    ulCrcOk := 0
    ulCrcFail := 0
    dlTbs := 0
    ulTbs := 0
    dlAckedBytes := 0
    ulOkBytes := 0
    dlMcs := 0
    ulMcs := 0
    dlPrbs := 0
    ulPrbs := 0 }

/-- The registry after `send_tti_metrics`, which exports `ttiMetrics`. -/
def sendTtiMetrics (er : EdgeRic) : EdgeRic :=
  { er with
    macUe := er.macUe.mapValues fun _ m => resetMacUe m
    macDrb := er.macDrb.mapValues fun _ m => { m with dlBytes := 0, ulBytes := 0 } }

/-- A message with weights, as pairs of an RNTI and a weight (`get_weights_from_er`). -/
def getWeightsFromEr (er : EdgeRic) (ttiIndex : Nat) (ueWeights : List (Nat × Float32)) : EdgeRic :=
  { er with
    erWeightsTti := ttiIndex
    weightsRecved := ueWeights.foldl (fun m w => m.insert (w.1 % 2 ^ 16) w.2) .empty }

/-- A message with MCS values; 255 stands for no override (`get_mcs_from_er`). -/
def getMcsFromEr (er : EdgeRic) (ttiIndex : Nat) (ueMcs : List (Nat × Nat)) : EdgeRic :=
  { er with
    erMcsTti := ttiIndex
    mcsRecved := ueMcs.foldl (fun m u =>
      if u.2 % 2 ^ 8 < 255 then m.insert (u.1 % 2 ^ 16) (u.2 % 2 ^ 8) else m) .empty }

/-- The age test of `are_weights_fresh` and `are_mcs_fresh`. -/
def isFresh (er : EdgeRic) (receivedTti : Nat) : Bool :=
  (if er.ttiCnt ≥ receivedTti then er.ttiCnt - receivedTti else stalenessThreshold + 1) ≤
    stalenessThreshold

def getWeights (er : EdgeRic) (rnti : Rnti) : Option Float32 :=
  if er.isFresh er.erWeightsTti then er.weightsRecved.find? rnti else none

def getWeightsUnchecked (er : EdgeRic) (rnti : Rnti) : Option Float32 := er.weightsRecved.find? rnti

def getMcs (er : EdgeRic) (rnti : Rnti) : Option Nat :=
  if er.isFresh er.erMcsTti then er.mcsRecved.find? rnti else none

def getDrbLcids (er : EdgeRic) (rnti : Rnti) : List Nat := (drbsOf er.macDrb rnti).map Prod.fst

def getPdcpDrbIdsByUeIndex (er : EdgeRic) (ueIndex : Nat) : List Nat :=
  (er.pdcpDrb.entries.filter fun e => e.1.ue = ueIndex).map fun e => e.1.bearer

def getGtpMetrics (er : EdgeRic) (rnti : Rnti) : Option GtpUeMetrics :=
  (er.exportedGtp rnti).map Prod.snd

end EdgeRic
end Srsran
