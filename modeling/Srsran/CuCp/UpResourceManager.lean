import Srsran.Lib.Checked
import Srsran.Lib.OrdMap

/-! User-plane resources of a UE (`up_resource_manager_impl.cpp`, `up_resource_manager_helpers.cpp`,
`up_context.h`). QoS parameters are their 5QI, a PDCP configuration is numbered, and the SDAP configuration
and the RLC mode, which follow from other fields, are left out. -/
namespace Srsran.CuCp

def maxNofDrbs : Nat := 29

inductive UpFault where
  /-- "Invalid PDU Session Resource Setup items." and its likes. -/
  | invalidRequest
  /-- "PDU session already exists". -/
  | sessionExists
  /-- "{} not allocated", or a session that `at` does not find. -/
  | noSession
  /-- A QoS flow that `at` does not find. -/
  | noFlow
  /-- A DRB that `at` does not find, or "Couldn't find {} in {}". -/
  | noDrb
  /-- "{} not mapped on {}". -/
  | flowNotMapped
  /-- "{} has to exist in current PDU session context or in context update". -/
  | drbMissing
  /-- "5QI cannot be invalid." -/
  | invalidFiveQi
  /-- "Could not find PDCP configuration. 5QI {}". -/
  | noPdcpConfig
  deriving DecidableEq, Repr

/-- `slotted_id_vector`: items under different identifiers, in the order of their insertion. -/
structure SlottedIdVector (V : Type) where
  items : List (Nat × V)
  unique : (items.map Prod.fst).Nodup

structure UpResourceManagerCfg where
  /-- The PDCP configuration of each 5QI. -/
  fiveQiConfig : OrdMap Nat Nat
  maxNofDrbsPerUe : Nat

abbrev QosParameters := Option Nat

structure UpDrbContext where
  drbId : Nat
  pduSessionId : Nat
  sNssai : Nat := 0
  defaultDrb : Bool := false
  qosParams : QosParameters
  qosFlows : OrdMap Nat QosParameters
  pdcpCfg : Nat

structure UpPduSessionContext where
  id : Nat
  drbs : OrdMap Nat UpDrbContext := .empty

structure UpContext where
  pduSessions : OrdMap Nat UpPduSessionContext := .empty
  drbMap : OrdMap Nat Nat := .empty
  qosFlowMap : OrdMap Nat Nat := .empty
  /-- By DRB id. -/
  drbDirty : Nat → Bool := fun _ => false

structure UpPduSessionContextUpdate where
  id : Nat
  drbToAdd : OrdMap Nat UpDrbContext := .empty
  drbToModify : OrdMap Nat UpDrbContext := .empty
  drbToRemove : List Nat := []

structure UpConfigUpdate where
  pduSessionsToSetup : OrdMap Nat UpPduSessionContextUpdate := .empty
  pduSessionsToModify : OrdMap Nat UpPduSessionContextUpdate := .empty
  pduSessionsToRemove : List Nat := []
  pduSessionsFailedToModify : List Nat := []
  drbToRemove : List Nat := []

structure SetupItem where
  sNssai : Nat
  qosFlows : SlottedIdVector QosParameters

structure ModifyItem where
  qosFlowAddOrModify : SlottedIdVector QosParameters
  qosFlowToRelease : SlottedIdVector Unit

inductive UpRequest where
  | setup (items : SlottedIdVector SetupItem)
  | modify (items : SlottedIdVector ModifyItem)
  | release (items : SlottedIdVector Unit)

section
variable (cfg : UpResourceManagerCfg) (context : UpContext)

def getFiveQi (qos : QosParameters) : Option Nat := qos.filter cfg.fiveQiConfig.contains

def setRrcPdcpConfig (fiveQi : Nat) : Except UpFault Nat :=
  match cfg.fiveQiConfig.find? fiveQi with
  | some pdcp => .ok pdcp
  | none => .error .noPdcpConfig

def validSetup (items : SlottedIdVector SetupItem) : Bool :=
  !items.items.isEmpty && items.items.all fun item =>
    !context.pduSessions.contains item.1 && item.2.qosFlows.items.all fun flow =>
      (getFiveQi cfg flow.2).isSome

def validModify (items : SlottedIdVector ModifyItem) : Bool :=
  !items.items.isEmpty && items.items.all fun item =>
    context.pduSessions.contains item.1 &&
    (item.2.qosFlowAddOrModify.items.all fun flow => (getFiveQi cfg flow.2).isSome) &&
    (item.2.qosFlowToRelease.items.all fun flow => context.qosFlowMap.contains flow.1) &&
    item.2.qosFlowToRelease.items.length < context.qosFlowMap.size

def validRelease (items : SlottedIdVector Unit) : Bool :=
  !items.items.isEmpty && items.items.all fun item => context.pduSessions.contains item.1

def isValid : UpRequest → Bool
  | .setup items => validSetup cfg context items
  | .modify items => validModify cfg context items
  | .release items => validRelease context items

def UpConfigUpdate.containsDrb (update : UpConfigUpdate) (drbId : Nat) : Bool :=
  update.pduSessionsToSetup.entries.any (·.2.drbToAdd.contains drbId) ||
    update.pduSessionsToModify.entries.any (·.2.drbToAdd.contains drbId)

def allocateDrbId (newSession : UpPduSessionContextUpdate) (update : UpConfigUpdate) : Option Nat :=
  if cfg.maxNofDrbsPerUe ≤ context.drbMap.size then none
  else (List.range' 1 maxNofDrbs).find? fun drbId =>
    !(context.drbMap.contains drbId || update.containsDrb drbId || newSession.drbToAdd.contains drbId ||
      context.drbDirty drbId)

def allocateQosFlow (update : UpConfigUpdate) (newSession : UpPduSessionContextUpdate) (qfi : Nat)
    (qos : QosParameters) : Except UpFault (UpPduSessionContextUpdate × Option Nat) :=
  match getFiveQi cfg qos with
  | none => .error .invalidFiveQi
  | some fiveQi =>
    if cfg.maxNofDrbsPerUe ≤ context.drbMap.size then .ok (newSession, none)
    else
      match allocateDrbId cfg context newSession update with
      | none => .ok (newSession, none)
      | some drbId => do
        let pdcpCfg ← setRrcPdcpConfig cfg fiveQi
        let drb : UpDrbContext := {
          drbId := drbId
          pduSessionId := newSession.id
          defaultDrb := context.drbMap.size == 0
          qosParams := qos
          qosFlows := OrdMap.empty.emplace qfi qos
          pdcpCfg := pdcpCfg }
        .ok ({ newSession with drbToAdd := newSession.drbToAdd.emplace drbId drb }, some drbId)

def modifyQosFlow (newSession : UpPduSessionContextUpdate) (qfi : Nat) (qos : QosParameters) :
    Except UpFault (UpPduSessionContextUpdate × Option Nat) :=
  match context.qosFlowMap.find? qfi with
  | none => .ok (newSession, none)
  | some drbId =>
    match qos with
    | none => .error .noPdcpConfig
    | some fiveQi => do
      let pdcpCfg ← setRrcPdcpConfig cfg fiveQi
      let drb : UpDrbContext := {
        drbId := drbId
        pduSessionId := newSession.id
        qosParams := qos
        qosFlows := OrdMap.empty.emplace qfi qos
        pdcpCfg := pdcpCfg }
      .ok ({ newSession with drbToModify := newSession.drbToModify.emplace drbId drb }, some drbId)

/-- A QoS flow of a session to be set up; one that gets no DRB is left out. -/
def setupFlow (update : UpConfigUpdate) (sNssai : Nat) (newSession : UpPduSessionContextUpdate)
    (flow : Nat × QosParameters) : Except UpFault UpPduSessionContextUpdate := do
  let (newSession, drbId) ← allocateQosFlow cfg context update newSession flow.1 flow.2
  match drbId with
  | none => .ok newSession
  | some drbId =>
    match newSession.drbToAdd.find? drbId with
    | none => .error .noDrb
    | some _ =>
      .ok { newSession with drbToAdd := newSession.drbToAdd.mapValues fun id drb =>
        if id = drbId then { drb with sNssai := sNssai } else drb }

def setupSession (update : UpConfigUpdate) (item : Nat × SetupItem) : Except UpFault UpConfigUpdate :=
  if context.pduSessions.contains item.1 then .error .sessionExists
  else do
    let newSession ← item.2.qosFlows.items.foldlM (setupFlow cfg context update item.2.sNssai) { id := item.1 }
    if newSession.drbToAdd.size = 0 then .ok update
    else .ok { update with pduSessionsToSetup := update.pduSessionsToSetup.emplace newSession.id newSession }

/-- A flow of a session to be modified: an existing one is modified, and a new one gets a DRB. -/
def addOrModifyFlow (state : UpConfigUpdate × UpPduSessionContextUpdate) (flow : Nat × QosParameters) :
    Except UpFault (UpConfigUpdate × UpPduSessionContextUpdate) := do
  let (update, session) := state
  let failed : UpConfigUpdate := { update with
    pduSessionsFailedToModify := update.pduSessionsFailedToModify ++ [session.id] }
  if context.qosFlowMap.contains flow.1 then
    match ← modifyQosFlow cfg context session flow.1 flow.2 with
    | (session, none) => .ok (failed, session)
    | (session, some drbId) =>
      if context.drbMap.contains drbId || session.drbToModify.contains drbId then .ok (update, session)
      else .error .drbMissing
  else
    match ← allocateQosFlow cfg context update session flow.1 flow.2 with
    | (session, none) => .ok (failed, session)
    | (session, some drbId) =>
      if context.drbMap.contains drbId || session.drbToAdd.contains drbId then .ok (update, session)
      else .error .drbMissing

def releaseFlow (session : UpPduSessionContextUpdate) (flow : Nat × Unit) :
    Except UpFault UpPduSessionContextUpdate :=
  match context.qosFlowMap.find? flow.1 with
  | none => .error .noFlow
  | some drbId =>
    match context.pduSessions.find? session.id with
    | none => .error .noSession
    | some sessionContext =>
      match sessionContext.drbs.find? drbId with
      | none => .error .noDrb
      | some drb =>
        if drb.qosFlows.contains flow.1 then
          if drb.qosFlows.size = 1 then .ok { session with drbToRemove := session.drbToRemove ++ [drbId] }
          else .ok session
        else .error .flowNotMapped

def modifySession (update : UpConfigUpdate) (item : Nat × ModifyItem) : Except UpFault UpConfigUpdate :=
  if context.pduSessions.contains item.1 then do
    let (update, session) ←
      item.2.qosFlowAddOrModify.items.foldlM (addOrModifyFlow cfg context) (update, { id := item.1 })
    let session ← item.2.qosFlowToRelease.items.foldlM (releaseFlow context) session
    .ok { update with pduSessionsToModify := update.pduSessionsToModify.emplace session.id session }
  else .error .noSession

def releaseSession (update : UpConfigUpdate) (item : Nat × Unit) : Except UpFault UpConfigUpdate :=
  match context.pduSessions.find? item.1 with
  | none => .error .noSession
  | some session => .ok { update with
      drbToRemove := update.drbToRemove ++ session.drbs.keys
      pduSessionsToRemove := update.pduSessionsToRemove ++ [item.1] }

def calculateUpdate (request : UpRequest) : Except UpFault UpConfigUpdate :=
  if isValid cfg context request then
    match request with
    | .setup items => items.items.foldlM (setupSession cfg context) {}
    | .modify items => items.items.foldlM (modifySession cfg context) {}
    | .release items => items.items.foldlM (releaseSession context) {}
  else .error .invalidRequest

end

/-- What is seen of the DRB ids. -/
inductive UpAction where
  | drbAdded (drbId : Nat)
  | keyRefreshed
  deriving DecidableEq, Repr

structure UpResourceManager where
  context : UpContext := {}
  history : List UpAction := []

namespace UpResourceManager

def addDrb (state : UpPduSessionContext × UpResourceManager) (drb : Nat × UpDrbContext) :
    UpPduSessionContext × UpResourceManager :=
  let (session, s) := state
  ({ session with drbs := session.drbs.emplace drb.1 drb.2 },
    { context := { s.context with
        drbMap := s.context.drbMap.emplace drb.1 session.id
        drbDirty := fun drbId => drbId = drb.1 || s.context.drbDirty drbId
        qosFlowMap := drb.2.qosFlows.entries.foldl (fun map flow => map.emplace flow.1 drb.1)
          s.context.qosFlowMap }
      history := s.history ++ [.drbAdded drb.1] })

def applyUpdateForNewDrbs (session : UpPduSessionContext) (s : UpResourceManager)
    (drbToAdd : OrdMap Nat UpDrbContext) : UpPduSessionContext × UpResourceManager :=
  drbToAdd.entries.foldl addDrb (session, s)

def removeDrb (state : UpPduSessionContext × UpResourceManager) (drbId : Nat) :
    Except UpFault (UpPduSessionContext × UpResourceManager) :=
  let (session, s) := state
  match session.drbs.find? drbId with
  | none => .error .noDrb
  | some drb => .ok ({ session with drbs := session.drbs.erase drbId },
      { s with context := { s.context with
        qosFlowMap := drb.qosFlows.keys.foldl OrdMap.erase s.context.qosFlowMap
        drbMap := s.context.drbMap.erase drbId } })

def applyUpdateForRemovedDrbs (session : UpPduSessionContext) (s : UpResourceManager)
    (drbToRemove : List Nat) : Except UpFault (UpPduSessionContext × UpResourceManager) :=
  drbToRemove.foldlM removeDrb (session, s)

def addSession (s : UpResourceManager) (update : Nat × UpPduSessionContextUpdate) : UpResourceManager :=
  let (session, s) := applyUpdateForNewDrbs { id := update.2.id } s update.2.drbToAdd
  { s with context := { s.context with pduSessions := s.context.pduSessions.emplace session.id session } }

def modifySession (s : UpResourceManager) (update : Nat × UpPduSessionContextUpdate) :
    Except UpFault UpResourceManager :=
  match s.context.pduSessions.find? update.2.id with
  | none => .error .noSession
  | some session => do
    let (session, s) := applyUpdateForNewDrbs session s update.2.drbToAdd
    let (session, s) ← applyUpdateForRemovedDrbs session s update.2.drbToRemove
    .ok { s with context := { s.context with
      pduSessions := s.context.pduSessions.insert update.2.id session } }

def removeSession (s : UpResourceManager) (id : Nat) : Except UpFault UpResourceManager :=
  match s.context.pduSessions.find? id with
  | none => .error .noSession
  | some session => .ok { s with context := { s.context with
      qosFlowMap := session.drbs.entries.foldl
        (fun map drb => drb.2.qosFlows.keys.foldl OrdMap.erase map) s.context.qosFlowMap
      drbMap := session.drbs.keys.foldl OrdMap.erase s.context.drbMap
      pduSessions := s.context.pduSessions.erase id } }

def applyConfigUpdate (s : UpResourceManager) (update : UpConfigUpdate) : Except UpFault UpResourceManager := do
  let s := update.pduSessionsToSetup.entries.foldl addSession s
  let s ← update.pduSessionsToModify.entries.foldlM modifySession s
  update.pduSessionsToRemove.foldlM removeSession s

def getDrbContext (s : UpResourceManager) (drbId : Nat) : Except UpFault UpDrbContext :=
  match s.context.drbMap.find? drbId with
  | none => .error .noDrb
  | some psi =>
    match s.context.pduSessions.find? psi with
    | none => .error .noSession
    | some session =>
      match session.drbs.find? drbId with
      | none => .error .noDrb
      | some drb => .ok drb

def refreshDrbIdAfterKeyChange (s : UpResourceManager) : UpResourceManager where
  context := { s.context with drbDirty := fun drbId => s.context.drbMap.contains drbId }
  history := s.history ++ [.keyRefreshed]

end UpResourceManager

inductive UpEvent where
  | request (request : UpRequest)
  | refreshKeys

def UpResourceManager.step (cfg : UpResourceManagerCfg) (s : UpResourceManager) :
    UpEvent → Except UpFault UpResourceManager
  | .request request =>
    if isValid cfg s.context request then do
      let update ← calculateUpdate cfg s.context request
      s.applyConfigUpdate update
    else .ok s
  | .refreshKeys => .ok s.refreshDrbIdAfterKeyChange

end Srsran.CuCp
