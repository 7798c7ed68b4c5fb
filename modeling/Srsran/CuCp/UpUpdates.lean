import Mathlib.Data.List.Nodup
import Mathlib.Data.List.Perm.Subperm
import Srsran.CuCp.UpConsistency
import Srsran.Lib.Runs

/-! What `calculateUpdate` asks for. New QoS flows get the free DRB ids one after the other, and the
sessions of the request stay the only ones concerned where the flows that it names are their own. -/
namespace Srsran.CuCp
open Checked

def freeDrbIds (cfg : UpResourceManagerCfg) (context : UpContext) : List Nat :=
  if cfg.maxNofDrbsPerUe ≤ context.drbMap.size then []
  else (List.range' 1 maxNofDrbs).filter fun drbId => !context.drbDirty drbId

theorem freeDrbIds_nodup (cfg : UpResourceManagerCfg) (context : UpContext) :
    (freeDrbIds cfg context).Nodup := by
  rw [freeDrbIds]
  split
  · exact List.nodup_nil
  · exact List.Nodup.filter _ List.nodup_range'

theorem clean_of_mem_freeDrbIds {cfg : UpResourceManagerCfg} {context : UpContext} {drbId : Nat}
    (h : drbId ∈ freeDrbIds cfg context) : context.drbDirty drbId = false := by
  rw [freeDrbIds] at h
  split at h
  · cases h
  · simpa using (List.mem_filter.mp h).2

def bindings (drbs : List (Nat × UpDrbContext)) : List (Nat × List Nat) :=
  drbs.map fun drb => (drb.1, drb.2.qosFlows.keys)

@[simp] theorem bindings_append (drbs drbs' : List (Nat × UpDrbContext)) :
    bindings (drbs ++ drbs') = bindings drbs ++ bindings drbs' := List.map_append

@[simp] theorem bindings_fst (drbs : List (Nat × UpDrbContext)) :
    (bindings drbs).map Prod.fst = drbs.map Prod.fst := by
  simp [bindings]

theorem bindings_perm {drbs drbs' : List (Nat × UpDrbContext)} (h : drbs.Perm drbs') :
    (bindings drbs).Perm (bindings drbs') := h.map _

/-- DRBs for the first of the flows, as many as there are free ids. -/
structure Gathered (free flows : List Nat) (drbs : List (Nat × List Nat)) : Prop where
  ids : ∀ drbId ∈ drbs.map Prod.fst, drbId ∈ free
  once : (drbs.map Prod.fst).Nodup
  carried : (drbs.map Prod.snd).Perm ((flows.take free.length).map fun qfi => [qfi])

namespace Gathered
variable {free flows : List Nat} {drbs drbs' : List (Nat × List Nat)} {drbId qfi : Nat}

theorem start : Gathered free [] [] where
  ids := by simp
  once := List.nodup_nil
  carried := by simp

variable (h : Gathered free flows drbs)
include h

theorem perm (hperm : drbs.Perm drbs') : Gathered free flows drbs' where
  ids := fun drbId hdrbId => h.ids drbId ((hperm.map _).mem_iff.mpr hdrbId)
  once := (hperm.map _).nodup_iff.mp h.once
  carried := (hperm.map _).symm.trans h.carried

theorem length_eq : drbs.length = (flows.take free.length).length := by
  have hlength := h.carried.length_eq
  rwa [List.length_map, List.length_map] at hlength

theorem add (hfree : drbId ∈ free) (hnew : drbId ∉ drbs.map Prod.fst) :
    Gathered free (flows ++ [qfi]) ((drbId, [qfi]) :: drbs) := by
  have honce : (drbId :: drbs.map Prod.fst).Nodup := List.nodup_cons.mpr ⟨hnew, h.once⟩
  have hids : ∀ id ∈ drbId :: drbs.map Prod.fst, id ∈ free := by
    rw [List.forall_mem_cons]
    exact ⟨hfree, h.ids⟩
  have hroom : drbs.length + 1 ≤ free.length := by
    have hle := (honce.subperm hids).length_le
    rwa [List.length_cons, List.length_map] at hle
  have hlength := h.length_eq
  rw [List.length_take] at hlength
  refine ⟨hids, honce, ?_⟩
  have hcarried := h.carried
  rw [List.take_of_length_le (by omega)] at hcarried
  rw [List.take_of_length_le (by rw [List.length_append, List.length_singleton]; omega), List.map_append,
    List.map_cons]
  exact (hcarried.cons [qfi]).trans (List.perm_append_singleton _ _).symm

theorem skip (hnodup : free.Nodup)
    (hused : ∀ drbId ∈ free, drbId ∈ drbs.map Prod.fst) : Gathered free (flows ++ [qfi]) drbs := by
  have hle := (hnodup.subperm hused).length_le
  have hlength := h.length_eq
  rw [List.length_map] at hle
  rw [List.length_take] at hlength
  refine ⟨h.ids, h.once, ?_⟩
  rw [List.take_append_of_le_length (by omega)]
  exact h.carried

end Gathered

def owns (context : UpContext) (psi qfi : Nat) : Bool :=
  match context.qosFlowMap.find? qfi with
  | none => false
  | some drbId => (context.drbOf psi drbId).isSome

def newFlows (context : UpContext) (flows : List (Nat × QosParameters)) : List Nat :=
  (flows.map Prod.fst).filter fun qfi => !context.qosFlowMap.contains qfi

/-- The flows in use that a modification names are flows of the session. -/
def namesOwn (context : UpContext) (item : Nat × ModifyItem) : Bool :=
  (item.2.qosFlowAddOrModify.items.all fun flow =>
    !context.qosFlowMap.contains flow.1 || owns context item.1 flow.1) &&
    item.2.qosFlowToRelease.items.all fun flow => owns context item.1 flow.1

def UpConfigUpdate.drbs (update : UpConfigUpdate) : List (Nat × UpDrbContext) :=
  additions update.pduSessionsToSetup.entries ++ additions update.pduSessionsToModify.entries

theorem contains_eq_decide {V : Type} {m : OrdMap Nat V} {k : Nat} :
    m.contains k = decide (k ∈ m.entries.map Prod.fst) := by
  rw [Bool.eq_iff_iff, decide_eq_true_iff, OrdMap.contains_iff]
  simp

theorem UpConfigUpdate.containsDrb_iff {update : UpConfigUpdate} {drbId : Nat} :
    update.containsDrb drbId = true ↔ drbId ∈ update.drbs.map Prod.fst := by
  simp only [containsDrb, drbs, additions, Bool.or_eq_true, List.any_eq_true, contains_eq_decide,
    decide_eq_true_iff, List.map_append, List.mem_append, List.map_flatMap, List.mem_flatMap]

namespace UpResourceManager
variable {cfg : UpResourceManagerCfg} {s : UpResourceManager} {update : UpConfigUpdate}
  {session : UpPduSessionContextUpdate} {drbId qfi psi : Nat} {qos : QosParameters}

def gatheredDrbs (update : UpConfigUpdate) (session : UpPduSessionContextUpdate) : List (Nat × UpDrbContext) :=
  update.drbs ++ session.drbToAdd.entries

theorem mem_gatheredDrbs : drbId ∈ (gatheredDrbs update session).map Prod.fst ↔
    update.containsDrb drbId = true ∨ session.drbToAdd.contains drbId = true := by
  rw [gatheredDrbs, List.map_append, List.mem_append, UpConfigUpdate.containsDrb_iff, contains_eq_decide,
    decide_eq_true_iff]

theorem gatheredDrbs_insert {drb : UpDrbContext} (hnone : session.drbToAdd.find? drbId = none) :
    ((drbId, drb) :: gatheredDrbs update session).Perm
      (gatheredDrbs update { session with drbToAdd := session.drbToAdd.insert drbId drb }) :=
  List.perm_middle.symm.trans ((OrdMap.insert_perm hnone).symm.append_left _)

theorem allocateDrbId_some (h : allocateDrbId cfg s.context session update = some drbId) :
    drbId ∈ freeDrbIds cfg s.context ∧ drbId ∉ (gatheredDrbs update session).map Prod.fst := by
  rw [allocateDrbId] at h
  split at h
  · cases h
  · rename_i hroom
    have hfree := List.find?_some h
    simp only [Bool.not_eq_true', Bool.or_eq_false_iff] at hfree
    obtain ⟨⟨⟨hmap, hupdate⟩, hsession⟩, hdirty⟩ := hfree
    refine ⟨?_, ?_⟩
    · rw [freeDrbIds, if_neg hroom, List.mem_filter, hdirty]
      exact ⟨List.mem_of_find?_eq_some h, rfl⟩
    · rw [mem_gatheredDrbs, hupdate, hsession]
      simp

theorem Inv.allocateDrbId_none (hinv : s.Inv) (h : allocateDrbId cfg s.context session update = none) :
    ∀ drbId ∈ freeDrbIds cfg s.context, drbId ∈ (gatheredDrbs update session).map Prod.fst := by
  intro drbId hmem
  have hclean := clean_of_mem_freeDrbIds hmem
  rw [freeDrbIds] at hmem
  rw [allocateDrbId] at h
  split at hmem
  · cases hmem
  · rename_i hroom
    rw [if_neg hroom] at h
    have hused := List.find?_eq_none.mp h drbId (List.mem_of_mem_filter hmem)
    have hfree : s.context.drbMap.contains drbId = false := by
      rw [OrdMap.contains_eq_false_iff]
      cases hmap : s.context.drbMap.find? drbId with
      | none => rfl
      | some psi =>
        rw [hinv.dirty drbId psi hmap] at hclean
        cases hclean
    rw [mem_gatheredDrbs]
    simpa [hfree, hclean, or_iff_not_imp_left] using hused

theorem getFiveQi_eq_some {fiveQi : Nat} (h : getFiveQi cfg qos = some fiveQi) :
    qos = some fiveQi ∧ ∃ pdcp, setRrcPdcpConfig cfg fiveQi = .ok pdcp := by
  rw [getFiveQi, Option.filter_eq_some_iff] at h
  obtain ⟨pdcp, hpdcp⟩ := Option.isSome_iff_exists.mp h.2
  exact ⟨h.1, pdcp, by rw [setRrcPdcpConfig, hpdcp]⟩

/-- A session of an update after one more of its flows. -/
structure FlowDone (cfg : UpResourceManagerCfg) (s : UpResourceManager) (update : UpConfigUpdate)
    (session : UpPduSessionContextUpdate) (flows : List Nat) (session' : UpPduSessionContextUpdate) : Prop where
  id : session'.id = session.id
  removed : session'.drbToRemove = session.drbToRemove
  gathered : Gathered (freeDrbIds cfg s.context) flows (bindings (gatheredDrbs update session'))

variable {flows : List Nat}

theorem Inv.allocateQosFlow (hinv : s.Inv) (hqos : (getFiveQi cfg qos).isSome)
    (hgathered : Gathered (freeDrbIds cfg s.context) flows (bindings (gatheredDrbs update session))) :
    Ensures (fun _ => False) (fun r => FlowDone cfg s update session (flows ++ [qfi]) r.1 ∧
        r.1.drbToModify = session.drbToModify ∧
        ∀ drbId, r.2 = some drbId → r.1.drbToAdd.contains drbId = true)
      (CuCp.allocateQosFlow cfg s.context update session qfi qos) := by
  obtain ⟨fiveQi, hfiveQi⟩ := Option.isSome_iff_exists.mp hqos
  obtain ⟨-, pdcp, hpdcp⟩ := getFiveQi_eq_some hfiveQi
  simp only [CuCp.allocateQosFlow, hfiveQi]
  have hnodup := freeDrbIds_nodup cfg s.context
  by_cases hfull : cfg.maxNofDrbsPerUe ≤ s.context.drbMap.size
  · rw [if_pos hfull]
    refine Ensures.ok ⟨⟨rfl, rfl, hgathered.skip hnodup ?_⟩, rfl, nofun⟩
    intro drbId hmem
    rw [freeDrbIds, if_pos hfull] at hmem
    cases hmem
  · rw [if_neg hfull]
    cases halloc : allocateDrbId cfg s.context session update with
    | none =>
      refine Ensures.ok ⟨⟨rfl, rfl, hgathered.skip hnodup ?_⟩, rfl, nofun⟩
      rw [bindings_fst]
      exact hinv.allocateDrbId_none halloc
    | some drbId =>
      obtain ⟨hfree, hnew⟩ := allocateDrbId_some halloc
      have hnone : session.drbToAdd.find? drbId = none := by
        rw [mem_gatheredDrbs, not_or] at hnew
        exact OrdMap.contains_eq_false_iff.mp (Bool.eq_false_iff.mpr hnew.2)
      simp only [hpdcp, ok_bind, OrdMap.emplace_of_fresh hnone]
      refine Ensures.ok ⟨⟨rfl, rfl, ?_⟩, rfl, ?_⟩
      · rw [← bindings_fst] at hnew
        refine Gathered.perm ?_ (bindings_perm (gatheredDrbs_insert hnone))
        exact hgathered.add hfree hnew
      · rintro id hid
        cases hid
        simp [OrdMap.contains]

theorem Inv.setupFlow (hinv : s.Inv) {sNssai : Nat} {flow : Nat × QosParameters}
    (hqos : (getFiveQi cfg flow.2).isSome)
    (hgathered : Gathered (freeDrbIds cfg s.context) flows (bindings (gatheredDrbs update session))) :
    Ensures (fun _ => False) (FlowDone cfg s update session (flows ++ [flow.1]))
      (CuCp.setupFlow cfg s.context update sNssai session flow) := by
  rw [CuCp.setupFlow]
  refine (hinv.allocateQosFlow hqos hgathered).bind ?_
  rintro ⟨session', allocated⟩ ⟨hdone, -, hadded⟩
  cases allocated with
  | none => exact Ensures.ok hdone
  | some drbId =>
    obtain ⟨drb, hdrb⟩ := Option.isSome_iff_exists.mp (hadded drbId rfl)
    have hdrb' : session'.drbToAdd.find? drbId = some drb := hdrb
    simp only [hdrb']
    refine Ensures.ok ⟨hdone.id, hdone.removed, ?_⟩
    have hsame : ∀ drbs : List (Nat × UpDrbContext), bindings (drbs.map fun drb => (drb.1,
        if drb.1 = drbId then { drb.2 with sNssai := sNssai } else drb.2)) = bindings drbs := by
      intro drbs
      rw [bindings, bindings, List.map_map]
      refine List.map_congr_left fun drb _ => ?_
      simp only [Function.comp_apply]
      split
      · rfl
      · rfl
    have hgathered' := hdone.gathered
    rw [gatheredDrbs, bindings_append] at hgathered' ⊢
    rw [← hsame session'.drbToAdd.entries] at hgathered'
    exact hgathered'

variable {items : List (Nat × QosParameters)}

theorem Inv.setupFlows (hinv : s.Inv) {sNssai : Nat}
    (hqos : ∀ flow ∈ items, (getFiveQi cfg flow.2).isSome)
    (hgathered : Gathered (freeDrbIds cfg s.context) flows (bindings (gatheredDrbs update session))) :
    Ensures (fun _ => False) (FlowDone cfg s update session (flows ++ items.map Prod.fst))
      (items.foldlM (CuCp.setupFlow cfg s.context update sNssai) session) := by
  refine Ensures.foldlM (I := fun done session' =>
    FlowDone cfg s update session (flows ++ done.map Prod.fst) session') ?_ ?_
  · rw [List.map_nil, List.append_nil]
    exact ⟨rfl, rfl, hgathered⟩
  · intro session' done flow rest hitems hdone
    have hmem : flow ∈ items := by
      rw [hitems]
      exact List.mem_append_right _ List.mem_cons_self
    refine (hinv.setupFlow (hqos flow hmem) hdone.gathered).mono ?_
    rintro session'' ⟨hid, hremoved, hgathered'⟩
    rw [List.map_append, List.map_singleton, ← List.append_assoc]
    exact ⟨hid.trans hdone.id, hremoved.trans hdone.removed, hgathered'⟩

/-- An update for the first sessions of a setup request. -/
structure SetupDone (cfg : UpResourceManagerCfg) (s : UpResourceManager) (done : List (Nat × SetupItem))
    (update : UpConfigUpdate) : Prop where
  gathered : Gathered (freeDrbIds cfg s.context)
    (done.flatMap fun item => item.2.qosFlows.items.map Prod.fst) (bindings update.drbs)
  ids : ∀ session ∈ update.pduSessionsToSetup.entries,
    session.2.id = session.1 ∧ session.1 ∈ done.map Prod.fst
  noModify : update.pduSessionsToModify = .empty
  noRemove : update.pduSessionsToRemove = []

theorem find?_eq_none_of_keys {V : Type} {m : OrdMap Nat V} {k : Nat} {keys : List Nat}
    (hkeys : ∀ e ∈ m.entries, e.1 ∈ keys) (hk : k ∉ keys) : m.find? k = none :=
  OrdMap.find?_eq_none_iff.mpr fun v hv => hk (hkeys (k, v) hv)

theorem additions_perm {updates updates' : List (Nat × UpPduSessionContextUpdate)}
    (h : updates.Perm updates') : (additions updates).Perm (additions updates') := h.flatMap_right _

theorem Inv.setupSession (hinv : s.Inv) {done : List (Nat × SetupItem)} {item : Nat × SetupItem}
    (hnone : s.context.pduSessions.contains item.1 = false)
    (hqos : ∀ flow ∈ item.2.qosFlows.items, (getFiveQi cfg flow.2).isSome)
    (hnew : item.1 ∉ done.map Prod.fst) (hdone : SetupDone cfg s done update) :
    Ensures (fun _ => False) (SetupDone cfg s (done ++ [item])) (CuCp.setupSession cfg s.context update item) := by
  rw [CuCp.setupSession, hnone, if_neg Bool.false_ne_true]
  have hstart : Gathered (freeDrbIds cfg s.context)
      (done.flatMap fun item => item.2.qosFlows.items.map Prod.fst)
      (bindings (gatheredDrbs update { id := item.1 })) := by
    rw [gatheredDrbs]
    simpa [OrdMap.empty] using hdone.gathered
  refine (hinv.setupFlows hqos hstart).bind ?_
  intro session hsession
  have hgathered := hsession.gathered
  have hids : ∀ other ∈ update.pduSessionsToSetup.entries,
      other.2.id = other.1 ∧ other.1 ∈ (done ++ [item]).map Prod.fst := by
    intro other hother
    rw [List.map_append]
    exact ⟨(hdone.ids other hother).1, List.mem_append_left _ (hdone.ids other hother).2⟩
  split
  · rename_i hsize
    refine Ensures.ok ⟨?_, hids, hdone.noModify, hdone.noRemove⟩
    rw [gatheredDrbs, List.length_eq_zero_iff.mp hsize, List.append_nil] at hgathered
    rw [List.flatMap_append, List.flatMap_singleton]
    exact hgathered
  · have hfresh : update.pduSessionsToSetup.find? session.id = none := by
      rw [hsession.id]
      exact find?_eq_none_of_keys (fun other hother => (hdone.ids other hother).2) hnew
    rw [OrdMap.emplace_of_fresh hfresh]
    have hperm := OrdMap.insert_perm (v := session) hfresh
    refine Ensures.ok ⟨?_, ?_, hdone.noModify, hdone.noRemove⟩
    · rw [List.flatMap_append, List.flatMap_singleton]
      refine hgathered.perm (bindings_perm ?_)
      rw [gatheredDrbs, UpConfigUpdate.drbs, UpConfigUpdate.drbs, hdone.noModify]
      refine .trans ?_ ((additions_perm hperm).symm.append_right _)
      exact List.perm_append_comm.trans (.of_eq (List.append_assoc _ _ _).symm)
    · intro other hother
      rcases List.mem_cons.mp (hperm.mem_iff.mp hother) with rfl | hother
      · exact ⟨rfl, by simp [hsession.id]⟩
      · exact hids other hother

theorem Inv.setupUpdate (hinv : s.Inv) {items : SlottedIdVector SetupItem}
    (hvalid : validSetup cfg s.context items = true) :
    Ensures (fun _ => False) (SetupDone cfg s items.items)
      (items.items.foldlM (CuCp.setupSession cfg s.context) {}) := by
  simp only [validSetup, Bool.and_eq_true, List.all_eq_true, Bool.not_eq_true'] at hvalid
  refine Ensures.foldlM (I := SetupDone cfg s) ⟨.start, nofun, rfl, rfl⟩ ?_
  intro update done item rest hitems hdone
  have hunique := items.unique
  rw [hitems, List.map_append, List.map_cons] at hunique
  obtain ⟨hnone, hqos⟩ := hvalid.2 item (by rw [hitems]; exact List.mem_append_right _ List.mem_cons_self)
  refine hinv.setupSession hnone hqos ?_ hdone
  exact fun hmem => List.disjoint_of_nodup_append hunique hmem List.mem_cons_self

theorem exists_of_owns (h : owns s.context psi qfi = true) :
    ∃ drbId drb, s.context.qosFlowMap.find? qfi = some drbId ∧ s.context.drbOf psi drbId = some drb := by
  rw [owns] at h
  cases hflow : s.context.qosFlowMap.find? qfi with
  | none =>
    rw [hflow] at h
    cases h
  | some drbId =>
    rw [hflow] at h
    obtain ⟨drb, hdrb⟩ := Option.isSome_iff_exists.mp h
    exact ⟨drbId, drb, rfl, hdrb⟩

/-- The DRBs that a session's update modifies are its own. -/
def ModifiesOwn (s : UpResourceManager) (psi : Nat) (session : UpPduSessionContextUpdate) : Prop :=
  ∀ drbId ∈ session.drbToModify.keys, ∃ drb, s.context.drbOf psi drbId = some drb

theorem ModifiesOwn.emplace (h : ModifiesOwn s psi session) {drb : UpDrbContext}
    (hdrb : ∃ own, s.context.drbOf psi drbId = some own) :
    ModifiesOwn s psi { session with drbToModify := session.drbToModify.emplace drbId drb } := by
  intro id hid
  cases hold : session.drbToModify.find? drbId with
  | some other =>
    have hsame : session.drbToModify.emplace drbId drb = session.drbToModify := by
      simp [OrdMap.emplace, OrdMap.contains, hold]
    simp only [hsame] at hid
    exact h id hid
  | none =>
    simp only [OrdMap.emplace_of_fresh hold, OrdMap.mem_keys, OrdMap.find?_insert] at hid
    split at hid
    · rename_i heq
      rw [heq]
      exact hdrb
    · exact h id (OrdMap.mem_keys.mpr hid)

/-- A session's update after some of the flows to add or modify. -/
structure FlowsModified (cfg : UpResourceManagerCfg) (s : UpResourceManager) (update : UpConfigUpdate)
    (psi : Nat) (flows : List Nat) (state : UpConfigUpdate × UpPduSessionContextUpdate) : Prop where
  setup : state.1.pduSessionsToSetup = update.pduSessionsToSetup
  modify : state.1.pduSessionsToModify = update.pduSessionsToModify
  remove : state.1.pduSessionsToRemove = update.pduSessionsToRemove
  id : state.2.id = psi
  removed : state.2.drbToRemove = []
  own : ModifiesOwn s psi state.2
  gathered : Gathered (freeDrbIds cfg s.context) flows (bindings (gatheredDrbs update state.2))

theorem exists_modifyQosFlow (session : UpPduSessionContextUpdate) (hqos : (getFiveQi cfg qos).isSome) {drbId : Nat}
    (hflow : s.context.qosFlowMap.find? qfi = some drbId) :
    ∃ drb, CuCp.modifyQosFlow cfg s.context session qfi qos =
      .ok ({ session with drbToModify := session.drbToModify.emplace drbId drb }, some drbId) := by
  obtain ⟨fiveQi, hfiveQi⟩ := Option.isSome_iff_exists.mp hqos
  obtain ⟨rfl, pdcp, hpdcp⟩ := getFiveQi_eq_some hfiveQi
  simp only [CuCp.modifyQosFlow, hflow, hpdcp, ok_bind]
  exact ⟨_, rfl⟩

theorem Inv.addOrModifyFlow (hinv : s.Inv) {flow : Nat × QosParameters}
    {state : UpConfigUpdate × UpPduSessionContextUpdate} (hqos : (getFiveQi cfg flow.2).isSome)
    (hown : s.context.qosFlowMap.contains flow.1 = true → owns s.context psi flow.1 = true)
    (hdone : FlowsModified cfg s update psi flows state) :
    Ensures (fun _ => False) (FlowsModified cfg s update psi (flows ++ newFlows s.context [flow]))
      (CuCp.addOrModifyFlow cfg s.context state flow) := by
  obtain ⟨update', session⟩ := state
  simp only [CuCp.addOrModifyFlow, newFlows, List.map_singleton]
  cases hmapped : s.context.qosFlowMap.contains flow.1 with
  | true =>
    obtain ⟨drbId, drb, hflow, hdrb⟩ := exists_of_owns (hown hmapped)
    obtain ⟨new, hnew⟩ := exists_modifyQosFlow session hqos hflow
    have hmap := (hinv.drbMap drbId psi).mpr ⟨drb, hdrb⟩
    have hcontains : s.context.drbMap.contains drbId = true := by rw [OrdMap.contains, hmap]; rfl
    rw [if_pos rfl, hnew]
    simp only [ok_bind, hcontains, Bool.true_or, if_true, List.filter_cons, hmapped, Bool.not_true,
      Bool.false_eq_true, if_false, List.filter_nil, List.append_nil]
    exact Ensures.ok ⟨hdone.setup, hdone.modify, hdone.remove, hdone.id, hdone.removed,
      hdone.own.emplace ⟨drb, hdrb⟩, hdone.gathered⟩
  | false =>
    rw [if_neg Bool.false_ne_true]
    simp only [List.filter_cons, hmapped, Bool.not_false, if_true, List.filter_nil]
    have hdrbs : ∀ session, gatheredDrbs update' session = gatheredDrbs update session := by
      intro session
      have hsetup := hdone.setup
      have hmodify := hdone.modify
      simp only at hsetup hmodify
      rw [gatheredDrbs, gatheredDrbs, UpConfigUpdate.drbs, UpConfigUpdate.drbs, hsetup, hmodify]
    refine (hinv.allocateQosFlow hqos (by rw [hdrbs]; exact hdone.gathered)).bind ?_
    rintro ⟨session', allocated⟩ ⟨hflow, hsame, hadded⟩
    have hgathered := hflow.gathered
    rw [hdrbs] at hgathered
    have hown' : ModifiesOwn s psi session' := by
      rw [ModifiesOwn, hsame]
      exact hdone.own
    have hid := hflow.id.trans hdone.id
    have hremoved := hflow.removed.trans hdone.removed
    cases allocated with
    | none => exact Ensures.ok ⟨hdone.setup, hdone.modify, hdone.remove, hid, hremoved, hown', hgathered⟩
    | some drbId =>
      have hcontains := hadded drbId rfl
      simp only at hcontains
      simp only [hcontains, Bool.or_true, if_true]
      exact Ensures.ok ⟨hdone.setup, hdone.modify, hdone.remove, hid, hremoved, hown', hgathered⟩

theorem newFlows_append (context : UpContext) (flows flows' : List (Nat × QosParameters)) :
    newFlows context (flows ++ flows') = newFlows context flows ++ newFlows context flows' := by
  rw [newFlows, List.map_append, List.filter_append]
  rfl

theorem Inv.addOrModifyFlows (hinv : s.Inv) (hqos : ∀ flow ∈ items, (getFiveQi cfg flow.2).isSome)
    (hown : ∀ flow ∈ items, s.context.qosFlowMap.contains flow.1 = true → owns s.context psi flow.1 = true)
    (hgathered : Gathered (freeDrbIds cfg s.context) flows (bindings update.drbs)) :
    Ensures (fun _ => False) (FlowsModified cfg s update psi (flows ++ newFlows s.context items))
      (items.foldlM (CuCp.addOrModifyFlow cfg s.context) (update, { id := psi })) := by
  refine Ensures.foldlM (I := fun done state =>
    FlowsModified cfg s update psi (flows ++ newFlows s.context done) state) ?_ ?_
  · refine ⟨rfl, rfl, rfl, rfl, rfl, nofun, ?_⟩
    rw [gatheredDrbs]
    simpa [newFlows, OrdMap.empty] using hgathered
  · intro state done flow rest hitems hdone
    have hmem : flow ∈ items := by
      rw [hitems]
      exact List.mem_append_right _ List.mem_cons_self
    rw [newFlows_append, ← List.append_assoc]
    exact hinv.addOrModifyFlow (hqos flow hmem) (hown flow hmem) hdone

theorem Inv.releaseFlow (hinv : s.Inv) {flow : Nat × Unit} (hown : owns s.context session.id flow.1 = true) :
    ∃ drbId, s.context.qosFlowMap.find? flow.1 = some drbId ∧ CuCp.releaseFlow s.context session flow =
      .ok { session with drbToRemove := session.drbToRemove ++ [drbId] } := by
  obtain ⟨drbId, drb, hflow, hdrb⟩ := exists_of_owns hown
  obtain ⟨psi', drb', hdrb', hcarries⟩ := hinv.flowMap flow.1 drbId hflow
  have hpsi := hinv.session_unique hdrb' hdrb
  subst hpsi
  rw [hdrb'] at hdrb
  cases hdrb
  obtain ⟨sessionContext, hsession, hfind⟩ := Option.bind_eq_some_iff.mp hdrb'
  refine ⟨drbId, hflow, ?_⟩
  obtain ⟨qos, hentries⟩ := hcarries
  have hcontains : drb.qosFlows.contains flow.1 = true := by simp [contains_eq_decide, hentries]
  simp [CuCp.releaseFlow, hflow, hsession, hfind, hcontains, OrdMap.size, hentries]

theorem Inv.releaseFlows (hinv : s.Inv) {items : List (Nat × Unit)} (hremoved : session.drbToRemove = [])
    (hown : ∀ flow ∈ items, owns s.context session.id flow.1 = true) :
    Ensures (fun _ => False) (fun session' => ∃ drbIds, session' = { session with drbToRemove := drbIds } ∧
        drbIds.map some = items.map fun flow => s.context.qosFlowMap.find? flow.1)
      (items.foldlM (CuCp.releaseFlow s.context) session) := by
  refine Ensures.foldlM (I := fun done session' =>
    ∃ drbIds, session' = { session with drbToRemove := drbIds } ∧
      drbIds.map some = done.map fun flow : Nat × Unit => s.context.qosFlowMap.find? flow.1) ?_ ?_
  · exact ⟨[], by rw [← hremoved], rfl⟩
  · rintro session' done flow rest hitems ⟨drbIds, rfl, hdrbIds⟩
    have hmem : flow ∈ items := by
      rw [hitems]
      exact List.mem_append_right _ List.mem_cons_self
    have hown' : owns s.context ({ session with drbToRemove := drbIds } : UpPduSessionContextUpdate).id
        flow.1 = true := hown flow hmem
    obtain ⟨drbId, hflow, hrelease⟩ := hinv.releaseFlow hown'
    rw [hrelease]
    refine Ensures.ok ⟨drbIds ++ [drbId], rfl, ?_⟩
    rw [List.map_append, List.map_append, hdrbIds, List.map_singleton, List.map_singleton, hflow]

theorem Inv.flow_unique (hinv : s.Inv) {qfi' : Nat} (hflow : s.context.qosFlowMap.find? qfi = some drbId)
    (hflow' : s.context.qosFlowMap.find? qfi' = some drbId) : qfi = qfi' := by
  obtain ⟨psi, drb, hdrb, hcarries⟩ := hinv.flowMap qfi' drbId hflow'
  exact (hinv.flow_iff hdrb hcarries hflow).mpr rfl

theorem Inv.released_nodup (hinv : s.Inv) {items : SlottedIdVector Unit} {drbIds : List Nat}
    (hdrbIds : drbIds.map some =
      items.items.map fun flow : Nat × Unit => s.context.qosFlowMap.find? flow.1) :
    drbIds.Nodup := by
  refine List.Nodup.of_map some ?_
  have hmapped : ∀ flow ∈ items.items, ∃ drbId, s.context.qosFlowMap.find? flow.1 = some drbId := by
    intro flow hflow
    have hmem := List.mem_map_of_mem (f := fun flow : Nat × Unit => s.context.qosFlowMap.find? flow.1) hflow
    rw [← hdrbIds] at hmem
    obtain ⟨drbId, -, hdrbId⟩ := List.mem_map.mp hmem
    exact ⟨drbId, hdrbId.symm⟩
  rw [hdrbIds]
  refine List.Nodup.map_on ?_ (List.Nodup.of_map _ items.unique)
  intro flow hflow flow' hflow' heq
  obtain ⟨drbId, hdrbId⟩ := hmapped flow hflow
  exact Prod.ext (hinv.flow_unique hdrbId (heq.symm.trans hdrbId)) rfl

/-- An update for the first sessions of a modify request. -/
structure ModifyDone (cfg : UpResourceManagerCfg) (s : UpResourceManager) (done : List (Nat × ModifyItem))
    (update : UpConfigUpdate) : Prop where
  gathered : Gathered (freeDrbIds cfg s.context)
    (done.flatMap fun item => newFlows s.context item.2.qosFlowAddOrModify.items) (bindings update.drbs)
  noSetup : update.pduSessionsToSetup = .empty
  noRemove : update.pduSessionsToRemove = []
  sessions : ∀ session ∈ update.pduSessionsToModify.entries,
    session.1 ∈ done.map Prod.fst ∧ s.Modifies session ∧ ModifiesOwn s session.1 session.2
  released : ∀ session ∈ update.pduSessionsToModify.entries, ∀ drbId ∈ session.2.drbToRemove,
    ∃ item ∈ done, item.1 = session.1 ∧
      ∃ flow ∈ item.2.qosFlowToRelease.items, s.context.qosFlowMap.find? flow.1 = some drbId
  count : (update.pduSessionsToModify.entries.flatMap (·.2.drbToRemove)).length =
    (done.flatMap (·.2.qosFlowToRelease.items)).length

theorem Inv.modifySessionUpdate (hinv : s.Inv) {done : List (Nat × ModifyItem)} {item : Nat × ModifyItem}
    (hsession : s.context.pduSessions.contains item.1 = true)
    (hqos : ∀ flow ∈ item.2.qosFlowAddOrModify.items, (getFiveQi cfg flow.2).isSome)
    (hown : namesOwn s.context item = true) (hnew : item.1 ∉ done.map Prod.fst)
    (hdone : ModifyDone cfg s done update) :
    Ensures (fun _ => False) (ModifyDone cfg s (done ++ [item]))
      (CuCp.modifySession cfg s.context update item) := by
  simp only [namesOwn, Bool.and_eq_true, List.all_eq_true, Bool.or_eq_true, Bool.not_eq_true'] at hown
  have hownModify : ∀ flow ∈ item.2.qosFlowAddOrModify.items,
      s.context.qosFlowMap.contains flow.1 = true → owns s.context item.1 flow.1 = true := by
    intro flow hflow hmapped
    rcases hown.1 flow hflow with hunmapped | howns
    · rw [hmapped] at hunmapped
      cases hunmapped
    · exact howns
  rw [CuCp.modifySession, hsession, if_pos rfl]
  refine (hinv.addOrModifyFlows hqos hownModify hdone.gathered).bind ?_
  rintro ⟨update', session⟩ ⟨hsetup, hmodify, hremove, hid, hremoved, hownDrbs, hgathered⟩
  obtain ⟨psi, modification⟩ := item
  simp only at hsetup hmodify hremove hid hgathered
  subst hid
  refine (hinv.releaseFlows hremoved fun flow hflow => hown.2 flow hflow).bind ?_
  rintro session' ⟨drbIds, rfl, hdrbIds⟩
  have hfresh : update'.pduSessionsToModify.find? session.id = none := by
    rw [hmodify]
    exact find?_eq_none_of_keys (fun other hother => (hdone.sessions other hother).1) hnew
  simp only [OrdMap.emplace_of_fresh hfresh]
  have hperm := OrdMap.insert_perm (v := { session with drbToRemove := drbIds }) hfresh
  have hreleased : ∀ drbId ∈ drbIds, ∃ flow ∈ modification.qosFlowToRelease.items,
      s.context.qosFlowMap.find? flow.1 = some drbId := by
    intro drbId hdrbId
    have hmem := List.mem_map_of_mem (f := some) hdrbId
    rw [hdrbIds] at hmem
    exact List.mem_map.mp hmem
  refine Ensures.ok ⟨?_, hsetup.trans hdone.noSetup, hremove.trans hdone.noRemove, ?_, ?_, ?_⟩
  · rw [List.flatMap_append, List.flatMap_singleton]
    refine hgathered.perm (bindings_perm ?_)
    rw [gatheredDrbs, UpConfigUpdate.drbs, UpConfigUpdate.drbs, hsetup, ← hmodify, List.append_assoc]
    refine .append_left _ (.trans ?_ (additions_perm hperm).symm)
    exact List.perm_append_comm
  · intro other hother
    rcases List.mem_cons.mp (hperm.mem_iff.mp hother) with rfl | hother
    · refine ⟨by simp, ⟨rfl, Option.isSome_iff_exists.mp hsession, hinv.released_nodup hdrbIds, ?_⟩, hownDrbs⟩
      intro drbId hdrbId
      obtain ⟨flow, hflow, hmapped⟩ := hreleased drbId hdrbId
      obtain ⟨own, drb, hown', hdrb⟩ := exists_of_owns (hown.2 flow hflow)
      rw [hmapped] at hown'
      cases hown'
      exact ⟨drb, hdrb⟩
    · rw [hmodify] at hother
      obtain ⟨hmem, hrest⟩ := hdone.sessions other hother
      rw [List.map_append]
      exact ⟨List.mem_append_left _ hmem, hrest⟩
  · intro other hother drbId hdrbId
    rcases List.mem_cons.mp (hperm.mem_iff.mp hother) with rfl | hother
    · exact ⟨(session.id, modification), by simp, rfl, hreleased drbId hdrbId⟩
    · rw [hmodify] at hother
      obtain ⟨item', hitem', hrest⟩ := hdone.released other hother drbId hdrbId
      exact ⟨item', List.mem_append_left _ hitem', hrest⟩
  · rw [(hperm.flatMap_right _).length_eq, List.flatMap_cons, List.length_append, hmodify, hdone.count,
      List.flatMap_append, List.flatMap_singleton, List.length_append, Nat.add_comm]
    have hlength := congrArg List.length hdrbIds
    rw [List.length_map, List.length_map] at hlength
    rw [hlength]

theorem Inv.modifyUpdate (hinv : s.Inv) {items : SlottedIdVector ModifyItem}
    (hvalid : validModify cfg s.context items = true)
    (hown : ∀ item ∈ items.items, namesOwn s.context item = true) :
    Ensures (fun _ => False) (ModifyDone cfg s items.items)
      (items.items.foldlM (CuCp.modifySession cfg s.context) {}) := by
  simp only [validModify, Bool.and_eq_true, List.all_eq_true] at hvalid
  refine Ensures.foldlM (I := ModifyDone cfg s) ⟨.start, rfl, rfl, nofun, nofun, rfl⟩ ?_
  intro update done item rest hitems hdone
  have hunique := items.unique
  rw [hitems, List.map_append, List.map_cons] at hunique
  have hmem : item ∈ items.items := by
    rw [hitems]
    exact List.mem_append_right _ List.mem_cons_self
  obtain ⟨⟨⟨hsession, hqos⟩, -⟩, -⟩ := hvalid.2 item hmem
  refine hinv.modifySessionUpdate hsession hqos (hown item hmem) ?_ hdone
  exact fun hmem => List.disjoint_of_nodup_append hunique hmem List.mem_cons_self

theorem releaseUpdate {items : SlottedIdVector Unit} (hvalid : validRelease s.context items = true) :
    Ensures (fun _ : UpFault => False) (fun update : UpConfigUpdate => update.pduSessionsToSetup = .empty ∧
        update.pduSessionsToModify = .empty ∧ update.pduSessionsToRemove = items.items.map Prod.fst)
      (items.items.foldlM (CuCp.releaseSession s.context) {}) := by
  simp only [validRelease, Bool.and_eq_true, List.all_eq_true] at hvalid
  refine Ensures.foldlM (I := fun done (update : UpConfigUpdate) => update.pduSessionsToSetup = .empty ∧
    update.pduSessionsToModify = .empty ∧ update.pduSessionsToRemove = done.map Prod.fst)
    ⟨rfl, rfl, rfl⟩ ?_
  rintro update done item rest hitems ⟨hsetup, hmodify, hremove⟩
  obtain ⟨session, hsession⟩ := Option.isSome_iff_exists.mp
    (hvalid.2 item (by rw [hitems]; exact List.mem_append_right _ List.mem_cons_self))
  simp only [CuCp.releaseSession, hsession]
  exact Ensures.ok ⟨hsetup, hmodify, by rw [hremove, List.map_append, List.map_singleton]⟩

/-- The DRBs that a request gets are all fresh where each of its flows that gets one is new. -/
theorem Inv.freshDrbs (hinv : s.Inv) {drbs : List (Nat × UpDrbContext)}
    (h : Gathered (freeDrbIds cfg s.context) flows (bindings drbs))
    (hnodup : (flows.take (freeDrbIds cfg s.context).length).Nodup)
    (hunmapped : ∀ qfi ∈ flows.take (freeDrbIds cfg s.context).length, s.context.qosFlowMap.find? qfi = none) :
    s.FreshDrbs drbs := by
  have hkeys : (drbs.map fun drb => drb.2.qosFlows.keys).Nodup := by
    have hsnd : (bindings drbs).map Prod.snd = drbs.map fun drb => drb.2.qosFlows.keys := by simp [bindings]
    rw [← hsnd, h.carried.nodup_iff]
    exact hnodup.map fun _ _ heq => List.singleton_inj.mp heq
  have honce := h.once
  rw [bindings_fst] at honce
  refine ⟨?_, (List.pairwise_map.mp honce).and (List.pairwise_map.mp hkeys)⟩
  intro drb hdrb
  have hid := h.ids drb.1 (by rw [bindings_fst]; exact List.mem_map_of_mem hdrb)
  have hcarried : drb.2.qosFlows.keys ∈ (bindings drbs).map Prod.snd := by
    rw [bindings, List.map_map]
    exact List.mem_map_of_mem (f := fun drb : Nat × UpDrbContext => drb.2.qosFlows.keys) hdrb
  obtain ⟨qfi, hqfi, hcarries⟩ := List.mem_map.mp (h.carried.mem_iff.mp hcarried)
  have hclean := clean_of_mem_freeDrbIds hid
  refine ⟨qfi, ?_, hclean, ?_, hunmapped qfi hqfi⟩
  · cases hmap : s.context.drbMap.find? drb.1 with
    | none => rfl
    | some psi =>
      rw [hinv.dirty drb.1 psi hmap] at hclean
      cases hclean
  · obtain ⟨entry, hentry, hfst⟩ := List.map_eq_singleton_iff.mp hcarries.symm
    exact ⟨entry.2, by rw [hentry, ← hfst]⟩

end UpResourceManager

end Srsran.CuCp
