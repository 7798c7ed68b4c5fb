import Srsran.CuCp.UpResourceManager
import Srsran.Lib.Epochs

/-! The look-up tables of DRBs and QoS flows follow the sessions, whatever DRBs are added or removed, as long
as each of their QoS flows is in use once. -/
namespace Srsran.CuCp

def UpContext.drbOf (context : UpContext) (psi drbId : Nat) : Option UpDrbContext :=
  (context.pduSessions.find? psi).bind (·.drbs.find? drbId)

def isKeyRefreshed : UpAction → Bool
  | .keyRefreshed => true
  | .drbAdded _ => false

def UpDrbContext.Carries (drb : UpDrbContext) (qfi : Nat) : Prop :=
  ∃ qos, drb.qosFlows.entries = [(qfi, qos)]

def additions (updates : List (Nat × UpPduSessionContextUpdate)) : List (Nat × UpDrbContext) :=
  updates.flatMap fun update => update.2.drbToAdd.entries

namespace UpDrbContext.Carries
variable {drb : UpDrbContext} {qfi qfi' : Nat}

theorem keys_eq (h : drb.Carries qfi) : drb.qosFlows.keys = [qfi] := by
  obtain ⟨qos, hentries⟩ := h
  rw [OrdMap.keys, hentries]
  rfl

theorem unique (h : drb.Carries qfi) (h' : drb.Carries qfi') : qfi = qfi' :=
  List.singleton_inj.mp (h.keys_eq.symm.trans h'.keys_eq)

theorem contains_iff (h : drb.Carries qfi) : drb.qosFlows.contains qfi' = true ↔ qfi' = qfi := by
  obtain ⟨qos, hentries⟩ := h
  rw [OrdMap.contains_iff, hentries]
  simp

end UpDrbContext.Carries

namespace UpResourceManager

def withSession (session : UpPduSessionContext) (s : UpResourceManager) : UpResourceManager :=
  { s with context := { s.context with pduSessions := s.context.pduSessions.insert session.id session } }

variable {s : UpResourceManager} {session : UpPduSessionContext} {psi drbId qfi : Nat} {drb : UpDrbContext}

theorem drbOf_withSession : (withSession session s).context.drbOf psi drbId =
    if psi = session.id then session.drbs.find? drbId else s.context.drbOf psi drbId := by
  rw [UpContext.drbOf, withSession, OrdMap.find?_insert]
  split
  · rfl
  · rfl

structure Inv (s : UpResourceManager) : Prop where
  ids : ∀ psi session, s.context.pduSessions.find? psi = some session → session.id = psi
  drbMap : ∀ drbId psi, s.context.drbMap.find? drbId = some psi ↔
    ∃ drb, s.context.drbOf psi drbId = some drb
  flows : ∀ psi drbId drb, s.context.drbOf psi drbId = some drb →
    ∃ qfi, drb.Carries qfi ∧ s.context.qosFlowMap.find? qfi = some drbId
  flowMap : ∀ qfi drbId, s.context.qosFlowMap.find? qfi = some drbId →
    ∃ psi drb, s.context.drbOf psi drbId = some drb ∧ drb.Carries qfi
  dirty : ∀ drbId psi, s.context.drbMap.find? drbId = some psi → s.context.drbDirty drbId = true
  given : ∀ action ∈ Epochs.current isKeyRefreshed s.history,
    ∃ drbId, action = .drbAdded drbId ∧ s.context.drbDirty drbId = true
  once : Epochs.Ordered isKeyRefreshed (fun x y => x ≠ y) s.history

theorem Inv.session_unique (h : s.Inv) {psi' : Nat} {drb' : UpDrbContext}
    (hdrb : s.context.drbOf psi drbId = some drb) (hdrb' : s.context.drbOf psi' drbId = some drb') :
    psi = psi' := by
  have hmap := (h.drbMap drbId psi).mpr ⟨drb, hdrb⟩
  have hmap' := (h.drbMap drbId psi').mpr ⟨drb', hdrb'⟩
  rw [hmap] at hmap'
  exact Option.some.inj hmap'

theorem Inv.flow_eq (h : s.Inv) (hdrb : s.context.drbOf psi drbId = some drb) (hcarries : drb.Carries qfi) :
    s.context.qosFlowMap.find? qfi = some drbId := by
  obtain ⟨qfi', hcarries', hflow⟩ := h.flows psi drbId drb hdrb
  rwa [hcarries.unique hcarries']

theorem Inv.place (h : s.Inv)
    (hsame : ∀ drbId, session.drbs.find? drbId = s.context.drbOf session.id drbId) :
    (withSession session s).Inv := by
  have hdrbOf : ∀ psi drbId, (withSession session s).context.drbOf psi drbId =
      s.context.drbOf psi drbId := by
    intro psi drbId
    rw [drbOf_withSession]
    split
    · rename_i heq
      rw [heq, hsame]
    · rfl
  refine ⟨?_, ?_, ?_, ?_, h.dirty, h.given, h.once⟩
  · intro psi session' hfind
    rw [withSession, OrdMap.find?_insert] at hfind
    split at hfind
    · rename_i heq
      cases hfind
      exact heq.symm
    · exact h.ids psi session' hfind
  · intro drbId psi
    rw [hdrbOf]
    exact h.drbMap drbId psi
  · intro psi drbId drb
    rw [hdrbOf]
    exact h.flows psi drbId drb
  · intro qfi drbId hflow
    obtain ⟨psi, drb, hdrb, hcarries⟩ := h.flowMap qfi drbId hflow
    exact ⟨psi, drb, (hdrbOf psi drbId).trans hdrb, hcarries⟩

theorem drbOf_of_find? (hsession : s.context.pduSessions.find? psi = some session) :
    s.context.drbOf psi drbId = session.drbs.find? drbId := by
  rw [UpContext.drbOf, hsession]
  rfl

theorem drbOf_of_none (hnone : s.context.pduSessions.find? psi = none) :
    s.context.drbOf psi drbId = none := by
  rw [UpContext.drbOf, hnone]
  rfl

/-- A DRB that is not in use, with a flow that is not either. -/
structure FreshDrb (s : UpResourceManager) (drbId : Nat) (drb : UpDrbContext) (qfi : Nat) : Prop where
  free : s.context.drbMap.find? drbId = none
  clean : s.context.drbDirty drbId = false
  carries : drb.Carries qfi
  unmapped : s.context.qosFlowMap.find? qfi = none

theorem FreshDrb.addDrb_eq (hfresh : s.FreshDrb drbId drb qfi) (hnone : session.drbs.find? drbId = none) :
    addDrb (session, s) (drbId, drb) =
      ({ session with drbs := session.drbs.insert drbId drb },
        { context := { s.context with
            drbMap := s.context.drbMap.insert drbId session.id
            drbDirty := fun id => id = drbId || s.context.drbDirty id
            qosFlowMap := s.context.qosFlowMap.insert qfi drbId }
          history := s.history ++ [.drbAdded drbId] }) := by
  obtain ⟨qos, hentries⟩ := hfresh.carries
  simp [addDrb, hentries, OrdMap.emplace_of_fresh hfresh.free, OrdMap.emplace_of_fresh hfresh.unmapped,
    OrdMap.emplace_of_fresh hnone]

theorem Inv.find?_drbs (h : (withSession session s).Inv)
    (hfree : s.context.drbMap.find? drbId = none) : session.drbs.find? drbId = none := by
  cases hdrb : session.drbs.find? drbId with
  | none => rfl
  | some drb =>
    have hmap : s.context.drbMap.find? drbId = some session.id :=
      (h.drbMap drbId session.id).mpr ⟨drb, drbOf_withSession.trans ((if_pos rfl).trans hdrb)⟩
    rw [hfree] at hmap
    cases hmap

theorem Inv.addDrb (h : (withSession session s).Inv)
    (hfresh : s.FreshDrb drbId drb qfi) :
    (withSession (addDrb (session, s) (drbId, drb)).1
      (addDrb (session, s) (drbId, drb)).2).Inv := by
  rw [hfresh.addDrb_eq (h.find?_drbs hfresh.free)]
  have hdrbOf : ∀ psi id, (withSession
      { session with drbs := session.drbs.insert drbId drb } s).context.drbOf psi id =
        if psi = session.id ∧ id = drbId then some drb
        else (withSession session s).context.drbOf psi id := by
    intro psi id
    simp only [drbOf_withSession, OrdMap.find?_insert]
    by_cases hpsi : psi = session.id <;> by_cases hid : id = drbId <;> simp [hpsi, hid]
  have hother : ∀ psi id other, (withSession session s).context.drbOf psi id = some other →
      id ≠ drbId := by
    rintro psi id other hfind rfl
    have hmap := (h.drbMap id psi).mpr ⟨other, hfind⟩
    rw [show (withSession session s).context.drbMap.find? id = none from hfresh.free] at hmap
    cases hmap
  refine ⟨?_, ?_, ?_, ?_, ?_, ?_, ?_⟩
  · intro psi session' hfind
    have hfind' : (s.context.pduSessions.insert session.id
        { session with drbs := session.drbs.insert drbId drb }).find? psi = some session' := hfind
    rw [OrdMap.find?_insert] at hfind'
    split at hfind'
    · rename_i heq
      cases hfind'
      exact heq.symm
    · rename_i hne
      exact h.ids psi session' ((OrdMap.find?_insert_of_ne hne).trans hfind')
  · intro id psi
    refine Iff.trans (Eq.congr_left (OrdMap.find?_insert)) ?_
    refine Iff.trans ?_ (exists_congr fun other => Eq.congr_left (hdrbOf psi id).symm)
    by_cases hid : id = drbId
    · subst hid
      rw [if_pos rfl]
      constructor
      · intro hpsi
        cases hpsi
        exact ⟨drb, if_pos ⟨rfl, rfl⟩⟩
      · rintro ⟨other, hfind⟩
        split at hfind
        · rename_i heq
          rw [heq.1]
        · exact absurd rfl (hother psi id other hfind)
    · rw [if_neg hid]
      simp only [hid, and_false, if_false]
      exact h.drbMap id psi
  · intro psi id other hfind
    replace hfind := (hdrbOf psi id).symm.trans hfind
    split at hfind
    · rename_i heq
      cases hfind
      refine ⟨qfi, hfresh.carries, ?_⟩
      rw [heq.2]
      exact OrdMap.find?_insert_self
    · obtain ⟨qfi', hcarries, hflow⟩ := h.flows psi id other hfind
      refine ⟨qfi', hcarries, (OrdMap.find?_insert_of_ne ?_).trans hflow⟩
      rintro rfl
      rw [show (withSession session s).context.qosFlowMap.find? qfi' = none from
        hfresh.unmapped] at hflow
      cases hflow
  · intro qfi' id hflow
    replace hflow : (s.context.qosFlowMap.insert qfi drbId).find? qfi' = some id := hflow
    rw [OrdMap.find?_insert] at hflow
    split at hflow
    · rename_i heq
      cases hflow
      exact ⟨session.id, drb, (hdrbOf session.id drbId).trans (if_pos ⟨rfl, rfl⟩), heq ▸ hfresh.carries⟩
    · obtain ⟨psi, other, hfind, hcarries⟩ := h.flowMap qfi' id hflow
      refine ⟨psi, other, (hdrbOf psi id).trans ?_, hcarries⟩
      rw [if_neg fun heq => hother psi id other hfind heq.2, hfind]
  · intro id psi hmap
    replace hmap : (s.context.drbMap.insert drbId session.id).find? id = some psi := hmap
    rw [OrdMap.find?_insert] at hmap
    split at hmap
    · rename_i heq
      simp [heq, withSession]
    · have hdirty : s.context.drbDirty id = true := h.dirty id psi hmap
      simp [hdirty, withSession]
  · intro action haction
    replace haction : action ∈ Epochs.current isKeyRefreshed (s.history ++ [.drbAdded drbId]) := haction
    rw [Epochs.current_concat_of_not_marker rfl] at haction
    rcases List.mem_append.mp haction with hold | hnew
    · obtain ⟨id, rfl, hdirty⟩ := h.given action hold
      have hdirty' : s.context.drbDirty id = true := hdirty
      exact ⟨id, rfl, by simp [hdirty', withSession]⟩
    · exact ⟨drbId, List.mem_singleton.mp hnew, by simp [withSession]⟩
  · refine Epochs.Ordered.concat h.once ?_
    rintro action haction rfl
    obtain ⟨id, hid, hdirty⟩ := h.given _ haction
    cases hid
    have hdirty' : s.context.drbDirty drbId = true := hdirty
    rw [hfresh.clean] at hdirty'
    cases hdirty'

theorem removeDrb_eq (hdrb : session.drbs.find? drbId = some drb) (hcarries : drb.Carries qfi) :
    removeDrb (session, s) drbId = .ok ({ session with drbs := session.drbs.erase drbId },
      { s with context := { s.context with
        qosFlowMap := s.context.qosFlowMap.erase qfi
        drbMap := s.context.drbMap.erase drbId } }) := by
  simp [removeDrb, hdrb, hcarries.keys_eq]

/-- The tables without the DRBs that `gone` tells, and without their flows. -/
theorem Inv.without (h : s.Inv) {s' : UpResourceManager} (gone : Nat → Prop) [DecidablePred gone]
    (hdrbOf : ∀ psi id, s'.context.drbOf psi id = if gone id then none else s.context.drbOf psi id)
    (hids : ∀ psi session, s'.context.pduSessions.find? psi = some session → session.id = psi)
    (hdrbMap : ∀ id, s'.context.drbMap.find? id = if gone id then none else s.context.drbMap.find? id)
    (hflows : ∀ qfi id, s'.context.qosFlowMap.find? qfi = some id ↔
      s.context.qosFlowMap.find? qfi = some id ∧ ¬gone id)
    (hdirty : s'.context.drbDirty = s.context.drbDirty) (hhistory : s'.history = s.history) : s'.Inv := by
  refine ⟨hids, ?_, ?_, ?_, ?_, ?_, ?_⟩
  · intro id psi
    rw [hdrbMap]
    simp only [hdrbOf]
    split
    · simp
    · exact h.drbMap id psi
  · intro psi id other hfind
    rw [hdrbOf] at hfind
    split at hfind
    · cases hfind
    · rename_i hkept
      obtain ⟨qfi, hcarries, hflow⟩ := h.flows psi id other hfind
      exact ⟨qfi, hcarries, (hflows qfi id).mpr ⟨hflow, hkept⟩⟩
  · intro qfi id hflow
    obtain ⟨hold, hkept⟩ := (hflows qfi id).mp hflow
    obtain ⟨psi, other, hfind, hcarries⟩ := h.flowMap qfi id hold
    exact ⟨psi, other, by rw [hdrbOf, if_neg hkept, hfind], hcarries⟩
  · intro id psi hmap
    rw [hdrbMap] at hmap
    rw [hdirty]
    split at hmap
    · cases hmap
    · exact h.dirty id psi hmap
  · rw [hhistory, hdirty]
    exact h.given
  · rw [hhistory]
    exact h.once

/-- The DRB that the flow table names for a flow that a DRB carries is this DRB. -/
theorem Inv.flow_iff (h : s.Inv) (hdrb : s.context.drbOf psi drbId = some drb) (hcarries : drb.Carries qfi)
    {qfi' id : Nat} (hflow : s.context.qosFlowMap.find? qfi' = some id) : qfi' = qfi ↔ id = drbId := by
  constructor
  · rintro rfl
    rw [h.flow_eq hdrb hcarries] at hflow
    exact (Option.some.inj hflow).symm
  · rintro rfl
    obtain ⟨psi', other, hother, hcarries'⟩ := h.flowMap qfi' id hflow
    have hpsi := h.session_unique hother hdrb
    subst hpsi
    rw [hother] at hdrb
    cases hdrb
    exact hcarries'.unique hcarries

theorem Inv.removeDrb (h : (withSession session s).Inv) (hdrb : session.drbs.find? drbId = some drb) :
    ∃ r, removeDrb (session, s) drbId = .ok r ∧ (withSession r.1 r.2).Inv ∧ r.1.id = session.id ∧
      r.1.drbs = session.drbs.erase drbId ∧ r.2.context.pduSessions = s.context.pduSessions ∧
      s.context.drbMap.size = r.2.context.drbMap.size + 1 := by
  have hfind : (withSession session s).context.drbOf session.id drbId = some drb :=
    drbOf_withSession.trans ((if_pos rfl).trans hdrb)
  obtain ⟨qfi, hcarries, hflow⟩ := h.flows session.id drbId drb hfind
  have hmap : s.context.drbMap.find? drbId = some session.id := (h.drbMap drbId session.id).mpr ⟨drb, hfind⟩
  refine ⟨_, removeDrb_eq hdrb hcarries, ?_, rfl, rfl, rfl, OrdMap.size_erase hmap⟩
  refine h.without (fun id => id = drbId) ?_ ?_ (fun _ => OrdMap.find?_erase) ?_ rfl rfl
  · intro psi id
    rw [drbOf_withSession, drbOf_withSession]
    by_cases hpsi : psi = session.id
    · rw [if_pos hpsi, if_pos hpsi]
      exact OrdMap.find?_erase
    · rw [if_neg hpsi, if_neg hpsi]
      split
      · rename_i hid
        subst hid
        cases hother : s.context.drbOf psi id with
        | none => exact hother
        | some other =>
          have hother' := drbOf_withSession.trans ((if_neg hpsi).trans hother)
          exact absurd (h.session_unique hother' hfind) hpsi
      · rfl
  · intro psi session' hsession
    replace hsession : (s.context.pduSessions.insert session.id
        { session with drbs := session.drbs.erase drbId }).find? psi = some session' := hsession
    rw [OrdMap.find?_insert] at hsession
    split at hsession
    · rename_i heq
      cases hsession
      exact heq.symm
    · rename_i hne
      exact h.ids psi session' ((OrdMap.find?_insert_of_ne hne).trans hsession)
  · intro qfi' id
    refine Iff.trans (Eq.congr_left OrdMap.find?_erase) ?_
    constructor
    · intro hsome
      split at hsome
      · cases hsome
      · rename_i hne
        exact ⟨hsome, fun hid => hne ((h.flow_iff hfind hcarries hsome).mpr hid)⟩
    · rintro ⟨hsome, hne⟩
      rw [if_neg fun heq => hne ((h.flow_iff hfind hcarries hsome).mp heq)]
      exact hsome

structure FreshDrbs (s : UpResourceManager) (drbs : List (Nat × UpDrbContext)) : Prop where
  each : ∀ drb ∈ drbs, ∃ qfi, s.FreshDrb drb.1 drb.2 qfi
  apart : drbs.Pairwise fun drb other => drb.1 ≠ other.1 ∧ drb.2.qosFlows.keys ≠ other.2.qosFlows.keys

variable {rest : List (Nat × UpDrbContext)}

theorem FreshDrbs.tail {drb : Nat × UpDrbContext} (h : s.FreshDrbs (drb :: rest))
    (hnone : session.drbs.find? drb.1 = none) : (addDrb (session, s) drb).2.FreshDrbs rest := by
  obtain ⟨qfi, hfresh⟩ := h.each drb List.mem_cons_self
  obtain ⟨hapart, hrest⟩ := List.pairwise_cons.mp h.apart
  refine ⟨fun other hother => ?_, hrest⟩
  obtain ⟨qfi', hfresh'⟩ := h.each other (List.mem_cons_of_mem _ hother)
  obtain ⟨hid, hkeys⟩ := hapart other hother
  rw [hfresh.carries.keys_eq, hfresh'.carries.keys_eq] at hkeys
  have heq := hfresh.addDrb_eq hnone
  refine ⟨qfi', ?_, ?_, hfresh'.carries, ?_⟩
  · rw [heq]
    exact (OrdMap.find?_insert_of_ne hid.symm).trans hfresh'.free
  · rw [heq]
    simp [hid.symm, hfresh'.clean]
  · rw [heq]
    exact (OrdMap.find?_insert_of_ne fun hqfi => hkeys (by rw [hqfi])).trans hfresh'.unmapped

theorem Inv.addDrbs {drbs : List (Nat × UpDrbContext)} (h : (withSession session s).Inv)
    (hfresh : s.FreshDrbs (drbs ++ rest)) :
    (withSession (drbs.foldl UpResourceManager.addDrb (session, s)).1
      (drbs.foldl UpResourceManager.addDrb (session, s)).2).Inv ∧
    (drbs.foldl UpResourceManager.addDrb (session, s)).2.FreshDrbs rest ∧
    (drbs.foldl UpResourceManager.addDrb (session, s)).1.id = session.id ∧
    (∀ id drb, session.drbs.find? id = some drb →
      (drbs.foldl UpResourceManager.addDrb (session, s)).1.drbs.find? id = some drb) ∧
    (drbs.foldl UpResourceManager.addDrb (session, s)).2.context.pduSessions = s.context.pduSessions ∧
    (drbs.foldl UpResourceManager.addDrb (session, s)).2.context.drbMap.size =
      s.context.drbMap.size + drbs.length := by
  induction drbs generalizing session s with
  | nil => exact ⟨h, hfresh, rfl, fun _ _ hdrb => hdrb, rfl, rfl⟩
  | cons drb drbs ih =>
    obtain ⟨qfi, hdrb⟩ := hfresh.each drb List.mem_cons_self
    have hnone := h.find?_drbs hdrb.free
    have heq := hdrb.addDrb_eq hnone
    obtain ⟨hinv, hrest, hid, hkept, hsessions, hsize⟩ := ih (h.addDrb hdrb) (hfresh.tail hnone)
    rw [List.foldl_cons]
    refine ⟨hinv, hrest, hid.trans (by rw [heq]), ?_, hsessions.trans (by rw [heq]), ?_⟩
    · intro id other hother
      refine hkept id other ?_
      rw [heq]
      refine (OrdMap.find?_insert_of_ne ?_).trans hother
      rintro rfl
      rw [hnone] at hother
      cases hother
    · rw [hsize, heq, OrdMap.size_insert hdrb.free, List.length_cons]
      omega

theorem FreshDrbs.mono {s' : UpResourceManager} {drbs : List (Nat × UpDrbContext)} (h : s.FreshDrbs drbs)
    (hdrbMap : ∀ id, s.context.drbMap.find? id = none → s'.context.drbMap.find? id = none)
    (hdirty : s'.context.drbDirty = s.context.drbDirty)
    (hflows : ∀ qfi, s.context.qosFlowMap.find? qfi = none → s'.context.qosFlowMap.find? qfi = none) :
    s'.FreshDrbs drbs := by
  refine ⟨fun drb hdrb => ?_, h.apart⟩
  obtain ⟨qfi, hfresh⟩ := h.each drb hdrb
  exact ⟨qfi, hdrbMap _ hfresh.free, hdirty ▸ hfresh.clean, hfresh.carries, hflows _ hfresh.unmapped⟩

theorem find?_erase_none {V : Type} {m : OrdMap Nat V} {k k' : Nat} (h : m.find? k = none) :
    (m.erase k').find? k = none := by
  rw [OrdMap.find?_erase, h, ite_self]

theorem Inv.removeDrbs {drbIds : List Nat} (h : (withSession session s).Inv)
    (hfresh : s.FreshDrbs rest) (hnodup : drbIds.Nodup)
    (hdrbs : ∀ id ∈ drbIds, ∃ drb, session.drbs.find? id = some drb) :
    ∃ r, drbIds.foldlM UpResourceManager.removeDrb (session, s) = .ok r ∧ (withSession r.1 r.2).Inv ∧
      r.2.FreshDrbs rest ∧ r.1.id = session.id ∧ r.2.context.pduSessions = s.context.pduSessions ∧
      (∀ id, id ∉ drbIds → r.1.drbs.find? id = session.drbs.find? id) ∧
      s.context.drbMap.size = r.2.context.drbMap.size + drbIds.length := by
  induction drbIds generalizing session s with
  | nil => exact ⟨(session, s), rfl, h, hfresh, rfl, rfl, fun _ _ => rfl, rfl⟩
  | cons id ids ih =>
    obtain ⟨hnew, hids⟩ := List.nodup_cons.mp hnodup
    obtain ⟨drb, hdrb⟩ := hdrbs id List.mem_cons_self
    obtain ⟨r, hr, hinv, hid, herase, hsessions, hsize⟩ := h.removeDrb hdrb
    have hfresh' : r.2.FreshDrbs rest := by
      obtain ⟨qfi, hcarries, -⟩ := h.flows session.id id drb
        (drbOf_withSession.trans ((if_pos rfl).trans hdrb))
      rw [removeDrb_eq hdrb hcarries] at hr
      cases hr
      exact hfresh.mono (fun _ hnone => find?_erase_none hnone) rfl fun _ hnone => find?_erase_none hnone
    have hothers : ∀ other ∈ ids, ∃ drb, r.1.drbs.find? other = some drb := by
      intro other hother
      obtain ⟨drb', hdrb'⟩ := hdrbs other (List.mem_cons_of_mem _ hother)
      refine ⟨drb', ?_⟩
      rw [herase, OrdMap.find?_erase, if_neg, hdrb']
      rintro rfl
      exact hnew hother
    obtain ⟨r', hr', hinv', hrest, hid', hsessions', hsame, hsize'⟩ := ih hinv hfresh' hids hothers
    refine ⟨r', ?_, hinv', hrest, hid'.trans hid, hsessions'.trans hsessions, ?_, ?_⟩
    · rw [List.foldlM_cons, hr, Checked.ok_bind]
      exact hr'
    · intro other hother
      rw [List.mem_cons, not_or] at hother
      rw [hsame other hother.2, herase, OrdMap.find?_erase, if_neg hother.1]
    · rw [hsize, hsize', List.length_cons]
      omega

/-- What the update of sessions leaves as it is, and how many DRBs there are then. -/
structure Applied (s s' : UpResourceManager) (touched : List Nat) (added : Nat) (gone : List Nat) : Prop where
  inv : s'.Inv
  others : ∀ psi, psi ∉ touched → s'.context.pduSessions.find? psi = s.context.pduSessions.find? psi
  kept : ∀ psi session, s.context.pduSessions.find? psi = some session →
    ∃ session', s'.context.pduSessions.find? psi = some session'
  keeps : ∀ psi drbId drb, s.context.drbOf psi drbId = some drb → drbId ∉ gone →
    s'.context.drbOf psi drbId = some drb
  size : s'.context.drbMap.size + gone.length = s.context.drbMap.size + added

theorem Applied.trans {s₁ s₂ s₃ : UpResourceManager} {touched touched' gone gone' : List Nat} {a a' : Nat}
    (h : Applied s₁ s₂ touched a gone) (h' : Applied s₂ s₃ touched' a' gone') :
    Applied s₁ s₃ (touched ++ touched') (a + a') (gone ++ gone') where
  inv := h'.inv
  others := by
    intro psi hpsi
    rw [List.mem_append, not_or] at hpsi
    rw [h'.others psi hpsi.2, h.others psi hpsi.1]
  kept := by
    intro psi session hsession
    obtain ⟨session', hsession'⟩ := h.kept psi session hsession
    exact h'.kept psi session' hsession'
  keeps := by
    intro psi drbId drb hdrb hgone
    rw [List.mem_append, not_or] at hgone
    exact h'.keeps psi drbId drb (h.keeps psi drbId drb hdrb hgone.1) hgone.2
  size := by
    have hsize := h.size
    have hsize' := h'.size
    rw [List.length_append]
    omega

theorem Applied.refl (h : s.Inv) : Applied s s [] 0 [] where
  inv := h
  others := fun _ _ => rfl
  kept := fun _ session hsession => ⟨session, hsession⟩
  keeps := fun _ _ _ hdrb _ => hdrb
  size := rfl

theorem exists_find?_insert {V : Type} {m : OrdMap Nat V} {k k' : Nat} {v : V}
    (h : ∃ v', m.find? k' = some v') : ∃ v', (m.insert k v).find? k' = some v' := by
  rw [OrdMap.find?_insert]
  split
  · exact ⟨v, rfl⟩
  · exact h

variable {update : Nat × UpPduSessionContextUpdate}

theorem Inv.addSession (h : s.Inv)
    (hid : update.2.id = update.1) (hnone : s.context.pduSessions.find? update.1 = none)
    (hfresh : s.FreshDrbs (update.2.drbToAdd.entries ++ rest)) :
    Applied s (UpResourceManager.addSession s update) [update.1] update.2.drbToAdd.entries.length [] ∧
      (UpResourceManager.addSession s update).FreshDrbs rest := by
  have hplaced : (withSession { id := update.2.id } s).Inv := by
    refine h.place fun id => ?_
    rw [hid, drbOf_of_none hnone]
    rfl
  obtain ⟨hinv, hrest, hid', -, hsessions, hsize⟩ := hplaced.addDrbs hfresh
  rw [UpResourceManager.addSession, applyUpdateForNewDrbs]
  generalize update.2.drbToAdd.entries.foldl UpResourceManager.addDrb ({ id := update.2.id }, s) = r
    at hinv hrest hid' hsessions hsize ⊢
  have hfree : r.2.context.pduSessions.find? r.1.id = none := by
    rw [hsessions, hid', hid, hnone]
  simp only [OrdMap.emplace_of_fresh hfree]
  have hother : ∀ psi, psi ≠ update.1 →
      (s.context.pduSessions.insert r.1.id r.1).find? psi = s.context.pduSessions.find? psi := by
    intro psi hpsi
    exact OrdMap.find?_insert_of_ne (by rw [hid', hid]; exact hpsi)
  refine ⟨⟨hinv, ?_, ?_, ?_, hsize⟩, hrest.mono (fun _ hid => hid) rfl fun _ hqfi => hqfi⟩
  · intro psi hpsi
    rw [List.mem_singleton] at hpsi
    rw [hsessions, hother psi hpsi]
  · intro psi session hsession
    refine exists_find?_insert ?_
    rw [hsessions]
    exact ⟨session, hsession⟩
  · intro psi drbId drb hdrb _
    by_cases hpsi : psi = update.1
    · rw [hpsi, drbOf_of_none hnone] at hdrb
      cases hdrb
    · rw [UpContext.drbOf]
      simp only [hsessions, hother psi hpsi]
      exact hdrb

variable {updates : List (Nat × UpPduSessionContextUpdate)}

theorem Inv.addSessions (h : s.Inv)
    (hids : ∀ update ∈ updates, update.2.id = update.1) (hkeys : (updates.map Prod.fst).Nodup)
    (hnone : ∀ update ∈ updates, s.context.pduSessions.find? update.1 = none)
    (hfresh : s.FreshDrbs (additions updates ++ rest)) :
    Applied s (updates.foldl UpResourceManager.addSession s) (updates.map Prod.fst)
        (additions updates).length [] ∧
      (updates.foldl UpResourceManager.addSession s).FreshDrbs rest := by
  induction updates generalizing s with
  | nil => exact ⟨.refl h, hfresh⟩
  | cons update updates ih =>
    rw [List.map_cons, List.nodup_cons] at hkeys
    rw [additions, List.flatMap_cons, List.append_assoc] at hfresh
    obtain ⟨happlied, hfresh'⟩ := h.addSession (hids update List.mem_cons_self)
      (hnone update List.mem_cons_self) hfresh
    have hnone' : ∀ other ∈ updates,
        (UpResourceManager.addSession s update).context.pduSessions.find? other.1 = none := by
      intro other hother
      rw [happlied.others other.1, hnone other (List.mem_cons_of_mem _ hother)]
      rw [List.mem_singleton]
      exact fun heq => hkeys.1 (heq ▸ List.mem_map_of_mem hother)
    obtain ⟨happlied', hrest⟩ := ih happlied.inv
      (fun other hother => hids other (List.mem_cons_of_mem _ hother)) hkeys.2 hnone' hfresh'
    refine ⟨?_, hrest⟩
    have htrans := happlied.trans happlied'
    rw [additions, List.flatMap_cons, List.length_append]
    exact htrans

/-- What an update asks of an existing session. -/
structure Modifies (s : UpResourceManager) (update : Nat × UpPduSessionContextUpdate) : Prop where
  id : update.2.id = update.1
  session : ∃ session, s.context.pduSessions.find? update.1 = some session
  nodup : update.2.drbToRemove.Nodup
  removed : ∀ drbId ∈ update.2.drbToRemove, ∃ drb, s.context.drbOf update.1 drbId = some drb

theorem Inv.modifySession (h : s.Inv)
    (hmodifies : s.Modifies update) (hfresh : s.FreshDrbs (update.2.drbToAdd.entries ++ rest)) :
    ∃ s', UpResourceManager.modifySession s update = .ok s' ∧
      Applied s s' [update.1] update.2.drbToAdd.entries.length update.2.drbToRemove ∧
      s'.FreshDrbs rest := by
  obtain ⟨session, hsession⟩ := hmodifies.session
  have hid : session.id = update.1 := h.ids _ _ hsession
  have hplaced : (withSession session s).Inv := h.place fun id => by
    rw [hid, drbOf_of_find? hsession]
  obtain ⟨hinv, hrest, hid', hkept, hsessions, hsize⟩ := hplaced.addDrbs hfresh
  rw [UpResourceManager.modifySession, hmodifies.id, hsession]
  simp only [applyUpdateForNewDrbs, applyUpdateForRemovedDrbs]
  generalize update.2.drbToAdd.entries.foldl UpResourceManager.addDrb (session, s) = r
    at hinv hrest hid' hkept hsessions hsize ⊢
  have hremoved : ∀ drbId ∈ update.2.drbToRemove, ∃ drb, r.1.drbs.find? drbId = some drb := by
    intro drbId hdrbId
    obtain ⟨drb, hdrb⟩ := hmodifies.removed drbId hdrbId
    rw [drbOf_of_find? hsession] at hdrb
    exact ⟨drb, hkept drbId drb hdrb⟩
  obtain ⟨r', hr', hinv', hrest', hid'', hsessions', hsame, hsize'⟩ :=
    hinv.removeDrbs hrest hmodifies.nodup hremoved
  have hkey : r'.1.id = update.1 := hid''.trans (hid'.trans hid)
  rw [hr', Checked.ok_bind]
  refine ⟨_, rfl, ⟨?_, ?_, ?_, ?_, ?_⟩, hrest'.mono (fun _ hid => hid) rfl fun _ hqfi => hqfi⟩
  · rw [← hkey]
    exact hinv'
  · intro psi hpsi
    rw [List.mem_singleton] at hpsi
    rw [OrdMap.find?_insert_of_ne hpsi, hsessions', hsessions]
  · intro psi other hother
    refine exists_find?_insert ?_
    rw [hsessions', hsessions]
    exact ⟨other, hother⟩
  · intro psi drbId drb hdrb hgone
    rw [UpContext.drbOf, OrdMap.find?_insert]
    split
    · rename_i heq
      rw [heq, drbOf_of_find? hsession] at hdrb
      rw [Option.bind_some, hsame drbId hgone]
      exact hkept drbId drb hdrb
    · rw [hsessions', hsessions]
      exact hdrb
  · simp only
    omega

theorem Inv.modifySessions (h : s.Inv)
    (hkeys : (updates.map Prod.fst).Nodup) (hmodifies : ∀ update ∈ updates, s.Modifies update)
    (hfresh : s.FreshDrbs (additions updates ++ rest)) :
    ∃ s', updates.foldlM UpResourceManager.modifySession s = .ok s' ∧
      Applied s s' (updates.map Prod.fst) (additions updates).length
        (updates.flatMap (·.2.drbToRemove)) ∧ s'.FreshDrbs rest := by
  induction updates generalizing s with
  | nil => exact ⟨s, rfl, .refl h, hfresh⟩
  | cons update updates ih =>
    rw [List.map_cons, List.nodup_cons] at hkeys
    rw [additions, List.flatMap_cons, List.append_assoc] at hfresh
    obtain ⟨mid, hmid, happlied, hfresh'⟩ := h.modifySession (hmodifies update List.mem_cons_self) hfresh
    have hmodifies' : ∀ other ∈ updates, mid.Modifies other := by
      intro other hother
      have hold := hmodifies other (List.mem_cons_of_mem _ hother)
      have hsame := happlied.others other.1 (by
        rw [List.mem_singleton]
        exact fun heq => hkeys.1 (heq ▸ List.mem_map_of_mem hother))
      refine ⟨hold.id, by rw [hsame]; exact hold.session, hold.nodup, fun drbId hdrbId => ?_⟩
      rw [UpContext.drbOf, hsame]
      exact hold.removed drbId hdrbId
    obtain ⟨s', hs', happlied', hrest⟩ := ih happlied.inv hkeys.2 hmodifies' hfresh'
    refine ⟨s', ?_, ?_, hrest⟩
    · rw [List.foldlM_cons, hmid, Checked.ok_bind]
      exact hs'
    · have htrans := happlied.trans happlied'
      rw [additions, List.flatMap_cons, List.flatMap_cons, List.length_append]
      exact htrans

theorem Inv.removeSession (h : s.Inv) (hsession : s.context.pduSessions.find? psi = some session) :
    ∃ s', UpResourceManager.removeSession s psi = .ok s' ∧ s'.Inv ∧
      (∀ other, other ≠ psi → s'.context.pduSessions.find? other = s.context.pduSessions.find? other) ∧
      s'.context.drbMap.size ≤ s.context.drbMap.size := by
  have hdrbs : ∀ id, id ∈ session.drbs.keys ↔ ∃ drb, s.context.drbOf psi id = some drb := by
    intro id
    rw [OrdMap.mem_keys, drbOf_of_find? hsession]
  have hflowGone : ∀ qfi id, s.context.qosFlowMap.find? qfi = some id →
      (qfi ∈ session.drbs.entries.flatMap (fun drb => drb.2.qosFlows.keys) ↔ id ∈ session.drbs.keys) := by
    intro qfi id hflow
    rw [List.mem_flatMap, hdrbs]
    constructor
    · rintro ⟨entry, hentry, hqfi⟩
      have hdrb : s.context.drbOf psi entry.1 = some entry.2 :=
        (drbOf_of_find? hsession).trans (OrdMap.find?_eq_some_iff.mpr hentry)
      obtain ⟨qfi', hcarries, -⟩ := h.flows psi entry.1 entry.2 hdrb
      rw [hcarries.keys_eq, List.mem_singleton] at hqfi
      exact ⟨entry.2, ((h.flow_iff hdrb hcarries hflow).mp hqfi) ▸ hdrb⟩
    · rintro ⟨drb, hdrb⟩
      obtain ⟨qfi', hcarries, -⟩ := h.flows psi id drb hdrb
      refine ⟨(id, drb), OrdMap.find?_eq_some_iff.mp ((drbOf_of_find? hsession).symm.trans hdrb), ?_⟩
      rw [hcarries.keys_eq, List.mem_singleton]
      exact (h.flow_iff hdrb hcarries hflow).mpr rfl
  rw [UpResourceManager.removeSession, hsession]
  refine ⟨_, rfl, ?_, fun other hother => (OrdMap.find?_erase).trans (if_neg hother),
    OrdMap.size_foldl_erase_le⟩
  refine h.without (fun id => id ∈ session.drbs.keys) ?_ ?_ (fun _ => OrdMap.find?_foldl_erase) ?_ rfl rfl
  · intro other id
    rw [UpContext.drbOf, OrdMap.find?_erase]
    by_cases hother : other = psi
    · subst hother
      rw [if_pos rfl, Option.bind_none]
      split
      · rfl
      · rename_i hkept
        cases hdrb : s.context.drbOf other id with
        | none => rfl
        | some drb => exact absurd ((hdrbs id).mpr ⟨drb, hdrb⟩) hkept
    · rw [if_neg hother]
      split
      · rename_i hgone
        obtain ⟨drb, hdrb⟩ := (hdrbs id).mp hgone
        cases hfind : s.context.drbOf other id with
        | none => exact hfind
        | some drb' => exact absurd (h.session_unique hfind hdrb) hother
      · rfl
  · intro other session' hfind
    have hfind' : (s.context.pduSessions.erase psi).find? other = some session' := hfind
    rw [OrdMap.find?_erase] at hfind'
    split at hfind'
    · cases hfind'
    · exact h.ids other session' hfind'
  · intro qfi id
    simp only
    rw [← List.foldl_flatMap, OrdMap.find?_foldl_erase]
    constructor
    · intro hsome
      split at hsome
      · cases hsome
      · rename_i hkept
        exact ⟨hsome, fun hgone => hkept ((hflowGone qfi id hsome).mpr hgone)⟩
    · rintro ⟨hsome, hkept⟩
      rw [if_neg fun hgone => hkept ((hflowGone qfi id hsome).mp hgone)]
      exact hsome

theorem Inv.removeSessions {psis : List Nat} (h : s.Inv) (hnodup : psis.Nodup)
    (hsessions : ∀ psi ∈ psis, ∃ session, s.context.pduSessions.find? psi = some session) :
    ∃ s', psis.foldlM UpResourceManager.removeSession s = .ok s' ∧ s'.Inv ∧
      (∀ other, other ∉ psis → s'.context.pduSessions.find? other = s.context.pduSessions.find? other) ∧
      s'.context.drbMap.size ≤ s.context.drbMap.size := by
  induction psis generalizing s with
  | nil => exact ⟨s, rfl, h, fun _ _ => rfl, Nat.le_refl _⟩
  | cons psi psis ih =>
    obtain ⟨hnew, hrest⟩ := List.nodup_cons.mp hnodup
    obtain ⟨session, hsession⟩ := hsessions psi List.mem_cons_self
    obtain ⟨mid, hmid, hinv, hothers, hsize⟩ := h.removeSession hsession
    have hsessions' : ∀ other ∈ psis, ∃ session, mid.context.pduSessions.find? other = some session := by
      intro other hother
      rw [hothers other fun heq => hnew (heq ▸ hother)]
      exact hsessions other (List.mem_cons_of_mem _ hother)
    obtain ⟨s', hs', hinv', hothers', hsize'⟩ := ih hinv hrest hsessions'
    refine ⟨s', ?_, hinv', ?_, hsize'.trans hsize⟩
    · rw [List.foldlM_cons, hmid, Checked.ok_bind]
      exact hs'
    · intro other hother
      rw [List.mem_cons, not_or] at hother
      rw [hothers' other hother.2, hothers other hother.1]

/-- What an update asks for can be done: it brings fresh DRBs only, and names DRBs of its own sessions. -/
structure Applicable (s : UpResourceManager) (update : UpConfigUpdate) : Prop where
  setupIds : ∀ session ∈ update.pduSessionsToSetup.entries, session.2.id = session.1
  setupNone : ∀ session ∈ update.pduSessionsToSetup.entries, s.context.pduSessions.find? session.1 = none
  modifies : ∀ session ∈ update.pduSessionsToModify.entries, s.Modifies session
  fresh : s.FreshDrbs (additions update.pduSessionsToSetup.entries ++
    additions update.pduSessionsToModify.entries)
  removes : ∀ psi ∈ update.pduSessionsToRemove,
    ∃ session, s.context.pduSessions.find? psi = some session
  removesOnce : update.pduSessionsToRemove.Nodup

theorem keys_nodup {V : Type} (m : OrdMap Nat V) : (m.entries.map Prod.fst).Nodup :=
  List.pairwise_map.mpr (m.sorted.imp fun hlt => Nat.ne_of_lt hlt)

def touched (update : UpConfigUpdate) : List Nat :=
  update.pduSessionsToSetup.keys ++ (update.pduSessionsToModify.keys ++ update.pduSessionsToRemove)

theorem Inv.applyConfigUpdate (h : s.Inv) {update : UpConfigUpdate} (ha : s.Applicable update) :
    ∃ s', s.applyConfigUpdate update = .ok s' ∧ s'.Inv ∧
      (∀ psi, psi ∉ touched update →
        s'.context.pduSessions.find? psi = s.context.pduSessions.find? psi) ∧
      (∀ psi drbId drb, s.context.drbOf psi drbId = some drb → psi ∉ update.pduSessionsToRemove →
        drbId ∉ update.pduSessionsToModify.entries.flatMap (·.2.drbToRemove) →
        s'.context.drbOf psi drbId = some drb) ∧
      s'.context.drbMap.size + (update.pduSessionsToModify.entries.flatMap (·.2.drbToRemove)).length ≤
        s.context.drbMap.size + (additions update.pduSessionsToSetup.entries ++
          additions update.pduSessionsToModify.entries).length := by
  obtain ⟨hadded, hfresh⟩ := h.addSessions ha.setupIds (keys_nodup _) ha.setupNone ha.fresh
  rw [UpResourceManager.applyConfigUpdate]
  generalize update.pduSessionsToSetup.entries.foldl UpResourceManager.addSession s = first at hadded hfresh ⊢
  have hkept : ∀ psi session, s.context.pduSessions.find? psi = some session →
      first.context.pduSessions.find? psi = some session := by
    intro psi session hsession
    rw [hadded.others psi, hsession]
    intro hmem
    obtain ⟨entry, hentry, rfl⟩ := List.mem_map.mp hmem
    rw [ha.setupNone entry hentry] at hsession
    cases hsession
  have hmodifies : ∀ session ∈ update.pduSessionsToModify.entries, first.Modifies session := by
    intro session hsession
    have hold := ha.modifies session hsession
    obtain ⟨context, hcontext⟩ := hold.session
    refine ⟨hold.id, ⟨context, hkept _ _ hcontext⟩, hold.nodup, fun drbId hdrbId => ?_⟩
    rw [drbOf_of_find? (hkept _ _ hcontext), ← drbOf_of_find? hcontext]
    exact hold.removed drbId hdrbId
  rw [← List.append_nil (additions _)] at hfresh
  obtain ⟨second, hsecond, happlied, -⟩ := hadded.inv.modifySessions (keys_nodup _) hmodifies hfresh
  have hremoves : ∀ psi ∈ update.pduSessionsToRemove,
      ∃ session, second.context.pduSessions.find? psi = some session := by
    intro psi hpsi
    obtain ⟨session, hsession⟩ := ha.removes psi hpsi
    exact happlied.kept psi session (hkept psi session hsession)
  obtain ⟨s', hs', hinv, hothers, hle⟩ := happlied.inv.removeSessions ha.removesOnce hremoves
  refine ⟨s', ?_, hinv, ?_, ?_, ?_⟩
  · rw [hsecond, Checked.ok_bind]
    exact hs'
  · intro psi hpsi
    rw [touched, List.mem_append, List.mem_append, not_or, not_or] at hpsi
    rw [hothers psi hpsi.2.2, happlied.others psi hpsi.2.1, hadded.others psi hpsi.1]
  · intro psi drbId drb hdrb hpsi hgone
    rw [UpContext.drbOf, hothers psi hpsi]
    exact happlied.keeps psi drbId drb (hadded.keeps psi drbId drb hdrb List.not_mem_nil) hgone
  · have hsize := hadded.size
    have hsize' := happlied.size
    rw [List.length_nil] at hsize
    rw [List.length_append]
    omega

end UpResourceManager

end Srsran.CuCp
