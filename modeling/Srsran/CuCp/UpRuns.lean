import Srsran.CuCp.UpUpdates

/-! The user-plane context over whole runs. It stays consistent as long as no request reuses a QoS flow
identifier, names a flow of another session or brings more DRBs than the UE may have. -/
namespace Srsran.CuCp
open Checked

namespace UpRequest

/-- The flows that need a DRB, in the order in which they get one. -/
def newFlows (context : UpContext) : UpRequest → List Nat
  | .setup items => items.items.flatMap fun item => item.2.qosFlows.items.map Prod.fst
  | .modify items => items.items.flatMap fun item => CuCp.newFlows context item.2.qosFlowAddOrModify.items
  | .release _ => []

def servedFlows (cfg : UpResourceManagerCfg) (context : UpContext) (request : UpRequest) : List Nat :=
  (request.newFlows context).take (freeDrbIds cfg context).length

def nofReleased : UpRequest → Nat
  | .modify items => (items.items.flatMap (·.2.qosFlowToRelease.items)).length
  | _ => 0

/-- The flows in use that the request names for a session are flows of the session. -/
def namesOwn (context : UpContext) : UpRequest → Bool
  | .modify items => items.items.all (CuCp.namesOwn context)
  | _ => true

/-- The look-up tables can hold what the request brings: each flow that gets a DRB is named once and not in use,
and the UE may have all the DRBs. -/
def fits (cfg : UpResourceManagerCfg) (context : UpContext) (request : UpRequest) : Bool :=
  request.namesOwn context && decide (request.servedFlows cfg context).Nodup &&
    ((request.servedFlows cfg context).all fun qfi => !context.qosFlowMap.contains qfi) &&
    decide (context.drbMap.size + (request.servedFlows cfg context).length ≤
      cfg.maxNofDrbsPerUe + request.nofReleased)

def sessions : UpRequest → List Nat
  | .setup items => items.items.map Prod.fst
  | .modify items => items.items.map Prod.fst
  | .release items => items.items.map Prod.fst

def Releases (context : UpContext) (psi drbId : Nat) : UpRequest → Prop
  | .setup _ => False
  | .modify items => ∃ item ∈ items.items, item.1 = psi ∧
      ∃ flow ∈ item.2.qosFlowToRelease.items, context.qosFlowMap.find? flow.1 = some drbId
  | .release items => psi ∈ items.items.map Prod.fst

end UpRequest

namespace UpResourceManager
variable {cfg : UpResourceManagerCfg} {s : UpResourceManager}

/-- An update that its request accounts for. -/
structure Calculated (cfg : UpResourceManagerCfg) (s : UpResourceManager) (request : UpRequest)
    (update : UpConfigUpdate) : Prop where
  applicable : s.Applicable update
  sessions : ∀ psi ∈ touched update, psi ∈ request.sessions
  own : ∀ session ∈ update.pduSessionsToModify.entries, ModifiesOwn s session.1 session.2
  removed : ∀ psi ∈ update.pduSessionsToRemove, ∀ drbId, request.Releases s.context psi drbId
  released : ∀ session ∈ update.pduSessionsToModify.entries, ∀ drbId ∈ session.2.drbToRemove,
    request.Releases s.context session.1 drbId
  limit : s.context.drbMap.size + update.drbs.length ≤
    cfg.maxNofDrbsPerUe + (update.pduSessionsToModify.entries.flatMap (·.2.drbToRemove)).length

theorem Inv.calculateUpdate (hinv : s.Inv) {request : UpRequest} (hvalid : isValid cfg s.context request = true)
    (hfits : request.fits cfg s.context = true) :
    Ensures (fun _ => False) (Calculated cfg s request) (CuCp.calculateUpdate cfg s.context request) := by
  simp only [UpRequest.fits, Bool.and_eq_true, decide_eq_true_iff, List.all_eq_true, Bool.not_eq_true',
    OrdMap.contains_eq_false_iff] at hfits
  obtain ⟨⟨⟨hown, hnodup⟩, hunmapped⟩, hlimit⟩ := hfits
  have hlength : ∀ drbs, Gathered (freeDrbIds cfg s.context) (request.newFlows s.context) (bindings drbs) →
      drbs.length = (request.servedFlows cfg s.context).length := by
    intro drbs hgathered
    have hlength := hgathered.length_eq
    rwa [bindings, List.length_map] at hlength
  cases request with
  | setup items =>
    have hnone : ∀ item ∈ items.items, s.context.pduSessions.find? item.1 = none := by
      intro item hitem
      simp only [isValid, validSetup, Bool.and_eq_true, List.all_eq_true, Bool.not_eq_true'] at hvalid
      exact OrdMap.contains_eq_false_iff.mp (hvalid.2 item hitem).1
    rw [CuCp.calculateUpdate, if_pos hvalid]
    refine (hinv.setupUpdate hvalid).mono fun update hdone => ?_
    have hfresh := hinv.freshDrbs hdone.gathered hnodup hunmapped
    refine ⟨⟨fun session hsession => (hdone.ids session hsession).1, ?_, ?_, hfresh, ?_, ?_⟩, ?_, ?_, ?_, ?_, ?_⟩
    · intro session hsession
      obtain ⟨item, hitem, heq⟩ := List.mem_map.mp (hdone.ids session hsession).2
      rw [← heq]
      exact hnone item hitem
    · rw [hdone.noModify]
      exact fun _ hmem => absurd hmem List.not_mem_nil
    · rw [hdone.noRemove]
      exact fun _ hmem => absurd hmem List.not_mem_nil
    · rw [hdone.noRemove]
      exact List.nodup_nil
    · intro psi hpsi
      rw [touched, hdone.noModify, hdone.noRemove, List.append_nil] at hpsi
      simp only [OrdMap.keys, OrdMap.empty, List.map_nil, List.append_nil] at hpsi
      obtain ⟨session, hsession, rfl⟩ := List.mem_map.mp hpsi
      exact (hdone.ids session hsession).2
    · rw [hdone.noModify]
      exact fun _ hmem => absurd hmem List.not_mem_nil
    · rw [hdone.noRemove]
      exact fun _ hmem => absurd hmem List.not_mem_nil
    · rw [hdone.noModify]
      exact fun _ hmem => absurd hmem List.not_mem_nil
    · rw [hlength _ hdone.gathered, hdone.noModify]
      exact hlimit
  | modify items =>
    simp only [UpRequest.namesOwn, List.all_eq_true] at hown
    rw [CuCp.calculateUpdate, if_pos hvalid]
    refine (hinv.modifyUpdate hvalid hown).mono fun update hdone => ?_
    have hfresh := hinv.freshDrbs hdone.gathered hnodup hunmapped
    refine ⟨⟨?_, ?_, fun session hsession => (hdone.sessions session hsession).2.1, hfresh, ?_, ?_⟩, ?_,
      fun session hsession => (hdone.sessions session hsession).2.2, ?_, hdone.released, ?_⟩
    · rw [hdone.noSetup]
      exact fun _ hmem => absurd hmem List.not_mem_nil
    · rw [hdone.noSetup]
      exact fun _ hmem => absurd hmem List.not_mem_nil
    · rw [hdone.noRemove]
      exact fun _ hmem => absurd hmem List.not_mem_nil
    · rw [hdone.noRemove]
      exact List.nodup_nil
    · intro psi hpsi
      rw [touched, hdone.noSetup, hdone.noRemove, List.append_nil] at hpsi
      simp only [OrdMap.keys, OrdMap.empty, List.map_nil, List.nil_append] at hpsi
      obtain ⟨session, hsession, rfl⟩ := List.mem_map.mp hpsi
      exact (hdone.sessions session hsession).1
    · rw [hdone.noRemove]
      exact fun _ hmem => absurd hmem List.not_mem_nil
    · rw [hlength _ hdone.gathered, hdone.count]
      exact hlimit
  | release items =>
    rw [CuCp.calculateUpdate, if_pos hvalid]
    refine (releaseUpdate hvalid).mono fun update hdone => ?_
    obtain ⟨hsetup, hmodify, hremove⟩ := hdone
    have hdrbs : update.drbs = [] := by
      rw [UpConfigUpdate.drbs, hsetup, hmodify]
      rfl
    simp only [isValid, validRelease, Bool.and_eq_true, List.all_eq_true] at hvalid
    refine ⟨⟨?_, ?_, ?_, ?_, ?_, ?_⟩, ?_, ?_, ?_, ?_, ?_⟩
    · rw [hsetup]
      exact fun _ hmem => absurd hmem List.not_mem_nil
    · rw [hsetup]
      exact fun _ hmem => absurd hmem List.not_mem_nil
    · rw [hmodify]
      exact fun _ hmem => absurd hmem List.not_mem_nil
    · rw [← UpConfigUpdate.drbs, hdrbs]
      exact ⟨fun _ hmem => absurd hmem List.not_mem_nil, .nil⟩
    · intro psi hpsi
      rw [hremove] at hpsi
      obtain ⟨item, hitem, rfl⟩ := List.mem_map.mp hpsi
      exact Option.isSome_iff_exists.mp (hvalid.2 item hitem)
    · rw [hremove]
      exact items.unique
    · intro psi hpsi
      rw [touched, hsetup, hmodify, hremove] at hpsi
      exact hpsi
    · rw [hmodify]
      exact fun _ hmem => absurd hmem List.not_mem_nil
    · intro psi hpsi drbId
      rw [hremove] at hpsi
      exact hpsi
    · rw [hmodify]
      exact fun _ hmem => absurd hmem List.not_mem_nil
    · rw [hdrbs, hmodify]
      simpa [UpRequest.servedFlows, UpRequest.newFlows, UpRequest.nofReleased, OrdMap.empty] using hlimit

theorem Inv.init : Inv {} where
  ids := nofun
  drbMap := fun _ _ => ⟨nofun, nofun⟩
  flows := nofun
  flowMap := nofun
  dirty := nofun
  given := nofun
  once := Epochs.ordered_nil

theorem Inv.refreshKeys (h : s.Inv) : s.refreshDrbIdAfterKeyChange.Inv where
  __ := h
  dirty := by
    intro drbId psi hmap
    have hmap' : s.context.drbMap.find? drbId = some psi := hmap
    simp [refreshDrbIdAfterKeyChange, OrdMap.contains, hmap']
  given := by
    rw [refreshDrbIdAfterKeyChange, Epochs.current_concat_of_marker rfl]
    exact fun _ hmem => absurd hmem List.not_mem_nil
  once := by
    refine h.once.concat fun action haction => ?_
    obtain ⟨drbId, rfl, -⟩ := h.given action haction
    exact fun heq => UpAction.noConfusion heq

/-- The look-up tables say what the sessions say, no DRB id is given out twice under the same keys, and
the UE has no more DRBs than it may have. -/
structure Consistent (cfg : UpResourceManagerCfg) (s : UpResourceManager) : Prop where
  drbMap : ∀ drbId psi, s.context.drbMap.find? drbId = some psi ↔
    ∃ drb, s.context.drbOf psi drbId = some drb
  flows : ∀ qfi drbId, s.context.qosFlowMap.find? qfi = some drbId ↔
    ∃ psi drb, s.context.drbOf psi drbId = some drb ∧ drb.qosFlows.contains qfi = true
  found : ∀ psi drbId drb, s.context.drbOf psi drbId = some drb → s.getDrbContext drbId = .ok drb
  once : Epochs.Ordered isKeyRefreshed (fun x y => x ≠ y) s.history
  limit : s.context.drbMap.size ≤ cfg.maxNofDrbsPerUe

theorem Inv.flows_iff (h : s.Inv) {qfi drbId : Nat} : s.context.qosFlowMap.find? qfi = some drbId ↔
    ∃ psi drb, s.context.drbOf psi drbId = some drb ∧ drb.qosFlows.contains qfi = true := by
  constructor
  · intro hflow
    obtain ⟨psi, drb, hdrb, hcarries⟩ := h.flowMap qfi drbId hflow
    exact ⟨psi, drb, hdrb, hcarries.contains_iff.mpr rfl⟩
  · rintro ⟨psi, drb, hdrb, hcontains⟩
    obtain ⟨qfi', hcarries, hflow⟩ := h.flows psi drbId drb hdrb
    rw [hcarries.contains_iff.mp hcontains]
    exact hflow

theorem Inv.consistent (h : s.Inv) (hlimit : s.context.drbMap.size ≤ cfg.maxNofDrbsPerUe) :
    s.Consistent cfg where
  drbMap := h.drbMap
  flows := fun _ _ => h.flows_iff
  found := by
    intro psi drbId drb hdrb
    have hmap := (h.drbMap drbId psi).mpr ⟨drb, hdrb⟩
    obtain ⟨session, hsession, hfind⟩ := Option.bind_eq_some_iff.mp hdrb
    simp only [getDrbContext, hmap, hsession, hfind]
  once := h.once
  limit := hlimit

end UpResourceManager

namespace UpEvent

/-- The request, if it is accepted, fits in the look-up tables. -/
def sound (cfg : UpResourceManagerCfg) (s : UpResourceManager) : UpEvent → Bool
  | .request r => !isValid cfg s.context r || r.fits cfg s.context
  | .refreshKeys => true

def sessions : UpEvent → List Nat
  | .request r => r.sessions
  | .refreshKeys => []

def Releases (context : UpContext) (psi drbId : Nat) : UpEvent → Prop
  | .request r => r.Releases context psi drbId
  | .refreshKeys => False

end UpEvent

namespace UpResourceManager
variable {cfg : UpResourceManagerCfg} {s s' : UpResourceManager} {event : UpEvent}

/-- What an event leaves as it is: the sessions that it does not name, and every DRB that it does not take from
its session, with its flows. The update names DRBs of the session that it is for. -/
structure Isolated (cfg : UpResourceManagerCfg) (s : UpResourceManager) (event : UpEvent)
    (s' : UpResourceManager) : Prop where
  sessions : ∀ psi, psi ∉ event.sessions →
    s'.context.pduSessions.find? psi = s.context.pduSessions.find? psi
  drbs : ∀ psi drbId drb, s.context.drbOf psi drbId = some drb → ¬event.Releases s.context psi drbId →
    s'.context.drbOf psi drbId = some drb
  flows : ∀ psi drbId drb, s.context.drbOf psi drbId = some drb → ¬event.Releases s.context psi drbId →
    ∀ qfi, s'.context.qosFlowMap.find? qfi = some drbId ↔ s.context.qosFlowMap.find? qfi = some drbId
  update : ∀ request update, event = .request request → calculateUpdate cfg s.context request = .ok update →
    ∀ session ∈ update.pduSessionsToModify.entries,
      ∀ drbId ∈ session.2.drbToModify.keys ++ session.2.drbToRemove,
        ∃ drb, s.context.drbOf session.1 drbId = some drb

theorem Inv.flows_eq (h : s.Inv) (h' : s'.Inv) {psi drbId qfi : Nat} {drb : UpDrbContext}
    (hdrb : s.context.drbOf psi drbId = some drb) (hdrb' : s'.context.drbOf psi drbId = some drb) :
    s'.context.qosFlowMap.find? qfi = some drbId ↔ s.context.qosFlowMap.find? qfi = some drbId := by
  have hflows : ∀ t : UpResourceManager, t.Inv → t.context.drbOf psi drbId = some drb →
      (t.context.qosFlowMap.find? qfi = some drbId ↔ drb.qosFlows.contains qfi = true) := by
    intro t ht hfind
    rw [ht.flows_iff]
    constructor
    · rintro ⟨psi', other, hother, hcontains⟩
      have hpsi := ht.session_unique hother hfind
      rw [hpsi, hfind] at hother
      cases hother
      exact hcontains
    · exact fun hcontains => ⟨psi, drb, hfind, hcontains⟩
  rw [hflows s' h' hdrb', hflows s h hdrb]

theorem Inv.isolated_self (h : s.Inv) (h' : s'.Inv) (hsame : s'.context.pduSessions = s.context.pduSessions)
    (hnone : ∀ request update, event = .request request →
      CuCp.calculateUpdate cfg s.context request ≠ .ok update) : Isolated cfg s event s' := by
  have hdrbOf : ∀ psi drbId, s'.context.drbOf psi drbId = s.context.drbOf psi drbId := by
    intro psi drbId
    rw [UpContext.drbOf, hsame]
    rfl
  refine ⟨fun psi _ => by rw [hsame], fun psi drbId drb hdrb _ => (hdrbOf psi drbId).trans hdrb, ?_, ?_⟩
  · intro psi drbId drb hdrb _ qfi
    exact h.flows_eq h' hdrb ((hdrbOf psi drbId).trans hdrb)
  · intro request update hevent hupdate
    exact absurd hupdate (hnone request update hevent)

theorem Inv.request (h : s.Inv) {request : UpRequest} {update : UpConfigUpdate}
    (hupdate : CuCp.calculateUpdate cfg s.context request = .ok update) (hcalc : Calculated cfg s request update) :
    ∃ s', s.applyConfigUpdate update = .ok s' ∧ s'.Inv ∧ s'.context.drbMap.size ≤ cfg.maxNofDrbsPerUe ∧
      Isolated cfg s (.request request) s' := by
  obtain ⟨s', hs', hinv, hothers, hkeeps, hsize⟩ := h.applyConfigUpdate hcalc.applicable
  have hlimit := hcalc.limit
  rw [UpConfigUpdate.drbs] at hlimit
  have hdrbs : ∀ psi drbId drb, s.context.drbOf psi drbId = some drb →
      ¬request.Releases s.context psi drbId → s'.context.drbOf psi drbId = some drb := by
    intro psi drbId drb hdrb hrelease
    refine hkeeps psi drbId drb hdrb (fun hpsi => hrelease (hcalc.removed psi hpsi drbId)) fun hgone => ?_
    obtain ⟨session, hsession, hdrbId⟩ := List.mem_flatMap.mp hgone
    obtain ⟨drb', hdrb'⟩ := (hcalc.applicable.modifies session hsession).removed drbId hdrbId
    rw [h.session_unique hdrb hdrb'] at hrelease
    exact hrelease (hcalc.released session hsession drbId hdrbId)
  refine ⟨s', hs', hinv, by omega, ?_, hdrbs, ?_, ?_⟩
  · exact fun psi hpsi => hothers psi fun htouched => hpsi (hcalc.sessions psi htouched)
  · intro psi drbId drb hdrb hrelease qfi
    exact h.flows_eq hinv hdrb (hdrbs psi drbId drb hdrb hrelease)
  · intro request' update' hevent hupdate' session hsession drbId hdrbId
    cases hevent
    rw [hupdate] at hupdate'
    cases hupdate'
    rcases List.mem_append.mp hdrbId with hmodified | hremoved
    · exact hcalc.own session hsession drbId hmodified
    · exact (hcalc.applicable.modifies session hsession).removed drbId hremoved

theorem Inv.step (h : s.Inv) (hlimit : s.context.drbMap.size ≤ cfg.maxNofDrbsPerUe)
    (hsound : event.sound cfg s = true) :
    ∃ s', s.step cfg event = .ok s' ∧ s'.Inv ∧ s'.context.drbMap.size ≤ cfg.maxNofDrbsPerUe ∧
      Isolated cfg s event s' := by
  cases event with
  | request request =>
    rw [UpEvent.sound, Bool.or_eq_true, Bool.not_eq_true'] at hsound
    rw [UpResourceManager.step]
    by_cases hvalid : isValid cfg s.context request = true
    · rw [if_pos hvalid]
      rw [hvalid] at hsound
      have hfits := hsound.resolve_left Bool.noConfusion
      obtain ⟨update, hupdate, hcalc⟩ := (h.calculateUpdate hvalid hfits).exists_ok
      rw [hupdate, ok_bind]
      exact h.request hupdate hcalc
    · rw [if_neg hvalid]
      refine ⟨s, rfl, h, hlimit, h.isolated_self h rfl ?_⟩
      rintro request' update hevent hupdate
      cases hevent
      cases request with
      | setup items =>
        rw [CuCp.calculateUpdate, if_neg hvalid] at hupdate
        cases hupdate
      | modify items =>
        rw [CuCp.calculateUpdate, if_neg hvalid] at hupdate
        cases hupdate
      | release items =>
        rw [CuCp.calculateUpdate, if_neg hvalid] at hupdate
        cases hupdate
  | refreshKeys =>
    exact ⟨_, rfl, h.refreshKeys, hlimit, h.isolated_self h.refreshKeys rfl fun _ _ heq => UpEvent.noConfusion heq⟩

def next (cfg : UpResourceManagerCfg) (s : UpResourceManager) (event : UpEvent) : Option UpResourceManager :=
  (s.step cfg event).toOption

/-- In a run of requests that fit, the context is consistent, and the next event, if it fits, fails no look-up
or assertion and leaves alone what it does not name. -/
theorem upContext_consistent (cfg : UpResourceManagerCfg) {s : UpResourceManager}
    (hrun : Runs.Reaches (next cfg) (fun s event => event.sound cfg s = true) {} s) :
    s.Consistent cfg ∧ ∀ event, event.sound cfg s = true →
      ∃ s', s.step cfg event = .ok s' ∧ Isolated cfg s event s' := by
  have hinv : s.Inv ∧ s.context.drbMap.size ≤ cfg.maxNofDrbsPerUe := by
    refine hrun.invariant (I := fun s => s.Inv ∧ s.context.drbMap.size ≤ cfg.maxNofDrbsPerUe)
      ⟨.init, Nat.zero_le _⟩ ?_
    rintro s event s' ⟨hinv, hlimit⟩ hsound hnext
    obtain ⟨s'', hs'', hinv', hlimit', -⟩ := hinv.step hlimit hsound
    have hs' := toOption_eq_some hnext
    rw [hs''] at hs'
    cases hs'
    exact ⟨hinv', hlimit'⟩
  refine ⟨hinv.1.consistent hinv.2, fun event hsound => ?_⟩
  obtain ⟨s', hs', -, -, hisolated⟩ := hinv.1.step hinv.2 hsound
  exact ⟨s', hs', hisolated⟩

def sampleCfg : UpResourceManagerCfg where
  fiveQiConfig := OrdMap.empty.insert 9 0
  maxNofDrbsPerUe := 3

def setupOf (psi qfi : Nat) : UpEvent :=
  .request (.setup ⟨[(psi, ⟨1, ⟨[(qfi, some 9)], by simp⟩⟩)], by simp⟩)

def exchangeOf (psi released qfi : Nat) : UpEvent :=
  .request (.modify ⟨[(psi, ⟨⟨[(qfi, some 9)], by simp⟩, ⟨[(released, ())], by simp⟩⟩)], by simp⟩)

theorem upContext_consistent_twoSessions : ∃ s : UpResourceManager,
    s.context.qosFlowMap.entries = [(2, 2), (3, 3)] ∧ s.Consistent sampleCfg := by
  have hrun : (Runs.runAll (Runs.guarded (next sampleCfg) fun s event => event.sound sampleCfg s = true) {}
      [setupOf 1 1, setupOf 2 2, exchangeOf 1 1 3]).map (·.context.qosFlowMap.entries) =
      some [(2, 2), (3, 3)] := by decide
  obtain ⟨s, hs, hentries⟩ := Option.map_eq_some_iff.mp hrun
  exact ⟨s, hentries, (upContext_consistent _ (Runs.reaches_of_runGuarded .start hs)).1⟩

/-- Two sessions with the same QoS flow identifier: the flow of the second one is found with the DRB of the
first. -/
theorem upContext_sharedFlowId : ∃ s : UpResourceManager,
    Runs.Reaches (next sampleCfg) (fun _ _ => True) {} s ∧ ¬s.Consistent sampleCfg := by
  have hrun : (Runs.runAll (next sampleCfg) {} [setupOf 1 1, setupOf 2 1]).map
      (fun s => (s.context.qosFlowMap.find? 1, (s.context.drbOf 2 2).map (·.qosFlows.contains 1))) =
      some (some 1, some true) := by decide
  obtain ⟨s, hs, hobserved⟩ := Option.map_eq_some_iff.mp hrun
  refine ⟨s, Runs.reaches_of_runAll .start (fun _ _ _ => trivial) hs, fun hconsistent => ?_⟩
  obtain ⟨hflow, hdrb⟩ := Prod.mk.inj hobserved
  obtain ⟨drb, hdrb, hcontains⟩ := Option.map_eq_some_iff.mp hdrb
  have hown := (hconsistent.flows 1 2).mpr ⟨2, drb, hdrb, hcontains⟩
  rw [hflow] at hown
  cases hown

end UpResourceManager

end Srsran.CuCp
