import Srsran.EdgeRic.Registry
import Srsran.Lib.Runs

/-! Attribution of PDCP and GTP-U metrics. UEs come and go with their identities, the correlation events
about them arrive in any order or not at all, and their metrics are exported under an RNTI. -/
namespace Srsran.EdgeRic

/-- A UE with the identities it holds. It may have given back its RNTI already. -/
structure AttachedUe where
  id : Nat
  rnti : Rnti
  ueIndex : Nat
  cuUpUeIndex : Nat
  e1apId : Nat
  active : Bool := true
  deriving DecidableEq, Repr

/-- The attached UEs, the registry, and, for the reader, which UEs reported what is stored. -/
structure Network where
  er : EdgeRic := {}
  ues : List AttachedUe := []
  nextId : Nat := 0
  pdcpOwner : DrbKey → Option Nat := fun _ => none
  gtpOwners : Nat → List Nat := fun _ => []

inductive NetworkEvent where
  | attach (rnti : Rnti) (ueIndex cuUpUeIndex e1apId : Nat)
  | registerUe (id : Nat)
  | unregisterUe (id : Nat)
  | registerE1apRnti (id : Nat)
  | registerCuUpUeE1ap (id : Nat)
  | macReport (id cqi : Nat) (snr : Float32) (dlBuffer ulBuffer : Nat)
  | reportPdcpMetrics (id drbId : Nat) (metrics : PdcpDrbMetrics)
  | reportGtpDlPkt (id pduLen : Nat)
  | reportGtpUlPkt (id pduLen : Nat)
  | unregisterUeByRnti (id : Nat)
  | detach (id : Nat)
  | sendTtiMetrics

/-- Two attached UEs share no identity, and no RNTI while both hold theirs. -/
def AttachedUe.Distinct (ue ue' : AttachedUe) : Prop :=
  ue.id ≠ ue'.id ∧ ue.ueIndex ≠ ue'.ueIndex ∧ ue.cuUpUeIndex ≠ ue'.cuUpUeIndex ∧
    ue.e1apId ≠ ue'.e1apId ∧ (ue.active = true → ue'.active = true → ue.rnti ≠ ue'.rnti)

instance (ue ue' : AttachedUe) : Decidable (ue.Distinct ue') := by
  rw [AttachedUe.Distinct]
  infer_instance

instance : Std.Symm AttachedUe.Distinct where
  symm := by
    rintro ue ue' ⟨hid, hueIndex, hcuUp, he1ap, hrnti⟩
    exact ⟨hid.symm, hueIndex.symm, hcuUp.symm, he1ap.symm,
      fun hactive' hactive => (hrnti hactive hactive').symm⟩

namespace Network
variable {net net' : Network} {ue ue' : AttachedUe} {id : Nat}

def find? (net : Network) (id : Nat) : Option AttachedUe := net.ues.find? fun ue => ue.id = id

def call (net : Network) (id : Nat) (f : AttachedUe → EdgeRic) : Option Network :=
  (net.find? id).map fun ue => { net with er := f ue }

/-- The reporters of a GTP-U entry, which starts with the first report. -/
def addGtpOwner (net : Network) (ue : AttachedUe) : Nat → List Nat :=
  Function.update net.gtpOwners ue.cuUpUeIndex
    (if net.er.gtpUe.contains ue.cuUpUeIndex then ue.id :: net.gtpOwners ue.cuUpUeIndex else [ue.id])

def release (id : Nat) (ue : AttachedUe) : AttachedUe :=
  if ue.id = id then { ue with active := false } else ue

def step (net : Network) : NetworkEvent → Option Network
  | .attach rnti ueIndex cuUpUeIndex e1apId =>
    let ue : AttachedUe := { id := net.nextId, rnti, ueIndex, cuUpUeIndex, e1apId }
    if rnti ≠ 0 ∧ ∀ ue' ∈ net.ues, ue'.Distinct ue then
      some { net with ues := net.ues ++ [ue], nextId := net.nextId + 1 }
    else none
  | .registerUe id => net.call id fun ue => net.er.registerUe ue.ueIndex ue.rnti
  | .unregisterUe id => net.call id fun ue => net.er.unregisterUe ue.ueIndex
  | .registerE1apRnti id => net.call id fun ue => net.er.registerE1apRnti ue.e1apId ue.rnti
  | .registerCuUpUeE1ap id =>
    net.call id fun ue => net.er.registerCuUpUeE1ap ue.cuUpUeIndex ue.e1apId
  | .macReport id cqi snr dlBuffer ulBuffer =>
    net.call id fun ue => net.er.collectUeTelemetry ue.rnti cqi snr dlBuffer ulBuffer
  | .reportPdcpMetrics id drbId metrics =>
    (net.find? id).map fun ue =>
      { net with
        er := net.er.reportPdcpMetrics ue.cuUpUeIndex drbId metrics
        pdcpOwner := Function.update net.pdcpOwner (drbKey ue.cuUpUeIndex drbId) (some ue.id) }
  | .reportGtpDlPkt id pduLen =>
    (net.find? id).map fun ue =>
      { net with
        er := net.er.reportGtpDlPkt ue.cuUpUeIndex pduLen
        gtpOwners := net.addGtpOwner ue }
  | .reportGtpUlPkt id pduLen =>
    (net.find? id).map fun ue =>
      { net with
        er := net.er.reportGtpUlPkt ue.cuUpUeIndex pduLen
        gtpOwners := net.addGtpOwner ue }
  | .unregisterUeByRnti id =>
    match net.find? id with
    | none => none
    | some ue =>
      if ue.active then
        some { net with
          er := net.er.unregisterUeByRnti ue.rnti
          ues := net.ues.map (release id) }
      else none
  | .detach id =>
    (net.find? id).map fun _ => { net with ues := net.ues.filter fun ue => ue.id ≠ id }
  | .sendTtiMetrics => some { net with er := net.er.sendTtiMetrics }

/-- All that is exported under an RNTI was reported by the UE that holds it. -/
def Attributed (net : Network) : Prop :=
  ∀ rnti, net.er.macUe.contains rnti = true →
    (net.er.exportedPdcp rnti = [] ∧ net.er.exportedGtp rnti = none) ∨
      ∃ ue ∈ net.ues, ue.active = true ∧ ue.rnti = rnti ∧
        (∀ e ∈ net.er.exportedPdcp rnti, net.pdcpOwner e.1 = some ue.id) ∧
        ∀ e, net.er.exportedGtp rnti = some e → ∀ owner ∈ net.gtpOwners e.1, owner = ue.id

/-- An entry is correlated by the E1AP, or the position that is taken for its UE is no UE of the MAC. -/
def correlatedOrHidden (net : Network) (cuUpUeIndex : Nat) : Bool :=
  (net.er.e1apRnti? cuUpUeIndex).isSome ||
    !net.er.macUe.contains (net.er.getRntiFromCuUpUeIndex cuUpUeIndex)

/-- Nothing is exported on the strength of a position, the E1AP identity of a UE is registered while it
holds its RNTI, and a UE that leaves gives back a CU-UP index and an E1AP identity of which the registry
knows nothing any more. -/
def attributable (net : Network) : NetworkEvent → Bool
  | .registerE1apRnti id => (net.find? id).any fun ue => ue.active
  | .detach id =>
    (net.find? id).any fun ue =>
      net.er.pdcpDrb.entries.all (fun e => e.1.ue ≠ ue.cuUpUeIndex) &&
        !net.er.gtpUe.contains ue.cuUpUeIndex &&
        !net.er.cuUpUeToE1apId.contains ue.cuUpUeIndex &&
        !net.er.e1apIdToRnti.contains ue.e1apId
  | .sendTtiMetrics =>
    net.er.pdcpDrb.entries.all (fun e => net.correlatedOrHidden e.1.ue) &&
      net.er.gtpUe.entries.all fun e => net.correlatedOrHidden e.1
  | _ => true

/-- What the registry knows about correlations and metrics is right for the attached UEs. -/
structure Consistent (net : Network) : Prop where
  distinct : net.ues.Pairwise AttachedUe.Distinct
  e1ap : ∀ e1apId rnti, net.er.e1apIdToRnti.find? e1apId = some rnti →
    ∃ ue ∈ net.ues, ue.active = true ∧ ue.e1apId = e1apId ∧ ue.rnti = rnti
  cuUp : ∀ k e1apId, net.er.cuUpUeToE1apId.find? k = some e1apId →
    ∃ ue ∈ net.ues, ue.cuUpUeIndex = k ∧ ue.e1apId = e1apId
  pdcp : ∀ e ∈ net.er.pdcpDrb.entries,
    ∃ ue ∈ net.ues, ue.cuUpUeIndex = e.1.ue ∧ net.pdcpOwner e.1 = some ue.id
  gtp : ∀ e ∈ net.er.gtpUe.entries,
    ∃ ue ∈ net.ues, ue.cuUpUeIndex = e.1 ∧ ∀ owner ∈ net.gtpOwners e.1, owner = ue.id

section
variable (h : Consistent net)
include h

variable (hue : ue ∈ net.ues)
include hue

variable (hue' : ue' ∈ net.ues)
include hue'

theorem Consistent.eq_of_not_distinct (hsame : ¬ue.Distinct ue') : ue = ue' := by
  by_contra hne
  exact hsame (h.distinct.forall hue hue' hne)

theorem Consistent.eq_of_cuUp (hsame : ue.cuUpUeIndex = ue'.cuUpUeIndex) : ue = ue' :=
  h.eq_of_not_distinct hue hue' fun hdistinct => hdistinct.2.2.1 hsame

theorem Consistent.eq_of_e1apId (hsame : ue.e1apId = ue'.e1apId) : ue = ue' :=
  h.eq_of_not_distinct hue hue' fun hdistinct => hdistinct.2.2.2.1 hsame

theorem Consistent.eq_of_rnti
    (hactive : ue.active = true) (hactive' : ue'.active = true) (hsame : ue.rnti = ue'.rnti) :
    ue = ue' :=
  h.eq_of_not_distinct hue hue' fun hdistinct => hdistinct.2.2.2.2 hactive hactive' hsame

theorem Consistent.eq_of_id (hsame : ue.id = ue'.id) : ue = ue' :=
  h.eq_of_not_distinct hue hue' fun hdistinct => hdistinct.1 hsame

end

theorem find?_spec (h : net.find? id = some ue) : ue ∈ net.ues ∧ ue.id = id := by
  rw [find?] at h
  have hid := List.find?_some h
  exact ⟨List.mem_of_find?_eq_some h, of_decide_eq_true hid⟩

theorem call_spec {f : AttachedUe → EdgeRic} (h : net.call id f = some net') :
    ∃ ue, net.find? id = some ue ∧ net' = { net with er := f ue } := by
  obtain ⟨ue, hfind, heq⟩ := Option.map_eq_some_iff.mp h
  exact ⟨ue, hfind, heq.symm⟩

theorem Consistent.of_er {er : EdgeRic} (h : Consistent net)
    (he1ap : er.e1apIdToRnti = net.er.e1apIdToRnti) (hcuUp : er.cuUpUeToE1apId = net.er.cuUpUeToE1apId)
    (hpdcp : er.pdcpDrb = net.er.pdcpDrb) (hgtp : er.gtpUe = net.er.gtpUe) :
    Consistent { net with er } := by
  refine ⟨h.distinct, ?_, ?_, ?_, ?_⟩
  · rw [he1ap]
    exact h.e1ap
  · rw [hcuUp]
    exact h.cuUp
  · rw [hpdcp]
    exact h.pdcp
  · rw [hgtp]
    exact h.gtp

/-! One lemma for each event that does concern them. -/

section
variable (h : Consistent net)
include h

theorem Consistent.attach (hdistinct : ∀ ue' ∈ net.ues, ue'.Distinct ue) :
    Consistent { net with ues := net.ues ++ [ue], nextId := net.nextId + 1 } := by
  have hkept : ∀ ue' ∈ net.ues, ue' ∈ net.ues ++ [ue] := fun _ hmem => List.mem_append_left _ hmem
  refine ⟨?_, ?_, ?_, ?_, ?_⟩
  · refine List.pairwise_append.mpr ⟨h.distinct, List.pairwise_singleton _ _, ?_⟩
    intro ue' hue' last hlast
    rw [List.mem_singleton.mp hlast]
    exact hdistinct ue' hue'
  · intro e1apId rnti hfind
    obtain ⟨ue', hue', hspec⟩ := h.e1ap e1apId rnti hfind
    exact ⟨ue', hkept ue' hue', hspec⟩
  · intro k e1apId hfind
    obtain ⟨ue', hue', hspec⟩ := h.cuUp k e1apId hfind
    exact ⟨ue', hkept ue' hue', hspec⟩
  · intro e he
    obtain ⟨ue', hue', hspec⟩ := h.pdcp e he
    exact ⟨ue', hkept ue' hue', hspec⟩
  · intro e he
    obtain ⟨ue', hue', hspec⟩ := h.gtp e he
    exact ⟨ue', hkept ue' hue', hspec⟩

variable (hue : ue ∈ net.ues)
include hue

theorem Consistent.registerE1apRnti (hactive : ue.active = true) :
    Consistent { net with er := net.er.registerE1apRnti ue.e1apId ue.rnti } := by
  refine ⟨h.distinct, ?_, h.cuUp, h.pdcp, h.gtp⟩
  intro e1apId rnti hfind
  rw [EdgeRic.registerE1apRnti, OrdMap.find?_insert] at hfind
  split at hfind
  · rename_i heq
    exact ⟨ue, hue, hactive, heq.symm, Option.some.inj hfind⟩
  · exact h.e1ap e1apId rnti hfind

theorem Consistent.registerCuUpUeE1ap :
    Consistent { net with er := net.er.registerCuUpUeE1ap ue.cuUpUeIndex ue.e1apId } := by
  refine ⟨h.distinct, h.e1ap, ?_, h.pdcp, h.gtp⟩
  intro k e1apId hfind
  rw [EdgeRic.registerCuUpUeE1ap, OrdMap.find?_insert] at hfind
  split at hfind
  · rename_i heq
    exact ⟨ue, hue, heq.symm, Option.some.inj hfind⟩
  · exact h.cuUp k e1apId hfind

theorem Consistent.reportPdcpMetrics (drbId : Nat) (metrics : PdcpDrbMetrics) :
    Consistent { net with
      er := net.er.reportPdcpMetrics ue.cuUpUeIndex drbId metrics
      pdcpOwner := Function.update net.pdcpOwner (drbKey ue.cuUpUeIndex drbId) (some ue.id) } := by
  refine ⟨h.distinct, h.e1ap, h.cuUp, ?_, h.gtp⟩
  intro e he
  obtain heq | ⟨hold, hne⟩ := (OrdMap.mem_insertEntry net.er.pdcpDrb.sorted).mp he
  · rw [heq]
    exact ⟨ue, hue, rfl, Function.update_self _ _ _⟩
  · obtain ⟨ue', hue', hcuUp, howner⟩ := h.pdcp e hold
    refine ⟨ue', hue', hcuUp, ?_⟩
    dsimp only
    rw [Function.update_of_ne hne]
    exact howner

theorem Consistent.reportGtpPkt (f : GtpUeMetrics → GtpUeMetrics) : Consistent { net with
      er := { net.er with gtpUe := net.er.gtpUe.update ue.cuUpUeIndex {} f }
      gtpOwners := net.addGtpOwner ue } := by
  refine ⟨h.distinct, h.e1ap, h.cuUp, h.pdcp, ?_⟩
  intro e he
  obtain heq | ⟨hold, hne⟩ := (OrdMap.mem_insertEntry net.er.gtpUe.sorted).mp he
  · rw [heq]
    refine ⟨ue, hue, rfl, ?_⟩
    intro owner howner
    have howner : owner ∈ net.addGtpOwner ue ue.cuUpUeIndex := howner
    rw [addGtpOwner, Function.update_self] at howner
    split at howner
    · rename_i hcontains
      obtain hself | hmem := List.mem_cons.mp howner
      · exact hself
      · obtain ⟨m, hm⟩ := OrdMap.contains_iff.mp hcontains
        obtain ⟨ue', hue', hcuUp, howners⟩ := h.gtp _ hm
        rw [h.eq_of_cuUp hue hue' hcuUp.symm]
        exact howners owner hmem
    · exact List.mem_singleton.mp howner
  · obtain ⟨ue', hue', hcuUp, howners⟩ := h.gtp e hold
    refine ⟨ue', hue', hcuUp, ?_⟩
    dsimp only
    rw [addGtpOwner, Function.update_of_ne hne]
    exact howners

end

theorem release_distinct (h : ue.Distinct ue') : (release id ue).Distinct (release id ue') := by
  rw [release, release]
  split
  · split
    · exact ⟨h.1, h.2.1, h.2.2.1, h.2.2.2.1, nofun⟩
    · exact ⟨h.1, h.2.1, h.2.2.1, h.2.2.2.1, nofun⟩
  · split
    · exact ⟨h.1, h.2.1, h.2.2.1, h.2.2.2.1, fun _ => nofun⟩
    · exact h

theorem release_ids : (release id ue).id = ue.id ∧ (release id ue).cuUpUeIndex = ue.cuUpUeIndex ∧
    (release id ue).e1apId = ue.e1apId := by
  rw [release]
  split <;> exact ⟨rfl, rfl, rfl⟩

theorem Consistent.unregisterUeByRnti (h : Consistent net) (hue : ue ∈ net.ues) :
    Consistent { net with
      er := net.er.unregisterUeByRnti ue.rnti
      ues := net.ues.map (release ue.id) } := by
  have hkept : ∀ ue' ∈ net.ues, release ue.id ue' ∈ net.ues.map (release ue.id) :=
    fun _ hmem => List.mem_map_of_mem hmem
  refine ⟨?_, ?_, ?_, ?_, ?_⟩
  · rw [List.pairwise_map]
    exact h.distinct.imp release_distinct
  · intro e1apId rnti hfind
    rw [EdgeRic.unregisterUeByRnti, OrdMap.find?_filter, Option.filter_eq_some_iff,
      decide_eq_true_eq] at hfind
    obtain ⟨ue', hue', hactive', he1ap, hrnti⟩ := h.e1ap e1apId rnti hfind.1
    have hother : release ue.id ue' = ue' := by
      rw [release, if_neg]
      intro hid
      rw [h.eq_of_id hue' hue hid] at hrnti
      exact hfind.2 hrnti.symm
    have hmem := hkept ue' hue'
    rw [hother] at hmem
    exact ⟨ue', hmem, hactive', he1ap, hrnti⟩
  · intro k e1apId hfind
    rw [EdgeRic.unregisterUeByRnti, OrdMap.find?_filter, Option.filter_eq_some_iff] at hfind
    obtain ⟨ue', hue', hcuUp, he1ap⟩ := h.cuUp k e1apId hfind.1
    obtain ⟨_, hcuUp', he1ap'⟩ := @release_ids ue' ue.id
    exact ⟨_, hkept ue' hue', hcuUp'.trans hcuUp, he1ap'.trans he1ap⟩
  · intro e he
    obtain ⟨ue', hue', hcuUp, howner⟩ := h.pdcp e (OrdMap.mem_filter.mp he).1
    obtain ⟨hid, hcuUp', _⟩ := @release_ids ue' ue.id
    refine ⟨_, hkept ue' hue', hcuUp'.trans hcuUp, ?_⟩
    rw [hid]
    exact howner
  · intro e he
    obtain ⟨ue', hue', hcuUp, howners⟩ := h.gtp e (OrdMap.mem_filter.mp he).1
    obtain ⟨hid, hcuUp', _⟩ := @release_ids ue' ue.id
    refine ⟨_, hkept ue' hue', hcuUp'.trans hcuUp, ?_⟩
    rw [hid]
    exact howners

theorem Consistent.detach (h : Consistent net) (hue : ue ∈ net.ues)
    (hpdcp : ∀ e ∈ net.er.pdcpDrb.entries, e.1.ue ≠ ue.cuUpUeIndex)
    (hgtp : net.er.gtpUe.find? ue.cuUpUeIndex = none)
    (hcuUp : net.er.cuUpUeToE1apId.find? ue.cuUpUeIndex = none)
    (he1ap : net.er.e1apIdToRnti.find? ue.e1apId = none) :
    Consistent { net with ues := net.ues.filter fun ue' => ue'.id ≠ ue.id } := by
  have hkept : ∀ ue' ∈ net.ues, ue' ≠ ue → ue' ∈ net.ues.filter fun ue' => ue'.id ≠ ue.id := by
    intro ue' hue' hne
    refine List.mem_filter.mpr ⟨hue', decide_eq_true ?_⟩
    exact fun hid => hne (h.eq_of_id hue' hue hid)
  refine ⟨h.distinct.filter _, ?_, ?_, ?_, ?_⟩
  · intro e1apId rnti hfind
    obtain ⟨ue', hue', hactive', hid, hrnti⟩ := h.e1ap e1apId rnti hfind
    refine ⟨ue', hkept ue' hue' ?_, hactive', hid, hrnti⟩
    rintro rfl
    rw [hid, hfind] at he1ap
    cases he1ap
  · intro k e1apId hfind
    obtain ⟨ue', hue', hindex, hid⟩ := h.cuUp k e1apId hfind
    refine ⟨ue', hkept ue' hue' ?_, hindex, hid⟩
    rintro rfl
    rw [hindex, hfind] at hcuUp
    cases hcuUp
  · intro e he
    obtain ⟨ue', hue', hindex, howner⟩ := h.pdcp e he
    refine ⟨ue', hkept ue' hue' ?_, hindex, howner⟩
    rintro rfl
    exact hpdcp e he hindex.symm
  · intro e he
    obtain ⟨ue', hue', hindex, howners⟩ := h.gtp e he
    refine ⟨ue', hkept ue' hue' ?_, hindex, howners⟩
    rintro rfl
    rw [hindex, OrdMap.find?_eq_some_iff.mpr he] at hgtp
    cases hgtp

theorem Consistent.step {event : NetworkEvent} (h : Consistent net)
    (hguard : net.attributable event = true) (hstep : net.step event = some net') :
    Consistent net' := by
  cases event with
  | attach rnti ueIndex cuUpUeIndex e1apId =>
    rw [Network.step] at hstep
    split at hstep
    · rename_i hcond
      cases hstep
      exact h.attach hcond.2
    · cases hstep
  | registerUe id =>
    obtain ⟨ue, _, rfl⟩ := call_spec hstep
    exact h.of_er rfl rfl rfl rfl
  | unregisterUe id =>
    obtain ⟨ue, _, rfl⟩ := call_spec hstep
    exact h.of_er rfl rfl rfl rfl
  | registerE1apRnti id =>
    obtain ⟨ue, hfind, rfl⟩ := call_spec hstep
    rw [attributable, hfind, Option.any_some] at hguard
    exact h.registerE1apRnti (find?_spec hfind).1 hguard
  | registerCuUpUeE1ap id =>
    obtain ⟨ue, hfind, rfl⟩ := call_spec hstep
    exact h.registerCuUpUeE1ap (find?_spec hfind).1
  | macReport id cqi snr dlBuffer ulBuffer =>
    obtain ⟨ue, _, rfl⟩ := call_spec hstep
    exact h.of_er rfl rfl rfl rfl
  | reportPdcpMetrics id drbId metrics =>
    obtain ⟨ue, hfind, rfl⟩ := Option.map_eq_some_iff.mp hstep
    exact h.reportPdcpMetrics (find?_spec hfind).1 drbId metrics
  | reportGtpDlPkt id pduLen =>
    obtain ⟨ue, hfind, rfl⟩ := Option.map_eq_some_iff.mp hstep
    exact h.reportGtpPkt (find?_spec hfind).1 _
  | reportGtpUlPkt id pduLen =>
    obtain ⟨ue, hfind, rfl⟩ := Option.map_eq_some_iff.mp hstep
    exact h.reportGtpPkt (find?_spec hfind).1 _
  | unregisterUeByRnti id =>
    rw [Network.step] at hstep
    split at hstep
    · cases hstep
    · rename_i ue hfind
      split at hstep
      · cases hstep
        obtain ⟨hue, hid⟩ := find?_spec hfind
        rw [← hid]
        exact h.unregisterUeByRnti hue
      · cases hstep
  | detach id =>
    obtain ⟨ue, hfind, rfl⟩ := Option.map_eq_some_iff.mp hstep
    obtain ⟨hue, hid⟩ := find?_spec hfind
    rw [attributable, hfind, Option.any_some, Bool.and_eq_true, Bool.and_eq_true, Bool.and_eq_true,
      Bool.not_eq_true', Bool.not_eq_true', Bool.not_eq_true', List.all_eq_true] at hguard
    obtain ⟨⟨⟨hpdcp, hgtp⟩, hcuUp⟩, he1ap⟩ := hguard
    rw [OrdMap.contains, Option.isSome_eq_false_iff, Option.isNone_iff_eq_none] at hgtp hcuUp he1ap
    rw [← hid]
    exact h.detach hue (fun e he => of_decide_eq_true (hpdcp e he)) hgtp hcuUp he1ap
  | sendTtiMetrics =>
    cases hstep
    exact h.of_er rfl rfl rfl rfl

theorem consistent_start : Consistent {} where
  distinct := .nil
  e1ap := nofun
  cuUp := nofun
  pdcp := nofun
  gtp := nofun

theorem reaches_consistent
    (hrun : Runs.Reaches step (fun net event => net.attributable event = true) {} net) :
    Consistent net := by
  apply hrun.invariant consistent_start
  intro s event s' hs hguard hstep
  exact hs.step hguard hstep

/-- The holder of the RNTI that the E1AP correlates with a CU-UP index holds the index. -/
theorem Consistent.holder (h : Consistent net) {k : Nat} {rnti : Rnti}
    (he1ap : net.er.e1apRnti? k = some rnti) :
    ∃ ue ∈ net.ues, ue.active = true ∧ ue.rnti = rnti ∧ ue.cuUpUeIndex = k := by
  obtain ⟨e1apId, hindex, hrnti⟩ := Option.bind_eq_some_iff.mp he1ap
  obtain ⟨ue, hue, hactive, hid, hholds⟩ := h.e1ap e1apId rnti hrnti
  obtain ⟨ue', hue', hcuUp, hid'⟩ := h.cuUp k e1apId hindex
  rw [← h.eq_of_e1apId hue hue' (hid.trans hid'.symm)] at hcuUp
  exact ⟨ue, hue, hactive, hholds, hcuUp⟩

/-- What is exported under the RNTI of a UE of the MAC is correlated by the E1AP. -/
theorem e1apRnti?_of_exported {k : Nat} {rnti : Rnti} (hmac : net.er.macUe.contains rnti = true)
    (hguard : net.correlatedOrHidden k = true) (hrnti : net.er.getRntiFromCuUpUeIndex k = rnti) :
    net.er.e1apRnti? k = some rnti := by
  rw [correlatedOrHidden, hrnti, hmac, Bool.not_true, Bool.or_false] at hguard
  obtain ⟨r, hr⟩ := Option.isSome_iff_exists.mp hguard
  rw [EdgeRic.getRntiFromCuUpUeIndex, hr] at hrnti
  have hsame : r = rnti := hrnti
  rw [hr, hsame]

theorem Consistent.attributed (h : Consistent net)
    (hguard : net.attributable .sendTtiMetrics = true) : Attributed net := by
  rw [attributable, Bool.and_eq_true, List.all_eq_true, List.all_eq_true] at hguard
  obtain ⟨hpdcp, hgtp⟩ := hguard
  intro rnti hmac
  have hpdcpHolder : ∀ e ∈ net.er.exportedPdcp rnti, ∃ ue ∈ net.ues, ue.active = true ∧
      ue.rnti = rnti ∧ net.pdcpOwner e.1 = some ue.id := by
    intro e he
    obtain ⟨hentry, hrnti⟩ := List.mem_filter.mp he
    have he1ap := e1apRnti?_of_exported hmac (hpdcp e hentry) (of_decide_eq_true hrnti)
    obtain ⟨ue, hue, hactive, hholds, hcuUp⟩ := h.holder he1ap
    obtain ⟨ue', hue', hcuUp', howner⟩ := h.pdcp e hentry
    rw [← h.eq_of_cuUp hue hue' (hcuUp.trans hcuUp'.symm)] at howner
    exact ⟨ue, hue, hactive, hholds, howner⟩
  have hgtpHolder : ∀ e, net.er.exportedGtp rnti = some e → ∃ ue ∈ net.ues, ue.active = true ∧
      ue.rnti = rnti ∧ ∀ owner ∈ net.gtpOwners e.1, owner = ue.id := by
    intro e he
    have hentry := List.mem_of_find?_eq_some he
    have hrnti := List.find?_some he
    have he1ap := e1apRnti?_of_exported hmac (hgtp e hentry) (of_decide_eq_true hrnti)
    obtain ⟨ue, hue, hactive, hholds, hcuUp⟩ := h.holder he1ap
    obtain ⟨ue', hue', hcuUp', howners⟩ := h.gtp e hentry
    rw [← h.eq_of_cuUp hue hue' (hcuUp.trans hcuUp'.symm)] at howners
    exact ⟨ue, hue, hactive, hholds, howners⟩
  by_cases hholder : ∃ ue ∈ net.ues, ue.active = true ∧ ue.rnti = rnti
  · obtain ⟨ue, hue, hactive, hholds⟩ := hholder
    refine Or.inr ⟨ue, hue, hactive, hholds, ?_, ?_⟩
    · intro e he
      obtain ⟨ue', hue', hactive', hholds', howner⟩ := hpdcpHolder e he
      rw [h.eq_of_rnti hue hue' hactive hactive' (hholds.trans hholds'.symm)]
      exact howner
    · intro e he
      obtain ⟨ue', hue', hactive', hholds', howners⟩ := hgtpHolder e he
      rw [h.eq_of_rnti hue hue' hactive hactive' (hholds.trans hholds'.symm)]
      exact howners
  · refine Or.inl ⟨?_, ?_⟩
    · apply List.eq_nil_iff_forall_not_mem.mpr
      intro e he
      obtain ⟨ue, hue, hactive, hholds, _⟩ := hpdcpHolder e he
      exact hholder ⟨ue, hue, hactive, hholds⟩
    · apply Option.eq_none_iff_forall_ne_some.mpr
      intro e he
      obtain ⟨ue, hue, hactive, hholds, _⟩ := hgtpHolder e he
      exact hholder ⟨ue, hue, hactive, hholds⟩

/-- In every run that exports nothing on the strength of a position, registers E1AP identities of UEs
that hold their RNTI, and gives back identities only when the registry has forgotten them: what is
exported under an RNTI was reported by the UE that holds it. -/
theorem sendTtiMetrics_attributes
    (hrun : Runs.Reaches step (fun net event => net.attributable event = true) {} net)
    (hguard : net.attributable .sendTtiMetrics = true) : Attributed net :=
  (reaches_consistent hrun).attributed hguard

/-- Two correlated UEs, of which the second one uses the CU-UP index of a UE that has left. -/
theorem sendTtiMetrics_attributes_reused : ∃ net : Network,
    (net.er.exportedPdcp 0x4602).map (fun e => (e.1.ue, e.2.txPdus)) = [(0, 3)] ∧
      Attributed net := by
  have hobserved : (Runs.runAll (Runs.guarded step fun net event => net.attributable event = true) {}
      [.attach 0x4601 0 0 7, .registerE1apRnti 0, .registerCuUpUeE1ap 0, .macReport 0 15 0 0 0,
        .reportPdcpMetrics 0 1 { txPdus := 9 }, .reportGtpDlPkt 0 100, .sendTtiMetrics,
        .unregisterUeByRnti 0, .detach 0, .attach 0x4602 0 0 8, .registerCuUpUeE1ap 1,
        .registerE1apRnti 1, .macReport 1 15 0 0 0, .reportPdcpMetrics 1 1 { txPdus := 3 }]).map
      (fun net => ((net.er.exportedPdcp 0x4602).map (fun e => (e.1.ue, e.2.txPdus)),
        net.attributable .sendTtiMetrics)) = some ([(0, 3)], true) := by
    decide +kernel
  obtain ⟨net, hrun, hnet⟩ := Option.map_eq_some_iff.mp hobserved
  rw [Prod.mk.injEq] at hnet
  exact ⟨net, hnet.1,
    sendTtiMetrics_attributes (Runs.reaches_of_runGuarded .start hrun) hnet.2⟩

/-- Two UEs without correlation by the E1AP, whose CU-UP indices are not in the order of their CU-CP
indices: what the first one reports is exported under the RNTI of the second one. -/
theorem sendTtiMetrics_wrongUe : ∃ net : Network,
    Runs.Reaches step (fun _ _ => True) {} net ∧ ¬Attributed net := by
  have hobserved : (Runs.runAll step {}
      [.attach 0x4601 0 1 7, .attach 0x4602 1 0 8, .registerUe 0, .registerUe 1,
        .macReport 0 15 0 0 0, .macReport 1 15 0 0 0, .reportPdcpMetrics 0 1 {}]).map
      (fun net => (net.er.macUe.contains 0x4602, (net.er.exportedPdcp 0x4602).map Prod.fst,
        net.pdcpOwner (drbKey 1 1), net.ues)) =
      some (true, [drbKey 1 1], some 0, [⟨0, 0x4601, 0, 1, 7, true⟩, ⟨1, 0x4602, 1, 0, 8, true⟩]) := by
    decide +kernel
  obtain ⟨net, hrun, hnet⟩ := Option.map_eq_some_iff.mp hobserved
  rw [Prod.mk.injEq, Prod.mk.injEq, Prod.mk.injEq] at hnet
  obtain ⟨hmac, hexported, howner, hues⟩ := hnet
  refine ⟨net, Runs.reaches_of_runAll .start (fun _ _ _ => trivial) hrun, ?_⟩
  intro hattributed
  have hmem : drbKey 1 1 ∈ (net.er.exportedPdcp 0x4602).map Prod.fst := by
    rw [hexported]
    exact List.mem_cons_self
  obtain ⟨e, he, hkey⟩ := List.mem_map.mp hmem
  obtain ⟨hnone, _⟩ | ⟨ue, hue, _, hrnti, hpdcp, _⟩ := hattributed 0x4602 hmac
  · rw [hnone] at he
    cases he
  · have hid := hpdcp e he
    rw [hkey, howner] at hid
    rw [hues] at hue
    simp only [List.mem_cons, List.not_mem_nil, or_false] at hue
    obtain rfl | rfl := hue
    · cases hrnti
    · cases hid

end Network

end Srsran.EdgeRic
