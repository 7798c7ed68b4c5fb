import Srsran.EdgeRic.Registry

/-! Removal of a UE from the registry: nothing is kept about it, and the other UEs do not notice. -/
namespace Srsran.EdgeRic
variable {er : EdgeRic} {rnti other : Rnti} {k : Nat}

/-- Nothing in the registry can be found or exported for an RNTI, now or when it is given to another
UE: what is left of PDCP and GTP-U is correlated with other RNTIs. -/
structure Forgotten (er : EdgeRic) (rnti : Rnti) : Prop where
  macUe : er.macUe.find? rnti = none
  macDrb : ∀ lcid, er.macDrb.find? (drbKey rnti lcid) = none
  rlcDrb : ∀ lcid, er.rlcDrb.find? (drbKey rnti lcid) = none
  ueIndex : ∀ ueIndex, er.ueIndexToRnti.find? ueIndex ≠ some rnti
  duUe : ∀ duUeIndex, er.duUeToRnti.find? duUeIndex ≠ some rnti
  e1apId : ∀ e1apId, er.e1apIdToRnti.find? e1apId ≠ some rnti
  cuUpUe : ∀ k, er.e1apRnti? k ≠ some rnti ∧ er.fallbackRnti? k ≠ some rnti
  pdcpDrb : ∀ e ∈ er.pdcpDrb.entries, ∃ other, other ≠ rnti ∧ er.e1apRnti? e.1.ue = some other
  gtpUe : ∀ e ∈ er.gtpUe.entries, ∃ other, other ≠ rnti ∧ er.e1apRnti? e.1 = some other
  weight : er.weightsRecved.find? rnti = none
  mcs : er.mcsRecved.find? rnti = none

/-- All lookups, metrics and control values of a UE are the same in both registries. -/
structure SameUe (er er' : EdgeRic) (rnti : Rnti) : Prop where
  export_eq : er'.ueMetrics rnti = er.ueMetrics rnti
  weights : er'.getWeights rnti = er.getWeights rnti ∧
    er'.getWeightsUnchecked rnti = er.getWeightsUnchecked rnti
  mcs : er'.getMcs rnti = er.getMcs rnti
  lcids : er'.getDrbLcids rnti = er.getDrbLcids rnti
  gtp : er'.getGtpMetrics rnti = er.getGtpMetrics rnti
  ueIndex : ∀ ueIndex, er.ueIndexToRnti.find? ueIndex = some rnti →
    er'.ueIndexToRnti.find? ueIndex = some rnti
  duUe : ∀ duUeIndex, er.duUeToRnti.find? duUeIndex = some rnti →
    er'.duUeToRnti.find? duUeIndex = some rnti
  cuUpUe : ∀ k, er.e1apRnti? k = some rnti ∨
      (er.e1apRnti? k = none ∧ er.fallbackRnti? k = some rnti) →
    er'.getRntiFromCuUpUeIndex k = rnti ∧
      er'.getPdcpDrbIdsByUeIndex k = er.getPdcpDrbIdsByUeIndex k ∧
      er'.gtpUe.find? k = er.gtpUe.find? k

def NoControl (er : EdgeRic) (rnti : Rnti) : Prop :=
  er.weightsRecved.find? rnti = none ∧ er.mcsRecved.find? rnti = none

/-- The E1AP says which UE the entries of PDCP and GTP-U belong to. -/
def Correlated (er : EdgeRic) : Prop :=
  (∀ e ∈ er.pdcpDrb.entries, (er.e1apRnti? e.1.ue).isSome = true) ∧
    ∀ e ∈ er.gtpUe.entries, (er.e1apRnti? e.1).isSome = true

/-- Where a position is taken for a CU-UP index of another UE, the RNTI is at none of the positions
before it, which would all move. -/
def KeepsPositions (er : EdgeRic) (rnti : Rnti) : Prop :=
  ∀ k other, er.e1apRnti? k = none → er.fallbackRnti? k = some other → other ≠ rnti →
    (∀ e ∈ er.ueIndexToRnti.entries.take (k + 1), e.2 ≠ rnti) ∧
      (er.ueIndexToRnti.entries.length ≤ k → rnti ∉ er.macUe.keys.take (k + 1))

theorem mem_e1apIdsToRemove {e1apId : Nat} :
    e1apId ∈ er.e1apIdsToRemove rnti ↔ er.e1apIdToRnti.find? e1apId = some rnti := by
  rw [e1apIdsToRemove, OrdMap.mem_keys]
  constructor
  · rintro ⟨r, hfind⟩
    rw [OrdMap.find?_filter, Option.filter_eq_some_iff, decide_eq_true_eq] at hfind
    rw [hfind.1, hfind.2]
  · intro hfind
    refine ⟨rnti, ?_⟩
    rw [OrdMap.find?_filter, hfind, Option.filter_some, if_pos (decide_eq_true rfl)]

theorem mem_cuUpIndicesToRemove :
    k ∈ er.cuUpIndicesToRemove rnti ↔ er.e1apRnti? k = some rnti := by
  rw [cuUpIndicesToRemove, OrdMap.mem_keys, e1apRnti?, Option.bind_eq_some_iff]
  constructor
  · rintro ⟨e1apId, hfind⟩
    rw [OrdMap.find?_filter, Option.filter_eq_some_iff, decide_eq_true_eq, mem_e1apIdsToRemove]
      at hfind
    exact ⟨e1apId, hfind⟩
  · rintro ⟨e1apId, hfind, hrnti⟩
    refine ⟨e1apId, ?_⟩
    rw [OrdMap.find?_filter, hfind, Option.filter_some,
      if_pos (decide_eq_true (mem_e1apIdsToRemove.mpr hrnti))]

/-- Correlations with other RNTIs are kept, those with the RNTI itself are gone. -/
theorem e1apRnti?_unregister :
    (er.unregisterUeByRnti rnti).e1apRnti? k = (er.e1apRnti? k).filter (· ≠ rnti) := by
  apply Option.ext
  intro r
  rw [Option.filter_eq_some_iff, decide_eq_true_eq, e1apRnti?, e1apRnti?, Option.bind_eq_some_iff,
    Option.bind_eq_some_iff, unregisterUeByRnti]
  dsimp only
  constructor
  · rintro ⟨e1apId, hfind, hrnti⟩
    rw [OrdMap.find?_filter, Option.filter_eq_some_iff] at hfind hrnti
    exact ⟨⟨e1apId, hfind.1, hrnti.1⟩, of_decide_eq_true hrnti.2⟩
  · rintro ⟨⟨e1apId, hfind, hrnti⟩, hne⟩
    refine ⟨e1apId, ?_, ?_⟩
    · rw [OrdMap.find?_filter, hfind, Option.filter_some, if_pos]
      rw [decide_eq_true_eq, mem_e1apIdsToRemove, hrnti]
      exact fun heq => hne (Option.some.inj heq)
    · rw [OrdMap.find?_filter, hrnti, Option.filter_some, if_pos (decide_eq_true hne)]

theorem e1apRnti?_unregister_of_ne (h : er.e1apRnti? k = some other) (hne : other ≠ rnti) :
    (er.unregisterUeByRnti rnti).e1apRnti? k = some other := by
  rw [e1apRnti?_unregister, h, Option.filter_some, if_pos (decide_eq_true hne)]

theorem fallbackRnti?_unregister_ne : (er.unregisterUeByRnti rnti).fallbackRnti? k ≠ some rnti := by
  intro h
  rw [fallbackRnti?] at h
  split at h
  · rename_i entry hentry
    obtain ⟨_, hne⟩ := OrdMap.mem_filter.mp (List.mem_of_getElem? hentry)
    exact of_decide_eq_true hne (Option.some.inj h)
  · have hmem := List.mem_of_getElem? h
    rw [OrdMap.mem_keys, unregisterUeByRnti, OrdMap.erase] at hmem
    obtain ⟨m, hfind⟩ := hmem
    rw [OrdMap.find?_filter, Option.filter_eq_some_iff, decide_eq_true_eq] at hfind
    exact hfind.2 rfl

/-- Filtering moves no element that has only accepted ones before it. -/
theorem getElem?_filter_of_take {α : Type} {p : α → Bool} {l : List α}
    (h : ∀ x ∈ l.take (k + 1), p x = true) (hlt : k < l.length) : (l.filter p)[k]? = l[k]? := by
  induction l generalizing k with
  | nil => exact absurd hlt (Nat.not_lt_zero k)
  | cons head rest ih =>
    rw [List.take_succ_cons] at h
    rw [List.filter_cons_of_pos (h head List.mem_cons_self)]
    cases k with
    | zero => rfl
    | succ k =>
      rw [List.getElem?_cons_succ, List.getElem?_cons_succ]
      exact ih (fun x hx => h x (List.mem_cons_of_mem _ hx)) (Nat.lt_of_succ_lt_succ hlt)

theorem keys_erase {V : Type} {m : OrdMap Rnti V} :
    (m.erase rnti).keys = m.keys.filter fun r => decide (r ≠ rnti) := by
  rw [OrdMap.keys, OrdMap.erase, OrdMap.filter, OrdMap.keys, List.filter_map]
  rfl

theorem fallbackRnti?_unregister (hkeeps : er.KeepsPositions rnti) (hnone : er.e1apRnti? k = none)
    (hother : er.fallbackRnti? k = some other) (hne : other ≠ rnti) :
    (er.unregisterUeByRnti rnti).fallbackRnti? k = some other := by
  obtain ⟨hindices, hkeys⟩ := hkeeps k other hnone hother hne
  have hentries : (er.unregisterUeByRnti rnti).ueIndexToRnti.entries =
      er.ueIndexToRnti.entries.filter fun e => decide (e.2 ≠ rnti) := rfl
  have hmacKeys : (er.unregisterUeByRnti rnti).macUe.keys =
      er.macUe.keys.filter fun r => decide (r ≠ rnti) := keys_erase
  rw [fallbackRnti?] at hother ⊢
  rw [hentries, hmacKeys]
  by_cases hlt : k < er.ueIndexToRnti.entries.length
  · rw [getElem?_filter_of_take _ hlt]
    · rw [List.getElem?_eq_getElem hlt] at hother ⊢
      exact hother
    · exact fun e he => decide_eq_true (hindices e he)
  · have hle := Nat.le_of_not_lt hlt
    rw [List.getElem?_eq_none hle] at hother
    rw [List.getElem?_eq_none (Nat.le_trans (List.length_filter_le _ _) hle)]
    have hposition := List.getElem?_eq_some_iff.mp hother
    rw [getElem?_filter_of_take _ hposition.1]
    · exact hother
    · intro r hr
      apply decide_eq_true
      rintro rfl
      exact hkeys hle hr

theorem find?_filter_ue {M : Type} {drbs : OrdMap DrbKey M} {bearer : Nat} :
    (drbs.filter fun key _ => decide (key.ue ≠ rnti)).find? (drbKey rnti bearer) = none :=
  OrdMap.find?_filter_eq_none fun _ _ => decide_eq_false (not_not.mpr rfl)

theorem find?_filter_rnti_ne {m : OrdMap Nat Rnti} {key : Nat} :
    (m.filter fun _ r => decide (r ≠ rnti)).find? key ≠ some rnti := by
  rw [OrdMap.find?_filter, Ne, Option.filter_eq_some_iff, decide_eq_true_eq]
  exact fun h => h.2 rfl

/-- An entry is left exactly when the E1AP does not correlate it with the RNTI. -/
theorem pdcpDrb_unregister {e : DrbKey × PdcpDrbMetrics} :
    e ∈ (er.unregisterUeByRnti rnti).pdcpDrb.entries ↔
      e ∈ er.pdcpDrb.entries ∧ er.e1apRnti? e.1.ue ≠ some rnti := by
  have hkept : e ∈ (er.unregisterUeByRnti rnti).pdcpDrb.entries ↔
      e ∈ er.pdcpDrb.entries ∧ decide (e.1.ue ∉ er.cuUpIndicesToRemove rnti) = true :=
    OrdMap.mem_filter
  rw [hkept, decide_eq_true_eq, mem_cuUpIndicesToRemove]

theorem gtpUe_unregister {e : Nat × GtpUeMetrics} :
    e ∈ (er.unregisterUeByRnti rnti).gtpUe.entries ↔
      e ∈ er.gtpUe.entries ∧ er.e1apRnti? e.1 ≠ some rnti := by
  have hkept : e ∈ (er.unregisterUeByRnti rnti).gtpUe.entries ↔
      e ∈ er.gtpUe.entries ∧ decide (e.1 ∉ er.cuUpIndicesToRemove rnti) = true :=
    OrdMap.mem_filter
  rw [hkept, decide_eq_true_eq, mem_cuUpIndicesToRemove]

/-- What the E1AP correlates before the removal it correlates with another RNTI afterwards, or it
belonged to the RNTI. -/
theorem correlated_unregister :
    (er.e1apRnti? k).isSome = true ↔ er.e1apRnti? k = some rnti ∨
      ∃ other, other ≠ rnti ∧ (er.unregisterUeByRnti rnti).e1apRnti? k = some other := by
  constructor
  · intro hsome
    obtain ⟨r, hr⟩ := Option.isSome_iff_exists.mp hsome
    by_cases heq : r = rnti
    · rw [← heq]
      exact Or.inl hr
    · exact Or.inr ⟨r, heq, e1apRnti?_unregister_of_ne hr heq⟩
  · rintro (h | ⟨other, _, hother⟩)
    · rw [h]
      rfl
    · rw [e1apRnti?_unregister, Option.filter_eq_some_iff] at hother
      rw [hother.1]
      rfl

theorem forgotten_iff :
    (er.unregisterUeByRnti rnti).Forgotten rnti ↔ er.NoControl rnti ∧ er.Correlated := by
  constructor
  · intro h
    refine ⟨⟨h.weight, h.mcs⟩, ?_, ?_⟩
    · intro e he
      by_cases hown : er.e1apRnti? e.1.ue = some rnti
      · exact correlated_unregister.mpr (Or.inl hown)
      · exact correlated_unregister.mpr (Or.inr (h.pdcpDrb e (pdcpDrb_unregister.mpr ⟨he, hown⟩)))
    · intro e he
      by_cases hown : er.e1apRnti? e.1 = some rnti
      · exact correlated_unregister.mpr (Or.inl hown)
      · exact correlated_unregister.mpr (Or.inr (h.gtpUe e (gtpUe_unregister.mpr ⟨he, hown⟩)))
  · rintro ⟨⟨hweight, hmcs⟩, hpdcp, hgtp⟩
    refine ⟨?_, fun _ => find?_filter_ue, fun _ => find?_filter_ue, fun _ => find?_filter_rnti_ne,
      fun _ => find?_filter_rnti_ne, fun _ => find?_filter_rnti_ne,
      fun k => ⟨?_, fallbackRnti?_unregister_ne⟩, ?_, ?_, hweight, hmcs⟩
    · exact OrdMap.find?_filter_eq_none fun _ _ => decide_eq_false (not_not.mpr rfl)
    · rw [e1apRnti?_unregister, Ne, Option.filter_eq_some_iff, decide_eq_true_eq]
      exact fun h => h.2 rfl
    · intro e he
      obtain ⟨hold, hne⟩ := pdcpDrb_unregister.mp he
      exact (correlated_unregister.mp (hpdcp e hold)).resolve_left hne
    · intro e he
      obtain ⟨hold, hne⟩ := gtpUe_unregister.mp he
      exact (correlated_unregister.mp (hgtp e hold)).resolve_left hne

theorem drbsOf_filter {M : Type} {drbs : OrdMap DrbKey M} (hne : other ≠ rnti) :
    drbsOf (drbs.filter fun key _ => decide (key.ue ≠ rnti)) other = drbsOf drbs other := by
  rw [drbsOf, drbsOf, OrdMap.filter, List.filter_filter]
  congr 1
  apply List.filter_congr
  intro e _
  by_cases heq : e.1.ue = other
  · rw [decide_eq_true heq, heq, decide_eq_true hne]
    rfl
  · rw [decide_eq_false heq, Bool.false_and]

theorem getRntiFromCuUpUeIndex_of_e1ap (h : er.e1apRnti? k = some rnti) :
    er.getRntiFromCuUpUeIndex k = rnti := by
  rw [getRntiFromCuUpUeIndex, h]

/-- For correlated entries: kept and found under another RNTI, exactly as before. -/
theorem exported_unregister (hsome : (er.e1apRnti? k).isSome = true) (hne : other ≠ rnti) :
    (decide ((er.unregisterUeByRnti rnti).getRntiFromCuUpUeIndex k = other) &&
        decide (k ∉ er.cuUpIndicesToRemove rnti)) =
      decide (er.getRntiFromCuUpUeIndex k = other) := by
  obtain ⟨r, hr⟩ := Option.isSome_iff_exists.mp hsome
  rw [getRntiFromCuUpUeIndex_of_e1ap hr]
  by_cases heq : r = rnti
  · have hremoved : k ∈ er.cuUpIndicesToRemove rnti := by
      rw [mem_cuUpIndicesToRemove, hr, heq]
    rw [decide_eq_false (not_not.mpr hremoved), Bool.and_false, heq, decide_eq_false (Ne.symm hne)]
  · have hkept : k ∉ er.cuUpIndicesToRemove rnti := by
      rw [mem_cuUpIndicesToRemove, hr]
      exact fun h => heq (Option.some.inj h)
    rw [getRntiFromCuUpUeIndex_of_e1ap (e1apRnti?_unregister_of_ne hr heq), decide_eq_true hkept,
      Bool.and_true]

theorem exportedPdcp_unregister (hcorrelated : er.Correlated) (hne : other ≠ rnti) :
    (er.unregisterUeByRnti rnti).exportedPdcp other = er.exportedPdcp other := by
  have hentries : (er.unregisterUeByRnti rnti).pdcpDrb.entries = er.pdcpDrb.entries.filter fun e =>
      decide (e.1.ue ∉ er.cuUpIndicesToRemove rnti) := rfl
  rw [exportedPdcp, exportedPdcp, hentries, List.filter_filter]
  apply List.filter_congr
  intro e he
  exact exported_unregister (hcorrelated.1 e he) hne

theorem exportedGtp_unregister (hcorrelated : er.Correlated) (hne : other ≠ rnti) :
    (er.unregisterUeByRnti rnti).exportedGtp other = er.exportedGtp other := by
  have hentries : (er.unregisterUeByRnti rnti).gtpUe.entries = er.gtpUe.entries.filter fun e =>
      decide (e.1 ∉ er.cuUpIndicesToRemove rnti) := rfl
  rw [exportedGtp, exportedGtp, hentries, ← List.head?_filter, ← List.head?_filter,
    List.filter_filter]
  congr 1
  apply List.filter_congr
  intro e he
  exact exported_unregister (hcorrelated.2 e he) hne

theorem ueMetrics_unregister (hcorrelated : er.Correlated) (hne : other ≠ rnti) :
    (er.unregisterUeByRnti rnti).ueMetrics other = er.ueMetrics other := by
  have hmac : (er.unregisterUeByRnti rnti).macUe.find? other = er.macUe.find? other :=
    OrdMap.find?_filter_of_keep fun _ _ => decide_eq_true hne
  have hmacDrb : drbsOf (er.unregisterUeByRnti rnti).macDrb other = drbsOf er.macDrb other :=
    drbsOf_filter hne
  have hrlcDrb : drbsOf (er.unregisterUeByRnti rnti).rlcDrb other = drbsOf er.rlcDrb other :=
    drbsOf_filter hne
  rw [ueMetrics, ueMetrics, hmac, hmacDrb, hrlcDrb, exportedPdcp_unregister hcorrelated hne,
    exportedGtp_unregister hcorrelated hne]

theorem find?_filter_rnti {m : OrdMap Nat Rnti} {key : Nat} (hne : other ≠ rnti)
    (h : m.find? key = some other) :
    (m.filter fun _ r => decide (r ≠ rnti)).find? key = some other := by
  rw [OrdMap.find?_filter, h, Option.filter_some, if_pos (decide_eq_true hne)]

theorem getPdcpDrbIds_unregister (hother : er.e1apRnti? k ≠ some rnti) :
    (er.unregisterUeByRnti rnti).getPdcpDrbIdsByUeIndex k = er.getPdcpDrbIdsByUeIndex k := by
  have hentries : (er.unregisterUeByRnti rnti).pdcpDrb.entries = er.pdcpDrb.entries.filter fun e =>
      decide (e.1.ue ∉ er.cuUpIndicesToRemove rnti) := rfl
  rw [getPdcpDrbIdsByUeIndex, getPdcpDrbIdsByUeIndex, hentries, List.filter_filter]
  congr 1
  apply List.filter_congr
  intro e _
  by_cases heq : e.1.ue = k
  · rw [decide_eq_true heq, heq, Bool.true_and, decide_eq_true_eq, mem_cuUpIndicesToRemove]
    exact hother
  · rw [decide_eq_false heq, Bool.false_and]

theorem gtpUe_find?_unregister (hother : er.e1apRnti? k ≠ some rnti) :
    (er.unregisterUeByRnti rnti).gtpUe.find? k = er.gtpUe.find? k := by
  apply OrdMap.find?_filter_of_keep
  intro _ _
  rw [decide_eq_true_eq, mem_cuUpIndicesToRemove]
  exact hother

theorem sameUe_unregister (hcorrelated : er.Correlated) (hkeeps : er.KeepsPositions rnti)
    (hne : other ≠ rnti) : SameUe er (er.unregisterUeByRnti rnti) other := by
  have hmacDrb : drbsOf (er.unregisterUeByRnti rnti).macDrb other = drbsOf er.macDrb other :=
    drbsOf_filter hne
  refine ⟨ueMetrics_unregister hcorrelated hne, ⟨rfl, rfl⟩, rfl, ?_, ?_,
    fun _ h => find?_filter_rnti hne h, fun _ h => find?_filter_rnti hne h, ?_⟩
  · rw [getDrbLcids, getDrbLcids, hmacDrb]
  · rw [getGtpMetrics, getGtpMetrics, exportedGtp_unregister hcorrelated hne]
  · rintro k (he1ap | ⟨hnone, hfallback⟩)
    · have hother : er.e1apRnti? k ≠ some rnti := by
        rw [he1ap]
        exact fun h => hne (Option.some.inj h)
      exact ⟨getRntiFromCuUpUeIndex_of_e1ap (e1apRnti?_unregister_of_ne he1ap hne),
        getPdcpDrbIds_unregister hother, gtpUe_find?_unregister hother⟩
    · have hother : er.e1apRnti? k ≠ some rnti := by
        rw [hnone]
        nofun
      refine ⟨?_, getPdcpDrbIds_unregister hother, gtpUe_find?_unregister hother⟩
      rw [getRntiFromCuUpUeIndex, e1apRnti?_unregister, hnone, Option.filter_none,
        fallbackRnti?_unregister hkeeps hnone hfallback hne]
      rfl

/-- A removal leaves nothing of the UE exactly when it has no control values and all entries of PDCP
and GTP-U are correlated by the E1AP, and then the other UEs do not notice it, unless positions that
stand for their CU-UP indices move. -/
theorem unregisterUeByRnti_isolated (er : EdgeRic) (rnti : Rnti) :
    ((er.unregisterUeByRnti rnti).Forgotten rnti ↔ er.NoControl rnti ∧ er.Correlated) ∧
      (er.Correlated → er.KeepsPositions rnti →
        ∀ other, other ≠ rnti → SameUe er (er.unregisterUeByRnti rnti) other) :=
  ⟨forgotten_iff, fun hcorrelated hkeeps _ hne => sameUe_unregister hcorrelated hkeeps hne⟩

def twoUes : EdgeRic :=
  ((((({} : EdgeRic).registerE1apRnti 7 0x4601).registerCuUpUeE1ap 0 7).reportPdcpMetrics 0 1
    {}).registerE1apRnti 8 0x4602).registerCuUpUeE1ap 1 8 |>.reportPdcpMetrics 1 1 { txPdus := 3 }

theorem unregisterUeByRnti_isolated_twoUes :
    (twoUes.pdcpDrb.find? (drbKey 0 1)).isSome = true ∧
      (twoUes.unregisterUeByRnti 0x4601).Forgotten 0x4601 ∧
      SameUe twoUes (twoUes.unregisterUeByRnti 0x4601) 0x4602 := by
  obtain ⟨hforgotten, hsame⟩ := unregisterUeByRnti_isolated twoUes 0x4601
  have hcorrelated : twoUes.Correlated := by
    constructor
    · decide
    · decide
  have hkeeps : twoUes.KeepsPositions 0x4601 := by
    intro k other _ hfallback
    have hempty : twoUes.fallbackRnti? k = none := rfl
    rw [hempty] at hfallback
    cases hfallback
  exact ⟨by decide, hforgotten.mpr ⟨⟨rfl, rfl⟩, hcorrelated⟩,
    hsame hcorrelated hkeeps 0x4602 (by decide)⟩

/-- The MCS that was received for a UE is still there after its removal, for the next UE with the
RNTI. -/
theorem unregisterUeByRnti_keepsMcs :
    ((({} : EdgeRic).getMcsFromEr 0 [(0x4601, 5)]).unregisterUeByRnti 0x4601).getMcs 0x4601 = some 5 ∧
      ¬((({} : EdgeRic).getMcsFromEr 0 [(0x4601, 5)]).unregisterUeByRnti 0x4601).Forgotten 0x4601 := by
  refine ⟨by decide, ?_⟩
  intro h
  have hmcs := h.mcs
  revert hmcs
  decide

end Srsran.EdgeRic
