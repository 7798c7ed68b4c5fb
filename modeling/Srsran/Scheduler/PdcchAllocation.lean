import Srsran.Scheduler.PdcchSearch
import Srsran.Lib.Parts
import Srsran.Lib.Runs

/-! PDCCHs of a slot over runs. The grid is the initial one and the resources that the tree names, as
long as the search does not leave resources behind. -/
namespace Srsran.Scheduler
open Parts

variable {dfsTree : List TreeNode}

theorem areNodes_concat {records : List AllocRecord} {record : AllocRecord}
    {node : TreeNode} (hlength : dfsTree.length = records.length) :
    AreNodes (records ++ [record]) (dfsTree ++ [node]) ↔ AreNodes records dfsTree ∧ IsNode record node := by
  induction dfsTree generalizing records with
  | nil =>
    obtain rfl := List.length_eq_zero_iff.mp hlength.symm
    simp [AreNodes]
  | cons first dfsTree ih =>
    cases records with
    | nil => cases hlength
    | cons firstRecord records =>
      simp only [List.cons_append, AreNodes, ih (Nat.succ.inj hlength), and_assoc]

def nodeResources (record : AllocRecord) (node : TreeNode) : Finset GridResource :=
  match record.pdcchCandidates[node.dciIterIndex]? with
  | some candidate => record.resources candidate
  | none => ∅

theorem nodeResources_eq {record : AllocRecord} {node : TreeNode} {candidate : PdcchCandidate}
    (h : record.pdcchCandidates[node.dciIterIndex]? = some candidate) :
    nodeResources record node = record.resources candidate := by
  rw [nodeResources, h]

theorem lastCrbs_concat (record : AllocRecord) (dfsTree : List TreeNode) (node : TreeNode) :
    PdcchSlot.lastCrbs record (dfsTree ++ [node]) = nodeResources record node := by
  have hlast : (dfsTree ++ [node]).getLast?.bind (fun last => record.pdcchCandidates[last.dciIterIndex]?) =
      record.pdcchCandidates[node.dciIterIndex]? := by rw [List.getLast?_concat, Option.bind_some]
  cases hcandidate : record.pdcchCandidates[node.dciIterIndex]? with
  | some candidate => rw [nodeResources_eq hcandidate, PdcchSlot.lastCrbs, hlast, hcandidate]
  | none => simp only [PdcchSlot.lastCrbs, nodeResources, hlast, hcandidate]

/-- There is a candidate for each record such that none of them collide. -/
def Assignable (base : Finset GridResource) (records : List AllocRecord) : Prop :=
  ∃ choice : List PdcchCandidate,
    List.Forall₂ (fun record candidate => candidate ∈ record.pdcchCandidates) records choice ∧
      (∀ part ∈ List.zipWith AllocRecord.resources records choice, Disjoint base part) ∧
      (List.zipWith AllocRecord.resources records choice).Pairwise Disjoint

theorem exists_choice {records : List AllocRecord}
    (hnodes : AreNodes records dfsTree) (hlength : dfsTree.length = records.length) :
    ∃ choice : List PdcchCandidate,
      List.Forall₂ (fun record candidate => candidate ∈ record.pdcchCandidates) records choice ∧
        List.zipWith AllocRecord.resources records choice =
          List.zipWith nodeResources records dfsTree := by
  induction dfsTree generalizing records with
  | nil =>
    obtain rfl := List.length_eq_zero_iff.mp hlength.symm
    exact ⟨[], .nil, rfl⟩
  | cons node dfsTree ih =>
    cases records with
    | nil => cases hlength
    | cons record records =>
      obtain ⟨⟨candidate, hget, -⟩, hrest⟩ := hnodes
      obtain ⟨choice, hchoice, hparts⟩ := ih hrest (Nat.succ.inj hlength)
      refine ⟨candidate :: choice, .cons (List.mem_of_getElem? hget) hchoice, ?_⟩
      rw [List.zipWith_cons_cons, List.zipWith_cons_cons, hparts, nodeResources_eq hget]

namespace PdcchSlot
variable {s s' : PdcchSlot} {base : Finset GridResource} {request : PdcchRequest}

def pdcchs (s : PdcchSlot) (isDl : Bool) : List Nat := if isDl then s.dlPdcchs else s.ulPdcchs

theorem ncce?_eq (ctx : DciContextPtr) : s.ncce? ctx = (s.pdcchs ctx.isDl)[ctx.index]? := by
  rw [ncce?, pdcchs]
  split <;> rfl

def allocated (s : PdcchSlot) (request : PdcchRequest) (candidate : PdcchCandidate) (node : TreeNode) :
    PdcchSlot where
  dlPdcchs := if request.isDl then s.dlPdcchs ++ [candidate.ncce] else s.dlPdcchs
  ulPdcchs := if request.isDl then s.ulPdcchs else s.ulPdcchs ++ [candidate.ncce]
  dlResGrid := s.dlResGrid ∪ (s.recordOf request).resources candidate
  records := s.records ++ [s.recordOf request]
  dfsTree := s.dfsTree ++ [node]

theorem pdcchs_allocated (candidate : PdcchCandidate) (node : TreeNode) (isDl : Bool) :
    (s.allocated request candidate node).pdcchs isDl =
      s.pdcchs isDl ++ if request.isDl = isDl then [candidate.ncce] else [] := by
  cases hdl : request.isDl <;> cases isDl <;> simp [pdcchs, allocated, hdl]

theorem setNcce_push (isDl : Bool) (ncce : Nat) :
    (s.pushPdcch isDl).setNcce ⟨isDl, if isDl then s.dlPdcchs.length else s.ulPdcchs.length⟩ ncce =
      { s with
        dlPdcchs := if isDl then s.dlPdcchs ++ [ncce] else s.dlPdcchs
        ulPdcchs := if isDl then s.ulPdcchs else s.ulPdcchs ++ [ncce] } := by
  cases isDl <;> simp [pushPdcch, setNcce]

theorem records_push (isDl : Bool) : (s.pushPdcch isDl).records = s.records ∧
    (s.pushPdcch isDl).dfsTree = s.dfsTree ∧ (s.pushPdcch isDl).dlResGrid = s.dlResGrid := by
  cases isDl <;> exact ⟨rfl, rfl, rfl⟩

def HasFree (s : PdcchSlot) (request : PdcchRequest) : Prop :=
  ∃ candidate ∈ request.candidates, Free s.dlResGrid (s.recordOf request) candidate

theorem allocHelper_free (hfree : s.HasFree request) :
    ∃ candidate node, (s.recordOf request).pdcchCandidates[node.dciIterIndex]? = some candidate ∧
      node.ncce = candidate.ncce ∧ node.recordIndex = s.dfsTree.length ∧
      Free s.dlResGrid (s.recordOf request) candidate ∧
      s.allocHelper request = some (true, s.allocated request candidate node) := by
  obtain ⟨hrecords, htree, hgrid⟩ := s.records_push request.isDl
  rcases allocDfsNode_spec s.dlResGrid s.dfsTree (s.recordOf request) 0 with
    ⟨-, hnone⟩ | ⟨index, candidate, -, hget, hcandidate, hsome⟩
  · obtain ⟨candidate, hmem, hcandidate⟩ := hfree
    obtain ⟨index, hget⟩ := List.getElem?_of_mem hmem
    exact absurd hcandidate (hnone index candidate (Nat.zero_le _) hget)
  · refine ⟨candidate, ⟨index, candidate.ncce, s.dfsTree.length⟩, hget, rfl, rfl, hcandidate, ?_⟩
    rw [allocHelper, allocPdcch, hrecords, htree, hgrid, searchDfs, hsome]
    dsimp only
    rw [List.getLast?_concat]
    dsimp only
    rw [recordOf, setNcce_push]
    rfl

/-- Without a free candidate the search fails and leaves the rest as it was. -/
theorem allocHelper_full (hnodes : AreNodes s.records s.dfsTree) (hfull : ¬ s.HasFree request) :
    ∃ grid, s.allocHelper request = some (false, { s with dlResGrid := grid }) ∧
      (¬ LaterFree s.dlResGrid s.records s.dfsTree → grid = s.dlResGrid) ∧
      ((∀ record ∈ s.records, ∀ candidate ∈ record.pdcchCandidates,
        (record.resources candidate).Nonempty) →
          LaterFree s.dlResGrid s.records s.dfsTree → grid ≠ s.dlResGrid) := by
  obtain ⟨hrecords, htree, hgrid⟩ := s.records_push request.isDl
  have hnone : allocDfsNode s.dlResGrid s.dfsTree (s.recordOf request) 0 = none := by
    rcases allocDfsNode_spec s.dlResGrid s.dfsTree (s.recordOf request) 0 with
      ⟨hnone, -⟩ | ⟨index, candidate, -, hget, hcandidate, -⟩
    · exact hnone
    · exact absurd ⟨candidate, List.mem_of_getElem? hget, hcandidate⟩ hfull
  have hfuel : dfsWork s.records s.dfsTree < dfsWeight s.records + 1 :=
    Nat.lt_succ_of_lt (dfsWork_lt hnodes)
  obtain ⟨grid, dfsTree, hsearch, -, hsame, hgrows⟩ :=
    @searchDfs_spec s.dlResGrid s.dfsTree (s.recordOf request) s.records _ _ [] hnodes hnone hfuel hfuel
  refine ⟨grid, ?_, hsame, hgrows⟩
  rw [allocHelper, allocPdcch, hrecords, htree, hgrid, hsearch]
  cases hdl : request.isDl <;> simp [pushPdcch, popPdcch]

def fills (s : PdcchSlot) : List (Finset GridResource) := List.zipWith nodeResources s.records s.dfsTree

/-- The grid is the initial one and the resources of the PDCCHs, all apart; the tree names a candidate of
each record; and the contexts have the CCEs of these candidates. -/
structure Sound (base : Finset GridResource) (s : PdcchSlot) : Prop where
  parts : IsParts base s.fills s.dlResGrid
  nodes : AreNodes s.records s.dfsTree
  length : s.dfsTree.length = s.records.length
  indices : ∀ (j : Nat) (node : TreeNode), s.dfsTree[j]? = some node → node.recordIndex = j
  ncces : ∀ pair ∈ s.records.zip s.dfsTree, s.ncce? pair.1.pdcchCtx = some pair.2.ncce

/-- The records are for the contexts of the results, in their order. -/
def CtxsOk (s : PdcchSlot) : Prop :=
  ∀ isDl, (s.records.map (·.pdcchCtx)).filter (·.isDl = isDl) =
    (List.range (s.pdcchs isDl).length).map fun index => ⟨isDl, index⟩

variable {record : AllocRecord}

theorem CtxsOk.mem (h : s.CtxsOk) (hrecord : record ∈ s.records) :
    record.pdcchCtx.index < (s.pdcchs record.pdcchCtx.isDl).length := by
  have hmem : record.pdcchCtx ∈
      (s.records.map (·.pdcchCtx)).filter (·.isDl = record.pdcchCtx.isDl) := by
    rw [List.mem_filter]
    exact ⟨List.mem_map_of_mem hrecord, by simp⟩
  rw [h] at hmem
  obtain ⟨index, hindex, heq⟩ := List.mem_map.mp hmem
  rw [← heq]
  exact List.mem_range.mp hindex

structure Inv (base : Finset GridResource) (s : PdcchSlot) : Prop where
  sound : Sound base s
  ctxs : s.CtxsOk

theorem Inv.start (base : Finset GridResource) : Inv base { dlResGrid := base } where
  sound := ⟨.nil base, trivial, rfl, nofun, nofun⟩
  ctxs := by
    intro isDl
    cases isDl <;> rfl

theorem fills_concat {node : TreeNode} {records : List AllocRecord}
    (hlength : dfsTree.length = records.length) :
    List.zipWith nodeResources (records ++ [record]) (dfsTree ++ [node]) =
      List.zipWith nodeResources records dfsTree ++ [nodeResources record node] := by
  rw [List.zipWith_append hlength.symm]
  rfl

theorem ctx_recordOf : (s.recordOf request).pdcchCtx =
    ⟨request.isDl, (s.pdcchs request.isDl).length⟩ := by
  rw [recordOf, pdcchs]
  split <;> rfl

theorem Inv.allocated (h : Inv base s) {candidate : PdcchCandidate} {node : TreeNode}
    (hget : (s.recordOf request).pdcchCandidates[node.dciIterIndex]? = some candidate)
    (hncce : node.ncce = candidate.ncce) (hindex : node.recordIndex = s.dfsTree.length)
    (hfree : Free s.dlResGrid (s.recordOf request) candidate) :
    Inv base (s.allocated request candidate node) := by
  have hlength := h.sound.length
  refine ⟨⟨?_, ?_, ?_, ?_, ?_⟩, ?_⟩
  · rw [fills, PdcchSlot.allocated, fills_concat hlength, nodeResources_eq hget]
    exact h.sound.parts.push hfree
  · exact (areNodes_concat hlength).mpr ⟨h.sound.nodes, candidate, hget, hncce⟩
  · simp [PdcchSlot.allocated, hlength]
  · intro j other hother
    rw [PdcchSlot.allocated] at hother
    by_cases hold : j < s.dfsTree.length
    · rw [List.getElem?_append_left hold] at hother
      exact h.sound.indices j other hother
    · rw [List.getElem?_append_right (Nat.le_of_not_lt hold)] at hother
      obtain ⟨hj, rfl⟩ := List.getElem?_eq_some_iff.mp hother
      rw [List.length_singleton] at hj
      rw [List.getElem_singleton, hindex]
      omega
  · intro pair hpair
    rw [PdcchSlot.allocated, List.zip_append hlength.symm] at hpair
    rw [ncce?_eq, pdcchs_allocated]
    rcases List.mem_append.mp hpair with hold | hnew
    · obtain ⟨hrecord, -⟩ := List.of_mem_zip hold
      rw [List.getElem?_append_left (h.ctxs.mem hrecord), ← ncce?_eq]
      exact h.sound.ncces pair hold
    · rw [List.zip_cons_cons, List.zip_nil_left, List.mem_singleton] at hnew
      subst hnew
      dsimp only
      rw [ctx_recordOf]
      simp [hncce]
  · intro isDl
    rw [pdcchs_allocated, PdcchSlot.allocated]
    dsimp only
    rw [List.map_append, List.filter_append, h.ctxs isDl, List.length_append, List.map_singleton,
      ctx_recordOf]
    by_cases hdl : request.isDl = isDl
    · subst hdl
      simp [List.range_succ]
    · simp [hdl]

def cancelled (s : PdcchSlot) (record : AllocRecord) (node : TreeNode) : PdcchSlot where
  dlPdcchs := if record.pdcchCtx.isDl then s.dlPdcchs.dropLast else s.dlPdcchs
  ulPdcchs := if record.pdcchCtx.isDl then s.ulPdcchs else s.ulPdcchs.dropLast
  dlResGrid := s.dlResGrid \ nodeResources record node
  records := s.records.dropLast
  dfsTree := s.dfsTree.dropLast

theorem pdcchs_cancelled (record : AllocRecord) (node : TreeNode) (isDl : Bool) :
    (s.cancelled record node).pdcchs isDl =
      if record.pdcchCtx.isDl = isDl then (s.pdcchs isDl).dropLast else s.pdcchs isDl := by
  cases hdl : record.pdcchCtx.isDl <;> cases isDl <;> simp [pdcchs, cancelled, hdl]

theorem CtxsOk.last (h : s.CtxsOk) {records : List AllocRecord}
    (hrecords : s.records = records ++ [record]) :
    ∃ count, (s.pdcchs record.pdcchCtx.isDl).length = count + 1 ∧
      record.pdcchCtx = ⟨record.pdcchCtx.isDl, count⟩ ∧
      (records.map (·.pdcchCtx)).filter (·.isDl = record.pdcchCtx.isDl) =
        (List.range count).map fun index => ⟨record.pdcchCtx.isDl, index⟩ := by
  have hctxs := h record.pdcchCtx.isDl
  rw [hrecords, List.map_append, List.filter_append, List.map_singleton] at hctxs
  have hkeep : [record.pdcchCtx].filter (·.isDl = record.pdcchCtx.isDl) = [record.pdcchCtx] := by simp
  rw [hkeep] at hctxs
  cases hcount : (s.pdcchs record.pdcchCtx.isDl).length with
  | zero =>
    rw [hcount] at hctxs
    exact absurd hctxs (by simp)
  | succ count =>
    rw [hcount, List.range_succ, List.map_append, List.map_singleton] at hctxs
    obtain ⟨hothers, hlast⟩ := List.append_inj' hctxs rfl
    exact ⟨count, rfl, List.singleton_inj.mp hlast, hothers⟩

theorem CtxsOk.cancelled (h : s.CtxsOk) {records : List AllocRecord} {record : AllocRecord}
    {node : TreeNode} (hrecords : s.records = records ++ [record]) :
    (s.cancelled record node).CtxsOk := by
  obtain ⟨count, hcount, -, hothers⟩ := h.last hrecords
  intro isDl
  rw [pdcchs_cancelled, PdcchSlot.cancelled, hrecords, List.dropLast_concat]
  dsimp only
  by_cases hdl : record.pdcchCtx.isDl = isDl
  · subst hdl
    rw [if_pos rfl, List.length_dropLast, hcount]
    exact hothers
  · have hctxs := h isDl
    rw [hrecords, List.map_append, List.filter_append, List.map_singleton] at hctxs
    have hdrop : [record.pdcchCtx].filter (·.isDl = isDl) = [] := by simp [hdl]
    rw [hdrop, List.append_nil] at hctxs
    rw [if_neg hdl]
    exact hctxs

theorem Inv.cancelLast (h : Inv base s) (hrecords : s.records ≠ []) :
    ∃ record node, s.cancelLastPdcch = (true, s.cancelled record node) ∧
      Inv base (s.cancelled record node) := by
  obtain ⟨records, record, hsplit⟩ := List.eq_nil_or_concat s.records |>.resolve_left hrecords
  rw [List.concat_eq_append] at hsplit
  have hlength := h.sound.length
  have htree : s.dfsTree ≠ [] := by
    intro hnil
    rw [hnil, hsplit, List.length_append] at hlength
    cases hlength
  obtain ⟨dfsTree, node, htreeSplit⟩ := List.eq_nil_or_concat s.dfsTree |>.resolve_left htree
  rw [List.concat_eq_append] at htreeSplit
  rw [hsplit, htreeSplit, List.length_append, List.length_append] at hlength
  have hlength : dfsTree.length = records.length := Nat.add_right_cancel hlength
  obtain ⟨count, hcount, hctx, hothers⟩ := h.ctxs.last hsplit
  refine ⟨record, node, ?_, ⟨?_, ?_, ?_, ?_, ?_⟩, ?_⟩
  · rw [cancelLastPdcch, hsplit, List.getLast?_concat]
    dsimp only
    rw [htreeSplit, lastCrbs_concat]
    cases hdl : record.pdcchCtx.isDl with
    | true =>
      rw [hdl, pdcchs, if_pos rfl] at hcount
      have hne : s.dlPdcchs ≠ [] := List.ne_nil_of_length_pos (by omega)
      rw [if_pos ⟨hne, by rw [hctx, hdl, hcount]; rfl⟩, cancelled, hdl, hsplit, htreeSplit]
      rfl
    | false =>
      rw [hdl, pdcchs, if_neg Bool.false_ne_true] at hcount
      have hne : s.ulPdcchs ≠ [] := List.ne_nil_of_length_pos (by omega)
      have hnotDl : ¬ (s.dlPdcchs ≠ [] ∧ record.pdcchCtx = ⟨true, s.dlPdcchs.length - 1⟩) := by
        rintro ⟨-, hdlCtx⟩
        rw [hdlCtx] at hdl
        cases hdl
      rw [if_neg hnotDl, if_pos ⟨hne, by rw [hctx, hdl, hcount]; rfl⟩, cancelled, hdl, hsplit,
        htreeSplit]
      rfl
  · have hparts := h.sound.parts
    rw [fills, hsplit, htreeSplit, fills_concat hlength] at hparts
    rw [fills, cancelled, hsplit, htreeSplit, List.dropLast_concat, List.dropLast_concat]
    exact hparts.pop
  · have hnodes := h.sound.nodes
    rw [hsplit, htreeSplit, areNodes_concat hlength] at hnodes
    rw [cancelled, hsplit, htreeSplit, List.dropLast_concat, List.dropLast_concat]
    exact hnodes.1
  · rw [cancelled, hsplit, htreeSplit, List.dropLast_concat, List.dropLast_concat]
    exact hlength
  · intro j other hother
    rw [cancelled, htreeSplit, List.dropLast_concat] at hother
    refine h.sound.indices j other ?_
    rw [htreeSplit, List.getElem?_append_left (List.getElem?_eq_some_iff.mp hother).1, hother]
  · intro pair hpair
    have hctxs := @CtxsOk.cancelled s h.ctxs records record node hsplit
    have hrecord := hctxs.mem (List.of_mem_zip hpair).1
    rw [cancelled, hsplit, htreeSplit, List.dropLast_concat, List.dropLast_concat] at hpair
    have hold := h.sound.ncces pair (by
      rw [hsplit, htreeSplit, List.zip_append hlength.symm]
      exact List.mem_append_left _ hpair)
    rw [ncce?_eq] at hold ⊢
    rw [pdcchs_cancelled] at hrecord ⊢
    split
    · rename_i hdl
      rw [if_pos hdl] at hrecord
      rw [List.length_dropLast] at hrecord
      rw [List.getElem?_dropLast, if_pos hrecord, hold]
    · exact hold
  · exact h.ctxs.cancelled hsplit

/-- What is asked of a call. It ends; a PDCCH is allocated when an assignment exists, and cancelled when
there is one; what is done leaves a sound state, and what is not done leaves the state as it was. -/
def CallOk (base : Finset GridResource) (s : PdcchSlot) : PdcchEvent → Prop
  | .alloc request => ∃ done s', s.allocHelper request = some (done, s') ∧
      (done = true ↔ Assignable base (s.records ++ [s.recordOf request])) ∧
      (done = true → s'.records = s.records ++ [s.recordOf request] ∧ Sound base s') ∧
      (done = false → s' = s)
  | .cancelLast => (s.cancelLastPdcch.1 = true ↔ s.records ≠ []) ∧
      (s.cancelLastPdcch.1 = true → s.cancelLastPdcch.2.records = s.records.dropLast ∧
        Sound base s.cancelLastPdcch.2) ∧
      (s.cancelLastPdcch.1 = false → s.cancelLastPdcch.2 = s)

/-- A new PDCCH has a candidate that is free as it is; or there is no assignment, and no recorded PDCCH
has a free candidate behind its own. -/
def Direct (base : Finset GridResource) (s : PdcchSlot) : PdcchEvent → Prop
  | .alloc request => s.HasFree request ∨
      ¬ Assignable base (s.records ++ [s.recordOf request]) ∧
        ¬ LaterFree s.dlResGrid s.records s.dfsTree
  | .cancelLast => True

section
variable (h : Inv base s)
include h

theorem Inv.assignable (hfree : s.HasFree request) :
    Assignable base (s.records ++ [s.recordOf request]) := by
  obtain ⟨candidate, hmem, hcandidate⟩ := hfree
  obtain ⟨choice, hchoice, hparts⟩ := exists_choice h.sound.nodes h.sound.length
  have hpushed := h.sound.parts.push hcandidate
  rw [fills, ← hparts] at hpushed
  have happend : List.zipWith AllocRecord.resources (s.records ++ [s.recordOf request])
      (choice ++ [candidate]) =
        List.zipWith AllocRecord.resources s.records choice ++
          [(s.recordOf request).resources candidate] := by
    rw [List.zipWith_append hchoice.length_eq]
    rfl
  refine ⟨choice ++ [candidate], List.rel_append hchoice (.cons hmem .nil), ?_, ?_⟩
  · rw [happend]
    exact hpushed.base
  · rw [happend]
    exact hpushed.apart

theorem Inv.callOk {event : PdcchEvent} (hdirect : Direct base s event) : CallOk base s event := by
  cases event with
  | alloc request =>
    rcases hdirect with hfree | ⟨hnone, hlater⟩
    · obtain ⟨candidate, node, hget, hncce, hindex, hcandidate, halloc⟩ := allocHelper_free hfree
      exact ⟨true, _, halloc, iff_of_true rfl (h.assignable hfree),
        fun _ => ⟨rfl, (h.allocated hget hncce hindex hcandidate).sound⟩, nofun⟩
    · obtain ⟨grid, halloc, hsame, -⟩ :=
        allocHelper_full h.sound.nodes fun hfree => hnone (h.assignable hfree)
      rw [hsame hlater] at halloc
      exact ⟨false, _, halloc, iff_of_false Bool.false_ne_true hnone, nofun, fun _ => rfl⟩
  | cancelLast =>
    by_cases hrecords : s.records = []
    · have hcancel : s.cancelLastPdcch = (false, s) := by rw [cancelLastPdcch, hrecords]; rfl
      rw [CallOk, hcancel]
      exact ⟨iff_of_false Bool.false_ne_true (not_not.mpr hrecords), nofun, fun _ => rfl⟩
    · obtain ⟨record, node, hcancel, hinv⟩ := h.cancelLast hrecords
      rw [CallOk, hcancel]
      exact ⟨iff_of_true rfl hrecords, fun _ => ⟨rfl, hinv.sound⟩, nofun⟩

/-- A call that is not direct fails although it must not, or leaves resources behind. -/
theorem Inv.direct (hresources : ∀ record ∈ s.records, ∀ candidate ∈ record.pdcchCandidates,
      (record.resources candidate).Nonempty)
    (hcall : CallOk base s (.alloc request)) : Direct base s (.alloc request) := by
  by_cases hfree : s.HasFree request
  · exact .inl hfree
  · obtain ⟨grid, halloc, -, hgrows⟩ := allocHelper_full h.sound.nodes hfree
    obtain ⟨done, s', halloc', hiff, -, hsame⟩ := hcall
    rw [halloc] at halloc'
    cases halloc'
    refine .inr ⟨fun hassignable => Bool.false_ne_true (hiff.mpr hassignable), fun hlater => ?_⟩
    exact hgrows hresources hlater (congrArg dlResGrid (hsame rfl))

theorem Inv.step {event : PdcchEvent} (hdirect : Direct base s event)
    (hstep : s.step event = some s') : Inv base s' := by
  cases event with
  | alloc request =>
    rw [PdcchSlot.step, Option.map_eq_some_iff] at hstep
    obtain ⟨result, halloc, rfl⟩ := hstep
    rcases hdirect with hfree | ⟨hnone, hlater⟩
    · obtain ⟨candidate, node, hget, hncce, hindex, hcandidate, halloc'⟩ := allocHelper_free hfree
      rw [halloc'] at halloc
      cases halloc
      exact h.allocated hget hncce hindex hcandidate
    · obtain ⟨grid, halloc', hsame, -⟩ :=
        allocHelper_full h.sound.nodes fun hfree => hnone (h.assignable hfree)
      rw [hsame hlater, halloc] at halloc'
      cases halloc'
      exact h
  | cancelLast =>
    obtain rfl := Option.some.inj hstep
    by_cases hrecords : s.records = []
    · have hcancel : s.cancelLastPdcch = (false, s) := by rw [cancelLastPdcch, hrecords]; rfl
      rw [hcancel]
      exact h
    · obtain ⟨record, node, hcancel, hinv⟩ := h.cancelLast hrecords
      rw [hcancel]
      exact hinv

theorem Inv.terminates (event : PdcchEvent) : (s.step event).isSome = true := by
  cases event with
  | cancelLast => rfl
  | alloc request =>
    rw [PdcchSlot.step, Option.isSome_map]
    by_cases hfree : s.HasFree request
    · obtain ⟨_, _, -, -, -, -, halloc⟩ := allocHelper_free hfree
      rw [halloc]
      rfl
    · obtain ⟨_, halloc, -⟩ := allocHelper_full h.sound.nodes hfree
      rw [halloc]
      rfl

end

/-- In a run of direct calls every state is sound, every call ends, and a call does what is asked exactly
when it is direct. -/
theorem pdcchSlot_allocation (h : Runs.Reaches step (Direct base) { dlResGrid := base } s) :
    Sound base s ∧ (∀ event, (s.step event).isSome = true) ∧
      (∀ event, Direct base s event → CallOk base s event) ∧
      ((∀ record ∈ s.records, ∀ candidate ∈ record.pdcchCandidates,
        (record.resources candidate).Nonempty) →
          ∀ request, CallOk base s (.alloc request) → Direct base s (.alloc request)) := by
  have hinv : Inv base s :=
    h.invariant (.start base) fun _ _ _ hinv hdirect hstep => hinv.step hdirect hstep
  exact ⟨hinv.sound, hinv.terminates, fun _ hdirect => hinv.callOk hdirect,
    fun hresources _ hcall => hinv.direct hresources hcall⟩

def firstRequest : PdcchRequest := ⟨true, 0, 1, [⟨0, [0, 1]⟩, ⟨2, [2, 3]⟩]⟩

def secondRequest : PdcchRequest := ⟨false, 0, 1, [⟨0, [0, 1]⟩, ⟨4, [4, 5]⟩]⟩

theorem pdcchSlot_allocation_two :
    ∃ s, Runs.Reaches step (Direct ∅) { dlResGrid := ∅ } s ∧ s.dlPdcchs = [0] ∧ s.ulPdcchs = [4] ∧
      Sound ∅ s := by
  have hfirst : ({ dlResGrid := ∅ } : PdcchSlot).HasFree firstRequest :=
    ⟨⟨0, [0, 1]⟩, by decide, Finset.disjoint_empty_left _⟩
  have hsecond : HasFree ⟨[0], [], {⟨0, 0, 0⟩, ⟨0, 0, 1⟩},
      [⟨⟨true, 0⟩, 0, 1, firstRequest.candidates⟩], [⟨0, 0, 0⟩]⟩ secondRequest := by
    refine ⟨⟨4, [4, 5]⟩, by decide, ?_⟩
    rw [Free]
    decide
  have hreaches : Runs.Reaches step (Direct ∅) { dlResGrid := ∅ }
      ⟨[0], [4], {⟨0, 0, 0⟩, ⟨0, 0, 1⟩, ⟨0, 0, 4⟩, ⟨0, 0, 5⟩},
        [⟨⟨true, 0⟩, 0, 1, firstRequest.candidates⟩, ⟨⟨false, 0⟩, 0, 1, secondRequest.candidates⟩],
        [⟨0, 0, 0⟩, ⟨1, 4, 1⟩]⟩ := by
    refine .next (.next .start (a := .alloc firstRequest) (.inl hfirst) ?_)
      (a := .alloc secondRequest) (.inl hsecond) ?_ <;> decide +kernel
  exact ⟨_, hreaches, rfl, rfl, (pdcchSlot_allocation hreaches).1⟩

/-- A PDCCH that could take the place of another fails, and the place that was tried for the other stays
filled. -/
theorem pdcchSlot_leftBehind :
    ∃ s s', Runs.Reaches step (fun _ _ => True) { dlResGrid := ∅ } s ∧
      s.allocHelper ⟨true, 0, 1, [⟨0, [0, 1]⟩]⟩ = some (false, s') ∧
      Assignable ∅ (s.records ++ [s.recordOf ⟨true, 0, 1, [⟨0, [0, 1]⟩]⟩]) ∧
      s.dlResGrid = {⟨0, 0, 0⟩, ⟨0, 0, 1⟩} ∧
      s'.dlResGrid = {⟨0, 0, 0⟩, ⟨0, 0, 1⟩, ⟨0, 0, 2⟩, ⟨0, 0, 3⟩} := by
  have hstep : step { dlResGrid := ∅ } (.alloc firstRequest) =
      some ⟨[0], [], {⟨0, 0, 0⟩, ⟨0, 0, 1⟩}, [⟨⟨true, 0⟩, 0, 1, firstRequest.candidates⟩],
        [⟨0, 0, 0⟩]⟩ := by decide +kernel
  refine ⟨_, ⟨[0], [], {⟨0, 0, 0⟩, ⟨0, 0, 1⟩, ⟨0, 0, 2⟩, ⟨0, 0, 3⟩},
    [⟨⟨true, 0⟩, 0, 1, firstRequest.candidates⟩], [⟨0, 0, 0⟩]⟩, .next .start trivial hstep, ?_, ?_,
    rfl, rfl⟩
  · decide +kernel
  · refine ⟨[⟨2, [2, 3]⟩, ⟨0, [0, 1]⟩], .cons (by decide) (.cons (by decide) .nil), ?_, ?_⟩
    · simp
    · decide +kernel

end PdcchSlot
end Srsran.Scheduler
