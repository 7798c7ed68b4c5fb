import Srsran.Scheduler.PdcchSlotAllocator
import Mathlib.Data.Finset.Disjoint
import Mathlib.Tactic.Ring

/-! The search for a place of a PDCCH. It ends, and since no step of it gives a resource back, it finds
nothing that is not free from the start. -/
namespace Srsran.Scheduler
variable {grid grid' : Finset GridResource} {dfsTree dfsTree' : List TreeNode}
  {record : AllocRecord} {records : List AllocRecord} {candidate : PdcchCandidate}

def Free (grid : Finset GridResource) (record : AllocRecord) (candidate : PdcchCandidate) : Prop :=
  Disjoint grid (record.resources candidate)

theorem Free.anti (h : Free grid' record candidate) (hsub : grid ⊆ grid') :
    Free grid record candidate :=
  h.mono_left hsub

theorem allocateCce_eq_some : allocateCce grid record candidate = some grid' ↔
    Free grid record candidate ∧ grid' = grid ∪ record.resources candidate := by
  have hcollides : (∃ resource ∈ record.resources candidate, resource ∈ grid) ↔
      ¬ Free grid record candidate := by
    rw [Free, Finset.not_disjoint_iff]
    exact exists_congr fun _ => and_comm
  rw [allocateCce, ite_eq_iff, hcollides]
  simp only [reduceCtorEq, and_false, false_or, not_not, Option.some.injEq, eq_comm]

theorem allocateCce_eq_none :
    allocateCce grid record candidate = none ↔ ¬ Free grid record candidate := by
  rw [Option.eq_none_iff_forall_ne_some]
  constructor
  · exact fun h hfree => h _ (allocateCce_eq_some.mpr ⟨hfree, rfl⟩)
  · exact fun h _ hsome => h (allocateCce_eq_some.mp hsome).1

theorem allocDfsNodeLoop_spec (grid : Finset GridResource) (dfsTree : List TreeNode)
    (record : AllocRecord) (index : Nat) (candidates : List PdcchCandidate) :
    (allocDfsNodeLoop grid dfsTree record index candidates = none ∧
        ∀ candidate ∈ candidates, ¬ Free grid record candidate) ∨
      ∃ k candidate, candidates[k]? = some candidate ∧ Free grid record candidate ∧
        allocDfsNodeLoop grid dfsTree record index candidates =
          some (grid ∪ record.resources candidate,
            dfsTree ++ [⟨index + k, candidate.ncce, dfsTree.length⟩]) := by
  induction candidates generalizing index with
  | nil => exact .inl ⟨rfl, nofun⟩
  | cons first candidates ih =>
    rw [allocDfsNodeLoop]
    cases hfirst : allocateCce grid record first with
    | some grid' =>
      obtain ⟨hfree, rfl⟩ := allocateCce_eq_some.mp hfirst
      exact .inr ⟨0, first, rfl, hfree, rfl⟩
    | none =>
      dsimp only
      rcases ih (index + 1) with ⟨hnone, hall⟩ | ⟨k, candidate, hget, hfree, hsome⟩
      · exact .inl ⟨hnone, List.forall_mem_cons.mpr ⟨allocateCce_eq_none.mp hfirst, hall⟩⟩
      · refine .inr ⟨k + 1, candidate, hget, hfree, ?_⟩
        rw [hsome, Nat.add_assoc, Nat.add_comm 1]

theorem allocDfsNode_spec (grid : Finset GridResource) (dfsTree : List TreeNode) (record : AllocRecord)
    (start : Nat) :
    (allocDfsNode grid dfsTree record start = none ∧ ∀ index candidate, start ≤ index →
        record.pdcchCandidates[index]? = some candidate → ¬ Free grid record candidate) ∨
      ∃ index candidate, start ≤ index ∧ record.pdcchCandidates[index]? = some candidate ∧
        Free grid record candidate ∧ allocDfsNode grid dfsTree record start =
          some (grid ∪ record.resources candidate,
            dfsTree ++ [⟨index, candidate.ncce, dfsTree.length⟩]) := by
  rw [allocDfsNode]
  rcases allocDfsNodeLoop_spec grid dfsTree record start (record.pdcchCandidates.drop start) with
    ⟨hnone, hall⟩ | ⟨k, candidate, hget, hfree, hsome⟩
  · refine .inl ⟨hnone, fun index candidate hle hget => hall candidate ?_⟩
    refine List.mem_of_getElem? (i := index - start) ?_
    rw [List.getElem?_drop, Nat.add_sub_cancel' hle, hget]
  · rw [List.getElem?_drop] at hget
    exact .inr ⟨start + k, candidate, Nat.le_add_right _ _, hget, hfree, hsome⟩

theorem allocDfsNode_none_mono (h : allocDfsNode grid dfsTree record 0 = none) (hsub : grid ⊆ grid') :
    allocDfsNode grid' dfsTree' record 0 = none := by
  rcases allocDfsNode_spec grid' dfsTree' record 0 with ⟨hnone, -⟩ | ⟨index, candidate, -, hget, hfree, -⟩
  · exact hnone
  · rcases allocDfsNode_spec grid dfsTree record 0 with ⟨-, hall⟩ | ⟨_, _, -, -, -, hsome⟩
    · exact absurd (hfree.anti hsub) (hall index candidate (Nat.zero_le _) hget)
    · rw [h] at hsome
      cases hsome

/-- The node stands for a candidate of the record. -/
def IsNode (record : AllocRecord) (node : TreeNode) : Prop :=
  ∃ candidate, record.pdcchCandidates[node.dciIterIndex]? = some candidate ∧
    node.ncce = candidate.ncce

theorem IsNode.lt {node : TreeNode} (h : IsNode record node) :
    node.dciIterIndex < record.pdcchCandidates.length := by
  obtain ⟨candidate, hget, -⟩ := h
  exact (List.getElem?_eq_some_iff.mp hget).1

def AreNodes : List AllocRecord → List TreeNode → Prop
  | _, [] => True
  | [], _ :: _ => False
  | record :: records, node :: nodes => IsNode record node ∧ AreNodes records nodes

def dfsWork : List AllocRecord → List TreeNode → Nat
  | record :: records, node :: nodes =>
    (record.pdcchCandidates.length - node.dciIterIndex) * dfsWeight records + dfsWork records nodes
  | _, _ => 0


@[simp] theorem dfsWeight_cons (record : AllocRecord) (records : List AllocRecord) :
    dfsWeight (record :: records) = (record.pdcchCandidates.length + 1) * dfsWeight records := by
  simp [dfsWeight]

theorem areNodes_append {nodes more : List TreeNode} : AreNodes records (nodes ++ more) ↔
    AreNodes records nodes ∧ AreNodes (records.drop nodes.length) more := by
  induction nodes generalizing records with
  | nil => simp [AreNodes]
  | cons node nodes ih =>
    cases records with
    | nil => simp [AreNodes]
    | cons record records => simp [AreNodes, ih, and_assoc]

theorem dfsWork_append {nodes more : List TreeNode} (h : AreNodes records nodes) :
    dfsWork records (nodes ++ more) =
      dfsWork records nodes + dfsWork (records.drop nodes.length) more := by
  induction nodes generalizing records with
  | nil => cases records <;> simp [dfsWork]
  | cons node nodes ih =>
    cases records with
    | nil => exact absurd h id
    | cons record records => simp [dfsWork, ih h.2, Nat.add_assoc]

theorem AreNodes.length_le {nodes : List TreeNode} (h : AreNodes records nodes) :
    nodes.length ≤ records.length := by
  induction nodes generalizing records with
  | nil => exact Nat.zero_le _
  | cons node nodes ih =>
    cases records with
    | nil => exact absurd h id
    | cons record records => exact Nat.succ_le_succ (ih h.2)

theorem dfsWeight_pos (records : List AllocRecord) : 0 < dfsWeight records := by
  induction records with
  | nil => exact Nat.one_pos
  | cons record records ih =>
    rw [dfsWeight_cons]
    exact Nat.mul_pos (Nat.succ_pos _) ih

theorem dfsWork_lt (h : AreNodes records dfsTree) : dfsWork records dfsTree < dfsWeight records := by
  induction dfsTree generalizing records with
  | nil => cases records <;> exact dfsWeight_pos _
  | cons node nodes ih =>
    cases records with
    | nil => exact absurd h id
    | cons record records =>
      have hrest := ih h.2
      have hle : (record.pdcchCandidates.length - node.dciIterIndex) * dfsWeight records ≤
          record.pdcchCandidates.length * dfsWeight records :=
        Nat.mul_le_mul_right _ (Nat.sub_le _ _)
      rw [dfsWork, dfsWeight_cons, Nat.succ_mul]
      omega

/-- The nodes that grow from an index on take the grid along, and leave less work than that index. -/
theorem growDfs_spec (grid : Finset GridResource) (dfsTree : List TreeNode)
    (records : List AllocRecord) (start : Nat) :
    ∃ nodes, (growDfs grid dfsTree records start).2 = dfsTree ++ nodes ∧
      grid ⊆ (growDfs grid dfsTree records start).1 ∧ AreNodes records nodes ∧
      (∀ record rest, records = record :: rest → dfsWork records nodes + 1 ≤
        (record.pdcchCandidates.length - start + 1) * dfsWeight rest) := by
  induction records generalizing grid dfsTree start with
  | nil => exact ⟨[], (List.append_nil _).symm, subset_rfl, trivial, nofun⟩
  | cons record records ih =>
    rw [growDfs]
    rcases allocDfsNode_spec grid dfsTree record start with
      ⟨hnone, -⟩ | ⟨index, candidate, hle, hget, -, hsome⟩
    · rw [hnone]
      refine ⟨[], (List.append_nil _).symm, subset_rfl, trivial, ?_⟩
      rintro _ _ ⟨⟩
      exact Nat.mul_pos (Nat.succ_pos _) (dfsWeight_pos _)
    · rw [hsome]
      obtain ⟨nodes, htree, hsub, hnodes, -⟩ := ih (grid ∪ record.resources candidate)
        (dfsTree ++ [⟨index, candidate.ncce, dfsTree.length⟩]) 0
      refine ⟨⟨index, candidate.ncce, dfsTree.length⟩ :: nodes, ?_,
        Finset.subset_union_left.trans hsub, ⟨⟨candidate, hget, rfl⟩, hnodes⟩, ?_⟩
      · dsimp only
        rw [htree, List.append_assoc]
        rfl
      · rintro _ _ ⟨⟩
        have hrest := dfsWork_lt hnodes
        have hwork : (record.pdcchCandidates.length - index) * dfsWeight records ≤
            (record.pdcchCandidates.length - start) * dfsWeight records :=
          Nat.mul_le_mul_right _ (Nat.sub_le_sub_left hle _)
        rw [dfsWork, Nat.succ_mul]
        dsimp only
        omega

theorem getNextDfs_spec {fuel : Nat} (hnodes : AreNodes records dfsTree)
    (hfuel : dfsWork records dfsTree < fuel) :
    ∃ grid' dfsTree' more, getNextDfs records fuel grid dfsTree = some (grid', dfsTree', more) ∧
      grid ⊆ grid' ∧ AreNodes records dfsTree' ∧
      (more = true → dfsWork records dfsTree' < dfsWork records dfsTree) := by
  induction fuel generalizing grid dfsTree with
  | zero => exact absurd hfuel (Nat.not_lt_zero _)
  | succ fuel ih =>
    rw [getNextDfs]
    rcases List.eq_nil_or_concat dfsTree with rfl | ⟨init, node, rfl⟩
    · exact ⟨grid, [], false, rfl, subset_rfl, hnodes, nofun⟩
    rw [List.concat_eq_append] at hnodes hfuel ⊢
    rw [List.getLast?_concat]
    dsimp only
    rw [List.dropLast_concat]
    obtain ⟨hinit, hlast⟩ := areNodes_append.mp hnodes
    obtain ⟨nodes, htree, hsub, hgrown, hwork⟩ :=
      growDfs_spec grid init (records.drop init.length) (node.dciIterIndex + 1)
    cases hrecords : records.drop init.length with
    | nil =>
      rw [hrecords] at hlast
      exact absurd hlast id
    | cons record rest =>
      rw [hrecords] at hlast
      have hless := hwork record rest hrecords
      have hindex := hlast.1.lt
      have hcount : record.pdcchCandidates.length - (node.dciIterIndex + 1) + 1 =
          record.pdcchCandidates.length - node.dciIterIndex := by omega
      rw [hcount] at hless
      have hbefore : dfsWork records (init ++ [node]) = dfsWork records init +
          (record.pdcchCandidates.length - node.dciIterIndex) * dfsWeight rest := by
        rw [dfsWork_append hinit, hrecords, dfsWork]
        cases rest <;> rfl
      have hafter : dfsWork records (init ++ nodes) < dfsWork records (init ++ [node]) := by
        rw [dfsWork_append hinit, hbefore]
        omega
      have hnodes' : AreNodes records (init ++ nodes) := areNodes_append.mpr ⟨hinit, hgrown⟩
      rw [← hrecords, htree]
      split
      · obtain ⟨grid', dfsTree', more, hnext, hsub', hnodes'', hmore⟩ :=
          @ih (growDfs grid init (records.drop init.length) (node.dciIterIndex + 1)).1 _ hnodes'
            (by omega)
        exact ⟨grid', dfsTree', more, hnext, hsub.trans hsub', hnodes'',
          fun h => (hmore h).trans hafter⟩
      · exact ⟨_, _, _, rfl, hsub, hnodes', fun _ => hafter⟩

/-- A recorded PDCCH has a free candidate behind the one of its node. -/
def LaterFree (grid : Finset GridResource) (records : List AllocRecord) (dfsTree : List TreeNode) :
    Prop :=
  ∃ (j : Nat) (record : AllocRecord) (node : TreeNode) (index : Nat) (candidate : PdcchCandidate),
    records[j]? = some record ∧ dfsTree[j]? = some node ∧ node.dciIterIndex < index ∧
      record.pdcchCandidates[index]? = some candidate ∧ Free grid record candidate

theorem growDfs_last {node : TreeNode} (hlength : dfsTree.length < records.length) :
    (∃ record candidate index, records[dfsTree.length]? = some record ∧ node.dciIterIndex < index ∧
        record.pdcchCandidates[index]? = some candidate ∧ Free grid record candidate ∧
        grid ∪ record.resources candidate ⊆
          (growDfs grid dfsTree (records.drop dfsTree.length) (node.dciIterIndex + 1)).1) ∨
      (growDfs grid dfsTree (records.drop dfsTree.length) (node.dciIterIndex + 1) = (grid, dfsTree) ∧
        ∀ record index candidate, records[dfsTree.length]? = some record → node.dciIterIndex < index →
          record.pdcchCandidates[index]? = some candidate → ¬ Free grid record candidate) := by
  have hget : records[dfsTree.length]? = some records[dfsTree.length] := List.getElem?_eq_getElem hlength
  rw [List.drop_eq_getElem_cons hlength, growDfs]
  rcases allocDfsNode_spec grid dfsTree records[dfsTree.length] (node.dciIterIndex + 1) with
    ⟨hnone, hall⟩ | ⟨index, candidate, hle, hcandidate, hfree, hsome⟩
  · rw [hnone]
    refine .inr ⟨rfl, fun record index candidate hrecord hlt hcandidate => ?_⟩
    obtain rfl := Option.some.inj (hget.symm.trans hrecord)
    exact hall index candidate hlt hcandidate
  · rw [hsome]
    obtain ⟨-, -, hsub, -⟩ := growDfs_spec (grid ∪ records[dfsTree.length].resources candidate)
      (dfsTree ++ [⟨index, candidate.ncce, dfsTree.length⟩]) (records.drop (dfsTree.length + 1)) 0
    exact .inl ⟨_, candidate, index, hget, hle, hcandidate, hfree, hsub⟩

/-- Without a later candidate, the search gives up with the grid it has. -/
theorem getNextDfs_exhausted {fuel : Nat} {more : Bool} (hnodes : AreNodes records dfsTree)
    (hlater : ¬ LaterFree grid records dfsTree)
    (hnext : getNextDfs records fuel grid dfsTree = some (grid', dfsTree', more)) :
    grid' = grid ∧ more = false := by
  induction fuel generalizing dfsTree with
  | zero => cases hnext
  | succ fuel ih =>
    rw [getNextDfs] at hnext
    rcases List.eq_nil_or_concat dfsTree with rfl | ⟨init, node, rfl⟩
    · cases hnext
      exact ⟨rfl, rfl⟩
    rw [List.concat_eq_append] at hnodes hnext hlater
    rw [List.getLast?_concat] at hnext
    dsimp only at hnext
    have hlength : init.length < records.length := by
      have := hnodes.length_le
      rwa [List.length_append, List.length_singleton] at this
    rw [List.dropLast_concat] at hnext
    rcases @growDfs_last grid init records node hlength with
      ⟨record, candidate, index, hrecord, hlt, hcandidate, hfree, -⟩ | ⟨hgrow, -⟩
    · refine absurd ⟨init.length, record, node, index, candidate, hrecord, ?_, hlt, hcandidate,
        hfree⟩ hlater
      exact List.getElem?_concat_length
    · rw [hgrow] at hnext
      dsimp only at hnext
      rw [if_pos hlength] at hnext
      refine ih (areNodes_append.mp hnodes).1 ?_ hnext
      rintro ⟨j, record, node', index, candidate, hrecord, hnode, hlt, hcandidate, hfree⟩
      refine hlater ⟨j, record, node', index, candidate, hrecord, ?_, hlt, hcandidate, hfree⟩
      rw [List.getElem?_append_left (List.getElem?_eq_some_iff.mp hnode).1, hnode]

theorem getNextDfs_grows {fuel : Nat} {more : Bool} (hnodes : AreNodes records dfsTree)
    (hresources : ∀ record ∈ records, ∀ candidate ∈ record.pdcchCandidates,
      (record.resources candidate).Nonempty)
    (hfuel : dfsWork records dfsTree < fuel) (hlater : LaterFree grid records dfsTree)
    (hnext : getNextDfs records fuel grid dfsTree = some (grid', dfsTree', more)) : grid' ≠ grid := by
  induction fuel generalizing dfsTree with
  | zero => cases hnext
  | succ fuel ih =>
    rcases List.eq_nil_or_concat dfsTree with rfl | ⟨init, node, rfl⟩
    · obtain ⟨j, _, _, _, _, -, hnode, -⟩ := hlater
      cases hnode
    rw [List.concat_eq_append] at hnodes hnext hlater hfuel
    have hlength : init.length < records.length := by
      have := hnodes.length_le
      rwa [List.length_append, List.length_singleton] at this
    obtain ⟨hinit, hlast⟩ := areNodes_append.mp hnodes
    rw [getNextDfs, List.getLast?_concat] at hnext
    dsimp only at hnext
    rw [List.dropLast_concat] at hnext
    obtain ⟨nodes, htree, -, hgrown, hwork⟩ :=
      growDfs_spec grid init (records.drop init.length) (node.dciIterIndex + 1)
    have hless : dfsWork records (init ++ nodes) < fuel := by
      have hrecords := List.drop_eq_getElem_cons hlength
      have hbound := hwork _ _ hrecords
      rw [hrecords] at hlast hbound
      have hindex := hlast.1.lt
      have hcount : records[init.length].pdcchCandidates.length - (node.dciIterIndex + 1) + 1 =
          records[init.length].pdcchCandidates.length - node.dciIterIndex := by omega
      rw [hcount] at hbound
      rw [dfsWork_append hinit, hrecords, dfsWork] at hfuel
      rw [dfsWork_append hinit, hrecords]
      omega
    rcases @growDfs_last grid init records node hlength with
      ⟨record, candidate, index, hrecord, hlt, hcandidate, hfree, hsub⟩ | ⟨hgrow, hnoneFree⟩
    · have hsub' : grid ∪ record.resources candidate ⊆ grid' := by
        refine hsub.trans ?_
        split at hnext
        · obtain ⟨grid'', dfsTree'', more', hnext', hsub', -⟩ :=
            @getNextDfs_spec (growDfs grid init (records.drop init.length)
              (node.dciIterIndex + 1)).1 _ records fuel
              (htree ▸ areNodes_append.mpr ⟨hinit, hgrown⟩) (htree ▸ hless)
          rw [hnext'] at hnext
          cases hnext
          exact hsub'
        · cases hnext
          exact subset_rfl
      obtain ⟨resource, hmem⟩ := hresources record (List.mem_of_getElem? hrecord) candidate
        (List.mem_of_getElem? hcandidate)
      rintro rfl
      exact Finset.disjoint_right.mp hfree hmem (hsub' (Finset.mem_union_right _ hmem))
    · rw [hgrow] at hnext htree
      dsimp only at hnext htree
      rw [if_pos hlength] at hnext
      rw [← htree] at hless
      refine ih hinit hless ?_ hnext
      obtain ⟨j, record, node', index, candidate, hrecord, hnode, hlt, hcandidate, hfree⟩ := hlater
      refine ⟨j, record, node', index, candidate, hrecord, ?_, hlt, hcandidate, hfree⟩
      by_cases hj : j < init.length
      · rwa [List.getElem?_append_left hj] at hnode
      · rw [List.getElem?_append_right (Nat.le_of_not_lt hj)] at hnode
        obtain ⟨hj', rfl⟩ := List.getElem?_eq_some_iff.mp hnode
        have hzero : j = init.length := by
          rw [List.length_singleton] at hj'
          omega
        subst hzero
        simp only [Nat.sub_self, List.getElem_cons_zero] at hlt
        exact absurd hfree (hnoneFree record index candidate hrecord hlt hcandidate)

/-- A search that does not succeed at once does not succeed. It leaves the first tree as the saved one,
and the grid as it was exactly when no recorded PDCCH has a later free candidate. -/
theorem searchDfs_spec {innerFuel fuel : Nat} {savedDfsTree : List TreeNode}
    (hnodes : AreNodes records dfsTree) (hnone : allocDfsNode grid dfsTree record 0 = none)
    (hinner : dfsWork records dfsTree < innerFuel) (hfuel : dfsWork records dfsTree < fuel) :
    ∃ grid' dfsTree', searchDfs records record innerFuel fuel grid dfsTree savedDfsTree =
        some (grid', dfsTree', if savedDfsTree.isEmpty then dfsTree else savedDfsTree, false) ∧
      grid ⊆ grid' ∧ (¬ LaterFree grid records dfsTree → grid' = grid) ∧
      ((∀ record ∈ records, ∀ candidate ∈ record.pdcchCandidates,
        (record.resources candidate).Nonempty) → LaterFree grid records dfsTree → grid' ≠ grid) := by
  induction fuel generalizing grid dfsTree savedDfsTree with
  | zero => exact absurd hfuel (Nat.not_lt_zero _)
  | succ fuel ih =>
    obtain ⟨grid', dfsTree', more, hnext, hsub, hnodes', hmore⟩ :=
      @getNextDfs_spec grid dfsTree records innerFuel hnodes hinner
    rw [searchDfs, hnone]
    dsimp only
    rw [hnext]
    cases more with
    | false =>
      exact ⟨grid', dfsTree', rfl, hsub, fun hlater => (getNextDfs_exhausted hnodes hlater hnext).1,
        fun hresources hlater => getNextDfs_grows hnodes hresources hinner hlater hnext⟩
    | true =>
      have hless := hmore rfl
      have hsaved : (if savedDfsTree.isEmpty then dfsTree else savedDfsTree).isEmpty = false := by
        split
        · cases dfsTree with
          | nil => cases records <;> exact absurd hless (Nat.not_lt_zero _)
          | cons node nodes => rfl
        · rename_i hsaved
          exact Bool.eq_false_iff.mpr hsaved
      obtain ⟨grid'', dfsTree'', hsearch, hsub', -⟩ :=
        @ih grid' dfsTree' (if savedDfsTree.isEmpty then dfsTree else savedDfsTree) hnodes'
          (allocDfsNode_none_mono hnone hsub) (hless.trans hinner) (by omega)
      rw [hsaved, if_neg Bool.false_ne_true] at hsearch
      refine ⟨grid'', dfsTree'', hsearch, hsub.trans hsub', fun hlater => ?_,
        fun hresources hlater => ?_⟩
      · exact absurd (getNextDfs_exhausted hnodes hlater hnext).2 (by decide)
      · rintro rfl
        exact getNextDfs_grows hnodes hresources hinner hlater hnext (hsub'.antisymm hsub)

end Srsran.Scheduler
