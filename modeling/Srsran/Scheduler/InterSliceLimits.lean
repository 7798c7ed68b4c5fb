import Srsran.Scheduler.InterSlice

/-! RB limits of slices over every run of the inter-slice scheduler. -/
namespace Srsran.Scheduler
open Srsran.Ran InterSliceScheduler

/-- What one turn of `get_next_candidate` did. -/
structure Turn where
  isDl : Bool
  id : Nat
  slotTx : Nat
  /-- The counted dedicated RBs that the turn has read. -/
  countRbs : Nat
  /-- The dedicated RBs that it has counted itself. -/
  counted : Nat
  /-- `remaining_rbs` of the candidate, when one was handed out. -/
  offered : Option Nat
  /-- The RBs with which the candidate was filled. -/
  granted : Nat
  /-- The configured maximum of the slice at that time. -/
  maxRbs : Nat
  deriving DecidableEq, Repr

/-- The scheduler with the slots indicated to it and the turns it has made, the last one first. -/
structure SliceRun where
  sched : InterSliceScheduler
  indicated : List Nat := []
  turns : List Turn := []

inductive SliceEvent where
  | reconfigure (policies : List (Nat × RbLimits))
  | slotIndication (slotTx : Nat) (input : SlotInput)
  /-- A turn of `get_next_candidate`; a candidate that it hands out is filled with `rbs` RBs. -/
  | nextCandidate (isDl : Bool) (rbs : Nat)

def grantedRbs (turns : List Turn) (isDl : Bool) (id slot : Nat) : Nat :=
  (turns.map fun turn =>
    if turn.isDl = isDl ∧ turn.id = id ∧ turn.slotTx = slot then turn.granted else 0).sum

section
variable (cfg : CellConfig) (std : SortByPrio)

def recordTurn (run : SliceRun) (isDl : Bool) (candidate : SliceCandidate)
    (rest : List SliceCandidate) (rbs : Nat) : SliceRun :=
  let s := run.sched
  let inst := s.slices candidate.id
  let taken := takeCandidate cfg (s.setPrioQueue isDl rest) isDl candidate
  let turn : Turn :=
    { isDl, id := candidate.id, slotTx := candidate.slotTx
      countRbs := countRbs cfg s isDl candidate.slotTx
      counted := if candidate.start < inst.rbs.min then inst.rbs.dedicated else 0
      offered := none, granted := 0, maxRbs := inst.rbs.max }
  match taken.2 with
  | none => { run with sched := taken.1, turns := turn :: run.turns }
  | some offer =>
    { run with
      sched := taken.1.storeGrant cfg isDl offer rbs
      turns := { turn with offered := some (remainingRbs cfg taken.1 isDl offer), granted := rbs } ::
        run.turns }

def SliceRun.step (run : SliceRun) : SliceEvent → Option SliceRun
  | .reconfigure policies =>
    some { run with sched := run.sched.handleSliceReconfigurationRequest policies }
  | .slotIndication slotTx input =>
    some { run with
      sched := run.sched.slotIndication cfg std slotTx input
      indicated := slotTx :: run.indicated }
  | .nextCandidate isDl rbs =>
    match popCombined cfg (run.sched.prioQueue isDl) with
    | none => none
    | some (candidate, rest) => some (recordTurn cfg run isDl candidate rest rbs)

/-- `run_slot_impl` handles reconfigurations between slots, when the queues are used up, and indicates
later and later slots. Candidates are filled with at most their remaining RBs. -/
def SliceRun.inOrder (run : SliceRun) : SliceEvent → Bool
  | .reconfigure _ => run.sched.dlPrioQueue.isEmpty && run.sched.ulPrioQueue.isEmpty
  | .slotIndication slotTx _ => run.sched.currentSlot.getD 0 < slotTx
  | .nextCandidate isDl rbs =>
    match popCombined cfg (run.sched.prioQueue isDl) with
    | none => true
    | some (candidate, rest) =>
      let taken := takeCandidate cfg (run.sched.setPrioQueue isDl rest) isDl candidate
      match taken.2 with
      | none => true
      | some offer => rbs ≤ remainingRbs cfg taken.1 isDl offer

def puschSlots (slotTx : Nat) : List Nat :=
  if cfg.isDlEnabled slotTx then (cfg.validPuschTdList slotTx).map (cfg.puschSlot slotTx) else []

/-- No PUSCH slot is reached again while a slice with dedicated RBs is below its minimum there; the
dedicated RBs of a candidate below the minimum fit into the cell beside those counted for the slot; and
these leave more RBs than the slice already has. -/
def SliceRun.fits (run : SliceRun) : SliceEvent → Bool
  | .reconfigure _ => true
  | .slotIndication slotTx _ =>
    (List.range run.sched.nofSlices).all fun id =>
      let inst := run.sched.slices id
      inst.rbs.dedicated = 0 || (puschSlots cfg slotTx).all fun slot =>
        !(run.indicated.flatMap (puschSlots cfg)).contains slot ||
          inst.rbs.min ≤ inst.nofPuschRbsAllocated cfg slot
  | .nextCandidate isDl _ =>
    match popCombined cfg (run.sched.prioQueue isDl) with
    | none => true
    | some (candidate, _) =>
      let inst := run.sched.slices candidate.id
      let count := countRbs cfg run.sched isDl candidate.slotTx
      let rbCount := inst.rbCount cfg isDl candidate.slotTx
      (!(candidate.start < inst.rbs.min) || count + inst.rbs.dedicated ≤ cfg.cellMaxRbs isDl) &&
      (!(candidate.start ≤ rbCount) || !(rbCount < candidate.stop) || count + rbCount < cfg.cellMaxRbs isDl ||
        count = cfg.cellMaxRbs isDl)

structure WithinLimits (turns : List Turn) : Prop where
  offered_pos : ∀ turn ∈ turns, ∀ rbs, turn.offered = some rbs → 0 < rbs
  granted_le_max : ∀ later turn earlier, turns = later ++ turn :: earlier → 0 < turn.granted →
    grantedRbs (turn :: earlier) turn.isDl turn.id turn.slotTx ≤ turn.maxRbs
  count_le_cell : ∀ turn ∈ turns, turn.countRbs ≤ cfg.cellMaxRbs turn.isDl
  counted_once : turns.Pairwise fun a b => 0 < a.counted → 0 < b.counted →
    ¬(a.isDl = b.isDl ∧ a.id = b.id ∧ a.slotTx = b.slotTx)

end

namespace CellConfig
variable {cfg : CellConfig}

theorem foldl_min_le (values : List Nat) (start : Nat) :
    values.foldl min start ≤ start ∧ ∀ value ∈ values, values.foldl min start ≤ value := by
  induction values generalizing start with
  | nil => exact ⟨Nat.le_refl _, fun _ hmem => absurd hmem List.not_mem_nil⟩
  | cons head rest ih =>
    obtain ⟨hstart, hrest⟩ := ih (min start head)
    refine ⟨hstart.trans (Nat.min_le_left _ _), fun value hmem => ?_⟩
    rcases List.mem_cons.mp hmem with rfl | hmem
    · exact hstart.trans (Nat.min_le_right _ _)
    · exact hrest value hmem

theorem foldl_min_pos {values : List Nat} {start : Nat} (hstart : 0 < start)
    (h : ∀ value ∈ values, 0 < value) : 0 < values.foldl min start := by
  induction values generalizing start with
  | nil => exact hstart
  | cons head rest ih =>
    exact ih (Nat.lt_min.mpr ⟨hstart, h head List.mem_cons_self⟩)
      fun value hmem => h value (List.mem_cons_of_mem head hmem)

theorem minK2_pos (cfg : CellConfig) : 0 < cfg.minK2 := by
  refine foldl_min_pos ?_ cfg.k2_pos
  cases hlist : cfg.puschK2 with
  | nil => exact Nat.one_pos
  | cons k2 rest => exact cfg.k2_pos k2 (hlist ▸ List.mem_cons_self)

theorem mem_puschK2 {slotTx td : Nat} (h : td ∈ cfg.validPuschTdList slotTx) :
    cfg.k2 td ∈ cfg.puschK2 := by
  rw [validPuschTdList, List.getD_eq_getElem?_getD] at h
  cases hlist : cfg.validPuschTdLists[cfg.slotRingPos slotTx]? with
  | none =>
    rw [hlist] at h
    exact absurd h List.not_mem_nil
  | some list =>
    rw [hlist, Option.getD_some] at h
    have hlt := cfg.valid_lt list (List.mem_of_getElem? hlist) td h
    rw [k2, List.getD_eq_getElem?_getD, List.getElem?_eq_getElem hlt]
    exact List.getElem_mem hlt

theorem puschSlot_bounds {slotTx td : Nat} (h : td ∈ cfg.validPuschTdList slotTx) :
    slotTx + cfg.minK2 ≤ cfg.puschSlot slotTx td ∧
      cfg.puschSlot slotTx td ≤ slotTx + (schedulerMaxK2 + cfg.ntnCsKoffset) := by
  have hmem := mem_puschK2 h
  have hmin : cfg.minK2 ≤ cfg.k2 td := (foldl_min_le cfg.puschK2 _).2 _ hmem
  have hmax := cfg.k2_le _ hmem
  rw [puschSlot]
  omega

theorem valid_k2_sorted (cfg : CellConfig) (slotTx : Nat) :
    ((cfg.validPuschTdList slotTx).map cfg.k2).Pairwise (· ≤ ·) := by
  rw [validPuschTdList, List.getD_eq_getElem?_getD]
  cases hlist : cfg.validPuschTdLists[cfg.slotRingPos slotTx]? with
  | none => exact List.Pairwise.nil
  | some list => exact cfg.valid_sorted list (List.mem_of_getElem? hlist)

theorem le_puschRingSize (cfg : CellConfig) : schedulerMaxK2 + cfg.ntnCsKoffset ≤ cfg.puschRingSize :=
  le_getAllocatorRingSizeGtMin _

theorem puschRingPos_eq (cfg : CellConfig) (slot : Nat) :
    cfg.puschRingPos slot = slot % cfg.puschRingSize := by
  have hkoffset := cfg.koffset_le
  rw [ntnCellSpecificKoffsetMax] at hkoffset
  refine slotCount_mod (ringSize_dvd ?_ cfg.numerology) slot
  rw [schedulerMaxK2]
  omega

end CellConfig

theorem grantedRbs_cons (turn : Turn) (turns : List Turn) (isDl : Bool) (id slot : Nat) :
    grantedRbs (turn :: turns) isDl id slot =
      (if turn.isDl = isDl ∧ turn.id = id ∧ turn.slotTx = slot then turn.granted else 0) +
        grantedRbs turns isDl id slot := by
  rw [grantedRbs, List.map_cons, List.sum_cons]
  rfl

theorem grantedRbs_eq_zero {turns : List Turn} {isDl : Bool} {id slot : Nat}
    (h : ∀ turn ∈ turns, turn.isDl = isDl → turn.slotTx ≠ slot) :
    grantedRbs turns isDl id slot = 0 := by
  induction turns with
  | nil => rfl
  | cons turn rest ih =>
    have hother : ¬(turn.isDl = isDl ∧ turn.id = id ∧ turn.slotTx = slot) :=
      fun hsame => h turn List.mem_cons_self hsame.1 hsame.2.2
    rw [grantedRbs_cons, if_neg hother, Nat.zero_add]
    exact ih fun turn hmem => h turn (List.mem_cons_of_mem _ hmem)

section
variable {cfg : CellConfig} {std : SortByPrio}

/-- The counters of the scheduler say what the turns have granted. -/
structure Counters (cfg : CellConfig) (turns : List Turn) (s : InterSliceScheduler) (current : Nat) :
    Prop where
  dl : ∀ pos, s.countDlDedRbs pos ≤ cfg.dlRbs
  ul : ∀ pos, s.countUlDedRbs pos ≤ cfg.ulRbs
  pusch : ∀ id, Ring.Window (s.slices id).puschRbCountPerSlot cfg.puschRingSize (current + cfg.minK2)
    (grantedRbs turns false id)

theorem update_le {counts : Nat → Nat} {bound changed value : Nat} (h : ∀ pos, counts pos ≤ bound)
    (hvalue : value ≤ bound) (pos : Nat) : Function.update counts changed value pos ≤ bound := by
  by_cases hpos : pos = changed
  · rw [hpos, Function.update_self]
    exact hvalue
  · rw [Function.update_of_ne hpos]
    exact h pos

variable {turns : List Turn} {s : InterSliceScheduler}

theorem Counters.advanceSlot {current : Nat} (h : Counters cfg turns s current)
    (hturns : ∀ turn ∈ turns, turn.isDl = false →
      turn.slotTx ≤ current + (schedulerMaxK2 + cfg.ntnCsKoffset)) :
    Counters cfg turns (advanceSlot cfg s (current + 1)) (current + 1) where
  dl := update_le h.dl (Nat.zero_le _)
  ul := update_le h.ul (Nat.zero_le _)
  pusch := by
    intro id
    have hzero : grantedRbs turns false id (current + cfg.minK2 + cfg.puschRingSize) = 0 := by
      refine grantedRbs_eq_zero fun turn hmem hul => ?_
      have hbound := hturns turn hmem hul
      have hsize := cfg.le_puschRingSize
      have hpos := cfg.minK2_pos
      omega
    have hcleared : cfg.puschRingPos (current + 1 + cfg.minK2 - 1) =
        (current + cfg.minK2) % cfg.puschRingSize := by
      rw [cfg.puschRingPos_eq]
      congr 1
      omega
    have hnext := (h.pusch id).advance
    rw [hzero] at hnext
    have hbase : current + 1 + cfg.minK2 = current + cfg.minK2 + 1 := by omega
    dsimp only [InterSliceScheduler.advanceSlot, RanSliceInstance.slotIndication]
    rw [hcleared, hbase]
    exact hnext

structure MovedOn (cfg : CellConfig) (turns : List Turn) (s s' : InterSliceScheduler)
    (slot : Nat) : Prop where
  counters : Counters cfg turns s' slot
  currentSlot : s'.currentSlot = some slot
  nofSlices : s'.nofSlices = s.nofSlices
  rbs : ∀ id, (s'.slices id).rbs = (s.slices id).rbs
  pdsch : ∀ id, (s'.slices id).pdschRbCount = 0

theorem advance_movedOn {current count : Nat} (h : Counters cfg turns s current)
    (hturns : ∀ turn ∈ turns, turn.isDl = false →
      turn.slotTx ≤ current + (schedulerMaxK2 + cfg.ntnCsKoffset)) :
    MovedOn cfg turns s ((List.range' (current + 1) (count + 1)).foldl (advanceSlot cfg) s)
      (current + 1 + count) := by
  induction count generalizing s current with
  | zero => exact ⟨h.advanceSlot hturns, rfl, rfl, fun _ => rfl, fun _ => rfl⟩
  | succ count ih =>
    have hmoved := ih (h.advanceSlot hturns) fun turn hmem hul =>
      (hturns turn hmem hul).trans (by omega)
    have hslot : current + 1 + (count + 1) = current + 1 + 1 + count := by omega
    rw [List.range'_succ, List.foldl_cons, hslot]
    exact { hmoved with }

variable {s : InterSliceScheduler} {slotTx : Nat}

theorem movedOn_advance (hlater : s.currentSlot.getD (slotTx - 1) < slotTx)
    (h : Counters cfg turns s (s.currentSlot.getD (slotTx - 1)))
    (hturns : ∀ turn ∈ turns, turn.isDl = false →
      turn.slotTx ≤ s.currentSlot.getD (slotTx - 1) + (schedulerMaxK2 + cfg.ntnCsKoffset)) :
    MovedOn cfg turns s (advance cfg s slotTx) slotTx := by
  have hmoved := @advance_movedOn cfg turns s _ (slotTx - s.currentSlot.getD (slotTx - 1) - 1) h hturns
  have hcount : slotTx - s.currentSlot.getD (slotTx - 1) - 1 + 1 =
      slotTx - s.currentSlot.getD (slotTx - 1) := by omega
  have hslot : s.currentSlot.getD (slotTx - 1) + 1 + (slotTx - s.currentSlot.getD (slotTx - 1) - 1) =
      slotTx := by omega
  rw [hcount, hslot] at hmoved
  exact hmoved

/-- The candidate is below the minimum of its slice. -/
def below (s : InterSliceScheduler) (candidate : SliceCandidate) : Prop :=
  candidate.start < (s.slices candidate.id).rbs.min

/-- Not both candidates are below the minimum of one slice in one slot. -/
def Distinct (s : InterSliceScheduler) (a b : SliceCandidate) : Prop :=
  below s a → below s b → a.id = b.id → a.slotTx ≠ b.slotTx

theorem Distinct.symm {a b : SliceCandidate} (h : Distinct s a b) : Distinct s b a :=
  fun hb ha hid hslot => h ha hb hid.symm hslot.symm

/-- A candidate of a slice for a slot in which it has `rbCount` RBs. -/
structure CandidateOf (s : InterSliceScheduler) (id slot rbCount : Nat) (candidate : SliceCandidate) :
    Prop where
  id_eq : candidate.id = id
  slot_eq : candidate.slotTx = slot
  stop_le : candidate.stop ≤ (s.slices id).rbs.max
  count_lt : below s candidate → rbCount < (s.slices id).rbs.min

theorem splitAtMin_candidates (s : InterSliceScheduler) (input : SlotInput) (id : Nat) (isDl : Bool)
    (pdcchSlot pxschSlot rbCount : Nat) :
    (∀ candidate ∈ splitAtMin input id (s.slices id) isDl pdcchSlot pxschSlot rbCount,
      CandidateOf s id pxschSlot rbCount candidate) ∧
    (splitAtMin input id (s.slices id) isDl pdcchSlot pxschSlot rbCount).Pairwise (Distinct s) := by
  have hmin := (s.slices id).rbs.min_le
  rw [splitAtMin]
  dsimp only
  split
  · rename_i hsplit
    refine ⟨?_, ?_⟩
    · intro candidate hmem
      rcases List.mem_cons.mp hmem with rfl | hmem
      · exact ⟨rfl, rfl, hmin, fun _ => hsplit.1⟩
      · rw [List.mem_singleton.mp hmem]
        exact ⟨rfl, rfl, Nat.le_refl _, fun hbelow => absurd hbelow (Nat.lt_irrefl _)⟩
    · refine List.pairwise_pair.mpr fun _ hbelow => ?_
      exact absurd hbelow (Nat.lt_irrefl _)
  · refine ⟨?_, List.pairwise_singleton _ _⟩
    intro candidate hmem
    rw [List.mem_singleton.mp hmem]
    exact ⟨rfl, rfl, Nat.le_refl _, fun hbelow => hbelow⟩

theorem dlCandidates_candidates (s : InterSliceScheduler) (input : SlotInput) (slotTx id : Nat) :
    (∀ candidate ∈ dlCandidates s input slotTx id,
      CandidateOf s id slotTx (s.slices id).pdschRbCount candidate) ∧
    (dlCandidates s input slotTx id).Pairwise (Distinct s) := by
  rw [dlCandidates]
  split
  · exact ⟨fun _ hmem => absurd hmem List.not_mem_nil, List.Pairwise.nil⟩
  · exact splitAtMin_candidates s input id true slotTx slotTx _

/-- The loop goes through increasing k2, and leaves out those for which it has a candidate. -/
theorem ulCandidates_candidates (s : InterSliceScheduler) (input : SlotInput) (slotTx id : Nat)
    (list : List Nat) (hsorted : (list.map cfg.k2).Pairwise (· ≤ ·)) (allocatedK2 : Option Nat)
    (hlast : ∀ k2, allocatedK2 = some k2 → ∀ td ∈ list, k2 ≤ cfg.k2 td) :
    (∀ candidate ∈ ulCandidates cfg s input slotTx id allocatedK2 list,
      (∃ td ∈ list, CandidateOf s id (cfg.puschSlot slotTx td)
        ((s.slices id).nofPuschRbsAllocated cfg (cfg.puschSlot slotTx td)) candidate) ∧
      ∀ k2, allocatedK2 = some k2 → slotTx + (k2 + cfg.ntnCsKoffset) < candidate.slotTx) ∧
    (ulCandidates cfg s input slotTx id allocatedK2 list).Pairwise (Distinct s) := by
  induction list generalizing allocatedK2 with
  | nil =>
    rw [ulCandidates]
    exact ⟨fun _ hmem => absurd hmem List.not_mem_nil, List.Pairwise.nil⟩
  | cons td rest ih =>
    obtain ⟨hfirst, hrestSorted⟩ := List.pairwise_cons.mp hsorted
    have hrestLast : ∀ k2, allocatedK2 = some k2 → ∀ td ∈ rest, k2 ≤ cfg.k2 td :=
      fun k2 hk2 other hmem => hlast k2 hk2 other (List.mem_cons_of_mem td hmem)
    -- A resource that is left out does not change what the loop has done so far.
    have hskip : (∀ candidate ∈ ulCandidates cfg s input slotTx id allocatedK2 rest,
        (∃ other ∈ td :: rest, CandidateOf s id (cfg.puschSlot slotTx other)
          ((s.slices id).nofPuschRbsAllocated cfg (cfg.puschSlot slotTx other)) candidate) ∧
        ∀ k2, allocatedK2 = some k2 → slotTx + (k2 + cfg.ntnCsKoffset) < candidate.slotTx) ∧
      (ulCandidates cfg s input slotTx id allocatedK2 rest).Pairwise (Distinct s) := by
      obtain ⟨hmem, hpairwise⟩ := ih hrestSorted allocatedK2 hrestLast
      refine ⟨fun candidate hcandidate => ?_, hpairwise⟩
      obtain ⟨⟨other, hother, hof⟩, hafter⟩ := hmem candidate hcandidate
      exact ⟨⟨other, List.mem_cons_of_mem td hother, hof⟩, hafter⟩
    rw [ulCandidates]
    split
    · exact hskip
    · split
      · exact hskip
      · rename_i hnew
        split
        · exact hskip
        · have hnext : ∀ k2, some (cfg.k2 td) = some k2 → ∀ other ∈ rest, k2 ≤ cfg.k2 other := by
            intro k2 hk2 other hother
            cases hk2
            exact hfirst _ (List.mem_map_of_mem hother)
          obtain ⟨hmem, hpairwise⟩ := ih hrestSorted (some (cfg.k2 td)) hnext
          obtain ⟨hsplitMem, hsplitPairwise⟩ := splitAtMin_candidates s input id false slotTx
            (cfg.puschSlot slotTx td)
            ((s.slices id).nofPuschRbsAllocated cfg (cfg.puschSlot slotTx td))
          have hahead : ∀ k2, allocatedK2 = some k2 → k2 < cfg.k2 td := by
            intro k2 hk2
            refine Nat.lt_of_le_of_ne (hlast k2 hk2 td List.mem_cons_self) fun heq => ?_
            rw [heq] at hk2
            exact hnew hk2
          refine ⟨fun candidate hcandidate => ?_, List.pairwise_append.mpr ⟨hsplitPairwise, hpairwise, ?_⟩⟩
          · rcases List.mem_append.mp hcandidate with hcandidate | hcandidate
            · have hof := hsplitMem candidate hcandidate
              refine ⟨⟨td, List.mem_cons_self, hof⟩, fun k2 hk2 => ?_⟩
              have hlt := hahead k2 hk2
              rw [hof.slot_eq, CellConfig.puschSlot]
              omega
            · obtain ⟨⟨other, hother, hof⟩, hafter⟩ := hmem candidate hcandidate
              refine ⟨⟨other, List.mem_cons_of_mem td hother, hof⟩, fun k2 hk2 => ?_⟩
              have hlt := hahead k2 hk2
              have hlater := hafter _ rfl
              omega
          · intro first hfirstMem second hsecondMem _ _ _
            rw [(hsplitMem first hfirstMem).slot_eq, CellConfig.puschSlot]
            exact Nat.ne_of_lt ((hmem second hsecondMem).2 _ rfl)

theorem queue_candidates {candidates : Nat → List SliceCandidate}
    (hid : ∀ id, ∀ candidate ∈ candidates id, candidate.id = id)
    (hpairwise : ∀ id, (candidates id).Pairwise (Distinct s)) :
    (∀ candidate ∈ std.sort (pushAll ((List.range s.nofSlices).flatMap candidates)),
      candidate.id < s.nofSlices ∧ candidate ∈ candidates candidate.id) ∧
    (std.sort (pushAll ((List.range s.nofSlices).flatMap candidates))).Pairwise (Distinct s) := by
  refine ⟨fun candidate hmem => ?_, ?_⟩
  · have hpushed := List.mem_filter.mp ((std.perm _).mem_iff.mp hmem)
    obtain ⟨id, hrange, hcandidate⟩ := List.mem_flatMap.mp hpushed.1
    rw [hid id candidate hcandidate]
    exact ⟨List.mem_range.mp hrange, hcandidate⟩
  · refine ((std.perm _).pairwise_iff fun hdistinct => hdistinct.symm).mpr ?_
    refine List.Pairwise.filter _ (List.pairwise_flatMap.mpr ⟨fun id _ => hpairwise id, ?_⟩)
    refine List.Pairwise.imp (fun hne => ?_) List.nodup_range
    intro first hfirst second hsecond _ _ hsame
    exact absurd ((hid _ first hfirst).symm.trans (hsame.trans (hid _ second hsecond))) hne

/-- A candidate that waits in a queue at slot `current`. -/
structure Queued (cfg : CellConfig) (run : SliceRun) (current : Nat) (isDl : Bool)
    (candidate : SliceCandidate) : Prop where
  stop_le : candidate.stop ≤ (run.sched.slices candidate.id).rbs.max
  dlSlot : isDl = true → candidate.slotTx = current
  ulSlot : isDl = false → current + cfg.minK2 ≤ candidate.slotTx ∧
    candidate.slotTx ≤ current + (schedulerMaxK2 + cfg.ntnCsKoffset) ∧
    candidate.slotTx ∈ run.indicated.flatMap (puschSlots cfg)
  /-- Its dedicated RBs have not been counted. -/
  fresh : below run.sched candidate → 0 < (run.sched.slices candidate.id).rbs.dedicated →
    ∀ turn ∈ run.turns, 0 < turn.counted →
      ¬(turn.isDl = isDl ∧ turn.id = candidate.id ∧ turn.slotTx = candidate.slotTx)

structure AtSlot (cfg : CellConfig) (run : SliceRun) (current : Nat) : Prop where
  counters : Counters cfg run.turns run.sched current
  pdsch : ∀ id, (run.sched.slices id).pdschRbCount = grantedRbs run.turns true id current
  dlTurns : ∀ turn ∈ run.turns, turn.isDl = true → turn.slotTx ≤ current
  ulTurns : ∀ turn ∈ run.turns, turn.isDl = false →
    turn.slotTx ≤ current + (schedulerMaxK2 + cfg.ntnCsKoffset) ∧
    turn.slotTx ∈ run.indicated.flatMap (puschSlots cfg)
  queued : ∀ isDl, ∀ candidate ∈ run.sched.prioQueue isDl, Queued cfg run current isDl candidate
  distinct : ∀ isDl, (run.sched.prioQueue isDl).Pairwise (Distinct run.sched)

variable {run : SliceRun} {current : Nat} {isDl : Bool} {candidate : SliceCandidate}

theorem Queued.slot_bounds (h : Queued cfg run current isDl candidate) :
    current ≤ candidate.slotTx ∧
      candidate.slotTx ≤ current + (schedulerMaxK2 + cfg.ntnCsKoffset) := by
  cases isDl with
  | true =>
    rw [h.dlSlot rfl]
    exact ⟨Nat.le_refl _, Nat.le_add_right _ _⟩
  | false =>
    obtain ⟨hmin, hmax, _⟩ := h.ulSlot rfl
    exact ⟨(Nat.le_add_right _ _).trans hmin, hmax⟩

/-- Slots of queued candidates are too close for the wrap-around. -/
theorem Queued.slot_eq {a b : SliceCandidate} (ha : Queued cfg run current isDl a)
    (hb : Queued cfg run current isDl b) (h : sameSlot cfg.numerology a.slotTx b.slotTx = true) :
    a.slotTx = b.slotTx := by
  have hframe := le_nofSlotsPerHyperSystemFrame cfg.numerology
  have hkoffset := cfg.koffset_le
  rw [ntnCellSpecificKoffsetMax] at hkoffset
  obtain ⟨halo, hahi⟩ := ha.slot_bounds
  obtain ⟨hblo, hbhi⟩ := hb.slot_bounds
  rw [schedulerMaxK2] at hahi hbhi
  rw [sameSlot, decide_eq_true_eq] at h
  exact ModOrder.mod_inj_of_near halo (by omega) hblo (by omega) h

variable {run' : SliceRun}

theorem Queued.congr (h : Queued cfg run current isDl candidate)
    (hslices : run'.sched.slices = run.sched.slices) (hindicated : run'.indicated = run.indicated)
    (hturns : run'.turns = run.turns) : Queued cfg run' current isDl candidate := by
  obtain ⟨hstop, hdl, hul, hfresh⟩ := h
  refine ⟨hslices ▸ hstop, hdl, hindicated ▸ hul, ?_⟩
  rw [below, hslices, hturns]
  exact hfresh

theorem AtSlot.rbCount_eq (h : AtSlot cfg run current)
    (hqueued : Queued cfg run current isDl candidate) :
    (run.sched.slices candidate.id).rbCount cfg isDl candidate.slotTx =
      grantedRbs run.turns isDl candidate.id candidate.slotTx := by
  cases isDl with
  | true =>
    rw [hqueued.dlSlot rfl]
    exact h.pdsch candidate.id
  | false =>
    obtain ⟨hmin, hmax, _⟩ := hqueued.ulSlot rfl
    have hsize := cfg.le_puschRingSize
    have hpos := cfg.minK2_pos
    rw [RanSliceInstance.rbCount, if_neg (by decide), RanSliceInstance.nofPuschRbsAllocated,
      cfg.puschRingPos_eq]
    exact h.counters.pusch candidate.id _ hmin (by omega)

structure Reconfigured (s s' : InterSliceScheduler) : Prop where
  currentSlot : s'.currentSlot = s.currentSlot
  nofSlices : s'.nofSlices = s.nofSlices
  dl : s'.countDlDedRbs = s.countDlDedRbs
  ul : s'.countUlDedRbs = s.countUlDedRbs
  queues : s'.prioQueue = s.prioQueue
  pdsch : ∀ id, (s'.slices id).pdschRbCount = (s.slices id).pdschRbCount
  pusch : ∀ id, (s'.slices id).puschRbCountPerSlot = (s.slices id).puschRbCountPerSlot

theorem reconfigured (s : InterSliceScheduler) (policies : List (Nat × RbLimits)) :
    Reconfigured s (s.handleSliceReconfigurationRequest policies) := by
  induction policies generalizing s with
  | nil => exact ⟨rfl, rfl, rfl, rfl, rfl, fun _ => rfl, fun _ => rfl⟩
  | cons policy rest ih =>
    obtain ⟨hcurrent, hnof, hdl, hul, hqueues, hpdsch, hpusch⟩ := ih
      { s with
        slices := fun id =>
          if (s.slices id).rrcMember = policy.1 then { s.slices id with rbs := policy.2 }
          else s.slices id }
    refine ⟨hcurrent, hnof, hdl, hul, hqueues, fun id => (hpdsch id).trans ?_,
      fun id => (hpusch id).trans ?_⟩
    · dsimp only
      split <;> rfl
    · dsimp only
      split <;> rfl

theorem AtSlot.reconfigure (h : AtSlot cfg run current)
    (hempty : ∀ isDl, run.sched.prioQueue isDl = []) (policies : List (Nat × RbLimits)) :
    AtSlot cfg { run with sched := run.sched.handleSliceReconfigurationRequest policies } current := by
  obtain ⟨_, _, hdl, hul, hqueues, hpdsch, hpusch⟩ := reconfigured run.sched policies
  refine ⟨⟨fun pos => ?_, fun pos => ?_, fun id => ?_⟩, fun id => (hpdsch id).trans (h.pdsch id),
    h.dlTurns, h.ulTurns, fun isDl candidate hmem => ?_, fun isDl => ?_⟩
  · rw [hdl]
    exact h.counters.dl pos
  · rw [hul]
    exact h.counters.ul pos
  · rw [hpusch id]
    exact h.counters.pusch id
  · rw [hqueues, hempty isDl] at hmem
    exact absurd hmem List.not_mem_nil
  · rw [hqueues, hempty isDl]
    exact List.Pairwise.nil

variable {input : SlotInput}

theorem fits_slotIndication (h : run.fits cfg (.slotIndication slotTx input) = true) {id : Nat}
    (hid : id < run.sched.nofSlices) (hded : 0 < (run.sched.slices id).rbs.dedicated) {slot : Nat}
    (hslot : slot ∈ puschSlots cfg slotTx)
    (hreached : slot ∈ run.indicated.flatMap (puschSlots cfg)) :
    (run.sched.slices id).rbs.min ≤ (run.sched.slices id).nofPuschRbsAllocated cfg slot := by
  have hall := List.all_eq_true.mp h id (List.mem_range.mpr hid)
  dsimp only at hall
  rw [Bool.or_eq_true, decide_eq_true_eq] at hall
  have hslots := List.all_eq_true.mp (hall.resolve_left (Nat.ne_of_gt hded)) slot hslot
  rw [Bool.or_eq_true, Bool.not_eq_true', decide_eq_true_eq, List.contains_eq_mem,
    decide_eq_false_iff_not] at hslots
  exact hslots.resolve_left (not_not_intro hreached)

variable {last : Nat} {turn : Turn}

theorem AtSlot.puschCount_kept (h : AtSlot cfg run last)
    (hmoved : MovedOn cfg run.turns run.sched s slotTx) (hlater : last < slotTx)
    (hturn : turn ∈ run.turns) (hul : turn.isDl = false) (hmin : slotTx + cfg.minK2 ≤ turn.slotTx)
    (id : Nat) :
    (s.slices id).nofPuschRbsAllocated cfg turn.slotTx =
      (run.sched.slices id).nofPuschRbsAllocated cfg turn.slotTx := by
  have hmax := (h.ulTurns turn hturn hul).1
  have hsize := cfg.le_puschRingSize
  have hpos := cfg.minK2_pos
  have hold := h.counters.pusch id turn.slotTx (by omega) (by omega)
  have hnew := hmoved.counters.pusch id turn.slotTx hmin (by omega)
  rw [RanSliceInstance.nofPuschRbsAllocated, RanSliceInstance.nofPuschRbsAllocated,
    cfg.puschRingPos_eq, hnew, hold]

theorem slotIndication_fields (s : InterSliceScheduler) (slotTx : Nat) (input : SlotInput) :
    (s.slotIndication cfg std slotTx input).slices = (advance cfg s slotTx).slices ∧
    (s.slotIndication cfg std slotTx input).currentSlot = (advance cfg s slotTx).currentSlot ∧
    (s.slotIndication cfg std slotTx input).nofSlices = (advance cfg s slotTx).nofSlices ∧
    (s.slotIndication cfg std slotTx input).countDlDedRbs = (advance cfg s slotTx).countDlDedRbs ∧
    (s.slotIndication cfg std slotTx input).countUlDedRbs = (advance cfg s slotTx).countUlDedRbs := by
  rw [InterSliceScheduler.slotIndication]
  split <;> exact ⟨rfl, rfl, rfl, rfl, rfl⟩

variable (std) in
theorem dlQueue_queued (h : AtSlot cfg run last) (hlater : last < slotTx) (input : SlotInput) :
    (∀ candidate ∈ std.sort (pushAll ((List.range s.nofSlices).flatMap (dlCandidates s input slotTx))),
      Queued cfg { run with sched := s, indicated := slotTx :: run.indicated } slotTx true candidate) ∧
    (std.sort (pushAll ((List.range s.nofSlices).flatMap (dlCandidates s input slotTx)))).Pairwise
      (Distinct s) := by
  obtain ⟨hmem, hpairwise⟩ := @queue_candidates std s (dlCandidates s input slotTx)
    (fun id candidate hcandidate => ((dlCandidates_candidates s input slotTx id).1 candidate hcandidate).id_eq)
    (fun id => (dlCandidates_candidates s input slotTx id).2)
  refine ⟨fun candidate hcandidate => ?_, hpairwise⟩
  have hof := (dlCandidates_candidates s input slotTx _).1 candidate (hmem candidate hcandidate).2
  refine ⟨hof.stop_le, fun _ => hof.slot_eq, fun hul => absurd hul (by decide), ?_⟩
  intro _ _ turn hturn _ hsame
  have hle := h.dlTurns turn hturn hsame.1
  rw [hsame.2.2, hof.slot_eq] at hle
  exact absurd hle (Nat.not_le.mpr hlater)

variable (std) in
theorem ulQueue_queued (h : AtSlot cfg run last) (hlater : last < slotTx)
    (hmoved : MovedOn cfg run.turns run.sched s slotTx) (hdl : cfg.isDlEnabled slotTx = true)
    (hfits : run.fits cfg (.slotIndication slotTx input) = true) :
    (∀ candidate ∈ std.sort (pushAll ((List.range s.nofSlices).flatMap fun id =>
        ulCandidates cfg s input slotTx id none (cfg.validPuschTdList slotTx))),
      Queued cfg { run with sched := s, indicated := slotTx :: run.indicated } slotTx false candidate) ∧
    (std.sort (pushAll ((List.range s.nofSlices).flatMap fun id =>
        ulCandidates cfg s input slotTx id none (cfg.validPuschTdList slotTx)))).Pairwise (Distinct s) := by
  have hcandidates (id : Nat) := ulCandidates_candidates s input slotTx id (cfg.validPuschTdList slotTx)
    (cfg.valid_k2_sorted slotTx) none (fun k2 hk2 => by cases hk2)
  obtain ⟨hmem, hpairwise⟩ := @queue_candidates std s
    (fun id => ulCandidates cfg s input slotTx id none (cfg.validPuschTdList slotTx))
    (fun id candidate hcandidate => by
      obtain ⟨td, _, hof⟩ := ((hcandidates id).1 candidate hcandidate).1
      exact hof.id_eq)
    (fun id => (hcandidates id).2)
  refine ⟨fun candidate hcandidate => ?_, hpairwise⟩
  obtain ⟨hid, hin⟩ := hmem candidate hcandidate
  obtain ⟨td, htd, hof⟩ := ((hcandidates candidate.id).1 candidate hin).1
  obtain ⟨hmin, hmax⟩ := CellConfig.puschSlot_bounds htd
  have hreached : candidate.slotTx ∈ puschSlots cfg slotTx := by
    rw [puschSlots, if_pos hdl, hof.slot_eq]
    exact List.mem_map_of_mem htd
  refine ⟨hof.stop_le, fun h => absurd h (by decide), fun _ => ?_, ?_⟩
  · refine ⟨hof.slot_eq ▸ hmin, hof.slot_eq ▸ hmax, ?_⟩
    exact List.mem_flatMap.mpr ⟨slotTx, List.mem_cons_self, hreached⟩
  · -- A slot whose dedicated RBs were counted was reached before, so the slice has its minimum there.
    intro hbelow hded turn hturn _ hsame
    obtain ⟨hul, _, hslot⟩ := hsame
    have hagain := (h.ulTurns turn hturn hul).2
    rw [hslot] at hagain
    have hkept := h.puschCount_kept hmoved hlater hturn hul
      (by rw [hslot, hof.slot_eq]; exact hmin) candidate.id
    have hrbs := hmoved.rbs candidate.id
    have hlt := hof.count_lt hbelow
    have hreachedMin := fits_slotIndication hfits (hmoved.nofSlices ▸ hid) (hrbs ▸ hded) hreached hagain
    rw [← hof.slot_eq, ← hslot, hkept, hslot, hrbs] at hlt
    exact absurd hreachedMin (Nat.not_le.mpr hlt)

variable (std) in
theorem AtSlot.queues_slotIndication (h : AtSlot cfg run last) (hlater : last < slotTx)
    (hmoved : MovedOn cfg run.turns run.sched (advance cfg run.sched slotTx) slotTx)
    (hfits : run.fits cfg (.slotIndication slotTx input) = true) :
    (∀ isDl, ∀ candidate ∈ (run.sched.slotIndication cfg std slotTx input).prioQueue isDl,
      Queued cfg { run with
        sched := run.sched.slotIndication cfg std slotTx input, indicated := slotTx :: run.indicated }
        slotTx isDl candidate) ∧
      ∀ isDl, ((run.sched.slotIndication cfg std slotTx input).prioQueue isDl).Pairwise
        (Distinct (run.sched.slotIndication cfg std slotTx input)) := by
  rw [InterSliceScheduler.slotIndication]
  split
  · refine ⟨fun isDl candidate hmem => ?_, fun isDl => ?_⟩
    · cases isDl <;> exact absurd hmem List.not_mem_nil
    · cases isDl <;> exact List.Pairwise.nil
  · rename_i hdl
    rw [Bool.not_eq_true, Bool.not_eq_false'] at hdl
    have hcleared : MovedOn cfg run.turns run.sched
        { advance cfg run.sched slotTx with dlPrioQueue := [], ulPrioQueue := [] } slotTx :=
      ⟨⟨hmoved.counters.dl, hmoved.counters.ul, hmoved.counters.pusch⟩, hmoved.currentSlot,
        hmoved.nofSlices, hmoved.rbs, hmoved.pdsch⟩
    obtain ⟨hdlQueued, hdlDistinct⟩ := dlQueue_queued std h hlater
      (s := { advance cfg run.sched slotTx with dlPrioQueue := [], ulPrioQueue := [] }) input
    obtain ⟨hulQueued, hulDistinct⟩ := ulQueue_queued std h hlater hcleared hdl hfits
    refine ⟨fun isDl candidate hmem => ?_, fun isDl => ?_⟩
    · cases isDl with
      | true => exact (hdlQueued candidate hmem).congr rfl rfl rfl
      | false => exact (hulQueued candidate hmem).congr rfl rfl rfl
    · cases isDl with
      | true => exact hdlDistinct
      | false => exact hulDistinct

theorem AtSlot.slotIndication (h : AtSlot cfg run (run.sched.currentSlot.getD (slotTx - 1)))
    (hlater : run.sched.currentSlot.getD (slotTx - 1) < slotTx)
    (hfits : run.fits cfg (.slotIndication slotTx input) = true) :
    AtSlot cfg { run with
      sched := run.sched.slotIndication cfg std slotTx input, indicated := slotTx :: run.indicated }
      slotTx := by
  have hmoved := movedOn_advance hlater h.counters fun turn hmem hul => (h.ulTurns turn hmem hul).1
  obtain ⟨hslices, _, _, hdl, hul⟩ := @slotIndication_fields cfg std run.sched slotTx input
  have hqueues := h.queues_slotIndication std hlater hmoved hfits
  refine ⟨⟨fun pos => ?_, fun pos => ?_, fun id => ?_⟩, fun id => ?_, ?_, ?_, hqueues.1, hqueues.2⟩
  · rw [hdl]
    exact hmoved.counters.dl pos
  · rw [hul]
    exact hmoved.counters.ul pos
  · rw [hslices]
    exact hmoved.counters.pusch id
  · rw [hslices, hmoved.pdsch id, grantedRbs_eq_zero]
    intro turn hmem hisDl hslot
    have hle := h.dlTurns turn hmem hisDl
    omega
  · intro turn hmem hisDl
    exact (h.dlTurns turn hmem hisDl).trans (Nat.le_of_lt hlater)
  · intro turn hmem hisDl
    obtain ⟨hmax, hreached⟩ := h.ulTurns turn hmem hisDl
    refine ⟨by omega, ?_⟩
    rw [List.flatMap_cons]
    exact List.mem_append_right _ hreached

variable {rest : List SliceCandidate}

/-- The candidate that a turn takes stands for the first candidates of the queue. -/
theorem AtSlot.taken (h : AtSlot cfg run current)
    (hpop : popCombined cfg (run.sched.prioQueue isDl) = some (candidate, rest)) :
    Queued cfg run current isDl candidate ∧ (∀ other ∈ rest, other ∈ run.sched.prioQueue isDl) ∧
      rest.Pairwise (Distinct run.sched) ∧ ∀ other ∈ rest, Distinct run.sched candidate other := by
  have hqueued := h.queued isDl
  have hdistinct := h.distinct isDl
  generalize hqueue : run.sched.prioQueue isDl = queue at hpop hqueued hdistinct
  match queue with
  | [] => cases hpop
  | [top] =>
    cases hpop
    exact ⟨hqueued _ List.mem_cons_self, fun _ hmem => absurd hmem List.not_mem_nil,
      List.Pairwise.nil, fun _ hmem => absurd hmem List.not_mem_nil⟩
  | top :: second :: rest' =>
    have htop := hqueued top List.mem_cons_self
    have hsecond := hqueued second (List.mem_cons_of_mem _ List.mem_cons_self)
    obtain ⟨htopRest, hdistinctSecond⟩ := List.pairwise_cons.mp hdistinct
    obtain ⟨hsecondRest, hdistinctRest⟩ := List.pairwise_cons.mp hdistinctSecond
    rw [InterSliceScheduler.popCombined] at hpop
    split at hpop
    · rename_i hsame
      have hslot := hsecond.slot_eq htop hsame.2
      cases hpop
      -- The combined candidate is below the minimum when one of the two is.
      have hbelow : below run.sched (combine top second) →
          below run.sched top ∨ below run.sched second := by
        intro hlt
        rw [below, below, hsame.1]
        exact min_lt_iff.mp hlt
      refine ⟨⟨?_, htop.dlSlot, htop.ulSlot, ?_⟩, ?_, hdistinctRest, ?_⟩
      · exact Nat.max_le.mpr ⟨htop.stop_le, hsame.1 ▸ hsecond.stop_le⟩
      · intro hlt hded turn hturn hcounted
        rcases hbelow hlt with hlt | hlt
        · exact htop.fresh hlt hded turn hturn hcounted
        · have hfresh := hsecond.fresh hlt (hsame.1 ▸ hded) turn hturn hcounted
          rwa [hsame.1, hslot] at hfresh
      · exact fun other hmem => List.mem_cons_of_mem _ (List.mem_cons_of_mem _ hmem)
      · intro other hmem hlt hother hid
        rcases hbelow hlt with hlt | hlt
        · exact htopRest other (List.mem_cons_of_mem _ hmem) hlt hother hid
        · have hne := hsecondRest other hmem hlt hother (hsame.1.trans hid)
          rwa [hslot] at hne
    · cases hpop
      exact ⟨htop, fun other hmem => List.mem_cons_of_mem _ hmem, hdistinctSecond, htopRest⟩

theorem setPrioQueue_fields (s : InterSliceScheduler) (isDl : Bool) (queue : List SliceCandidate) :
    (s.setPrioQueue isDl queue).slices = s.slices ∧
    (s.setPrioQueue isDl queue).currentSlot = s.currentSlot ∧
    (s.setPrioQueue isDl queue).countDlDedRbs = s.countDlDedRbs ∧
    (s.setPrioQueue isDl queue).countUlDedRbs = s.countUlDedRbs ∧
    ∀ other, (s.setPrioQueue isDl queue).prioQueue other =
      if other = isDl then queue else s.prioQueue other := by
  cases isDl
  · exact ⟨rfl, rfl, rfl, rfl, fun other => by cases other <;> rfl⟩
  · exact ⟨rfl, rfl, rfl, rfl, fun other => by cases other <;> rfl⟩

theorem setCountRbs_fields (s : InterSliceScheduler) (isDl : Bool) (slot count : Nat) :
    (setCountRbs cfg s isDl slot count).slices = s.slices ∧
    (setCountRbs cfg s isDl slot count).currentSlot = s.currentSlot ∧
    (setCountRbs cfg s isDl slot count).prioQueue = s.prioQueue := by
  cases isDl <;> exact ⟨rfl, rfl, rfl⟩

theorem takeCandidate_sched (s : InterSliceScheduler) (isDl : Bool) (candidate : SliceCandidate) :
    (takeCandidate cfg s isDl candidate).1 =
      if candidate.start < (s.slices candidate.id).rbs.min then
        setCountRbs cfg s isDl candidate.slotTx ((countRbs cfg s isDl candidate.slotTx +
          (s.slices candidate.id).rbs.dedicated) % 2 ^ 32)
      else s := by
  rw [takeCandidate]
  dsimp only
  generalize (if candidate.start < (s.slices candidate.id).rbs.min then
    setCountRbs cfg s isDl candidate.slotTx ((countRbs cfg s isDl candidate.slotTx +
      (s.slices candidate.id).rbs.dedicated) % 2 ^ 32) else s) = counted
  split
  · rfl
  · split <;> rfl

theorem takeCandidate_fields (s : InterSliceScheduler) (isDl : Bool) (candidate : SliceCandidate) :
    (takeCandidate cfg s isDl candidate).1.slices = s.slices ∧
    (takeCandidate cfg s isDl candidate).1.currentSlot = s.currentSlot ∧
    (takeCandidate cfg s isDl candidate).1.prioQueue = s.prioQueue := by
  rw [takeCandidate_sched]
  split
  · exact setCountRbs_fields s isDl candidate.slotTx _
  · exact ⟨rfl, rfl, rfl⟩

/-- The dedicated RBs of the cell are not exceeded by those that a turn counts. -/
theorem takeCandidate_counts {isDl : Bool} {candidate : SliceCandidate}
    (hdl : ∀ pos, s.countDlDedRbs pos ≤ cfg.dlRbs) (hul : ∀ pos, s.countUlDedRbs pos ≤ cfg.ulRbs)
    (hfits : candidate.start < (s.slices candidate.id).rbs.min →
      countRbs cfg s isDl candidate.slotTx + (s.slices candidate.id).rbs.dedicated ≤
        cfg.cellMaxRbs isDl) :
    (∀ pos, (takeCandidate cfg s isDl candidate).1.countDlDedRbs pos ≤ cfg.dlRbs) ∧
      ∀ pos, (takeCandidate cfg s isDl candidate).1.countUlDedRbs pos ≤ cfg.ulRbs := by
  rw [takeCandidate_sched]
  split
  · rename_i hbelow
    have hle := (Nat.mod_le _ (2 ^ 32)).trans (hfits hbelow)
    cases isDl with
    | true => exact ⟨update_le hdl hle, hul⟩
    | false => exact ⟨hdl, update_le hul hle⟩
  · exact ⟨hdl, hul⟩

theorem takeCandidate_offer {offer : Offer}
    (h : (takeCandidate cfg s isDl candidate).2 = some offer) :
    offer = { id := candidate.id, slotTx := candidate.slotTx,
              maxRbs := min candidate.stop
                (remRbs (cfg.cellMaxRbs isDl) (countRbs cfg s isDl candidate.slotTx)) } ∧
      candidate.start ≤ (s.slices candidate.id).rbCount cfg isDl candidate.slotTx ∧
      (s.slices candidate.id).rbCount cfg isDl candidate.slotTx < candidate.stop ∧
      0 < offer.maxRbs := by
  rw [takeCandidate] at h
  dsimp only at h
  split at h
  · cases h
  · rename_i hpos
    split at h
    · rename_i hin
      cases h
      exact ⟨rfl, hin.1, hin.2, Nat.pos_of_ne_zero hpos⟩
    · cases h

structure Granted (cfg : CellConfig) (s s' : InterSliceScheduler) (turn : Turn) : Prop where
  currentSlot : s'.currentSlot = s.currentSlot
  rbs : ∀ id, (s'.slices id).rbs = (s.slices id).rbs
  pdsch : ∀ id, (s'.slices id).pdschRbCount =
    (if turn.isDl = true ∧ turn.id = id then turn.granted else 0) + (s.slices id).pdschRbCount
  pusch : ∀ id, (s'.slices id).puschRbCountPerSlot =
    if turn.isDl = false ∧ turn.id = id then
      Function.update (s.slices id).puschRbCountPerSlot (cfg.puschRingPos turn.slotTx)
        (turn.granted + (s.slices id).puschRbCountPerSlot (cfg.puschRingPos turn.slotTx))
    else (s.slices id).puschRbCountPerSlot

theorem granted_none {s' : InterSliceScheduler} (hslices : s'.slices = s.slices)
    (hcurrent : s'.currentSlot = s.currentSlot) (hnone : turn.granted = 0) :
    Granted cfg s s' turn where
  currentSlot := hcurrent
  rbs id := by rw [hslices]
  pdsch id := by rw [hslices, hnone, ite_self, Nat.zero_add]
  pusch id := by rw [hslices, hnone, Nat.zero_add, Function.update_eq_self, ite_self]

theorem storeGrant_fields (s : InterSliceScheduler) (isDl : Bool) (offer : Offer) (rbs : Nat) :
    (s.storeGrant cfg isDl offer rbs).currentSlot = s.currentSlot ∧
    (s.storeGrant cfg isDl offer rbs).countDlDedRbs = s.countDlDedRbs ∧
    (s.storeGrant cfg isDl offer rbs).countUlDedRbs = s.countUlDedRbs ∧
    (s.storeGrant cfg isDl offer rbs).prioQueue = s.prioQueue := by
  rw [InterSliceScheduler.storeGrant]
  split <;> exact ⟨rfl, rfl, rfl, rfl⟩

theorem granted_storeGrant {s' : InterSliceScheduler} {offer : Offer} {rbs : Nat}
    (hslices : s'.slices = s.slices) (hcurrent : s'.currentSlot = s.currentSlot)
    (hid : offer.id = turn.id) (hslot : offer.slotTx = turn.slotTx) (hisDl : turn.isDl = isDl)
    (hrbs : turn.granted = rbs) : Granted cfg s (s'.storeGrant cfg isDl offer rbs) turn := by
  subst hisDl hrbs
  by_cases hzero : turn.granted = 0
  · rw [InterSliceScheduler.storeGrant, if_pos hzero]
    exact granted_none hslices hcurrent hzero
  have hat (id : Nat) : (s'.storeGrant cfg turn.isDl offer turn.granted).slices id =
      if id = turn.id then (s.slices id).storeGrant cfg turn.isDl turn.granted turn.slotTx
      else s.slices id := by
    rw [InterSliceScheduler.storeGrant, if_neg hzero, hslices, hid, hslot]
    dsimp only
    split
    · rename_i hsame
      rw [hsame, Function.update_self]
    · rename_i hother
      rw [Function.update_of_ne hother]
  refine ⟨(storeGrant_fields s' _ offer _).1.trans hcurrent, fun id => ?_, fun id => ?_, fun id => ?_⟩
  · rw [hat]
    split
    · rw [RanSliceInstance.storeGrant]
      split <;> rfl
    · rfl
  · rw [hat]
    by_cases hsame : id = turn.id
    · rw [if_pos hsame, RanSliceInstance.storeGrant]
      cases hisDl : turn.isDl with
      | true =>
        rw [if_pos rfl, if_pos ⟨rfl, hsame.symm⟩]
        exact Nat.add_comm _ _
      | false =>
        rw [if_neg (by decide), if_neg (fun hdl => absurd hdl.1 (by decide)), Nat.zero_add]
    · rw [if_neg hsame, if_neg (fun h => hsame h.2.symm), Nat.zero_add]
  · rw [hat]
    by_cases hsame : id = turn.id
    · rw [if_pos hsame, RanSliceInstance.storeGrant]
      cases hisDl : turn.isDl with
      | true => rw [if_pos rfl, if_neg (fun hul => absurd hul.1 (by decide))]
      | false =>
        rw [if_neg (by decide), if_pos ⟨rfl, hsame.symm⟩, Nat.add_comm]
        rfl
    · rw [if_neg hsame, if_neg (fun h => hsame h.2.symm)]

theorem AtSlot.record (h : AtSlot cfg run current) (hturns : run'.turns = turn :: run.turns)
    (hpop : popCombined cfg (run.sched.prioQueue turn.isDl) = some (candidate, rest))
    (hid : turn.id = candidate.id) (hslot : turn.slotTx = candidate.slotTx)
    (hcounted : 0 < turn.counted → below run.sched candidate)
    (hgranted : Granted cfg run.sched run'.sched turn)
    (hdl : ∀ pos, run'.sched.countDlDedRbs pos ≤ cfg.dlRbs)
    (hul : ∀ pos, run'.sched.countUlDedRbs pos ≤ cfg.ulRbs)
    (hqueue : ∀ isDl, run'.sched.prioQueue isDl =
      if isDl = turn.isDl then rest else run.sched.prioQueue isDl)
    (hindicated : run'.indicated = run.indicated) : AtSlot cfg run' current := by
  obtain ⟨hqueued, hrest, hdistinct, hother⟩ := h.taken hpop
  have hbelow (other : SliceCandidate) : below run'.sched other ↔ below run.sched other := by
    rw [below, below, hgranted.rbs]
  have hdistinctEq : Distinct run'.sched = Distinct run.sched := by
    funext a b
    rw [Distinct, Distinct, hbelow a, hbelow b]
  refine ⟨⟨hdl, hul, fun id => ?_⟩, fun id => ?_, ?_, ?_, fun isDl other hmem => ?_, fun isDl => ?_⟩
  · -- The window of PUSCH slots moves with the grant.
    rw [hgranted.pusch id, hturns]
    split
    · rename_i hsame
      have hslots := hqueued.ulSlot hsame.1
      have hsize := cfg.le_puschRingSize
      have hpos := cfg.minK2_pos
      rw [cfg.puschRingPos_eq, hslot]
      have hwindow := (h.counters.pusch id).update hslots.1 (by omega)
        (turn.granted + (run.sched.slices id).puschRbCountPerSlot
          (candidate.slotTx % cfg.puschRingSize))
      refine hwindow.congr fun slot _ _ => ?_
      rw [grantedRbs_cons]
      by_cases heq : slot = candidate.slotTx
      · rw [heq, Function.update_self, if_pos ⟨hsame.1, hsame.2, hslot⟩,
          h.counters.pusch id _ hslots.1 (by omega)]
      · rw [Function.update_of_ne heq, if_neg fun hmatch => heq (hmatch.2.2.symm.trans hslot),
          Nat.zero_add]
    · rename_i hdiffers
      refine (h.counters.pusch id).congr fun slot _ _ => ?_
      rw [grantedRbs_cons, if_neg fun hmatch => hdiffers ⟨hmatch.1, hmatch.2.1⟩, Nat.zero_add]
  · rw [hgranted.pdsch id, hturns, grantedRbs_cons, h.pdsch id]
    congr 1
    by_cases hsame : turn.isDl = true ∧ turn.id = id
    · rw [if_pos hsame, if_pos ⟨hsame.1, hsame.2, hslot.trans (hqueued.dlSlot hsame.1)⟩]
    · rw [if_neg hsame, if_neg fun hmatch => hsame ⟨hmatch.1, hmatch.2.1⟩]
  · intro other hmem hisDl
    rw [hturns] at hmem
    rcases List.mem_cons.mp hmem with rfl | hmem
    · exact Nat.le_of_eq (hslot.trans (hqueued.dlSlot hisDl))
    · exact h.dlTurns other hmem hisDl
  · intro other hmem hisDl
    rw [hturns] at hmem
    rw [hindicated]
    rcases List.mem_cons.mp hmem with rfl | hmem
    · rw [hslot]
      exact (hqueued.ulSlot hisDl).2
    · exact h.ulTurns other hmem hisDl
  · -- Candidates that still wait are not for dedicated RBs that have now been counted.
    rw [hqueue isDl] at hmem
    have hold : Queued cfg run current isDl other := by
      split at hmem
      · rename_i hsame
        exact h.queued isDl other (hsame ▸ hrest other hmem)
      · exact h.queued isDl other hmem
    refine ⟨hgranted.rbs other.id ▸ hold.stop_le, hold.dlSlot, hindicated ▸ hold.ulSlot, ?_⟩
    intro hlt hded earlier hearlier hearlierCounted hsame
    rw [hbelow] at hlt
    rw [hgranted.rbs] at hded
    rw [hturns] at hearlier
    rcases List.mem_cons.mp hearlier with rfl | hearlier
    · rw [if_pos hsame.1.symm] at hmem
      exact hother other hmem (hcounted hearlierCounted) hlt (hid.symm.trans hsame.2.1)
        (hslot.symm.trans hsame.2.2)
    · exact hold.fresh hlt hded earlier hearlier hearlierCounted hsame
  · rw [hqueue isDl, hdistinctEq]
    split
    · exact hdistinct
    · exact h.distinct isDl

theorem fits_nextCandidate {rbs : Nat} (h : run.fits cfg (.nextCandidate isDl rbs) = true)
    (hpop : popCombined cfg (run.sched.prioQueue isDl) = some (candidate, rest)) :
    (candidate.start < (run.sched.slices candidate.id).rbs.min →
      countRbs cfg run.sched isDl candidate.slotTx + (run.sched.slices candidate.id).rbs.dedicated ≤
        cfg.cellMaxRbs isDl) ∧
    (candidate.start ≤ (run.sched.slices candidate.id).rbCount cfg isDl candidate.slotTx →
      (run.sched.slices candidate.id).rbCount cfg isDl candidate.slotTx < candidate.stop →
      countRbs cfg run.sched isDl candidate.slotTx +
        (run.sched.slices candidate.id).rbCount cfg isDl candidate.slotTx < cfg.cellMaxRbs isDl ∨
      countRbs cfg run.sched isDl candidate.slotTx = cfg.cellMaxRbs isDl) := by
  rw [SliceRun.fits, hpop] at h
  dsimp only at h
  simp only [Bool.and_eq_true, Bool.or_eq_true, Bool.not_eq_true', decide_eq_true_eq,
    decide_eq_false_iff_not] at h
  refine ⟨fun hbelow => h.1.resolve_left (not_not_intro hbelow), fun hstart hstop => ?_⟩
  rcases h.2 with ((hbad | hbad) | hroom) | hfull
  · exact absurd hstart hbad
  · exact absurd hstop hbad
  · exact .inl hroom
  · exact .inr hfull

theorem remRbs_eq {cellMaxRbs count : Nat} (hcell : cellMaxRbs < 2 ^ 32) (h : count ≤ cellMaxRbs) :
    remRbs cellMaxRbs count = cellMaxRbs - count := by
  rw [remRbs]
  omega

theorem cellMaxRbs_lt (cfg : CellConfig) (isDl : Bool) : cfg.cellMaxRbs isDl < 2 ^ 32 := by
  cases isDl
  · exact cfg.ulRbs_lt
  · exact cfg.dlRbs_lt

theorem Counters.countRbs_le (h : Counters cfg turns s current) (isDl : Bool)
    (slot : Nat) : countRbs cfg s isDl slot ≤ cfg.cellMaxRbs isDl := by
  cases isDl
  · exact h.ul _
  · exact h.dl _

theorem WithinLimits.cons {turn : Turn} (h : WithinLimits cfg turns)
    (hoffered : ∀ rbs, turn.offered = some rbs → 0 < rbs)
    (hgranted : 0 < turn.granted →
      grantedRbs (turn :: turns) turn.isDl turn.id turn.slotTx ≤ turn.maxRbs)
    (hcount : turn.countRbs ≤ cfg.cellMaxRbs turn.isDl)
    (honce : ∀ earlier ∈ turns, 0 < turn.counted → 0 < earlier.counted →
      ¬(turn.isDl = earlier.isDl ∧ turn.id = earlier.id ∧ turn.slotTx = earlier.slotTx)) :
    WithinLimits cfg (turn :: turns) where
  offered_pos := List.forall_mem_cons.mpr ⟨hoffered, h.offered_pos⟩
  granted_le_max := by
    intro later other earlier hsplit hpos
    cases later with
    | nil =>
      cases hsplit
      exact hgranted hpos
    | cons first later =>
      obtain ⟨_, hrest⟩ := List.cons_eq_cons.mp hsplit
      exact h.granted_le_max later other earlier hrest hpos
  count_le_cell := List.forall_mem_cons.mpr ⟨hcount, h.count_le_cell⟩
  counted_once := List.pairwise_cons.mpr ⟨honce, h.counted_once⟩

theorem AtSlot.recordTurn {run : SliceRun} {current : Nat} (h : AtSlot cfg run current)
    (hlimits : WithinLimits cfg run.turns) {isDl : Bool} {rbs : Nat} {candidate : SliceCandidate}
    {rest : List SliceCandidate}
    (hpop : popCombined cfg (run.sched.prioQueue isDl) = some (candidate, rest))
    (horder : run.inOrder cfg (.nextCandidate isDl rbs) = true)
    (hfits : run.fits cfg (.nextCandidate isDl rbs) = true) :
    AtSlot cfg (recordTurn cfg run isDl candidate rest rbs) current ∧
      WithinLimits cfg (recordTurn cfg run isDl candidate rest rbs).turns ∧
      (recordTurn cfg run isDl candidate rest rbs).sched.currentSlot = run.sched.currentSlot := by
  obtain ⟨hded, hroom⟩ := fits_nextCandidate hfits hpop
  obtain ⟨hqueued, _, _, _⟩ := h.taken hpop
  obtain ⟨hqslices, hqcurrent, hqdl, hqul, hqueue⟩ := setPrioQueue_fields run.sched isDl rest
  obtain ⟨htslices, htcurrent, htqueue⟩ :=
    @takeCandidate_fields cfg (run.sched.setPrioQueue isDl rest) isDl candidate
  have hqcount : countRbs cfg (run.sched.setPrioQueue isDl rest) isDl candidate.slotTx =
      countRbs cfg run.sched isDl candidate.slotTx := by
    rw [countRbs, countRbs, hqdl, hqul]
  have hcountLe := h.counters.countRbs_le isDl candidate.slotTx
  obtain ⟨hdl, hul⟩ := @takeCandidate_counts cfg (run.sched.setPrioQueue isDl rest) isDl candidate
    (by rw [hqdl]; exact h.counters.dl) (by rw [hqul]; exact h.counters.ul)
    (by rw [hqslices, hqcount]; exact hded)
  have hrbCount := h.rbCount_eq hqueued
  have hbelow : 0 < (if candidate.start < (run.sched.slices candidate.id).rbs.min then
      (run.sched.slices candidate.id).rbs.dedicated else 0) →
      below run.sched candidate ∧ 0 < (run.sched.slices candidate.id).rbs.dedicated := by
    intro hpos
    split at hpos
    · rename_i hlt
      exact ⟨hlt, hpos⟩
    · exact absurd hpos (Nat.lt_irrefl 0)
  have honce : ∀ earlier ∈ run.turns, 0 < (if candidate.start < (run.sched.slices candidate.id).rbs.min
      then (run.sched.slices candidate.id).rbs.dedicated else 0) → 0 < earlier.counted →
      ¬(isDl = earlier.isDl ∧ candidate.id = earlier.id ∧ candidate.slotTx = earlier.slotTx) := by
    intro earlier hmem hpos hcounted hsame
    obtain ⟨hlt, hdedPos⟩ := hbelow hpos
    exact hqueued.fresh hlt hdedPos earlier hmem hcounted
      ⟨hsame.1.symm, hsame.2.1.symm, hsame.2.2.symm⟩
  have hqueue' (other : Bool) : (takeCandidate cfg (run.sched.setPrioQueue isDl rest) isDl
      candidate).1.prioQueue other = if other = isDl then rest else run.sched.prioQueue other := by
    rw [htqueue]
    exact hqueue other
  rw [SliceRun.inOrder, hpop] at horder
  dsimp only at horder
  rw [Scheduler.recordTurn]
  dsimp only
  cases hoffer : (takeCandidate cfg (run.sched.setPrioQueue isDl rest) isDl candidate).2 with
  | none =>
    refine ⟨?_, ?_, htcurrent.trans hqcurrent⟩
    · exact h.record rfl hpop rfl rfl (fun hpos => (hbelow hpos).1)
        (granted_none (htslices.trans hqslices) (htcurrent.trans hqcurrent) rfl) hdl hul hqueue' rfl
    · exact hlimits.cons (fun _ hnone => by cases hnone) (fun hpos => absurd hpos (Nat.lt_irrefl 0))
        hcountLe honce
  | some offer =>
    rw [hoffer] at horder
    dsimp only at horder
    rw [decide_eq_true_eq] at horder
    obtain ⟨hoffered, hstart, hstop, hpos⟩ := takeCandidate_offer hoffer
    rw [hqslices] at hstart hstop
    rw [hqcount, remRbs_eq (cellMaxRbs_lt cfg isDl) hcountLe] at hoffered
    have hremaining : remainingRbs cfg
        (takeCandidate cfg (run.sched.setPrioQueue isDl rest) isDl candidate).1 isDl offer =
          offer.maxRbs - (run.sched.slices candidate.id).rbCount cfg isDl candidate.slotTx := by
      rw [remainingRbs, htslices, hqslices, hoffered]
    have hmaxRbs : offer.maxRbs = min candidate.stop (cfg.cellMaxRbs isDl -
        countRbs cfg run.sched isDl candidate.slotTx) := by rw [hoffered]
    have hid : offer.id = candidate.id := by rw [hoffered]
    have hslot : offer.slotTx = candidate.slotTx := by rw [hoffered]
    have hstopLe := hqueued.stop_le
    have hroom' := hroom hstart hstop
    dsimp only
    rw [hremaining] at horder ⊢
    obtain ⟨hscurrent, hsdl, hsul, hsqueue⟩ := @storeGrant_fields cfg
      (takeCandidate cfg (run.sched.setPrioQueue isDl rest) isDl candidate).1 isDl offer rbs
    refine ⟨?_, ?_, ?_⟩
    · exact h.record rfl hpop rfl rfl (fun hpos => (hbelow hpos).1)
        (granted_storeGrant (htslices.trans hqslices) (htcurrent.trans hqcurrent) hid hslot
          rfl rfl)
        (hsdl ▸ hdl) (hsul ▸ hul) (hsqueue ▸ hqueue') rfl
    · refine hlimits.cons ?_ ?_ hcountLe honce
      · intro remaining heq
        cases heq
        omega
      · intro _
        rw [grantedRbs_cons, if_pos ⟨rfl, rfl, rfl⟩]
        dsimp only
        rw [← hrbCount]
        omega
    · exact hscurrent.trans (htcurrent.trans hqcurrent)

variable (cfg std) in
/-- A call of `get_next_candidate` is a number of turns; the last one fills the candidate, if there is one. -/
theorem getNextCandidate_turns (isDl : Bool) (rbs turns : Nat) (run : SliceRun) :
    ∃ (n : Nat) (run' : SliceRun), Runs.runAll (SliceRun.step cfg std) run
        (List.replicate n (.nextCandidate isDl rbs)) = some run' ∧
      run'.sched = match getNextCandidate cfg isDl turns run.sched with
        | (s, none) => s
        | (s, some offer) => s.storeGrant cfg isDl offer rbs := by
  induction turns generalizing run with
  | zero => exact ⟨0, run, rfl, rfl⟩
  | succ turns ih =>
    rw [getNextCandidate]
    cases hpop : popCombined cfg (run.sched.prioQueue isDl) with
    | none => exact ⟨0, run, rfl, rfl⟩
    | some popped =>
      have hstep : run.step cfg std (.nextCandidate isDl rbs) =
          some (Scheduler.recordTurn cfg run isDl popped.1 popped.2 rbs) := by
        rw [SliceRun.step, hpop]
      rw [Scheduler.recordTurn] at hstep
      dsimp only at hstep ⊢
      generalize takeCandidate cfg (run.sched.setPrioQueue isDl popped.2) isDl popped.1 = taken
        at hstep ⊢
      obtain ⟨s, offer | offer⟩ := taken
      · obtain ⟨n, run', hrun, hsched⟩ := ih { run with sched := s, turns := _ :: run.turns }
        refine ⟨n + 1, run', ?_, hsched⟩
        rw [List.replicate_succ, Runs.runAll, hstep]
        exact hrun
      · exact ⟨1, _, by rw [List.replicate_one, Runs.runAll, hstep]; rfl, rfl⟩

theorem length_of_popCombined {queue rest : List SliceCandidate} {candidate : SliceCandidate}
    (h : popCombined cfg queue = some (candidate, rest)) : rest.length < queue.length := by
  rw [popCombined.eq_def] at h
  split at h
  · cases h
  · cases h
    exact Nat.one_pos
  · split at h <;> cases h <;> simp only [List.length_cons] <;> omega

/-- As many turns as there are candidates use up the queue, if none of them hands one out. -/
theorem getNextCandidate_none {turns : Nat} (hturns : (s.prioQueue isDl).length ≤ turns)
    (hnone : (getNextCandidate cfg isDl turns s).2 = none) :
    (getNextCandidate cfg isDl turns s).1.prioQueue isDl = [] := by
  induction turns generalizing s with
  | zero => exact List.eq_nil_of_length_eq_zero (Nat.le_zero.mp hturns)
  | succ turns ih =>
    rw [getNextCandidate] at hnone ⊢
    cases hpop : popCombined cfg (s.prioQueue isDl) with
    | none =>
      rw [popCombined.eq_def] at hpop
      split at hpop
      · assumption
      · cases hpop
      · split at hpop <;> cases hpop
    | some popped =>
      rw [hpop] at hnone
      have hshorter := length_of_popCombined hpop
      have hqueue := (setPrioQueue_fields s isDl popped.2).2.2.2.2 isDl
      have htaken := (@takeCandidate_fields cfg (s.setPrioQueue isDl popped.2) isDl popped.1).2.2
      dsimp only at hnone ⊢
      generalize takeCandidate cfg (s.setPrioQueue isDl popped.2) isDl popped.1 = taken
        at hnone htaken ⊢
      obtain ⟨s₁, offer | offer⟩ := taken
      · refine ih ?_ hnone
        rw [htaken, hqueue, if_pos rfl]
        omega
      · cases hnone

/-- Before the first slot the scheduler may be at any slot. -/
def SliceInv (cfg : CellConfig) (run : SliceRun) : Prop :=
  WithinLimits cfg run.turns ∧ ∀ current, run.sched.currentSlot.getD current = current →
    AtSlot cfg run current

theorem SliceInv.step {event : SliceEvent} (h : SliceInv cfg run)
    (horder : run.inOrder cfg event = true) (hfits : run.fits cfg event = true)
    (hstep : run.step cfg std event = some run') : SliceInv cfg run' := by
  obtain ⟨hlimits, hat⟩ := h
  cases event with
  | reconfigure policies =>
    cases hstep
    rw [SliceRun.inOrder, Bool.and_eq_true, List.isEmpty_iff, List.isEmpty_iff] at horder
    refine ⟨hlimits, fun current hcurrent => ?_⟩
    refine (hat current ?_).reconfigure (fun isDl => ?_) policies
    · rwa [(reconfigured run.sched policies).currentSlot] at hcurrent
    · cases isDl
      · exact horder.2
      · exact horder.1
  | slotIndication slotTx input =>
    cases hstep
    rw [SliceRun.inOrder, decide_eq_true_eq] at horder
    have hlater : run.sched.currentSlot.getD (slotTx - 1) < slotTx := by
      cases hcurrent : run.sched.currentSlot with
      | none =>
        rw [hcurrent] at horder
        exact Nat.sub_lt horder Nat.one_pos
      | some current =>
        rw [hcurrent] at horder
        exact horder
    have hbefore := hat (run.sched.currentSlot.getD (slotTx - 1)) (by
      cases run.sched.currentSlot <;> rfl)
    have hmoved := movedOn_advance hlater hbefore.counters fun turn hmem hul =>
      (hbefore.ulTurns turn hmem hul).1
    obtain ⟨_, hslot, _⟩ := @slotIndication_fields cfg std run.sched slotTx input
    refine ⟨hlimits, fun current hcurrent => ?_⟩
    rw [hslot, hmoved.currentSlot, Option.getD_some] at hcurrent
    rw [← hcurrent]
    exact hbefore.slotIndication hlater hfits
  | nextCandidate isDl rbs =>
    rw [SliceRun.step] at hstep
    split at hstep
    · cases hstep
    · rename_i candidate rest hpop
      cases hstep
      have hnow := hat (run.sched.currentSlot.getD 0) (by cases run.sched.currentSlot <;> rfl)
      obtain ⟨_, hlimits', hcurrentSlot⟩ := hnow.recordTurn hlimits hpop horder hfits
      refine ⟨hlimits', fun current hcurrent => ?_⟩
      rw [hcurrentSlot] at hcurrent
      exact ((hat current hcurrent).recordTurn hlimits hpop horder hfits).1

theorem create_unused (cfg : CellConfig) (members : List SliceRrmPolicyConfig) (id : Nat) :
    ((create cfg members).slices id).pdschRbCount = 0 ∧
      ((create cfg members).slices id).puschRbCountPerSlot = fun _ => 0 := by
  have hall : ∀ inst ∈ createSlices cfg members,
      inst.pdschRbCount = 0 ∧ inst.puschRbCountPerSlot = fun _ => 0 := by
    intro inst hmem
    rcases List.mem_cons.mp hmem with rfl | hmem
    · exact ⟨rfl, rfl⟩
    · rcases List.mem_cons.mp hmem with rfl | hmem
      · exact ⟨rfl, rfl⟩
      · obtain ⟨member, _, rfl⟩ := List.mem_map.mp hmem
        exact ⟨rfl, rfl⟩
  rw [create]
  dsimp only
  rw [List.getD_eq_getElem?_getD]
  cases hslice : (createSlices cfg members)[id]? with
  | none => exact ⟨rfl, rfl⟩
  | some inst => exact hall inst (List.mem_of_getElem? hslice)

theorem sliceInv_create (cfg : CellConfig) (members : List SliceRrmPolicyConfig) :
    SliceInv cfg { sched := create cfg members } := by
  have hzero := create_unused cfg members
  refine ⟨⟨fun _ hmem => ?_, fun later turn earlier hsplit => ?_, fun _ hmem => ?_, List.Pairwise.nil⟩,
    fun current _ => ⟨⟨fun _ => Nat.zero_le _, fun _ => Nat.zero_le _, fun id t _ _ => ?_⟩, fun id => ?_,
      fun _ hmem => ?_, fun _ hmem => ?_, fun isDl candidate hmem => ?_, fun isDl => ?_⟩⟩
  · exact absurd hmem List.not_mem_nil
  · exact absurd hsplit.symm (by simp)
  · exact absurd hmem List.not_mem_nil
  · rw [(hzero id).2]
    rfl
  · rw [(hzero id).1]
    rfl
  · exact absurd hmem List.not_mem_nil
  · exact absurd hmem List.not_mem_nil
  · cases isDl <;> exact absurd hmem List.not_mem_nil
  · cases isDl <;> exact List.Pairwise.nil

/-- RB limits of slices, in every run whose slots and candidates fit. -/
theorem interSlice_rbLimits (cfg : CellConfig) (std : SortByPrio) (members : List SliceRrmPolicyConfig)
    (run : SliceRun)
    (h : Runs.Reaches (SliceRun.step cfg std)
      (fun run event => run.inOrder cfg event = true ∧ run.fits cfg event = true)
      { sched := create cfg members } run) :
    WithinLimits cfg run.turns := by
  have hinv := h.invariant (sliceInv_create cfg members)
    fun _ _ _ hinv hguard hstep => hinv.step hguard.1 hguard.2 hstep
  exact hinv.1

/-- `std::sort` that keeps the order of equal priorities. -/
def stableSort : SortByPrio where
  sort := List.insertionSort fun a b => b.prio ≤ a.prio
  perm := List.perm_insertionSort _
  sorted queue := by
    have : Std.Total fun a b : SliceCandidate => b.prio ≤ a.prio := ⟨fun a b => Nat.le_total _ _⟩
    have : IsTrans SliceCandidate fun a b => b.prio ≤ a.prio :=
      ⟨fun _ _ _ hab hbc => Nat.le_trans hbc hab⟩
    exact List.pairwise_insertionSort _ queue

def tinyCell : CellConfig where
  numerology := 0
  dlRbs := 10
  ulRbs := 10
  ntnCsKoffset := 0
  puschK2 := [4]
  validPuschTdLists := [[0]]
  isDlEnabled := fun _ => true
  dlRbs_lt := by decide
  ulRbs_lt := by decide
  koffset_le := by decide
  k2_pos := by decide
  k2_le := by decide
  valid_lt := by decide
  valid_sorted := by decide

def tinySlices (dedicated : Nat) (h : dedicated ≤ 10) : List SliceRrmPolicyConfig :=
  [{ rrcMember := 1
     rbs := { dedicated := 0, min := 2, max := 10, dedicated_le := by decide, min_le := by decide } },
   { rrcMember := 2
     rbs := { dedicated, min := dedicated, max := 10, dedicated_le := Nat.le_refl _, min_le := h } }]

def bothActive : SlotInput where
  active := fun id => 2 ≤ id
  averageRbsPerSlot := fun _ _ => 0
  pdschEnabled := true
  allCrbsUsed := fun _ => false

/-- The first slice fills up its minimum, then the second one counts its dedicated RBs. -/
def tinySlot : List SliceEvent :=
  [.slotIndication 10240 bothActive, .nextCandidate true 2, .nextCandidate true 0,
    .nextCandidate true 0]

theorem interSlice_rbLimits_fiveDedicated :
    ∃ run : SliceRun, WithinLimits tinyCell run.turns ∧ run.turns.map (·.offered) = [some 3, some 5, some 2] := by
  have hrun : (Runs.runAll (Runs.guarded (SliceRun.step tinyCell stableSort) fun run event =>
      run.inOrder tinyCell event = true ∧ run.fits tinyCell event = true)
      { sched := create tinyCell (tinySlices 5 (by decide)) } tinySlot).map
        (fun run => run.turns.map (·.offered)) = some [some 3, some 5, some 2] := by decide +kernel
  obtain ⟨run, hrun, hturns⟩ := Option.map_eq_some_iff.mp hrun
  exact ⟨run, interSlice_rbLimits tinyCell stableSort _ run (Runs.reaches_of_runGuarded .start hrun),
    hturns⟩

/-- With 9 dedicated RBs the first slice is offered a candidate without remaining RBs. -/
theorem interSlice_emptyCandidate :
    ∃ run, Runs.Reaches (SliceRun.step tinyCell stableSort)
        (fun run event => run.inOrder tinyCell event = true)
        { sched := create tinyCell (tinySlices 9 (by decide)) } run ∧
      ∃ turn ∈ run.turns, turn.offered = some 0 := by
  have hrun : (Runs.runAll (Runs.guarded (SliceRun.step tinyCell stableSort) fun run event =>
      run.inOrder tinyCell event = true)
      { sched := create tinyCell (tinySlices 9 (by decide)) } tinySlot).map
        (fun run => run.turns.any fun turn => turn.offered = some 0) = some true := by decide +kernel
  obtain ⟨run, hrun, hturns⟩ := Option.map_eq_some_iff.mp hrun
  obtain ⟨turn, hmem, hoffered⟩ := List.any_eq_true.mp hturns
  exact ⟨run, Runs.reaches_of_runGuarded .start hrun, turn, hmem, of_decide_eq_true hoffered⟩

end

end Srsran.Scheduler
