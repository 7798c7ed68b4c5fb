import Srsran.Lib.Runs
import Srsran.Phy.DownlinkProcessor
import Srsran.Phy.UplinkProcessorFsm

/-! Every run of the downlink processor is one of the hand-over of grids: after each configuration the
grid is sent once, behind all that is written into it. -/
namespace Srsran.Phy

namespace DownlinkProcessorState
variable {n : Nat}

theorem accepting_and (h : n < 2 ^ 30) : (maskAcceptingPdus + n) &&& maskAcceptingPdus ≠ 0 := by
  have hmask : maskAcceptingPdus = 2 ^ 31 := rfl
  have hbit : (2 ^ 31 + n).testBit 31 = true := by
    rw [Nat.testBit_eq_decide_div_mod_eq]
    simp only [decide_eq_true_eq]
    omega
  rw [hmask, Nat.and_two_pow, hbit]
  decide

theorem count_and (state : Nat) : state &&& maskCount = state % 2 ^ 31 := by
  have hmask : maskCount = 2 ^ 31 - 1 := rfl
  rw [hmask, Nat.and_two_pow_sub_one_eq_mod]

theorem reserve_ne_idle {state : Nat} (h : state ≠ statePendingPdusIdle) :
    reserveOnResourceGridConfigure state = none := if_neg h

theorem onTaskCreation_accepting (h : n + 1 < 2 ^ 30) :
    onTaskCreation (maskAcceptingPdus + n) = .ok (maskAcceptingPdus + (n + 1)) := by
  have hsum : (maskAcceptingPdus + n + 1) % 2 ^ 32 = maskAcceptingPdus + (n + 1) := by
    rw [maskAcceptingPdus]
    omega
  rw [onTaskCreation, if_pos (accepting_and (Nat.lt_of_succ_lt h)), hsum]

theorem onTaskCompletion_accepting (h : n + 1 < 2 ^ 30) :
    onTaskCompletion (maskAcceptingPdus + (n + 1)) = .ok (maskAcceptingPdus + n, false) := by
  have hcount : (maskAcceptingPdus + (n + 1)) % 2 ^ 31 ≠ 0 := by
    rw [maskAcceptingPdus]
    omega
  have hone : maskAcceptingPdus + (n + 1) ≠ 1 := by
    rw [maskAcceptingPdus]
    omega
  rw [onTaskCompletion, count_and, if_pos hcount, decide_eq_false hone]
  rfl

theorem onTaskCompletion_finishing (h : n + 1 < 2 ^ 30) :
    onTaskCompletion (n + 1) = .ok (n, decide (n = 0)) := by
  have hcount : (n + 1) % 2 ^ 31 ≠ 0 := by omega
  rw [onTaskCompletion, count_and, if_pos hcount, Nat.add_sub_cancel]
  simp

theorem onFinishRequested_accepting (h : n < 2 ^ 30) :
    onFinishRequested (maskAcceptingPdus + n) = .ok (n, decide (n = 0)) := by
  have hmask : maskAcceptingPdus = 2 ^ 31 * 1 := rfl
  have hxor : (maskAcceptingPdus + n) ^^^ maskAcceptingPdus = n := by
    rw [hmask, UplinkProcessorFsm.xor_high (Nat.lt_trans h (by decide)), Nat.xor_self, Nat.mul_zero,
      Nat.zero_add]
  rw [onFinishRequested, if_pos (accepting_and h), hxor]
  simp

theorem accepting_ne_idle (n : Nat) : maskAcceptingPdus + n ≠ statePendingPdusIdle := by
  rw [maskAcceptingPdus, statePendingPdusIdle]
  omega

theorem accepting_ne_stopped (n : Nat) : maskAcceptingPdus + n ≠ maskStopped := by
  rw [maskAcceptingPdus, maskStopped]
  omega

theorem finishing_ne_idle (h : n < 2 ^ 30) : n ≠ statePendingPdusIdle := by
  rw [statePendingPdusIdle]
  omega

theorem finishing_ne_stopped (h : n < 2 ^ 30) : n ≠ maskStopped := by
  rw [maskStopped]
  omega

end DownlinkProcessorState

open DownlinkProcessorState Checked

/-- What a grid goes through. -/
inductive DlPhase where
  | idle
  | accepting (context : Nat) (grid : Option Nat) (pending : Nat)
  | finishing (context : Nat) (grid : Option Nat) (pending : Nat)
  | sent
  | stopped
  deriving DecidableEq, Repr

namespace DlPhase

/-- A grid is written while tasks are pending, and sent when none are and no more will come. -/
def next : DlPhase → DlAction → Option DlPhase
  | .idle, .configured context grid => some (.accepting context grid 0)
  | .idle, .stopped => some .stopped
  | .accepting context grid pending, .created => some (.accepting context grid (pending + 1))
  | .accepting context grid (pending + 1), .completed => some (.accepting context grid pending)
  | .accepting context grid (pending + 1), .wrote written =>
    if grid = some written then some (.accepting context grid (pending + 1)) else none
  | .accepting context grid pending, .finishRequested => some (.finishing context grid pending)
  | .finishing context grid (pending + 1), .completed => some (.finishing context grid pending)
  | .finishing context grid (pending + 1), .wrote written =>
    if grid = some written then some (.finishing context grid (pending + 1)) else none
  | .finishing context grid 0, .sent context' grid' =>
    if context' = context ∧ grid' = grid then some .sent else none
  | .sent, .becameIdle => some .idle
  | _, _ => none

def withContext (context : Nat) (grid : Option Nat) : Option (Nat × Nat) := grid.map (Prod.mk context)

def current : DlPhase → List (Nat × Nat)
  | .accepting context grid _ => (withContext context grid).toList
  | .finishing context grid _ => (withContext context grid).toList
  | _ => []

end DlPhase

def configuredGrids (history : List DlAction) : List (Nat × Nat) :=
  history.filterMap fun
    | .configured context grid => DlPhase.withContext context grid
    | _ => none

def sentGrids (history : List DlAction) : List (Nat × Nat) :=
  history.filterMap fun
    | .sent context grid => DlPhase.withContext context grid
    | _ => none

variable {phase phase' : DlPhase}

/-- An action configures a grid, sends the current one, or leaves it. -/
theorem DlPhase.next_current {action : DlAction} (h : phase.next action = some phase') :
    phase.current ++ configuredGrids [action] = sentGrids [action] ++ phase'.current := by
  unfold DlPhase.next at h
  split at h
  case h_5 | h_8 =>
    split at h
    · cases h
      simp [current, configuredGrids, sentGrids]
    · cases h
  case h_9 context grid context' grid' =>
    split at h
    · rename_i heq
      obtain ⟨rfl, rfl⟩ := heq
      cases h
      cases grid' <;> rfl
    · cases h
  case h_1 context grid =>
    cases h
    cases grid <;> rfl
  all_goals
    cases h
    try simp [current, configuredGrids, sentGrids]

/-- Each configured grid is sent, in order, before the next one is configured. -/
theorem DlPhase.configured_eq {history : List DlAction}
    (h : Runs.runAll DlPhase.next phase history = some phase') :
    phase.current ++ configuredGrids history = sentGrids history ++ phase'.current := by
  induction history generalizing phase with
  | nil =>
    cases h
    simp [configuredGrids, sentGrids]
  | cons action rest ih =>
    obtain ⟨mid, hmid, hrest⟩ := Option.bind_eq_some_iff.mp h
    have hconfigured : configuredGrids (action :: rest) =
        configuredGrids [action] ++ configuredGrids rest := by
      rw [configuredGrids, ← List.singleton_append, List.filterMap_append]
      rfl
    have hsent : sentGrids (action :: rest) = sentGrids [action] ++ sentGrids rest := by
      rw [sentGrids, ← List.singleton_append, List.filterMap_append]
      rfl
    rw [hconfigured, hsent, ← List.append_assoc, DlPhase.next_current hmid, List.append_assoc,
      ih hrest, List.append_assoc]

theorem DlPhase.stopped_of_mem {history : List DlAction}
    (h : Runs.runAll DlPhase.next phase history = some phase') (hstopped : .stopped ∈ history) :
    phase' = .stopped := by
  induction history generalizing phase with
  | nil => cases hstopped
  | cons action rest ih =>
    obtain ⟨mid, hmid, hrest⟩ := Option.bind_eq_some_iff.mp h
    rcases List.mem_cons.mp hstopped with rfl | hlater
    · have hmid' : mid = .stopped := by
        cases phase with
        | idle => exact (Option.some.inj hmid).symm
        | accepting _ _ pending => cases pending <;> cases hmid
        | finishing _ _ pending => cases pending <;> cases hmid
        | sent => cases hmid
        | stopped => cases hmid
      subst hmid'
      cases rest with
      | nil =>
        cases hrest
        rfl
      | cons action' rest =>
        obtain ⟨_, hnone, -⟩ := Option.bind_eq_some_iff.mp hrest
        cases action' <;> cases hnone
    · exact ih hrest hlater

namespace DownlinkProcessor

def nofAllPdus (s : DownlinkProcessor) : Nat :=
  s.nofPdus .pdcch + s.nofPdus .pdsch + s.nofPdus .ssb + s.nofPdus .nzpCsiRs + s.nofPdus .prs

def heldTasks : DlHolder → Nat
  | .enqueuing _ => 1
  | .dropping => 1
  | _ => 0

@[simp] theorem heldTasks_holding : heldTasks .holding = 0 := rfl

@[simp] theorem heldTasks_enqueuing (kind : DlPduKind) : heldTasks (.enqueuing kind) = 1 := rfl

@[simp] theorem heldTasks_dropping : heldTasks .dropping = 1 := rfl

/-- The holder while PDUs are accepted. -/
def Holds (s : DownlinkProcessor) (context : Nat) (grid : Option Nat) : Prop :=
  match s.holder with
  | .none => False
  | .configuring context' grid' =>
    context' = context ∧ grid' = grid ∧ s.tasks = [] ∧ s.currentGrid = none
  | _ => s.currentGrid = grid ∧ s.rgContext = context

def Agrees (s : DownlinkProcessor) : DlPhase → Prop
  | .idle => s.statePendingPdus = statePendingPdusIdle ∧ s.holder = .none ∧ s.tasks = [] ∧
      s.senders = [] ∧ s.currentGrid = none
  | .stopped => s.statePendingPdus = maskStopped ∧ s.holder = .none ∧ s.tasks = [] ∧ s.senders = [] ∧
      s.currentGrid = none
  | .accepting context grid pending => s.statePendingPdus = maskAcceptingPdus + pending ∧
      pending = s.tasks.length + heldTasks s.holder ∧ s.senders = [] ∧ s.Holds context grid
  | .finishing context grid pending => s.statePendingPdus = pending ∧ pending = s.tasks.length ∧
      s.holder = .none ∧ s.senders = (if pending = 0 then [.toSend] else []) ∧
      s.currentGrid = grid ∧ s.rgContext = context
  | .sent => s.statePendingPdus = statePendingPdusFinishing ∧ s.holder = .none ∧ s.tasks = [] ∧
      s.senders = [.toNotify] ∧ s.currentGrid = none

/-- A processor whose history leads to a phase. -/
structure Inv (s : DownlinkProcessor) (phase : DlPhase) : Prop where
  replayed : Runs.runAll DlPhase.next .idle s.history = some phase
  agrees : s.Agrees phase
  /-- A running task has the current grid. -/
  grids : ∀ kind grid, .running kind grid ∈ s.tasks → grid = s.currentGrid
  few : s.tasks.length + heldTasks s.holder ≤ s.nofAllPdus
  capacities : ∀ kind, s.nofPdus kind ≤ kind.capacity

/-- The only failures: a step that no thread takes, and a full list of PDUs. -/
def Allowed (fault : DownlinkFault) : Prop := fault = .notEnabled ∨ fault = .pduListFull

variable {s s' : DownlinkProcessor} {phase phase' : DlPhase} {action : DlAction}

section
variable (h : s.Inv phase)
include h

theorem Inv.nofAllPdus_lt : s.nofAllPdus < 2 ^ 29 := by
  have hpdcch := h.capacities .pdcch
  have hpdsch := h.capacities .pdsch
  have hssb := h.capacities .ssb
  have hcsiRs := h.capacities .nzpCsiRs
  have hprs := h.capacities .prs
  simp only [DlPduKind.capacity, maxDlPdcchPdusPerSlot, maxUlPdcchPdusPerSlot, maxPdschPdusPerSlot,
    maxUePdusPerSlot] at hpdcch hpdsch hssb hcsiRs hprs
  rw [nofAllPdus]
  omega

theorem Inv.replayed_record (hnext : phase.next action = some phase') :
    Runs.runAll DlPhase.next .idle (s.history ++ [action]) = some phase' := by
  refine Runs.runAll_append h.replayed ?_
  rw [Runs.runAll, hnext]
  rfl

theorem Inv.accepting (hholder : s.holder ≠ .none) :
    ∃ context grid, phase = .accepting context grid (s.tasks.length + heldTasks s.holder) := by
  have hagrees := h.agrees
  cases phase with
  | accepting context grid pending => exact ⟨context, grid, by rw [hagrees.2.1]⟩
  | idle => exact absurd hagrees.2.1 hholder
  | stopped => exact absurd hagrees.2.1 hholder
  | finishing => exact absurd hagrees.2.2.1 hholder
  | sent => exact absurd hagrees.2.1 hholder

theorem Inv.pending (htasks : s.tasks ≠ []) :
    (∃ context grid, phase = .accepting context grid (s.tasks.length + heldTasks s.holder)) ∨
      ∃ context grid, phase = .finishing context grid s.tasks.length := by
  have hagrees := h.agrees
  cases phase with
  | accepting context grid pending => exact .inl ⟨context, grid, by rw [hagrees.2.1]⟩
  | finishing context grid pending => exact .inr ⟨context, grid, by rw [hagrees.2.1]⟩
  | idle => exact absurd hagrees.2.2.1 htasks
  | stopped => exact absurd hagrees.2.2.1 htasks
  | sent => exact absurd hagrees.2.2.1 htasks

theorem Inv.idle_of_state (hstate : s.statePendingPdus = statePendingPdusIdle) : phase = .idle := by
  have hagrees := h.agrees
  have hfew := h.few
  have hlt := h.nofAllPdus_lt
  cases phase with
  | idle => rfl
  | stopped => exact absurd (hagrees.1.symm.trans hstate) (by decide)
  | accepting context grid pending => exact absurd (hagrees.1.symm.trans hstate) (accepting_ne_idle _)
  | finishing context grid pending =>
    refine absurd (hagrees.1.symm.trans hstate) (finishing_ne_idle ?_)
    have := hagrees.2.1
    omega
  | sent => exact absurd (hagrees.1.symm.trans hstate) (by decide)

theorem Inv.configureResourceGrid (context : Nat) (grid : Option Nat) :
    Ensures Allowed (fun s' => ∃ phase', s'.Inv phase') (s.configureResourceGrid context grid) := by
  rw [DownlinkProcessor.configureResourceGrid]
  by_cases hstate : s.statePendingPdus = statePendingPdusIdle
  · have hphase := h.idle_of_state hstate
    subst hphase
    obtain ⟨-, hholder, htasks, hsenders, hgrid⟩ := h.agrees
    rw [reserveOnResourceGridConfigure, if_pos hstate]
    simp only [if_pos hholder]
    refine ⟨.accepting context grid 0, h.replayed_record rfl, ?_, h.grids, ?_, h.capacities⟩
    · exact ⟨rfl, by simp [record, htasks, heldTasks], hsenders, rfl, rfl, htasks, hgrid⟩
    · simp [record, htasks, heldTasks]
  · rw [reserve_ne_idle hstate]
    exact ⟨phase, h⟩

theorem Inv.storeGrid : Ensures Allowed (fun s' => ∃ phase', s'.Inv phase') s.storeGrid := by
  rw [DownlinkProcessor.storeGrid]
  split
  · rename_i context grid hholder
    obtain ⟨context', grid', rfl⟩ := h.accepting (by rw [hholder]; nofun)
    obtain ⟨hstate, hpending, hsenders, hholds⟩ := h.agrees
    rw [Holds, hholder] at hholds
    obtain ⟨rfl, rfl, htasks, hgrid⟩ := hholds
    rw [if_pos hgrid]
    have hzero : s.tasks.length + heldTasks s.holder = 0 := by rw [htasks, hholder]; rfl
    refine ⟨_, h.replayed, ⟨hstate, ?_, hsenders, rfl, rfl⟩, ?_, ?_, fun kind => Nat.zero_le _⟩
    · rw [hzero, htasks]
      rfl
    · simp [htasks]
    · simp [htasks, heldTasks]
  · exact .inl rfl

end

/-- The processor while its holder creates tasks. -/
structure Open (s : DownlinkProcessor) (context : Nat) (grid : Option Nat) (pending : Nat) : Prop where
  replayed : Runs.runAll DlPhase.next .idle s.history = some (.accepting context grid pending)
  state : s.statePendingPdus = maskAcceptingPdus + pending
  senders : s.senders = []
  currentGrid : s.currentGrid = grid
  rgContext : s.rgContext = context
  few : pending ≤ s.nofAllPdus

theorem Inv.opened (h : s.Inv phase) {holder : DlHolder} (hholder : s.holder = holder)
    (hne : holder ≠ .none) (hstored : ∀ context grid, holder ≠ .configuring context grid) :
    ∃ context grid, s.Open context grid (s.tasks.length + heldTasks holder) := by
  subst hholder
  obtain ⟨context, grid, rfl⟩ := h.accepting hne
  obtain ⟨hstate, -, hsenders, hholds⟩ := h.agrees
  rw [Holds] at hholds
  split at hholds
  · exact hholds.elim
  · rename_i hholder
    exact absurd hholder (hstored _ _)
  · exact ⟨context, grid, h.replayed, hstate, hsenders, hholds.1, hholds.2, h.few⟩

theorem Inv.createTask (h : s.Inv phase) (kind : DlPduKind) :
    Ensures Allowed (fun s' => ∃ phase', s'.Inv phase') (s.createTask kind) := by
  rw [DownlinkProcessor.createTask]
  by_cases hholder : s.holder = .holding
  · obtain ⟨context, grid, hopen⟩ := h.opened hholder nofun nofun
    rw [heldTasks_holding, Nat.add_zero] at hopen
    have hfew := hopen.few
    have hlt := h.nofAllPdus_lt
    rw [if_pos hholder, hopen.state, onTaskCreation_accepting (by omega), ok_bind]
    by_cases hroom : s.nofPdus kind < kind.capacity
    · rw [if_pos hroom]
      refine ⟨.accepting context grid (s.tasks.length + 1), Runs.runAll_append hopen.replayed rfl,
        ⟨rfl, rfl, hopen.senders, hopen.currentGrid, hopen.rgContext⟩, h.grids, ?_, ?_⟩
      · have hmore : s.nofAllPdus + 1 = nofAllPdus
            { s with nofPdus := Function.update s.nofPdus kind (s.nofPdus kind + 1) } := by
          cases kind <;> simp [nofAllPdus] <;> omega
        exact Nat.le_trans (Nat.succ_le_succ hfew) (Nat.le_of_eq hmore)
      · intro other
        show Function.update s.nofPdus kind (s.nofPdus kind + 1) other ≤ other.capacity
        rw [Function.update_apply]
        split
        · rename_i heq
          exact heq ▸ hroom
        · exact h.capacities other
    · rw [if_neg hroom]
      exact .inr rfl
  · rw [if_neg hholder]
    exact .inl rfl

theorem Inv.enqueueTask (h : s.Inv phase) (enqueued : Bool) :
    Ensures Allowed (fun s' => ∃ phase', s'.Inv phase') (s.enqueueTask enqueued) := by
  rw [DownlinkProcessor.enqueueTask]
  split
  · rename_i kind hholder
    obtain ⟨context, grid, hopen⟩ := h.opened hholder nofun nofun
    have hfew := hopen.few
    split
    · refine ⟨_, hopen.replayed, ⟨hopen.state, ?_, hopen.senders, hopen.currentGrid, hopen.rgContext⟩,
        ?_, ?_, h.capacities⟩
      · simp
      · intro kind' grid' hmem
        rcases List.mem_append.mp hmem with hmem | hnew
        · exact h.grids kind' grid' hmem
        · exact absurd (List.mem_singleton.mp hnew) nofun
      · rw [List.length_append]
        exact hfew
    · exact ⟨_, hopen.replayed, ⟨hopen.state, rfl, hopen.senders, hopen.currentGrid, hopen.rgContext⟩,
        h.grids, hfew, h.capacities⟩
  · exact .inl rfl

/-- A task that completes before the end of the configuration sends nothing. -/
theorem onTaskCompletion_early {n : Nat} (hstate : s.statePendingPdus = maskAcceptingPdus + (n + 1))
    (hlt : n + 1 < 2 ^ 30) :
    s.onTaskCompletion = .ok ({ s with statePendingPdus := maskAcceptingPdus + n }.record .completed) := by
  rw [onTaskCompletion, hstate, onTaskCompletion_accepting hlt, ok_bind]
  simp [record]

theorem onTaskCompletion_late {n : Nat} (hstate : s.statePendingPdus = n + 1) (hlt : n + 1 < 2 ^ 30) :
    s.onTaskCompletion = .ok ({ s with
      statePendingPdus := n
      senders := s.senders ++ if n = 0 then [SendStage.toSend] else [] }.record .completed) := by
  rw [onTaskCompletion, hstate, onTaskCompletion_finishing hlt, ok_bind]
  simp [record]

section
variable (h : s.Inv phase)
include h

theorem Inv.dropTask : Ensures Allowed (fun s' => ∃ phase', s'.Inv phase') s.dropTask := by
  rw [DownlinkProcessor.dropTask]
  by_cases hholder : s.holder = .dropping
  · obtain ⟨context, grid, hopen⟩ := h.opened hholder nofun nofun
    have hfew := hopen.few
    have hlt := h.nofAllPdus_lt
    rw [heldTasks_dropping] at hopen hfew
    have hstate : ({ s with holder := .holding } : DownlinkProcessor).statePendingPdus =
        maskAcceptingPdus + (s.tasks.length + 1) := hopen.state
    rw [if_pos hholder, onTaskCompletion_early hstate (by omega)]
    exact ⟨.accepting context grid s.tasks.length, Runs.runAll_append hopen.replayed rfl,
      ⟨rfl, rfl, hopen.senders, hopen.currentGrid, hopen.rgContext⟩, h.grids, Nat.le_of_succ_le hfew,
      h.capacities⟩
  · rw [if_neg hholder]
    exact .inl rfl

theorem Inv.finishProcessingPdus :
    Ensures Allowed (fun s' => ∃ phase', s'.Inv phase') s.finishProcessingPdus := by
  rw [DownlinkProcessor.finishProcessingPdus]
  by_cases hholder : s.holder = .holding
  · obtain ⟨context, grid, hopen⟩ := h.opened hholder nofun nofun
    rw [heldTasks_holding, Nat.add_zero] at hopen
    have hfew := hopen.few
    have hlt := h.nofAllPdus_lt
    rw [if_pos hholder, hopen.state, onFinishRequested_accepting (by omega), ok_bind]
    refine ⟨.finishing context grid s.tasks.length, Runs.runAll_append hopen.replayed rfl,
      ⟨rfl, rfl, rfl, ?_, hopen.currentGrid, hopen.rgContext⟩, h.grids, hfew, h.capacities⟩
    simp [record, hopen.senders]
  · rw [if_neg hholder]
    exact .inl rfl

theorem Inv.startTask (index : Nat) :
    Ensures Allowed (fun s' => ∃ phase', s'.Inv phase') (s.startTask index) := by
  rw [DownlinkProcessor.startTask]
  split
  · rename_i kind htask
    have hlength : (s.tasks.set index (.running kind s.currentGrid)).length = s.tasks.length :=
      List.length_set
    have hgrids : ∀ kind' grid', .running kind' grid' ∈ s.tasks.set index (.running kind s.currentGrid) →
        grid' = s.currentGrid := by
      intro kind' grid' hmem
      rcases List.mem_or_eq_of_mem_set hmem with hold | hnew
      · exact h.grids kind' grid' hold
      · cases hnew
        rfl
    have hfew := h.few
    rw [← hlength] at hfew
    have hne : s.tasks ≠ [] := List.ne_nil_of_mem (List.mem_of_getElem? htask)
    have hagrees := h.agrees
    rcases h.pending hne with ⟨context, grid, rfl⟩ | ⟨context, grid, rfl⟩
    · obtain ⟨hstate, hpending, hsenders, hholds⟩ := hagrees
      refine ⟨_, h.replayed, ⟨hstate, by rw [hlength], hsenders, ?_⟩, hgrids, hfew, h.capacities⟩
      rw [Holds] at hholds ⊢
      split at hholds
      · exact hholds.elim
      · exact absurd hholds.2.2.1 hne
      · exact hholds
    · obtain ⟨hstate, -, hholder, hsenders, hgrid, hcontext⟩ := hagrees
      exact ⟨_, h.replayed, ⟨hstate, hlength.symm, hholder, hsenders, hgrid, hcontext⟩, hgrids, hfew,
        h.capacities⟩
  · exact .inl rfl

theorem Inv.writeGrid (index : Nat) :
    Ensures Allowed (fun s' => ∃ phase', s'.Inv phase') (s.writeGrid index) := by
  rw [DownlinkProcessor.writeGrid]
  split
  · rename_i kind grid htask
    have hmem := List.mem_of_getElem? htask
    have hgrid : s.currentGrid = some grid := (h.grids kind _ hmem).symm
    have hne : s.tasks ≠ [] := List.ne_nil_of_mem hmem
    obtain ⟨n, hn⟩ := Nat.exists_eq_succ_of_ne_zero (mt List.length_eq_zero_iff.mp hne)
    have hagrees := h.agrees
    rw [if_pos hgrid]
    rcases h.pending hne with ⟨context, grid', rfl⟩ | ⟨context, grid', rfl⟩
    · have hstored : grid' = some grid := by
        have hholds := hagrees.2.2.2
        rw [Holds] at hholds
        split at hholds
        · exact hholds.elim
        · exact absurd hholds.2.2.1 hne
        · exact hholds.1.symm.trans hgrid
      refine ⟨.accepting context grid' (s.tasks.length + heldTasks s.holder), h.replayed_record ?_,
        hagrees, h.grids, h.few, h.capacities⟩
      rw [hn, Nat.succ_add, DlPhase.next, if_pos hstored]
    · have hstored : grid' = some grid := hagrees.2.2.2.2.1.symm.trans hgrid
      refine ⟨.finishing context grid' s.tasks.length, h.replayed_record ?_, hagrees, h.grids, h.few,
        h.capacities⟩
      rw [hn, DlPhase.next, if_pos hstored]
  · exact .inl rfl

theorem Inv.completeTask (index : Nat) :
    Ensures Allowed (fun s' => ∃ phase', s'.Inv phase') (s.completeTask index) := by
  rw [DownlinkProcessor.completeTask]
  split
  · rename_i kind grid htask
    have hne : s.tasks ≠ [] := List.ne_nil_of_mem (List.mem_of_getElem? htask)
    have hindex : index < s.tasks.length := (List.getElem?_eq_some_iff.mp htask).1
    have hlength : s.tasks.length = (s.tasks.eraseIdx index).length + 1 := by
      rw [List.length_eraseIdx_of_lt hindex]
      omega
    have hgrids : ∀ kind' grid', .running kind' grid' ∈ s.tasks.eraseIdx index → grid' = s.currentGrid :=
      fun kind' grid' hmem => h.grids kind' grid' (List.mem_of_mem_eraseIdx hmem)
    have hfew := h.few
    have hlt := h.nofAllPdus_lt
    have hagrees := h.agrees
    rcases h.pending hne with ⟨context, grid', rfl⟩ | ⟨context, grid', rfl⟩
    · obtain ⟨hstate, -, hsenders, hholds⟩ := hagrees
      have hreplayed := h.replayed
      rw [hlength, Nat.add_right_comm] at hreplayed hstate hfew
      have hcompleted := onTaskCompletion_early (s := { s with tasks := s.tasks.eraseIdx index }) hstate
        (by omega)
      rw [hcompleted]
      refine ⟨.accepting context grid' ((s.tasks.eraseIdx index).length + heldTasks s.holder),
        Runs.runAll_append hreplayed rfl, ⟨rfl, rfl, hsenders, ?_⟩, hgrids, Nat.le_of_succ_le hfew,
        h.capacities⟩
      rw [Holds] at hholds
      split at hholds
      · exact hholds.elim
      · exact absurd hholds.2.2.1 hne
      · rename_i hnone hconfiguring
        rw [Holds]
        split
        · rename_i hholder
          exact hnone hholder
        · rename_i hholder
          exact absurd hholder (hconfiguring _ _)
        · exact hholds
    · obtain ⟨hstate, -, hholder, hsenders, hgrid, hcontext⟩ := hagrees
      have hreplayed := h.replayed
      rw [hholder] at hfew
      rw [hlength] at hreplayed hstate hfew hsenders
      have hcompleted := onTaskCompletion_late (s := { s with tasks := s.tasks.eraseIdx index }) hstate
        (Nat.lt_of_le_of_lt hfew (Nat.lt_trans hlt (by decide)))
      rw [hcompleted]
      refine ⟨.finishing context grid' (s.tasks.eraseIdx index).length, Runs.runAll_append hreplayed rfl,
        ⟨rfl, rfl, hholder, ?_, hgrid, hcontext⟩, hgrids, ?_, h.capacities⟩
      · simp [record, hsenders]
      · simp only [record, hholder]
        exact Nat.le_of_succ_le hfew
  · exact .inl rfl

/-- What is done with the grid when no task is left shows in the phase. -/
theorem Inv.sending {index : Nat} {stage : SendStage} (hsender : s.senders[index]? = some stage) :
    s.senders = [stage] ∧ index = 0 ∧
      (stage = .toSend ∧ (∃ context grid, phase = .finishing context grid 0) ∨ stage = .toNotify ∧ phase = .sent) := by
  have hone : ∀ stage', s.senders = [stage'] → s.senders = [stage] ∧ index = 0 ∧ stage = stage' := by
    intro stage' hsenders
    rw [hsenders, List.getElem?_singleton] at hsender
    split at hsender
    · cases hsender
      exact ⟨hsenders, ‹_›, rfl⟩
    · cases hsender
  have hnone : s.senders ≠ [] := fun hsenders => by rw [hsenders] at hsender; cases hsender
  have hagrees := h.agrees
  cases phase with
  | idle => exact absurd hagrees.2.2.2.1 hnone
  | stopped => exact absurd hagrees.2.2.2.1 hnone
  | accepting => exact absurd hagrees.2.2.1 hnone
  | finishing context grid pending =>
    have hsenders := hagrees.2.2.2.1
    split at hsenders
    · rename_i hzero
      subst hzero
      obtain ⟨hsingle, hindex, hstage⟩ := hone _ hsenders
      exact ⟨hsingle, hindex, .inl ⟨hstage, context, grid, rfl⟩⟩
    · exact absurd hsenders hnone
  | sent =>
    obtain ⟨hsingle, hindex, hstage⟩ := hone _ hagrees.2.2.2.1
    exact ⟨hsingle, hindex, .inr ⟨hstage, rfl⟩⟩

theorem Inv.sendGrid (index : Nat) :
    Ensures Allowed (fun s' => ∃ phase', s'.Inv phase') (s.sendGrid index) := by
  rw [DownlinkProcessor.sendGrid]
  split
  · rename_i hsender
    obtain ⟨hsenders, rfl, ⟨-, context, grid, rfl⟩ | ⟨hstage, -⟩⟩ := h.sending hsender
    · obtain ⟨hstate, hpending, hholder, -, hgrid, hcontext⟩ := h.agrees
      have htasks := List.length_eq_zero_iff.mp hpending.symm
      refine ⟨.sent, h.replayed_record ?_, ⟨hstate, hholder, htasks, ?_, rfl⟩, ?_, h.few, h.capacities⟩
      · rw [DlPhase.next, if_pos ⟨hcontext, hgrid⟩]
      · simp [record, hsenders]
      · simp [record, htasks]
    · cases hstage
  · exact .inl rfl

theorem Inv.notifyGridSent (index : Nat) :
    Ensures Allowed (fun s' => ∃ phase', s'.Inv phase') (s.notifyGridSent index) := by
  rw [DownlinkProcessor.notifyGridSent]
  split
  · rename_i hsender
    obtain ⟨hsenders, rfl, ⟨hstage, -⟩ | ⟨-, rfl⟩⟩ := h.sending hsender
    · cases hstage
    · obtain ⟨hstate, hholder, htasks, -, hgrid⟩ := h.agrees
      rw [onGridSent, if_pos hstate, ok_bind]
      exact ⟨.idle, h.replayed_record rfl, ⟨rfl, hholder, htasks, by simp [record, hsenders], hgrid⟩,
        h.grids, h.few, h.capacities⟩
  · exact .inl rfl

theorem Inv.stop : Ensures Allowed (fun s' => ∃ phase', s'.Inv phase') s.stop := by
  rw [DownlinkProcessor.stop]
  by_cases hstate : s.statePendingPdus = statePendingPdusIdle
  · have hphase := h.idle_of_state hstate
    subst hphase
    obtain ⟨-, hholder, htasks, hsenders, hgrid⟩ := h.agrees
    rw [DownlinkProcessorState.stop, if_pos hstate]
    exact ⟨.stopped, h.replayed_record rfl, ⟨rfl, hholder, htasks, hsenders, hgrid⟩, h.grids, h.few,
      h.capacities⟩
  · rw [DownlinkProcessorState.stop, if_neg hstate]
    exact ⟨phase, h⟩

theorem Inv.step (event : DlEvent) :
    Ensures Allowed (fun s' => ∃ phase', s'.Inv phase') (s.step event) := by
  cases event with
  | configureResourceGrid context grid => exact h.configureResourceGrid context grid
  | storeGrid => exact h.storeGrid
  | createTask kind => exact h.createTask kind
  | enqueueTask enqueued => exact h.enqueueTask enqueued
  | dropTask => exact h.dropTask
  | finishProcessingPdus => exact h.finishProcessingPdus
  | startTask index => exact h.startTask index
  | writeGrid index => exact h.writeGrid index
  | completeTask index => exact h.completeTask index
  | sendGrid index => exact h.sendGrid index
  | notifyGridSent index => exact h.notifyGridSent index
  | stop => exact h.stop

end

/-- The hand-over of grids, as it stands in `s`. -/
structure HandOver (s : DownlinkProcessor) : Prop where
  /-- The history is one of the phases, which the state word shows. -/
  followed : ∃ phase, Runs.runAll DlPhase.next .idle s.history = some phase ∧
    (s.statePendingPdus = statePendingPdusIdle ↔ phase = .idle) ∧
    (s.statePendingPdus = maskStopped ↔ phase = .stopped)
  /-- At most the last grid is yet to be sent. -/
  gateway : ∃ last, configuredGrids s.history = sentGrids s.history ++ last ∧ last.length ≤ 1 ∧
    (s.statePendingPdus = statePendingPdusIdle ∨ s.statePendingPdus = maskStopped → last = [])
  /-- No assertion on the state fails, no configuration finds a grid, and no task misses its grid. -/
  safe : ∀ event fault, s.step event = .error fault → fault = .notEnabled ∨ fault = .pduListFull
  /-- When the holder has finished and all threads are done, the grid has been sent. -/
  settled : s.holder = .none → s.tasks = [] → s.senders = [] →
    s.statePendingPdus = statePendingPdusIdle ∨ s.statePendingPdus = maskStopped
  again : s.statePendingPdus = statePendingPdusIdle → ∀ context grid, ∃ s',
    s.configureResourceGrid context grid >>= DownlinkProcessor.storeGrid = .ok s' ∧
      s'.holder = .holding ∧ s'.currentGrid = grid ∧ s'.rgContext = context
  blocked : .stopped ∈ s.history → ∀ context grid, s.configureResourceGrid context grid = .ok s

theorem Inv.stopped_of_state (h : s.Inv phase) (hstate : s.statePendingPdus = maskStopped) :
    phase = .stopped := by
  have hagrees := h.agrees
  have hfew := h.few
  have hlt := h.nofAllPdus_lt
  cases phase with
  | stopped => rfl
  | idle => exact absurd (hagrees.1.symm.trans hstate) (by decide)
  | accepting context grid pending => exact absurd (hagrees.1.symm.trans hstate) (accepting_ne_stopped _)
  | finishing context grid pending =>
    refine absurd (hagrees.1.symm.trans hstate) (finishing_ne_stopped ?_)
    have := hagrees.2.1
    omega
  | sent => exact absurd (hagrees.1.symm.trans hstate) (by decide)

theorem Inv.settled (h : s.Inv phase) (hholder : s.holder = .none) (htasks : s.tasks = [])
    (hsenders : s.senders = []) :
    s.statePendingPdus = statePendingPdusIdle ∨ s.statePendingPdus = maskStopped := by
  have hagrees := h.agrees
  cases phase with
  | idle => exact .inl hagrees.1
  | stopped => exact .inr hagrees.1
  | accepting context grid pending =>
    have hholds := hagrees.2.2.2
    rw [Holds, hholder] at hholds
    exact hholds.elim
  | finishing context grid pending =>
    have hzero : pending = 0 := by rw [hagrees.2.1, htasks, List.length_nil]
    exact absurd (hsenders.symm.trans hagrees.2.2.2.1) (by simp [hzero])
  | sent => exact absurd (hsenders.symm.trans hagrees.2.2.2.1) nofun

theorem Inv.configured (h : s.Inv .idle) (context : Nat) (grid : Option Nat) :
    ∃ s', s.configureResourceGrid context grid >>= DownlinkProcessor.storeGrid = .ok s' ∧
      s'.holder = .holding ∧ s'.currentGrid = grid ∧ s'.rgContext = context := by
  obtain ⟨hstate, hholder, -, -, hgrid⟩ := h.agrees
  have hstored : s.configureResourceGrid context grid =
      .ok ({ s with
        statePendingPdus := maskAcceptingPdus
        holder := .configuring context grid }.record (.configured context grid)) := by
    simp [DownlinkProcessor.configureResourceGrid, reserveOnResourceGridConfigure, hstate, hholder]
  rw [hstored, ok_bind, DownlinkProcessor.storeGrid]
  simp [record, hgrid]

theorem Inv.handOver (h : s.Inv phase) : s.HandOver where
  followed := ⟨phase, h.replayed, ⟨h.idle_of_state, fun hphase => (hphase ▸ h.agrees).1⟩,
    ⟨h.stopped_of_state, fun hphase => (hphase ▸ h.agrees).1⟩⟩
  gateway := by
    refine ⟨phase.current, DlPhase.configured_eq h.replayed, ?_, ?_⟩
    · cases phase with
      | accepting _ grid _ => cases grid <;> simp [DlPhase.current, DlPhase.withContext]
      | finishing _ grid _ => cases grid <;> simp [DlPhase.current, DlPhase.withContext]
      | _ => simp [DlPhase.current]
    · rintro (hidle | hstopped)
      · rw [h.idle_of_state hidle, DlPhase.current] <;> nofun
      · rw [h.stopped_of_state hstopped, DlPhase.current] <;> nofun
  safe := fun event _ herror => (h.step event).failure herror
  settled := h.settled
  again := fun hidle => (h.idle_of_state hidle ▸ h).configured
  blocked := by
    intro hstopped context grid
    have hphase := DlPhase.stopped_of_mem h.replayed hstopped
    subst hphase
    rw [DownlinkProcessor.configureResourceGrid, reserve_ne_idle]
    rw [h.agrees.1]
    decide

theorem Inv.start : ({} : DownlinkProcessor).Inv .idle where
  replayed := rfl
  agrees := ⟨rfl, rfl, rfl, rfl, rfl⟩
  grids := nofun
  few := Nat.zero_le _
  capacities := fun _ => Nat.zero_le _

end DownlinkProcessor

end Srsran.Phy
