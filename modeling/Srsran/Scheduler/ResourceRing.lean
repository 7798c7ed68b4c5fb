import Mathlib.Data.List.Induction
import Srsran.Scheduler.ResourceGrid

/-! The ring of slot resources behaves as one context for each slot, from the start of time on. -/
namespace Srsran.Scheduler
open Ran

variable {G : Type} {cfg : CellGridConfig}

/-- What was done to each slot since the cell was started. Slots are numbered on, without wrap-around. -/
structure CellPlan (G : Type) where
  first : Nat
  last : Nat
  made : Nat → List (SlotAction G)

namespace CellPlan
variable (cfg)

def entered (slot : SlotPoint) : CellSlotResourceAllocator G where
  slot := slot
  result := {
    success := true
    nofDlSymbols := cfg.nofDlSymbolPerSlot slot
    nofUlSymbols := cfg.nofUlSymbolPerSlot slot
    grants := fun _ => []
    failedPdcch := 0
    failedUci := 0 }
  dlResGrid := fun _ _ _ => false
  ulResGrid := fun _ _ _ => false

/-- The context of a slot: what was done to it, from its entry on. -/
def context (plan : CellPlan G) (t : Nat) : CellSlotResourceAllocator G :=
  (plan.made t).foldl CellSlotResourceAllocator.apply (entered cfg (.ofSlot cfg.numerology t))

def start (slTx : SlotPoint) : Option (Option (CellPlan G)) :=
  if slTx.numerology = cfg.numerology ∧ slTx.count < nofSlotsPerHyperSystemFrame cfg.numerology then
    let first := nofSlotsPerHyperSystemFrame cfg.numerology + slTx.count
    some (some { first := first, last := first, made := fun _ => [] })
  else none

def allocate (plan : CellPlan G) (slotDelay : Nat) (action : SlotAction G) : CellPlan G :=
  { plan with
    made := Function.update plan.made (plan.last + slotDelay)
      (plan.made (plan.last + slotDelay) ++ [action]) }

/-- Slots are indicated one after the other, and allocated within the delay. -/
def next : Option (CellPlan G) → ResourceEvent G → Option (Option (CellPlan G))
  | none, .slotIndication slTx => start cfg slTx
  | some plan, .slotIndication slTx =>
    if slTx = .ofSlot cfg.numerology (plan.last + 1) then some (some { plan with last := plan.last + 1 })
    else none
  | some plan, .allocate slotDelay action =>
    if slotDelay ≤ cfg.maxUlSlotAllocDelay then some (some (plan.allocate slotDelay action)) else none
  | none, .allocate _ _ => none
  | _, .stop => some none

end CellPlan

namespace SlotAction

def fills (isDl : Bool) (scs symbol crb : Nat) : SlotAction G → Bool
  | .fill dl grant =>
    dl == isDl && (scs == grant.scs && grant.symbols.contains symbol && grant.crbs.contains crb)
  | .fillCrbs dl grantScs symbols crbs =>
    dl == isDl && (scs == grantScs && symbols.contains symbol && crbs.contains crb)
  | _ => false

def clears (isDl : Bool) (scs symbol crb : Nat) : SlotAction G → Bool
  | .clearCrbs dl grantScs symbols crbs =>
    dl == isDl && (scs == grantScs && symbols.contains symbol && crbs.contains crb)
  | _ => false

def editOf (kind : GrantKind) : SlotAction G → Option (List G → List G)
  | .addGrant kind' grant => if kind = kind' then some (· ++ [grant]) else none
  | .editGrants kind' edit => if kind = kind' then some edit else none
  | _ => none

def isFailedPdcch : SlotAction G → Bool
  | .failedPdcch => true
  | _ => false

def isFailedUci : SlotAction G → Bool
  | .failedUci => true
  | _ => false

end SlotAction

/-- An action filled the CRB in the symbol, and no later one cleared it. -/
def IsFilled (made : List (SlotAction G)) (isDl : Bool) (scs symbol crb : Nat) : Prop :=
  ∃ before action after, made = before ++ action :: after ∧ action.fills isDl scs symbol crb = true ∧
    ∀ later ∈ after, later.clears isDl scs symbol crb = false

def CellSlotResourceAllocator.grid (r : CellSlotResourceAllocator G) (isDl : Bool) : CellSlotResourceGrid :=
  if isDl then r.dlResGrid else r.ulResGrid

/-- The resources of the slot `t` are what these actions make of it, one by one, and nothing else. -/
structure CellSlotResourceAllocator.Holds (cfg : CellGridConfig) (t : Nat) (made : List (SlotAction G))
    (r : CellSlotResourceAllocator G) : Prop where
  slot : r.slot = .ofSlot cfg.numerology t
  success : r.result.success = true
  nofDlSymbols : r.result.nofDlSymbols = cfg.nofDlSymbolPerSlot r.slot
  nofUlSymbols : r.result.nofUlSymbols = cfg.nofUlSymbolPerSlot r.slot
  grants : ∀ kind, r.result.grants kind =
    (made.filterMap (SlotAction.editOf kind)).foldl (fun grants edit => edit grants) []
  failedPdcch : r.result.failedPdcch = made.countP SlotAction.isFailedPdcch
  failedUci : r.result.failedUci = made.countP SlotAction.isFailedUci
  grid : ∀ isDl scs symbol crb, r.grid isDl scs symbol crb = true ↔ IsFilled made isDl scs symbol crb

/-- Configurations whose ring fits a hyper system frame; the HARQ history takes offsets up to 512 only. -/
structure CellGridConfig.Valid (cfg : CellGridConfig) : Prop where
  numerology : cfg.numerology < nofNumerologies
  koffset : cfg.ntnCsKoffset ≤ 10192

namespace CellGridConfig.Valid
variable (h : cfg.Valid)
include h

theorem ringMin_le : ringMaxHistorySize + getMaxSlotUlAllocDelay cfg.ntnCsKoffset ≤ 10240 := by
  have hkoffset := h.koffset
  simp only [ringMaxHistorySize, getMaxSlotUlAllocDelay, schedulerMaxK0, schedulerMaxK1, schedulerMaxK2,
    maxMsg3Delta]
  omega

theorem ringSize_dvd_cycle : cfg.ringSize ∣ nofSlotsPerHyperSystemFrame cfg.numerology :=
  ringSize_dvd h.ringMin_le cfg.numerology

theorem ringSize_lt : cfg.ringSize < 2 ^ 31 := by
  have hle := Nat.le_of_dvd
    (Nat.lt_of_lt_of_le (by decide) (le_nofSlotsPerHyperSystemFrame cfg.numerology)) h.ringSize_dvd_cycle
  have hcycle := SlotPoint.nofSlotsPerHyperSystemFrame_le h.numerology
  omega

theorem ringPos_ofSlot (t : Nat) :
    CellResourceAllocator.ringPos cfg (.ofSlot cfg.numerology t) = t % cfg.ringSize :=
  slotCount_mod h.ringSize_dvd_cycle t

end CellGridConfig.Valid

theorem CellGridConfig.le_ringSize (cfg : CellGridConfig) :
    ringMaxHistorySize + cfg.maxUlSlotAllocDelay ≤ cfg.ringSize :=
  le_getAllocatorRingSizeGtMin _

theorem CellSlotResourceAllocator.slotIndication_eq (r : CellSlotResourceAllocator G) (slot : SlotPoint) :
    r.slotIndication cfg slot = CellPlan.entered cfg slot := rfl

/-- Actions leave what the indication set. -/
theorem CellSlotResourceAllocator.fixed_apply (r : CellSlotResourceAllocator G) (action : SlotAction G) :
    (r.apply action).slot = r.slot ∧ (r.apply action).result.success = r.result.success ∧
      (r.apply action).result.nofDlSymbols = r.result.nofDlSymbols ∧
      (r.apply action).result.nofUlSymbols = r.result.nofUlSymbols := by
  cases action with
  | fill isDl | fillCrbs isDl | clearCrbs isDl => cases isDl <;> exact ⟨rfl, rfl, rfl, rfl⟩
  | _ => exact ⟨rfl, rfl, rfl, rfl⟩

theorem isFilled_concat {made : List (SlotAction G)} {action : SlotAction G} {isDl : Bool}
    {scs symbol crb : Nat} : IsFilled (made ++ [action]) isDl scs symbol crb ↔
      action.fills isDl scs symbol crb = true ∨
        IsFilled made isDl scs symbol crb ∧ action.clears isDl scs symbol crb = false := by
  constructor
  · rintro ⟨before, filling, after, hsplit, hfills, hkept⟩
    cases after using List.reverseRecOn with
    | nil =>
      obtain ⟨-, hlast⟩ := List.append_inj' hsplit rfl
      cases hlast
      exact .inl hfills
    | append_singleton after last =>
      rw [← List.cons_append, ← List.append_assoc] at hsplit
      obtain ⟨rfl, hlast⟩ := List.append_inj' hsplit rfl
      cases hlast
      rw [List.forall_mem_append, List.forall_mem_singleton] at hkept
      exact .inr ⟨⟨before, filling, after, rfl, hfills, hkept.1⟩, hkept.2⟩
  · rintro (hfills | ⟨⟨before, filling, after, rfl, hfills, hkept⟩, hlast⟩)
    · exact ⟨made, action, [], rfl, hfills, fun _ hmem => absurd hmem List.not_mem_nil⟩
    · refine ⟨before, filling, after ++ [action], by simp, hfills, ?_⟩
      rw [List.forall_mem_append, List.forall_mem_singleton]
      exact ⟨hkept, hlast⟩

namespace CellSlotResourceAllocator
variable {r : CellSlotResourceAllocator G} {made : List (SlotAction G)} {t : Nat}

theorem grid_apply (action : SlotAction G) (isDl : Bool) (scs symbol crb : Nat) :
    (r.apply action).grid isDl scs symbol crb = true ↔ action.fills isDl scs symbol crb = true ∨
      r.grid isDl scs symbol crb = true ∧ action.clears isDl scs symbol crb = false := by
  cases action with
  | fill dl | fillCrbs dl =>
    cases dl <;> cases isDl <;> simp [apply, editGrid, grid, CellSlotResourceGrid.fill,
      CellSlotResourceGrid.fillCrbs, SlotAction.fills, SlotAction.clears, or_comm]
  | clearCrbs dl =>
    cases dl <;> cases isDl <;> simp [apply, editGrid, grid, CellSlotResourceGrid.clearCrbs,
      SlotAction.fills, SlotAction.clears] <;> grind
  | _ => simp [apply, editGrants, grid, SlotAction.fills, SlotAction.clears]

theorem grants_apply (action : SlotAction G) (kind : GrantKind) : (r.apply action).result.grants kind =
    (action.editOf kind).elim (r.result.grants kind) fun edit => edit (r.result.grants kind) := by
  cases action with
  | addGrant kind' => by_cases h : kind = kind' <;> simp [apply, editGrants, SlotAction.editOf, h]
  | editGrants kind' => by_cases h : kind = kind' <;> simp [apply, editGrants, SlotAction.editOf, h]
  | fill isDl | fillCrbs isDl | clearCrbs isDl => cases isDl <;> rfl
  | _ => rfl

theorem Holds.apply (h : Holds cfg t made r) (action : SlotAction G) :
    Holds cfg t (made ++ [action]) (r.apply action) where
  slot := (r.fixed_apply action).1.trans h.slot
  success := (r.fixed_apply action).2.1.trans h.success
  nofDlSymbols := by rw [(r.fixed_apply action).1, (r.fixed_apply action).2.2.1, h.nofDlSymbols]
  nofUlSymbols := by rw [(r.fixed_apply action).1, (r.fixed_apply action).2.2.2, h.nofUlSymbols]
  grants kind := by
    rw [grants_apply, List.filterMap_append, List.foldl_append, ← h.grants]
    cases hedit : action.editOf kind <;> simp [hedit]
  failedPdcch := by
    rw [List.countP_append, ← h.failedPdcch]
    cases action with
    | fill isDl | fillCrbs isDl | clearCrbs isDl => cases isDl <;> rfl
    | _ => rfl
  failedUci := by
    rw [List.countP_append, ← h.failedUci]
    cases action with
    | fill isDl | fillCrbs isDl | clearCrbs isDl => cases isDl <;> rfl
    | _ => rfl
  grid isDl scs symbol crb := by rw [grid_apply, isFilled_concat, h.grid]

end CellSlotResourceAllocator

theorem not_isFilled_nil {isDl : Bool} {scs symbol crb : Nat} :
    ¬IsFilled ([] : List (SlotAction G)) isDl scs symbol crb := by
  rintro ⟨before, action, after, hsplit, -⟩
  exact absurd hsplit.symm (List.append_ne_nil_of_right_ne_nil _ (List.cons_ne_nil _ _))

namespace CellPlan
variable {plan : CellPlan G} {t : Nat}

theorem entered_holds (t : Nat) :
    (entered cfg (.ofSlot cfg.numerology t) : CellSlotResourceAllocator G).Holds cfg t [] where
  slot := rfl
  success := rfl
  nofDlSymbols := rfl
  nofUlSymbols := rfl
  grants _ := rfl
  failedPdcch := rfl
  failedUci := rfl
  grid isDl _ _ _ := iff_of_false (by cases isDl <;> exact Bool.false_ne_true) not_isFilled_nil

theorem context_holds (plan : CellPlan G) (t : Nat) : (plan.context cfg t).Holds cfg t (plan.made t) := by
  rw [context]
  induction plan.made t using List.reverseRecOn with
  | nil => exact entered_holds t
  | append_singleton made action ih =>
    rw [List.foldl_append]
    exact ih.apply action

theorem slot_context (plan : CellPlan G) (t : Nat) :
    (plan.context cfg t).slot = .ofSlot cfg.numerology t := (plan.context_holds t).slot

theorem context_of_nil (h : plan.made t = []) :
    plan.context cfg t = entered cfg (.ofSlot cfg.numerology t) := by
  rw [context, h, List.foldl_nil]

theorem context_allocate (plan : CellPlan G) (slotDelay : Nat) (action : SlotAction G) :
    (plan.allocate slotDelay action).context cfg =
      Function.update (plan.context cfg) (plan.last + slotDelay)
        ((plan.context cfg (plan.last + slotDelay)).apply action) := by
  funext t
  by_cases ht : t = plan.last + slotDelay
  · subst ht
    simp [context, allocate]
  · simp [context, allocate, ht]

end CellPlan

namespace CellResourceAllocator
variable {s s' : CellResourceAllocator G} {plan : CellPlan G}

theorem indicate_ofSlot (h : cfg.Valid) (slots : Nat → CellSlotResourceAllocator G) (t t' : Nat) :
    indicate cfg slots (.ofSlot cfg.numerology t) (.ofSlot cfg.numerology t') =
      Function.update slots (t % cfg.ringSize) (CellPlan.entered cfg (.ofSlot cfg.numerology t')) := by
  rw [indicate, h.ringPos_ofSlot, CellSlotResourceAllocator.slotIndication_eq]

theorem slots_start (h : cfg.Valid) (slots : Nat → CellSlotResourceAllocator G) (t : Nat) {n : Nat}
    (hn : n ≤ cfg.ringSize) : ∀ i, i < n →
    (List.range n).foldl (fun slots i => indicate cfg slots ((SlotPoint.ofSlot cfg.numerology t).add i)
      ((SlotPoint.ofSlot cfg.numerology t).add i)) slots ((t + i) % cfg.ringSize) =
      CellPlan.entered cfg (.ofSlot cfg.numerology (t + i)) := by
  induction n with
  | zero => nofun
  | succ n ih =>
    intro i hi
    have hsize := h.ringSize_lt
    rw [List.range_succ, List.foldl_append, List.foldl_cons, List.foldl_nil,
      SlotPoint.add_ofSlot h.numerology (by omega), indicate_ofSlot h]
    by_cases hlast : i = n
    · rw [hlast, Function.update_self]
    · have hne : (t + i) % cfg.ringSize ≠ (t + n) % cfg.ringSize := fun hmod => hlast
        (Nat.add_left_cancel (ModOrder.mod_inj_of_near (Nat.le_add_right t i) (by omega)
          (Nat.le_add_right t n) (by omega) hmod))
      rw [Function.update_of_ne hne]
      exact ih (by omega) i (by omega)

def oldest (plan : CellPlan G) : Nat := max plan.first (plan.last + 1 - ringMaxHistorySize)

/-- The ring holds a plan. -/
structure Follows (cfg : CellGridConfig) (s : CellResourceAllocator G) (plan : CellPlan G) : Prop where
  lastSlotInd : s.lastSlotInd = .ofSlot cfg.numerology plan.last
  first : plan.first ≤ plan.last
  started : ringMaxHistorySize ≤ plan.first
  /-- Nothing is done ahead of the delay. -/
  future : ∀ t, plan.last + cfg.maxUlSlotAllocDelay < t → plan.made t = []
  window : Ring.Window s.slots cfg.ringSize (oldest plan) (plan.context cfg)

def Inv (cfg : CellGridConfig) (s : CellResourceAllocator G) : Option (CellPlan G) → Prop
  | none => s.lastSlotInd = .invalid
  | some plan => s.Follows cfg plan

section
variable (h : s.Follows cfg plan)
include h

theorem Follows.slot_eq {t : Nat} (hold : oldest plan ≤ t)
    (hnew : t ≤ plan.last + cfg.maxUlSlotAllocDelay) :
    s.slots (t % cfg.ringSize) = plan.context cfg t := by
  have hsize := cfg.le_ringSize
  refine h.window t hold ?_
  rw [oldest]
  rw [ringMaxHistorySize] at hsize ⊢
  omega

theorem Follows.oldest_le : oldest plan ≤ plan.last := by
  have hfirst := h.first
  rw [oldest, ringMaxHistorySize]
  omega

theorem Follows.valid (hcfg : cfg.Valid) : s.lastSlotInd.valid = true := by
  rw [h.lastSlotInd]
  exact SlotPoint.ofSlot_valid hcfg.numerology plan.last

theorem Follows.add (hcfg : cfg.Valid) {jump : Nat} (hjump : jump ≤ cfg.ringSize) :
    s.lastSlotInd.add jump = .ofSlot cfg.numerology (plan.last + jump) := by
  have hsize := hcfg.ringSize_lt
  rw [h.lastSlotInd, SlotPoint.add_ofSlot hcfg.numerology (by omega)]

end

theorem CellGridConfig.delay_le {delay : Nat} (h : delay ≤ cfg.maxUlSlotAllocDelay) :
    delay ≤ cfg.ringSize :=
  h.trans ((Nat.le_add_left _ _).trans cfg.le_ringSize)

theorem Follows.atDelay (h : s.Follows cfg plan) (hcfg : cfg.Valid) {delay : Nat}
    (hdelay : delay ≤ cfg.maxUlSlotAllocDelay) :
    s.atDelay cfg delay = .ok (plan.context cfg (plan.last + delay)) := by
  have hslot := h.slot_eq (h.oldest_le.trans (Nat.le_add_right _ delay)) (Nat.add_le_add_left hdelay _)
  rw [CellResourceAllocator.atDelay, if_pos hdelay, h.add hcfg (CellGridConfig.delay_le hdelay)]
  simp only [hcfg.ringPos_ofSlot, hslot]
  rw [if_pos (plan.slot_context _)]

theorem Follows.getHistory (h : s.Follows cfg plan) (hcfg : cfg.Valid) {back : Nat}
    (hback : back < ringMaxHistorySize) (hrun : plan.first + back ≤ plan.last) :
    s.getHistory cfg (.ofSlot cfg.numerology (plan.last - back)) =
      .ok (some (plan.context cfg (plan.last - back))) := by
  have hslot : s.slots ((plan.last - back) % cfg.ringSize) = plan.context cfg (plan.last - back) := by
    refine h.slot_eq ?_ (by omega)
    rw [oldest]
    rw [ringMaxHistorySize] at hback ⊢
    omega
  have hdiff : (SlotPoint.ofSlot cfg.numerology plan.last).diff
      (.ofSlot cfg.numerology (plan.last - back)) = back :=
    SlotPoint.diff_ofSlot (Nat.le_trans (Nat.le_add_left _ _) hrun) (Nat.lt_trans hback (by decide))
  rw [CellResourceAllocator.getHistory, h.lastSlotInd, hdiff]
  simp only [hcfg.ringPos_ofSlot, hslot]
  rw [if_neg (by omega), if_pos (plan.slot_context _)]

theorem Inv.start (h : cfg.Valid) (hs : s.lastSlotInd = .invalid) {slTx : SlotPoint}
    {plan' : Option (CellPlan G)} (hplan : CellPlan.start cfg slTx = some plan') :
    ∃ s', s.slotIndication cfg slTx = .ok s' ∧ Inv cfg s' plan' := by
  rw [CellPlan.start] at hplan
  split at hplan
  · rename_i hslot
    obtain ⟨hnumerology, hcount⟩ := hslot
    cases hplan
    have hslTx : slTx =
        .ofSlot cfg.numerology (nofSlotsPerHyperSystemFrame cfg.numerology + slTx.count) := by
      rw [SlotPoint.ofSlot, slotCount, Nat.add_mod_left, Nat.mod_eq_of_lt hcount, ← hnumerology]
    have hcycle := le_nofSlotsPerHyperSystemFrame cfg.numerology
    generalize hfirst : nofSlotsPerHyperSystemFrame cfg.numerology + slTx.count = first at hslTx ⊢
    have hinvalid : s.lastSlotInd.valid = false := by
      rw [hs]
      rfl
    rw [CellResourceAllocator.slotIndication, if_neg (by simp [hinvalid]),
      if_neg (not_not_intro hnumerology), if_pos (by simp [hinvalid])]
    have hearly : ringMaxHistorySize ≤ first := by
      rw [ringMaxHistorySize, ← hfirst]
      omega
    refine ⟨_, rfl, hslTx, Nat.le_refl first, hearly, fun _ _ => rfl, ?_⟩
    intro t ht ht'
    have hbase : oldest ({ first := first, last := first, made := fun _ => [] } : CellPlan G) = first := by
      simp only [oldest, ringMaxHistorySize]
      omega
    rw [hbase] at ht ht'
    obtain ⟨i, rfl⟩ := Nat.exists_eq_add_of_le ht
    rw [hslTx, CellPlan.context_of_nil rfl]
    exact slots_start h s.slots first (Nat.le_refl _) i (by omega)
  · cases hplan

/-- A slot that gets too old leaves its position to a slot that nothing was done to. -/
theorem Follows.advance (h : s.Follows cfg plan) (hcfg : cfg.Valid) :
    ∃ s', s.slotIndication cfg (.ofSlot cfg.numerology (plan.last + 1)) = .ok s' ∧
      s'.Follows cfg { plan with last := plan.last + 1 } := by
  have hsize := cfg.le_ringSize
  have hlt := hcfg.ringSize_lt
  have hfirst := h.first
  have hstarted := h.started
  have hone : s.lastSlotInd.add 1 = .ofSlot cfg.numerology (plan.last + 1) :=
    h.add hcfg (Nat.le_trans (by decide) ((Nat.le_add_right _ _).trans hsize))
  have hold : ringMaxHistorySize ≤ plan.last + 1 := by omega
  have hnumerology : (SlotPoint.ofSlot cfg.numerology (plan.last + 1)).numerology = cfg.numerology := rfl
  rw [CellResourceAllocator.slotIndication, if_neg (fun hskipped => hskipped.2 hone),
    if_neg (not_not_intro hnumerology), if_neg (not_not_intro (h.valid hcfg))]
  simp only [SlotPoint.sub_ofSlot hold]
  rw [SlotPoint.add_ofSlot hcfg.numerology hlt, indicate_ofSlot hcfg]
  refine ⟨_, rfl, rfl, by simp only; omega, hstarted, fun t ht => h.future t (by simp only at ht; omega), ?_⟩
  have hempty : plan.made (plan.last + 1 - ringMaxHistorySize + cfg.ringSize) = [] := by
    refine h.future _ ?_
    omega
  have hcontext : plan.context cfg (plan.last + 1 - ringMaxHistorySize + cfg.ringSize) =
      CellPlan.entered cfg (.ofSlot cfg.numerology (plan.last + 1 - ringMaxHistorySize + cfg.ringSize)) :=
    CellPlan.context_of_nil hempty
  have hsame : ({ plan with last := plan.last + 1 } : CellPlan G).context cfg = plan.context cfg := rfl
  rw [hsame, ← hcontext]
  rcases Nat.lt_or_ge (plan.last + 1 - ringMaxHistorySize) plan.first with hyoung | hfull
  · have hbase : oldest ({ plan with last := plan.last + 1 } : CellPlan G) = oldest plan := by
      simp only [oldest, ringMaxHistorySize] at hyoung ⊢
      omega
    have hbounds : oldest plan ≤ plan.last + 1 - ringMaxHistorySize + cfg.ringSize ∧
        plan.last + 1 - ringMaxHistorySize + cfg.ringSize < oldest plan + cfg.ringSize := by
      rw [oldest]
      omega
    have hupdate := h.window.update hbounds.1 hbounds.2
      (plan.context cfg (plan.last + 1 - ringMaxHistorySize + cfg.ringSize))
    rw [Function.update_eq_self, Nat.add_mod_right] at hupdate
    rw [hbase]
    exact hupdate
  · have hbase : oldest plan = plan.last + 1 - ringMaxHistorySize := Nat.max_eq_right hfull
    have hbase' : oldest ({ plan with last := plan.last + 1 } : CellPlan G) =
        plan.last + 1 - ringMaxHistorySize + 1 := by
      simp only [oldest]
      omega
    have hadvance := h.window.advance
    rw [hbase] at hadvance
    rw [hbase']
    exact hadvance

theorem Follows.allocate (h : s.Follows cfg plan) (hcfg : cfg.Valid) {delay : Nat}
    (hdelay : delay ≤ cfg.maxUlSlotAllocDelay) (action : SlotAction G) :
    ∃ s', s.allocate cfg delay action = .ok s' ∧ s'.Follows cfg (plan.allocate delay action) := by
  have hadd := h.add hcfg (CellGridConfig.delay_le hdelay)
  have hsize := cfg.le_ringSize
  have hnew : plan.last + delay < oldest plan + cfg.ringSize := by
    rw [oldest]
    rw [ringMaxHistorySize] at hsize ⊢
    omega
  rw [CellResourceAllocator.allocate, h.atDelay hcfg hdelay, Checked.ok_bind, hadd, hcfg.ringPos_ofSlot]
  refine ⟨_, rfl, h.lastSlotInd, h.first, h.started, ?_, ?_⟩
  · intro t ht
    have hne : t ≠ plan.last + delay := fun heq => by
      rw [heq] at ht
      exact Nat.not_lt_of_le (Nat.add_le_add_left hdelay plan.last) ht
    exact (Function.update_of_ne hne _ _).trans (h.future t ht)
  · rw [CellPlan.context_allocate]
    exact h.window.update (h.oldest_le.trans (Nat.le_add_right _ delay)) hnew _

theorem Inv.step (hcfg : cfg.Valid) {plan plan' : Option (CellPlan G)} (h : Inv cfg s plan)
    {event : ResourceEvent G} (hplan : CellPlan.next cfg plan event = some plan') :
    ∃ s', s.next cfg event = some s' ∧ Inv cfg s' plan' := by
  have hok : ∀ {r : Except ResourceFault (CellResourceAllocator G)}, (∃ s', r = .ok s' ∧ Inv cfg s' plan') →
      ∃ s', r.toOption = some s' ∧ Inv cfg s' plan' := by
    rintro _ ⟨s', rfl, hs'⟩
    exact ⟨s', rfl, hs'⟩
  refine hok ?_
  cases plan with
  | none =>
    cases event with
    | slotIndication slTx => exact Inv.start hcfg h hplan
    | allocate => cases hplan
    | stop =>
      cases hplan
      exact ⟨_, rfl, rfl⟩
  | some plan =>
    cases event with
    | slotIndication slTx =>
      rw [CellPlan.next] at hplan
      split at hplan
      · rename_i hslTx
        cases hplan
        rw [hslTx]
        exact Follows.advance h hcfg
      · cases hplan
    | allocate delay action =>
      rw [CellPlan.next] at hplan
      split at hplan
      · rename_i hdelay
        cases hplan
        exact Follows.allocate h hcfg hdelay action
      · cases hplan
    | stop =>
      cases hplan
      exact ⟨_, rfl, rfl⟩

theorem Inv.runAll (hcfg : cfg.Valid) {plan plan' : Option (CellPlan G)} (h : Inv cfg s plan)
    {events : List (ResourceEvent G)} (hplan : Runs.runAll (CellPlan.next cfg) plan events = some plan') :
    ∃ s', Runs.runAll (next cfg) s events = some s' ∧ Inv cfg s' plan' := by
  induction events generalizing s plan with
  | nil =>
    cases hplan
    exact ⟨s, rfl, h⟩
  | cons event rest ih =>
    obtain ⟨mid, hmid, hrest⟩ := Option.bind_eq_some_iff.mp hplan
    obtain ⟨sMid, hsMid, hinv⟩ := h.step hcfg hmid
    obtain ⟨s', hs', hinv'⟩ := ih hinv hrest
    exact ⟨s', Option.bind_eq_some_iff.mpr ⟨sMid, hsMid, hs'⟩, hinv'⟩

/-- What the ring gives access to. -/
structure Serves (cfg : CellGridConfig) (s : CellResourceAllocator G) (plan : CellPlan G) : Prop where
  slotTx : s.lastSlotInd = .ofSlot cfg.numerology plan.last
  future : ∀ delay, delay ≤ cfg.maxUlSlotAllocDelay → ∃ r, s.atDelay cfg delay = .ok r ∧
    r.slot = s.lastSlotInd.add delay ∧ r.Holds cfg (plan.last + delay) (plan.made (plan.last + delay))
  /-- Nothing is done to a slot before it can be accessed. -/
  entry : ∀ t, plan.last + cfg.maxUlSlotAllocDelay < t → plan.made t = []
  /-- Since the cell was started. -/
  history : ∀ back, back < ringMaxHistorySize → plan.first + back ≤ plan.last →
    ∃ r, s.getHistory cfg (.ofSlot cfg.numerology (plan.last - back)) = .ok (some r) ∧
      r.Holds cfg (plan.last - back) (plan.made (plan.last - back))
  /-- The next indication leaves all slots that it does not make history, and its own, as they are. -/
  kept : ∃ s', s.slotIndication cfg (.ofSlot cfg.numerology (plan.last + 1)) = .ok s' ∧
    ∀ delay, delay < cfg.maxUlSlotAllocDelay → s'.atDelay cfg delay = s.atDelay cfg (delay + 1)

theorem Follows.serves (h : s.Follows cfg plan) (hcfg : cfg.Valid) : s.Serves cfg plan where
  slotTx := h.lastSlotInd
  future := by
    intro delay hdelay
    refine ⟨_, h.atDelay hcfg hdelay, ?_, plan.context_holds _⟩
    rw [plan.slot_context, h.add hcfg (CellGridConfig.delay_le hdelay)]
  entry := h.future
  history := fun _ hback hrun => ⟨_, h.getHistory hcfg hback hrun, plan.context_holds _⟩
  kept := by
    obtain ⟨s', hs', hfollows⟩ := h.advance hcfg
    refine ⟨s', hs', fun delay hdelay => ?_⟩
    rw [hfollows.atDelay hcfg (Nat.le_of_lt hdelay), h.atDelay hcfg hdelay]
    simp only [Nat.add_right_comm, Nat.add_assoc]
    rfl

/-- In every run of consecutive slots, stopped and started again anywhere, the ring gives each slot with what
was done to it since it entered. -/
theorem resourceRing_serves (hcfg : cfg.Valid) {events : List (ResourceEvent G)}
    {plan : Option (CellPlan G)} (hplan : Runs.runAll (CellPlan.next cfg) none events = some plan) :
    ∃ s, Runs.runAll (next cfg) (create : CellResourceAllocator G) events = some s ∧
      ∀ running, plan = some running → s.Serves cfg running := by
  have hcreate : Inv cfg (create : CellResourceAllocator G) none := rfl
  obtain ⟨s, hs, hinv⟩ := hcreate.runAll hcfg hplan
  refine ⟨s, hs, ?_⟩
  rintro running rfl
  exact Follows.serves hinv hcfg

/-- A grant for a slot behind the wrap-around of slots. -/
theorem resourceRing_serves_wrapAround :
    let cfg : CellGridConfig := {
      numerology := 0
      ntnCsKoffset := 0
      nofDlSymbolPerSlot := fun _ => 14
      nofUlSymbolPerSlot := fun _ => 14 }
    ∃ s, Runs.runAll (next cfg) (create : CellResourceAllocator Nat)
        [.slotIndication ⟨0, 10238⟩, .allocate 4 (.addGrant .pusch 7), .slotIndication ⟨0, 10239⟩,
          .slotIndication ⟨0, 0⟩] = some s ∧
      ∃ r, s.atDelay cfg 2 = .ok r ∧ r.slot = ⟨0, 2⟩ ∧ r.result.grants .pusch = [7] := by
  intro cfg
  have hplan : Runs.runAll (CellPlan.next cfg) none
      [.slotIndication ⟨0, 10238⟩, .allocate 4 (.addGrant .pusch 7), .slotIndication ⟨0, 10239⟩,
        .slotIndication ⟨0, 0⟩] = some (some {
          first := 20478
          last := 20480
          made := Function.update (fun _ => []) 20482 [.addGrant .pusch 7] }) := by
    simp [Runs.runAll, CellPlan.next, CellPlan.start, CellPlan.allocate, SlotPoint.ofSlot, slotCount,
      nofSlotsPerHyperSystemFrame, nofSlotsPerFrame, nofSlotsPerSubframe, nofSubframesPerFrame, nofSfns,
      CellGridConfig.maxUlSlotAllocDelay, getMaxSlotUlAllocDelay, schedulerMaxK0, schedulerMaxK1,
      schedulerMaxK2, maxMsg3Delta, cfg]
  obtain ⟨s, hs, hserves⟩ := resourceRing_serves ⟨by decide, by decide⟩ hplan
  obtain ⟨r, hr, hslot, hholds⟩ := (hserves _ rfl).future 2 (by decide)
  refine ⟨s, hs, r, hr, ?_, ?_⟩
  · rw [hslot, (hserves _ rfl).slotTx]
    decide
  · exact hholds.grants .pusch

end CellResourceAllocator

end Srsran.Scheduler
