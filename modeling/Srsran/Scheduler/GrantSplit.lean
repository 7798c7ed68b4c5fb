import Srsran.Lib.Checked
import Srsran.Scheduler.GrantPreselection
import Srsran.Scheduler.UlGrantVrbs

/-! How the RBs of a slice are split among the new transmissions of its UEs (`intra_slice_scheduler.cpp`). -/
namespace Srsran.Scheduler
open Checked

inductive SplitFault where
  | invalidGrantSize
  | invalidPuschVrbs
  | outOfBitmap
  deriving DecidableEq

namespace VrbBitmap

def fill (vrbs : VrbBitmap) (a : RbInterval) : Except SplitFault VrbBitmap :=
  if vrbs.size < a.stop then .error .outOfBitmap
  else
    .ok
      { used := vrbs.used.mapIdx fun i bit => bit || (a.start ≤ i && i < a.stop)
        size_le := by
          rw [List.length_mapIdx]
          exact vrbs.size_le }

theorem fill_of_free {vrbs : VrbBitmap} {a : RbInterval} (h : ∀ rb, a.Holds rb → RbFree vrbs.used rb)
    (hnonempty : a.isEmpty = false) : ∃ vrbs', vrbs.fill a = .ok vrbs' := by
  rw [RbInterval.isEmpty_eq_false_iff] at hnonempty
  have hlast := (h (a.stop - 1) ⟨by omega, by omega⟩).lt
  rw [fill, if_neg (by rw [size]; omega)]
  exact ⟨_, rfl⟩

end VrbBitmap

/-- The two directions: the RBs that stage 1 counts for a grant, the VRBs that are recommended, and what is asserted
about VRBs that are set. -/
structure NewTxKind (Shared Ctx : Type) where
  needsPucch : Bool
  estimatedPrbs : Shared → Nat → Ctx → Nat
  recommendedVrbs : Shared → Ctx → VrbBitmap → Nat → Shared × RbInterval
  setParams : RbInterval → Except SplitFault Unit
  estimatedPrbs_pos : ∀ shared rbsToAlloc ctx, 0 < estimatedPrbs shared rbsToAlloc ctx

/-- A UE with a weight is expected to take its part of the RBs. -/
def WeightShares.estimatedPrbs (s : WeightShares) (rbsToAlloc : Nat) (ctx : NewTxContext) : Nat :=
  match s.getWeights ctx.rnti with
  | none => ctx.expectedNofRbs
  | some weight =>
    if weight > 0 then min (max (⌊weight * rbsToAlloc⌋₊ % 2 ^ 32) 1) ctx.expectedNofRbs else ctx.expectedNofRbs

def dlGrants : NewTxKind WeightShares NewTxContext where
  needsPucch := true
  estimatedPrbs := WeightShares.estimatedPrbs
  recommendedVrbs := WeightShares.computeNewtxDlVrbs
  setParams _ := .ok ()
  estimatedPrbs_pos shared rbsToAlloc ctx := by
    rw [WeightShares.estimatedPrbs]
    split
    · exact ctx.expected_pos
    · split
      · exact lt_min (lt_max_of_lt_right Nat.one_pos) ctx.expected_pos
      · exact ctx.expected_pos

def ulGrants : NewTxKind Unit UlNewTxContext where
  needsPucch := false
  estimatedPrbs _ _ ctx := ctx.expectedNofRbs
  recommendedVrbs _ ctx vrbs maxNofRbs := ((), ctx.computeNewtxUlVrbs vrbs maxNofRbs)
  setParams vrbs := if vrbs.isEmpty then .error .invalidPuschVrbs else .ok ()
  estimatedPrbs_pos _ _ ctx := ctx.expected_pos

/-- The variables of stage 2, with the VRBs of the grants that have some. -/
structure Split (Shared : Type) where
  shared : Shared
  vrbs : VrbBitmap
  rbCount : Nat := 0
  rbsMissing : Int := 0
  allocs : List RbInterval := []

namespace Split
variable {Shared : Type}

def maxGrantSize (s : Split Shared) (rbsToAlloc rbsPerGrant : Nat) (isLast : Bool) : Int :=
  if isLast then rbsToAlloc - s.rbCount else rbsPerGrant + s.rbsMissing

def granted (s : Split Shared) (shared : Shared) (vrbs : VrbBitmap) (maxGrantSize : Int) (alloc : RbInterval) :
    Split Shared where
  shared
  vrbs
  rbCount := s.rbCount + alloc.length
  rbsMissing := maxGrantSize - alloc.length
  allocs := s.allocs ++ [alloc]

def nofRbs (s : Split Shared) : Nat := (s.allocs.map RbInterval.length).sum

end Split

namespace NewTxKind
variable {Shared Ctx : Type}

def turn (k : NewTxKind Shared Ctx) (rbsToAlloc rbsPerGrant : Nat) (isLast : Bool) (s : Split Shared) (ctx : Ctx) :
    Except SplitFault (Split Shared) :=
  let maxGrantSize := s.maxGrantSize rbsToAlloc rbsPerGrant isLast
  if maxGrantSize ≤ 0 then .error .invalidGrantSize
  else do
    let (shared, alloc) := k.recommendedVrbs s.shared ctx s.vrbs maxGrantSize.toNat
    k.setParams alloc
    if alloc.isEmpty then return { s with shared }
    else
      let vrbs ← s.vrbs.fill alloc
      return s.granted shared vrbs maxGrantSize alloc

def turns (k : NewTxKind Shared Ctx) (rbsToAlloc rbsPerGrant : Nat) (ctxs : List Ctx) (s : Split Shared) :
    Except SplitFault (Split Shared) :=
  ctxs.foldlM (k.turn rbsToAlloc rbsPerGrant false) s

def stage2 (k : NewTxKind Shared Ctx) (rbsToAlloc rbsPerGrant : Nat) : List Ctx → Split Shared →
    Except SplitFault (Split Shared)
  | [], s => .ok s
  | ctx :: rest, s => k.turn rbsToAlloc rbsPerGrant rest.isEmpty s ctx >>= k.stage2 rbsToAlloc rbsPerGrant rest

end NewTxKind

/-- What scheduling the new transmissions of a slice starts with. -/
structure NewTxSlot (Ctx : Type) where
  budget : GrantBudget
  maxUeGrants : Nat
  candidates : List (NewTxCandidate Ctx)
  vrbs : VrbBitmap
  attemptsCount : Nat
  maxAttempts : Nat

namespace NewTxSlot
variable {Shared Ctx : Type}

def grantSizes (slot : NewTxSlot Ctx) (maxUeGrants : Nat) : Nat × Nat :=
  slot.budget.getMaxGrantsAndRbGrantSize maxUeGrants slot.candidates.length slot.vrbs

def preselected (slot : NewTxSlot Ctx) (k : NewTxKind Shared Ctx) (shared : Shared) (maxUeGrants : Nat) :
    Preselected Ctx :=
  if h : (slot.grantSizes maxUeGrants).2 = 0 then { attemptsCount := slot.attemptsCount }
  else
    Preselection.select
      { needsPucch := k.needsPucch
        rbsToAlloc := (slot.grantSizes maxUeGrants).1
        rbsPerGrant := (slot.grantSizes maxUeGrants).2
        maxUeGrants := slot.maxUeGrants
        maxAttempts := slot.maxAttempts
        estimatedPrbs := k.estimatedPrbs shared (slot.grantSizes maxUeGrants).1
        rbsToAlloc_pos := GrantBudget.getMaxGrantsAndRbGrantSize_pos h
        rbsPerGrant_pos := Nat.pos_of_ne_zero h
        estimatedPrbs_pos := k.estimatedPrbs_pos shared _ }
      slot.candidates { attemptsCount := slot.attemptsCount }

/-- What is left of a slot: the number of grants, the attempts, and the RBs. -/
structure Scheduled (Shared : Type) where
  allocCount : Nat
  attemptsCount : Nat
  split : Split Shared

def schedule (slot : NewTxSlot Ctx) (k : NewTxKind Shared Ctx) (shared : Shared) (maxUeGrants : Nat) :
    Except SplitFault (Scheduled Shared) :=
  let s := slot.preselected k shared maxUeGrants
  if s.pending.isEmpty then .ok ⟨0, s.attemptsCount, { shared, vrbs := slot.vrbs }⟩
  else do
    let rbsToAlloc := (slot.grantSizes maxUeGrants).1
    let split ← k.stage2 rbsToAlloc (rbsToAlloc / s.pending.length) s.pending { shared, vrbs := slot.vrbs }
    return ⟨s.pending.length, s.attemptsCount, split⟩

def scheduleDlNewtxCandidates (slot : NewTxSlot NewTxContext) (shares : WeightShares) (expectedPdschsPerSlot : Nat) :
    Except SplitFault (Scheduled WeightShares) :=
  slot.schedule dlGrants shares (min slot.maxUeGrants expectedPdschsPerSlot)

def scheduleUlNewtxCandidates (slot : NewTxSlot UlNewTxContext) : Except SplitFault (Scheduled Unit) :=
  slot.schedule ulGrants () slot.maxUeGrants

end NewTxSlot

namespace Split
variable {Shared Ctx : Type} {rbsToAlloc rbsPerGrant : Nat}

/-- The next grant has a size, and no more RBs are given than there are. -/
def HasRoom (rbsToAlloc rbsPerGrant : Nat) (s : Split Shared) : List Ctx → Prop
  | [] => s.rbCount ≤ rbsToAlloc
  | [_] => s.rbCount < rbsToAlloc
  | _ => 0 < rbsPerGrant + s.rbsMissing

def LeavesRoom (rbsToAlloc rbsPerGrant : Nat) (s : Split Shared) (nofRbs : Nat) : List Ctx → Prop
  | [] => s.rbCount + nofRbs ≤ rbsToAlloc
  | [_] => s.rbCount + nofRbs < rbsToAlloc
  | _ => nofRbs < rbsPerGrant + (rbsPerGrant + s.rbsMissing)

/-- No more RBs are carried over than the grants that are done have left. -/
def Carries (rbsPerGrant nofDone : Nat) (s : Split Shared) : Prop :=
  s.rbCount + s.rbsMissing ≤ rbsPerGrant * nofDone

variable {s : Split Shared} {shared : Shared} {vrbs : VrbBitmap} {alloc : RbInterval} {rest : List Ctx} {ctx : Ctx}
  {nofDone : Nat} {maxGrantSize : Int}

theorem nofRbs_granted : (s.granted shared vrbs maxGrantSize alloc).nofRbs = s.nofRbs + alloc.length := by
  simp [nofRbs, granted]

theorem HasRoom.maxGrantSize_pos (h : s.HasRoom rbsToAlloc rbsPerGrant (ctx :: rest)) :
    0 < s.maxGrantSize rbsToAlloc rbsPerGrant rest.isEmpty := by
  cases rest with
  | nil =>
    have hlt : s.rbCount < rbsToAlloc := h
    change 0 < (rbsToAlloc : Int) - s.rbCount
    omega
  | cons next rest => exact h

theorem hasRoom_granted_iff :
    (s.granted shared vrbs (s.maxGrantSize rbsToAlloc rbsPerGrant rest.isEmpty) alloc).HasRoom rbsToAlloc rbsPerGrant
      rest ↔ s.LeavesRoom rbsToAlloc rbsPerGrant alloc.length rest := by
  match rest with
  | [] => exact Iff.rfl
  | [_] => exact Iff.rfl
  | _ :: _ :: _ =>
    change 0 < (rbsPerGrant : Int) + (rbsPerGrant + s.rbsMissing - alloc.length) ↔
      (alloc.length : Int) < rbsPerGrant + (rbsPerGrant + s.rbsMissing)
    omega

theorem Carries.granted (h : s.Carries rbsPerGrant nofDone) :
    (s.granted shared vrbs (s.maxGrantSize rbsToAlloc rbsPerGrant false) alloc).Carries rbsPerGrant (nofDone + 1) := by
  rw [Carries] at h ⊢
  rw [Nat.cast_add, Nat.cast_one, mul_add, mul_one]
  change ((s.rbCount + alloc.length : Nat) : Int) + (rbsPerGrant + s.rbsMissing - alloc.length) ≤ _
  omega

/-- More RBs than this grant may take are left for it and the next one. -/
theorem leavesRoom_iff (h : s.Carries rbsPerGrant nofDone) (hpos : 0 < rbsPerGrant)
    (hfits : rbsPerGrant * (nofDone + (rest.length + 1)) ≤ rbsToAlloc)
    (hroom : s.HasRoom rbsToAlloc rbsPerGrant (ctx :: rest)) {taken least : Nat}
    (hle : ∀ bound, (s.maxGrantSize rbsToAlloc rbsPerGrant rest.isEmpty).toNat < bound →
      (taken < bound ↔ least < bound)) :
    s.LeavesRoom rbsToAlloc rbsPerGrant taken rest ↔ s.LeavesRoom rbsToAlloc rbsPerGrant least rest := by
  have hsize := hroom.maxGrantSize_pos
  rw [Carries] at h
  match rest with
  | [] =>
    have hbound := hle (rbsToAlloc - s.rbCount + 1) (by
      change ((rbsToAlloc : Int) - s.rbCount).toNat < _
      omega)
    change s.rbCount + taken ≤ rbsToAlloc ↔ s.rbCount + least ≤ rbsToAlloc
    change 0 < (rbsToAlloc : Int) - s.rbCount at hsize
    omega
  | [_] =>
    rw [List.length_singleton, mul_add] at hfits
    have hbound := hle (rbsToAlloc - s.rbCount) (by
      change ((rbsPerGrant : Int) + s.rbsMissing).toNat < _
      change 0 < (rbsPerGrant : Int) + s.rbsMissing at hsize
      omega)
    change s.rbCount + taken < rbsToAlloc ↔ s.rbCount + least < rbsToAlloc
    omega
  | _ :: _ :: _ =>
    have hbound := hle (rbsPerGrant + (rbsPerGrant + s.rbsMissing)).toNat (by
      change ((rbsPerGrant : Int) + s.rbsMissing).toNat < _
      change 0 < (rbsPerGrant : Int) + s.rbsMissing at hsize
      omega)
    change (taken : Int) < rbsPerGrant + (rbsPerGrant + s.rbsMissing) ↔
      (least : Int) < rbsPerGrant + (rbsPerGrant + s.rbsMissing)
    change 0 < (rbsPerGrant : Int) + s.rbsMissing at hsize
    omega

end Split

namespace NewTxKind
variable {Shared Ctx : Type} {k : NewTxKind Shared Ctx} {rbsToAlloc rbsPerGrant : Nat} {isLast : Bool}
  {s s' : Split Shared} {ctx : Ctx} {ctxs : List Ctx}

/-- How a turn goes without a failed assertion. -/
inductive Turned (k : NewTxKind Shared Ctx) (s : Split Shared) (ctx : Ctx) (maxGrantSize : Int) : Split Shared → Prop
    where
  | cancelled : (k.recommendedVrbs s.shared ctx s.vrbs maxGrantSize.toNat).2.isEmpty = true →
      Turned k s ctx maxGrantSize { s with shared := (k.recommendedVrbs s.shared ctx s.vrbs maxGrantSize.toNat).1 }
  | granted (vrbs : VrbBitmap) : (k.recommendedVrbs s.shared ctx s.vrbs maxGrantSize.toNat).2.isEmpty = false →
      Turned k s ctx maxGrantSize (s.granted (k.recommendedVrbs s.shared ctx s.vrbs maxGrantSize.toNat).1 vrbs
        maxGrantSize (k.recommendedVrbs s.shared ctx s.vrbs maxGrantSize.toNat).2)

theorem turn_eq_ok (h : k.turn rbsToAlloc rbsPerGrant isLast s ctx = .ok s') :
    0 < s.maxGrantSize rbsToAlloc rbsPerGrant isLast ∧
      k.setParams (k.recommendedVrbs s.shared ctx s.vrbs
        (s.maxGrantSize rbsToAlloc rbsPerGrant isLast).toNat).2 = .ok () ∧
      k.Turned s ctx (s.maxGrantSize rbsToAlloc rbsPerGrant isLast) s' := by
  rw [turn] at h
  dsimp only at h
  split at h
  · cases h
  · rename_i hsize
    obtain ⟨⟨⟩, hset, h⟩ := bind_ok h
    refine ⟨Int.lt_of_not_ge hsize, hset, ?_⟩
    split at h
    · rename_i hempty
      cases h
      exact .cancelled hempty
    · rename_i hnonempty
      obtain ⟨vrbs, -, h⟩ := bind_ok h
      cases h
      exact .granted vrbs (Bool.not_eq_true _ ▸ hnonempty)

theorem exists_turn (hsize : 0 < s.maxGrantSize rbsToAlloc rbsPerGrant isLast)
    (hset : k.setParams (k.recommendedVrbs s.shared ctx s.vrbs
      (s.maxGrantSize rbsToAlloc rbsPerGrant isLast).toNat).2 = .ok ())
    (hfree : ∀ rb, (k.recommendedVrbs s.shared ctx s.vrbs
      (s.maxGrantSize rbsToAlloc rbsPerGrant isLast).toNat).2.Holds rb → RbFree s.vrbs.used rb) :
    ∃ s', k.turn rbsToAlloc rbsPerGrant isLast s ctx = .ok s' := by
  rw [turn]
  dsimp only
  rw [if_neg (Int.not_le.mpr hsize), hset, ok_bind]
  split
  · exact ⟨_, rfl⟩
  · rename_i hnonempty
    obtain ⟨vrbs, hfill⟩ := VrbBitmap.fill_of_free hfree (Bool.not_eq_true _ ▸ hnonempty)
    rw [hfill]
    exact ⟨_, rfl⟩

theorem turn_carries {nofDone : Nat} (h : k.turn rbsToAlloc rbsPerGrant false s ctx = .ok s')
    (hcarries : s.Carries rbsPerGrant nofDone) : s'.Carries rbsPerGrant (nofDone + 1) := by
  cases (turn_eq_ok h).2.2 with
  | cancelled =>
    rw [Split.Carries] at hcarries ⊢
    rw [Nat.cast_add, Nat.cast_one, mul_add, mul_one]
    dsimp only
    omega
  | granted => exact hcarries.granted

theorem turn_counted (h : k.turn rbsToAlloc rbsPerGrant isLast s ctx = .ok s') (hcounted : s.rbCount = s.nofRbs) :
    s'.rbCount = s'.nofRbs := by
  cases (turn_eq_ok h).2.2 with
  | cancelled => exact hcounted
  | granted =>
    rw [Split.nofRbs_granted, ← hcounted]
    rfl

theorem stage2_counted (h : k.stage2 rbsToAlloc rbsPerGrant ctxs s = .ok s') (hcounted : s.rbCount = s.nofRbs) :
    s'.rbCount = s'.nofRbs := by
  induction ctxs generalizing s with
  | nil =>
    cases h
    exact hcounted
  | cons ctx rest ih =>
    obtain ⟨next, hturn, hrest⟩ := bind_ok h
    exact ih hrest (turn_counted hturn hcounted)

theorem hasRoom_of_stage2 (h : k.stage2 rbsToAlloc rbsPerGrant ctxs s = .ok s') (hle : s'.rbCount ≤ rbsToAlloc) :
    s.HasRoom rbsToAlloc rbsPerGrant ctxs := by
  match ctxs with
  | [] =>
    cases h
    exact hle
  | ctx :: rest =>
    obtain ⟨next, hturn, -⟩ := bind_ok h
    have hsize := (turn_eq_ok hturn).1
    cases rest with
    | nil =>
      change 0 < (rbsToAlloc : Int) - s.rbCount at hsize
      change s.rbCount < rbsToAlloc
      omega
    | cons next rest => exact hsize

end NewTxKind
namespace Split
variable {Ctx : Type} {rbsToAlloc rbsPerGrant nofDone : Nat}

/-- Earlier grants took no more than their shares. -/
structure Saves {Shared : Type} (rbsPerGrant nofDone : Nat) (s : Split Shared) : Prop where
  carries : s.Carries rbsPerGrant nofDone
  missing_nonneg : 0 ≤ s.rbsMissing

theorem saves_start {Shared : Type} {shared : Shared} {vrbs : VrbBitmap} :
    Saves rbsPerGrant 0 { shared, vrbs : Split Shared } :=
  ⟨Int.le_of_eq (by simp), Int.le_refl 0⟩

theorem Saves.hasRoom {Shared : Type} {s : Split Shared} {ctxs : List Ctx} (h : s.Saves rbsPerGrant nofDone)
    (hpos : 0 < rbsPerGrant) (hfits : rbsPerGrant * (nofDone + ctxs.length) ≤ rbsToAlloc) :
    s.HasRoom rbsToAlloc rbsPerGrant ctxs := by
  have hcarried := h.carries
  have hmissing := h.missing_nonneg
  rw [Carries] at hcarried
  rw [mul_add] at hfits
  match ctxs with
  | [] =>
    change s.rbCount ≤ rbsToAlloc
    omega
  | [_] =>
    rw [List.length_singleton, mul_one] at hfits
    change s.rbCount < rbsToAlloc
    omega
  | _ :: _ :: _ =>
    change 0 < (rbsPerGrant : Int) + s.rbsMissing
    omega

theorem dl_turn {s : Split WeightShares} {ctx : NewTxContext} {isLast : Bool}
    (hsize : 0 < s.maxGrantSize rbsToAlloc rbsPerGrant isLast) :
    ∃ s', dlGrants.turn rbsToAlloc rbsPerGrant isLast s ctx = .ok s' ∧
      s'.rbCount ≤ s.rbCount + s.maxGrantSize rbsToAlloc rbsPerGrant isLast ∧
        (isLast = false → s.Saves rbsPerGrant nofDone → 0 ≤ s'.rbsMissing) := by
  have hok := @WeightShares.grantOk_thisTtiUnusedCrbs s.shared ctx s.vrbs
    (s.maxGrantSize rbsToAlloc rbsPerGrant isLast).toNat
  have hle := hok.length_le.trans (min_le_right _ _)
  obtain ⟨s', hturn⟩ := @NewTxKind.exists_turn _ _ dlGrants rbsToAlloc rbsPerGrant isLast s ctx hsize rfl hok.free
  refine ⟨s', hturn, ?_⟩
  cases (NewTxKind.turn_eq_ok hturn).2.2 with
  | cancelled =>
    exact ⟨by dsimp only; omega, fun _ hsaves => hsaves.missing_nonneg⟩
  | granted vrbs =>
    change (s.shared.computeNewtxDlVrbs ctx s.vrbs _).2.length ≤ _ at hle
    refine ⟨?_, fun hlast _ => ?_⟩
    · change ((s.rbCount + (s.shared.computeNewtxDlVrbs ctx s.vrbs _).2.length : Nat) : Int) ≤ _
      omega
    · subst hlast
      change 0 ≤ s.maxGrantSize rbsToAlloc rbsPerGrant false -
        ((s.shared.computeNewtxDlVrbs ctx s.vrbs _).2.length : Int)
      omega

theorem dl_stage2 {s : Split WeightShares} {ctxs : List NewTxContext} (hsaves : s.Saves rbsPerGrant nofDone)
    (hpos : 0 < rbsPerGrant) (hfits : rbsPerGrant * (nofDone + ctxs.length) ≤ rbsToAlloc) :
    ∃ s', dlGrants.stage2 rbsToAlloc rbsPerGrant ctxs s = .ok s' ∧ s'.rbCount ≤ rbsToAlloc := by
  induction ctxs generalizing s nofDone with
  | nil => exact ⟨s, rfl, hsaves.hasRoom hpos hfits⟩
  | cons ctx rest ih =>
    have hroom : s.HasRoom rbsToAlloc rbsPerGrant (ctx :: rest) := hsaves.hasRoom hpos hfits
    obtain ⟨next, hturn, hle, hnext⟩ := @dl_turn _ _ nofDone _ ctx _ hroom.maxGrantSize_pos
    rw [NewTxKind.stage2, hturn, ok_bind]
    cases rest with
    | nil =>
      change (next.rbCount : Int) ≤ s.rbCount + (rbsToAlloc - s.rbCount) at hle
      exact ⟨next, rfl, by omega⟩
    | cons ctx' rest =>
      apply ih ⟨NewTxKind.turn_carries hturn hsaves.carries, hnext rfl hsaves⟩
      rw [List.length_cons] at hfits
      rw [Nat.add_right_comm, Nat.add_assoc]
      exact hfits

/-- At its turn a UE has a free VRB within its limits, and the smallest grant that it takes leaves room. -/
def Suits (rbsToAlloc rbsPerGrant : Nat) (s : Split Unit) (ctx : UlNewTxContext) (rest : List UlNewTxContext) : Prop :=
  (∃ rb, ctx.vrbLims.Holds rb ∧ RbFree s.vrbs.used rb) ∧
    s.LeavesRoom rbsToAlloc rbsPerGrant (ctx.findAvailableVrbs s.vrbs 0).length rest

section
variable {s : Split Unit} {ctx : UlNewTxContext} {rest : List UlNewTxContext}

theorem ul_turn_iff (hcarries : s.Carries rbsPerGrant nofDone) (hpos : 0 < rbsPerGrant)
    (hfits : rbsPerGrant * (nofDone + (rest.length + 1)) ≤ rbsToAlloc)
    (hroom : s.HasRoom rbsToAlloc rbsPerGrant (ctx :: rest)) :
    (∃ s', ulGrants.turn rbsToAlloc rbsPerGrant rest.isEmpty s ctx = .ok s' ∧
      s'.HasRoom rbsToAlloc rbsPerGrant rest) ↔ s.Suits rbsToAlloc rbsPerGrant ctx rest := by
  have hsize := hroom.maxGrantSize_pos
  have hempty := @UlNewTxContext.findAvailableVrbs_isEmpty_iff ctx s.vrbs
    (s.maxGrantSize rbsToAlloc rbsPerGrant rest.isEmpty).toNat (by omega)
  have hleaves := leavesRoom_iff hcarries hpos hfits hroom fun bound hbound =>
    @UlNewTxContext.findAvailableVrbs_length_lt_iff ctx s.vrbs _ bound hbound
  constructor
  · rintro ⟨s', hturn, hnext⟩
    obtain ⟨-, hset, hturned⟩ := NewTxKind.turn_eq_ok hturn
    cases hturned with
    | cancelled hnone =>
      change (if _ then _ else _) = _ at hset
      rw [if_pos hnone] at hset
      cases hset
    | granted vrbs hsome =>
      refine ⟨?_, hleaves.mp (hasRoom_granted_iff.mp hnext)⟩
      by_contra hnone
      have hnothing := hempty.mpr fun rb hrb hfree => hnone ⟨rb, hrb, hfree⟩
      exact absurd hnothing (Bool.eq_false_iff.mp hsome)
  · rintro ⟨⟨rb, hrb, hfree⟩, hleast⟩
    have hsome : ¬(ctx.findAvailableVrbs s.vrbs
        (s.maxGrantSize rbsToAlloc rbsPerGrant rest.isEmpty).toNat).isEmpty = true :=
      fun hnone => hempty.mp hnone rb hrb hfree
    have hset : ulGrants.setParams (ulGrants.recommendedVrbs s.shared ctx s.vrbs
        (s.maxGrantSize rbsToAlloc rbsPerGrant rest.isEmpty).toNat).2 = .ok () := if_neg hsome
    obtain ⟨s', hturn⟩ := NewTxKind.exists_turn hsize hset fun rb hrb =>
      UlNewTxContext.findAvailableVrbs_free hrb
    refine ⟨s', hturn, ?_⟩
    cases (NewTxKind.turn_eq_ok hturn).2.2 with
    | cancelled hnone => exact absurd hnone hsome
    | granted vrbs _ => exact hasRoom_granted_iff.mpr (hleaves.mpr hleast)

theorem ul_stage2_iff {ctxs : List UlNewTxContext} (hcarries : s.Carries rbsPerGrant nofDone) (hpos : 0 < rbsPerGrant)
    (hfits : rbsPerGrant * (nofDone + ctxs.length) ≤ rbsToAlloc) (hroom : s.HasRoom rbsToAlloc rbsPerGrant ctxs) :
    (∃ s', ulGrants.stage2 rbsToAlloc rbsPerGrant ctxs s = .ok s' ∧ s'.rbCount ≤ rbsToAlloc) ↔
      ∀ done ctx rest s', ctxs = done ++ ctx :: rest → ulGrants.turns rbsToAlloc rbsPerGrant done s = .ok s' →
        s'.Suits rbsToAlloc rbsPerGrant ctx rest := by
  induction ctxs generalizing s nofDone with
  | nil =>
    refine iff_of_true ⟨s, rfl, hroom⟩ fun done ctx rest s' hctxs _ => ?_
    exact absurd hctxs (List.append_ne_nil_of_right_ne_nil _ (List.cons_ne_nil _ _)).symm
  | cons ctx rest ih =>
    have hturn := ul_turn_iff hcarries hpos hfits hroom
    have hfitsNext : rbsPerGrant * (nofDone + 1 + rest.length) ≤ rbsToAlloc := by
      rw [List.length_cons] at hfits
      rw [Nat.add_right_comm, Nat.add_assoc]
      exact hfits
    constructor
    · rintro ⟨s', hstage, hle⟩
      obtain ⟨next, hnext, hrest⟩ := bind_ok hstage
      have hroomNext := NewTxKind.hasRoom_of_stage2 hrest hle
      intro done ctx' rest' t hctxs hdone
      cases done with
      | nil =>
        cases hctxs
        cases hdone
        exact hturn.mp ⟨next, hnext, hroomNext⟩
      | cons first done =>
        rw [List.cons_append, List.cons.injEq] at hctxs
        obtain ⟨rfl, rfl⟩ := hctxs
        have hmore : (done ++ ctx' :: rest').isEmpty = false := by simp
        rw [hmore] at hnext
        rw [NewTxKind.turns, List.foldlM_cons, hnext, ok_bind] at hdone
        have hnextTurns := ih (NewTxKind.turn_carries hnext hcarries) hfitsNext hroomNext
        exact hnextTurns.mp ⟨s', hrest, hle⟩ done ctx' rest' t rfl hdone
    · intro hsuits
      obtain ⟨next, hnext, hroomNext⟩ := hturn.mpr (hsuits [] ctx rest s rfl rfl)
      rw [NewTxKind.stage2, hnext, ok_bind]
      cases rest with
      | nil => exact ⟨next, rfl, hroomNext⟩
      | cons ctx' rest =>
        refine (ih (NewTxKind.turn_carries hnext hcarries) hfitsNext hroomNext).mpr ?_
        intro done ctx'' rest' t hctxs hdone
        refine hsuits (ctx :: done) ctx'' rest' t (by rw [hctxs]; rfl) ?_
        rw [NewTxKind.turns, List.foldlM_cons, show ulGrants.turn _ _ false s ctx = _ from hnext, ok_bind]
        exact hdone

end
end Split

namespace NewTxSlot
variable {Shared Ctx : Type}

theorem rbsPerGrant_pos {slot : NewTxSlot Ctx} {k : NewTxKind Shared Ctx} {shared : Shared} {maxUeGrants : Nat}
    (h : (slot.preselected k shared maxUeGrants).pending.isEmpty = false) :
    0 < (slot.grantSizes maxUeGrants).1 / (slot.preselected k shared maxUeGrants).pending.length := by
  have hlength : 0 < (slot.preselected k shared maxUeGrants).pending.length := by
    rw [List.length_pos_iff, ← List.isEmpty_eq_false_iff]
    exact h
  apply Nat.div_pos _ hlength
  revert h
  rw [preselected]
  split
  · exact nofun
  · rename_i hsizes
    intro _
    exact Preselection.select_length_le ⟨Nat.le_refl _, GrantBudget.getMaxGrantsAndRbGrantSize_pos hsizes⟩

def ulRbsPerGrant (slot : NewTxSlot UlNewTxContext) : Nat :=
  (slot.grantSizes slot.maxUeGrants).1 / (slot.preselected ulGrants () slot.maxUeGrants).pending.length

/-- The RBs of a slice are split without a failed assertion, and no more are given than there are: always in the DL,
and in the UL exactly if each grant, at its turn, suits the RBs that are left. -/
theorem newtx_rbs_split (dl : NewTxSlot NewTxContext) (shares : WeightShares) (expectedPdschsPerSlot : Nat)
    (ul : NewTxSlot UlNewTxContext) :
    (∃ r, dl.scheduleDlNewtxCandidates shares expectedPdschsPerSlot = .ok r ∧
      r.split.nofRbs ≤ (dl.grantSizes (min dl.maxUeGrants expectedPdschsPerSlot)).1) ∧
    ((∃ r, ul.scheduleUlNewtxCandidates = .ok r ∧ r.split.nofRbs ≤ (ul.grantSizes ul.maxUeGrants).1) ↔
      ∀ done ctx rest s, (ul.preselected ulGrants () ul.maxUeGrants).pending = done ++ ctx :: rest →
        ulGrants.turns (ul.grantSizes ul.maxUeGrants).1 ul.ulRbsPerGrant done { shared := (), vrbs := ul.vrbs } =
          .ok s →
        s.Suits (ul.grantSizes ul.maxUeGrants).1 ul.ulRbsPerGrant ctx rest) := by
  have hfits : ∀ {R n : Nat}, R / n * (0 + n) ≤ R := by
    intro R n
    rw [Nat.zero_add]
    exact Nat.div_mul_le_self R n
  constructor
  · rw [scheduleDlNewtxCandidates, schedule]
    dsimp only
    split
    · exact ⟨_, rfl, Nat.zero_le _⟩
    · rename_i hpending
      rw [Bool.not_eq_true] at hpending
      obtain ⟨s, hstage, hle⟩ := @Split.dl_stage2 _ _ 0 { shared := shares, vrbs := dl.vrbs } _
        Split.saves_start (rbsPerGrant_pos hpending) hfits
      rw [hstage]
      refine ⟨_, rfl, ?_⟩
      rw [← NewTxKind.stage2_counted hstage rfl]
      exact hle
  · rw [scheduleUlNewtxCandidates, schedule]
    dsimp only
    split
    · rename_i hpending
      rw [List.isEmpty_iff] at hpending
      refine iff_of_true ⟨_, rfl, Nat.zero_le _⟩ fun done ctx rest s hctxs _ => ?_
      rw [hpending] at hctxs
      exact absurd hctxs (List.append_ne_nil_of_right_ne_nil _ (List.cons_ne_nil _ _)).symm
    · rename_i hpending
      rw [Bool.not_eq_true] at hpending
      have hpos := rbsPerGrant_pos hpending
      refine Iff.trans ?_ (Split.ul_stage2_iff Split.saves_start.carries hpos hfits
        (Split.saves_start.hasRoom hpos hfits))
      constructor
      · rintro ⟨r, hr, hle⟩
        obtain ⟨s, hstage, hs⟩ := bind_ok hr
        cases hs
        rw [← NewTxKind.stage2_counted hstage rfl] at hle
        exact ⟨s, hstage, hle⟩
      · rintro ⟨s, hstage, hle⟩
        rw [ulRbsPerGrant] at hstage
        rw [hstage]
        refine ⟨_, rfl, ?_⟩
        rw [← NewTxKind.stage2_counted hstage rfl]
        exact hle

def ulUe (stop least : Nat) (h : least < stop) : UlNewTxContext where
  vrbLims := ⟨0, stop, Nat.zero_le _⟩
  nofRbLims := ⟨least, stop, Nat.le_of_lt h⟩
  expectedNofRbs := least + 1
  useTransformPrecoder := false
  lims_nonempty := h
  expected_pos := Nat.succ_pos _

def ulSlotOf (nofUes remainingRbs : Nat) (vrbs : VrbBitmap) (ue : UlNewTxContext) : NewTxSlot UlNewTxContext where
  budget := { nofCces := some 16, pdcchsInGrid := 0, nofBwpRbs := 20, remainingRbs }
  maxUeGrants := 8
  candidates := List.replicate nofUes ⟨false, .ok ue⟩
  vrbs
  attemptsCount := 0
  maxAttempts := 16

/-- With 8 RBs and grants of at least 8, the grant of the second UE has no size. With grants of at least 6 two UEs
have 12 RBs of the 8 for the slice. When all VRBs of a UE are used, setting none of them fails. -/
theorem newtx_rbs_unsuited :
    ((ulSlotOf 8 20 (CellSlots.vrbsOf 12 8 (by decide)) (ulUe 20 8 (by decide))).scheduleUlNewtxCandidates.map
        fun r => r.split.nofRbs) = .error .invalidGrantSize ∧
      ((ulSlotOf 2 8 (CellSlots.vrbsOf 0 20 (by decide)) (ulUe 20 6 (by decide))).grantSizes 8).1 = 8 ∧
      ((ulSlotOf 2 8 (CellSlots.vrbsOf 0 20 (by decide)) (ulUe 20 6 (by decide))).scheduleUlNewtxCandidates.map
        fun r => r.split.nofRbs) = .ok 12 ∧
      ((ulSlotOf 1 20 (CellSlots.vrbsOf 4 4 (by decide)) (ulUe 4 1 (by decide))).scheduleUlNewtxCandidates.map
        fun r => r.split.nofRbs) = .error .invalidPuschVrbs := by
  refine ⟨?_, ?_, ?_, ?_⟩ <;> decide +kernel

end NewTxSlot
end Srsran.Scheduler
