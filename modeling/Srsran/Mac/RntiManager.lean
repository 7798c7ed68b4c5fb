import Mathlib.Algebra.Order.BigOperators.Group.Finset
import Mathlib.Combinatorics.Pigeonhole
import Mathlib.Order.Interval.Finset.Nat
import Srsran.Lib.Measure
import Srsran.Mac.DlHarqBufferPool
import Srsran.Mac.UlPduHandler

/-! TC-RNTIs (`rnti_manager.h`, `rnti_value_table.h`): concurrent calls share a counter that wraps around at
2^16, while the RNTIs are the numbers of a smaller range. -/
namespace Srsran.Mac
open Runs Measure

def minCrnti : Nat := 0x1

def maxCrnti : Nat := 0xffef

def crntiRange : Nat := maxCrnti + 1 - minCrnti

/-- Where a call of `allocate` is. It notes the counter step that gave it its RNTI; `INVALID_RNTI` has none. -/
inductive AllocateCall where
  | idle
  | searching
  | lookup (tempCrnti step : Nat)
  | returned (rnti : Nat) (step : Option Nat)
  deriving DecidableEq

/-- What a call of `add_ue` or `rem_ue` does after its access to the table: it counts its UE, and asserts the
number of UEs after a removal. -/
inductive NofUesAccess where
  | add
  | sub
  | check
  deriving DecidableEq

/-- The RNTIs that have a value, the number of UEs, and the accesses to it that are still to be made. -/
structure RntiValueTable where
  registered : Finset Nat := ∅
  nofUes : Nat := 0
  due : Multiset NofUesAccess := 0

inductive TableAccess where
  | addUe (crnti : Nat)
  | remUe (crnti : Nat)
  | nofUes (access : NofUesAccess)

namespace RntiValueTable

def nofUesAccess (t : RntiValueTable) : NofUesAccess → Option RntiValueTable
  | .add => some { t with nofUes := (t.nofUes + 1) % 2 ^ 64, due := t.due.erase .add }
  | .sub => some { t with nofUes := (t.nofUes + 2 ^ 64 - 1) % 2 ^ 64, due := .check ::ₘ t.due.erase .sub }
  | .check => if t.nofUes ≤ crntiRange then some { t with due := t.due.erase .check } else none

def access (t : RntiValueTable) : TableAccess → Option RntiValueTable
  | .addUe crnti =>
    if isCrnti crnti = false then none
    else if crnti ∈ t.registered then some t
    else some { t with registered := insert crnti t.registered, due := .add ::ₘ t.due }
  | .remUe crnti =>
    if isCrnti crnti = false then none
    else if crnti ∉ t.registered then some t
    else some { t with registered := t.registered.erase crnti, due := .sub ::ₘ t.due }
  | .nofUes access => if access ∈ t.due then t.nofUesAccess access else none

/-- The number of UEs lags behind the table by what is still to be counted. -/
structure Tracked (t : RntiValueTable) : Prop where
  crntis : t.registered ⊆ Finset.Icc minCrnti maxCrnti
  lt : t.nofUes < 2 ^ 64
  count : (t.nofUes + t.due.count .add) % 2 ^ 64 = (t.registered.card + t.due.count .sub) % 2 ^ 64

variable {t t' : RntiValueTable}

theorem Tracked.nofUes_eq (h : t.Tracked) (hdue : t.due = 0) : t.nofUes = t.registered.card := by
  have hcard := Finset.card_le_card h.crntis
  have hcount := h.count
  have hlt := h.lt
  rw [Nat.card_Icc, maxCrnti, minCrnti] at hcard
  rw [hdue, Multiset.count_zero, Multiset.count_zero] at hcount
  omega

theorem Tracked.nofUesAccess {access : NofUesAccess} (h : t.Tracked) (hmem : access ∈ t.due)
    (hstep : t.nofUesAccess access = some t') : t'.Tracked := by
  have hcount := h.count
  have hlt := h.lt
  have hpos := Multiset.count_pos.mpr hmem
  cases access with
  | add =>
    cases hstep
    refine ⟨h.crntis, Nat.mod_lt _ (by decide), ?_⟩
    simp only [Multiset.count_erase_self, Multiset.count_erase_of_ne, ne_eq, reduceCtorEq, not_false_eq_true]
    omega
  | sub =>
    cases hstep
    refine ⟨h.crntis, Nat.mod_lt _ (by decide), ?_⟩
    simp only [Multiset.count_cons, Multiset.count_erase_self, Multiset.count_erase_of_ne, ne_eq, reduceCtorEq,
      not_false_eq_true, if_false, Nat.add_zero]
    omega
  | check =>
    obtain ⟨-, ⟨⟩⟩ := Option.ite_none_right_eq_some.mp hstep
    refine ⟨h.crntis, hlt, ?_⟩
    simp only [Multiset.count_erase_of_ne, ne_eq, reduceCtorEq, not_false_eq_true]
    exact hcount

theorem Tracked.access {access : TableAccess} (h : t.Tracked) (hstep : t.access access = some t') : t'.Tracked := by
  have hcount := h.count
  cases access with
  | addUe crnti =>
    obtain ⟨hcrnti, hstep⟩ := Option.ite_none_left_eq_some.mp hstep
    split at hstep
    · cases hstep
      exact h
    · rename_i hfree
      cases hstep
      refine ⟨Finset.insert_subset ?_ h.crntis, h.lt, ?_⟩
      · simpa [isCrnti, minCrnti, maxCrnti, Nat.one_le_iff_ne_zero, and_comm] using hcrnti
      · simp only [Finset.card_insert_of_notMem hfree, Multiset.count_cons, reduceCtorEq, if_true, if_false]
        omega
  | remUe crnti =>
    obtain ⟨-, hstep⟩ := Option.ite_none_left_eq_some.mp hstep
    split at hstep
    · cases hstep
      exact h
    · rename_i hmem
      rw [not_not] at hmem
      cases hstep
      have hpos := Finset.card_pos.mpr ⟨crnti, hmem⟩
      refine ⟨(Finset.erase_subset ..).trans h.crntis, h.lt, ?_⟩
      simp only [Finset.card_erase_of_mem hmem, Multiset.count_cons, reduceCtorEq, if_true, if_false]
      omega
  | nofUes access =>
    obtain ⟨hmem, hstep⟩ := Option.ite_none_right_eq_some.mp hstep
    exact h.nofUesAccess hmem hstep

end RntiValueTable

/-- The table, the counter, how often it was incremented, and the calls. -/
structure RntiManager extends RntiValueTable where
  rntiCounter : Nat
  nofSteps : Nat
  calls : Nat → AllocateCall

/-- An atomic access: to the table by its owners, or the next one of a call. -/
inductive RntiAccess where
  | table (access : TableAccess)
  | allocate (call : Nat)

namespace RntiManager

def create (initialRnti : Nat) : RntiManager where
  rntiCounter := initialRnti - minCrnti
  nofSteps := 0
  calls := fun _ => .idle

def setCall (m : RntiManager) (call : Nat) (c : AllocateCall) : RntiManager :=
  { m with calls := Function.update m.calls call c }

@[simp] theorem setCall_self (m : RntiManager) (call : Nat) (c : AllocateCall) : (m.setCall call c).calls call = c :=
  Function.update_self ..

variable {call : Nat}

theorem setCall_of_ne (m : RntiManager) {i : Nat} (h : i ≠ call) (c : AllocateCall) :
    (m.setCall call c).calls i = m.calls i :=
  Function.update_of_ne h ..

def crntiOf (prevCounter : Nat) : Nat := prevCounter % crntiRange + minCrnti

def fetchAdd (m : RntiManager) : RntiManager :=
  { m with rntiCounter := (m.rntiCounter + 1) % 2 ^ 16, nofSteps := m.nofSteps + 1 }

/-- The next atomic access of a call: the number of UEs, the counter, or the table. -/
def allocateStep (m : RntiManager) (call : Nat) : Option RntiManager :=
  match m.calls call with
  | .idle =>
    some (m.setCall call (if maxNofDuUes ≤ m.nofUes then .returned invalidRnti none else .searching))
  | .searching => some (m.fetchAdd.setCall call (.lookup (crntiOf m.rntiCounter) m.nofSteps))
  | .lookup tempCrnti k =>
    some (m.setCall call (if tempCrnti ∈ m.registered then .searching else .returned tempCrnti (some k)))
  | .returned _ _ => none

def step (m : RntiManager) : RntiAccess → Option RntiManager
  | .table access => (m.toRntiValueTable.access access).map fun t => { m with toRntiValueTable := t }
  | .allocate call => m.allocateStep call

theorem crntiRange_eq : crntiRange = 65519 := rfl

def crntiAt (initialRnti k : Nat) : Nat := crntiOf ((initialRnti - minCrnti + k) % 2 ^ 16)

/-- A counter value is an offset in the range, or one of the few values after it. -/
theorem crntiAt_cases (initialRnti k : Nat) :
    ∃ counter, counter = (initialRnti - minCrnti + k) % 65536 ∧ counter < 65536 ∧
      (counter < 65519 ∧ crntiAt initialRnti k = counter + 1 ∨
        65519 ≤ counter ∧ crntiAt initialRnti k = counter - 65519 + 1) := by
  refine ⟨_, rfl, Nat.mod_lt _ (by decide), ?_⟩
  have hat : crntiAt initialRnti k = (initialRnti - minCrnti + k) % 65536 % 65519 + 1 := rfl
  omega

theorem isCrnti_crntiAt (initialRnti k : Nat) : isCrnti (crntiAt initialRnti k) := by
  obtain ⟨counter, -, hlt, hat⟩ := crntiAt_cases initialRnti k
  simp only [isCrnti, Bool.and_eq_true, decide_eq_true_eq]
  omega

/-- The counter values from the range on, which give the RNTIs that come again right after it wraps around. -/
def IsRepeated (initialRnti k k' : Nat) : Prop :=
  k' = k + (2 ^ 16 - crntiRange) ∧ crntiRange ≤ (initialRnti - minCrnti + k) % 2 ^ 16

/-- Closer than the range of RNTIs these are the only steps with the same RNTI. -/
theorem crntiAt_eq_iff {initialRnti k k' : Nat} (hlt : k < k') (hnear : k' - k < crntiRange) :
    crntiAt initialRnti k = crntiAt initialRnti k' ↔ IsRepeated initialRnti k k' := by
  obtain ⟨counter, hcounter, hbound, hat⟩ := crntiAt_cases initialRnti k
  obtain ⟨counter', hcounter', hbound', hat'⟩ := crntiAt_cases initialRnti k'
  rw [IsRepeated, show 2 ^ 16 = 65536 from rfl, ← hcounter]
  rw [crntiRange_eq] at hnear ⊢
  omega

theorem card_crntiAt_le (initialRnti first rnti : Nat) :
    ((Finset.Ico first (first + (2 * maxNofDuUes + 1))).filter fun k => crntiAt initialRnti k = rnti).card ≤ 2 := by
  by_contra hmore
  obtain ⟨a, ha, b, hb, c, hc, hab, hac, hbc⟩ := Finset.two_lt_card.mp (Nat.lt_of_not_le hmore)
  simp only [Finset.mem_filter, Finset.mem_Ico, maxNofDuUes] at ha hb hc
  obtain ⟨counter, hcounter, hbound, hat⟩ := crntiAt_cases initialRnti a
  obtain ⟨counter', hcounter', hbound', hat'⟩ := crntiAt_cases initialRnti b
  obtain ⟨counter'', hcounter'', hbound'', hat''⟩ := crntiAt_cases initialRnti c
  omega

/-- Before long the counter comes to an RNTI that is not registered. -/
theorem exists_unregistered {registered : Finset Nat} (hfew : registered.card ≤ maxNofDuUes)
    (initialRnti first : Nat) :
    ∃ d, d ≤ 2 * maxNofDuUes ∧ crntiAt initialRnti (first + d) ∉ registered := by
  by_contra hnone
  push Not at hnone
  have hmaps : ∀ k ∈ Finset.Ico first (first + (2 * maxNofDuUes + 1)), crntiAt initialRnti k ∈ registered := by
    intro k hk
    obtain ⟨d, rfl⟩ := Nat.exists_eq_add_of_le (Finset.mem_Ico.mp hk).1
    exact hnone d (by have := (Finset.mem_Ico.mp hk).2; omega)
  have hcard := Finset.card_le_mul_card_image_of_maps_to hmaps 2 fun rnti _ => card_crntiAt_le initialRnti first rnti
  rw [Nat.card_Ico, Nat.add_sub_cancel_left] at hcard
  omega

def heldBy : AllocateCall → Option (Nat × Nat)
  | .idle | .searching => none
  | .lookup tempCrnti k => some (tempCrnti, k)
  | .returned rnti step => step.map fun k => (rnti, k)

/-- The counter has been incremented once for each step, and each step's RNTI is at most one call's. -/
structure Counted (initialRnti : Nat) (m : RntiManager) : Prop where
  counter : m.rntiCounter = (initialRnti - minCrnti + m.nofSteps) % 2 ^ 16
  held : ∀ call rnti k, heldBy (m.calls call) = some (rnti, k) → k < m.nofSteps ∧ rnti = crntiAt initialRnti k
  once : ∀ i j rnti rnti' k, heldBy (m.calls i) = some (rnti, k) → heldBy (m.calls j) = some (rnti', k) → i = j

variable {initialRnti : Nat} {m m' : RntiManager}

theorem Counted.setCall (h : Counted initialRnti m) {c : AllocateCall}
    (hheld : heldBy c = none ∨ heldBy c = heldBy (m.calls call)) :
    Counted initialRnti (m.setCall call c) := by
  have hkeep : ∀ i rnti k, heldBy ((m.setCall call c).calls i) = some (rnti, k) →
      heldBy (m.calls i) = some (rnti, k) := by
    intro i rnti k hi
    by_cases hcall : i = call
    · subst hcall
      rw [setCall_self] at hi
      rcases hheld with hnone | hsame
      · rw [hnone] at hi
        cases hi
      · rwa [← hsame]
    · rwa [setCall_of_ne m hcall] at hi
  exact ⟨h.counter, fun i rnti k hi => h.held i rnti k (hkeep i rnti k hi),
    fun i j rnti rnti' k hi hj => h.once i j rnti rnti' k (hkeep i rnti k hi) (hkeep j rnti' k hj)⟩

theorem Counted.fetchAdd (h : Counted initialRnti m) (call : Nat) :
    Counted initialRnti (m.fetchAdd.setCall call (.lookup (crntiOf m.rntiCounter) m.nofSteps)) := by
  have hcases : ∀ i rnti k,
      heldBy ((m.fetchAdd.setCall call (.lookup (crntiOf m.rntiCounter) m.nofSteps)).calls i) = some (rnti, k) →
      i = call ∧ k = m.nofSteps ∧ rnti = crntiAt initialRnti k ∨
        k < m.nofSteps ∧ heldBy (m.calls i) = some (rnti, k) := by
    intro i rnti k hi
    by_cases hcall : i = call
    · subst hcall
      rw [setCall_self] at hi
      cases hi
      exact .inl ⟨rfl, rfl, by rw [crntiAt, h.counter]⟩
    · rw [setCall_of_ne _ hcall] at hi
      exact .inr ⟨(h.held i rnti k hi).1, hi⟩
  constructor
  · have hcounter := h.counter
    simp only [RntiManager.setCall, RntiManager.fetchAdd]
    omega
  · intro i rnti k hi
    rcases hcases i rnti k hi with ⟨-, rfl, hrnti⟩ | ⟨hk, hi⟩
    · exact ⟨Nat.lt_succ_self _, hrnti⟩
    · exact ⟨Nat.lt_succ_of_lt hk, (h.held i rnti k hi).2⟩
  · intro i j rnti rnti' k hi hj
    rcases hcases i rnti k hi with ⟨rfl, hk, -⟩ | ⟨hk, hi⟩ <;> rcases hcases j rnti' k hj with ⟨rfl, hk', -⟩ | ⟨hk', hj⟩
    · rfl
    · omega
    · omega
    · exact h.once i j rnti rnti' k hi hj

theorem allocateStep_cases (hstep : m.allocateStep call = some m') :
    (m.calls call = .idle ∧ maxNofDuUes ≤ m.nofUes ∧ m' = m.setCall call (.returned invalidRnti none)) ∨
    (m.calls call = .idle ∧ m.nofUes < maxNofDuUes ∧ m' = m.setCall call .searching) ∨
    (m.calls call = .searching ∧
      m' = m.fetchAdd.setCall call (.lookup (crntiOf m.rntiCounter) m.nofSteps)) ∨
    (∃ tempCrnti k, m.calls call = .lookup tempCrnti k ∧ tempCrnti ∈ m.registered ∧
      m' = m.setCall call .searching) ∨
    (∃ tempCrnti k, m.calls call = .lookup tempCrnti k ∧ tempCrnti ∉ m.registered ∧
      m' = m.setCall call (.returned tempCrnti (some k))) := by
  rw [allocateStep] at hstep
  cases hcall : m.calls call with
  | idle =>
    rw [hcall] at hstep
    cases hstep
    by_cases hfull : maxNofDuUes ≤ m.nofUes
    · exact .inl ⟨rfl, hfull, by rw [if_pos hfull]⟩
    · exact .inr (.inl ⟨rfl, Nat.lt_of_not_le hfull, by rw [if_neg hfull]⟩)
  | searching =>
    rw [hcall] at hstep
    cases hstep
    exact .inr (.inr (.inl ⟨rfl, rfl⟩))
  | lookup tempCrnti k =>
    rw [hcall] at hstep
    cases hstep
    by_cases hmem : tempCrnti ∈ m.registered
    · exact .inr (.inr (.inr (.inl ⟨tempCrnti, k, rfl, hmem, by rw [if_pos hmem]⟩)))
    · exact .inr (.inr (.inr (.inr ⟨tempCrnti, k, rfl, hmem, by rw [if_neg hmem]⟩)))
  | returned rnti k =>
    rw [hcall] at hstep
    cases hstep

theorem Counted.allocateStep (h : Counted initialRnti m) (hstep : m.allocateStep call = some m') :
    Counted initialRnti m' := by
  rcases allocateStep_cases hstep with ⟨-, -, rfl⟩ | ⟨-, -, rfl⟩ | ⟨-, rfl⟩ | ⟨_, _, -, -, rfl⟩ |
    ⟨tempCrnti, k, hcall, -, rfl⟩
  · exact h.setCall (.inl rfl)
  · exact h.setCall (.inl rfl)
  · exact h.fetchAdd call
  · exact h.setCall (.inl rfl)
  · exact h.setCall (.inr (by rw [hcall]; rfl))

theorem Counted.step (h : Counted initialRnti m) {access : RntiAccess} (hstep : m.step access = some m') :
    Counted initialRnti m' := by
  cases access with
  | table access =>
    obtain ⟨t, -, rfl⟩ := Option.map_eq_some_iff.mp hstep
    exact ⟨h.counter, h.held, h.once⟩
  | allocate call => exact h.allocateStep hstep

theorem Counted.create (initialRnti : Nat) (hcrnti : isCrnti initialRnti) : Counted initialRnti (create initialRnti) where
  counter := by
    simp only [isCrnti, Bool.and_eq_true, decide_eq_true_eq] at hcrnti
    simp only [RntiManager.create, minCrnti]
    omega
  held := nofun
  once := nofun

def pendingOf (registered : Finset Nat) : AllocateCall → Nat
  | .idle | .searching => 1
  | .lookup tempCrnti _ => if tempCrnti ∈ registered then 1 else 0
  | .returned _ _ => 0

def accessesOf : AllocateCall → Nat
  | .idle | .lookup _ _ => 2
  | .searching => 1
  | .returned _ _ => 0

/-- A call may have to wait until the counter has passed all RNTIs that are registered. -/
def weightOf (registered : Finset Nat) (c : AllocateCall) : Nat :=
  2 * (2 * maxNofDuUes + 1) * pendingOf registered c + accessesOf c

theorem weightOf_le (registered : Finset Nat) (c : AllocateCall) :
    weightOf registered c ≤ 2 * (2 * maxNofDuUes + 1) + 2 := by
  have hpending : pendingOf registered c ≤ 1 := by
    cases c with
    | lookup tempCrnti k =>
      rw [pendingOf]
      split <;> omega
    | _ => simp [pendingOf]
  have haccesses : accessesOf c ≤ 2 := by
    cases c <;> simp [accessesOf]
  have hmul := Nat.mul_le_mul_left (2 * (2 * maxNofDuUes + 1)) hpending
  rw [weightOf]
  omega

section Distance
variable {table : Finset Nat}

def distance (hfew : table.card ≤ maxNofDuUes) (initialRnti first : Nat) : Nat := Nat.find (exists_unregistered hfew initialRnti first)

theorem distance_le (hfew : table.card ≤ maxNofDuUes) (initialRnti first : Nat) :
    distance hfew initialRnti first ≤ 2 * maxNofDuUes :=
  (Nat.find_spec (exists_unregistered hfew initialRnti first)).1

theorem distance_succ (hfew : table.card ≤ maxNofDuUes) {initialRnti first : Nat} (h : crntiAt initialRnti first ∈ table) :
    distance hfew initialRnti (first + 1) + 1 ≤ distance hfew initialRnti first := by
  obtain ⟨hle, hfree⟩ := Nat.find_spec (exists_unregistered hfew initialRnti first)
  change distance hfew initialRnti first ≤ _ at hle
  change crntiAt initialRnti (first + distance hfew initialRnti first) ∉ table at hfree
  have hpos : distance hfew initialRnti first ≠ 0 := by
    intro hzero
    rw [hzero] at hfree
    exact hfree h
  have hmin : distance hfew initialRnti (first + 1) ≤ distance hfew initialRnti first - 1 := by
    refine Nat.find_min' (exists_unregistered hfew initialRnti (first + 1)) ⟨by omega, ?_⟩
    rwa [show first + 1 + (distance hfew initialRnti first - 1) = first + distance hfew initialRnti first by omega]
  omega

/-- Bounds the accesses that the first `n` calls can still make. -/
def remaining (hfew : table.card ≤ maxNofDuUes) (initialRnti n : Nat) (m : RntiManager) : Nat :=
  (∑ call ∈ Finset.range n, weightOf table (m.calls call)) + 2 * distance hfew initialRnti m.nofSteps

theorem remaining_le (hfew : table.card ≤ maxNofDuUes) (initialRnti n : Nat) (m : RntiManager) :
    remaining hfew initialRnti n m ≤ n * (2 * (2 * maxNofDuUes + 1) + 2) + 2 * (2 * maxNofDuUes) := by
  have hsum : (∑ call ∈ Finset.range n, weightOf table (m.calls call)) ≤
      (Finset.range n).card * (2 * (2 * maxNofDuUes + 1) + 2) :=
    Finset.sum_le_card_nsmul _ _ _ fun call _ => weightOf_le table (m.calls call)
  rw [Finset.card_range] at hsum
  have hdistance := distance_le hfew initialRnti m.nofSteps
  rw [remaining]
  omega

theorem remaining_setCall {call n : Nat} (hcall : call < n) (hfew : table.card ≤ maxNofDuUes)
    (initialRnti : Nat) (m : RntiManager) (c : AllocateCall) :
    remaining hfew initialRnti n (m.setCall call c) + weightOf table (m.calls call) =
      remaining hfew initialRnti n m + weightOf table c := by
  have hsum := sum_update_add (Finset.mem_range.mpr hcall) m.calls (weightOf table) c
  simp only [remaining, RntiManager.setCall]
  omega

theorem remaining_fetchAdd (hfew : table.card ≤ maxNofDuUes) (initialRnti n : Nat) (m : RntiManager) :
    remaining hfew initialRnti n m.fetchAdd + 2 * distance hfew initialRnti m.nofSteps =
      remaining hfew initialRnti n m + 2 * distance hfew initialRnti (m.nofSteps + 1) := by
  simp only [remaining, RntiManager.fetchAdd]
  omega

/-- Every access of a call brings the calls closer to their end. -/
theorem remaining_lt (hfew : m.registered.card ≤ maxNofDuUes) {call n : Nat} (hcall : call < n)
    (h : Counted initialRnti m) (hstep : m.allocateStep call = some m') :
    remaining hfew initialRnti n m' < remaining hfew initialRnti n m := by
  rcases allocateStep_cases hstep with ⟨hc, -, rfl⟩ | ⟨hc, -, rfl⟩ | ⟨hc, rfl⟩ | ⟨tempCrnti, k, hc, hmem, rfl⟩ |
    ⟨tempCrnti, k, hc, hfree, rfl⟩
  · have hset := remaining_setCall hcall hfew initialRnti m (.returned invalidRnti none)
    simp only [hc, weightOf, pendingOf, accessesOf] at hset
    omega
  · have hset := remaining_setCall hcall hfew initialRnti m .searching
    simp only [hc, weightOf, pendingOf, accessesOf] at hset
    omega
  · -- the step either brings the counter closer to an unregistered RNTI or gives it to the call
    have hset := remaining_setCall hcall hfew initialRnti m.fetchAdd (.lookup (crntiOf m.rntiCounter) m.nofSteps)
    have hadd := remaining_fetchAdd hfew initialRnti n m
    have hcall' : m.fetchAdd.calls call = .searching := hc
    have hat : crntiOf m.rntiCounter = crntiAt initialRnti m.nofSteps := by rw [crntiAt, h.counter]
    rw [hcall', hat] at hset
    rw [hat]
    by_cases hmem : crntiAt initialRnti m.nofSteps ∈ m.registered
    · have hcloser := distance_succ hfew hmem
      simp only [weightOf, pendingOf, accessesOf, if_pos hmem] at hset
      omega
    · have hfar := distance_le hfew initialRnti (m.nofSteps + 1)
      simp only [weightOf, pendingOf, accessesOf, if_neg hmem] at hset
      omega
  · have hset := remaining_setCall hcall hfew initialRnti m .searching
    simp only [hc, weightOf, pendingOf, accessesOf, if_pos hmem] at hset
    omega
  · have hset := remaining_setCall hcall hfew initialRnti m (.returned tempCrnti (some k))
    simp only [hc, weightOf, pendingOf, accessesOf, if_neg hfree] at hset
    omega

end Distance

theorem table_allocateStep (hstep : m.allocateStep call = some m') :
    m'.toRntiValueTable = m.toRntiValueTable := by
  rcases allocateStep_cases hstep with ⟨-, -, rfl⟩ | ⟨-, -, rfl⟩ | ⟨-, rfl⟩ | ⟨_, _, -, -, rfl⟩ |
    ⟨_, _, -, -, rfl⟩ <;> rfl

theorem tracked_step (h : m.Tracked) {access : RntiAccess} (hstep : m.step access = some m') : m'.Tracked := by
  cases access with
  | table access =>
    obtain ⟨t, ht, rfl⟩ := Option.map_eq_some_iff.mp hstep
    exact h.access ht
  | allocate call => exact table_allocateStep hstep ▸ h

/-- Of `n` calls no run takes longer than the counter needs to pass all registered RNTIs once for each. -/
theorem allocate_length_le (hfew : m.registered.card ≤ maxNofDuUes) (h : Counted initialRnti m) {n : Nat}
    {accesses : List Nat} (hcalls : ∀ call ∈ accesses, call < n) (hrun : runAll allocateStep m accesses = some m') :
    accesses.length ≤ n * (2 * (2 * maxNofDuUes + 1) + 2) + 2 * (2 * maxNofDuUes) := by
  have hlen : accesses.length + remaining hfew initialRnti n m' ≤ remaining hfew initialRnti n m := by
    refine length_le_of_runAll (remaining hfew initialRnti n)
      (fun s => Counted initialRnti s ∧ s.registered = m.registered) (· < n) ?_ ⟨h, rfl⟩ hcalls hrun
    rintro s call s' ⟨hcounted, hsame⟩ hcall hstep
    have hfew' : s.registered.card ≤ maxNofDuUes := hsame ▸ hfew
    have hlt := remaining_lt hfew' hcall hcounted hstep
    refine ⟨⟨hcounted.allocateStep hstep, (congrArg (·.registered) (table_allocateStep hstep)).trans hsame⟩, ?_⟩
    simpa only [hsame] using hlt
  exact Nat.le_trans (Nat.le_trans (Nat.le_add_right _ _) hlen) (remaining_le hfew initialRnti n m)

theorem returned_or_allocateStep (m : RntiManager) (call : Nat) :
    (∃ rnti k, m.calls call = .returned rnti k) ∨ (m.allocateStep call).isSome := by
  cases hcall : m.calls call with
  | returned rnti k => exact .inl ⟨rnti, k, rfl⟩
  | _ => exact .inr (by simp [allocateStep, hcall])

theorem returned_unregistered (h : Counted initialRnti m) {rnti : Nat} {k : Option Nat}
    (hstep : m.allocateStep call = some m') (hreturned : m'.calls call = .returned rnti k) :
    rnti = invalidRnti ∧ maxNofDuUes ≤ m.nofUes ∨ isCrnti rnti ∧ rnti ∉ m.registered := by
  rcases allocateStep_cases hstep with ⟨-, hfull, rfl⟩ | ⟨-, -, rfl⟩ | ⟨-, rfl⟩ | ⟨_, _, -, -, rfl⟩ |
    ⟨tempCrnti, k', hcall, hfree, rfl⟩
  all_goals rw [setCall_self] at hreturned
  · exact .inl ⟨(AllocateCall.returned.inj hreturned).1.symm, hfull⟩
  · cases hreturned
  · cases hreturned
  · cases hreturned
  · have hheld := h.held call tempCrnti k' (by rw [hcall]; rfl)
    rw [← (AllocateCall.returned.inj hreturned).1]
    exact .inr ⟨hheld.2 ▸ isCrnti_crntiAt initialRnti k', hfree⟩

/-- Calls return valid unregistered RNTIs unless too many UEs are counted, calls near to each other
different ones, and all calls end. Without accesses due the UEs are those of the table. -/
theorem allocate_unique (h : Reaches step (fun _ _ => True) (create initialRnti) m) (hcrnti : isCrnti initialRnti) :
    (m.due = 0 → m.nofUes = m.registered.card) ∧
    (∀ call m' rnti k, m.step (.allocate call) = some m' → m'.calls call = .returned rnti k →
      rnti = invalidRnti ∧ maxNofDuUes ≤ m.nofUes ∨ isCrnti rnti ∧ rnti ∉ m.registered) ∧
    (∀ i j rnti rnti' k k', i ≠ j → m.calls i = .returned rnti (some k) →
      m.calls j = .returned rnti' (some k') → k ≤ k' → k' - k < crntiRange - maxNofDuUes →
      ¬ IsRepeated initialRnti k k' → rnti ≠ rnti') ∧
    (m.registered.card ≤ maxNofDuUes →
      (∀ call, (∃ rnti k, m.calls call = .returned rnti k) ∨ (m.step (.allocate call)).isSome) ∧
      ∀ (n : Nat) (accesses : List Nat) m', (∀ call ∈ accesses, call < n) → runAll step m (accesses.map .allocate) = some m' →
        accesses.length ≤ n * (2 * (2 * maxNofDuUes + 1) + 2) + 2 * (2 * maxNofDuUes)) := by
  have hcounted : Counted initialRnti m := h.invariant (.create initialRnti hcrnti)
    fun _ _ _ hinv _ hstep => hinv.step hstep
  have htracked : m.Tracked := h.invariant (I := fun m => m.Tracked)
    ⟨Finset.empty_subset _, Nat.two_pow_pos _, rfl⟩ fun _ _ _ hinv _ hstep => tracked_step hinv hstep
  refine ⟨htracked.nofUes_eq, ?_, ?_, ?_⟩
  · intro call m' rnti k hstep hreturned
    exact returned_unregistered hcounted hstep hreturned
  · intro i j rnti rnti' k k' hij hi hj hle hnear hrepeated heq
    have hi' : heldBy (m.calls i) = some (rnti, k) := by rw [hi]; rfl
    have hj' : heldBy (m.calls j) = some (rnti', k') := by rw [hj]; rfl
    have hne : k ≠ k' := by
      rintro rfl
      exact hij (hcounted.once i j rnti rnti' k hi' hj')
    refine hrepeated ((crntiAt_eq_iff (Nat.lt_of_le_of_ne hle hne) (Nat.lt_of_lt_of_le hnear (Nat.sub_le _ _))).mp ?_)
    rw [← (hcounted.held i rnti k hi').2, ← (hcounted.held j rnti' k' hj').2, heq]
  · intro hfew
    refine ⟨returned_or_allocateStep m, fun n accesses m' hcalls hrun => ?_⟩
    rw [runAll_map] at hrun
    exact allocate_length_le hfew hcounted hcalls hrun

/-- Two calls look up the first RNTIs before a UE with one of these is registered. -/
theorem allocate_unique_twoCalls :
    ∃ m : RntiManager, m.calls 0 = .returned 0x4603 (some 2) ∧ m.calls 1 = .returned 0x4602 (some 1) ∧
      (0x4602 : Nat) ≠ 0x4603 ∧ ∀ (accesses : List Nat) m', (∀ call ∈ accesses, call < 3) →
        runAll step m (accesses.map .allocate) = some m' → accesses.length ≤ 16396 := by
  have hrun : (runAll step (create 0x4601) [.allocate 0, .allocate 1, .allocate 0, .allocate 1, .table (.addUe 0x4601),
      .allocate 0, .allocate 0, .allocate 0, .allocate 1]).map (fun m => (m.registered.card, m.calls 0, m.calls 1)) =
      some (1, .returned 0x4603 (some 2), .returned 0x4602 (some 1)) := by decide +kernel
  obtain ⟨m, hm, hcalls⟩ := Option.map_eq_some_iff.mp hrun
  simp only [Prod.mk.injEq] at hcalls
  have hunique := allocate_unique (reaches_of_runAll .start (fun _ _ _ => trivial) hm) (by decide)
  refine ⟨m, hcalls.2.1, hcalls.2.2, ?_, ?_⟩
  · exact hunique.2.2.1 1 0 _ _ 1 2 (by decide) hcalls.2.2 hcalls.2.1 (by decide) (by decide)
      fun hrepeated => absurd hrepeated.1 (by decide)
  · have hfew : m.registered.card ≤ maxNofDuUes := hcalls.1.trans_le (by decide)
    exact (hunique.2.2.2 hfew).2 3

theorem reaches_nofUes (initialRnti : Nat) {n : Nat} (hn : n ≤ maxNofDuUes) :
    ∃ m, Reaches step (fun _ _ => True) (create initialRnti) m ∧ m.registered = Finset.Ioc 0 n ∧ m.nofUes = n ∧
      m.calls = fun _ => .idle := by
  induction n with
  | zero => exact ⟨_, .start, rfl, rfl, rfl⟩
  | succ n ih =>
    obtain ⟨m, hreaches, hregistered, hnofUes, hcalls⟩ := ih (Nat.le_of_succ_le hn)
    rw [maxNofDuUes] at hn
    have hcrnti : isCrnti (n + 1) = true := by
      simp only [isCrnti, Bool.and_eq_true, decide_eq_true_eq]
      omega
    have hfree : n + 1 ∉ m.registered := by
      rw [hregistered, Finset.mem_Ioc]
      omega
    let added : RntiManager := { m with registered := insert (n + 1) m.registered, due := .add ::ₘ m.due }
    have hadd : m.step (.table (.addUe (n + 1))) = some added := by
      rw [step, RntiValueTable.access, hcrnti, if_neg Bool.noConfusion, if_neg hfree]
      rfl
    have hcount : added.step (.table (.nofUes .add)) = some { added with
        nofUes := (m.nofUes + 1) % 2 ^ 64, due := added.due.erase .add } := by
      rw [step, RntiValueTable.access, if_pos (Multiset.mem_cons_self ..)]
      rfl
    refine ⟨_, (hreaches.next trivial hadd).next trivial hcount, ?_, ?_, hcalls⟩
    · ext crnti
      dsimp only [added]
      rw [hregistered, Finset.mem_insert, Finset.mem_Ioc, Finset.mem_Ioc]
      omega
    · dsimp only
      omega

/-- With 1024 UEs there is no RNTI, and calls 17 counter steps apart get the same one as the counter wraps
around. -/
theorem allocate_not_unique :
    (∃ m, Reaches step (fun _ _ => True) (create 0x4601) m ∧ m.registered.card ≤ maxNofDuUes ∧
      m.calls 0 = .returned invalidRnti none) ∧
    ∃ m, Reaches step (fun _ _ => True) (create 0xffef) m ∧ m.registered.card ≤ maxNofDuUes ∧
      m.calls 1 = .returned 0x1 (some 1) ∧ m.calls 18 = .returned 0x1 (some 18) := by
  constructor
  · obtain ⟨m, hreaches, hregistered, hnofUes, hcalls⟩ := reaches_nofUes 0x4601 (Nat.le_refl maxNofDuUes)
    have hstep : m.step (.allocate 0) = some (m.setCall 0 (.returned invalidRnti none)) := by
      rw [step, allocateStep, hcalls, hnofUes]
      rfl
    refine ⟨_, hreaches.next trivial hstep, ?_, setCall_self ..⟩
    exact (congrArg Finset.card hregistered).le.trans (Nat.card_Ioc ..).le
  · have hrun : (runAll step (create 0xffef) ((List.range 19).flatMap fun call =>
        List.replicate 3 (.allocate call))).map (fun m => (m.registered.card, m.calls 1, m.calls 18)) =
        some (0, .returned 0x1 (some 1), .returned 0x1 (some 18)) := by decide +kernel
    obtain ⟨m, hm, hcalls⟩ := Option.map_eq_some_iff.mp hrun
    simp only [Prod.mk.injEq] at hcalls
    exact ⟨m, reaches_of_runAll .start (fun _ _ _ => trivial) hm, hcalls.1.le.trans (Nat.zero_le _), hcalls.2⟩

end RntiManager
end Srsran.Mac
