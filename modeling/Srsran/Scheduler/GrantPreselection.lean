import Srsran.Scheduler.WeightedGrants

/-! The UEs that are selected for new transmissions (`intra_slice_scheduler.cpp`): how many RBs there are for
them, and for which of them a grant is set up before its RBs are known. -/
namespace Srsran.Scheduler

/-- What limits the new transmissions of a slice. The CORESET is that of the first candidate, if it has the search
space. -/
structure GrantBudget where
  nofCces : Option Nat
  pdcchsInGrid : Nat
  nofBwpRbs : Nat
  remainingRbs : Nat

namespace GrantBudget

def maxUeGrantPerSlot : Nat := 8

def minRbPerGrant : Nat := 4

def uesToAlloc (b : GrantBudget) (maxUeGrants nofCandidates nofCces : Nat) : Nat :=
  let uesToAlloc := min maxUeGrants (min (max (nofCandidates / 4) 1) maxUeGrantPerSlot)
  let maxNofCandidates := nofCces / 2 / 2
  min (maxNofCandidates - min b.pdcchsInGrid maxNofCandidates) uesToAlloc

def getMaxGrantsAndRbGrantSize (b : GrantBudget) (maxUeGrants nofCandidates : Nat) (vrbs : VrbBitmap) : Nat × Nat :=
  match b.nofCces with
  | none => (0, 0)
  | some nofCces =>
    let uesToAlloc := b.uesToAlloc maxUeGrants nofCandidates nofCces
    if uesToAlloc = 0 then (0, 0)
    else
      let maxNofRbs := min (min b.nofBwpRbs b.remainingRbs) vrbs.free
      if maxNofRbs = 0 then (0, 0) else (maxNofRbs, max (maxNofRbs / uesToAlloc) minRbPerGrant)

theorem getMaxGrantsAndRbGrantSize_pos {b : GrantBudget} {maxUeGrants nofCandidates : Nat} {vrbs : VrbBitmap}
    (h : (b.getMaxGrantsAndRbGrantSize maxUeGrants nofCandidates vrbs).2 ≠ 0) :
    0 < (b.getMaxGrantsAndRbGrantSize maxUeGrants nofCandidates vrbs).1 := by
  revert h
  rw [getMaxGrantsAndRbGrantSize]
  cases b.nofCces with
  | none => exact fun h => absurd rfl h
  | some nofCces =>
    dsimp only
    split
    · exact fun h => absurd rfl h
    · split
      · exact fun h => absurd rfl h
      · rename_i hrbs
        exact fun _ => Nat.pos_of_ne_zero hrbs

end GrantBudget

/-- Why no grant is set up, as far as it matters here. -/
inductive GrantRefusal where
  | skipSlot
  | uciAllocFailed
  | other

/-- A candidate, whether HARQ-ACK bits can go with an UCI or PUSCH that it has after the slot, and what comes of
setting up its grant. -/
structure NewTxCandidate (Ctx : Type) where
  hasUci : Bool
  grant : Except GrantRefusal Ctx

structure Preselected (Ctx : Type) where
  pending : List Ctx := []
  rbCount : Nat := 0
  attemptsCount : Nat
  pucchGrantLimitExceeded : Bool := false

/-- Stage 1 of a direction, with the number of RBs that a grant is expected to take. Only the grants of the DL need
a PUCCH. -/
structure Preselection (Ctx : Type) where
  needsPucch : Bool
  rbsToAlloc : Nat
  rbsPerGrant : Nat
  maxUeGrants : Nat
  maxAttempts : Nat
  estimatedPrbs : Ctx → Nat
  rbsToAlloc_pos : 0 < rbsToAlloc
  rbsPerGrant_pos : 0 < rbsPerGrant
  estimatedPrbs_pos : ∀ ctx, 0 < estimatedPrbs ctx

namespace Preselection
variable {Ctx : Type}

/-- The number of attempts is limited. The flag tells whether the loop goes on. -/
def attempted (p : Preselection Ctx) (s : Preselected Ctx) : Preselected Ctx × Bool :=
  ({ s with attemptsCount := s.attemptsCount + 1 }, s.attemptsCount + 1 < p.maxAttempts)

def consider (p : Preselection Ctx) (s : Preselected Ctx) (candidate : NewTxCandidate Ctx) :
    Preselected Ctx × Bool :=
  if p.needsPucch ∧ s.pucchGrantLimitExceeded ∧ ¬candidate.hasUci then (s, true)
  else
    match candidate.grant with
    | .ok ctx =>
      let s :=
        { s with
          rbCount := s.rbCount + min (p.estimatedPrbs ctx) p.rbsPerGrant
          pending := s.pending ++ [ctx] }
      if s.rbCount ≥ p.rbsToAlloc then (s, false)
      else if s.pending.length ≥ p.maxUeGrants then (s, false)
      else p.attempted s
    | .error .skipSlot => (s, false)
    | .error .uciAllocFailed => p.attempted { s with pucchGrantLimitExceeded := true }
    | .error .other => p.attempted s

def select (p : Preselection Ctx) : List (NewTxCandidate Ctx) → Preselected Ctx → Preselected Ctx
  | [], s => s
  | candidate :: rest, s =>
    let next := p.consider s candidate
    if next.2 then p.select rest next.1 else next.1

variable {p : Preselection Ctx} {s : Preselected Ctx} {candidate : NewTxCandidate Ctx}

/-- While RBs are left, every grant has one of those that are counted. -/
def Open (p : Preselection Ctx) (s : Preselected Ctx) : Prop :=
  s.pending.length ≤ s.rbCount ∧ s.rbCount < p.rbsToAlloc

theorem Open.length_le (h : p.Open s) : s.pending.length ≤ p.rbsToAlloc :=
  h.1.trans (Nat.le_of_lt h.2)

theorem Open.consider (h : p.Open s) :
    (p.consider s candidate).1.pending.length ≤ p.rbsToAlloc ∧
      ((p.consider s candidate).2 = true → p.Open (p.consider s candidate).1) := by
  rw [Preselection.consider]
  split
  · exact ⟨h.length_le, fun _ => h⟩
  · split
    · rename_i ctx _
      have htakes : 0 < min (p.estimatedPrbs ctx) p.rbsPerGrant :=
        lt_min (p.estimatedPrbs_pos ctx) p.rbsPerGrant_pos
      obtain ⟨hcounted, hleft⟩ := h
      have hlength : (s.pending ++ [ctx]).length = s.pending.length + 1 := List.length_append
      dsimp only
      split
      · exact ⟨by rw [hlength]; omega, nofun⟩
      · rename_i hmore
        have hopen : (s.pending ++ [ctx]).length ≤ s.rbCount + min (p.estimatedPrbs ctx) p.rbsPerGrant := by
          rw [hlength]
          omega
        split
        · exact ⟨hopen.trans (Nat.le_of_lt (Nat.lt_of_not_le hmore)), nofun⟩
        · exact ⟨hopen.trans (Nat.le_of_lt (Nat.lt_of_not_le hmore)), fun _ => ⟨hopen, Nat.lt_of_not_le hmore⟩⟩
    · exact ⟨h.length_le, nofun⟩
    · exact ⟨h.length_le, fun _ => h⟩
    · exact ⟨h.length_le, fun _ => h⟩

theorem select_length_le {candidates : List (NewTxCandidate Ctx)} (h : p.Open s) :
    (p.select candidates s).pending.length ≤ p.rbsToAlloc := by
  induction candidates generalizing s with
  | nil => exact h.length_le
  | cons candidate rest ih =>
    obtain ⟨hlength, hopen⟩ := @Open.consider _ _ _ candidate h
    rw [select]
    split
    · rename_i hnext
      exact ih (hopen hnext)
    · exact hlength

end Preselection
end Srsran.Scheduler
