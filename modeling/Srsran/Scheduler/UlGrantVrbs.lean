import Srsran.Scheduler.WeightedGrants

/-! RBs of transmissions in the UL (`grant_params_selector.cpp`), with the numbers of RBs that a transform
precoder takes (`transform_precoding_helpers.h`). -/
namespace Srsran.Scheduler

/-- The numbers that `get_valid_nof_prbs` marks. -/
def validNofPrbs : List Nat :=
  [1, 2, 3, 4, 5, 6, 8, 9, 10, 12, 15, 16, 18, 20, 24, 25, 27, 30, 32, 36, 40, 45, 48, 50, 54, 60, 64, 72, 75, 80, 81,
    90, 96, 100, 108, 120, 125, 128, 135, 144, 150, 160, 162, 180, 192, 200, 216, 225, 240, 243, 250, 256, 270]

def isNofPrbsValid (nofPrb : Nat) : Bool := validNofPrbs.contains nofPrb

def getNofPrbsLowerBound (nofPrb : Nat) : Option Nat :=
  if nofPrb > maxNofPrbs + 1 then none else (List.range (nofPrb + 1)).reverse.find? isNofPrbsValid

theorem getNofPrbsLowerBound_of_pos {nofPrb : Nat} (hpos : 0 < nofPrb) (hle : nofPrb ≤ maxNofPrbs) :
    ∃ valid, getNofPrbsLowerBound nofPrb = some valid ∧ 0 < valid ∧ valid ≤ nofPrb := by
  rw [getNofPrbsLowerBound, if_neg (by omega)]
  cases hfind : (List.range (nofPrb + 1)).reverse.find? isNofPrbsValid with
  | none =>
    have hone := List.find?_eq_none.mp hfind 1 (by simpa using hpos)
    exact absurd (by decide : isNofPrbsValid 1 = true) hone
  | some valid =>
    have hvalid : isNofPrbsValid valid = true := List.find?_some hfind
    have hmem := List.mem_of_find?_eq_some hfind
    rw [List.mem_reverse, List.mem_range] at hmem
    refine ⟨valid, rfl, Nat.pos_of_ne_zero ?_, Nat.le_of_lt_succ hmem⟩
    rintro rfl
    exact absurd hvalid (by decide)

/-- `ul_sched_context` of a new transmission: the limits for the number of RBs are not empty. -/
structure UlNewTxContext where
  vrbLims : RbInterval
  nofRbLims : RbInterval
  expectedNofRbs : Nat
  useTransformPrecoder : Bool
  lims_nonempty : nofRbLims.start < nofRbLims.stop
  expected_pos : 0 < expectedNofRbs

namespace UlNewTxContext

def nofRbs (ctx : UlNewTxContext) (maxRbs : Nat) : Nat :=
  ctx.nofRbLims.clamp (min ctx.expectedNofRbs maxRbs)

def findAvailableVrbs (ctx : UlNewTxContext) (vrbs : VrbBitmap) (maxRbs : Nat) : RbInterval :=
  let found := findEmptyIntervalOfLength vrbs.used (ctx.nofRbs maxRbs) ctx.vrbLims
  if found.isEmpty then .empty
  else if ctx.useTransformPrecoder then
    match getNofPrbsLowerBound found.length with
    | none => .empty
    | some valid => found.resize valid
  else found

def computeNewtxUlVrbs (ctx : UlNewTxContext) (vrbs : VrbBitmap) (maxNofRbs : Nat) : RbInterval :=
  ctx.findAvailableVrbs vrbs maxNofRbs

variable {ctx : UlNewTxContext} {vrbs : VrbBitmap} {maxRbs : Nat}

/-- RBs at the start of others, none only if there are none. -/
structure Heads (a found : RbInterval) : Prop where
  length_le : a.length ≤ found.length
  holds : ∀ rb, a.Holds rb → found.Holds rb
  isEmpty_iff : a.isEmpty = true ↔ found.isEmpty = true

/-- The transform precoder leaves some of the RBs that are found. -/
theorem heads_findAvailableVrbs : Heads (ctx.findAvailableVrbs vrbs maxRbs)
    (findEmptyIntervalOfLength vrbs.used (ctx.nofRbs maxRbs) ctx.vrbLims) := by
  have hfree := (@findEmptyIntervalOfLength_free vrbs.used (ctx.nofRbs maxRbs) ctx.vrbLims).1
  rw [findAvailableVrbs]
  generalize findEmptyIntervalOfLength vrbs.used (ctx.nofRbs maxRbs) ctx.vrbLims = found at hfree ⊢
  have hlength := found.start_add_length
  split
  · rename_i hempty
    exact ⟨Nat.zero_le _, fun rb hrb => absurd hrb.2 (Nat.not_lt_zero rb), iff_of_true rfl hempty⟩
  · rename_i hnonempty
    split
    · have hpos : 0 < found.length := Nat.pos_of_ne_zero fun hzero => hnonempty (RbInterval.isEmpty_iff.mpr hzero)
      have hlast := (hfree (found.stop - 1) ⟨by omega, by omega⟩).lt
      have hsize := vrbs.size_le
      obtain ⟨valid, hvalid, hvalidPos, hle⟩ := getNofPrbsLowerBound_of_pos hpos (by omega)
      have hresize : (found.resize valid).length = valid := RbInterval.length_ofLength _ _
      rw [hvalid]
      refine ⟨hresize.trans_le hle, fun rb hrb => ⟨hrb.1, ?_⟩, ?_⟩
      · have hlt : rb < found.start + valid := hrb.2
        omega
      · rw [RbInterval.isEmpty_iff, RbInterval.isEmpty_iff, hresize]
        omega
    · exact ⟨Nat.le_refl _, fun _ hrb => hrb, Iff.rfl⟩

theorem nofRbs_pos (hpos : 0 < maxRbs) : 0 < ctx.nofRbs maxRbs := by
  have hlims := ctx.lims_nonempty
  have hexpected := ctx.expected_pos
  rw [nofRbs, RbInterval.clamp]
  omega

theorem findAvailableVrbs_isEmpty_iff (hpos : 0 < maxRbs) :
    (ctx.findAvailableVrbs vrbs maxRbs).isEmpty = true ↔ ∀ rb, ctx.vrbLims.Holds rb → ¬RbFree vrbs.used rb :=
  heads_findAvailableVrbs.isEmpty_iff.trans (findEmptyIntervalOfLength_isEmpty_iff (nofRbs_pos hpos))

theorem findAvailableVrbs_free {rb : Nat} (h : (ctx.findAvailableVrbs vrbs maxRbs).Holds rb) : RbFree vrbs.used rb :=
  findEmptyIntervalOfLength_free.1 rb (heads_findAvailableVrbs.holds rb h)

/-- A limit matters only for the RBs up to it: more are given if they are the smallest grant. -/
theorem findAvailableVrbs_length_lt_iff {bound : Nat} (h : maxRbs < bound) :
    (ctx.findAvailableVrbs vrbs maxRbs).length < bound ↔ (ctx.findAvailableVrbs vrbs 0).length < bound := by
  rcases Nat.lt_or_ge ctx.nofRbLims.start bound with hsmall | hlarge
  · have hshort : ∀ {limit}, limit < bound → (ctx.findAvailableVrbs vrbs limit).length < bound := by
      intro limit hlimit
      refine (heads_findAvailableVrbs.length_le.trans findEmptyIntervalOfLength_free.2).trans_lt ?_
      rw [nofRbs, RbInterval.clamp]
      omega
    exact iff_of_true (hshort h) (hshort (Nat.zero_lt_of_lt h))
  · have hsame : ctx.nofRbs maxRbs = ctx.nofRbs 0 := by
      rw [nofRbs, nofRbs, RbInterval.clamp, RbInterval.clamp]
      omega
    rw [findAvailableVrbs, findAvailableVrbs, hsame]

end UlNewTxContext
end Srsran.Scheduler
