import Srsran.Scheduler.RbInterval

/-! The search for contiguous free RBs (`support/rb_helper.h`). A bit of a bitmap is set when its RB is
used. -/
namespace Srsran.Scheduler

def bitsetLimits (used : List Bool) : RbInterval where
  start := 0
  stop := used.length
  start_le_stop := Nat.zero_le _

/-- The first free RBs within the limits, up to the next used one. -/
def findNextEmptyInterval (used : List Bool) (searchLimits : RbInterval) : RbInterval :=
  let limits := searchLimits.intersect (bitsetLimits used)
  match hstart : findLowest used limits.start limits.stop false with
  | none => .empty
  | some rbStart =>
    match hend : findLowest used (rbStart + 1) limits.stop true with
    | none =>
      { start := rbStart
        stop := limits.stop
        start_le_stop := Nat.le_of_lt (findLowest_eq_some hstart).2.1 }
    | some rbEnd =>
      { start := rbStart
        stop := rbEnd
        start_le_stop := Nat.le_of_succ_le (findLowest_eq_some hend).1 }

def RbFree (used : List Bool) (rb : Nat) : Prop := used[rb]? = some false

instance (used : List Bool) (rb : Nat) : Decidable (RbFree used rb) :=
  inferInstanceAs (Decidable (_ = _))

section FindNext
variable {used : List Bool} {limits : RbInterval} {rb : Nat}

theorem RbFree.lt (h : RbFree used rb) : rb < used.length := (List.getElem?_eq_some_iff.mp h).1

theorem free_of_not_used (hlt : rb < used.length) (h : used[rb]? ≠ some true) : RbFree used rb := by
  rw [List.getElem?_eq_getElem hlt] at h
  rw [RbFree, List.getElem?_eq_getElem hlt]
  cases hbit : used[rb] with
  | false => rfl
  | true => exact absurd (congrArg some hbit) h

theorem not_free_of_used (h : used[rb]? = some true) : ¬RbFree used rb := by
  intro hfree
  rw [RbFree, h] at hfree
  cases hfree

/-- The free RBs that a search finds first, and how they end. -/
structure NextRun (used : List Bool) (limits run : RbInterval) : Prop where
  nonempty : run.start < run.stop
  start_le : limits.start ≤ run.start
  stop_le : run.stop ≤ limits.stop
  free : ∀ rb, run.start ≤ rb → rb < run.stop → RbFree used rb
  before : ∀ rb, limits.start ≤ rb → rb < run.start → ¬RbFree used rb
  ends : run.stop = limits.stop ∨ ¬RbFree used run.stop

theorem findNextEmptyInterval_cases :
    (findNextEmptyInterval used limits = .empty ∧ ∀ rb, limits.Holds rb → ¬RbFree used rb) ∨
      NextRun used limits (findNextEmptyInterval used limits) := by
  have hmem : ∀ {rb}, (limits.intersect (bitsetLimits used)).Holds rb ↔
      limits.Holds rb ∧ rb < used.length := by
    intro rb
    rw [RbInterval.holds_intersect]
    exact and_congr_right fun _ => ⟨fun h => h.2, fun h => ⟨Nat.zero_le rb, h⟩⟩
  rw [findNextEmptyInterval]
  split
  · rename_i hnone
    refine .inl ⟨rfl, fun rb hrb hfree => ?_⟩
    have hholds := hmem.mpr ⟨hrb, hfree.lt⟩
    exact findLowest_eq_none hnone hholds.1 hholds.2 hfree
  · rename_i rbStart hstart
    obtain ⟨hge, hlt, hfree, hbefore⟩ := findLowest_eq_some hstart
    have hinside := hmem.mp ⟨hge, hlt⟩
    have hlast := (hmem.mp ⟨by omega, Nat.sub_one_lt_of_lt hlt⟩ :
      limits.Holds ((limits.intersect (bitsetLimits used)).stop - 1) ∧ _)
    have hstop : (limits.intersect (bitsetLimits used)).stop ≤ limits.stop :=
      Nat.le_of_pred_lt hlast.1.2
    have hnotBefore : ∀ rb, limits.start ≤ rb → rb < rbStart → ¬RbFree used rb := by
      intro rb hrb hrb' hfree'
      have hholds := hmem.mpr ⟨⟨hrb, Nat.lt_trans hrb' hinside.1.2⟩, hfree'.lt⟩
      exact hbefore rb hholds.1 hrb' hfree'
    split
    · rename_i hnoEnd
      refine .inr ⟨hlt, hinside.1.1, hstop, ?_, hnotBefore, ?_⟩
      · intro rb hrb hrb'
        have hholds := hmem.mp ⟨Nat.le_trans hge hrb, hrb'⟩
        rcases Nat.eq_or_lt_of_le hrb with heq | hgt
        · exact heq ▸ hfree
        · exact free_of_not_used hholds.2 (findLowest_eq_none hnoEnd hgt hrb')
      · by_contra hopen
        rw [not_or, not_not] at hopen
        have hholds := hmem.mpr ⟨⟨Nat.le_trans hinside.1.1 (Nat.le_of_lt hlt),
          Nat.lt_of_le_of_ne hstop hopen.1⟩, hopen.2.lt⟩
        exact Nat.lt_irrefl _ hholds.2
    · rename_i rbEnd hend
      obtain ⟨hgt, hlt', hused, hnoneUsed⟩ := findLowest_eq_some hend
      refine .inr ⟨hgt, hinside.1.1, Nat.le_trans (Nat.le_of_lt hlt') hstop, ?_, hnotBefore,
        .inr (not_free_of_used hused)⟩
      intro rb hrb hrb'
      have hholds := hmem.mp ⟨Nat.le_trans hge hrb, Nat.lt_trans hrb' hlt'⟩
      rcases Nat.eq_or_lt_of_le hrb with heq | hgt
      · exact heq ▸ hfree
      · exact free_of_not_used hholds.2 (hnoneUsed rb hgt hrb')

theorem findNextEmptyInterval_nextRun (h : ¬(findNextEmptyInterval used limits).isEmpty) :
    NextRun used limits (findNextEmptyInterval used limits) := by
  rcases @findNextEmptyInterval_cases used limits with hnone | hrun
  · rw [hnone.1] at h
    exact absurd rfl h
  · exact hrun

end FindNext

/-- The loop of `find_empty_interval_of_length`. -/
def searchLoop (used : List Bool) (nofRbs : Nat) (searchLimits maxInterv : RbInterval) : RbInterval :=
  let interv := findNextEmptyInterval used searchLimits
  if hempty : interv.isEmpty then maxInterv
  else if nofRbs ≤ interv.length then RbInterval.ofLength interv.start nofRbs
  else
    let longest := if maxInterv.length < interv.length then interv else maxInterv
    let nextLimits := searchLimits.displaceTo (interv.stop + 1)
    if nextLimits.isEmpty then longest else searchLoop used nofRbs nextLimits longest
termination_by used.length + 1 - searchLimits.start
decreasing_by
  have hrun := findNextEmptyInterval_nextRun hempty
  have hfree := (hrun.free _ (Nat.le_refl _) hrun.nonempty).lt
  have hstart := hrun.start_le
  have hlt := hrun.nonempty
  change used.length + 1 - ((findNextEmptyInterval used searchLimits).stop + 1) < _
  omega

def findEmptyIntervalOfLength (used : List Bool) (nofRbs : Nat) (searchLimits : RbInterval) : RbInterval :=
  searchLoop used nofRbs (searchLimits.intersect (bitsetLimits used)) .empty

def maxNofPrbs : Nat := 275

end Srsran.Scheduler
