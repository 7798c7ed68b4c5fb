import Srsran.Scheduler.RbHelper

/-! What the search for free RBs finds, and when it stays within its limits. -/
namespace Srsran.Scheduler
open RbInterval

/-- A number of free RBs from `start`, within the limits. -/
def FreeRun (used : List Bool) (limits : RbInterval) (start length : Nat) : Prop :=
  limits.start ≤ start ∧ start + length ≤ limits.stop ∧
    ∀ rb, start ≤ rb → rb < start + length → RbFree used rb

/-- The lowest run of the length, or a longest run if there is none. -/
def BestRun (used : List Bool) (nofRbs : Nat) (limits result : RbInterval) : Prop :=
  (∃ start, result = ofLength start nofRbs ∧ FreeRun used limits start nofRbs ∧
      ∀ rb, rb < start → ¬FreeRun used limits rb nofRbs) ∨
    (∀ start, ¬FreeRun used limits start nofRbs) ∧
      (result.isEmpty ∨ FreeRun used limits result.start result.length) ∧
        ∀ start length, FreeRun used limits start length → length ≤ result.length

/-- The limits at which the search arrives: they are moved behind a run that is too short, and keep their
length. -/
inductive Searched (used : List Bool) (nofRbs : Nat) : RbInterval → RbInterval → Prop where
  | here (window : RbInterval) : Searched used nofRbs window window
  | next {window window' : RbInterval} : ¬(findNextEmptyInterval used window).isEmpty →
      (findNextEmptyInterval used window).length < nofRbs →
      Searched used nofRbs (window.displaceTo ((findNextEmptyInterval used window).stop + 1)) window' →
      Searched used nofRbs window window'

/-- A run that leaves the limits is not longer than one within them, as far as the length asked for
matters. -/
def StaysWithin (used : List Bool) (nofRbs : Nat) (limits : RbInterval) : Prop :=
  ∀ window, Searched used nofRbs (limits.intersect (bitsetLimits used)) window →
    (findNextEmptyInterval used window).stop ≤ limits.stop ∨
      ∃ start length, FreeRun used limits start length ∧
        min nofRbs (findNextEmptyInterval used window).length ≤ length

section Search
variable {used : List Bool} {nofRbs : Nat} {limits window window' best : RbInterval}

theorem Searched.trans {window'' : RbInterval} (h : Searched used nofRbs window window')
    (h' : Searched used nofRbs window' window'') : Searched used nofRbs window window'' := by
  induction h with
  | here window => exact h'
  | next hne hlt _ ih => exact .next hne hlt (ih h')

/-- A run that the search found, with only shorter ones before it, as far as the length asked for
matters. -/
structure FirstBest (used : List Bool) (nofRbs : Nat) (limits run : RbInterval) : Prop where
  searched : ∃ window, Searched used nofRbs limits window ∧ run = findNextEmptyInterval used window
  nonempty : run.start < run.stop
  earlier : ∀ start length, FreeRun used limits start length → start < run.start →
    length < min nofRbs run.length

/-- What the loop knows: every run within the limits that begins before the window is not longer than the
best one. -/
structure Searching (used : List Bool) (nofRbs : Nat) (limits window best : RbInterval) : Prop where
  searched : Searched used nofRbs limits window
  start_le : limits.start ≤ window.start
  stop_le : limits.stop ≤ window.stop
  covered : ∀ start length, FreeRun used limits start length → start < window.start →
    length ≤ best.length
  small : best.length < nofRbs
  found : best = .empty ∨ FirstBest used nofRbs limits best

theorem searching_start (hpos : 1 ≤ nofRbs) : Searching used nofRbs limits limits .empty where
  searched := .here limits
  start_le := Nat.le_refl _
  stop_le := Nat.le_refl _
  covered := fun _ _ hrun hlt => absurd hrun.1 (Nat.not_le_of_lt hlt)
  small := hpos
  found := .inl rfl

variable {run : RbInterval} {start length : Nat}

/-- Runs that begin in the window are not longer than the first one of it. -/
theorem Searching.within (h : Searching used nofRbs limits window best)
    (hrun : NextRun used window run) (hfree : FreeRun used limits start length)
    (hstart : window.start ≤ start) (hstop : start ≤ run.stop) : length ≤ run.length := by
  obtain ⟨-, hle, hbits⟩ := hfree
  rcases Nat.eq_zero_or_pos length with hzero | hpos
  · rw [hzero]
    exact Nat.zero_le _
  · have hge : run.start ≤ start := by
      by_contra hlt
      exact hrun.before start hstart (Nat.lt_of_not_le hlt)
        (hbits start (Nat.le_refl start) (Nat.lt_add_of_pos_right hpos))
    have hend : start + length ≤ run.stop := by
      by_contra hlt
      rcases hrun.ends with hwindow | hused
      · have hstop_le := h.stop_le
        omega
      · exact hused (hbits run.stop hstop (Nat.lt_of_not_le hlt))
    rw [RbInterval.length]
    omega

/-- The first run of the window, when it is longer than what was found before. -/
theorem Searching.firstBest (h : Searching used nofRbs limits window best)
    (hne : ¬(findNextEmptyInterval used window).isEmpty)
    (hlonger : best.length < min nofRbs (findNextEmptyInterval used window).length) :
    FirstBest used nofRbs limits (findNextEmptyInterval used window) where
  searched := ⟨window, h.searched, rfl⟩
  nonempty := (findNextEmptyInterval_nextRun hne).nonempty
  earlier := by
    intro start length hfree hlt
    rcases Nat.lt_or_ge start window.start with hbefore | hafter
    · exact Nat.lt_of_le_of_lt (h.covered start length hfree hbefore) hlonger
    · rcases Nat.eq_zero_or_pos length with hzero | hpos
      · rw [hzero]
        exact Nat.zero_lt_of_lt hlonger
      · exact absurd (hfree.2.2 start (Nat.le_refl start) (Nat.lt_add_of_pos_right hpos))
          ((findNextEmptyInterval_nextRun hne).before start hafter hlt)

theorem le_longest (best run : RbInterval) :
    best.length ≤ (if best.length < run.length then run else best).length ∧
      run.length ≤ (if best.length < run.length then run else best).length := by
  split
  · rename_i hlt
    exact ⟨Nat.le_of_lt hlt, Nat.le_refl _⟩
  · rename_i hle
    exact ⟨Nat.le_refl _, Nat.le_of_not_lt hle⟩

theorem Searching.next (h : Searching used nofRbs limits window best)
    (hne : ¬(findNextEmptyInterval used window).isEmpty)
    (hlt : (findNextEmptyInterval used window).length < nofRbs) :
    Searching used nofRbs limits (window.displaceTo ((findNextEmptyInterval used window).stop + 1))
      (if best.length < (findNextEmptyInterval used window).length then findNextEmptyInterval used window
        else best) where
  searched := h.searched.trans (.next hne hlt (.here _))
  start_le := by
    have hrun := findNextEmptyInterval_nextRun hne
    have hstart := hrun.start_le
    have hstop := hrun.nonempty
    have hle := h.start_le
    change limits.start ≤ (findNextEmptyInterval used window).stop + 1
    omega
  stop_le := by
    have hrun := findNextEmptyInterval_nextRun hne
    have hstart := hrun.start_le
    have hstop := hrun.nonempty
    have hle := h.stop_le
    have hlength := window.start_add_length
    change limits.stop ≤ (findNextEmptyInterval used window).stop + 1 + window.length
    omega
  covered := by
    intro start length hfree hstart
    obtain ⟨hbest, hlongest⟩ := le_longest best (findNextEmptyInterval used window)
    rcases Nat.lt_or_ge start window.start with hbefore | hafter
    · exact Nat.le_trans (h.covered start length hfree hbefore) hbest
    · exact Nat.le_trans
        (h.within (findNextEmptyInterval_nextRun hne) hfree hafter (Nat.le_of_lt_succ hstart)) hlongest
  small := by
    split
    · exact hlt
    · exact h.small
  found := by
    split
    · rename_i hlonger
      exact .inr (h.firstBest hne (Nat.lt_min.mpr ⟨h.small, hlonger⟩))
    · exact h.found

theorem displaceTo_nonempty (hne : ¬(findNextEmptyInterval used window).isEmpty) (start : Nat) :
    ¬(window.displaceTo start).isEmpty := by
  have hrun := findNextEmptyInterval_nextRun hne
  have hstart := hrun.start_le
  have hstop := hrun.stop_le
  have hlt := hrun.nonempty
  rw [RbInterval.isEmpty_iff, RbInterval.displaceTo, RbInterval.length_ofLength, RbInterval.length]
  omega

theorem Searching.exhausted (h : Searching used nofRbs limits window best)
    (hempty : (findNextEmptyInterval used window).isEmpty)
    (hfree : FreeRun used limits start length) : length ≤ best.length := by
  rcases Nat.lt_or_ge start window.start with hbefore | hafter
  · exact h.covered start length hfree hbefore
  · rcases @findNextEmptyInterval_cases used window with hnone | hrun
    · obtain ⟨-, hle, hbits⟩ := hfree
      have hstop := h.stop_le
      rcases Nat.eq_zero_or_pos length with hzero | hpos
      · rw [hzero]
        exact Nat.zero_le _
      · exact absurd (hbits start (Nat.le_refl start) (Nat.lt_add_of_pos_right hpos))
          (hnone.2 start ⟨hafter, by omega⟩)
    · rw [isEmpty, decide_eq_true_eq] at hempty
      exact absurd hempty (Nat.ne_of_gt hrun.nonempty)

theorem searchLoop_result (h : Searching used nofRbs limits window best) :
    (∃ run, FirstBest used nofRbs limits run ∧ nofRbs ≤ run.length ∧
        searchLoop used nofRbs window best = ofLength run.start nofRbs) ∨
      (searchLoop used nofRbs window best).length < nofRbs ∧
        (searchLoop used nofRbs window best = .empty ∨
          FirstBest used nofRbs limits (searchLoop used nofRbs window best)) ∧
        ∀ start length, FreeRun used limits start length →
          length ≤ (searchLoop used nofRbs window best).length := by
  fun_induction searchLoop used nofRbs window best with
  | case1 window best interv hempty =>
    exact .inr ⟨h.small, h.found, fun start length hfree => h.exhausted hempty hfree⟩
  | case2 window best interv hne hlong =>
    have hlonger : best.length < min nofRbs interv.length := by
      rw [Nat.min_eq_left hlong]
      exact h.small
    exact .inl ⟨interv, h.firstBest hne hlonger, hlong, rfl⟩
  | case3 window best interv hne hshort longest nextLimits hempty =>
    exact absurd hempty (displaceTo_nonempty hne _)
  | case4 window best interv hne hshort longest nextLimits hmore ih =>
    exact ih (h.next hne (Nat.lt_of_not_le hshort))

/-- No run at which the search arrives is longer than the result, as far as the length asked for
matters. -/
theorem searchLoop_longest (hsmall : best.length < nofRbs) :
    best.length ≤ (searchLoop used nofRbs window best).length ∧
      ∀ w, Searched used nofRbs window w →
        min nofRbs (findNextEmptyInterval used w).length ≤
          (searchLoop used nofRbs window best).length := by
  fun_induction searchLoop used nofRbs window best with
  | case1 window best interv hempty =>
    refine ⟨Nat.le_refl _, fun w hw => ?_⟩
    cases hw with
    | here =>
      rw [isEmpty_iff.mp hempty]
      exact Nat.le_trans (Nat.min_le_right _ _) (Nat.zero_le _)
    | next hne hlt hrest => exact absurd hempty hne
  | case2 window best interv hne hlong =>
    rw [length_ofLength]
    exact ⟨Nat.le_of_lt hsmall, fun w _ => Nat.min_le_left _ _⟩
  | case3 window best interv hne hshort longest nextLimits hempty =>
    exact absurd hempty (displaceTo_nonempty hne _)
  | case4 window best interv hne hshort longest nextLimits hmore ih =>
    obtain ⟨hbest, hlongest⟩ := le_longest best interv
    have hsmall' : longest.length < nofRbs := by
      change (if best.length < interv.length then interv else best).length < nofRbs
      split
      · exact Nat.lt_of_not_le hshort
      · exact hsmall
    obtain ⟨hresult, hwindows⟩ := ih hsmall'
    refine ⟨Nat.le_trans hbest hresult, fun w hw => ?_⟩
    cases hw with
    | here => exact Nat.le_trans (Nat.min_le_right _ _) (Nat.le_trans hlongest hresult)
    | next _ _ hrest => exact hwindows w hrest

theorem FreeRun.intersect (h : FreeRun used limits start length) (hpos : 0 < length) :
    FreeRun used (limits.intersect (bitsetLimits used)) start length := by
  obtain ⟨hstart, hstop, hfree⟩ := h
  have hholds : ∀ rb, start ≤ rb → rb < start + length →
      (limits.intersect (bitsetLimits used)).Holds rb := by
    intro rb hrb hrb'
    exact holds_intersect.mpr ⟨⟨by omega, by omega⟩, Nat.zero_le rb, (hfree rb hrb hrb').lt⟩
  have hfirst := hholds start (Nat.le_refl start) (by omega)
  have hlast := hholds (start + length - 1) (by omega) (by omega)
  exact ⟨hfirst.1, by have := hlast.2; omega, hfree⟩

/-- A window begins behind the start of the limits, where its first run does. -/
theorem Searched.start_le (h : Searched used nofRbs (limits.intersect (bitsetLimits used)) window)
    (hrun : NextRun used window run) : limits.start ≤ run.start := by
  have hinside : ∀ {run : RbInterval}, NextRun used (limits.intersect (bitsetLimits used)) run →
      limits.start ≤ run.start := by
    intro run hrun
    have hstop := hrun.stop_le
    have hlt := hrun.nonempty
    exact (holds_intersect.mp ⟨hrun.start_le, by omega⟩).1.1
  have hmono : ∀ {window window' : RbInterval}, Searched used nofRbs window window' →
      window.start ≤ window'.start := by
    intro window window' h
    induction h with
    | here => exact Nat.le_refl _
    | @next window window' hne _ _ ih =>
      have hnext := findNextEmptyInterval_nextRun hne
      have hstart := hnext.start_le
      have hlt := hnext.nonempty
      have hdisplaced : (findNextEmptyInterval used window).stop + 1 ≤ window'.start := ih
      omega
  cases h with
  | here => exact hinside hrun
  | next hne _ hrest =>
    have hhead := hinside (findNextEmptyInterval_nextRun hne)
    have hlt := (findNextEmptyInterval_nextRun hne).nonempty
    have hdisplaced : (findNextEmptyInterval used _).stop + 1 ≤ window.start := hmono hrest
    have hstart := hrun.start_le
    omega

/-- A first best run lies within the limits, if the search stays within them. -/
theorem FirstBest.within (h : FirstBest used nofRbs (limits.intersect (bitsetLimits used)) run)
    (hstays : StaysWithin used nofRbs limits) (hpos : 1 ≤ nofRbs) :
    FreeRun used limits run.start (min nofRbs run.length) := by
  obtain ⟨window, hsearched, rfl⟩ := h.searched
  have hnonempty := h.nonempty
  have hnext : NextRun used window (findNextEmptyInterval used window) := by
    apply findNextEmptyInterval_nextRun
    rw [RbInterval.isEmpty_iff, RbInterval.length]
    omega
  have hlength := (findNextEmptyInterval used window).start_add_length
  refine ⟨hsearched.start_le hnext, ?_, fun rb hrb hrb' => hnext.free rb hrb (by omega)⟩
  rcases hstays window hsearched with hstop | ⟨start, length, hfree, hle⟩
  · omega
  · have hlong : 0 < length := by
      have hrun : 0 < (findNextEmptyInterval used window).length := by omega
      omega
    have hafter : (findNextEmptyInterval used window).start ≤ start := by
      by_contra hbefore
      have hshort := h.earlier start length (hfree.intersect hlong) (Nat.lt_of_not_le hbefore)
      omega
    have hstop := hfree.2.1
    omega

/-- The search returns the lowest run of the length, or a longest one, exactly if it stays within its
limits. -/
theorem findEmptyIntervalOfLength_iff (hpos : 1 ≤ nofRbs) :
    BestRun used nofRbs limits (findEmptyIntervalOfLength used nofRbs limits) ↔
      StaysWithin used nofRbs limits := by
  have hstart : Searching used nofRbs (limits.intersect (bitsetLimits used))
      (limits.intersect (bitsetLimits used)) .empty := searching_start hpos
  have hresult := searchLoop_result hstart
  have hlongest := (@searchLoop_longest used nofRbs (limits.intersect (bitsetLimits used)) .empty
    hstart.small).2
  rw [findEmptyIntervalOfLength]
  generalize searchLoop used nofRbs (limits.intersect (bitsetLimits used)) .empty = result
    at hresult hlongest ⊢
  constructor
  · intro hbest window hwindow
    have hle := hlongest window hwindow
    right
    rcases hbest with ⟨start, rfl, hfree, -⟩ | ⟨-, hempty | hfree, -⟩
    · rw [length_ofLength] at hle
      exact ⟨start, nofRbs, hfree, hle⟩
    · rw [isEmpty_iff.mp hempty] at hle
      refine ⟨limits.start, 0, ⟨Nat.le_refl _, limits.start_le_stop, ?_⟩, hle⟩
      exact fun rb hrb hrb' => absurd hrb (Nat.not_le_of_lt hrb')
    · exact ⟨result.start, result.length, hfree, hle⟩
  · intro hstays
    rcases hresult with ⟨run, hfirst, hlong, rfl⟩ | ⟨hsmall, hfound, hcovered⟩
    · have hwithin := hfirst.within hstays hpos
      have hearlier := hfirst.earlier
      rw [Nat.min_eq_left hlong] at hwithin hearlier
      refine .inl ⟨run.start, rfl, hwithin, fun rb hrb hfree => ?_⟩
      exact Nat.lt_irrefl _ (hearlier rb nofRbs (hfree.intersect hpos) hrb)
    · have hcovered' : ∀ start length, FreeRun used limits start length → length ≤ result.length := by
        intro start length hfree
        rcases Nat.eq_zero_or_pos length with hzero | hpos
        · rw [hzero]
          exact Nat.zero_le _
        · exact hcovered start length (hfree.intersect hpos)
      refine .inr ⟨fun start hfree => ?_, ?_, hcovered'⟩
      · exact Nat.not_le_of_lt hsmall (hcovered' start nofRbs hfree)
      · rcases hfound with rfl | hfirst
        · exact .inl rfl
        · have hwithin := hfirst.within hstays hpos
          rw [Nat.min_eq_right (Nat.le_of_lt hsmall)] at hwithin
          exact .inr hwithin

theorem searchLoop_free (hfree : ∀ rb, best.Holds rb → RbFree used rb) (hle : best.length ≤ nofRbs) :
    (∀ rb, (searchLoop used nofRbs window best).Holds rb → RbFree used rb) ∧
      (searchLoop used nofRbs window best).length ≤ nofRbs := by
  fun_induction searchLoop used nofRbs window best with
  | case1 window best interv hempty => exact ⟨hfree, hle⟩
  | case2 window best interv hne hlong =>
    have hrun := findNextEmptyInterval_nextRun hne
    have hlength := interv.start_add_length
    refine ⟨fun rb hrb => hrun.free rb hrb.1 ?_, Nat.le_of_eq (length_ofLength _ _)⟩
    have hstop : rb < interv.start + nofRbs := hrb.2
    change rb < interv.stop
    omega
  | case3 window best interv hne hshort longest nextLimits hempty =>
    exact absurd hempty (displaceTo_nonempty hne _)
  | case4 window best interv hne hshort longest nextLimits hmore ih =>
    have hrun := findNextEmptyInterval_nextRun hne
    apply ih
    · change ∀ rb, (if best.length < interv.length then interv else best).Holds rb → RbFree used rb
      split
      · exact fun rb hrb => hrun.free rb hrb.1 hrb.2
      · exact hfree
    · change (if best.length < interv.length then interv else best).length ≤ nofRbs
      split
      · exact Nat.le_of_lt (Nat.lt_of_not_le hshort)
      · exact hle

theorem findEmptyIntervalOfLength_free :
    (∀ rb, (findEmptyIntervalOfLength used nofRbs limits).Holds rb → RbFree used rb) ∧
      (findEmptyIntervalOfLength used nofRbs limits).length ≤ nofRbs :=
  searchLoop_free (fun rb hrb => absurd hrb.2 (Nat.not_lt_zero rb)) (Nat.zero_le nofRbs)

theorem findEmptyIntervalOfLength_isEmpty_iff (hpos : 1 ≤ nofRbs) :
    (findEmptyIntervalOfLength used nofRbs limits).isEmpty = true ↔ ∀ rb, limits.Holds rb → ¬RbFree used rb := by
  constructor
  · intro hempty rb hrb hfree
    rw [RbInterval.isEmpty_iff, findEmptyIntervalOfLength] at hempty
    have hrun : FreeRun used limits rb 1 := by
      refine ⟨hrb.1, hrb.2, fun rb' hge hlt => ?_⟩
      rw [Nat.le_antisymm (Nat.le_of_lt_succ hlt) hge]
      exact hfree
    rcases searchLoop_result (searching_start hpos) with ⟨run, -, -, hresult⟩ | ⟨-, -, hlongest⟩
    · rw [hresult, length_ofLength] at hempty
      omega
    · have hfound := hlongest rb 1 (hrun.intersect Nat.one_pos)
      omega
  · intro hnone
    have hfirst : (findNextEmptyInterval used (limits.intersect (bitsetLimits used))).isEmpty := by
      rcases @findNextEmptyInterval_cases used (limits.intersect (bitsetLimits used)) with hempty | hrun
      · rw [hempty.1]
        rfl
      · have hlt := hrun.nonempty
        have hinside := holds_intersect.mp ⟨hrun.start_le, Nat.lt_of_lt_of_le hlt hrun.stop_le⟩
        exact absurd (hrun.free _ (Nat.le_refl _) hlt) (hnone _ hinside.1)
    rw [findEmptyIntervalOfLength, searchLoop]
    simp [hfirst]
    rfl

/-- Two free RBs between used ones. -/
theorem findEmptyIntervalOfLength_iff_two :
    BestRun [true, false, false, true] 2 ⟨0, 4, by decide⟩
      (findEmptyIntervalOfLength [true, false, false, true] 2 ⟨0, 4, by decide⟩) := by
  refine (findEmptyIntervalOfLength_iff (by decide)).mpr ?_
  intro window hwindow
  cases hwindow with
  | here => exact .inl (by decide)
  | next _ hlt _ => exact absurd hlt (by decide)

end Search

/-- Behind a run that is too short the limits keep their length, and the search leaves them. -/
theorem findEmptyIntervalOfLength_leaves :
    findEmptyIntervalOfLength [false, true, true, false, false] 2 ⟨0, 3, by decide⟩ = ⟨3, 5, by decide⟩ ∧
      ¬BestRun [false, true, true, false, false] 2 ⟨0, 3, by decide⟩
        (findEmptyIntervalOfLength [false, true, true, false, false] 2 ⟨0, 3, by decide⟩) := by
  have hresult : findEmptyIntervalOfLength [false, true, true, false, false] 2 ⟨0, 3, by decide⟩ =
      ⟨3, 5, by decide⟩ := by
    decide +kernel
  refine ⟨hresult, ?_⟩
  rw [hresult]
  rintro (⟨start, heq, hfree, -⟩ | ⟨-, hempty | hfree, -⟩)
  · have hstart := congrArg RbInterval.start heq
    have hstop := hfree.2.1
    change 3 = start at hstart
    change start + 2 ≤ 3 at hstop
    omega
  · exact absurd hempty (by decide)
  · exact absurd hfree.2.1 (by decide)

end Srsran.Scheduler
