import Srsran.EdgeRic.Conservation
import Srsran.Ran.PdschMcs

/-! MCS of a new transmission: the scheduler's recommendation, or what the agent received for the UE
(`get_mcs_from_er`, `set_pdsch_params`). -/
namespace Srsran.EdgeRic
open Ran (SchMcsIndex PdschMcsTable)

inductive McsFault where
  | outOfBounds (value : Nat)
  deriving DecidableEq

/-- `static_cast<sch_mcs_index>`, which asserts the bounds of the index. -/
def schMcsIndex (value : Nat) : Except McsFault SchMcsIndex :=
  if h : value < 32 then .ok ⟨value, h⟩ else .error (.outOfBounds value)

/-- The variable `mcs` of `set_pdsch_params`, for a new transmission. -/
def newTxMcs (er : EdgeRic) (rnti : Rnti) (recommendedMcs : SchMcsIndex) : Except McsFault SchMcsIndex :=
  match er.getMcs rnti with
  | some optMcsRecvd => schMcsIndex optMcsRecvd
  | none => .ok recommendedMcs

def maxMcsWithCsiRs : PdschMcsTable → Nat
  | .qam64 => 26
  | .qam256 => 24
  | .qam64LowSe => 28

/-- `adjusted_mcs`, below the bound for slots with CSI-RS. -/
def adjustedMcs (table : PdschMcsTable) (csiRs : Bool) (mcs : SchMcsIndex) : SchMcsIndex :=
  if csiRs then ⟨min (mcs.val - 1) (maxMcsWithCsiRs table), by have := mcs.isLt; omega⟩ else mcs

/-- The loop of `compute_dl_mcs_tbs`; `rateTooHigh` tells whether the effective code rate for an MCS is
above 0.95. -/
def lowerMcs (rateTooHigh : SchMcsIndex → Bool) : (mcs : Nat) → mcs < 32 → SchMcsIndex
  | 0, h => ⟨0, h⟩
  | mcs + 1, h =>
    if rateTooHigh ⟨mcs + 1, h⟩ then lowerMcs rateTooHigh mcs (Nat.lt_of_succ_lt h) else ⟨mcs + 1, h⟩

def calculateDlMcsTbs (table : PdschMcsTable) (csiRs : Bool) (rateTooHigh : SchMcsIndex → Bool)
    (mcs : SchMcsIndex) : Option SchMcsIndex :=
  let adjusted := adjustedMcs table csiRs mcs
  let lowered := lowerMcs rateTooHigh adjusted.val adjusted.isLt
  if rateTooHigh lowered ∧ lowered = 0 then none else some lowered

def pdschMcs (er : EdgeRic) (rnti : Rnti) (recommendedMcs : SchMcsIndex) (table : PdschMcsTable)
    (csiRs : Bool) (rateTooHigh : SchMcsIndex → Bool) : Except McsFault (Option SchMcsIndex) :=
  (newTxMcs er rnti recommendedMcs).map (calculateDlMcsTbs table csiRs rateTooHigh)

/-- Without CSI-RS, and at a low code rate, the MCS is used as it is. -/
theorem calculateDlMcsTbs_same (table : PdschMcsTable) (mcs : SchMcsIndex) :
    calculateDlMcsTbs table false (fun _ => false) mcs = some mcs := by
  have hlowered : ∀ (mcs : Nat) (h : mcs < 32), lowerMcs (fun _ => false) mcs h = ⟨mcs, h⟩ := by
    intro mcs h
    cases mcs <;> rfl
  simp [calculateDlMcsTbs, adjustedMcs, hlowered]

/-- `McsControl`; both fields of a UE are any `uint32`. -/
structure McsMessage where
  ttiIndex : Nat
  ueMcs : List (Nat × Nat)
  deriving DecidableEq

inductive McsEvent where
  | setTti (ttiCount : Nat)
  | mcsMessage (msg : McsMessage)
  | weightsMessage (ttiIndex : Nat) (ueWeights : List (Nat × Float32))
  | unregisterUeByRnti (rnti : Rnti)
  | mac (event : TelemetryEvent)

/-- The registry, and the most recent message with MCS values. -/
structure McsHistory where
  er : EdgeRic := {}
  last : Option McsMessage := none

namespace McsHistory

def step (h : McsHistory) : McsEvent → Option McsHistory
  | .setTti ttiCount => some { h with er := h.er.setTti ttiCount }
  | .mcsMessage msg => some { er := h.er.getMcsFromEr msg.ttiIndex msg.ueMcs, last := some msg }
  | .weightsMessage ttiIndex ueWeights =>
    some { h with er := h.er.getWeightsFromEr ttiIndex ueWeights }
  | .unregisterUeByRnti rnti => some { h with er := h.er.unregisterUeByRnti rnti }
  | .mac event => some { h with er := h.er.handle event }

/-- The age of a message, which must not come from the future. -/
def Recent (h : McsHistory) (msg : McsMessage) : Prop :=
  msg.ttiIndex ≤ h.er.ttiCnt ∧ h.er.ttiCnt - msg.ttiIndex ≤ stalenessThreshold

/-- The most recent message is not stale and gives a valid index for exactly this RNTI. -/
def Given (h : McsHistory) (rnti : Rnti) (table : PdschMcsTable) (mcs : SchMcsIndex) : Prop :=
  ∃ msg, h.last = some msg ∧ h.Recent msg ∧ (rnti, mcs.val) ∈ msg.ueMcs ∧ table.Valid mcs

/-- Every new transmission starts from the recommendation or from an index that was given. -/
def McsSafe (h : McsHistory) (rnti : Rnti) (table : PdschMcsTable) (recommendedMcs : SchMcsIndex) : Prop :=
  ∃ mcs, (mcs = recommendedMcs ∨ h.Given rnti table mcs) ∧ ∀ csiRs rateTooHigh,
    pdschMcs h.er rnti recommendedMcs table csiRs rateTooHigh =
      .ok (calculateDlMcsTbs table csiRs rateTooHigh mcs)

/-- The last entry whose low bits are those of the RNTI, and which is not taken for "no override". -/
def decidingEntry (ueMcs : List (Nat × Nat)) (rnti : Rnti) : Option (Nat × Nat) :=
  ueMcs.reverse.find? fun u => u.1 % 2 ^ 16 = rnti ∧ u.2 % 2 ^ 8 < 255

/-- The low bits of the value in the deciding entry are the recommendation, or just this is given for
just this RNTI, and valid. -/
def Harmless (h : McsHistory) (rnti : Rnti) (table : PdschMcsTable) (recommendedMcs : SchMcsIndex) :
    Prop :=
  ∀ msg, h.last = some msg → h.Recent msg → ∀ entry, decidingEntry msg.ueMcs rnti = some entry →
    ∃ mcs : SchMcsIndex, mcs.val = entry.2 % 2 ^ 8 ∧
      (mcs = recommendedMcs ∨ (rnti, mcs.val) ∈ msg.ueMcs ∧ table.Valid mcs)

variable {h h' : McsHistory} {rnti : Rnti} {table : PdschMcsTable} {recommendedMcs : SchMcsIndex}

/-- The values and the TTI in the registry are those of the most recent message. -/
def Held (h : McsHistory) : Prop :=
  match h.last with
  | none => ∀ rnti, h.er.mcsRecved.find? rnti = none
  | some msg =>
    h.er.erMcsTti = msg.ttiIndex ∧
      ∀ rnti, h.er.mcsRecved.find? rnti = (decidingEntry msg.ueMcs rnti).map fun u => u.2 % 2 ^ 8

theorem Held.congr (hheld : h.Held) (hlast : h'.last = h.last) (hmcs : h'.er.mcsRecved = h.er.mcsRecved)
    (htti : h'.er.erMcsTti = h.er.erMcsTti) : h'.Held := by
  rw [Held, hlast, hmcs, htti]
  exact hheld

theorem find?_foldl_mcs (ueMcs : List (Nat × Nat)) (m : OrdMap Rnti Nat) :
    (ueMcs.foldl (fun m u =>
        if u.2 % 2 ^ 8 < 255 then m.insert (u.1 % 2 ^ 16) (u.2 % 2 ^ 8) else m) m).find? rnti =
      ((decidingEntry ueMcs rnti).map fun u => u.2 % 2 ^ 8).or (m.find? rnti) := by
  induction ueMcs generalizing m with
  | nil => rfl
  | cons u rest ih =>
    rw [List.foldl_cons, ih, decidingEntry, decidingEntry, List.reverse_cons, List.find?_append]
    cases rest.reverse.find? fun u => u.1 % 2 ^ 16 = rnti ∧ u.2 % 2 ^ 8 < 255 with
    | some entry => rfl
    | none =>
      simp only [Nat.reducePow]
      by_cases hmcs : u.2 % 256 < 255
      · by_cases hrnti : u.1 % 65536 = rnti
        · simp [hmcs, hrnti]
        · simp [hmcs, hrnti, OrdMap.find?_insert_of_ne (Ne.symm hrnti)]
      · simp [hmcs]

theorem Held.message (er : EdgeRic) (msg : McsMessage) :
    ({ er := er.getMcsFromEr msg.ttiIndex msg.ueMcs, last := some msg } : McsHistory).Held := by
  refine ⟨rfl, fun rnti => ?_⟩
  rw [EdgeRic.getMcsFromEr]
  exact (find?_foldl_mcs msg.ueMcs .empty).trans (Option.or_none ..)

theorem mcsRecved_handle (er : EdgeRic) (event : TelemetryEvent) :
    (er.handle event).mcsRecved = er.mcsRecved ∧ (er.handle event).erMcsTti = er.erMcsTti := by
  cases event <;> exact ⟨rfl, rfl⟩

theorem Held.step {event : McsEvent} (hheld : h.Held) (hstep : h.step event = some h') : h'.Held := by
  cases event with
  | setTti ttiCount =>
    cases hstep
    exact hheld.congr rfl rfl rfl
  | mcsMessage msg =>
    cases hstep
    exact Held.message h.er msg
  | weightsMessage ttiIndex ueWeights =>
    cases hstep
    exact hheld.congr rfl rfl rfl
  | unregisterUeByRnti rnti =>
    cases hstep
    exact hheld.congr rfl rfl rfl
  | mac event =>
    cases hstep
    obtain ⟨hmcs, htti⟩ := mcsRecved_handle h.er event
    exact hheld.congr rfl hmcs htti

theorem isFresh_iff {msg : McsMessage} : h.er.isFresh msg.ttiIndex = true ↔ h.Recent msg := by
  rw [EdgeRic.isFresh, decide_eq_true_eq, Recent]
  split
  · rename_i hle
    exact ⟨fun hage => ⟨hle, hage⟩, fun hrecent => hrecent.2⟩
  · rename_i hfuture
    exact ⟨fun hage => absurd hage (Nat.not_succ_le_self _), fun hrecent => absurd hrecent.1 hfuture⟩

/-- The override comes from the deciding entry of the most recent message, if this is not stale. -/
theorem getMcs_eq_some_iff (hheld : h.Held) {mcs : Nat} : h.er.getMcs rnti = some mcs ↔
    ∃ msg, h.last = some msg ∧ h.Recent msg ∧
      ∃ entry, decidingEntry msg.ueMcs rnti = some entry ∧ entry.2 % 2 ^ 8 = mcs := by
  rw [EdgeRic.getMcs]
  cases hlast : h.last with
  | none =>
    rw [Held, hlast] at hheld
    simp [hheld rnti]
  | some msg =>
    rw [Held, hlast] at hheld
    rw [hheld.1, hheld.2 rnti]
    by_cases hfresh : h.er.isFresh msg.ttiIndex = true
    · have hrecent := isFresh_iff.mp hfresh
      simp [hfresh, hrecent]
    · have hstale : ¬h.Recent msg := fun hrecent => hfresh (isFresh_iff.mpr hrecent)
      simp [hfresh, hstale]

/-- The start of every new transmission is determined by the choice. -/
theorem mcsSafe_iff_choice : h.McsSafe rnti table recommendedMcs ↔
    ∃ mcs, newTxMcs h.er rnti recommendedMcs = .ok mcs ∧
      (mcs = recommendedMcs ∨ h.Given rnti table mcs) := by
  constructor
  · rintro ⟨mcs, hmcs, hall⟩
    have hsame := hall false fun _ => false
    rw [calculateDlMcsTbs_same, pdschMcs] at hsame
    cases hchoice : newTxMcs h.er rnti recommendedMcs with
    | error fault =>
      rw [hchoice] at hsame
      cases hsame
    | ok chosen =>
      rw [hchoice, Except.map, calculateDlMcsTbs_same] at hsame
      cases hsame
      exact ⟨mcs, rfl, hmcs⟩
  · rintro ⟨mcs, hchoice, hmcs⟩
    refine ⟨mcs, hmcs, fun csiRs rateTooHigh => ?_⟩
    rw [pdschMcs, hchoice]
    rfl

theorem mcsSafe_iff_held (hheld : h.Held) :
    h.McsSafe rnti table recommendedMcs ↔ h.Harmless rnti table recommendedMcs := by
  rw [mcsSafe_iff_choice, newTxMcs]
  cases hmcs : h.er.getMcs rnti with
  | none =>
    refine ⟨fun _ msg hlast hrecent entry hentry => ?_, fun _ => ⟨recommendedMcs, rfl, .inl rfl⟩⟩
    have hsome := (getMcs_eq_some_iff hheld).mpr ⟨msg, hlast, hrecent, entry, hentry, rfl⟩
    rw [hmcs] at hsome
    cases hsome
  | some value =>
    obtain ⟨msg, hlast, hrecent, entry, hentry, hvalue⟩ := (getMcs_eq_some_iff hheld).mp hmcs
    constructor
    · rintro ⟨mcs, hcast, hallowed⟩ msg' hlast' _ entry' hentry'
      rw [hlast] at hlast'
      cases hlast'
      rw [hentry] at hentry'
      cases hentry'
      dsimp only [schMcsIndex] at hcast
      split at hcast
      · cases hcast
        refine ⟨_, hvalue.symm, hallowed.imp_right ?_⟩
        rintro ⟨msg', hlast', -, hgiven⟩
        rw [hlast] at hlast'
        cases hlast'
        exact hgiven
      · cases hcast
    · intro hharmless
      obtain ⟨mcs, hval, hallowed⟩ := hharmless msg hlast hrecent entry hentry
      refine ⟨mcs, ?_, hallowed.imp_right fun hgiven => ⟨msg, hlast, hrecent, hgiven⟩⟩
      rw [← hvalue, ← hval]
      exact dif_pos mcs.isLt

/-- In every history, the MCS of the new transmissions of a UE is the recommendation or a valid index
that was given for just this UE, without failure, if and only if the deciding entry of a message that
is not stale is harmless. -/
theorem mcsControl_safe_iff (hrun : Runs.Reaches step (fun _ _ => True) {} h) (rnti : Rnti)
    (table : PdschMcsTable) (recommendedMcs : SchMcsIndex) :
    h.McsSafe rnti table recommendedMcs ↔ h.Harmless rnti table recommendedMcs := by
  apply mcsSafe_iff_held
  apply hrun.invariant (fun _ => rfl)
  intro s event s' hs _ hstep
  exact hs.step hstep

/-- A message of the same TTI gives 20 to one UE, and 7 to an RNTI above 16 bits. -/
theorem mcsControl_safe_iff_given : ∃ h : McsHistory, newTxMcs h.er 0x4601 9 = .ok 20 ∧
    (h.McsSafe 0x4601 .qam256 9 ↔ h.Harmless 0x4601 .qam256 9) := by
  have hobserved : (Runs.runAll step {} [.setTti 5,
      .mcsMessage { ttiIndex := 5, ueMcs := [(0x4601, 20), (0x14602, 7)] }]).map
        (fun h => newTxMcs h.er 0x4601 9) = some (.ok 20) := by
    decide +kernel
  obtain ⟨h, hrun, hh⟩ := Option.map_eq_some_iff.mp hobserved
  exact ⟨h, hh, mcsControl_safe_iff (Runs.reaches_of_runAll .start (fun _ _ _ => trivial) hrun)
    0x4601 .qam256 9⟩

/-- A value for an RNTI above 16 bits becomes the override of another UE. -/
theorem mcsControl_otherUe : ∃ h : McsHistory, Runs.Reaches step (fun _ _ => True) {} h ∧
    ¬h.McsSafe 0x4602 .qam256 9 := by
  have hobserved : (Runs.runAll step {} [.setTti 5,
      .mcsMessage { ttiIndex := 5, ueMcs := [(0x4601, 20), (0x14602, 7)] }]).map
        (fun h => (newTxMcs h.er 0x4602 9, h.last)) =
      some (.ok 7, some { ttiIndex := 5, ueMcs := [(0x4601, 20), (0x14602, 7)] }) := by
    decide +kernel
  obtain ⟨h, hrun, hh⟩ := Option.map_eq_some_iff.mp hobserved
  rw [Prod.mk.injEq] at hh
  refine ⟨h, Runs.reaches_of_runAll .start (fun _ _ _ => trivial) hrun, ?_⟩
  rw [mcsSafe_iff_choice, hh.1]
  rintro ⟨mcs, hmcs, hallowed⟩
  cases hmcs
  rcases hallowed with hsame | ⟨msg, hlast, -, hgiven, -⟩
  · cases hsame
  · rw [hh.2] at hlast
    cases hlast
    revert hgiven
    decide

end McsHistory
end Srsran.EdgeRic
