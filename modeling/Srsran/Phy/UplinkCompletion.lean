import Srsran.Phy.UplinkProcessor
import Mathlib.Data.List.Perm.Basic
import Mathlib.Data.List.Perm.Lattice

/-! Every counted PDU is in one place: not yet visited, between its task and the answer of the executor,
with an executor, or completed. The word of the state machine is the number of PDUs in these places. -/
namespace Srsran.Phy
open UplinkProcessorFsm UplinkProcessor RepositoryEntry

variable {repository : List RepositoryEntry} {symbol : Nat}

theorem remainingPdus_succ (h : symbol < maxNsymbPerSlot) : remainingPdus repository symbol =
      symbolPdus repository symbol ++ remainingPdus repository (symbol + 1) := by
  obtain ⟨k, hk⟩ := Nat.exists_eq_succ_of_ne_zero (Nat.sub_ne_zero_of_lt h)
  have hk' : maxNsymbPerSlot - (symbol + 1) = k := by omega
  rw [remainingPdus, hk, List.range'_succ, List.flatMap_cons, remainingPdus, hk']

variable (repository : List RepositoryEntry)

theorem remainingPdus_end : remainingPdus repository maxNsymbPerSlot = [] := rfl

theorem kinds_perm (pdus : List RepositoryEntry) :
    (pdus.filter (·.isPucch) ++ pdus.filter (·.isPucchF1) ++ pdus.filter (·.isPusch) ++
      pdus.filter (·.isSrs)).Perm pdus := by
  induction pdus with
  | nil => exact .refl _
  | cons pdu pdus ih =>
    have hmoved := ih.cons pdu
    cases hkind : pdu.kind <;>
      simp only [List.filter_cons, isPucch, isPucchF1,
        isPusch, isSrs, hkind] at hmoved ⊢ <;>
      simp only [decide_true, decide_false, if_true, if_false, reduceCtorEq,
        Bool.false_eq_true, List.append_assoc, List.cons_append] at hmoved ⊢
    · refine .trans ?_ hmoved
      exact (List.perm_middle.append_left _).trans List.perm_middle
    · exact hmoved
    · exact .trans List.perm_middle hmoved
    · refine .trans ?_ hmoved
      exact ((List.perm_middle.append_left _).append_left _).trans
        ((List.perm_middle.append_left _).trans List.perm_middle)

theorem symbolPdus_perm (symbol : Nat) :
    (symbolPdus repository symbol).Perm (repository.filter (·.endSymbolIndex = symbol)) :=
  kinds_perm _

theorem remainingPdus_perm (h : symbol ≤ maxNsymbPerSlot) : (remainingPdus repository symbol).Perm
      (repository.filter fun pdu =>
        decide (symbol ≤ pdu.endSymbolIndex) && decide (pdu.endSymbolIndex < maxNsymbPerSlot)) := by
  obtain ⟨left, hleft⟩ : ∃ left, maxNsymbPerSlot - symbol = left := ⟨_, rfl⟩
  induction left generalizing symbol with
  | zero =>
    obtain rfl : symbol = maxNsymbPerSlot := by omega
    rw [remainingPdus_end, List.filter_eq_nil_iff.mpr]
    intro pdu _
    simp only [Bool.and_eq_true, decide_eq_true_eq]
    omega
  | succ left ih =>
    rw [remainingPdus_succ (by omega)]
    refine ((symbolPdus_perm repository symbol).append (ih (by omega) (by omega))).trans ?_
    refine .trans (.of_eq ?_) (List.filter_append_perm (·.endSymbolIndex = symbol) _)
    rw [List.filter_filter, List.filter_filter]
    congr 1
    · apply List.filter_congr
      intro pdu _
      simp only [← Bool.decide_and, decide_eq_decide]
      omega
    · apply List.filter_congr
      intro pdu _
      simp only [← Bool.decide_and, ← decide_not, decide_eq_decide]
      omega

theorem remainingPdus_add {pdu : RepositoryEntry} (h : pdu.endSymbolIndex < maxNsymbPerSlot) :
    (remainingPdus (repository ++ [pdu]) 0).Perm (remainingPdus repository 0 ++ [pdu]) := by
  refine (remainingPdus_perm _ (Nat.zero_le _)).trans ?_
  refine .trans (.of_eq ?_) ((remainingPdus_perm repository (Nat.zero_le _)).symm.append_right _)
  simp [List.filter_append, h]

/-- A change of the entries that keeps their numbers and places. -/
theorem remainingPdus_map {change : RepositoryEntry → RepositoryEntry}
    (hid : ∀ pdu, (change pdu).id = pdu.id) (hkind : ∀ pdu, (change pdu).kind = pdu.kind)
    (hend : ∀ pdu, (change pdu).endSymbolIndex = pdu.endSymbolIndex) (symbol : Nat) :
    (remainingPdus (repository.map change) symbol).map (·.id) =
      (remainingPdus repository symbol).map (·.id) := by
  have hfilter : ∀ (p : RepositoryEntry → Bool) (pdus : List RepositoryEntry),
      (∀ pdu, p (change pdu) = p pdu) →
        (pdus.map change).filter p = (pdus.filter p).map change := by
    intro p pdus hp
    rw [List.filter_map]
    congr 1
    exact List.filter_congr fun pdu _ => hp pdu
  have hsymbol : ∀ symbol, symbolPdus (repository.map change) symbol =
      (symbolPdus repository symbol).map change := by
    intro symbol
    have hend' := hfilter (·.endSymbolIndex = symbol) repository (by simp [hend])
    simp only [symbolPdus, hend', List.map_append]
    rw [hfilter (·.isPucch) _ (by simp [isPucch, hkind]),
      hfilter (·.isPucchF1) _ (by simp [isPucchF1, hkind]),
      hfilter (·.isPusch) _ (by simp [isPusch, hkind]),
      hfilter (·.isSrs) _ (by simp [isSrs, hkind])]
  simp only [remainingPdus, List.map_flatMap, hsymbol, List.map_map]
  have hids : (fun pdu : RepositoryEntry => pdu.id) ∘ change = fun pdu => pdu.id := funext hid
  rw [hids]

namespace UplinkProcessor

/-- The PDUs of the symbols from one on, unless an invalid symbol or a discard has completed them. -/
def unseen (s : UplinkProcessor) (symbol : Nat) : List RepositoryEntry :=
  if s.alternativeSlot.isSome then remainingPdus s.repository symbol else []

def waiting (s : UplinkProcessor) : List RepositoryEntry :=
  match s.procedure with
  | .none => s.unseen s.nofProcessedSymbols
  | .rxSymbol pdus _ _ => pdus ++ s.unseen (s.nofProcessedSymbols + 1)
  | .invalidSymbol pdus _ => pdus
  | .rxReturn => s.unseen s.nofProcessedSymbols
  | .discardSlot pdus _ => pdus

def created (s : UplinkProcessor) : List RepositoryEntry :=
  match s.procedure with
  | .rxSymbol _ created _ => created.toList
  | .invalidSymbol _ created => created.toList
  | _ => []

def outstanding (s : UplinkProcessor) : List RepositoryEntry := s.waiting ++ s.created ++ s.tasks

def inExec (s : UplinkProcessor) : Nat :=
  match s.procedure with
  | .discardSlot pdus _ => pdus.length
  | _ => s.created.length + s.tasks.length

def isLocked (s : UplinkProcessor) : Bool := s.procedure ≠ .none

/-- The word is the flags and the numbers of PDUs, and the numbers fit their fields. -/
structure Packed (s : UplinkProcessor) : Prop where
  word : s.pendingPduCount = pack s.repositoryHeld s.isLocked s.inExec s.outstanding.length
  lt : s.outstanding.length < 2 ^ 12

structure Stopped (s : UplinkProcessor) : Prop where
  word : s.pendingPduCount = pendingPduCountStopped
  held : s.repositoryHeld = false
  procedure : s.procedure = .none
  tasks : s.tasks = []

/-- What a loop that runs under the lock relies on. -/
def ProcedureOk (s : UplinkProcessor) : Prop :=
  match s.procedure with
  | .none => True
  | .rxSymbol pdus _ endProcessedSymbol =>
    s.nofProcessedSymbols < endProcessedSymbol ∧ endProcessedSymbol ≤ maxNsymbPerSlot ∧
      (s.alternativeSlot = none → pdus = [] ∧ ∀ symbol, s.nofProcessedSymbols < symbol →
        symbol < endProcessedSymbol → symbolPdus s.repository symbol = [])
  | .invalidSymbol _ _ => s.alternativeSlot = none
  | .rxReturn => True
  | .discardSlot _ _ => s.alternativeSlot = none ∧ s.tasks = []

/-- The PDUs being added are not visited. -/
structure Adding (s : UplinkProcessor) : Prop where
  procedure : s.procedure = .none
  tasks : s.tasks = []
  symbols : s.nofProcessedSymbols = 0
  slot : s.alternativeSlot.isSome = true

structure Inv (s : UplinkProcessor) : Prop where
  ok : s.assertionFailed = false
  symbols : s.nofProcessedSymbols ≤ maxNsymbPerSlot
  once : (s.outstanding.map (·.id) ++ s.completions).Perm (List.range s.nofCounted)
  word : s.Stopped ∨ s.Packed
  procedure : s.ProcedureOk
  adding : s.repositoryHeld = true → s.Adding

def visited (s : UplinkProcessor) (endSymbolIndex : Nat) (isValid : Bool) : List RepositoryEntry :=
  if endSymbolIndex < s.nofProcessedSymbols then []
  else if !isValid then remainingPdus s.repository s.nofProcessedSymbols
  else
    (List.range' s.nofProcessedSymbols
      (min (endSymbolIndex + 1) maxNsymbPerSlot - s.nofProcessedSymbols)).flatMap
        (symbolPdus s.repository)

/-- No symbol is handled and no slot discarded under a repository that accepts PDUs; after an invalid
symbol of a slot no symbol reaches its PDUs again; and the number of queued PDUs fits its field. -/
def orderly (s : UplinkProcessor) (event : UplinkEvent) : Bool :=
  match event with
  | .discardForNewSlot => (startDiscardSlot s.pendingPduCount).isNone ||
      !isStateAcceptingPdu s.pendingPduCount
  | .discardSlot => (startDiscardSlot s.pendingPduCount).isNone ||
      !isStateAcceptingPdu s.pendingPduCount
  | .handleRxSymbol endSymbolIndex isValid => (startHandleRxSymbol s.pendingPduCount).isNone ||
      (!isStateAcceptingPdu s.pendingPduCount &&
        (s.alternativeSlot.isSome || (s.visited endSymbolIndex isValid).isEmpty))
  | .addPdu kind endSymbolIndex => s.repository.any (joinsCollection kind endSymbolIndex) ||
      decide (getNofPendingPduInQueue s.pendingPduCount < 0xfff)
  | _ => true

variable {s : UplinkProcessor}

theorem inExec_le (s : UplinkProcessor) : s.inExec ≤ s.outstanding.length := by
  rw [inExec, outstanding, List.length_append, List.length_append]
  split
  · rename_i pdus forNewSlot hprocedure
    have hwaiting : s.waiting = pdus := by rw [waiting, hprocedure]
    rw [hwaiting]
    omega
  · omega

theorem Packed.exec_lt (h : s.Packed) : s.inExec < 2 ^ 12 :=
  Nat.lt_of_le_of_lt (inExec_le s) h.lt

theorem Inv.held_eq (h : s.Inv) (hprocedure : s.procedure ≠ .none) : s.repositoryHeld = false := by
  by_contra hheld
  exact hprocedure (h.adding (Bool.not_eq_false _ ▸ hheld)).procedure

theorem Inv.packed (h : s.Inv) (hprocedure : s.procedure ≠ .none) : s.Packed :=
  h.word.resolve_left fun hstopped => hprocedure hstopped.procedure

theorem Inv.packed_of_held (h : s.Inv) (hheld : s.repositoryHeld = true) : s.Packed :=
  h.word.resolve_left fun hstopped => by
    rw [hstopped.held] at hheld
    cases hheld

theorem Inv.word_locked (h : s.Inv) (hprocedure : s.procedure ≠ .none) :
    s.pendingPduCount = pack false true s.inExec s.outstanding.length := by
  have hlocked : s.isLocked = true := decide_eq_true hprocedure
  rw [(h.packed hprocedure).word, h.held_eq hprocedure, hlocked]

theorem stopped_startDiscardSlot : startDiscardSlot pendingPduCountStopped = none := by decide

theorem stopped_startHandleRxSymbol : startHandleRxSymbol pendingPduCountStopped = none := by decide

theorem stopped_startNewSlot :
    UplinkProcessorFsm.startNewSlot pendingPduCountStopped = none := by decide

theorem stopped_stop : UplinkProcessorFsm.stop pendingPduCountStopped = none := by decide

variable {pdu : RepositoryEntry} {before after : List RepositoryEntry}

theorem once_complete {completions ids : List Nat}
    (h : (before.map (·.id) ++ completions).Perm ids) (hbefore : before.Perm (pdu :: after)) :
    (after.map (·.id) ++ (completions ++ [pdu.id])).Perm ids := by
  refine .trans ?_ h
  refine .trans ?_ ((hbefore.symm.map (·.id)).append_right completions)
  rw [List.map_cons, ← List.append_assoc, List.cons_append]
  exact List.perm_append_singleton _ _

theorem once_moved {completions ids : List Nat}
    (h : (before.map (·.id) ++ completions).Perm ids) (hmoved : before.Perm after) :
    (after.map (·.id) ++ completions).Perm ids :=
  ((hmoved.symm.map (·.id)).append_right completions).trans h

theorem complete_word {exec queue : Nat} {locked : Bool}
    (hword : s.pendingPduCount = pack false locked (exec + 1) (queue + 1)) (hexec : exec ≤ queue)
    (hqueue : queue + 1 < 2 ^ 12) (hok : s.assertionFailed = false) :
    s.complete pdu = { s with
      pendingPduCount := pack false locked exec queue
      completions := s.completions ++ [pdu.id] } := by
  rw [complete, apply, hword, onFinishProcessingPdu_pack (by omega) hqueue, hok]
  rfl

theorem Inv.calls (h : s.Inv) (checkedCalls discardedCalls gridRefCounter : Nat)
    (slotProcessorHeld : Bool) :
    Inv { s with checkedCalls, discardedCalls, gridRefCounter, slotProcessorHeld } where
  __ := h
  word := h.word.imp (fun w => { w with }) fun w => ⟨w.word, w.lt⟩
  adding := fun hheld => { h.adding hheld with }

variable {forNewSlot : Bool}

theorem Inv.startDiscard (h : s.Inv)
    (horderly : startDiscardSlot s.pendingPduCount = none ∨
      isStateAcceptingPdu s.pendingPduCount = false) : (s.startDiscard forNewSlot).Inv := by
  rw [UplinkProcessor.startDiscard]
  cases hstart : startDiscardSlot s.pendingPduCount with
  | none => exact h.calls s.checkedCalls _ s.gridRefCounter s.slotProcessorHeld
  | some count =>
    rcases h.word with hstopped | hpacked
    · rw [hstopped.word, stopped_startDiscardSlot] at hstart
      cases hstart
    have haccepting := horderly.resolve_left (by rw [hstart]; exact Option.some_ne_none _)
    rw [hpacked.word, isStateAcceptingPdu_pack hpacked.exec_lt hpacked.lt] at haccepting
    rw [hpacked.word, startDiscardSlot_pack hpacked.exec_lt hpacked.lt] at hstart
    split at hstart
    · cases hstart
    rename_i hskip
    rw [not_or, not_or, Bool.not_eq_true] at hskip
    obtain ⟨hlocked, hqueue, hexec⟩ := hskip
    obtain rfl := Option.some.inj hstart
    have hprocedure : s.procedure = .none := by simpa [isLocked] using hlocked
    have htasks : s.tasks = [] := by
      rw [inExec, hprocedure] at hexec
      exact List.length_eq_zero_iff.mp (by simpa [created, hprocedure] using hexec)
    have hslot : s.alternativeSlot.isSome = true := by
      by_contra hnone
      simp [outstanding, waiting, created, unseen, hprocedure, htasks, hnone] at hqueue
    have houtstanding : s.outstanding = remainingPdus s.repository s.nofProcessedSymbols := by
      simp [outstanding, waiting, created, unseen, hprocedure, htasks, hslot]
    have hheld : s.repositoryHeld = false := haccepting
    refine ⟨h.ok, h.symbols, ?_, .inr ⟨?_, ?_⟩, ⟨rfl, htasks⟩, fun hheld' => ?_⟩
    · have honce := h.once
      rw [houtstanding] at honce
      simpa [outstanding, waiting, created, htasks] using honce
    · simp [isLocked, inExec, outstanding, waiting, created, unseen, htasks, hprocedure, hslot, hheld]
    · have hlt := hpacked.lt
      rw [houtstanding] at hlt
      simpa [outstanding, waiting, created, htasks] using hlt
    · rw [hheld] at hheld'
      cases hheld'

theorem Inv.discardPdu (h : s.Inv) {pdus : List RepositoryEntry}
    (hprocedure : s.procedure = .discardSlot (pdu :: pdus) forNewSlot) :
    ((s.complete pdu).proceed s.tasks (.discardSlot pdus forNewSlot)).Inv := by
  have hne : s.procedure ≠ .none := by rw [hprocedure]; exact Procedure.noConfusion
  have hok := h.procedure
  rw [ProcedureOk, hprocedure] at hok
  have houtstanding : s.outstanding = pdu :: pdus := by
    simp [outstanding, waiting, created, hprocedure, hok.2]
  have hexec : s.inExec = pdus.length + 1 := by rw [inExec, hprocedure]; rfl
  have hlt := (h.packed hne).lt
  have hword := h.word_locked hne
  rw [houtstanding] at hlt
  rw [houtstanding, hexec] at hword
  rw [complete_word hword le_rfl hlt h.ok]
  refine ⟨h.ok, h.symbols, ?_, .inr ⟨?_, ?_⟩, hok, fun hheld => ?_⟩
  · have honce := once_complete h.once (.of_eq houtstanding)
    simpa [outstanding, waiting, created, hok.2] using honce
  · simp [isLocked, inExec, outstanding, waiting, created, hok.2, h.held_eq hne]
  · simpa [outstanding, waiting, created, hok.2] using Nat.lt_of_succ_lt hlt
  · exact absurd (h.held_eq hne) (by simpa using hheld)

theorem Inv.finishDiscardSlot (h : s.Inv) (hprocedure : s.procedure = .discardSlot [] forNewSlot) :
    Inv { s.apply (UplinkProcessorFsm.finishDiscardSlot s.pendingPduCount) with
      procedure := .none
      discardedCalls := s.discardedCalls + forNewSlot.toNat } := by
  have hne : s.procedure ≠ .none := by rw [hprocedure]; exact Procedure.noConfusion
  have hok := h.procedure
  rw [ProcedureOk, hprocedure] at hok
  have houtstanding : s.outstanding = [] := by
    simp [outstanding, waiting, created, hprocedure, hok.2]
  have hexec : s.inExec = 0 := by rw [inExec, hprocedure]; rfl
  have hword := h.word_locked hne
  rw [houtstanding, hexec] at hword
  have hheld := h.held_eq hne
  have honce := h.once
  rw [houtstanding] at honce
  have hfinish : UplinkProcessorFsm.finishDiscardSlot s.pendingPduCount = (pack false false 0 0, true) := by
    rw [hword, List.length_nil, finishDiscardSlot_pack (by decide) (by decide)]
    rfl
  rw [hfinish, apply]
  refine ⟨?_, h.symbols, ?_, .inr ⟨?_, ?_⟩, trivial, fun hheld' => ?_⟩
  · simp [h.ok]
  · simpa [outstanding, waiting, created, unseen, hok] using honce
  · simp [isLocked, inExec, outstanding, waiting, created, unseen, hok, hheld]
  · simp [outstanding, waiting, created, unseen, hok]
  · exact absurd hheld (by simpa using hheld')

/-- While PDUs are added, the repository is what is outstanding. -/
theorem Adding.outstanding (h : s.Adding) : s.outstanding = remainingPdus s.repository 0 := by
  simp [UplinkProcessor.outstanding, waiting, created, unseen, h.procedure, h.tasks, h.symbols, h.slot]

theorem Inv.of_adding (hadding : s.Adding) (hheld : s.repositoryHeld = true)
    (hok : s.assertionFailed = false)
    (honce : ((remainingPdus s.repository 0).map (·.id) ++ s.completions).Perm
      (List.range s.nofCounted))
    (hword : s.pendingPduCount = pack true false 0 (remainingPdus s.repository 0).length)
    (hlt : (remainingPdus s.repository 0).length < 2 ^ 12) : s.Inv where
  ok := hok
  symbols := hadding.symbols ▸ Nat.zero_le _
  once := hadding.outstanding ▸ honce
  word := by
    refine .inr ⟨?_, hadding.outstanding ▸ hlt⟩
    rw [hadding.outstanding, hword]
    simp [isLocked, inExec, created, hadding.procedure, hadding.tasks, hheld]
  procedure := by simp [ProcedureOk, hadding.procedure]
  adding := fun _ => hadding

theorem Inv.startNewSlot (h : s.Inv) (slot : Nat) : (s.startNewSlot slot).Inv := by
  rw [UplinkProcessor.startNewSlot]
  cases hstart : UplinkProcessorFsm.startNewSlot s.pendingPduCount with
  | none => exact h.calls s.checkedCalls _ s.gridRefCounter s.slotProcessorHeld
  | some count =>
    rcases h.word with hstopped | hpacked
    · rw [hstopped.word, stopped_startNewSlot] at hstart
      cases hstart
    rw [hpacked.word, startNewSlot_pack] at hstart
    split at hstart
    · rename_i hidle
      simp only [Bool.and_eq_true, Bool.not_eq_true', decide_eq_true_eq] at hidle
      obtain ⟨⟨⟨-, hlocked⟩, -⟩, hqueue⟩ := hidle
      have hprocedure : s.procedure = .none := by simpa [isLocked] using hlocked
      have houtstanding : s.outstanding = [] := List.length_eq_zero_iff.mp hqueue
      have htasks : s.tasks = [] := by
        rw [outstanding, List.append_eq_nil_iff] at houtstanding
        exact houtstanding.2
      have honce := h.once
      rw [houtstanding] at honce
      obtain rfl := Option.some.inj hstart
      exact .of_adding ⟨hprocedure, htasks, rfl, rfl⟩ rfl h.ok honce rfl
        (Nat.two_pow_pos 12)
    · cases hstart

theorem Inv.word_adding (h : s.Inv) (hheld : s.repositoryHeld = true) :
    s.pendingPduCount = pack true false 0 (remainingPdus s.repository 0).length := by
  have hadding := h.adding hheld
  rw [(h.packed_of_held hheld).word, hheld, hadding.outstanding]
  simp [isLocked, inExec, created, hadding.procedure, hadding.tasks]

theorem Inv.lt_adding (h : s.Inv) (hheld : s.repositoryHeld = true) :
    (remainingPdus s.repository 0).length < 2 ^ 12 :=
  (h.adding hheld).outstanding ▸ (h.packed_of_held hheld).lt

theorem Inv.once_adding (h : s.Inv) (hheld : s.repositoryHeld = true) :
    ((remainingPdus s.repository 0).map (·.id) ++ s.completions).Perm (List.range s.nofCounted) :=
  (h.adding hheld).outstanding ▸ h.once

theorem Inv.finishAddingPdus (h : s.Inv) (hheld : s.repositoryHeld = true) :
    s.finishAddingPdus.Inv := by
  have hadding := h.adding hheld
  have hlt := h.lt_adding hheld
  rw [UplinkProcessor.finishAddingPdus, h.word_adding hheld, stopAcceptingPdu_pack (by decide) hlt]
  refine ⟨?_, h.symbols, h.once, .inr ⟨?_, (h.packed_of_held hheld).lt⟩, h.procedure, nofun⟩
  · simp [apply, h.ok]
  · simp [apply, isLocked, inExec, UplinkProcessor.outstanding, waiting, created, unseen,
      hadding.procedure, hadding.tasks, hadding.symbols, hadding.slot]

variable {endSymbolIndex : Nat}

theorem Inv.addPdu (h : s.Inv) (hheld : s.repositoryHeld = true) {kind : PduKind}
    (hsymbol : endSymbolIndex < maxNsymbPerSlot)
    (hroom : s.repository.any (joinsCollection kind endSymbolIndex) = true ∨
      getNofPendingPduInQueue s.pendingPduCount < 0xfff) : (s.addPdu kind endSymbolIndex).Inv := by
  obtain ⟨hprocedure, htasks, hzero, hslot⟩ := h.adding hheld
  have hlt := h.lt_adding hheld
  have hword := h.word_adding hheld
  have honce := h.once_adding hheld
  rw [UplinkProcessor.addPdu]
  split
  · have hids := @remainingPdus_map s.repository (fun entry =>
      if joinsCollection kind endSymbolIndex entry then
        { entry with ueContexts := entry.ueContexts + 1 }
      else entry) (fun _ => by split <;> rfl) (fun _ => by split <;> rfl) (fun _ => by split <;> rfl) 0
    have hlength := congrArg List.length hids
    rw [List.length_map, List.length_map] at hlength
    refine .of_adding ⟨hprocedure, htasks, hzero, hslot⟩ hheld h.ok ?_ ?_ ?_
    · rw [hids]
      exact honce
    · rw [hlength]
      exact hword
    · rw [hlength]
      exact hlt
  · rename_i hnew
    have hqueue := hroom.resolve_left hnew
    rw [hword, getNofPendingPduInQueue_pack hlt] at hqueue
    have hcount : (remainingPdus s.repository 0).length + 1 < 2 ^ 12 := Nat.succ_lt_succ hqueue
    rw [hword, incrementPendingPduCount_pack (by decide) hcount]
    have hadded := @remainingPdus_add s.repository { id := s.nofCounted, kind, endSymbolIndex } hsymbol
    have hlength := hadded.length_eq
    rw [List.length_append, List.length_singleton] at hlength
    refine .of_adding ⟨hprocedure, htasks, hzero, hslot⟩ hheld ?_ ?_ ?_ ?_
    · simp [apply, h.ok]
    · refine ((hadded.map (·.id)).append_right _).trans ?_
      simp only [apply]
      rw [List.range_succ, List.map_append, List.append_assoc]
      refine .trans ?_ (honce.append_right [s.nofCounted])
      rw [List.append_assoc]
      exact List.perm_append_comm.append_left _
    · rw [hlength]
      rfl
    · rw [hlength]
      exact hcount

theorem Inv.lock (h : s.Inv) {count : Nat} (hstart : startHandleRxSymbol s.pendingPduCount = some count)
    (haccepting : isStateAcceptingPdu s.pendingPduCount = false) :
    s.procedure = .none ∧ s.repositoryHeld = false ∧
      count = pack false true s.inExec s.outstanding.length ∧ s.outstanding.length < 2 ^ 12 := by
  rcases h.word with hstopped | hpacked
  · rw [hstopped.word, stopped_startHandleRxSymbol] at hstart
    cases hstart
  rw [hpacked.word, isStateAcceptingPdu_pack hpacked.exec_lt hpacked.lt] at haccepting
  rw [hpacked.word, startHandleRxSymbol_pack hpacked.exec_lt hpacked.lt] at hstart
  split at hstart
  · cases hstart
  rename_i hskip
  rw [not_or, Bool.not_eq_true] at hskip
  rw [haccepting] at hstart
  exact ⟨by simpa [isLocked] using hskip.1, haccepting, (Option.some.inj hstart).symm, hpacked.lt⟩

theorem Inv.begin {count : Nat} {slot : Option Nat} {procedure : Procedure} (h : s.Inv)
    (hstart : startHandleRxSymbol s.pendingPduCount = some count)
    (haccepting : isStateAcceptingPdu s.pendingPduCount = false) (hlocked : procedure ≠ .none)
    (hwaiting : waiting
      { s with pendingPduCount := count, alternativeSlot := slot, procedure := procedure } = s.waiting)
    (hcreated : created
      { s with pendingPduCount := count, alternativeSlot := slot, procedure := procedure } = [])
    (hexec : inExec
      { s with pendingPduCount := count, alternativeSlot := slot, procedure := procedure } =
        s.tasks.length)
    (hok : ProcedureOk
      { s with pendingPduCount := count, alternativeSlot := slot, procedure := procedure }) :
    Inv
      { s with pendingPduCount := count, alternativeSlot := slot, procedure := procedure } := by
  obtain ⟨hprocedure, hheld, hcount, hlt⟩ := h.lock hstart haccepting
  have hnone : s.created = [] := by rw [created, hprocedure]
  have houtstanding : outstanding
      { s with pendingPduCount := count, alternativeSlot := slot, procedure := procedure } =
        s.outstanding := by
    rw [outstanding, hwaiting, hcreated, outstanding, hnone]
  refine ⟨h.ok, h.symbols, ?_, .inr ⟨?_, ?_⟩, hok, fun hheld' => ?_⟩
  · rw [houtstanding]
    exact h.once
  · have hlock : isLocked
        { s with pendingPduCount := count, alternativeSlot := slot, procedure := procedure } = true :=
      decide_eq_true hlocked
    have hexec' : s.inExec = s.tasks.length := by
      rw [inExec, hprocedure, hnone]
      exact Nat.zero_add _
    rw [hlock, hexec, houtstanding, ← hexec']
    dsimp only
    rw [hheld]
    exact hcount
  · rw [houtstanding]
    exact hlt
  · exact absurd hheld (by simpa using hheld')

/-- Nothing is outstanding in the symbols that are visited after an invalid symbol. -/
theorem visited_nil (hle : s.nofProcessedSymbols ≤ endSymbolIndex)
    (hvisited : s.visited endSymbolIndex true = [])
    (hfrom : s.nofProcessedSymbols ≤ symbol)
    (hto : symbol < min (endSymbolIndex + 1) maxNsymbPerSlot) :
    symbolPdus s.repository symbol = [] := by
  rw [visited, if_neg (Nat.not_lt.mpr hle), Bool.not_true, if_neg Bool.false_ne_true,
    List.flatMap_eq_nil_iff] at hvisited
  refine hvisited symbol (List.mem_range'_1.mpr ⟨hfrom, ?_⟩)
  omega

variable (h : s.Inv)
include h

theorem Inv.handleRxSymbol {isValid : Bool}
    (horderly : startHandleRxSymbol s.pendingPduCount = none ∨
      isStateAcceptingPdu s.pendingPduCount = false ∧
        (s.alternativeSlot.isSome = true ∨ s.visited endSymbolIndex isValid = [])) :
    (s.handleRxSymbol endSymbolIndex isValid).Inv := by
  rw [UplinkProcessor.handleRxSymbol]
  cases hstart : startHandleRxSymbol s.pendingPduCount with
  | none => exact h
  | some count =>
    obtain ⟨haccepting, hvisited⟩ :=
      horderly.resolve_left (by rw [hstart]; exact Option.some_ne_none _)
    obtain ⟨hprocedure, -⟩ := h.lock hstart haccepting
    have hwaiting : s.waiting = s.unseen s.nofProcessedSymbols := by rw [waiting, hprocedure]
    dsimp only
    split
    · exact @Inv.begin s count s.alternativeSlot .rxReturn h hstart haccepting Procedure.noConfusion
        hwaiting.symm rfl (Nat.zero_add _) trivial
    rename_i hback
    have hle := Nat.le_of_not_lt hback
    cases isValid with
    | false =>
      rw [if_pos Bool.not_false]
      refine @Inv.begin s count none (.invalidSymbol _ none) h hstart haccepting
        Procedure.noConfusion ?_ rfl (Nat.zero_add _) rfl
      rw [hwaiting]
      show remainingPdus s.repository s.nofProcessedSymbols = _
      rw [unseen]
      split
      · rfl
      · rename_i hslot
        have hnil := hvisited.resolve_left hslot
        rwa [visited, if_neg hback, if_pos Bool.not_false] at hnil
    | true =>
      rw [Bool.not_true, if_neg Bool.false_ne_true]
      split
      · exact @Inv.begin s count s.alternativeSlot .rxReturn h hstart haccepting
          Procedure.noConfusion hwaiting.symm rfl (Nat.zero_add _) trivial
      rename_i hend
      have hsymbols := h.symbols
      have hnof : s.nofProcessedSymbols < min (endSymbolIndex + 1) maxNsymbPerSlot := by omega
      refine @Inv.begin s count s.alternativeSlot (.rxSymbol _ none _) h hstart haccepting
        Procedure.noConfusion ?_ rfl (Nat.zero_add _) ⟨hnof, Nat.min_le_right _ _, ?_⟩
      · rw [hwaiting]
        show symbolPdus s.repository s.nofProcessedSymbols ++ s.unseen _ = _
        rw [unseen, unseen]
        split
        · exact (remainingPdus_succ (Nat.lt_of_lt_of_le hnof (Nat.min_le_right _ _))).symm
        · rename_i hslot
          rw [List.append_nil]
          exact visited_nil hle (hvisited.resolve_left hslot) le_rfl hnof
      · intro hslot
        have hnil := hvisited.resolve_left (by simp [show s.alternativeSlot = none from hslot])
        exact ⟨visited_nil hle hnil le_rfl hnof,
          fun symbol hfrom hto => visited_nil hle hnil hfrom.le hto⟩

theorem Inv.createPduTask {next : Option RepositoryEntry → Procedure}
    (hne : s.procedure ≠ .none) (hnext : next (some pdu) ≠ .none)
    (hexec : s.inExec = s.tasks.length) (hcreated : s.created = [])
    (hexec' : (s.proceed s.tasks (next (some pdu))).inExec = s.tasks.length + 1)
    (hcreated' : (s.proceed s.tasks (next (some pdu))).created = [pdu])
    (hwaiting : s.waiting = pdu :: (s.proceed s.tasks (next (some pdu))).waiting)
    (hok : (s.proceed s.tasks (next (some pdu))).ProcedureOk) : (s.createPduTask pdu next).Inv := by
  have hlt := (h.packed hne).lt
  have hlength : s.outstanding.length =
      (s.proceed s.tasks (next (some pdu))).waiting.length + 1 + s.tasks.length := by
    rw [outstanding, hwaiting, hcreated, List.length_append, List.length_append, List.length_cons,
      List.length_nil, Nat.add_zero]
  have hmoved : s.outstanding.Perm (s.proceed s.tasks (next (some pdu))).outstanding := by
    rw [outstanding, outstanding, hwaiting, hcreated, hcreated', List.append_nil]
    exact (List.perm_append_singleton _ _).symm.append_right _
  have hpos : 0 < s.outstanding.length := by omega
  have hcreate : onCreatePduTask s.pendingPduCount =
      (some (pack false true (s.tasks.length + 1) s.outstanding.length), true) := by
    rw [h.word_locked hne, hexec, onCreatePduTask_pack (by omega) hlt, decide_eq_true hpos]
    rfl
  rw [UplinkProcessor.createPduTask, hcreate]
  dsimp only
  refine ⟨?_, h.symbols, once_moved h.once hmoved, .inr ⟨?_, hmoved.length_eq ▸ hlt⟩, hok,
    fun hheld => ?_⟩
  · simp [apply, h.ok]
  · have hlocked : (s.proceed s.tasks (next (some pdu))).isLocked = true := decide_eq_true hnext
    have hsame : pack s.repositoryHeld (s.proceed s.tasks (next (some pdu))).isLocked
        (s.proceed s.tasks (next (some pdu))).inExec
        (s.proceed s.tasks (next (some pdu))).outstanding.length =
          pack false true (s.tasks.length + 1) s.outstanding.length := by
      rw [hlocked, hexec', ← hmoved.length_eq, h.held_eq hne]
    exact hsame.symm
  · exact absurd (h.held_eq hne) (by simpa [apply] using hheld)

theorem Inv.enqueue {pdus : List RepositoryEntry} {endProcessedSymbol : Nat}
    (hprocedure : s.procedure = .rxSymbol pdus (some pdu) endProcessedSymbol) :
    (s.proceed (s.tasks ++ [pdu]) (.rxSymbol pdus .none endProcessedSymbol)).Inv := by
  have hne : s.procedure ≠ .none := by rw [hprocedure]; exact Procedure.noConfusion
  have hok := h.procedure
  rw [ProcedureOk, hprocedure] at hok
  have hword := h.word_locked hne
  have hlt := (h.packed hne).lt
  have hmoved : s.outstanding.Perm
      (s.proceed (s.tasks ++ [pdu]) (.rxSymbol pdus .none endProcessedSymbol)).outstanding := by
    simp only [outstanding, waiting, created, hprocedure, Option.toList_some, Option.toList_none,
      List.append_nil, List.append_assoc]
    exact (List.perm_append_comm.append_left _).append_left _
  refine ⟨h.ok, h.symbols, once_moved h.once hmoved, .inr ⟨?_, hmoved.length_eq ▸ hlt⟩, hok,
    fun hheld => ?_⟩
  · rw [← hmoved.length_eq]
    refine hword.trans ?_
    simp [isLocked, inExec, created, hprocedure, h.held_eq hne, Nat.add_comm]
  · exact absurd (h.held_eq hne) (by simpa using hheld)

theorem Inv.finish {pdu : RepositoryEntry} {procedure : Procedure}
    {tasks : List RepositoryEntry} (hheld : s.repositoryHeld = false)
    (hlocked : (s.proceed tasks procedure).isLocked = s.isLocked)
    (hexec : s.inExec = (s.proceed tasks procedure).inExec + 1)
    (houtstanding : s.outstanding.Perm (pdu :: (s.proceed tasks procedure).outstanding))
    (hok : (s.proceed tasks procedure).ProcedureOk) (hpacked : s.Packed) :
    ((s.complete pdu).proceed tasks procedure).Inv := by
  have hlt := hpacked.lt
  have hword := hpacked.word
  rw [houtstanding.length_eq, List.length_cons] at hlt
  rw [hheld, hexec, houtstanding.length_eq, List.length_cons] at hword
  rw [complete_word hword (inExec_le _) hlt h.ok]
  refine ⟨h.ok, h.symbols, once_complete h.once houtstanding, .inr ⟨?_, Nat.lt_of_succ_lt hlt⟩, hok,
    fun hheld' => ?_⟩
  · have hsame : pack s.repositoryHeld (s.proceed tasks procedure).isLocked
        (s.proceed tasks procedure).inExec (s.proceed tasks procedure).outstanding.length =
          pack false s.isLocked (s.proceed tasks procedure).inExec
            (s.proceed tasks procedure).outstanding.length := by
      rw [hheld, hlocked]
    exact hsame.symm
  · exact absurd hheld (by simpa using hheld')

theorem Inv.relocate {procedure : Procedure} (hne : s.procedure ≠ .none)
    (hlocked : procedure ≠ .none) (hsymbol : symbol ≤ maxNsymbPerSlot)
    (hexec : s.inExec = s.tasks.length)
    (hexec' : inExec
      { s with nofProcessedSymbols := symbol, procedure := procedure } = s.tasks.length)
    (houtstanding : outstanding
      { s with nofProcessedSymbols := symbol, procedure := procedure } = s.outstanding)
    (hok : ProcedureOk
      { s with nofProcessedSymbols := symbol, procedure := procedure }) :
    Inv { s with nofProcessedSymbols := symbol, procedure := procedure } := by
  have hlock : isLocked
      { s with nofProcessedSymbols := symbol, procedure := procedure } = true := decide_eq_true hlocked
  refine ⟨h.ok, hsymbol, houtstanding ▸ h.once, .inr ⟨?_, houtstanding ▸ (h.packed hne).lt⟩, hok,
    fun hheld => ?_⟩
  · rw [houtstanding, hlock, hexec', ← hexec]
    have hword := h.word_locked hne
    rw [← h.held_eq hne] at hword
    exact hword
  · exact absurd (h.held_eq hne) (by simpa using hheld)

theorem Inv.nextSymbol {endProcessedSymbol : Nat}
    (hprocedure : s.procedure = .rxSymbol [] none endProcessedSymbol) :
    Inv { s with
      nofProcessedSymbols := s.nofProcessedSymbols + 1
      procedure :=
        if s.nofProcessedSymbols + 1 = endProcessedSymbol then .rxReturn
        else .rxSymbol (symbolPdus s.repository (s.nofProcessedSymbols + 1)) .none
          endProcessedSymbol } := by
  have hne : s.procedure ≠ .none := by rw [hprocedure]; exact Procedure.noConfusion
  have hok := h.procedure
  rw [ProcedureOk, hprocedure] at hok
  obtain ⟨hlt, hend, hskipped⟩ := hok
  have hexec : s.inExec = s.tasks.length := by simp [inExec, created, hprocedure]
  have houtstanding : s.outstanding = s.unseen (s.nofProcessedSymbols + 1) ++ s.tasks := by
    simp [outstanding, waiting, created, hprocedure]
  split
  · exact h.relocate hne Procedure.noConfusion (by omega) hexec (Nat.zero_add _)
      (houtstanding ▸ (by simp [outstanding, waiting, created, unseen])) trivial
  · rename_i hmore
    refine h.relocate hne Procedure.noConfusion (by omega) hexec (Nat.zero_add _) ?_
      ⟨show s.nofProcessedSymbols + 1 < endProcessedSymbol by omega, hend, ?_⟩
    · rw [houtstanding]
      show symbolPdus s.repository (s.nofProcessedSymbols + 1) ++
        s.unseen (s.nofProcessedSymbols + 1 + 1) ++ [] ++ s.tasks = _
      rw [List.append_nil, unseen, unseen]
      split
      · have hnext : s.nofProcessedSymbols + 1 < maxNsymbPerSlot := by omega
        rw [remainingPdus_succ hnext]
      · rename_i hslot
        rw [(hskipped (by simpa using hslot)).2 _ (Nat.lt_succ_self _) (by omega)]
        rfl
    · intro hslot
      obtain ⟨-, hempty⟩ := hskipped hslot
      exact ⟨hempty _ (Nat.lt_succ_self _) (by omega),
        fun symbol hfrom hto => hempty symbol (Nat.lt_of_succ_lt hfrom) hto⟩

theorem Inv.endInvalidSymbol (hprocedure : s.procedure = .invalidSymbol [] none) :
    Inv { s with procedure := .rxReturn } := by
  have hne : s.procedure ≠ .none := by rw [hprocedure]; exact Procedure.noConfusion
  have hok := h.procedure
  rw [ProcedureOk, hprocedure] at hok
  refine h.relocate hne Procedure.noConfusion h.symbols ?_ (Nat.zero_add _) ?_ trivial
  · simp [inExec, created, hprocedure]
  · simp [outstanding, waiting, created, unseen, hprocedure, hok]

theorem Inv.finishHandleRxSymbol (hprocedure : s.procedure = .rxReturn) :
    Inv { s.apply (UplinkProcessorFsm.finishHandleRxSymbol s.pendingPduCount) with
      procedure := .none } := by
  have hne : s.procedure ≠ .none := by rw [hprocedure]; exact Procedure.noConfusion
  have hheld := h.held_eq hne
  have hpacked := h.packed hne
  have houtstanding : outstanding { s with procedure := .none } = s.outstanding := by
    simp [outstanding, waiting, created, unseen, hprocedure]
  have hexec : inExec { s with procedure := .none } = s.inExec := by
    simp [inExec, created, hprocedure]
  have hfinish : UplinkProcessorFsm.finishHandleRxSymbol s.pendingPduCount =
      (pack false false s.inExec s.outstanding.length, true) := by
    rw [h.word_locked hne, finishHandleRxSymbol_pack hpacked.exec_lt hpacked.lt]
    rfl
  rw [hfinish, apply]
  refine ⟨by simp [h.ok], h.symbols, ?_, .inr ⟨?_, ?_⟩, trivial, fun hheld' => ?_⟩
  · have honce := h.once
    rw [← houtstanding] at honce
    exact honce
  · have hsame : pack s.repositoryHeld (isLocked { s with procedure := .none })
        (inExec { s with procedure := .none })
        (outstanding { s with procedure := .none }).length =
          pack false false s.inExec s.outstanding.length := by
      rw [hexec, houtstanding, hheld]
      rfl
    exact hsame.symm
  · have hlt := hpacked.lt
    rw [← houtstanding] at hlt
    exact hlt
  · exact absurd hheld (by simpa using hheld')

theorem Inv.completeTask {index : Nat} (htask : s.tasks[index]? = some pdu) :
    ((s.complete pdu).proceed (s.tasks.eraseIdx index) s.procedure).Inv := by
  obtain ⟨hindex, rfl⟩ := List.getElem?_eq_some_iff.mp htask
  have htasks : s.tasks ≠ [] := List.ne_nil_of_length_pos (Nat.zero_lt_of_lt hindex)
  have hheld : s.repositoryHeld = false := by
    by_contra hheld
    exact htasks (h.adding (Bool.not_eq_false _ ▸ hheld)).tasks
  have hpacked : s.Packed := h.word.resolve_left fun hstopped => htasks hstopped.tasks
  have hnoDiscard : ∀ pdus forNewSlot, s.procedure ≠ .discardSlot pdus forNewSlot := by
    intro pdus forNewSlot hprocedure
    have hok := h.procedure
    rw [ProcedureOk, hprocedure] at hok
    exact htasks hok.2
  have hlength : s.tasks.length = (s.tasks.eraseIdx index).length + 1 := by
    rw [List.length_eraseIdx_of_lt hindex]
    omega
  refine @Inv.finish s h _ s.procedure (s.tasks.eraseIdx index) hheld rfl ?_ ?_ ?_ hpacked
  · have hcreated : (s.proceed (s.tasks.eraseIdx index) s.procedure).created = s.created := rfl
    rw [inExec, inExec, hcreated]
    split
    · rename_i pdus forNewSlot hprocedure
      exact absurd hprocedure (hnoDiscard pdus forNewSlot)
    · show s.created.length + s.tasks.length = s.created.length + (s.tasks.eraseIdx index).length + 1
      omega
  · show (s.waiting ++ s.created ++ s.tasks).Perm
      (_ :: (s.waiting ++ s.created ++ s.tasks.eraseIdx index))
    refine .trans ?_ List.perm_middle
    exact (List.getElem_cons_eraseIdx_perm hindex).symm.append_left _
  · have hok := h.procedure
    rw [ProcedureOk] at hok ⊢
    dsimp only
    cases hprocedure : s.procedure with
    | discardSlot pdus forNewSlot => exact absurd hprocedure (hnoDiscard pdus forNewSlot)
    | none => trivial
    | rxReturn => trivial
    | invalidSymbol pdus created => simpa [hprocedure] using hok
    | rxSymbol pdus created endProcessedSymbol => simpa [hprocedure] using hok

theorem Inv.stop {count : Nat} (hstop : UplinkProcessorFsm.stop s.pendingPduCount = some count) :
    Inv { s with pendingPduCount := count } := by
  rcases h.word with hstopped | hpacked
  · rw [hstopped.word, stopped_stop] at hstop
    cases hstop
  rw [hpacked.word, stop_pack hpacked.exec_lt hpacked.lt] at hstop
  split at hstop
  · cases hstop
  rename_i hwait
  rw [not_or, not_or, Bool.not_eq_true, Bool.not_eq_true, Nat.not_lt, Nat.le_zero] at hwait
  obtain ⟨hheld, hexec, hlocked⟩ := hwait
  have hprocedure : s.procedure = .none := by simpa [isLocked] using hlocked
  have htasks : s.tasks = [] := by
    rw [inExec, hprocedure] at hexec
    exact List.length_eq_zero_iff.mp (by simpa [created, hprocedure] using hexec)
  obtain rfl := Option.some.inj hstop
  exact ⟨h.ok, h.symbols, h.once, .inl ⟨rfl, hheld, hprocedure, htasks⟩, h.procedure,
    fun hheld' => absurd hheld (by simpa using hheld')⟩

end UplinkProcessor

end Srsran.Phy
