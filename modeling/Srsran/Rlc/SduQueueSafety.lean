import Srsran.Rlc.SduQueueLockfree
import Mathlib.Data.List.Nodup
import Mathlib.Algebra.BigOperators.Group.List.Basic

/-! Invariants of the SDU queue under interleaved accesses: what has left the ring, who holds the
slots of the side table, and which SDUs the packed totals count. -/
namespace Srsran.Rlc
namespace SduQueueThreads
open Runs RlcSduQueue

def ReaderInv (s : SduQueueThreads) : QueueReader → Prop
  | .idle => s.nofPopped = s.nofReleased ∧ s.nofReleased = s.nofReturned
  | .popped sdu => s.nofPopped = s.nofReleased + 1 ∧ s.nofReleased = s.nofReturned ∧
      s.written[s.nofReturned]? = some sdu
  | .sizeLoaded sdu pdcpSn sduSize => s.nofPopped = s.nofReleased + 1 ∧
      s.nofReleased = s.nofReturned ∧ s.written[s.nofReturned]? = some sdu ∧
      sdu.pdcpSn = some pdcpSn ∧ sduSize = sdu.buf.length
  | .released sdu sduSize valid => s.nofPopped = s.nofReleased ∧
      s.nofReleased = s.nofReturned + 1 ∧ s.written[s.nofReturned]? = some sdu ∧
      sduSize = sdu.buf.length ∧ valid = true ∧ s.nofReturned ∉ s.discarded

/-- The ring holds what was written and not popped, and what was returned is what was popped
without the discarded SDUs, in the order of writing. -/
structure HistoryInv (s : SduQueueThreads) : Prop where
  ring : s.shared.queue = s.written.drop s.nofPopped
  popped_le : s.nofPopped ≤ s.written.length
  ring_le : s.shared.queue.length ≤ s.shared.cfg.capacity.toNat
  reader : ReaderInv s s.reader
  delivered : s.delivered =
    (s.written.zipIdx.take s.nofReturned).filter fun e => e.2 ∉ s.discarded

/-- The writer holds a slot for an SDU that is not in the ring. -/
def writerHolds (q : RlcSduQueue) (idx : Nat) : QueueWriter → Prop
  | .slotStored sdu => ∃ pdcpSn, sdu.pdcpSn = some pdcpSn ∧ q.slot pdcpSn = idx
  | .pushFailed pdcpSn => q.slot pdcpSn = idx
  | _ => False

/-- An SDU with PDCP SN that has been written and not released. -/
structure Unreleased (written : List RlcSdu) (nofReleased i : Nat) (sdu : RlcSdu)
    (pdcpSn : Nat) : Prop where
  released_le : nofReleased ≤ i
  written : written[i]? = some sdu
  pdcpSn : sdu.pdcpSn = some pdcpSn

section Slots
variable (q : RlcSduQueue) (slotOwner : Nat → Nat) (discarded : List Nat) (written : List RlcSdu)

/-- SDU number `i` holds its slot. -/
structure SlotHeld (i : Nat) (sdu : RlcSdu) (pdcpSn : Nat) : Prop where
  state : q.sduStates (q.slot pdcpSn) = if i ∈ discarded then stateDiscarded else pdcpSn
  owner : slotOwner (q.slot pdcpSn) = i
  size : q.sduSizes (q.slot pdcpSn) = sdu.buf.length

def WriterInv : QueueWriter → Prop
  | .idle => True
  | .limitChecked sdu => ∀ pdcpSn, sdu.pdcpSn = some pdcpSn → validPdcpSn pdcpSn
  | .slotChecked sdu pdcpSn => sdu.pdcpSn = some pdcpSn ∧ validPdcpSn pdcpSn ∧
      q.sduStates (q.slot pdcpSn) = stateFree
  | .sizeStored sdu pdcpSn => sdu.pdcpSn = some pdcpSn ∧ validPdcpSn pdcpSn ∧
      q.sduStates (q.slot pdcpSn) = stateFree ∧ q.sduSizes (q.slot pdcpSn) = sdu.buf.length
  | .slotStored sdu => ∀ pdcpSn, sdu.pdcpSn = some pdcpSn → validPdcpSn pdcpSn ∧
      q.sduStates (q.slot pdcpSn) = pdcpSn ∧ slotOwner (q.slot pdcpSn) = written.length ∧
      q.sduSizes (q.slot pdcpSn) = sdu.buf.length
  | .pushFailed pdcpSn => slotOwner (q.slot pdcpSn) = written.length
  | .pushed sdu => ∃ init, written = init ++ [sdu]
  | .exchanged pdcpSn success => success = true → ∃ i rest sdu, discarded = i :: rest ∧
      written[i]? = some sdu ∧ q.sduSizes (q.slot pdcpSn) = sdu.buf.length
  | .discardSizeLoaded sduSize success => success = true → ∃ i rest sdu,
      discarded = i :: rest ∧ written[i]? = some sdu ∧ sduSize = sdu.buf.length

/-- Every SDU that was written and not released holds its slot. -/
structure SlotTable (nofReleased : Nat) : Prop where
  valid : ∀ sdu ∈ written, ∀ pdcpSn, sdu.pdcpSn = some pdcpSn → validPdcpSn pdcpSn
  discardable : ∀ i ∈ discarded, ∃ sdu pdcpSn, written[i]? = some sdu ∧ sdu.pdcpSn = some pdcpSn
  held : ∀ i sdu pdcpSn, Unreleased written nofReleased i sdu pdcpSn →
    SlotHeld q slotOwner discarded i sdu pdcpSn

/-- No slot is taken for another SDU, except by the writer. -/
def SlotsTaken (nofReleased : Nat) (writer : QueueWriter) : Prop :=
  ∀ idx, q.sduStates idx ≠ stateFree →
    (∃ i sdu pdcpSn, Unreleased written nofReleased i sdu pdcpSn ∧ q.slot pdcpSn = idx) ∨
      writerHolds q idx writer

end Slots

structure SlotInv (s : SduQueueThreads) : Prop where
  table : SlotTable s.shared s.slotOwner s.discarded s.written s.nofReleased
  taken : SlotsTaken s.shared s.written s.nofReleased s.writer
  writer : WriterInv s.shared s.slotOwner s.discarded s.written s.writer

def sizeAt (s : SduQueueThreads) (i : Nat) : Nat := (s.written.getD i {}).buf.length

def countedBytes (s : SduQueueThreads) : Nat := (s.counted.map s.sizeAt).sum

/-- Size of the SDU that the writer has checked against the byte limit and not yet added. -/
def bytesInHand : QueueWriter → Nat
  | .limitChecked sdu => sdu.buf.length
  | .slotChecked sdu _ => sdu.buf.length
  | .sizeStored sdu _ => sdu.buf.length
  | .slotStored sdu => sdu.buf.length
  | .pushed sdu => sdu.buf.length
  | _ => 0

/-- The writer has marked SDU `i` as discarded but not yet subtracted it. -/
def subOutstanding (s : SduQueueThreads) (i : Nat) : Prop :=
  s.discarded.head? = some i ∧
    match s.writer with
    | .exchanged _ success => success = true
    | .discardSizeLoaded _ success => success = true
    | _ => False

/-- The packed totals are the sum over the SDUs that were added and not subtracted. -/
structure TotalsInv (s : SduQueueThreads) : Prop where
  nodup : s.counted.Nodup
  mem : ∀ i, i ∈ s.counted ↔ i < s.written.length ∧
    ¬ (s.addOutstanding = true ∧ i + 1 = s.written.length) ∧
    ((s.nofReturned ≤ i ∧ i ∉ s.discarded) ∨ s.subOutstanding i)
  state : s.shared.state = (s.counted.length * 2 ^ 32 + s.countedBytes) % 2 ^ 64
  bytes : s.countedBytes + bytesInHand s.writer < 2 ^ 32
  pending : s.addOutstanding = true →
    s.nofReturned < s.written.length ∧ s.written.length - 1 ∉ s.discarded

structure QueueInv (s : SduQueueThreads) : Prop where
  history : HistoryInv s
  slots : SlotInv s
  totals : TotalsInv s

theorem QueueInv.create (cfg : RlcSduQueueConfig) : QueueInv (create cfg) := by
  refine ⟨⟨rfl, Nat.le_refl 0, Nat.zero_le _, ⟨rfl, rfl⟩, rfl⟩, ⟨⟨?_, ?_, ?_⟩, ?_, trivial⟩,
    ⟨List.nodup_nil, ?_, ?_, ?_, ?_⟩⟩
  · exact fun sdu hmem => by cases hmem
  · exact fun i hmem => by cases hmem
  · exact fun i sdu pdcpSn h => by cases h.written
  · exact fun idx h => absurd rfl h
  · simp [SduQueueThreads.create, subOutstanding]
  · simp [SduQueueThreads.create, countedBytes]
  · exact Nat.two_pow_pos 32
  · exact fun h => by cases h

theorem stateChange_eq {n : Nat} (h : n < 2 ^ 32) : stateChange n = 2 ^ 32 + n := by
  have hor : (2 ^ 32 * 1 ||| n) = 2 ^ 32 * 1 + n := (Nat.two_pow_add_eq_or_of_lt h 1).symm
  rw [stateChange, Nat.mod_eq_of_lt h, Nat.one_shiftLeft]
  simpa using hor

variable {q : RlcSduQueue}

theorem nBytes_eq {k b : Nat} (hstate : q.state = (k * 2 ^ 32 + b) % 2 ^ 64)
    (hb : b < 2 ^ 32) : q.nBytes = b := by
  have hmask : q.nBytes = q.state % 2 ^ 32 := Nat.and_two_pow_sub_one_eq_mod q.state 32
  rw [hmask, hstate]
  omega

theorem nSdus_eq {k b : Nat} (hstate : q.state = (k * 2 ^ 32 + b) % 2 ^ 64)
    (hb : b < 2 ^ 32) : q.nSdus = k % 2 ^ 32 := by
  rw [nSdus, Nat.shiftRight_eq_div_pow, hstate]
  omega

section Steps
variable {s s' : SduQueueThreads}

/-- Steps that leave the totals and everything they count alone. -/
theorem TotalsInv.keep (h : TotalsInv s) (hwritten : s'.written = s.written)
    (hcounted : s'.counted = s.counted) (hstate : s'.shared.state = s.shared.state)
    (hreturned : s'.nofReturned = s.nofReturned) (hdiscarded : s'.discarded = s.discarded)
    (hadd : s'.addOutstanding = s.addOutstanding)
    (hsub : ∀ i, s'.subOutstanding i ↔ s.subOutstanding i)
    (hhand : bytesInHand s'.writer ≤ bytesInHand s.writer) : TotalsInv s' := by
  have hbytes : s'.countedBytes = s.countedBytes := by
    rw [countedBytes, countedBytes, hcounted]
    congr 2
    funext i
    rw [sizeAt, sizeAt, hwritten]
  refine ⟨by rw [hcounted]; exact h.nodup, fun i => ?_, ?_, ?_, ?_⟩
  · rw [hcounted, hwritten, hadd, hreturned, hdiscarded, hsub]
    exact h.mem i
  · rw [hstate, hcounted, hbytes]
    exact h.state
  · have := h.bytes
    omega
  · rw [hadd, hreturned, hwritten, hdiscarded]
    exact h.pending

def QuietWriter : QueueWriter → Prop
  | .pushed _ => False
  | .exchanged _ success => success = false
  | .discardSizeLoaded _ success => success = false
  | _ => True

theorem QuietWriter.addOutstanding (h : QuietWriter s.writer) : s.addOutstanding = false := by
  unfold SduQueueThreads.addOutstanding
  split
  · rename_i hw
    rw [hw] at h
    exact h.elim
  · rfl

theorem QuietWriter.subOutstanding (h : QuietWriter s.writer) (i : Nat) :
    ¬ s.subOutstanding i := by
  rintro ⟨-, hsub⟩
  split at hsub
  · rename_i hw
    rw [hw, hsub] at h
    cases h
  · rename_i hw
    rw [hw, hsub] at h
    cases h
  · exact hsub

theorem TotalsInv.keepQuiet (h : TotalsInv s) (hwritten : s'.written = s.written)
    (hcounted : s'.counted = s.counted) (hstate : s'.shared.state = s.shared.state)
    (hreturned : s'.nofReturned = s.nofReturned) (hdiscarded : s'.discarded = s.discarded)
    (hquiet : QuietWriter s.writer) (hquiet' : QuietWriter s'.writer)
    (hhand : bytesInHand s'.writer ≤ bytesInHand s.writer) : TotalsInv s' := by
  refine h.keep hwritten hcounted hstate hreturned hdiscarded ?_ ?_ hhand
  · rw [hquiet.addOutstanding, hquiet'.addOutstanding]
  · exact fun i => iff_of_false (hquiet'.subOutstanding i) (hquiet.subOutstanding i)

theorem TotalsInv.nBytes (h : TotalsInv s) : s.shared.nBytes = s.countedBytes :=
  nBytes_eq h.state (by have := h.bytes; omega)

section Table
variable {q : RlcSduQueue} {slotOwner : Nat → Nat} {discarded : List Nat} {written : List RlcSdu}
variable {nofReleased i j p p' : Nat} {sdu sdu' : RlcSdu}

theorem Unreleased.lt (h : Unreleased written nofReleased i sdu p) : i < written.length := by
  obtain ⟨hlt, -⟩ := List.getElem?_eq_some_iff.mp h.written
  exact hlt

theorem Unreleased.mem (h : Unreleased written nofReleased i sdu p) : sdu ∈ written :=
  List.mem_of_getElem? h.written

variable (h : SlotTable q slotOwner discarded written nofReleased)
include h

theorem SlotTable.discarded_lt (hi : i ∈ discarded) : i < written.length := by
  obtain ⟨sdu, p, hget, -⟩ := h.discardable i hi
  obtain ⟨hlt, -⟩ := List.getElem?_eq_some_iff.mp hget
  exact hlt

theorem SlotTable.slot_ne
    (hi : Unreleased written nofReleased i sdu p) (hj : Unreleased written nofReleased j sdu' p')
    (hne : i ≠ j) : q.slot p ≠ q.slot p' := by
  intro hslot
  apply hne
  rw [← (h.held i sdu p hi).owner, hslot, (h.held j sdu' p' hj).owner]

theorem SlotTable.state_ne_free
    (hi : Unreleased written nofReleased i sdu p) : q.sduStates (q.slot p) ≠ stateFree := by
  have hp : validPdcpSn p := h.valid sdu hi.mem p hi.pdcpSn
  rw [(h.held i sdu p hi).state]
  unfold validPdcpSn stateDiscarded at hp
  unfold stateDiscarded stateFree
  split <;> omega

end Table

theorem QueueInv.moveWriter (h : QueueInv s) {w : QueueWriter}
    (hholds : ∀ idx, writerHolds s.shared idx s.writer → writerHolds s.shared idx w)
    (hwriter : WriterInv s.shared s.slotOwner s.discarded s.written w)
    (htotals : TotalsInv { s with writer := w }) : QueueInv { s with writer := w } := by
  refine ⟨{ h.history with },
    ⟨h.slots.table, ?_, hwriter⟩, htotals⟩
  intro idx htaken
  rcases h.slots.taken idx htaken with hheld | hw
  · exact .inl hheld
  · exact .inr (hholds idx hw)

variable {sdu : RlcSdu}

theorem QueueInv.startWrite (h : QueueInv s) (hidle : s.writer = .idle)
    (hvalid : ∀ p, sdu.pdcpSn = some p → validPdcpSn p) : QueueInv (s.startWrite sdu) := by
  unfold SduQueueThreads.startWrite
  split
  · rename_i hlimit
    have hroom : s.countedBytes + sdu.buf.length < 2 ^ 32 := by
      have hlt : s.shared.cfg.byteLimit.toNat < 2 ^ 32 := s.shared.cfg.byteLimit.toNat_lt
      rw [withinLimit, h.totals.nBytes, decide_eq_true_eq] at hlimit
      omega
    have hquiet : QuietWriter s.writer := by
      rw [hidle]
      trivial
    have htotals : ∀ w : QueueWriter, bytesInHand w = sdu.buf.length → QuietWriter w →
        TotalsInv { s with writer := w } := by
      intro w hhand hw
      have hquiet' : QuietWriter { s with writer := w }.writer := hw
      refine ⟨h.totals.nodup, fun i => ?_, h.totals.state, ?_, ?_⟩
      · rw [h.totals.mem i, hquiet'.addOutstanding, hquiet.addOutstanding]
        simp only [hquiet'.subOutstanding i, hquiet.subOutstanding i]
      · show s.countedBytes + bytesInHand w < 2 ^ 32
        omega
      · rw [hquiet'.addOutstanding]
        exact fun hfalse => by cases hfalse
    have hnone : ∀ (w : QueueWriter) (idx : Nat), writerHolds s.shared idx s.writer →
        writerHolds s.shared idx w := by
      intro w idx hholds
      rw [hidle] at hholds
      exact hholds.elim
    split
    · rename_i hsn
      refine h.moveWriter (hnone _) ?_ (htotals _ rfl trivial)
      intro p hp
      rw [hsn] at hp
      cases hp
    · exact h.moveWriter (hnone _) hvalid (htotals _ rfl trivial)
  · exact h

variable {p : Nat}

theorem QueueInv.loadSlot (h : QueueInv s) (hw : s.writer = .limitChecked sdu)
    (hp : sdu.pdcpSn = some p) :
    QueueInv (if s.shared.sduStates (s.shared.slot p) = stateFree then
      { s with writer := .slotChecked sdu p } else { s with writer := .idle }) := by
  have hvalid := h.slots.writer
  rw [hw] at hvalid
  have hnone : ∀ (w : QueueWriter) (idx : Nat), writerHolds s.shared idx s.writer →
      writerHolds s.shared idx w := by
    intro w idx hholds
    rw [hw] at hholds
    exact hholds.elim
  split
  · rename_i hfree
    refine h.moveWriter (hnone _) ⟨hp, hvalid p hp, hfree⟩ ?_
    refine h.totals.keepQuiet rfl rfl rfl rfl rfl (by rw [hw]; trivial) trivial ?_
    rw [hw]
    exact Nat.le_refl _
  · refine h.moveWriter (hnone _) trivial ?_
    exact h.totals.keepQuiet rfl rfl rfl rfl rfl (by rw [hw]; trivial) trivial (Nat.zero_le _)

theorem QueueInv.storeSize (h : QueueInv s) (hw : s.writer = .slotChecked sdu p) :
    QueueInv { s with
      shared := s.shared.storeSize p sdu.buf.length
      writer := .sizeStored sdu p } := by
  have hknown := h.slots.writer
  rw [hw] at hknown
  obtain ⟨hp, hvalid, hfree⟩ := hknown
  refine ⟨{ h.history with },
    ⟨⟨h.slots.table.valid, h.slots.table.discardable, ?_⟩, ?_, ?_⟩, ?_⟩
  · intro i sdu' p' hi
    obtain ⟨hstate, howner, hsize⟩ := h.slots.table.held i sdu' p' hi
    have hne : s.shared.slot p' ≠ s.shared.slot p := fun hslot =>
      h.slots.table.state_ne_free hi (hslot ▸ hfree)
    exact ⟨hstate, howner, (Function.update_of_ne hne _ _).trans hsize⟩
  · exact fun idx htaken => .inl ((h.slots.taken idx htaken).resolve_right (by rw [hw]; exact id))
  · exact ⟨hp, hvalid, hfree, Function.update_self _ _ _⟩
  · refine h.totals.keepQuiet rfl rfl rfl rfl rfl (by rw [hw]; trivial) trivial ?_
    rw [hw]
    exact Nat.le_refl _

theorem QueueInv.storeSlot (h : QueueInv s) (hw : s.writer = .sizeStored sdu p) :
    QueueInv { s with
      shared := s.shared.storeState p p
      writer := .slotStored sdu
      slotOwner := Function.update s.slotOwner (s.shared.slot p) s.written.length } := by
  have hknown := h.slots.writer
  rw [hw] at hknown
  obtain ⟨hp, hvalid, hfree, hsize⟩ := hknown
  refine ⟨{ h.history with },
    ⟨⟨h.slots.table.valid, h.slots.table.discardable, ?_⟩, ?_, ?_⟩, ?_⟩
  · intro i sdu' p' hi
    obtain ⟨hstate, howner, hsize'⟩ := h.slots.table.held i sdu' p' hi
    have hne : s.shared.slot p' ≠ s.shared.slot p := fun hslot =>
      h.slots.table.state_ne_free hi (hslot ▸ hfree)
    exact ⟨(Function.update_of_ne hne _ _).trans hstate,
      (Function.update_of_ne hne _ _).trans howner, hsize'⟩
  · intro idx htaken
    by_cases hidx : idx = s.shared.slot p
    · exact .inr ⟨p, hp, hidx.symm⟩
    · rcases h.slots.taken idx (by rwa [← Function.update_of_ne hidx p s.shared.sduStates]) with
        hheld | hholds
      · exact .inl hheld
      · rw [hw] at hholds
        exact hholds.elim
  · intro p' hp'
    rw [hp] at hp'
    cases hp'
    exact ⟨hvalid, Function.update_self _ _ _, Function.update_self _ _ _, hsize⟩
  · refine h.totals.keepQuiet rfl rfl rfl rfl rfl (by rw [hw]; trivial) trivial ?_
    rw [hw]
    exact Nat.le_refl _

theorem getElem?_append_of_some {l : List RlcSdu} {i : Nat} {x : RlcSdu} (h : l[i]? = some x)
    (y : RlcSdu) : (l ++ [y])[i]? = some x := by
  obtain ⟨hlt, -⟩ := List.getElem?_eq_some_iff.mp h
  rw [List.getElem?_append_left hlt]
  exact h

theorem ReaderInv.append (h : ReaderInv s s.reader) (sdu : RlcSdu)
    (hs' : s'.written = s.written ++ [sdu] ∧ s'.nofPopped = s.nofPopped ∧
      s'.nofReleased = s.nofReleased ∧ s'.nofReturned = s.nofReturned ∧
      s'.discarded = s.discarded) : ReaderInv s' s.reader := by
  obtain ⟨hwritten, hpopped, hreleased, hreturned, hdiscarded⟩ := hs'
  cases hr : s.reader with
  | idle =>
    rw [hr] at h
    simp only [ReaderInv, hpopped, hreleased, hreturned]
    exact h
  | popped sdu' =>
    rw [hr] at h
    simp only [ReaderInv, hpopped, hreleased, hreturned, hwritten]
    exact ⟨h.1, h.2.1, getElem?_append_of_some h.2.2 sdu⟩
  | sizeLoaded sdu' p n =>
    rw [hr] at h
    simp only [ReaderInv, hpopped, hreleased, hreturned, hwritten]
    exact ⟨h.1, h.2.1, getElem?_append_of_some h.2.2.1 sdu, h.2.2.2⟩
  | released sdu' n valid =>
    rw [hr] at h
    simp only [ReaderInv, hpopped, hreleased, hreturned, hwritten, hdiscarded]
    exact ⟨h.1, h.2.1, getElem?_append_of_some h.2.2.1 sdu, h.2.2.2⟩

theorem HistoryInv.bounds (h : HistoryInv s) : s.nofReturned ≤ s.nofReleased ∧
    s.nofReleased ≤ s.nofPopped ∧ s.nofPopped ≤ s.written.length ∧
    s.nofPopped ≤ s.nofReturned + 1 := by
  have hreader := h.reader
  have hle := h.popped_le
  cases hr : s.reader with
  | idle =>
    rw [hr] at hreader
    obtain ⟨h1, h2⟩ := hreader
    omega
  | popped sdu =>
    rw [hr] at hreader
    obtain ⟨h1, h2, -⟩ := hreader
    omega
  | sizeLoaded sdu p n =>
    rw [hr] at hreader
    obtain ⟨h1, h2, -⟩ := hreader
    omega
  | released sdu n valid =>
    rw [hr] at hreader
    obtain ⟨h1, h2, -⟩ := hreader
    omega

theorem QueueInv.pushFull (h : QueueInv s) (hw : s.writer = .slotStored sdu) :
    QueueInv (match sdu.pdcpSn with
      | none => { s with writer := .idle }
      | some p => { s with writer := .pushFailed p }) := by
  have hknown := h.slots.writer
  rw [hw] at hknown
  have htotals : ∀ w : QueueWriter, QuietWriter w → bytesInHand w = 0 →
      TotalsInv { s with writer := w } := by
    intro w hquiet hzero
    refine h.totals.keepQuiet rfl rfl rfl rfl rfl (by rw [hw]; trivial) hquiet ?_
    show bytesInHand w ≤ _
    omega
  split
  · rename_i hnone
    refine h.moveWriter ?_ trivial (htotals _ trivial rfl)
    intro idx hholds
    rw [hw] at hholds
    obtain ⟨p, hp, -⟩ := hholds
    rw [hnone] at hp
    cases hp
  · rename_i p hp
    refine h.moveWriter ?_ (hknown p hp).2.2.1 (htotals _ trivial rfl)
    intro idx hholds
    rw [hw] at hholds
    obtain ⟨p', hp', hslot⟩ := hholds
    rw [hp] at hp'
    cases hp'
    exact hslot

theorem HistoryInv.push (h : HistoryInv s) (sdu : RlcSdu) (w : QueueWriter)
    (hroom : s.shared.isFull = false) :
    HistoryInv { s with
      shared := s.shared.push sdu, writer := w, written := s.written ++ [sdu] } := by
  obtain ⟨hb1, hb2, hb3, hb4⟩ := h.bounds
  refine ⟨?_, ?_, ?_, h.reader.append sdu ⟨rfl, rfl, rfl, rfl, rfl⟩, ?_⟩
  · show s.shared.queue ++ [sdu] = (s.written ++ [sdu]).drop s.nofPopped
    rw [List.drop_append_of_le_length hb3, h.ring]
  · show s.nofPopped ≤ (s.written ++ [sdu]).length
    rw [List.length_append]
    omega
  · show (s.shared.queue ++ [sdu]).length ≤ s.shared.cfg.capacity.toNat
    rw [isFull, decide_eq_false_iff_not] at hroom
    rw [List.length_append, List.length_singleton]
    omega
  · show s.delivered = _
    rw [h.delivered]
    show _ = (((s.written ++ [sdu]).zipIdx.take s.nofReturned).filter fun e => e.2 ∉ s.discarded)
    rw [List.zipIdx_append, List.take_append_of_le_length]
    rw [List.length_zipIdx]
    omega

theorem SlotInv.push (h : SlotInv s) (hw : s.writer = .slotStored sdu)
    (hreleased : s.nofReleased ≤ s.written.length) :
    SlotInv { s with
      shared := s.shared.push sdu, writer := .pushed sdu, written := s.written ++ [sdu] } := by
  have hknown := h.writer
  rw [hw] at hknown
  have hlast : (s.written ++ [sdu])[s.written.length]? = some sdu := by simp
  refine ⟨⟨?_, ?_, ?_⟩, ?_, ⟨s.written, rfl⟩⟩
  · intro sdu' hmem p hp
    rcases List.mem_append.mp hmem with hold | hnew
    · exact h.table.valid sdu' hold p hp
    · rw [List.mem_singleton.mp hnew] at hp
      exact (hknown p hp).1
  · intro i hi
    obtain ⟨sdu', p, hget, hp⟩ := h.table.discardable i hi
    exact ⟨sdu', p, getElem?_append_of_some hget sdu, hp⟩
  · intro i sdu' p hi
    have hlt := hi.lt
    rw [List.length_append, List.length_singleton] at hlt
    rcases Nat.lt_succ_iff_lt_or_eq.mp hlt with hold | rfl
    · have hget := hi.written
      rw [List.getElem?_append_left hold] at hget
      obtain ⟨hstate, howner, hsize⟩ := h.table.held i sdu' p ⟨hi.released_le, hget, hi.pdcpSn⟩
      exact ⟨hstate, howner, hsize⟩
    · obtain rfl : sdu = sdu' := Option.some.inj (hlast.symm.trans hi.written)
      obtain ⟨-, hstate, howner, hsize⟩ := hknown p hi.pdcpSn
      refine ⟨?_, howner, hsize⟩
      rw [if_neg]
      · exact hstate
      · intro hmem
        exact absurd (h.table.discarded_lt hmem) (Nat.lt_irrefl _)
  · intro idx htaken
    rcases h.taken idx htaken with ⟨i, sdu', p, hi, hslot⟩ | hholds
    · exact .inl ⟨i, sdu', p,
        ⟨hi.released_le, getElem?_append_of_some hi.written sdu, hi.pdcpSn⟩, hslot⟩
    · rw [hw] at hholds
      obtain ⟨p, hp, hslot⟩ := hholds
      exact .inl ⟨_, sdu, p, ⟨hreleased, hlast, hp⟩, hslot⟩

/-- Sizes of the SDUs that are counted do not change when more are written. -/
theorem countedBytes_append (hlt : ∀ i ∈ s.counted, i < s.written.length) (sdu : RlcSdu)
    (hs' : s'.written = s.written ++ [sdu] ∧ s'.counted = s.counted) :
    s'.countedBytes = s.countedBytes := by
  rw [countedBytes, countedBytes, hs'.2]
  congr 1
  apply List.map_congr_left
  intro i hi
  rw [sizeAt, sizeAt, hs'.1, List.getD_eq_getElem?_getD, List.getElem?_append_left (hlt i hi),
    ← List.getD_eq_getElem?_getD]

theorem TotalsInv.push (h : TotalsInv s) (hw : s.writer = .slotStored sdu)
    (hreturned : s.nofReturned ≤ s.written.length)
    (hdiscarded : ∀ i ∈ s.discarded, i < s.written.length) :
    TotalsInv { s with
      shared := s.shared.push sdu, writer := .pushed sdu, written := s.written ++ [sdu] } := by
  have hquiet : QuietWriter s.writer := by
    rw [hw]
    trivial
  have hlt : ∀ i ∈ s.counted, i < s.written.length := fun i hi => ((h.mem i).mp hi).1
  have hbytes : countedBytes { s with
      shared := s.shared.push sdu, writer := .pushed sdu, written := s.written ++ [sdu] } =
      s.countedBytes := countedBytes_append hlt sdu ⟨rfl, rfl⟩
  have hlen : (s.written ++ [sdu]).length = s.written.length + 1 := by simp
  refine ⟨h.nodup, fun i => ?_, ?_, ?_, fun _ => ⟨?_, ?_⟩⟩
  · rw [h.mem i, hquiet.addOutstanding]
    simp only [hquiet.subOutstanding i, hlen]
    constructor
    · rintro ⟨h1, -, h2⟩
      refine ⟨by omega, by omega, ?_⟩
      rcases h2 with h2 | h2
      · exact .inl h2
      · exact h2.elim
    · rintro ⟨h1, h2, h3⟩
      refine ⟨?_, by simp, ?_⟩
      · have : ¬ i + 1 = s.written.length + 1 := fun heq => h2 ⟨rfl, heq⟩
        omega
      · rcases h3 with h3 | h3
        · exact .inl h3
        · exact h3.2.elim
  · rw [hbytes]
    exact h.state
  · rw [hbytes]
    have := h.bytes
    rw [hw] at this
    exact this
  · show s.nofReturned < (s.written ++ [sdu]).length
    omega
  · intro hmem
    have hmem' : (s.written ++ [sdu]).length - 1 ∈ s.discarded := hmem
    have := hdiscarded _ hmem'
    omega

theorem QueueInv.pushSdu (h : QueueInv s) (hw : s.writer = .slotStored sdu) :
    QueueInv (s.pushSdu sdu) := by
  obtain ⟨hb1, hb2, hb3, hb4⟩ := h.history.bounds
  unfold SduQueueThreads.pushSdu
  split
  · exact h.pushFull hw
  · rename_i hfull
    rw [Bool.not_eq_true] at hfull
    exact ⟨h.history.push sdu _ hfull, h.slots.push hw (by omega),
      h.totals.push hw (by omega) fun i hi => h.slots.table.discarded_lt hi⟩

theorem QueueInv.releaseWriterSlot (h : QueueInv s) (hw : s.writer = .pushFailed p) :
    QueueInv { s with shared := s.shared.storeState p stateFree, writer := .idle } := by
  have hknown := h.slots.writer
  rw [hw] at hknown
  refine ⟨{ h.history with },
    ⟨⟨h.slots.table.valid, h.slots.table.discardable, ?_⟩, ?_, trivial⟩, ?_⟩
  · intro i sdu' p' hi
    obtain ⟨hstate, howner, hsize⟩ := h.slots.table.held i sdu' p' hi
    have hne : s.shared.slot p' ≠ s.shared.slot p := by
      intro hslot
      rw [hslot, hknown] at howner
      have hlt : i < s.written.length := hi.lt
      omega
    exact ⟨(Function.update_of_ne hne _ _).trans hstate, howner, hsize⟩
  · intro idx htaken
    have hidx : idx ≠ s.shared.slot p := by
      rintro rfl
      exact htaken (Function.update_self _ _ _)
    rcases h.slots.taken idx (by rwa [← Function.update_of_ne hidx stateFree s.shared.sduStates])
      with hheld | hholds
    · exact .inl hheld
    · rw [hw] at hholds
      exact absurd hholds.symm hidx
  · exact h.totals.keepQuiet rfl rfl rfl rfl rfl (by rw [hw]; trivial) trivial (Nat.zero_le _)

variable {n : Nat}

theorem state_stateAdd {k b : Nat} (hstate : q.state = (k * 2 ^ 32 + b) % 2 ^ 64)
    (hn : n < 2 ^ 32) : (q.stateAdd n).state = ((k + 1) * 2 ^ 32 + (n + b)) % 2 ^ 64 := by
  have hsum : k * 2 ^ 32 + b + (2 ^ 32 + n) = (k + 1) * 2 ^ 32 + (n + b) := by omega
  rw [stateAdd, hstate, stateChange_eq hn, Nat.mod_add_mod, hsum]

theorem state_stateSub {k b : Nat}
    (hstate : q.state = ((k + 1) * 2 ^ 32 + (n + b)) % 2 ^ 64) (hn : n < 2 ^ 32) :
    (q.stateSub n).state = (k * 2 ^ 32 + b) % 2 ^ 64 := by
  have hsum : (k + 1) * 2 ^ 32 + (n + b) + (2 ^ 64 - (2 ^ 32 + n)) =
      k * 2 ^ 32 + b + 2 ^ 64 := by omega
  rw [stateSub, hstate, stateChange_eq hn, Nat.mod_add_mod, hsum, Nat.add_mod_right]

theorem QueueInv.addTotals (h : QueueInv s) (hw : s.writer = .pushed sdu) :
    QueueInv { s with
      shared := s.shared.stateAdd sdu.buf.length
      writer := .idle
      counted := (s.written.length - 1) :: s.counted } := by
  have hknown := h.slots.writer
  rw [hw] at hknown
  obtain ⟨init, hinit⟩ := hknown
  have hlen : s.written.length = init.length + 1 := by rw [hinit]; simp
  have hadd : s.addOutstanding = true := by rw [addOutstanding, hw]
  have hsub : ∀ i, ¬ s.subOutstanding i := by
    intro i hi
    rw [subOutstanding, hw] at hi
    exact hi.2
  have hsize : s.sizeAt (s.written.length - 1) = sdu.buf.length := by
    rw [sizeAt, hlen, hinit]
    simp
  have hroom := h.totals.bytes
  rw [hw] at hroom
  have hroom' : s.countedBytes + sdu.buf.length < 2 ^ 32 := hroom
  obtain ⟨hreturned, hnot⟩ := h.totals.pending hadd
  refine ⟨{ h.history with },
    ⟨⟨h.slots.table.valid, h.slots.table.discardable, ?_⟩, ?_, trivial⟩, ⟨?_, fun i => ?_, ?_, ?_, ?_⟩⟩
  · exact fun i sdu' p hi => { h.slots.table.held i sdu' p hi with }
  · exact fun idx htaken => .inl ((h.slots.taken idx htaken).resolve_right (by rw [hw]; exact id))
  · refine List.nodup_cons.mpr ⟨?_, h.totals.nodup⟩
    intro hmem
    exact ((h.totals.mem _).mp hmem).2.1 ⟨hadd, by omega⟩
  · show i ∈ (s.written.length - 1) :: s.counted ↔ i < s.written.length ∧
      ¬ (false = true ∧ _) ∧ ((s.nofReturned ≤ i ∧ i ∉ s.discarded) ∨ (_ ∧ False))
    rw [List.mem_cons, h.totals.mem i, hadd]
    simp only [hsub i]
    constructor
    · rintro (rfl | ⟨h1, -, h2⟩)
      · exact ⟨by omega, by simp, .inl ⟨by omega, hnot⟩⟩
      · refine ⟨h1, by simp, ?_⟩
        rcases h2 with h2 | h2
        · exact .inl h2
        · exact h2.elim
    · rintro ⟨h1, -, h2⟩
      rcases h2 with h2 | h2
      · by_cases hi : i = s.written.length - 1
        · exact .inl hi
        · exact .inr ⟨h1, by omega, .inl h2⟩
      · exact h2.2.elim
  · refine (state_stateAdd h.totals.state (by omega)).trans ?_
    rw [← hsize]
    rfl
  · show (((s.written.length - 1) :: s.counted).map s.sizeAt).sum + 0 < 2 ^ 32
    rw [List.map_cons, List.sum_cons, hsize]
    show sdu.buf.length + s.countedBytes + 0 < 2 ^ 32
    omega
  · exact fun hfalse => by cases hfalse

/-- A successful compare-exchange hits an SDU with this PDCP SN that is not released and not yet
discarded. -/
theorem SlotInv.discardTarget (h : SlotInv s) (hidle : s.writer = .idle) (hp : validPdcpSn p)
    (hstate : s.shared.sduStates (s.shared.slot p) = p) :
    ∃ sdu, Unreleased s.written s.nofReleased (s.slotOwner (s.shared.slot p)) sdu p ∧
      s.slotOwner (s.shared.slot p) ∉ s.discarded := by
  unfold validPdcpSn at hp
  have hne : s.shared.sduStates (s.shared.slot p) ≠ stateFree := by
    unfold stateDiscarded at hp
    unfold stateFree
    omega
  rcases h.taken _ hne with ⟨i, sdu, p', hi, hslot⟩ | hholds
  · obtain ⟨hheld, howner, -⟩ := h.table.held i sdu p' hi
    rw [hslot] at hheld howner
    rw [hstate] at hheld
    by_cases hmem : i ∈ s.discarded
    · rw [if_pos hmem] at hheld
      omega
    · rw [if_neg hmem] at hheld
      rw [howner, hheld]
      exact ⟨sdu, hi, hmem⟩
  · rw [hidle] at hholds
    exact hholds.elim

theorem HistoryInv.discard (h : HistoryInv s) {i : Nat} (hi : s.nofReleased ≤ i)
    (hs' : s'.shared.queue = s.shared.queue ∧ s'.shared.cfg = s.shared.cfg ∧
      s'.written = s.written ∧ s'.nofPopped = s.nofPopped ∧ s'.nofReleased = s.nofReleased ∧
      s'.nofReturned = s.nofReturned ∧ s'.reader = s.reader ∧ s'.delivered = s.delivered)
    (hdiscarded : s'.discarded = i :: s.discarded) : HistoryInv s' := by
  obtain ⟨hb1, hb2, hb3, hb4⟩ := h.bounds
  obtain ⟨hqueue, hcfg, hwritten, hpopped, hreleased, hreturned, hreader, hdelivered⟩ := hs'
  refine ⟨?_, ?_, ?_, ?_, ?_⟩
  · rw [hqueue, hwritten, hpopped]
    exact h.ring
  · rw [hpopped, hwritten]
    exact h.popped_le
  · rw [hqueue, hcfg]
    exact h.ring_le
  · rw [hreader]
    have hold := h.reader
    cases hr : s.reader with
    | idle =>
      rw [hr] at hold
      simp only [ReaderInv, hpopped, hreleased, hreturned]
      exact hold
    | popped sdu =>
      rw [hr] at hold
      simp only [ReaderInv, hpopped, hreleased, hreturned, hwritten]
      exact hold
    | sizeLoaded sdu p n =>
      rw [hr] at hold
      simp only [ReaderInv, hpopped, hreleased, hreturned, hwritten]
      exact hold
    | released sdu n valid =>
      rw [hr] at hold
      obtain ⟨h1, h2, h3, h4, h5, h6⟩ := hold
      simp only [ReaderInv, hpopped, hreleased, hreturned, hwritten, hdiscarded]
      refine ⟨h1, h2, h3, h4, h5, ?_⟩
      rw [List.mem_cons, not_or]
      exact ⟨by omega, h6⟩
  · rw [hdelivered, h.delivered, hwritten, hreturned, hdiscarded]
    apply List.filter_congr
    intro e he
    -- what was returned has a smaller number than what is not yet released
    have hlt : e.2 < s.nofReturned := by
      obtain ⟨k, hk, rfl⟩ := List.mem_iff_getElem.mp he
      rw [List.length_take] at hk
      rw [List.getElem_take, List.getElem_zipIdx]
      omega
    have hne : e.2 ≠ i := by omega
    simp [hne]

theorem QueueInv.discard (h : QueueInv s) (hidle : s.writer = .idle) (hp : validPdcpSn p)
    (hstate : s.shared.sduStates (s.shared.slot p) = p) :
    QueueInv { s with
      shared := s.shared.storeState p stateDiscarded
      writer := .exchanged p true
      discarded := s.slotOwner (s.shared.slot p) :: s.discarded } := by
  obtain ⟨sdu, hi, hnot⟩ := h.slots.discardTarget hidle hp hstate
  obtain ⟨hb1, hb2, hb3, hb4⟩ := h.history.bounds
  obtain ⟨-, howner, hsize⟩ := h.slots.table.held _ sdu p hi
  have hquiet : QuietWriter s.writer := by
    rw [hidle]
    trivial
  have hle := hi.released_le
  have hlt := hi.lt
  generalize s.slotOwner (s.shared.slot p) = i at *
  refine ⟨h.history.discard hle ⟨rfl, rfl, rfl, rfl, rfl, rfl, rfl, rfl⟩ rfl,
    ⟨⟨h.slots.table.valid, ?_, ?_⟩, ?_, fun _ => ⟨i, s.discarded, sdu, rfl, hi.written, hsize⟩⟩,
    ⟨h.totals.nodup, fun j => ?_, h.totals.state, ?_, fun hfalse => by cases hfalse⟩⟩
  · intro j hj
    rcases List.mem_cons.mp hj with rfl | hj
    · exact ⟨sdu, p, hi.written, hi.pdcpSn⟩
    · exact h.slots.table.discardable j hj
  · intro j sdu' p' hj
    obtain ⟨hstate', howner', hsize'⟩ := h.slots.table.held j sdu' p' hj
    by_cases hji : j = i
    · subst hji
      obtain rfl : sdu = sdu' := Option.some.inj (hi.written.symm.trans hj.written)
      obtain rfl : p = p' := Option.some.inj (hi.pdcpSn.symm.trans hj.pdcpSn)
      refine ⟨?_, howner', hsize'⟩
      rw [if_pos List.mem_cons_self]
      exact Function.update_self _ _ _
    · refine ⟨?_, howner', hsize'⟩
      have hne : s.shared.slot p' ≠ s.shared.slot p := h.slots.table.slot_ne hj hi hji
      refine (Function.update_of_ne hne _ _).trans ?_
      rw [hstate']
      simp [hji]
  · intro idx htaken
    by_cases hidx : idx = s.shared.slot p
    · exact .inl ⟨i, sdu, p, hi, hidx.symm⟩
    · rcases h.slots.taken idx
        (by rwa [← Function.update_of_ne hidx stateDiscarded s.shared.sduStates]) with hheld | hholds
      · exact .inl hheld
      · rw [hidle] at hholds
        exact hholds.elim
  · show j ∈ s.counted ↔ j < s.written.length ∧ ¬ (false = true ∧ _) ∧
      ((s.nofReturned ≤ j ∧ j ∉ i :: s.discarded) ∨ (some i = some j ∧ true = true))
    rw [h.totals.mem j, hquiet.addOutstanding]
    simp only [hquiet.subOutstanding j, List.mem_cons, not_or, Option.some.injEq, and_true,
      or_false]
    by_cases hji : j = i
    · subst hji
      constructor
      · exact fun hj => ⟨hj.1, by simp, .inr rfl⟩
      · exact fun hj => ⟨hj.1, by simp, by omega, hnot⟩
    · constructor
      · exact fun hj => ⟨hj.1, by simp, .inl ⟨hj.2.2.1, hji, hj.2.2.2⟩⟩
      · rintro ⟨h1, -, h2 | h2⟩
        · exact ⟨h1, by simp, h2.1, h2.2.2⟩
        · exact absurd h2.symm hji
  · have := h.totals.bytes
    show s.countedBytes + 0 < 2 ^ 32
    omega

theorem QueueInv.tryDiscard (h : QueueInv s) (hidle : s.writer = .idle) (hp : validPdcpSn p) :
    QueueInv (s.exchangeDiscarded p) := by
  unfold SduQueueThreads.exchangeDiscarded
  split
  · exact h.discard hidle hp ‹_›
  · refine h.moveWriter ?_ (fun hfalse => by cases hfalse) ?_
    · intro idx hholds
      rw [hidle] at hholds
      exact hholds.elim
    · exact h.totals.keepQuiet rfl rfl rfl rfl rfl (by rw [hidle]; trivial) rfl (Nat.zero_le _)

theorem QueueInv.loadDiscardSize (h : QueueInv s) {success : Bool}
    (hw : s.writer = .exchanged p success) :
    QueueInv { s with
      writer := .discardSizeLoaded (s.shared.sduSizes (s.shared.slot p)) success } := by
  have hknown := h.slots.writer
  rw [hw] at hknown
  refine h.moveWriter ?_ ?_ ?_
  · intro idx hholds
    rw [hw] at hholds
    exact hholds.elim
  · intro hsuccess
    obtain ⟨i, rest, sdu, hd, hget, hsize⟩ := hknown hsuccess
    exact ⟨i, rest, sdu, hd, hget, hsize⟩
  · refine h.totals.keep rfl rfl rfl rfl rfl ?_ ?_ (Nat.zero_le _)
    · simp [addOutstanding, hw]
    · simp [subOutstanding, hw]

theorem TotalsInv.subtract (h : TotalsInv s) {i : Nat} (hi : i ∈ s.counted) (hn : s.sizeAt i = n)
    (hstate : s'.shared.state = (s.shared.stateSub n).state) (hwritten : s'.written = s.written)
    (hcounted : s'.counted = s.counted.erase i)
    (hmem : ∀ j, (j < s.written.length ∧ ¬ (s'.addOutstanding = true ∧ j + 1 = s.written.length) ∧
      ((s'.nofReturned ≤ j ∧ j ∉ s'.discarded) ∨ s'.subOutstanding j)) ↔ j ≠ i ∧ j ∈ s.counted)
    (hhand : bytesInHand s'.writer ≤ bytesInHand s.writer)
    (hpending : s'.addOutstanding = true →
      s'.nofReturned < s.written.length ∧ s.written.length - 1 ∉ s'.discarded) : TotalsInv s' := by
  have hsizes : s'.sizeAt = s.sizeAt := by
    funext j
    rw [sizeAt, sizeAt, hwritten]
  have hsum : n + s'.countedBytes = s.countedBytes := by
    rw [countedBytes, countedBytes, hcounted, hsizes, ← hn]
    exact List.sum_map_erase s.sizeAt hi
  have hlen : s.counted.length = s'.counted.length + 1 := by
    rw [hcounted, List.length_erase_of_mem hi]
    have := List.length_pos_of_mem hi
    omega
  have hbytes := h.bytes
  refine ⟨?_, fun j => ?_, ?_, by omega, ?_⟩
  · rw [hcounted]
    exact h.nodup.erase i
  · rw [hcounted, h.nodup.mem_erase_iff, hwritten]
    exact (hmem j).symm
  · rw [hstate]
    apply state_stateSub
    · rw [h.state, hlen, hsum]
    · omega
  · rw [hwritten]
    exact hpending

theorem QueueInv.subDiscarded (h : QueueInv s) (hw : s.writer = .discardSizeLoaded n true) :
    QueueInv (s.subDiscarded n) := by
  have hknown := h.slots.writer
  rw [hw] at hknown
  obtain ⟨i, rest, sdu, hd, hget, hsize⟩ := hknown rfl
  obtain ⟨hlt, -⟩ := List.getElem?_eq_some_iff.mp hget
  have hadd : s.addOutstanding = false := by rw [addOutstanding, hw]
  have hsub : ∀ j, s.subOutstanding j ↔ i = j := by
    intro j
    rw [subOutstanding, hw, hd]
    simp
  have hmem : i ∈ s.counted := by
    rw [h.totals.mem, hadd]
    exact ⟨hlt, by simp, .inr ((hsub i).mpr rfl)⟩
  have hsizeAt : s.sizeAt i = n := by
    rw [sizeAt, List.getD_eq_getElem?_getD, hget]
    exact hsize.symm
  refine ⟨{ h.history with },
    ⟨⟨h.slots.table.valid, h.slots.table.discardable, ?_⟩, ?_, trivial⟩,
    h.totals.subtract hmem hsizeAt rfl rfl ?_ (fun j => ?_) (Nat.zero_le _)
      fun hfalse => by cases hfalse⟩
  · exact fun j sdu' p hj => { h.slots.table.held j sdu' p hj with }
  · exact fun idx htaken => .inl ((h.slots.taken idx htaken).resolve_right (by rw [hw]; exact id))
  · show s.counted.erase (s.discarded.headD 0) = _
    rw [hd]
    rfl
  · show (j < s.written.length ∧ ¬ (false = true ∧ _) ∧
      ((s.nofReturned ≤ j ∧ j ∉ s.discarded) ∨ (_ ∧ False))) ↔ _
    rw [h.totals.mem j, hadd, hsub, hd]
    simp only [Bool.false_eq_true, false_and, not_false_eq_true, true_and, and_false, or_false,
      List.mem_cons, not_or]
    constructor
    · exact fun hj => ⟨hj.2.2.1, hj.1, .inl hj.2⟩
    · rintro ⟨hne, hj, hin | hin⟩
      · exact ⟨hj, hin⟩
      · exact absurd hin.symm hne

theorem QueueInv.finishDiscard (h : QueueInv s) {success : Bool}
    (hw : s.writer = .discardSizeLoaded n success) :
    QueueInv (if success then s.subDiscarded n else { s with writer := .idle }) := by
  split
  · rename_i hsuccess
    rw [hsuccess] at hw
    exact h.subDiscarded hw
  · rename_i hsuccess
    rw [Bool.not_eq_true] at hsuccess
    refine h.moveWriter ?_ trivial ?_
    · intro idx hholds
      rw [hw] at hholds
      exact hholds.elim
    · exact h.totals.keepQuiet rfl rfl rfl rfl rfl (by rw [hw]; exact hsuccess) trivial
        (Nat.zero_le _)

theorem QueueInv.popSdu (h : QueueInv s) (hr : s.reader = .idle) : QueueInv s.popSdu := by
  have hreader := h.history.reader
  rw [hr] at hreader
  unfold SduQueueThreads.popSdu
  split
  · exact h
  · rename_i sdu rest hqueue
    have hring := h.history.ring
    rw [hqueue] at hring
    have hget : s.written[s.nofPopped]? = some sdu := by
      rw [← List.head?_drop, ← hring]
      rfl
    obtain ⟨hlt, -⟩ := List.getElem?_eq_some_iff.mp hget
    have hrest : rest = s.written.drop (s.nofPopped + 1) := by
      rw [← List.tail_drop, ← hring]
      rfl
    obtain ⟨h1, h2⟩ := hreader
    have hle : rest.length ≤ s.shared.cfg.capacity.toNat := by
      have := h.history.ring_le
      rw [hqueue, List.length_cons] at this
      omega
    refine ⟨⟨hrest, hlt, hle, ⟨?_, h2, ?_⟩, h.history.delivered⟩,
      ⟨⟨h.slots.table.valid, h.slots.table.discardable, ?_⟩, ?_, ?_⟩,
      h.totals.keep rfl rfl rfl rfl rfl rfl (fun _ => Iff.rfl) (Nat.le_refl _)⟩
    · show s.nofPopped + 1 = s.nofReleased + 1
      omega
    · show s.written[s.nofReturned]? = some sdu
      rw [← h2, ← h1]
      exact hget
    · exact fun j sdu' p hj =>
        ⟨(h.slots.table.held j sdu' p hj).state, (h.slots.table.held j sdu' p hj).owner,
          (h.slots.table.held j sdu' p hj).size⟩
    · exact h.slots.taken
    · exact h.slots.writer

theorem QueueInv.loadSize (h : QueueInv s) (hr : s.reader = .popped sdu) (hp : sdu.pdcpSn = some p) :
    QueueInv { s with
      reader := .sizeLoaded sdu p (s.shared.sduSizes (s.shared.slot p)) } := by
  have hreader := h.history.reader
  rw [hr] at hreader
  obtain ⟨h1, h2, hget⟩ := hreader
  have hsize := (h.slots.table.held _ sdu p ⟨by omega, hget, hp⟩).size
  exact ⟨⟨h.history.ring, h.history.popped_le, h.history.ring_le, ⟨h1, h2, hget, hp, hsize⟩, h.history.delivered⟩,
    ⟨h.slots.table, h.slots.taken, h.slots.writer⟩,
    h.totals.keep rfl rfl rfl rfl rfl rfl (fun _ => Iff.rfl) (Nat.le_refl _)⟩

theorem SlotInv.release (h : SlotInv s)
    (hi : Unreleased s.written s.nofReleased s.nofReleased sdu p)
    (hs' : s'.shared = s.shared.storeState p stateFree ∧ s'.slotOwner = s.slotOwner ∧
      s'.discarded = s.discarded ∧ s'.written = s.written ∧ s'.writer = s.writer ∧
      s'.nofReleased = s.nofReleased + 1) : SlotInv s' := by
  obtain ⟨hshared, howner', hdiscarded, hwritten, hwriter, hreleased⟩ := hs'
  obtain ⟨hstate, howner, hsize⟩ := h.table.held _ sdu p hi
  have hfree : ∀ idx, idx ≠ s.shared.slot p →
      (s.shared.storeState p stateFree).sduStates idx = s.shared.sduStates idx :=
    fun idx hidx => Function.update_of_ne hidx _ _
  have hself : (s.shared.storeState p stateFree).sduStates (s.shared.slot p) = stateFree :=
    Function.update_self _ _ _
  have hlt := hi.lt
  refine ⟨⟨?_, ?_, ?_⟩, ?_, ?_⟩
  · rw [hwritten]
    exact h.table.valid
  · rw [hdiscarded, hwritten]
    exact h.table.discardable
  · intro j sdu' p' hj
    rw [hwritten, hreleased] at hj
    have hle := hj.released_le
    have hj' : Unreleased s.written s.nofReleased j sdu' p' := ⟨by omega, hj.written, hj.pdcpSn⟩
    obtain ⟨hstate', howner'', hsize'⟩ := h.table.held j sdu' p' hj'
    have hne : s.shared.slot p' ≠ s.shared.slot p := h.table.slot_ne hj' hi (by omega)
    rw [hshared, howner', hdiscarded]
    exact ⟨(hfree _ hne).trans hstate', howner'', hsize'⟩
  · intro idx htaken
    rw [hshared] at htaken ⊢
    rw [hwritten, hreleased, hwriter]
    have hidx : idx ≠ s.shared.slot p := by
      rintro rfl
      exact htaken hself
    rw [hfree idx hidx] at htaken
    rcases h.taken idx htaken with ⟨j, sdu', p', hj, hslot⟩ | hholds
    · refine .inl ⟨j, sdu', p', ⟨?_, hj.written, hj.pdcpSn⟩, hslot⟩
      have hle := hj.released_le
      have hne : j ≠ s.nofReleased := by
        rintro rfl
        obtain rfl : sdu = sdu' := Option.some.inj (hi.written.symm.trans hj.written)
        obtain rfl : p = p' := Option.some.inj (hi.pdcpSn.symm.trans hj.pdcpSn)
        exact hidx hslot.symm
      omega
    · refine .inr ?_
      cases hw : s.writer with
      | slotStored sdu' =>
        rw [hw] at hholds
        exact hholds
      | pushFailed p' =>
        rw [hw] at hholds
        exact hholds
      | _ =>
        rw [hw] at hholds
        exact hholds.elim
  · rw [hshared, howner', hdiscarded, hwritten, hwriter]
    have hknown := h.writer
    cases hw : s.writer with
    | slotChecked sdu' p' =>
      rw [hw] at hknown
      obtain ⟨hk1, hk2, hk3⟩ := hknown
      refine ⟨hk1, hk2, ?_⟩
      by_cases hidx : s.shared.slot p' = s.shared.slot p
      · exact (congrArg _ hidx).trans hself
      · exact (hfree _ hidx).trans hk3
    | sizeStored sdu' p' =>
      rw [hw] at hknown
      obtain ⟨hk1, hk2, hk3, hk4⟩ := hknown
      refine ⟨hk1, hk2, ?_, hk4⟩
      by_cases hidx : s.shared.slot p' = s.shared.slot p
      · exact (congrArg _ hidx).trans hself
      · exact (hfree _ hidx).trans hk3
    | slotStored sdu' =>
      rw [hw] at hknown
      intro p' hp'
      obtain ⟨hk1, hk2, hk3, hk4⟩ := hknown p' hp'
      have hidx : s.shared.slot p' ≠ s.shared.slot p := by
        intro hslot
        rw [hslot, howner] at hk3
        omega
      exact ⟨hk1, (hfree _ hidx).trans hk2, hk3, hk4⟩
    | _ =>
      rw [hw] at hknown
      exact hknown

theorem delivered_succ {written : List RlcSdu} {discarded : List Nat}
    (hget : written[n]? = some sdu) :
    ((written.zipIdx.take (n + 1)).filter fun e => e.2 ∉ discarded) =
      ((written.zipIdx.take n).filter fun e => e.2 ∉ discarded) ++
        if n ∈ discarded then [] else [(sdu, n)] := by
  have hlast : written.zipIdx[n]? = some (sdu, n) := by
    rw [List.getElem?_zipIdx, hget]
    simp
  rw [List.take_add_one, hlast, List.filter_append]
  congr 1
  by_cases hmem : n ∈ discarded
  · simp [hmem]
  · simp [hmem]

theorem QueueInv.release (h : QueueInv s) (hr : s.reader = .sizeLoaded sdu p n) :
    QueueInv (s.releaseSlot sdu p n) := by
  have hreader := h.history.reader
  rw [hr] at hreader
  obtain ⟨h1, h2, hget, hp, hsize⟩ := hreader
  have hi : Unreleased s.written s.nofReleased s.nofReleased sdu p := by
    refine ⟨Nat.le_refl _, ?_, hp⟩
    rw [h2]
    exact hget
  have hstate := (h.slots.table.held _ sdu p hi).state
  have hvalid : p < stateDiscarded := h.slots.table.valid sdu hi.mem p hp
  rw [h2] at hstate
  unfold SduQueueThreads.releaseSlot
  by_cases hmem : s.nofReturned ∈ s.discarded
  · rw [if_pos hmem] at hstate
    rw [hstate]
    rw [if_pos ⟨rfl, by omega⟩]
    refine ⟨⟨h.history.ring, h.history.popped_le, h.history.ring_le, ⟨?_, ?_⟩, ?_⟩,
      h.slots.release hi ⟨rfl, rfl, rfl, rfl, rfl, rfl⟩,
      ⟨h.totals.nodup, fun j => ?_, h.totals.state, h.totals.bytes, fun hadd => ?_⟩⟩
    · exact h1
    · show s.nofReleased + 1 = s.nofReturned + 1
      omega
    · refine h.history.delivered.trans ?_
      show _ = ((s.written.zipIdx.take (s.nofReturned + 1)).filter fun e => e.2 ∉ s.discarded)
      rw [delivered_succ hget, if_pos hmem, List.append_nil]
    · refine (h.totals.mem j).trans ?_
      show _ ↔ j < s.written.length ∧ ¬ (s.addOutstanding = true ∧ j + 1 = s.written.length) ∧
        ((s.nofReturned + 1 ≤ j ∧ j ∉ s.discarded) ∨ s.subOutstanding j)
      have hstep : (s.nofReturned ≤ j ∧ j ∉ s.discarded) ↔
          (s.nofReturned + 1 ≤ j ∧ j ∉ s.discarded) := by
        constructor
        · rintro ⟨hle, hj⟩
          have hne : j ≠ s.nofReturned := by
            rintro rfl
            exact hj hmem
          exact ⟨by omega, hj⟩
        · exact fun hj => ⟨by omega, hj.2⟩
      rw [hstep]
    · obtain ⟨hlt, hnot⟩ := h.totals.pending hadd
      refine ⟨?_, hnot⟩
      have hne : s.nofReturned ≠ s.written.length - 1 := by
        intro heq
        rw [← heq] at hnot
        exact hnot hmem
      show s.nofReturned + 1 < s.written.length
      omega
  · rw [if_neg hmem] at hstate
    rw [hstate]
    rw [if_neg (by omega : ¬ (p = stateDiscarded ∧ stateDiscarded ≠ p))]
    refine ⟨⟨h.history.ring, h.history.popped_le, h.history.ring_le, ⟨?_, ?_, hget, hsize, by simp, hmem⟩,
      h.history.delivered⟩, h.slots.release hi ⟨rfl, rfl, rfl, rfl, rfl, rfl⟩,
      h.totals.keep rfl rfl rfl rfl rfl rfl (fun _ => Iff.rfl) (Nat.le_refl _)⟩
    · exact h1
    · show s.nofReleased + 1 = s.nofReturned + 1
      omega

/-- The SDU in hand is added to what was returned and subtracted from the totals. -/
theorem QueueInv.returnSdu (h : QueueInv s) {nofReleased : Nat}
    (hpopped : s.nofPopped = s.nofReturned + 1) (hreleased : nofReleased = s.nofReturned + 1)
    (hget : s.written[s.nofReturned]? = some sdu) (hnot : s.nofReturned ∉ s.discarded)
    (hguard : ¬ (s.addOutstanding = true ∧ s.nofPopped = s.written.length))
    (hslots : SlotInv { s with nofReleased }) :
    QueueInv (SduQueueThreads.returnSdu { s with nofReleased } sdu sdu.buf.length true) := by
  obtain ⟨hlt, -⟩ := List.getElem?_eq_some_iff.mp hget
  have hadded : ¬ (s.addOutstanding = true ∧ s.nofReturned + 1 = s.written.length) := by
    rintro ⟨h1, h2⟩
    exact hguard ⟨h1, by omega⟩
  have hmem : s.nofReturned ∈ s.counted := by
    rw [h.totals.mem]
    exact ⟨hlt, hadded, .inl ⟨Nat.le_refl _, hnot⟩⟩
  have hsize : s.sizeAt s.nofReturned = sdu.buf.length := by
    rw [sizeAt, List.getD_eq_getElem?_getD, hget]
    rfl
  have hsub : ∀ j, s.subOutstanding j → j ≠ s.nofReturned := by
    rintro j ⟨hhead, -⟩ rfl
    exact hnot (List.mem_of_mem_head? hhead)
  refine ⟨⟨h.history.ring, h.history.popped_le, h.history.ring_le, ⟨?_, ?_⟩, ?_⟩,
    ⟨⟨hslots.table.valid, hslots.table.discardable, ?_⟩, hslots.taken, hslots.writer⟩,
    h.totals.subtract hmem hsize rfl rfl rfl (fun j => ?_) (Nat.le_refl _) fun hadd => ?_⟩
  · exact hpopped.trans hreleased.symm
  · exact hreleased
  · show s.delivered ++ [(sdu, s.nofReturned)] =
      ((s.written.zipIdx.take (s.nofReturned + 1)).filter fun e => e.2 ∉ s.discarded)
    rw [delivered_succ hget, if_neg hnot, h.history.delivered]
  · exact fun j sdu' p hj =>
      ⟨(hslots.table.held j sdu' p hj).state, (hslots.table.held j sdu' p hj).owner,
        (hslots.table.held j sdu' p hj).size⟩
  · show (j < s.written.length ∧ ¬ (s.addOutstanding = true ∧ j + 1 = s.written.length) ∧
      ((s.nofReturned + 1 ≤ j ∧ j ∉ s.discarded) ∨ s.subOutstanding j)) ↔ _
    rw [h.totals.mem j]
    constructor
    · rintro ⟨h1, h2, h3 | h3⟩
      · exact ⟨by omega, h1, h2, .inl ⟨by omega, h3.2⟩⟩
      · exact ⟨hsub j h3, h1, h2, .inr h3⟩
    · rintro ⟨hne, h1, h2, h3 | h3⟩
      · exact ⟨h1, h2, .inl ⟨by omega, h3.2⟩⟩
      · exact ⟨h1, h2, .inr h3⟩
  · obtain ⟨-, hlast⟩ := h.totals.pending hadd
    refine ⟨?_, hlast⟩
    have hle := h.history.popped_le
    have hne : s.nofPopped ≠ s.written.length := fun heq => hguard ⟨hadd, heq⟩
    show s.nofReturned + 1 < s.written.length
    omega

theorem QueueInv.subTotals (h : QueueInv s) (hguard : s.AddedBeforeSub .subTotals)
    (hstep : s.readerStep s.reader .subTotals = some s') : QueueInv s' := by
  have hreader := h.history.reader
  cases hr : s.reader with
  | popped sdu =>
    rw [hr] at hstep hreader
    obtain ⟨h1, h2, hget⟩ := hreader
    simp only [readerStep] at hstep
    split at hstep
    · rename_i hnone
      cases hstep
      have hnot : s.nofReturned ∉ s.discarded := by
        intro hmem
        obtain ⟨sdu', p, hget', hp⟩ := h.slots.table.discardable _ hmem
        rw [Option.some.inj (hget'.symm.trans hget), hnone] at hp
        cases hp
      refine h.returnSdu (by omega) (by omega) hget hnot hguard
        ⟨⟨h.slots.table.valid, h.slots.table.discardable, ?_⟩, ?_, h.slots.writer⟩
      · exact fun j sdu' p hj => h.slots.table.held j sdu' p
          ⟨Nat.le_of_succ_le hj.released_le, hj.written, hj.pdcpSn⟩
      · intro idx htaken
        rcases h.slots.taken idx htaken with ⟨j, sdu', p, hj, hslot⟩ | hholds
        · refine .inl ⟨j, sdu', p, ⟨?_, hj.written, hj.pdcpSn⟩, hslot⟩
          have hle := hj.released_le
          have hne : j ≠ s.nofReleased := by
            rintro rfl
            have hsame := hj.written
            rw [h2, hget] at hsame
            cases hsame
            exact absurd (hnone.symm.trans hj.pdcpSn) (by simp)
          show s.nofReleased + 1 ≤ j
          omega
        · exact .inr hholds
    · cases hstep
  | released sdu n valid =>
    rw [hr] at hstep hreader
    obtain ⟨h1, h2, hget, rfl, rfl, hnot⟩ := hreader
    cases hstep
    exact h.returnSdu (by omega) h2 hget hnot hguard
      ⟨h.slots.table, h.slots.taken, h.slots.writer⟩
  | idle =>
    rw [hr] at hstep
    cases hstep
  | sizeLoaded sdu p n =>
    rw [hr] at hstep
    cases hstep

theorem QueueInv.stepWriter (h : QueueInv s) {a : Action} (hguard : s.AddedBeforeSub a)
    (hstep : s.writerStep s.writer a = some s') : QueueInv s' := by
  unfold writerStep at hstep
  split at hstep <;> rename_i hw <;> try cases hstep
  · exact h.startWrite hw hguard
  · obtain ⟨p, hp, rfl⟩ := Option.map_eq_some_iff.mp hstep
    exact h.loadSlot hw hp
  · exact h.storeSize hw
  · exact h.storeSlot hw
  · exact h.pushSdu hw
  · exact h.releaseWriterSlot hw
  · exact h.addTotals hw
  · exact h.tryDiscard hw hguard
  · exact h.loadDiscardSize hw
  · have hnext := h.finishDiscard hw
    rw [← apply_ite some] at hstep
    cases hstep
    exact hnext

theorem QueueInv.step (h : QueueInv s) {a : Action} (hguard : s.AddedBeforeSub a)
    (hstep : s.step a = some s') : QueueInv s' := by
  cases a with
  | pop =>
    cases hr : s.reader <;> simp only [SduQueueThreads.step, hr, readerStep] at hstep <;>
      cases hstep
    exact h.popSdu hr
  | loadSize =>
    cases hr : s.reader <;> simp only [SduQueueThreads.step, hr, readerStep] at hstep <;>
      try cases hstep
    obtain ⟨p, hp, rfl⟩ := Option.map_eq_some_iff.mp hstep
    exact h.loadSize hr hp
  | release =>
    cases hr : s.reader <;> simp only [SduQueueThreads.step, hr, readerStep] at hstep <;>
      cases hstep
    exact h.release hr
  | subTotals => exact h.subTotals hguard hstep
  | _ => exact h.stepWriter hguard hstep

end Steps
def queued (s : SduQueueThreads) : List (RlcSdu × Nat) :=
  (s.written.zipIdx.drop s.nofPopped).filter fun e => e.2 ∉ s.discarded

structure QueueSafe (s : SduQueueThreads) : Prop where
  /-- What came out is what was written, in that order, without the discarded SDUs. -/
  inOrder : s.delivered = (s.written.zipIdx.take s.nofReturned).filter fun e => e.2 ∉ s.discarded
  /-- What did not come out is in the ring, apart from the one SDU in the hands of the reader. -/
  notLost : s.shared.queue = s.written.drop s.nofPopped ∧
    s.nofReturned ≤ s.nofPopped ∧ s.nofPopped ≤ s.nofReturned + 1
  /-- A discard that fails changes nothing. -/
  discardFails : ∀ pdcpSn s', s.step (.tryDiscard pdcpSn) = some s' →
    s'.writer = .exchanged pdcpSn false → s' = { s with writer := .exchanged pdcpSn false }
  /-- A discard that succeeds hits an SDU with this PDCP SN that has not come out. -/
  discardSucceeds : ∀ pdcpSn s', validPdcpSn pdcpSn → s.step (.tryDiscard pdcpSn) = some s' →
    s'.writer = .exchanged pdcpSn true → ∃ i sdu, s'.discarded = i :: s.discarded ∧
      s.nofReturned ≤ i ∧ i ∉ s.discarded ∧ s.written[i]? = some sdu ∧ sdu.pdcpSn = some pdcpSn
  /-- The totals are a sum over SDUs: they are not below zero. -/
  noUnderflow : s.shared.nSdus = s.counted.length % 2 ^ 32 ∧ s.shared.nBytes = s.countedBytes
  /-- At quiescence they are the totals over the queued SDUs. -/
  quiescent : s.writer = .idle → s.reader = .idle →
    s.shared.nSdus = s.queued.length ∧
    s.shared.nBytes = (s.queued.map fun e => e.1.buf.length).sum

section Safety
variable {s : SduQueueThreads}

theorem mem_zipIdx_drop {l : List RlcSdu} {n : Nat} {e : RlcSdu × Nat} :
    e ∈ l.zipIdx.drop n ↔ n ≤ e.2 ∧ l[e.2]? = some e.1 := by
  rw [List.mem_iff_getElem?]
  constructor
  · rintro ⟨k, hk⟩
    rw [List.getElem?_drop, List.getElem?_zipIdx] at hk
    obtain ⟨x, hx, rfl⟩ := Option.map_eq_some_iff.mp hk
    simp only [Nat.zero_add]
    exact ⟨by omega, hx⟩
  · rintro ⟨hle, hget⟩
    refine ⟨e.2 - n, ?_⟩
    rw [List.getElem?_drop, Nat.add_sub_cancel' hle, List.getElem?_zipIdx, hget]
    simp

theorem QueueInv.counted_perm (h : QueueInv s) (hw : s.writer = .idle) (hr : s.reader = .idle) :
    s.counted.Perm (s.queued.map fun e => e.2) := by
  have hreader := h.history.reader
  rw [hr] at hreader
  obtain ⟨h1, h2⟩ := hreader
  have hquiet : QuietWriter s.writer := by
    rw [hw]
    trivial
  have hnodup : (s.queued.map fun e => e.2).Nodup := by
    have hsub : List.Sublist (s.queued.map fun e => e.2) (s.written.zipIdx.map fun e => e.2) :=
      (List.filter_sublist.trans (List.drop_sublist _ _)).map _
    refine hsub.nodup ?_
    rw [List.zipIdx_map_snd]
    exact List.nodup_range'
  refine (List.perm_ext_iff_of_nodup h.totals.nodup hnodup).mpr fun i => ?_
  rw [h.totals.mem i, hquiet.addOutstanding]
  simp only [hquiet.subOutstanding i, List.mem_map, queued, List.mem_filter, mem_zipIdx_drop,
    decide_eq_true_eq, Bool.false_eq_true, false_and, not_false_eq_true, true_and, or_false]
  constructor
  · rintro ⟨hlt, hle, hnot⟩
    exact ⟨(s.written[i], i), ⟨⟨by omega, List.getElem?_eq_getElem hlt⟩, hnot⟩, rfl⟩
  · rintro ⟨e, ⟨⟨hle, hget⟩, hnot⟩, rfl⟩
    obtain ⟨hlt, -⟩ := List.getElem?_eq_some_iff.mp hget
    exact ⟨hlt, by omega, hnot⟩

theorem QueueInv.safe (h : QueueInv s) : QueueSafe s := by
  obtain ⟨hb1, hb2, hb3, hb4⟩ := h.history.bounds
  have hbytes : s.countedBytes < 2 ^ 32 := by
    have := h.totals.bytes
    omega
  refine ⟨h.history.delivered, ⟨h.history.ring, by omega, hb4⟩, ?_, ?_,
    ⟨nSdus_eq h.totals.state hbytes, nBytes_eq h.totals.state hbytes⟩, ?_⟩
  · intro p s' hstep hfail
    cases hw : s.writer <;> simp only [SduQueueThreads.step, hw, writerStep] at hstep <;>
      cases hstep
    unfold exchangeDiscarded at hfail ⊢
    split at hfail
    · cases hfail
    · rw [if_neg ‹_›]
  · intro p s' hp hstep hok
    cases hw : s.writer <;> simp only [SduQueueThreads.step, hw, writerStep] at hstep <;>
      cases hstep
    unfold exchangeDiscarded at hok ⊢
    split at hok
    · rename_i hstate
      obtain ⟨sdu, hi, hnot⟩ := h.slots.discardTarget hw hp hstate
      rw [if_pos hstate]
      exact ⟨_, sdu, rfl, by have := hi.released_le; omega, hnot, hi.written, hi.pdcpSn⟩
    · cases hok
  · intro hw hr
    have hperm := h.counted_perm hw hr
    have hlen : s.counted.length = s.queued.length := by
      rw [hperm.length_eq, List.length_map]
    have hsmall : s.queued.length < 2 ^ 32 := by
      have hfilter : s.queued.length ≤ (s.written.zipIdx.drop s.nofPopped).length :=
        List.length_filter_le _ _
      have hring := congrArg List.length h.history.ring
      have hle := h.history.ring_le
      have hcap : s.shared.cfg.capacity.toNat < 2 ^ 32 := s.shared.cfg.capacity.toNat_lt
      rw [List.length_drop, List.length_zipIdx] at hfilter
      rw [List.length_drop] at hring
      omega
    refine ⟨?_, ?_⟩
    · rw [nSdus_eq h.totals.state hbytes, hlen, Nat.mod_eq_of_lt hsmall]
    · rw [nBytes_eq h.totals.state hbytes, countedBytes, (hperm.map s.sizeAt).sum_eq, List.map_map]
      congr 1
      apply List.map_congr_left
      intro e he
      have hget := (mem_zipIdx_drop.mp (List.mem_filter.mp he).1).2
      show s.sizeAt e.2 = _
      rw [sizeAt, List.getD_eq_getElem?_getD, hget]
      rfl

end Safety

/-- In runs in which the reader subtracts no SDU that its writer has still to add, the queue is
safe in every state. -/
theorem sduQueue_safe (cfg : RlcSduQueueConfig) (s : SduQueueThreads)
    (h : Reaches step AddedBeforeSub (create cfg) s) : QueueSafe s :=
  QueueInv.safe (h.invariant (QueueInv.create cfg) fun _ _ _ hs hguard hstep =>
    hs.step hguard hstep)

/-- An SDU is written and read, and a second one is discarded. -/
theorem sduQueue_safe_writeReadDiscard :
    ∃ s, Reaches step AddedBeforeSub (create { capacity := 4, byteLimit := 100 }) s ∧
      s.delivered = [({ buf := [1, 2], pdcpSn := some 7 }, 0)] ∧ s.discarded = [1] ∧
      s.shared.nSdus = 0 ∧ QueueSafe s := by
  have hwrites : (runAll step (create { capacity := 4, byteLimit := 100 })
      [.write { buf := [1, 2], pdcpSn := some 7 }, .loadSlot, .storeSize, .storeSlot, .push,
        .addTotals, .write { buf := [3], pdcpSn := some 8 }, .loadSlot, .storeSize, .storeSlot,
        .push, .addTotals, .pop, .tryDiscard 8, .loadSize, .loadDiscardSize, .release,
        .finishDiscard]).bind (fun s => (s.step .subTotals).map fun s' =>
          (s.addOutstanding, s'.delivered, s'.discarded, s'.shared.nSdus)) =
      some (false, [({ buf := [1, 2], pdcpSn := some 7 }, 0)], [1], 0) := by
    decide +kernel
  obtain ⟨s, hs, hlast⟩ := Option.bind_eq_some_iff.mp hwrites
  obtain ⟨s', hstep, hobs⟩ := Option.map_eq_some_iff.mp hlast
  simp only [Prod.mk.injEq] at hobs
  obtain ⟨hadd, hdelivered, hdiscarded, hsdus⟩ := hobs
  have hreach : Reaches step AddedBeforeSub (create { capacity := 4, byteLimit := 100 }) s := by
    refine reaches_of_runAll .start ?_ hs
    simp [AddedBeforeSub, validPdcpSn, stateDiscarded]
  have hreach' : Reaches step AddedBeforeSub (create { capacity := 4, byteLimit := 100 }) s' := by
    refine .next hreach ?_ hstep
    rintro ⟨hout, -⟩
    rw [hadd] at hout
    cases hout
  exact ⟨s', hreach', hdelivered, hdiscarded, hsdus, sduQueue_safe _ s' hreach'⟩

/-- The reader takes an SDU between the push and the update of the totals: the packed totals fall
below zero. -/
theorem sduQueue_earlyRead_not_safe :
    ∃ s, Reaches step (fun _ _ => True) (create { capacity := 4, byteLimit := 100 }) s ∧
      s.shared.nSdus = 0xfffffffe ∧ ¬ QueueSafe s := by
  have hrun : (runAll step (create { capacity := 4, byteLimit := 100 })
      [.write { buf := [1] }, .push, .pop, .subTotals]).map
        (fun s => (s.shared.nSdus, s.counted)) = some (0xfffffffe, []) := by
    decide +kernel
  obtain ⟨s, hs, hobs⟩ := Option.map_eq_some_iff.mp hrun
  obtain ⟨hsdus, hcounted⟩ := Prod.mk.inj hobs
  refine ⟨s, reaches_of_runAll .start (fun _ _ _ => trivial) hs, hsdus, ?_⟩
  intro hsafe
  have := hsafe.noUnderflow.1
  rw [hsdus, hcounted] at this
  cases this

end SduQueueThreads
end Srsran.Rlc
