import Srsran.Lib.Runs
import Srsran.Rlc.RxUmEntity

/-! The state variables of the UM receiver. They are residues of unbounded counters
`next ≤ highest ≤ next + UM_Window_Size`. What a PDU or an expiry does to them is said in closed
form: RX_Next_Reassembly is always the first SN of the window that is not fully received. -/
namespace Srsran.Rlc
open ModOrder Srsran.Adt Checked

def MissesByte (segments : List RlcRxSduSegment) : Prop :=
  ∃ b b', b < b' ∧ ¬ Holds segments b ∧ Holds segments b'

/-- Without a gap and without the last segment, the bytes up to some offset are held. -/
theorem inventoryLoop_holds {segments : List RlcRxSduSegment} {nextByte : Nat}
    (hgap : (inventoryLoop nextByte segments).hasGap = false)
    (hfull : (inventoryLoop nextByte segments).fullyReceived = false) :
    ∃ stop, nextByte ≤ stop ∧ ∀ b, Holds segments b ↔ nextByte ≤ b ∧ b < stop := by
  induction segments generalizing nextByte with
  | nil =>
    refine ⟨nextByte, le_rfl, ?_⟩
    intro b
    constructor
    · rintro ⟨segm, hsegm, -⟩
      cases hsegm
    · rintro ⟨hlow, hhigh⟩
      omega
  | cons segm rest ih =>
    unfold inventoryLoop at hgap hfull
    split at hgap
    · cases hgap
    · rename_i hso
      rw [if_neg hso] at hfull
      split at hgap
      · rename_i hlast
        rw [if_pos hlast] at hfull
        cases hfull
      · rename_i hlast
        rw [if_neg hlast] at hfull
        obtain ⟨stop, hstop, hrest⟩ := ih hgap hfull
        have hstart : segm.so = nextByte := not_not.mp hso
        have hends : segm.ends = nextByte + segm.payload.length := by
          rw [RlcRxSduSegment.ends, hstart]
        refine ⟨stop, by omega, ?_⟩
        intro b
        rw [holds_cons, hrest, hends, hstart]
        omega

/-- What the flags of an entry say about its segments. -/
structure RlcRxUmSduInfo.Inv (info : RlcRxUmSduInfo) : Prop where
  noGap : info.fullyReceived = true → info.hasGap = false
  complete : info.fullyReceived = false → info.hasGap = false → ¬ MissesByte info.segments

theorem inventoryLoop_noGap {segments : List RlcRxSduSegment} {nextByte : Nat}
    (h : (inventoryLoop nextByte segments).fullyReceived = true) :
    (inventoryLoop nextByte segments).hasGap = false := by
  induction segments generalizing nextByte with
  | nil => rfl
  | cons segm rest ih =>
    unfold inventoryLoop at h ⊢
    split
    · rename_i hso
      rw [if_pos hso] at h
      cases h
    · rename_i hso
      rw [if_neg hso] at h
      split
      · rfl
      · rename_i hlast
        rw [if_neg hlast] at h
        exact ih h

namespace RlcRxUmEntity

theorem storedInfo_inv (window : CircularMap RlcRxUmSduInfo) (header : RlcUmPduHeader)
    (payload : List UInt8) : (storedInfo window header payload).Inv where
  noGap := inventoryLoop_noGap
  complete := by
    rintro hfull hgap ⟨b, b', hlt, hb, hb'⟩
    obtain ⟨stop, -, hholds⟩ := inventoryLoop_holds hgap hfull
    have hbefore := (hholds b').mp hb'
    exact hb ((hholds b).mpr ⟨Nat.zero_le b, by omega⟩)

/-! Distances, for SNs that are residues of unbounded numbers. -/

section Distance
variable (ent : RlcRxUmEntity)

theorem shape : WindowShape ent.mod ent.umWindowSize := ent.cfg.snFieldLength.windowShape

theorem mod_eq : ent.mod = 2 * ent.umWindowSize := ent.shape.two_windows

theorem modulus : Modulus ent.mod := ent.shape.modulus

theorem two_le_umWindowSize : 2 ≤ ent.umWindowSize := by
  unfold umWindowSize
  cases ent.cfg.snFieldLength <;> decide

theorem umWindowSize_lt : ent.umWindowSize < 2 ^ 32 := by
  unfold umWindowSize
  cases ent.cfg.snFieldLength <;> decide

variable {ent} {highest k : Nat}

variable (hnh : ent.st.rxNextHighest = highest % ent.mod)
include hnh

variable (hturn : ent.mod ≤ highest)
include hturn

/-- The base of the order is the start of the reassembly window. -/
theorem rxModBase_eq (x : Nat) : ent.rxModBase x = rebase ent.mod (highest - ent.umWindowSize) x := by
  have hm := ent.mod_eq
  have hbase : highest % ent.mod + ent.umWindowSize ≡ highest - ent.umWindowSize [MOD ent.mod] := by
    have hsum : highest + ent.umWindowSize = highest - ent.umWindowSize + ent.mod := by omega
    calc highest % ent.mod + ent.umWindowSize
        ≡ highest + ent.umWindowSize [MOD ent.mod] := (Nat.mod_modEq _ _).add_right _
      _ = highest - ent.umWindowSize + ent.mod := hsum
      _ ≡ highest - ent.umWindowSize [MOD ent.mod] := Nat.add_modEq_right
  rw [rxModBase, hnh, rebase_congr ent.modulus hbase rfl]

theorem rxModBase_lift
    (hk : highest - ent.umWindowSize ≤ k) (hk' : k < highest + ent.umWindowSize) :
    ent.rxModBase (k % ent.mod) = k - (highest - ent.umWindowSize) := by
  have hm := ent.mod_eq
  rw [rxModBase_eq hnh hturn, rebase_mod ent.modulus]
  apply rebase_unique ent.modulus (by omega)
  rw [Nat.add_sub_cancel' hk]

theorem rxModBase_highest : ent.rxModBase ent.st.rxNextHighest = ent.umWindowSize := by
  have hm := ent.mod_eq
  have hw := ent.two_le_umWindowSize
  rw [hnh, rxModBase_lift hnh hturn (by omega) (by omega)]
  omega

theorem rxModBase_windowStart : ent.rxModBase ent.windowStart = 0 := by
  have hm := ent.mod_eq
  have hw := ent.umWindowSize_lt
  rw [rxModBase_eq hnh hturn, windowStart]
  apply rebase_unique ent.modulus ent.modulus.pos
  have hsum : highest - ent.umWindowSize + 2 ^ 32 = highest + (2 ^ 32 - ent.umWindowSize) := by omega
  calc highest - ent.umWindowSize + 0
      ≡ highest - ent.umWindowSize + 2 ^ 32 [MOD ent.mod] :=
        ((Nat.modEq_zero_iff_dvd.mpr ent.modulus.dvd).symm).add_left _
    _ = highest + (2 ^ 32 - ent.umWindowSize) := hsum
    _ ≡ highest % ent.mod + (2 ^ 32 - ent.umWindowSize) [MOD ent.mod] :=
        ((Nat.mod_modEq _ _).symm).add_right _
    _ = ent.st.rxNextHighest + (2 ^ 32 - ent.umWindowSize) := by rw [hnh]
    _ ≡ (ent.st.rxNextHighest + (2 ^ 32 - ent.umWindowSize)) % 2 ^ 32 [MOD ent.mod] :=
        (Nat.mod_mod_of_dvd _ ent.modulus.dvd).symm

theorem snInReassemblyWindow_lift (hk : highest - ent.umWindowSize ≤ k)
    (hk' : k < highest + ent.umWindowSize) :
    ent.snInReassemblyWindow (k % ent.mod) = decide (k < highest) := by
  have hm := ent.mod_eq
  rw [snInReassemblyWindow, rxModBase_windowStart hnh hturn, rxModBase_highest hnh hturn,
    rxModBase_lift hnh hturn hk hk']
  have hiff : k - (highest - ent.umWindowSize) < ent.umWindowSize ↔ k < highest := by omega
  simp [hiff]

/-- An SN below the window is the same as one above it, a turn later. -/
theorem snInReassemblyWindow_below (hk : highest ≤ k + ent.mod) (hk' : k < highest - ent.umWindowSize) :
    ent.snInReassemblyWindow (k % ent.mod) = false := by
  have hm := ent.mod_eq
  rw [← Nat.add_mod_right k, snInReassemblyWindow_lift hnh hturn (by omega) (by omega)]
  exact decide_eq_false (by omega)

end Distance

/-- `window'` is what is left of `window` when SNs from `lo` up to `hi` have been removed. -/
structure Erased (window window' : CircularMap RlcRxUmSduInfo) (m lo hi : Nat) : Prop where
  capacity : window'.capacity = window.capacity
  sub : ∀ key info, window'.get? key = some info → window.get? key = some info
  same : ∀ k, hi ≤ k → k < lo + m → window'.get? (k % m) = window.get? (k % m)

variable {start stop limit : Nat}

section Loops
variable {window window' window'' : CircularMap RlcRxUmSduInfo} {m lo mid hi : Nat}

theorem Erased.refl (window : CircularMap RlcRxUmSduInfo) (m lo : Nat) :
    Erased window window m lo lo :=
  ⟨rfl, fun _ _ h => h, fun _ _ _ => rfl⟩

theorem Erased.cons (h : Erased (window.erase (lo % m)) window' m (lo + 1) hi) (hlo : lo < hi) :
    Erased window window' m lo hi where
  capacity := h.capacity.trans (CircularMap.capacity_erase _ _)
  sub := by
    intro key info hget
    have hget' := h.sub key info hget
    rw [CircularMap.get?_erase] at hget'
    split at hget'
    · cases hget'
    · exact hget'
  same := by
    intro k hk hk'
    rw [h.same k hk (by omega), get?_erase_near (by omega : lo ≤ k) hk' le_rfl (by omega),
      if_neg (by omega)]

theorem Erased.trans (h : Erased window window' m lo mid) (h' : Erased window' window'' m mid hi)
    (hlo : lo ≤ mid) (hmid : mid ≤ hi) : Erased window window'' m lo hi where
  capacity := h'.capacity.trans h.capacity
  sub := fun key info hget => h.sub key info (h'.sub key info hget)
  same := fun k hk hk' => (h'.same k hk (by omega)).trans (h.same k (by omega) hk')

theorem fullyReceivedAt_congr {sn : Nat} (h : window'.get? sn = window.get? sn) :
    fullyReceivedAt window' sn = fullyReceivedAt window sn := by
  rw [fullyReceivedAt, h, fullyReceivedAt]

theorem fullyReceivedAt_erase {k : Nat} (hlo : lo < k) (hk : k < lo + m) :
    fullyReceivedAt (window.erase (lo % m)) (k % m) = fullyReceivedAt window (k % m) := by
  apply fullyReceivedAt_congr
  rw [get?_erase_near (by omega : lo ≤ k) hk le_rfl (by omega), if_neg (by omega)]

/-- From `start` up to `stop` everything is fully received, and `stop` is the limit or not. -/
structure ReceivedRun (window : CircularMap RlcRxUmSduInfo) (m start stop limit : Nat) : Prop where
  start_le : start ≤ stop
  le_limit : stop ≤ limit
  received : ∀ k, start ≤ k → k < stop → fullyReceivedAt window (k % m) = true
  missing : stop < limit → fullyReceivedAt window (stop % m) = false

theorem ReceivedRun.stay {k limit : Nat} (hk : k ≤ limit)
    (h : k < limit → fullyReceivedAt window (k % m) = false) : ReceivedRun window m k k limit :=
  ⟨le_rfl, hk, fun _ h1 h2 => absurd h1 (by omega), h⟩

theorem ReceivedRun.of_erase (hlo : lo < start) (hnear : limit ≤ lo + m)
    (h : ReceivedRun (window.erase (lo % m)) m start stop limit) :
    ReceivedRun window m start stop limit where
  start_le := h.start_le
  le_limit := h.le_limit
  received := by
    intro k hk hk'
    have hlimit := h.le_limit
    rw [← fullyReceivedAt_erase (by omega : lo < k) (by omega)]
    exact h.received k hk hk'
  missing := by
    intro hstop
    have hle := h.start_le
    rw [← fullyReceivedAt_erase (by omega : lo < stop) (by omega)]
    exact h.missing hstop

theorem ReceivedRun.cons (hnear : limit ≤ start + m)
    (hstart : fullyReceivedAt window (start % m) = true)
    (h : ReceivedRun (window.erase (start % m)) m (start + 1) stop limit) :
    ReceivedRun window m start stop limit := by
  have hrest := h.of_erase (Nat.lt_succ_self start) hnear
  refine ⟨(Nat.le_succ start).trans hrest.start_le, hrest.le_limit, ?_, hrest.missing⟩
  intro k hk hk'
  by_cases heq : k = start
  · rw [heq, hstart]
  · exact hrest.received k (by omega) hk'

end Loops

section LoopSpecs
variable {ent : RlcRxUmEntity} {highest : Nat}

variable (hnh : ent.st.rxNextHighest = highest % ent.mod)
include hnh

theorem releaseReceived_spec
    (hturn : ent.mod ≤ highest) {turns k : Nat} (window : CircularMap RlcRxUmSduInfo)
    (hk : highest - ent.umWindowSize ≤ k) (hlimit : k ≤ highest) (hturns : highest - k ≤ turns) :
    ∃ stop, (ent.releaseReceived turns (k % ent.mod) window).1 = stop % ent.mod ∧
      ReceivedRun window ent.mod k stop highest ∧
      Erased window (ent.releaseReceived turns (k % ent.mod) window).2 ent.mod k stop := by
  have hm := ent.mod_eq
  have hw := ent.two_le_umWindowSize
  induction turns generalizing k window with
  | zero =>
    have hedge : k = highest := by omega
    refine ⟨k, rfl, ReceivedRun.stay hlimit fun h => ?_, Erased.refl window ent.mod k⟩
    omega
  | succ turns ih =>
    rw [releaseReceived, rxModBase_lift hnh hturn hk (by omega), rxModBase_highest hnh hturn]
    by_cases hstep : k < highest ∧ fullyReceivedAt window (k % ent.mod) = true
    · have hpos : k - (highest - ent.umWindowSize) < ent.umWindowSize ∧
          fullyReceivedAt window (k % ent.mod) = true := ⟨by omega, hstep.2⟩
      obtain ⟨stop, hstop, hrun, herased⟩ :=
        ih (k := k + 1) (window.erase (k % ent.mod)) (by omega) (by omega) (by omega)
      have hle := hrun.start_le
      rw [if_pos hpos, succ_mod_mod]
      exact ⟨stop, hstop, hrun.cons (by omega) hstep.2, herased.cons (by omega)⟩
    · rw [if_neg (by
        intro hpos
        exact hstep ⟨by omega, hpos.2⟩)]
      refine ⟨k, rfl, ReceivedRun.stay hlimit fun h => ?_, Erased.refl window ent.mod k⟩
      rw [Bool.eq_false_iff]
      exact fun hrecv => hstep ⟨h, hrecv⟩

theorem discardOutside_spec
    (hturn : ent.mod ≤ highest) {turns k : Nat} (window : CircularMap RlcRxUmSduInfo)
    (lost : List Nat) (hk : highest ≤ k + ent.mod) (hlimit : k ≤ highest - 1)
    (hturns : highest - ent.umWindowSize - k ≤ turns) :
    (ent.discardOutside turns (k % ent.mod) window lost).1 =
        max k (highest - ent.umWindowSize) % ent.mod ∧
      Erased window (ent.discardOutside turns (k % ent.mod) window lost).2.1 ent.mod k
        (max k (highest - ent.umWindowSize)) := by
  have hm := ent.mod_eq
  have hw := ent.two_le_umWindowSize
  induction turns generalizing k window lost with
  | zero =>
    rw [max_eq_left (by omega)]
    exact ⟨rfl, Erased.refl window ent.mod k⟩
  | succ turns ih =>
    rw [discardOutside]
    by_cases hinside : highest - ent.umWindowSize ≤ k
    · rw [snInReassemblyWindow_lift hnh hturn hinside (by omega), max_eq_left hinside,
        if_pos (decide_eq_true (by omega))]
      exact ⟨rfl, Erased.refl window ent.mod k⟩
    · have houtside := snInReassemblyWindow_below hnh hturn hk (by omega)
      have hmax : max (k + 1) (highest - ent.umWindowSize) = max k (highest - ent.umWindowSize) := by
        omega
      obtain ⟨hstop, herased⟩ := ih (k := k + 1) (window.erase (k % ent.mod))
        (lost ++ lostAt window (k % ent.mod)) (by omega) (by omega) (by omega)
      rw [houtside, if_neg (by simp), succ_mod_mod]
      rw [hmax] at hstop herased
      exact ⟨hstop, herased.cons (by omega)⟩

theorem releaseExpired_spec
    (hturn : ent.mod ≤ highest) {trigger : Nat} (htrigger : ent.st.rxTimerTrigger = trigger % ent.mod)
    (htlow : highest - ent.umWindowSize ≤ trigger) (hthigh : trigger < highest + ent.umWindowSize)
    {turns k : Nat} (window : CircularMap RlcRxUmSduInfo) (lost : List Nat)
    (hk : highest - ent.umWindowSize ≤ k) (hlimit : k ≤ highest) (hturns : highest - k ≤ turns) :
    ∃ stop, (ent.releaseExpired turns (k % ent.mod) window lost).1 = stop % ent.mod ∧
      ReceivedRun window ent.mod (max k (min trigger highest)) stop highest ∧
      Erased window (ent.releaseExpired turns (k % ent.mod) window lost).2.1 ent.mod k stop := by
  have hm := ent.mod_eq
  have hw := ent.two_le_umWindowSize
  induction turns generalizing k window lost with
  | zero =>
    have hmax : max k (min trigger highest) = k := by omega
    rw [hmax]
    refine ⟨k, rfl, ReceivedRun.stay hlimit fun h => ?_, Erased.refl window ent.mod k⟩
    omega
  | succ turns ih =>
    rw [releaseExpired, rxModBase_lift hnh hturn hk (by omega), rxModBase_highest hnh hturn,
      htrigger, rxModBase_lift hnh hturn htlow hthigh]
    by_cases hbelow : k < highest
    · rw [if_pos (by omega)]
      by_cases hexpired : k < trigger
      · -- removed whether it was received or not
        have hmax : max (k + 1) (min trigger highest) = max k (min trigger highest) := by omega
        obtain ⟨stop, hstop, hrun, herased⟩ := ih (k := k + 1) (window.erase (k % ent.mod))
          (lost ++ lostAt window (k % ent.mod)) (by omega) (by omega) (by omega)
        rw [hmax] at hrun
        have hle := hrun.start_le
        rw [if_pos (by omega), succ_mod_mod]
        refine ⟨stop, hstop, hrun.of_erase (by omega) (by omega), herased.cons (by omega)⟩
      · have hmax : max k (min trigger highest) = k := by omega
        rw [if_neg (by omega), hmax]
        by_cases hrecv : fullyReceivedAt window (k % ent.mod) = true
        · have hmax' : max (k + 1) (min trigger highest) = k + 1 := by omega
          obtain ⟨stop, hstop, hrun, herased⟩ :=
            ih (k := k + 1) (window.erase (k % ent.mod)) lost (by omega) (by omega) (by omega)
          rw [hmax'] at hrun
          have hle := hrun.start_le
          rw [if_pos hrecv, succ_mod_mod]
          exact ⟨stop, hstop, hrun.cons (by omega) hrecv, herased.cons (by omega)⟩
        · rw [if_neg hrecv]
          exact ⟨k, rfl, ReceivedRun.stay hlimit fun _ => Bool.eq_false_iff.mpr hrecv,
            Erased.refl window ent.mod k⟩
    · have hmax : max k (min trigger highest) = k := by omega
      rw [if_neg (by omega), hmax]
      refine ⟨k, rfl, ReceivedRun.stay hlimit fun h => ?_, Erased.refl window ent.mod k⟩
      omega

end LoopSpecs

/-! Closed forms over the state before the event. -/

/-- How many SNs from `sn` on are fully received, at most `count`. -/
def receivedCount (window : CircularMap RlcRxUmSduInfo) (m : Nat) : Nat → Nat → Nat
  | 0, _ => 0
  | count + 1, sn =>
    if fullyReceivedAt window sn then receivedCount window m count ((sn + 1) % m) + 1 else 0

/-- The first SN from `start` up to `limit` that is not fully received. -/
def firstMissing (window : CircularMap RlcRxUmSduInfo) (m start limit : Nat) : Nat :=
  (start + receivedCount window m (rebase m start limit) start) % m

variable {window : CircularMap RlcRxUmSduInfo} {m : Nat}

theorem ReceivedRun.receivedCount_eq {start stop count : Nat}
    (h : ReceivedRun window m start stop (start + count)) :
    receivedCount window m count (start % m) = stop - start := by
  induction count generalizing start with
  | zero =>
    have h1 := h.le_limit
    rw [receivedCount]
    omega
  | succ count ih =>
    have hle := h.start_le
    rw [receivedCount]
    by_cases hrecv : fullyReceivedAt window (start % m) = true
    · have hne : start ≠ stop := by
        intro heq
        have hmissing := h.missing (by omega)
        rw [← heq, hrecv] at hmissing
        cases hmissing
      have hlimit : start + 1 + count = start + (count + 1) := by omega
      have hrest : ReceivedRun window m (start + 1) stop (start + 1 + count) := by
        rw [hlimit]
        exact ⟨by omega, h.le_limit, fun k hk hk' => h.received k (by omega) hk', h.missing⟩
      rw [if_pos hrecv, succ_mod_mod, ih hrest]
      omega
    · have heq : start = stop := by
        by_contra hne
        exact hrecv (h.received start le_rfl (by omega))
      rw [if_neg hrecv]
      omega

theorem ReceivedRun.firstMissing_eq (hm : Modulus m)
    (h : ReceivedRun window m start stop limit) (hnear : limit < start + m) :
    firstMissing window m (start % m) (limit % m) = stop % m := by
  have hle := h.start_le
  have hlimit := h.le_limit
  have hcount : start + (limit - start) = limit := by omega
  have hrun : ReceivedRun window m start stop (start + (limit - start)) := by rwa [hcount]
  rw [firstMissing, rebase_lift hm (by omega) hnear, hrun.receivedCount_eq, Nat.mod_add_mod]
  congr 1
  omega

section ClosedForms
variable (ent : RlcRxUmEntity) (header : RlcUmPduHeader) (payload : List UInt8)

def bufferAfter : CircularMap RlcRxUmSduInfo :=
  ent.rxWindow.overwrite header.sn (storedInfo ent.rxWindow header payload)

/-- The segment completes its SDU, or its SN is in the reassembly window. -/
def keepsHighest : Bool :=
  (storedInfo ent.rxWindow header payload).fullyReceived || ent.snInReassemblyWindow header.sn

def highestAfter : Nat :=
  if ent.keepsHighest header payload then ent.st.rxNextHighest else (header.sn + 1) % ent.mod

/-- RX_Next_Reassembly, or the start of the moved reassembly window if it fell out of it. -/
def searchStart : Nat :=
  if ent.keepsHighest header payload ||
      (ent.setNextHighest header.sn).snInReassemblyWindow ent.st.rxNextReassembly then
    ent.st.rxNextReassembly
  else (header.sn + 1 + ent.umWindowSize) % ent.mod

def nextAfter : Nat :=
  firstMissing (ent.bufferAfter header payload) ent.mod (ent.searchStart header payload)
    (ent.highestAfter header payload)

/-- The state variables and the reception buffer as a segment leaves them, in closed form. -/
def edgesAfter : RlcRxUmEntity :=
  { ent with
    st :=
      { ent.st with
        rxNextReassembly := ent.nextAfter header payload
        rxNextHighest := ent.highestAfter header payload }
    rxWindow := ent.bufferAfter header payload }

def nextAfterExpiry : Nat :=
  firstMissing ent.rxWindow ent.mod
    (if ent.rxModBase ent.st.rxNextReassembly < ent.rxModBase ent.st.rxTimerTrigger then
      if ent.rxModBase ent.st.rxTimerTrigger < ent.rxModBase ent.st.rxNextHighest then
        ent.st.rxTimerTrigger
      else ent.st.rxNextHighest
    else ent.st.rxNextReassembly) ent.st.rxNextHighest

end ClosedForms

structure UmWindowOk (window : CircularMap RlcRxUmSduInfo) (m w : Nat) : Prop where
  capacity : window.capacity = w
  keys_lt : ∀ key info, window.get? key = some info → key < m
  infos : ∀ key info, window.get? key = some info → info.Inv

theorem UmWindowOk.overwrite {w key : Nat} {info : RlcRxUmSduInfo} (h : UmWindowOk window m w)
    (hkey : key < m) (hinfo : info.Inv) : UmWindowOk (window.overwrite key info) m w := by
  have hget : ∀ other found, (window.overwrite key info).get? other = some found →
      (other = key ∧ found = info) ∨ window.get? other = some found := by
    intro other found hfound
    rw [CircularMap.get?_overwrite] at hfound
    split at hfound
    · rename_i heq
      exact .inl ⟨heq, (Option.some.inj hfound).symm⟩
    · split at hfound
      · cases hfound
      · exact .inr hfound
  refine ⟨(CircularMap.capacity_overwrite _ _ _).trans h.capacity, ?_, ?_⟩
  · intro other found hfound
    rcases hget other found hfound with ⟨heq, -⟩ | hold
    · rw [heq]
      exact hkey
    · exact h.keys_lt other found hold
  · intro other found hfound
    rcases hget other found hfound with ⟨-, heq⟩ | hold
    · rw [heq]
      exact hinfo
    · exact h.infos other found hold

variable {window' : CircularMap RlcRxUmSduInfo}

theorem Erased.windowOk {w lo hi : Nat}
    (h : Erased window window' m lo hi) (hok : UmWindowOk window m w) : UmWindowOk window' m w where
  capacity := h.capacity.trans hok.capacity
  keys_lt := fun key info hget => hok.keys_lt key info (h.sub key info hget)
  infos := fun key info hget => hok.infos key info (h.sub key info hget)

/-- Order of the variables and content of the window. The counters start a turn above zero, so that
the start of the reassembly window is not negative. -/
structure UmWindowInv (window : CircularMap RlcRxUmSduInfo) (m w next highest : Nat) : Prop where
  ok : UmWindowOk window m w
  turn : m ≤ highest
  next_le : next ≤ highest
  highest_le : highest ≤ next + w
  next_missing : next < highest → fullyReceivedAt window (next % m) = false

structure RxUmInv (ent : RlcRxUmEntity) (next highest : Nat) : Prop where
  window : UmWindowInv ent.rxWindow ent.mod ent.umWindowSize next highest
  rxNextReassembly : ent.st.rxNextReassembly = next % ent.mod
  rxNextHighest : ent.st.rxNextHighest = highest % ent.mod
  trigger_lt : ent.st.rxTimerTrigger < ent.mod

theorem create_inv (cfg : RlcRxUmConfig) : RxUmInv (create cfg) (create cfg).mod (create cfg).mod where
  window :=
    { ok := ⟨rfl, fun _ _ hget => (nomatch hget), fun _ _ hget => (nomatch hget)⟩
      turn := le_rfl
      next_le := le_rfl
      highest_le := Nat.le_add_right _ _
      next_missing := fun h => absurd h (lt_irrefl _) }
  rxNextReassembly := (Nat.mod_self _).symm
  rxNextHighest := (Nat.mod_self _).symm
  trigger_lt := (create cfg).modulus.pos

def flagsAt (window : CircularMap RlcRxUmSduInfo) (sn : Nat) : Option (Bool × Bool) :=
  (window.get? sn).map fun info => (info.fullyReceived, info.hasGap)

section Flags
variable {window window' : CircularMap RlcRxUmSduInfo} {sn : Nat}

theorem flagsAt_congr (h : window'.get? sn = window.get? sn) :
    flagsAt window' sn = flagsAt window sn := by
  rw [flagsAt, h, flagsAt]

section
variable (h : flagsAt window' sn = flagsAt window sn)
include h

theorem fullyReceivedAt_of_flags : fullyReceivedAt window' sn = fullyReceivedAt window sn := by
  have hflags : ∀ w : CircularMap RlcRxUmSduInfo,
      fullyReceivedAt w sn = ((flagsAt w sn).map (·.1)).getD false := by
    intro w
    rw [fullyReceivedAt, flagsAt]
    cases w.get? sn <;> rfl
  rw [hflags, hflags, h]

theorem hasGapAt_of_flags : hasGapAt window' sn = hasGapAt window sn := by
  have hflags : ∀ w : CircularMap RlcRxUmSduInfo,
      hasGapAt w sn = ((flagsAt w sn).map (·.2)).getD false := by
    intro w
    rw [hasGapAt, flagsAt]
    cases w.get? sn <;> rfl
  rw [hflags, hflags, h]

theorem hasNoGapAt_of_flags : hasNoGapAt window' sn = hasNoGapAt window sn := by
  have hflags : ∀ w : CircularMap RlcRxUmSduInfo,
      hasNoGapAt w sn = ((flagsAt w sn).map fun flags => !flags.2).getD false := by
    intro w
    rw [hasNoGapAt, flagsAt]
    cases w.get? sn <;> rfl
  rw [hflags, hflags, h]

end

/-- Releasing the segments of the entry that was just written keeps all flags. -/
theorem flagsAt_overwrite_twice {key : Nat} {info info' : RlcRxUmSduInfo}
    (hfull : info'.fullyReceived = info.fullyReceived) (hgap : info'.hasGap = info.hasGap) :
    flagsAt ((window.overwrite key info).overwrite key info') sn =
      flagsAt (window.overwrite key info) sn := by
  have hidx : ∀ k, (window.overwrite key info).getCircularIdx k = window.getCircularIdx k := by
    intro k
    rw [CircularMap.getCircularIdx, CircularMap.capacity_overwrite, CircularMap.getCircularIdx]
  rw [flagsAt, flagsAt, CircularMap.get?_overwrite, CircularMap.get?_overwrite, hidx, hidx]
  split
  · simp only [Option.map_some, hfull, hgap]
  · split <;> rfl

end Flags

/-! What placing a segment does, before the timer is looked at. -/

structure BufferUpdate (ent : RlcRxUmEntity) (header : RlcUmPduHeader) (payload : List UInt8)
    (updated : RlcRxUmEntity) (next highest : Nat) : Prop where
  eq : updated =
    { ent with
      st := { ent.st with rxNextReassembly := next % ent.mod, rxNextHighest := highest % ent.mod }
      rxWindow := updated.rxWindow }
  window : UmWindowInv updated.rxWindow ent.mod ent.umWindowSize next highest
  rxNextHighest : highest % ent.mod = ent.highestAfter header payload
  rxNextReassembly : next % ent.mod = ent.nextAfter header payload
  flags : ∀ k, next < highest → next ≤ k → k ≤ next + 1 →
    flagsAt updated.rxWindow (k % ent.mod) =
      flagsAt (ent.bufferAfter header payload) (k % ent.mod)
  kept : ∀ k, next ≤ k → k < highest →
    flagsAt updated.rxWindow (k % ent.mod) =
      flagsAt (ent.bufferAfter header payload) (k % ent.mod)

section Stages
variable {ent : RlcRxUmEntity} {next highest : Nat} {header : RlcUmPduHeader} {payload : List UInt8}

theorem RxUmInv.bufferAfter_ok (h : RxUmInv ent next highest) (hsn : header.sn < ent.mod) :
    UmWindowOk (ent.bufferAfter header payload) ent.mod ent.umWindowSize :=
  h.window.ok.overwrite hsn (storedInfo_inv _ _ _)

theorem fullyReceivedAt_bufferAfter_self :
    fullyReceivedAt (ent.bufferAfter header payload) header.sn =
      (storedInfo ent.rxWindow header payload).fullyReceived := by
  rw [fullyReceivedAt, bufferAfter, CircularMap.get?_overwrite, if_pos rfl]

/-- The SDU at RX_Next_Reassembly stays incomplete unless the segment completes it. -/
theorem RxUmInv.next_missing_bufferAfter (h : RxUmInv ent next highest)
    (hself : header.sn = ent.st.rxNextReassembly →
      (storedInfo ent.rxWindow header payload).fullyReceived = false) (hlt : next < highest) :
    fullyReceivedAt (ent.bufferAfter header payload) (next % ent.mod) = false := by
  rw [← h.rxNextReassembly]
  by_cases heq : header.sn = ent.st.rxNextReassembly
  · rw [← heq, fullyReceivedAt_bufferAfter_self]
    exact hself heq
  · have hold := h.window.next_missing hlt
    rw [← h.rxNextReassembly] at hold
    rw [fullyReceivedAt, bufferAfter, CircularMap.get?_overwrite, if_neg (Ne.symm heq)]
    by_cases hslot : ent.rxWindow.getCircularIdx ent.st.rxNextReassembly =
        ent.rxWindow.getCircularIdx header.sn
    · rw [if_pos hslot]
    · rw [if_neg hslot]
      exact hold

variable {window : CircularMap RlcRxUmSduInfo}

/-- The variables stay when the segment does not move the window and RX_Next_Reassembly is still
incomplete. -/
theorem RxUmInv.update_stay (h : RxUmInv ent next highest)
    (hok : UmWindowOk window ent.mod ent.umWindowSize)
    (hflags : ∀ sn, flagsAt window sn = flagsAt (ent.bufferAfter header payload) sn)
    (hkeeps : ent.keepsHighest header payload = true)
    (hself : header.sn = ent.st.rxNextReassembly →
      (storedInfo ent.rxWindow header payload).fullyReceived = false ∨ next = highest) :
    BufferUpdate ent header payload { ent with rxWindow := window } next highest := by
  have hm := ent.mod_eq
  have hw := ent.two_le_umWindowSize
  have hle := h.window.next_le
  have hle' := h.window.highest_le
  have hnr := h.rxNextReassembly
  have hnh := h.rxNextHighest
  have hbuffer : next < highest →
      fullyReceivedAt (ent.bufferAfter header payload) (next % ent.mod) = false := by
    intro hlt
    refine RxUmInv.next_missing_bufferAfter h ?_ hlt
    intro heq
    rcases hself heq with hnot | hedge
    · exact hnot
    · omega
  have hstay : ReceivedRun (ent.bufferAfter header payload) ent.mod next next highest :=
    ReceivedRun.stay hle hbuffer
  refine ⟨?_, ⟨hok, h.window.turn, hle, hle', ?_⟩, ?_, ?_, fun k _ _ _ => hflags _,
    fun k _ _ => hflags _⟩
  · rw [← hnr, ← hnh]
  · intro hlt
    rw [fullyReceivedAt_of_flags (hflags _)]
    exact hbuffer hlt
  · rw [highestAfter, if_pos hkeeps, hnh]
  · rw [nextAfter, searchStart, highestAfter, hkeeps, Bool.true_or, if_pos rfl, if_pos rfl, hnr, hnh,
      hstay.firstMissing_eq ent.modulus (by omega)]

theorem RxUmInv.update_advance (h : RxUmInv ent next highest)
    (hok : UmWindowOk window ent.mod ent.umWindowSize)
    (hflags : ∀ sn, flagsAt window sn = flagsAt (ent.bufferAfter header payload) sn)
    (hkeeps : ent.keepsHighest header payload = true) :
    let placed : RlcRxUmEntity := { ent with rxWindow := window }
    ∃ next', next ≤ next' ∧ BufferUpdate ent header payload
      (placed.advanceNextReassembly ent.st.rxNextReassembly) next' highest := by
  intro placed
  have hm := ent.mod_eq
  have hw := ent.two_le_umWindowSize
  have hle := h.window.next_le
  have hle' := h.window.highest_le
  have hnr := h.rxNextReassembly
  have hnh := h.rxNextHighest
  have hturns : highest - next ≤ ent.mod := by omega
  obtain ⟨stop, hstop, hrun, herased⟩ :
      ∃ stop, (placed.releaseReceived ent.mod (next % ent.mod) window).1 = stop % ent.mod ∧
        ReceivedRun window ent.mod next stop highest ∧
        Erased window (placed.releaseReceived ent.mod (next % ent.mod) window).2 ent.mod next stop :=
    @releaseReceived_spec placed highest hnh h.window.turn ent.mod next window
      (Nat.sub_le_of_le_add hle') hle hturns
  have hbuffer : ReceivedRun (ent.bufferAfter header payload) ent.mod next stop highest := by
    refine ⟨hrun.start_le, hrun.le_limit, ?_, ?_⟩
    · intro k hk hk'
      rw [← fullyReceivedAt_of_flags (hflags _)]
      exact hrun.received k hk hk'
    · intro hlt
      rw [← fullyReceivedAt_of_flags (hflags _)]
      exact hrun.missing hlt
  have hstart := hrun.start_le
  have hlimit := hrun.le_limit
  have heq : placed.advanceNextReassembly ent.st.rxNextReassembly =
      { ent with
        st := { ent.st with rxNextReassembly := stop % ent.mod }
        rxWindow := (placed.releaseReceived ent.mod (next % ent.mod) window).2 } := by
    have hmod : ent.st.rxNextReassembly % ent.mod = next % ent.mod := by rw [hnr, Nat.mod_mod]
    rw [← hstop, ← hmod]
    exact if_pos rfl
  rw [heq]
  refine ⟨stop, hstart, ?_, ⟨herased.windowOk hok, h.window.turn, hlimit, by omega, ?_⟩, ?_, ?_, ?_,
    ?_⟩
  · rw [← hnh]
  · intro hlt
    exact (fullyReceivedAt_congr (herased.same stop le_rfl (by omega))).trans (hrun.missing hlt)
  · rw [highestAfter, if_pos hkeeps, hnh]
  · rw [nextAfter, searchStart, highestAfter, hkeeps, Bool.true_or, if_pos rfl, if_pos rfl, hnr, hnh,
      hbuffer.firstMissing_eq ent.modulus (by omega)]
  · intro k hlt hk hk'
    exact (flagsAt_congr (herased.same k hk (by omega))).trans (hflags _)
  · intro k hk hk'
    exact (flagsAt_congr (herased.same k hk (by omega))).trans (hflags _)

/-- Fully received SDUs occupy their slot: the SN a window below has no entry. -/
theorem flagsAt_turn_below {k lo hi : Nat}
    (hcap : window.capacity = ent.umWindowSize) (herased : Erased window window' ent.mod lo hi)
    (hrecv : fullyReceivedAt window (k % ent.mod) = true) :
    flagsAt window' ((k + ent.umWindowSize) % ent.mod) =
      flagsAt window ((k + ent.umWindowSize) % ent.mod) := by
  have hm := ent.mod_eq
  have hw := ent.two_le_umWindowSize
  obtain ⟨info, hinfo⟩ : ∃ info, window.get? (k % ent.mod) = some info := by
    rw [fullyReceivedAt] at hrecv
    split at hrecv
    · exact ⟨_, ‹_›⟩
    · cases hrecv
  have hslot : window.getCircularIdx ((k + ent.umWindowSize) % ent.mod) =
      window.getCircularIdx (k % ent.mod) := by
    rw [getCircularIdx_mod ent.shape hcap, getCircularIdx_mod ent.shape hcap, Nat.add_mod_right]
  have hne : (k + ent.umWindowSize) % ent.mod ≠ k % ent.mod := by
    intro heq
    have := mod_inj_of_near (by omega : k ≤ k + ent.umWindowSize) (by omega) le_rfl (by omega) heq
    omega
  have hnone := CircularMap.get?_eq_none_of_sameSlot hinfo hslot hne
  have hnone' : window'.get? ((k + ent.umWindowSize) % ent.mod) = none := by
    rw [Option.eq_none_iff_forall_ne_some]
    intro found hfound
    have hold := herased.sub _ found hfound
    rw [hnone] at hold
    cases hold
  exact flagsAt_congr (hnone'.trans hnone.symm)

theorem cleanReassemblyWindow_spec (hnr : ent.st.rxNextReassembly = next % ent.mod)
    (hnh : ent.st.rxNextHighest = highest % ent.mod) (hturn : ent.mod ≤ highest)
    (hlow : highest ≤ next + ent.mod) (hnext : next < highest) :
    ∃ stop window, ent.cleanReassemblyWindow.1 =
        { ent with
          st := { ent.st with rxNextReassembly := stop % ent.mod }
          rxWindow := window } ∧
      ReceivedRun ent.rxWindow ent.mod (max next (highest - ent.umWindowSize)) stop highest ∧
      Erased ent.rxWindow window ent.mod next stop := by
  have hm := ent.mod_eq
  have hw := ent.two_le_umWindowSize
  obtain ⟨hcleaned, herased⟩ := discardOutside_spec hnh hturn ent.rxWindow [] hlow
    (by omega : next ≤ highest - 1) (by omega : highest - ent.umWindowSize - next ≤ ent.mod)
  generalize hloop : ent.discardOutside ent.mod (next % ent.mod) ent.rxWindow [] = cleaned
    at hcleaned herased
  generalize hstart : max next (highest - ent.umWindowSize) = start at hcleaned herased
  obtain ⟨stop, hstop, hrun, herased'⟩ := @releaseReceived_spec ent highest hnh hturn ent.mod start
    cleaned.2.1 (by omega) (by omega) (by omega)
  have hstart_le := hrun.start_le
  have hlimit := hrun.le_limit
  refine ⟨stop, (ent.releaseReceived ent.mod cleaned.1 cleaned.2.1).2, ?_, ?_, ?_⟩
  · rw [cleanReassemblyWindow, hnr, Nat.mod_mod, hloop, hcleaned, hstop]
  · refine ⟨hstart_le, hlimit, ?_, ?_⟩
    · intro k hk hk'
      rw [← fullyReceivedAt_congr (herased.same k hk (by omega))]
      exact hrun.received k hk hk'
    · intro hlt
      rw [← fullyReceivedAt_congr (herased.same stop hstart_le (by omega))]
      exact hrun.missing hlt
  · rw [hcleaned]
    exact herased.trans herased' (by omega) hstart_le

/-- The segment is above the reassembly window, which moves up to it. -/
theorem RxUmInv.update_move (h : RxUmInv ent next highest) {x : Nat} (hx : highest ≤ x)
    (hx' : x < highest + ent.umWindowSize) (hsn : header.sn = x % ent.mod)
    (hkeeps : ent.keepsHighest header payload = false) :
    let placed : RlcRxUmEntity := { ent with rxWindow := ent.bufferAfter header payload }
    ∃ next', next ≤ next' ∧ BufferUpdate ent header payload
      (placed.setNextHighest header.sn).cleanReassemblyWindow.1 next' (x + 1) := by
  intro placed
  have hm := ent.mod_eq
  have hw := ent.two_le_umWindowSize
  have hturn := h.window.turn
  have hle := h.window.next_le
  have hle' := h.window.highest_le
  have hsucc : (header.sn + 1) % ent.mod = (x + 1) % ent.mod := by rw [hsn, succ_mod_mod]
  have hok : UmWindowOk (ent.bufferAfter header payload) ent.mod ent.umWindowSize :=
    h.bufferAfter_ok (by
      rw [hsn]
      exact Nat.mod_lt _ ent.modulus.pos)
  obtain ⟨stop, window, heq, hrun, herased⟩ :
      ∃ stop window, (placed.setNextHighest header.sn).cleanReassemblyWindow.1 =
          { placed.setNextHighest header.sn with
            st := { (placed.setNextHighest header.sn).st with rxNextReassembly := stop % ent.mod }
            rxWindow := window } ∧
        ReceivedRun (ent.bufferAfter header payload) ent.mod
          (max next (x + 1 - ent.umWindowSize)) stop (x + 1) ∧
        Erased (ent.bufferAfter header payload) window ent.mod next stop :=
    @cleanReassemblyWindow_spec (placed.setNextHighest header.sn) next (x + 1) h.rxNextReassembly hsucc
      (Nat.le_succ_of_le (hturn.trans hx)) (by
        show x + 1 ≤ next + ent.mod
        omega) (by omega)
  have hstart := hrun.start_le
  have hlimit := hrun.le_limit
  have hinside : (ent.setNextHighest header.sn).snInReassemblyWindow ent.st.rxNextReassembly =
      decide (x + 1 - ent.umWindowSize ≤ next) := by
    rw [h.rxNextReassembly]
    by_cases hlow : x + 1 - ent.umWindowSize ≤ next
    · rw [decide_eq_true hlow]
      exact (@snInReassemblyWindow_lift (ent.setNextHighest header.sn) (x + 1) next hsucc
        (Nat.le_succ_of_le (hturn.trans hx)) hlow (by omega)).trans (decide_eq_true (by omega))
    · rw [decide_eq_false hlow]
      exact @snInReassemblyWindow_below (ent.setNextHighest header.sn) (x + 1) next hsucc
        (Nat.le_succ_of_le (hturn.trans hx)) (by
          show x + 1 ≤ next + ent.mod
          omega) (Nat.lt_of_not_le hlow)
  rw [heq]
  refine ⟨stop, by omega, ?_, ⟨herased.windowOk hok, by omega, hlimit, by omega, ?_⟩, ?_, ?_, ?_, ?_⟩
  · rw [← hsucc]
    rfl
  · intro hlt
    exact (fullyReceivedAt_congr (herased.same stop le_rfl (by omega))).trans (hrun.missing hlt)
  · rw [highestAfter, hkeeps, if_neg (by simp), hsucc]
  · have hsearch : ent.searchStart header payload =
        max next (x + 1 - ent.umWindowSize) % ent.mod := by
      rw [searchStart, hkeeps, Bool.false_or, hinside]
      by_cases hlow : x + 1 - ent.umWindowSize ≤ next
      · rw [if_pos (decide_eq_true hlow), h.rxNextReassembly, max_eq_left hlow]
      · have hturned : x + 1 + ent.umWindowSize = x + 1 - ent.umWindowSize + ent.mod := by omega
        rw [if_neg (by simpa using hlow), max_eq_right (by omega), Nat.add_mod, hsucc, ← Nat.add_mod,
          hturned, Nat.add_mod_right]
    rw [nextAfter, hsearch, highestAfter, hkeeps, if_neg (by simp), hsucc,
      hrun.firstMissing_eq ent.modulus (by omega)]
  · intro k hlt hk hk'
    by_cases hnear : k < next + ent.mod
    · exact flagsAt_congr (herased.same k hk hnear)
    · -- the window has moved a whole turn above RX_Next_Reassembly
      have hedge : k = next + ent.umWindowSize + ent.umWindowSize := by omega
      rw [hedge]
      exact flagsAt_turn_below hok.capacity herased (hrun.received _ (by omega) (by omega))
  · intro k hk hk'
    exact flagsAt_congr (herased.same k hk (by omega))

theorem handleSegmentDataSdu_eq (hsi : header.si ≠ .fullSdu) :
    ent.handleSegmentDataSdu header payload =
      { ent with rxWindow := ent.bufferAfter header payload } := by
  rw [handleSegmentDataSdu, if_neg hsi]
  rfl

/-- The reception buffer with the segments of the completed SDU released. -/
def deliveredBuffer (ent : RlcRxUmEntity) (header : RlcUmPduHeader) (payload : List UInt8) :
    CircularMap RlcRxUmSduInfo :=
  (ent.bufferAfter header payload).overwrite header.sn
    { storedInfo ent.rxWindow header payload with segments := [] }

theorem releaseSegments_eq {placed : RlcRxUmEntity}
    (hplaced : { ent with rxWindow := ent.bufferAfter header payload } = placed) :
    placed.releaseSegments header.sn =
      { ent with rxWindow := ent.deliveredBuffer header payload } := by
  have hinfo : placed.sduInfo header.sn = storedInfo ent.rxWindow header payload := by
    rw [sduInfo, ← hplaced]
    show ((ent.bufferAfter header payload).get? header.sn).getD {} = _
    rw [bufferAfter, CircularMap.get?_overwrite, if_pos rfl, Option.getD_some]
  rw [releaseSegments, hinfo, ← hplaced]
  rfl

theorem flagsAt_deliveredBuffer (sn : Nat) :
    flagsAt (ent.deliveredBuffer header payload) sn = flagsAt (ent.bufferAfter header payload) sn :=
  flagsAt_overwrite_twice rfl rfl

theorem RxUmInv.deliveredBuffer_ok (h : RxUmInv ent next highest) (hsn : header.sn < ent.mod)
    (hfull : (storedInfo ent.rxWindow header payload).fullyReceived = true) :
    UmWindowOk (ent.deliveredBuffer header payload) ent.mod ent.umWindowSize := by
  apply (h.bufferAfter_ok hsn).overwrite hsn
  refine ⟨(storedInfo_inv ent.rxWindow header payload).noGap, fun hnot => ?_⟩
  have hnot' : (storedInfo ent.rxWindow header payload).fullyReceived = false := hnot
  rw [hfull] at hnot'
  cases hnot'

theorem RxUmInv.updateRxBuffer (h : RxUmInv ent next highest) (hsi : header.si ≠ .fullSdu)
    (hsn : header.sn < ent.mod) :
    ∃ next' highest', next ≤ next' ∧ highest ≤ highest' ∧ highest' ≤ highest + ent.umWindowSize ∧
      BufferUpdate ent header payload
        ((ent.handleSegmentDataSdu header payload).updateRxBuffer header.sn).1 next' highest' := by
  have hm := ent.mod_eq
  rw [handleSegmentDataSdu_eq hsi]
  generalize hplaced : ({ ent with rxWindow := ent.bufferAfter header payload } : RlcRxUmEntity) =
    placed
  have hok : UmWindowOk (ent.bufferAfter header payload) ent.mod ent.umWindowSize :=
    h.bufferAfter_ok hsn
  have hself : fullyReceivedAt placed.rxWindow header.sn =
      (storedInfo ent.rxWindow header payload).fullyReceived := by
    rw [← hplaced]
    exact fullyReceivedAt_bufferAfter_self
  have hwindow : placed.snInReassemblyWindow header.sn = ent.snInReassemblyWindow header.sn := by
    rw [← hplaced]
    rfl
  rw [RlcRxUmEntity.updateRxBuffer, hself, hwindow]
  by_cases hfull : (storedInfo ent.rxWindow header payload).fullyReceived = true
  · -- the SDU is delivered
    have hkeeps : ent.keepsHighest header payload = true := by rw [keepsHighest, hfull, Bool.true_or]
    have hok' := h.deliveredBuffer_ok hsn hfull
    rw [if_pos hfull, releaseSegments_eq hplaced]
    by_cases hnext : header.sn = ent.st.rxNextReassembly
    · obtain ⟨next', hle, hupdate⟩ := h.update_advance hok' flagsAt_deliveredBuffer hkeeps
      rw [hnext]
      exact ⟨next', highest, hle, le_rfl, Nat.le_add_right _ _, hupdate⟩
    · rw [advanceNextReassembly, if_neg hnext]
      exact ⟨next, highest, le_rfl, le_rfl, Nat.le_add_right _ _,
        h.update_stay hok' flagsAt_deliveredBuffer hkeeps fun heq => absurd heq hnext⟩
  · rw [if_neg hfull]
    rw [Bool.not_eq_true] at hfull
    by_cases hinside : ent.snInReassemblyWindow header.sn = true
    · have hkeeps : ent.keepsHighest header payload = true := by
        rw [keepsHighest, hinside, Bool.or_true]
      rw [hinside, if_neg (by simp), ← hplaced]
      exact ⟨next, highest, le_rfl, le_rfl, Nat.le_add_right _ _,
        h.update_stay hok (fun _ => rfl) hkeeps fun _ => .inl hfull⟩
    · rw [Bool.not_eq_true] at hinside
      have hkeeps : ent.keepsHighest header payload = false := by
        rw [keepsHighest, hinside, hfull, Bool.or_false]
      obtain ⟨x, hlow, hhigh, hx⟩ :=
        exists_lift ent.modulus (highest - ent.umWindowSize) hsn
      have hturn := h.window.turn
      have habove : highest ≤ x := by
        rw [hx, snInReassemblyWindow_lift h.rxNextHighest hturn hlow (by omega)] at hinside
        exact Nat.le_of_not_lt (of_decide_eq_false hinside)
      obtain ⟨next', hle, hupdate⟩ := h.update_move habove (by omega) hx hkeeps
      rw [hinside, Bool.not_false, if_pos rfl, ← hplaced]
      exact ⟨next', x + 1, hle, by omega, by omega, hupdate⟩

structure ExpiryUpdate (ent updated : RlcRxUmEntity) (next highest : Nat) : Prop where
  eq : updated =
    { ent with
      st := { ent.st with rxNextReassembly := next % ent.mod }
      rxWindow := updated.rxWindow }
  window : UmWindowInv updated.rxWindow ent.mod ent.umWindowSize next highest
  rxNextReassembly : next % ent.mod = ent.nextAfterExpiry
  flags : ∀ k, next < highest → next ≤ k → k ≤ next + 1 →
    flagsAt updated.rxWindow (k % ent.mod) = flagsAt ent.rxWindow (k % ent.mod)
  kept : ∀ k, next ≤ k → k < highest →
    flagsAt updated.rxWindow (k % ent.mod) = flagsAt ent.rxWindow (k % ent.mod)

theorem RxUmInv.cleanExpired (h : RxUmInv ent next highest) :
    ∃ next', next ≤ next' ∧ ExpiryUpdate ent ent.cleanExpired.1 next' highest := by
  have hm := ent.mod_eq
  have hw := ent.two_le_umWindowSize
  have hturn := h.window.turn
  have hle := h.window.next_le
  have hle' := h.window.highest_le
  have hnr := h.rxNextReassembly
  have hnh := h.rxNextHighest
  obtain ⟨trigger, htlow, hthigh, htrigger⟩ :=
    exists_lift ent.modulus (highest - ent.umWindowSize) h.trigger_lt
  obtain ⟨stop, hstop, hrun, herased⟩ := releaseExpired_spec hnh hturn htrigger htlow (by omega)
    ent.rxWindow [] (by omega : highest - ent.umWindowSize ≤ next) hle
    (by omega : highest - next ≤ ent.mod)
  have hstart := hrun.start_le
  have hlimit := hrun.le_limit
  refine ⟨stop, by omega, ?_, ⟨?_, hturn, hlimit, by omega, ?_⟩, ?_, ?_, ?_⟩
  · rw [RlcRxUmEntity.cleanExpired, hnr, hstop]
  · rw [RlcRxUmEntity.cleanExpired, hnr]
    exact herased.windowOk h.window.ok
  · intro hlt
    rw [RlcRxUmEntity.cleanExpired, hnr]
    exact (fullyReceivedAt_congr (herased.same stop le_rfl (by omega))).trans (hrun.missing hlt)
  · have hsearch : (if ent.rxModBase ent.st.rxNextReassembly < ent.rxModBase ent.st.rxTimerTrigger then
          if ent.rxModBase ent.st.rxTimerTrigger < ent.rxModBase ent.st.rxNextHighest then
            ent.st.rxTimerTrigger
          else ent.st.rxNextHighest
        else ent.st.rxNextReassembly) = max next (min trigger highest) % ent.mod := by
      rw [rxModBase_highest hnh hturn, hnr, htrigger, rxModBase_lift hnh hturn htlow (by omega),
        rxModBase_lift hnh hturn (by omega) (by omega), hnh]
      split
      · split
        · rw [min_eq_left (by omega), max_eq_right (by omega)]
        · rw [min_eq_right (by omega), max_eq_right hle]
      · rw [max_eq_left (by omega)]
    rw [nextAfterExpiry, hsearch, hnh, hrun.firstMissing_eq ent.modulus (by omega)]
  · intro k hlt hk hk'
    rw [RlcRxUmEntity.cleanExpired, hnr]
    exact flagsAt_congr (herased.same k hk (by omega))
  · intro k hk hk'
    rw [RlcRxUmEntity.cleanExpired, hnr]
    exact flagsAt_congr (herased.same k hk (by omega))

end Stages

section Events
variable {ent ent' : RlcRxUmEntity} {next highest : Nat}

variable {actions : List TimerAction}

section
variable (h : ent.restartReassemblyTimer = .ok (ent', actions))
include h

theorem restartReassemblyTimer_cases : (ent.mustStartTimer = true ∧ actions = [.run] ∧ ent' =
      { ent with
        reassemblyTimerRunning := true
        st := { ent.st with rxTimerTrigger := ent.st.rxNextHighest } }) ∨
    (ent.mustStartTimer = false ∧ actions = [] ∧ ent' = ent) := by
  unfold restartReassemblyTimer at h
  split at h
  · unfold runReassemblyTimer at h
    split at h
    · cases h
    · cases h
      exact .inl ⟨‹_›, rfl, rfl⟩
  · rename_i hstart
    cases h
    exact .inr ⟨by simpa using hstart, rfl, rfl⟩

theorem cfg_restartReassemblyTimer : ent'.cfg = ent.cfg := by
  rcases restartReassemblyTimer_cases h with ⟨-, -, rfl⟩ | ⟨-, -, rfl⟩
  · rfl
  · rfl

theorem rxWindow_restartReassemblyTimer : ent'.rxWindow = ent.rxWindow := by
  rcases restartReassemblyTimer_cases h with ⟨-, -, rfl⟩ | ⟨-, -, rfl⟩
  · rfl
  · rfl

end

theorem RxUmInv.restartReassemblyTimer (h : RxUmInv ent next highest)
    (hok : ent.restartReassemblyTimer = .ok (ent', actions)) : RxUmInv ent' next highest := by
  rcases restartReassemblyTimer_cases hok with ⟨-, -, rfl⟩ | ⟨-, -, rfl⟩
  · refine ⟨h.window, h.rxNextReassembly, h.rxNextHighest, ?_⟩
    show ent.st.rxNextHighest < ent.mod
    rw [h.rxNextHighest]
    exact Nat.mod_lt _ ent.modulus.pos
  · exact h

theorem stopReassemblyTimer_fst : ent.stopReassemblyTimer.1 =
    { ent with reassemblyTimerRunning := ent.reassemblyTimerRunning && !ent.mustStopTimer } := by
  unfold stopReassemblyTimer
  cases hrun : ent.reassemblyTimerRunning with
  | false =>
    rw [Bool.false_and, Bool.false_and, if_neg (by simp), ← hrun]
  | true =>
    cases hstop : ent.mustStopTimer with
    | true => rfl
    | false =>
      rw [Bool.true_and, Bool.true_and, if_neg (by simp), Bool.not_false, ← hrun]

section
variable (h : ent.updateReassemblyTimer = .ok (ent', actions))
include h

/-- After a reception the timer runs on, or it is started as the restart condition says. -/
theorem updateReassemblyTimer_cases :
    (ent.reassemblyTimerRunning = true ∧ ent.mustStopTimer = false ∧ ent' = ent) ∨
    ((ent.reassemblyTimerRunning = false ∨ ent.mustStopTimer = true) ∧ ∃ started,
      restartReassemblyTimer { ent with reassemblyTimerRunning := false } = .ok (ent', started)) := by
  obtain ⟨⟨timed, started⟩, hstart, hok⟩ := bind_ok h
  cases hok
  rw [stopReassemblyTimer_fst, startReassemblyTimer] at hstart
  cases hrun : ent.reassemblyTimerRunning with
  | false =>
    rw [hrun, Bool.false_and, if_neg (by simp)] at hstart
    exact .inr ⟨.inl rfl, started, hstart⟩
  | true =>
    cases hstop : ent.mustStopTimer with
    | true =>
      rw [hrun, hstop, Bool.not_true, Bool.and_false, if_neg (by simp)] at hstart
      exact .inr ⟨.inr rfl, started, hstart⟩
    | false =>
      rw [hrun, hstop, Bool.not_false, Bool.and_true, if_pos rfl] at hstart
      cases hstart
      refine .inl ⟨rfl, rfl, ?_⟩
      rw [← hrun]

theorem cfg_updateReassemblyTimer : ent'.cfg = ent.cfg := by
  rcases updateReassemblyTimer_cases h with ⟨-, -, rfl⟩ | ⟨-, started, hstarted⟩
  · rfl
  · have hcfg := cfg_restartReassemblyTimer hstarted
    exact hcfg

theorem rxWindow_updateReassemblyTimer : ent'.rxWindow = ent.rxWindow := by
  rcases updateReassemblyTimer_cases h with ⟨-, -, rfl⟩ | ⟨-, started, hstarted⟩
  · rfl
  · have hwindow := rxWindow_restartReassemblyTimer hstarted
    exact hwindow

end

theorem RxUmInv.setTimer (h : RxUmInv ent next highest) (running : Bool) :
    RxUmInv { ent with reassemblyTimerRunning := running } next highest :=
  { h with }

theorem RxUmInv.updateReassemblyTimer (h : RxUmInv ent next highest)
    (hok : ent.updateReassemblyTimer = .ok (ent', actions)) : RxUmInv ent' next highest := by
  rcases updateReassemblyTimer_cases hok with ⟨-, -, rfl⟩ | ⟨-, started, hstarted⟩
  · exact h
  · exact (h.setTimer false).restartReassemblyTimer hstarted

/-- Two residues within a window of each other, one right above the other. -/
theorem highest_eq_succ (hle : next ≤ highest) (hle' : highest ≤ next + ent.umWindowSize)
    (h : highest % ent.mod = (next + 1) % ent.mod) : highest = next + 1 := by
  have hm := ent.mod_eq
  have hw := ent.two_le_umWindowSize
  exact mod_inj_of_near hle (by omega) (Nat.le_succ next) (by omega) h

variable {header : RlcUmPduHeader} {payload : List UInt8}

section
variable (h : BufferUpdate ent header payload ent' next highest)
include h

/-- The stop conditions on the updated entity are those on the closed form. -/
theorem BufferUpdate.mustStopTimer_eq :
    ent'.mustStopTimer = (ent.edgesAfter header payload).mustStopTimer := by
  have hflag : (highest % ent.mod == next % ent.mod + 1 &&
      hasNoGapAt ent'.rxWindow (highest % ent.mod)) =
      (highest % ent.mod == next % ent.mod + 1 &&
        hasNoGapAt (ent.bufferAfter header payload) (highest % ent.mod)) := by
    by_cases hsucc : highest % ent.mod = next % ent.mod + 1
    · have hedge : highest = next + 1 := by
        refine highest_eq_succ h.window.next_le h.window.highest_le ?_
        rw [← succ_mod_mod, ← hsucc, Nat.mod_mod]
      have hflags := h.flags highest (by omega) (by omega) (by omega)
      rw [hasNoGapAt_of_flags hflags]
    · rw [beq_false_of_ne hsucc, Bool.false_and, Bool.false_and]
  rw [h.eq]
  unfold mustStopTimer edgesAfter
  rw [← h.rxNextHighest, ← h.rxNextReassembly]
  exact congrArg (_ || ·) hflag

theorem BufferUpdate.inv (htrigger : ent.st.rxTimerTrigger < ent.mod) : RxUmInv ent' next highest := by
  rw [h.eq]
  exact ⟨h.window, rfl, rfl, htrigger⟩

theorem BufferUpdate.cfg_eq : ent'.cfg = ent.cfg := by rw [h.eq]

end

theorem ExpiryUpdate.cfg_eq (h : ExpiryUpdate ent ent' next highest) : ent'.cfg = ent.cfg := by
  rw [h.eq]

theorem ExpiryUpdate.inv (h : ExpiryUpdate ent ent' next highest)
    (hnh : ent.st.rxNextHighest = highest % ent.mod) (htrigger : ent.st.rxTimerTrigger < ent.mod) :
    RxUmInv ent' next highest := by
  rw [h.eq]
  exact ⟨h.window, rfl, hnh, htrigger⟩

/-- The segment that a PDU brings into the reception buffer; other PDUs leave the entity alone. -/
def acceptedSegment (ent : RlcRxUmEntity) (pdu : List UInt8) :
    Option (RlcUmPduHeader × List UInt8) :=
  match rlcUmReadDataPduHeader pdu ent.cfg.snFieldLength with
  | none => none
  | some header =>
    if pdu.length ≤ rlcUmNrPackedLength header ∨ header.si = .fullSdu ∨
        ent.snInvalidForRxBuffer header.sn = true then none
    else some (header, pdu.drop (rlcUmNrPackedLength header))

variable {pdu : List UInt8}

theorem acceptedSegment_some (h : ent.acceptedSegment pdu = some (header, payload)) :
    rlcUmReadDataPduHeader pdu ent.cfg.snFieldLength = some header ∧
      ¬ pdu.length ≤ rlcUmNrPackedLength header ∧ header.si ≠ .fullSdu ∧
      ¬ ent.snInvalidForRxBuffer header.sn = true ∧ pdu.drop (rlcUmNrPackedLength header) = payload := by
  rw [acceptedSegment] at h
  cases hread : rlcUmReadDataPduHeader pdu ent.cfg.snFieldLength with
  | none =>
    rw [hread] at h
    cases h
  | some found =>
    rw [hread] at h
    dsimp only at h
    split at h
    · cases h
    · rename_i hnot
      rw [not_or, not_or] at hnot
      cases h
      exact ⟨rfl, hnot.1, hnot.2.1, hnot.2.2, rfl⟩

theorem acceptedSegment_range (h : ent.acceptedSegment pdu = some (header, payload)) :
    header.si ≠ .fullSdu ∧ header.sn < ent.mod :=
  have hsome := acceptedSegment_some h
  ⟨hsome.2.2.1, (rlcUmReadDataPduHeader_range hsome.1).2⟩

theorem handlePdu_accepted (h : ent.acceptedSegment pdu = some (header, payload)) :
    ent.handlePdu pdu = ent.receiveSegment header payload := by
  obtain ⟨hread, hlength, hsegment, hvalid, rfl⟩ := acceptedSegment_some h
  rw [handlePdu, hread]
  dsimp only
  rw [if_neg hlength, handleParsedPdu, if_neg hsegment, if_neg hvalid]

theorem handlePdu_discarded (h : ent.acceptedSegment pdu = none) :
    ∃ sdus, ent.handlePdu pdu = .ok (ent, { sdus }) := by
  rw [acceptedSegment] at h
  rw [handlePdu]
  cases hread : rlcUmReadDataPduHeader pdu ent.cfg.snFieldLength with
  | none => exact ⟨[], rfl⟩
  | some header =>
    rw [hread] at h
    dsimp only at h ⊢
    split
    · exact ⟨[], rfl⟩
    · rename_i hlen
      rw [handleParsedPdu]
      split
      · exact ⟨_, rfl⟩
      · rename_i hsi
        split
        · exact ⟨[], rfl⟩
        · rename_i hvalid
          rw [if_neg (by
            rw [not_or, not_or]
            exact ⟨hlen, hsi, hvalid⟩)] at h
          cases h

theorem RxUmInv.receiveSegment (h : RxUmInv ent next highest) (hsi : header.si ≠ .fullSdu)
    (hsn : header.sn < ent.mod) {output : RxUmOutput}
    (hok : ent.receiveSegment header payload = .ok (ent', output)) :
    ∃ next' highest' updated actions, next ≤ next' ∧ highest ≤ highest' ∧
      highest' ≤ highest + ent.umWindowSize ∧
      BufferUpdate ent header payload updated next' highest' ∧
      updated.updateReassemblyTimer = .ok (ent', actions) := by
  obtain ⟨⟨timed, actions⟩, htimed, heq⟩ := bind_ok hok
  cases heq
  obtain ⟨next', highest', hle, hle', hbound, hupdate⟩ := h.updateRxBuffer hsi hsn
  exact ⟨next', highest', _, actions, hle, hle', hbound, hupdate, htimed⟩

/-- Every event keeps the order of the variables; they only move forward. -/
theorem RxUmInv.step (h : RxUmInv ent next highest) {event : Event} {output : RxUmOutput}
    (hok : ent.step event = .ok (ent', output)) :
    ent'.cfg = ent.cfg ∧
      ∃ next' highest', next ≤ next' ∧ highest ≤ highest' ∧ RxUmInv ent' next' highest' := by
  cases event with
  | pdu pdu =>
    change ent.handlePdu pdu = _ at hok
    cases hseg : ent.acceptedSegment pdu with
    | none =>
      obtain ⟨sdus, heq⟩ := handlePdu_discarded hseg
      rw [heq] at hok
      cases hok
      exact ⟨rfl, next, highest, le_rfl, le_rfl, h⟩
    | some segment =>
      obtain ⟨header, payload⟩ := segment
      obtain ⟨hsi, hsn⟩ := acceptedSegment_range hseg
      rw [handlePdu_accepted hseg] at hok
      obtain ⟨next', highest', updated, actions, hle, hle', -, hupdate, htimed⟩ :=
        h.receiveSegment hsi hsn hok
      exact ⟨(cfg_updateReassemblyTimer htimed).trans hupdate.cfg_eq, next', highest', hle, hle',
        (hupdate.inv h.trigger_lt).updateReassemblyTimer htimed⟩
  | reassemblyTimerExpired =>
    change ent.expireReassemblyTimer = _ at hok
    rw [expireReassemblyTimer] at hok
    split at hok
    · obtain ⟨⟨timed, actions⟩, htimed, heq⟩ := bind_ok hok
      cases heq
      obtain ⟨next', hle, hupdate⟩ := (h.setTimer false).cleanExpired
      exact ⟨(cfg_restartReassemblyTimer htimed).trans hupdate.cfg_eq, next', highest, hle, le_rfl,
        (hupdate.inv h.rxNextHighest h.trigger_lt).restartReassemblyTimer htimed⟩
    · cases hok
      exact ⟨rfl, next, highest, le_rfl, le_rfl, h⟩

end Events

theorem next_eq_some {ent ent' : RlcRxUmEntity} {event : Event} (h : ent.next event = some ent') :
    ∃ output, ent.step event = .ok (ent', output) := by
  unfold next at h
  cases hstep : ent.step event with
  | error e =>
    rw [hstep] at h
    cases h
  | ok result =>
    rw [hstep] at h
    cases h
    exact ⟨result.2, rfl⟩

theorem reaches_inv {cfg : RlcRxUmConfig} {guard : RlcRxUmEntity → Event → Prop}
    {ent : RlcRxUmEntity} (h : Runs.Reaches next guard (create cfg) ent) :
    ent.cfg = cfg ∧ ∃ next highest, RxUmInv ent next highest := by
  induction h with
  | start => exact ⟨rfl, _, _, create_inv cfg⟩
  | next _ _ hstep ih =>
    obtain ⟨hcfg, n, highest, hinv⟩ := ih
    obtain ⟨output, hok⟩ := next_eq_some hstep
    obtain ⟨hsame, n', highest', -, -, hinv'⟩ := hinv.step hok
    exact ⟨hsame.trans hcfg, n', highest', hinv'⟩

end RlcRxUmEntity
end Srsran.Rlc
