import Srsran.Pdcp.StatusReport

/-! The window of the transmitting PDCP entity as its discard timer sees it: arrivals in the order of
the COUNTs, from TX_NEXT_ACK to TX_NEXT. -/
namespace Srsran.Pdcp
open Srsran.Adt Checked

structure DiscardView where
  cfg : PdcpTxConfig
  stopped : Bool
  txNextAck : Nat
  txNext : Nat
  timer : DiscardTimer
  capacity : Nat
  arrivals : Nat → Option (Option Nat)

namespace PdcpEntityTx
variable {ent ent' : PdcpEntityTx}

def view (ent : PdcpEntityTx) : DiscardView where
  cfg := ent.cfg
  stopped := ent.stopped
  txNextAck := ent.st.txNextAck
  txNext := ent.st.txNext
  timer := ent.discardTimer
  capacity := ent.txWindow.txWindow.capacity
  arrivals := fun count => (ent.txWindow.get? count).map PdcpTxWindowElement.tickPointOfArrival

/-- The arrival of the SDU with a COUNT, if it is in the window and has one. -/
def arrivalOf (ent : PdcpEntityTx) (count : Nat) : Option Nat :=
  (ent.txWindow.get? count).bind PdcpTxWindowElement.tickPointOfArrival

theorem view_arrivals (count : Nat) : ent.view.arrivals count =
    (ent.txWindow.get? count).map PdcpTxWindowElement.tickPointOfArrival := rfl

variable {count : Nat}

theorem arrivalOf_eq_some {tick : Nat} :
    ent.arrivalOf count = some tick ↔ ent.view.arrivals count = some (some tick) := by
  rw [arrivalOf, view_arrivals]
  cases ent.txWindow.get? count with
  | none => simp
  | some elem => simp

theorem arrivals_of_get? {elem : PdcpTxWindowElement} (h : ent.txWindow.get? count = some elem) :
    ent.view.arrivals count = some elem.tickPointOfArrival := by
  rw [view_arrivals, h]
  rfl

theorem get?_of_arrivals {arrival : Option Nat} (h : ent.view.arrivals count = some arrival) :
    ∃ elem, ent.txWindow.get? count = some elem ∧ elem.tickPointOfArrival = arrival :=
  Option.map_eq_some_iff.mp h

theorem SameWindow.view (h : SameWindow ent ent') : ent'.view = ent.view := by
  rw [PdcpEntityTx.view, h.cfg, h.stopped, h.st, h.discardTimer, h.window]
  rfl

theorem Rewritten.view (h : Rewritten ent ent')
    (htimer : ent'.discardTimer = ent.discardTimer) : ent'.view = ent.view := by
  rw [PdcpEntityTx.view, h.cfg, h.stopped, h.txNextAck, h.txNext, htimer, h.capacity,
    funext h.window]
  rfl

/-! Conditions on the state in which a step is taken. -/

/-- The SDUs from a COUNT on have their deadlines ahead. -/
def AheadFrom (ent : PdcpEntityTx) (now first : Nat) : Prop :=
  ∀ count, count < ent.st.txNext → first ≤ count →
    (ent.arrivalOf count).all (fun arrival => now < arrival + ent.cfg.discardTicks) = true

/-- What stays in the window when the SDUs up to a COUNT are taken away has its deadlines ahead. -/
def StopsInTime (ent : PdcpEntityTx) (now highestCount : Nat) : Prop :=
  ent.st.txNextAck ≤ highestCount → ent.AheadFrom now (highestCount + 1)

/-- The report leaves the oldest SDU, or one that arrived together with it, in the window. -/
def KeepsOldest (ent : PdcpEntityTx) (status : List UInt8) : Prop :=
  match decodeStatusReport status with
  | none => True
  | some (fmc, bits) =>
    (ent.arrivalOf ent.st.txNextAck).isSome = true →
      ∃ count, count < ent.st.txNext ∧ ¬Reports fmc bits count ∧
        ent.arrivalOf count = ent.arrivalOf ent.st.txNextAck

def ArrivedTogether (ent : PdcpEntityTx) : Prop :=
  ∀ count, count < ent.st.txNext → ent.arrivalOf count ≠ none →
    ent.arrivalOf count = ent.arrivalOf ent.st.txNextAck

/-- The next SDUs of an SRB, whose window is not checked, find free slots. -/
def RoomInWindow (ent : PdcpEntityTx) (nofSdus : Nat) : Prop :=
  ent.cfg.isSrb = true → ent.stopped = false → ent.st.txNext < ent.cfg.maxCount.hard →
    ent.st.txNext + nofSdus ≤ ent.st.txNextAck + pdcpWindowSize ent.cfg.snSize

/-- The COUNT at which PDUs are released after the crypto reordering timeout. -/
def resumeCount (ent : PdcpEntityTx) : Nat :=
  (ent.st.txTransCrypto + countDistance ent.st.txTransCrypto ent.st.txReordCrypto) % 2 ^ 32

def notifiesItself (ent : PdcpEntityTx) : Bool := ent.cfg.testMode && ent.cfg.isUm

instance {now first : Nat} : Decidable (AheadFrom ent now first) :=
  inferInstanceAs (Decidable (∀ count, count < ent.st.txNext → _))

instance {now highestCount : Nat} : Decidable (StopsInTime ent now highestCount) :=
  inferInstanceAs (Decidable (_ → _))

instance {status : List UInt8} : Decidable (KeepsOldest ent status) := by
  unfold KeepsOldest
  exact match decodeStatusReport status with
    | none => inferInstanceAs (Decidable True)
    | some _ => inferInstanceAs (Decidable (_ → _))

instance : Decidable (ArrivedTogether ent) :=
  inferInstanceAs (Decidable (∀ count, count < ent.st.txNext → _))

instance {nofSdus : Nat} : Decidable (RoomInWindow ent nofSdus) :=
  inferInstanceAs (Decidable (_ → _))

end PdcpEntityTx

namespace DiscardView
variable {v v' : DiscardView} {now now' duration : Nat}

/-- The window reaches from TX_NEXT_ACK to TX_NEXT and holds SDUs in the order of their arrival. -/
structure Line (v : DiscardView) (now : Nat) : Prop where
  ack_le : v.txNextAck ≤ v.txNext
  next_lt : v.txNext < 2 ^ 32
  inside : ∀ count arrival, v.arrivals count = some arrival →
    v.txNextAck ≤ count ∧ count < v.txNext
  dated : ∀ count arrival, v.arrivals count = some arrival →
    ∃ tick, arrival = some tick ∧ tick ≤ now
  ordered : ∀ first second tick tick', first ≤ second → v.arrivals first = some (some tick) →
    v.arrivals second = some (some tick') → tick ≤ tick'
  capacity : v.capacity = pdcpWindowSize v.cfg.snSize
  bound : v.cfg.isSrb = false → v.txNext < v.txNextAck + pdcpWindowSize v.cfg.snSize
  emptied : v.stopped = true → ∀ count, v.arrivals count = none

/-- TX_NEXT_ACK is the COUNT of the oldest SDU. -/
def Headed (v : DiscardView) : Prop :=
  v.txNextAck < v.txNext → (v.arrivals v.txNextAck).isSome = true

/-- The timer runs for the oldest SDU, or there is none. -/
def Armed (v : DiscardView) (duration : Nat) : Prop :=
  (v.timer.running = false ∧ (v.stopped = true ∨ v.txNextAck = v.txNext)) ∨
    (v.timer.running = true ∧ v.stopped = false ∧
      ∃ tick, v.arrivals v.txNextAck = some (some tick) ∧ v.timer.expiry = tick + duration)

theorem Line.of_empty (hempty : ∀ count, v.arrivals count = none) (hack : v.txNextAck ≤ v.txNext)
    (hnext : v.txNext < 2 ^ 32) (hcapacity : v.capacity = pdcpWindowSize v.cfg.snSize)
    (hbound : v.cfg.isSrb = false → v.txNext < v.txNextAck + pdcpWindowSize v.cfg.snSize) :
    v.Line now where
  ack_le := hack
  next_lt := hnext
  inside := by
    intro count arrival harrival
    rw [hempty] at harrival
    cases harrival
  dated := by
    intro count arrival harrival
    rw [hempty] at harrival
    cases harrival
  ordered := by
    intro first second tick tick' _ hfirst
    rw [hempty] at hfirst
    cases hfirst
  capacity := hcapacity
  bound := hbound
  emptied := fun _ => hempty

theorem Line.later (h : v.Line now) (hle : now ≤ now') : v.Line now' where
  __ := h
  dated := by
    intro count arrival harrival
    obtain ⟨tick, heq, htick⟩ := h.dated count arrival harrival
    exact ⟨tick, heq, Nat.le_trans htick hle⟩

/-- SDUs leave the window, and its lower edge moves up. -/
structure Shrinks (v v' : DiscardView) : Prop where
  cfg : v'.cfg = v.cfg
  stopped : v'.stopped = v.stopped
  txNext : v'.txNext = v.txNext
  nextAck : v.txNextAck ≤ v'.txNextAck
  nextAck_le : v.txNextAck ≤ v.txNext → v'.txNextAck ≤ v.txNext
  arrivals : ∀ count arrival, v'.arrivals count = some arrival →
    v.arrivals count = some arrival
  edge : (∀ count arrival, v.arrivals count = some arrival → v.txNextAck ≤ count) →
    ∀ count arrival, v'.arrivals count = some arrival → v'.txNextAck ≤ count
  capacity : v'.capacity = v.capacity

theorem Line.shrinks (h : v.Line now) (hs : Shrinks v v') : v'.Line now where
  ack_le := by
    rw [hs.txNext]
    exact hs.nextAck_le h.ack_le
  next_lt := by
    rw [hs.txNext]
    exact h.next_lt
  inside := by
    intro count arrival harrival
    have hedge := hs.edge (fun other value hother => (h.inside other value hother).1)
    rw [hs.txNext]
    exact ⟨hedge count arrival harrival, (h.inside count arrival (hs.arrivals _ _ harrival)).2⟩
  dated := fun count arrival harrival => h.dated count arrival (hs.arrivals _ _ harrival)
  ordered := fun first second tick tick' hle hfirst hsecond =>
    h.ordered first second tick tick' hle (hs.arrivals _ _ hfirst) (hs.arrivals _ _ hsecond)
  capacity := by
    rw [hs.capacity, hs.cfg]
    exact h.capacity
  bound := by
    rw [hs.txNext, hs.cfg]
    exact fun hsrb => Nat.lt_of_lt_of_le (h.bound hsrb) (Nat.add_le_add_right hs.nextAck _)
  emptied := by
    rw [hs.stopped]
    intro hstopped count
    cases harrival : v'.arrivals count with
    | none => rfl
    | some arrival =>
      have hold := hs.arrivals count arrival harrival
      rw [h.emptied hstopped count] at hold
      cases hold

theorem Line.setTimer (h : v.Line now) (timer : DiscardTimer) : Line { v with timer } now :=
  { h with }

theorem Shrinks.of_eq (h : v' = v) : Shrinks v v' := by
  subst h
  exact ⟨rfl, rfl, rfl, Nat.le_refl _, id, fun _ _ h => h, id, rfl⟩

theorem Armed.idle (hidle : v.timer.running = false ∧ (v.stopped = true ∨ v.txNextAck = v.txNext))
    (hline : v.Line now) (hs : Shrinks v v') (htimer : v'.timer = v.timer) : v'.Armed duration := by
  left
  rw [htimer, hs.stopped, hs.txNext]
  refine ⟨hidle.1, hidle.2.imp_right fun hempty => ?_⟩
  exact Nat.le_antisymm (hs.nextAck_le hline.ack_le) (hempty ▸ hs.nextAck)

variable {count : Nat}

/-- The timer stays right while the oldest SDU, or one that arrived together with it, stays. -/
theorem Armed.shrinks {tick : Nat} (h : v.Armed duration) (hline : v.Line now)
    (hs : Shrinks v v') (htimer : v'.timer = v.timer) (hheaded : v'.Headed)
    (hold : v.arrivals v.txNextAck = some (some tick))
    (hkept : v'.arrivals count = some (some tick)) : v'.Armed duration := by
  have hline' : v'.Line now := hline.shrinks hs
  obtain ⟨hle, hlt⟩ := hline'.inside count _ hkept
  obtain ⟨arrival, harrival⟩ := Option.isSome_iff_exists.mp (hheaded (Nat.lt_of_le_of_lt hle hlt))
  obtain ⟨tick', heq, _⟩ := hline'.dated _ _ harrival
  subst heq
  have hsame : tick' = tick := by
    apply Nat.le_antisymm
    · exact hline'.ordered _ _ _ _ hle harrival hkept
    · exact hline.ordered _ _ _ _ hs.nextAck hold (hs.arrivals _ _ harrival)
  subst hsame
  rcases h with ⟨hidle, hempty⟩ | ⟨hruns, hstopped, tick'', hfirst, hexpiry⟩
  · exfalso
    rcases hempty with hstopped | hempty
    · rw [hline.emptied hstopped] at hold
      cases hold
    · have hbelow := (hline.inside _ _ hold).2
      omega
  · rw [hold] at hfirst
    cases hfirst
    right
    rw [htimer, hs.stopped]
    exact ⟨hruns, hstopped, tick', harrival, hexpiry⟩

def push (v : DiscardView) (now : Nat) : DiscardView :=
  { v with
    txNext := v.txNext + 1
    arrivals := Function.update v.arrivals v.txNext (some (some now)) }

theorem push_arrivals_old (hne : count ≠ v.txNext) :
    (v.push now).arrivals count = v.arrivals count := Function.update_of_ne hne _ _

theorem push_arrivals_new : (v.push now).arrivals v.txNext = some (some now) :=
  Function.update_self _ _ _

theorem push_arrivals_cases {arrival : Option Nat} (h : (v.push now).arrivals count = some arrival) :
    (count = v.txNext ∧ arrival = some now) ∨ v.arrivals count = some arrival := by
  by_cases heq : count = v.txNext
  · subst heq
    rw [push_arrivals_new] at h
    exact Or.inl ⟨rfl, (Option.some.inj h).symm⟩
  · rw [push_arrivals_old heq] at h
    exact Or.inr h

theorem Line.push (h : v.Line now) (hrunning : v.stopped = false) (hnext : v.txNext + 1 < 2 ^ 32)
    (hbound : v.cfg.isSrb = false → v.txNext + 1 < v.txNextAck + pdcpWindowSize v.cfg.snSize) :
    (v.push now).Line now where
  ack_le := Nat.le_succ_of_le h.ack_le
  next_lt := hnext
  inside := by
    intro count arrival harrival
    rcases push_arrivals_cases harrival with ⟨heq, _⟩ | hold
    · rw [heq]
      exact ⟨h.ack_le, Nat.lt_succ_self _⟩
    · obtain ⟨hge, hlt⟩ := h.inside count arrival hold
      exact ⟨hge, Nat.lt_succ_of_lt hlt⟩
  dated := by
    intro count arrival harrival
    rcases push_arrivals_cases harrival with ⟨_, heq⟩ | hold
    · exact ⟨now, heq, Nat.le_refl _⟩
    · exact h.dated count arrival hold
  ordered := by
    intro first second tick tick' hle hfirst hsecond
    rcases push_arrivals_cases hsecond with ⟨_, heq⟩ | hsecond
    · cases heq
      rcases push_arrivals_cases hfirst with ⟨_, heq⟩ | hfirst
      · cases heq
        exact Nat.le_refl _
      · obtain ⟨tick', heq, hpast⟩ := h.dated _ _ hfirst
        cases heq
        exact hpast
    · rcases push_arrivals_cases hfirst with ⟨heq, _⟩ | hfirst
      · have hbelow := (h.inside _ _ hsecond).2
        omega
      · exact h.ordered first second tick tick' hle hfirst hsecond
  capacity := h.capacity
  bound := hbound
  emptied := by
    intro hstopped
    have hnot : v.stopped = true := hstopped
    rw [hrunning] at hnot
    cases hnot

end DiscardView

namespace PdcpEntityTx
variable {ent ent' : PdcpEntityTx}
open DiscardView

theorem Trimmed.shrinks (h : Trimmed ent ent') : Shrinks ent.view ent'.view where
  cfg := h.cfg
  capacity := h.capacity
  stopped := h.stopped
  __ := h
  arrivals := by
    intro count arrival harrival
    obtain ⟨elem, helem, htick⟩ := get?_of_arrivals harrival
    rw [← htick]
    exact arrivals_of_get? (h.window count elem helem)
  edge := by
    intro hedge count arrival harrival
    obtain ⟨elem, helem, _⟩ := get?_of_arrivals harrival
    refine h.lowerEdge ?_ count elem helem
    intro other value hother
    exact hedge other _ (arrivals_of_get? hother)

theorem headed_iff : ent.view.Headed ↔
    (ent.st.txNextAck < ent.st.txNext → ent.txWindow.hasSn ent.st.txNextAck = true) := by
  rw [Headed, view_arrivals, Option.isSome_map, PdcpTxWindow.hasSn_eq]
  rfl

theorem skipAbsent_headed {turns : Nat} (hturns : ent.st.txNext ≤ ent.st.txNextAck + turns) :
    (skipAbsent turns ent).view.Headed := by
  induction turns generalizing ent with
  | zero =>
    intro hlt
    exact absurd hlt (Nat.not_lt_of_le hturns)
  | succ turns ih =>
    rw [skipAbsent]
    split
    · apply ih
      have hsum : ent.st.txNext ≤ ent.st.txNextAck + 1 + turns := by omega
      exact hsum
    · rename_i hstop
      rw [headed_iff]
      intro hlt
      by_contra hhas
      exact hstop ⟨hlt, Bool.eq_false_iff.mpr hhas⟩

theorem discardPdu_headed (count : Nat) (h : ent.view.Headed) : (ent.discardPdu count).view.Headed := by
  rw [discardPdu]
  split
  · exact h
  · split
    · exact h
    · split
      · exact h
      · apply @skipAbsent_headed (ent.dropSdu count)
        omega

theorem handleStatusReport_headed {status : List UInt8} (h : ent.view.Headed) :
    (ent.handleStatusReport status).view.Headed :=
  handleStatusReport_induction (motive := fun after => after.view.Headed) (fun _ count h => discardPdu_headed count h) h

theorem arrivals_of_cleared {window : PdcpTxWindow} (h : ent.txWindow = window.clear) (count : Nat) :
    ent.view.arrivals count = none := by
  rw [view_arrivals, h]
  rfl

variable {now : Nat}

theorem line_reset (h : ent.view.Line now) : ent.reset.view.Line now := by
  have hempty := @arrivals_of_cleared ent.reset ent.txWindow rfl
  apply Line.of_empty hempty (Nat.le_refl 0) (Nat.two_pow_pos 32) h.capacity
  intro _
  exact Nat.lt_add_of_pos_right (pdcpWindowSize_pos _)

theorem line_halted (h : ent.view.Line now) :
    Line (view { ent with
      stopped := true
      txWindow := ent.txWindow.clear
      discardTimer := ent.discardTimer.stop
      cryptoReorderingTimerRunning := false }) now := by
  have hempty := @arrivals_of_cleared { ent with
    stopped := true
    txWindow := ent.txWindow.clear
    discardTimer := ent.discardTimer.stop
    cryptoReorderingTimerRunning := false } ent.txWindow rfl
  exact Line.of_empty hempty h.ack_le h.next_lt h.capacity h.bound

theorem edges_of_line (h : ent.view.Line now) : LowerEdge ent ∧ UpperEdge ent :=
  ⟨fun count _ hget => (h.inside count _ (arrivals_of_get? hget)).1,
    fun count _ hget => (h.inside count _ (arrivals_of_get? hget)).2⟩

variable {elem : PdcpTxWindowElement}

theorem tick_of_arrival {tick : Nat} (h : arrival elem = .ok tick) :
    elem.tickPointOfArrival = some tick := by
  rw [arrival] at h
  split at h
  · rename_i heq
    cases h
    exact heq
  · cases h

theorem AheadFrom.shrinks {first first' : Nat} (h : ent.AheadFrom now first)
    (hs : Shrinks ent.view ent'.view) (hle : first ≤ first') : ent'.AheadFrom now first' := by
  intro count hcount hfirst
  have hcfg : ent'.cfg = ent.cfg := hs.cfg
  have hnext : ent'.st.txNext = ent.st.txNext := hs.txNext
  cases harrival : ent'.arrivalOf count with
  | none => rfl
  | some tick =>
    have hold : ent.arrivalOf count = some tick := by
      rw [arrivalOf_eq_some] at harrival ⊢
      exact hs.arrivals _ _ harrival
    have hahead := h count (by rw [← hnext]; exact hcount) (Nat.le_trans hle hfirst)
    rw [hold] at hahead
    rw [hcfg]
    exact hahead

theorem view_parkPdu {info : PdcpTxBufferInfo} (hget : ent.txWindow.get? info.count = some elem) :
    (ent.parkPdu elem info).view = ent.view := by
  refine Rewritten.view ⟨rfl, rfl, rfl, rfl, rfl, CircularMap.capacity_overwrite _ _ _, ?_⟩ rfl
  intro count
  have hsame := setElement_rewritten
    (e := { elem with pdu := info.buf, pduIsRetx := info.isRetx }) hget rfl count
  exact hsame

theorem view_passOn {isRetx : Bool} (hget : ent.txWindow.get? ent.st.txTransCrypto = some elem) :
    (ent.passOn elem isRetx).view = ent.view := by
  refine Rewritten.view ⟨rfl, rfl, rfl, rfl, rfl, CircularMap.capacity_overwrite _ _ _, ?_⟩ rfl
  intro count
  have hsame := setElement_rewritten (e := { elem with pdu := [] }) hget rfl count
  exact hsame

theorem view_updateCryptoReordering : ent.updateCryptoReordering.view = ent.view := by
  have hstart : ∀ mid : PdcpEntityTx, mid.view = ent.view →
      (if mid.cryptoReorderingTimerRunning = false ∧ mid.st.txTransCrypto < mid.st.txNext then
        mid.startCryptoReordering else mid).view = ent.view := by
    intro mid hmid
    split
    · exact hmid
    · exact hmid
  rw [updateCryptoReordering]
  apply hstart
  split <;> rfl

/-- The loop of the crypto reordering timeout ends where in-order release goes on. -/
theorem releaseBelowReord_view {turns : Nat} :
    (releaseBelowReord turns ent).view = ent.view ∧
      (releaseBelowReord turns ent).cfg = ent.cfg ∧
      (ent.st.txTransCrypto + turns) % 2 ^ 32 ≤ (releaseBelowReord turns ent).st.txTransCrypto := by
  induction turns generalizing ent with
  | zero => exact ⟨rfl, rfl, Nat.mod_le _ _⟩
  | succ turns ih =>
    obtain ⟨hw, _, _, htimer⟩ :=
      @writeIfReady_rewritten ent ((ent.st.txTransCrypto + 1) % 2 ^ 32)
    obtain ⟨hview, hcfg, hcrypto⟩ :=
      @ih (ent.writeIfReady.setTxTransCrypto ((ent.st.txTransCrypto + 1) % 2 ^ 32))
    rw [releaseBelowReord]
    refine ⟨hview.trans (hw.view htimer), hcfg.trans hw.cfg, Nat.le_trans ?_ hcrypto⟩
    rw [setTxTransCrypto]
    dsimp only
    omega

/-- An SDU that gets a COUNT takes no slot of another in the window. -/
theorem view_assignCount {duration : Nat} {buf : List UInt8}
    (htimer : ent.cfg.discardTimer = some (.ms duration)) (hline : ent.view.Line now)
    (hnext : ent.st.txNext + 1 < 2 ^ 32)
    (hroom : ent.st.txNext < ent.st.txNextAck + pdcpWindowSize ent.cfg.snSize) :
    (ent.assignCount buf now).view = ent.view.push now := by
  have hmod : (ent.st.txNext + 1) % 2 ^ 32 = ent.st.txNext + 1 := Nat.mod_eq_of_lt hnext
  have hcount : (ent.windowElement buf now).count = ent.st.txNext := rfl
  have htick : (ent.windowElement buf now).tickPointOfArrival = some now := by
    rw [windowElement, htimer]
  have harrivals : (fun count => ((ent.txWindow.addSdu (ent.windowElement buf now)).get? count).map
      PdcpTxWindowElement.tickPointOfArrival) = (ent.view.push now).arrivals := by
    funext count
    by_cases heq : count = ent.st.txNext
    · subst heq
      have hself : (ent.txWindow.addSdu (ent.windowElement buf now)).get? ent.st.txNext =
          some (ent.windowElement buf now) := by
        rw [PdcpTxWindow.addSdu, PdcpTxWindow.get?, CircularMap.get?_overwrite, hcount, if_pos rfl]
      rw [hself, Option.map_some, htick]
      exact push_arrivals_new.symm
    · rw [push_arrivals_old (v := ent.view) heq, view_arrivals]
      by_cases hinside : ent.st.txNextAck ≤ count ∧ count < ent.st.txNext
      · have hcapacity : ent.txWindow.txWindow.capacity = pdcpWindowSize ent.cfg.snSize :=
          hline.capacity
        rw [get?_addSdu hcapacity hinside.2]
        rw [hcount]
        omega
      · have houtside : ∀ value, ent.txWindow.get? count ≠ some value := fun value hget =>
          hinside (hline.inside _ _ (arrivals_of_get? hget))
        have hgone : (ent.txWindow.addSdu (ent.windowElement buf now)).get? count = none := by
          cases hget : (ent.txWindow.addSdu (ent.windowElement buf now)).get? count with
          | none => rfl
          | some value =>
            rcases get?_addSdu_cases hget with ⟨hsame, _⟩ | hold
            · exact absurd hsame heq
            · exact absurd hold (houtside value)
        rw [hgone, Option.eq_none_iff_forall_ne_some.mpr houtside]
  rw [view, assignCount, submit]
  dsimp only
  rw [hmod, harrivals, PdcpTxWindow.addSdu]
  dsimp only
  rw [CircularMap.capacity_overwrite]
  rfl

theorem RoomInWindow.mono {nofSdus fewer : Nat}
    (h : ent.RoomInWindow nofSdus) (hle : fewer ≤ nofSdus) : ent.RoomInWindow fewer := by
  intro hsrb hrunning hhard
  exact Nat.le_trans (Nat.add_le_add_left hle _) (h hsrb hrunning hhard)

end PdcpEntityTx

end Srsran.Pdcp
