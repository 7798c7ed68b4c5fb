import Srsran.Rlc.RxAmEntity

/-! The state variables of the AM receiver. They are residues of unbounded counters
`next ≤ highestStatus ≤ nextHighest ≤ next + AM_Window_Size`, and the window holds SNs between the
first and the last of them. -/
namespace Srsran.Rlc
open ModOrder Srsran.Adt Checked RlcRxAmEntity

variable {window : CircularMap RlcRxAmSduInfo}

section Loops
variable {m n limit : Nat}

theorem skipReceived_spec (hm : Modulus m) (window : CircularMap RlcRxAmSduInfo) {turns k : Nat}
    (hk : n ≤ k) (hlimit : k ≤ limit) (hnear : limit < n + m) (hturns : limit - k ≤ turns) :
    ∃ j, k ≤ j ∧ j ≤ limit ∧
      skipReceived window m (n % m) (limit % m) turns (k % m) = j % m ∧
      (∀ i, k ≤ i → i < j → fullyReceivedAt window (i % m) = true) ∧
      (j < limit → fullyReceivedAt window (j % m) = false) := by
  induction turns generalizing k with
  | zero =>
    refine ⟨k, le_rfl, hlimit, rfl, ?_, ?_⟩
    · intro i hi hi'
      omega
    · intro hlt
      omega
  | succ turns ih =>
    rw [skipReceived, rebase_lift hm hk (by omega), rebase_lift hm (by omega) hnear]
    by_cases hstep : k < limit ∧ fullyReceivedAt window (k % m) = true
    · obtain ⟨j, hj, hj', heq, hpassed, hstop⟩ := ih (k := k + 1) (by omega) (by omega) (by omega)
      refine ⟨j, by omega, hj', ?_, ?_, hstop⟩
      · rw [if_pos ⟨by omega, hstep.2⟩, succ_mod_mod, heq]
      · intro i hi hi'
        by_cases hik : i = k
        · rw [hik]
          exact hstep.2
        · exact hpassed i (by omega) hi'
    · refine ⟨k, le_rfl, hlimit, ?_, ?_, ?_⟩
      · rw [if_neg]
        rintro ⟨hlt, hrecv⟩
        exact hstep ⟨by omega, hrecv⟩
      · intro i hi hi'
        omega
      · intro hlt
        rw [Bool.eq_false_iff]
        exact fun hrecv => hstep ⟨hlt, hrecv⟩

/-- The releasing loop stops where the skipping one does, and removes what it passes. -/
theorem releaseReceived_spec (hm : Modulus m) {turns k hi : Nat}
    (hk : n ≤ k) (hlimit : k ≤ limit) (hnear : limit < n + m) (hturns : limit - k ≤ turns)
    (hkeys : KeysIn window m k hi) :
    ∃ j, k ≤ j ∧ j ≤ limit ∧
      (releaseReceived m (n % m) (limit % m) turns (k % m) window).1 = j % m ∧
      (∀ i, k ≤ i → i < j → fullyReceivedAt window (i % m) = true) ∧
      (j < limit → fullyReceivedAt window (j % m) = false) ∧
      KeysIn (releaseReceived m (n % m) (limit % m) turns (k % m) window).2 m j hi ∧
      (releaseReceived m (n % m) (limit % m) turns (k % m) window).2.capacity = window.capacity ∧
      (∀ i, j ≤ i → i < n + m →
        (releaseReceived m (n % m) (limit % m) turns (k % m) window).2.get? (i % m) =
          window.get? (i % m)) := by
  induction turns generalizing k window with
  | zero =>
    refine ⟨k, le_rfl, hlimit, rfl, ?_, ?_, hkeys, rfl, fun _ _ _ => rfl⟩
    · intro i hi hi'
      omega
    · intro hlt
      omega
  | succ turns ih =>
    rw [releaseReceived, rebase_lift hm hk (by omega), rebase_lift hm (by omega) hnear]
    by_cases hstep : k < limit ∧ fullyReceivedAt window (k % m) = true
    · have hother : ∀ i, k + 1 ≤ i → i < n + m →
          (window.erase (k % m)).get? (i % m) = window.get? (i % m) := by
        intro i hi hi'
        rw [get?_erase_near (by omega : n ≤ i) hi' hk (by omega), if_neg (by omega)]
      have hflag : ∀ i, k + 1 ≤ i → i < n + m →
          fullyReceivedAt (window.erase (k % m)) (i % m) = fullyReceivedAt window (i % m) := by
        intro i hi hi'
        rw [fullyReceivedAt, hother i hi hi', fullyReceivedAt]
      obtain ⟨j, hj, hj', heq, hpassed, hstop, hkeys', hcap, hget⟩ :=
        ih (k := k + 1) (by omega) (by omega) (by omega) hkeys.erase
      rw [if_pos ⟨by omega, hstep.2⟩, succ_mod_mod]
      refine ⟨j, by omega, hj', heq, ?_, ?_, hkeys', ?_, ?_⟩
      · intro i hi hi'
        by_cases hik : i = k
        · rw [hik]
          exact hstep.2
        · rw [← hflag i (by omega) (by omega)]
          exact hpassed i (by omega) hi'
      · intro hlt
        rw [← hflag j (by omega) (by omega)]
        exact hstop hlt
      · rw [hcap, CircularMap.capacity_erase]
      · intro i hi hi'
        rw [hget i hi hi', hother i (by omega) hi']
    · rw [if_neg (by
        rintro ⟨hlt, hrecv⟩
        exact hstep ⟨by omega, hrecv⟩)]
      refine ⟨k, le_rfl, hlimit, rfl, ?_, ?_, hkeys, rfl, fun _ _ _ => rfl⟩
      · intro i hi hi'
        omega
      · intro hlt
        rw [Bool.eq_false_iff]
        exact fun hrecv => hstep ⟨hlt, hrecv⟩

end Loops

/-- Failures that the order of the state variables has to rule out: access to an absent SDU, and
RX_Highest_Status outside the window. -/
def RxAmFault.isWindowFault : RxAmFault → Bool
  | .absentSn _ => true
  | .expiryOutsideWindow => true
  | _ => false

/-- Unbounded values of the state variables. -/
structure RxVars where
  next : Nat
  highestStatus : Nat
  nextHighest : Nat
  trigger : Nat

/-- Order of the variables and content of the window. While a PDU is processed, its SN is exempt
from the statement that the SDUs at the edges are incomplete. -/
structure RxWindowInv (ent : RlcRxAmEntity) (v : RxVars) (exempt : Nat → Prop) : Prop where
  capacity : ent.rxWindow.capacity = ent.amWindowSize
  rxNext : ent.st.rxNext = v.next % ent.mod
  rxHighestStatus : ent.st.rxHighestStatus = v.highestStatus % ent.mod
  rxNextHighest : ent.st.rxNextHighest = v.nextHighest % ent.mod
  next_le : v.next ≤ v.highestStatus
  status_le : v.highestStatus ≤ v.nextHighest
  highest_le : v.nextHighest ≤ v.next + ent.amWindowSize
  keys : KeysIn ent.rxWindow ent.mod v.next v.nextHighest
  last : v.next < v.nextHighest →
    (ent.rxWindow.get? ((v.nextHighest - 1) % ent.mod)).isSome = true
  next_missing : ¬ exempt v.next → fullyReceivedAt ent.rxWindow (v.next % ent.mod) = false
  status_missing : ¬ exempt v.highestStatus →
    fullyReceivedAt ent.rxWindow (v.highestStatus % ent.mod) = false

/-- While t-Reassembly runs, RX_Next_Status_Trigger lies above RX_Next, the SDU below it is in the
window, and nothing is missing between it and RX_Highest_Status. -/
structure RxTimerInv (ent : RlcRxAmEntity) (v : RxVars) : Prop where
  rxNextStatusTrigger : ent.st.rxNextStatusTrigger = v.trigger % ent.mod
  above : v.next < v.trigger
  trigger_le : v.trigger ≤ v.nextHighest
  present : (ent.rxWindow.get? ((v.trigger - 1) % ent.mod)).isSome = true
  received : ∀ k, v.trigger ≤ k → k < v.highestStatus →
    fullyReceivedAt ent.rxWindow (k % ent.mod) = true

structure RxInv (ent : RlcRxAmEntity) (v : RxVars) : Prop where
  window : RxWindowInv ent v fun _ => False
  timer : ent.reassemblyTimerRunning = true → RxTimerInv ent v

/-- The variables move forward, within a window of the old lower edge. -/
structure Forward (ent : RlcRxAmEntity) (v v' : RxVars) : Prop where
  next : v.next ≤ v'.next
  highestStatus : v.highestStatus ≤ v'.highestStatus
  nextHighest : v.nextHighest ≤ v'.nextHighest
  near : v'.nextHighest ≤ v.next + ent.amWindowSize

namespace RlcRxAmEntity
variable (ent : RlcRxAmEntity)

theorem shape : WindowShape ent.mod ent.amWindowSize := ent.cfg.snFieldLength.windowShape

theorem two_le_amWindowSize : 2 ≤ ent.amWindowSize := by
  unfold amWindowSize
  cases ent.cfg.snFieldLength <;> decide

theorem mod_eq : ent.mod = 2 * ent.amWindowSize := ent.shape.two_windows

theorem modulus : Modulus ent.mod := ent.shape.modulus

theorem placePdu_fst (header : RlcAmPduHeader) (payload : List UInt8) :
    ∃ info, (ent.placePdu header payload).1 =
      { ent with rxWindow := ent.rxWindow.overwrite header.sn info } := by
  unfold placePdu
  split
  · rename_i hsi
    rw [handleFullDataSdu, if_neg (not_not.mpr hsi)]
    exact ⟨_, rfl⟩
  · rename_i hsi
    rw [handleSegmentDataSdu, if_neg hsi]
    exact ⟨_, rfl⟩

end RlcRxAmEntity

section Stages
variable {ent : RlcRxAmEntity} {v : RxVars} {exempt : Nat → Prop}

theorem fullyReceivedAt_of_ge {m lo hi : Nat}
    (h : KeysIn window m lo hi) (hhi : hi ≤ lo + m) {k : Nat} (hk : hi ≤ k) (hk' : k < lo + m) :
    fullyReceivedAt window (k % m) = false := by
  rw [fullyReceivedAt, h.get?_eq_none hhi hk hk']

theorem fullyReceivedAt_overwrite {m w lo j k : Nat}
    (hs : WindowShape m w) (hcap : window.capacity = w) (hj : lo ≤ j) (hj' : j < lo + w)
    (hk : lo ≤ k) (hk' : k < lo + w) (info : RlcRxAmSduInfo) :
    fullyReceivedAt (window.overwrite (k % m) info) (j % m) =
      if j = k then info.fullyReceived else fullyReceivedAt window (j % m) := by
  rw [fullyReceivedAt, get?_overwrite_near hs hcap hj hj' hk hk']
  by_cases hjk : j = k
  · rw [if_pos hjk, if_pos hjk]
  · rw [if_neg hjk, if_neg hjk, fullyReceivedAt]

theorem RxWindowInv.rxModBase_eq (h : RxWindowInv ent v exempt) {k : Nat} (hk : v.next ≤ k)
    (hk' : k < v.next + ent.mod) : ent.rxModBase (k % ent.mod) = k - v.next := by
  rw [rxModBase, h.rxNext, rebase_lift ent.modulus hk hk']

theorem RxWindowInv.rxModBase_highest (h : RxWindowInv ent v exempt) :
    ent.rxModBase ent.st.rxNextHighest = v.nextHighest - v.next := by
  have hm := ent.mod_eq
  have hw := ent.two_le_amWindowSize
  have h1 := h.next_le
  have h2 := h.status_le
  have h3 := h.highest_le
  rw [h.rxNextHighest, h.rxModBase_eq (by omega) (by omega)]

theorem RxWindowInv.rxModBase_succ_next (h : RxWindowInv ent v exempt) :
    ent.rxModBase (ent.st.rxNext + 1) = 1 := by
  have hm := ent.mod_eq
  have hw := ent.two_le_amWindowSize
  have hsucc : ent.rxModBase (ent.st.rxNext + 1) = ent.rxModBase ((v.next + 1) % ent.mod) := by
    rw [rxModBase, rxModBase, h.rxNext, ← succ_mod_mod v.next,
      rebase_mod ent.modulus]
  rw [hsucc, h.rxModBase_eq (by omega) (by omega)]
  omega

/-- Writing the SN of a window that was not fully received, and RX_Next_Highest after it. -/
theorem RxInv.place (h : RxInv ent v) {k : Nat} (hk : v.next ≤ k)
    (hk' : k < v.next + ent.amWindowSize)
    (hmissing : fullyReceivedAt ent.rxWindow (k % ent.mod) = false) (info : RlcRxAmSduInfo) :
    let placed : RlcRxAmEntity := { ent with rxWindow := ent.rxWindow.overwrite (k % ent.mod) info }
    let v' := { v with nextHighest := max v.nextHighest (k + 1) }
    RxWindowInv (placed.updateRxNextHighest (k % ent.mod)) v' (fun x => x = k) ∧
      (ent.reassemblyTimerRunning = true →
        RxTimerInv (placed.updateRxNextHighest (k % ent.mod)) v') ∧
      (placed.updateRxNextHighest (k % ent.mod)).rxWindow = placed.rxWindow := by
  intro placed v'
  have hm := ent.mod_eq
  have hw := ent.two_le_amWindowSize
  obtain ⟨hcap, hnext, hstatus, hhighest, h1, h2, h3, hkeys, hlast, hnm, hsm⟩ := h.window
  have hnh : v'.nextHighest = max v.nextHighest (k + 1) := rfl
  obtain ⟨hvn, hvs, hvt⟩ : v'.next = v.next ∧ v'.highestStatus = v.highestStatus ∧
      v'.trigger = v.trigger := ⟨rfl, rfl, rfl⟩
  have hplaced : ∀ i, v.next ≤ i → i < v.next + ent.amWindowSize →
      placed.rxWindow.get? (i % ent.mod) =
        if i = k then some info else ent.rxWindow.get? (i % ent.mod) :=
    fun i hi hi' => get?_overwrite_near ent.shape hcap hi hi' hk hk' info
  have hflag : ∀ i, v.next ≤ i → i < v.next + ent.amWindowSize →
      fullyReceivedAt placed.rxWindow (i % ent.mod) =
        if i = k then info.fullyReceived else fullyReceivedAt ent.rxWindow (i % ent.mod) :=
    fun i hi hi' => fullyReceivedAt_overwrite ent.shape hcap hi hi' hk hk' info
  have hkeys' : KeysIn placed.rxWindow ent.mod v.next v'.nextHighest :=
    hkeys.overwrite hk (by omega) (by omega) info
  have heq : placed.updateRxNextHighest (k % ent.mod) =
      { placed with st := { ent.st with rxNextHighest := v'.nextHighest % ent.mod } } := by
    have hbase : placed.rxModBase (k % ent.mod) = k - v.next := h.window.rxModBase_eq hk (by omega)
    have hbase' : placed.rxModBase placed.st.rxNextHighest = v.nextHighest - v.next :=
      h.window.rxModBase_highest
    unfold updateRxNextHighest
    rw [hbase, hbase']
    split
    · have hmax : v'.nextHighest = k + 1 := by omega
      rw [hmax, ← succ_mod_mod k]
      rfl
    · have hmax : v'.nextHighest = v.nextHighest := by omega
      rw [hmax, ← hhighest]
  rw [heq]
  refine ⟨⟨?_, hnext, hstatus, rfl, h1, by omega, ?_, hkeys', ?_, ?_, ?_⟩, ?_, rfl⟩
  · exact (CircularMap.capacity_overwrite _ _ _).trans hcap
  · show v'.nextHighest ≤ v.next + ent.amWindowSize
    omega
  · intro _
    show (placed.rxWindow.get? ((v'.nextHighest - 1) % ent.mod)).isSome = true
    rw [hplaced _ (by omega) (by omega)]
    split
    · rfl
    · rename_i hne
      have hsame : v'.nextHighest = v.nextHighest := by omega
      rw [hsame]
      exact hlast (by omega)
  · intro hne
    show fullyReceivedAt placed.rxWindow (v.next % ent.mod) = false
    rw [hflag _ le_rfl (by omega), if_neg hne]
    exact hnm (fun hfalse => hfalse)
  · intro hne
    show fullyReceivedAt placed.rxWindow (v.highestStatus % ent.mod) = false
    by_cases hedge : v.highestStatus < v.next + ent.amWindowSize
    · rw [hflag _ h1 hedge, if_neg hne]
      exact hsm (fun hfalse => hfalse)
    · exact fullyReceivedAt_of_ge hkeys' (by omega) (by omega) (by omega)
  · intro hrunning
    obtain ⟨htrig, habove, hle, hpresent, hrecv⟩ := h.timer hrunning
    refine ⟨htrig, habove, by omega, ?_, ?_⟩
    · show (placed.rxWindow.get? ((v.trigger - 1) % ent.mod)).isSome = true
      rw [hplaced _ (by omega) (by omega)]
      split
      · rfl
      · exact hpresent
    · intro i hi hi'
      show fullyReceivedAt placed.rxWindow (i % ent.mod) = true
      have hi'' : i < v.highestStatus := hi'
      have hold := hrecv i hi hi'
      rw [hflag i (by omega) (by omega), if_neg]
      · exact hold
      · rintro rfl
        rw [hmissing] at hold
        cases hold

theorem RxWindowInv.clear (h : RxWindowInv ent v exempt) {k : Nat} (hk : v.next ≤ k)
    (hk' : k < v.nextHighest) {info : RlcRxAmSduInfo}
    (hget : ent.rxWindow.get? (k % ent.mod) = some info) (data : RlcRxAmSduData) :
    let cleared : RlcRxAmEntity :=
      { ent with rxWindow := ent.rxWindow.overwrite (k % ent.mod) { info with sduData := data } }
    RxWindowInv cleared v exempt ∧ (RxTimerInv ent v → RxTimerInv cleared v) ∧
      fullyReceivedAt cleared.rxWindow (k % ent.mod) = info.fullyReceived := by
  intro cleared
  have hm := ent.mod_eq
  have hw := ent.two_le_amWindowSize
  obtain ⟨hcap, hnext, hstatus, hhighest, h1, h2, h3, hkeys, hlast, hnm, hsm⟩ := h
  have hkW : k < v.next + ent.amWindowSize := by omega
  have hplaced : ∀ i, v.next ≤ i → i < v.next + ent.amWindowSize →
      (cleared.rxWindow.get? (i % ent.mod)).isSome = (ent.rxWindow.get? (i % ent.mod)).isSome := by
    intro i hi hi'
    rw [get?_overwrite_near ent.shape hcap hi hi' hk hkW]
    split
    · rename_i hik
      rw [hik, hget]
      rfl
    · rfl
  have hflag : ∀ i, v.next ≤ i → i < v.next + ent.amWindowSize →
      fullyReceivedAt cleared.rxWindow (i % ent.mod) =
        fullyReceivedAt ent.rxWindow (i % ent.mod) := by
    intro i hi hi'
    rw [fullyReceivedAt_overwrite ent.shape hcap hi hi' hk hkW]
    split
    · rename_i hik
      rw [hik, fullyReceivedAt, hget]
    · rfl
  have hkeys' : KeysIn cleared.rxWindow ent.mod v.next v.nextHighest :=
    hkeys.overwrite hk hk' le_rfl _
  refine ⟨⟨?_, hnext, hstatus, hhighest, h1, h2, h3, hkeys', ?_, ?_, ?_⟩, ?_, ?_⟩
  · exact (CircularMap.capacity_overwrite _ _ _).trans hcap
  · intro hlt
    rw [← hlast hlt]
    exact hplaced _ (by omega) (by omega)
  · intro hne
    rw [← hnm hne]
    exact hflag _ le_rfl (by omega)
  · intro hne
    by_cases hedge : v.highestStatus < v.next + ent.amWindowSize
    · rw [← hsm hne]
      exact hflag _ h1 hedge
    · exact fullyReceivedAt_of_ge hkeys' (by omega) (by omega) (by omega)
  · rintro ⟨htrig, habove, hle, hpresent, hrecv⟩
    refine ⟨htrig, habove, hle, ?_, ?_⟩
    · rw [← hpresent]
      exact hplaced _ (by omega) (by omega)
    · intro i hi hi'
      rw [← hrecv i hi hi']
      exact hflag i (by omega) (by omega)
  · rw [hflag k hk hkW, fullyReceivedAt, hget]

/-- RX_Highest_Status moves to the next incomplete SDU when its own one is complete. -/
theorem RxWindowInv.updateRxHighestStatus {k : Nat} (h : RxWindowInv ent v (fun x => x = k))
    (hk : v.next ≤ k) (hk' : k < v.nextHighest)
    (hrecv : fullyReceivedAt ent.rxWindow (k % ent.mod) = true) :
    ∃ highestStatus, v.highestStatus ≤ highestStatus ∧ highestStatus ≠ k ∧
      RxWindowInv (ent.updateRxHighestStatus (k % ent.mod)) { v with highestStatus }
        (fun x => x = k) ∧
      (RxTimerInv ent v →
        RxTimerInv (ent.updateRxHighestStatus (k % ent.mod)) { v with highestStatus }) := by
  have hm := ent.mod_eq
  have hw := ent.two_le_amWindowSize
  have hinv := h
  obtain ⟨hcap, hnext, hstatus, hhighest, h1, h2, h3, hkeys, hlast, hnm, hsm⟩ := h
  have hbase : ent.rxModBase (k % ent.mod) = k - v.next := hinv.rxModBase_eq hk (by omega)
  have hbase' : ent.rxModBase ent.st.rxHighestStatus = v.highestStatus - v.next := by
    rw [hstatus, hinv.rxModBase_eq h1 (by omega)]
  unfold RlcRxAmEntity.updateRxHighestStatus
  rw [hbase, hbase']
  by_cases hedge : k - v.next = v.highestStatus - v.next
  · have hkS : k = v.highestStatus := by omega
    obtain ⟨j, hj, hj', heq, hpassed, hstop⟩ := skipReceived_spec ent.modulus
      ent.rxWindow (by omega : v.next ≤ v.highestStatus + 1)
      (by omega : v.highestStatus + 1 ≤ v.nextHighest) (by omega)
      (by omega : v.nextHighest - (v.highestStatus + 1) ≤ ent.mod)
    rw [if_pos hedge]
    refine ⟨j, by omega, by omega, ?_, ?_⟩
    · refine ⟨hcap, hnext, ?_, hhighest, by dsimp only; omega, hj', h3, hkeys, hlast, hnm, ?_⟩
      · dsimp only
        rw [hstatus, hnext, hhighest, succ_mod_mod]
        exact heq
      · intro _
        by_cases hjlt : j < v.nextHighest
        · exact hstop hjlt
        · exact fullyReceivedAt_of_ge hkeys (by omega) (by dsimp only; omega) (by dsimp only; omega)
    · rintro ⟨htrig, habove, hle, hpresent, hold⟩
      refine ⟨htrig, habove, hle, hpresent, ?_⟩
      intro i hi hi'
      dsimp only at hi hi'
      by_cases hlow : i < v.highestStatus
      · exact hold i hi hlow
      · by_cases hik : i = k
        · rw [hik]
          exact hrecv
        · exact hpassed i (by omega) hi'
  · rw [if_neg hedge]
    exact ⟨v.highestStatus, le_rfl, by omega, hinv, fun ht => ht⟩

/-- What is left of the timer invariant while RX_Next moves up from `next`. -/
structure RxTimerMoving (ent : RlcRxAmEntity) (v : RxVars) (next : Nat) : Prop where
  rxNextStatusTrigger : ent.st.rxNextStatusTrigger = v.trigger % ent.mod
  above : next < v.trigger
  trigger_le : v.trigger ≤ v.nextHighest
  present : v.next < v.trigger →
    (ent.rxWindow.get? ((v.trigger - 1) % ent.mod)).isSome = true
  received : v.next < v.trigger → ∀ k, v.trigger ≤ k → k < v.highestStatus →
    fullyReceivedAt ent.rxWindow (k % ent.mod) = true

/-- RX_Next moves to the first incomplete SDU when its own one is complete. -/
theorem RxWindowInv.updateRxNext {k : Nat} (h : RxWindowInv ent v (fun x => x = k))
    (hk : v.next ≤ k) (hk' : k < v.nextHighest) (hstatus : v.highestStatus ≠ k) :
    ∃ next, v.next ≤ next ∧
      RxWindowInv (ent.updateRxNext (k % ent.mod)) { v with next } (fun _ => False) ∧
      (RxTimerInv ent v →
        RxTimerMoving (ent.updateRxNext (k % ent.mod)) { v with next } v.next) := by
  have hm := ent.mod_eq
  have hw := ent.two_le_amWindowSize
  have hinv := h
  obtain ⟨hcap, hnext, hhs, hhighest, h1, h2, h3, hkeys, hlast, hnm, hsm⟩ := h
  have hbase : ent.rxModBase (k % ent.mod) = k - v.next := hinv.rxModBase_eq hk (by omega)
  have hbase' : ent.rxModBase ent.st.rxNext = 0 := by
    rw [hnext, hinv.rxModBase_eq le_rfl (by omega), Nat.sub_self]
  unfold RlcRxAmEntity.updateRxNext
  rw [hbase, hbase']
  by_cases hedge : k - v.next = 0
  · have hnearest : v.nextHighest < v.next + ent.mod := by omega
    obtain ⟨j, hj, hj', heq, hpassed, hstop, hkeys', hcap', hget⟩ :=
      releaseReceived_spec ent.modulus (le_refl v.next) (by omega : v.next ≤ v.nextHighest) hnearest
        (by omega : v.nextHighest - v.next ≤ ent.mod) hkeys
    rw [if_pos hedge, hnext, hhighest, Nat.mod_mod]
    generalize releaseReceived ent.mod (v.next % ent.mod) (v.nextHighest % ent.mod) ent.mod
      (v.next % ent.mod) ent.rxWindow = released at heq hkeys' hcap' hget
    obtain ⟨snUpd, window⟩ := released
    have hflag : ∀ i, j ≤ i → i < v.next + ent.mod →
        fullyReceivedAt window (i % ent.mod) = fullyReceivedAt ent.rxWindow (i % ent.mod) := by
      intro i hi hi'
      rw [fullyReceivedAt, hget i hi hi', fullyReceivedAt]
    have hmissing := hsm hstatus
    have hjs : j ≤ v.highestStatus := by
      by_contra hlt
      rw [hpassed v.highestStatus h1 (by omega)] at hmissing
      cases hmissing
    refine ⟨j, hj, ?_, ?_⟩
    · refine ⟨hcap'.trans hcap, heq, hhs, hhighest, hjs, h2, ?_, hkeys', ?_, ?_, ?_⟩
      · show v.nextHighest ≤ j + ent.amWindowSize
        omega
      · intro hlt
        dsimp only at hlt ⊢
        rw [← hlast (by omega)]
        exact congrArg Option.isSome (hget _ (by omega) (by omega))
      · intro _
        by_cases hjlt : j < v.nextHighest
        · rw [← hstop hjlt]
          exact hflag j le_rfl (by omega)
        · exact fullyReceivedAt_of_ge hkeys' (by omega) (by dsimp only; omega) (by dsimp only; omega)
      · intro _
        rw [← hmissing]
        exact hflag v.highestStatus hjs (by omega)
    · rintro ⟨htrig, habove, hle, hpresent, hrecv⟩
      refine ⟨htrig, habove, hle, ?_, ?_⟩
      · intro hlt
        dsimp only at hlt ⊢
        rw [← hpresent]
        exact congrArg Option.isSome (hget _ (by omega) (by omega))
      · intro hlt i hi hi'
        dsimp only at hlt hi hi' ⊢
        rw [← hrecv i hi hi']
        exact hflag i (by omega) (by omega)
  · rw [if_neg hedge]
    refine ⟨v.next, le_rfl, ?_, ?_⟩
    · exact ⟨hcap, hnext, hhs, hhighest, h1, h2, h3, hkeys, hlast, fun _ => hnm (by omega),
        fun _ => hsm hstatus⟩
    · rintro ⟨htrig, habove, hle, hpresent, hrecv⟩
      exact ⟨htrig, habove, hle, fun _ => hpresent, fun _ => hrecv⟩

section
variable (h : RxWindowInv ent v (fun _ => False))
include h

/-- The timer keeps running only if RX_Next has stayed below RX_Next_Status_Trigger, and then the
SDU at RX_Next is in the window when its gap flag is read. -/
theorem RxWindowInv.stopReassemblyTimer {next : Nat}
    (hnext : next ≤ v.next) (hnear : v.nextHighest ≤ next + ent.amWindowSize)
    (ht : ent.reassemblyTimerRunning = true → RxTimerMoving ent v next) :
    Ensures (fun f => f.isWindowFault = false)
      (fun ent' => RxInv ent' v ∧ ∃ b, ent' = { ent with reassemblyTimerRunning := b })
      ent.stopReassemblyTimer := by
  have hm := ent.mod_eq
  have hw := ent.two_le_amWindowSize
  unfold RlcRxAmEntity.stopReassemblyTimer
  cases hrunning : ent.reassemblyTimerRunning with
  | false =>
    refine Ensures.ok ⟨⟨h, ?_⟩, false, ?_⟩
    · intro hrun
      rw [hrunning] at hrun
      cases hrun
    · rw [← hrunning]
  | true =>
    obtain ⟨htrig, habove, hle, hpresent, hrecv⟩ := ht hrunning
    have h1 := h.next_le
    have h2 := h.status_le
    have hbase1 := h.rxModBase_succ_next
    -- a trigger that RX_Next has passed is at least a window away
    have hbaseT : ent.rxModBase ent.st.rxNextStatusTrigger =
        if v.next ≤ v.trigger then v.trigger - v.next else v.trigger + ent.mod - v.next := by
      rw [htrig]
      split
      · exact h.rxModBase_eq ‹_› (by omega)
      · have hturn : v.trigger % ent.mod = (v.trigger + ent.mod) % ent.mod :=
          (Nat.add_mod_right _ _).symm
        rw [hturn, h.rxModBase_eq (by omega) (by omega)]
    have hcomplete : Ensures (fun f => f.isWindowFault = false) (fun _ => True)
        ent.completeBelowTrigger := by
      unfold completeBelowTrigger
      split
      · rename_i heq
        have hat : v.trigger - 1 = v.next := by
          rw [hbase1, hbaseT] at heq
          split at heq <;> omega
        have hget := hpresent (by omega)
        rw [hat, ← h.rxNext] at hget
        obtain ⟨info, hinfo⟩ := Option.isSome_iff_exists.mp hget
        rw [noGapAtRxNext, hinfo]
        exact trivial
      · exact trivial
    rw [if_pos rfl]
    refine hcomplete.bind fun complete _ => Ensures.ok ⟨⟨?_, ?_⟩, _, rfl⟩
    · exact { h with }
    · intro hrun
      simp only [Bool.not_eq_eq_eq_not, Bool.not_true, Bool.or_eq_false_iff,
        beq_eq_false_iff_ne, Bool.not_false] at hrun
      obtain ⟨⟨hne, -⟩, hinside⟩ := hrun
      rw [insideRxWindow, decide_eq_true_eq, hbaseT] at hinside
      have hlow : v.next ≤ v.trigger := by
        by_contra hlt
        rw [if_neg hlt] at hinside
        omega
      have hlt : v.next < v.trigger := by
        by_contra hge
        have heq : v.trigger = v.next := by omega
        rw [htrig, h.rxNext, heq] at hne
        exact hne rfl
      exact ⟨htrig, hlt, hle, hpresent hlt, hrecv hlt⟩

theorem RxWindowInv.runReassemblyTimer (hlt : v.next < v.nextHighest) :
    Ensures (fun f => f.isWindowFault = false)
      (fun ent' => ent'.cfg = ent.cfg ∧ RxInv ent' { v with trigger := v.nextHighest })
      ent.runReassemblyTimer := by
  unfold RlcRxAmEntity.runReassemblyTimer
  split
  · exact Ensures.error rfl
  · refine Ensures.ok ⟨rfl, ?_, fun _ => ?_⟩
    · exact { h with }
    · refine ⟨h.rxNextHighest, hlt, le_rfl, h.last hlt, ?_⟩
      intro k hk hk'
      have hle := h.status_le
      dsimp only at hk hk'
      omega

theorem RxWindowInv.restartReassemblyTimer {sn : Nat} (hidle : ent.reassemblyTimerRunning = false)
    (hlt : ent.needsReassemblyTimer sn = true → v.next < v.nextHighest) :
    Ensures (fun f => f.isWindowFault = false)
      (fun ent' => ent'.cfg = ent.cfg ∧ ∃ trigger, RxInv ent' { v with trigger })
      (ent.restartReassemblyTimer sn) := by
  unfold RlcRxAmEntity.restartReassemblyTimer
  split
  · exact (h.runReassemblyTimer (hlt ‹_›)).mono fun ent' h' => ⟨h'.1, _, h'.2⟩
  · refine Ensures.ok ⟨rfl, v.trigger, h, ?_⟩
    intro hrunning
    rw [hidle] at hrunning
    cases hrunning

end

theorem RxInv.startReassemblyTimer (h : RxInv ent v) :
    Ensures (fun f => f.isWindowFault = false)
      (fun ent' => ent'.cfg = ent.cfg ∧ ∃ trigger, RxInv ent' { v with trigger })
      ent.startReassemblyTimer := by
  unfold RlcRxAmEntity.startReassemblyTimer
  split
  · exact Ensures.ok ⟨rfl, v.trigger, h⟩
  · rename_i hidle
    refine h.window.restartReassemblyTimer (Bool.eq_false_iff.mpr hidle) fun hneeds => ?_
    by_contra hge
    have hbase : ent.rxModBase ent.st.rxNextHighest = 0 := by
      rw [h.window.rxModBase_highest]
      omega
    simp [needsReassemblyTimer, hbase, h.window.rxModBase_succ_next] at hneeds

theorem RxTimerInv.moving (h : RxTimerInv ent v) : RxTimerMoving ent v v.next :=
  ⟨h.rxNextStatusTrigger, h.above, h.trigger_le, fun _ => h.present, fun _ => h.received⟩

theorem RxWindowInv.of_missing {k : Nat} (h : RxWindowInv ent v (fun x => x = k))
    (hmissing : fullyReceivedAt ent.rxWindow (k % ent.mod) = false) :
    RxWindowInv ent v (fun _ => False) := by
  refine { h with next_missing := fun _ => ?_, status_missing := fun _ => ?_ }
  · by_cases hkn : v.next = k
    · rw [hkn]
      exact hmissing
    · exact h.next_missing hkn
  · by_cases hks : v.highestStatus = k
    · rw [hks]
      exact hmissing
    · exact h.status_missing hks

/-- Delivery of a complete SDU and the update of the lower variables. -/
theorem RxWindowInv.handleReceivedSdu {k : Nat} (h : RxWindowInv ent v (fun x => x = k))
    (hk : v.next ≤ k) (hk' : k < v.nextHighest) :
    ∃ next highestStatus, v.next ≤ next ∧ v.highestStatus ≤ highestStatus ∧
      RxWindowInv (ent.handleReceivedSdu (k % ent.mod)).1 { v with next, highestStatus }
        (fun _ => False) ∧
      (RxTimerInv ent v → RxTimerMoving (ent.handleReceivedSdu (k % ent.mod)).1
        { v with next, highestStatus } v.next) := by
  unfold RlcRxAmEntity.handleReceivedSdu
  cases hget : ent.rxWindow.get? (k % ent.mod) with
  | none =>
    have hmissing : fullyReceivedAt ent.rxWindow (k % ent.mod) = false := by
      rw [fullyReceivedAt, hget]
    exact ⟨v.next, v.highestStatus, le_rfl, le_rfl, h.of_missing hmissing, RxTimerInv.moving⟩
  | some info =>
    dsimp only
    by_cases hrecv : info.fullyReceived = true
    · obtain ⟨hclear, hclearT, hflag⟩ := h.clear hk hk' hget (.full [])
      obtain ⟨hs, hsle, hsk, hwin, htimer⟩ :=
        hclear.updateRxHighestStatus hk hk' (hflag.trans hrecv)
      obtain ⟨next, hnext, hwin', htimer'⟩ := hwin.updateRxNext hk hk' hsk
      rw [mod_congr (cfg_updateRxHighestStatus _ _)] at hwin' htimer'
      rw [if_pos hrecv]
      exact ⟨next, hs, hnext, hsle, hwin', fun ht => htimer' (htimer (hclearT ht))⟩
    · rw [if_neg hrecv]
      have hmissing : fullyReceivedAt ent.rxWindow (k % ent.mod) = false := by
        rw [fullyReceivedAt, hget]
        exact Bool.not_eq_true _ ▸ hrecv
      exact ⟨v.next, v.highestStatus, le_rfl, le_rfl, h.of_missing hmissing, RxTimerInv.moving⟩

/-- Equal in everything but the status reporting. -/
structure SameReception (ent ent' : RlcRxAmEntity) : Prop where
  cfg : ent'.cfg = ent.cfg
  st : ent'.st = ent.st
  rxWindow : ent'.rxWindow = ent.rxWindow
  timer : ent'.reassemblyTimerRunning = ent.reassemblyTimerRunning

theorem RxInv.congr {ent' : RlcRxAmEntity} (h : RxInv ent v) (hsame : SameReception ent ent') :
    RxInv ent' v := by
  obtain ⟨cfg, st, window, running⟩ := ent
  obtain ⟨cfg', st', window', running'⟩ := ent'
  obtain ⟨rfl, rfl, rfl, rfl⟩ := hsame
  obtain ⟨⟨hcap, hnext, hhs, hhighest, h1, h2, h3, hkeys, hlast, hnm, hsm⟩, htimer⟩ := h
  refine ⟨⟨hcap, hnext, hhs, hhighest, h1, h2, h3, hkeys, hlast, hnm, hsm⟩, ?_⟩
  intro hrunning
  obtain ⟨htrig, habove, hle, hpresent, hrecv⟩ := htimer hrunning
  exact ⟨htrig, habove, hle, hpresent, hrecv⟩

theorem segmentNacks_failure (sn : Nat) (segments : List RlcRxSduSegment) (lastSo : Nat)
    (haveLastSegment : Bool) :
    Ensures (fun f => f.isWindowFault = false) (fun _ => True)
      (segmentNacks sn lastSo haveLastSegment segments) := by
  induction segments generalizing lastSo haveLastSegment with
  | nil =>
    unfold segmentNacks
    split <;> exact trivial
  | cons segm rest ih =>
    unfold segmentNacks
    refine (ih _ _).bind fun nacks _ => ?_
    split
    · exact trivial
    · split
      · exact Ensures.error rfl
      · exact trivial

theorem nacksOfSn_failure (ent : RlcRxAmEntity) (sn : Nat) :
    Ensures (fun f => f.isWindowFault = false) (fun _ => True) (ent.nacksOfSn sn) := by
  unfold nacksOfSn
  split
  · exact trivial
  · split
    · exact trivial
    · split
      · exact segmentNacks_failure _ _ _ _
      · exact Ensures.error rfl

theorem refreshStatusReport_same (ent : RlcRxAmEntity) :
    Ensures (fun f => f.isWindowFault = false) (SameReception ent) ent.refreshStatusReport := by
  have hbuild : Ensures (fun f => f.isWindowFault = false) (fun _ => True)
      ent.buildStatusReport :=
    Ensures.bind (Ensures.mapM fun sn _ => nacksOfSn_failure ent sn) fun _ _ => trivial
  exact hbuild.bind fun report _ => Ensures.ok ⟨rfl, rfl, rfl, rfl⟩

theorem onFunctionExit_same (ent : RlcRxAmEntity) (statusChanged statusRequested : Bool) :
    Ensures (fun f => f.isWindowFault = false) (SameReception ent)
      (ent.onFunctionExit statusChanged statusRequested) := by
  unfold onFunctionExit
  split
  · exact (refreshStatusReport_same ent).bind fun ent' hsame =>
      Ensures.ok { hsame with }
  · exact Ensures.ok ⟨rfl, rfl, rfl, rfl⟩

/-- After the event the invariant holds for variables that have moved forward. -/
def Advances (ent : RlcRxAmEntity) (v : RxVars) (ent' : RlcRxAmEntity) : Prop :=
  ent'.cfg = ent.cfg ∧ ∃ v', RxInv ent' v' ∧ Forward ent v v'

section
variable (h : RxInv ent v)
include h

theorem RxInv.advances_self {ent' : RlcRxAmEntity}
    (hsame : SameReception ent ent') : Advances ent v ent' := by
  have h1 := h.window.highest_le
  exact ⟨hsame.cfg, v, h.congr hsame, ⟨le_rfl, le_rfl, le_rfl, h1⟩⟩

theorem RxInv.lift_of_inside {sn : Nat} (hsn : sn < ent.mod)
    (hinside : ent.insideRxWindow sn = true) :
    ∃ k, v.next ≤ k ∧ k < v.next + ent.amWindowSize ∧ sn = k % ent.mod := by
  obtain ⟨k, hk, hk', hkmod⟩ := exists_lift ent.modulus v.next hsn
  rw [insideRxWindow, hkmod, h.window.rxModBase_eq hk hk',
    decide_eq_true_eq] at hinside
  exact ⟨k, hk, by omega, hkmod⟩

theorem RxInv.bufferPdu {header : RlcAmPduHeader} {k : Nat} (hk : v.next ≤ k)
    (hk' : k < v.next + ent.amWindowSize) (hsn : header.sn = k % ent.mod)
    (hmissing : fullyReceivedAt ent.rxWindow header.sn = false) (payload : List UInt8) :
    ∃ v', Forward ent v v' ∧
      RxWindowInv (ent.bufferPdu header payload).1 v' (fun _ => False) ∧
      ((ent.bufferPdu header payload).1.reassemblyTimerRunning = true →
        RxTimerMoving (ent.bufferPdu header payload).1 v' v.next) ∧
      (ent.bufferPdu header payload).1.cfg = ent.cfg := by
  have h0 := h.window.highest_le
  obtain ⟨info, hplace⟩ := ent.placePdu_fst header payload
  rw [hsn] at hmissing hplace
  obtain ⟨hwin, htimer, -⟩ := h.place hk hk' hmissing info
  obtain ⟨next, hs, hnext, hsle, hwin', htimer'⟩ :=
    hwin.handleReceivedSdu hk (by dsimp only; omega)
  rw [RlcRxAmEntity.bufferPdu, hplace, hsn]
  rw [RlcRxAmEntity.mod_congr (RlcRxAmEntity.cfg_updateRxNextHighest _ _)] at hwin' htimer'
  refine ⟨⟨next, hs, max v.nextHighest (k + 1), v.trigger⟩, ⟨hnext, hsle, ?_, ?_⟩, hwin', ?_, ?_⟩
  · dsimp only
    omega
  · dsimp only
    omega
  · intro hrunning
    rw [timer_handleReceivedSdu, timer_updateRxNextHighest] at hrunning
    exact htimer' (htimer hrunning)
  · rw [cfg_handleReceivedSdu, cfg_updateRxNextHighest]

theorem RxInv.receivePdu {header : RlcAmPduHeader}
    (hsn : header.sn < ent.mod) (hinside : ent.insideRxWindow header.sn = true)
    (hmissing : fullyReceivedAt ent.rxWindow header.sn = false) (payload : List UInt8) :
    Ensures (fun f => f.isWindowFault = false) (fun p => Advances ent v p.1)
      (ent.receivePdu header payload) := by
  obtain ⟨k, hk, hk', hkmod⟩ := h.lift_of_inside hsn hinside
  obtain ⟨v', hfwd, hwin, htimer, hcfg⟩ := h.bufferPdu hk hk' hkmod hmissing payload
  have hnear := hfwd.near
  rw [← amWindowSize_congr hcfg] at hnear
  refine (hwin.stopReassemblyTimer hfwd.next hnear htimer).bind fun stopped hstopped => ?_
  obtain ⟨hinv, running, rfl⟩ := hstopped
  refine hinv.startReassemblyTimer.bind fun started hstarted => ?_
  obtain ⟨hcfgStarted, trigger, hinv'⟩ := hstarted
  refine (onFunctionExit_same started _ _).bind fun reported hsame => Ensures.ok ?_
  refine ⟨hsame.cfg.trans (hcfgStarted.trans hcfg), _, hinv'.congr hsame, ?_⟩
  exact { hfwd with }

theorem RxInv.handleDataPdu (pdu : List UInt8) :
    Ensures (fun f => f.isWindowFault = false) (fun p => Advances ent v p.1)
      (ent.handleDataPdu pdu) := by
  unfold RlcRxAmEntity.handleDataPdu
  split
  · exact Ensures.ok (h.advances_self ⟨rfl, rfl, rfl, rfl⟩)
  · rename_i header hread
    split
    · exact Ensures.ok (h.advances_self ⟨rfl, rfl, rfl, rfl⟩)
    · have hsn : header.sn < ent.mod := (rlcAmReadDataPduHeader_range hread).1
      unfold handleParsedPdu
      split
      · exact (onFunctionExit_same ent _ _).bind fun ent' hsame =>
          Ensures.ok (h.advances_self hsame)
      · rename_i haccept
        rw [Bool.or_eq_true, not_or, Bool.not_eq_true, Bool.not_eq_true,
          Bool.not_eq_false'] at haccept
        exact h.receivePdu hsn haccept.1 haccept.2 _

end

/-- On expiry RX_Highest_Status moves up to the first incomplete SDU from the trigger on. Between
the trigger and the old RX_Highest_Status nothing is missing, so it does not move back. -/
theorem RxWindowInv.updateOnExpiry (h : RxWindowInv ent v (fun _ => False)) (ht : RxTimerInv ent v)
    (hidle : ent.reassemblyTimerRunning = false) :
    Ensures (fun f => f.isWindowFault = false) (Advances ent v) ent.updateOnExpiry := by
  have hm := ent.mod_eq
  have hw := ent.two_le_amWindowSize
  have h1 := h.next_le
  have h2 := h.status_le
  have h3 := h.highest_le
  obtain ⟨htrig, habove, hle, hpresent, hrecv⟩ := ht
  obtain ⟨j, hj, hj', heq, hpassed, hstop⟩ := skipReceived_spec ent.modulus ent.rxWindow
    (by omega : v.next ≤ v.trigger) hle (by omega) (by omega : v.nextHighest - v.trigger ≤ ent.mod)
  have hback : v.highestStatus ≤ j := by
    by_contra hlt
    have hmissing := hstop (by omega)
    rw [hrecv j hj (by omega)] at hmissing
    cases hmissing
  have hupd : ent.expiryHighestStatus = j % ent.mod := by
    rw [expiryHighestStatus, h.rxNext, h.rxNextHighest, htrig]
    exact heq
  have hset : ent.setRxHighestStatus (j % ent.mod) =
      .ok { ent with st := { ent.st with rxHighestStatus := j % ent.mod } } := by
    rw [setRxHighestStatus, validAckSn,
      h.rxModBase_eq (by omega) (by omega), if_pos]
    simp only [Bool.and_eq_true, decide_eq_true_eq]
    omega
  have hwin : RxWindowInv { ent with st := { ent.st with rxHighestStatus := j % ent.mod } }
      { v with highestStatus := j } (fun _ => False) := by
    refine ⟨h.capacity, h.rxNext, rfl, h.rxNextHighest, by dsimp only; omega, hj', h3, h.keys,
      h.last, h.next_missing, fun _ => ?_⟩
    by_cases hjlt : j < v.nextHighest
    · exact hstop hjlt
    · exact fullyReceivedAt_of_ge h.keys (by omega) (by dsimp only; omega) (by dsimp only; omega)
  unfold RlcRxAmEntity.updateOnExpiry
  rw [hupd, hset, ok_bind]
  refine (hwin.restartReassemblyTimer hidle fun _ => by dsimp only; omega).bind
    fun started hstarted => ?_
  obtain ⟨hcfg, trigger, hinv⟩ := hstarted
  refine (refreshStatusReport_same started).bind fun reported hsame => Ensures.ok ?_
  refine ⟨hsame.cfg.trans hcfg, _, hinv.congr { hsame with }, ?_⟩
  exact ⟨le_rfl, hback, le_rfl, h3⟩

theorem RxInv.expireReassemblyTimer (h : RxInv ent v) :
    Ensures (fun f => f.isWindowFault = false) (Advances ent v) ent.expireReassemblyTimer := by
  unfold RlcRxAmEntity.expireReassemblyTimer
  split
  · rename_i hrunning
    obtain ⟨hcap, hnext, hhs, hhighest, h1, h2, h3, hkeys, hlast, hnm, hsm⟩ := h.window
    obtain ⟨htrig, habove, hle, hpresent, hrecv⟩ := h.timer hrunning
    have hwin : RxWindowInv { ent with reassemblyTimerRunning := false } v (fun _ => False) :=
      ⟨hcap, hnext, hhs, hhighest, h1, h2, h3, hkeys, hlast, hnm, hsm⟩
    unfold onExpiredReassemblyTimer
    rw [if_neg (by simp)]
    split
    · refine Ensures.ok ⟨rfl, v, ⟨hwin, ?_⟩, ⟨le_rfl, le_rfl, le_rfl, h3⟩⟩
      intro hrun
      cases hrun
    · refine (hwin.updateOnExpiry ⟨htrig, habove, hle, hpresent, hrecv⟩ rfl).mono ?_
      rintro ent' ⟨hcfg, v', hinv, hfwd⟩
      exact ⟨hcfg, v', hinv, { hfwd with }⟩
  · exact Ensures.ok (h.advances_self ⟨rfl, rfl, rfl, rfl⟩)

theorem RxInv.step (h : RxInv ent v) (event : Event) :
    Ensures (fun f => f.isWindowFault = false) (fun p => Advances ent v p.1) (ent.step event) := by
  cases event with
  | dataPdu pdu => exact h.handleDataPdu pdu
  | reassemblyTimerExpired =>
    exact h.expireReassemblyTimer.bind fun ent' hadv => Ensures.ok hadv
  | getStatusPdu => exact Ensures.ok (h.advances_self ⟨rfl, rfl, rfl, rfl⟩)
  | statusProhibitTimerExpired => exact Ensures.ok (h.advances_self ⟨rfl, rfl, rfl, rfl⟩)

end Stages

theorem RxInv.create (cfg : RlcRxAmConfig) : RxInv (create cfg) ⟨0, 0, 0, 0⟩ := by
  refine ⟨⟨rfl, ?_, ?_, ?_, le_rfl, le_rfl, Nat.zero_le _, ?_, ?_, fun _ => rfl, fun _ => rfl⟩, ?_⟩
  · exact (Nat.zero_mod _).symm
  · exact (Nat.zero_mod _).symm
  · exact (Nat.zero_mod _).symm
  · intro key info hget
    cases hget
  · intro hlt
    cases hlt
  · intro hrunning
    cases hrunning

theorem Reachable.inv {cfg : RlcRxAmConfig} {ent : RlcRxAmEntity}
    (h : Reachable cfg ent) : ∃ v, RxInv ent v := by
  induction h with
  | create => exact ⟨_, RxInv.create cfg⟩
  | step _ hstep ih =>
    obtain ⟨v, hv⟩ := ih
    obtain ⟨-, v', hv', -⟩ := (hv.step _).result hstep
    exact ⟨v', hv'⟩

/-- Order of the state variables relative to RX_Next, and what the window holds. -/
structure RxVarsInOrder (ent : RlcRxAmEntity) : Prop where
  next_le : ent.rxModBase ent.st.rxNext ≤ ent.rxModBase ent.st.rxHighestStatus
  status_le : ent.rxModBase ent.st.rxHighestStatus ≤ ent.rxModBase ent.st.rxNextHighest
  highest_le : ent.rxModBase ent.st.rxNextHighest ≤ ent.amWindowSize
  next_missing : fullyReceivedAt ent.rxWindow ent.st.rxNext = false
  window : ∀ sn info, ent.rxWindow.get? sn = some info →
    sn < ent.mod ∧ ent.rxModBase sn < ent.rxModBase ent.st.rxNextHighest
  last : ent.st.rxNextHighest ≠ ent.st.rxNext →
    (ent.rxWindow.get? ((ent.st.rxNextHighest + ent.mod - 1) % ent.mod)).isSome = true

/-- RX_Next and RX_Highest_Status do not move backwards: in the order relative to the old RX_Next,
the new ones lie between the old ones and the upper end of the window. -/
structure RxVarsForward (ent ent' : RlcRxAmEntity) : Prop where
  next : ent.rxModBase ent.st.rxNext ≤ ent.rxModBase ent'.st.rxNext
  next_le : ent.rxModBase ent'.st.rxNext ≤ ent.amWindowSize
  status : ent.rxModBase ent.st.rxHighestStatus ≤ ent.rxModBase ent'.st.rxHighestStatus
  status_le : ent.rxModBase ent'.st.rxHighestStatus ≤ ent.amWindowSize

theorem RxInv.inOrder {ent : RlcRxAmEntity} {v : RxVars} (h : RxInv ent v) : RxVarsInOrder ent := by
  have hm := ent.mod_eq
  have hw := ent.two_le_amWindowSize
  obtain ⟨hcap, hnext, hhs, hhighest, h1, h2, h3, hkeys, hlast, hnm, hsm⟩ := h.window
  have hbase : ∀ {k}, v.next ≤ k → k < v.next + ent.mod →
      ent.rxModBase (k % ent.mod) = k - v.next := h.window.rxModBase_eq
  refine ⟨?_, ?_, ?_, ?_, ?_, ?_⟩
  · rw [hnext, hhs, hbase le_rfl (by omega), hbase h1 (by omega)]
    omega
  · rw [hhs, hhighest, hbase h1 (by omega), hbase (by omega) (by omega)]
    omega
  · rw [hhighest, hbase (by omega) (by omega)]
    omega
  · rw [hnext]
    exact hnm fun hfalse => hfalse
  · intro sn info hget
    obtain ⟨k, hk, hk', rfl⟩ := hkeys sn info hget
    refine ⟨Nat.mod_lt _ ent.modulus.pos, ?_⟩
    rw [hhighest, hbase hk (by omega), hbase (by omega) (by omega)]
    omega
  · intro hne
    have hlt : v.next < v.nextHighest := by
      by_contra hge
      have heq : v.nextHighest = v.next := by omega
      exact hne (by rw [hhighest, hnext, heq])
    have hpred : (v.nextHighest % ent.mod + ent.mod - 1) % ent.mod =
        (v.nextHighest - 1) % ent.mod := by
      have hpos := ent.modulus.pos
      have hsplit : v.nextHighest % ent.mod + ent.mod - 1 =
          v.nextHighest % ent.mod + (ent.mod - 1) := by omega
      rw [hsplit, Nat.mod_add_mod]
      have hturn : v.nextHighest + (ent.mod - 1) = v.nextHighest - 1 + ent.mod := by omega
      rw [hturn, Nat.add_mod_right]
    rw [hhighest, hpred]
    exact hlast hlt

theorem Advances.forward {ent ent' : RlcRxAmEntity} {v : RxVars} (h : RxInv ent v)
    (hadv : Advances ent v ent') : RxVarsForward ent ent' := by
  have hm := ent.mod_eq
  have hw := ent.two_le_amWindowSize
  obtain ⟨hcfg, v', hinv, hnext, hstatus, hhighest, hnear⟩ := hadv
  have h1 := h.window.next_le
  have h2 := h.window.status_le
  have h1' := hinv.window.next_le
  have h2' := hinv.window.status_le
  have hnext' := hinv.window.rxNext
  have hhs' := hinv.window.rxHighestStatus
  rw [mod_congr hcfg] at hnext' hhs'
  have hbase : ∀ {k}, v.next ≤ k → k < v.next + ent.mod →
      ent.rxModBase (k % ent.mod) = k - v.next := h.window.rxModBase_eq
  refine ⟨?_, ?_, ?_, ?_⟩
  · rw [h.window.rxNext, hnext', hbase le_rfl (by omega), hbase (by omega) (by omega)]
    omega
  · rw [hnext', hbase (by omega) (by omega)]
    omega
  · rw [h.window.rxHighestStatus, hhs', hbase h1 (by omega), hbase (by omega) (by omega)]
    omega
  · rw [hhs', hbase (by omega) (by omega)]
    omega

/-- In every reachable state the variables are in order, and no event moves RX_Next or
RX_Highest_Status backwards, reads an absent SDU, or fails the assertion on timer expiry. -/
theorem rxAm_stateVariables (cfg : RlcRxAmConfig) (ent : RlcRxAmEntity)
    (h : Reachable cfg ent) :
    RxVarsInOrder ent ∧ ∀ event : Event,
      Ensures (fun f => f.isWindowFault = false) (fun p => RxVarsForward ent p.1)
        (ent.step event) := by
  obtain ⟨v, hv⟩ := Reachable.inv h
  refine ⟨hv.inOrder, fun event => ?_⟩
  exact (hv.step event).mono fun p hadv => hadv.forward hv

/-- SN 1 arrives before SN 0: t-Reassembly starts and the variables are in order. -/
theorem rxAm_stateVariables_outOfOrder :
    ∃ ent, (create { snFieldLength := .size12bits, tReassembly := 35 }).step
        (.dataPdu [0x80, 0x01, 0xaa]) = .ok (ent, [(1, [0xaa])]) ∧
      ent.st = ⟨0, 2, 0, 2⟩ ∧ RxVarsInOrder ent := by
  have hrun : (((create { snFieldLength := .size12bits, tReassembly := 35 }).step
      (.dataPdu [0x80, 0x01, 0xaa])).toOption.map fun p => (p.1.st, p.2)) =
        some (⟨0, 2, 0, 2⟩, [(1, [0xaa])]) := by
    decide +kernel
  obtain ⟨⟨ent, sdus⟩, hstep, hobs⟩ := exists_ok_of_observed hrun
  obtain ⟨hst, rfl⟩ := Prod.mk.inj hobs
  exact ⟨ent, hstep, hst, (rxAm_stateVariables _ _ (.step .create hstep)).1⟩

end Srsran.Rlc
