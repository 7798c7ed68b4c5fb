import Mathlib.Data.Nat.Bitwise

/-! The state machine of the uplink processor (`uplink_processor_fsm.h`). One 32-bit word holds the
number of queued PDUs in bits 0 to 11, the number of PDUs in execution in bits 12 to 23, and flags. An
operation is its effect once its compare-and-exchange succeeds, with the truth of its assertion. -/
namespace Srsran.Phy.UplinkProcessorFsm

def acceptingPduMask : Nat := 0x80000000

def lockedMask : Nat := 0x40000000

def pendingPduCountIdle : Nat := 0

def pendingPduCountStopped : Nat := 0x7fffffff

def pendingPduIncQueue : Nat := 1

def pendingPduIncExec : Nat := 0x1000

def isStateIdle (state : Nat) : Bool := state = pendingPduCountIdle

def isStateAcceptingPdu (state : Nat) : Bool := state &&& acceptingPduMask ≠ 0

def isStateLocked (state : Nat) : Bool := state &&& lockedMask ≠ 0

def isStateStopped (state : Nat) : Bool := state = pendingPduCountStopped

def getNofPendingPduInExec (state : Nat) : Nat := state &&& 0xfff000

def getNofPendingPduInQueue (state : Nat) : Nat := state &&& 0xfff

def startNewSlot (state : Nat) : Option Nat :=
  if isStateIdle state then some acceptingPduMask else none

def stopAcceptingPdu (prev : Nat) : Nat × Bool :=
  (prev ^^^ acceptingPduMask, isStateAcceptingPdu prev)

def incrementPendingPduCount (prev : Nat) : Nat × Bool :=
  ((prev + pendingPduIncQueue) % 2 ^ 32, isStateAcceptingPdu prev)

def startDiscardSlot (state : Nat) : Option Nat :=
  if isStateStopped state ∨ isStateLocked state ∨ getNofPendingPduInQueue state = 0 ∨
      getNofPendingPduInExec state > 0 then none
  else some (state ||| getNofPendingPduInQueue state * pendingPduIncExec ||| lockedMask)

def finishDiscardSlot (prev : Nat) : Nat × Bool :=
  (pendingPduCountIdle, getNofPendingPduInQueue prev = 0 ∧ getNofPendingPduInExec prev = 0 ∧
    isStateLocked prev)

def startHandleRxSymbol (state : Nat) : Option Nat :=
  if isStateStopped state ∨ isStateLocked state ∨ getNofPendingPduInQueue state = 0 then none
  else some (state ||| lockedMask)

def finishHandleRxSymbol (prev : Nat) : Nat × Bool := (prev ^^^ lockedMask, isStateLocked prev)

def onCreatePduTask (state : Nat) : Option Nat × Bool :=
  if isStateStopped state then (none, true)
  else (some ((state + pendingPduIncExec) % 2 ^ 32),
    !isStateAcceptingPdu state && getNofPendingPduInQueue state > 0)

def onFinishProcessingPdu (prev : Nat) : Nat × Bool :=
  ((prev + 2 ^ 32 - (pendingPduIncQueue + pendingPduIncExec)) % 2 ^ 32,
    !isStateAcceptingPdu prev && !isStateStopped prev && getNofPendingPduInExec prev > 0 &&
      getNofPendingPduInQueue prev > 0)

/-- `stop` waits for the states in which this gives nothing. -/
def stop (state : Nat) : Option Nat :=
  if isStateAcceptingPdu state ∨ getNofPendingPduInExec state > 0 ∨ isStateLocked state then none
  else some pendingPduCountStopped

def hasReceiveRequest (state : Nat) : Bool :=
  !isStateIdle state && !isStateAcceptingPdu state && !isStateLocked state && !isStateStopped state

def pack (accepting locked : Bool) (exec queue : Nat) : Nat :=
  accepting.toNat * 2 ^ 31 + locked.toNat * 2 ^ 30 + exec * 2 ^ 12 + queue

variable {accepting locked : Bool} {exec queue : Nat}

section
variable (hexec : exec < 2 ^ 12)
include hexec

variable (hqueue : queue < 2 ^ 12)
include hqueue

theorem testBit_pack_accepting : (pack accepting locked exec queue).testBit 31 = accepting := by
  rw [Nat.testBit_eq_decide_div_mod_eq, pack]
  cases accepting <;> cases locked <;> simp <;> omega

theorem testBit_pack_locked : (pack accepting locked exec queue).testBit 30 = locked := by
  rw [Nat.testBit_eq_decide_div_mod_eq, pack]
  cases accepting <;> cases locked <;> simp <;> omega

theorem isStateAcceptingPdu_pack :
    isStateAcceptingPdu (pack accepting locked exec queue) = accepting := by
  have hmask : acceptingPduMask = 2 ^ 31 := rfl
  rw [isStateAcceptingPdu, hmask, Nat.and_two_pow, testBit_pack_accepting hexec hqueue]
  cases accepting <;> simp

theorem isStateLocked_pack : isStateLocked (pack accepting locked exec queue) = locked := by
  have hmask : lockedMask = 2 ^ 30 := rfl
  rw [isStateLocked, hmask, Nat.and_two_pow, testBit_pack_locked hexec hqueue]
  cases locked <;> simp

end

theorem getNofPendingPduInQueue_pack (hqueue : queue < 2 ^ 12) :
    getNofPendingPduInQueue (pack accepting locked exec queue) = queue := by
  have hmask : (0xfff : Nat) = 2 ^ 12 - 1 := rfl
  rw [getNofPendingPduInQueue, hmask, Nat.and_two_pow_sub_one_eq_mod, pack]
  cases accepting <;> cases locked <;> simp <;> omega

theorem execField (state : Nat) : state &&& 0xfff000 = (state >>> 12 &&& 0xfff) <<< 12 := by
  have hmask : (0xfff000 : Nat) = 0xfff <<< 12 := rfl
  apply Nat.eq_of_testBit_eq
  intro i
  rw [hmask, Nat.testBit_and, Nat.testBit_shiftLeft, Nat.testBit_shiftLeft, Nat.testBit_and,
    Nat.testBit_shiftRight]
  by_cases hi : 12 ≤ i
  · simp [hi, Nat.add_sub_cancel' hi]
  · simp [hi]

theorem getNofPendingPduInExec_pack (hexec : exec < 2 ^ 12) (hqueue : queue < 2 ^ 12) :
    getNofPendingPduInExec (pack accepting locked exec queue) = exec * 2 ^ 12 := by
  have hmask : (0xfff : Nat) = 2 ^ 12 - 1 := rfl
  rw [getNofPendingPduInExec, execField, hmask, Nat.and_two_pow_sub_one_eq_mod,
    Nat.shiftRight_eq_div_pow, Nat.shiftLeft_eq, pack]
  cases accepting <;> cases locked <;> simp <;> omega

theorem pack_ne_stopped (hexec : exec < 2 ^ 12) (hqueue : queue < 2 ^ 12) :
    isStateStopped (pack accepting locked exec queue) = false := by
  rw [isStateStopped, pack, pendingPduCountStopped]
  cases accepting <;> cases locked <;> simp <;> omega

theorem isStateIdle_pack :
    isStateIdle (pack accepting locked exec queue) =
      (!accepting && !locked && decide (exec = 0) && decide (queue = 0)) := by
  rw [isStateIdle, pack, pendingPduCountIdle]
  cases accepting <;> cases locked <;> simp

theorem or_high {i a b c : Nat} (h : b < 2 ^ i) :
    (2 ^ i * a + b) ||| 2 ^ i * c = 2 ^ i * (a ||| c) + b := by
  apply Nat.eq_of_testBit_eq
  intro j
  rw [Nat.testBit_or, Nat.testBit_two_pow_mul_add _ h, Nat.testBit_two_pow_mul_add _ h,
    Nat.testBit_two_pow_mul]
  by_cases hj : j < i
  · simp [hj]
  · simp [hj, Nat.le_of_not_lt hj]

theorem xor_high {i a b c : Nat} (h : b < 2 ^ i) :
    (2 ^ i * a + b) ^^^ 2 ^ i * c = 2 ^ i * (a ^^^ c) + b := by
  apply Nat.eq_of_testBit_eq
  intro j
  rw [Nat.testBit_xor, Nat.testBit_two_pow_mul_add _ h, Nat.testBit_two_pow_mul_add _ h,
    Nat.testBit_two_pow_mul]
  by_cases hj : j < i
  · simp [hj, Nat.not_le_of_lt hj]
  · simp [hj, Nat.le_of_not_lt hj]

theorem pack_flags (accepting locked : Bool) (exec queue : Nat) :
    pack accepting locked exec queue =
      2 ^ 30 * (accepting.toNat * 2 + locked.toNat) + (exec * 2 ^ 12 + queue) := by
  rw [pack]
  omega

section
variable (hexec : exec < 2 ^ 12)
include hexec

variable (hqueue : queue < 2 ^ 12)
include hqueue

theorem counters_lt : exec * 2 ^ 12 + queue < 2 ^ 30 := by
  omega

theorem pack_xor_accepting :
    pack accepting locked exec queue ^^^ acceptingPduMask = pack (!accepting) locked exec queue := by
  have hmask : acceptingPduMask = 2 ^ 30 * 2 := rfl
  rw [pack_flags, hmask, xor_high (counters_lt hexec hqueue), pack_flags]
  cases accepting <;> cases locked <;> rfl

theorem pack_xor_locked :
    pack accepting locked exec queue ^^^ lockedMask = pack accepting (!locked) exec queue := by
  have hmask : lockedMask = 2 ^ 30 * 1 := rfl
  rw [pack_flags, hmask, xor_high (counters_lt hexec hqueue), pack_flags]
  cases accepting <;> cases locked <;> rfl

theorem pack_or_locked :
    pack accepting locked exec queue ||| lockedMask = pack accepting true exec queue := by
  have hmask : lockedMask = 2 ^ 30 * 1 := rfl
  rw [pack_flags, hmask, or_high (counters_lt hexec hqueue), pack_flags]
  cases accepting <;> cases locked <;> rfl

end

theorem pack_or_exec (hqueue : queue < 2 ^ 12) :
    pack accepting locked 0 queue ||| queue * pendingPduIncExec =
      pack accepting locked queue queue := by
  have hinc : queue * pendingPduIncExec = 2 ^ 12 * queue := Nat.mul_comm _ _
  have hhigh : 2 ^ 18 * (accepting.toNat * 2 + locked.toNat) ||| queue =
      2 ^ 18 * (accepting.toNat * 2 + locked.toNat) + queue :=
    (Nat.two_pow_add_eq_or_of_lt (Nat.lt_of_lt_of_le hqueue (by decide)) _).symm
  have hword : pack accepting locked 0 queue =
      2 ^ 12 * (2 ^ 18 * (accepting.toNat * 2 + locked.toNat)) + queue := by
    rw [pack_flags]
    omega
  rw [hinc, hword, or_high hqueue, hhigh, pack_flags]
  omega

theorem pack_lt (hexec : exec < 2 ^ 12) (hqueue : queue < 2 ^ 12) :
    pack accepting locked exec queue < 2 ^ 32 := by
  rw [pack]
  cases accepting <;> cases locked <;> simp <;> omega

/-! What each operation does to a word whose counters are in range. -/

theorem startNewSlot_pack : startNewSlot (pack accepting locked exec queue) =
    if (!accepting && !locked && decide (exec = 0) && decide (queue = 0)) then
      some (pack true false 0 0)
    else none := by
  rw [startNewSlot, isStateIdle_pack]
  rfl

section
variable (hexec : exec < 2 ^ 12)
include hexec

theorem stopAcceptingPdu_pack (hqueue : queue < 2 ^ 12) :
    stopAcceptingPdu (pack accepting locked exec queue) =
      (pack (!accepting) locked exec queue, accepting) := by
  rw [stopAcceptingPdu, pack_xor_accepting hexec hqueue, isStateAcceptingPdu_pack hexec hqueue]

theorem incrementPendingPduCount_pack (hqueue : queue + 1 < 2 ^ 12) :
    incrementPendingPduCount (pack accepting locked exec queue) =
      (pack accepting locked exec (queue + 1), accepting) := by
  have hsum : pack accepting locked exec queue + pendingPduIncQueue =
      pack accepting locked exec (queue + 1) := by
    simp only [pack, pendingPduIncQueue]
    omega
  rw [incrementPendingPduCount, isStateAcceptingPdu_pack hexec (by omega), hsum,
    Nat.mod_eq_of_lt (pack_lt hexec hqueue)]

variable (hqueue : queue < 2 ^ 12)
include hqueue

theorem startDiscardSlot_pack : startDiscardSlot (pack accepting locked exec queue) =
      if locked = true ∨ queue = 0 ∨ 0 < exec then none
      else some (pack accepting true queue queue) := by
  rw [startDiscardSlot, pack_ne_stopped hexec hqueue, isStateLocked_pack hexec hqueue,
    getNofPendingPduInQueue_pack hqueue, getNofPendingPduInExec_pack hexec hqueue]
  by_cases hskip : locked = true ∨ queue = 0 ∨ 0 < exec
  · rw [if_pos hskip, if_pos]
    rcases hskip with hlocked | hzero | hexec'
    · exact .inr (.inl hlocked)
    · exact .inr (.inr (.inl hzero))
    · exact .inr (.inr (.inr (Nat.mul_pos hexec' (Nat.two_pow_pos 12))))
  · rw [if_neg hskip, if_neg]
    · obtain rfl : exec = 0 := by omega
      rw [pack_or_exec hqueue, pack_or_locked hqueue hqueue]
    · rintro (h | h | h | h)
      · cases h
      · exact hskip (.inl h)
      · exact hskip (.inr (.inl h))
      · exact hskip (.inr (.inr (by omega)))

theorem finishDiscardSlot_pack : finishDiscardSlot (pack accepting locked exec queue) =
      (pack false false 0 0, decide (queue = 0 ∧ exec = 0 ∧ locked = true)) := by
  rw [finishDiscardSlot, isStateLocked_pack hexec hqueue, getNofPendingPduInQueue_pack hqueue,
    getNofPendingPduInExec_pack hexec hqueue]
  simp [pack, pendingPduCountIdle]

theorem startHandleRxSymbol_pack : startHandleRxSymbol (pack accepting locked exec queue) =
      if locked = true ∨ queue = 0 then none else some (pack accepting true exec queue) := by
  rw [startHandleRxSymbol, pack_ne_stopped hexec hqueue, isStateLocked_pack hexec hqueue,
    getNofPendingPduInQueue_pack hqueue, pack_or_locked hexec hqueue]
  simp

theorem finishHandleRxSymbol_pack : finishHandleRxSymbol (pack accepting locked exec queue) =
      (pack accepting (!locked) exec queue, locked) := by
  rw [finishHandleRxSymbol, pack_xor_locked hexec hqueue, isStateLocked_pack hexec hqueue]

end

theorem onCreatePduTask_pack (hexec : exec + 1 < 2 ^ 12) (hqueue : queue < 2 ^ 12) :
    onCreatePduTask (pack accepting locked exec queue) =
      (some (pack accepting locked (exec + 1) queue), !accepting && decide (0 < queue)) := by
  have hsum : pack accepting locked exec queue + pendingPduIncExec =
      pack accepting locked (exec + 1) queue := by
    simp only [pack, pendingPduIncExec]
    omega
  rw [onCreatePduTask, pack_ne_stopped (by omega) hqueue, isStateAcceptingPdu_pack (by omega) hqueue,
    getNofPendingPduInQueue_pack hqueue, hsum, Nat.mod_eq_of_lt (pack_lt hexec hqueue),
    if_neg Bool.false_ne_true]

theorem onFinishProcessingPdu_pack (hexec : exec + 1 < 2 ^ 12) (hqueue : queue + 1 < 2 ^ 12) :
    onFinishProcessingPdu (pack accepting locked (exec + 1) (queue + 1)) =
      (pack accepting locked exec queue, !accepting) := by
  have hdiff : pack accepting locked (exec + 1) (queue + 1) + 2 ^ 32 -
      (pendingPduIncQueue + pendingPduIncExec) = pack accepting locked exec queue + 2 ^ 32 := by
    simp only [pack, pendingPduIncExec, pendingPduIncQueue]
    omega
  rw [onFinishProcessingPdu, isStateAcceptingPdu_pack hexec hqueue, pack_ne_stopped hexec hqueue,
    getNofPendingPduInExec_pack hexec hqueue, getNofPendingPduInQueue_pack hqueue, hdiff,
    Nat.add_mod_right, Nat.mod_eq_of_lt (pack_lt (by omega) (by omega))]
  simp

theorem stop_pack (hexec : exec < 2 ^ 12) (hqueue : queue < 2 ^ 12) :
    stop (pack accepting locked exec queue) =
      if accepting = true ∨ 0 < exec ∨ locked = true then none
      else some pendingPduCountStopped := by
  rw [stop, isStateAcceptingPdu_pack hexec hqueue, isStateLocked_pack hexec hqueue,
    getNofPendingPduInExec_pack hexec hqueue]
  simp

end Srsran.Phy.UplinkProcessorFsm
