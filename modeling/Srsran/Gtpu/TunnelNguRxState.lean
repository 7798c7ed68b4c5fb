import Srsran.Gtpu.TunnelNguRx

/-! Reordering on NG-U. The window stands for an interval of unbounded positions, from RX_DELIV to
RX_NEXT; every event moves its edges forward and releases what it leaves behind. -/
namespace Srsran.Gtpu
open ModOrder Srsran.Adt Srsran.Rlc

theorem gtpuModulus : Modulus gtpuSnMod := by
  have hpow : gtpuSnMod = 2 ^ 16 := rfl
  rw [hpow]
  exact .of_two_pow (by decide)

theorem gtpuWindowShape : WindowShape gtpuSnMod gtpuRxWindowSize where
  two_windows := rfl
  pow := ⟨15, rfl⟩
  modulus := gtpuModulus

def storedAt (history : List NguRxAction) : List (Nat × GtpuRxSduInfo) :=
  history.filterMap fun
    | .stored position info => some (position, info)
    | _ => none

def releasedAt (history : List NguRxAction) : List (Nat × GtpuRxSduInfo) :=
  history.filterMap fun
    | .released position info => some (position, info)
    | _ => none

namespace GtpuTunnelNguRx
variable {ent ent' : GtpuTunnelNguRx} {next : Nat}

/-- The SDUs leave the window in the order of their positions, each once. -/
structure InOrder (ent : GtpuTunnelNguRx) : Prop where
  edge : ent.st.rxDeliv = ent.passed % gtpuSnMod
  sns : ∀ p ∈ storedAt ent.history, p.2.sn = some (p.1 % gtpuSnMod)
  storedOnce : ((storedAt ent.history).map Prod.fst).Nodup
  ascending : (releasedAt ent.history).Pairwise fun a b => a.1 < b.1
  wasStored : ∀ p ∈ releasedAt ent.history, p ∈ storedAt ent.history
  kept : ∀ p ∈ storedAt ent.history,
    p ∈ releasedAt ent.history ∧ p.1 < ent.passed ∨
      ent.passed ≤ p.1 ∧ ent.rxWindow.get? (p.1 % gtpuSnMod) = some p.2

/-- RX_NEXT is at most a window ahead, and what waits lies strictly between. -/
structure WithinWindow (ent : GtpuTunnelNguRx) : Prop where
  next_le : ent.rxModBase ent.st.rxNext ≤ gtpuRxWindowSize
  between : ∀ sn info, ent.rxWindow.get? sn = some info →
    0 < ent.rxModBase sn ∧ ent.rxModBase sn < ent.rxModBase ent.st.rxNext

/-- Some SDU is still in the window. -/
def Waiting (ent : GtpuTunnelNguRx) : Prop := ∃ sn info, ent.rxWindow.get? sn = some info

/-- What holds between any two statements of the entity; `next` lifts RX_NEXT. -/
structure NguInv (ent : GtpuTunnelNguRx) (next : Nat) : Prop where
  rxDeliv : ent.st.rxDeliv = ent.passed % gtpuSnMod
  rxNext : ent.st.rxNext = next % gtpuSnMod
  capacity : ent.rxWindow.capacity = gtpuRxWindowSize
  le : ent.passed ≤ next
  bound : next ≤ ent.passed + gtpuRxWindowSize
  keys : KeysIn ent.rxWindow gtpuSnMod ent.passed next
  last : ent.passed < next → (ent.rxWindow.get? ((next - 1) % gtpuSnMod)).isSome
  sns : ∀ p ∈ storedAt ent.history, p.2.sn = some (p.1 % gtpuSnMod)
  storedOnce : ((storedAt ent.history).map Prod.fst).Nodup
  ascending : (releasedAt ent.history).Pairwise fun a b => a.1 < b.1
  below : ∀ p ∈ releasedAt ent.history, p.1 < ent.passed
  wasStored : ∀ p ∈ releasedAt ent.history, p ∈ storedAt ent.history
  kept : ∀ p ∈ storedAt ent.history, p ∈ releasedAt ent.history ∨
    ent.passed ≤ p.1 ∧ p.1 < next ∧ ent.rxWindow.get? (p.1 % gtpuSnMod) = some p.2
  held : ∀ k info, ent.passed ≤ k → k < next → ent.rxWindow.get? (k % gtpuSnMod) = some info →
    (k, info) ∈ storedAt ent.history

theorem NguInv.inOrder (h : NguInv ent next) : InOrder ent where
  __ := h
  edge := h.rxDeliv
  kept := by
    intro p hp
    rcases h.kept p hp with hreleased | ⟨hle, -, hget⟩
    · exact .inl ⟨hreleased, h.below p hreleased⟩
    · exact .inr ⟨hle, hget⟩

theorem NguInv.near (h : NguInv ent next) : next < ent.passed + gtpuSnMod := by
  have := h.bound
  have hsize : gtpuSnMod = 2 * gtpuRxWindowSize := rfl
  have := gtpuWindowShape.pos
  omega

variable {k : Nat}

theorem NguInv.rxModBase_eq (h : NguInv ent next) (hle : ent.passed ≤ k)
    (hlt : k < ent.passed + gtpuSnMod) : ent.rxModBase (k % gtpuSnMod) = k - ent.passed := by
  rw [rxModBase, h.rxDeliv]
  exact rebase_lift gtpuModulus hle hlt

theorem NguInv.rxModBase_next (h : NguInv ent next) :
    ent.rxModBase ent.st.rxNext = next - ent.passed := by
  rw [h.rxNext]
  exact h.rxModBase_eq h.le h.near

@[simp] theorem rxModBase_deliv (ent : GtpuTunnelNguRx) : ent.rxModBase ent.st.rxDeliv = 0 :=
  rebase_self gtpuModulus

/-- Only the window, its edges and the SDUs in the history matter. -/
theorem NguInv.congr (h : NguInv ent next) (hdeliv : ent'.st.rxDeliv = ent.st.rxDeliv)
    (hnext : ent'.st.rxNext = ent.st.rxNext) (hwindow : ent'.rxWindow = ent.rxWindow)
    (hpassed : ent'.passed = ent.passed) (hstored : storedAt ent'.history = storedAt ent.history)
    (hreleased : releasedAt ent'.history = releasedAt ent.history) : NguInv ent' next where
  rxDeliv := by rw [hdeliv, hpassed, h.rxDeliv]
  rxNext := by rw [hnext, h.rxNext]
  capacity := by rw [hwindow, h.capacity]
  le := by rw [hpassed]; exact h.le
  bound := by rw [hpassed]; exact h.bound
  keys := by rw [hwindow, hpassed]; exact h.keys
  last := by rw [hwindow, hpassed]; exact h.last
  sns := by rw [hstored]; exact h.sns
  storedOnce := by rw [hstored]; exact h.storedOnce
  ascending := by rw [hreleased]; exact h.ascending
  below := by rw [hreleased, hpassed]; exact h.below
  wasStored := by rw [hreleased, hstored]; exact h.wasStored
  kept := by rw [hreleased, hstored, hpassed, hwindow]; exact h.kept
  held := by rw [hstored, hpassed, hwindow]; exact h.held

theorem NguInv.forward (h : NguInv ent next) (info : GtpuRxSduInfo) :
    NguInv (ent.forward info) next := by
  refine h.congr rfl rfl rfl rfl ?_ ?_ <;>
    simp [GtpuTunnelNguRx.forward, record, storedAt, releasedAt]

theorem NguInv.stopTimer (h : NguInv ent next) : NguInv ent.stopTimer next :=
  h.congr rfl rfl rfl rfl rfl rfl

theorem NguInv.startTimer (h : NguInv ent next) : NguInv ent.setRxReord.runTimer next :=
  h.congr rfl rfl rfl rfl rfl rfl

theorem create_inv (config : GtpuTunnelNguRxConfig) : NguInv (create config) 0 where
  rxDeliv := rfl
  rxNext := rfl
  capacity := rfl
  le := le_rfl
  bound := Nat.zero_le _
  keys := nofun
  last := nofun
  sns := nofun
  storedOnce := List.nodup_nil
  ascending := List.Pairwise.nil
  below := nofun
  wasStored := nofun
  kept := nofun
  held := nofun

theorem NguInv.skip (h : NguInv ent next) (hlt : ent.passed < next)
    (hnone : ent.rxWindow.get? ent.st.rxDeliv = none) : NguInv ent.advanceRxDeliv next where
  __ := h
  rxDeliv := by
    show (ent.st.rxDeliv + 1) % gtpuSnMod = (ent.passed + 1) % gtpuSnMod
    rw [h.rxDeliv, succ_mod_mod]
  le := hlt
  bound := h.bound.trans (by simp [advanceRxDeliv])
  keys := by
    intro sn info hget
    obtain ⟨k, hle, hk, rfl⟩ := h.keys sn info hget
    have hne : k ≠ ent.passed := by
      rintro rfl
      rw [h.rxDeliv] at hnone
      exact nomatch hnone.symm.trans hget
    exact ⟨k, Nat.lt_of_le_of_ne hle hne.symm, hk, rfl⟩
  last := fun _ => h.last hlt
  below := fun p hp => Nat.lt_succ_of_lt (h.below p hp)
  kept := by
    intro p hp
    rcases h.kept p hp with hreleased | ⟨hle, hk, hget⟩
    · exact .inl hreleased
    · have hne : p.1 ≠ ent.passed := by
        intro heq
        rw [heq, ← h.rxDeliv] at hget
        exact nomatch hnone.symm.trans hget
      exact .inr ⟨Nat.lt_of_le_of_ne hle hne.symm, hk, hget⟩
  held := fun k info hle hk hget => h.held k info (Nat.le_of_succ_le hle) hk hget

def released (ent : GtpuTunnelNguRx) (info : GtpuRxSduInfo) : GtpuTunnelNguRx :=
  { ent.record (.released ent.passed info) with rxWindow := ent.rxWindow.erase ent.st.rxDeliv }

theorem NguInv.get?_erase (h : NguInv ent next) (hle : ent.passed < k) (hk : k < next) :
    (ent.rxWindow.erase ent.st.rxDeliv).get? (k % gtpuSnMod) =
      ent.rxWindow.get? (k % gtpuSnMod) := by
  have hnear := h.near
  have hother := @get?_erase_near _ gtpuSnMod ent.rxWindow ent.passed k ent.passed hle.le (by omega)
    le_rfl (by omega)
  rw [h.rxDeliv, hother, if_neg hle.ne']

variable {info : GtpuRxSduInfo}

theorem NguInv.release (h : NguInv ent next) (hlt : ent.passed < next)
    (hget : ent.rxWindow.get? ent.st.rxDeliv = some info) :
    NguInv (ent.released info).advanceRxDeliv next := by
  have hstored : storedAt (ent.released info).advanceRxDeliv.history = storedAt ent.history := by
    simp [storedAt, released, advanceRxDeliv, record]
  have hreleased : releasedAt (ent.released info).advanceRxDeliv.history =
      releasedAt ent.history ++ [(ent.passed, info)] := by
    simp [releasedAt, released, advanceRxDeliv, record]
  have hmem : (ent.passed, info) ∈ storedAt ent.history :=
    h.held _ _ le_rfl hlt (by rw [← h.rxDeliv, hget])
  constructor
  · show (ent.st.rxDeliv + 1) % gtpuSnMod = (ent.passed + 1) % gtpuSnMod
    rw [h.rxDeliv, succ_mod_mod]
  · exact h.rxNext
  · show (ent.rxWindow.erase _).capacity = _
    rw [CircularMap.capacity_erase, h.capacity]
  · exact hlt
  · exact h.bound.trans (Nat.add_le_add_right (Nat.le_succ _) _)
  · show KeysIn (ent.rxWindow.erase ent.st.rxDeliv) _ (ent.passed + 1) _
    rw [h.rxDeliv]
    exact h.keys.erase
  · intro hlast
    have hlast : ent.passed < next - 1 := Nat.lt_sub_of_add_lt hlast
    show ((ent.rxWindow.erase ent.st.rxDeliv).get? _).isSome
    rw [h.get?_erase hlast (by omega)]
    exact h.last hlt
  · rw [hstored]
    exact h.sns
  · rw [hstored]
    exact h.storedOnce
  · rw [hreleased, List.pairwise_append]
    refine ⟨h.ascending, List.pairwise_singleton _ _, ?_⟩
    intro p hp q hq
    rw [List.mem_singleton.mp hq]
    exact h.below p hp
  · intro p hp
    rw [hreleased, List.mem_append, List.mem_singleton] at hp
    rcases hp with hp | rfl
    · exact Nat.lt_succ_of_lt (h.below p hp)
    · exact Nat.lt_succ_self _
  · intro p hp
    rw [hreleased, List.mem_append, List.mem_singleton] at hp
    rw [hstored]
    rcases hp with hp | rfl
    · exact h.wasStored p hp
    · exact hmem
  · intro p hp
    rw [hstored] at hp
    rw [hreleased, List.mem_append, List.mem_singleton]
    rcases h.kept p hp with hp | ⟨hle, hk, hget'⟩
    · exact .inl (.inl hp)
    · rcases eq_or_lt_of_le hle with heq | hgt
      · rw [← heq, ← h.rxDeliv, hget] at hget'
        exact .inl (.inr (Prod.ext heq.symm (Option.some.inj hget').symm))
      · refine .inr ⟨hgt, hk, ?_⟩
        show (ent.rxWindow.erase ent.st.rxDeliv).get? _ = _
        rw [h.get?_erase hgt hk, hget']
  · intro k other hle hk hget'
    have hgt : ent.passed < k := hle
    have hget' : (ent.rxWindow.erase ent.st.rxDeliv).get? (k % gtpuSnMod) = some other := hget'
    rw [h.get?_erase hgt hk] at hget'
    rw [hstored]
    exact h.held k other hgt.le hk hget'

/-- What a loop that takes SDUs out of the window leaves alone. -/
structure Delivered (ent ent' : GtpuTunnelNguRx) (next : Nat) : Prop where
  inv : NguInv ent' next
  config : ent'.config = ent.config
  timer : ent'.reorderingTimerRunning = ent.reorderingTimerRunning
  rxReord : ent'.st.rxReord = ent.st.rxReord
  passed : ent.passed ≤ ent'.passed

theorem Delivered.refl (h : NguInv ent next) : Delivered ent ent next :=
  ⟨h, rfl, rfl, rfl, le_rfl⟩

theorem Delivered.trans {mid : GtpuTunnelNguRx} (h : Delivered ent mid next)
    (h' : Delivered mid ent' next) : Delivered ent ent' next where
  inv := h'.inv
  config := h'.config.trans h.config
  timer := h'.timer.trans h.timer
  rxReord := h'.rxReord.trans h.rxReord
  passed := h.passed.trans h'.passed

theorem passed_turn (ent : GtpuTunnelNguRx) :
    ent.releaseSdu.advanceRxDeliv.passed = ent.passed + 1 := by
  unfold releaseSdu
  split <;> rfl

section
variable (h : NguInv ent next)
include h

theorem NguInv.turn (hlt : ent.passed < next) : Delivered ent ent.releaseSdu.advanceRxDeliv next := by
  have hpassed : ent.passed ≤ ent.releaseSdu.advanceRxDeliv.passed :=
    (passed_turn ent).symm ▸ Nat.le_succ _
  unfold releaseSdu at hpassed ⊢
  split
  · rename_i info hget
    exact ⟨h.release hlt hget, rfl, rfl, rfl, Nat.le_succ _⟩
  · rename_i hnone
    exact ⟨h.skip hlt hnone, rfl, rfl, rfl, Nat.le_succ _⟩

theorem NguInv.deliv_eq_next_iff : ent.st.rxDeliv = ent.st.rxNext ↔ ent.passed = next := by
  rw [h.rxDeliv, h.rxNext]
  constructor
  · intro heq
    have hnear := h.near
    have hle := h.le
    exact @mod_inj_of_near _ ent.passed _ _ le_rfl (by omega) hle hnear heq
  · rintro rfl
    rfl

theorem NguInv.get?_next (heq : ent.passed = next) : ent.rxWindow.get? ent.st.rxDeliv = none := by
  have hnear := h.near
  rw [h.rxDeliv]
  exact h.keys.get?_eq_none hnear.le heq.ge (by omega)

theorem NguInv.deliverConsecutive {turns : Nat} (hturns : next - ent.passed ≤ turns) :
    Delivered ent (deliverConsecutive turns ent) next ∧
      (GtpuTunnelNguRx.deliverConsecutive turns ent).rxWindow.get?
        (GtpuTunnelNguRx.deliverConsecutive turns ent).st.rxDeliv = none := by
  induction turns generalizing ent with
  | zero =>
    have heq : ent.passed = next := le_antisymm h.le (Nat.sub_eq_zero_iff_le.mp (by omega))
    exact ⟨.refl h, h.get?_next heq⟩
  | succ turns ih =>
    rw [GtpuTunnelNguRx.deliverConsecutive]
    split
    · rename_i hloop
      have hne : ent.passed ≠ next := fun heq => hloop.1 (h.deliv_eq_next_iff.mpr heq)
      have hturn := h.turn (Nat.lt_of_le_of_ne h.le hne)
      have hpassed := passed_turn ent
      obtain ⟨hrest, hnone⟩ := ih hturn.inv (by omega)
      exact ⟨hturn.trans hrest, hnone⟩
    · rename_i hend
      refine ⟨.refl h, ?_⟩
      by_cases heq : ent.passed = next
      · exact h.get?_next heq
      · rw [not_and] at hend
        have hcontains := hend fun hsame => heq (h.deliv_eq_next_iff.mp hsame)
        simpa [CircularMap.contains] using hcontains

theorem NguInv.deliverAllConsecutiveSdus : Delivered ent ent.deliverAllConsecutiveSdus next ∧
      ent.deliverAllConsecutiveSdus.rxWindow.get? ent.deliverAllConsecutiveSdus.st.rxDeliv = none :=
  h.deliverConsecutive h.rxModBase_next.ge

theorem NguInv.deliverUntilReord {turns reord : Nat}
    (hreord : ent.st.rxReord = reord % gtpuSnMod) (hge : ent.passed ≤ reord) (hle : reord ≤ next)
    (hturns : reord - ent.passed ≤ turns) :
    Delivered ent (deliverUntilReord turns ent) next ∧
      (GtpuTunnelNguRx.deliverUntilReord turns ent).passed = reord := by
  induction turns generalizing ent with
  | zero =>
    have heq : ent.passed = reord := le_antisymm hge (Nat.sub_eq_zero_iff_le.mp (by omega))
    exact ⟨.refl h, heq⟩
  | succ turns ih =>
    have hnear := h.near
    rw [GtpuTunnelNguRx.deliverUntilReord]
    split
    · rename_i hloop
      have hne : ent.passed ≠ reord := by
        rintro rfl
        exact hloop (h.rxDeliv.trans hreord.symm)
      have hturn := h.turn (by omega)
      have hpassed := passed_turn ent
      obtain ⟨hrest, hend⟩ :=
        ih hturn.inv (hturn.rxReord.trans hreord) (by omega) (by omega)
      exact ⟨hturn.trans hrest, hend⟩
    · rename_i hend
      rw [not_ne_iff, h.rxDeliv, hreord] at hend
      exact ⟨.refl h,
        @mod_inj_of_near _ ent.passed _ _ le_rfl (by omega) hge (by omega) hend⟩

end

/-- While the timer runs, RX_REORD stays within the interval. -/
structure TimerInv (ent : GtpuTunnelNguRx) (next reord : Nat) : Prop where
  rxReord : ent.st.rxReord = reord % gtpuSnMod
  le : ent.passed ≤ reord
  le_next : reord ≤ next

/-- What holds between two events. -/
structure Settled (ent : GtpuTunnelNguRx) (next : Nat) : Prop where
  inv : NguInv ent next
  gap : ent.rxWindow.get? ent.st.rxDeliv = none
  timer : ent.reorderingTimerRunning = true → ∃ reord, TimerInv ent next reord

theorem Settled.withinWindow (h : Settled ent next) : WithinWindow ent where
  next_le := by
    rw [h.inv.rxModBase_next]
    have := h.inv.bound
    omega
  between := by
    intro sn info hget
    obtain ⟨k, hle, hk, rfl⟩ := h.inv.keys sn info hget
    have hnear := h.inv.near
    have hne : k ≠ ent.passed := by
      rintro rfl
      rw [← h.inv.rxDeliv, h.gap] at hget
      cases hget
    rw [h.inv.rxModBase_eq hle (by omega), h.inv.rxModBase_next]
    omega

theorem NguInv.waiting_iff (h : NguInv ent next) : Waiting ent ↔ ent.passed < next := by
  constructor
  · rintro ⟨sn, info, hget⟩
    obtain ⟨k, hle, hk, rfl⟩ := h.keys sn info hget
    exact hle.trans_lt hk
  · intro hlt
    obtain ⟨info, hget⟩ := Option.isSome_iff_exists.mp (h.last hlt)
    exact ⟨_, info, hget⟩

theorem NguInv.behind_iff (h : NguInv ent next) :
    ent.rxModBase ent.st.rxDeliv < ent.rxModBase ent.st.rxNext ↔ ent.passed < next := by
  rw [rxModBase_deliv, h.rxModBase_next, Nat.sub_pos_iff_lt]

theorem Settled.start (h : NguInv ent next)
    (hgap : ent.rxWindow.get? ent.st.rxDeliv = none) : Settled ent.setRxReord.runTimer next where
  inv := h.startTimer
  gap := hgap
  timer := fun _ => ⟨next, h.rxNext, h.le, le_rfl⟩

theorem Settled.idle (h : NguInv ent next) (hgap : ent.rxWindow.get? ent.st.rxDeliv = none)
    (htimer : ent.reorderingTimerRunning = false) : Settled ent next where
  inv := h
  gap := hgap
  timer := fun hrunning => nomatch htimer.symm.trans hrunning

/-- Nothing waits unless the timer runs. -/
def Guarded (ent : GtpuTunnelNguRx) : Prop := Waiting ent → ent.reorderingTimerRunning = true

variable {reord : Nat}

section
variable (h : NguInv ent next)
include h

section
variable (ht : TimerInv ent next reord)
include ht

theorem TimerInv.inside_iff :
    ent.insideRxWindow ent.st.rxReord = true ↔ reord < ent.passed + gtpuRxWindowSize := by
  have hnear := h.near
  have hle := ht.le
  have hle' := ht.le_next
  rw [insideRxWindow, ht.rxReord, h.rxModBase_eq hle (by omega), decide_eq_true_iff]
  omega

theorem TimerInv.edge_iff : ent.rxModBase ent.st.rxReord = gtpuRxWindowSize ↔
      reord = ent.passed + gtpuRxWindowSize := by
  have hnear := h.near
  have hle := ht.le
  have hle' := ht.le_next
  rw [ht.rxReord, h.rxModBase_eq hle (by omega)]
  omega

/-- The handler of an expiry that is not taken for an outdated one. -/
theorem NguInv.expire (hstopped : ent.reorderingTimerRunning = false)
    (hinside : reord < ent.passed + gtpuRxWindowSize) (hconfig : ent.config.tReordering ≠ 0) :
    Settled ent.handleTReorderingExpire next ∧ Guarded ent.handleTReorderingExpire := by
  have hnear := h.near
  have hle := ht.le_next
  have hbase : ent.rxModBase ent.st.rxReord = reord - ent.passed := by
    rw [ht.rxReord, h.rxModBase_eq ht.le (by omega)]
  obtain ⟨huntil, -⟩ := h.deliverUntilReord ht.rxReord ht.le ht.le_next hbase.ge
  obtain ⟨hrest, hgap⟩ := huntil.inv.deliverAllConsecutiveSdus
  have hboth := huntil.trans hrest
  rw [handleTReorderingExpire, if_neg (by simp [hstopped]),
    if_neg (by simp [(ht.inside_iff h).mpr hinside])]
  dsimp only
  split
  · rw [if_neg (by rwa [hboth.config])]
    exact ⟨.start hboth.inv hgap, fun _ => rfl⟩
  · rename_i hend
    refine ⟨.idle hboth.inv hgap (hboth.timer.trans hstopped), fun hwaiting => ?_⟩
    exact absurd (hboth.inv.behind_iff.mpr (hboth.inv.waiting_iff.mp hwaiting)) hend

/-- At the upper edge the expiry changes nothing, and something waits. -/
theorem NguInv.expire_edge
    (hstopped : ent.reorderingTimerRunning = false) (hedge : reord = ent.passed + gtpuRxWindowSize) :
    ent.handleTReorderingExpire = ent ∧ Waiting ent := by
  have houtside : ent.insideRxWindow ent.st.rxReord = false := by
    rw [← Bool.not_eq_true, ht.inside_iff h]
    omega
  refine ⟨?_, h.waiting_iff.mpr ?_⟩
  · rw [handleTReorderingExpire, if_neg (by simp [hstopped]), if_pos (by simp [houtside])]
  · have hpos := gtpuWindowShape.pos
    have hle := ht.le_next
    omega

end

theorem NguInv.outside_of_passed (hreord : ent.st.rxReord = reord % gtpuSnMod)
    (hlt : reord < ent.passed) (hle : ent.passed ≤ reord + gtpuRxWindowSize) :
    ent.insideRxWindow ent.st.rxReord = false := by
  have hsize : gtpuSnMod = 2 * gtpuRxWindowSize := rfl
  have hturn : reord % gtpuSnMod = (reord + gtpuSnMod) % gtpuSnMod := (Nat.add_mod_right _ _).symm
  have hbase : ent.rxModBase ent.st.rxReord = reord + gtpuSnMod - ent.passed := by
    rw [hreord, hturn, h.rxModBase_eq (by omega) (by omega)]
  rw [insideRxWindow, hbase, decide_eq_false_iff_not]
  omega

/-- The stop of the timer leaves it running only with RX_REORD in the window. -/
theorem NguInv.stopPassed (hgap : ent.rxWindow.get? ent.st.rxDeliv = none)
    (htimer : ent.reorderingTimerRunning = true → ∃ reord, ent.st.rxReord = reord % gtpuSnMod ∧
      ent.passed ≤ reord + gtpuRxWindowSize ∧ reord ≤ next) :
    Settled (if ent.reorderingTimerRunning ∧ ent.insideRxWindow ent.st.rxReord = false then
      ent.stopTimer else ent) next := by
  split
  · exact .idle h.stopTimer hgap rfl
  · rename_i hkept
    refine ⟨h, hgap, fun hrunning => ?_⟩
    obtain ⟨reord, hreord, hle, hnext⟩ := htimer hrunning
    refine ⟨reord, hreord, ?_, hnext⟩
    by_contra hlt
    exact hkept ⟨hrunning, h.outside_of_passed hreord (Nat.lt_of_not_le hlt) hle⟩

theorem NguInv.updateReordering (hgap : ent.rxWindow.get? ent.st.rxDeliv = none)
    (htimer : ent.reorderingTimerRunning = true → ∃ reord, ent.st.rxReord = reord % gtpuSnMod ∧
      ent.passed ≤ reord + gtpuRxWindowSize ∧ reord ≤ next)
    (hconfig : ent.config.tReordering ≠ 0) :
    Settled ent.updateReordering next ∧ Guarded ent.updateReordering := by
  have hsettled := h.stopPassed hgap htimer
  have hsame : (if ent.reorderingTimerRunning ∧ ent.insideRxWindow ent.st.rxReord = false then
      ent.stopTimer else ent).config = ent.config := by
    split <;> rfl
  unfold GtpuTunnelNguRx.updateReordering
  dsimp only
  generalize (if ent.reorderingTimerRunning ∧ ent.insideRxWindow ent.st.rxReord = false then
      ent.stopTimer else ent) = mid at hsettled hsame
  rw [if_neg (by rwa [hsame])]
  split
  · exact ⟨.start hsettled.inv hsettled.gap, fun _ => rfl⟩
  · rename_i hkept
    refine ⟨hsettled, fun hwaiting => ?_⟩
    by_contra hstopped
    exact hkept ⟨by simpa using hstopped,
      hsettled.inv.behind_iff.mpr (hsettled.inv.waiting_iff.mp hwaiting)⟩

theorem NguInv.store (hle : ent.passed ≤ k)
    (hlt : k < ent.passed + gtpuRxWindowSize) (hnone : ent.rxWindow.get? (k % gtpuSnMod) = none)
    (hsn : info.sn = some (k % gtpuSnMod)) :
    NguInv (ent.storeSdu (k % gtpuSnMod) info) (max next (k + 1)) := by
  have hsize : gtpuSnMod = 2 * gtpuRxWindowSize := rfl
  have hbound := h.bound
  have hle' := h.le
  have hbase := h.rxModBase_eq hle (by omega)
  have hstored : storedAt (ent.storeSdu (k % gtpuSnMod) info).history =
      storedAt ent.history ++ [(k, info)] := by
    simp [storedAt, storeSdu, record, hbase, Nat.add_sub_cancel' hle]
  have hreleased : releasedAt (ent.storeSdu (k % gtpuSnMod) info).history =
      releasedAt ent.history := by
    simp [releasedAt, storeSdu, record]
  have hget : ∀ j, ent.passed ≤ j → j < ent.passed + gtpuRxWindowSize →
      (ent.rxWindow.overwrite (k % gtpuSnMod) info).get? (j % gtpuSnMod) =
        if j = k then some info else ent.rxWindow.get? (j % gtpuSnMod) := fun j hj hj' =>
    get?_overwrite_near gtpuWindowShape h.capacity hj hj' hle hlt info
  constructor
  · exact h.rxDeliv
  · show (if ent.rxModBase (k % gtpuSnMod) ≥ ent.rxModBase ent.st.rxNext then _ else _) = _
    rw [hbase, h.rxModBase_next, succ_mod_mod, h.rxNext]
    split
    · rw [max_eq_right (by omega)]
    · rw [max_eq_left (by omega)]
  · exact (CircularMap.capacity_overwrite _ _ _).trans h.capacity
  · exact hle'.trans (le_max_left _ _)
  · exact max_le hbound hlt
  · exact h.keys.overwrite hle (lt_max_of_lt_right (Nat.lt_succ_self k)) (le_max_left _ _) info
  · intro _
    show ((ent.rxWindow.overwrite _ _).get? _).isSome
    rw [hget _ (by omega) (by omega)]
    split
    · rfl
    · have hmax : max next (k + 1) = next := by omega
      rw [hmax]
      exact h.last (by omega)
  · intro p hp
    rw [hstored, List.mem_append, List.mem_singleton] at hp
    rcases hp with hp | rfl
    · exact h.sns p hp
    · exact hsn
  · rw [hstored, List.map_append, List.nodup_append]
    refine ⟨h.storedOnce, List.pairwise_singleton _ _, ?_⟩
    intro position hmem other hnew heq
    rw [List.map_singleton, List.mem_singleton] at hnew
    have hnew := heq.trans hnew
    obtain ⟨p, hp, rfl⟩ := List.mem_map.mp hmem
    rcases h.kept p hp with hp | ⟨-, -, hthere⟩
    · exact absurd (h.below p hp) (by omega)
    · rw [hnew, hnone] at hthere
      cases hthere
  · rw [hreleased]
    exact h.ascending
  · rw [hreleased]
    exact h.below
  · intro p hp
    rw [hreleased] at hp
    rw [hstored]
    exact List.mem_append_left _ (h.wasStored p hp)
  · intro p hp
    rw [hstored, List.mem_append, List.mem_singleton] at hp
    rw [hreleased]
    rcases hp with hp | rfl
    · rcases h.kept p hp with hp | ⟨hpassed, hnext, hthere⟩
      · exact .inl hp
      · refine .inr ⟨hpassed, lt_max_of_lt_left hnext, ?_⟩
        show (ent.rxWindow.overwrite _ _).get? _ = _
        rw [hget _ hpassed (by omega), if_neg, hthere]
        intro heq
        rw [heq, hnone] at hthere
        cases hthere
    · refine .inr ⟨hle, lt_max_of_lt_right (Nat.lt_succ_self _), ?_⟩
      show (ent.rxWindow.overwrite _ _).get? _ = _
      rw [hget _ hle hlt, if_pos rfl]
  · intro j other hj hj' hthere
    rw [hstored, List.mem_append, List.mem_singleton]
    have hthere : (ent.rxWindow.overwrite (k % gtpuSnMod) info).get? (j % gtpuSnMod) = some other :=
      hthere
    rw [hget j hj (by omega)] at hthere
    split at hthere
    · rename_i heq
      cases hthere
      exact .inr (heq ▸ rfl)
    · refine .inl (h.held j other hj ?_ hthere)
      have hne : j ≠ k := ‹_›
      by_contra hge
      have hempty := h.keys.get?_eq_none (by omega) (Nat.le_of_not_lt hge) (by omega)
      rw [hempty] at hthere
      cases hthere

end

/-- Between two events. -/
def Good (ent : GtpuTunnelNguRx) : Prop := ∃ next, Settled ent next

theorem Settled.forward (h : Settled ent next) (info : GtpuRxSduInfo) :
    Settled (ent.forward info) next where
  inv := h.inv.forward info
  gap := h.gap
  timer := fun hrunning =>
    have ⟨reord, ht⟩ := h.timer hrunning
    ⟨reord, ht.rxReord, ht.le, ht.le_next⟩

/-- The window and the timer before an SDU is delivered in sequence. -/
theorem Settled.deliverStored (h : Settled ent next) (hle : ent.passed ≤ k)
    (hlt : k < ent.passed + gtpuRxWindowSize) (hnone : ent.rxWindow.get? (k % gtpuSnMod) = none)
    (hsn : info.sn = some (k % gtpuSnMod)) : let ent' := ent.storeSdu (k % gtpuSnMod) info
    let ent' := if ent'.rxModBase (k % gtpuSnMod) = ent'.rxModBase ent'.st.rxDeliv then
      ent'.deliverAllConsecutiveSdus else ent'
    Delivered (ent.storeSdu (k % gtpuSnMod) info) ent' (max next (k + 1)) ∧
      ent'.rxWindow.get? ent'.st.rxDeliv = none := by
  have hsize : gtpuSnMod = 2 * gtpuRxWindowSize := rfl
  have hstored := h.inv.store hle hlt hnone hsn
  dsimp only
  split
  · exact hstored.deliverAllConsecutiveSdus
  · rename_i hne
    refine ⟨.refl hstored, ?_⟩
    have hbase : (ent.storeSdu (k % gtpuSnMod) info).rxModBase (k % gtpuSnMod) = k - ent.passed :=
      h.inv.rxModBase_eq hle (by omega)
    rw [hbase, rxModBase_deliv] at hne
    show (ent.rxWindow.overwrite (k % gtpuSnMod) info).get? ent.st.rxDeliv = none
    rw [h.inv.rxDeliv, get?_overwrite_near gtpuWindowShape h.inv.capacity le_rfl
      (Nat.lt_add_of_pos_right gtpuWindowShape.pos) hle hlt, if_neg (by omega), ← h.inv.rxDeliv,
      h.gap]

theorem Settled.applyReordering (h : Settled ent next) (hconfig : ent.config.tReordering ≠ 0)
    {sn : Nat} (hsn : sn < gtpuSnMod) (hinfo : info.sn = some sn) :
    Good (ent.applyReordering sn info) ∧
      (Guarded ent → Guarded (ent.applyReordering sn info)) := by
  rw [GtpuTunnelNguRx.applyReordering]
  split
  · exact ⟨⟨next, h.forward info⟩, fun hguarded => hguarded⟩
  rename_i hinside
  rw [rxModBase_deliv, if_neg (Nat.not_lt_zero _)]
  split
  · exact ⟨⟨next, h⟩, fun hguarded => hguarded⟩
  rename_i hfresh
  obtain ⟨k, hle, hlt, rfl⟩ := exists_lift gtpuModulus ent.passed hsn
  have hnone : ent.rxWindow.get? (k % gtpuSnMod) = none := by
    simpa [CircularMap.contains] using hfresh
  have hnear : k < ent.passed + gtpuRxWindowSize := by
    simp only [insideRxWindow, h.inv.rxModBase_eq hle hlt, Bool.not_eq_true',
      decide_eq_false_iff_not, not_not] at hinside
    omega
  obtain ⟨hdelivered, hgap⟩ := h.deliverStored hle hnear hnone hinfo
  have htimer : (ent.storeSdu (k % gtpuSnMod) info).reorderingTimerRunning = true → ∃ reord,
      (ent.storeSdu (k % gtpuSnMod) info).st.rxReord = reord % gtpuSnMod ∧
        max next (k + 1) ≤ reord + gtpuRxWindowSize ∧ reord ≤ max next (k + 1) := by
    intro hrunning
    obtain ⟨reord, ht⟩ := h.timer hrunning
    have hreord := ht.le
    have hnext := ht.le_next
    have hbound := h.inv.bound
    exact ⟨reord, ht.rxReord, by omega, by omega⟩
  obtain ⟨hsettled, hguarded⟩ := hdelivered.inv.updateReordering hgap (by
    intro hrunning
    obtain ⟨reord, hreord, hbound, hnext⟩ := htimer (hdelivered.timer ▸ hrunning)
    have hle := hdelivered.inv.le
    exact ⟨reord, hdelivered.rxReord.trans hreord, by omega, hnext⟩)
    (by rwa [hdelivered.config])
  exact ⟨⟨_, hsettled⟩, fun _ => hguarded⟩

@[simp] theorem config_turn (ent : GtpuTunnelNguRx) :
    ent.releaseSdu.advanceRxDeliv.config = ent.config := by
  unfold releaseSdu
  split <;> rfl

@[simp] theorem config_deliverConsecutive (turns : Nat) (ent : GtpuTunnelNguRx) :
    (deliverConsecutive turns ent).config = ent.config := by
  induction turns generalizing ent with
  | zero => rfl
  | succ turns ih =>
    rw [deliverConsecutive]
    split
    · rw [ih, config_turn]
    · rfl

@[simp] theorem config_deliverUntilReord (turns : Nat) (ent : GtpuTunnelNguRx) :
    (deliverUntilReord turns ent).config = ent.config := by
  induction turns generalizing ent with
  | zero => rfl
  | succ turns ih =>
    rw [deliverUntilReord]
    split
    · rw [ih, config_turn]
    · rfl

@[simp] theorem config_handleTReorderingExpire (ent : GtpuTunnelNguRx) :
    ent.handleTReorderingExpire.config = ent.config := by
  unfold handleTReorderingExpire deliverAllConsecutiveSdus
  dsimp only
  repeat' split
  all_goals simp [setRxReord, runTimer]

@[simp] theorem config_updateReordering (ent : GtpuTunnelNguRx) :
    ent.updateReordering.config = ent.config := by
  have hsame : (if ent.reorderingTimerRunning ∧ ent.insideRxWindow ent.st.rxReord = false then
      ent.stopTimer else ent).config = ent.config := by
    split <;> rfl
  unfold updateReordering
  dsimp only
  repeat' split
  all_goals simp [setRxReord, runTimer, stopTimer]

theorem config_applyReordering (ent : GtpuTunnelNguRx) (sn : Nat) (info : GtpuRxSduInfo) :
    (ent.applyReordering sn info).config = ent.config := by
  unfold applyReordering deliverAllConsecutiveSdus
  dsimp only
  repeat' split
  all_goals simp [forward, record, storeSdu]

theorem config_handlePdu (ent : GtpuTunnelNguRx) (pdu : GtpuDissectedPdu) (withinAmbr : Bool) :
    (ent.handlePdu pdu withinAmbr).config = ent.config := by
  unfold handlePdu
  dsimp only
  repeat' split
  all_goals first | rfl | exact config_applyReordering _ _ _

theorem config_step {event : Event} (h : step ent event = some ent') :
    ent'.config = ent.config := by
  cases event with
  | pdu pdu withinAmbr =>
    cases h
    exact config_handlePdu ent pdu withinAmbr
  | reorderingTimerExpired =>
    rw [step] at h
    split at h
    · cases h
      exact config_handleTReorderingExpire _
    · cases h

theorem Settled.handlePdu (h : Settled ent next) (hconfig : ent.config.tReordering ≠ 0)
    (pdu : GtpuDissectedPdu) (withinAmbr : Bool) :
    Good (ent.handlePdu pdu withinAmbr) ∧ (Guarded ent → Guarded (ent.handlePdu pdu withinAmbr)) := by
  have hsame : Good ent ∧ (Guarded ent → Guarded ent) := ⟨⟨next, h⟩, id⟩
  have hforward : ∀ info, Good (ent.forward info) ∧ (Guarded ent → Guarded (ent.forward info)) :=
    fun info => ⟨⟨next, h.forward info⟩, id⟩
  rw [GtpuTunnelNguRx.handlePdu]
  split
  · exact hsame
  split
  · exact hsame
  split
  · exact hforward _
  split
  · exact hsame
  dsimp only
  split
  · exact hforward _
  · exact h.applyReordering hconfig pdu.hdr.seqNumber.toNat_lt rfl

/-- The expiry is not handled while RX_REORD lies a whole window ahead of RX_DELIV. -/
def ExpiryInside (ent : GtpuTunnelNguRx) : Event → Prop
  | .pdu _ _ => True
  | .reorderingTimerExpired => ent.rxModBase ent.st.rxReord ≠ gtpuRxWindowSize

instance (ent : GtpuTunnelNguRx) (event : Event) : Decidable (ExpiryInside ent event) :=
  match event with
  | .pdu _ _ => isTrue trivial
  | .reorderingTimerExpired => inferInstanceAs (Decidable (_ ≠ _))

theorem Settled.step (h : Settled ent next) (hconfig : ent.config.tReordering ≠ 0) {event : Event}
    (hstep : step ent event = some ent') :
    Good ent' ∧ (Guarded ent → (Guarded ent' ↔ ExpiryInside ent event)) := by
  cases event with
  | pdu pdu withinAmbr =>
    cases hstep
    obtain ⟨hgood, hguarded⟩ := h.handlePdu hconfig pdu withinAmbr
    refine ⟨hgood, fun hbefore => ?_⟩
    exact iff_of_true (hguarded hbefore) trivial
  | reorderingTimerExpired =>
    rw [GtpuTunnelNguRx.step] at hstep
    split at hstep
    · rename_i hrunning
      cases hstep
      obtain ⟨reord, ht⟩ := h.timer hrunning
      have ht' : TimerInv ent.stopTimer next reord := ⟨ht.rxReord, ht.le, ht.le_next⟩
      have hedge := ht.edge_iff h.inv
      by_cases hreord : reord = ent.passed + gtpuRxWindowSize
      · obtain ⟨hsame, hwaiting⟩ := h.inv.stopTimer.expire_edge ht' rfl hreord
        rw [reorderingCallback, hsame]
        refine ⟨⟨next, .idle h.inv.stopTimer h.gap rfl⟩, fun _ => iff_of_false ?_ ?_⟩
        · exact fun hguarded => nomatch hguarded hwaiting
        · exact fun hinside => hinside (hedge.mpr hreord)
      · have hle := ht.le_next
        have hbound := h.inv.bound
        obtain ⟨hsettled, hguarded⟩ := h.inv.stopTimer.expire ht' rfl
          (show reord < ent.passed + gtpuRxWindowSize by omega) hconfig
        exact ⟨⟨next, hsettled⟩, fun _ => iff_of_true hguarded fun heq => hreord (hedge.mp heq)⟩
    · cases hstep

theorem reaches_good {config : GtpuTunnelNguRxConfig} (hconfig : config.tReordering ≠ 0)
    {guard : GtpuTunnelNguRx → Event → Prop} (h : Runs.Reaches step guard (create config) ent) :
    Good ent ∧ ent.config = config := by
  have hstart : Good (create config) := ⟨0, .idle (create_inv config) rfl rfl⟩
  refine h.invariant (I := fun ent => Good ent ∧ ent.config = config) ⟨hstart, rfl⟩ ?_
  rintro mid event after ⟨⟨next, hsettled⟩, hsame⟩ - hstep
  exact ⟨(hsettled.step (hsame ▸ hconfig) hstep).1, (config_step hstep).trans hsame⟩

theorem reaches_guarded {config : GtpuTunnelNguRxConfig} (hconfig : config.tReordering ≠ 0)
    (h : Runs.Reaches step ExpiryInside (create config) ent) : Guarded ent := by
  induction h with
  | start => exact fun ⟨sn, info, hget⟩ => nomatch hget
  | next hbefore hinside hstep ih =>
    obtain ⟨⟨next, hsettled⟩, hsame⟩ := reaches_good hconfig hbefore
    exact ((hsettled.step (hsame ▸ hconfig) hstep).2 ih).mpr hinside

/-- In every run the SDUs leave the window in order and the edges stay within a window. Nothing waits
without the timer as long as, and no longer than, every expiry finds RX_REORD inside the window. -/
theorem nguRx_reordering (config : GtpuTunnelNguRxConfig) (hconfig : config.tReordering ≠ 0) :
    (∀ ent, Runs.Reaches step (fun _ _ => True) (create config) ent →
      InOrder ent ∧ WithinWindow ent) ∧
    ∀ ent, Runs.Reaches step ExpiryInside (create config) ent → Guarded ent ∧
      ∀ event ent', step ent event = some ent' → (Guarded ent' ↔ ExpiryInside ent event) := by
  constructor
  · intro ent h
    obtain ⟨⟨next, hsettled⟩, -⟩ := reaches_good hconfig h
    exact ⟨hsettled.inv.inOrder, hsettled.withinWindow⟩
  · intro ent h
    have hguarded := reaches_guarded hconfig h
    obtain ⟨⟨next, hsettled⟩, hsame⟩ := reaches_good hconfig h
    exact ⟨hguarded, fun event ent' hstep =>
      (hsettled.step (hsame ▸ hconfig) hstep).2 hguarded⟩

def sampleGPdu (sn : UInt16) : GtpuDissectedPdu where
  buf := [0x34, 0xff, 0xaa]
  hdr := {
    flags := { version := 1, protocolType := 1, extHdr := true, seqNumber := true }
    messageType := gtpuMsgDataPdu
    seqNumber := sn
    extList := [⟨GtpuExtensionHeaderType.pduSessionContainer, ⟨0, [0x00, 0x01]⟩⟩] }
  hdrLen := 2

/-- The first PDU is lost; the second one waits until the timer expires. -/
theorem nguRx_reordering_oneLost :
    ∃ ent, Runs.Reaches step ExpiryInside (create { tReordering := 10 }) ent ∧
      releasedAt ent.history = [(1, ⟨[0xaa], 1, some 1⟩)] ∧ Guarded ent := by
  have hrun : (Runs.runAll (Runs.guarded step ExpiryInside) (create { tReordering := 10 })
      [.pdu (sampleGPdu 1) true, .reorderingTimerExpired]).map
        (fun ent => releasedAt ent.history) = some [(1, ⟨[0xaa], 1, some 1⟩)] := by
    decide +kernel
  obtain ⟨ent, hrun, hreleased⟩ := Option.map_eq_some_iff.mp hrun
  have hreaches := Runs.reaches_of_runGuarded .start hrun
  exact ⟨ent, hreaches, hreleased,
    ((nguRx_reordering { tReordering := 10 } (by decide)).2 ent hreaches).1⟩

/-- The first PDU to arrive is the last one of the window. RX_REORD then lies a whole window ahead,
and the expiry is taken for an outdated one. -/
theorem nguRx_fullWindowGap_stranded :
    ∃ ent, Runs.Reaches step (fun _ _ => True) (create { tReordering := 10 }) ent ∧
      Waiting ent ∧ ent.reorderingTimerRunning = false := by
  have hrun : (Runs.runAll step (create { tReordering := 10 })
      [.pdu (sampleGPdu 32767) true, .reorderingTimerExpired]).map
        (fun ent => ((ent.rxWindow.get? 32767).isSome, ent.reorderingTimerRunning)) =
          some (true, false) := by
    decide +kernel
  obtain ⟨ent, hrun, hobserved⟩ := Option.map_eq_some_iff.mp hrun
  obtain ⟨hthere, htimer⟩ := Prod.mk.inj hobserved
  obtain ⟨info, hget⟩ := Option.isSome_iff_exists.mp hthere
  exact ⟨ent, Runs.reaches_of_runAll .start (fun _ _ _ => trivial) hrun, ⟨_, info, hget⟩, htimer⟩

end GtpuTunnelNguRx
end Srsran.Gtpu
