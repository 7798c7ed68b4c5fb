import Srsran.Rlc.TxAmEntity

/-! The window of the AM transmitter as an interval of SNs, and what its queue of SDUs hands out. -/
namespace Srsran.Rlc
open ModOrder Srsran.Adt

/-! The queue of SDUs. -/
namespace RlcSduQueue
variable {q : RlcSduQueue} {sdu : RlcSdu}

theorem queue_write : (q.write sdu).1.queue = q.queue ++ (if (q.write sdu).2 then [sdu] else []) := by
  rw [write]
  split
  · exact (List.append_nil _).symm
  · cases sdu.pdcpSn with
    | none =>
      dsimp only
      split
      · exact (List.append_nil _).symm
      · rfl
    | some pdcpSn =>
      dsimp only
      split
      · exact (List.append_nil _).symm
      · split
        · exact (List.append_nil _).symm
        · rfl

theorem queue_tryDiscard (pdcpSn : Nat) : (q.tryDiscard pdcpSn).1.queue = q.queue := by
  rw [tryDiscard]
  split <;> rfl

/-- The SDU that is read and those behind it are the end of the queue. -/
theorem queue_readLoop (sdus : List RlcSdu) (q : RlcSduQueue) :
    ((readLoop sdus q).2.toList ++ (readLoop sdus q).1.queue) <:+ sdus := by
  induction sdus generalizing q with
  | nil => exact List.suffix_refl _
  | cons sdu rest ih =>
    have hqueue := queue_readFront { q with queue := rest } sdu
    rw [readLoop]
    generalize readFront { q with queue := rest } sdu = front at hqueue ⊢
    obtain ⟨q', valid⟩ := front
    cases valid with
    | true =>
      have hrest : q'.queue = rest := hqueue
      rw [Option.toList_some, hrest]
      exact List.suffix_refl _
    | false => exact (ih q').trans (List.suffix_cons sdu rest)

theorem queue_read : (q.read.2.toList ++ q.read.1.queue) <:+ q.queue := queue_readLoop q.queue q

theorem queue_frontLoop (sdus : List RlcSdu) (q : RlcSduQueue) :
    (frontLoop sdus q).1.queue <:+ sdus := by
  induction sdus generalizing q with
  | nil => exact List.suffix_refl _
  | cons sdu rest ih =>
    rw [frontLoop]
    cases sdu.pdcpSn with
    | none => exact List.suffix_refl _
    | some pdcpSn =>
      dsimp only
      split
      · exact List.suffix_refl _
      · exact (ih _).trans (List.suffix_cons sdu rest)

theorem queue_front : q.front.1.queue <:+ q.queue := queue_frontLoop q.queue q

end RlcSduQueue

/-- The window holds exactly the SNs of the numbers from `lo` to `hi`, and no more than it has slots. -/
structure SnInterval {V : Type} (map : CircularMap V) (m w lo hi : Nat) : Prop where
  keys : KeysIn map m lo hi
  present : ∀ k, lo ≤ k → k < hi → ∃ value, map.get? (k % m) = some value
  count : map.count = hi - lo
  capacity : map.capacity = w
  lo_le : lo ≤ hi
  le : hi ≤ lo + w

section SnInterval
variable {V : Type} {map : CircularMap V} {m w lo hi : Nat}

theorem snInterval_empty : SnInterval (CircularMap.empty V w) m w lo lo where
  keys := nofun
  present := fun _ hlo hhi => absurd hlo (Nat.not_le_of_lt hhi)
  count := (Nat.sub_self lo).symm
  capacity := rfl
  lo_le := Nat.le_refl lo
  le := Nat.le_add_right lo w

variable (h : SnInterval map m w lo hi)
include h

theorem SnInterval.full_eq : map.full = decide (hi = lo + w) := by
  rw [CircularMap.full, h.count, h.capacity, beq_eq_decide, decide_eq_decide]
  have hlo := h.lo_le
  have hle := h.le
  omega

theorem SnInterval.contains_of_lt {k : Nat} (hlo : lo ≤ k) (hhi : k < hi) :
    map.contains (k % m) = true := by
  obtain ⟨value, hvalue⟩ := h.present k hlo hhi
  rw [CircularMap.contains, hvalue]
  rfl

variable (hs : WindowShape m w)
include hs

theorem SnInterval.get?_hi (hroom : hi < lo + w) : map.get? (hi % m) = none := by
  have htwo := hs.two_windows
  exact h.keys.get?_eq_none (by omega) (Nat.le_refl hi) (by omega)

theorem SnInterval.add (hroom : hi < lo + w)
    (value : V) : SnInterval (map.overwrite (hi % m) value) m w lo (hi + 1) where
  keys := h.keys.overwrite h.lo_le (Nat.lt_succ_self hi) (Nat.le_succ hi) value
  present := by
    intro k hk hk'
    rw [get?_overwrite_near hs h.capacity hk (by omega) h.lo_le hroom]
    split
    · exact ⟨value, rfl⟩
    · exact h.present k hk (by omega)
  count := by
    have hfree : map.slots (map.getCircularIdx (hi % m)) = none := by
      cases hslot : map.slots (map.getCircularIdx (hi % m)) with
      | none => rfl
      | some entry =>
        obtain ⟨key, old⟩ := entry
        obtain ⟨k, hk, hk', rfl⟩ := h.keys key old (CircularMap.slots_eq_some hslot)
        have hidx : map.getCircularIdx (k % m) = map.getCircularIdx (hi % m) :=
          map.keyed _ _ _ hslot
        rw [getCircularIdx_mod hs h.capacity, getCircularIdx_mod hs h.capacity] at hidx
        exact absurd (mod_inj_of_near hk (by omega) h.lo_le hroom hidx) (Nat.ne_of_lt hk')
    have hlo := h.lo_le
    rw [CircularMap.count_overwrite_of_free _ _ _ hfree, h.count]
    omega
  capacity := (CircularMap.capacity_overwrite _ _ _).trans h.capacity
  lo_le := Nat.le_succ_of_le h.lo_le
  le := hroom

theorem SnInterval.set {k : Nat} (hlo : lo ≤ k)
    (hhi : k < hi) (value : V) : SnInterval (map.overwrite (k % m) value) m w lo hi where
  keys := h.keys.overwrite hlo hhi (Nat.le_refl hi) value
  present := by
    intro j hj hj'
    have hle := h.le
    rw [get?_overwrite_near hs h.capacity hj (by omega) hlo (by omega)]
    split
    · exact ⟨value, rfl⟩
    · exact h.present j hj hj'
  count := by
    obtain ⟨old, hold⟩ := h.present k hlo hhi
    have hslot := (CircularMap.get?_eq_some_iff _ _ _).mp hold
    rw [CircularMap.count_overwrite_of_taken _ _ _ hslot, h.count]
    omega
  capacity := (CircularMap.capacity_overwrite _ _ _).trans h.capacity
  __ := h

theorem SnInterval.erase (hlt : lo < hi) : SnInterval (map.erase (lo % m)) m w (lo + 1) hi where
  keys := h.keys.erase
  present := by
    intro k hk hk'
    have hle := h.le
    have htwo := hs.two_windows
    have hget : (map.erase (lo % m)).get? (k % m) = if k = lo then none else map.get? (k % m) :=
      get?_erase_near (by omega) (by omega) (Nat.le_refl lo) (by omega)
    rw [hget, if_neg (by omega)]
    exact h.present k (by omega) hk'
  count := by
    rw [CircularMap.count_erase_of_contains _ _ (h.contains_of_lt (Nat.le_refl lo) hlt), h.count]
    omega
  capacity := (CircularMap.capacity_erase _ _).trans h.capacity
  lo_le := hlt
  le := by
    have hle := h.le
    omega

end SnInterval

end Srsran.Rlc
