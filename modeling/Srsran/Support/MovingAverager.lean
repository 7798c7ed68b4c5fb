import Mathlib.Algebra.Order.BigOperators.Group.List
import Mathlib.Algebra.Order.Ring.Nat
import Mathlib.Data.Rat.Defs
import Mathlib.Tactic.Common

/-! Moving averages over a sliding window (`moving_averager.h`), for samples of 32 bits. -/
namespace Srsran.Support

structure MovingAverager where
  slidingWindow : List Nat := []
  writePos : Nat := 0
  sumSamples : Nat := 0

namespace MovingAverager

def size (m : MovingAverager) : Nat := m.slidingWindow.length

def push (m : MovingAverager) (sample : Nat) : Option MovingAverager :=
  m.slidingWindow[m.writePos]?.map fun old =>
    { slidingWindow := m.slidingWindow.set m.writePos sample
      writePos := if m.writePos + 1 ≥ m.size then 0 else m.writePos + 1
      sumSamples := (m.sumSamples + 2 ^ 64 - old + sample) % 2 ^ 64 }

/-- Exact, where `average` divides in `double`. -/
def average (m : MovingAverager) : Rat := m.sumSamples / m.size

def resize (m : MovingAverager) (slidingWindowSize : Nat) : MovingAverager :=
  if slidingWindowSize = m.size then m else { slidingWindow := List.replicate slidingWindowSize 0 }

/-- The last samples of a history, behind zeros if it is shorter. -/
def lastSamples (n : Nat) (history : List Nat) : List Nat :=
  (List.replicate n 0 ++ history).drop history.length

/-- The window holds the last samples of a history, from the write position on, and their sum. -/
structure Tracks (m : MovingAverager) (n : Nat) (history : List Nat) : Prop where
  size_eq : m.size = n
  size_lt : n < 2 ^ 32
  writePos_lt : m.writePos < n
  window_eq : m.slidingWindow.drop m.writePos ++ m.slidingWindow.take m.writePos = lastSamples n history
  bound : ∀ sample ∈ m.slidingWindow, sample < 2 ^ 32
  sum_eq : m.sumSamples = m.slidingWindow.sum

variable {m m' : MovingAverager} {n sample : Nat} {history : List Nat}

theorem lastSamples_append (hn : 0 < n) :
    lastSamples n (history ++ [sample]) = (lastSamples n history).tail ++ [sample] := by
  rw [lastSamples, lastSamples, List.length_append, List.length_singleton, ← List.append_assoc,
    List.tail_drop, List.drop_append_of_le_length]
  rw [List.length_append, List.length_replicate]
  omega

/-- The samples below 2^32 in a window of less than 2^32 fit into 64 bits. -/
theorem sum_lt {window : List Nat} (hlength : window.length < 2 ^ 32)
    (hbound : ∀ sample ∈ window, sample < 2 ^ 32) : window.sum < 2 ^ 64 := by
  have hle : window.sum ≤ window.length * (2 ^ 32 - 1) := by
    exact List.sum_le_card_nsmul window (2 ^ 32 - 1) fun sample hsample =>
      Nat.le_pred_of_lt (hbound sample hsample)
  have hmul : window.length * (2 ^ 32 - 1) ≤ (2 ^ 32 - 1) * (2 ^ 32 - 1) :=
    Nat.mul_le_mul_right _ (Nat.le_pred_of_lt hlength)
  omega

theorem Tracks.resize (hne : n ≠ m.size) (hpos : 0 < n) (hlt : n < 2 ^ 32) :
    (m.resize n).Tracks n [] := by
  rw [MovingAverager.resize, if_neg hne]
  refine ⟨List.length_replicate, hlt, hpos, ?_, ?_, ?_⟩
  · simp [lastSamples]
  · intro sample hsample
    rw [List.eq_of_mem_replicate hsample]
    decide
  · simp

theorem Tracks.push (h : m.Tracks n history) (hsample : sample < 2 ^ 32) :
    ∃ m', m.push sample = some m' ∧ m'.Tracks n (history ++ [sample]) := by
  obtain ⟨hsize, hlt, hpos, hwindow, hbound, hsum⟩ := h
  obtain ⟨window, writePos, sumSamples⟩ := m
  dsimp only [size] at hsize hpos hwindow hbound hsum
  subst hsize
  obtain ⟨old, hold⟩ : ∃ old, window[writePos]? = some old := ⟨_, List.getElem?_eq_getElem hpos⟩
  have hsplit : window = window.take writePos ++ old :: window.drop (writePos + 1) := by
    have hdrop : window.drop writePos = old :: window.drop (writePos + 1) := by
      rw [List.drop_eq_getElem_cons hpos, (List.getElem?_eq_some_iff.mp hold).2]
    rw [← hdrop, List.take_append_drop]
  have hset : window.set writePos sample =
      window.take writePos ++ sample :: window.drop (writePos + 1) :=
    List.set_eq_take_append_cons_drop.trans (if_pos hpos)
  have htail : (lastSamples window.length history).tail =
      window.drop (writePos + 1) ++ window.take writePos := by
    rw [← hwindow, List.drop_eq_getElem_cons hpos]
    rfl
  have hpush : MovingAverager.push ⟨window, writePos, sumSamples⟩ sample =
      some
        { slidingWindow := window.set writePos sample
          writePos := if writePos + 1 ≥ window.length then 0 else writePos + 1
          sumSamples := (sumSamples + 2 ^ 64 - old + sample) % 2 ^ 64 } :=
    congrArg (Option.map _) hold
  refine ⟨_, hpush, ⟨?_, hlt, ?_, ?_, ?_, ?_⟩⟩
  · exact List.length_set ..
  · split
    · exact Nat.zero_lt_of_lt hpos
    · rename_i hlast
      exact Nat.lt_of_not_le hlast
  · rw [lastSamples_append (Nat.zero_lt_of_lt hpos), htail]
    have htake : (window.take writePos).length = writePos := by
      rw [List.length_take]
      omega
    split
    · have hend : window.drop (writePos + 1) = [] := List.drop_eq_nil_of_le (by omega)
      rw [hset, hend]
      simp
    · have hdropTake : (window.take writePos).drop (writePos + 1) = [] :=
        List.drop_eq_nil_of_le (by omega)
      have htakeTake : (window.take writePos).take (writePos + 1) = window.take writePos :=
        List.take_of_length_le (by omega)
      rw [hset, List.drop_append, List.take_append, htake, hdropTake, htakeTake]
      simp
  · intro s hs
    rcases List.mem_or_eq_of_mem_set hs with hold | hnew
    · exact hbound s hold
    · rw [hnew]
      exact hsample
  · have hnewBound : ∀ s ∈ window.set writePos sample, s < 2 ^ 32 := by
      intro s hs
      rcases List.mem_or_eq_of_mem_set hs with hold | hnew
      · exact hbound s hold
      · rw [hnew]
        exact hsample
    have hfits : (window.set writePos sample).sum < 2 ^ 64 :=
      sum_lt (by rw [List.length_set]; exact hlt) hnewBound
    have holdSum : window.sum = (window.take writePos).sum + (old + (window.drop (writePos + 1)).sum) := by
      conv_lhs => rw [hsplit]
      rw [List.sum_append, List.sum_cons]
    have hnewSum : (window.set writePos sample).sum =
        (window.take writePos).sum + (sample + (window.drop (writePos + 1)).sum) := by
      rw [hset, List.sum_append, List.sum_cons]
    dsimp only
    rw [hsum]
    omega

theorem Tracks.average_eq (h : m.Tracks n history) :
    m.average = ((lastSamples n history).sum : Rat) / n := by
  have hsum : (lastSamples n history).sum = m.slidingWindow.sum := by
    rw [← h.window_eq, List.sum_append, Nat.add_comm, ← List.sum_append, List.take_append_drop]
  rw [average, h.size_eq, h.sum_eq, hsum]

/-- The window holds the last samples of a history; a window without samples holds nothing. -/
def Averages (m : MovingAverager) (n : Nat) (history : List Nat) : Prop :=
  m.Tracks n history ∨ n = 0 ∧ m.slidingWindow = [] ∧ m.sumSamples = 0

theorem Averages.size_eq (h : m.Averages n history) : m.size = n := by
  rcases h with htracks | ⟨hzero, hwindow, -⟩
  · exact htracks.size_eq
  · rw [size, hwindow, hzero]
    rfl

theorem averages_resize (hne : n ≠ m.size) (hlt : n < 2 ^ 32) : (m.resize n).Averages n [] := by
  rcases Nat.eq_zero_or_pos n with hzero | hpos
  · refine .inr ⟨hzero, ?_, ?_⟩
    · rw [MovingAverager.resize, if_neg hne, hzero]
      rfl
    · rw [MovingAverager.resize, if_neg hne]
  · exact .inl (Tracks.resize hne hpos hlt)

theorem averages_resize_empty (hlt : n < 2 ^ 32) : (resize {} n).Averages n [] := by
  rcases Nat.eq_zero_or_pos n with hzero | hpos
  · rw [hzero]
    exact .inr ⟨rfl, rfl, rfl⟩
  · exact .inl (Tracks.resize (Nat.ne_of_gt hpos) hpos hlt)

theorem Averages.resize_same (h : m.Averages n history) : (m.resize n).Averages n history := by
  rw [MovingAverager.resize, if_pos h.size_eq.symm]
  exact h

theorem Averages.push (h : m.Averages n history) (hsample : sample < 2 ^ 32)
    (hpush : m.push sample = some m') : m'.Averages n (history ++ [sample]) := by
  rcases h with htracks | ⟨-, hwindow, -⟩
  · obtain ⟨pushed, hpushed, htracks'⟩ := htracks.push hsample
    rw [hpush] at hpushed
    cases hpushed
    exact .inl htracks'
  · rw [MovingAverager.push, hwindow] at hpush
    cases hpush

theorem Averages.average_eq (h : m.Averages n history) :
    m.average = ((lastSamples n history).sum : Rat) / n := by
  rcases h with htracks | ⟨hzero, hwindow, hsum⟩
  · exact htracks.average_eq
  · have hempty : lastSamples 0 history = [] := List.drop_length
    rw [average, size, hwindow, hsum, hzero, hempty]
    rfl

theorem sum_lastSamples_eq_zero (h : ∀ sample ∈ history, sample = 0) : (lastSamples n history).sum = 0 := by
  apply List.sum_eq_zero
  intro sample hsample
  rcases List.mem_append.mp (List.mem_of_mem_drop hsample) with hzero | hold
  · exact List.eq_of_mem_replicate hzero
  · exact h sample hold

end MovingAverager
end Srsran.Support
