import Mathlib.Tactic.Common

/-! Interleavers: matrices that are written by columns and read by rows, rotations, and sequences of which the
blocks are moved. -/
namespace Interleaver

/-- The position, by rows, of an element of a matrix that is written by columns. -/
def transpose (rows cols i : Nat) : Nat := i % rows * cols + i / rows

theorem transpose_of_lt (rows cols : Nat) {row : Nat} (col : Nat) (hrow : row < rows) :
    transpose rows cols (col * rows + row) = row * cols + col := by
  rw [transpose, Nat.mul_add_mod_self_right, Nat.mod_eq_of_lt hrow, Nat.add_comm (col * rows),
    Nat.add_mul_div_right _ _ (Nat.zero_lt_of_lt hrow), Nat.div_eq_of_lt hrow, Nat.zero_add]

variable {rows cols i : Nat}

theorem exists_row_col (h : i < rows * cols) :
    ∃ row < rows, ∃ col < cols, i = col * rows + row := by
  have hrows : 0 < rows := Nat.pos_of_mul_pos_right (Nat.zero_lt_of_lt h)
  refine ⟨i % rows, Nat.mod_lt _ hrows, i / rows, Nat.div_lt_of_lt_mul h, ?_⟩
  rw [Nat.mul_comm]
  exact (Nat.div_add_mod i rows).symm

theorem row_col_lt {row col : Nat} (hrow : row < rows) (hcol : col < cols) :
    row * cols + col < rows * cols := by
  calc row * cols + col < row * cols + cols := by omega
    _ = (row + 1) * cols := (Nat.succ_mul row cols).symm
    _ ≤ rows * cols := Nat.mul_le_mul_right cols hrow

theorem transpose_lt (h : i < rows * cols) : transpose rows cols i < rows * cols := by
  obtain ⟨row, hrow, col, hcol, rfl⟩ := exists_row_col h
  rw [transpose_of_lt _ _ _ hrow]
  exact row_col_lt hrow hcol

theorem transpose_transpose (h : i < rows * cols) :
    transpose cols rows (transpose rows cols i) = i := by
  obtain ⟨row, hrow, col, hcol, rfl⟩ := exists_row_col h
  rw [transpose_of_lt _ _ _ hrow, transpose_of_lt _ _ _ hcol]

theorem transpose_last (h : 0 < rows * cols) :
    transpose rows cols (rows * cols - 1) = rows * cols - 1 := by
  obtain ⟨rows, rfl⟩ := Nat.exists_eq_succ_of_ne_zero (Nat.ne_of_gt (Nat.pos_of_mul_pos_right h))
  obtain ⟨cols, rfl⟩ := Nat.exists_eq_succ_of_ne_zero (Nat.ne_of_gt (Nat.pos_of_mul_pos_left h))
  have hlast : (rows + 1) * (cols + 1) - 1 = cols * (rows + 1) + rows := by
    rw [Nat.mul_comm, Nat.succ_mul]
    omega
  calc transpose (rows + 1) (cols + 1) ((rows + 1) * (cols + 1) - 1)
      = rows * (cols + 1) + cols := by rw [hlast, transpose_of_lt _ _ _ (Nat.lt_succ_self rows)]
    _ = (rows + 1) * (cols + 1) - 1 := by rw [Nat.succ_mul]; omega

/-- The transposition of a sequence that may have one more element, at its end. -/
def transposeInner (count rows cols i : Nat) : Nat := if i + 1 = count then i else transpose rows cols i

variable {count : Nat}

theorem transposeInner_lt (hle : rows * cols ≤ count) (hge : count ≤ rows * cols + 1)
    (hi : i < count) : transposeInner count rows cols i < count := by
  rw [transposeInner]
  split
  · exact hi
  · exact Nat.lt_of_lt_of_le (transpose_lt (by omega)) hle

theorem transposeInner_transposeInner (hle : rows * cols ≤ count) (hge : count ≤ rows * cols + 1)
    (hi : i < count) : transposeInner count cols rows (transposeInner count rows cols i) = i := by
  rw [transposeInner, transposeInner]
  split
  · rfl
  · rename_i hend
    have hlt : i < rows * cols := by omega
    have hback := transpose_transpose hlt
    rw [if_neg, hback]
    intro hlast
    have htranspose := transpose_lt hlt
    rw [show transpose rows cols i = cols * rows - 1 by rw [Nat.mul_comm cols]; omega,
      transpose_last (by rw [Nat.mul_comm]; omega), Nat.mul_comm] at hback
    omega

theorem transposeInner_lt_transposeInner {i' : Nat} (hle : rows * 2 ≤ count)
    (hge : count ≤ rows * 2 + 1) (hlt : i < i') (hi' : i' < count) (hcol : i' < rows ∨ rows ≤ i) :
    transposeInner count rows 2 i < transposeInner count rows 2 i' := by
  have hfirst : ∀ row < rows, transpose rows 2 row = row * 2 := by
    intro row hrow
    simpa using transpose_of_lt rows 2 0 hrow
  have hsecond : ∀ row < rows, transpose rows 2 (rows + row) = row * 2 + 1 := by
    intro row hrow
    simpa using transpose_of_lt rows 2 1 hrow
  rw [transposeInner, transposeInner, if_neg (by omega)]
  rcases hcol with hcol | hcol
  · rw [hfirst i (by omega), hfirst i' hcol]
    split <;> omega
  · obtain ⟨row, rfl⟩ := Nat.exists_eq_add_of_le hcol
    rw [hsecond row (by omega)]
    split
    · omega
    · obtain ⟨row', rfl⟩ := Nat.exists_eq_add_of_le (Nat.le_trans hcol (Nat.le_of_lt hlt))
      rw [hsecond row' (by omega)]
      omega

def rotate (count shift i : Nat) : Nat := (i + shift) % count

theorem rotate_lt (shift : Nat) (hi : i < count) : rotate count shift i < count :=
  Nat.mod_lt _ (Nat.zero_lt_of_lt hi)

theorem rotate_rotate {shift back : Nat} (hback : (shift + back) % count = 0) (hi : i < count) :
    rotate count back (rotate count shift i) = i := by
  rw [rotate, rotate, Nat.mod_add_mod, Nat.add_assoc, Nat.add_mod, hback, Nat.add_zero, Nat.mod_mod,
    Nat.mod_eq_of_lt hi]

/-- Blocks of one length, of which the first and the last one may be shorter. -/
structure Blocks where
  count : Nat
  first : Nat
  length : Nat
  last : Nat
  two_le_count : 2 ≤ count
  first_le : first ≤ length
  last_pos : 0 < last
  last_le : last ≤ length

namespace Blocks
variable (b : Blocks)

def total : Nat := b.first + (b.count - 2) * b.length + b.last

def place (block offset : Nat) : Nat := if block = 0 then offset else b.first + (block - 1) * b.length + offset

def blockOf (i : Nat) : Nat := if i < b.first then 0 else (i - b.first) / b.length + 1

def offsetOf (i : Nat) : Nat := if i < b.first then i else (i - b.first) % b.length

def sizeOf (block : Nat) : Nat := if block = 0 then b.first else if block + 1 = b.count then b.last else b.length

def move (σ : Nat → Nat) (i : Nat) : Nat := b.place (σ (b.blockOf i)) (b.offsetOf i)

variable {b} {block block' offset offset' i i' : Nat}

theorem length_pos (b : Blocks) : 0 < b.length := Nat.lt_of_lt_of_le b.last_pos b.last_le

theorem sizeOf_le (block : Nat) : b.sizeOf block ≤ b.length := by
  have hfirst := b.first_le
  have hlast := b.last_le
  rw [sizeOf]
  split <;> [skip; split] <;> omega

theorem place_succ (block offset : Nat) : b.place (block + 1) offset = b.first + block * b.length + offset := by
  rw [place, if_neg (Nat.succ_ne_zero block), Nat.add_sub_cancel]

theorem place_blockOf (i : Nat) : b.place (b.blockOf i) (b.offsetOf i) = i := by
  rw [blockOf, offsetOf]
  split
  · rfl
  · rw [place_succ, Nat.add_assoc, Nat.mul_comm, Nat.div_add_mod]
    omega

theorem blockOf_place (h : offset < b.sizeOf block) : b.blockOf (b.place block offset) = block := by
  have hle := b.sizeOf_le block
  cases block with
  | zero =>
    rw [blockOf, if_pos]
    exact h
  | succ block =>
    rw [place_succ, blockOf, if_neg (by omega), Nat.add_assoc, Nat.add_sub_cancel_left,
      Nat.add_comm (block * b.length), Nat.add_mul_div_right _ _ b.length_pos,
      Nat.div_eq_of_lt (Nat.lt_of_lt_of_le h hle), Nat.zero_add]

theorem offsetOf_place (h : offset < b.sizeOf block) : b.offsetOf (b.place block offset) = offset := by
  have hle := b.sizeOf_le block
  cases block with
  | zero =>
    rw [offsetOf, if_pos]
    · rfl
    · exact h
  | succ block =>
    rw [place_succ, offsetOf, if_neg (by omega), Nat.add_assoc, Nat.add_sub_cancel_left,
      Nat.add_comm (block * b.length), Nat.add_mul_mod_self_right, Nat.mod_eq_of_lt (Nat.lt_of_lt_of_le h hle)]

theorem place_lt_place (h : offset < b.sizeOf block) (hlt : block < block') :
    b.place block offset < b.place block' offset' := by
  have hle := b.sizeOf_le block
  cases block' with
  | zero => exact absurd hlt (Nat.not_lt_zero block)
  | succ block' =>
    rw [place_succ]
    cases block with
    | zero =>
      have hfirst : offset < b.first := h
      rw [place, if_pos rfl]
      omega
    | succ block =>
      have hmul := Nat.mul_le_mul_right b.length (Nat.lt_of_succ_lt_succ hlt)
      rw [Nat.succ_mul] at hmul
      rw [place_succ]
      omega

theorem place_last (offset : Nat) : b.place (b.count - 1) offset = b.total - b.last + offset := by
  have htwo := b.two_le_count
  rw [show b.count - 1 = b.count - 2 + 1 by omega, place_succ, total, Nat.add_sub_cancel]

theorem place_lt_total (hblock : block < b.count) (h : offset < b.sizeOf block) :
    b.place block offset < b.total := by
  have htwo := b.two_le_count
  by_cases hend : block = b.count - 1
  · rw [sizeOf, if_neg (by omega), if_pos (by omega)] at h
    rw [hend, place_last, total]
    omega
  · have hlt : b.place block offset < b.place (b.count - 1) 0 := b.place_lt_place h (by omega)
    rw [place_last] at hlt
    omega

theorem blockOf_lt (h : i < b.total) : b.blockOf i < b.count := by
  have htwo := b.two_le_count
  have hlast := b.last_le
  rw [blockOf]
  split
  · omega
  · rw [total] at h
    have hdiv : (i - b.first) / b.length < b.count - 2 + 1 := by
      apply Nat.div_lt_of_lt_mul
      rw [Nat.mul_comm, Nat.succ_mul]
      omega
    omega

theorem offsetOf_lt (h : i < b.total) : b.offsetOf i < b.sizeOf (b.blockOf i) := by
  have htwo := b.two_le_count
  rw [blockOf, offsetOf]
  split
  · assumption
  · rw [sizeOf, if_neg (Nat.succ_ne_zero _)]
    split
    · rename_i hfirst hend
      have hdiv := Nat.div_add_mod (i - b.first) b.length
      rw [show (i - b.first) / b.length = b.count - 2 by omega, Nat.mul_comm] at hdiv
      rw [total] at h
      omega
    · exact Nat.mod_lt _ b.length_pos

theorem blockOf_le_blockOf (hle : i ≤ i') : b.blockOf i ≤ b.blockOf i' := by
  rw [blockOf, blockOf]
  split
  · exact Nat.zero_le _
  · rw [if_neg (by omega)]
    exact Nat.succ_le_succ (Nat.div_le_div_right (by omega))

theorem offsetOf_lt_offsetOf (hlt : i < i') (hsame : b.blockOf i = b.blockOf i') : b.offsetOf i < b.offsetOf i' := by
  rw [← b.place_blockOf i, ← b.place_blockOf i', hsame] at hlt
  rw [place, place] at hlt
  split at hlt <;> omega

/-- A permutation of the blocks that leaves the first and the last one where they are. -/
structure KeepsEnds (b : Blocks) (σ τ : Nat → Nat) : Prop where
  lt : ∀ block < b.count, σ block < b.count
  inverse : ∀ block < b.count, τ (σ block) = block
  first : σ 0 = 0
  last : σ (b.count - 1) = b.count - 1

variable {σ τ : Nat → Nat}

theorem KeepsEnds.eq_zero_iff (h : KeepsEnds b σ τ) (hblock : block < b.count) : σ block = 0 ↔ block = 0 := by
  have hzero := h.inverse 0 (Nat.zero_lt_of_lt hblock)
  rw [h.first] at hzero
  constructor
  · intro heq
    rw [← h.inverse block hblock, heq, hzero]
  · rintro rfl
    exact h.first

theorem KeepsEnds.sizeOf_eq (h : KeepsEnds b σ τ) (hblock : block < b.count) :
    b.sizeOf (σ block) = b.sizeOf block := by
  have htwo := b.two_le_count
  have hinverse := h.inverse block hblock
  have hlast : σ block + 1 = b.count ↔ block + 1 = b.count := by
    constructor
    · intro hend
      rw [show σ block = b.count - 1 by omega, ← h.last, h.inverse _ (by omega)] at hinverse
      omega
    · intro hend
      rw [show block = b.count - 1 by omega, h.last]
      omega
  rw [sizeOf, sizeOf]
  simp only [h.eq_zero_iff hblock, hlast]

theorem KeepsEnds.offsetOf_lt (h : KeepsEnds b σ τ) (hi : i < b.total) :
    b.offsetOf i < b.sizeOf (σ (b.blockOf i)) := by
  rw [h.sizeOf_eq (blockOf_lt hi)]
  exact Blocks.offsetOf_lt hi

theorem move_place (h : offset < b.sizeOf block) (σ : Nat → Nat) :
    b.move σ (b.place block offset) = b.place (σ block) offset := by
  rw [move, blockOf_place h, offsetOf_place h]

theorem KeepsEnds.move_lt (h : KeepsEnds b σ τ) (hi : i < b.total) : b.move σ i < b.total :=
  place_lt_total (h.lt _ (blockOf_lt hi)) (h.offsetOf_lt hi)

theorem KeepsEnds.move_move (h : KeepsEnds b σ τ) (hi : i < b.total) : b.move τ (b.move σ i) = i := by
  have hoffset := h.offsetOf_lt hi
  rw [move, move, blockOf_place hoffset, offsetOf_place hoffset, h.inverse _ (blockOf_lt hi), place_blockOf]

theorem keepsEnds_transposeInner {rows cols : Nat} (hle : rows * cols ≤ b.count) (hge : b.count ≤ rows * cols + 1) :
    KeepsEnds b (transposeInner b.count rows cols) (transposeInner b.count cols rows) where
  lt _ := transposeInner_lt hle hge
  inverse _ := transposeInner_transposeInner hle hge
  first := by
    rw [transposeInner]
    split
    · rfl
    · rw [transpose, Nat.zero_mod, Nat.zero_mul, Nat.zero_div]
  last := by
    have htwo := b.two_le_count
    rw [transposeInner, if_pos (by omega)]

theorem KeepsEnds.move_lt_move (h : KeepsEnds b σ τ) (hlt : i < i') (hi' : i' < b.total)
    (hblocks : b.blockOf i < b.blockOf i' → σ (b.blockOf i) < σ (b.blockOf i')) : b.move σ i < b.move σ i' := by
  rcases Nat.lt_or_eq_of_le (b.blockOf_le_blockOf (Nat.le_of_lt hlt)) with hblock | hsame
  · exact place_lt_place (h.offsetOf_lt (Nat.lt_trans hlt hi')) (hblocks hblock)
  · have hoffset := offsetOf_lt_offsetOf hlt hsame
    rw [move, move, hsame, place, place]
    split <;> omega

end Blocks
end Interleaver
