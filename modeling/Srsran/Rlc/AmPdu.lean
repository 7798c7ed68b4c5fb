import Srsran.Rlc.Config

/-! The AM status PDU container (`rlc_am_pdu.h`, `rlc_am_pdu.cpp`): NACKs, merging of NACKs on
insertion, trimming, and the packed size that is maintained along the way. -/
namespace Srsran.Rlc
open ModOrder

def soEndOfSdu : Nat := 0xffff

def sizeofHeaderAckSn : Nat := 3
def sizeofNackSo : Nat := 4
def sizeofNackRange : Nat := 1

def sizeofNackSnExt : RlcAmSnSize → Nat
  | .size12bits => 2
  | .size18bits => 3

/-- Status PDU NACK; the defaults are those of its constructor. -/
structure RlcAmStatusNack where
  nackSn : Nat := 0
  hasSo : Bool := false
  soStart : Nat := 0
  soEnd : Nat := soEndOfSdu
  hasNackRange : Bool := false
  nackRange : Nat := 0
  deriving DecidableEq, Repr

def RlcAmStatusNack.nofSns (nack : RlcAmStatusNack) : Nat :=
  if nack.hasNackRange then nack.nackRange else 1

/-- AM status PDU. `packedSize` is kept in sync with `nacks` by every operation; the 32 bits of the source
would wrap at 4 GiB. -/
structure RlcAmStatusPdu where
  snSize : RlcAmSnSize
  nacks : List RlcAmStatusNack := []
  packedSize : Nat := sizeofHeaderAckSn
  ackSn : Nat := invalidRlcSn
  deriving DecidableEq, Repr

namespace RlcAmStatusPdu

/-- Modulus to determine continuous sequences across SN overflows. -/
def modNr (pdu : RlcAmStatusPdu) : Nat := cardinality pdu.snSize.toNumber

def reset (pdu : RlcAmStatusPdu) : RlcAmStatusPdu := { snSize := pdu.snSize }

def setAckSn (pdu : RlcAmStatusPdu) (ackSn : Nat) : RlcAmStatusPdu := { pdu with ackSn }

/-- Checks whether two NACKs can be merged into one: continuous SNs, left side reaching the end of
its SDU, right side starting at the beginning of its SDU, and at most 255 SNs in total. -/
def canBeMerged (pdu : RlcAmStatusPdu) (left right : RlcAmStatusNack) : Bool :=
  if right.nackSn ≠
      (if left.hasNackRange then left.nackSn + left.nackRange else left.nackSn + 1) % pdu.modNr then
    false
  else if left.hasSo && left.soEnd ≠ soEndOfSdu then false
  else if right.hasSo && right.soStart ≠ 0 then false
  else left.nofSns + right.nofSns ≤ 255

def nackSize (snSize : RlcAmSnSize) (nack : RlcAmStatusNack) : Nat :=
  sizeofNackSnExt snSize + (if nack.hasSo then sizeofNackSo else 0) +
    (if nack.hasNackRange then sizeofNackRange else 0)

/-- The in-place expansion of the previous NACK by a mergeable one. `canBeMerged` bounds the sum
of the ranges by 255, so the eight-bit range never wraps. -/
def expandPrev (prev nack : RlcAmStatusNack) : RlcAmStatusNack :=
  let ranged : RlcAmStatusNack :=
    if nack.hasNackRange then
      if prev.hasNackRange then { prev with nackRange := prev.nackRange + nack.nackRange }
      else { prev with nackRange := nack.nackRange + 1, hasNackRange := true }
    else
      if prev.hasNackRange then { prev with nackRange := prev.nackRange + 1 }
      else { prev with nackRange := 2, hasNackRange := true }
  if nack.hasSo then
    if ranged.hasSo then { ranged with soEnd := nack.soEnd }
    else { ranged with hasSo := true, soStart := 0, soEnd := nack.soEnd }
  else
    if ranged.hasSo then { ranged with soEnd := soEndOfSdu } else ranged

def pushNack (pdu : RlcAmStatusPdu) (nack : RlcAmStatusNack) : RlcAmStatusPdu :=
  match pdu.nacks.getLast? with
  | none =>
    { pdu with
      nacks := pdu.nacks ++ [nack]
      packedSize := pdu.packedSize + nackSize pdu.snSize nack }
  | some prev =>
    if pdu.canBeMerged prev nack then
      { pdu with
        nacks := pdu.nacks.dropLast ++ [expandPrev prev nack]
        packedSize := pdu.packedSize - nackSize pdu.snSize prev +
          nackSize pdu.snSize (expandPrev prev nack) }
    else
      { pdu with
        nacks := pdu.nacks ++ [nack]
        packedSize := pdu.packedSize + nackSize pdu.snSize nack }

/-- The removal loop of `trim`, on the NACKs in reverse order. -/
def trimLoop (snSize : RlcAmSnSize) (maxPackedSize : Nat) :
    List RlcAmStatusNack → Nat → Nat → List RlcAmStatusNack × Nat × Nat
  | [], packedSize, ackSn => ([], packedSize, ackSn)
  | back :: rest, packedSize, ackSn =>
    if maxPackedSize < packedSize ∨ back.nackSn = ackSn then
      trimLoop snSize maxPackedSize rest (packedSize - nackSize snSize back) back.nackSn
    else (back :: rest, packedSize, ackSn)

/-- Removes NACKs from the back until the PDU fits; `false` if not even the header fits. -/
def trim (pdu : RlcAmStatusPdu) (maxPackedSize : Nat) : Bool × RlcAmStatusPdu :=
  if maxPackedSize ≥ pdu.packedSize then (true, pdu)
  else if maxPackedSize < sizeofHeaderAckSn then (false, pdu)
  else
    let (kept, packedSize, ackSn) :=
      trimLoop pdu.snSize maxPackedSize pdu.nacks.reverse pdu.packedSize pdu.ackSn
    (true, { pdu with nacks := kept.reverse, packedSize, ackSn })

variable (pdu : RlcAmStatusPdu)

@[simp] theorem snSize_reset : pdu.reset.snSize = pdu.snSize := rfl
@[simp] theorem nacks_reset : pdu.reset.nacks = [] := rfl
@[simp] theorem packedSize_reset : pdu.reset.packedSize = sizeofHeaderAckSn := rfl

@[simp] theorem snSize_pushNack (nack : RlcAmStatusNack) :
    (pdu.pushNack nack).snSize = pdu.snSize := by
  unfold pushNack
  split
  · rfl
  · split <;> rfl

@[simp] theorem ackSn_pushNack (nack : RlcAmStatusNack) :
    (pdu.pushNack nack).ackSn = pdu.ackSn := by
  unfold pushNack
  split
  · rfl
  · split <;> rfl

/-- What `pushNack` does to the list: extend the last NACK, or append. -/
theorem nacks_pushNack_cases (nack : RlcAmStatusNack) :
    (∃ init prev, pdu.nacks = init ++ [prev] ∧ pdu.canBeMerged prev nack = true ∧
      (pdu.pushNack nack).nacks = init ++ [expandPrev prev nack] ∧
      (pdu.pushNack nack).packedSize = pdu.packedSize - nackSize pdu.snSize prev +
        nackSize pdu.snSize (expandPrev prev nack)) ∨
    ((∀ prev, pdu.nacks.getLast? = some prev → pdu.canBeMerged prev nack = false) ∧
      (pdu.pushNack nack).nacks = pdu.nacks ++ [nack] ∧
      (pdu.pushNack nack).packedSize = pdu.packedSize + nackSize pdu.snSize nack) := by
  unfold pushNack
  cases hlast : pdu.nacks.getLast? with
  | none => exact .inr ⟨by simp, rfl, rfl⟩
  | some prev =>
    have hne : pdu.nacks ≠ [] := by
      intro h
      simp [h] at hlast
    have hsplit : pdu.nacks = pdu.nacks.dropLast ++ [prev] := by
      rw [List.getLast?_eq_some_getLast hne, Option.some.injEq] at hlast
      rw [← hlast, List.dropLast_concat_getLast]
    by_cases hmerge : pdu.canBeMerged prev nack = true
    · refine .inl ⟨_, prev, hsplit, hmerge, ?_, ?_⟩ <;> simp only [hmerge, if_true]
    · rw [Bool.not_eq_true] at hmerge
      refine .inr ⟨?_, ?_, ?_⟩
      · rintro prev' ⟨⟩
        exact hmerge
      · simp only [hmerge, Bool.false_eq_true, if_false]
      · simp only [hmerge, Bool.false_eq_true, if_false]

@[simp] theorem nackSn_expandPrev (prev nack : RlcAmStatusNack) :
    (expandPrev prev nack).nackSn = prev.nackSn := by
  unfold expandPrev
  cases nack.hasNackRange <;> cases prev.hasNackRange <;> cases nack.hasSo <;>
    cases prev.hasSo <;> simp

@[simp] theorem nofSns_expandPrev (prev nack : RlcAmStatusNack) :
    (expandPrev prev nack).nofSns = prev.nofSns + nack.nofSns := by
  unfold expandPrev RlcAmStatusNack.nofSns
  cases nack.hasNackRange <;> cases prev.hasNackRange <;> cases nack.hasSo <;>
    cases prev.hasSo <;> simp [Nat.add_comm]

variable {pdu}

theorem canBeMerged_iff {left right : RlcAmStatusNack} : pdu.canBeMerged left right = true ↔
      right.nackSn = (left.nackSn + left.nofSns) % pdu.modNr ∧
      (left.hasSo = true → left.soEnd = soEndOfSdu) ∧
      (right.hasSo = true → right.soStart = 0) ∧ left.nofSns + right.nofSns ≤ 255 := by
  have hstart : (if left.hasNackRange then left.nackSn + left.nackRange else left.nackSn + 1) =
      left.nackSn + left.nofSns := by
    rw [RlcAmStatusNack.nofSns]
    cases left.hasNackRange <;> rfl
  rw [canBeMerged, hstart]
  cases left.hasSo <;> cases right.hasSo <;> simp

theorem soStart_expandPrev (prev nack : RlcAmStatusNack) :
    ((expandPrev prev nack).hasSo = true → (expandPrev prev nack).soStart = 0) ↔
      (prev.hasSo = true → prev.soStart = 0) := by
  unfold expandPrev
  cases nack.hasNackRange <;> cases prev.hasNackRange <;> cases nack.hasSo <;>
    cases prev.hasSo <;> simp

def nacksSize (snSize : RlcAmSnSize) (nacks : List RlcAmStatusNack) : Nat :=
  (nacks.map (nackSize snSize)).sum

variable (snSize : RlcAmSnSize)

@[simp] theorem nacksSize_nil : nacksSize snSize [] = 0 := rfl

@[simp] theorem nacksSize_cons (nack : RlcAmStatusNack) (nacks : List RlcAmStatusNack) :
    nacksSize snSize (nack :: nacks) = nackSize snSize nack + nacksSize snSize nacks := by
  simp [nacksSize]

@[simp] theorem nacksSize_append (xs ys : List RlcAmStatusNack) :
    nacksSize snSize (xs ++ ys) = nacksSize snSize xs + nacksSize snSize ys := by
  simp [nacksSize]

/-- The size that `refresh_packed_size` would recompute. -/
def refreshedSize (pdu : RlcAmStatusPdu) : Nat :=
  sizeofHeaderAckSn + nacksSize pdu.snSize pdu.nacks

/-- The stored packed size is the recomputed one. -/
def SizeInSync (pdu : RlcAmStatusPdu) : Prop := pdu.packedSize = pdu.refreshedSize

theorem sizeInSync_reset : pdu.reset.SizeInSync := rfl

theorem SizeInSync.pushNack (h : pdu.SizeInSync)
    (nack : RlcAmStatusNack) : (pdu.pushNack nack).SizeInSync := by
  simp only [SizeInSync, refreshedSize] at h ⊢
  rcases nacks_pushNack_cases pdu nack with
    ⟨init, prev, hsplit, -, hnacks, hsize⟩ | ⟨-, hnacks, hsize⟩
  · rw [hsize, hnacks, snSize_pushNack, h, hsplit]
    simp only [nacksSize_append, nacksSize_cons, nacksSize_nil]
    omega
  · rw [hsize, hnacks, snSize_pushNack, h]
    simp only [nacksSize_append, nacksSize_cons, nacksSize_nil]
    omega

@[simp] theorem snSize_pushAll (pushed : List RlcAmStatusNack) (pdu : RlcAmStatusPdu) :
    (pushed.foldl pushNack pdu).snSize = pdu.snSize := by
  induction pushed generalizing pdu with
  | nil => rfl
  | cons nack rest ih => rw [List.foldl_cons, ih, snSize_pushNack]

theorem sizeInSync_pushAll (pushed : List RlcAmStatusNack)
    (h : pdu.SizeInSync) : (pushed.foldl pushNack pdu).SizeInSync := by
  induction pushed generalizing pdu with
  | nil => exact h
  | cons nack rest ih => exact ih (h.pushNack nack)

/-- The loop stays in sync and keeps a suffix of the reversed list. -/
theorem trimLoop_sync (maxPackedSize : Nat) (nacks : List RlcAmStatusNack) (packedSize ackSn : Nat)
    (hsync : packedSize = sizeofHeaderAckSn + nacksSize snSize nacks) :
    (trimLoop snSize maxPackedSize nacks packedSize ackSn).1 <:+ nacks ∧
      (trimLoop snSize maxPackedSize nacks packedSize ackSn).2.1 = sizeofHeaderAckSn +
        nacksSize snSize (trimLoop snSize maxPackedSize nacks packedSize ackSn).1 := by
  induction nacks generalizing packedSize ackSn with
  | nil => exact ⟨List.suffix_rfl, hsync⟩
  | cons back rest ih =>
    unfold trimLoop
    split
    · have hrest : packedSize - nackSize snSize back =
          sizeofHeaderAckSn + nacksSize snSize rest := by
        rw [hsync, nacksSize_cons]
        omega
      obtain ⟨hsuffix, hsize⟩ := ih _ back.nackSn hrest
      exact ⟨hsuffix.trans (List.suffix_cons back rest), hsize⟩
    · exact ⟨List.suffix_rfl, hsync⟩

@[simp] theorem nacksSize_reverse (nacks : List RlcAmStatusNack) :
    nacksSize snSize nacks.reverse = nacksSize snSize nacks := by
  simp [nacksSize, List.sum_reverse]

theorem snSize_trim (maxPackedSize : Nat) : (pdu.trim maxPackedSize).2.snSize = pdu.snSize := by
  unfold trim
  split
  · rfl
  · split <;> rfl

theorem nacks_trim_initial (h : pdu.SizeInSync) (maxPackedSize : Nat) :
    (pdu.trim maxPackedSize).2.nacks <+: pdu.nacks := by
  unfold trim
  split
  · exact List.prefix_rfl
  · split
    · exact List.prefix_rfl
    · have hsync := (trimLoop_sync pdu.snSize maxPackedSize pdu.nacks.reverse pdu.packedSize
        pdu.ackSn (by rw [nacksSize_reverse]; exact h)).1
      have := List.reverse_prefix.mpr hsync
      rwa [List.reverse_reverse] at this

theorem SizeInSync.trim (h : pdu.SizeInSync) (maxPackedSize : Nat) :
    (pdu.trim maxPackedSize).2.SizeInSync := by
  unfold RlcAmStatusPdu.trim
  split
  · exact h
  · split
    · exact h
    · have hsync := (trimLoop_sync pdu.snSize maxPackedSize pdu.nacks.reverse pdu.packedSize
        pdu.ackSn (by rw [nacksSize_reverse]; exact h)).2
      simpa only [SizeInSync, refreshedSize, nacksSize_reverse] using hsync

end RlcAmStatusPdu

/-- The single-SN NACK that `handle_status_pdu` builds for one SN of a NACK range: the start
offset applies to the first SN, the end offset to the last one. -/
def rangeItem (m : Nat) (nack : RlcAmStatusNack) (rangeSn : Nat) : RlcAmStatusNack :=
  let soStart := if nack.hasSo ∧ rangeSn = nack.nackSn then nack.soStart else 0
  let soEnd := if nack.hasSo ∧ rangeSn = (nack.nackSn + nack.nackRange - 1) % m then nack.soEnd
    else soEndOfSdu
  { nackSn := rangeSn
    hasSo := nack.hasSo && (soStart != 0 || soEnd != soEndOfSdu)
    soStart
    soEnd }

def coveredSns (m : Nat) (nack : RlcAmStatusNack) : List Nat :=
  if nack.hasNackRange then (List.range nack.nackRange).map fun i => (nack.nackSn + i) % m
  else [nack.nackSn]

def expandNack (m : Nat) (nack : RlcAmStatusNack) : List RlcAmStatusNack :=
  if nack.hasNackRange then (coveredSns m nack).map (rangeItem m nack) else [nack]

end Srsran.Rlc
