import Srsran.Lib.Runs
import Srsran.Rlc.SegmentReassembly

/-! What the AM receiver stores of one SN when the peer sends segments that need not fit together:
SI, SO and length of each of them are arbitrary. -/
namespace Srsran.Rlc
open Srsran.Adt RlcRxAmEntity

variable {segments rest kept : List RlcRxSduSegment} {segm new part : RlcRxSduSegment} {start : Nat}

def Contiguous : Nat → List RlcRxSduSegment → Prop
  | _, [] => True
  | start, segm :: rest => segm.so = start ∧ Contiguous segm.ends rest

/-- One contiguous range whose end is the end of the only segment flagged as last. -/
structure FormsSdu (start : Nat) (segments : List RlcRxSduSegment) : Prop where
  contiguous : Contiguous start segments
  endsWithLast : ∃ front last, segments = front ++ [last] ∧ last.si = .lastSegment ∧
    (∀ segm ∈ front, segm.si ≠ .lastSegment) ∧
    start + (segmentBytes segments).length = last.ends

/-- No byte is held behind the end of a last segment in front of which all bytes are held. -/
def NothingBehindLast (start : Nat) (segments : List RlcRxSduSegment) : Prop :=
  ∀ last ∈ segments, last.si = .lastSegment → HoldsFrom segments start last.ends →
    ∀ b, Holds segments b → b < last.ends

section
variable (hso : segm.so = start)
include hso

theorem formsSdu_cons_last (hsi : segm.si = .lastSegment) :
    FormsSdu start (segm :: rest) ↔ rest = [] := by
  constructor
  · rintro ⟨-, front, last, heq, -, hfront, -⟩
    cases front with
    | nil =>
      rw [List.nil_append, List.cons.injEq] at heq
      exact heq.2
    | cons first front =>
      rw [List.cons_append, List.cons.injEq] at heq
      exact absurd (heq.1 ▸ hsi) (hfront first List.mem_cons_self)
  · rintro rfl
    refine ⟨⟨hso, trivial⟩, [], segm, rfl, hsi, by simp, ?_⟩
    simp [segmentBytes, RlcRxSduSegment.ends, hso]

theorem formsSdu_cons (hsi : segm.si ≠ .lastSegment) :
    FormsSdu start (segm :: rest) ↔ FormsSdu segm.ends rest := by
  have hlength : start + (segmentBytes (segm :: rest)).length =
      segm.ends + (segmentBytes rest).length := by
    simp [segmentBytes, RlcRxSduSegment.ends, hso]
    omega
  constructor
  · rintro ⟨hcont, front, last, heq, hlast, hfront, hend⟩
    cases front with
    | nil =>
      rw [List.nil_append, List.cons.injEq] at heq
      exact absurd (heq.1 ▸ hlast) hsi
    | cons first front =>
      rw [List.cons_append, List.cons.injEq] at heq
      exact ⟨hcont.2, front, last, heq.2, hlast,
        fun other hmem => hfront other (List.mem_cons_of_mem _ hmem), hlength ▸ hend⟩
  · rintro ⟨hcont, front, last, heq, hlast, hfront, hend⟩
    refine ⟨⟨hso, hcont⟩, segm :: front, last, by rw [heq, List.cons_append], hlast, ?_,
      hlength.trans hend⟩
    exact List.forall_mem_cons.mpr ⟨hsi, hfront⟩

theorem holdsFrom_cons {last : RlcRxSduSegment} (hordered : Ordered (segm :: rest)) :
    HoldsFrom (segm :: rest) start last.ends ↔ HoldsFrom rest segm.ends last.ends := by
  have hnonempty := hordered.nonempty segm List.mem_cons_self
  constructor
  · intro h b hfrom hto
    exact (holds_cons_of_ends_le hfrom).mp (h b (by omega) hto)
  · intro h b hfrom hto
    by_cases hb : segm.ends ≤ b
    · exact (holds_cons_of_ends_le hb).mpr (h b hb hto)
    · exact ⟨segm, List.mem_cons_self, hso ▸ hfrom, Nat.lt_of_not_le hb⟩

theorem nothingBehindLast_cons (hsi : segm.si ≠ .lastSegment) (hordered : Ordered (segm :: rest)) :
    NothingBehindLast start (segm :: rest) ↔ NothingBehindLast segm.ends rest := by
  constructor
  · intro h last hmem hlast hholds b hb
    refine h last (List.mem_cons_of_mem _ hmem) hlast ?_ b ?_
    · exact (holdsFrom_cons hso hordered).mpr hholds
    · exact holds_cons.mpr (.inr hb)
  · intro h last hmem hlast hholds b hb
    rcases List.mem_cons.mp hmem with rfl | hmem
    · exact absurd hlast hsi
    · have hbehind := hordered.behind last hmem
      have hnonempty := hordered.tail.nonempty last hmem
      rcases holds_cons.mp hb with hb | hb
      · omega
      · exact h last hmem hlast ((holdsFrom_cons hso hordered).mp hholds) b hb

end

/-- What the flag says of segments that start at an offset or behind it. -/
structure FlagSpec (start : Nat) (segments : List RlcRxSduSegment) : Prop where
  fullyReceived : (inventoryLoop start segments).fullyReceived = true ↔
    ∃ last ∈ segments, last.si = .lastSegment ∧ HoldsFrom segments start last.ends
  formsSdu : (inventoryLoop start segments).fullyReceived = true →
    (FormsSdu start segments ↔ NothingBehindLast start segments)

theorem inventoryLoop_flag (hordered : Ordered segments) (hstart : ∀ segm ∈ segments, start ≤ segm.so) :
    FlagSpec start segments := by
  induction segments generalizing start with
  | nil => exact ⟨⟨nofun, by simp⟩, nofun⟩
  | cons segm rest ih =>
    have hnonempty := hordered.nonempty segm List.mem_cons_self
    have hle := hstart segm List.mem_cons_self
    have hbehind := hordered.behind
    by_cases hso : segm.so = start
    · by_cases hsi : segm.si = .lastSegment
      · have hloop : (inventoryLoop start (segm :: rest)).fullyReceived = true := by
          rw [inventoryLoop, if_neg (not_not.mpr hso), if_pos hsi]
        have hholds : HoldsFrom (segm :: rest) start segm.ends :=
          fun b hfrom hto => ⟨segm, List.mem_cons_self, hso ▸ hfrom, hto⟩
        refine ⟨iff_of_true hloop ⟨segm, List.mem_cons_self, hsi, hholds⟩, fun _ => ?_⟩
        rw [formsSdu_cons_last hso hsi]
        constructor
        · rintro rfl last hmem - - b ⟨_, hheld, -, hb⟩
          rw [List.mem_singleton.mp hmem]
          rwa [List.mem_singleton.mp hheld] at hb
        · intro h
          refine List.eq_nil_iff_forall_not_mem.mpr fun other hmem => ?_
          have hother := hordered.tail.nonempty other hmem
          have hstarts := hbehind other hmem
          have := h segm List.mem_cons_self hsi hholds other.so
            ⟨other, List.mem_cons_of_mem _ hmem, Nat.le_refl _, hother⟩
          omega
      · -- go on behind this segment
        have hrest := ih hordered.tail hbehind
        have hloop : inventoryLoop start (segm :: rest) = inventoryLoop segm.ends rest := by
          rw [inventoryLoop, if_neg (not_not.mpr hso), if_neg hsi, ← hso]
          rfl
        refine ⟨?_, ?_⟩
        · rw [hloop, hrest.fullyReceived]
          simp only [List.mem_cons, exists_eq_or_imp, hsi, false_and, false_or,
            holdsFrom_cons hso hordered]
        · rw [hloop, formsSdu_cons hso hsi, nothingBehindLast_cons hso hsi hordered]
          exact hrest.formsSdu
    · -- the byte at the offset is missing
      have hloop : (inventoryLoop start (segm :: rest)).fullyReceived = false := by
        rw [inventoryLoop, if_pos hso]
      have hmissing : ¬ Holds (segm :: rest) start := by
        refine not_holds_of_behind fun other hmem => ?_
        rcases List.mem_cons.mp hmem with rfl | hmem
        · omega
        · have := hbehind other hmem
          omega
      rw [← Bool.not_eq_true] at hloop
      refine ⟨iff_of_false hloop ?_, fun h => absurd h hloop⟩
      rintro ⟨last, hmem, -, hholds⟩
      have := hstart last hmem
      have := hordered.nonempty last hmem
      exact hmissing (hholds start (Nat.le_refl _) (by omega))

theorem so_lt_of_passed (h : Ordered (kept ++ rest)) (hkept : ∀ segm ∈ kept, segm.ends ≤ new.so) :
    ∀ segm ∈ kept, segm.so < new.so := by
  intro segm hmem
  have := h.nonempty segm (List.mem_append_left _ hmem)
  have := hkept segm hmem
  omega

theorem storeLoop_held (h : Ordered (kept ++ rest)) (hkept : ∀ segm ∈ kept, segm.ends ≤ new.so)
    (hnew : new.so < new.ends) (hbound : new.ends ≤ 2 ^ 16)
    (hheld : ∀ b, new.so ≤ b → b < new.ends → Holds (kept ++ rest) b) :
    storeLoop kept rest new = (false, kept ++ rest) := by
  induction rest generalizing kept new with
  | nil =>
    obtain ⟨segm, hmem, -, hb⟩ := hheld new.so (Nat.le_refl _) hnew
    rw [List.append_nil] at hmem
    exact absurd (hkept segm hmem) (Nat.not_le.mpr hb)
  | cons cur rest ih =>
    have hcur := h.nonempty cur (by simp)
    have hcurLast := last_add_one hcur
    have hnewLast := last_add_one hnew
    -- the segment that holds the first byte is not a passed one
    have hstarts : cur.so ≤ new.so := by
      obtain ⟨segm, hmem, hlow, hhigh⟩ := hheld new.so (Nat.le_refl _) hnew
      rcases List.mem_append.mp hmem with hmem | hmem
      · have := hkept segm hmem
        omega
      · rcases List.mem_cons.mp hmem with rfl | hmem
        · exact hlow
        · have := h.behind_middle segm hmem
          omega
    rw [storeLoop]
    split
    · rw [List.append_cons kept cur rest] at h hheld ⊢
      refine ih h ?_ hnew hbound hheld
      simp only [List.forall_mem_append, List.forall_mem_singleton]
      exact ⟨hkept, by omega⟩
    · split
      · rfl
      · obtain ⟨htail, hso⟩ := advanceTo_last hcur (by omega) (by omega) hbound
        have hends := htail.ends
        rw [List.append_cons kept cur rest] at h hheld ⊢
        refine ih h ?_ (by omega) (by omega) fun b hfrom hto => hheld b (by omega) (by omega)
        simp only [List.forall_mem_append, List.forall_mem_singleton]
        refine ⟨fun segm hs => ?_, by omega⟩
        have := hkept segm hs
        omega

theorem Ordered.eq_of_holds {x y : RlcRxSduSegment} {b : Nat} (h : Ordered segments) (hx : x ∈ segments)
    (hy : y ∈ segments) (hbx : x.so ≤ b ∧ b < x.ends) (hby : y.so ≤ b ∧ b < y.ends) : x = y := by
  induction segments with
  | nil => cases hx
  | cons segm rest ih =>
    have hbehind := h.behind
    rcases List.mem_cons.mp hx with rfl | hx' <;> rcases List.mem_cons.mp hy with rfl | hy'
    · rfl
    · have := hbehind y hy'
      omega
    · have := hbehind x hx'
      omega
    · exact ih h.tail hx' hy'

/-- What survives: the segments that reach behind the new one, what is left of the new one, and
segments that begin where the new one has nothing to add. -/
theorem storeLoop_survivors (h : Ordered (kept ++ rest)) (hkept : ∀ segm ∈ kept, segm.ends ≤ new.so)
    (hnew : new.so < new.ends) (hbound : new.ends ≤ 2 ^ 16)
    (hpart : part ∈ (storeLoop kept rest new).2) :
    new.ends < part.ends ∨ TailOf part new ∨
      ∀ b, new.so ≤ b → b < part.so → Holds (kept ++ rest) b := by
  induction rest generalizing kept new with
  | nil =>
    have hpassed := so_lt_of_passed h hkept
    have hinsert := @insertSegment_middle kept [] new hpassed (by simp)
    rw [List.append_nil] at hinsert
    rw [storeLoop, hinsert] at hpart
    rcases List.mem_append.mp hpart with hpart | hpart
    · have := hpassed part hpart
      exact .inr (.inr fun b hlow hhigh => by omega)
    · rw [List.mem_singleton.mp hpart]
      exact .inr (.inl (.refl new))
  | cons cur rest ih =>
    have hpassed := so_lt_of_passed h hkept
    have hcur := h.nonempty cur (by simp)
    have hcurBound := h.bounded cur (by simp)
    have hbehind := h.behind_middle
    have hstays : ∀ segm ∈ kept, ∀ b, new.so ≤ b → b < segm.so → Holds (kept ++ cur :: rest) b := by
      intro segm hmem b hlow hhigh
      have := hpassed segm hmem
      omega
    have hreaches : ∀ segm ∈ rest, new.ends ≤ cur.ends → new.ends < segm.ends := by
      intro segm hmem hle
      have := hbehind segm hmem
      have := h.nonempty segm (by simp [hmem])
      omega
    have hcurLast := last_add_one hcur
    have hnewLast := last_add_one hnew
    rw [storeLoop] at hpart
    split at hpart
    · -- starts behind the current segment
      rw [List.append_cons] at h ⊢
      refine ih h ?_ hnew hbound hpart
      simp only [List.forall_mem_append, List.forall_mem_singleton]
      exact ⟨hkept, by omega⟩
    · split at hpart
      · split at hpart
        · -- all of its bytes are held
          rcases List.mem_append.mp hpart with hpart | hpart
          · exact .inr (.inr (hstays part hpart))
          · rcases List.mem_cons.mp hpart with rfl | hpart
            · exact .inr (.inr fun b hlow hhigh => by omega)
            · exact .inl (hreaches part hpart (by omega))
        · -- its head is held: go on with the tail
          obtain ⟨htail, hso⟩ := advanceTo_last hcur (by omega) (by omega) hbound
          have hends := htail.ends
          have hkept' : ∀ segm ∈ kept ++ [cur],
              segm.ends ≤ (new.advanceTo (cur.so + cur.payload.length - 1 + 1)).so := by
            simp only [List.forall_mem_append, List.forall_mem_singleton]
            refine ⟨fun segm hs => ?_, by omega⟩
            have := hkept segm hs
            omega
          rw [List.append_cons] at h ⊢
          rcases ih h hkept' (by omega) (by omega) hpart with hlong | hnewTail | hheld
          · exact .inl (by omega)
          · exact .inr (.inl (hnewTail.trans htail))
          · refine .inr (.inr fun b hlow hhigh => ?_)
            by_cases hb : b < cur.ends
            · exact ⟨cur, by simp, by omega, hb⟩
            · exact hheld b (by omega) hhigh
      · have hstarts : ∀ segm ∈ rest, new.so < segm.so := by
          intro segm hmem
          have := hbehind segm hmem
          omega
        split at hpart
        · -- ends before the current segment
          rw [insertSegment_middle hpassed
            (List.forall_mem_cons.mpr ⟨by omega, hstarts⟩)] at hpart
          simp only [List.mem_append, List.mem_cons] at hpart
          rcases hpart with hpart | rfl | rfl | hpart
          · exact .inr (.inr (hstays part hpart))
          · exact .inr (.inl (.refl part))
          · exact .inl (by omega)
          · exact .inl (hreaches part hpart (by omega))
        · split at hpart
          · -- ends within the current segment, which loses its head
            obtain ⟨htail, hso⟩ := advanceTo_last hnew (by omega) (by omega) hcurBound
            generalize cur.advanceTo (new.so + new.payload.length - 1 + 1) = cut at htail hso hpart
            have hends := htail.ends
            have hbefore : ∀ segm ∈ kept, segm.so < cut.so := by
              intro segm hmem
              have := hpassed segm hmem
              omega
            have hafter : ∀ segm ∈ rest, cut.so < segm.so := by
              intro segm hmem
              have := hbehind segm hmem
              omega
            rw [insertSegment_middle hbefore hafter, insertSegment_middle hpassed
              (List.forall_mem_cons.mpr ⟨by omega, hstarts⟩)] at hpart
            simp only [List.mem_append, List.mem_cons] at hpart
            rcases hpart with hpart | rfl | rfl | hpart
            · exact .inr (.inr (hstays part hpart))
            · exact .inr (.inl (.refl part))
            · exact .inl (by omega)
            · exact .inl (hreaches part hpart (by omega))
          · -- covers the current segment
            have hsub : Ordered (kept ++ rest) := h.sublist (by simp)
            rcases ih hsub hkept hnew hbound hpart with hlong | hnewTail | hheld
            · exact .inl hlong
            · exact .inr (.inl hnewTail)
            · refine .inr (.inr fun b hlow hhigh => ?_)
              rcases holds_append.mp (hheld b hlow hhigh) with hb | hb
              · exact holds_append.mpr (.inl hb)
              · exact holds_append.mpr (.inr (holds_cons.mpr (.inr hb)))

/-- With the new segment, all bytes in front of an offset are there. -/
def Completes (segments : List RlcRxSduSegment) (new : RlcRxSduSegment) (ends : Nat) : Prop :=
  ∀ b < ends, Holds segments b ∨ (new.so ≤ b ∧ b < new.ends)

/-- A segment that keeps within the 16-bit offsets and completes no last segment, itself or one that
ends behind it, in front of stored bytes. -/
structure Fits (segments : List RlcRxSduSegment) (new : RlcRxSduSegment) : Prop where
  bounded : new.ends ≤ 2 ^ 16
  newLast : new.si = .lastSegment → (∃ b, new.so ≤ b ∧ b < new.ends ∧ ¬ Holds segments b) →
    Completes segments new new.ends → ∀ b, Holds segments b → b < new.ends
  storedLast : ∀ last ∈ segments, last.si = .lastSegment → new.ends < last.ends →
    Completes segments new last.ends → ∀ b, Holds segments b → b < last.ends

theorem Fits.of_ends (hbound : new.ends ≤ 2 ^ 16)
    (hnew : new.si = .lastSegment → ∀ segm ∈ segments, segm.ends ≤ new.ends)
    (hstored : ∀ last ∈ segments, last.si = .lastSegment → ∀ segm ∈ segments, segm.ends ≤ last.ends) :
    Fits segments new := by
  refine ⟨hbound, ?_, ?_⟩
  · rintro hsi - - b ⟨segm, hmem, -, hlt⟩
    exact Nat.lt_of_lt_of_le hlt (hnew hsi segm hmem)
  · rintro last hlast hsi - - b ⟨segm, hmem, -, hlt⟩
    exact Nat.lt_of_lt_of_le hlt (hstored last hlast hsi segm hmem)

/-- Stored well: sorted and disjoint, exactly the received bytes, and a fully received SDU. -/
structure StoredWell (received segments : List RlcRxSduSegment) : Prop where
  ordered : Ordered segments
  holds : ∀ b, Holds segments b ↔ Holds received b
  formsSdu : (updateSegmentInventory segments).fullyReceived = true → FormsSdu 0 segments

theorem StoredWell.nil : StoredWell [] [] :=
  ⟨⟨by simp, by simp, .nil⟩, fun _ => Iff.rfl, nofun⟩

theorem Ordered.flag (h : Ordered segments) : FlagSpec 0 segments :=
  inventoryLoop_flag h fun _ _ => Nat.zero_le _

theorem formsSdu_iff_nothingBehindLast (h : Ordered segments) :
    ((updateSegmentInventory segments).fullyReceived = true → FormsSdu 0 segments) ↔
      NothingBehindLast 0 segments := by
  constructor
  · intro himp last hmem hsi hholds
    have hfull := h.flag.fullyReceived.mpr ⟨last, hmem, hsi, hholds⟩
    exact (h.flag.formsSdu hfull).mp (himp hfull) last hmem hsi hholds
  · intro hnothing hfull
    exact (h.flag.formsSdu hfull).mpr hnothing

section Store
variable (h : Ordered segments) (hopen : (updateSegmentInventory segments).fullyReceived = false)
  (hnew : new.so < new.ends) (hbound : new.ends ≤ 2 ^ 16)
include h hopen

theorem not_holdsFrom_of_open {last : RlcRxSduSegment} (hmem : last ∈ segments)
    (hsi : last.si = .lastSegment) : ¬ HoldsFrom segments 0 last.ends := by
  intro hholds
  have hfull := h.flag.fullyReceived.mpr ⟨last, hmem, hsi, hholds⟩
  rw [updateSegmentInventory, hfull] at hopen
  cases hopen

include hnew hbound

theorem Fits.nothingBehindLast (hfits : Fits segments new) :
    NothingBehindLast 0 (storeSegment segments new).2 := by
  have hspec := storeSegment_spec h hnew hbound
  intro last hmem hsi hholds b hb
  have hcompletes : Completes segments new last.ends :=
    fun b hlt => (hspec.holds b).mp (hholds b (Nat.zero_le _) hlt)
  have hsurvives := @storeLoop_survivors segments [] new last h (by simp) hnew hbound hmem
  rw [List.nil_append] at hsurvives
  rw [hspec.holds] at hb
  -- a stored segment in front of which the new one has nothing to add
  have hno : ∀ whole ∈ segments, TailOf last whole →
      ¬ ∀ b, new.so ≤ b → b < last.so → Holds segments b := by
    intro whole hwhole htail hheld
    refine not_holdsFrom_of_open h hopen hwhole (htail.si ▸ hsi) fun b _ hlt => ?_
    have hso := htail.so
    have hends := htail.ends
    rcases hcompletes b (by omega) with hb | hb
    · exact hb
    · by_cases hlow : b < last.so
      · exact hheld b hb.1 hlow
      · exact ⟨whole, hwhole, by omega, hlt⟩
  -- what is left of the new segment
  have hlastNew : TailOf last new → b < last.ends := by
    intro htail
    have hends := htail.ends
    rw [hends] at hcompletes ⊢
    rcases hb with hb | hb
    · refine hfits.newLast (htail.si ▸ hsi) ?_ hcompletes b hb
      by_contra hnone
      have hheld : ∀ b, new.so ≤ b → b < new.ends → Holds segments b := by
        intro b hlow hhigh
        by_contra hb
        exact hnone ⟨b, hlow, hhigh, hb⟩
      have hsame : storeSegment segments new = (false, segments) :=
        @storeLoop_held segments [] new h (by simp) hnew hbound hheld
      rw [hsame] at hmem hholds
      exact not_holdsFrom_of_open h hopen hmem hsi hholds
    · exact hb.2
  obtain ⟨whole, hwhole, htail⟩ := hspec.tails last hmem
  rcases List.mem_cons.mp hwhole with rfl | hwhole
  · exact hlastNew htail
  · have hends := htail.ends
    rcases hsurvives with hlong | hnewTail | hheld
    · rcases hb with hb | hb
      · rw [hends] at hcompletes ⊢
        exact hfits.storedLast whole hwhole (htail.si ▸ hsi) (by omega) hcompletes b hb
      · omega
    · exact hlastNew hnewTail
    · exact absurd hheld (hno whole hwhole htail)

omit hopen in
theorem Fits.of_nothingBehindLast (hnothing : NothingBehindLast 0 (storeSegment segments new).2) :
    Fits segments new := by
  have hspec := storeSegment_spec h hnew hbound
  have hholds : ∀ {ends : Nat}, Completes segments new ends →
      HoldsFrom (storeSegment segments new).2 0 ends :=
    fun hcompletes b _ hlt => (hspec.holds b).mpr (hcompletes b hlt)
  refine ⟨hbound, ?_, ?_⟩
  · rintro hsi ⟨missing, hlow, hhigh, hnot⟩ hcompletes b hb
    -- the missing byte is in what is left of the new segment
    obtain ⟨part, hpart, hin⟩ := (hspec.holds missing).mpr (.inr ⟨hlow, hhigh⟩)
    obtain ⟨whole, hwhole, htail⟩ := hspec.tails part hpart
    have hso := htail.so
    have hends := htail.ends
    rcases List.mem_cons.mp hwhole with rfl | hwhole
    · rw [← hends] at hcompletes ⊢
      exact hnothing part hpart (htail.si.trans hsi) (hholds hcompletes) b ((hspec.holds b).mpr (.inl hb))
    · exact absurd ⟨whole, hwhole, by omega, by omega⟩ hnot
  · intro last hlast hsi hbehind hcompletes b hb
    -- the last byte of the stored segment is in what is left of it
    have hnonempty := h.nonempty last hlast
    have hheld : Holds (storeSegment segments new).2 (last.ends - 1) :=
      (hspec.holds _).mpr (.inl ⟨last, hlast, by omega, by omega⟩)
    obtain ⟨part, hpart, hin⟩ := hheld
    obtain ⟨whole, hwhole, htail⟩ := hspec.tails part hpart
    have hso := htail.so
    have hends := htail.ends
    rcases List.mem_cons.mp hwhole with rfl | hwhole
    · omega
    · have hsame : whole = last :=
        h.eq_of_holds (b := last.ends - 1) hwhole hlast ⟨by omega, by omega⟩ ⟨by omega, by omega⟩
      subst hsame
      rw [← hends] at hcompletes ⊢
      exact hnothing part hpart (htail.si.trans hsi) (hholds hcompletes) b ((hspec.holds b).mpr (.inl hb))

end Store

/-- Storing keeps the segments well exactly when the new one fits. -/
theorem StoredWell.store_iff {received : List RlcRxSduSegment} (h : StoredWell received segments)
    (hopen : (updateSegmentInventory segments).fullyReceived = false) (hnew : new.so < new.ends) :
    StoredWell (received ++ [new]) (storeSegment segments new).2 ↔ Fits segments new := by
  constructor
  · intro hwell
    have hbound : new.ends ≤ 2 ^ 16 := by
      have hlast : Holds (storeSegment segments new).2 (new.ends - 1) := by
        rw [hwell.holds, holds_append, holds_cons]
        exact .inr (.inl ⟨by omega, by omega⟩)
      obtain ⟨segm, hmem, -, hlt⟩ := hlast
      have := hwell.ordered.bounded segm hmem
      omega
    have hnothing := (formsSdu_iff_nothingBehindLast hwell.ordered).mp hwell.formsSdu
    exact .of_nothingBehindLast h.ordered hnew hbound hnothing
  · intro hfits
    have hspec := storeSegment_spec h.ordered hnew hfits.bounded
    refine ⟨hspec.ordered, fun b => ?_, ?_⟩
    · rw [hspec.holds, h.holds, holds_append, holds_cons]
      simp [Holds]
    · exact (formsSdu_iff_nothingBehindLast hspec.ordered).mpr
        (hfits.nothingBehindLast h.ordered hopen hnew hfits.bounded)

/-- A data PDU with a segment of the SDU that has an SN, as the receiver passes it on: the length
check leaves at least one byte of payload. -/
structure SegmentPdu (sn : Nat) where
  header : RlcAmPduHeader
  payload : List UInt8
  sn_eq : header.sn = sn
  isSegment : header.si ≠ .fullSdu
  so_lt : header.so < 2 ^ 16
  payload_pos : 0 < payload.length

def SegmentPdu.segment {sn : Nat} (pdu : SegmentPdu sn) : RlcRxSduSegment :=
  segmentOfAm (pdu.header, pdu.payload)

theorem SegmentPdu.so_lt_ends {sn : Nat} (pdu : SegmentPdu sn) : pdu.segment.so < pdu.segment.ends :=
  Nat.lt_add_of_pos_right pdu.payload_pos

/-- The receiver, with the segments of one SN that were given to it. -/
structure PeerRun where
  received : List RlcRxSduSegment
  ent : RlcRxAmEntity

namespace PeerRun

def stored (sn : Nat) (run : PeerRun) : List RlcRxSduSegment :=
  segmentSet (run.ent.sduInfo sn)

def receive (sn : Nat) (run : PeerRun) (pdu : SegmentPdu sn) : Option PeerRun :=
  if (run.ent.sduInfo sn).fullyReceived then none
  else some
    { received := run.received ++ [pdu.segment]
      ent := (run.ent.handleSegmentDataSdu pdu.header pdu.payload).1 }

/-- The segments are sorted and disjoint within 16-bit offsets and have the received bytes; once the
SDU is fully received they are one range from its first byte to the end of the segment flagged as
last, and the reassembled SDU is that long; it is dropped if it is held in too many pieces. -/
structure Well (sn : Nat) (run : PeerRun) : Prop where
  ordered : Ordered (run.stored sn)
  holds : ∀ b, Holds (run.stored sn) b ↔ Holds run.received b
  fullyReceived : (run.ent.sduInfo sn).fullyReceived = true →
    FormsSdu 0 (run.stored sn) ∧ reassembleSdu (run.ent.sduInfo sn) =
      if (run.stored sn).length ≤ maxNofSlices then some (segmentBytes (run.stored sn)) else none

/-- The entry of the SN is what its segments say. -/
structure Entry (info : RlcRxAmSduInfo) : Prop where
  inventory : updateSegmentInventory (segmentSet info) =
    { fullyReceived := info.fullyReceived, hasGap := info.hasGap }
  sduData : info.fullyReceived = true →
    reassembleSdu info = reassembleSegments (segmentSet info)

variable {sn : Nat} {run run' : PeerRun} {pdu : SegmentPdu sn}

theorem well_iff (h : Entry (run.ent.sduInfo sn)) :
    run.Well sn ↔ StoredWell run.received (run.stored sn) := by
  have hflag : (updateSegmentInventory (run.stored sn)).fullyReceived =
      (run.ent.sduInfo sn).fullyReceived := by
    rw [stored, h.inventory]
  constructor
  · intro hwell
    exact ⟨hwell.ordered, hwell.holds, fun hfull => (hwell.fullyReceived (hflag ▸ hfull)).1⟩
  · intro hwell
    exact ⟨hwell.ordered, hwell.holds, fun hfull =>
      ⟨hwell.formsSdu (hflag ▸ hfull), (h.sduData hfull).trans hwell.ordered.reassemble⟩⟩

theorem sduInfo_handleSegmentDataSdu {ent : RlcRxAmEntity} {header : RlcAmPduHeader}
    {payload : List UInt8} (hsi : header.si ≠ .fullSdu) :
    let segments := (storeSegment (segmentSet (ent.sduInfo header.sn))
      (segmentOfAm (header, payload))).2
    (ent.handleSegmentDataSdu header payload).1.sduInfo header.sn =
      { fullyReceived := (updateSegmentInventory segments).fullyReceived
        hasGap := (updateSegmentInventory segments).hasGap
        sduData := .segments segments } := by
  simp only [handleSegmentDataSdu, if_neg hsi, sduInfo,
    CircularMap.get?_overwrite, if_true, Option.getD_some, segmentOfAm]

theorem receive_some (h : run.receive sn pdu = some run') :
    (run.ent.sduInfo sn).fullyReceived = false ∧ run'.received = run.received ++ [pdu.segment] ∧
      run'.stored sn = (storeSegment (run.stored sn) pdu.segment).2 ∧ Entry (run'.ent.sduInfo sn) := by
  obtain ⟨header, payload, rfl, hsegment, _, _⟩ := pdu
  rw [receive] at h
  split at h
  · cases h
  · rename_i hopen
    cases h
    simp only [stored, sduInfo_handleSegmentDataSdu hsegment]
    exact ⟨Bool.eq_false_of_not_eq_true hopen, trivial, rfl, rfl, fun _ => rfl⟩

theorem Entry.absent {ent : RlcRxAmEntity} (h : ent.rxWindow.get? sn = none) :
    Entry (ent.sduInfo sn) := by
  rw [sduInfo, h]
  exact ⟨rfl, (by rintro ⟨⟩)⟩

theorem Well.receive_iff (h : run.Well sn) (hentry : Entry (run.ent.sduInfo sn))
    (hreceive : run.receive sn pdu = some run') : run'.Well sn ↔ Fits (run.stored sn) pdu.segment := by
  obtain ⟨hopen, hreceived, hstored, hentry'⟩ := receive_some hreceive
  have hflag : (updateSegmentInventory (run.stored sn)).fullyReceived = false := by
    rw [stored, hentry.inventory, hopen]
  rw [well_iff hentry', hreceived, hstored]
  exact ((well_iff hentry).mp h).store_iff hflag pdu.so_lt_ends

end PeerRun

/-- Segments of one SN from an arbitrary peer. As long as each of them fits what is stored, the
segments are sorted and disjoint and a fully received SDU is one range that ends with the segment
flagged as last; the first that does not fit breaks this. -/
theorem segmentStore_peers (sn : Nat) (ent : RlcRxAmEntity) (hfresh : ent.rxWindow.get? sn = none) :
    (∀ run, Runs.Reaches (PeerRun.receive sn) (fun run pdu => Fits (run.stored sn) pdu.segment) ⟨[], ent⟩
      run → run.Well sn) ∧
    (∀ run pdu run', Runs.Reaches (PeerRun.receive sn) (fun run pdu => Fits (run.stored sn) pdu.segment)
      ⟨[], ent⟩ run → run.receive sn pdu = some run' →
        (run'.Well sn ↔ Fits (run.stored sn) pdu.segment)) := by
  have hwell : ∀ run, Runs.Reaches (PeerRun.receive sn) (fun run pdu => Fits (run.stored sn) pdu.segment)
      ⟨[], ent⟩ run → run.Well sn ∧ PeerRun.Entry (run.ent.sduInfo sn) := by
    intro run hrun
    refine hrun.invariant (I := fun run => run.Well sn ∧ PeerRun.Entry (run.ent.sduInfo sn))
      ⟨?_, .absent hfresh⟩ ?_
    · rw [PeerRun.well_iff (.absent hfresh), PeerRun.stored, sduInfo, hfresh]
      exact .nil
    · rintro run pdu run' ⟨hwell, hentry⟩ hfits hreceive
      exact ⟨(hwell.receive_iff hentry hreceive).mpr hfits, (PeerRun.receive_some hreceive).2.2.2⟩
  refine ⟨fun run hrun => (hwell run hrun).1, fun run pdu run' hrun hreceive => ?_⟩
  obtain ⟨hrunWell, hentry⟩ := hwell run hrun
  exact hrunWell.receive_iff hentry hreceive

/-- A PDU with a segment of SN 0 whose payload is one zero and `more` of them. -/
def SegmentPdu.zeros (si : RlcSiField) (so : Fin (2 ^ 16)) (more : Nat) (hsi : si ≠ .fullSdu) :
    SegmentPdu 0 where
  header := { si, so }
  payload := 0 :: List.replicate more 0
  sn_eq := rfl
  isSegment := hsi
  so_lt := so.isLt
  payload_pos := Nat.zero_lt_succ _

/-- Both ways to break it: a stored segment behind the one flagged as last makes an SDU of twelve
bytes instead of seven, with a gap; and a segment that goes on behind the last offset wraps, so that
its last byte is held as byte 0. -/
theorem segmentStore_peers_broken :
    let ent := create { snFieldLength := .size12bits, tReassembly := 35 }
    let trailing := Runs.runAll (PeerRun.receive 0) ⟨[], ent⟩
      [.zeros .middleSegment 10 4 nofun,
        .zeros .firstSegment 0 4 nofun,
        .zeros .lastSegment 5 1 nofun]
    let wrapped := Runs.runAll (PeerRun.receive 0) ⟨[], ent⟩
      [.zeros .middleSegment 65535 0 nofun,
        .zeros .lastSegment 65535 1 nofun]
    (∃ run, trailing = some run ∧ (run.ent.sduInfo 0).fullyReceived = true ∧
      (reassembleSdu (run.ent.sduInfo 0)).map List.length = some 12 ∧ ¬ run.Well 0) ∧
    (∃ run, wrapped = some run ∧ Holds (run.stored 0) 0 ∧ ¬ Holds run.received 0 ∧ ¬ run.Well 0) := by
  refine ⟨⟨_, rfl, rfl, rfl, ?_⟩, ?_⟩
  · rintro ⟨-, -, hfull⟩
    exact absurd (hfull rfl).1.contiguous.2.2.1 (by decide)
  · have hreceived : ¬ Holds
        [{ si := .middleSegment, so := 65535, payload := [0] },
          { si := .lastSegment, so := 65535, payload := [0, 0] }] 0 := by
      refine not_holds_of_behind fun segm hmem => ?_
      simp only [List.mem_cons, List.not_mem_nil, or_false] at hmem
      rcases hmem with rfl | rfl <;> exact Nat.zero_lt_succ _
    have hheld : Holds
        [{ si := .lastSegment, so := 0, payload := [0] },
          { si := .middleSegment, so := 65535, payload := [0] }] 0 :=
      ⟨_, .head _, Nat.le_refl 0, Nat.zero_lt_one⟩
    exact ⟨_, rfl, hheld, hreceived, fun hwell => hreceived ((hwell.holds 0).mp hheld)⟩

/-- Three segments that fit, the last one first. -/
theorem segmentStore_peers_threeSegments :
    let ent := create { snFieldLength := .size12bits, tReassembly := 35 }
    ∃ run, Runs.runAll (PeerRun.receive 0) ⟨[], ent⟩
      [.zeros .lastSegment 2 0 nofun,
        .zeros .firstSegment 0 0 nofun,
        .zeros .middleSegment 1 0 nofun] = some run ∧
      (run.ent.sduInfo 0).fullyReceived = true ∧ run.Well 0 := by
  have hwell := (segmentStore_peers 0
    (create { snFieldLength := .size12bits, tReassembly := 35 }) rfl).1
  refine ⟨_, rfl, rfl, hwell _ ?_⟩
  have hlast := @Runs.Reaches.next _ _ _ _ _ _ _ (.zeros .lastSegment 2 0 nofun)
    (@Runs.Reaches.start _ _ (PeerRun.receive 0) (fun run pdu => Fits (run.stored 0) pdu.segment)
      ⟨[], create { snFieldLength := .size12bits, tReassembly := 35 }⟩)
    (.of_ends (by decide) nofun nofun) rfl
  have hfirst := Runs.Reaches.next (a := .zeros .firstSegment 0 0 nofun) hlast
    (.of_ends (by decide) nofun (by decide)) rfl
  exact .next (a := .zeros .middleSegment 1 0 nofun) hfirst
    (.of_ends (by decide) nofun (by decide)) rfl

end Srsran.Rlc
