import Srsran.Rlc.Config
import Mathlib.Data.List.Basic

/-! The segments that a receiver holds of one SDU: `store_segment`, `update_segment_inventory` and
the reassembly, which the AM and the UM receiver share line by line. The ordered set of segments is
a list sorted by offset; offsets are stored in 16 bits. -/
namespace Srsran.Rlc

structure RlcRxSduSegment where
  si : RlcSiField
  so : Nat
  payload : List UInt8
  deriving DecidableEq, Repr

namespace RlcRxSduSegment

def ends (segm : RlcRxSduSegment) : Nat := segm.so + segm.payload.length

/-- Drops the first `n` bytes; the new offset is truncated to 16 bits. -/
def advanceTo (segm : RlcRxSduSegment) (so : Nat) : RlcRxSduSegment :=
  { segm with payload := segm.payload.drop (so - segm.so), so := so % 2 ^ 16 }

end RlcRxSduSegment

/-- Insertion into the ordered set; a segment with the same offset stays. -/
def insertSegment : List RlcRxSduSegment → RlcRxSduSegment → List RlcRxSduSegment
  | [], new => [new]
  | cur :: rest, new =>
    if new.so < cur.so then new :: cur :: rest
    else if cur.so < new.so then cur :: insertSegment rest new
    else cur :: rest

/-- The loop over the stored segments; `kept` are those already passed. Returns whether the new
segment was stored, and the segments. -/
def storeLoop : List RlcRxSduSegment → List RlcRxSduSegment → RlcRxSduSegment →
    Bool × List RlcRxSduSegment
  | kept, [], new => (true, insertSegment kept new)
  | kept, cur :: rest, new =>
    let curLastByte := cur.so + cur.payload.length - 1
    let newLastByte := new.so + new.payload.length - 1
    if new.so > curLastByte then storeLoop (kept ++ [cur]) rest new
    else if new.so ≥ cur.so then
      if newLastByte ≤ curLastByte then (false, kept ++ cur :: rest)
      else storeLoop (kept ++ [cur]) rest (new.advanceTo (curLastByte + 1))
    else if newLastByte < cur.so then (true, insertSegment (kept ++ cur :: rest) new)
    else if newLastByte < curLastByte then
      (true, insertSegment (insertSegment (kept ++ rest) (cur.advanceTo (newLastByte + 1))) new)
    else storeLoop kept rest new

def storeSegment (segments : List RlcRxSduSegment) (new : RlcRxSduSegment) :
    Bool × List RlcRxSduSegment :=
  storeLoop [] segments new

/-- Flags of `update_segment_inventory`: fully received, and has a gap. -/
structure SegmentInventory where
  fullyReceived : Bool
  hasGap : Bool
  deriving DecidableEq, Repr

def inventoryLoop : Nat → List RlcRxSduSegment → SegmentInventory
  | _, [] => { fullyReceived := false, hasGap := false }
  | nextByte, segm :: rest =>
    if segm.so ≠ nextByte then { fullyReceived := false, hasGap := true }
    else if segm.si = .lastSegment then { fullyReceived := true, hasGap := false }
    else inventoryLoop (nextByte + segm.payload.length) rest

def updateSegmentInventory (segments : List RlcRxSduSegment) : SegmentInventory :=
  inventoryLoop 0 segments

/-- Slices in one block of the segment pool: 2048 bytes by default, 40 for each `byte_buffer_slice`. -/
def maxNofSlices : Nat := 2048 / 40

/-- `byte_buffer_chain::append`. -/
def appendSlice (slices : List (List UInt8)) (slice : List UInt8) : Option (List (List UInt8)) :=
  if slice.isEmpty then some slices
  else if slices.length = maxNofSlices then none
  else some (slices ++ [slice])

/-- The loop of `reassemble_sdu`, which fails when the chain is full. -/
def reassembleSegments (segments : List RlcRxSduSegment) : Option (List UInt8) :=
  (segments.foldlM (fun slices segm => appendSlice slices segm.payload) []).map List.flatten

def segmentBytes (segments : List RlcRxSduSegment) : List UInt8 :=
  segments.flatMap (·.payload)

variable {segments : List RlcRxSduSegment}

theorem foldlM_appendSlice {slices : List (List UInt8)}
    (hne : ∀ segm ∈ segments, segm.payload ≠ []) (hle : slices.length ≤ maxNofSlices) :
    segments.foldlM (fun slices segm => appendSlice slices segm.payload) slices =
      if slices.length + segments.length ≤ maxNofSlices then
        some (slices ++ segments.map (·.payload))
      else none := by
  induction segments generalizing slices with
  | nil => simp [hle]
  | cons segm rest ih =>
    rw [List.forall_mem_cons] at hne
    have hsegm : segm.payload.isEmpty = false := List.isEmpty_eq_false_iff.mpr hne.1
    rw [List.foldlM_cons, appendSlice, hsegm, if_neg Bool.false_ne_true, List.length_cons]
    by_cases hfull : slices.length = maxNofSlices
    · rw [if_pos hfull, if_neg (by omega)]
      rfl
    · rw [if_neg hfull, Option.bind_eq_bind, Option.bind_some,
        ih hne.2 (by rw [List.length_append, List.length_singleton]; omega)]
      simp only [List.length_append, List.length_singleton, List.append_assoc, List.singleton_append,
        List.map_cons]
      congr 1
      rw [eq_iff_iff]
      omega

theorem reassembleSegments_eq (hne : ∀ segm ∈ segments, segm.payload ≠ []) :
    reassembleSegments segments =
      if segments.length ≤ maxNofSlices then some (segmentBytes segments) else none := by
  rw [reassembleSegments, foldlM_appendSlice hne (Nat.zero_le _), List.length_nil, Nat.zero_add,
    List.nil_append, segmentBytes, List.flatMap_def]
  split <;> rfl

/-- Byte `b` is held by some segment. -/
def Holds (segments : List RlcRxSduSegment) (b : Nat) : Prop :=
  ∃ segm ∈ segments, segm.so ≤ b ∧ b < segm.ends

/-- Non-empty, within the 16-bit offsets, sorted and disjoint. -/
structure Ordered (segments : List RlcRxSduSegment) : Prop where
  nonempty : ∀ segm ∈ segments, segm.so < segm.ends
  bounded : ∀ segm ∈ segments, segm.ends ≤ 2 ^ 16
  disjoint : segments.Pairwise fun x y => x.ends ≤ y.so

/-- `part` is what is left of `whole` after dropping bytes at its front. -/
structure TailOf (part whole : RlcRxSduSegment) : Prop where
  si : part.si = whole.si
  so : whole.so ≤ part.so
  payload : part.payload = whole.payload.drop (part.so - whole.so)
  ends : part.ends = whole.ends

theorem TailOf.refl (segm : RlcRxSduSegment) : TailOf segm segm :=
  ⟨rfl, le_rfl, by simp, rfl⟩

theorem TailOf.trans {a b c : RlcRxSduSegment} (hab : TailOf a b) (hbc : TailOf b c) :
    TailOf a c := by
  refine ⟨hab.si.trans hbc.si, hbc.so.trans hab.so, ?_, hab.ends.trans hbc.ends⟩
  have h1 := hab.so
  have h2 := hbc.so
  rw [hab.payload, hbc.payload, List.drop_drop]
  congr 1
  omega

variable {segm : RlcRxSduSegment}

theorem advanceTo_tailOf {so : Nat} (hlow : segm.so ≤ so) (hhigh : so < segm.ends)
    (hbound : segm.ends ≤ 2 ^ 16) : TailOf (segm.advanceTo so) segm := by
  have hso : so % 2 ^ 16 = so := Nat.mod_eq_of_lt (by omega)
  unfold RlcRxSduSegment.ends at hhigh
  refine ⟨rfl, ?_, ?_, ?_⟩
  · simpa only [RlcRxSduSegment.advanceTo, hso] using hlow
  · simp only [RlcRxSduSegment.advanceTo, hso]
  · simp only [RlcRxSduSegment.advanceTo, hso, RlcRxSduSegment.ends, List.length_drop]
    omega

theorem so_advanceTo {so : Nat} (h : so < 2 ^ 16) :
    (segm.advanceTo so).so = so := Nat.mod_eq_of_lt h

theorem last_add_one (h : segm.so < segm.ends) :
    segm.so + segm.payload.length - 1 + 1 = segm.ends := by
  unfold RlcRxSduSegment.ends at h ⊢
  omega

/-- Advancing to behind the last byte of another segment, which ends within this one. -/
theorem advanceTo_last {other : RlcRxSduSegment} (hother : other.so < other.ends)
    (hlow : segm.so ≤ other.ends) (hhigh : other.ends < segm.ends) (hbound : segm.ends ≤ 2 ^ 16) :
    TailOf (segm.advanceTo (other.so + other.payload.length - 1 + 1)) segm ∧
      (segm.advanceTo (other.so + other.payload.length - 1 + 1)).so = other.ends := by
  rw [last_add_one hother]
  exact ⟨advanceTo_tailOf hlow hhigh hbound, so_advanceTo (by omega)⟩

variable {before behind : List RlcRxSduSegment}

theorem insertSegment_middle {new : RlcRxSduSegment}
    (hbefore : ∀ segm ∈ before, segm.so < new.so) (hbehind : ∀ segm ∈ behind, new.so < segm.so) :
    insertSegment (before ++ behind) new = before ++ new :: behind := by
  induction before with
  | nil =>
    cases behind with
    | nil => rfl
    | cons next rest => rw [List.nil_append, insertSegment, if_pos (hbehind next (by simp)),
        List.nil_append]
  | cons cur rest ih =>
    have hcur := hbefore cur (by simp)
    rw [List.cons_append, insertSegment, if_neg (by omega), if_pos hcur, List.cons_append,
      ih fun segm h => hbefore segm (List.mem_cons_of_mem _ h)]

variable {xs : List RlcRxSduSegment}

theorem Ordered.reassemble (h : Ordered xs) :
    reassembleSegments xs = if xs.length ≤ maxNofSlices then some (segmentBytes xs) else none := by
  refine reassembleSegments_eq fun segm hs hnil => ?_
  have hpos := h.nonempty segm hs
  rw [RlcRxSduSegment.ends, hnil, List.length_nil, Nat.add_zero] at hpos
  exact absurd hpos (Nat.lt_irrefl _)

theorem Ordered.sublist {ys : List RlcRxSduSegment} (h : Ordered ys) (hsub : xs.Sublist ys) :
    Ordered xs :=
  ⟨fun segm hs => h.nonempty segm (hsub.subset hs), fun segm hs => h.bounded segm (hsub.subset hs),
    h.disjoint.sublist hsub⟩

theorem Ordered.behind_middle {kept rest : List RlcRxSduSegment} (h : Ordered (kept ++ segm :: rest)) :
    ∀ other ∈ rest, segm.ends ≤ other.so := by
  have hd := h.disjoint
  rw [List.pairwise_append, List.pairwise_cons] at hd
  exact hd.2.1.1

variable {new : RlcRxSduSegment}

theorem Ordered.middle (h : Ordered (before ++ behind))
    (hnew : new.so < new.ends) (hbound : new.ends ≤ 2 ^ 16)
    (hbefore : ∀ segm ∈ before, segm.ends ≤ new.so) (hbehind : ∀ segm ∈ behind, new.ends ≤ segm.so) :
    Ordered (before ++ new :: behind) := by
  obtain ⟨hne, hb, hd⟩ := h
  simp only [List.forall_mem_append, List.pairwise_append] at hne hb hd
  refine ⟨?_, ?_, ?_⟩
  · simp only [List.forall_mem_append, List.forall_mem_cons]
    exact ⟨hne.1, hnew, hne.2⟩
  · simp only [List.forall_mem_append, List.forall_mem_cons]
    exact ⟨hb.1, hbound, hb.2⟩
  · simp only [List.pairwise_append, List.pairwise_cons, List.forall_mem_cons]
    exact ⟨hd.1, ⟨hbehind, hd.2.1⟩, fun segm hs => ⟨hbefore segm hs, hd.2.2 segm hs⟩⟩

theorem holds_append {ys : List RlcRxSduSegment} {b : Nat} :
    Holds (xs ++ ys) b ↔ Holds xs b ∨ Holds ys b := by
  simp only [Holds, List.mem_append]
  constructor
  · rintro ⟨segm, hs | hs, hb⟩
    · exact .inl ⟨segm, hs, hb⟩
    · exact .inr ⟨segm, hs, hb⟩
  · rintro (⟨segm, hs, hb⟩ | ⟨segm, hs, hb⟩)
    · exact ⟨segm, .inl hs, hb⟩
    · exact ⟨segm, .inr hs, hb⟩

theorem holds_cons {b : Nat} :
    Holds (segm :: xs) b ↔ (segm.so ≤ b ∧ b < segm.ends) ∨ Holds xs b := by
  simp only [Holds, List.mem_cons]
  constructor
  · rintro ⟨s, rfl | hs, hb⟩
    · exact .inl hb
    · exact .inr ⟨s, hs, hb⟩
  · rintro (hb | ⟨s, hs, hb⟩)
    · exact ⟨segm, .inl rfl, hb⟩
    · exact ⟨s, .inr hs, hb⟩

/-- What storing achieves: the result is ordered, holds the bytes of the stored segments and of the
new one, and consists of tails of these segments. -/
structure StoreSpec (segments : List RlcRxSduSegment) (new : RlcRxSduSegment)
    (result : List RlcRxSduSegment) : Prop where
  ordered : Ordered result
  holds : ∀ b, Holds result b ↔ Holds segments b ∨ (new.so ≤ b ∧ b < new.ends)
  tails : ∀ part ∈ result, ∃ whole ∈ new :: segments, TailOf part whole

variable {result : List RlcRxSduSegment}

theorem tails_of_subset {wholes : List RlcRxSduSegment} (h : ∀ part ∈ result, part ∈ wholes) :
    ∀ part ∈ result, ∃ whole ∈ wholes, TailOf part whole :=
  fun part hp => ⟨part, h part hp, .refl part⟩

variable {kept rest : List RlcRxSduSegment}

/-- The new segment goes between the passed segments and the remaining ones. -/
theorem StoreSpec.insert (h : Ordered (kept ++ rest)) (hkept : ∀ segm ∈ kept, segm.ends ≤ new.so)
    (hrest : ∀ segm ∈ rest, new.ends ≤ segm.so) (hnew : new.so < new.ends)
    (hbound : new.ends ≤ 2 ^ 16) :
    StoreSpec (kept ++ rest) new (insertSegment (kept ++ rest) new) := by
  rw [insertSegment_middle]
  · refine ⟨h.middle hnew hbound hkept hrest, ?_, ?_⟩
    · intro b
      simp only [holds_append, holds_cons]
      tauto
    · apply tails_of_subset
      intro part hp
      simp only [List.mem_append, List.mem_cons] at hp ⊢
      tauto
  · intro segm hs
    have := h.nonempty segm (List.mem_append_left _ hs)
    have := hkept segm hs
    omega
  · intro segm hs
    have := hrest segm hs
    omega

/-- Passing on to a tail of the new segment: the dropped bytes are held already. -/
theorem StoreSpec.of_tail {new' : RlcRxSduSegment}
    (h : StoreSpec segments new' result) (htail : TailOf new' new)
    (hheld : ∀ b, new.so ≤ b → b < new'.so → Holds segments b) : StoreSpec segments new result := by
  have hso := htail.so
  have hends := htail.ends
  refine ⟨h.ordered, ?_, ?_⟩
  · intro b
    rw [h.holds]
    constructor
    · rintro (hb | hb)
      · exact .inl hb
      · exact .inr ⟨by omega, by omega⟩
    · rintro (hb | hb)
      · exact .inl hb
      · by_cases hlow : b < new'.so
        · exact .inl (hheld b hb.1 hlow)
        · exact .inr ⟨by omega, by omega⟩
  · intro part hp
    obtain ⟨whole, hw, htail'⟩ := h.tails part hp
    rcases List.mem_cons.mp hw with rfl | hw
    · exact ⟨new, List.mem_cons_self, htail'.trans htail⟩
    · exact ⟨whole, List.mem_cons_of_mem _ hw, htail'⟩

theorem StoreSpec.of_erase {cur : RlcRxSduSegment} (h : StoreSpec (kept ++ rest) new result)
    (hlow : new.so ≤ cur.so) (hhigh : cur.ends ≤ new.ends) :
    StoreSpec (kept ++ cur :: rest) new result := by
  refine ⟨h.ordered, ?_, ?_⟩
  · intro b
    rw [h.holds]
    simp only [holds_append, holds_cons]
    constructor
    · rintro ((hb | hb) | hb)
      · exact .inl (.inl hb)
      · exact .inl (.inr (.inr hb))
      · exact .inr hb
    · rintro ((hb | hb | hb) | hb)
      · exact .inl (.inl hb)
      · exact .inr ⟨by omega, by omega⟩
      · exact .inl (.inr hb)
      · exact .inr hb
  · intro part hp
    obtain ⟨whole, hw, htail⟩ := h.tails part hp
    refine ⟨whole, ?_, htail⟩
    simp only [List.mem_cons, List.mem_append] at hw ⊢
    tauto

/-- Replacing a segment by its tail: the new one has the dropped bytes. -/
theorem StoreSpec.of_cut {cur cut : RlcRxSduSegment}
    (h : StoreSpec (kept ++ cut :: rest) new result) (htail : TailOf cut cur)
    (hlow : new.so ≤ cur.so) (hhigh : cut.so ≤ new.ends) :
    StoreSpec (kept ++ cur :: rest) new result := by
  have hso := htail.so
  have hends := htail.ends
  refine ⟨h.ordered, ?_, ?_⟩
  · intro b
    rw [h.holds]
    simp only [holds_append, holds_cons]
    constructor
    · rintro ((hb | hb | hb) | hb)
      · exact .inl (.inl hb)
      · exact .inl (.inr (.inl ⟨by omega, by omega⟩))
      · exact .inl (.inr (.inr hb))
      · exact .inr hb
    · rintro ((hb | hb | hb) | hb)
      · exact .inl (.inl hb)
      · by_cases hcut : b < cut.so
        · exact .inr ⟨by omega, by omega⟩
        · exact .inl (.inr (.inl ⟨by omega, by omega⟩))
      · exact .inl (.inr (.inr hb))
      · exact .inr hb
  · intro part hp
    obtain ⟨whole, hw, htail'⟩ := h.tails part hp
    simp only [List.mem_cons, List.mem_append] at hw ⊢
    rcases hw with rfl | hw | rfl | hw
    · exact ⟨whole, .inl rfl, htail'⟩
    · exact ⟨whole, .inr (.inl hw), htail'⟩
    · exact ⟨cur, .inr (.inr (.inl rfl)), htail'.trans htail⟩
    · exact ⟨whole, .inr (.inr (.inr hw)), htail'⟩

/-- The loop from a position where all passed segments end before the new one. -/
theorem storeLoop_spec {kept rest : List RlcRxSduSegment} {new : RlcRxSduSegment}
    (h : Ordered (kept ++ rest)) (hkept : ∀ segm ∈ kept, segm.ends ≤ new.so)
    (hnew : new.so < new.ends) (hbound : new.ends ≤ 2 ^ 16) :
    StoreSpec (kept ++ rest) new (storeLoop kept rest new).2 := by
  induction rest generalizing kept new with
  | nil =>
    have := StoreSpec.insert h hkept (by simp) hnew hbound
    rwa [List.append_nil] at this ⊢
  | cons cur rest ih =>
    have hcur := h.nonempty cur (by simp)
    have hcurBound := h.bounded cur (by simp)
    have hbehind := h.behind_middle
    have hcurLast := last_add_one hcur
    have hnewLast := last_add_one hnew
    rw [storeLoop]
    split
    · -- starts behind the current segment
      rw [List.append_cons] at h ⊢
      refine ih h ?_ hnew hbound
      simp only [List.forall_mem_append, List.forall_mem_singleton]
      exact ⟨hkept, by omega⟩
    · split
      · split
        · -- all of its bytes are held
          refine ⟨h, ?_, ?_⟩
          · intro b
            constructor
            · exact .inl
            · rintro (hb | hb)
              · exact hb
              · exact ⟨cur, by simp, by omega, by omega⟩
          · exact tails_of_subset fun part hp => List.mem_cons_of_mem _ hp
        · -- its head is held: go on with the tail
          obtain ⟨htail, hso⟩ := advanceTo_last hcur (by omega) (by omega) hbound
          have hends := htail.ends
          refine StoreSpec.of_tail ?_ htail ?_
          · rw [List.append_cons] at h ⊢
            refine ih h ?_ (by omega) (by omega)
            simp only [List.forall_mem_append, List.forall_mem_singleton]
            refine ⟨?_, by omega⟩
            intro segm hs
            have := hkept segm hs
            omega
          · intro b hlow hhigh
            exact ⟨cur, by simp, by omega, by omega⟩
      · split
        · -- ends before the current segment
          refine StoreSpec.insert h hkept ?_ hnew hbound
          simp only [List.forall_mem_cons]
          refine ⟨by omega, ?_⟩
          intro segm hs
          have := hbehind segm hs
          omega
        · split
          · -- ends within the current segment, which loses its head
            obtain ⟨htail, hso⟩ := advanceTo_last hnew (by omega) (by omega) hcurBound
            generalize cur.advanceTo (new.so + new.payload.length - 1 + 1) = cut at htail hso
            have hends := htail.ends
            have hkeptCut : ∀ segm ∈ kept, segm.ends ≤ cut.so := by
              intro segm hs
              have := hkept segm hs
              omega
            have hcutBehind : ∀ segm ∈ rest, cut.ends ≤ segm.so := by
              intro segm hs
              have := hbehind segm hs
              omega
            have hdropped : Ordered (kept ++ rest) := h.sublist (by simp)
            have hcut : Ordered (kept ++ cut :: rest) :=
              hdropped.middle (by omega) (by omega) hkeptCut hcutBehind
            rw [insertSegment_middle]
            · refine StoreSpec.of_cut ?_ htail (by omega) (by omega)
              refine StoreSpec.insert hcut hkept ?_ hnew hbound
              simp only [List.forall_mem_cons]
              refine ⟨by omega, ?_⟩
              intro segm hs
              have := hbehind segm hs
              omega
            · intro segm hs
              have := h.nonempty segm (List.mem_append_left _ hs)
              have := hkept segm hs
              omega
            · intro segm hs
              have := hbehind segm hs
              omega
          · -- covers the current segment
            refine StoreSpec.of_erase ?_ (by omega) (by omega)
            exact ih (h.sublist (by simp)) hkept hnew hbound

theorem storeSegment_spec (h : Ordered segments)
    (hnew : new.so < new.ends) (hbound : new.ends ≤ 2 ^ 16) :
    StoreSpec segments new (storeSegment segments new).2 :=
  @storeLoop_spec [] segments new h (by simp) hnew hbound

end Srsran.Rlc
