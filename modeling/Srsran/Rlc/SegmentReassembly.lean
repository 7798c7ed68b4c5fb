import Srsran.Rlc.RxAmEntity
import Srsran.Rlc.RxUmEntity

/-! Segments cut from one SDU, received in any order, and what the AM and the UM receiver make of
them. -/
namespace Srsran.Rlc
open Srsran.Adt RlcRxAmEntity

/-- SI of the part of an SDU of the given length that starts and ends at the given offsets. -/
def siOfPart (length so ends : Nat) : RlcSiField :=
  if so = 0 then if ends = length then .fullSdu else .firstSegment
  else if ends = length then .lastSegment else .middleSegment

/-- A segment of an SDU: some of its bytes, but not all, with the matching SI and SO. -/
structure CutFrom (sdu : List UInt8) (segm : RlcRxSduSegment) : Prop where
  nonempty : segm.so < segm.ends
  within : segm.ends ≤ sdu.length
  payload : segm.payload = (sdu.take segm.ends).drop segm.so
  si : segm.si = siOfPart sdu.length segm.so segm.ends
  proper : segm.si ≠ .fullSdu

/-- What is held of an SDU: a segment, or what is left of one behind bytes that came before. -/
structure HeldOf (sdu : List UInt8) (segm : RlcRxSduSegment) : Prop where
  within : segm.ends ≤ sdu.length
  payload : segm.payload = (sdu.take segm.ends).drop segm.so
  si : segm.si = .lastSegment ↔ segm.ends = sdu.length

variable {sdu : List UInt8} {segments received : List RlcRxSduSegment} {segm : RlcRxSduSegment}

theorem CutFrom.held (h : CutFrom sdu segm) : HeldOf sdu segm := by
  refine ⟨h.within, h.payload, ?_⟩
  have hproper := h.proper
  rw [h.si, siOfPart] at hproper ⊢
  split <;> rename_i hso
  · rw [if_pos hso] at hproper
    split <;> rename_i hends
    · rw [if_pos hends] at hproper
      exact absurd rfl hproper
    · simp [hends]
  · split <;> rename_i hends <;> simp [hends]

theorem HeldOf.tail {part whole : RlcRxSduSegment} (h : HeldOf sdu whole) (htail : TailOf part whole) :
    HeldOf sdu part := by
  refine ⟨htail.ends ▸ h.within, ?_, ?_⟩
  · have hso := htail.so
    rw [htail.payload, h.payload, List.drop_drop, htail.ends]
    congr 1
    omega
  · rw [htail.si, htail.ends, h.si]

/-- The segments held after some were received. -/
structure Stored (sdu : List UInt8) (received segments : List RlcRxSduSegment) : Prop where
  ordered : Ordered segments
  holds : ∀ b, Holds segments b ↔ Holds received b
  held : ∀ segm ∈ segments, HeldOf sdu segm

theorem Stored.nil (sdu : List UInt8) : Stored sdu [] [] :=
  ⟨⟨by simp, by simp, .nil⟩, fun _ => Iff.rfl, by simp⟩

theorem Stored.storeSegment (h : Stored sdu received segments) (hlen : sdu.length ≤ 65535)
    (hcut : CutFrom sdu segm) :
    Stored sdu (received ++ [segm]) (storeSegment segments segm).2 := by
  have hwithin := hcut.within
  have hspec := storeSegment_spec h.ordered hcut.nonempty (by omega)
  refine ⟨hspec.ordered, ?_, ?_⟩
  · intro b
    rw [hspec.holds, h.holds, holds_append, holds_cons]
    simp [Holds]
  · intro part hpart
    obtain ⟨whole, hwhole, htail⟩ := hspec.tails part hpart
    rcases List.mem_cons.mp hwhole with rfl | hwhole
    · exact hcut.held.tail htail
    · exact (h.held whole hwhole).tail htail

/-- Bytes from an offset on: all of them are held. -/
def HoldsFrom (segments : List RlcRxSduSegment) (start length : Nat) : Prop :=
  ∀ b, start ≤ b → b < length → Holds segments b

def MissesFrom (segments : List RlcRxSduSegment) (start : Nat) : Prop :=
  ∃ missing, start ≤ missing ∧ ¬ Holds segments missing ∧ ∃ b, missing < b ∧ Holds segments b

/-- The inventory of segments that start at an offset or behind it. -/
structure InventorySpec (sdu : List UInt8) (segments : List RlcRxSduSegment) (start : Nat) : Prop where
  fullyReceived : (inventoryLoop start segments).fullyReceived = true ↔
    HoldsFrom segments start sdu.length
  hasGap : (inventoryLoop start segments).hasGap = true ↔ MissesFrom segments start
  reassembled : (inventoryLoop start segments).fullyReceived = true →
    segmentBytes segments = sdu.drop start

theorem Ordered.tail (h : Ordered (segm :: segments)) : Ordered segments :=
  h.sublist (List.sublist_cons_self _ _)

theorem Ordered.behind (h : Ordered (segm :: segments)) : ∀ other ∈ segments, segm.ends ≤ other.so :=
  (List.pairwise_cons.mp h.disjoint).1

theorem not_holds_of_behind {b : Nat} (h : ∀ segm ∈ segments, b < segm.so) : ¬ Holds segments b := by
  rintro ⟨segm, hmem, hle, -⟩
  exact absurd (h segm hmem) (Nat.not_lt.mpr hle)

theorem holds_cons_of_ends_le {b : Nat} (hb : segm.ends ≤ b) :
    Holds (segm :: segments) b ↔ Holds segments b := by
  rw [holds_cons]
  exact or_iff_right fun h => absurd h.2 (Nat.not_lt.mpr hb)

theorem inventoryLoop_spec {start : Nat} (hordered : Ordered segments)
    (hheld : ∀ segm ∈ segments, HeldOf sdu segm) (hfrom : start < sdu.length)
    (hstart : ∀ segm ∈ segments, start ≤ segm.so) : InventorySpec sdu segments start := by
  induction segments generalizing start with
  | nil =>
    refine ⟨iff_of_false Bool.false_ne_true fun h => ?_, iff_of_false Bool.false_ne_true ?_,
      fun h => by cases h⟩
    · obtain ⟨_, hmem, -⟩ := h start (Nat.le_refl _) hfrom
      cases hmem
    · rintro ⟨_, -, -, _, -, _, hmem, -⟩
      cases hmem
  | cons segm rest ih =>
    have hsegm := hheld segm List.mem_cons_self
    have hwithin := hsegm.within
    have hnonempty := hordered.nonempty segm List.mem_cons_self
    have hle := hstart segm List.mem_cons_self
    have hbehind := hordered.behind
    by_cases hso : segm.so = start
    · by_cases hsi : segm.si = .lastSegment
      · -- nothing lies behind the last segment
        have hends := hsegm.si.mp hsi
        have hrest : rest = [] := by
          refine List.eq_nil_iff_forall_not_mem.mpr fun other hmem => ?_
          have := (hheld other (List.mem_cons_of_mem _ hmem)).within
          have := hordered.nonempty other (List.mem_cons_of_mem _ hmem)
          have := hbehind other hmem
          omega
        subst hrest
        have hloop : inventoryLoop start [segm] = { fullyReceived := true, hasGap := false } := by
          rw [inventoryLoop, if_neg (not_not.mpr hso), if_pos hsi]
        have hholds : HoldsFrom [segm] start sdu.length :=
          fun b hfrom hto => ⟨segm, List.mem_cons_self, hso ▸ hfrom, hends ▸ hto⟩
        refine ⟨?_, ?_, ?_⟩
        · rw [hloop]
          exact iff_of_true rfl hholds
        · rw [hloop]
          refine iff_of_false Bool.false_ne_true ?_
          rintro ⟨missing, hmissing, hnot, b, hlt, _, hmem, -, hb⟩
          rw [List.mem_singleton.mp hmem, hends] at hb
          exact hnot (hholds missing hmissing (hlt.trans hb))
        · intro _
          rw [segmentBytes, List.flatMap_singleton, hsegm.payload, hends, List.take_length, hso]
      · -- go on behind this segment
        have hends : segm.ends ≠ sdu.length := fun heq => hsi (hsegm.si.mpr heq)
        have hrest := ih hordered.tail (fun other hmem => hheld other (List.mem_cons_of_mem _ hmem))
          (Nat.lt_of_le_of_ne hwithin hends) hbehind
        have hloop : inventoryLoop start (segm :: rest) = inventoryLoop segm.ends rest := by
          rw [inventoryLoop, if_neg (not_not.mpr hso), if_neg hsi, ← hso]
          rfl
        refine ⟨?_, ?_, ?_⟩
        · rw [hloop, hrest.fullyReceived]
          constructor
          · intro h b hfrom hto
            by_cases hb : segm.ends ≤ b
            · exact (holds_cons_of_ends_le hb).mpr (h b hb hto)
            · exact ⟨segm, List.mem_cons_self, hso ▸ hfrom, Nat.lt_of_not_le hb⟩
          · intro h b hfrom hto
            exact (holds_cons_of_ends_le hfrom).mp (h b (by omega) hto)
        · rw [hloop, hrest.hasGap]
          constructor
          · rintro ⟨missing, hmissing, hnot, b, hlt, hb⟩
            exact ⟨missing, by omega, fun h => hnot ((holds_cons_of_ends_le hmissing).mp h), b, hlt,
              (holds_cons_of_ends_le (hmissing.trans hlt.le)).mpr hb⟩
          · rintro ⟨missing, hmissing, hnot, b, hlt, hb⟩
            have hbehind : segm.ends ≤ missing := by
              by_contra hin
              exact hnot ⟨segm, List.mem_cons_self, hso ▸ hmissing, Nat.lt_of_not_le hin⟩
            exact ⟨missing, hbehind, fun h => hnot ((holds_cons_of_ends_le hbehind).mpr h), b, hlt,
              (holds_cons_of_ends_le (hbehind.trans hlt.le)).mp hb⟩
        · rw [hloop]
          intro hfull
          have hcons := hrest.reassembled hfull
          rw [segmentBytes] at hcons
          rw [segmentBytes, List.flatMap_cons, hcons, hsegm.payload, ← hso]
          calc (sdu.take segm.ends).drop segm.so ++ sdu.drop segm.ends
              = (sdu.take segm.ends ++ sdu.drop segm.ends).drop segm.so := by
                rw [List.drop_append_of_le_length (by rw [List.length_take]; omega)]
            _ = sdu.drop segm.so := by rw [List.take_append_drop]
    · -- the byte at the offset is missing
      have hloop : inventoryLoop start (segm :: rest) = { fullyReceived := false, hasGap := true } := by
        rw [inventoryLoop, if_pos hso]
      have hmissing : ¬ Holds (segm :: rest) start := by
        refine not_holds_of_behind fun other hmem => ?_
        rcases List.mem_cons.mp hmem with rfl | hmem
        · omega
        · have := hbehind other hmem
          omega
      refine ⟨?_, ?_, ?_⟩
      · rw [hloop]
        exact iff_of_false Bool.false_ne_true fun h => hmissing (h start (Nat.le_refl _) hfrom)
      · rw [hloop]
        exact iff_of_true rfl ⟨start, Nat.le_refl _, hmissing, segm.so, by omega, segm,
          List.mem_cons_self, Nat.le_refl _, hnonempty⟩
      · rw [hloop]
        exact fun h => by cases h

/-- What a receiver knows of an SDU after some of its segments. It hands up the SDU if the pieces that
it stores fit a chain of slices, and otherwise drops it. -/
structure Reassembled (sdu : List UInt8) (received segments : List RlcRxSduSegment)
    (fullyReceived hasGap : Bool) (handedUp : Option (List UInt8)) : Prop where
  fullyReceived_iff : fullyReceived = true ↔ ∀ b < sdu.length, Holds received b
  hasGap_iff : hasGap = true ↔ ∃ missing, ¬ Holds received missing ∧ ∃ b, missing < b ∧ Holds received b
  sorted : segments.Pairwise fun x y => x.ends ≤ y.so
  nonempty : ∀ segm ∈ segments, segm.so < segm.ends
  handedUp_eq : fullyReceived = true →
    handedUp = if segments.length ≤ maxNofSlices then some sdu else none

theorem Stored.reassembled (h : Stored sdu received segments) (hlen : 1 ≤ sdu.length) :
    Reassembled sdu received segments (updateSegmentInventory segments).fullyReceived
      (updateSegmentInventory segments).hasGap (reassembleSegments segments) := by
  have hspec : InventorySpec sdu segments 0 :=
    inventoryLoop_spec h.ordered h.held hlen fun _ _ => Nat.zero_le _
  refine ⟨?_, ?_, h.ordered.disjoint, h.ordered.nonempty, ?_⟩
  · rw [updateSegmentInventory, hspec.fullyReceived]
    simp [HoldsFrom, h.holds]
  · rw [updateSegmentInventory, hspec.hasGap]
    simp [MissesFrom, h.holds]
  · intro hfull
    rw [h.ordered.reassemble, hspec.reassembled hfull, List.drop_zero]

def segmentOfAm (pdu : RlcAmPduHeader × List UInt8) : RlcRxSduSegment :=
  { si := pdu.1.si, so := pdu.1.so, payload := pdu.2 }

def RlcRxAmEntity.handleSegments (ent : RlcRxAmEntity) (pdus : List (RlcAmPduHeader × List UInt8)) :
    RlcRxAmEntity :=
  pdus.foldl (fun ent pdu => (ent.handleSegmentDataSdu pdu.1 pdu.2).1) ent

def RlcRxAmEntity.sduInfo (ent : RlcRxAmEntity) (sn : Nat) : RlcRxAmSduInfo :=
  (ent.rxWindow.get? sn).getD {}

structure AmHolds (sdu : List UInt8) (received : List RlcRxSduSegment) (info : RlcRxAmSduInfo) : Prop where
  stored : Stored sdu received (segmentSet info)
  inventory : updateSegmentInventory (segmentSet info) =
    { fullyReceived := info.fullyReceived, hasGap := info.hasGap }
  sduData : info.fullyReceived = true →
    reassembleSdu info = reassembleSegments (segmentSet info)

theorem AmHolds.reassembled {info : RlcRxAmSduInfo} (h : AmHolds sdu received info)
    (hlen : 1 ≤ sdu.length) :
    Reassembled sdu received (segmentSet info) info.fullyReceived info.hasGap
      (reassembleSdu info) := by
  have hsegments := h.stored.reassembled hlen
  rw [h.inventory] at hsegments
  exact ⟨hsegments.fullyReceived_iff, hsegments.hasGap_iff, hsegments.sorted, hsegments.nonempty,
    fun hfull => (h.sduData hfull).trans (hsegments.handedUp_eq hfull)⟩

theorem AmHolds.handleSegment {ent : RlcRxAmEntity} {pdu : RlcAmPduHeader × List UInt8}
    (h : AmHolds sdu received (ent.sduInfo pdu.1.sn)) (hlen : sdu.length ≤ 65535)
    (hcut : CutFrom sdu (segmentOfAm pdu)) :
    AmHolds sdu (received ++ [segmentOfAm pdu])
      ((ent.handleSegmentDataSdu pdu.1 pdu.2).1.sduInfo pdu.1.sn) := by
  have hsi : pdu.1.si ≠ .fullSdu := hcut.proper
  have hstored := h.stored.storeSegment hlen hcut
  rw [handleSegmentDataSdu, if_neg hsi, sduInfo]
  rw [sduInfo] at hstored
  simp only [CircularMap.get?_overwrite, if_true, Option.getD_some]
  exact ⟨hstored, rfl, fun _ => rfl⟩

theorem AmHolds.handleSegments {ent : RlcRxAmEntity} {sn : Nat}
    {pdus : List (RlcAmPduHeader × List UInt8)} (h : AmHolds sdu received (ent.sduInfo sn))
    (hlen : sdu.length ≤ 65535) (hpdus : ∀ pdu ∈ pdus, pdu.1.sn = sn ∧ CutFrom sdu (segmentOfAm pdu)) :
    AmHolds sdu (received ++ pdus.map segmentOfAm) ((ent.handleSegments pdus).sduInfo sn) := by
  induction pdus generalizing ent received with
  | nil => simpa [handleSegments] using h
  | cons pdu pdus ih =>
    obtain ⟨⟨rfl, hcut⟩, hrest⟩ := List.forall_mem_cons.mp hpdus
    have hnext := ih (h.handleSegment hlen hcut) hrest
    rwa [List.append_assoc, List.singleton_append] at hnext

def segmentOfUm (pdu : RlcUmPduHeader × List UInt8) : RlcRxSduSegment :=
  { si := pdu.1.si, so := pdu.1.so, payload := pdu.2 }

def RlcRxUmEntity.handleSegments (ent : RlcRxUmEntity) (pdus : List (RlcUmPduHeader × List UInt8)) :
    RlcRxUmEntity :=
  pdus.foldl (fun ent pdu => ent.handleSegmentDataSdu pdu.1 pdu.2) ent

structure UmHolds (sdu : List UInt8) (received : List RlcRxSduSegment) (info : RlcRxUmSduInfo) : Prop where
  stored : Stored sdu received info.segments
  inventory : updateSegmentInventory info.segments =
    { fullyReceived := info.fullyReceived, hasGap := info.hasGap }

theorem UmHolds.reassembled {info : RlcRxUmSduInfo} (h : UmHolds sdu received info)
    (hlen : 1 ≤ sdu.length) :
    Reassembled sdu received info.segments info.fullyReceived info.hasGap
      (reassembleSegments info.segments) := by
  have hsegments := h.stored.reassembled hlen
  rwa [h.inventory] at hsegments

variable {ent : RlcRxUmEntity}

theorem UmHolds.handleSegment {pdu : RlcUmPduHeader × List UInt8}
    (h : UmHolds sdu received (ent.sduInfo pdu.1.sn)) (hlen : sdu.length ≤ 65535)
    (hcut : CutFrom sdu (segmentOfUm pdu)) :
    UmHolds sdu (received ++ [segmentOfUm pdu])
      ((ent.handleSegmentDataSdu pdu.1 pdu.2).sduInfo pdu.1.sn) := by
  have hsi : pdu.1.si ≠ .fullSdu := hcut.proper
  have hstored := h.stored.storeSegment hlen hcut
  rw [RlcRxUmEntity.handleSegmentDataSdu, if_neg hsi, RlcRxUmEntity.sduInfo]
  rw [RlcRxUmEntity.sduInfo] at hstored
  simp only [CircularMap.get?_overwrite, if_true, Option.getD_some]
  exact ⟨hstored, rfl⟩

variable {pdus : List (RlcUmPduHeader × List UInt8)}

theorem UmHolds.handleSegments {sn : Nat} (h : UmHolds sdu received (ent.sduInfo sn))
    (hlen : sdu.length ≤ 65535) (hpdus : ∀ pdu ∈ pdus, pdu.1.sn = sn ∧ CutFrom sdu (segmentOfUm pdu)) :
    UmHolds sdu (received ++ pdus.map segmentOfUm) ((ent.handleSegments pdus).sduInfo sn) := by
  induction pdus generalizing ent received with
  | nil => simpa [RlcRxUmEntity.handleSegments] using h
  | cons pdu pdus ih =>
    obtain ⟨⟨rfl, hcut⟩, hrest⟩ := List.forall_mem_cons.mp hpdus
    have hnext := ih (h.handleSegment hlen hcut) hrest
    rwa [List.append_assoc, List.singleton_append] at hnext

/-- Segments cut from an SDU, in any order, with duplicates and overlaps: after each of them both
receivers know what they have, and hand up the original bytes unless they hold them in too many
pieces. -/
theorem rlcReassembly_exact (sdu : List UInt8) (hpos : 1 ≤ sdu.length) (hlen : sdu.length ≤ 65535)
    (sn : Nat) :
    (∀ (ent : RlcRxAmEntity) (pdus : List (RlcAmPduHeader × List UInt8)),
      ent.rxWindow.get? sn = none →
      (∀ pdu ∈ pdus, pdu.1.sn = sn ∧ CutFrom sdu (segmentOfAm pdu)) →
      let info := (ent.handleSegments pdus).sduInfo sn
      Reassembled sdu (pdus.map segmentOfAm) (segmentSet info) info.fullyReceived
        info.hasGap (reassembleSdu info)) ∧
    (∀ (ent : RlcRxUmEntity) (pdus : List (RlcUmPduHeader × List UInt8)),
      ent.rxWindow.get? sn = none →
      (∀ pdu ∈ pdus, pdu.1.sn = sn ∧ CutFrom sdu (segmentOfUm pdu)) →
      let info := (ent.handleSegments pdus).sduInfo sn
      Reassembled sdu (pdus.map segmentOfUm) info.segments info.fullyReceived info.hasGap
        (reassembleSegments info.segments)) := by
  constructor
  · intro ent pdus hnew hpdus
    have hstart : AmHolds sdu [] (ent.sduInfo sn) := by
      rw [sduInfo, hnew]
      exact ⟨.nil sdu, rfl, nofun⟩
    exact (hstart.handleSegments hlen hpdus).reassembled hpos
  · intro ent pdus hnew hpdus
    have hstart : UmHolds sdu [] (ent.sduInfo sn) := by
      rw [RlcRxUmEntity.sduInfo, hnew]
      exact ⟨.nil sdu, rfl⟩
    exact (hstart.handleSegments hlen hpdus).reassembled hpos

/-- The last segment of four bytes, then an overlapping first one. -/
theorem rlcReassembly_exact_overlap :
    let pdus : List (RlcUmPduHeader × List UInt8) :=
      [({ si := .lastSegment, sn := 0, so := 1 }, [2, 3, 4]), ({ si := .firstSegment, sn := 0 }, [1, 2])]
    let info := ((RlcRxUmEntity.create ⟨.size6bits, 35⟩).handleSegments pdus).sduInfo 0
    info.fullyReceived = true ∧ reassembleSegments info.segments = some [1, 2, 3, 4] := by
  intro pdus info
  have hcuts : ∀ pdu ∈ pdus, pdu.1.sn = 0 ∧ CutFrom [1, 2, 3, 4] (segmentOfUm pdu) := by
    intro pdu hpdu
    simp only [pdus, List.mem_cons, List.not_mem_nil, or_false] at hpdu
    rcases hpdu with rfl | rfl <;> exact ⟨rfl, by decide, by decide, by decide, by decide, by decide⟩
  have hexact := (rlcReassembly_exact [1, 2, 3, 4] (by decide) (by decide) 0).2
    (RlcRxUmEntity.create ⟨.size6bits, 35⟩) pdus rfl hcuts
  have hfull : info.fullyReceived = true := by
    refine hexact.fullyReceived_iff.mpr fun b hb => ?_
    by_cases hzero : b = 0
    · subst hzero
      exact ⟨_, .tail _ (.head _), by decide, by decide⟩
    · exact ⟨_, .head _, Nat.one_le_iff_ne_zero.mpr hzero, hb⟩
  exact ⟨hfull, (hexact.handedUp_eq hfull).trans (if_pos (by decide))⟩

theorem RlcRxUmEntity.segments_handleSegments {sn : Nat}
    (hpdus : ∀ pdu ∈ pdus, pdu.1.sn = sn ∧ CutFrom sdu (segmentOfUm pdu)) :
    ((ent.handleSegments pdus).sduInfo sn).segments = (pdus.map segmentOfUm).foldl
      (fun stored segm => (Srsran.Rlc.storeSegment stored segm).2) (ent.sduInfo sn).segments := by
  induction pdus generalizing ent with
  | nil => rfl
  | cons pdu pdus ih =>
    obtain ⟨⟨rfl, hcut⟩, hrest⟩ := List.forall_mem_cons.mp hpdus
    have hsi : pdu.1.si ≠ .fullSdu := hcut.proper
    have hnext : ((ent.handleSegmentDataSdu pdu.1 pdu.2).sduInfo pdu.1.sn).segments =
        (Srsran.Rlc.storeSegment (ent.sduInfo pdu.1.sn).segments (segmentOfUm pdu)).2 := by
      simp only [handleSegmentDataSdu, if_neg hsi, sduInfo, CircularMap.get?_overwrite, if_true,
        Option.getD_some]
      rfl
    rw [List.map_cons, List.foldl_cons, ← hnext]
    exact ih hrest

/-- An SDU in segments of one byte, from the last one on. -/
def byteSegments (length : Nat) : List (RlcUmPduHeader × List UInt8) :=
  (List.range length).reverse.map fun so => ({ si := siOfPart length so (so + 1), sn := 0, so }, [0])

theorem cutFrom_byteSegments {length : Nat} (h : 1 < length) :
    ∀ pdu ∈ byteSegments length, pdu.1.sn = 0 ∧ CutFrom (List.replicate length 0) (segmentOfUm pdu) := by
  intro pdu hpdu
  obtain ⟨so, hso, rfl⟩ := List.mem_map.mp hpdu
  have hlt := List.mem_range.mp (List.mem_reverse.mp hso)
  refine ⟨rfl, Nat.lt_succ_self so, ?_, ?_, ?_, ?_⟩
  · rw [List.length_replicate]
    exact hlt
  · simp [segmentOfUm, RlcRxSduSegment.ends, List.take_replicate, List.drop_replicate,
      Nat.min_eq_left (Nat.succ_le_of_lt hlt)]
  · rw [List.length_replicate]
    rfl
  · show siOfPart length so (so + 1) ≠ .fullSdu
    rw [siOfPart]
    split
    · rw [if_neg (by omega)]
      exact RlcSiField.noConfusion
    · split <;> exact RlcSiField.noConfusion

theorem UmHolds.dropped {cfg : RlcRxUmConfig}
    (hlen : sdu.length ≤ 65535) (hpdus : ∀ pdu ∈ pdus, pdu.1.sn = 0 ∧ CutFrom sdu (segmentOfUm pdu))
    (hstored : (pdus.map segmentOfUm).foldl (fun stored segm => (storeSegment stored segm).2) [] = segments)
    (hfull : (updateSegmentInventory segments).fullyReceived = true)
    (hnone : reassembleSegments segments = none) :
    ∃ info, info = ((RlcRxUmEntity.create cfg).handleSegments pdus).sduInfo 0 ∧
      info.fullyReceived = true ∧ reassembleSegments info.segments = none := by
  have hstart : UmHolds sdu [] ((RlcRxUmEntity.create cfg).sduInfo 0) := ⟨.nil _, rfl⟩
  have hinventory := (hstart.handleSegments hlen hpdus).inventory
  have hsegments : (((RlcRxUmEntity.create cfg).handleSegments pdus).sduInfo 0).segments = segments :=
    (RlcRxUmEntity.segments_handleSegments hpdus).trans hstored
  rw [hsegments] at hinventory
  rw [hinventory] at hfull
  exact ⟨_, rfl, hfull, hsegments ▸ hnone⟩

/-- An SDU of one byte more than a chain has slices is received, but not handed up. -/
theorem rlcReassembly_chainFull : ∃ pdus : List (RlcUmPduHeader × List UInt8),
    (∀ pdu ∈ pdus, pdu.1.sn = 0 ∧ CutFrom (List.replicate 52 0) (segmentOfUm pdu)) ∧
      ∃ info, info = ((RlcRxUmEntity.create ⟨.size6bits, 35⟩).handleSegments pdus).sduInfo 0 ∧
        info.fullyReceived = true ∧ reassembleSegments info.segments = none :=
  ⟨byteSegments 52, cutFrom_byteSegments (by decide), UmHolds.dropped (by decide)
    (cutFrom_byteSegments (by decide)) rfl (by decide +kernel) (by decide +kernel)⟩

end Srsran.Rlc
