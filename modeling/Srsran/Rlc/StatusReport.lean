import Srsran.Rlc.RxAmState

/-! The status report against the reception buffer: the NACKs, decomposed the way the peer does it,
say exactly which bytes are missing, as long as no received segment reaches beyond the 16-bit
offsets. -/
namespace Srsran.Rlc
open ModOrder Srsran.Adt Checked RlcAmStatusPdu RlcRxAmEntity

/-- A NACK without range covers byte `b` of its SDU; an end offset of `so_end_of_sdu` reaches to
the end of the SDU. -/
def coversByte (item : RlcAmStatusNack) (b : Nat) : Prop :=
  item.hasSo = true → item.soStart ≤ b ∧ (item.soEnd = soEndOfSdu ∨ b ≤ item.soEnd)

/-- Byte `b` of SDU `sn` is reported as missing. -/
def ReportedMissing (m : Nat) (nacks : List RlcAmStatusNack) (sn b : Nat) : Prop :=
  ∃ nack ∈ nacks, ∃ item ∈ expandNack m nack, item.nackSn = sn ∧ coversByte item b

/-- SNs in range, and at least one and at most a full turn of them. -/
structure ProperNack (m : Nat) (nack : RlcAmStatusNack) : Prop where
  sn_lt : nack.nackSn < m
  pos : 0 < nack.nofSns
  le : nack.nofSns ≤ m

variable {sn b : Nat}

theorem reportedMissing_append {m : Nat} {xs ys : List RlcAmStatusNack} :
    ReportedMissing m (xs ++ ys) sn b ↔ ReportedMissing m xs sn b ∨ ReportedMissing m ys sn b := by
  simp only [ReportedMissing, List.mem_append]
  constructor
  · rintro ⟨nack, hn | hn, hitem⟩
    · exact .inl ⟨nack, hn, hitem⟩
    · exact .inr ⟨nack, hn, hitem⟩
  · rintro (⟨nack, hn, hitem⟩ | ⟨nack, hn, hitem⟩)
    · exact ⟨nack, .inl hn, hitem⟩
    · exact ⟨nack, .inr hn, hitem⟩

variable {nack : RlcAmStatusNack}

theorem reportedMissing_single {m : Nat} :
    ReportedMissing m [nack] sn b ↔ ∃ item ∈ expandNack m nack, item.nackSn = sn ∧
      coversByte item b := by
  simp [ReportedMissing]

/-- The byte ranges that a NACK denotes: the start offset applies to its first SN, the end offset
to its last one. -/
theorem reportedMissing_nack {m : Nat} (h : ProperNack m nack) :
    ReportedMissing m [nack] sn b ↔ ∃ i < nack.nofSns, sn = (nack.nackSn + i) % m ∧
      (nack.hasSo = true → (i = 0 → nack.soStart ≤ b) ∧
        (i + 1 = nack.nofSns → nack.soEnd = soEndOfSdu ∨ b ≤ nack.soEnd)) := by
  rw [reportedMissing_single]
  obtain ⟨hsn, hpos, hle⟩ := h
  unfold RlcAmStatusNack.nofSns at *
  cases hr : nack.hasNackRange with
  | false =>
    simp only [expandNack, hr, Bool.false_eq_true, if_false, List.mem_singleton,
      exists_eq_left]
    constructor
    · rintro ⟨rfl, hcovers⟩
      refine ⟨0, Nat.one_pos, by rw [Nat.add_zero, Nat.mod_eq_of_lt hsn], ?_⟩
      intro hso
      exact ⟨fun _ => (hcovers hso).1, fun _ => (hcovers hso).2⟩
    · rintro ⟨i, hi, rfl, hcovers⟩
      obtain rfl : i = 0 := by omega
      refine ⟨by rw [Nat.add_zero, Nat.mod_eq_of_lt hsn], ?_⟩
      intro hso
      exact ⟨(hcovers hso).1 rfl, (hcovers hso).2 rfl⟩
  | true =>
    simp only [hr, if_true] at hpos hle ⊢
    have hfirst : ∀ i < nack.nackRange, (nack.nackSn + i) % m = nack.nackSn ↔ i = 0 := by
      intro i hi
      constructor
      · intro heq
        have hbase : (nack.nackSn + i) % m = nack.nackSn % m := by
          rw [heq, Nat.mod_eq_of_lt hsn]
        have := mod_inj_of_near (by omega : nack.nackSn ≤ nack.nackSn + i) (by omega)
          le_rfl (by omega) hbase
        omega
      · rintro rfl
        rw [Nat.add_zero, Nat.mod_eq_of_lt hsn]
    have hlast : ∀ i < nack.nackRange, (nack.nackSn + i) % m =
        (nack.nackSn + nack.nackRange - 1) % m ↔ i + 1 = nack.nackRange := by
      intro i hi
      constructor
      · intro heq
        have := mod_inj_of_near (by omega : nack.nackSn ≤ nack.nackSn + i) (by omega)
          (by omega : nack.nackSn ≤ nack.nackSn + nack.nackRange - 1) (by omega) heq
        omega
      · intro heq
        congr 1
        omega
    have hitem : ∀ i < nack.nackRange, coversByte (rangeItem m nack ((nack.nackSn + i) % m)) b ↔
        (nack.hasSo = true → (i = 0 → nack.soStart ≤ b) ∧
          (i + 1 = nack.nackRange → nack.soEnd = soEndOfSdu ∨ b ≤ nack.soEnd)) := by
      intro i hi
      simp only [coversByte, rangeItem, hfirst i hi, hlast i hi]
      cases nack.hasSo with
      | false => simp
      | true =>
        generalize i + 1 = next at *
        by_cases h0 : i = 0
        · by_cases h1 : next = nack.nackRange
          · simp [h0, h1]
            omega
          · simp [h0, h1]
            omega
        · by_cases h1 : next = nack.nackRange
          · simp [h0, h1]
            omega
          · simp [h0, h1]
    simp only [expandNack, coveredSns, hr, if_true, List.mem_map, List.mem_range]
    constructor
    · rintro ⟨item, ⟨sn', ⟨i, hi, rfl⟩, rfl⟩, rfl, hcovers⟩
      exact ⟨i, hi, rfl, (hitem i hi).mp hcovers⟩
    · rintro ⟨i, hi, rfl, hcovers⟩
      exact ⟨_, ⟨_, ⟨i, hi, rfl⟩, rfl⟩, rfl, (hitem i hi).mpr hcovers⟩

theorem fields_expandPrev (prev nack : RlcAmStatusNack) :
    (expandPrev prev nack).hasSo = (prev.hasSo || nack.hasSo) ∧
    ((expandPrev prev nack).hasSo = true →
      (expandPrev prev nack).soStart = (if prev.hasSo then prev.soStart else 0) ∧
      (expandPrev prev nack).soEnd = (if nack.hasSo then nack.soEnd else soEndOfSdu)) := by
  unfold expandPrev
  cases nack.hasNackRange <;> cases prev.hasNackRange <;> cases nack.hasSo <;>
    cases prev.hasSo <;> simp

variable {pdu : RlcAmStatusPdu}

theorem reportedMissing_expandPrev {prev : RlcAmStatusNack} (hprev : ProperNack pdu.modNr prev)
    (hnack : ProperNack pdu.modNr nack) (hmerged : ProperNack pdu.modNr (expandPrev prev nack))
    (hmerge : pdu.canBeMerged prev nack = true) :
    ReportedMissing pdu.modNr [expandPrev prev nack] sn b ↔
      ReportedMissing pdu.modNr [prev] sn b ∨ ReportedMissing pdu.modNr [nack] sn b := by
  obtain ⟨hsn, hend, hstart, -⟩ := canBeMerged_iff.mp hmerge
  obtain ⟨hso, hfields⟩ := fields_expandPrev prev nack
  have hp := hprev.pos
  have hq := hnack.pos
  rw [reportedMissing_nack hmerged, reportedMissing_nack hprev, reportedMissing_nack hnack,
    nofSns_expandPrev, nackSn_expandPrev]
  have hnext : ∀ i, (nack.nackSn + i) % pdu.modNr =
      (prev.nackSn + (prev.nofSns + i)) % pdu.modNr := by
    intro i
    rw [hsn, Nat.mod_add_mod, Nat.add_assoc]
  constructor
  · rintro ⟨i, hi, rfl, hcovers⟩
    by_cases hlow : i < prev.nofSns
    · refine .inl ⟨i, hlow, rfl, fun hprevSo => ⟨?_, fun _ => .inl (hend hprevSo)⟩⟩
      intro h0
      have hmso : (expandPrev prev nack).hasSo = true := by rw [hso, hprevSo, Bool.true_or]
      have := (hcovers hmso).1 h0
      rwa [(hfields hmso).1, if_pos hprevSo] at this
    · refine .inr ⟨i - prev.nofSns, by omega, ?_, fun hnackSo => ⟨fun _ => ?_, ?_⟩⟩
      · rw [hnext, Nat.add_sub_cancel' (by omega)]
      · rw [hstart hnackSo]
        exact Nat.zero_le b
      · intro h1
        have hmso : (expandPrev prev nack).hasSo = true := by rw [hso, hnackSo, Bool.or_true]
        have := (hcovers hmso).2 (by omega)
        rwa [(hfields hmso).2, if_pos hnackSo] at this
  · rintro (⟨i, hi, rfl, hcovers⟩ | ⟨i, hi, rfl, hcovers⟩)
    · refine ⟨i, by omega, rfl, fun hmso => ⟨?_, fun h1 => by omega⟩⟩
      intro h0
      rw [(hfields hmso).1]
      split
      · exact (hcovers ‹_›).1 h0
      · exact Nat.zero_le b
    · refine ⟨prev.nofSns + i, by omega, hnext i, fun hmso => ⟨fun h0 => by omega, ?_⟩⟩
      intro h1
      rw [(hfields hmso).2]
      split
      · exact (hcovers ‹_›).2 (by omega)
      · exact .inl rfl

theorem reportedMissing_pushNack (hpdu : ∀ n ∈ pdu.nacks, ProperNack pdu.modNr n)
    (hnack : ProperNack pdu.modNr nack) :
    (∀ n ∈ (pdu.pushNack nack).nacks, ProperNack pdu.modNr n) ∧
    ∀ sn b, ReportedMissing pdu.modNr (pdu.pushNack nack).nacks sn b ↔
      ReportedMissing pdu.modNr pdu.nacks sn b ∨ ReportedMissing pdu.modNr [nack] sn b := by
  rcases nacks_pushNack_cases pdu nack with
    ⟨init, prev, hsplit, hmerge, hnacks, -⟩ | ⟨-, hnacks, -⟩
  · rw [hsplit] at hpdu ⊢
    rw [hnacks]
    simp only [List.forall_mem_append, List.forall_mem_singleton] at hpdu ⊢
    have hturn : 255 ≤ pdu.modNr := by
      unfold modNr
      cases pdu.snSize <;> decide
    have hmerged : ProperNack pdu.modNr (expandPrev prev nack) := by
      refine ⟨?_, ?_, ?_⟩
      · rw [nackSn_expandPrev]
        exact hpdu.2.sn_lt
      · rw [nofSns_expandPrev]
        have := hnack.pos
        omega
      · rw [nofSns_expandPrev]
        exact (canBeMerged_iff.mp hmerge).2.2.2.trans hturn
    refine ⟨⟨hpdu.1, hmerged⟩, fun sn b => ?_⟩
    rw [reportedMissing_append, reportedMissing_append,
      reportedMissing_expandPrev hpdu.2 hnack hmerged hmerge, or_assoc]
  · rw [hnacks]
    refine ⟨?_, fun sn b => reportedMissing_append⟩
    simp only [List.forall_mem_append, List.forall_mem_singleton]
    exact ⟨hpdu, hnack⟩

variable {nacks : List RlcAmStatusNack}

theorem reportedMissing_pushAll (hpdu : ∀ n ∈ pdu.nacks, ProperNack pdu.modNr n)
    (hnacks : ∀ n ∈ nacks, ProperNack pdu.modNr n) (sn b : Nat) :
    ReportedMissing pdu.modNr (nacks.foldl pushNack pdu).nacks sn b ↔
      ReportedMissing pdu.modNr pdu.nacks sn b ∨ ReportedMissing pdu.modNr nacks sn b := by
  induction nacks generalizing pdu with
  | nil => simp [ReportedMissing]
  | cons nack rest ih =>
    obtain ⟨hproper, hpush⟩ := reportedMissing_pushNack hpdu (hnacks nack List.mem_cons_self)
    have hmod : (pdu.pushNack nack).modNr = pdu.modNr := by simp [modNr]
    have hrest : ∀ n ∈ rest, ProperNack pdu.modNr n :=
      fun n hn => hnacks n (List.mem_cons_of_mem _ hn)
    rw [← hmod] at hproper hrest
    have hih := ih hproper hrest
    rw [hmod] at hih
    have hcons : ReportedMissing pdu.modNr (nack :: rest) sn b ↔
        ReportedMissing pdu.modNr [nack] sn b ∨ ReportedMissing pdu.modNr rest sn b := by
      rw [← reportedMissing_append, List.singleton_append]
    rw [List.foldl_cons, hih, hpush, or_assoc, hcons]

/-- A segment that is the last one of its SDU has arrived. -/
def HaveLast (segments : List RlcRxSduSegment) : Prop :=
  ∃ segm ∈ segments, segm.si = .lastSegment

theorem haveLast_cons {segm : RlcRxSduSegment} {rest : List RlcRxSduSegment} :
    HaveLast (segm :: rest) ↔ segm.si = .lastSegment ∨ HaveLast rest :=
  List.exists_mem_cons_iff _ _ _

/-- Bytes that no segment holds, up to the end of the SDU once that is known. -/
def GapByte (segments : List RlcRxSduSegment) (b : Nat) : Prop :=
  ¬ Holds segments b ∧ (HaveLast segments → ∃ segm ∈ segments, b < segm.ends)

/-- Byte `b` of SDU `sn` has not been received: nothing is missing of a fully received SDU,
everything of an absent one, and the gaps of one that is received in part. -/
def MissingByte (window : CircularMap RlcRxAmSduInfo) (sn b : Nat) : Prop :=
  match window.get? sn with
  | none => True
  | some info => info.fullyReceived = false ∧ GapByte (segmentSet info) b

/-- Offsets behind segments that are not the last one of their SDU fit in 16 bits. -/
structure SegmentsOk (segments : List RlcRxSduSegment) : Prop where
  ordered : Ordered segments
  tailFits : ∀ segm ∈ segments, segm.si ≠ .lastSegment → segm.ends < 2 ^ 16

theorem segmentNacks_spec (sn : Nat) {segments : List RlcRxSduSegment} {lastSo : Nat}
    {haveLastSegment : Bool} (h : SegmentsOk segments) (hlow : ∀ segm ∈ segments, lastSo ≤ segm.so)
    (hfits : haveLastSegment = false → lastSo < 2 ^ 16) :
    ∃ nacks, segmentNacks sn lastSo haveLastSegment segments = .ok nacks ∧
      (∀ n ∈ nacks, n.nackSn = sn ∧ n.hasNackRange = false) ∧
      ∀ b, (∃ n ∈ nacks, coversByte n b) ↔ lastSo ≤ b ∧ ¬ Holds segments b ∧
        (haveLastSegment = true ∨ HaveLast segments → ∃ segm ∈ segments, b < segm.ends) := by
  induction segments generalizing lastSo haveLastSegment with
  | nil =>
    unfold segmentNacks
    cases haveLastSegment with
    | true =>
      refine ⟨[], rfl, by simp, ?_⟩
      simp
    | false =>
      refine ⟨_, rfl, by simp, ?_⟩
      intro b
      have hmod : lastSo % 65536 = lastSo := Nat.mod_eq_of_lt (hfits rfl)
      simp [coversByte, Holds, HaveLast, hmod]
  | cons segm rest ih =>
    have hne := h.ordered.nonempty segm List.mem_cons_self
    have hbound := h.ordered.bounded segm List.mem_cons_self
    have hlast := hlow segm List.mem_cons_self
    have hbehind : ∀ s ∈ rest, segm.ends ≤ s.so :=
      (List.pairwise_cons.mp h.ordered.disjoint).1
    have hrest : SegmentsOk rest :=
      ⟨h.ordered.sublist (List.sublist_cons_self _ _),
        fun s hs => h.tailFits s (List.mem_cons_of_mem _ hs)⟩
    obtain ⟨nacks, hnacks, hform, hcovers⟩ := @ih segm.ends
      (haveLastSegment || segm.si = .lastSegment) hrest hbehind (by
        intro hnot
        rw [Bool.or_eq_false_iff, decide_eq_false_iff_not] at hnot
        exact h.tailFits segm List.mem_cons_self hnot.2)
    have hafter : ∀ b, segm.ends ≤ b →
        ((∃ n ∈ nacks, coversByte n b) ↔ lastSo ≤ b ∧ ¬ Holds (segm :: rest) b ∧
          (haveLastSegment = true ∨ HaveLast (segm :: rest) →
            ∃ s ∈ segm :: rest, b < s.ends)) := by
      intro b hb
      have hnot : ¬ b < segm.ends := by omega
      rw [hcovers b, holds_cons, haveLast_cons, List.exists_mem_cons_iff, Bool.or_eq_true,
        decide_eq_true_eq, or_assoc]
      simp only [hnot, and_false, false_or]
      constructor
      · exact fun hc => ⟨by omega, hc.2⟩
      · exact fun hc => ⟨hb, hc.2⟩
    have hwithin : ∀ b, b < segm.ends → ¬ ∃ n ∈ nacks, coversByte n b := by
      intro b hb hn
      have := ((hcovers b).mp hn).1
      omega
    have hbefore : ∀ b, b < segm.ends →
        ((lastSo ≤ b ∧ b < segm.so) ↔ lastSo ≤ b ∧ ¬ Holds (segm :: rest) b ∧
          (haveLastSegment = true ∨ HaveLast (segm :: rest) →
            ∃ s ∈ segm :: rest, b < s.ends)) := by
      intro b hb
      have hnot : ¬ Holds rest b := by
        rintro ⟨s, hs, hsb⟩
        have := hbehind s hs
        omega
      rw [holds_cons, List.exists_mem_cons_iff]
      constructor
      · rintro ⟨h1, h2⟩
        refine ⟨h1, ?_, fun _ => .inl hb⟩
        rintro (hheld | hheld)
        · omega
        · exact hnot hheld
      · rintro ⟨h1, h2, -⟩
        refine ⟨h1, ?_⟩
        by_contra hge
        exact h2 (.inl ⟨by omega, hb⟩)
    unfold segmentNacks
    rw [show segm.so + segm.payload.length = segm.ends from rfl, hnacks, ok_bind]
    by_cases hgap : segm.so = lastSo
    · rw [if_pos hgap]
      refine ⟨nacks, rfl, hform, fun b => ?_⟩
      by_cases hb : segm.ends ≤ b
      · exact hafter b hb
      · rw [← hbefore b (by omega)]
        exact iff_of_false (hwithin b (by omega)) (by omega)
    · have hstart : (gapNack sn lastSo segm.so).soStart = lastSo :=
        Nat.mod_eq_of_lt (by omega)
      have hend : (gapNack sn lastSo segm.so).soEnd = segm.so - 1 := by
        show (segm.so + 2 ^ 16 - 1) % 2 ^ 16 = segm.so - 1
        have hturn : segm.so + 2 ^ 16 - 1 = segm.so - 1 + 2 ^ 16 := by omega
        rw [hturn, Nat.add_mod_right, Nat.mod_eq_of_lt (by omega)]
      have hitem : ∀ b, coversByte (gapNack sn lastSo segm.so) b ↔
          lastSo ≤ b ∧ b < segm.so := by
        intro b
        rw [coversByte, hstart, hend]
        constructor
        · intro hcov
          obtain ⟨h1, h2⟩ := hcov rfl
          refine ⟨h1, ?_⟩
          unfold soEndOfSdu at h2
          omega
        · intro hcov _
          exact ⟨hcov.1, .inr (by omega)⟩
      rw [if_neg hgap, hstart, hend, if_neg (by omega)]
      refine ⟨_, rfl, ?_, fun b => ?_⟩
      · rw [List.forall_mem_cons]
        exact ⟨⟨rfl, rfl⟩, hform⟩
      · rw [List.exists_mem_cons_iff, hitem]
        by_cases hb : segm.ends ≤ b
        · rw [← hafter b hb]
          exact or_iff_right (by omega)
        · rw [← hbefore b (by omega)]
          exact or_iff_left (hwithin b (by omega))

/-- An incomplete SDU in the window holds proper segments. -/
def InfoOk (info : RlcRxAmSduInfo) : Prop :=
  info.fullyReceived = false → ∃ segments, info.sduData = .segments segments ∧ SegmentsOk segments

def WindowOk (window : CircularMap RlcRxAmSduInfo) : Prop :=
  ∀ sn info, window.get? sn = some info → InfoOk info

variable {window : CircularMap RlcRxAmSduInfo}

theorem WindowOk.overwrite (h : WindowOk window) (sn : Nat)
    {info : RlcRxAmSduInfo} (hinfo : InfoOk info) : WindowOk (window.overwrite sn info) := by
  intro sn' info' hget
  rw [CircularMap.get?_overwrite] at hget
  split at hget
  · cases hget
    exact hinfo
  · split at hget
    · cases hget
    · exact h sn' info' hget

theorem WindowOk.erase (h : WindowOk window) (sn : Nat) : WindowOk (window.erase sn) := by
  intro sn' info' hget
  rw [CircularMap.get?_erase] at hget
  split at hget
  · cases hget
  · exact h sn' info' hget

theorem WindowOk.releaseReceived (h : WindowOk window)
    (m base limit turns sn : Nat) : WindowOk (releaseReceived m base limit turns sn window).2 := by
  induction turns generalizing sn window with
  | zero => exact h
  | succ turns ih =>
    rw [Rlc.releaseReceived]
    split
    · exact ih (h.erase sn) _
    · exact h

/-- The bytes of a received segment stay within the 16-bit offsets, and the offset behind it does
unless it is the last segment. -/
structure FitsOffsets (header : RlcAmPduHeader) (payload : List UInt8) : Prop where
  ends : header.si ≠ .fullSdu → header.so + payload.length ≤ 2 ^ 16
  tail : header.si ≠ .fullSdu → header.si ≠ .lastSegment → header.so + payload.length < 2 ^ 16

theorem SegmentsOk.storeSegment {segments : List RlcRxSduSegment} (h : SegmentsOk segments)
    {new : RlcRxSduSegment} (hnew : new.so < new.ends) (hbound : new.ends ≤ 2 ^ 16)
    (htail : new.si ≠ .lastSegment → new.ends < 2 ^ 16) :
    SegmentsOk (storeSegment segments new).2 := by
  have hspec := storeSegment_spec h.ordered hnew hbound
  refine ⟨hspec.ordered, ?_⟩
  intro part hpart hsi
  obtain ⟨whole, hwhole, htl⟩ := hspec.tails part hpart
  rw [htl.ends]
  rw [htl.si] at hsi
  rcases List.mem_cons.mp hwhole with rfl | hold
  · exact htail hsi
  · exact h.tailFits whole hold hsi

section Run
variable {ent : RlcRxAmEntity}

section
variable (h : WindowOk ent.rxWindow)
include h

theorem segmentSet_ok {sn : Nat} (hmissing : fullyReceivedAt ent.rxWindow sn = false) :
    SegmentsOk (segmentSet ((ent.rxWindow.get? sn).getD {})) := by
  cases hget : ent.rxWindow.get? sn with
  | none => exact ⟨⟨by simp [segmentSet], by simp [segmentSet],
      List.Pairwise.nil⟩, by simp [segmentSet]⟩
  | some info =>
    rw [fullyReceivedAt, hget] at hmissing
    obtain ⟨segments, hdata, hok⟩ := h sn info hget hmissing
    simpa [segmentSet, hdata] using hok

theorem WindowOk.placePdu {header : RlcAmPduHeader}
    {payload : List UInt8} (hmissing : fullyReceivedAt ent.rxWindow header.sn = false)
    (hpayload : payload ≠ []) (hfits : FitsOffsets header payload) :
    WindowOk (ent.placePdu header payload).1.rxWindow := by
  have hlen : 0 < payload.length := List.length_pos_iff.mpr hpayload
  unfold RlcRxAmEntity.placePdu
  split
  · rename_i hsi
    rw [RlcRxAmEntity.handleFullDataSdu, if_neg (not_not.mpr hsi)]
    apply h.overwrite
    intro hfalse
    cases hfalse
  · rename_i hsi
    rw [handleSegmentDataSdu, if_neg hsi]
    apply h.overwrite
    intro _
    refine ⟨_, rfl, (segmentSet_ok h hmissing).storeSegment ?_ (hfits.ends hsi) (hfits.tail hsi)⟩
    show header.so < header.so + payload.length
    omega

theorem WindowOk.handleReceivedSdu (sn : Nat) : WindowOk (ent.handleReceivedSdu sn).1.rxWindow := by
  unfold RlcRxAmEntity.handleReceivedSdu
  split
  · rename_i info hget
    split
    · rename_i hrecv
      have hclear : WindowOk (ent.releaseSduData sn info).rxWindow := by
        apply h.overwrite
        intro hfalse
        rw [hrecv] at hfalse
        cases hfalse
      have hsame : ((ent.releaseSduData sn info).updateRxHighestStatus sn).rxWindow =
          (ent.releaseSduData sn info).rxWindow := by
        unfold updateRxHighestStatus
        split <;> rfl
      rw [← hsame] at hclear
      unfold updateRxNext
      split
      · exact hclear.releaseReceived _ _ _ _ _
      · exact hclear
    · exact h
  · exact h

theorem WindowOk.bufferPdu {header : RlcAmPduHeader}
    {payload : List UInt8} (hmissing : fullyReceivedAt ent.rxWindow header.sn = false)
    (hpayload : payload ≠ []) (hfits : FitsOffsets header payload) :
    WindowOk (ent.bufferPdu header payload).1.rxWindow := by
  apply WindowOk.handleReceivedSdu
  have hplaced := h.placePdu hmissing hpayload hfits
  unfold updateRxNextHighest
  split <;> exact hplaced

end

/-- The three status buffers are of the configured SN size. -/
structure BuffersOk (ent : RlcRxAmEntity) : Prop where
  writer : ent.statusOwnedByWriter.snSize = ent.cfg.snFieldLength
  exchange : ent.statusForExchange.snSize = ent.cfg.snFieldLength
  reader : ent.statusOwnedByReader.snSize = ent.cfg.snFieldLength

theorem BuffersOk.bufferPdu (h : BuffersOk ent) (header : RlcAmPduHeader) (payload : List UInt8) :
    BuffersOk (ent.bufferPdu header payload).1 := by
  obtain ⟨info, hplace⟩ := ent.placePdu_fst header payload
  obtain ⟨hw, he, hr⟩ := h
  unfold RlcRxAmEntity.bufferPdu
  rw [hplace]
  have hplaced : BuffersOk
      (RlcRxAmEntity.updateRxNextHighest
        { ent with rxWindow := ent.rxWindow.overwrite header.sn info } header.sn) := by
    unfold RlcRxAmEntity.updateRxNextHighest
    split <;> exact ⟨hw, he, hr⟩
  obtain ⟨hw, he, hr⟩ := hplaced
  unfold handleReceivedSdu
  split
  · split
    · unfold updateRxNext updateRxHighestStatus
        releaseSduData
      split <;> split <;> exact ⟨hw, he, hr⟩
    · exact ⟨hw, he, hr⟩
  · exact ⟨hw, he, hr⟩

/-- Properties of the receiver that the status report relies on. -/
structure ReportInv (ent : RlcRxAmEntity) : Prop where
  window : WindowOk ent.rxWindow
  buffers : BuffersOk ent

theorem ReportInv.runReassemblyTimer (h : ReportInv ent) :
    Ensures (fun _ => True) ReportInv ent.runReassemblyTimer := by
  unfold RlcRxAmEntity.runReassemblyTimer
  split
  · exact trivial
  · exact Ensures.ok ⟨h.window, ⟨h.buffers.writer, h.buffers.exchange, h.buffers.reader⟩⟩

theorem ReportInv.restartReassemblyTimer (h : ReportInv ent) (sn : Nat) :
    Ensures (fun _ => True) ReportInv (ent.restartReassemblyTimer sn) := by
  unfold RlcRxAmEntity.restartReassemblyTimer
  split
  · exact h.runReassemblyTimer
  · exact Ensures.ok h

theorem ReportInv.stopReassemblyTimer (h : ReportInv ent) :
    Ensures (fun _ => True) ReportInv ent.stopReassemblyTimer := by
  unfold RlcRxAmEntity.stopReassemblyTimer
  split
  · have hany : Ensures (fun _ => True) (fun _ => True) ent.completeBelowTrigger := by
      cases ent.completeBelowTrigger <;> exact trivial
    exact hany.bind fun _ _ =>
      Ensures.ok ⟨h.window, ⟨h.buffers.writer, h.buffers.exchange, h.buffers.reader⟩⟩
  · exact Ensures.ok h

theorem snSize_buildStatusReport {report : RlcAmStatusPdu}
    (h : ent.buildStatusReport = .ok report) : report.snSize = ent.statusOwnedByWriter.snSize := by
  obtain ⟨nacks, -, hreport⟩ := bind_ok h
  cases hreport
  simp [setAckSn]

theorem ReportInv.refreshStatusReport (h : ReportInv ent) :
    Ensures (fun _ => True) ReportInv ent.refreshStatusReport := by
  unfold RlcRxAmEntity.refreshStatusReport
  cases hbuild : ent.buildStatusReport with
  | error f => exact trivial
  | ok report =>
    refine Ensures.ok ⟨h.window, ⟨h.buffers.exchange, ?_, h.buffers.reader⟩⟩
    exact (snSize_buildStatusReport hbuild).trans h.buffers.writer

theorem ReportInv.onFunctionExit (h : ReportInv ent) (statusChanged statusRequested : Bool) :
    Ensures (fun _ => True) ReportInv (ent.onFunctionExit statusChanged statusRequested) := by
  unfold RlcRxAmEntity.onFunctionExit
  split
  · exact h.refreshStatusReport.bind fun ent' h' =>
      Ensures.ok ⟨h'.window, ⟨h'.buffers.writer, h'.buffers.exchange, h'.buffers.reader⟩⟩
  · exact Ensures.ok h

def EventFits (cfg : RlcRxAmConfig) : Event → Prop
  | .dataPdu pdu => ∀ header, rlcAmReadDataPduHeader pdu cfg.snFieldLength = some header →
      FitsOffsets header (pdu.drop header.getPackedSize)
  | _ => True

theorem ReportInv.handleDataPdu (h : ReportInv ent) {pdu : List UInt8}
    (hfits : EventFits ent.cfg (.dataPdu pdu)) :
    Ensures (fun _ => True) (fun p => ReportInv p.1) (ent.handleDataPdu pdu) := by
  unfold RlcRxAmEntity.handleDataPdu
  split
  · exact Ensures.ok h
  · rename_i header hread
    split
    · exact Ensures.ok h
    · rename_i hlen
      unfold handleParsedPdu
      split
      · exact (h.onFunctionExit _ _).bind fun ent' h' => Ensures.ok h'
      · rename_i haccept
        rw [Bool.or_eq_true, not_or, Bool.not_eq_true, Bool.not_eq_true] at haccept
        have hpayload : pdu.drop header.getPackedSize ≠ [] := by
          rw [ne_eq, List.drop_eq_nil_iff]
          omega
        have hbuffered : ReportInv (ent.bufferPdu header (pdu.drop header.getPackedSize)).1 :=
          ⟨h.window.bufferPdu haccept.2 hpayload (hfits header hread), h.buffers.bufferPdu _ _⟩
        refine hbuffered.stopReassemblyTimer.bind fun stopped hstopped => ?_
        have hstart : Ensures (fun _ => True) ReportInv stopped.startReassemblyTimer := by
          unfold startReassemblyTimer
          split
          · exact Ensures.ok hstopped
          · exact hstopped.restartReassemblyTimer _
        refine hstart.bind fun started hstarted => ?_
        exact (hstarted.onFunctionExit _ _).bind fun ent' h' => Ensures.ok h'

theorem ReportInv.expireReassemblyTimer (h : ReportInv ent) :
    Ensures (fun _ => True) ReportInv ent.expireReassemblyTimer := by
  have hset : ∀ ent : RlcRxAmEntity, ReportInv ent → ∀ sn,
      Ensures (fun _ => True) ReportInv (ent.setRxHighestStatus sn) := by
    intro ent h sn
    unfold setRxHighestStatus
    split
    · exact Ensures.ok ⟨h.window, ⟨h.buffers.writer, h.buffers.exchange, h.buffers.reader⟩⟩
    · exact trivial
  unfold RlcRxAmEntity.expireReassemblyTimer
  split
  · have hidle : ReportInv { ent with reassemblyTimerRunning := false } :=
      ⟨h.window, ⟨h.buffers.writer, h.buffers.exchange, h.buffers.reader⟩⟩
    unfold RlcRxAmEntity.onExpiredReassemblyTimer
    split
    · exact Ensures.ok hidle
    · split
      · exact Ensures.ok hidle
      · refine (hset _ hidle _).bind fun ent1 h1 => ?_
        refine (h1.restartReassemblyTimer _).bind fun ent2 h2 => ?_
        refine h2.refreshStatusReport.bind fun ent3 h3 => ?_
        exact Ensures.ok ⟨h3.window, ⟨h3.buffers.writer, h3.buffers.exchange, h3.buffers.reader⟩⟩
  · exact Ensures.ok h

theorem ReportInv.step (h : ReportInv ent) {event : Event}
    (hfits : EventFits ent.cfg event) :
    Ensures (fun _ => True) (fun p => ReportInv p.1) (ent.step event) := by
  cases event with
  | dataPdu pdu => exact h.handleDataPdu hfits
  | reassemblyTimerExpired => exact h.expireReassemblyTimer.bind fun ent' h' => Ensures.ok h'
  | getStatusPdu =>
    exact Ensures.ok ⟨h.window, ⟨h.buffers.writer, h.buffers.reader, h.buffers.exchange⟩⟩
  | statusProhibitTimerExpired =>
    exact Ensures.ok ⟨h.window, ⟨h.buffers.writer, h.buffers.exchange, h.buffers.reader⟩⟩

end Run

/-- States reached by runs whose events all stay within the 16-bit offsets. -/
inductive ReachableFitting (cfg : RlcRxAmConfig) : RlcRxAmEntity → Prop where
  | create : ReachableFitting cfg (create cfg)
  | step {ent ent' event sdus} : ReachableFitting cfg ent → EventFits cfg event →
      ent.step event = .ok (ent', sdus) → ReachableFitting cfg ent'

variable {cfg : RlcRxAmConfig} {ent : RlcRxAmEntity}

theorem ReachableFitting.reachable (h : ReachableFitting cfg ent) :
    Reachable cfg ent := by
  induction h with
  | create => exact .create
  | step _ _ hstep ih => exact .step ih hstep

theorem Reachable.cfg_eq (h : Reachable cfg ent) : ent.cfg = cfg := by
  induction h with
  | create => rfl
  | step hprev hstep ih =>
    obtain ⟨v, hv⟩ := Reachable.inv hprev
    exact ((hv.step _).result hstep).1.trans ih

theorem ReachableFitting.inv (h : ReachableFitting cfg ent) : ReportInv ent := by
  induction h with
  | create =>
    refine ⟨?_, ⟨rfl, rfl, rfl⟩⟩
    intro sn info hget
    cases hget
  | step hprev hfits hstep ih =>
    rw [← Reachable.cfg_eq hprev.reachable] at hfits
    exact (ih.step hfits).result hstep

/-- The NACKs collected for one SN say what is missing of it. -/
structure NacksOf (ent : RlcRxAmEntity) (sn : Nat) (nacks : List RlcAmStatusNack) : Prop where
  form : ∀ n ∈ nacks, n.nackSn = sn ∧ n.hasNackRange = false
  covers : ∀ b, (∃ n ∈ nacks, coversByte n b) ↔ MissingByte ent.rxWindow sn b

theorem nacksOfSn_spec (h : WindowOk ent.rxWindow) (sn : Nat) :
    Ensures (fun _ => False) (NacksOf ent sn) (ent.nacksOfSn sn) := by
  unfold nacksOfSn
  cases hget : ent.rxWindow.get? sn with
  | none =>
    refine Ensures.ok ⟨by simp, fun b => ?_⟩
    simp [MissingByte, hget, coversByte]
  | some info =>
    by_cases hrecv : info.fullyReceived = true
    · simp only [hrecv, if_true]
      refine Ensures.ok ⟨by simp, fun b => ?_⟩
      simp [MissingByte, hget, hrecv]
    · rw [Bool.not_eq_true] at hrecv
      obtain ⟨segments, hdata, hok⟩ := h sn info hget hrecv
      obtain ⟨nacks, hnacks, hform, hcovers⟩ :=
        @segmentNacks_spec sn segments 0 false hok (fun _ _ => Nat.zero_le _)
          (fun _ => Nat.two_pow_pos 16)
      simp only [hrecv, Bool.false_eq_true, if_false, hdata, hnacks]
      refine Ensures.ok ⟨hform, fun b => ?_⟩
      rw [hcovers]
      simp [MissingByte, hget, hrecv, GapByte, segmentSet, hdata]

theorem NacksOf.proper (h : NacksOf ent sn nacks) (hsn : sn < ent.mod) :
    ∀ n ∈ nacks, ProperNack ent.mod n := by
  intro n hn
  obtain ⟨hnsn, hrange⟩ := h.form n hn
  have hone : n.nofSns = 1 := by rw [RlcAmStatusNack.nofSns, hrange, if_neg (by decide)]
  refine ⟨by rwa [hnsn], by omega, ?_⟩
  rw [hone]
  exact ent.modulus.pos

theorem NacksOf.reported {x : Nat} (h : NacksOf ent x nacks) :
    ReportedMissing ent.mod nacks sn b ↔ sn = x ∧ MissingByte ent.rxWindow x b := by
  have hitem : ∀ n ∈ nacks, expandNack ent.mod n = [n] := by
    intro n hn
    rw [expandNack, (h.form n hn).2, if_neg (by decide)]
  rw [← h.covers]
  constructor
  · rintro ⟨n, hn, item, hmem, rfl, hcov⟩
    rw [hitem n hn, List.mem_singleton] at hmem
    subst hmem
    exact ⟨(h.form item hn).1, item, hn, hcov⟩
  · rintro ⟨rfl, n, hn, hcov⟩
    refine ⟨n, hn, n, ?_, (h.form n hn).1, hcov⟩
    rw [hitem n hn]
    exact List.mem_singleton_self n

variable {lists : List (List RlcAmStatusNack)}

theorem reportedMissing_flatten {sns : List Nat} (h : List.Forall₂ (NacksOf ent) sns lists) :
    ReportedMissing ent.mod lists.flatten sn b ↔ sn ∈ sns ∧ MissingByte ent.rxWindow sn b := by
  induction h with
  | nil => simp [ReportedMissing]
  | cons hx _ ih =>
    rw [List.flatten_cons, reportedMissing_append, hx.reported, ih, List.mem_cons]
    constructor
    · rintro (⟨rfl, hb⟩ | ⟨hmem, hb⟩)
      · exact ⟨.inl rfl, hb⟩
      · exact ⟨.inr hmem, hb⟩
    · rintro ⟨rfl | hmem, hb⟩
      · exact .inl ⟨rfl, hb⟩
      · exact .inr ⟨hmem, hb⟩

theorem forall_flatten {sns : List Nat}
    (h : List.Forall₂ (NacksOf ent) sns lists) (hsns : ∀ sn ∈ sns, sn < ent.mod) :
    ∀ n ∈ lists.flatten, ProperNack ent.mod n := by
  induction h with
  | nil => simp
  | cons hx _ ih =>
    rw [List.flatten_cons, List.forall_mem_append]
    rw [List.forall_mem_cons] at hsns
    exact ⟨hx.proper hsns.1, ih hsns.2⟩

/-- The report of a receiver says about every SN from RX_Next up to its ACK_SN exactly what is
missing. -/
def ReportExact (ent : RlcRxAmEntity) : Prop :=
  ∃ report, ent.buildStatusReport = .ok report ∧
    ∀ sn < ent.mod, ent.rxModBase sn < ent.rxModBase report.ackSn → ∀ b,
      ReportedMissing ent.mod report.nacks sn b ↔ MissingByte ent.rxWindow sn b

theorem ReportInv.exact {ent : RlcRxAmEntity} (h : ReportInv ent) : ReportExact ent := by
  have hmap : Ensures (fun _ => False) (fun lists => List.Forall₂ (NacksOf ent) ent.visitedSns lists)
      (ent.visitedSns.mapM ent.nacksOfSn) :=
    Ensures.mapM fun sn _ => nacksOfSn_spec h.window sn
  obtain ⟨lists, hlists, hall⟩ := hmap.exists_ok
  have hvisited : ∀ sn ∈ ent.visitedSns, sn < ent.mod := by
    intro sn hsn
    obtain ⟨d, -, rfl⟩ := List.mem_map.mp hsn
    exact Nat.mod_lt _ ent.modulus.pos
  refine ⟨(lists.flatten.foldl pushNack ent.statusOwnedByWriter.reset).setAckSn ent.stopSn, ?_, ?_⟩
  · rw [buildStatusReport, hlists]
    rfl
  · intro sn hsn hbelow b
    have hmod : ent.statusOwnedByWriter.reset.modNr = ent.mod := by
      rw [modNr, snSize_reset, h.buffers.writer]
      rfl
    have hproper : ∀ n ∈ lists.flatten, ProperNack ent.statusOwnedByWriter.reset.modNr n := by
      rw [hmod]
      exact forall_flatten hall hvisited
    have hpushed := reportedMissing_pushAll (by simp) hproper sn b
    rw [hmod] at hpushed
    have hempty : ¬ ReportedMissing ent.mod ent.statusOwnedByWriter.reset.nacks sn b := by
      simp [ReportedMissing]
    have hmem : sn ∈ ent.visitedSns := by
      refine List.mem_map.mpr ⟨ent.rxModBase sn, List.mem_range.mpr hbelow, ?_⟩
      exact add_rebase ent.modulus hsn
    rw [show ((lists.flatten.foldl pushNack ent.statusOwnedByWriter.reset).setAckSn
      ent.stopSn).nacks = (lists.flatten.foldl pushNack ent.statusOwnedByWriter.reset).nacks from rfl,
      hpushed, reportedMissing_flatten hall]
    constructor
    · rintro (hfalse | hb)
      · exact absurd hfalse hempty
      · exact hb.2
    · exact fun hb => .inr ⟨hmem, hb⟩

/-- In runs whose received segments stay within the 16-bit offsets, every state yields an exact
status report. -/
theorem statusReport_exact (cfg : RlcRxAmConfig) (ent : RlcRxAmEntity)
    (h : ReachableFitting cfg ent) : ReportExact ent :=
  h.inv.exact

/-- The first two bytes of SDU 0 are held when SN 1 arrives, and t-Reassembly expires: the rest of
SDU 0 is reported. -/
theorem statusReport_exact_firstSegment :
    ∃ ent, ReachableFitting { snFieldLength := .size12bits, tReassembly := 35 } ent ∧
      ent.buildStatusReport.toOption.map (fun report => (report.ackSn, report.nacks)) =
        some (2, [{ nackSn := 0, hasSo := true, soStart := 2, soEnd := soEndOfSdu }]) ∧
      ReportExact ent := by
  have hrun : ((((create { snFieldLength := .size12bits, tReassembly := 35 }).step
      (.dataPdu [0x90, 0x00, 1, 2]) >>= fun p => p.1.step (.dataPdu [0x80, 0x01, 3])) >>=
        fun p => p.1.step .reassemblyTimerExpired).toOption.map fun p =>
          p.1.buildStatusReport.toOption.map fun report => (report.ackSn, report.nacks)) =
        some (some (2, [{ nackSn := 0, hasSo := true, soStart := 2, soEnd := soEndOfSdu }])) := by
    decide +kernel
  obtain ⟨⟨ent, sdus⟩, hsteps, hobs⟩ := exists_ok_of_observed hrun
  obtain ⟨⟨ent2, sdus2⟩, hsteps, hstep3⟩ := bind_ok hsteps
  obtain ⟨⟨ent1, sdus1⟩, hstep1, hstep2⟩ := bind_ok hsteps
  have hreach : ReachableFitting { snFieldLength := .size12bits, tReassembly := 35 } ent := by
    refine .step (.step (.step .create ?_ hstep1) ?_ hstep2) ?_ hstep3
    · intro header hread
      cases hread
      exact ⟨by decide, by decide⟩
    · intro header hread
      cases hread
      exact ⟨by decide, by decide⟩
    · exact trivial
  exact ⟨ent, hreach, hobs, statusReport_exact _ _ hreach⟩

/-- A middle segment of two bytes at offset 65535: the offset behind it is truncated to 1, so the
report asks for byte 65535 although the receiver holds it. -/
theorem statusReport_wrappedOffset_not_exact :
    ∃ ent, Reachable { snFieldLength := .size12bits, tReassembly := 35 } ent ∧
      ¬ ReportExact ent := by
  have hrun : (((create { snFieldLength := .size12bits, tReassembly := 35 }).step
      (.dataPdu [0xb0, 0x00, 0xff, 0xff, 1, 2]) >>=
        fun p => p.1.step .reassemblyTimerExpired).toOption.map fun p =>
          (p.1.buildStatusReport.toOption.map fun report =>
            (p.1.rxModBase report.ackSn, report.nacks), p.1.rxModBase 0, p.1.mod,
            p.1.rxWindow.get? 0)) =
        some (some (1, [{ nackSn := 0, hasSo := true, soStart := 0, soEnd := 65534 },
            { nackSn := 0, hasSo := true, soStart := 1, soEnd := soEndOfSdu }]), 0, 4096,
          some ⟨false, true, .segments [⟨.middleSegment, 65535, [1, 2]⟩]⟩) := by
    decide +kernel
  obtain ⟨⟨ent, sdus⟩, hsteps, hobs⟩ := exists_ok_of_observed hrun
  obtain ⟨⟨ent1, sdus1⟩, hstep1, hstep2⟩ := bind_ok hsteps
  refine ⟨ent, .step (.step .create hstep1) hstep2, ?_⟩
  rintro ⟨report, hbuild, hall⟩
  simp only [hbuild, Except.toOption, Option.map_some, Prod.mk.injEq, Option.some.injEq] at hobs
  obtain ⟨⟨hack, hnacks⟩, hbase, hmod, hget⟩ := hobs
  have hmissing : MissingByte ent.rxWindow 0 65535 := by
    refine (hall 0 (by omega) (by omega) 65535).mp ?_
    rw [hnacks]
    refine ⟨_, List.mem_cons_of_mem _ List.mem_cons_self, _, List.mem_singleton_self _, rfl, ?_⟩
    exact fun _ => ⟨by decide, .inl rfl⟩
  rw [MissingByte, hget] at hmissing
  exact hmissing.2.1 ⟨_, List.mem_singleton_self _, by decide⟩

end Srsran.Rlc
