import Srsran.Rlc.AmPdu

/-! Trimming of a status PDU to a grant. A trimmed PDU keeps the NACKs below the SN of the first
NACK that does not fit, and that SN becomes the new ACK_SN. -/
namespace Srsran.Rlc
open ModOrder RlcAmStatusPdu

/-- NACKs in increasing SN order below `ackSn`, in the order based at `b`. Two NACKs may share an
SN only as the last SN of the first and the first SN of the second. -/
structure OrderedBelow (m b ackSn : Nat) (nacks : List RlcAmStatusNack) : Prop where
  sn_lt : ∀ nack ∈ nacks, nack.nackSn < m
  below : ∀ nack ∈ nacks, rebase m b nack.nackSn < rebase m b ackSn ∧
    rebase m b nack.nackSn + nack.nofSns ≤ rebase m b ackSn
  order : nacks.Pairwise fun x y => rebase m b x.nackSn ≤ rebase m b y.nackSn ∧
    rebase m b x.nackSn + x.nofSns ≤ rebase m b y.nackSn + 1

def nackInfo (m : Nat) (pdu : RlcAmStatusPdu) (sn : Nat) : List RlcAmStatusNack :=
  (pdu.nacks.flatMap (expandNack m)).filter fun item => item.nackSn = sn

/-- A status PDU built from a reset one by pushing NACKs and setting ACK_SN. -/
def buildStatus (snSize : RlcAmSnSize) (nacks : List RlcAmStatusNack) (ackSn : Nat) :
    RlcAmStatusPdu :=
  (nacks.foldl pushNack ({ snSize } : RlcAmStatusPdu).reset).setAckSn ackSn

/-- The trimmed PDU fits, NACKs nothing at or above its ACK_SN, and says the same as the untrimmed
one about every SN below its ACK_SN. -/
def TrimKeepsReport (b : Nat) (pdu : RlcAmStatusPdu) (maxPackedSize : Nat) : Prop :=
  (pdu.trim maxPackedSize).1 = true ∧
  (pdu.trim maxPackedSize).2.packedSize ≤ maxPackedSize ∧
  (∀ nack ∈ (pdu.trim maxPackedSize).2.nacks, ∀ sn ∈ coveredSns pdu.modNr nack,
    rebase pdu.modNr b sn < rebase pdu.modNr b (pdu.trim maxPackedSize).2.ackSn) ∧
  ∀ sn < pdu.modNr,
    rebase pdu.modNr b sn < rebase pdu.modNr b (pdu.trim maxPackedSize).2.ackSn →
    nackInfo pdu.modNr (pdu.trim maxPackedSize).2 sn = nackInfo pdu.modNr pdu sn

def firstUnfit (snSize : RlcAmSnSize) (maxPackedSize : Nat) :
    Nat → List RlcAmStatusNack → Option Nat
  | _, [] => none
  | used, nack :: nacks =>
    if maxPackedSize < used + nackSize snSize nack then some nack.nackSn
    else firstUnfit snSize maxPackedSize (used + nackSize snSize nack) nacks

/-- No NACK that starts at an earlier SN covers the SN of the first NACK that does not fit. -/
def CutOutsideRanges (pdu : RlcAmStatusPdu) (maxPackedSize : Nat) : Prop :=
  ∀ sn ∈ firstUnfit pdu.snSize maxPackedSize sizeofHeaderAckSn pdu.nacks,
    ∀ nack ∈ pdu.nacks, nack.nackSn ≠ sn → sn ∉ coveredSns pdu.modNr nack

variable {m b ackSn : Nat}

theorem rebase_next (hm : Modulus m) {sn n : Nat} (h : rebase m b sn + n < m) :
    rebase m b ((sn + n) % m) = rebase m b sn + n := by
  apply rebase_unique hm h
  rw [← Nat.add_assoc]
  exact ((rebase_modEq hm).add_right n).trans (Nat.mod_modEq _ _).symm

variable {nack : RlcAmStatusNack}

theorem mem_coveredSns (hm : Modulus m) (hfit : rebase m b nack.nackSn + nack.nofSns ≤ m)
    (hsn : nack.nackSn < m) {sn : Nat} :
    sn ∈ coveredSns m nack ↔ sn < m ∧ rebase m b nack.nackSn ≤ rebase m b sn ∧
      rebase m b sn < rebase m b nack.nackSn + nack.nofSns := by
  unfold coveredSns RlcAmStatusNack.nofSns at *
  cases hr : nack.hasNackRange with
  | false =>
    simp only [Bool.false_eq_true, if_false, List.mem_singleton]
    constructor
    · rintro rfl
      exact ⟨hsn, le_rfl, Nat.lt_succ_self _⟩
    · rintro ⟨hlt, hlow, hhigh⟩
      exact rebase_inj (b := b) hm hlt hsn (by omega)
  | true =>
    simp only [hr, if_true, List.mem_map, List.mem_range] at hfit ⊢
    constructor
    · rintro ⟨i, hi, rfl⟩
      rw [rebase_next hm (by omega)]
      exact ⟨Nat.mod_lt _ hm.pos, by omega, by omega⟩
    · rintro ⟨hlt, hlow, hhigh⟩
      refine ⟨rebase m b sn - rebase m b nack.nackSn, by omega, ?_⟩
      apply rebase_inj (b := b) hm (Nat.mod_lt _ hm.pos) hlt
      rw [rebase_next hm (by omega)]
      omega

theorem nackSn_mem_expandNack {item : RlcAmStatusNack} (h : item ∈ expandNack m nack) :
    item.nackSn ∈ coveredSns m nack := by
  unfold expandNack at h
  cases hr : nack.hasNackRange with
  | false =>
    rw [hr, if_neg (by decide), List.mem_singleton] at h
    simp [coveredSns, hr, h]
  | true =>
    rw [hr, if_pos rfl, List.mem_map] at h
    obtain ⟨sn, hsn, rfl⟩ := h
    exact hsn

/-- Pushing the next NACK of an ordered sequence keeps the whole sequence ordered. -/
theorem OrderedBelow.pushNack {pdu : RlcAmStatusPdu} (hm : Modulus pdu.modNr)
    {rest : List RlcAmStatusNack} (h : OrderedBelow pdu.modNr b ackSn (pdu.nacks ++ nack :: rest)) :
    OrderedBelow pdu.modNr b ackSn ((pdu.pushNack nack).nacks ++ rest) := by
  rcases nacks_pushNack_cases pdu nack with
    ⟨init, prev, hsplit, hmerge, hnacks, -⟩ | ⟨-, hnacks, -⟩
  · rw [hnacks]
    rw [hsplit] at h
    have hprev := h.below prev (by simp)
    have hnack := h.below nack (by simp)
    have hlt : rebase pdu.modNr b ackSn < pdu.modNr := rebase_lt hm
    have hstart : rebase pdu.modNr b nack.nackSn =
        rebase pdu.modNr b prev.nackSn + prev.nofSns := by
      rw [(canBeMerged_iff.mp hmerge).1, rebase_next hm (by omega)]
    obtain ⟨hsn, hbelow, hord⟩ := h
    simp only [List.append_assoc, List.cons_append, List.nil_append, List.forall_mem_append,
      List.forall_mem_cons, List.pairwise_append, List.pairwise_cons] at hsn hbelow hord
    obtain ⟨hinit, ⟨-, hnext, hrest⟩, hcross⟩ := hord
    refine ⟨?_, ?_, ?_⟩
    · simp only [List.append_assoc, List.cons_append, List.nil_append, List.forall_mem_append,
        List.forall_mem_cons, nackSn_expandPrev]
      exact ⟨hsn.1, hsn.2.1, hsn.2.2.2⟩
    · simp only [List.append_assoc, List.cons_append, List.nil_append, List.forall_mem_append,
        List.forall_mem_cons, nackSn_expandPrev, nofSns_expandPrev]
      exact ⟨hbelow.1, ⟨hprev.1, by omega⟩, hbelow.2.2.2⟩
    · simp only [List.append_assoc, List.cons_append, List.nil_append, List.pairwise_append,
        List.pairwise_cons, List.forall_mem_cons, nackSn_expandPrev, nofSns_expandPrev]
      refine ⟨hinit, ⟨?_, hrest⟩, ?_⟩
      · intro y hy
        have := hnext y hy
        omega
      · intro x hx
        obtain ⟨hxprev, -, hxrest⟩ := hcross x hx
        exact ⟨hxprev, hxrest⟩
  · rw [hnacks, List.append_assoc]
    exact h

theorem OrderedBelow.pushAll {pushed : List RlcAmStatusNack} (pdu : RlcAmStatusPdu)
    (hm : Modulus pdu.modNr) (h : OrderedBelow pdu.modNr b ackSn (pdu.nacks ++ pushed)) :
    OrderedBelow pdu.modNr b ackSn (pushed.foldl RlcAmStatusPdu.pushNack pdu).nacks := by
  induction pushed generalizing pdu with
  | nil => simpa using h
  | cons nack rest ih =>
    have hmod : (pdu.pushNack nack).modNr = pdu.modNr := by simp [modNr]
    have hnext := OrderedBelow.pushNack hm h
    rw [← hmod] at hnext hm ⊢
    exact ih _ hm hnext

section Loop
variable {snSize : RlcAmSnSize} {maxPackedSize : Nat}

variable {used : Nat} {nacks : List RlcAmStatusNack}

theorem firstUnfit_concat_of_fits (h : used + nacksSize snSize nacks ≤ maxPackedSize)
    (nack : RlcAmStatusNack) :
    firstUnfit snSize maxPackedSize used (nacks ++ [nack]) =
      if maxPackedSize < used + nacksSize snSize nacks + nackSize snSize nack then
        some nack.nackSn else none := by
  induction nacks generalizing used with
  | nil => simp [firstUnfit]
  | cons n ns ih =>
    rw [nacksSize_cons] at h ⊢
    rw [List.cons_append, firstUnfit, if_neg (by omega), ih (by omega), Nat.add_assoc used]

theorem firstUnfit_concat_of_exceeds (hused : used ≤ maxPackedSize)
    (h : maxPackedSize < used + nacksSize snSize nacks) (nack : RlcAmStatusNack) :
    firstUnfit snSize maxPackedSize used (nacks ++ [nack]) =
      firstUnfit snSize maxPackedSize used nacks := by
  induction nacks generalizing used with
  | nil =>
    rw [nacksSize_nil] at h
    omega
  | cons n ns ih =>
    rw [List.cons_append, firstUnfit, firstUnfit]
    split
    · rfl
    · rw [nacksSize_cons] at h
      exact ih (by omega) (by omega)

theorem firstUnfit_mem {sn : Nat} (h : firstUnfit snSize maxPackedSize used nacks = some sn) :
    ∃ nack ∈ nacks, nack.nackSn = sn := by
  induction nacks generalizing used with
  | nil => cases h
  | cons n ns ih =>
    rw [firstUnfit] at h
    split at h
    · exact ⟨n, List.mem_cons_self, by simpa using h⟩
    · obtain ⟨nack, hmem, hsn⟩ := ih h
      exact ⟨nack, List.mem_cons_of_mem _ hmem, hsn⟩

theorem firstUnfit_eq_none (h : used + nacksSize snSize nacks ≤ maxPackedSize) :
    firstUnfit snSize maxPackedSize used nacks = none := by
  induction nacks generalizing used with
  | nil => rfl
  | cons n ns ih =>
    rw [nacksSize_cons] at h
    rw [firstUnfit, if_neg (by omega), ih (by omega)]

/-- Once the PDU fits, the loop only removes the NACKs of the current ACK_SN. -/
theorem trimLoop_fits (hm : Modulus m) {packedSize : Nat} (hsn : ∀ n ∈ nacks, n.nackSn < m)
    (hack : ackSn < m) (hle : ∀ n ∈ nacks, rebase m b n.nackSn ≤ rebase m b ackSn)
    (hord : nacks.Pairwise fun x y => rebase m b y.nackSn ≤ rebase m b x.nackSn)
    (hfits : packedSize ≤ maxPackedSize) :
    (trimLoop snSize maxPackedSize nacks packedSize ackSn).1 =
        nacks.filter (fun n => rebase m b n.nackSn < rebase m b ackSn) ∧
      (trimLoop snSize maxPackedSize nacks packedSize ackSn).2.2 = ackSn := by
  induction nacks generalizing packedSize with
  | nil => exact ⟨rfl, rfl⟩
  | cons back rest ih =>
    obtain ⟨hfirst, hrest⟩ := List.pairwise_cons.mp hord
    by_cases hback : back.nackSn = ackSn
    · rw [trimLoop, if_pos (.inr hback), hback]
      have hdrop : ¬ rebase m b back.nackSn < rebase m b ackSn := by rw [hback]; omega
      rw [List.filter_cons_of_neg (by simpa using hdrop)]
      exact ih (fun n hn => hsn n (List.mem_cons_of_mem _ hn))
        (fun n hn => hle n (List.mem_cons_of_mem _ hn)) hrest (by omega)
    · rw [trimLoop, if_neg (by omega)]
      have hlt : rebase m b back.nackSn < rebase m b ackSn := by
        have := hle back List.mem_cons_self
        have : rebase m b back.nackSn ≠ rebase m b ackSn := fun h =>
          hback (rebase_inj hm (hsn back List.mem_cons_self) hack h)
        omega
      refine ⟨(List.filter_eq_self.mpr ?_).symm, rfl⟩
      intro n hn
      rw [decide_eq_true_eq]
      rcases List.mem_cons.mp hn with rfl | hn
      · exact hlt
      · exact lt_of_le_of_lt (hfirst n hn) hlt

/-- A PDU that does not fit is cut at the SN of its first NACK that exceeds the limit. -/
theorem trimLoop_exceeds (hm : Modulus m) (ackSn : Nat) (hsn : ∀ n ∈ nacks, n.nackSn < m)
    (hord : nacks.Pairwise fun x y => rebase m b y.nackSn ≤ rebase m b x.nackSn)
    (hmax : sizeofHeaderAckSn ≤ maxPackedSize)
    (hexceeds : maxPackedSize < sizeofHeaderAckSn + nacksSize snSize nacks) :
    ∃ sn, firstUnfit snSize maxPackedSize sizeofHeaderAckSn nacks.reverse = some sn ∧
      (trimLoop snSize maxPackedSize nacks (sizeofHeaderAckSn + nacksSize snSize nacks) ackSn).1 =
        nacks.filter (fun n => rebase m b n.nackSn < rebase m b sn) ∧
      (trimLoop snSize maxPackedSize nacks
        (sizeofHeaderAckSn + nacksSize snSize nacks) ackSn).2.2 = sn := by
  induction nacks generalizing ackSn with
  | nil =>
    rw [nacksSize_nil] at hexceeds
    omega
  | cons back rest ih =>
    obtain ⟨hfirst, hrest⟩ := List.pairwise_cons.mp hord
    have hsn' : ∀ n ∈ rest, n.nackSn < m := fun n hn => hsn n (List.mem_cons_of_mem _ hn)
    have hsize : sizeofHeaderAckSn + nacksSize snSize (back :: rest) - nackSize snSize back =
        sizeofHeaderAckSn + nacksSize snSize rest := by
      rw [nacksSize_cons]
      omega
    rw [trimLoop, if_pos (.inl hexceeds), hsize, List.reverse_cons]
    by_cases hfits : sizeofHeaderAckSn + nacksSize snSize rest ≤ maxPackedSize
    · -- the last NACK is the first one that does not fit
      refine ⟨back.nackSn, ?_, ?_⟩
      · rw [firstUnfit_concat_of_fits (by rwa [nacksSize_reverse]), nacksSize_reverse, if_pos]
        rw [nacksSize_cons] at hexceeds
        omega
      · rw [List.filter_cons_of_neg (by simp)]
        exact trimLoop_fits hm hsn' (hsn back List.mem_cons_self) hfirst hrest hfits
    · obtain ⟨sn, hfound, hkept, hnew⟩ := ih back.nackSn hsn' hrest (by omega)
      refine ⟨sn, ?_, ?_, hnew⟩
      · rw [firstUnfit_concat_of_exceeds hmax (by rw [nacksSize_reverse]; omega), hfound]
      · have hge : rebase m b sn ≤ rebase m b back.nackSn := by
          obtain ⟨nack, hmem, rfl⟩ := firstUnfit_mem hfound
          exact hfirst nack (List.mem_reverse.mp hmem)
        rw [List.filter_cons_of_neg (by simpa using hge), hkept]

theorem trimLoop_packedSize_le {packedSize : Nat} (hmax : sizeofHeaderAckSn ≤ maxPackedSize)
    (hsync : packedSize = sizeofHeaderAckSn + nacksSize snSize nacks) :
    (trimLoop snSize maxPackedSize nacks packedSize ackSn).2.1 ≤ maxPackedSize := by
  induction nacks generalizing packedSize ackSn with
  | nil =>
    rw [nacksSize_nil] at hsync
    rw [trimLoop]
    dsimp only
    omega
  | cons back rest ih =>
    rw [trimLoop]
    split
    · rw [nacksSize_cons] at hsync
      exact ih (by omega)
    · dsimp only
      omega

end Loop

/-! The trimmed PDU against the untrimmed one. -/

section Report
variable {pdu : RlcAmStatusPdu} {maxPackedSize : Nat}

theorem nackInfo_filter (hm : Modulus m) {nacks : List RlcAmStatusNack} {cut sn : Nat}
    (hord : OrderedBelow m b ackSn nacks) (hsn : rebase m b sn < rebase m b cut) :
    ((nacks.filter fun n => rebase m b n.nackSn < rebase m b cut).flatMap (expandNack m)).filter
        (fun item => item.nackSn = sn) =
      (nacks.flatMap (expandNack m)).filter fun item => item.nackSn = sn := by
  have hlt : rebase m b ackSn < m := rebase_lt hm
  have hempty : ∀ n ∈ nacks, ¬ rebase m b n.nackSn < rebase m b cut →
      (expandNack m n).filter (fun item => item.nackSn = sn) = [] := by
    intro n hn hge
    rw [List.filter_eq_nil_iff]
    intro item hitem heq
    have hbelow := (hord.below n hn).2
    have hmem := (mem_coveredSns (b := b) hm (by omega) (hord.sn_lt n hn)).mp (nackSn_mem_expandNack hitem)
    rw [decide_eq_true_eq] at heq
    rw [heq] at hmem
    omega
  clear hord
  induction nacks with
  | nil => rfl
  | cons n ns ih =>
    have hrest := ih fun n' hn' => hempty n' (List.mem_cons_of_mem _ hn')
    by_cases hkeep : rebase m b n.nackSn < rebase m b cut
    · rw [List.filter_cons_of_pos (by simpa using hkeep), List.flatMap_cons, List.flatMap_cons,
        List.filter_append, List.filter_append, hrest]
    · rw [List.filter_cons_of_neg (by simpa using hkeep), List.flatMap_cons, List.filter_append,
        hempty n List.mem_cons_self hkeep, List.nil_append, hrest]

theorem covered_lt_ackSn (hm : Modulus m) {nacks : List RlcAmStatusNack}
    (hord : OrderedBelow m b ackSn nacks) {nack : RlcAmStatusNack} (hn : nack ∈ nacks) {sn : Nat}
    (hsn : sn ∈ coveredSns m nack) : rebase m b sn < rebase m b ackSn := by
  have hlt : rebase m b ackSn < m := rebase_lt hm
  have hbelow := (hord.below nack hn).2
  have := (mem_coveredSns (b := b) hm (by omega) (hord.sn_lt nack hn)).mp hsn
  omega

/-- `trim` of a PDU that does not fit: what is kept and where it is cut. -/
theorem trim_exceeds (hord : OrderedBelow pdu.modNr b ackSn pdu.nacks) (hsync : pdu.SizeInSync)
    (hmax : sizeofHeaderAckSn ≤ maxPackedSize) (hexceeds : maxPackedSize < pdu.packedSize) :
    ∃ cut, firstUnfit pdu.snSize maxPackedSize sizeofHeaderAckSn pdu.nacks = some cut ∧
      (pdu.trim maxPackedSize).1 = true ∧
      (pdu.trim maxPackedSize).2.packedSize ≤ maxPackedSize ∧
      (pdu.trim maxPackedSize).2.ackSn = cut ∧
      (pdu.trim maxPackedSize).2.nacks =
        pdu.nacks.filter fun n => rebase pdu.modNr b n.nackSn < rebase pdu.modNr b cut := by
  have hm : Modulus pdu.modNr := pdu.snSize.modulus
  have hsize : pdu.packedSize = sizeofHeaderAckSn + nacksSize pdu.snSize pdu.nacks.reverse := by
    rw [nacksSize_reverse]
    exact hsync
  have horder : pdu.nacks.reverse.Pairwise fun x y =>
      rebase pdu.modNr b y.nackSn ≤ rebase pdu.modNr b x.nackSn :=
    List.pairwise_reverse.mpr (hord.order.imp fun h => h.1)
  obtain ⟨cut, hcut, hkept, hack⟩ := trimLoop_exceeds hm pdu.ackSn
    (fun n hn => hord.sn_lt n (List.mem_reverse.mp hn)) horder hmax (by rwa [← hsize])
  rw [List.reverse_reverse] at hcut
  rw [← hsize] at hkept hack
  refine ⟨cut, hcut, ?_⟩
  rw [RlcAmStatusPdu.trim, if_neg (by omega), if_neg (by omega)]
  refine ⟨rfl, trimLoop_packedSize_le hmax hsize, hack, ?_⟩
  dsimp only
  rw [hkept, List.filter_reverse, List.reverse_reverse]

theorem trimKeepsReport_iff (hord : OrderedBelow pdu.modNr b pdu.ackSn pdu.nacks)
    (hsync : pdu.SizeInSync) (hmax : sizeofHeaderAckSn ≤ maxPackedSize) :
    TrimKeepsReport b pdu maxPackedSize ↔ CutOutsideRanges pdu maxPackedSize := by
  have hm : Modulus pdu.modNr := pdu.snSize.modulus
  have hacklt : rebase pdu.modNr b pdu.ackSn < pdu.modNr := rebase_lt hm
  by_cases hfits : pdu.packedSize ≤ maxPackedSize
  · have htrim : pdu.trim maxPackedSize = (true, pdu) := by
      rw [RlcAmStatusPdu.trim, if_pos hfits]
    have hnone : firstUnfit pdu.snSize maxPackedSize sizeofHeaderAckSn pdu.nacks = none :=
      firstUnfit_eq_none (hsync.symm.le.trans hfits)
    have hkeeps : TrimKeepsReport b pdu maxPackedSize := by
      rw [TrimKeepsReport, htrim]
      exact ⟨rfl, hfits, fun _ hn _ hsn => covered_lt_ackSn hm hord hn hsn, fun _ _ _ => rfl⟩
    have houtside : CutOutsideRanges pdu maxPackedSize := by
      intro sn hsn
      rw [hnone] at hsn
      cases hsn
    exact iff_of_true hkeeps houtside
  · obtain ⟨cut, hcut, hok, hsize, hack, hnacks⟩ := trim_exceeds hord hsync hmax (by omega)
    simp only [TrimKeepsReport, CutOutsideRanges, hcut, hack, hnacks, Option.mem_some]
    constructor
    · -- a NACK over the cut would be kept, and the cut is not below itself
      rintro ⟨-, -, hkept, -⟩ sn rfl nack hn hne hmem
      have hbelow := (hord.below nack hn).2
      have hrange := (mem_coveredSns (b := b) hm (by omega) (hord.sn_lt nack hn)).mp hmem
      have hneq : rebase pdu.modNr b nack.nackSn ≠ rebase pdu.modNr b cut := fun h =>
        hne (rebase_inj hm (hord.sn_lt nack hn) hrange.1 h)
      have := hkept nack (List.mem_filter.mpr ⟨hn, by rw [decide_eq_true_eq]; omega⟩) cut hmem
      omega
    · intro houtside
      refine ⟨hok, hsize, ?_, ?_⟩
      · intro nack hkept sn hsn
        obtain ⟨hn, hlow⟩ := List.mem_filter.mp hkept
        rw [decide_eq_true_eq] at hlow
        have hbelow := (hord.below nack hn).2
        have hrange := (mem_coveredSns (b := b) hm (by omega) (hord.sn_lt nack hn)).mp hsn
        have hcutlt : cut < pdu.modNr := by
          obtain ⟨unfit, hunfit, rfl⟩ := firstUnfit_mem hcut
          exact hord.sn_lt unfit hunfit
        have hnot := houtside cut rfl nack hn (by rintro rfl; omega)
        rw [mem_coveredSns (b := b) hm (by omega) (hord.sn_lt nack hn)] at hnot
        omega
      · intro sn _ hsn
        rw [nackInfo, nackInfo, hnacks]
        exact nackInfo_filter hm hord hsn

end Report

/-- Trimming keeps the report exactly when no NACK range reaches into the SN at which the report
is cut. -/
theorem trim_buildStatus_keepsReport_iff (snSize : RlcAmSnSize) (b ackSn maxPackedSize : Nat)
    (pushed : List RlcAmStatusNack)
    (hord : OrderedBelow (cardinality snSize.toNumber) b ackSn pushed)
    (hmax : sizeofHeaderAckSn ≤ maxPackedSize) :
    TrimKeepsReport b (buildStatus snSize pushed ackSn) maxPackedSize ↔
      CutOutsideRanges (buildStatus snSize pushed ackSn) maxPackedSize := by
  have hsize : (buildStatus snSize pushed ackSn).snSize = snSize := by simp [buildStatus, setAckSn]
  have hbuilt := OrderedBelow.pushAll ({ snSize } : RlcAmStatusPdu).reset snSize.modulus hord
  apply trimKeepsReport_iff _ _ hmax
  · rw [modNr, hsize]
    exact hbuilt
  · exact sizeInSync_pushAll pushed sizeInSync_reset

/-- NACKs of SN 10 as a whole and of two byte ranges of SN 11: the first two are merged. -/
def splitNacks : List RlcAmStatusNack :=
  [{ nackSn := 10 },
   { nackSn := 11, hasSo := true, soStart := 0, soEnd := 4 },
   { nackSn := 11, hasSo := true, soStart := 10, soEnd := soEndOfSdu }]

theorem splitNacks_ordered : OrderedBelow (cardinality 12) 10 12 splitNacks := by
  refine ⟨?_, ?_, ?_⟩ <;> decide

theorem trim_buildStatus_splitNacks :
    OrderedBelow (cardinality 12) 10 12 splitNacks ∧ sizeofHeaderAckSn ≤ 9 ∧
      TrimKeepsReport 10 (buildStatus .size12bits splitNacks 12) 9 := by
  refine ⟨splitNacks_ordered, by decide, ?_⟩
  apply (trim_buildStatus_keepsReport_iff .size12bits 10 12 9 splitNacks splitNacks_ordered
    (by decide)).mpr
  unfold CutOutsideRanges
  decide

/-- A grant of ten bytes cuts the report at SN 11, and the kept range still NACKs SN 11. -/
theorem trim_splitNacks_not_keepsReport :
    OrderedBelow (cardinality 12) 10 12 splitNacks ∧ sizeofHeaderAckSn ≤ 10 ∧
      ¬ TrimKeepsReport 10 (buildStatus .size12bits splitNacks 12) 10 := by
  refine ⟨splitNacks_ordered, by decide, ?_⟩
  rintro ⟨-, -, hkept, -⟩
  exact absurd (hkept ⟨10, true, 0, 4, true, 2⟩ (by decide) 11 (by decide)) (by decide)

end Srsran.Rlc
