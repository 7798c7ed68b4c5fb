import Srsran.Rlc.RxUmState

/-! How often the UM receiver delivers an SDU while its SN stays in the reassembly window. A
delivered SDU is remembered by the flag of its entry, or by RX_Next_Reassembly once it is below.
The flag is lost when a segment is written into the slot of the entry. -/
namespace Srsran.Rlc
open ModOrder Srsran.Adt Checked RlcRxUmEntity
namespace RlcRxUmEntity

/-- The segment goes into the slot of a delivered SDU of the reassembly window: it repeats a segment
of that SDU, or it is the whole of another SDU, which does not move the window. -/
def forgetsDelivered (ent : RlcRxUmEntity) : Event → Bool
  | .pdu pdu =>
    match ent.acceptedSegment pdu with
    | none => false
    | some (header, _) =>
      match ent.rxWindow.slots (ent.rxWindow.getCircularIdx header.sn) with
      | none => false
      | some (sn, info) =>
        info.fullyReceived && ent.snInReassemblyWindow sn &&
          (sn == header.sn || (header.si = .lastSegment && header.so == 0))
  | .reassemblyTimerExpired => false

/-- Number of SDUs with the given SN among those an event passed to the upper layer. SDUs that came
in one PDU have no SN. -/
def nofDelivered (ent : RlcRxUmEntity) (event : Event) (output : RxUmOutput) (sn : Nat) : Nat :=
  match event with
  | .pdu pdu =>
    match ent.acceptedSegment pdu with
    | none => 0
    | some (header, _) => if header.sn = sn then output.sdus.length else 0
  | .reassemblyTimerExpired => 0

end RlcRxUmEntity

/-- The receiver, and how many SDUs it has delivered for each SN since the SN entered the reassembly
window. -/
structure RxUmHistory where
  ent : RlcRxUmEntity
  delivered : Nat → Nat := fun _ => 0

namespace RxUmHistory

/-- The counter of an SN starts again when the SN leaves the reassembly window. -/
def record (s : RxUmHistory) (event : Event) (ent' : RlcRxUmEntity) (output : RxUmOutput) :
    RxUmHistory where
  ent := ent'
  delivered := fun sn =>
    if ent'.snInReassemblyWindow sn then
      s.delivered sn + s.ent.nofDelivered event output sn
    else 0

def next (s : RxUmHistory) (event : Event) : Option RxUmHistory :=
  (s.ent.step event).toOption.map fun result => s.record event result.1 result.2

end RxUmHistory

namespace RlcRxUmEntity

section Segments
variable {ent : RlcRxUmEntity} {next highest k : Nat} {header : RlcUmPduHeader}
  {payload pdu : List UInt8}

theorem RxUmInv.snInvalidForRxBuffer_lift (h : RxUmInv ent next highest)
    (hk : highest - ent.umWindowSize ≤ k) (hk' : k < highest + ent.umWindowSize) :
    ent.snInvalidForRxBuffer (k % ent.mod) = decide (k < next) := by
  have hm := ent.mod_eq
  have hturn := h.window.turn
  have hle := h.window.next_le
  have hle' := h.window.highest_le
  have hnh := h.rxNextHighest
  rw [snInvalidForRxBuffer, rxModBase_windowStart hnh hturn, h.rxNextReassembly,
    rxModBase_lift hnh hturn hk hk', rxModBase_lift hnh hturn (by omega) (by omega)]
  have hiff : k - (highest - ent.umWindowSize) < next - (highest - ent.umWindowSize) ↔ k < next := by
    omega
  simp [hiff]

theorem acceptedSegment_valid (h : ent.acceptedSegment pdu = some (header, payload)) :
    ent.snInvalidForRxBuffer header.sn = false :=
  Bool.eq_false_iff.mpr (acceptedSegment_some h).2.2.2.1

theorem exists_lift_window (hnh : ent.st.rxNextHighest = highest % ent.mod)
    (hturn : ent.mod ≤ highest) {sn : Nat} (hsn : sn < ent.mod)
    (hinside : ent.snInReassemblyWindow sn = true) :
    ∃ k, highest - ent.umWindowSize ≤ k ∧ k < highest ∧ sn = k % ent.mod := by
  have hm := ent.mod_eq
  obtain ⟨k, hk, hk', rfl⟩ := exists_lift ent.modulus (highest - ent.umWindowSize) hsn
  rw [snInReassemblyWindow_lift hnh hturn hk (by omega)] at hinside
  exact ⟨k, hk, of_decide_eq_true hinside, rfl⟩

/-- An SN that is still in the window after the window has moved by less than its size. -/
theorem lift_stays {highest' : Nat} (hnh : ent.st.rxNextHighest = highest' % ent.mod)
    (hturn : ent.mod ≤ highest') (hhigh : highest' ≤ highest + ent.umWindowSize)
    (hk : highest - ent.umWindowSize ≤ k)
    (hinside : ent.snInReassemblyWindow (k % ent.mod) = true) : highest' - ent.umWindowSize ≤ k := by
  have hm := ent.mod_eq
  by_contra hout
  rw [snInReassemblyWindow_below hnh hturn (by omega) (by omega)] at hinside
  cases hinside

variable {window : CircularMap RlcRxUmSduInfo}

theorem get?_of_fullyReceivedAt {sn : Nat} (h : fullyReceivedAt window sn = true) :
    ∃ info, window.get? sn = some info ∧ info.fullyReceived = true := by
  rw [fullyReceivedAt] at h
  split at h
  · exact ⟨_, ‹_›, h⟩
  · cases h

/-- A segment for the SN of a delivered SDU makes the receiver forget the delivery. -/
theorem forgets_of_repeated (hseg : ent.acceptedSegment pdu = some (header, payload))
    (hfull : fullyReceivedAt ent.rxWindow header.sn = true)
    (hinside : ent.snInReassemblyWindow header.sn = true) :
    ent.forgetsDelivered (.pdu pdu) = true := by
  obtain ⟨info, hget, hinfo⟩ := get?_of_fullyReceivedAt hfull
  rw [CircularMap.get?_eq_some_iff] at hget
  simp only [forgetsDelivered, hseg, hget, hinfo, hinside, beq_self_eq_true, Bool.true_or,
    Bool.and_true]

/-- A segment of an SN without entry completes its SDU only if it is the whole of it. -/
theorem storedInfo_fresh
    (hnone : window.get? header.sn = none) (hfull : (storedInfo window header payload).fullyReceived = true) :
    header.si = .lastSegment ∧ header.so = 0 := by
  have hstored : (storedInfo window header payload).fullyReceived =
      (inventoryLoop 0 [{ si := header.si, so := header.so, payload }]).fullyReceived := by
    rw [storedInfo, hnone]
    rfl
  rw [hstored, inventoryLoop] at hfull
  split at hfull
  · cases hfull
  · rename_i hso
    split at hfull
    · rename_i hlast
      exact ⟨hlast, not_not.mp hso⟩
    · cases hfull

/-- Unless the receiver forgets it, the entry of a delivered SDU is not displaced by a segment that
leaves its SN in the window. -/
theorem RxUmInv.kept_bufferAfter (h : RxUmInv ent next highest) {highest' : Nat}
    (hseg : ent.acceptedSegment pdu = some (header, payload))
    (hguard : ent.forgetsDelivered (.pdu pdu) = false) (hle : highest ≤ highest')
    (hbound : highest' ≤ highest + ent.umWindowSize)
    (hafter : highest' % ent.mod = ent.highestAfter header payload)
    (hlow : highest' - ent.umWindowSize ≤ k) (hhigh : k < highest)
    (hfull : fullyReceivedAt ent.rxWindow (k % ent.mod) = true) :
    fullyReceivedAt (ent.bufferAfter header payload) (k % ent.mod) = true := by
  have hm := ent.mod_eq
  have hw := ent.two_le_umWindowSize
  have hturn := h.window.turn
  have hsn := (acceptedSegment_range hseg).2
  have hinside : ent.snInReassemblyWindow (k % ent.mod) = true := by
    rw [snInReassemblyWindow_lift h.rxNextHighest hturn (by omega) (by omega)]
    exact decide_eq_true hhigh
  by_cases heq : k % ent.mod = header.sn
  · rw [heq] at hfull hinside
    rw [forgets_of_repeated hseg hfull hinside] at hguard
    cases hguard
  · by_cases hslot : ent.rxWindow.getCircularIdx (k % ent.mod) = ent.rxWindow.getCircularIdx header.sn
    · -- the segment is a window above: it moves the window past `k`
      exfalso
      obtain ⟨info, hget, hinfo⟩ := get?_of_fullyReceivedAt hfull
      have hnone := CircularMap.get?_eq_none_of_sameSlot hget hslot.symm (Ne.symm heq)
      have hnot : ¬ (header.si = .lastSegment ∧ header.so = 0) := by
        intro hwhole
        rw [CircularMap.get?_eq_some_iff, hslot] at hget
        have : ent.forgetsDelivered (.pdu pdu) = true := by
          simp [forgetsDelivered, hseg, hget, hinfo, hinside, hwhole.1, hwhole.2]
        rw [this] at hguard
        cases hguard
      have hincomplete : (storedInfo ent.rxWindow header payload).fullyReceived = false := by
        rw [← Bool.not_eq_true]
        exact fun hcomplete => hnot (storedInfo_fresh hnone hcomplete)
      obtain ⟨x, hx, hx', hxsn⟩ := exists_lift ent.modulus (highest - ent.umWindowSize) hsn
      have hxslot : k % ent.umWindowSize = x % ent.umWindowSize := by
        rw [hxsn, getCircularIdx_mod ent.shape h.window.ok.capacity,
          getCircularIdx_mod ent.shape h.window.ok.capacity] at hslot
        exact hslot
      have habove : highest ≤ x := by
        by_contra hbelow
        have hsame := mod_inj_of_near (by omega : highest - ent.umWindowSize ≤ k) (by omega) hx (by omega) hxslot
        exact heq (by rw [hsame, hxsn])
      have hwindow : x = k + ent.umWindowSize := by
        apply mod_inj_of_near habove (by omega : x < highest + ent.umWindowSize) (by omega) (by omega)
        rw [Nat.add_mod_right, hxslot]
      have houtside : ent.snInReassemblyWindow header.sn = false := by
        rw [hxsn, snInReassemblyWindow_lift h.rxNextHighest hturn hx (by omega)]
        exact decide_eq_false (by omega)
      have hmoved : highest' % ent.mod = (x + 1) % ent.mod := by
        rw [hafter, highestAfter, keepsHighest, hincomplete, houtside, Bool.or_false,
          if_neg (by simp), hxsn, succ_mod_mod]
      have hedge := mod_inj_of_near hle (by omega) (by omega : highest ≤ x + 1) (by omega) hmoved
      omega
    · rw [fullyReceivedAt, bufferAfter, CircularMap.get?_overwrite, if_neg heq, if_neg hslot]
      exact hfull

theorem highest_stays {highest' : Nat} (hnh : ent.st.rxNextHighest = highest % ent.mod)
    (hle : highest ≤ highest') (hbound : highest' ≤ highest + ent.umWindowSize)
    (hafter : highest' % ent.mod = ent.highestAfter header payload)
    (hcomplete : (storedInfo ent.rxWindow header payload).fullyReceived = true) :
    highest' = highest := by
  have hm := ent.mod_eq
  have hw := ent.two_le_umWindowSize
  rw [highestAfter, keepsHighest, hcomplete, Bool.true_or, if_pos rfl, hnh] at hafter
  exact mod_inj_of_near hle (by omega) le_rfl (by omega) hafter

theorem receiveSegment_sdus {ent' : RlcRxUmEntity} {output : RxUmOutput} (hsi : header.si ≠ .fullSdu)
    (h : ent.receiveSegment header payload = .ok (ent', output)) :
    output.sdus.length ≤
      if (storedInfo ent.rxWindow header payload).fullyReceived then 1 else 0 := by
  obtain ⟨⟨timed, actions⟩, -, heq⟩ := bind_ok h
  cases heq
  have hself : fullyReceivedAt (ent.handleSegmentDataSdu header payload).rxWindow header.sn =
      (storedInfo ent.rxWindow header payload).fullyReceived := by
    rw [handleSegmentDataSdu_eq hsi]
    exact fullyReceivedAt_bufferAfter_self
  rw [updateRxBuffer, hself]
  by_cases hfull : (storedInfo ent.rxWindow header payload).fullyReceived = true
  · rw [if_pos hfull, if_pos hfull]
    exact Option.length_toList_le
  · rw [if_neg hfull, if_neg hfull]
    split <;> exact Nat.le_refl 0

end Segments
end RlcRxUmEntity

namespace RxUmHistory

/-- What is counted has been delivered once, and the receiver remembers it. -/
structure HistoryInv (s : RxUmHistory) (next highest : Nat) : Prop where
  inv : RxUmInv s.ent next highest
  counted : ∀ sn, s.delivered sn ≠ 0 → s.delivered sn = 1 ∧
    ∃ k, highest - s.ent.umWindowSize ≤ k ∧ k < highest ∧ sn = k % s.ent.mod ∧
      (k < next ∨ RlcRxUmEntity.fullyReceivedAt s.ent.rxWindow (k % s.ent.mod) = true)

theorem start_inv (cfg : RlcRxUmConfig) :
    HistoryInv { ent := create cfg } (create cfg).mod (create cfg).mod :=
  ⟨create_inv cfg, fun _ h => absurd rfl h⟩

section Steps
variable {s : RxUmHistory} {next highest next' highest' sn : Nat} {event : Event}
  {ent' : RlcRxUmEntity} {output : RxUmOutput}

theorem delivered_record (h : (s.record event ent' output).delivered sn ≠ 0) :
    ent'.snInReassemblyWindow sn = true ∧
      (s.record event ent' output).delivered sn =
        s.delivered sn + s.ent.nofDelivered event output sn := by
  by_cases hinside : ent'.snInReassemblyWindow sn = true
  · exact ⟨hinside, if_pos hinside⟩
  · exact absurd (if_neg hinside) h

/-- What is remembered of the SNs that stay in the window. -/
def Keeps (s : RxUmHistory) (ent' : RlcRxUmEntity) (next highest next' highest' : Nat) : Prop :=
  ∀ k, highest' - s.ent.umWindowSize ≤ k → k < highest →
    (k < next ∨ RlcRxUmEntity.fullyReceivedAt s.ent.rxWindow (k % s.ent.mod) = true) →
    k < next' ∨ RlcRxUmEntity.fullyReceivedAt ent'.rxWindow (k % s.ent.mod) = true

variable (h : HistoryInv s next highest)
include h

/-- What an event does not deliver again is still remembered when it is in the window. -/
theorem HistoryInv.remembered (hcfg : ent'.cfg = s.ent.cfg)
    (hinv : RxUmInv ent' next' highest') (hle : highest ≤ highest')
    (hbound : highest' ≤ highest + s.ent.umWindowSize) (hkeeps : s.Keeps ent' next highest next' highest')
    (hsn : s.delivered sn ≠ 0) (hinside : ent'.snInReassemblyWindow sn = true) :
    s.delivered sn = 1 ∧ ∃ k, highest' - ent'.umWindowSize ≤ k ∧ k < highest' ∧ sn = k % ent'.mod ∧
      (k < next' ∨ RlcRxUmEntity.fullyReceivedAt ent'.rxWindow (k % ent'.mod) = true) := by
  have hmod : ent'.mod = s.ent.mod := by rw [mod, mod, hcfg]
  have hwin : ent'.umWindowSize = s.ent.umWindowSize := by rw [umWindowSize, umWindowSize, hcfg]
  obtain ⟨hone, k, hlow, hhigh, rfl, hmem⟩ := h.counted sn hsn
  rw [← hmod] at hinside
  have hstays := lift_stays hinv.rxNextHighest hinv.window.turn (by omega)
    (by omega : highest - ent'.umWindowSize ≤ k) hinside
  refine ⟨hone, k, hstays, by omega, by rw [hmod], ?_⟩
  rw [hmod]
  rw [hwin] at hstays
  exact hkeeps k hstays hhigh hmem

theorem HistoryInv.record_quiet (hcfg : ent'.cfg = s.ent.cfg)
    (hinv : RxUmInv ent' next' highest') (hle : highest ≤ highest')
    (hbound : highest' ≤ highest + s.ent.umWindowSize) (hkeeps : s.Keeps ent' next highest next' highest')
    (hquiet : ∀ sn, s.ent.nofDelivered event output sn = 0) :
    HistoryInv (s.record event ent' output) next' highest' := by
  refine ⟨hinv, ?_⟩
  intro sn hsn
  obtain ⟨hinside, hcount⟩ := delivered_record hsn
  rw [hcount, hquiet, Nat.add_zero] at hsn ⊢
  exact h.remembered hcfg hinv hle hbound hkeeps hsn hinside

theorem HistoryInv.record_segment {pdu payload : List UInt8}
    {header : RlcUmPduHeader} (hseg : s.ent.acceptedSegment pdu = some (header, payload))
    (hguard : s.ent.forgetsDelivered (.pdu pdu) = false)
    (hok : s.ent.receiveSegment header payload = .ok (ent', output)) :
    ∃ next' highest', HistoryInv (s.record (.pdu pdu) ent' output) next' highest' := by
  obtain ⟨hsi, hsn⟩ := acceptedSegment_range hseg
  obtain ⟨next', highest', updated, actions, hnext, hle, hbound, hupdate, htimed⟩ :=
    h.inv.receiveSegment hsi hsn hok
  have hinv := (hupdate.inv h.inv.trigger_lt).updateReassemblyTimer htimed
  have hcfg : ent'.cfg = s.ent.cfg := (cfg_updateReassemblyTimer htimed).trans hupdate.cfg_eq
  have hwindow : ent'.rxWindow = updated.rxWindow := rxWindow_updateReassemblyTimer htimed
  have hkept : ∀ k, next' ≤ k → k < highest' →
      RlcRxUmEntity.fullyReceivedAt ent'.rxWindow (k % s.ent.mod) =
        RlcRxUmEntity.fullyReceivedAt (s.ent.bufferAfter header payload) (k % s.ent.mod) := by
    intro k hlow hhigh
    rw [hwindow]
    exact fullyReceivedAt_of_flags (hupdate.kept k hlow hhigh)
  have hkeeps : s.Keeps ent' next highest next' highest' := by
    intro k hlow hhigh hmem
    by_cases hbelow : k < next'
    · exact .inl hbelow
    · rcases hmem with hless | hfull
      · omega
      · right
        rw [hkept k (by omega) (by omega)]
        exact h.inv.kept_bufferAfter hseg hguard hle hbound hupdate.rxNextHighest hlow hhigh hfull
  refine ⟨next', highest', hinv, ?_⟩
  intro sn hcounted
  obtain ⟨hinside, hcount⟩ := delivered_record hcounted
  rw [hcount] at hcounted ⊢
  by_cases hquiet : s.ent.nofDelivered (.pdu pdu) output sn = 0
  · rw [hquiet, Nat.add_zero] at hcounted ⊢
    exact h.remembered hcfg hinv hle hbound hkeeps hcounted hinside
  · -- the SDU with this SN is delivered now: it was not before
    have hsame : header.sn = sn := by
      by_contra hne
      simp [nofDelivered, hseg, hne] at hquiet
    subst hsame
    have hsdus := receiveSegment_sdus hsi hok
    have hcomplete : (storedInfo s.ent.rxWindow header payload).fullyReceived = true := by
      by_contra hnot
      rw [if_neg hnot] at hsdus
      simp [nofDelivered, hseg, List.length_eq_zero_iff.mp (Nat.le_zero.mp hsdus)] at hquiet
    have hone : s.ent.nofDelivered (.pdu pdu) output header.sn = 1 := by
      rw [if_pos hcomplete] at hsdus
      simp only [nofDelivered, hseg, if_pos] at hquiet ⊢
      omega
    have hstays : highest' = highest :=
      highest_stays h.inv.rxNextHighest hle hbound hupdate.rxNextHighest hcomplete
    have hmod : ent'.mod = s.ent.mod := by rw [mod, mod, hcfg]
    obtain ⟨k, hlow, hhigh, hk⟩ := exists_lift_window hinv.rxNextHighest hinv.window.turn
      (by rw [hmod]; exact hsn) hinside
    have hwin : ent'.umWindowSize = s.ent.umWindowSize := by rw [umWindowSize, umWindowSize, hcfg]
    have hfirst : s.delivered header.sn = 0 := by
      by_contra hagain
      obtain ⟨-, k, hlow, hhigh, hk, hmem⟩ := h.counted header.sn hagain
      rcases hmem with hbelow | hfull
      · have hinvalid := acceptedSegment_valid hseg
        rw [hk, h.inv.snInvalidForRxBuffer_lift hlow (by omega), decide_eq_false_iff_not] at hinvalid
        exact hinvalid hbelow
      · have hin : s.ent.snInReassemblyWindow (k % s.ent.mod) = true := by
          rw [snInReassemblyWindow_lift h.inv.rxNextHighest h.inv.window.turn hlow (by omega)]
          exact decide_eq_true hhigh
        rw [← hk] at hfull hin
        rw [forgets_of_repeated hseg hfull hin] at hguard
        cases hguard
    rw [hfirst, hone]
    refine ⟨rfl, k, hlow, hhigh, hk, ?_⟩
    by_cases hbelow : k < next'
    · exact .inl hbelow
    · right
      show RlcRxUmEntity.fullyReceivedAt ent'.rxWindow (k % ent'.mod) = true
      rw [hmod, hkept k (by omega) hhigh, ← hmod, ← hk, fullyReceivedAt_bufferAfter_self]
      exact hcomplete

theorem HistoryInv.step (hguard : s.ent.forgetsDelivered event = false)
    (hok : s.ent.step event = .ok (ent', output)) :
    ∃ next' highest', HistoryInv (s.record event ent' output) next' highest' := by
  cases event with
  | pdu pdu =>
    change s.ent.handlePdu pdu = _ at hok
    cases hseg : s.ent.acceptedSegment pdu with
    | none =>
      obtain ⟨sdus, heq⟩ := handlePdu_discarded hseg
      rw [heq] at hok
      cases hok
      refine ⟨next, highest, h.record_quiet rfl h.inv le_rfl (Nat.le_add_right _ _)
        (fun _ _ _ hmem => hmem) ?_⟩
      intro sn
      simp [nofDelivered, hseg]
    | some segment =>
      obtain ⟨header, payload⟩ := segment
      rw [handlePdu_accepted hseg] at hok
      exact h.record_segment hseg hguard hok
  | reassemblyTimerExpired =>
    change s.ent.expireReassemblyTimer = _ at hok
    rw [expireReassemblyTimer] at hok
    split at hok
    · obtain ⟨⟨timed, actions⟩, htimed, heq⟩ := bind_ok hok
      cases heq
      obtain ⟨next', hle, hupdate⟩ := (h.inv.setTimer false).cleanExpired
      refine ⟨next', highest, h.record_quiet
        ((cfg_restartReassemblyTimer htimed).trans hupdate.cfg_eq)
        ((hupdate.inv h.inv.rxNextHighest h.inv.trigger_lt).restartReassemblyTimer htimed) le_rfl
        (Nat.le_add_right _ _) ?_ fun sn => rfl⟩
      intro k _ hhigh hmem
      by_cases hbelow : k < next'
      · exact .inl hbelow
      · rcases hmem with hless | hfull
        · omega
        · right
          rw [rxWindow_restartReassemblyTimer htimed]
          exact (fullyReceivedAt_of_flags (hupdate.kept k (by omega) hhigh)).trans hfull
    · cases hok
      exact ⟨next, highest, h.record_quiet rfl h.inv le_rfl (Nat.le_add_right _ _)
        (fun _ _ _ hmem => hmem) fun sn => rfl⟩

end Steps

/-- At most one SDU per SN, from the moment the SN enters the reassembly window until it leaves it,
as long as the receiver does not forget a delivered SDU. -/
theorem rxUm_deliveredOnce {cfg : RlcRxUmConfig} {s : RxUmHistory}
    (h : Runs.Reaches RxUmHistory.next (fun s event => s.ent.forgetsDelivered event = false)
      { ent := create cfg } s) (sn : Nat) : s.delivered sn ≤ 1 := by
  have hinv : ∃ next highest, HistoryInv s next highest := by
    induction h with
    | start => exact ⟨_, _, start_inv cfg⟩
    | next _ hguard hstep ih =>
      obtain ⟨next, highest, hinv⟩ := ih
      obtain ⟨⟨ent', output⟩, hok, rfl⟩ := Option.map_eq_some_iff.mp hstep
      exact hinv.step hguard (toOption_eq_some hok)
  obtain ⟨next, highest, hinv⟩ := hinv
  by_cases hzero : s.delivered sn = 0
  · omega
  · have := (hinv.counted sn hzero).1
    omega

/-- SDU with SN 1 in two segments, received before anything of SN 0. -/
def segmentedSn1 : List Event := [.pdu [0x41, 0xaa], .pdu [0x81, 0x00, 0x01, 0xbb]]

theorem rxUm_deliveredOnce_sn1 : ∃ s,
    Runs.Reaches RxUmHistory.next (fun s event => s.ent.forgetsDelivered event = false)
      { ent := create { snFieldLength := .size6bits, tReassembly := 35 } } s ∧
      s.delivered 1 = 1 ∧ ∀ sn, s.delivered sn ≤ 1 := by
  have hrun : (Runs.runAll (Runs.guarded RxUmHistory.next
      (fun s event => s.ent.forgetsDelivered event = false))
      { ent := create { snFieldLength := .size6bits, tReassembly := 35 } }
      segmentedSn1).map (fun s => s.delivered 1) = some 1 := by
    decide +kernel
  obtain ⟨s, hs, hobs⟩ := Option.map_eq_some_iff.mp hrun
  have hreaches := Runs.reaches_of_runGuarded .start hs
  exact ⟨s, hreaches, hobs, rxUm_deliveredOnce hreaches⟩

/-- The same segments received again are delivered again. -/
theorem rxUm_repeatedSegments_deliveredTwice : ∃ s,
    Runs.Reaches RxUmHistory.next (fun _ _ => True)
      { ent := create { snFieldLength := .size6bits, tReassembly := 35 } } s ∧
      s.delivered 1 = 2 := by
  have hrun : (Runs.runAll RxUmHistory.next
      { ent := create { snFieldLength := .size6bits, tReassembly := 35 } }
      (segmentedSn1 ++ segmentedSn1)).map (fun s => s.delivered 1) = some 2 := by
    decide +kernel
  obtain ⟨s, hs, hobs⟩ := Option.map_eq_some_iff.mp hrun
  exact ⟨s, Runs.reaches_of_runAll .start (fun _ _ _ => trivial) hs, hobs⟩

end RxUmHistory
end Srsran.Rlc
