import Srsran.Rlc.DataHeaderCodec
import Srsran.Rlc.RxUmState
import Srsran.Rlc.SduQueueFifo
import Srsran.Rlc.TxUmEntity

/-! A UM transmitter and the receiver that gets its PDUs in order and without loss. Between two PDUs
the receiver holds nothing, or the segments of the SDU under transmission up to its next offset. -/
namespace Srsran.Rlc
open ModOrder Srsran.Adt Checked Srsran.Pdcp RlcRxUmEntity

/-- The segments lie one behind the other from `so` on, and none is the last one. -/
def InOrder : Nat → List RlcRxSduSegment → Prop
  | _, [] => True
  | so, segm :: rest => segm.so = so ∧ segm.si ≠ .lastSegment ∧ segm.payload ≠ [] ∧
      InOrder (so + segm.payload.length) rest

/-- What a PDU carries behind its header. -/
def umPayload (snSize : RlcUmSnSize) (pdu : List UInt8) : List UInt8 :=
  match rlcUmReadDataPduHeader pdu snSize with
  | some header => pdu.drop (rlcUmNrPackedLength header)
  | none => []

variable {payload : List UInt8} {header : RlcUmPduHeader}

theorem umPayload_segment (h : header.Segment) :
    umPayload header.snSize (rlcUmWriteDataPduHeader header ++ payload) = payload := by
  rw [umPayload, rlcUmReadDataPduHeader_write h]
  exact List.drop_left' (length_rlcUmWriteDataPduHeader header)

theorem umPayload_fullSdu (hsi : header.si = .fullSdu) :
    umPayload header.snSize (rlcUmWriteDataPduHeader header ++ payload) = payload := by
  have hlength : (rlcUmWriteDataPduHeader header).length = 1 := by
    rw [length_rlcUmWriteDataPduHeader, rlcUmNrPackedLength, if_pos hsi]
  rw [umPayload, rlcUmReadDataPduHeader_fullSdu hsi]
  exact List.drop_left' hlength

/-- What becomes of an SDU that came in these pieces. -/
def handedUp (pieces : List (List UInt8)) : List (List UInt8) :=
  if pieces.length ≤ maxNofSlices then [pieces.flatten] else []

variable {output : RxUmOutput}

section InOrder
variable {so : Nat} {segments kept : List RlcRxSduSegment} {segm new : RlcRxSduSegment}

theorem toList_reassembleSegments (hne : ∀ segm ∈ segments, segm.payload ≠ []) :
    (reassembleSegments segments).toList = handedUp (segments.map (·.payload)) := by
  rw [reassembleSegments_eq hne, handedUp, List.length_map, segmentBytes, List.flatMap_def]
  split <;> rfl

theorem length_segmentBytes_cons :
    (segmentBytes (segm :: segments)).length = segm.payload.length + (segmentBytes segments).length := by
  rw [segmentBytes, List.flatMap_cons, List.length_append, segmentBytes]

theorem InOrder.so_lt (h : InOrder so segments) :
    ∀ segm ∈ segments, segm.so < so + (segmentBytes segments).length := by
  induction segments generalizing so with
  | nil =>
    intro segm hmem
    cases hmem
  | cons first rest ih =>
    obtain ⟨hso, -, hne, hrest⟩ := h
    have hpos := List.length_pos_iff.mpr hne
    intro segm hmem
    rw [length_segmentBytes_cons]
    rcases List.mem_cons.mp hmem with rfl | hmem
    · omega
    · have := ih hrest segm hmem
      omega

theorem InOrder.storeLoop (h : InOrder so segments) (hnew : new.so = so + (segmentBytes segments).length) :
    storeLoop kept segments new = (true, insertSegment (kept ++ segments) new) := by
  induction segments generalizing so kept with
  | nil => rw [Srsran.Rlc.storeLoop, List.append_nil]
  | cons first rest ih =>
    obtain ⟨hso, -, hne, hrest⟩ := h
    have hpos := List.length_pos_iff.mpr hne
    rw [length_segmentBytes_cons] at hnew
    rw [Srsran.Rlc.storeLoop, if_pos (by omega), ih hrest (by omega), List.append_assoc,
      List.singleton_append]

theorem InOrder.storeSegment (h : InOrder 0 segments) (hnew : new.so = (segmentBytes segments).length) :
    (storeSegment segments new).2 = segments ++ [new] := by
  have hmiddle := @insertSegment_middle segments [] new (by
    intro segm hmem
    have := h.so_lt segm hmem
    omega) (by simp)
  rw [Srsran.Rlc.storeSegment, h.storeLoop (by omega), List.nil_append]
  rwa [List.append_nil] at hmiddle

/-- With one more segment the SDU is complete exactly if that is the last one. -/
theorem InOrder.inventory (h : InOrder so segments) (hnew : new.so = so + (segmentBytes segments).length) :
    inventoryLoop so (segments ++ [new]) =
      { fullyReceived := decide (new.si = .lastSegment), hasGap := false } := by
  induction segments generalizing so with
  | nil =>
    have hstart : new.so = so := hnew
    rw [List.nil_append, inventoryLoop, if_neg (not_not.mpr hstart)]
    by_cases hlast : new.si = .lastSegment
    · rw [if_pos hlast, decide_eq_true hlast]
    · rw [if_neg hlast, decide_eq_false hlast]
      rfl
  | cons first rest ih =>
    obtain ⟨hso, hsi, -, hrest⟩ := h
    rw [length_segmentBytes_cons] at hnew
    rw [List.cons_append, inventoryLoop, if_neg (not_not.mpr hso), if_neg hsi]
    exact ih hrest (by omega)

theorem InOrder.append (h : InOrder so segments) (hnew : new.so = so + (segmentBytes segments).length)
    (hsi : new.si ≠ .lastSegment) (hne : new.payload ≠ []) : InOrder so (segments ++ [new]) := by
  induction segments generalizing so with
  | nil => exact ⟨hnew, hsi, hne, trivial⟩
  | cons first rest ih =>
    obtain ⟨hso, hsi', hne', hrest⟩ := h
    rw [length_segmentBytes_cons] at hnew
    exact ⟨hso, hsi', hne', ih hrest (by omega)⟩

theorem InOrder.payload_ne_nil (h : InOrder so segments) : ∀ segm ∈ segments, segm.payload ≠ [] := by
  induction segments generalizing so with
  | nil =>
    intro segm hmem
    cases hmem
  | cons first rest ih => exact List.forall_mem_cons.mpr ⟨h.2.2.1, ih h.2.2.2⟩

end InOrder

namespace RlcRxUmEntity

/-- Everything up to the SN `n` is delivered and nothing is stored. -/
structure Idle (rx : RlcRxUmEntity) (n : Nat) : Prop where
  turn : rx.mod ≤ n
  next : rx.st.rxNextReassembly = n % rx.mod
  highest : rx.st.rxNextHighest = n % rx.mod
  timer : rx.reassemblyTimerRunning = false
  window : ∀ key, rx.rxWindow.get? key = none

/-- The SDU with SN `n` is being received: these pieces of it are there. -/
structure Receiving (rx : RlcRxUmEntity) (n : Nat) (begun : List (List UInt8)) : Prop where
  turn : rx.mod ≤ n
  next : rx.st.rxNextReassembly = n % rx.mod
  highest : rx.st.rxNextHighest = (n + 1) % rx.mod
  timer : rx.reassemblyTimerRunning = false
  segments : ∃ segments, InOrder 0 segments ∧ segments.map (·.payload) = begun ∧
    rx.rxWindow.get? (n % rx.mod) = some { segments }
  window : ∀ key, key ≠ n % rx.mod → rx.rxWindow.get? key = none

theorem create_idle (cfg : RlcRxUmConfig) : Idle (create cfg) (create cfg).mod where
  turn := le_rfl
  next := (Nat.mod_self _).symm
  highest := (Nat.mod_self _).symm
  timer := rfl
  window := fun _ => rfl

section Receiving
variable {rx : RlcRxUmEntity} {n : Nat} {begun : List (List UInt8)} {payload : List UInt8}
  {header : RlcUmPduHeader}

theorem snInvalidForRxBuffer_next : rx.snInvalidForRxBuffer rx.st.rxNextReassembly = false := by
  rw [snInvalidForRxBuffer, decide_eq_false (lt_irrefl _), Bool.and_false]

/-- No timer is needed while only the SDU at RX_Next_Reassembly is open and has no gap. -/
theorem updateReassemblyTimer_quiet (htimer : rx.reassemblyTimerRunning = false)
    (hstart : rx.mustStartTimer = false) : rx.updateReassemblyTimer = .ok (rx, []) := by
  rw [updateReassemblyTimer, stopReassemblyTimer, htimer, Bool.false_and, if_neg (by simp),
    startReassemblyTimer, htimer, if_neg (by simp), restartReassemblyTimer, hstart,
    if_neg (by simp)]
  rfl

theorem mustStartTimer_idle (hturn : rx.mod ≤ n) (hnext : rx.st.rxNextReassembly = n % rx.mod)
    (hhighest : rx.st.rxNextHighest = n % rx.mod) : rx.mustStartTimer = false := by
  have hm := rx.mod_eq
  have hw := rx.two_le_umWindowSize
  have hsucc : rx.rxModBase (n % rx.mod + 1) = rx.rxModBase ((n + 1) % rx.mod) := by
    rw [rxModBase_eq hhighest hturn, rxModBase_eq hhighest hturn]
    apply rebase_congr rx.modulus rfl
    exact ((Nat.mod_modEq _ _).add_right 1).trans (Nat.mod_modEq _ _).symm
  rw [mustStartTimer, rxModBase_highest hhighest hturn, hnext, hsucc,
    rxModBase_lift hhighest hturn (by omega) (by omega)]
  have hgt : decide (rx.umWindowSize > n + 1 - (n - rx.umWindowSize)) = false :=
    decide_eq_false (by omega)
  have hne : (rx.umWindowSize == n + 1 - (n - rx.umWindowSize)) = false := by
    rw [beq_eq_false_iff_ne]
    omega
  rw [hgt, hne, Bool.false_and, Bool.or_false]

theorem mustStartTimer_open (hturn : rx.mod ≤ n) (hnext : rx.st.rxNextReassembly = n % rx.mod)
    (hhighest : rx.st.rxNextHighest = (n + 1) % rx.mod)
    (hnone : rx.rxWindow.get? ((n + 1) % rx.mod) = none) : rx.mustStartTimer = false := by
  have hm := rx.mod_eq
  have hw := rx.two_le_umWindowSize
  have hturn' : rx.mod ≤ n + 1 := by omega
  have hsucc : rx.rxModBase (n % rx.mod + 1) = rx.rxModBase ((n + 1) % rx.mod) := by
    rw [rxModBase_eq hhighest hturn', rxModBase_eq hhighest hturn']
    apply rebase_congr rx.modulus rfl
    exact ((Nat.mod_modEq _ _).add_right 1).trans (Nat.mod_modEq _ _).symm
  have hgap : hasGapAt rx.rxWindow rx.st.rxNextHighest = false := by
    rw [hasGapAt, hhighest, hnone]
  rw [mustStartTimer, hgap, Bool.and_false, Bool.or_false, hnext, hsucc, ← hhighest]
  exact decide_eq_false (lt_irrefl _)

theorem succ_mod_ne (n : Nat) : (n + 1) % rx.mod ≠ n % rx.mod := by
  intro heq
  have hm := rx.mod_eq
  have hw := rx.two_le_umWindowSize
  have := mod_inj_of_near (Nat.le_succ n) (by omega) le_rfl (by omega) heq
  omega

theorem Receiving.quiet (h : Receiving rx n begun) : rx.updateReassemblyTimer = .ok (rx, []) := by
  apply updateReassemblyTimer_quiet h.timer
  apply mustStartTimer_open h.turn h.next h.highest
  exact h.window _ (succ_mod_ne n)

theorem Idle.quiet (h : Idle rx n) : rx.updateReassemblyTimer = .ok (rx, []) := by
  apply updateReassemblyTimer_quiet h.timer
  exact mustStartTimer_idle h.turn h.next h.highest

variable {window : CircularMap RlcRxUmSduInfo}

theorem storedInfo_inOrder {segments : List RlcRxSduSegment}
    (hstored : ((window.get? header.sn).getD {}).segments = segments) (h : InOrder 0 segments)
    (hso : header.so = (segmentBytes segments).length) :
    storedInfo window header payload =
      { fullyReceived := decide (header.si = .lastSegment)
        hasGap := false
        segments := segments ++ [{ si := header.si, so := header.so, payload }] } := by
  have hlist : (storeSegment segments { si := header.si, so := header.so, payload }).2 =
      segments ++ [{ si := header.si, so := header.so, payload }] := h.storeSegment hso
  have hinventory : updateSegmentInventory
      (segments ++ [{ si := header.si, so := header.so, payload }]) =
      { fullyReceived := decide (header.si = .lastSegment), hasGap := false } :=
    h.inventory (by rw [Nat.zero_add]; exact hso)
  rw [storedInfo, hstored, hlist, hinventory]

theorem get?_bufferAfter (key : Nat) (hother : ∀ key, key ≠ header.sn → rx.rxWindow.get? key = none) :
    (rx.bufferAfter header payload).get? key =
      if key = header.sn then some (storedInfo rx.rxWindow header payload) else none := by
  rw [bufferAfter, CircularMap.get?_overwrite]
  by_cases hkey : key = header.sn
  · rw [if_pos hkey, if_pos hkey]
  · rw [if_neg hkey, if_neg hkey]
    split
    · rfl
    · exact hother key hkey

/-- A segment that is not the last one is stored behind those that are there. -/
theorem bufferAfter_begun {segments : List RlcRxSduSegment}
    (hstored : ((rx.rxWindow.get? header.sn).getD {}).segments = segments) (h : InOrder 0 segments)
    (hso : header.so = (segmentBytes segments).length) (hlast : header.si ≠ .lastSegment) (hpayload : payload ≠ [])
    (hother : ∀ key, key ≠ header.sn → rx.rxWindow.get? key = none) :
    fullyReceivedAt (rx.bufferAfter header payload) header.sn = false ∧
      (∃ stored, InOrder 0 stored ∧ stored.map (·.payload) = segments.map (·.payload) ++ [payload] ∧
        (rx.bufferAfter header payload).get? header.sn = some { segments := stored }) ∧
      ∀ key, key ≠ header.sn → (rx.bufferAfter header payload).get? key = none := by
  have hbuffer := fun key => @get?_bufferAfter rx payload header key hother
  rw [storedInfo_inOrder hstored h hso, decide_eq_false hlast] at hbuffer
  refine ⟨?_, ⟨_, h.append ?_ hlast hpayload, List.map_append, (hbuffer _).trans (if_pos rfl)⟩,
    fun key hkey => (hbuffer key).trans (if_neg hkey)⟩
  · rw [fullyReceivedAt, hbuffer, if_pos rfl]
  · rw [Nat.zero_add]
    exact hso

theorem handleParsedPdu_segment (hsi : header.si ≠ .fullSdu)
    (hsn : header.sn = rx.st.rxNextReassembly) {updated : RlcRxUmEntity}
    (hupdate : updateRxBuffer { rx with rxWindow := rx.bufferAfter header payload } header.sn =
      (updated, output))
    (htimer : updated.updateReassemblyTimer = .ok (updated, [])) :
    rx.handleParsedPdu header payload = .ok (updated, { output with timerActions := [] }) := by
  rw [handleParsedPdu, if_neg hsi, hsn, snInvalidForRxBuffer_next, if_neg (by simp), receiveSegment,
    handleSegmentDataSdu_eq hsi, hupdate, htimer]
  rfl

variable {turns : Nat}

theorem discardOutside_inside {sn : Nat} {lost : List Nat} (h : rx.snInReassemblyWindow sn = true) :
    rx.discardOutside turns sn window lost = (sn, window, lost) := by
  cases turns with
  | zero => rfl
  | succ turns => rw [discardOutside, if_pos h]

theorem releaseReceived_missing {sn : Nat} (h : fullyReceivedAt window sn = false) :
    rx.releaseReceived turns sn window = (sn, window) := by
  cases turns with
  | zero => rfl
  | succ turns =>
    rw [releaseReceived, if_neg]
    intro hreceived
    rw [h] at hreceived
    cases hreceived.2

theorem releaseReceived_limit {sn : Nat} (h : rx.rxModBase sn = rx.rxModBase rx.st.rxNextHighest) :
    rx.releaseReceived turns sn window = (sn, window) := by
  cases turns with
  | zero => rfl
  | succ turns =>
    rw [releaseReceived, if_neg]
    intro hbelow
    omega

theorem releaseReceived_single {turns sn : Nat} {window : CircularMap RlcRxUmSduInfo}
    (hturns : turns ≠ 0) (hbelow : rx.rxModBase sn < rx.rxModBase rx.st.rxNextHighest)
    (hfull : fullyReceivedAt window sn = true)
    (hlimit : rx.rxModBase ((sn + 1) % rx.mod) = rx.rxModBase rx.st.rxNextHighest) :
    rx.releaseReceived turns sn window = ((sn + 1) % rx.mod, window.erase sn) := by
  cases turns with
  | zero => exact absurd rfl hturns
  | succ turns => rw [releaseReceived, if_pos ⟨hbelow, hfull⟩, releaseReceived_limit hlimit]

theorem cleanReassemblyWindow_next (hinside : rx.snInReassemblyWindow (rx.st.rxNextReassembly % rx.mod) = true)
    (hmissing : fullyReceivedAt rx.rxWindow (rx.st.rxNextReassembly % rx.mod) = false) :
    rx.cleanReassemblyWindow.1 =
      { rx with st := { rx.st with rxNextReassembly := rx.st.rxNextReassembly % rx.mod } } := by
  rw [cleanReassemblyWindow, discardOutside_inside hinside]
  dsimp only
  rw [releaseReceived_missing hmissing]

theorem Idle.firstSegment (h : Idle rx n) (hsi : header.si = .firstSegment)
    (hsn : header.sn = n % rx.mod) (hso : header.so = 0) (hpayload : payload ≠ []) :
    ∃ rx' output, rx.handleParsedPdu header payload = .ok (rx', output) ∧ output.sdus = [] ∧
      rx'.cfg = rx.cfg ∧ Receiving rx' n [payload] := by
  have hm := rx.mod_eq
  have hw := rx.two_le_umWindowSize
  have hturn := h.turn
  have hfull : header.si ≠ .fullSdu := by
    rw [hsi]
    decide
  have hlast : header.si ≠ .lastSegment := by
    rw [hsi]
    decide
  have hempty : InOrder 0 [] := trivial
  obtain ⟨hmissing, hsegments, hothers⟩ := bufferAfter_begun (by rw [h.window]; rfl) hempty hso hlast hpayload
    fun other _ => h.window other
  have houtside : rx.snInReassemblyWindow header.sn = false := by
    rw [hsn, snInReassemblyWindow_lift h.highest hturn (by omega) (by omega)]
    exact decide_eq_false (lt_irrefl n)
  have hmodsn : n % rx.mod % rx.mod = header.sn := by rw [Nat.mod_mod, hsn]
  have hsucc : (header.sn + 1) % rx.mod = (n + 1) % rx.mod := by rw [hsn, succ_mod_mod]
  let opened : RlcRxUmEntity :=
    { rx with
      rxWindow := rx.bufferAfter header payload
      st := { rx.st with rxNextHighest := (header.sn + 1) % rx.mod } }
  have hinside : opened.snInReassemblyWindow (opened.st.rxNextReassembly % opened.mod) = true := by
    have hlift := @snInReassemblyWindow_lift opened (n + 1) n hsucc (Nat.le_succ_of_le hturn)
      (by
        show n + 1 - rx.umWindowSize ≤ n
        omega)
      (by
        show n < n + 1 + rx.umWindowSize
        omega)
    have hnext : opened.st.rxNextReassembly % opened.mod = n % opened.mod := by
      show rx.st.rxNextReassembly % rx.mod = n % rx.mod
      rw [h.next, Nat.mod_mod]
    rw [hnext, hlift]
    exact decide_eq_true (Nat.lt_succ_self n)
  have hclean := cleanReassemblyWindow_next hinside (by
    show fullyReceivedAt (rx.bufferAfter header payload) (rx.st.rxNextReassembly % rx.mod) = false
    rw [h.next, hmodsn]
    exact hmissing)
  have hreceiving : Receiving opened.cleanReassemblyWindow.1 n [payload] := by
    rw [hclean]
    rw [hsn] at hsegments hothers
    refine ⟨hturn, ?_, hsucc, h.timer, hsegments, hothers⟩
    show rx.st.rxNextReassembly % rx.mod = n % rx.mod
    rw [h.next, Nat.mod_mod]
  have hupdate : updateRxBuffer { rx with rxWindow := rx.bufferAfter header payload } header.sn =
      (opened.cleanReassemblyWindow.1, { lostSns := opened.cleanReassemblyWindow.2 }) := by
    rw [updateRxBuffer, if_neg (by
      show ¬ fullyReceivedAt (rx.bufferAfter header payload) header.sn = true
      simp [hmissing]), if_pos (by
      show (!rx.snInReassemblyWindow header.sn) = true
      rw [houtside]
      rfl)]
    rfl
  refine ⟨opened.cleanReassemblyWindow.1, _,
    handleParsedPdu_segment hfull (hsn.trans h.next.symm) hupdate hreceiving.quiet, rfl, ?_, hreceiving⟩
  rw [hclean]

theorem Receiving.middleSegment (h : Receiving rx n begun) (hsi : header.si = .middleSegment)
    (hsn : header.sn = n % rx.mod) (hso : header.so = begun.flatten.length) (hpayload : payload ≠ []) :
    ∃ rx' output, rx.handleParsedPdu header payload = .ok (rx', output) ∧ output.sdus = [] ∧
      rx'.cfg = rx.cfg ∧ Receiving rx' n (begun ++ [payload]) := by
  have hm := rx.mod_eq
  have hw := rx.two_le_umWindowSize
  have hturn := h.turn
  obtain ⟨segments, horder, hpieces, hget⟩ := h.segments
  rw [← hpieces, ← List.flatMap_def] at hso
  have hfull : header.si ≠ .fullSdu := by
    rw [hsi]
    decide
  have hlast : header.si ≠ .lastSegment := by
    rw [hsi]
    decide
  obtain ⟨hmissing, hsegments, hothers⟩ := bufferAfter_begun (by rw [hsn, hget]; rfl) horder hso hlast hpayload
    (by rw [hsn]; exact h.window)
  have hinside : rx.snInReassemblyWindow header.sn = true := by
    rw [hsn, snInReassemblyWindow_lift h.highest (by omega) (by omega) (by omega)]
    exact decide_eq_true (Nat.lt_succ_self n)
  have hreceiving : Receiving { rx with rxWindow := rx.bufferAfter header payload } n
      (begun ++ [payload]) := by
    rw [hpieces, hsn] at hsegments
    rw [hsn] at hothers
    exact ⟨hturn, h.next, h.highest, h.timer, hsegments, hothers⟩
  have hupdate : updateRxBuffer { rx with rxWindow := rx.bufferAfter header payload } header.sn =
      ({ rx with rxWindow := rx.bufferAfter header payload }, {}) := by
    rw [updateRxBuffer, if_neg (by
      show ¬ fullyReceivedAt (rx.bufferAfter header payload) header.sn = true
      simp [hmissing]), if_neg (by
      show ¬ (!rx.snInReassemblyWindow header.sn) = true
      simp [hinside])]
  exact ⟨_, _, handleParsedPdu_segment hfull (hsn.trans h.next.symm) hupdate hreceiving.quiet, rfl, rfl,
    hreceiving⟩

/-- The last segment completes the SDU, which is handed up and forgotten. -/
theorem Receiving.lastSegment (h : Receiving rx n begun) (hsi : header.si = .lastSegment)
    (hsn : header.sn = n % rx.mod) (hso : header.so = begun.flatten.length) (hpayload : payload ≠ []) :
    ∃ rx' output, rx.handleParsedPdu header payload = .ok (rx', output) ∧
      output.sdus = handedUp (begun ++ [payload]) ∧ rx'.cfg = rx.cfg ∧ Idle rx' (n + 1) := by
  have hm := rx.mod_eq
  have hw := rx.two_le_umWindowSize
  have hturn := h.turn
  obtain ⟨segments, horder, hpieces, hget⟩ := h.segments
  rw [← hpieces, ← List.flatMap_def] at hso
  have hsegment : header.si ≠ .fullSdu := by
    rw [hsi]
    decide
  have hinfo : storedInfo rx.rxWindow header payload =
      { fullyReceived := true
        segments := segments ++ [{ si := header.si, so := header.so, payload }] } := by
    rw [storedInfo_inOrder (by rw [hsn, hget]; rfl) horder hso, hsi]
    rfl
  have hfull : (storedInfo rx.rxWindow header payload).fullyReceived = true := by rw [hinfo]
  have hbuffer : fullyReceivedAt (rx.bufferAfter header payload) header.sn = true := by
    rw [fullyReceivedAt_bufferAfter_self, hfull]
  have hothers : ∀ key, key ≠ header.sn → (rx.deliveredBuffer header payload).get? key = none := by
    intro key hkey
    rw [deliveredBuffer, CircularMap.get?_overwrite, if_neg hkey]
    split
    · rfl
    · rw [get?_bufferAfter key (by rw [hsn]; exact h.window), if_neg hkey]
  -- RX_Next_Reassembly passes this SN only
  let placed : RlcRxUmEntity := { rx with rxWindow := rx.bufferAfter header payload }
  let done : RlcRxUmEntity := { rx with rxWindow := rx.deliveredBuffer header payload }
  have hrelease : placed.releaseSegments header.sn = done := releaseSegments_eq rfl
  have hreleased : done.releaseReceived done.mod (done.st.rxNextReassembly % done.mod) done.rxWindow =
      ((n + 1) % rx.mod, (rx.deliveredBuffer header payload).erase (n % rx.mod)) := by
    have hnext : done.st.rxNextReassembly % done.mod = n % rx.mod := by
      show rx.st.rxNextReassembly % rx.mod = n % rx.mod
      rw [h.next, Nat.mod_mod]
    have hbase : ∀ k, n ≤ k → k ≤ n + 1 →
        done.rxModBase (k % rx.mod) = k - (n + 1 - rx.umWindowSize) := by
      intro k hlow hhigh
      exact @rxModBase_lift rx (n + 1) k h.highest (by omega) (by omega) (by omega)
    have hhighest : done.rxModBase done.st.rxNextHighest = rx.umWindowSize :=
      @rxModBase_highest rx (n + 1) h.highest (by omega)
    have hmod : (n % rx.mod + 1) % done.mod = (n + 1) % rx.mod := succ_mod_mod n
    rw [hnext]
    have hsingle := @releaseReceived_single done done.mod (n % rx.mod)
      (rx.deliveredBuffer header payload)
      (by
        show rx.mod ≠ 0
        omega)
      (by
        rw [hhighest, hbase n le_rfl (Nat.le_succ n)]
        omega)
      (by
        rw [fullyReceivedAt_of_flags (flagsAt_deliveredBuffer _), ← hsn]
        exact hbuffer)
      (by
        rw [hhighest, hmod, hbase (n + 1) (Nat.le_succ n) le_rfl]
        omega)
    rw [hmod] at hsingle
    exact hsingle
  have hadvance : done.advanceNextReassembly header.sn =
      { done with
        st := { rx.st with rxNextReassembly := (n + 1) % rx.mod }
        rxWindow := (rx.deliveredBuffer header payload).erase (n % rx.mod) } := by
    rw [advanceNextReassembly, if_pos (hsn.trans h.next.symm), hreleased]
  have hidle : Idle (done.advanceNextReassembly header.sn) (n + 1) := by
    rw [hadvance]
    refine ⟨Nat.le_succ_of_le hturn, rfl, h.highest, h.timer, ?_⟩
    intro key
    show ((rx.deliveredBuffer header payload).erase (n % rx.mod)).get? key = none
    rw [CircularMap.get?_erase]
    split
    · rfl
    · rename_i hkey
      apply hothers
      rw [hsn]
      exact hkey
  have hsdu : (reassembleSegments (placed.sduInfo header.sn).segments).toList =
      handedUp (begun ++ [payload]) := by
    have hentry : placed.sduInfo header.sn = storedInfo rx.rxWindow header payload := by
      show ((rx.bufferAfter header payload).get? header.sn).getD {} = _
      rw [bufferAfter, CircularMap.get?_overwrite, if_pos rfl, Option.getD_some]
    rw [hentry, hinfo, toList_reassembleSegments, List.map_append, hpieces]
    · rfl
    · exact List.forall_mem_append.mpr ⟨horder.payload_ne_nil, List.forall_mem_singleton.mpr hpayload⟩
  have hupdate : updateRxBuffer { rx with rxWindow := rx.bufferAfter header payload } header.sn =
      (done.advanceNextReassembly header.sn, { sdus := handedUp (begun ++ [payload]) }) := by
    rw [updateRxBuffer, if_pos hbuffer, ← hsdu, ← hrelease]
  refine ⟨_, _, handleParsedPdu_segment hsegment (hsn.trans h.next.symm) hupdate hidle.quiet, rfl, ?_,
    hidle⟩
  rw [hadvance]

theorem handlePdu_write (hheader : header.Segment) (hsize : header.snSize = rx.cfg.snFieldLength)
    (hpayload : payload ≠ []) :
    rx.handlePdu (rlcUmWriteDataPduHeader header ++ payload) = rx.handleParsedPdu header payload := by
  have hpos := List.length_pos_iff.mpr hpayload
  have hlength := length_rlcUmWriteDataPduHeader header
  rw [handlePdu, ← hsize, rlcUmReadDataPduHeader_write hheader]
  dsimp only
  rw [List.length_append, hlength, if_neg (by omega), List.drop_left' hlength]

theorem handlePdu_write_fullSdu (hsi : header.si = .fullSdu)
    (hsize : header.snSize = rx.cfg.snFieldLength) (hpayload : payload ≠ []) :
    rx.handlePdu (rlcUmWriteDataPduHeader header ++ payload) = .ok (rx, { sdus := [payload] }) := by
  have hpos := List.length_pos_iff.mpr hpayload
  have hlength : (rlcUmWriteDataPduHeader header).length = 1 := by
    rw [length_rlcUmWriteDataPduHeader, rlcUmNrPackedLength, if_pos hsi]
  rw [handlePdu, ← hsize, rlcUmReadDataPduHeader_fullSdu hsi]
  dsimp only
  rw [rlcUmNrPackedLength, if_pos rfl, List.length_append, hlength, if_neg (by omega),
    List.drop_left' hlength, handleParsedPdu, if_pos rfl]

end Receiving

/-- PDUs received one after the other, and the SDUs they deliver. -/
def handlePdus : RlcRxUmEntity → List (List UInt8) →
    Except RxUmFault (RlcRxUmEntity × List (List UInt8))
  | rx, [] => .ok (rx, [])
  | rx, pdu :: rest => do
    let (rx, output) ← rx.handlePdu pdu
    let (rx, sdus) ← handlePdus rx rest
    return (rx, output.sdus ++ sdus)

theorem handlePdus_append {rx rx₁ rx₂ : RlcRxUmEntity} {pdus more sdus sdus' : List (List UInt8)}
    (h : rx.handlePdus pdus = .ok (rx₁, sdus)) (h' : rx₁.handlePdus more = .ok (rx₂, sdus')) :
    rx.handlePdus (pdus ++ more) = .ok (rx₂, sdus ++ sdus') := by
  induction pdus generalizing rx sdus with
  | nil =>
    cases h
    exact h'
  | cons pdu rest ih =>
    obtain ⟨⟨rx', output⟩, hpdu, h⟩ := bind_ok h
    obtain ⟨⟨rx'', sdus''⟩, hrest, heq⟩ := bind_ok h
    cases heq
    have htail := ih hrest
    rw [List.cons_append, handlePdus, hpdu]
    dsimp only [ok_bind]
    rw [htail]
    dsimp only [ok_bind]
    rw [List.append_assoc]
    rfl

end RlcRxUmEntity

inductive TxUmEvent where
  | handleSdu (sduBuf : List UInt8) (isRetx : Bool)
  | pullPdu (grant : Nat)
  deriving DecidableEq, Repr

/-- The transmitter, the SDUs that it accepted, and the PDUs that it built with their grants. -/
structure TxUmRun where
  ent : RlcTxUmEntity
  accepted : List (List UInt8) := []
  pdus : List (Nat × List UInt8) := []

namespace TxUmRun

def next (run : TxUmRun) : TxUmEvent → Except TxUmFault TxUmRun
  | .handleSdu sduBuf isRetx =>
    .ok { run with
      ent := (run.ent.handleSdu sduBuf isRetx).1
      accepted := run.accepted ++ if (run.ent.handleSdu sduBuf isRetx).2 then [sduBuf] else [] }
  | .pullPdu grant => do
    let (ent, output) ← run.ent.pullPdu grant
    return { run with
      ent
      pdus := run.pdus ++ if output.pdu = [] then [] else [(grant, output.pdu)] }

def all : TxUmRun → List TxUmEvent → Except TxUmFault TxUmRun
  | run, [] => .ok run
  | run, event :: rest => do
    let run ← run.next event
    run.all rest

end TxUmRun

namespace RlcTxUmEntity

/-- SDUs that are not completely transmitted: the one under transmission and the queued ones. -/
def pendingSdus (ent : RlcTxUmEntity) : List (List UInt8) :=
  (if ent.sdu.buf = [] then [] else [ent.sdu.buf]) ++ ent.sduQueue.queue.map (·.buf)

/-- The receiver has got the SDU under transmission up to `nextSo`, in these pieces. -/
structure Synced (ent : RlcTxUmEntity) (rx : RlcRxUmEntity) (n : Nat) (begun : List (List UInt8)) :
    Prop where
  snSize : rx.cfg.snFieldLength = ent.cfg.snFieldLength
  txNext : ent.txNext = n % ent.mod
  length : ent.sdu.buf.length < 2 ^ 16
  started : ent.nextSo ≠ 0 → ent.nextSo < ent.sdu.buf.length
  fresh : ent.nextSo = 0 → begun = []
  sent : begun.flatten = ent.sdu.buf.take ent.nextSo
  idle : ent.nextSo = 0 → rx.Idle n
  receiving : ent.nextSo ≠ 0 → rx.Receiving n begun

/-- The queue in order, with SDUs that can be transmitted. -/
structure QueueReady (ent : RlcTxUmEntity) : Prop where
  fifo : ent.sduQueue.Fifo
  lengths : ∀ sdu ∈ ent.sduQueue.queue, sdu.buf ≠ [] ∧ sdu.buf.length < 2 ^ 16

section Build
variable {ent : RlcTxUmEntity} {rx : RlcRxUmEntity} {n grantLen : Nat} {begun : List (List UInt8)}

/-- What a PDU of the SDU under transmission does on both sides. -/
structure Transferred (ent : RlcTxUmEntity) (rx : RlcRxUmEntity) (begun : List (List UInt8))
    (grantLen : Nat) (result : RlcTxUmEntity × List UInt8) : Prop where
  cfg : result.1.cfg = ent.cfg
  queue : result.1.sduQueue = ent.sduQueue
  fits : result.2.length ≤ grantLen
  built : ent.headLenNotFirst < grantLen → result.2 ≠ []
  carries : result.2 ≠ [] → umPayload ent.cfg.snFieldLength result.2 ≠ []
  received : ∃ rx' n' begun', ∃ sent : List (List (List UInt8)),
    rx.handlePdus (if result.2 = [] then [] else [result.2]) = .ok (rx', sent.flatMap handedUp) ∧
    Synced result.1 rx' n' begun' ∧
    begun ++ (if result.2 = [] then [] else [umPayload ent.cfg.snFieldLength result.2]) =
      sent.flatten ++ begun' ∧
    sent.map List.flatten ++ (if result.1.sdu.buf = [] then [] else [result.1.sdu.buf]) = [ent.sdu.buf]

theorem handlePdus_single {rx' : RlcRxUmEntity} {pdu : List UInt8}
    (h : rx.handlePdu pdu = .ok (rx', output)) :
    rx.handlePdus [pdu] = .ok (rx', output.sdus) := by
  rw [handlePdus, h]
  dsimp only [ok_bind, handlePdus]
  rw [List.append_nil]
  rfl

theorem Synced.mod_eq (h : Synced ent rx n begun) : rx.mod = ent.mod := by
  rw [RlcRxUmEntity.mod, mod, h.snSize]

theorem Synced.txNext_lt (h : Synced ent rx n begun) : ent.txNext < ent.mod := by
  rw [h.txNext, ← h.mod_eq]
  exact Nat.mod_lt _ rx.modulus.pos

theorem mod_le (ent : RlcTxUmEntity) : ent.mod ≤ 2 ^ 16 := by
  rw [mod]
  cases ent.cfg.snFieldLength <;> decide

theorem Synced.pduHeader_sn (h : Synced ent rx n begun) (si : RlcSiField) :
    (ent.pduHeader si).sn = n % rx.mod := by
  show ent.txNext % 2 ^ 16 = n % rx.mod
  rw [Nat.mod_eq_of_lt (h.txNext_lt.trans_le ent.mod_le), h.txNext, h.mod_eq]

theorem Synced.nextSo_lt (h : Synced ent rx n begun) : ent.nextSo < 2 ^ 16 := by
  have hlength := h.length
  by_cases hzero : ent.nextSo = 0
  · rw [hzero]
    decide
  · exact (h.started hzero).trans hlength

theorem Synced.pduHeader_so (h : Synced ent rx n begun) (si : RlcSiField) :
    (ent.pduHeader si).so = ent.nextSo :=
  Nat.mod_eq_of_lt h.nextSo_lt

variable {si : RlcSiField}

theorem Synced.segment (h : Synced ent rx n begun) (hsi : si ≠ .fullSdu)
    (hso : si ≠ .firstSegment ↔ ent.nextSo ≠ 0) : (ent.pduHeader si).Segment where
  si := hsi
  sn := by
    rw [h.pduHeader_sn, h.mod_eq]
    exact Nat.mod_lt _ (by rw [← h.mod_eq]; exact rx.modulus.pos)
  so := by
    rw [h.pduHeader_so]
    exact h.nextSo_lt
  so_ne_zero := by
    rw [h.pduHeader_so]
    exact hso

theorem Synced.umPayload_segment (h : Synced ent rx n begun) (hsi : si ≠ .fullSdu)
    (hso : si ≠ .firstSegment ↔ ent.nextSo ≠ 0) (payload : List UInt8) :
    umPayload ent.cfg.snFieldLength (rlcUmWriteDataPduHeader (ent.pduHeader si) ++ payload) = payload :=
  Srsran.Rlc.umPayload_segment (h.segment hsi hso)

theorem handlePdus_segment {rx' : RlcRxUmEntity} {sdus : List (List UInt8)} (hheader : header.Segment)
    (hsize : header.snSize = rx.cfg.snFieldLength) (hne : payload ≠ [])
    (hparsed : rx.handleParsedPdu header payload = .ok (rx', output)) (hsdus : output.sdus = sdus) :
    rx.handlePdus (if rlcUmWriteDataPduHeader header ++ payload = [] then []
      else [rlcUmWriteDataPduHeader header ++ payload]) = .ok (rx', sdus) := by
  rw [if_neg fun hnil => hne (List.append_eq_nil_iff.mp hnil).2, ← hsdus]
  apply handlePdus_single
  rw [handlePdu_write hheader hsize hne]
  exact hparsed

theorem Synced.length_header (h : Synced ent rx n begun) (hsi : si ≠ .fullSdu) :
    (rlcUmWriteDataPduHeader (ent.pduHeader si)).length =
      if ent.nextSo = 0 then ent.headLenFirst else ent.headLenNotFirst := by
  have hsi' : (ent.pduHeader si).si ≠ .fullSdu := hsi
  have hsn : (ent.pduHeader si).snSize = ent.cfg.snFieldLength := rfl
  rw [length_rlcUmWriteDataPduHeader, rlcUmNrPackedLength, if_neg hsi', h.pduHeader_so, headLenFirst,
    headLenNotFirst, hsn]
  by_cases hzero : ent.nextSo = 0
  · rw [if_neg (not_not.mpr hzero), if_pos hzero]
    cases ent.cfg.snFieldLength <;> rfl
  · rw [if_pos hzero, if_neg hzero]
    cases ent.cfg.snFieldLength <;> rfl

theorem pos_headLenFirst (ent : RlcTxUmEntity) : 0 < ent.headLenFirst := by
  rw [headLenFirst]
  cases ent.cfg.snFieldLength <;> decide

theorem pdu_ne_nil (header : RlcUmPduHeader) (hne : payload ≠ []) :
    rlcUmWriteDataPduHeader header ++ payload ≠ [] :=
  fun hnil => hne (List.append_eq_nil_iff.mp hnil).2

theorem headLenFirst_le (ent : RlcTxUmEntity) : ent.headLenFirst ≤ ent.headLenNotFirst := by
  rw [headLenFirst, headLenNotFirst]
  cases ent.cfg.snFieldLength <;> decide

theorem Synced.transferred_none (h : Synced ent rx n begun) (hne : ent.sdu.buf ≠ [])
    (hsmall : grantLen ≤ ent.headLenNotFirst) : Transferred ent rx begun grantLen (ent, []) :=
  ⟨rfl, rfl, Nat.zero_le _, fun hlarge => absurd hlarge (Nat.not_lt.mpr hsmall),
    fun hbuilt => absurd rfl hbuilt, rx, n, begun, [], rfl, h, by simp, by rw [if_neg hne]; rfl⟩

theorem Synced.transferred_fullSdu (h : Synced ent rx n begun) (hne : ent.sdu.buf ≠ [])
    (hzero : ent.nextSo = 0) (hfits : ent.sdu.buf.length + 1 ≤ grantLen) :
    Transferred ent rx begun grantLen (ent.advance .fullSdu ent.sdu.buf.length,
      rlcUmWriteDataPduHeader (ent.pduHeader .fullSdu) ++ ent.sdu.buf) := by
  have hlength : (rlcUmWriteDataPduHeader (ent.pduHeader .fullSdu)).length = 1 := by
    rw [length_rlcUmWriteDataPduHeader]
    rfl
  have hpdu := pdu_ne_nil (ent.pduHeader .fullSdu) hne
  have hpayload : umPayload ent.cfg.snFieldLength
      (rlcUmWriteDataPduHeader (ent.pduHeader .fullSdu) ++ ent.sdu.buf) = ent.sdu.buf := umPayload_fullSdu rfl
  have hwhole : [ent.sdu.buf].flatten = ent.sdu.buf := List.append_nil _
  have hsdus : [[ent.sdu.buf]].flatMap handedUp = [ent.sdu.buf] := congrArg (fun sdu => [sdu]) hwhole
  refine ⟨rfl, rfl, ?_, fun _ => hpdu, fun _ => by rwa [hpayload], rx, n, [], [[ent.sdu.buf]], ?_, ?_, ?_, ?_⟩
  · rw [List.length_append, hlength]
    omega
  · rw [if_neg hpdu, hsdus]
    exact handlePdus_single (handlePdu_write_fullSdu rfl h.snSize.symm hne)
  · exact ⟨h.snSize, h.txNext, Nat.two_pow_pos 16, fun hso => absurd rfl hso, fun _ => rfl, rfl,
      fun _ => h.idle hzero, fun hso => absurd rfl hso⟩
  · rw [if_neg hpdu, hpayload, h.fresh hzero]
    rfl
  · rw [List.map_singleton, hwhole]
    rfl

theorem take_append_next (buf : List UInt8) (so len : Nat) :
    buf.take so ++ (buf.drop so).take len = buf.take (so + len) := by
  rw [List.take_add]

theorem take_next_ne_nil {buf : List UInt8} {so len : Nat} (hpos : 0 < len) (hless : so < buf.length) :
    (buf.drop so).take len ≠ [] := by
  intro hnil
  have := congrArg List.length hnil
  rw [List.length_take, List.length_drop, List.length_nil] at this
  omega

variable {payloadLen : Nat}

section
variable (h : Synced ent rx n begun)
include h

/-- A segment with which the SDU goes on. -/
theorem Synced.transferred_segment (hsi : si ≠ .fullSdu) (hso : si ≠ .firstSegment ↔ ent.nextSo ≠ 0)
    (hadvance : ent.advance si payloadLen = ent.advance .middleSegment payloadLen)
    (hpos : 0 < payloadLen) (hless : ent.nextSo + payloadLen < ent.sdu.buf.length)
    (hfits : payloadLen + (if ent.nextSo = 0 then ent.headLenFirst else ent.headLenNotFirst) ≤ grantLen)
    (hreceived : ∃ rx' output, rx.handleParsedPdu (ent.pduHeader si) ((ent.sdu.buf.drop ent.nextSo).take payloadLen) =
      .ok (rx', output) ∧ output.sdus = [] ∧ rx'.cfg = rx.cfg ∧
        rx'.Receiving n (begun ++ [(ent.sdu.buf.drop ent.nextSo).take payloadLen])) :
    Transferred ent rx begun grantLen (ent.advance si payloadLen,
      rlcUmWriteDataPduHeader (ent.pduHeader si) ++ (ent.sdu.buf.drop ent.nextSo).take payloadLen) := by
  have hbuf : ent.sdu.buf ≠ [] := by
    intro hnil
    rw [hnil, List.length_nil] at hless
    omega
  have hnextSo : (ent.advance .middleSegment payloadLen).nextSo = ent.nextSo + payloadLen := rfl
  obtain ⟨rx', output, hparsed, hsdus, hcfg, hreceiving⟩ := hreceived
  have hne := take_next_ne_nil hpos (by omega : ent.nextSo < ent.sdu.buf.length)
  have hpdu := pdu_ne_nil (ent.pduHeader si) hne
  have hpayload := h.umPayload_segment hsi hso ((ent.sdu.buf.drop ent.nextSo).take payloadLen)
  rw [hadvance]
  refine ⟨rfl, rfl, ?_, fun _ => hpdu, fun _ => by rwa [hpayload], rx', n,
    begun ++ [(ent.sdu.buf.drop ent.nextSo).take payloadLen], [], ?_, ?_, ?_, ?_⟩
  · rw [List.length_append, h.length_header hsi, List.length_take]
    omega
  · exact handlePdus_segment (h.segment hsi hso) h.snSize.symm hne hparsed hsdus
  · refine ⟨?_, h.txNext, h.length, fun _ => hless, fun hso => ?_, ?_, fun hso => ?_, fun _ => hreceiving⟩
    · rw [hcfg]
      exact h.snSize
    · rw [hnextSo] at hso
      omega
    · rw [List.flatten_append, h.sent, List.flatten_singleton]
      exact take_append_next _ _ _
    · rw [hnextSo] at hso
      omega
  · rw [if_neg hpdu, hpayload]
    rfl
  · show [] ++ (if ent.sdu.buf = [] then [] else [ent.sdu.buf]) = _
    rw [if_neg hbuf, List.nil_append]

theorem Synced.transferred_firstSegment (hzero : ent.nextSo = 0)
    (hpos : 0 < payloadLen) (hless : payloadLen < ent.sdu.buf.length)
    (hfits : payloadLen + ent.headLenFirst ≤ grantLen) :
    Transferred ent rx begun grantLen (ent.advance .firstSegment payloadLen,
      rlcUmWriteDataPduHeader (ent.pduHeader .firstSegment) ++
        (ent.sdu.buf.drop ent.nextSo).take payloadLen) := by
  refine h.transferred_segment (by decide) ⟨fun hfirst => absurd rfl hfirst, fun hso => absurd hzero hso⟩ rfl hpos
    (by omega) (by rwa [if_pos hzero]) ?_
  have hreceived := (h.idle hzero).firstSegment rfl (h.pduHeader_sn _) ((h.pduHeader_so _).trans hzero)
    (take_next_ne_nil hpos (by omega : ent.nextSo < ent.sdu.buf.length))
  rw [h.fresh hzero]
  exact hreceived

theorem Synced.transferred_middleSegment (hstarted : ent.nextSo ≠ 0)
    (hpos : 0 < payloadLen) (hless : ent.nextSo + payloadLen < ent.sdu.buf.length)
    (hfits : payloadLen + ent.headLenNotFirst ≤ grantLen) :
    Transferred ent rx begun grantLen (ent.advance .middleSegment payloadLen,
      rlcUmWriteDataPduHeader (ent.pduHeader .middleSegment) ++
        (ent.sdu.buf.drop ent.nextSo).take payloadLen) := by
  refine h.transferred_segment (by decide) ⟨fun _ => hstarted, fun _ => by decide⟩ rfl hpos hless
    (by rwa [if_neg hstarted]) ?_
  have hlength : begun.flatten.length = ent.nextSo := by
    rw [h.sent, List.length_take]
    omega
  exact (h.receiving hstarted).middleSegment rfl (h.pduHeader_sn _)
    ((h.pduHeader_so _).trans hlength.symm) (take_next_ne_nil hpos (by omega : ent.nextSo < ent.sdu.buf.length))

theorem Synced.transferred_lastSegment (hstarted : ent.nextSo ≠ 0)
    (hfits : ent.sdu.buf.length - ent.nextSo + ent.headLenNotFirst ≤ grantLen) :
    Transferred ent rx begun grantLen (ent.advance .lastSegment (ent.sdu.buf.length - ent.nextSo),
      rlcUmWriteDataPduHeader (ent.pduHeader .lastSegment) ++
        (ent.sdu.buf.drop ent.nextSo).take (ent.sdu.buf.length - ent.nextSo)) := by
  have hless := h.started hstarted
  have hne := take_next_ne_nil (by omega : 0 < ent.sdu.buf.length - ent.nextSo) hless
  have hlast : RlcSiField.lastSegment ≠ .fullSdu := by decide
  have hso : RlcSiField.lastSegment ≠ .firstSegment ↔ ent.nextSo ≠ 0 := ⟨fun _ => hstarted, fun _ => by decide⟩
  have hlength : begun.flatten.length = ent.nextSo := by
    rw [h.sent, List.length_take]
    omega
  obtain ⟨rx', output, hparsed, hsdus, hcfg, hidle⟩ :=
    @Receiving.lastSegment rx n begun _ (ent.pduHeader .lastSegment) (h.receiving hstarted) rfl
      (h.pduHeader_sn _) ((h.pduHeader_so _).trans hlength.symm) hne
  have hpdu := pdu_ne_nil (ent.pduHeader .lastSegment) hne
  have hpayload :=
    h.umPayload_segment hlast hso ((ent.sdu.buf.drop ent.nextSo).take (ent.sdu.buf.length - ent.nextSo))
  have hwhole : (begun ++ [(ent.sdu.buf.drop ent.nextSo).take (ent.sdu.buf.length - ent.nextSo)]).flatten =
      ent.sdu.buf := by
    rw [List.flatten_append, h.sent, List.flatten_singleton, take_append_next,
      List.take_of_length_le (by omega)]
  refine ⟨rfl, rfl, ?_, fun _ => hpdu, fun _ => by rwa [hpayload], rx', n + 1, [],
    [begun ++ [(ent.sdu.buf.drop ent.nextSo).take (ent.sdu.buf.length - ent.nextSo)]], ?_, ?_, ?_, ?_⟩
  · rw [List.length_append, h.length_header (by decide), if_neg hstarted, List.length_take,
      List.length_drop]
    omega
  · rw [List.flatMap_singleton]
    exact handlePdus_segment (h.segment hlast hso) h.snSize.symm hne hparsed hsdus
  · refine ⟨?_, ?_, Nat.two_pow_pos 16, fun hso => absurd rfl hso, fun _ => rfl, rfl, fun _ => hidle,
      fun hso => absurd rfl hso⟩
    · rw [hcfg]
      exact h.snSize
    · show (ent.txNext + 1) % ent.mod = (n + 1) % ent.mod
      rw [h.txNext, succ_mod_mod]
  · rw [if_neg hpdu, hpayload, List.flatten_singleton, List.append_nil]
  · rw [List.map_singleton, hwhole]
    rfl

end

theorem buildPdu_some {headLen : Nat}
    (hsi : ent.getSiAndExpectedHeaderSize ent.nextSo ent.sdu.buf.length grantLen = some (si, headLen))
    (hpayload : (if grantLen - (rlcUmWriteDataPduHeader (ent.pduHeader si)).length ≥
        ent.sdu.buf.length - ent.nextSo then ent.sdu.buf.length - ent.nextSo
      else grantLen - (rlcUmWriteDataPduHeader (ent.pduHeader si)).length) = payloadLen)
    (hpos : 0 < payloadLen) (hle : ent.nextSo + payloadLen ≤ ent.sdu.buf.length) :
    ent.buildPdu grantLen = (ent.advance si payloadLen,
      rlcUmWriteDataPduHeader (ent.pduHeader si) ++
        (ent.sdu.buf.drop ent.nextSo).take payloadLen) := by
  have hlength : ((ent.sdu.buf.drop ent.nextSo).take payloadLen).length = payloadLen := by
    rw [List.length_take, List.length_drop]
    omega
  rw [RlcTxUmEntity.buildPdu, hsi]
  dsimp only
  rw [hpayload, hlength, if_neg (by omega)]

/-- Every PDU for the SDU under transmission fits its grant and is understood by the receiver. -/
theorem Synced.buildPdu (h : Synced ent rx n begun) (hne : ent.sdu.buf ≠ [])
    (hgrant : ent.headLenFull < grantLen) : Transferred ent rx begun grantLen (ent.buildPdu grantLen) := by
  have hpos := List.length_pos_iff.mpr hne
  have hhead : ent.headLenFull = 1 := rfl
  by_cases hzero : ent.nextSo = 0
  · by_cases hfull : ent.sdu.buf.length ≤ grantLen - ent.headLenFull
    · have hlength : (rlcUmWriteDataPduHeader (ent.pduHeader .fullSdu)).length = 1 := by
        rw [length_rlcUmWriteDataPduHeader]
        rfl
      have htake : (ent.sdu.buf.drop ent.nextSo).take ent.sdu.buf.length = ent.sdu.buf := by
        rw [hzero, List.drop_zero, List.take_length]
      have hsi : ent.getSiAndExpectedHeaderSize ent.nextSo ent.sdu.buf.length grantLen =
          some (.fullSdu, ent.headLenFull) := by
        rw [getSiAndExpectedHeaderSize, if_pos hzero, if_pos hfull]
      rw [buildPdu_some hsi (by rw [hlength, hzero, Nat.sub_zero, if_pos (by omega)]) hpos
        (by omega), htake]
      exact h.transferred_fullSdu hne hzero (by omega)
    · have hfirst := ent.pos_headLenFirst
      by_cases hsmall : grantLen ≤ ent.headLenFirst
      · rw [RlcTxUmEntity.buildPdu, getSiAndExpectedHeaderSize, if_pos hzero, if_neg hfull,
          if_pos hsmall]
        exact h.transferred_none hne (hsmall.trans ent.headLenFirst_le)
      · have hsi : ent.getSiAndExpectedHeaderSize ent.nextSo ent.sdu.buf.length grantLen =
            some (.firstSegment, ent.headLenFirst) := by
          rw [getSiAndExpectedHeaderSize, if_pos hzero, if_neg hfull, if_neg hsmall]
        rw [buildPdu_some hsi (by rw [h.length_header (by decide), if_pos hzero, if_neg (by omega)])
          (by omega) (by omega)]
        exact h.transferred_firstSegment hzero (by omega) (by omega) (by omega)
  · have hstarted := h.started hzero
    by_cases hsmall : grantLen ≤ ent.headLenNotFirst
    · rw [RlcTxUmEntity.buildPdu, getSiAndExpectedHeaderSize, if_neg hzero, if_pos hsmall]
      exact h.transferred_none hne hsmall
    · by_cases hlast : ent.sdu.buf.length - ent.nextSo ≤ grantLen - ent.headLenNotFirst
      · have hsi : ent.getSiAndExpectedHeaderSize ent.nextSo ent.sdu.buf.length grantLen =
            some (.lastSegment, ent.headLenNotFirst) := by
          rw [getSiAndExpectedHeaderSize, if_neg hzero, if_neg hsmall, if_pos hlast]
        rw [buildPdu_some hsi (by rw [h.length_header (by decide), if_neg hzero, if_pos hlast])
          (by omega) (by omega)]
        exact h.transferred_lastSegment hzero (by omega)
      · have hsi : ent.getSiAndExpectedHeaderSize ent.nextSo ent.sdu.buf.length grantLen =
            some (.middleSegment, ent.headLenNotFirst) := by
          rw [getSiAndExpectedHeaderSize, if_neg hzero, if_neg hsmall, if_neg hlast]
        rw [buildPdu_some hsi (by rw [h.length_header (by decide), if_neg hzero, if_neg hlast])
          (by omega) (by omega)]
        exact h.transferred_middleSegment hzero (by omega) (by omega) (by omega)

/-- The SDU to transmit is the first one that is not completely transmitted. -/
theorem Synced.readSdu (h : Synced ent rx n begun) (hready : ent.QueueReady) :
    ∃ ready found transmitted, ent.readSdu = .ok (ready, found, transmitted) ∧
      ready.cfg = ent.cfg ∧ ready.QueueReady ∧ Synced ready rx n begun ∧
      ready.pendingSdus = ent.pendingSdus ∧ (found = true → ready.sdu.buf ≠ []) ∧
      (found = false → ent.pendingSdus = []) := by
  by_cases hbuf : ent.sdu.buf = []
  · have hzero : ent.nextSo = 0 := by
      by_contra hso
      have := h.started hso
      rw [hbuf, List.length_nil] at this
      omega
    have hempty : ¬ (!ent.sdu.buf.isEmpty) = true := by
      rw [hbuf]
      decide
    rw [RlcTxUmEntity.readSdu, if_neg hempty, if_neg (not_not.mpr hzero)]
    cases hqueue : ent.sduQueue.queue with
    | nil =>
      rw [RlcSduQueue.read_nil hqueue]
      refine ⟨ent, false, [], rfl, rfl, hready, h, rfl, fun hfound => (by cases hfound), fun _ => ?_⟩
      rw [pendingSdus, if_pos hbuf, hqueue]
      rfl
    | cons sdu rest =>
      obtain ⟨queue, hread, hfifo, hrest⟩ := hready.fifo.read hqueue
      have hlengths := hready.lengths
      rw [hqueue, List.forall_mem_cons] at hlengths
      rw [hread]
      refine ⟨_, true, _, rfl, rfl, ⟨hfifo, ?_⟩, ?_, ?_, fun _ => hlengths.1.1, fun hfound => (by cases hfound)⟩
      · rw [hrest]
        exact hlengths.2
      · refine ⟨h.snSize, h.txNext, hlengths.1.2, fun hso => absurd hzero hso, h.fresh, ?_, h.idle,
          fun hso => absurd hzero hso⟩
        rw [h.fresh hzero, hzero]
        rfl
      · show (if sdu.buf = [] then [] else [sdu.buf]) ++ queue.queue.map (·.buf) =
          ent.pendingSdus
        rw [pendingSdus, if_neg hlengths.1.1, if_pos hbuf, hrest, hqueue]
        rfl
  · have hfound : (!ent.sdu.buf.isEmpty) = true := by
      cases hlist : ent.sdu.buf with
      | nil => exact absurd hlist hbuf
      | cons byte rest => rfl
    rw [RlcTxUmEntity.readSdu, if_pos hfound]
    exact ⟨ent, true, [], rfl, rfl, hready, h, rfl, fun _ => hbuf, fun hfound => (by cases hfound)⟩

end Build
end RlcTxUmEntity

namespace TxUmRun
open RlcTxUmEntity

def payloads (run : TxUmRun) : List (List UInt8) :=
  run.pdus.map fun pdu => umPayload run.ent.cfg.snFieldLength pdu.2

/-- The PDUs carry the accepted SDUs in order: `sent` has, for each SDU that is completely transmitted,
the pieces in which the PDUs carry it, and `begun` those of the next SDU, of which bytes are missing. -/
structure Carries (run : TxUmRun) (sent : List (List (List UInt8))) (begun : List (List UInt8)) :
    Prop where
  payloads_eq : run.payloads = sent.flatten ++ begun
  nonempty : ∀ payload ∈ run.payloads, payload ≠ []
  accepted_eq : ∃ later, run.accepted = sent.map List.flatten ++ later ∧
    (begun = [] ∨ ∃ sdu rest, later = sdu :: rest ∧ begun.flatten <+: sdu ∧ begun.flatten.length < sdu.length)

/-- What holds between the run of the transmitter and a receiver that gets all its PDUs. -/
structure TransferInv (cfg : RlcTxUmConfig) (rx₀ : RlcRxUmEntity) (run : TxUmRun) : Prop where
  cfg : run.ent.cfg = cfg
  ready : run.ent.QueueReady
  fits : ∀ pdu ∈ run.pdus, pdu.2.length ≤ pdu.1
  nonempty : ∀ payload ∈ run.payloads, payload ≠ []
  received : ∃ rx n begun, ∃ sent : List (List (List UInt8)),
    rx₀.handlePdus (run.pdus.map (·.2)) = .ok (rx, sent.flatMap handedUp) ∧ run.ent.Synced rx n begun ∧
    run.payloads = sent.flatten ++ begun ∧ run.accepted = sent.map List.flatten ++ run.ent.pendingSdus

section Steps
variable {cfg : RlcTxUmConfig} {rx₀ : RlcRxUmEntity} {run : TxUmRun}

def ValidSdu : TxUmEvent → Prop
  | .handleSdu sduBuf _ => 1 ≤ sduBuf.length ∧ sduBuf.length ≤ 65535
  | .pullPdu _ => True

section
variable (h : TransferInv cfg rx₀ run)
include h

theorem TransferInv.carries :
    ∃ rx sent begun, rx₀.handlePdus (run.pdus.map (·.2)) = .ok (rx, sent.flatMap handedUp) ∧
      run.Carries sent begun ∧ run.accepted = sent.map List.flatten ++ run.ent.pendingSdus := by
  obtain ⟨rx, n, begun, sent, hreceived, hsynced, hpayloads, haccepted⟩ := h.received
  refine ⟨rx, sent, begun, hreceived, ⟨hpayloads, h.nonempty, _, haccepted, ?_⟩, haccepted⟩
  by_cases hzero : run.ent.nextSo = 0
  · exact .inl (hsynced.fresh hzero)
  · have hstarted := hsynced.started hzero
    have hbuf : run.ent.sdu.buf ≠ [] := by
      intro hnil
      rw [hnil] at hstarted
      cases hstarted
    refine .inr ⟨run.ent.sdu.buf, run.ent.sduQueue.queue.map (·.buf), ?_, ?_, ?_⟩
    · rw [pendingSdus, if_neg hbuf]
      rfl
    · rw [hsynced.sent]
      exact List.take_prefix _ _
    · rw [hsynced.sent, List.length_take]
      omega

theorem TransferInv.handleSdu {sduBuf : List UInt8} {isRetx : Bool}
    (hvalid : ValidSdu (.handleSdu sduBuf isRetx)) :
    ∃ run', run.next (.handleSdu sduBuf isRetx) = .ok run' ∧ TransferInv cfg rx₀ run' := by
  let sdu : RlcSdu := { buf := sduBuf, pdcpSn := getPdcpSn sduBuf run.ent.cfg.pdcpSnLen false }
  have hwritten : (run.ent.sduQueue).Written sdu (run.ent.sduQueue.write sdu) := by
    apply h.ready.fifo.write
    intro p hp
    have hlt : p < 2 ^ run.ent.cfg.pdcpSnLen.toNumber := getPdcpSn_lt hp
    have hbound : 2 ^ run.ent.cfg.pdcpSnLen.toNumber ≤ stateDiscarded := by
      cases run.ent.cfg.pdcpSnLen <;> decide
    exact hlt.trans_le hbound
  obtain ⟨rx, n, begun, sent, hreceived, hsynced, hpayloads, haccepted⟩ := h.received
  refine ⟨_, rfl, h.cfg, ⟨hwritten.fifo, ?_⟩, h.fits, h.nonempty, rx, n, begun, sent, hreceived, ?_, hpayloads, ?_⟩
  · intro other hmem
    have hqueue := hwritten.queue
    have hmem' : other ∈ run.ent.sduQueue.queue ++
        if (run.ent.sduQueue.write sdu).2 then [sdu] else [] := by
      rw [← hqueue]
      exact hmem
    rcases List.mem_append.mp hmem' with hold | hnew
    · exact h.ready.lengths other hold
    · split at hnew
      · rw [List.mem_singleton.mp hnew]
        obtain ⟨hpos, hmax⟩ := hvalid
        exact ⟨List.length_pos_iff.mp hpos, Nat.lt_succ_of_le hmax⟩
      · cases hnew
  · exact { hsynced with }
  · show run.accepted ++ (if (run.ent.sduQueue.write sdu).2 then [sduBuf] else []) =
      sent.map List.flatten ++ ((if run.ent.sdu.buf = [] then [] else [run.ent.sdu.buf]) ++
        (run.ent.sduQueue.write sdu).1.queue.map (·.buf))
    rw [hwritten.queue, haccepted, pendingSdus, List.map_append, List.append_assoc, List.append_assoc]
    congr 3
    split <;> rfl

/-- A grant with room for a byte behind the largest header is used while SDUs are pending. -/
theorem TransferInv.pullPdu (grant : Nat) :
    ∃ run', run.next (.pullPdu grant) = .ok run' ∧ TransferInv cfg rx₀ run' ∧
      (run.ent.headLenNotFirst < grant % 2 ^ 32 → run.ent.pendingSdus ≠ [] →
        run'.pdus.length = run.pdus.length + 1) := by
  obtain ⟨rx, n, begun, sent, hreceived, hsynced, hpayloads, haccepted⟩ := h.received
  have hfull : run.ent.headLenFull ≤ run.ent.headLenNotFirst :=
    run.ent.pos_headLenFirst.trans_le run.ent.headLenFirst_le
  rw [next, RlcTxUmEntity.pullPdu]
  by_cases hsmall : grant % 2 ^ 32 ≤ run.ent.headLenFull
  · dsimp only
    rw [if_pos hsmall]
    refine ⟨run, ?_, h, fun hlarge _ => absurd (hlarge.trans_le hsmall) (Nat.not_lt.mpr hfull)⟩
    rw [Checked.ok_bind, if_pos rfl, List.append_nil]
    rfl
  · obtain ⟨ready, found, transmitted, hread, hcfg, hqueue, hsynced', hpending, hfound, hnone⟩ :=
      hsynced.readSdu h.ready
    dsimp only
    rw [if_neg hsmall, hread]
    dsimp only [ok_bind]
    cases found with
    | false =>
      have hkept : run.pdus ++ [] = run.pdus := List.append_nil _
      refine ⟨{ run with ent := ready }, ?_,
        ⟨hcfg.trans h.cfg, hqueue, h.fits, ?_, rx, n, begun, sent, hreceived, hsynced', ?_, ?_⟩,
        fun _ hsome => absurd (hnone rfl) hsome⟩
      · show Except.ok { run with ent := ready, pdus := run.pdus ++ [] } = _
        rw [hkept]
      · rw [payloads, hcfg]
        exact h.nonempty
      · rw [payloads, hcfg]
        exact hpayloads
      · rw [hpending]
        exact haccepted
    | true =>
      have hgrant : ready.headLenFull < grant % 2 ^ 32 := Nat.lt_of_not_le hsmall
      have hbuilt := hsynced'.buildPdu (hfound rfl) hgrant
      rw [if_pos rfl]
      generalize ready.buildPdu (grant % 2 ^ 32) = built at hbuilt ⊢
      obtain ⟨rx', n', begun', more, hpdu, hsynced'', hpieces, hsdus⟩ := hbuilt.received
      have hsize : built.1.cfg.snFieldLength = run.ent.cfg.snFieldLength := by rw [hbuilt.cfg, hcfg]
      have hmap : (run.pdus ++ if built.2 = [] then [] else [(grant, built.2)]).map (·.2) =
          run.pdus.map (·.2) ++ if built.2 = [] then [] else [built.2] := by
        rw [List.map_append]
        split <;> rfl
      let run' : TxUmRun :=
        { ent := built.1
          accepted := run.accepted
          pdus := run.pdus ++ if built.2 = [] then [] else [(grant, built.2)] }
      have hrun' : run'.payloads =
          run.payloads ++ if built.2 = [] then [] else [umPayload ready.cfg.snFieldLength built.2] := by
        rw [payloads, payloads, hsize, hcfg, List.map_append]
        split <;> rfl
      refine ⟨run', rfl, ⟨hbuilt.cfg.trans (hcfg.trans h.cfg), ?_, ?_, ?_, rx', n', begun', sent ++ more, ?_,
        hsynced'', ?_, ?_⟩, ?_⟩
      · refine ⟨?_, ?_⟩
        · rw [hbuilt.queue]
          exact hqueue.fifo
        · rw [hbuilt.queue]
          exact hqueue.lengths
      · intro pdu hmem
        rcases List.mem_append.mp hmem with hold | hnew
        · exact h.fits pdu hold
        · split at hnew
          · cases hnew
          · rw [List.mem_singleton.mp hnew]
            exact hbuilt.fits.trans (Nat.mod_le _ _)
      · rw [hrun', List.forall_mem_append]
        refine ⟨h.nonempty, ?_⟩
        split
        · exact fun _ hmem => absurd hmem List.not_mem_nil
        · exact List.forall_mem_singleton.mpr (hbuilt.carries ‹_›)
      · show rx₀.handlePdus ((run.pdus ++ if built.2 = [] then [] else [(grant, built.2)]).map (·.2)) = _
        rw [hmap, List.flatMap_append]
        exact handlePdus_append hreceived hpdu
      · rw [hrun', hpayloads, List.append_assoc, hpieces, List.flatten_append, List.append_assoc]
      · show run.accepted = (sent ++ more).map List.flatten ++ built.1.pendingSdus
        rw [haccepted, ← hpending, pendingSdus, pendingSdus, if_neg (hfound rfl), hbuilt.queue,
          ← hsdus, List.map_append, List.append_assoc, List.append_assoc]
      · intro hlarge _
        have hlarge' : ready.headLenNotFirst < grant % 2 ^ 32 := by
          rw [headLenNotFirst, hcfg]
          exact hlarge
        show (run.pdus ++ if built.2 = [] then [] else [(grant, built.2)]).length = _
        rw [if_neg (hbuilt.built hlarge'), List.length_append]
        rfl

theorem TransferInv.all {events : List TxUmEvent} (hvalid : ∀ event ∈ events, ValidSdu event) :
    ∃ run', run.all events = .ok run' ∧ TransferInv cfg rx₀ run' := by
  induction events generalizing run with
  | nil => exact ⟨run, rfl, h⟩
  | cons event rest ih =>
    rw [List.forall_mem_cons] at hvalid
    have hnext : ∃ run', run.next event = .ok run' ∧ TransferInv cfg rx₀ run' := by
      cases event with
      | handleSdu sduBuf isRetx => exact h.handleSdu hvalid.1
      | pullPdu grant =>
        obtain ⟨run', hnext, hinv, -⟩ := h.pullPdu grant
        exact ⟨run', hnext, hinv⟩
    obtain ⟨run', hnext, hinv⟩ := hnext
    obtain ⟨last, hlast, hinv'⟩ := ih hinv hvalid.2
    refine ⟨last, ?_, hinv'⟩
    rw [TxUmRun.all, hnext]
    exact hlast

end

theorem create_transferInv (cfg : RlcTxUmConfig) {rxCfg : RlcRxUmConfig}
    (hsize : rxCfg.snFieldLength = cfg.snFieldLength) :
    TransferInv cfg (create rxCfg) { ent := create cfg } where
  cfg := rfl
  ready := ⟨RlcSduQueue.fifo_create cfg.queue, fun _ hmem => absurd hmem List.not_mem_nil⟩
  fits := fun _ hmem => absurd hmem List.not_mem_nil
  nonempty := fun _ hmem => absurd hmem List.not_mem_nil
  received := by
    have hmod : (create rxCfg).mod = (create cfg).mod := by
      show cardinality rxCfg.snFieldLength.toNumber = cardinality cfg.snFieldLength.toNumber
      rw [hsize]
    refine ⟨create rxCfg, (create rxCfg).mod, [], [], rfl, ?_, rfl, rfl⟩
    refine ⟨hsize, ?_, Nat.two_pow_pos 16, fun hso => absurd rfl hso, fun _ => rfl, rfl,
      fun _ => create_idle rxCfg, fun hso => absurd rfl hso⟩
    rw [hmod, Nat.mod_self]
    rfl

end Steps

/-- Every PDU fits its grant, and each grant with room behind the largest header is used while an SDU
is not completely transmitted. A receiver of the same SN size that gets the PDUs in order delivers the
SDUs that are, apart from those that came in more pieces than a chain has slices. -/
theorem umTransfer_lossless (cfg : RlcTxUmConfig) (rxCfg : RlcRxUmConfig)
    (hsize : rxCfg.snFieldLength = cfg.snFieldLength) (events : List TxUmEvent)
    (hvalid : ∀ event ∈ events, ValidSdu event) :
    ∃ run, TxUmRun.all { ent := create cfg } events = .ok run ∧
      (∀ pdu ∈ run.pdus, pdu.2.length ≤ pdu.1) ∧
      ∃ rx sent begun, run.Carries sent begun ∧
        (create rxCfg).handlePdus (run.pdus.map (·.2)) = .ok (rx, sent.flatMap handedUp) ∧
        ∀ grant, rlcUmPduHeaderSizeWithSo cfg.snFieldLength < grant % 2 ^ 32 →
          sent.length < run.accepted.length → ∃ run', run.next (.pullPdu grant) = .ok run' ∧
            run'.pdus.length = run.pdus.length + 1 := by
  obtain ⟨run, hrun, hinv⟩ := (create_transferInv cfg hsize).all hvalid
  obtain ⟨rx, sent, begun, hreceived, hcarries, haccepted⟩ := hinv.carries
  refine ⟨run, hrun, hinv.fits, rx, sent, begun, hcarries, hreceived, fun grant hlarge hless => ?_⟩
  obtain ⟨run', hnext, -, hbuilt⟩ := hinv.pullPdu grant
  refine ⟨run', hnext, hbuilt ?_ fun hnil => ?_⟩
  · rw [headLenNotFirst, hinv.cfg]
    exact hlarge
  · rw [haccepted, hnil, List.append_nil, List.length_map] at hless
    exact absurd hless (Nat.lt_irrefl _)

def shortSnConfig : RlcTxUmConfig :=
  { snFieldLength := .size6bits, pdcpSnLen := .size12bits, queue := { capacity := 16, byteLimit := 100 } }

/-- An SDU in one PDU, then one in two segments of which the second has to wait for a larger grant, and
the first segment of a third one. -/
theorem umTransfer_lossless_segmented :
    ∃ run, TxUmRun.all { ent := create shortSnConfig }
        [.handleSdu [0x10, 0x20] false, .pullPdu 3, .handleSdu [0x11, 0x21, 0x31, 0x41] false, .pullPdu 3,
          .pullPdu 3, .pullPdu 5, .handleSdu [0x12, 0x22, 0x32] false, .pullPdu 3] = .ok run ∧
      (∀ pdu ∈ run.pdus, pdu.2.length ≤ pdu.1) ∧
      ∃ rx sent begun, run.Carries sent begun ∧
        (create { snFieldLength := .size6bits, tReassembly := 35 }).handlePdus
          (run.pdus.map (·.2)) = .ok (rx, sent.flatMap handedUp) ∧
        ∀ grant, 3 < grant % 2 ^ 32 → sent.length < run.accepted.length →
          ∃ run', run.next (.pullPdu grant) = .ok run' ∧ run'.pdus.length = run.pdus.length + 1 :=
  umTransfer_lossless shortSnConfig _ rfl _ (by simp [ValidSdu])

/-- An SDU of one byte more than a chain has slices, and grants for one byte of it each. -/
def byteGrants : List TxUmEvent :=
  .handleSdu (List.replicate 52 0) false :: .pullPdu 2 :: List.replicate 51 (.pullPdu 4)

/-- It is completely transmitted, but not delivered. -/
theorem umTransfer_chainFull : ∃ run rx, TxUmRun.all { ent := create shortSnConfig } byteGrants = .ok run ∧
    run.accepted = [List.replicate 52 0] ∧ run.payloads = List.replicate 52 [0] ∧
    (create { snFieldLength := .size6bits, tReassembly := 35 }).handlePdus
      (run.pdus.map (·.2)) = .ok (rx, []) := by
  have hobserved : (TxUmRun.all { ent := create shortSnConfig } byteGrants).map (fun run =>
      (run.accepted, run.payloads, run.ent.pendingSdus)) =
      .ok ([List.replicate 52 0], List.replicate 52 [0], []) := by
    decide +kernel
  have hvalid : ∀ event ∈ byteGrants, ValidSdu event := by simp [byteGrants, ValidSdu]
  have hstart := @create_transferInv shortSnConfig { snFieldLength := .size6bits, tReassembly := 35 } rfl
  obtain ⟨run, hrun, hinv⟩ := hstart.all hvalid
  rw [hrun] at hobserved
  have hruns := Except.ok.inj hobserved
  rw [Prod.mk.injEq, Prod.mk.injEq] at hruns
  obtain ⟨haccepted, hpayloads, hpending⟩ := hruns
  obtain ⟨rx, sent, begun, hreceived, hcarries, hsent⟩ := hinv.carries
  refine ⟨run, rx, hrun, haccepted, hpayloads, hreceived.trans ?_⟩
  rw [hpending, List.append_nil, haccepted] at hsent
  obtain ⟨pieces, rfl, hpieces⟩ := List.map_eq_singleton_iff.mp hsent.symm
  obtain ⟨later, hlater, hbegun⟩ := hcarries.accepted_eq
  rw [haccepted, hsent, List.self_eq_append_right] at hlater
  rcases hbegun with hnil | ⟨sdu, rest, hcons, -⟩
  · have hwhole := hcarries.payloads_eq
    rw [hnil, List.append_nil, List.flatten_singleton, hpayloads] at hwhole
    rw [← hwhole]
    rfl
  · rw [hlater] at hcons
    cases hcons

end TxUmRun
end Srsran.Rlc
