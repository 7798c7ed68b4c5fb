import Srsran.Pdcp.RxState
import Srsran.Pdcp.TxOrder
import Srsran.Support.BitValue

/-! PDCP status report: what the receiving entity compiles and the transmitting entity of the peer
removes from its window. -/
namespace Srsran.Pdcp
open Srsran.Support Srsran.Adt PdcpEntityTx PdcpEntityRx

namespace PdcpEntityRx

def pdcpControlPduMaxSize : Nat := 9000

def bitmapBegin (ent : PdcpEntityRx) : Nat := (ent.st.rxDeliv + 1) % 2 ^ 32

def bitmapEnd (ent : PdcpEntityRx) : Nat :=
  let maxBits := (pdcpControlPduMaxSize - 5) * 8
  if ent.bitmapBegin < ent.st.rxNext ∧ ent.st.rxNext - ent.bitmapBegin > maxBits then
    ent.bitmapBegin + maxBits
  else ent.st.rxNext

def bitmap (ent : PdcpEntityRx) : List Nat :=
  (List.range' ent.bitmapBegin (ent.bitmapEnd - ent.bitmapBegin)).map fun count =>
    if ent.rxWindow.contains count then 1 else 0

/-- `compile_status_report`: D/C, CPT and reserved bits, FMC, bitmap. -/
def compileStatusReport (ent : PdcpEntityRx) : List UInt8 :=
  let enc : BitEncoder := {}
  let enc := enc.pack 0 1
  let enc := enc.pack 0 3
  let enc := enc.pack 0 4
  let enc := enc.pack ent.st.rxDeliv 32
  (ent.bitmap.foldl (fun enc bit => enc.pack bit 1) enc).bytes

/-- The COUNTs that are delivered, or stored within the reported bitmap. -/
def Acknowledges (ent : PdcpEntityRx) (count : Nat) : Prop :=
  count < ent.st.rxDeliv ∨
    (ent.bitmapBegin ≤ count ∧ count < ent.bitmapEnd ∧ ent.rxWindow.contains count = true)

instance {ent : PdcpEntityRx} {count : Nat} : Decidable (ent.Acknowledges count) :=
  inferInstanceAs (Decidable (_ ∨ _))

end PdcpEntityRx

variable {bits : List Nat}

theorem packBits_holds {enc : BitEncoder} {n value : Nat} (h : enc.Holds n value)
    (hbits : ∀ bit ∈ bits, bit < 2) :
    (bits.foldl (fun enc bit => enc.pack bit 1) enc).Holds (n + bits.length)
      (value * 2 ^ bits.length + bitsValue bits) := by
  induction bits using List.reverseRecOn with
  | nil => simpa [bitsValue] using h
  | append_singleton bits bit ih =>
    have hbit : bit < 2 := hbits bit (List.mem_append_right _ List.mem_cons_self)
    have hprev := ih fun other hmem => hbits other (List.mem_append_left _ hmem)
    have hstep := @BitEncoder.pack_holds _ _ _ bit 1 hprev (by decide) (by omega)
    have hvalue : (value * 2 ^ bits.length + bitsValue bits) * 2 ^ 1 + bit % 2 ^ 1 =
        value * 2 ^ (bits.length + 1) + (bitsValue bits * 2 + bit) := by
      rw [Nat.pow_one, Nat.mod_eq_of_lt hbit, Nat.pow_succ]
      ring
    rw [hvalue] at hstep
    rw [List.foldl_append, List.length_append, List.length_singleton, bitsValue_concat]
    exact hstep

variable {ent : PdcpEntityRx}

theorem PdcpEntityRx.bitmap_lt : ∀ bit ∈ ent.bitmap, bit < 2 := by
  intro bit hmem
  obtain ⟨count, _, hbit⟩ := List.mem_map.mp hmem
  rw [← hbit]
  split <;> decide

/-- The report is FMC and bitmap in binary, filled up with zeros. -/
theorem PdcpEntityRx.compileStatusReport_value (hdeliv : ent.st.rxDeliv < 2 ^ 32) :
    ∃ pad, 8 * ent.compileStatusReport.length = 40 + ent.bitmap.length + pad ∧
      bytesValue ent.compileStatusReport =
        (ent.st.rxDeliv * 2 ^ ent.bitmap.length + bitsValue ent.bitmap) * 2 ^ pad := by
  have hdc := @BitEncoder.pack_holds _ _ _ 0 1 BitEncoder.holds_nil (by decide) (by decide)
  have hcpt := @BitEncoder.pack_holds _ _ _ 0 3 hdc (by decide) (by decide)
  have hreserved := @BitEncoder.pack_holds _ _ _ 0 4 hcpt (by decide) (by decide)
  have hfmc := @BitEncoder.pack_holds _ _ _ ent.st.rxDeliv 32 hreserved (by decide) (by omega)
  have hreport := packBits_holds hfmc (@bitmap_lt ent)
  refine ⟨_, hreport.length, ?_⟩
  rw [compileStatusReport, hreport.value_eq, Nat.zero_mod, Nat.zero_mod, Nat.zero_mod, Nat.mod_eq_of_lt hdeliv]
  simp

theorem unpackBits_eq {turns : Nat} {dec : BitDecoder} {n value : Nat} (h : dec.Holds n value)
    (hturns : n ≤ turns) : unpackBits turns dec = valueBits n value := by
  induction turns generalizing dec n value with
  | zero =>
    have hn : n = 0 := Nat.le_zero.mp hturns
    subst hn
    rfl
  | succ turns ih =>
    rw [unpackBits]
    cases n with
    | zero =>
      have hnone := BitDecoder.unpack_of_holds_zero h
      generalize dec.unpack 1 = result at hnone
      obtain ⟨bit, rest⟩ := result
      cases hnone
      rfl
    | succ n =>
      obtain ⟨_, rest, hunpack, hrest⟩ :=
        BitDecoder.unpack_holds h (Nat.succ_le_succ (Nat.zero_le n))
      rw [hunpack, valueBits]
      dsimp only
      rw [Nat.add_sub_cancel] at hrest ⊢
      rw [ih hrest (Nat.le_of_succ_le_succ hturns)]

theorem bitsValue_lt (hbits : ∀ bit ∈ bits, bit < 2) : bitsValue bits < 2 ^ bits.length := by
  induction bits using List.reverseRecOn with
  | nil => exact Nat.one_pos
  | append_singleton bits bit ih =>
    have hbit : bit < 2 := hbits bit (List.mem_append_right _ List.mem_cons_self)
    have hprev := ih fun other hmem => hbits other (List.mem_append_left _ hmem)
    rw [bitsValue_concat, List.length_append, List.length_singleton, Nat.pow_succ]
    omega

theorem bitsValue_cons (bit : Nat) (bits : List Nat) :
    bitsValue (bit :: bits) = bit * 2 ^ bits.length + bitsValue bits := by
  induction bits using List.reverseRecOn with
  | nil => simp [bitsValue]
  | append_singleton bits last ih =>
    rw [← List.cons_append, bitsValue_concat, bitsValue_concat, ih, List.length_append,
      List.length_singleton, Nat.pow_succ]
    ring

theorem valueBits_zero (n : Nat) : valueBits n 0 = List.replicate n 0 := by
  induction n with
  | zero => rfl
  | succ n ih => rw [valueBits, Nat.zero_div, Nat.zero_mod, ih, List.replicate_succ]

/-- The digits of the number that some bits and zeros behind them make. -/
theorem valueBits_bitsValue {pad : Nat} (hbits : ∀ bit ∈ bits, bit < 2) :
    valueBits (bits.length + pad) (bitsValue bits * 2 ^ pad) = bits ++ List.replicate pad 0 := by
  induction bits with
  | nil =>
    rw [List.length_nil, Nat.zero_add, List.nil_append, bitsValue, List.foldl_nil, Nat.zero_mul,
      valueBits_zero]
  | cons bit bits ih =>
    rw [List.forall_mem_cons] at hbits
    have hrest : bitsValue bits * 2 ^ pad < 2 ^ (bits.length + pad) := by
      rw [Nat.pow_add]
      exact Nat.mul_lt_mul_of_pos_right (bitsValue_lt hbits.2) (Nat.two_pow_pos pad)
    have hvalue : bitsValue (bit :: bits) * 2 ^ pad =
        2 ^ (bits.length + pad) * bit + bitsValue bits * 2 ^ pad := by
      rw [bitsValue_cons, Nat.pow_add]
      ring
    rw [List.length_cons, Nat.add_right_comm, valueBits, hvalue,
      Nat.mul_add_div (Nat.two_pow_pos _), Nat.div_eq_of_lt hrest, Nat.add_zero, Nat.mul_add_mod,
      Nat.mod_eq_of_lt hrest, ih hbits.2, List.cons_append]

theorem decodeStatusReport_eq {status : List UInt8} {fmc k tail : Nat}
    (hlength : 8 * status.length = 40 + k) (hvalue : bytesValue status = 2 ^ k * fmc + tail)
    (hfmc : fmc < 2 ^ 32) (htail : tail < 2 ^ k) :
    decodeStatusReport status = some (fmc, valueBits k tail) := by
  have htotal : 2 ^ k * fmc + tail < 2 ^ (k + 32) := by
    have hmul := Nat.mul_le_mul_left (2 ^ k) hfmc
    rw [Nat.mul_succ] at hmul
    rw [Nat.pow_add]
    omega
  -- The header bits are 0 because the rest of the report has only 32 + k bits.
  have hheader : ∀ j ≥ k + 32, (2 ^ k * fmc + tail) / 2 ^ j = 0 ∧
      (2 ^ k * fmc + tail) % 2 ^ j = 2 ^ k * fmc + tail := by
    intro j hj
    have hlt := Nat.lt_of_lt_of_le htotal (Nat.pow_le_pow_right Nat.two_pos hj)
    exact ⟨Nat.div_eq_of_lt hlt, Nat.mod_eq_of_lt hlt⟩
  have hstart := BitDecoder.holds_start status
  rw [hlength, hvalue] at hstart
  obtain ⟨hdc, dec1, hunpack1, hdec1⟩ := @BitDecoder.unpack_holds _ _ _ 1 hstart (by omega)
  rw [(hheader _ (by omega)).1] at hdc hunpack1
  rw [(hheader _ (by omega)).2] at hdec1
  obtain ⟨hcpt, dec2, hunpack2, hdec2⟩ := @BitDecoder.unpack_holds _ _ _ 3 hdec1 (by omega)
  rw [(hheader _ (by omega)).1] at hcpt hunpack2
  rw [(hheader _ (by omega)).2] at hdec2
  obtain ⟨hreserved, dec3, hunpack3, hdec3⟩ := @BitDecoder.unpack_holds _ _ _ 4 hdec2 (by omega)
  rw [(hheader _ (by omega)).1] at hreserved hunpack3
  rw [(hheader _ (by omega)).2] at hdec3
  obtain ⟨hread, dec4, hunpack4, hdec4⟩ := @BitDecoder.unpack_holds _ _ _ 32 hdec3 (by omega)
  have hrest : 40 + k - 1 - 3 - 4 - 32 = k := by omega
  rw [hrest] at hread hdec4
  rw [Nat.mul_add_div (Nat.two_pow_pos k), Nat.div_eq_of_lt htail, Nat.add_zero] at hread
  rw [Nat.mul_add_mod, Nat.mod_eq_of_lt htail] at hdec4
  have hbits : unpackBits (8 * dec4.bytes.length) dec4 = valueBits k tail := by
    apply unpackBits_eq hdec4
    rw [hdec4.length]
    exact Nat.le_add_right _ _
  rw [decodeStatusReport]
  dsimp only
  rw [hdc, hunpack1, hcpt, hunpack2, hreserved, hunpack3, hread, hunpack4, hbits]
  rfl

theorem decodeStatusReport_compile (hdeliv : ent.st.rxDeliv < 2 ^ 32) :
    ∃ pad, decodeStatusReport ent.compileStatusReport =
      some (ent.st.rxDeliv, ent.bitmap ++ List.replicate pad 0) := by
  obtain ⟨pad, hlength, hvalue⟩ := compileStatusReport_value hdeliv
  refine ⟨pad, ?_⟩
  have htail : bitsValue ent.bitmap * 2 ^ pad < 2 ^ (ent.bitmap.length + pad) := by
    rw [Nat.pow_add]
    exact Nat.mul_lt_mul_of_pos_right (bitsValue_lt bitmap_lt) (Nat.two_pow_pos pad)
  have hsplit : bytesValue ent.compileStatusReport =
      2 ^ (ent.bitmap.length + pad) * ent.st.rxDeliv + bitsValue ent.bitmap * 2 ^ pad := by
    rw [hvalue, Nat.pow_add]
    ring
  rw [decodeStatusReport_eq (hlength.trans (Nat.add_assoc _ _ _)) hsplit hdeliv htail,
    valueBits_bitsValue bitmap_lt]

namespace PdcpEntityTx
variable {ent : PdcpEntityTx}

variable {count other : Nat}

theorem get?_discardPdu (htimer : ent.cfg.discardTimer.isSome = true) (hlower : LowerEdge ent)
    (hupper : UpperEdge ent) :
    (ent.discardPdu count).txWindow.get? other =
      if other = count then none else ent.txWindow.get? other := by
  have habsent : ent.txWindow.get? count = none →
      ent.txWindow.get? other = if other = count then none else ent.txWindow.get? other := by
    intro hnone
    split
    · rename_i heq
      rw [heq]
      exact hnone
    · rfl
  rw [discardPdu, if_neg (by rw [← Option.not_isSome, htimer]; exact Bool.false_ne_true)]
  split
  · rename_i houtside
    apply habsent
    cases hget : ent.txWindow.get? count with
    | none => rfl
    | some elem =>
      have hle := hlower count elem hget
      have hlt := hupper count elem hget
      omega
  · split
    · rename_i hmissing
      apply habsent
      rw [PdcpTxWindow.hasSn_eq, Option.isSome_eq_false_iff, Option.isNone_iff_eq_none] at hmissing
      exact hmissing
    · have hwindow : ∀ turns, (skipAbsent turns (ent.dropSdu count)).raiseTxTrans.txWindow =
          ent.txWindow.removeSdu count := by
        intro turns
        exact skipAbsent_frame.1
      dsimp only
      rw [hwindow]
      exact PdcpTxWindow.get?_removeSdu

theorem Trimmed.edges {ent' : PdcpEntityTx} (h : Trimmed ent ent')
    (htimer : ent.cfg.discardTimer.isSome = true) (hlower : LowerEdge ent) (hupper : UpperEdge ent) :
    ent'.cfg.discardTimer.isSome = true ∧ LowerEdge ent' ∧ UpperEdge ent' := by
  refine ⟨?_, h.lowerEdge hlower, h.calm.upperEdge hupper⟩
  rw [h.cfg]
  exact htimer

variable (htimer : ent.cfg.discardTimer.isSome = true)
include htimer

theorem get?_discardRange {turns : Nat} (hlower : LowerEdge ent) (hupper : UpperEdge ent) :
    (discardRange turns count ent).txWindow.get? other =
      if count ≤ other ∧ other < count + turns then none else ent.txWindow.get? other := by
  induction turns generalizing ent count with
  | zero =>
    rw [if_neg (by omega)]
    rfl
  | succ turns ih =>
    obtain ⟨htimer', hlower', hupper'⟩ :=
      (@discardPdu_trimmed ent count).edges htimer hlower hupper
    rw [discardRange, ih htimer' hlower' hupper', get?_discardPdu htimer hlower hupper]
    by_cases heq : other = count
    · rw [if_pos heq, ite_self, if_pos (by omega)]
    · rw [if_neg heq]
      congr 1
      rw [eq_iff_iff]
      omega

theorem get?_discardBitmap {bits : List Nat} {fmc : Nat} (hlower : LowerEdge ent) (hupper : UpperEdge ent) :
    (discardBitmap bits fmc ent).txWindow.get? other =
      if ∃ i, i < bits.length ∧ bits[i]? = some 1 ∧ (fmc + 1 + i) % 2 ^ 32 = other then none
      else ent.txWindow.get? other := by
  induction bits generalizing ent fmc with
  | nil =>
    rw [if_neg (by rintro ⟨i, hi, _⟩; cases hi)]
    rfl
  | cons bit rest ih =>
    -- The rest of the bitmap is that of the next FMC.
    have hrest : (∃ i, i < rest.length ∧ rest[i]? = some 1 ∧
          ((fmc + 1) % 2 ^ 32 + 1 + i) % 2 ^ 32 = other) ∨ (bit = 1 ∧ other = (fmc + 1) % 2 ^ 32) ↔
        ∃ i, i < (bit :: rest).length ∧ (bit :: rest)[i]? = some 1 ∧
          (fmc + 1 + i) % 2 ^ 32 = other := by
      constructor
      · rintro (⟨i, hi, hone, heq⟩ | ⟨hbit, heq⟩)
        · refine ⟨i + 1, Nat.succ_lt_succ hi, hone, ?_⟩
          omega
        · refine ⟨0, Nat.zero_lt_succ _, by rw [hbit]; rfl, heq.symm⟩
      · rintro ⟨i, hi, hone, heq⟩
        cases i with
        | zero => exact Or.inr ⟨Option.some.inj hone, heq.symm⟩
        | succ i =>
          refine Or.inl ⟨i, Nat.lt_of_succ_lt_succ hi, hone, ?_⟩
          omega
    refine Eq.trans ?_ (if_congr hrest rfl rfl)
    rw [discardBitmap]
    by_cases hbit : bit = 1
    · obtain ⟨htimer', hlower', hupper'⟩ :=
        (@discardPdu_trimmed ent ((fmc + 1) % 2 ^ 32)).edges htimer hlower hupper
      rw [if_pos hbit, ih htimer' hlower' hupper', get?_discardPdu htimer hlower hupper]
      by_cases heq : other = (fmc + 1) % 2 ^ 32
      · rw [if_pos heq, ite_self, if_pos (Or.inr ⟨hbit, heq⟩)]
      · rw [if_neg heq]
        simp only [heq, and_false, or_false]
    · rw [if_neg hbit, ih htimer hlower hupper]
      simp only [hbit, false_and, or_false]

/-- A report removes what it declares as received, and nothing else. -/
theorem get?_handleStatusReport {status : List UInt8} {fmc : Nat} {bits : List Nat}
    (hlower : LowerEdge ent) (hupper : UpperEdge ent)
    (hdecode : decodeStatusReport status = some (fmc, bits)) :
    (ent.handleStatusReport status).txWindow.get? count =
      if Reports fmc bits count then none else ent.txWindow.get? count := by
  have hrange : Trimmed ent (discardRange (fmc - ent.st.txNextAck) ent.st.txNextAck ent) :=
    discardRange_trimmed
  obtain ⟨htimer', hlower', hupper'⟩ := hrange.edges htimer hlower hupper
  rw [handleStatusReport, hdecode]
  dsimp only
  rw [get?_discardBitmap htimer' hlower' hupper', get?_discardRange htimer hlower hupper]
  by_cases hbit : ∃ i, i < bits.length ∧ bits[i]? = some 1 ∧ (fmc + 1 + i) % 2 ^ 32 = count
  · rw [if_pos hbit, if_pos (show Reports fmc bits count from Or.inr hbit)]
  · rw [if_neg hbit]
    by_cases hbelow : count < fmc
    · rw [if_pos (show Reports fmc bits count from Or.inl hbelow)]
      by_cases hedge : ent.st.txNextAck ≤ count
      · rw [if_pos (by omega)]
      · rw [if_neg (by omega)]
        cases hget : ent.txWindow.get? count with
        | none => rfl
        | some elem => exact absurd (hlower count elem hget) hedge
    · rw [if_neg (by omega), if_neg (show ¬Reports fmc bits count from not_or.mpr ⟨hbelow, hbit⟩)]

end PdcpEntityTx

namespace PdcpEntityRx
variable {rx : PdcpEntityRx}

theorem bitmapEnd_le : rx.bitmapEnd ≤ rx.st.rxNext := by
  rw [bitmapEnd]
  split <;> omega

theorem reports_iff_acknowledges {pad count : Nat} (hnext : rx.st.rxNext < 2 ^ 32) :
    Reports rx.st.rxDeliv (rx.bitmap ++ List.replicate pad 0) count ↔
      rx.Acknowledges count := by
  have hend := @bitmapEnd_le rx
  have hlength : rx.bitmap.length = rx.bitmapEnd - rx.bitmapBegin := by
    rw [bitmap, List.length_map, List.length_range']
  have hbit : ∀ i, (rx.bitmap ++ List.replicate pad 0)[i]? = some 1 ↔
      i < rx.bitmap.length ∧ rx.rxWindow.contains (rx.bitmapBegin + i) = true := by
    intro i
    by_cases hi : i < rx.bitmap.length
    · rw [List.getElem?_append_left hi, bitmap, List.getElem?_map, List.getElem?_range' (by omega),
        Option.map_some, Nat.one_mul, Option.some_inj]
      cases rx.rxWindow.contains (rx.bitmapBegin + i) with
      | true => exact ⟨fun _ => ⟨hi, rfl⟩, fun _ => rfl⟩
      | false => exact ⟨nofun, nofun⟩
    · rw [List.getElem?_append_right (Nat.le_of_not_lt hi), List.getElem?_replicate]
      constructor
      · intro hone
        split at hone <;> cases hone
      · intro hone
        exact absurd hone.1 hi
  have hcount : ∀ i < rx.bitmap.length,
      (rx.st.rxDeliv + 1 + i) % 2 ^ 32 = rx.bitmapBegin + i := by
    intro i hi
    have hbegin : (rx.st.rxDeliv + 1) % 2 ^ 32 = rx.bitmapBegin := rfl
    omega
  rw [Reports, Acknowledges]
  apply or_congr_right
  constructor
  · rintro ⟨i, _, hone, heq⟩
    obtain ⟨hi, hstored⟩ := (hbit i).mp hone
    rw [hcount i hi] at heq
    subst heq
    exact ⟨Nat.le_add_right _ _, by omega, hstored⟩
  · rintro ⟨hge, hlt, hstored⟩
    have hi : count - rx.bitmapBegin < rx.bitmap.length := by omega
    have heq : rx.bitmapBegin + (count - rx.bitmapBegin) = count := Nat.add_sub_cancel' hge
    refine ⟨count - rx.bitmapBegin, ?_, (hbit _).mpr ⟨hi, by rw [heq]; exact hstored⟩, ?_⟩
    · rw [List.length_append]
      omega
    · rw [hcount _ hi, heq]

end PdcpEntityRx

/-- For all states that receiver and transmitter reach: if the transmitter has a discard timer, the
report of the receiver removes from its window the COUNTs below RX_DELIV and those stored within the
bitmap, and no others, in particular none that the receiver misses. Without a discard timer nothing is
removed. -/
theorem pdcpStatusReport_agrees {rxEngine txEngine : SecurityContext → SecurityEngine}
    {rxCfg : PdcpRxConfig} {txCfg : PdcpTxConfig} {rxHfn rxSn txHfn txSn : Nat}
    {rx : PdcpEntityRx} {tx : PdcpEntityTx} (hrxSn : rxSn < 2 ^ 32) (htxSn : txSn < 2 ^ 32)
    (hrx : Runs.Reaches (step rxEngine) (fun _ _ => True)
      ((create rxCfg).setCount rxHfn rxSn) rx)
    (htx : Runs.Reaches (next txEngine) (fun _ _ => True)
      ((create txCfg).setCount txHfn txSn) tx) (count : Nat) :
    (tx.cfg.discardTimer.isSome = true →
        (tx.handleStatusReport rx.compileStatusReport).txWindow.get? count =
          if rx.Acknowledges count then none else tx.txWindow.get? count) ∧
      (tx.cfg.discardTimer.isSome = false →
        (tx.handleStatusReport rx.compileStatusReport).txWindow.get? count =
          tx.txWindow.get? count) ∧
      (rx.st.rxDeliv ≤ count → rx.rxWindow.contains count = false →
        (tx.handleStatusReport rx.compileStatusReport).txWindow.get? count =
          tx.txWindow.get? count) := by
  have hwell := reaches_wellFormed hrxSn hrx
  have horder : InOrder False tx :=
    reaches_inOrder htxSn (fun hfalse => hfalse.elim) htx
  have hdeliv : rx.st.rxDeliv < 2 ^ 32 := Nat.lt_of_le_of_lt hwell.deliv_le hwell.next_lt
  obtain ⟨pad, hdecode⟩ := decodeStatusReport_compile hdeliv
  have hremoved : tx.cfg.discardTimer.isSome = true →
      (tx.handleStatusReport rx.compileStatusReport).txWindow.get? count =
        if rx.Acknowledges count then none else tx.txWindow.get? count := by
    intro htimer
    rw [get?_handleStatusReport htimer horder.lowerEdge horder.upperEdge hdecode]
    exact if_congr (reports_iff_acknowledges hwell.next_lt) rfl rfl
  have hkept : tx.cfg.discardTimer.isSome = false →
      (tx.handleStatusReport rx.compileStatusReport).txWindow.get? count =
        tx.txWindow.get? count := by
    intro hnone
    rw [handleStatusReport, hdecode]
    dsimp only
    rw [discardRange_of_none hnone, discardBitmap_of_none hnone]
  refine ⟨hremoved, hkept, ?_⟩
  intro hge hmissing
  cases htimer : tx.cfg.discardTimer.isSome with
  | false => exact hkept htimer
  | true =>
    rw [hremoved htimer, if_neg]
    rintro (hlt | ⟨_, _, hstored⟩)
    · exact absurd hlt (Nat.not_lt_of_le hge)
    · rw [hmissing] at hstored
      cases hstored

/-- COUNTs 0 to 2 are sent and 1 is lost: 0 and 2 are removed from the window. -/
theorem pdcpStatusReport_agrees_oneLost : ∃ (rx : PdcpEntityRx) (tx : PdcpEntityTx),
    (rx.compileStatusReport = [0, 0, 0, 0, 1, 0x80] ∧ tx.cfg.discardTimer.isSome = true ∧
        [0, 1, 2].map tx.txWindow.hasSn = [true, true, true]) ∧
      ∀ count, (tx.cfg.discardTimer.isSome = true →
          (tx.handleStatusReport rx.compileStatusReport).txWindow.get? count =
            if rx.Acknowledges count then none else tx.txWindow.get? count) ∧
        (tx.cfg.discardTimer.isSome = false →
          (tx.handleStatusReport rx.compileStatusReport).txWindow.get? count =
            tx.txWindow.get? count) ∧
        (rx.st.rxDeliv ≤ count → rx.rxWindow.contains count = false →
          (tx.handleStatusReport rx.compileStatusReport).txWindow.get? count =
            tx.txWindow.get? count) := by
  have hrx : (Runs.runAll (step fun _ => SecurityEngine.disabled)
      ((create ⟨.drb, .am, .size12bits, .infinity,
        ⟨0xc0000000, 0xd0000000, by decide⟩⟩).setCount 0 0)
      [.handlePdu [0x80, 0, 0xaa], .handlePdu [0x80, 2, 0xcc], .runCryptoJob 0, .runResult 0,
        .runCryptoJob 0, .runResult 0]).map compileStatusReport =
      some [0, 0, 0, 0, 1, 0x80] := by
    decide +kernel
  have htx : (Runs.runAll (next fun _ => SecurityEngine.disabled)
      ((create ⟨.drb, .am, .size12bits, some .infinity, false,
        ⟨0xc0000000, 0xfffffffe, by decide⟩, (by rintro ⟨⟩)⟩).setCount 0 0)
      [.desiredBufferSize 1000, .handleSdu [0xaa] 0, .handleSdu [0xbb] 0, .handleSdu [0xcc] 0]).map
      (fun tx => (tx.cfg.discardTimer.isSome, [0, 1, 2].map tx.txWindow.hasSn)) =
      some (true, [true, true, true]) := by
    decide +kernel
  obtain ⟨rx, hrx, hreport⟩ := Option.map_eq_some_iff.mp hrx
  obtain ⟨tx, htx, hwindow⟩ := Option.map_eq_some_iff.mp htx
  rw [Prod.mk.injEq] at hwindow
  exact ⟨rx, tx, ⟨hreport, hwindow⟩, pdcpStatusReport_agrees (by decide) (by decide)
    (Runs.reaches_of_runAll .start (fun _ _ _ => trivial) hrx)
    (Runs.reaches_of_runAll .start (fun _ _ _ => trivial) htx)⟩

/-- Without a discard timer the transmitter keeps COUNT 0, which the receiver has delivered. -/
theorem pdcpStatusReport_noDiscardTimer : ∃ (rx : PdcpEntityRx) (tx : PdcpEntityTx),
    Runs.Reaches (step fun _ => SecurityEngine.disabled) (fun _ _ => True)
        ((create ⟨.drb, .am, .size12bits, .infinity,
          ⟨0xc0000000, 0xd0000000, by decide⟩⟩).setCount 0 0) rx ∧
      Runs.Reaches (next fun _ => SecurityEngine.disabled) (fun _ _ => True)
        ((create ⟨.drb, .am, .size12bits, none, false,
          ⟨0xc0000000, 0xfffffffe, by decide⟩, nofun⟩).setCount 0 0) tx ∧
      rx.Acknowledges 0 ∧
      (tx.handleStatusReport rx.compileStatusReport).txWindow.hasSn 0 = true := by
  have hrx : (Runs.runAll (step fun _ => SecurityEngine.disabled)
      ((create ⟨.drb, .am, .size12bits, .infinity,
        ⟨0xc0000000, 0xd0000000, by decide⟩⟩).setCount 0 0)
      [.handlePdu [0x80, 0, 0xaa], .runCryptoJob 0, .runResult 0]).map
      (fun rx => (decide (rx.Acknowledges 0), rx.compileStatusReport)) =
      some (true, [0, 0, 0, 0, 1]) := by
    decide +kernel
  have htx : (Runs.runAll (next fun _ => SecurityEngine.disabled)
      ((create ⟨.drb, .am, .size12bits, none, false,
        ⟨0xc0000000, 0xfffffffe, by decide⟩, nofun⟩).setCount 0 0)
      [.desiredBufferSize 1000, .handleSdu [0xaa] 0]).map
      (fun tx => (tx.handleStatusReport [0, 0, 0, 0, 1]).txWindow.hasSn 0) = some true := by
    decide +kernel
  obtain ⟨rx, hrx, hreport⟩ := Option.map_eq_some_iff.mp hrx
  obtain ⟨tx, htx, hwindow⟩ := Option.map_eq_some_iff.mp htx
  rw [Prod.mk.injEq] at hreport
  refine ⟨rx, tx, Runs.reaches_of_runAll .start (fun _ _ _ => trivial) hrx,
    Runs.reaches_of_runAll .start (fun _ _ _ => trivial) htx, of_decide_eq_true hreport.1, ?_⟩
  rw [hreport.2]
  exact hwindow

end Srsran.Pdcp
