import Srsran.Lib.Epochs
import Srsran.Pdcp.RxEntity
import Srsran.Pdcp.TxState

/-! Order of the PDUs that the transmitting PDCP entity passes to the lower layers, over all orders in
which the crypto jobs end: COUNTs ascend, every PDU has the SN of its COUNT, and retransmissions are
flagged. -/
namespace Srsran.Pdcp
open Srsran.Adt Checked TxNotice

namespace TxNotice

def startsEpoch : TxNotice → Bool
  | .dataRecovery => true
  | .reestablished => true
  | _ => false

def isNewPdu : TxNotice → Bool
  | .newPdu .. => true
  | _ => false

/-- Of two PDUs the second has the higher COUNT. -/
def Ascending (first second : TxNotice) : Prop :=
  ∀ count pdu isRetx generated count' pdu' isRetx' generated',
    first = .newPdu count pdu isRetx generated → second = .newPdu count' pdu' isRetx' generated' →
      count < count'

theorem ascending_of_not_newPdu {first second : TxNotice} (h : second.isNewPdu = false) :
    Ascending first second := by
  intro _ _ _ _ _ _ _ _ _ hsecond
  rw [hsecond] at h
  cases h

end TxNotice

/-- The PDU starts with the header for its COUNT. -/
def CarriesSn (cfg : PdcpTxConfig) (count : Nat) (pdu : List UInt8) : Prop :=
  pdu.take (pdcpDataPduHeaderSize cfg.snSize) =
    PdcpEntityTx.writeDataPduHeader cfg (pdcpComputeSn count cfg.snSize)

theorem writeDataPduHeader_length (cfg : PdcpTxConfig) (sn : Nat) :
    (PdcpEntityTx.writeDataPduHeader cfg sn).length = pdcpDataPduHeaderSize cfg.snSize := by
  rw [PdcpEntityTx.writeDataPduHeader]
  cases cfg.snSize <;> rfl

theorem firstByte_land {srb : Bool} {w high : Nat} (hw : w < 5) (h : high < 2 ^ w) :
    (UInt8.ofNat ((if srb then 0x00 else 0x80) ||| high)).toNat &&& (2 ^ w - 1) = high := by
  have hall : ∀ w < 5, ∀ n < 2 ^ w, (UInt8.ofNat (0x00 ||| n)).toNat &&& (2 ^ w - 1) = n ∧
      (UInt8.ofNat (0x80 ||| n)).toNat &&& (2 ^ w - 1) = n := by decide
  cases srb with
  | true => exact (hall w hw high h).1
  | false => exact (hall w hw high h).2

theorem snBits (sn width shift : Nat) :
    (sn &&& ((2 ^ width - 1) <<< shift)) >>> shift = sn / 2 ^ shift % 2 ^ width := by
  rw [Nat.shiftRight_and_distrib, Nat.shiftLeft_shiftRight, Nat.and_two_pow_sub_one_eq_mod,
    Nat.shiftRight_eq_div_pow]

theorem land_lowByte (n : Nat) : n &&& 0xff = n % 256 := Nat.and_two_pow_sub_one_eq_mod n 8

theorem toNat_land_lowByte (n : Nat) : (UInt8.ofNat n).toNat &&& 0xff = n % 256 := by
  rw [land_lowByte, UInt8.toNat_ofNat', Nat.mod_mod]

variable {count : Nat}

theorem readDataPduHeader_of_carriesSn {cfg : PdcpTxConfig} {rxCfg : PdcpRxConfig}
    {pdu : List UInt8} (hsize : rxCfg.snSize = cfg.snSize) (h : CarriesSn cfg count pdu)
    (hlen : pdcpDataPduHeaderSize cfg.snSize < pdu.length) :
    PdcpEntityRx.readDataPduHeader rxCfg pdu = some (pdcpComputeSn count cfg.snSize) := by
  have hsn : pdcpComputeSn count cfg.snSize < pdcpSnCardinality cfg.snSize := pdcpComputeSn_lt
  unfold PdcpEntityRx.readDataPduHeader
  rw [hsize, if_neg (Nat.not_le_of_lt hlen)]
  rw [CarriesSn, PdcpEntityTx.writeDataPduHeader] at h
  generalize pdcpComputeSn count cfg.snSize = sn at h hsn ⊢
  generalize cfg.snSize = snSize at h hlen hsn ⊢
  have hlow : (sn &&& 0xff) % 256 = sn % 256 := by
    rw [land_lowByte, Nat.mod_mod]
  cases snSize with
  | size12bits =>
    match pdu, hlen with
    | b0 :: b1 :: b2 :: rest, _ =>
      have hsn : sn < 4096 := hsn
      have hhigh : (sn &&& 0xf00) >>> 8 = sn / 256 % 16 := snBits sn 4 8
      simp only [pdcpDataPduHeaderSize, List.take_succ_cons, List.take_zero, List.cons.injEq,
        hhigh] at h
      have hfirst : b0.toNat &&& 0x0f = sn / 256 % 16 := by
        rw [h.1]
        exact firstByte_land (w := 4) (by decide) (Nat.mod_lt _ (by decide))
      dsimp only
      rw [hfirst, h.2.1, toNat_land_lowByte, hlow,
        ← Nat.shiftLeft_add_eq_or_of_lt (Nat.mod_lt _ (by decide)), Nat.shiftLeft_eq]
      congr 1
      omega
  | size18bits =>
    match pdu, hlen with
    | b0 :: b1 :: b2 :: b3 :: rest, _ =>
      have hsn : sn < 262144 := hsn
      have hhigh : (sn &&& 0x30000) >>> 16 = sn / 65536 % 4 := snBits sn 2 16
      have hmid : (sn &&& 0xff00) >>> 8 = sn / 256 % 256 := snBits sn 8 8
      simp only [pdcpDataPduHeaderSize, List.take_succ_cons, List.take_zero, List.cons.injEq,
        hhigh, hmid] at h
      have hfirst : b0.toNat &&& 0x03 = sn / 65536 % 4 := by
        rw [h.1]
        exact firstByte_land (w := 2) (by decide) (Nat.mod_lt _ (by decide))
      dsimp only
      rw [hfirst, h.2.1, h.2.2.1, toNat_land_lowByte, toNat_land_lowByte, hlow, Nat.mod_mod,
        Nat.or_assoc, ← Nat.shiftLeft_add_eq_or_of_lt (Nat.mod_lt _ (by decide)),
        ← Nat.shiftLeft_add_eq_or_of_lt (by rw [Nat.shiftLeft_eq]; omega), Nat.shiftLeft_eq,
        Nat.shiftLeft_eq]
      congr 1
      omega

theorem carriesSn_submitted (cfg : PdcpTxConfig) (count : Nat) (buf : List UInt8) :
    CarriesSn cfg count
      (PdcpEntityTx.writeDataPduHeader cfg (pdcpComputeSn count cfg.snSize) ++ buf) := by
  rw [CarriesSn, ← writeDataPduHeader_length cfg (pdcpComputeSn count cfg.snSize),
    List.take_left]

namespace PdcpEntityTx
variable {ent ent' : PdcpEntityTx} {flagged : Prop} {engine : SecurityContext → SecurityEngine}

theorem applySecurity_carriesSn
    {info done : PdcpTxBufferInfo} (hinfo : CarriesSn ent.cfg info.count info.buf)
    (h : applySecurity engine ent info = .ok (.ok done)) :
    CarriesSn ent.cfg done.count done.buf := by
  have hlen : pdcpDataPduHeaderSize ent.cfg.snSize ≤ info.buf.length := by
    have htake := congrArg List.length hinfo
    rw [writeDataPduHeader_length, List.length_take] at htake
    omega
  rw [applySecurity, applyCipheringAndIntegrityProtection] at h
  cases hengine : ent.secEngine with
  | none =>
    rw [hengine] at h
    dsimp only at h
    split at h
    · cases h
      rw [CarriesSn, List.take_append_of_le_length hlen]
      exact hinfo
    · cases h
  | some context =>
    rw [hengine] at h
    dsimp only at h
    cases hprotect : (engine context).encryptAndProtectIntegrity info.buf
        (pdcpDataPduHeaderSize ent.cfg.snSize) info.count with
    | error err =>
      rw [hprotect] at h
      cases h
    | ok pdu =>
      rw [hprotect] at h
      cases h
      rw [CarriesSn, (engine context).keepsHeader _ _ _ _ hlen hprotect]
      exact hinfo

/-- No COUNT from TX_NEXT on is in the window. -/
def UpperEdge (ent : PdcpEntityTx) : Prop :=
  ∀ count elem, ent.txWindow.get? count = some elem → count < ent.st.txNext

/-- What holds also while PDUs are released: the PDUs since the last start of an epoch ascend and are
below TX_TRANS_CRYPTO, and whatever is on its way carries the SN of its COUNT. The flags of the PDUs
are right if the run is such that `flagged` holds. -/
structure Sending (flagged : Prop) (ent : PdcpEntityTx) : Prop where
  next_lt : ent.st.txNext < 2 ^ 32
  crypto_lt : ent.st.txTransCrypto < 2 ^ 32
  reord_le : ent.st.txReordCrypto ≤ ent.st.txNext
  ack_le : ent.st.txNextAck ≤ ent.st.txNext
  lowerEdge : LowerEdge ent
  upperEdge : UpperEdge ent
  ordered : Epochs.Ordered startsEpoch TxNotice.Ascending ent.notices
  below : ∀ count pdu isRetx generated,
    .newPdu count pdu isRetx generated ∈ Epochs.current startsEpoch ent.notices →
      count < ent.st.txTransCrypto
  sent : ∀ count pdu isRetx generated, .newPdu count pdu isRetx generated ∈ ent.notices →
    CarriesSn ent.cfg count pdu ∧ (flagged → isRetx = generated)
  parked : ∀ count elem, ent.txWindow.get? count = some elem → elem.pdu ≠ [] →
    CarriesSn ent.cfg count elem.pdu
  jobs : ∀ info ∈ ent.cryptoJobs, CarriesSn ent.cfg info.count info.buf
  results : ∀ info, .ok info ∈ ent.cryptoResults → CarriesSn ent.cfg info.count info.buf

/-- While the crypto reordering timer runs, TX_REORD_CRYPTO is not behind, or has left the window. -/
structure InOrder (flagged : Prop) (ent : PdcpEntityTx) : Prop extends Sending flagged ent where
  timer : ent.cryptoReorderingTimerRunning = true →
    ent.st.txTransCrypto ≤ ent.st.txReordCrypto ∨ ent.st.txReordCrypto < ent.st.txNextAck

/-- Nothing is passed on: notices that are not PDUs are added, and no PDU is put in the window. -/
structure Calm (ent ent' : PdcpEntityTx) : Prop where
  cfg : ent'.cfg = ent.cfg
  txNext : ent.st.txNext ≤ ent'.st.txNext
  next_lt : ent.st.txNext < 2 ^ 32 → ent'.st.txNext < 2 ^ 32
  txReordCrypto : ent'.st.txReordCrypto = ent.st.txReordCrypto
  nextAck : ent.st.txNextAck ≤ ent'.st.txNextAck
  ack_le : ent.st.txNextAck ≤ ent.st.txNext → ent'.st.txNextAck ≤ ent'.st.txNext
  lowerEdge : ent.st.txNextAck ≤ ent.st.txNext → LowerEdge ent → LowerEdge ent'
  upperEdge : UpperEdge ent → UpperEdge ent'
  txTransCrypto : ent'.st.txTransCrypto = ent.st.txTransCrypto
  cryptoTimer : ent'.cryptoReorderingTimerRunning = true → ent.cryptoReorderingTimerRunning = true
  notices : ∃ rest, ent'.notices = ent.notices ++ rest ∧ ∀ notice ∈ rest, notice.isNewPdu = false
  window : ∀ count elem, ent'.txWindow.get? count = some elem → elem.pdu ≠ [] →
    ent.txWindow.get? count = some elem
  jobs : ∀ info ∈ ent'.cryptoJobs,
    info ∈ ent.cryptoJobs ∨ CarriesSn ent.cfg info.count info.buf
  results : ∀ info, .ok info ∈ ent'.cryptoResults →
    .ok info ∈ ent.cryptoResults ∨ CarriesSn ent.cfg info.count info.buf

theorem Calm.refl (ent : PdcpEntityTx) : Calm ent ent where
  cfg := rfl
  txNext := Nat.le_refl _
  next_lt := id
  txReordCrypto := rfl
  nextAck := Nat.le_refl _
  ack_le := id
  lowerEdge := fun _ h => h
  upperEdge := id
  txTransCrypto := rfl
  cryptoTimer := id
  notices := ⟨[], (List.append_nil _).symm, by simp⟩
  window := fun _ _ h _ => h
  jobs := fun _ h => Or.inl h
  results := fun _ h => Or.inl h

theorem Calm.trans {mid : PdcpEntityTx} (h : Calm ent mid) (h' : Calm mid ent') : Calm ent ent' where
  cfg := h'.cfg.trans h.cfg
  txNext := Nat.le_trans h.txNext h'.txNext
  next_lt := fun hlt => h'.next_lt (h.next_lt hlt)
  txReordCrypto := h'.txReordCrypto.trans h.txReordCrypto
  nextAck := Nat.le_trans h.nextAck h'.nextAck
  ack_le := fun hle => h'.ack_le (h.ack_le hle)
  lowerEdge := fun hle hedge => h'.lowerEdge (h.ack_le hle) (h.lowerEdge hle hedge)
  upperEdge := fun hedge => h'.upperEdge (h.upperEdge hedge)
  txTransCrypto := h'.txTransCrypto.trans h.txTransCrypto
  cryptoTimer := fun hrunning => h.cryptoTimer (h'.cryptoTimer hrunning)
  notices := by
    obtain ⟨first, hfirst, hquiet⟩ := h.notices
    obtain ⟨rest, hrest, hquiet'⟩ := h'.notices
    refine ⟨first ++ rest, by rw [hrest, hfirst, List.append_assoc], ?_⟩
    intro notice hmem
    exact (List.mem_append.mp hmem).elim (hquiet notice) (hquiet' notice)
  window := fun count elem hget hpdu => h.window count elem (h'.window count elem hget hpdu) hpdu
  jobs := by
    intro info hmem
    obtain hmid | hcarries := h'.jobs info hmem
    · exact h.jobs info hmid
    · rw [h.cfg] at hcarries
      exact Or.inr hcarries
  results := by
    intro info hmem
    obtain hmid | hcarries := h'.results info hmem
    · exact h.results info hmid
    · rw [h.cfg] at hcarries
      exact Or.inr hcarries

variable {log rest : List TxNotice}

theorem ordered_append (h : Epochs.Ordered startsEpoch TxNotice.Ascending log)
    (hrest : ∀ notice ∈ rest, notice.isNewPdu = false) :
    Epochs.Ordered startsEpoch TxNotice.Ascending (log ++ rest) := by
  induction rest generalizing log with
  | nil =>
    rw [List.append_nil]
    exact h
  | cons notice rest ih =>
    rw [List.forall_mem_cons] at hrest
    rw [List.append_cons]
    apply ih _ hrest.2
    apply h.concat
    intro first _
    exact ascending_of_not_newPdu hrest.1

variable {notice : TxNotice}

theorem mem_current_append
    (hrest : ∀ notice ∈ rest, notice.isNewPdu = false) (hpdu : notice.isNewPdu = true)
    (h : notice ∈ Epochs.current startsEpoch (log ++ rest)) :
    notice ∈ Epochs.current startsEpoch log := by
  obtain hold | hnew := Epochs.mem_current_append_cases h
  · exact hold
  · rw [hrest notice hnew] at hpdu
    cases hpdu

theorem mem_append_newPdu
    (hrest : ∀ notice ∈ rest, notice.isNewPdu = false) (hpdu : notice.isNewPdu = true)
    (h : notice ∈ log ++ rest) : notice ∈ log := by
  obtain hold | hnew := List.mem_append.mp h
  · exact hold
  · rw [hrest notice hnew] at hpdu
    cases hpdu

theorem Sending.calm (h : Sending flagged ent) (hc : Calm ent ent') : Sending flagged ent' := by
  obtain ⟨rest, hnotices, hrest⟩ := hc.notices
  refine ⟨hc.next_lt h.next_lt, ?_, ?_, hc.ack_le h.ack_le, hc.lowerEdge h.ack_le h.lowerEdge,
    hc.upperEdge h.upperEdge, ?_, ?_, ?_, ?_, ?_, ?_⟩
  · rw [hc.txTransCrypto]
    exact h.crypto_lt
  · rw [hc.txReordCrypto]
    exact Nat.le_trans h.reord_le hc.txNext
  · rw [hnotices]
    exact ordered_append h.ordered hrest
  · rw [hnotices, hc.txTransCrypto]
    intro count pdu isRetx generated hmem
    exact h.below count pdu isRetx generated (mem_current_append hrest rfl hmem)
  · rw [hnotices, hc.cfg]
    intro count pdu isRetx generated hmem
    exact h.sent count pdu isRetx generated (mem_append_newPdu hrest rfl hmem)
  · intro count elem hget hpdu
    rw [hc.cfg]
    exact h.parked count elem (hc.window count elem hget hpdu) hpdu
  · intro info hmem
    rw [hc.cfg]
    exact (hc.jobs info hmem).elim (h.jobs info) id
  · intro info hmem
    rw [hc.cfg]
    exact (hc.results info hmem).elim (h.results info) id

theorem InOrder.calm (h : InOrder flagged ent) (hc : Calm ent ent') : InOrder flagged ent' where
  toSending := h.toSending.calm hc
  timer := by
    rw [hc.txTransCrypto, hc.txReordCrypto]
    intro hrunning
    obtain hle | hlt := h.timer (hc.cryptoTimer hrunning)
    · exact Or.inl hle
    · exact Or.inr (Nat.lt_of_lt_of_le hlt hc.nextAck)

theorem Trimmed.calm (h : Trimmed ent ent') : Calm ent ent' where
  __ := h
  cfg := h.cfg
  txNext := Nat.le_of_eq h.txNext.symm
  next_lt := by
    rw [h.txNext]
    exact id
  ack_le := by
    rw [h.txNext]
    exact h.nextAck_le
  lowerEdge := fun _ => h.lowerEdge
  upperEdge := by
    intro hedge count elem hget
    rw [h.txNext]
    exact hedge count elem (h.window count elem hget)
  cryptoTimer := by
    rw [h.cryptoTimer]
    exact id
  notices := by
    obtain ⟨rest, hnotices, hdiscard⟩ := h.notices
    refine ⟨rest, hnotices, ?_⟩
    intro notice hmem
    have hkind := hdiscard notice hmem
    cases notice <;> first | rfl | cases hkind
  window := fun count elem hget _ => h.window count elem hget
  jobs := by
    have hjobs : ent'.cryptoJobs = ent.cryptoJobs := by
      have hcore := congrArg PdcpEntityTx.cryptoJobs h.core
      exact hcore
    rw [hjobs]
    exact fun _ hmem => Or.inl hmem
  results := by
    have hresults : ent'.cryptoResults = ent.cryptoResults := by
      have hcore := congrArg PdcpEntityTx.cryptoResults h.core
      exact hcore
    rw [hresults]
    exact fun _ hmem => Or.inl hmem

theorem calm_of_same (hs : SameWindow ent ent')
    (hnotices : ∃ rest, ent'.notices = ent.notices ++ rest ∧
      ∀ notice ∈ rest, notice.isNewPdu = false)
    (hjobs : ∀ info ∈ ent'.cryptoJobs,
      info ∈ ent.cryptoJobs ∨ CarriesSn ent.cfg info.count info.buf)
    (hresults : ∀ info, .ok info ∈ ent'.cryptoResults →
      .ok info ∈ ent.cryptoResults ∨ CarriesSn ent.cfg info.count info.buf) : Calm ent ent' where
  cfg := hs.cfg
  txNext := by rw [hs.st]
  next_lt := by
    rw [hs.st]
    exact id
  txReordCrypto := by rw [hs.st]
  nextAck := by rw [hs.st]
  ack_le := by
    rw [hs.st]
    exact id
  lowerEdge := by
    rw [LowerEdge, LowerEdge, hs.st, hs.window]
    exact fun _ h => h
  upperEdge := by
    rw [UpperEdge, UpperEdge, hs.st, hs.window]
    exact id
  txTransCrypto := by rw [hs.st]
  cryptoTimer := by
    rw [hs.cryptoTimer]
    exact id
  notices := hnotices
  window := by
    rw [hs.window]
    exact fun _ _ h _ => h
  jobs := hjobs
  results := hresults

theorem notify_calm (h : notice.isNewPdu = false) : Calm ent (ent.notify notice) :=
  calm_of_same ⟨rfl, rfl, rfl, rfl, rfl, rfl⟩
    ⟨[notice], rfl, fun _ hmem => by rw [List.mem_singleton.mp hmem]; exact h⟩
    (fun _ hmem => Or.inl hmem) fun _ hmem => Or.inl hmem

def ready (ent : PdcpEntityTx) (count : Nat) : Bool :=
  (ent.txWindow.get? count).any fun elem => !elem.pdu.isEmpty

def pduFlag (ent : PdcpEntityTx) (count : Nat) : Option Bool :=
  (ent.txWindow.get? count).map PdcpTxWindowElement.pduIsRetx

/-- The PDUs that wait from TX_TRANS_CRYPTO on, those behind `first` in a row, were made with one flag. -/
def WaitingFlag (ent : PdcpEntityTx) (isRetx : Bool) (first : Nat) : Prop :=
  ∀ count, count < ent.st.txNext → ent.st.txTransCrypto ≤ count → ent.ready count = true →
    (∀ other, other ≤ count → first ≤ other → ent.ready other = true) →
      ent.pduFlag count = some isRetx

theorem ready_iff : ent.ready count = true ↔
    ∃ elem, ent.txWindow.get? count = some elem ∧ elem.pdu ≠ [] := by
  rw [ready]
  cases hget : ent.txWindow.get? count with
  | none => simp
  | some elem => simp

variable {elem : PdcpTxWindowElement}

theorem ready_of_get?
    (hget : ent.txWindow.get? count = some elem) (hpdu : elem.pdu ≠ []) : ent.ready count = true :=
  ready_iff.mpr ⟨elem, hget, hpdu⟩

variable {isRetx : Bool}

/-- The row is followed while TX_TRANS_CRYPTO moves and PDUs leave the window. -/
theorem WaitingFlag.advance {first first' : Nat} (h : WaitingFlag ent isRetx first)
    (hnext : ent'.st.txNext = ent.st.txNext) (hge : ent.st.txTransCrypto ≤ ent'.st.txTransCrypto)
    (hle : ent'.st.txTransCrypto ≤ first')
    (hwindow : ∀ count elem, ent'.st.txTransCrypto ≤ count → ent'.txWindow.get? count = some elem →
      elem.pdu ≠ [] → ent.txWindow.get? count = some elem)
    (hfirst : ∀ other, first ≤ other → other < first' → ent.ready other = true) :
    WaitingFlag ent' isRetx first' := by
  have hready : ∀ count, ent'.st.txTransCrypto ≤ count → ent'.ready count = true →
      ent.ready count = true := by
    intro count hcount hready
    obtain ⟨elem, hget, hpdu⟩ := ready_iff.mp hready
    exact ready_of_get? (hwindow count elem hcount hget hpdu) hpdu
  intro count hlt hcount hwaits hrow
  obtain ⟨elem, hget, hpdu⟩ := ready_iff.mp hwaits
  have hold := hwindow count elem hcount hget hpdu
  have hflag : ent.pduFlag count = some isRetx := by
    apply h count (by rw [← hnext]; exact hlt) (Nat.le_trans hge hcount) (ready_of_get? hold hpdu)
    intro other hother hrange
    by_cases hbelow : other < first'
    · exact hfirst other hrange hbelow
    · have hge' : first' ≤ other := Nat.le_of_not_lt hbelow
      exact hready other (Nat.le_trans hle hge') (hrow other hother hge')
  rw [pduFlag, hold] at hflag
  rw [pduFlag, hget]
  exact hflag

theorem get?_passOn {elem elem' : PdcpTxWindowElement}
    (hget : ent.txWindow.get? ent.st.txTransCrypto = some elem)
    (hget' : (ent.passOn elem isRetx).txWindow.get? count = some elem') (hpdu : elem'.pdu ≠ []) :
    count ≠ ent.st.txTransCrypto ∧ ent.txWindow.get? count = some elem' := by
  have hset : ((ent.txWindow.setElement ent.st.txTransCrypto { elem with pdu := [] }).get? count) =
      some elem' := hget'
  rw [get?_setElement hget] at hset
  split at hset
  · cases hset
    exact absurd rfl hpdu
  · rename_i hne
    exact ⟨hne, hset⟩

theorem passOn_sending (h : Sending flagged ent)
    (hget : ent.txWindow.get? ent.st.txTransCrypto = some elem) (hpdu : elem.pdu ≠ [])
    (hflag : flagged → elem.pduIsRetx = isRetx) (hlt : ent.st.txTransCrypto + 1 < 2 ^ 32) :
    Sending flagged (ent.passOn elem isRetx) := by
  have hnotices : (ent.passOn elem isRetx).notices = ent.notices ++
      [.newPdu ent.st.txTransCrypto elem.pdu isRetx elem.pduIsRetx] := rfl
  have hkey : ∀ count other, (ent.passOn elem isRetx).txWindow.get? count = some other →
      ∃ old, ent.txWindow.get? count = some old := by
    intro count other hget'
    have hset : ((ent.txWindow.setElement ent.st.txTransCrypto
        { elem with pdu := [] }).get? count) = some other := hget'
    rw [get?_setElement hget] at hset
    split at hset
    · rename_i heq
      rw [heq]
      exact ⟨elem, hget⟩
    · exact ⟨other, hset⟩
  refine ⟨h.next_lt, hlt, h.reord_le, h.ack_le, ?_, ?_, ?_, ?_, ?_, ?_, h.jobs, h.results⟩
  · intro count other hget'
    obtain ⟨old, hold⟩ := hkey count other hget'
    exact h.lowerEdge count old hold
  · intro count other hget'
    obtain ⟨old, hold⟩ := hkey count other hget'
    exact h.upperEdge count old hold
  · rw [hnotices]
    apply h.ordered.concat
    intro first hfirst count pdu flag generated count' pdu' flag' generated' heq heq'
    cases heq'
    subst heq
    exact h.below count pdu flag generated hfirst
  · rw [hnotices, Epochs.current_concat_of_not_marker rfl]
    intro count pdu flag generated hmem
    obtain hold | hlast := List.mem_append.mp hmem
    · exact Nat.lt_succ_of_lt (h.below count pdu flag generated hold)
    · cases List.mem_singleton.mp hlast
      exact Nat.lt_succ_self _
  · rw [hnotices]
    intro count pdu flag generated hmem
    obtain hold | hlast := List.mem_append.mp hmem
    · exact h.sent count pdu flag generated hold
    · cases List.mem_singleton.mp hlast
      exact ⟨h.parked _ elem hget hpdu, fun hf => (hflag hf).symm⟩
  · intro count other hget' hother
    exact h.parked count other (get?_passOn hget hget' hother).2 hother

theorem setTxTransCrypto_sending (h : Sending flagged ent) (hge : ent.st.txTransCrypto ≤ count)
    (hlt : count < 2 ^ 32) : Sending flagged (ent.setTxTransCrypto count) where
  __ := h
  crypto_lt := hlt
  below := fun count pdu isRetx generated hmem =>
    Nat.lt_of_lt_of_le (h.below count pdu isRetx generated hmem) hge

theorem WaitingFlag.flag_eq {first count : Nat}
    (h : WaitingFlag ent isRetx first) (hlt : count < ent.st.txNext)
    (hge : ent.st.txTransCrypto ≤ count) (hget : ent.txWindow.get? count = some elem)
    (hpdu : elem.pdu ≠ []) (hrow : ∀ other, other ≤ count → first ≤ other → ent.ready other = true) :
    elem.pduIsRetx = isRetx := by
  have hflag := h count hlt hge (ready_of_get? hget hpdu) hrow
  rw [pduFlag, hget] at hflag
  exact Option.some.inj hflag

theorem notifyInTestMode_trimmed (h : ent.notifyInTestMode count = .ok ent') : Trimmed ent ent' := by
  rw [notifyInTestMode] at h
  split at h
  · exact handleTransmitNotification_trimmed h
  · cases h
    exact Trimmed.refl ent

theorem element_get? (h : ent.element count = .ok elem) : ent.txWindow.get? count = some elem := by
  rw [element] at h
  split at h
  · rename_i helem
    cases h
    exact helem
  · cases h

/-- The loop of both releases: what waits in a row from TX_TRANS_CRYPTO on goes out. -/
theorem releaseLoop_sending {turns : Nat} (h : Sending flagged ent)
    (hflags : flagged → WaitingFlag ent isRetx ent.st.txTransCrypto)
    (hok : releaseLoop isRetx turns ent = .ok ent') : Sending flagged ent' ∧ Advanced ent ent' := by
  induction turns generalizing ent with
  | zero =>
    cases hok
    exact ⟨h, Advanced.refl _⟩
  | succ turns ih =>
    rw [releaseLoop] at hok
    split at hok
    · rename_i hlt
      obtain ⟨elem, helem, hok⟩ := bind_ok hok
      have hget := element_get? helem
      split at hok
      · cases hok
        exact ⟨h, Advanced.refl _⟩
      · rename_i hempty
        obtain ⟨mid, hmid, hok⟩ := bind_ok hok
        have hpdu : elem.pdu ≠ [] := by
          rw [List.isEmpty_iff] at hempty
          exact hempty
        have hrow : ∀ other, other ≤ ent.st.txTransCrypto → ent.st.txTransCrypto ≤ other →
            ent.ready other = true := by
          intro other hle hge
          rw [Nat.le_antisymm hle hge]
          exact ready_of_get? hget hpdu
        have hpassed : Sending flagged (ent.passOn elem isRetx) :=
          passOn_sending h hget hpdu
            (fun hf => (hflags hf).flag_eq hlt (Nat.le_refl _) hget hpdu hrow)
            (Nat.lt_of_le_of_lt hlt h.next_lt)
        have htrimmed := notifyInTestMode_trimmed hmid
        have hcrypto : mid.st.txTransCrypto = ent.st.txTransCrypto + 1 := htrimmed.txTransCrypto
        have hrest : flagged → WaitingFlag mid isRetx mid.st.txTransCrypto := by
          intro hf
          apply (hflags hf).advance htrimmed.txNext (by rw [hcrypto]; exact Nat.le_succ _)
            (Nat.le_refl _)
          · intro count other _ hget' hother
            exact (get?_passOn hget (htrimmed.window count other hget') hother).2
          · intro other hge hbelow
            rw [hcrypto] at hbelow
            exact hrow other (Nat.le_of_lt_succ hbelow) hge
        obtain ⟨hsending, hadvanced⟩ := ih (hpassed.calm htrimmed.calm) hrest hok
        exact ⟨hsending, ((passOn_advanced elem isRetx).trans htrimmed.advanced).trans hadvanced⟩
    · cases hok
      exact ⟨h, Advanced.refl _⟩

theorem writeIfReady_cases (count : Nat) :
    (∃ elem, ent.txWindow.get? ent.st.txTransCrypto = some elem ∧ elem.pdu ≠ [] ∧
        ent.writeIfReady.setTxTransCrypto count =
          (ent.writeDataPdu elem false).setTxTransCrypto count) ∨
      ent.writeIfReady.setTxTransCrypto count = ent.setTxTransCrypto count := by
  rw [writeIfReady]
  cases hget : ent.txWindow.txWindow.get? ent.st.txTransCrypto with
  | none => exact Or.inr rfl
  | some elem =>
    dsimp only
    by_cases hempty : elem.pdu.isEmpty = true
    · rw [if_pos hempty]
      exact Or.inr rfl
    · rw [if_neg hempty]
      rw [List.isEmpty_iff] at hempty
      exact Or.inl ⟨elem, hget, hempty, rfl⟩

theorem writeIfReady_sending (h : Sending flagged ent) (hlt : ent.st.txTransCrypto < ent.st.txReordCrypto)
    (hflags : flagged → WaitingFlag ent false ent.st.txReordCrypto) :
    Sending flagged (ent.writeIfReady.setTxTransCrypto (ent.st.txTransCrypto + 1)) ∧
      (flagged → WaitingFlag (ent.writeIfReady.setTxTransCrypto (ent.st.txTransCrypto + 1)) false
        ent.st.txReordCrypto) := by
  have hnext : ent.st.txTransCrypto < ent.st.txNext := Nat.lt_of_lt_of_le hlt h.reord_le
  have hbound : ent.st.txTransCrypto + 1 < 2 ^ 32 := Nat.lt_of_le_of_lt hnext h.next_lt
  have hrow : ∀ other, ent.st.txReordCrypto ≤ other → other < ent.st.txReordCrypto →
      ent.ready other = true := by
    intro other hge hbelow
    exact absurd hge (Nat.not_le_of_lt hbelow)
  obtain ⟨elem, hget, hpdu, heq⟩ | heq := @writeIfReady_cases ent (ent.st.txTransCrypto + 1)
  · rw [heq]
    have hflag : flagged → elem.pduIsRetx = false := by
      intro hf
      apply (hflags hf).flag_eq hnext (Nat.le_refl _) hget hpdu
      intro other hle hge
      exact absurd (Nat.le_trans hge hle) (Nat.not_le_of_lt hlt)
    refine ⟨passOn_sending h hget hpdu hflag hbound, ?_⟩
    have hadvance : flagged → WaitingFlag (ent.passOn elem false) false ent.st.txReordCrypto := by
      intro hf
      refine (hflags hf).advance (passOn_advanced elem false).txNext (Nat.le_succ _) hlt ?_ hrow
      intro count other _ hget' hother
      exact (get?_passOn hget hget' hother).2
    exact hadvance
  · rw [heq]
    refine ⟨setTxTransCrypto_sending h (Nat.le_succ _) hbound, ?_⟩
    intro hf
    exact (hflags hf).advance rfl (Nat.le_succ _) hlt (fun _ _ _ hget _ => hget) hrow

theorem releaseBelowReord_sending {turns : Nat} (h : Sending flagged ent)
    (hflags : flagged → WaitingFlag ent false ent.st.txReordCrypto)
    (hturns : ent.st.txTransCrypto + turns = ent.st.txReordCrypto) :
    Sending flagged (releaseBelowReord turns ent) ∧
      (flagged → WaitingFlag (releaseBelowReord turns ent) false
        (releaseBelowReord turns ent).st.txTransCrypto) ∧
      (releaseBelowReord turns ent).cryptoReorderingTimerRunning =
        ent.cryptoReorderingTimerRunning := by
  induction turns generalizing ent with
  | zero =>
    have hreord : ent.st.txTransCrypto = ent.st.txReordCrypto := hturns
    rw [releaseBelowReord, hreord]
    exact ⟨h, hflags, rfl⟩
  | succ turns ih =>
    have hreord := h.reord_le
    have hnext := h.next_lt
    have hmod : (ent.st.txTransCrypto + 1) % 2 ^ 32 = ent.st.txTransCrypto + 1 :=
      Nat.mod_eq_of_lt (by omega)
    obtain ⟨_, hsame, htimer, _⟩ := @writeIfReady_rewritten ent (ent.st.txTransCrypto + 1)
    obtain ⟨hsending, hwaiting⟩ := writeIfReady_sending h (by omega) hflags
    rw [releaseBelowReord, hmod]
    have hsame' : (ent.writeIfReady.setTxTransCrypto (ent.st.txTransCrypto + 1)).st.txReordCrypto =
        ent.st.txReordCrypto := hsame
    have hcrypto : (ent.writeIfReady.setTxTransCrypto (ent.st.txTransCrypto + 1)).st.txTransCrypto =
        ent.st.txTransCrypto + 1 := rfl
    obtain ⟨hs, hw, ht⟩ := ih hsending (by rw [hsame']; exact hwaiting)
      (by rw [hsame', hcrypto]; omega)
    exact ⟨hs, hw, ht.trans htimer⟩

theorem releaseBelowReord_end {turns : Nat} (hlt : ent.st.txTransCrypto < 2 ^ 32) :
    (releaseBelowReord turns ent).st.txTransCrypto = (ent.st.txTransCrypto + turns) % 2 ^ 32 ∧
      (releaseBelowReord turns ent).st.txNext = ent.st.txNext ∧
      ∀ count, (releaseBelowReord turns ent).txWindow.hasSn count = ent.txWindow.hasSn count := by
  induction turns generalizing ent with
  | zero => exact ⟨(Nat.mod_eq_of_lt hlt).symm, rfl, fun _ => rfl⟩
  | succ turns ih =>
    obtain ⟨hw, _⟩ := @writeIfReady_rewritten ent ((ent.st.txTransCrypto + 1) % 2 ^ 32)
    obtain ⟨hcrypto, hnext, hhas⟩ := @ih
      (ent.writeIfReady.setTxTransCrypto ((ent.st.txTransCrypto + 1) % 2 ^ 32))
      (Nat.mod_lt _ (Nat.two_pow_pos 32))
    rw [releaseBelowReord]
    refine ⟨?_, hnext.trans hw.txNext, fun count => (hhas count).trans (hw.hasSn count)⟩
    rw [hcrypto, setTxTransCrypto]
    dsimp only
    omega

theorem releaseInOrder_absent (hlt : ent.st.txTransCrypto < ent.st.txNext)
    (habsent : ent.txWindow.hasSn ent.st.txTransCrypto = false) :
    ent.releaseInOrder isRetx = .error (.absentCount ent.st.txTransCrypto) := by
  obtain ⟨turns, hturns⟩ : ∃ turns, ent.st.txNext - ent.st.txTransCrypto = turns + 1 :=
    ⟨ent.st.txNext - ent.st.txTransCrypto - 1, by omega⟩
  have helem : ent.element ent.st.txTransCrypto = .error (.absentCount ent.st.txTransCrypto) := by
    rw [PdcpTxWindow.hasSn_eq, Option.isSome_eq_false_iff, Option.isNone_iff_eq_none] at habsent
    rw [element]
    rw [PdcpTxWindow.get?] at habsent
    rw [habsent]
  rw [releaseInOrder, hturns, releaseLoop, if_pos hlt, helem]
  rfl

theorem startCryptoReordering_inOrder (h : Sending flagged ent)
    (hlt : ent.st.txTransCrypto < ent.st.txNext) : InOrder flagged ent.startCryptoReordering where
  __ := h
  reord_le := Nat.le_refl _
  timer := fun _ => Or.inl (Nat.le_of_lt hlt)

theorem stopCryptoReordering_inOrder (h : Sending flagged ent) : InOrder flagged ent.stopCryptoReordering where
  __ := h
  timer := nofun

theorem updateCryptoReordering_inOrder (h : Sending flagged ent) : InOrder flagged ent.updateCryptoReordering := by
  have hstop : ∃ mid : PdcpEntityTx, (if ent.cryptoReorderingTimerRunning ∧
        ent.st.txTransCrypto ≥ ent.st.txReordCrypto then ent.stopCryptoReordering else ent) = mid ∧
      InOrder flagged mid := by
    by_cases hcond : ent.cryptoReorderingTimerRunning = true ∧
        ent.st.txTransCrypto ≥ ent.st.txReordCrypto
    · exact ⟨_, if_pos hcond, stopCryptoReordering_inOrder h⟩
    · refine ⟨ent, if_neg hcond, h, ?_⟩
      intro hrunning
      exact Or.inl (Nat.le_of_not_le fun hge => hcond ⟨hrunning, hge⟩)
  obtain ⟨mid, heq, hmid⟩ := hstop
  rw [updateCryptoReordering, heq]
  split
  · rename_i hcond
    exact startCryptoReordering_inOrder hmid.toSending hcond.2
  · exact hmid

/-- The expiry, which fails if TX_REORD_CRYPTO has left the window. -/
theorem cryptoReorderingTimeout_inOrder (h : InOrder flagged ent)
    (hrunning : ent.cryptoReorderingTimerRunning = true)
    (hflags : flagged → WaitingFlag ent false ent.st.txReordCrypto)
    (hok : ent.cryptoReorderingTimeout = .ok ent') : InOrder flagged ent' := by
  have hstopped := stopCryptoReordering_inOrder h.toSending
  rw [cryptoReorderingTimeout] at hok
  dsimp only at hok
  split at hok
  · cases hok
    exact hstopped
  · obtain ⟨mid, hmid, hok⟩ := bind_ok hok
    by_cases hle : ent.st.txTransCrypto ≤ ent.st.txReordCrypto
    · have hdistance : ent.stopCryptoReordering.st.txTransCrypto +
          countDistance ent.stopCryptoReordering.st.txTransCrypto
            ent.stopCryptoReordering.st.txReordCrypto =
          ent.stopCryptoReordering.st.txReordCrypto := by
        have hreord : ent.st.txReordCrypto < 2 ^ 32 := Nat.lt_of_le_of_lt h.reord_le h.next_lt
        have hsum : ent.st.txTransCrypto + countDistance ent.st.txTransCrypto ent.st.txReordCrypto =
            ent.st.txReordCrypto := by
          rw [countDistance_of_le hle hreord]
          omega
        exact hsum
      obtain ⟨hs, hw, htimer⟩ := releaseBelowReord_sending hstopped.toSending hflags hdistance
      obtain ⟨hsending, hadvanced⟩ := releaseLoop_sending hs hw hmid
      split at hok
      · rename_i hwait
        cases hok
        exact startCryptoReordering_inOrder hsending hwait
      · cases hok
        refine ⟨hsending, ?_⟩
        intro hmidRunning
        rw [hadvanced.timer, htimer] at hmidRunning
        cases hmidRunning
    · -- TX_TRANS_CRYPTO is past TX_REORD_CRYPTO, goes around and ends at an absent COUNT.
      exfalso
      have hleft := (h.timer hrunning).resolve_left hle
      obtain ⟨hcrypto, hnext, hhas⟩ := @releaseBelowReord_end ent.stopCryptoReordering
        (countDistance ent.stopCryptoReordering.st.txTransCrypto
          ent.stopCryptoReordering.st.txReordCrypto) h.crypto_lt
      have hend : (ent.stopCryptoReordering.st.txTransCrypto +
          countDistance ent.stopCryptoReordering.st.txTransCrypto
            ent.stopCryptoReordering.st.txReordCrypto) % 2 ^ 32 = ent.st.txReordCrypto := by
        have hlt := h.crypto_lt
        have hbound := Nat.lt_of_le_of_lt h.reord_le h.next_lt
        have hmod : (ent.st.txTransCrypto + countDistance ent.st.txTransCrypto ent.st.txReordCrypto) %
            2 ^ 32 = ent.st.txReordCrypto := by
          rw [countDistance]
          omega
        exact hmod
      rw [hend] at hcrypto
      generalize releaseBelowReord (countDistance ent.stopCryptoReordering.st.txTransCrypto
        ent.stopCryptoReordering.st.txReordCrypto) ent.stopCryptoReordering = first
        at hcrypto hnext hhas hmid
      rw [releaseInOrder_absent] at hmid
      · cases hmid
      · rw [hcrypto, hnext]
        exact Nat.lt_of_lt_of_le hleft h.ack_le
      · rw [hcrypto, hhas, PdcpTxWindow.hasSn_eq]
        cases hget : ent.stopCryptoReordering.txWindow.get? ent.st.txReordCrypto with
        | none => rfl
        | some elem => exact absurd (h.lowerEdge _ elem hget) (Nat.not_le_of_lt hleft)

/-- A PDU waits behind the result, and nothing but the result is missing before it. -/
def ReleasedBy (ent : PdcpEntityTx) (info : PdcpTxBufferInfo) (count : Nat) : Prop :=
  ent.st.txTransCrypto ≤ count ∧ count ≠ info.count ∧
    ∀ other, other ≤ count → ent.st.txTransCrypto ≤ other → other ≠ info.count →
      ent.ready other = true

/-- The PDUs that an accepted result releases were made with its flag. -/
def ResultFlag (ent : PdcpEntityTx) (info : PdcpTxBufferInfo) : Prop :=
  ent.acceptsResult info = true →
    ∀ count, count < ent.st.txNext → ent.ReleasedBy info count →
      ent.pduFlag count = some info.isRetx

variable {info : PdcpTxBufferInfo}

theorem get?_parkPdu (hget : ent.txWindow.get? info.count = some elem) (count : Nat) :
    (ent.parkPdu elem info).txWindow.get? count =
      if count = info.count then some { elem with pdu := info.buf, pduIsRetx := info.isRetx }
      else ent.txWindow.get? count := by
  exact get?_setElement hget

theorem parkPdu_sending (h : Sending flagged ent) (hinfo : CarriesSn ent.cfg info.count info.buf)
    (hget : ent.txWindow.get? info.count = some elem) : Sending flagged (ent.parkPdu elem info) := by
  have hkey : ∀ count other, (ent.parkPdu elem info).txWindow.get? count = some other →
      ∃ old, ent.txWindow.get? count = some old := by
    intro count other hother
    rw [get?_parkPdu hget] at hother
    split at hother
    · rename_i heq
      rw [heq]
      exact ⟨elem, hget⟩
    · exact ⟨other, hother⟩
  refine ⟨h.next_lt, h.crypto_lt, h.reord_le, h.ack_le, ?_, ?_, h.ordered, h.below, h.sent, ?_,
    h.jobs, h.results⟩
  · intro count other hother
    obtain ⟨old, hold⟩ := hkey count other hother
    exact h.lowerEdge count old hold
  · intro count other hother
    obtain ⟨old, hold⟩ := hkey count other hother
    exact h.upperEdge count old hold
  · intro count other hother hpdu
    rw [get?_parkPdu hget] at hother
    split at hother
    · rename_i heq
      cases hother
      rw [heq]
      exact hinfo
    · exact h.parked count other hother hpdu

theorem parkPdu_waitingFlag
    (hget : ent.txWindow.get? info.count = some elem) (haccepts : ent.acceptsResult info = true)
    (hflag : ResultFlag ent info) :
    WaitingFlag (ent.parkPdu elem info) info.isRetx (ent.parkPdu elem info).st.txTransCrypto := by
  have hother : ∀ count, count ≠ info.count →
      (ent.parkPdu elem info).txWindow.get? count = ent.txWindow.get? count := by
    intro count hne
    rw [get?_parkPdu hget, if_neg hne]
  intro count hlt hge _ hrow
  by_cases heq : count = info.count
  · rw [pduFlag, get?_parkPdu hget, if_pos heq]
    rfl
  · rw [pduFlag, hother count heq]
    refine hflag haccepts count hlt ⟨hge, heq, ?_⟩
    intro other hle hfirst hne
    have hwaits := hrow other hle hfirst
    rw [ready, hother other hne] at hwaits
    exact hwaits

theorem applyReordering_inOrder (h : InOrder flagged ent)
    (hinfo : CarriesSn ent.cfg info.count info.buf) (hflag : flagged → ResultFlag ent info)
    (hok : ent.applyReordering info = .ok ent') : InOrder flagged ent' := by
  rw [applyReordering] at hok
  split at hok
  · rename_i haccepts
    obtain ⟨elem, helem, hok⟩ := bind_ok hok
    obtain ⟨mid, hmid, hok⟩ := bind_ok hok
    cases hok
    have hget := element_get? helem
    have hparked := parkPdu_sending h.toSending hinfo hget
    obtain ⟨hsending, _⟩ :=
      releaseLoop_sending hparked (fun hf => parkPdu_waitingFlag hget haccepts (hflag hf)) hmid
    exact updateCryptoReordering_inOrder hsending
  · cases hok
    exact h

theorem takeResult_calm (idx : Nat) :
    Calm ent { ent with cryptoResults := ent.cryptoResults.eraseIdx idx } :=
  calm_of_same ⟨rfl, rfl, rfl, rfl, rfl, rfl⟩ ⟨[], (List.append_nil _).symm, by simp⟩
    (fun _ hmem => Or.inl hmem) fun _ hmem => Or.inl (List.mem_of_mem_eraseIdx hmem)

theorem takeJob_calm (idx : Nat) :
    Calm ent { ent with cryptoJobs := ent.cryptoJobs.eraseIdx idx } :=
  calm_of_same ⟨rfl, rfl, rfl, rfl, rfl, rfl⟩ ⟨[], (List.append_nil _).symm, by simp⟩
    (fun _ hmem => Or.inl (List.mem_of_mem_eraseIdx hmem)) fun _ hmem => Or.inl hmem

theorem runResult_inOrder {idx : Nat} (h : InOrder flagged ent)
    (hflag : flagged → ∀ info, ent.cryptoResults[idx]? = some (.ok info) → ResultFlag ent info)
    (hok : ent.runResult idx = .ok ent') : InOrder flagged ent' := by
  rw [runResult] at hok
  have htaken := h.calm (takeResult_calm idx)
  cases hresult : ent.cryptoResults[idx]? with
  | none =>
    rw [hresult] at hok
    cases hok
    exact h
  | some result =>
    rw [hresult] at hok
    cases result with
    | ok info =>
      have hinfo := h.results info (List.mem_of_getElem? hresult)
      exact applyReordering_inOrder htaken hinfo (fun hf => hflag hf info hresult) hok
    | error err =>
      cases hok
      exact htaken.calm (notify_calm rfl)

theorem runCryptoJob_calm {idx : Nat} (h : Sending flagged ent)
    (hok : runCryptoJob engine ent idx = .ok ent') : Calm ent ent' := by
  rw [runCryptoJob] at hok
  cases hjob : ent.cryptoJobs[idx]? with
  | none =>
    rw [hjob] at hok
    cases hok
    exact Calm.refl _
  | some info =>
    rw [hjob] at hok
    obtain ⟨result, hresult, hok⟩ := bind_ok hok
    cases hok
    refine calm_of_same ⟨rfl, rfl, rfl, rfl, rfl, rfl⟩ ⟨[_], rfl, ?_⟩ ?_ ?_
    · intro notice hmem
      rw [List.mem_singleton.mp hmem]
      rfl
    · intro job hmem
      exact Or.inl (List.mem_of_mem_eraseIdx hmem)
    · intro done hmem
      obtain hold | hlast := List.mem_append.mp hmem
      · exact Or.inl hold
      · rw [← List.mem_singleton.mp hlast] at hresult
        exact Or.inr (applySecurity_carriesSn (h.jobs info (List.mem_of_getElem? hjob)) hresult)

theorem submit_calm (isRetx : Bool) (count : Nat) (buf : List UInt8) :
    Calm ent (ent.submit isRetx count buf) := by
  refine calm_of_same (submit_same isRetx count buf) ⟨[], (List.append_nil _).symm, by simp⟩ ?_
    fun _ hmem => Or.inl hmem
  intro info hmem
  obtain hold | hlast := List.mem_append.mp hmem
  · exact Or.inl hold
  · rw [List.mem_singleton.mp hlast]
    exact Or.inr (carriesSn_submitted _ _ _)

theorem retransmitLoop_calm {turns count : Nat} : Calm ent (retransmitLoop turns count ent) := by
  induction turns generalizing ent count with
  | zero => exact Calm.refl ent
  | succ turns ih =>
    rw [retransmitLoop]
    split
    · exact (submit_calm true count _).trans ih
    · exact ih

theorem maxCount_calm {notified overflow : Bool} (h : notice.isNewPdu = false) :
    Calm ent { ent.notify notice with maxCountNotified := notified, maxCountOverflow := overflow } :=
  calm_of_same ⟨rfl, rfl, rfl, rfl, rfl, rfl⟩
    ⟨[notice], rfl, fun _ hmem => by rw [List.mem_singleton.mp hmem]; exact h⟩
    (fun _ hmem => Or.inl hmem) fun _ hmem => Or.inl hmem

theorem checkMaxCountNotify_calm : Calm ent ent.checkMaxCountNotify := by
  rw [checkMaxCountNotify]
  split
  · exact maxCount_calm rfl
  · exact Calm.refl ent

theorem refuseMaxCount_calm : Calm ent ent.refuseMaxCount := by
  rw [refuseMaxCount]
  split
  · exact Calm.refl ent
  · exact maxCount_calm rfl

variable {buf : List UInt8} {now : Nat}

theorem withSdu_calm (hlt : ent.st.txNext + 1 < 2 ^ 32) :
    Calm ent (ent.withSdu (ent.windowElement buf now)) where
  cfg := rfl
  txNext := Nat.le_succ _
  next_lt := fun _ => hlt
  txReordCrypto := rfl
  nextAck := Nat.le_refl _
  ack_le := Nat.le_succ_of_le
  lowerEdge := by
    intro hle hedge count elem hget
    obtain ⟨heq, _⟩ | hold := get?_addSdu_cases hget
    · rw [heq]
      exact hle
    · exact hedge count elem hold
  upperEdge := by
    intro hedge count elem hget
    obtain ⟨heq, _⟩ | hold := get?_addSdu_cases hget
    · rw [heq]
      exact Nat.lt_succ_self _
    · exact Nat.lt_succ_of_lt (hedge count elem hold)
  txTransCrypto := rfl
  cryptoTimer := id
  notices := ⟨[], (List.append_nil _).symm, by simp⟩
  window := by
    intro count elem hget hpdu
    obtain ⟨_, heq⟩ | hold := get?_addSdu_cases hget
    · rw [heq] at hpdu
      exact absurd rfl hpdu
    · exact hold
  jobs := fun _ hmem => Or.inl hmem
  results := fun _ hmem => Or.inl hmem

theorem assignCount_eq (hlt : ent.st.txNext + 1 < 2 ^ 32) : ent.assignCount buf now =
      (ent.withSdu (ent.windowElement buf now)).submit false ent.st.txNext buf := by
  rw [assignCount, withSdu, submit, submit]
  dsimp only
  rw [Nat.mod_eq_of_lt hlt]

theorem transmitSdu_calm (hok : ent.transmitSdu buf now = .ok ent') : Calm ent ent' := by
  rw [transmitSdu] at hok
  split at hok
  · cases hok
    exact refuseMaxCount_calm
  · rename_i hhard
    rw [Nat.not_le] at hhard
    have hnotified : Calm ent ent.checkMaxCountNotify := checkMaxCountNotify_calm
    have hstarted : Calm ent ent.checkMaxCountNotify.startDiscardTimer :=
      hnotified.trans startDiscardTimer_trimmed.calm
    have hst : ent.checkMaxCountNotify.startDiscardTimer.st = ent.st := by
      have hsame := @checkMaxCountNotify_same ent
      obtain ⟨_, heq, _⟩ := @startDiscardTimer_eq ent.checkMaxCountNotify
      rw [heq]
      exact hsame.st
    generalize ent.checkMaxCountNotify.startDiscardTimer = mid at hok hstarted hst
    dsimp only at hok
    split at hok
    · cases hok
    · have hlt : mid.st.txNext + 1 < 2 ^ 32 := by
        rw [hst]
        exact Nat.lt_of_le_of_lt hhard ent.cfg.maxCount.hard_lt
      rw [assignCount_eq hlt] at hok
      cases hok
      exact hstarted.trans ((withSdu_calm hlt).trans (submit_calm _ _ _))

theorem setBuffer_calm {buffering : Bool} {sduBuffer : List (List UInt8)} :
    Calm ent { ent with buffering, sduBuffer } :=
  calm_of_same ⟨rfl, rfl, rfl, rfl, rfl, rfl⟩ ⟨[], (List.append_nil _).symm, by simp⟩
    (fun _ hmem => Or.inl hmem) fun _ hmem => Or.inl hmem

theorem handleSdu_calm (hok : ent.handleSdu buf now = .ok ent') : Calm ent ent' := by
  rw [handleSdu] at hok
  split at hok
  · cases hok
    exact Calm.refl _
  · split at hok
    · split at hok
      · cases hok
        exact setBuffer_calm
      · cases hok
        exact Calm.refl _
    · split at hok
      · cases hok
        exact Calm.refl _
      · exact transmitSdu_calm hok

theorem handleSdus_calm {sdus : List (List UInt8)}
    (hok : sdus.foldlM (fun ent buf => ent.handleSdu buf now) ent = .ok ent') : Calm ent ent' := by
  induction sdus generalizing ent with
  | nil =>
    cases hok
    exact Calm.refl _
  | cons buf rest ih =>
    rw [List.foldlM_cons] at hok
    obtain ⟨mid, hmid, hok⟩ := bind_ok hok
    exact (handleSdu_calm hmid).trans (ih hok)

/-- No PDU was passed on since the start of the epoch. -/
def NoneSent (ent : PdcpEntityTx) : Prop :=
  ∀ notice ∈ Epochs.current startsEpoch ent.notices, notice.isNewPdu = false

theorem NoneSent.calm (h : NoneSent ent) (hc : Calm ent ent') : NoneSent ent' := by
  obtain ⟨rest, hnotices, hrest⟩ := hc.notices
  intro notice hmem
  rw [hnotices] at hmem
  cases hpdu : notice.isNewPdu with
  | false => rfl
  | true =>
    rw [h notice (mem_current_append hrest hpdu hmem)] at hpdu
    cases hpdu

theorem notify_noneSent (h : notice.startsEpoch = true) : NoneSent (ent.notify notice) := by
  rw [NoneSent, notify, Epochs.current_concat_of_marker h]
  intro _ hmem
  cases hmem

theorem rewind_inOrder (h : InOrder flagged ent) (hnone : NoneSent ent) : InOrder flagged ent.rewind where
  __ := h
  crypto_lt := Nat.lt_of_le_of_lt h.ack_le h.next_lt
  below := by
    intro count pdu isRetx generated hmem
    cases hnone _ hmem
  timer := fun _ => Nat.lt_or_ge ent.st.txReordCrypto ent.st.txNextAck |>.symm

theorem retransmitAllPdus_inOrder (h : InOrder flagged ent) (hnone : NoneSent ent) :
    InOrder flagged ent.retransmitAllPdus := by
  rw [retransmitAllPdus]
  split
  · exact h
  · exact (rewind_inOrder h hnone).calm retransmitLoop_calm

theorem reset_inOrder (h : InOrder flagged ent) (hnone : NoneSent ent) : InOrder flagged ent.reset := by
  have hcalm : Calm ent (ent.notify .countersReset) := notify_calm rfl
  have hnotified := h.toSending.calm hcalm
  have hnoneNotified : NoneSent (ent.notify .countersReset) := hnone.calm hcalm
  refine ⟨⟨Nat.two_pow_pos 32, Nat.two_pow_pos 32, Nat.le_refl _, Nat.le_refl _, ?_, ?_,
    hnotified.ordered, ?_, hnotified.sent, ?_, h.jobs, h.results⟩, fun _ => Or.inl (Nat.le_refl _)⟩
  · intro count elem hget
    cases hget
  · intro count elem hget
    cases hget
  · intro count pdu isRetx generated hmem
    cases hnoneNotified _ hmem
  · intro count elem hget
    cases hget

theorem configureSecurity_calm (secCfg : Sec128AsConfig) (integrityEnabled cipheringEnabled : Bool) :
    Calm ent (ent.configureSecurity secCfg integrityEnabled cipheringEnabled) := by
  rw [configureSecurity]
  split
  · exact Calm.refl ent
  · refine calm_of_same ⟨rfl, rfl, rfl, rfl, rfl, rfl⟩ ⟨[.securityConfigured], rfl, ?_⟩
      (fun _ hmem => Or.inl hmem) fun _ hmem => Or.inl hmem
    intro notice hmem
    rw [List.mem_singleton.mp hmem]
    rfl

theorem reestablish_inOrder {secCfg : Sec128AsConfig} (h : InOrder flagged ent) :
    InOrder flagged (ent.reestablish secCfg) := by
  have hstart : InOrder flagged (ent.notify .reestablished) := h.calm (notify_calm rfl)
  have hnone : NoneSent (ent.notify .reestablished) := notify_noneSent rfl
  have hrestart : ∃ mid : PdcpEntityTx, (if (ent.notify .reestablished).cfg.isSrb ∨
        (ent.notify .reestablished).cfg.isUm then (ent.notify .reestablished).reset
      else ent.notify .reestablished) = mid ∧ InOrder flagged mid ∧ NoneSent mid := by
    by_cases hcond : ent.cfg.isSrb = true ∨ ent.cfg.isUm = true
    · refine ⟨_, if_pos hcond, reset_inOrder hstart hnone, ?_⟩
      have hreset : NoneSent ((ent.notify .reestablished).notify .countersReset) :=
        hnone.calm (notify_calm rfl)
      exact hreset
    · exact ⟨_, if_neg hcond, hstart, hnone⟩
  obtain ⟨mid, heq, hmid, hmidNone⟩ := hrestart
  rw [reestablish, heq]
  have hcalm : Calm mid (mid.configureSecurity secCfg mid.integrityEnabled mid.cipheringEnabled) :=
    configureSecurity_calm _ _ _
  split
  · exact retransmitAllPdus_inOrder (hmid.calm hcalm) (hmidNone.calm hcalm)
  · exact hmid.calm hcalm

theorem stop_calm : Calm ent ent.stop := by
  rw [stop]
  split
  · exact Calm.refl ent
  · refine ⟨rfl, Nat.le_refl _, id, rfl, Nat.le_refl _, id, ?_, ?_, rfl, (by rintro ⟨⟩),
      ⟨[], (List.append_nil _).symm, by simp⟩, ?_, fun _ hmem => Or.inl hmem,
      fun _ hmem => Or.inl hmem⟩
    · intro _ _ count elem hget
      cases hget
    · intro _ count elem hget
      cases hget
    · intro count elem hget
      cases hget

theorem handleDesiredBufferSizeNotification_calm (desiredBs : Nat) :
    Calm ent (ent.handleDesiredBufferSizeNotification desiredBs) := by
  rw [handleDesiredBufferSizeNotification]
  split
  · exact Calm.refl ent
  · exact calm_of_same ⟨rfl, rfl, rfl, rfl, rfl, rfl⟩ ⟨[], (List.append_nil _).symm, by simp⟩
      (fun _ hmem => Or.inl hmem) fun _ hmem => Or.inl hmem

instance {isRetx : Bool} {first : Nat} : Decidable (WaitingFlag ent isRetx first) := by
  unfold WaitingFlag
  infer_instance

instance {info : PdcpTxBufferInfo} {count : Nat} : Decidable (ReleasedBy ent info count) :=
  inferInstanceAs (Decidable (_ ∧ _))

instance {info : PdcpTxBufferInfo} : Decidable (ResultFlag ent info) :=
  inferInstanceAs (Decidable (_ → _))

/-- A result releases only PDUs made with its own flag, and the expiry releases no retransmissions. -/
def flagsAgree (ent : PdcpEntityTx) : TxEvent → Bool
  | .runResult idx =>
    match ent.cryptoResults[idx]? with
    | some (.ok info) => decide (ent.ResultFlag info)
    | _ => true
  | .cryptoReorderingExpiry => decide (ent.WaitingFlag false ent.st.txReordCrypto)
  | _ => true

theorem step_inOrder {event : TxEvent} (h : InOrder flagged ent)
    (henabled : ent.enabled event = true) (hflags : flagged → ent.flagsAgree event = true)
    (hok : step engine ent event = .ok ent') : InOrder flagged ent' := by
  cases event with
  | handleSdu buf now => exact h.calm (handleSdu_calm hok)
  | beginBuffering =>
    cases hok
    exact h.calm setBuffer_calm
  | endBuffering now => exact (h.calm setBuffer_calm).calm (handleSdus_calm hok)
  | runCryptoJob idx => exact h.calm (runCryptoJob_calm h.toSending hok)
  | loseCryptoJob idx =>
    cases hok
    exact h.calm (takeJob_calm idx)
  | runResult idx =>
    apply runResult_inOrder h _ hok
    intro hf info hresult
    have hagree := hflags hf
    rw [flagsAgree, hresult] at hagree
    exact of_decide_eq_true hagree
  | loseResult idx =>
    cases hok
    exact h.calm (takeResult_calm idx)
  | cryptoReorderingExpiry =>
    exact cryptoReorderingTimeout_inOrder h henabled (fun hf => of_decide_eq_true (hflags hf)) hok
  | discardExpiry => exact h.calm (discardCallback_trimmed hok).calm
  | statusReport status =>
    cases hok
    exact h.calm (handleStatusReport_trimmed status).calm
  | transmitNotification notifSn => exact h.calm (handleTransmitNotification_trimmed hok).calm
  | deliveryNotification notifSn => exact h.calm (handleDeliveryNotification_trimmed hok).calm
  | retransmitNotification notifSn => exact h.calm (handleRetransmitNotification_trimmed hok).calm
  | deliveryRetransmittedNotification notifSn =>
    exact h.calm (handleDeliveryRetransmittedNotification_trimmed hok).calm
  | desiredBufferSize desiredBs =>
    cases hok
    exact h.calm (handleDesiredBufferSizeNotification_calm desiredBs)
  | configureSecurity secCfg integrityEnabled cipheringEnabled =>
    cases hok
    exact h.calm (configureSecurity_calm _ _ _)
  | dataRecovery =>
    cases hok
    have hstart : InOrder flagged (ent.notify .dataRecovery) := h.calm (notify_calm rfl)
    exact retransmitAllPdus_inOrder hstart (notify_noneSent rfl)
  | reestablish secCfg =>
    cases hok
    exact reestablish_inOrder h
  | stop =>
    cases hok
    exact h.calm stop_calm

theorem setCount_inOrder (cfg : PdcpTxConfig) (hfn : Nat) {sn : Nat} (hsn : sn < 2 ^ 32) :
    InOrder flagged ((create cfg).setCount hfn sn) := by
  have hcount : pdcpComputeCount hfn sn cfg.snSize < 2 ^ 32 :=
    Nat.or_lt_two_pow (Nat.mod_lt _ (Nat.two_pow_pos 32)) hsn
  refine ⟨⟨hcount, hcount, Nat.le_refl _, Nat.le_refl _, ?_, ?_, Epochs.ordered_nil, ?_, ?_, ?_, ?_,
    ?_⟩, nofun⟩
  · intro count elem hget
    cases hget
  · intro count elem hget
    cases hget
  · intro count pdu isRetx generated hmem
    cases hmem
  · intro count pdu isRetx generated hmem
    cases hmem
  · intro count elem hget
    cases hget
  · intro info hmem
    cases hmem
  · intro info hmem
    cases hmem

/-- The invariant holds in every run; the flags are right if all steps meet the condition for them. -/
theorem reaches_inOrder {cfg : PdcpTxConfig}
    {hfn sn : Nat} {guard : PdcpEntityTx → TxEvent → Prop} (hsn : sn < 2 ^ 32)
    (hguard : flagged → ∀ ent event, guard ent event → ent.flagsAgree event = true)
    (hrun : Runs.Reaches (next engine) guard ((create cfg).setCount hfn sn) ent) :
    InOrder flagged ent := by
  apply hrun.invariant (setCount_inOrder cfg hfn hsn)
  intro s event s' hs hstep hnext
  rw [next] at hnext
  split at hnext
  · rename_i henabled
    exact step_inOrder hs henabled (fun hf => hguard hf s event hstep) (toOption_eq_some hnext)
  · cases hnext

/-- In every run in which no PDU is released together with one of the other kind, the PDUs between two
calls of data recovery or re-establishment have ascending COUNTs, each starts with the header for its
COUNT, from which the receiver reads the SN, and is flagged as a retransmission iff it is one. -/
theorem pdcpTx_inOrder {engine : SecurityContext → SecurityEngine} {cfg : PdcpTxConfig}
    {hfn sn : Nat} (hsn : sn < 2 ^ 32)
    (hrun : Runs.Reaches (next engine) (fun ent event => ent.flagsAgree event = true)
      ((create cfg).setCount hfn sn) ent) :
    Epochs.Ordered startsEpoch TxNotice.Ascending ent.notices ∧
      ∀ count pdu isRetx generated, .newPdu count pdu isRetx generated ∈ ent.notices →
        CarriesSn ent.cfg count pdu ∧
          (∀ rxCfg : PdcpRxConfig, rxCfg.snSize = ent.cfg.snSize →
            pdcpDataPduHeaderSize ent.cfg.snSize < pdu.length →
              PdcpEntityRx.readDataPduHeader rxCfg pdu =
                some (pdcpComputeSn count ent.cfg.snSize)) ∧
          (isRetx = true ↔ generated = true) := by
  have hinv : InOrder True ent := reaches_inOrder hsn (fun _ _ _ hflags => hflags) hrun
  refine ⟨hinv.ordered, ?_⟩
  intro count pdu isRetx generated hmem
  obtain ⟨hcarries, hflag⟩ := hinv.sent count pdu isRetx generated hmem
  refine ⟨hcarries, ?_, by rw [hflag trivial]⟩
  intro rxCfg hsize hlen
  exact readDataPduHeader_of_carriesSn hsize hcarries hlen

/-- Two SDUs are protected in the wrong order, and again after data recovery. -/
theorem pdcpTx_inOrder_recovered : ∃ ent : PdcpEntityTx,
    ent.notices.filter isNewPdu =
        [.newPdu 0 [0x80, 0, 0xaa] false false, .newPdu 1 [0x80, 1, 0xbb] false false,
          .newPdu 0 [0x80, 0, 0xaa] true true, .newPdu 1 [0x80, 1, 0xbb] true true] ∧
      Epochs.Ordered startsEpoch TxNotice.Ascending ent.notices ∧
      ∀ count pdu isRetx generated, .newPdu count pdu isRetx generated ∈ ent.notices →
        CarriesSn ent.cfg count pdu ∧
          (∀ rxCfg : PdcpRxConfig, rxCfg.snSize = ent.cfg.snSize →
            pdcpDataPduHeaderSize ent.cfg.snSize < pdu.length →
              PdcpEntityRx.readDataPduHeader rxCfg pdu =
                some (pdcpComputeSn count ent.cfg.snSize)) ∧
          (isRetx = true ↔ generated = true) := by
  have hobserved : (Runs.runAll (Runs.guarded (next fun _ => SecurityEngine.disabled)
        fun ent event => ent.flagsAgree event = true)
      ((create ⟨.drb, .am, .size12bits, some .infinity, false,
        ⟨0xc0000000, 0xfffffffe, by decide⟩, (by rintro ⟨⟩)⟩).setCount 0 0)
      [.configureSecurity ⟨none, [], none, .nea0⟩ false false, .desiredBufferSize 1000,
        .handleSdu [0xaa] 0, .handleSdu [0xbb] 0, .runCryptoJob 1, .runResult 0, .runCryptoJob 0,
        .runResult 0, .dataRecovery, .runCryptoJob 1, .runResult 0, .runCryptoJob 0,
        .runResult 0]).map (fun ent => ent.notices.filter isNewPdu) =
      some [.newPdu 0 [0x80, 0, 0xaa] false false, .newPdu 1 [0x80, 1, 0xbb] false false,
        .newPdu 0 [0x80, 0, 0xaa] true true, .newPdu 1 [0x80, 1, 0xbb] true true] := by
    decide +kernel
  obtain ⟨ent, hrun, hent⟩ := Option.map_eq_some_iff.mp hobserved
  exact ⟨ent, hent, pdcpTx_inOrder (by decide) (Runs.reaches_of_runGuarded .start hrun)⟩

/-- COUNT 0 is sent, data is recovered, and a new SDU gets COUNT 1. Its PDU is ready before the
retransmission of COUNT 0, is released with it, and goes out as a retransmission. -/
theorem pdcpTx_newPduFlaggedAsRetx : ∃ ent : PdcpEntityTx,
    Runs.Reaches (next fun _ => SecurityEngine.disabled) (fun _ _ => True)
        ((create ⟨.drb, .am, .size12bits, some .infinity, false,
          ⟨0xc0000000, 0xfffffffe, by decide⟩, nofun⟩).setCount 0 0) ent ∧
      .newPdu 1 [0x80, 1, 0xbb] true false ∈ ent.notices := by
  have hobserved : (Runs.runAll (next fun _ => SecurityEngine.disabled)
      ((create ⟨.drb, .am, .size12bits, some .infinity, false,
        ⟨0xc0000000, 0xfffffffe, by decide⟩, nofun⟩).setCount 0 0)
      [.configureSecurity ⟨none, [], none, .nea0⟩ false false, .desiredBufferSize 1000,
        .handleSdu [0xaa] 0, .runCryptoJob 0, .runResult 0, .dataRecovery, .handleSdu [0xbb] 0,
        .runCryptoJob 1, .runResult 0, .runCryptoJob 0, .runResult 0]).map
      (fun ent => ent.notices.filter isNewPdu) =
      some [.newPdu 0 [0x80, 0, 0xaa] false false, .newPdu 0 [0x80, 0, 0xaa] true true,
        .newPdu 1 [0x80, 1, 0xbb] true false] := by
    decide +kernel
  obtain ⟨ent, hrun, hent⟩ := Option.map_eq_some_iff.mp hobserved
  refine ⟨ent, Runs.reaches_of_runAll .start (fun _ _ _ => trivial) hrun, ?_⟩
  apply List.mem_of_mem_filter
  rw [hent]
  exact List.mem_cons_of_mem _ (List.mem_cons_of_mem _ List.mem_cons_self)

end PdcpEntityTx

end Srsran.Pdcp
