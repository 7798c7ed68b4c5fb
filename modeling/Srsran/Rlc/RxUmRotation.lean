import Srsran.Rlc.RxUmState
import Srsran.Rlc.SnRotation

/-! Rotation of the SN space of the UM receiver: all SNs of the state and of a PDU are shifted by the
same amount. Every part of a step commutes with the shift, except for two comparisons of the stop
conditions of t-Reassembly. -/
namespace Srsran.Rlc
open ModOrder Srsran.Adt Srsran.Support Checked

def writeUmSn : RlcUmSnSize → Nat → List UInt8 → List UInt8
  | .size6bits, sn, b0 :: rest => UInt8.ofNat (b0.toNat / 64 * 64 + sn) :: rest
  | .size12bits, sn, b0 :: _ :: rest =>
    UInt8.ofNat (b0.toNat / 16 * 16 + sn / 256) :: UInt8.ofNat (sn % 256) :: rest
  | _, _, pdu => pdu

/-- The PDU with its SN shifted; PDUs that carry no SN stay as they are. -/
def shiftUmPdu (snSize : RlcUmSnSize) (k : Nat) (pdu : List UInt8) : List UInt8 :=
  match rlcUmReadDataPduHeader pdu snSize with
  | some header =>
    if header.si = .fullSdu then pdu
    else writeUmSn snSize ((header.sn + k) % cardinality snSize.toNumber) pdu
  | none => pdu

theorem readUmSi_of_div {a b : UInt8} (h : a.toNat / 64 = b.toNat / 64) : readUmSi a = readUmSi b := by
  rw [readUmSi, readUmSi, Nat.shiftRight_eq_div_pow, Nat.shiftRight_eq_div_pow, h]

theorem readUmFixedPart_writeUmSn {snSize : RlcUmSnSize} {pdu rest : List UInt8} {si : RlcSiField}
    {old sn : Nat} (hread : readUmFixedPart snSize pdu = some (si, old, rest)) (hsi : si ≠ .fullSdu)
    (hsn : sn < cardinality snSize.toNumber) :
    readUmFixedPart snSize (writeUmSn snSize sn pdu) = some (si, sn, rest) := by
  cases snSize with
  | size6bits =>
    have hsn' : sn < 64 := hsn
    cases pdu with
    | nil => cases hread
    | cons b0 tail =>
      have hb := b0.toNat_lt
      have hbyte : (UInt8.ofNat (b0.toNat / 64 * 64 + sn)).toNat = b0.toNat / 64 * 64 + sn := by
        rw [UInt8.toNat_ofNat']
        omega
      have hsame : readUmSi (UInt8.ofNat (b0.toNat / 64 * 64 + sn)) = readUmSi b0 := by
        apply readUmSi_of_div
        rw [hbyte]
        omega
      simp only [readUmFixedPart] at hread
      split at hread
      · cases hread
      · cases hread
        simp only [writeUmSn, readUmFixedPart, hsame, hbyte, land_sixBits]
        rw [if_neg fun h => hsi h.1]
        have hlow : (b0.toNat / 64 * 64 + sn) % 64 = sn := by omega
        rw [hlow]
  | size12bits =>
    have hsn' : sn < 4096 := hsn
    cases pdu with
    | nil => cases hread
    | cons b0 tail =>
      have hb := b0.toNat_lt
      have hbyte : (UInt8.ofNat (b0.toNat / 16 * 16 + sn / 256)).toNat =
          b0.toNat / 16 * 16 + sn / 256 := by
        rw [UInt8.toNat_ofNat']
        omega
      have hsame : readUmSi (UInt8.ofNat (b0.toNat / 16 * 16 + sn / 256)) = readUmSi b0 := by
        apply readUmSi_of_div
        rw [hbyte]
        omega
      simp only [readUmFixedPart] at hread
      split at hread
      · split at hread
        · cases hread
        · cases hread
          exact absurd rfl hsi
      · rename_i hfull
        split at hread
        · cases hread
        · rename_i hreserved
          cases tail with
          | nil => cases hread
          | cons b1 tail =>
            cases hread
            have hlow : (UInt8.ofNat (sn % 256)).toNat = sn % 256 := by
              rw [UInt8.toNat_ofNat']
              omega
            have hreservedBits : (b0.toNat / 16 * 16 + sn / 256) >>> 4 = b0.toNat >>> 4 := by
              rw [Nat.shiftRight_eq_div_pow, Nat.shiftRight_eq_div_pow]
              omega
            have hvalue : (((b0.toNat / 16 * 16 + sn / 256) &&& 0x0f) <<< 8) |||
                (sn % 256 &&& 0xff) = sn := by
              have hmod : sn % 256 % 256 < 2 ^ 8 := by omega
              rw [land_nibble, land_byte, ← Nat.shiftLeft_add_eq_or_of_lt hmod,
                Nat.shiftLeft_eq]
              omega
            simp only [writeUmSn, readUmFixedPart, hsame, hbyte, hlow, hreservedBits, hvalue]
            rw [if_neg hfull, if_neg hreserved]

theorem length_writeUmSn (snSize : RlcUmSnSize) (sn : Nat) (pdu : List UInt8) :
    (writeUmSn snSize sn pdu).length = pdu.length := by
  unfold writeUmSn
  split <;> rfl

theorem drop_writeUmSn (snSize : RlcUmSnSize) (sn : Nat) (pdu : List UInt8) {header : RlcUmPduHeader}
    (hsize : header.snSize = snSize) (hsi : header.si ≠ .fullSdu) :
    (writeUmSn snSize sn pdu).drop (rlcUmNrPackedLength header) =
      pdu.drop (rlcUmNrPackedLength header) := by
  rw [rlcUmNrPackedLength, if_neg hsi, hsize]
  cases snSize with
  | size6bits =>
    cases pdu with
    | nil => rfl
    | cons b0 rest => rw [writeUmSn, Nat.add_comm, List.drop_succ_cons, List.drop_succ_cons]
  | size12bits =>
    cases pdu with
    | nil => rfl
    | cons b0 tail =>
      cases tail with
      | nil => rfl
      | cons b1 rest =>
        rw [writeUmSn, Nat.add_comm]
        rfl

theorem rlcUmReadDataPduHeader_writeUmSn {snSize : RlcUmSnSize} {pdu : List UInt8}
    {header : RlcUmPduHeader} {sn : Nat} (hread : rlcUmReadDataPduHeader pdu snSize = some header)
    (hsi : header.si ≠ .fullSdu) (hsn : sn < cardinality snSize.toNumber) :
    rlcUmReadDataPduHeader (writeUmSn snSize sn pdu) snSize = some { header with sn } := by
  simp only [rlcUmReadDataPduHeader, Option.bind_eq_bind, Option.bind_eq_some_iff, Prod.exists,
    Option.pure_def, Option.some.injEq] at hread ⊢
  obtain ⟨si, old, rest, hfixed, so, hso, rfl⟩ := hread
  exact ⟨si, sn, rest, readUmFixedPart_writeUmSn hfixed hsi hsn, so, hso, rfl⟩

def RxUmOutput.shift (output : RxUmOutput) (m k : Nat) : RxUmOutput :=
  { output with lostSns := output.lostSns.map fun sn => (sn + k) % m }

namespace RlcRxUmEntity

def shift (ent : RlcRxUmEntity) (k : Nat) : RlcRxUmEntity :=
  { ent with
    st :=
      { rxNextReassembly := (ent.st.rxNextReassembly + k) % ent.mod
        rxTimerTrigger := (ent.st.rxTimerTrigger + k) % ent.mod
        rxNextHighest := (ent.st.rxNextHighest + k) % ent.mod }
    rxWindow := ent.rxWindow.shiftKeys ent.mod k }

def Event.shift (snSize : RlcUmSnSize) (k : Nat) : Event → Event
  | .pdu bytes => .pdu (shiftUmPdu snSize k bytes)
  | .reassemblyTimerExpired => .reassemblyTimerExpired

variable (ent : RlcRxUmEntity)

@[simp] theorem mod_shift (k : Nat) : (ent.shift k).mod = ent.mod := rfl

@[simp] theorem rxWindow_shift (k : Nat) :
    (ent.shift k).rxWindow = ent.rxWindow.shiftKeys ent.mod k := rfl

theorem rxNextReassembly_shift_mod (k : Nat) :
    (ent.shift k).st.rxNextReassembly % ent.mod =
      (ent.st.rxNextReassembly % ent.mod + k) % ent.mod := by
  show (ent.st.rxNextReassembly + k) % ent.mod % ent.mod = _
  rw [Nat.mod_mod, Nat.mod_add_mod]

/-- Variables and keys are reduced modulo the number of SNs. -/
structure Reduced (ent : RlcRxUmEntity) : Prop where
  window : ent.rxWindow.Fits ent.mod ent.umWindowSize
  rxNextReassembly : ent.st.rxNextReassembly < ent.mod
  rxTimerTrigger : ent.st.rxTimerTrigger < ent.mod
  rxNextHighest : ent.st.rxNextHighest < ent.mod

theorem RxUmInv.reduced {ent : RlcRxUmEntity} {next highest : Nat} (h : RxUmInv ent next highest) :
    Reduced ent where
  window := ⟨h.window.ok.capacity, h.window.ok.keys_lt⟩
  rxNextReassembly := by
    rw [h.rxNextReassembly]
    exact Nat.mod_lt _ ent.modulus.pos
  rxTimerTrigger := h.trigger_lt
  rxNextHighest := by
    rw [h.rxNextHighest]
    exact Nat.mod_lt _ ent.modulus.pos

section Comparisons
variable {ent : RlcRxUmEntity} {k x y sn : Nat}

theorem rxModBase_shift (h : y ≡ x + k [MOD ent.mod]) :
    (ent.shift k).rxModBase y = ent.rxModBase x := by
  show rebase ent.mod ((ent.st.rxNextHighest + k) % ent.mod + ent.umWindowSize) y = _
  have hbase : (ent.st.rxNextHighest + k) % ent.mod + ent.umWindowSize ≡
      ent.st.rxNextHighest + ent.umWindowSize + k [MOD ent.mod] := by
    calc (ent.st.rxNextHighest + k) % ent.mod + ent.umWindowSize
        ≡ ent.st.rxNextHighest + k + ent.umWindowSize [MOD ent.mod] :=
          (Nat.mod_modEq _ _).add_right _
      _ = ent.st.rxNextHighest + ent.umWindowSize + k := by omega
  rw [rebase_congr ent.modulus hbase h, rebase_shift ent.modulus, rxModBase]

theorem rxModBase_shift_mod : (ent.shift k).rxModBase ((x + k) % ent.mod) = ent.rxModBase x :=
  rxModBase_shift (Nat.mod_modEq _ _)

theorem rxModBase_shift_windowStart :
    (ent.shift k).rxModBase (ent.shift k).windowStart = ent.rxModBase ent.windowStart := by
  apply rxModBase_shift
  have hreduce : ∀ n, n % 2 ^ 32 ≡ n [MOD ent.mod] := fun n => Nat.mod_mod_of_dvd n ent.modulus.dvd
  show ((ent.st.rxNextHighest + k) % ent.mod + (2 ^ 32 - ent.umWindowSize)) % 2 ^ 32 ≡
    (ent.st.rxNextHighest + (2 ^ 32 - ent.umWindowSize)) % 2 ^ 32 + k [MOD ent.mod]
  calc ((ent.st.rxNextHighest + k) % ent.mod + (2 ^ 32 - ent.umWindowSize)) % 2 ^ 32
      ≡ (ent.st.rxNextHighest + k) % ent.mod + (2 ^ 32 - ent.umWindowSize) [MOD ent.mod] := hreduce _
    _ ≡ ent.st.rxNextHighest + k + (2 ^ 32 - ent.umWindowSize) [MOD ent.mod] :=
        (Nat.mod_modEq _ _).add_right _
    _ = ent.st.rxNextHighest + (2 ^ 32 - ent.umWindowSize) + k := by omega
    _ ≡ (ent.st.rxNextHighest + (2 ^ 32 - ent.umWindowSize)) % 2 ^ 32 + k [MOD ent.mod] :=
        (hreduce _).symm.add_right k

theorem rxModBase_shift_highest : (ent.shift k).rxModBase (ent.shift k).st.rxNextHighest =
    ent.rxModBase ent.st.rxNextHighest := rxModBase_shift_mod

theorem snInReassemblyWindow_shift :
    (ent.shift k).snInReassemblyWindow ((sn + k) % ent.mod) = ent.snInReassemblyWindow sn := by
  rw [snInReassemblyWindow, rxModBase_shift_windowStart, rxModBase_shift_mod,
    rxModBase_shift_highest, snInReassemblyWindow]

theorem snInvalidForRxBuffer_shift :
    (ent.shift k).snInvalidForRxBuffer ((sn + k) % ent.mod) = ent.snInvalidForRxBuffer sn := by
  have hnext : (ent.shift k).rxModBase (ent.shift k).st.rxNextReassembly =
      ent.rxModBase ent.st.rxNextReassembly := rxModBase_shift_mod
  rw [snInvalidForRxBuffer, rxModBase_shift_windowStart, rxModBase_shift_mod, hnext,
    snInvalidForRxBuffer]

end Comparisons

section Windows
variable {window : CircularMap RlcRxUmSduInfo} {m w k sn : Nat}

theorem fullyReceivedAt_shift (h : window.Fits m w) (hs : WindowShape m w) (hsn : sn < m) :
    fullyReceivedAt (window.shiftKeys m k) ((sn + k) % m) = fullyReceivedAt window sn := by
  rw [fullyReceivedAt, h.get?_shiftKeys hs hsn, fullyReceivedAt]

theorem hasGapAt_shift (h : window.Fits m w) (hs : WindowShape m w) (hsn : sn < m) :
    hasGapAt (window.shiftKeys m k) ((sn + k) % m) = hasGapAt window sn := by
  rw [hasGapAt, h.get?_shiftKeys hs hsn, hasGapAt]

theorem hasNoGapAt_shift (h : window.Fits m w) (hs : WindowShape m w) (hsn : sn < m) :
    hasNoGapAt (window.shiftKeys m k) ((sn + k) % m) = hasNoGapAt window sn := by
  rw [hasNoGapAt, h.get?_shiftKeys hs hsn, hasNoGapAt]

theorem lostAt_shift (h : window.Fits m w) (hs : WindowShape m w) (hsn : sn < m) :
    lostAt (window.shiftKeys m k) ((sn + k) % m) =
      (lostAt window sn).map fun sn => (sn + k) % m := by
  rw [lostAt, fullyReceivedAt_shift h hs hsn, lostAt]
  split <;> rfl

theorem succ_shift (sn : Nat) : ((sn + k) % m + 1) % m = ((sn + 1) % m + k) % m := by
  rw [succ_mod_mod, Nat.mod_add_mod]
  congr 1
  omega

end Windows

section Loops
variable {ent : RlcRxUmEntity} {k : Nat} {turns sn : Nat} {window : CircularMap RlcRxUmSduInfo}

theorem releaseReceived_shift (h : window.Fits ent.mod ent.umWindowSize) (hsn : sn < ent.mod) :
    (ent.shift k).releaseReceived turns ((sn + k) % ent.mod) (window.shiftKeys ent.mod k) =
      (((ent.releaseReceived turns sn window).1 + k) % ent.mod,
        (ent.releaseReceived turns sn window).2.shiftKeys ent.mod k) := by
  induction turns generalizing sn window with
  | zero => rfl
  | succ turns ih =>
    rw [releaseReceived, releaseReceived, rxModBase_shift_mod, rxModBase_shift_highest,
      fullyReceivedAt_shift h ent.shape hsn]
    split
    · rw [h.erase_shiftKeys ent.shape hsn, mod_shift, succ_shift,
        ih (h.erase sn) (Nat.mod_lt _ ent.modulus.pos)]
    · rfl

variable {lost : List Nat}

theorem discardOutside_fits (h : window.Fits ent.mod ent.umWindowSize) (hsn : sn < ent.mod) :
    (ent.discardOutside turns sn window lost).1 < ent.mod ∧
      (ent.discardOutside turns sn window lost).2.1.Fits ent.mod ent.umWindowSize := by
  induction turns generalizing sn window lost with
  | zero => exact ⟨hsn, h⟩
  | succ turns ih =>
    rw [discardOutside]
    split
    · exact ⟨hsn, h⟩
    · exact ih (h.erase sn) (Nat.mod_lt _ ent.modulus.pos)

theorem discardOutside_shift (h : window.Fits ent.mod ent.umWindowSize) (hsn : sn < ent.mod) :
    (ent.shift k).discardOutside turns ((sn + k) % ent.mod) (window.shiftKeys ent.mod k)
        (lost.map fun sn => (sn + k) % ent.mod) =
      (((ent.discardOutside turns sn window lost).1 + k) % ent.mod,
        (ent.discardOutside turns sn window lost).2.1.shiftKeys ent.mod k,
        (ent.discardOutside turns sn window lost).2.2.map fun sn => (sn + k) % ent.mod) := by
  induction turns generalizing sn window lost with
  | zero => rfl
  | succ turns ih =>
    rw [discardOutside, discardOutside, snInReassemblyWindow_shift]
    split
    · rfl
    · rw [h.erase_shiftKeys ent.shape hsn, lostAt_shift h ent.shape hsn, ← List.map_append,
        mod_shift, succ_shift, ih (h.erase sn) (Nat.mod_lt _ ent.modulus.pos)]

theorem releaseExpired_fits (h : window.Fits ent.mod ent.umWindowSize) (hsn : sn < ent.mod) :
    (ent.releaseExpired turns sn window lost).1 < ent.mod ∧
      (ent.releaseExpired turns sn window lost).2.1.Fits ent.mod ent.umWindowSize := by
  have hmod : ∀ n, n % ent.mod < ent.mod := fun n => Nat.mod_lt n ent.modulus.pos
  induction turns generalizing sn window lost with
  | zero => exact ⟨hsn, h⟩
  | succ turns ih =>
    rw [releaseExpired]
    split
    · split
      · exact ih (h.erase sn) (hmod _)
      · split
        · exact ih (h.erase sn) (hmod _)
        · exact ⟨hsn, h⟩
    · exact ⟨hsn, h⟩

theorem releaseExpired_shift (h : window.Fits ent.mod ent.umWindowSize) (hsn : sn < ent.mod) :
    (ent.shift k).releaseExpired turns ((sn + k) % ent.mod) (window.shiftKeys ent.mod k)
        (lost.map fun sn => (sn + k) % ent.mod) =
      (((ent.releaseExpired turns sn window lost).1 + k) % ent.mod,
        (ent.releaseExpired turns sn window lost).2.1.shiftKeys ent.mod k,
        (ent.releaseExpired turns sn window lost).2.2.map fun sn => (sn + k) % ent.mod) := by
  have hmod : ∀ n, n % ent.mod < ent.mod := fun n => Nat.mod_lt n ent.modulus.pos
  have htrigger : (ent.shift k).rxModBase (ent.shift k).st.rxTimerTrigger =
      ent.rxModBase ent.st.rxTimerTrigger := rxModBase_shift_mod
  induction turns generalizing sn window lost with
  | zero => rfl
  | succ turns ih =>
    rw [releaseExpired, releaseExpired, rxModBase_shift_mod, rxModBase_shift_highest, htrigger,
      fullyReceivedAt_shift h ent.shape hsn, h.erase_shiftKeys ent.shape hsn,
      lostAt_shift h ent.shape hsn, ← List.map_append, mod_shift, succ_shift,
      ih (h.erase sn) (hmod _), ih (h.erase sn) (hmod _)]
    split
    · split
      · rfl
      · split <;> rfl
    · rfl

end Loops

section Reception
variable {ent : RlcRxUmEntity} {k sn : Nat} {header : RlcUmPduHeader} {payload : List UInt8}

def shiftHeader (header : RlcUmPduHeader) (m k : Nat) : RlcUmPduHeader :=
  { header with sn := (header.sn + k) % m }

section
variable (h : Reduced ent)
include h

theorem Reduced.setWindow {window : CircularMap RlcRxUmSduInfo}
    (hwindow : window.Fits ent.mod ent.umWindowSize) : Reduced { ent with rxWindow := window } :=
  ⟨hwindow, h.rxNextReassembly, h.rxTimerTrigger, h.rxNextHighest⟩

theorem Reduced.setNextHighest (sn : Nat) : Reduced (ent.setNextHighest sn) :=
  ⟨h.window, h.rxNextReassembly, h.rxTimerTrigger, Nat.mod_lt _ ent.modulus.pos⟩

theorem storedInfo_shift (hsn : header.sn < ent.mod) :
    storedInfo (ent.shift k).rxWindow (shiftHeader header ent.mod k) payload =
      storedInfo ent.rxWindow header payload := by
  have hget : (ent.shift k).rxWindow.get? ((header.sn + k) % ent.mod) =
      ent.rxWindow.get? header.sn := h.window.get?_shiftKeys ent.shape hsn
  unfold storedInfo shiftHeader
  rw [hget]

theorem handleSegmentDataSdu_shift (hsn : header.sn < ent.mod) :
    (ent.shift k).handleSegmentDataSdu (shiftHeader header ent.mod k) payload =
      (ent.handleSegmentDataSdu header payload).shift k := by
  unfold handleSegmentDataSdu
  rw [storedInfo_shift h hsn]
  show (if header.si = .fullSdu then ent.shift k else _) = _
  split
  · rfl
  · have hwindow : (ent.shift k).rxWindow.overwrite (shiftHeader header ent.mod k).sn
        (storedInfo ent.rxWindow header payload) =
        (ent.rxWindow.overwrite header.sn (storedInfo ent.rxWindow header payload)).shiftKeys
          ent.mod k := h.window.overwrite_shiftKeys ent.shape hsn _
    rw [hwindow]
    rfl

theorem Reduced.handleSegmentDataSdu (hsn : header.sn < ent.mod) :
    Reduced (ent.handleSegmentDataSdu header payload) := by
  unfold RlcRxUmEntity.handleSegmentDataSdu
  split
  · exact h
  · exact h.setWindow (h.window.overwrite hsn _)

theorem sduInfo_shift (hsn : sn < ent.mod) :
    (ent.shift k).sduInfo ((sn + k) % ent.mod) = ent.sduInfo sn := by
  have hget : (ent.shift k).rxWindow.get? ((sn + k) % ent.mod) = ent.rxWindow.get? sn :=
    h.window.get?_shiftKeys ent.shape hsn
  rw [sduInfo, hget, sduInfo]

theorem releaseSegments_shift (hsn : sn < ent.mod) :
    (ent.shift k).releaseSegments ((sn + k) % ent.mod) = (ent.releaseSegments sn).shift k := by
  have hwindow : (ent.shift k).rxWindow.overwrite ((sn + k) % ent.mod)
      { ent.sduInfo sn with segments := [] } =
      (ent.rxWindow.overwrite sn { ent.sduInfo sn with segments := [] }).shiftKeys ent.mod k :=
    h.window.overwrite_shiftKeys ent.shape hsn _
  rw [releaseSegments, sduInfo_shift h hsn, hwindow, releaseSegments]
  rfl

theorem Reduced.releaseSegments (hsn : sn < ent.mod) : Reduced (ent.releaseSegments sn) :=
  h.setWindow (h.window.overwrite hsn _)

theorem advanceNextReassembly_shift (hsn : sn < ent.mod) :
    (ent.shift k).advanceNextReassembly ((sn + k) % ent.mod) =
      (ent.advanceNextReassembly sn).shift k := by
  have hmod : ent.st.rxNextReassembly % ent.mod < ent.mod := Nat.mod_lt _ ent.modulus.pos
  unfold advanceNextReassembly
  rw [mod_shift, rxNextReassembly_shift_mod, rxWindow_shift, releaseReceived_shift h.window hmod]
  by_cases heq : sn = ent.st.rxNextReassembly
  · have heq' : (sn + k) % ent.mod = (ent.shift k).st.rxNextReassembly := by
      rw [heq]
      rfl
    rw [if_pos heq, if_pos heq']
    rfl
  · have hne : (sn + k) % ent.mod ≠ (ent.shift k).st.rxNextReassembly :=
      fun hshift => heq (shift_inj hsn h.rxNextReassembly hshift)
    rw [if_neg heq, if_neg hne]

end

theorem setNextHighest_shift :
    (ent.shift k).setNextHighest ((sn + k) % ent.mod) = (ent.setNextHighest sn).shift k := by
  unfold setNextHighest
  rw [mod_shift, succ_shift]
  rfl

theorem cleanReassemblyWindow_shift (h : Reduced ent) :
    (ent.shift k).cleanReassemblyWindow =
      (ent.cleanReassemblyWindow.1.shift k,
        ent.cleanReassemblyWindow.2.map fun sn => (sn + k) % ent.mod) := by
  have hmod : ent.st.rxNextReassembly % ent.mod < ent.mod := Nat.mod_lt _ ent.modulus.pos
  have hfits := @discardOutside_fits ent ent.mod _ _ [] h.window hmod
  have hcleaned := @discardOutside_shift ent k ent.mod _ _ [] h.window hmod
  rw [List.map_nil] at hcleaned
  unfold cleanReassemblyWindow
  rw [mod_shift, rxNextReassembly_shift_mod, rxWindow_shift, hcleaned]
  dsimp only
  rw [releaseReceived_shift hfits.2 hfits.1]
  rfl

theorem updateRxBuffer_shift (h : Reduced ent) (hsn : sn < ent.mod) :
    (ent.shift k).updateRxBuffer ((sn + k) % ent.mod) =
      ((ent.updateRxBuffer sn).1.shift k, (ent.updateRxBuffer sn).2.shift ent.mod k) := by
  have hfull : fullyReceivedAt (ent.shift k).rxWindow ((sn + k) % ent.mod) =
      fullyReceivedAt ent.rxWindow sn := fullyReceivedAt_shift h.window ent.shape hsn
  have hadvance : (ent.releaseSegments sn |>.shift k).advanceNextReassembly ((sn + k) % ent.mod) =
      ((ent.releaseSegments sn).advanceNextReassembly sn).shift k :=
    advanceNextReassembly_shift (h.releaseSegments hsn) hsn
  have hclean := @cleanReassemblyWindow_shift (ent.setNextHighest sn) k (h.setNextHighest sn)
  unfold updateRxBuffer
  rw [hfull, snInReassemblyWindow_shift, releaseSegments_shift h hsn, hadvance, sduInfo_shift h hsn,
    setNextHighest_shift, hclean]
  split
  · rfl
  · split <;> rfl

end Reception

section Timer
variable {ent : RlcRxUmEntity} {k : Nat}

section
variable (h : Reduced ent)
include h

theorem Reduced.shift : Reduced (ent.shift k) where
  window := h.window.shiftKeys ent.modulus.pos
  rxNextReassembly := Nat.mod_lt _ ent.modulus.pos
  rxTimerTrigger := Nat.mod_lt _ ent.modulus.pos
  rxNextHighest := Nat.mod_lt _ ent.modulus.pos

theorem mustStartTimer_shift : (ent.shift k).mustStartTimer = ent.mustStartTimer := by
  have hnext : (ent.shift k).rxModBase ((ent.shift k).st.rxNextReassembly + 1) =
      ent.rxModBase (ent.st.rxNextReassembly + 1) := by
    apply rxModBase_shift
    show (ent.st.rxNextReassembly + k) % ent.mod + 1 ≡ _ [MOD ent.mod]
    calc (ent.st.rxNextReassembly + k) % ent.mod + 1
        ≡ ent.st.rxNextReassembly + k + 1 [MOD ent.mod] := (Nat.mod_modEq _ _).add_right 1
      _ = ent.st.rxNextReassembly + 1 + k := by omega
  have hgap : hasGapAt (ent.shift k).rxWindow (ent.shift k).st.rxNextHighest =
      hasGapAt ent.rxWindow ent.st.rxNextHighest :=
    hasGapAt_shift h.window ent.shape h.rxNextHighest
  rw [mustStartTimer, hnext, rxModBase_shift_highest, hgap, mustStartTimer]

theorem restartReassemblyTimer_shift : (ent.shift k).restartReassemblyTimer =
      ent.restartReassemblyTimer.map fun result => (result.1.shift k, result.2) := by
  rw [restartReassemblyTimer, restartReassemblyTimer, mustStartTimer_shift h]
  split
  · rw [runReassemblyTimer, runReassemblyTimer]
    show (if ent.cfg.tReassembly = 0 then _ else _) = _
    split <;> rfl
  · rfl

theorem startReassemblyTimer_shift : (ent.shift k).startReassemblyTimer =
      ent.startReassemblyTimer.map fun result => (result.1.shift k, result.2) := by
  rw [startReassemblyTimer, startReassemblyTimer, restartReassemblyTimer_shift h]
  show (if ent.reassemblyTimerRunning then _ else _) = _
  split <;> rfl

/-- If the stop conditions agree, the whole timer update commutes with the shift. -/
theorem updateReassemblyTimer_shift (hstop : ent.reassemblyTimerRunning = true →
      (ent.shift k).mustStopTimer = ent.mustStopTimer) :
    (ent.shift k).updateReassemblyTimer =
      ent.updateReassemblyTimer.map fun result => (result.1.shift k, result.2) := by
  have hsame : (ent.shift k).stopReassemblyTimer =
      (ent.stopReassemblyTimer.1.shift k, ent.stopReassemblyTimer.2) := by
    rw [stopReassemblyTimer, stopReassemblyTimer]
    show (if ent.reassemblyTimerRunning && (ent.shift k).mustStopTimer then _ else _) = _
    cases hrun : ent.reassemblyTimerRunning with
    | false => rfl
    | true =>
      rw [hstop hrun, Bool.true_and]
      split <;> rfl
  have hreduced : Reduced ent.stopReassemblyTimer.1 := by
    rw [stopReassemblyTimer_fst]
    exact { h with }
  rw [updateReassemblyTimer, updateReassemblyTimer, hsame, startReassemblyTimer_shift hreduced]
  cases ent.stopReassemblyTimer.1.startReassemblyTimer with
  | error e => rfl
  | ok result => rfl

end

/-- The stop conditions with every comparison made modulo the number of SNs. -/
def stopsAnywhere (ent : RlcRxUmEntity) : Bool :=
  ent.st.rxTimerTrigger == ent.st.rxNextReassembly ||
  (!ent.snInReassemblyWindow ent.st.rxTimerTrigger &&
    ent.st.rxTimerTrigger != ent.st.rxNextHighest) ||
  (ent.st.rxNextHighest == (ent.st.rxNextReassembly + 1) % ent.mod &&
    hasNoGapAt ent.rxWindow ent.st.rxNextHighest)

theorem beq_shift {a b m : Nat} (ha : a < m) (hb : b < m) :
    ((a + k) % m == (b + k) % m) = (a == b) := by
  by_cases heq : a = b
  · rw [heq, beq_self_eq_true, beq_self_eq_true]
  · rw [beq_false_of_ne heq, beq_false_of_ne fun h => heq (shift_inj ha hb h)]

theorem stopsAnywhere_shift (h : Reduced ent) :
    (ent.shift k).stopsAnywhere = ent.stopsAnywhere := by
  have hgap : hasNoGapAt (ent.shift k).rxWindow (ent.shift k).st.rxNextHighest =
      hasNoGapAt ent.rxWindow ent.st.rxNextHighest :=
    hasNoGapAt_shift h.window ent.shape h.rxNextHighest
  have hwindow : (ent.shift k).snInReassemblyWindow (ent.shift k).st.rxTimerTrigger =
      ent.snInReassemblyWindow ent.st.rxTimerTrigger := snInReassemblyWindow_shift
  have hnext : ((ent.shift k).st.rxTimerTrigger == (ent.shift k).st.rxNextReassembly) =
      (ent.st.rxTimerTrigger == ent.st.rxNextReassembly) :=
    beq_shift h.rxTimerTrigger h.rxNextReassembly
  have hhighest : ((ent.shift k).st.rxTimerTrigger != (ent.shift k).st.rxNextHighest) =
      (ent.st.rxTimerTrigger != ent.st.rxNextHighest) :=
    congrArg not (beq_shift h.rxTimerTrigger h.rxNextHighest)
  have hsucc : ((ent.shift k).st.rxNextHighest ==
      ((ent.shift k).st.rxNextReassembly + 1) % ent.mod) =
      (ent.st.rxNextHighest == (ent.st.rxNextReassembly + 1) % ent.mod) := by
    show ((ent.st.rxNextHighest + k) % ent.mod ==
      ((ent.st.rxNextReassembly + k) % ent.mod + 1) % ent.mod) = _
    rw [succ_shift, beq_shift h.rxNextHighest (Nat.mod_lt _ ent.modulus.pos)]
  rw [stopsAnywhere, hgap, hwindow, hnext, hhighest, mod_shift, hsucc, stopsAnywhere]

/-- The plain comparisons of the code find these conditions. Where RX_Next_Reassembly + 1 wraps
around, the first condition holds for every RX_Timer_Trigger. -/
theorem mustStopTimer_of_stopsAnywhere (h : Reduced ent) (hstop : ent.stopsAnywhere = true) :
    ent.mustStopTimer = true := by
  have htrigger := h.rxTimerTrigger
  have hnext := h.rxNextReassembly
  unfold stopsAnywhere at hstop
  unfold mustStopTimer
  simp only [Bool.or_eq_true, Bool.and_eq_true, beq_iff_eq, decide_eq_true_eq] at hstop ⊢
  rcases hstop with (hedge | houtside) | ⟨hsucc, hnogap⟩
  · exact .inl (.inl hedge.le)
  · exact .inl (.inr houtside)
  · by_cases hwrap : ent.st.rxNextReassembly + 1 < ent.mod
    · rw [Nat.mod_eq_of_lt hwrap] at hsucc
      exact .inr ⟨hsucc, hnogap⟩
    · exact .inl (.inl (by omega))

/-- With RX_Next_Reassembly at the last SN the timer is stopped. -/
theorem exists_shift_mustStopTimer (h : Reduced ent) : ∃ k, (ent.shift k).mustStopTimer = true := by
  have hnext := h.rxNextReassembly
  refine ⟨ent.mod - 1 - ent.st.rxNextReassembly, ?_⟩
  have hlast : (ent.st.rxNextReassembly + (ent.mod - 1 - ent.st.rxNextReassembly)) % ent.mod =
      ent.mod - 1 := by
    rw [Nat.mod_eq_of_lt (by omega)]
    omega
  have htrigger : (ent.st.rxTimerTrigger + (ent.mod - 1 - ent.st.rxNextReassembly)) % ent.mod <
      ent.mod := Nat.mod_lt _ ent.modulus.pos
  have hle : (ent.shift (ent.mod - 1 - ent.st.rxNextReassembly)).st.rxTimerTrigger ≤
      (ent.shift (ent.mod - 1 - ent.st.rxNextReassembly)).st.rxNextReassembly := by
    show (ent.st.rxTimerTrigger + _) % ent.mod ≤ (ent.st.rxNextReassembly + _) % ent.mod
    omega
  rw [mustStopTimer, decide_eq_true hle, Bool.true_or, Bool.true_or]

/-- With RX_Next_Reassembly at zero only the conditions of the procedure stop the timer. -/
theorem exists_shift_not_mustStopTimer (h : Reduced ent) (hstop : ent.stopsAnywhere = false) :
    ∃ k, (ent.shift k).mustStopTimer = false := by
  have hnext := h.rxNextReassembly
  have hm := ent.mod_eq
  have hw := ent.two_le_umWindowSize
  refine ⟨ent.mod - ent.st.rxNextReassembly, ?_⟩
  generalize hk : ent.mod - ent.st.rxNextReassembly = k
  have hzero : (ent.shift k).st.rxNextReassembly = 0 := by
    show (ent.st.rxNextReassembly + k) % ent.mod = 0
    rw [← hk, Nat.add_sub_cancel' hnext.le, Nat.mod_self]
  rw [← stopsAnywhere_shift (k := k) h] at hstop
  unfold stopsAnywhere at hstop
  unfold mustStopTimer
  rw [hzero, mod_shift, Nat.zero_add, Nat.mod_eq_of_lt (by omega : 1 < ent.mod)] at hstop
  rw [hzero, Nat.zero_add]
  have hle : decide ((ent.shift k).st.rxTimerTrigger ≤ 0) =
      ((ent.shift k).st.rxTimerTrigger == 0) := by
    rw [Bool.eq_iff_iff, decide_eq_true_eq, beq_iff_eq, Nat.le_zero]
  rw [hle]
  exact hstop

end Timer

section Events
variable {ent : RlcRxUmEntity} {k : Nat}

def shiftResult (ent : RlcRxUmEntity) (k : Nat) (result : RlcRxUmEntity × RxUmOutput) :
    RlcRxUmEntity × RxUmOutput :=
  (result.1.shift k, result.2.shift ent.mod k)

theorem cleanExpired_shift (h : Reduced ent) :
    (ent.shift k).cleanExpired =
      (ent.cleanExpired.1.shift k, ent.cleanExpired.2.map fun sn => (sn + k) % ent.mod) := by
  have hloop := @releaseExpired_shift ent k ent.mod ent.st.rxNextReassembly ent.rxWindow []
    h.window h.rxNextReassembly
  rw [List.map_nil] at hloop
  have hnext : (ent.shift k).st.rxNextReassembly = (ent.st.rxNextReassembly + k) % ent.mod := rfl
  unfold cleanExpired
  rw [mod_shift, rxWindow_shift, hnext, hloop]
  rfl

theorem Reduced.cleanExpired (h : Reduced ent) : Reduced ent.cleanExpired.1 := by
  have hfits := @releaseExpired_fits ent ent.mod ent.st.rxNextReassembly ent.rxWindow []
    h.window h.rxNextReassembly
  exact ⟨hfits.2, hfits.1, h.rxTimerTrigger, h.rxNextHighest⟩

theorem expireReassemblyTimer_shift (h : Reduced ent) :
    (ent.shift k).expireReassemblyTimer = ent.expireReassemblyTimer.map (ent.shiftResult k) := by
  rw [expireReassemblyTimer, expireReassemblyTimer]
  show (if ent.reassemblyTimerRunning then _ else _) = _
  split
  · generalize hoff : ({ ent with reassemblyTimerRunning := false } : RlcRxUmEntity) = off
    have hred : Reduced off := by
      rw [← hoff]
      exact { h with }
    have hshift : ({ ent.shift k with reassemblyTimerRunning := false } : RlcRxUmEntity) =
        off.shift k := by
      rw [← hoff]
      rfl
    have hmod : ent.mod = off.mod := by
      rw [← hoff]
      rfl
    rw [hshift, onExpiredReassemblyTimer, onExpiredReassemblyTimer, cleanExpired_shift hred]
    dsimp only
    rw [restartReassemblyTimer_shift hred.cleanExpired, ← hmod]
    cases off.cleanExpired.1.restartReassemblyTimer with
    | error e => rfl
    | ok result => rfl
  · rfl

variable {header : RlcUmPduHeader} {payload : List UInt8}

/-- A segment on shifted SNs: everything before the timer is the shifted result. -/
theorem receiveSegment_shift (h : Reduced ent) (hsn : header.sn < ent.mod) :
    (ent.shift k).receiveSegment (shiftHeader header ent.mod k) payload =
      ((((ent.handleSegmentDataSdu header payload).updateRxBuffer header.sn).1.shift
        k).updateReassemblyTimer).map fun timed =>
          (timed.1, { ((ent.handleSegmentDataSdu header payload).updateRxBuffer header.sn).2.shift
            ent.mod k with timerActions := timed.2 }) := by
  have hplaced : Reduced (ent.handleSegmentDataSdu header payload) := h.handleSegmentDataSdu hsn
  have hmod : (ent.handleSegmentDataSdu header payload).mod = ent.mod := by
    unfold handleSegmentDataSdu
    split <;> rfl
  have hbuffer := @updateRxBuffer_shift (ent.handleSegmentDataSdu header payload) k header.sn hplaced
    (by
      rw [hmod]
      exact hsn)
  rw [hmod] at hbuffer
  have hshifted : (shiftHeader header ent.mod k).sn = (header.sn + k) % ent.mod := rfl
  rw [receiveSegment, handleSegmentDataSdu_shift h hsn, hshifted, hbuffer]
  dsimp only
  cases (((ent.handleSegmentDataSdu header payload).updateRxBuffer
    header.sn).1.shift k).updateReassemblyTimer with
  | error e => rfl
  | ok result => rfl

variable {bytes : List UInt8}

theorem rlcUmReadDataPduHeader_shift {header : RlcUmPduHeader}
    (hread : rlcUmReadDataPduHeader bytes ent.cfg.snFieldLength = some header)
    (hsi : header.si ≠ .fullSdu) :
    rlcUmReadDataPduHeader (shiftUmPdu ent.cfg.snFieldLength k bytes)
        (ent.shift k).cfg.snFieldLength = some (shiftHeader header ent.mod k) ∧
      (shiftUmPdu ent.cfg.snFieldLength k bytes).length = bytes.length ∧
      (shiftUmPdu ent.cfg.snFieldLength k bytes).drop (rlcUmNrPackedLength header) =
        bytes.drop (rlcUmNrPackedLength header) := by
  have hsn : (header.sn + k) % ent.mod < cardinality ent.cfg.snFieldLength.toNumber :=
    Nat.mod_lt _ ent.modulus.pos
  have hshift : shiftUmPdu ent.cfg.snFieldLength k bytes =
      writeUmSn ent.cfg.snFieldLength ((header.sn + k) % ent.mod) bytes := by
    rw [shiftUmPdu, hread]
    exact if_neg hsi
  rw [hshift]
  exact ⟨rlcUmReadDataPduHeader_writeUmSn hread hsi hsn, length_writeUmSn _ _ _,
    drop_writeUmSn _ _ _ (rlcUmReadDataPduHeader_range hread).1 hsi⟩

theorem acceptedSegment_shift (hseg : ent.acceptedSegment bytes = some (header, payload)) :
    (ent.shift k).acceptedSegment (shiftUmPdu ent.cfg.snFieldLength k bytes) =
      some (shiftHeader header ent.mod k, payload) := by
  obtain ⟨hread, hlen, hsi, hvalid, rfl⟩ := acceptedSegment_some hseg
  obtain ⟨hread', hlength, hdrop⟩ := @rlcUmReadDataPduHeader_shift ent k bytes header hread hsi
  have hpacked : rlcUmNrPackedLength (shiftHeader header ent.mod k) = rlcUmNrPackedLength header := rfl
  have hsame : (ent.shift k).snInvalidForRxBuffer (shiftHeader header ent.mod k).sn =
      ent.snInvalidForRxBuffer header.sn := snInvalidForRxBuffer_shift
  rw [acceptedSegment, hread']
  dsimp only
  rw [hpacked, hsame, hlength, hdrop, if_neg]
  rw [not_or, not_or]
  exact ⟨hlen, hsi, hvalid⟩

theorem handlePdu_shift_discarded (hseg : ent.acceptedSegment bytes = none) :
    (ent.shift k).handlePdu (shiftUmPdu ent.cfg.snFieldLength k bytes) =
      (ent.handlePdu bytes).map (ent.shiftResult k) := by
  cases hread : rlcUmReadDataPduHeader bytes ent.cfg.snFieldLength with
  | none =>
    have hread' : rlcUmReadDataPduHeader bytes (ent.shift k).cfg.snFieldLength = none := hread
    rw [shiftUmPdu, hread, handlePdu, handlePdu, hread, hread']
    rfl
  | some header =>
    by_cases hsi : header.si = .fullSdu
    · have hread' : rlcUmReadDataPduHeader bytes (ent.shift k).cfg.snFieldLength = some header := hread
      rw [shiftUmPdu, hread]
      dsimp only
      rw [if_pos hsi, handlePdu, handlePdu, hread, hread']
      dsimp only
      rw [handleParsedPdu, handleParsedPdu, if_pos hsi, if_pos hsi]
      split <;> rfl
    · obtain ⟨hread', hlength, -⟩ := @rlcUmReadDataPduHeader_shift ent k bytes header hread hsi
      have hpacked : rlcUmNrPackedLength (shiftHeader header ent.mod k) =
          rlcUmNrPackedLength header := rfl
      have hsame : (ent.shift k).snInvalidForRxBuffer (shiftHeader header ent.mod k).sn =
          ent.snInvalidForRxBuffer header.sn := snInvalidForRxBuffer_shift
      have hsi' : (shiftHeader header ent.mod k).si ≠ .fullSdu := hsi
      rw [acceptedSegment, hread] at hseg
      dsimp only at hseg
      rw [handlePdu, handlePdu, hread, hread']
      dsimp only
      rw [hpacked, hlength]
      split
      · rfl
      · rename_i hlen
        rw [handleParsedPdu, handleParsedPdu, if_neg hsi, if_neg hsi', hsame]
        split
        · rfl
        · rename_i hvalid
          rw [if_neg (by
            simp only [not_or]
            exact ⟨hlen, hsi, hvalid⟩)] at hseg
          cases hseg

/-- Where the result depends on the position of the SNs: a segment reaches the buffer while the
timer runs, and no stop condition holds modulo the number of SNs. -/
def positionMatters (ent : RlcRxUmEntity) : Event → Bool
  | .pdu bytes =>
    match ent.acceptedSegment bytes with
    | some (header, payload) =>
      ent.reassemblyTimerRunning && !(ent.edgesAfter header payload).stopsAnywhere
    | none => false
  | .reassemblyTimerExpired => false

theorem receiveSegment_eq (header : RlcUmPduHeader) (payload : List UInt8) :
    ent.receiveSegment header payload =
      (((ent.handleSegmentDataSdu header payload).updateRxBuffer
        header.sn).1.updateReassemblyTimer).map fun timed =>
          (timed.1, { ((ent.handleSegmentDataSdu header payload).updateRxBuffer header.sn).2 with
            timerActions := timed.2 }) := by
  rw [receiveSegment]
  cases ((ent.handleSegmentDataSdu header payload).updateRxBuffer
    header.sn).1.updateReassemblyTimer with
  | error e => rfl
  | ok result => rfl

theorem updateReassemblyTimer_running (hrun : ent.reassemblyTimerRunning = true)
    (hstop : ent.mustStopTimer = false) : ent.updateReassemblyTimer = .ok (ent, []) := by
  have hkeep : ent.stopReassemblyTimer = (ent, []) := by
    rw [stopReassemblyTimer, hrun, hstop]
    rfl
  rw [updateReassemblyTimer, hkeep]
  dsimp only
  rw [startReassemblyTimer, if_pos hrun]
  rfl

theorem updateReassemblyTimer_stopped (hrun : ent.reassemblyTimerRunning = true)
    (hstop : ent.mustStopTimer = true) {result : RlcRxUmEntity × List TimerAction}
    (h : ent.updateReassemblyTimer = .ok result) : result.2 ≠ [] := by
  have hstopped : ent.stopReassemblyTimer.2 = [.stop] := by
    rw [stopReassemblyTimer, hrun, hstop]
    rfl
  obtain ⟨started, -, hok⟩ := bind_ok h
  cases hok
  rw [hstopped]
  exact List.cons_ne_nil _ _

/-- The stop conditions modulo the number of SNs, on the updated entity and on the closed form. -/
theorem BufferUpdate.stopsAnywhere_eq {updated : RlcRxUmEntity} {next highest : Nat}
    (h : BufferUpdate ent header payload updated next highest) :
    updated.stopsAnywhere = (ent.edgesAfter header payload).stopsAnywhere := by
  have hflag : (highest % ent.mod == (next % ent.mod + 1) % ent.mod &&
      hasNoGapAt updated.rxWindow (highest % ent.mod)) =
      (highest % ent.mod == (next % ent.mod + 1) % ent.mod &&
        hasNoGapAt (ent.bufferAfter header payload) (highest % ent.mod)) := by
    rw [succ_mod_mod]
    by_cases hsucc : highest % ent.mod = (next + 1) % ent.mod
    · have hedge : highest = next + 1 :=
        highest_eq_succ h.window.next_le h.window.highest_le hsucc
      rw [hasNoGapAt_of_flags (h.flags highest (by omega) (by omega) (by omega))]
    · rw [beq_false_of_ne hsucc, Bool.false_and, Bool.false_and]
  rw [h.eq]
  unfold stopsAnywhere edgesAfter
  rw [← h.rxNextHighest, ← h.rxNextReassembly]
  exact congrArg (_ || ·) hflag

theorem RxUmInv.receiveSegment_rotates_iff {next highest : Nat} (h : RxUmInv ent next highest)
    (hsi : header.si ≠ .fullSdu) (hsn : header.sn < ent.mod) :
    (∀ k, (ent.shift k).receiveSegment (shiftHeader header ent.mod k) payload =
      (ent.receiveSegment header payload).map (ent.shiftResult k)) ↔
    (ent.reassemblyTimerRunning && !(ent.edgesAfter header payload).stopsAnywhere) = false := by
  obtain ⟨next', highest', -, -, -, hupdate⟩ := @RxUmInv.updateRxBuffer ent next highest header payload h
    hsi hsn
  simp only [receiveSegment_shift h.reduced hsn, receiveSegment_eq]
  generalize (ent.handleSegmentDataSdu header payload).updateRxBuffer header.sn = buffered
    at hupdate ⊢
  obtain ⟨updated, output⟩ := buffered
  dsimp only at hupdate ⊢
  have hred : Reduced updated := (hupdate.inv h.trigger_lt).reduced
  have hrunning : updated.reassemblyTimerRunning = ent.reassemblyTimerRunning := by
    rw [hupdate.eq]
  rw [← hupdate.stopsAnywhere_eq, ← hrunning]
  constructor
  · intro hrotates
    by_contra hmatters
    simp only [Bool.not_eq_false, Bool.and_eq_true, Bool.not_eq_true'] at hmatters
    obtain ⟨hrun, hnot⟩ := hmatters
    obtain ⟨k₁, hstop⟩ := exists_shift_mustStopTimer hred
    obtain ⟨k₂, hgo⟩ := exists_shift_not_mustStopTimer hred hnot
    have hrun₁ : (updated.shift k₁).reassemblyTimerRunning = true := hrun
    have hrun₂ : (updated.shift k₂).reassemblyTimerRunning = true := hrun
    have hquiet := hrotates k₂
    have hstopped := hrotates k₁
    rw [updateReassemblyTimer_running hrun₂ hgo] at hquiet
    cases hresult : updated.updateReassemblyTimer with
    | error e =>
      rw [hresult] at hquiet
      cases hquiet
    | ok result =>
      rw [hresult] at hquiet hstopped
      have hnone : [] = result.2 := congrArg (fun r => r.2.timerActions) (Except.ok.inj hquiet)
      cases hresult₁ : (updated.shift k₁).updateReassemblyTimer with
      | error e =>
        rw [hresult₁] at hstopped
        cases hstopped
      | ok result₁ =>
        rw [hresult₁] at hstopped
        have hsame : result₁.2 = result.2 :=
          congrArg (fun r => r.2.timerActions) (Except.ok.inj hstopped)
        exact updateReassemblyTimer_stopped hrun₁ hstop hresult₁ (hsame.trans hnone.symm)
  · intro hnot k
    have hsame : updated.reassemblyTimerRunning = true →
        (updated.shift k).mustStopTimer = updated.mustStopTimer := by
      intro hrun
      rw [hrun, Bool.true_and, Bool.not_eq_false'] at hnot
      rw [mustStopTimer_of_stopsAnywhere hred hnot,
        mustStopTimer_of_stopsAnywhere hred.shift ((stopsAnywhere_shift hred).trans hnot)]
    rw [updateReassemblyTimer_shift hred hsame]
    cases updated.updateReassemblyTimer with
    | error e => rfl
    | ok result => rfl

end Events

/-- A step commutes with every rotation of the SN space exactly where the position of the SNs does
not matter to the stop conditions of the timer. -/
theorem rxUm_rotation_iff {cfg : RlcRxUmConfig} {ent : RlcRxUmEntity}
    (h : Runs.Reaches next (fun _ _ => True) (create cfg) ent) (event : Event) :
    (∀ k, (ent.shift k).step (event.shift cfg.snFieldLength k) =
      (ent.step event).map (ent.shiftResult k)) ↔ ent.positionMatters event = false := by
  obtain ⟨rfl, n, highest, hinv⟩ := reaches_inv h
  cases event with
  | reassemblyTimerExpired =>
    constructor
    · intro _
      rfl
    · intro _ k
      exact expireReassemblyTimer_shift hinv.reduced
  | pdu bytes =>
    rw [positionMatters]
    cases hseg : ent.acceptedSegment bytes with
    | none =>
      constructor
      · intro _
        rfl
      · intro _ k
        exact handlePdu_shift_discarded hseg
    | some segment =>
      obtain ⟨header, payload⟩ := segment
      obtain ⟨hsi, hsn⟩ := acceptedSegment_range hseg
      rw [← hinv.receiveSegment_rotates_iff hsi hsn]
      apply forall_congr'
      intro k
      show (ent.shift k).handlePdu (shiftUmPdu ent.cfg.snFieldLength k bytes) =
        (ent.handlePdu bytes).map (ent.shiftResult k) ↔ _
      rw [handlePdu_accepted hseg, handlePdu_accepted (acceptedSegment_shift hseg)]

def rotationConfig : RlcRxUmConfig := { snFieldLength := .size6bits, tReassembly := 35 }

/-- With the first segment of SN 0 stored, its last segment commutes with every rotation. -/
theorem rxUm_rotation_lastSegment : ∃ ent, Runs.Reaches next (fun _ _ => True) (create rotationConfig) ent ∧
    (ent.positionMatters (.pdu [0x80, 0x00, 0x01, 0x02]) = false ∧
      ∀ k, (ent.shift k).step (Event.shift .size6bits k (.pdu [0x80, 0x00, 0x01, 0x02])) =
        (ent.step (.pdu [0x80, 0x00, 0x01, 0x02])).map (ent.shiftResult k)) := by
  have hrun : ((create rotationConfig).next (.pdu [0x40, 0x01])).map (fun ent =>
      ent.positionMatters (.pdu [0x80, 0x00, 0x01, 0x02])) = some false := by
    decide +kernel
  obtain ⟨ent, hnext, hobs⟩ := Option.map_eq_some_iff.mp hrun
  have hreach : Runs.Reaches next (fun _ _ => True) (create rotationConfig) ent :=
    .next .start trivial hnext
  exact ⟨ent, hreach, hobs, (rxUm_rotation_iff hreach (.pdu [0x80, 0x00, 0x01, 0x02])).mpr hobs⟩

def timerActionsOf (result : Except RxUmFault (RlcRxUmEntity × RxUmOutput)) :
    Option (List TimerAction) :=
  result.toOption.map (·.2.timerActions)

/-- The first segment of SN 1 after that of SN 2: the timer goes on. With all SNs lowered by one,
RX_Next_Reassembly is the last SN, and the timer is stopped and started again. -/
theorem rxUm_rotation_lastSn_differs : ∃ ent, Runs.Reaches next (fun _ _ => True)
      (create rotationConfig) ent ∧
    (ent.shift 63).step (Event.shift .size6bits 63 (.pdu [0x41, 0x01])) ≠
      (ent.step (.pdu [0x41, 0x01])).map (ent.shiftResult 63) := by
  have hrun : ((create rotationConfig).next (.pdu [0x42, 0x01])).map (fun ent =>
      (timerActionsOf ((ent.shift 63).step (Event.shift .size6bits 63 (.pdu [0x41, 0x01]))),
        timerActionsOf (ent.step (.pdu [0x41, 0x01])))) = some (some [.stop, .run], some []) := by
    decide +kernel
  obtain ⟨ent, hnext, hobs⟩ := Option.map_eq_some_iff.mp hrun
  refine ⟨ent, .next .start trivial hnext, ?_⟩
  intro heq
  rw [heq] at hobs
  cases hstep : ent.step (.pdu [0x41, 0x01]) with
  | error e =>
    rw [hstep] at hobs
    cases hobs
  | ok result =>
    rw [hstep] at hobs
    have hactions := Prod.mk.inj hobs
    have hsame : timerActionsOf ((Except.ok result).map (ent.shiftResult 63)) =
        timerActionsOf (.ok result) := rfl
    rw [hsame, hactions.2] at hactions
    cases hactions.1

end RlcRxUmEntity
end Srsran.Rlc
