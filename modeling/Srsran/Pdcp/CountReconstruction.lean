import Srsran.Pdcp.RxEntity
import Srsran.Pdcp.TxEntity

/-! COUNTs that the receiver reconstructs for data PDUs and the transmitter for notifications. -/
namespace Srsran.Pdcp
variable {snSize : PdcpSnSize} {lower sn : Nat}

/-- Every COUNT in the window around the reference is found from its SN, and the COUNT found for a
given SN is one of them. -/
def Reconstructs (snSize : PdcpSnSize) (lower : Nat) (estimate : Nat → Nat) (sn : Nat) : Prop :=
  (∀ count, count < 2 ^ 32 → CountInWindow snSize lower count →
      estimate (pdcpComputeSn count snSize) = count) ∧
    CountInWindow snSize lower (estimate sn)

theorem reconstructs_iff (hlower : lower < 2 ^ 32) (hsn : sn < pdcpSnCardinality snSize) :
    Reconstructs snSize lower (countEstimation snSize lower) sn ↔ ¬HfnLeavesRange snSize lower sn := by
  rw [Reconstructs, ← countEstimation_inWindow_iff hlower hsn]
  constructor
  · intro h
    exact h.2
  · intro h
    refine ⟨?_, h⟩
    intro count hcount hwindow
    exact countEstimation_eq hlower hcount hwindow

/-- Both reconstructions are right for every SN that does not ask for an HFN below 0 or above the
maximum, and for no other. -/
theorem pdcpCount_reconstructs_iff (rx : PdcpEntityRx) (tx : PdcpEntityTx) (rxSn txSn : Nat)
    (hrx : rx.st.rxDeliv < 2 ^ 32) (htx : tx.txLower < 2 ^ 32)
    (hrxSn : rxSn < pdcpSnCardinality rx.cfg.snSize)
    (htxSn : txSn < pdcpSnCardinality tx.cfg.snSize) :
    (Reconstructs rx.cfg.snSize rx.st.rxDeliv rx.rcvdCount rxSn ↔
        ¬HfnLeavesRange rx.cfg.snSize rx.st.rxDeliv rxSn) ∧
      (Reconstructs tx.cfg.snSize tx.txLower tx.notificationCountEstimation txSn ↔
        ¬HfnLeavesRange tx.cfg.snSize tx.txLower txSn) :=
  ⟨reconstructs_iff hrx hrxSn, reconstructs_iff htx htxSn⟩

/-- A new bearer with SN 5 on both sides. -/
theorem pdcpCount_reconstructs_newBearer :
    let rx := PdcpEntityRx.create ⟨.drb, .am, .size12bits, .infinity, ⟨0xc0000000, 0xd0000000, by decide⟩⟩
    let tx := PdcpEntityTx.create
      ⟨.drb, .am, .size12bits, none, false, ⟨0xc0000000, 0xfffffffe, by decide⟩, nofun⟩
    Reconstructs .size12bits 0 rx.rcvdCount 5 ∧
      Reconstructs .size12bits 0 tx.notificationCountEstimation 5 := by
  intro rx tx
  have h := pdcpCount_reconstructs_iff rx tx 5 5 (by decide) (by decide) (by decide) (by decide)
  exact ⟨h.1.mpr (by decide), h.2.mpr (by decide)⟩

/-- The first PDU of a bearer has SN 2048: the HFN wraps below 0, and the receiver reports the
maximum COUNT as reached and the protocol as failed. -/
theorem pdcpCount_hfnBelowZero :
    let rx := PdcpEntityRx.create ⟨.drb, .am, .size12bits, .infinity, ⟨0xc0000000, 0xd0000000, by decide⟩⟩
    rx.rcvdCount 2048 = 0xfffff800 ∧ ¬CountInWindow .size12bits rx.st.rxDeliv 0xfffff800 ∧
      (rx.handlePdu [0x88, 0x00, 0xaa]).notices = [.maxCountReached, .protocolFailure] := by
  refine ⟨by decide, ?_, by decide⟩
  intro h
  have hlt : 0xfffff800 < 0 + pdcpWindowSize .size12bits := h.2
  exact absurd hlt (by decide)

end Srsran.Pdcp
