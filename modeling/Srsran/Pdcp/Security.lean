import Mathlib.Algebra.Order.Ring.Int
import Mathlib.Data.List.Basic

/-! Bearer types and security of the PDCP entities (`pdcp_config.h`, `security.h`,
`security_engine.h`). The cryptography of the engines is a parameter of the entities. -/
namespace Srsran.Pdcp

inductive PdcpRbType where
  | srb
  | drb
  deriving DecidableEq, Repr

inductive PdcpRlcMode where
  | um
  | am
  deriving DecidableEq, Repr

/-- `pdcp_max_count`: where RRC is notified, and where the entity refuses to go on. -/
structure PdcpMaxCount where
  notify : Nat
  hard : Nat
  hard_lt : hard < 2 ^ 32
  deriving DecidableEq, Repr

inductive SecurityError where
  | integrityFailure
  | cipheringFailure
  | bufferFailure
  | engineFailure
  deriving DecidableEq, Repr

inductive IntegrityAlgorithm where
  | nia0
  | nia1
  | nia2
  | nia3
  deriving DecidableEq, Repr

inductive CipheringAlgorithm where
  | nea0
  | nea1
  | nea2
  | nea3
  deriving DecidableEq, Repr

/-- `sec_128_as_config`; the integrity key and algorithm are optional in E1AP. -/
structure Sec128AsConfig where
  k128Int : Option (List UInt8)
  k128Enc : List UInt8
  integAlgo : Option IntegrityAlgorithm
  cipherAlgo : CipheringAlgorithm
  deriving DecidableEq, Repr

/-- What the engines of an entity are built from. -/
structure SecurityContext where
  secCfg : Sec128AsConfig
  integrityEnabled : Bool
  cipheringEnabled : Bool
  deriving DecidableEq, Repr

/-- An engine (`security_engine_impl`). Ciphering starts behind the header, and the MAC-I is
appended, so that a protected PDU starts with the header it was given. -/
structure SecurityEngine where
  encryptAndProtectIntegrity : List UInt8 → Nat → Nat → Except SecurityError (List UInt8)
  decryptAndVerifyIntegrity : List UInt8 → Nat → Nat → Except SecurityError (List UInt8)
  keepsHeader : ∀ buf offset count pdu, offset ≤ buf.length →
    encryptAndProtectIntegrity buf offset count = .ok pdu → pdu.take offset = buf.take offset

/-- The engine while neither integrity protection nor ciphering is enabled. -/
def SecurityEngine.disabled : SecurityEngine where
  encryptAndProtectIntegrity buf _ _ := .ok buf
  decryptAndVerifyIntegrity buf _ _ := .ok buf
  keepsHeader := by
    intro buf offset count pdu _ h
    cases h
    rfl

def secMacLen : Nat := 4

end Srsran.Pdcp
