import ManaWallet.Draft.Basic
import ManaWallet.Proofs.Parameters
import Mathlib.Control.Monad.Basic

/-!
# Proofs/Standard — the network with the standard constants, and a small wallet on it
-/

namespace ManaWallet

/-- The network whose constants are those that apply where nothing else is set. -/
def Protocol.standard : Protocol where
  parameters := {}
  valid := by
    -- the factors are over `2 ^ 32`, and words of 32 bits are below that
    have hfactors : ProtocolParameters.validateDecayFactors .standard = .ok () :=
      ProtocolParameters.validateDecayFactors_eq_ok_iff.mpr fun index => Nat.le_of_lt (UInt32.toNat_lt _)
    simp only [ProtocolParameters.validate, hfactors]
    decide +kernel
  exponent_le := UInt8.le_refl _

/-- On the standard network a slot counts once, so that slots times rate always fit. -/
theorem rate_standard_lt (slots : SlotIndex) :
    slots.toNat * Protocol.standard.parameters.manaParameters.generationRate.toNat < 2 ^ 32 :=
  Nat.lt_of_le_of_lt (Nat.le_of_eq (Nat.mul_one slots.toNat)) slots.toNat_lt

/-- An owner of outputs. -/
def sampleOwner : Address := .ed25519 ⟨.zero 32⟩

/-- An account that the owner keeps. -/
def sampleAccount : AccountId := ⟨.replicate 32 7⟩

/-- A key that signs for every address, without contents. -/
def sampleSigner : Signer where
  uid _ := .ok ⟨.zero 32⟩
  sign _ _ := .ok (.placeholder (.zero 32))
  placeholder _ := .ok (.placeholder (.zero 32))

/-- The account with a mana of 100, an output of 50 that the account owns behind a restriction, and
another output of the owner of 950. -/
def sampleInputs : List Input :=
  [⟨⟨⟨.zero 32, 0⟩, 0⟩, .account 1000000 100 sampleAccount sampleOwner, sampleOwner⟩,
    ⟨⟨⟨.zero 32, 0⟩, 1⟩, .basic 1000000 50 (.account sampleAccount),
      .restricted (.account sampleAccount) .all⟩,
    ⟨⟨⟨.zero 32, 0⟩, 2⟩, .basic 1000000 950 sampleOwner, sampleOwner⟩]

/-- A draft that consumes the wallet and stores some of its mana. -/
def sampleDraft : Draft where
  protocol := Protocol.standard
  signer := sampleSigner
  inputs := sampleInputs
  outputs := [.basic 3000000 400 sampleOwner]

end ManaWallet
