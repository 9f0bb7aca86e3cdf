import ManaWallet.Draft.Policy
import ManaWallet.LogSettings
import ManaWallet.Parameters.Derivation
import ManaWallet.Parameters.Document
import ManaWallet.Proofs.Arithmetic.Unwrapped
import ManaWallet.Proofs.Arithmetic.Wide
import ManaWallet.Proofs.Balance.Conservation
import ManaWallet.Proofs.Commitment
import ManaWallet.Proofs.Document
import ManaWallet.Proofs.Draft.Canonical
import ManaWallet.Proofs.Draft.Shares
import ManaWallet.Proofs.Draft.Signing
import ManaWallet.Proofs.Mana.Boundary
import ManaWallet.Proofs.Mana.Comparison
import ManaWallet.Proofs.Mana.Generation
import ManaWallet.Proofs.Mana.Overflow
import ManaWallet.Proofs.Mana.Rounding
import ManaWallet.Proofs.Mana.WithoutDecay
import ManaWallet.Proofs.Protocol
import ManaWallet.Proofs.Slot.Epoch
import ManaWallet.Proofs.Slot.Time
