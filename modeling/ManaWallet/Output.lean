import ManaWallet.UnlockCondition

/-!
# Output — what a transaction leaves on the ledger

Every output holds base tokens and stays locked under its conditions.  All kinds but foundries and
delegations can store mana; all kinds but basic ones belong to a chain.
-/

namespace ManaWallet

/-- Supply figures of the tokens of a foundry. -/
structure TokenScheme where
  minted : UInt64 := 0
  melted : UInt64 := 0
  maximum : UInt64 := 0
deriving DecidableEq

/-- What only outputs of one kind hold. -/
inductive OutputBody where
  | basic (mana : Mana)
  | account (mana : Mana) (id : AccountId) (foundryCounter : UInt32)
  | anchor (mana : Mana) (id : AnchorId) (stateIndex : UInt32)
  | foundry (serialNumber : UInt32) (tokens : TokenScheme)
  | nft (mana : Mana) (id : NftId)
  | delegation (delegated : BaseToken) (id : DelegationId) (validator : AccountId)
      (startEpoch endEpoch : EpochIndex)
deriving DecidableEq

/-- An output. -/
structure Output where
  amount : BaseToken
  body : OutputBody
  conditions : UnlockConditions

/-- The kinds of outputs. -/
inductive OutputKind where
  | basic
  | account
  | anchor
  | foundry
  | nft
  | delegation
deriving DecidableEq, Repr

/-- The word for a kind of output. -/
def OutputKind.text : OutputKind → String
  | basic => "basic"
  | account => "account"
  | anchor => "anchor"
  | foundry => "foundry"
  | nft => "nft"
  | delegation => "delegation"

/-- The number of a kind among the alternatives. -/
def OutputKind.index : OutputKind → Nat
  | basic => 0
  | account => 1
  | anchor => 2
  | foundry => 3
  | nft => 4
  | delegation => 5

namespace OutputBody

/-- The kind of an output with this body. -/
def kind : OutputBody → OutputKind
  | basic _ => .basic
  | account _ _ _ => .account
  | anchor _ _ _ => .anchor
  | foundry _ _ => .foundry
  | nft _ _ => .nft
  | delegation _ _ _ _ _ => .delegation

/-- The mana that a body can store; none where it cannot store any. -/
def mana? : OutputBody → Option Mana
  | basic mana | account mana _ _ | anchor mana _ _ | nft mana _ => some mana
  | foundry _ _ | delegation _ _ _ _ _ => none

/-- The body with other mana; one that cannot store any stays as it is. -/
def withMana (mana : Mana) : OutputBody → OutputBody
  | basic _ => basic mana
  | account _ id foundryCounter => account mana id foundryCounter
  | anchor _ id stateIndex => anchor mana id stateIndex
  | nft _ id => nft mana id
  | body => body

/-- The canonical bytes between an output's amount and its conditions. -/
def toBytes : OutputBody → List UInt8
  | basic mana => encode mana
  | account mana id foundryCounter => encode mana ++ encode id ++ encode foundryCounter
  | anchor mana id stateIndex => encode mana ++ encode id ++ encode stateIndex
  | foundry serialNumber tokens =>
    encode serialNumber ++ encode tokens.minted ++ encode tokens.melted ++ encode tokens.maximum
  | nft mana id => encode mana ++ encode id
  | delegation delegated id validator startEpoch endEpoch =>
    encode delegated ++ encode id ++ encode validator ++ encode startEpoch ++ encode endEpoch

end OutputBody

namespace Output

/-- A basic output locked to an address. -/
def basic (amount : BaseToken) (mana : Mana) (address : Address) : Output :=
  ⟨amount, .basic mana, .ofAddress address⟩

/-- An account output locked to an address. -/
def account (amount : BaseToken) (mana : Mana) (id : AccountId) (address : Address) : Output :=
  ⟨amount, .account mana id 0, .ofAddress address⟩

/-- A collectible locked to an address. -/
def nft (amount : BaseToken) (mana : Mana) (id : NftId) (address : Address) : Output :=
  ⟨amount, .nft mana id, .ofAddress address⟩

/-- The kind of an output. -/
def kind (o : Output) : OutputKind := o.body.kind

/-- The mana an output stores. -/
def storedMana (o : Output) : Mana := o.body.mana?.getD 0

/-- The output with other stored mana; one that cannot store any stays as it is. -/
def withStoredMana (o : Output) (mana : Mana) : Output := { o with body := o.body.withMana mana }

/-- The account of an account output, empty where it is only being opened. -/
def accountId? (o : Output) : Option AccountId :=
  match o.body with
  | .account _ id _ => some id
  | _ => none

/-- The account that a foundry belongs to; empty where the output does not name one. -/
def foundryAccount (o : Output) : AccountId :=
  match o.conditions.immutableAccountAddress with
  | some (.account id) => id
  | _ => .empty

/-- The chain that an output belongs to. -/
def chainId? (o : Output) : Option ChainId :=
  match o.body with
  | .basic _ => none
  | .account _ id _ => some (.account id)
  | .anchor _ id _ => some (.anchor id)
  | .foundry serialNumber _ => some (.foundry ⟨o.foundryAccount, serialNumber, 0⟩)
  | .nft _ id => some (.nft id)
  | .delegation _ id _ _ _ => some (.delegation id)

instance : Canonical Output where
  encode o :=
    Canonical.variant o.kind.index ++ encode o.amount ++ o.body.toBytes ++ encode o.conditions

end Output

end ManaWallet
