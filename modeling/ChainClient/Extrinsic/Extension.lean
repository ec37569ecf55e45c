import ChainClient.BlockHash
import ChainClient.Codec.Encode
import ChainClient.Extrinsic.Error
import ChainClient.Metadata.Basic

/-! The signed extensions that can be filled in, and what each contributes. -/

namespace ChainClient

inductive ExtensionKind where
  | checkSpecVersion
  | checkTxVersion
  | checkGenesis
  | checkMortality
  | checkNonce
  | chargeTransactionPayment
  deriving DecidableEq, Repr

namespace ExtensionKind

def name : ExtensionKind → String
  | .checkSpecVersion => "CheckSpecVersion"
  | .checkTxVersion => "CheckTxVersion"
  | .checkGenesis => "CheckGenesis"
  | .checkMortality => "CheckMortality"
  | .checkNonce => "CheckNonce"
  | .chargeTransactionPayment => "ChargeTransactionPayment"

def all : List ExtensionKind :=
  [.checkSpecVersion, .checkTxVersion, .checkGenesis, .checkMortality, .checkNonce,
    .chargeTransactionPayment]

def ofName? (name : String) : Option ExtensionKind :=
  all.find? (·.name = name)

end ExtensionKind

def SignedExtension.kind? (extension : SignedExtension) : Option ExtensionKind :=
  ExtensionKind.ofName? extension.name

/-- Whether every declared extension can be filled in. -/
def signingCapable (extensions : List SignedExtension) : Bool :=
  extensions.all (·.kind?.isSome)

def requiresNonce (extensions : List SignedExtension) : Bool :=
  extensions.any (·.kind? = some .checkNonce)

/-- What the extensions draw from. -/
structure ChainState where
  specVersion : Nat
  transactionVersion : Nat
  genesis : BlockHash
  nonce? : Option Nat
  deriving DecidableEq, Repr

/-- Bytes that are signed and sent, and bytes that are only signed. -/
structure ExtensionData where
  extra : Bytes
  additional : Bytes
  deriving DecidableEq, Repr

namespace ExtensionData

def empty : ExtensionData := ⟨[], []⟩

def append (first second : ExtensionData) : ExtensionData :=
  ⟨first.extra ++ second.extra, first.additional ++ second.additional⟩

end ExtensionData

/-- The era of a transaction that never expires. -/
def immortalEra : Value := .variant "Era::Immortal" 0 []

namespace SignedExtension

def encode (registry : TypeRegistry) (extension : SignedExtension) (type : TypeId)
    (value : Value) : Except ExtrinsicError Bytes :=
  (Codec.encode registry type value).mapError (.extension extension.name)

/-- An immortal transaction is checked against the genesis block. -/
def contributionOf (registry : TypeRegistry) (chain : ChainState)
    (extension : SignedExtension) : ExtensionKind → Except ExtrinsicError ExtensionData
  | .checkSpecVersion => do
      let additional ←
        extension.encode registry extension.additional (.unsigned chain.specVersion)
      return ⟨[], additional⟩
  | .checkTxVersion => do
      let additional ←
        extension.encode registry extension.additional (.unsigned chain.transactionVersion)
      return ⟨[], additional⟩
  | .checkGenesis => do
      let additional ← extension.encode registry extension.additional chain.genesis.toValue
      return ⟨[], additional⟩
  | .checkMortality => do
      let extra ← extension.encode registry extension.type immortalEra
      let additional ← extension.encode registry extension.additional chain.genesis.toValue
      return ⟨extra, additional⟩
  | .checkNonce => do
      let some nonce := chain.nonce? | .error .missingNonce
      let extra ← extension.encode registry extension.type (.unsigned nonce)
      return ⟨extra, []⟩
  | .chargeTransactionPayment => do
      let extra ← extension.encode registry extension.type (.unsigned 0)
      return ⟨extra, []⟩

def contribution (registry : TypeRegistry) (chain : ChainState)
    (extension : SignedExtension) : Except ExtrinsicError ExtensionData :=
  match extension.kind? with
  | some kind => extension.contributionOf registry chain kind
  | none => .error (.unsupportedExtension extension.name)

end SignedExtension

/-- The contributions of all extensions, in declaration order. -/
def buildExtensions (registry : TypeRegistry) (chain : ChainState) :
    List SignedExtension → Except ExtrinsicError ExtensionData
  | [] => .ok .empty
  | extension :: rest => do
      let first ← extension.contribution registry chain
      let others ← buildExtensions registry chain rest
      return first.append others

end ChainClient
