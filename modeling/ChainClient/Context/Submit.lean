import ChainClient.Context.Basic
import ChainClient.Extrinsic.Basic
import ChainClient.Rpc.TransactionStatus

/-! Submitting signed transactions. -/

namespace ChainClient

inductive SubmitError where
  | signingUnsupported
  | extrinsic (cause : ExtrinsicError)
  | codec (cause : CodecError)
  | session (cause : SessionError)
  deriving DecidableEq, Repr

namespace SubmitError

def message? : SubmitError → Option String
  | .signingUnsupported => some "Cannot submit extrinsic (unsupported signed extensions)"
  | .extrinsic cause => some ("Cannot submit extrinsic (" ++ cause.message ++ ")")
  | .codec cause => some ("Failed to encode extrinsic: " ++ cause.message)
  | .session cause => cause.message?.map ("Submit extrinsic error: " ++ ·)

def toJson (error : SubmitError) : Json :=
  .object [("error", .object [("message", .string (error.message?.getD ""))])]

end SubmitError

namespace Context

/-- The nonce of the account's next transaction. -/
def accountNonce (context : Context) : FallibleProgram SessionError Nat := do
  let result ← Program.request Rpc.accountNextIndex [.string context.address]
  match result.toUInt64? with
  | some nonce => return nonce
  | none =>
      throw (.unexpectedResponse Rpc.accountNextIndex (some ("nonce " ++ result.render)))

def nonceFor? (context : Context) (extensions : List SignedExtension) :
    FallibleProgram SessionError (Option Nat) := do
  if requiresNonce extensions then return some (← context.accountNonce) else return none

/-- Signs a call and gives the hexadecimal text of the transaction. -/
def signedText (context : Context) (metadata : Metadata) (version : RuntimeVersion)
    (nonce? : Option Nat) (call : Bytes) : Except SubmitError String := do
  let chain : ChainState :=
    ⟨version.specVersion, version.transactionVersion, context.genesis, nonce?⟩
  let data ←
    (buildExtensions metadata.registry chain metadata.extensions).mapError .extrinsic
  (Extrinsic.sign context.signer context.hasher call data).render.mapError .codec

/-- Signs and submits a call, and gives the id of the subscription to its status.
Nothing is sent when the runtime asks for extensions that cannot be filled in, or
when the call cannot be encoded. -/
def submit (context : Context) (palletIndex : UInt8) (call : Call) (params : List Value) :
    FallibleProgram SubmitError String := do
  let loaded ← Program.currentMetadata
  if !loaded.signingCapable then throw .signingUnsupported
  let metadata := loaded.metadata
  let encoded ←
    (encodeCall metadata.registry palletIndex call params).mapError SubmitError.extrinsic
  let version ← Program.currentVersion
  let nonce? ← (context.nonceFor? metadata.extensions).adapt .session
  let text ← context.signedText metadata version nonce? encoded
  (Program.subscription Rpc.submitAndWatch [.string text]).adapt .session

/-- What the pushes of the subscription say about the transaction.  Other pushes are passed
over. -/
def statusOfPush? (payload : Json) : Option TransactionStatus :=
  TransactionStatus.ofJson? payload

end Context

end ChainClient
