import ChainClient.Account
import ChainClient.Extrinsic.Extension
import ChainClient.Hash.Hasher
import ChainClient.Value.Text

/-! Signed transactions: the call, the payload that is signed,
and the bytes that are sent. -/

namespace ChainClient

/-- How a type is told of in messages: by its tag, or by its number if it is unknown. -/
def TypeRegistry.tagOf (registry : TypeRegistry) (id : TypeId) : String :=
  match registry.get? id with
  | some descriptor => descriptor.tag
  | none => toString id

def encodeArgument (registry : TypeRegistry) (argument : Value × Field) :
    Except ExtrinsicError Bytes :=
  (Codec.encode registry argument.2.type argument.1).mapError
    (.argument (registry.tagOf argument.2.type) argument.1.render)

def encodeArguments (registry : TypeRegistry) :
    List (Value × Field) → Except ExtrinsicError Bytes
  | [] => .ok []
  | argument :: rest => do
      let first ← encodeArgument registry argument
      let others ← encodeArguments registry rest
      return first ++ others

/-- The pallet's index, the call's index, and the arguments one after another. -/
def encodeCall (registry : TypeRegistry) (palletIndex : UInt8) (call : Call)
    (params : List Value) : Except ExtrinsicError Bytes := do
  if params.length < call.fields.length then
    .error (.argumentCount call.fields.length params.length)
  else
    let arguments ← encodeArguments registry (params.zip call.fields)
    return palletIndex :: call.index :: arguments

/-- A signed transaction in version 4 of the format. -/
structure Extrinsic where
  call : Bytes
  extra : Bytes
  signer : Vector UInt8 32
  signature : Vector UInt8 64
  deriving DecidableEq, Repr

namespace Extrinsic

def signingPayload (call : Bytes) (data : ExtensionData) : Bytes :=
  call ++ data.extra ++ data.additional

def maxPayloadLength : Nat := 256

/-- What the signer is given: the payload, or its hash when it is long. -/
def signedMessage (hasher : Hasher) (payload : Bytes) : Bytes :=
  if maxPayloadLength < payload.length then (hasher.blake2_256 payload).toList else payload

/-- Signs a call with signatures that are asked for.  Whoever gives them may draw them
at random, or keep a record. -/
def signBy {m : Type → Type} [Monad m] (publicKey : Vector UInt8 32)
    (ask : Bytes → m (Vector UInt8 64)) (hasher : Hasher) (call : Bytes)
    (data : ExtensionData) : m Extrinsic := do
  let signature ← ask (signedMessage hasher (signingPayload call data))
  return { call, extra := data.extra, signer := publicKey, signature }

def sign (signer : Signer) (hasher : Hasher) (call : Bytes) (data : ExtensionData) :
    Extrinsic :=
  Id.run (signBy signer.publicKey (fun message => pure (signer.sign message))
    hasher call data)

/-- Marks a signed transaction of version 4. -/
def signedVersion : UInt8 := 0x84

/-- Marks a signer given by public key. -/
def accountMark : UInt8 := 0x00

/-- Marks a signature over ristretto. -/
def signatureMark : UInt8 := 0x01

def body (extrinsic : Extrinsic) : Bytes :=
  [signedVersion, accountMark] ++ extrinsic.signer.toList ++ [signatureMark] ++
    extrinsic.signature.toList ++ extrinsic.extra ++ extrinsic.call

/-- The body after its length. -/
def toBytes (extrinsic : Extrinsic) : Except CodecError Bytes := do
  let length ← Codec.encodeCompact extrinsic.body.length
  return length ++ extrinsic.body

def render (extrinsic : Extrinsic) : Except CodecError String :=
  extrinsic.toBytes.map Hex.encode0x

end Extrinsic

end ChainClient
