import ChainClient.Codec.Decode
import ChainClient.Storage.Key
import ChainClient.Text.CharLiteral

/-! What a runtime declares about itself: its types, its pallets, and the extensions that
every signed transaction carries. -/

namespace ChainClient

inductive MetadataError where
  | malformed
  | decode
  | invalidMagic (magic : Nat)
  | unsupportedVersion (version : Nat)
  | missingType (id : TypeId)
  | palletNotFound (pallet : String)
  | constantNotFound (pallet name : String)
  | codec (cause : CodecError)
  deriving DecidableEq, Repr

def MetadataError.name : MetadataError → String
  | .malformed => "MalformedMetadata"
  | .decode => "Decode"
  | .invalidMagic _ => "InvalidMagic"
  | .unsupportedVersion _ => "UnsupportedVersion"
  | .missingType _ => "MissingType"
  | .palletNotFound _ => "PalletNotFound"
  | .constantNotFound .. => "ConstantNotFound"
  | .codec cause => cause.name

def MetadataError.message : MetadataError → String
  | .malformed => "Metadata hex is not valid"
  | .decode => "Failed to decode metadata"
  | .invalidMagic magic => "Invalid metadata magic number 0x" ++ Text.hexNumeral magic
  | .unsupportedVersion version => "Unsupported metadata version V" ++ toString version
  | .missingType id => "Metadata references unknown type " ++ toString id
  | .palletNotFound pallet => "Pallet '" ++ pallet ++ "' not found"
  | .constantNotFound pallet name => "Constant '" ++ pallet ++ "::" ++ name ++ "' not found"
  | .codec cause => cause.message

structure Call where
  index : UInt8
  name : String
  fields : List Field
  docs : List String
  deriving DecidableEq, Repr

structure Constant where
  name : String
  type : TypeId
  value : Bytes
  docs : List String
  deriving DecidableEq, Repr

structure Pallet where
  index : UInt8
  name : String
  calls : List Call
  events : List Variant
  errors : List Variant
  storage : List StorageItem
  constants : List Constant
  deriving DecidableEq, Repr

namespace Pallet

def call? (pallet : Pallet) (name : String) : Option Call :=
  pallet.calls.find? (·.name = name)

def storageItem? (pallet : Pallet) (name : String) : Option StorageItem :=
  pallet.storage.find? (·.name = name)

def constant? (pallet : Pallet) (name : String) : Option Constant :=
  pallet.constants.find? (·.name = name)

end Pallet

/-- Part of what a signed transaction carries: bytes of one type are sent along, bytes
of the other are only signed. -/
structure SignedExtension where
  name : String
  type : TypeId
  additional : TypeId
  deriving DecidableEq, Repr

structure Metadata where
  registry : TypeRegistry
  pallets : List Pallet
  extensions : List SignedExtension
  deriving DecidableEq, Repr

namespace Metadata

def empty : Metadata := ⟨.empty, [], []⟩

def pallet? (metadata : Metadata) (name : String) : Option Pallet :=
  metadata.pallets.find? (·.name = name)

def palletAt? (metadata : Metadata) (index : UInt8) : Option Pallet :=
  metadata.pallets.find? (·.index = index)

def call? (metadata : Metadata) (pallet name : String) : Option Call := do
  (← metadata.pallet? pallet).call? name

def storageItem? (metadata : Metadata) (pallet name : String) : Option StorageItem := do
  (← metadata.pallet? pallet).storageItem? name

def decodeConstant (metadata : Metadata) (pallet name : String) :
    Except MetadataError Value := do
  let some declared := metadata.pallet? pallet | .error (.palletNotFound pallet)
  let some constant := declared.constant? name | .error (.constantNotFound pallet name)
  let (value, _) ←
    (Codec.decode metadata.registry constant.type constant.value).mapError .codec
  .ok value

end Metadata

/-! Metadata travels as lowercase hexadecimal text of at least one byte. -/

def isLowerHexDigit (c : Char) : Bool :=
  (48 ≤ c.toNat && c.toNat ≤ 57) || (97 ≤ c.toNat && c.toNat ≤ 102)

def metadataBytes (text : String) : Except MetadataError Bytes :=
  match text.toList with
  | '0' :: 'x' :: first :: rest =>
      if (first :: rest).all isLowerHexDigit then
        (Hex.decode (String.ofList (first :: rest))).mapError fun _ => .malformed
      else .error .malformed
  | _ => .error .malformed

/-- Turns a blob into metadata. -/
abbrev MetadataParser := Bytes → Except MetadataError Metadata

end ChainClient
