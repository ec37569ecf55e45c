import ChainClient.Metadata.Portable
import ChainClient.Storage.Key

/-! The layouts of the metadata blob, version by version. -/

namespace ChainClient

structure PalletBlob where
  index : UInt8
  name : String
  storage : List StorageItem
  calls? : Option TypeId
  event? : Option TypeId
  error? : Option TypeId
  constants : List (String × TypeId × Bytes × List String)
  deriving DecidableEq, Repr

/-- What versions 14 and 15 have in common. -/
structure RuntimeBlob where
  types : PortableTypes
  pallets : List PalletBlob
  /-- Names with the types of the bytes sent and of the bytes only signed. -/
  extensions : List (String × TypeId × TypeId)
  deriving DecidableEq, Repr

namespace Scale.Reader

def storageHasher : Reader StorageHasher := do
  match (← byte).toNat with
  | 0 => return .blake2_128
  | 1 => return .blake2_256
  | 2 => return .blake2_128Concat
  | 3 => return .twox128
  | 4 => return .twox256
  | 5 => return .twox64Concat
  | 6 => return .identity
  | _ => fail

def storageKind : Reader StorageKind := do
  match (← byte).toNat with
  | 0 => return .plain (← typeId)
  | 1 => return .map (← vector storageHasher) (← typeId) (← typeId)
  | _ => fail

/-- Whether an absent item reads as nothing or as its default. -/
def storageModifier : Reader Unit := do
  guardThat ((← byte) < 2)

def storageItem : Reader StorageItem := do
  let name ← text
  storageModifier
  let kind ← storageKind
  let _default ← byteVector
  let docs ← texts
  return ⟨name, kind, docs⟩

def palletStorage (item : Reader StorageItem) : Reader (List StorageItem) := do
  let _namespace ← text
  vector item

def constant : Reader (String × TypeId × Bytes × List String) := do
  return (← text, ← typeId, ← byteVector, ← texts)

def palletBlob : Reader PalletBlob := do
  let name ← text
  let storage? ← option (palletStorage storageItem)
  let calls? ← option typeId
  let event? ← option typeId
  let constants ← vector constant
  let error? ← option typeId
  let index ← byte
  return ⟨index, name, storage?.getD [], calls?, event?, error?, constants⟩

def extension : Reader (String × TypeId × TypeId) := do
  return (← text, ← typeId, ← typeId)

/-! Version 14. -/

def runtime14 : Reader RuntimeBlob := do
  let types ← portableTypes
  let pallets ← vector palletBlob
  let _extrinsicType ← typeId
  let _extrinsicVersion ← byte
  let extensions ← vector extension
  let _runtimeType ← typeId
  return ⟨types, pallets, extensions⟩

/-! Version 15. -/

def pallet15 : Reader PalletBlob := do
  let pallet ← palletBlob
  let _docs ← texts
  return pallet

def parameter : Reader Unit := do
  let _name ← text
  let _type ← typeId

def method15 : Reader Unit := do
  let _name ← text
  let _inputs ← vector parameter
  let _output ← typeId
  let _docs ← texts

def runtimeApi15 : Reader Unit := do
  let _name ← text
  let _methods ← vector method15
  let _docs ← texts

def outerEnums : Reader Unit := do
  let _calls ← typeId
  let _events ← typeId
  let _errors ← typeId

def customValue : Reader Unit := do
  let _type ← typeId
  let _value ← byteVector

def customValues : Reader Unit := do
  let _values ← entries text customValue

def runtime15 : Reader RuntimeBlob := do
  let types ← portableTypes
  let pallets ← vector pallet15
  let _extrinsicVersion ← byte
  let _address ← typeId
  let _call ← typeId
  let _signature ← typeId
  let _extra ← typeId
  let extensions ← vector extension
  let _runtimeType ← typeId
  let _apis ← vector runtimeApi15
  outerEnums
  customValues
  return ⟨types, pallets, extensions⟩

/-! Version 16, which is only checked. -/

def deprecation : Reader Unit := do
  match (← byte).toNat with
  | 0 => return
  | 1 => return
  | 2 =>
      let _note ← text
      let _since ← option text
  | _ => fail

def variantDeprecation : Reader Unit := do
  match (← byte).toNat with
  | 1 => return
  | 2 =>
      let _note ← text
      let _since ← option text
  | _ => fail

def enumType16 : Reader Unit := do
  let _type ← typeId
  let _deprecations ← entries byte variantDeprecation

def storageItem16 : Reader StorageItem := do
  let item ← storageItem
  deprecation
  return item

def constant16 : Reader Unit := do
  let _constant ← constant
  deprecation

def associatedType16 : Reader Unit := do
  let _name ← text
  let _type ← typeId
  let _docs ← texts

def method16 : Reader Unit := do
  method15
  deprecation

def viewFunction16 : Reader Unit := do
  let _id ← bytes 32
  method16

def pallet16 : Reader Unit := do
  let _name ← text
  let _storage ← option (palletStorage storageItem16)
  let _calls ← option enumType16
  let _event ← option enumType16
  let _constants ← vector constant16
  let _error ← option enumType16
  let _associatedTypes ← vector associatedType16
  let _viewFunctions ← vector viewFunction16
  let _index ← byte
  let _docs ← texts
  deprecation

def runtimeApi16 : Reader Unit := do
  let _name ← text
  let _methods ← vector method16
  let _docs ← texts
  let _version ← compact
  deprecation

def runtime16 : Reader Unit := do
  let _types ← portableTypes
  let _pallets ← vector pallet16
  let _extrinsicVersions ← byteVector
  let _address ← typeId
  let _signature ← typeId
  let _extensionsByVersion ← entries byte (vector compact)
  let _extensions ← vector extension
  let _apis ← vector runtimeApi16
  outerEnums
  customValues

end Scale.Reader

/-- What follows the magic number.  Of the versions that are not
supported only the number is kept. -/
inductive VersionedBlob where
  | supported (runtime : RuntimeBlob)
  | unsupported (version : Nat)
  deriving DecidableEq, Repr

namespace Scale.Reader

def versioned : Reader VersionedBlob := do
  let version := (← byte).toNat
  if version = 14 then return .supported (← runtime14)
  else if version = 15 then return .supported (← runtime15)
  else if version = 16 then
    runtime16
    return .unsupported version
  else if 8 ≤ version ∧ version ≤ 13 then
    let _content ← byteVector
    return .unsupported version
  else fail

/-- The magic number, and what follows it. -/
def prefixed : Reader (Nat × VersionedBlob) := do
  return (← natLE 4, ← versioned)

end Scale.Reader

end ChainClient
