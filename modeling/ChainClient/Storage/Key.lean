import ChainClient.Codec.Encode
import ChainClient.Hash.Hasher
import ChainClient.Json.Basic

/-! Where storage items live.  A plain item lies under the hashes of its
pallet's name and its own name; an entry of a map adds the hash of its encoded
key and that encoding itself. -/

namespace ChainClient

inductive StorageHasher where
  | blake2_128
  | blake2_256
  | blake2_128Concat
  | twox128
  | twox256
  | twox64Concat
  | identity
  deriving DecidableEq, Repr

def StorageHasher.name : StorageHasher → String
  | .blake2_128 => "Blake2_128"
  | .blake2_256 => "Blake2_256"
  | .blake2_128Concat => "Blake2_128Concat"
  | .twox128 => "Twox128"
  | .twox256 => "Twox256"
  | .twox64Concat => "Twox64Concat"
  | .identity => "Identity"

inductive StorageKind where
  | plain (type : TypeId)
  | map (hashers : List StorageHasher) (key value : TypeId)
  deriving DecidableEq, Repr

structure StorageItem where
  name : String
  kind : StorageKind
  docs : List String
  deriving DecidableEq, Repr

namespace StorageItem

def valueType (item : StorageItem) : TypeId :=
  match item.kind with
  | .plain type => type
  | .map _ _ value => value

def isMap (item : StorageItem) : Bool :=
  match item.kind with
  | .plain _ => false
  | .map .. => true

end StorageItem

abbrev StorageKey := Bytes

inductive StorageKeyError where
  | unsupportedHasher (names : String)
  | notAMap (item : String)
  | codec (cause : CodecError)
  deriving DecidableEq, Repr

def StorageKeyError.name : StorageKeyError → String
  | .unsupportedHasher _ => "UnsupportedHasher"
  | .notAMap _ => "NotAMap"
  | .codec _ => "Codec"

def StorageKeyError.message : StorageKeyError → String
  | .unsupportedHasher names => "Unsupported storage map hasher " ++ names
  | .notAMap item => "Storage item '" ++ item ++ "' is not a map"
  | .codec cause => "Failed to encode storage map key: " ++ cause.message

namespace StorageKey

def plain (hasher : Hasher) (pallet item : String) : StorageKey :=
  (hasher.twox_128 (Bytes.ofString pallet)).toList ++
    (hasher.twox_128 (Bytes.ofString item)).toList

/-- The hash that a map with this hasher puts before an encoded key. -/
def keyHash? (hasher : Hasher) : StorageHasher → Bytes → Option Bytes
  | .blake2_128Concat, encoded => some (hasher.blake2_128 encoded).toList
  | .twox64Concat, encoded => some (hasher.twox_64 encoded).toList
  | _, _ => none

def singleHasher : List StorageHasher → Except StorageKeyError StorageHasher
  | [single] => .ok single
  | [] => .error (.unsupportedHasher "none")
  | many => .error (.unsupportedHasher (", ".intercalate (many.map StorageHasher.name)))

/-- The key of one entry of a map with a single hasher that keeps the key readable. -/
def entry (hasher : Hasher) (registry : TypeRegistry) (pallet : String) (item : StorageItem)
    (key : Value) : Except StorageKeyError StorageKey := do
  match item.kind with
  | .plain _ => .error (.notAMap item.name)
  | .map hashers keyType _ =>
      let storageHasher ← singleHasher hashers
      let encoded ← (Codec.encode registry keyType key).mapError .codec
      match keyHash? hasher storageHasher encoded with
      | none => .error (.unsupportedHasher storageHasher.name)
      | some hash => .ok (plain hasher pallet item.name ++ hash ++ encoded)

def render (key : StorageKey) : String := Hex.encode0x key

end StorageKey

/-! Items as JSON. -/

def StorageKind.toJson : StorageKind → Json
  | .plain type => .object [("type", .string "plain"), ("ty", .nat type)]
  | .map hashers key value =>
      .object
        [("type", .string "map"),
          ("hashers", .array (hashers.map fun hasher => .string hasher.name)),
          ("key", .nat key), ("value", .nat value)]

def StorageItem.toJson (item : StorageItem) : Json :=
  .object
    [("name", .string item.name), ("kind", item.kind.toJson),
      ("docs", .array (item.docs.map .string))]

end ChainClient
