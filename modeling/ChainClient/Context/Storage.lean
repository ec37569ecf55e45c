import ChainClient.Codec.Decode
import ChainClient.Context.Basic
import ChainClient.Storage.Key

/-! Reading from storage.  Whatever goes wrong, there is no value. -/

namespace ChainClient.Context

/-- The value in a node's answer: hexadecimal text of its
encoding, which may go on after it. -/
def storedValue? (registry : TypeRegistry) (type : TypeId) (result : Json) :
    Option Value := do
  let text ← result.string?
  let bytes ← Hex.decode0x? text
  let (value, _) ← (Codec.decode registry type bytes).toOption
  return value

def readStorage (registry : TypeRegistry) (type : TypeId) (key : StorageKey) :
    Program (Option Value) := do
  match ← (Program.request Rpc.getStorage [.string key.render]).run with
  | .ok result => return storedValue? registry type result
  | .error _ => return none

/-- The value of a plain item. -/
def query (context : Context) (pallet : String) (item : StorageItem) :
    Program (Option Value) := do
  match item.kind with
  | .map .. => return none
  | .plain type =>
      let loaded ← Program.currentMetadata
      readStorage loaded.metadata.registry type (.plain context.hasher pallet item.name)

/-- The value under a key of a map. -/
def queryEntry (context : Context) (pallet : String) (item : StorageItem) (key : Value) :
    Program (Option Value) := do
  let loaded ← Program.currentMetadata
  let registry := loaded.metadata.registry
  match StorageKey.entry context.hasher registry pallet item key with
  | .ok key => readStorage registry item.valueType key
  | .error _ => return none

end ChainClient.Context
