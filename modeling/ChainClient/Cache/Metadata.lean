import ChainClient.Cache.Store
import ChainClient.Text.Numeral

/-! Metadata blobs filed under the implementation and version of their runtime.  Of each
implementation only the newest version is kept. -/

namespace ChainClient.MetadataCache

def key (implName : String) (specVersion : Nat) : String :=
  implName ++ "-" ++ toString specVersion

/-- What stands before and after the last dash. -/
def splitAtLastDash? : List Char → Option (List Char × List Char)
  | [] => none
  | c :: rest =>
      match splitAtLastDash? rest with
      | some (front, back) => some (c :: front, back)
      | none => if c = '-' then some ([], rest) else none

def isVersion (text : List Char) : Bool :=
  (Text.parseNatural (2 ^ 32) text).toOption.isSome

/-- Whether a key files a version of the given implementation. -/
def isEntryOf (implName key : String) : Bool :=
  match splitAtLastDash? key.toList with
  | some (name, version) => name = implName.toList && isVersion version
  | none => false

/-- A store that cannot be read counts as one without the blob. -/
def get? (store : Store) (implName : String) (specVersion : Nat) : Option String :=
  match store.get (key implName specVersion) with
  | .ok blob? => blob?
  | .error _ => none

/-- Removes keys one after another, up to the first that fails. -/
def evict (store : Store) : List String → Store × Except CacheError Unit
  | [] => (store, .ok ())
  | key :: rest =>
      match store.remove key with
      | .ok store => evict store rest
      | .error error => (store, .error error)

/-- Evicts every version of the implementation, then files the blob. -/
def replace (store : Store) (implName : String) (specVersion : Nat) (blob : String) :
    Store × Except CacheError Unit :=
  match store.keys with
  | .error error => (store, .error error)
  | .ok keys =>
      match evict store (keys.filter (isEntryOf implName)) with
      | (store, .error error) => (store, .error error)
      | (store, .ok ()) =>
          match store.set (key implName specVersion) blob with
          | .ok store => (store, .ok ())
          | .error error => (store, .error error)

end ChainClient.MetadataCache
