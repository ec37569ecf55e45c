import ChainClient.Cache.Directory

/-! Stores from text to text, in memory or with one file a key. -/

namespace ChainClient

inductive CacheError where
  | invalidKey (key : String)
  | io
  deriving DecidableEq, Repr

def CacheError.message : CacheError → String
  | .invalidKey key => "Invalid cache key '" ++ key ++ "'"
  | .io => "Cache I/O error"

inductive Store where
  | memory (entries : List (String × String))
  | files (directory : Directory)
  deriving DecidableEq, Repr

namespace Store

def emptyMemory : Store := .memory []

def isKeyChar (c : Char) : Bool :=
  c.isAlphanum || c = '-' || c = '_' || c = '.'

/-- Keys of files name a direct child of the directory, and no hidden one. -/
def isFileKey (key : String) : Bool :=
  match key.toList with
  | [] => false
  | first :: rest => first ≠ '.' && (first :: rest).all isKeyChar

def checkKey (key : String) : Except CacheError Unit :=
  if isFileKey key then .ok () else .error (.invalidKey key)

def get (store : Store) (key : String) : Except CacheError (Option String) :=
  match store with
  | .memory entries => .ok (entries.lookup key)
  | .files directory => do
      checkKey key
      match directory.read key with
      | .ok text => .ok (some text)
      | .error .notFound => .ok none
      | .error .other => .error .io

def set (store : Store) (key value : String) : Except CacheError Store :=
  match store with
  | .memory entries => .ok (.memory (Assoc.put key value entries))
  | .files directory => do
      checkKey key
      match directory.write key (Bytes.ofString value) with
      | .ok directory => .ok (.files directory)
      | .error _ => .error .io

/-- Removing what is not there succeeds. -/
def remove (store : Store) (key : String) : Except CacheError Store :=
  match store with
  | .memory entries => .ok (.memory (Assoc.erase key entries))
  | .files directory => do
      checkKey key
      match directory.remove key with
      | .ok directory => .ok (.files directory)
      | .error .notFound => .ok store
      | .error .other => .error .io

def keys (store : Store) : Except CacheError (List String) :=
  match store with
  | .memory entries => .ok (Assoc.keys entries)
  | .files directory => directory.files.mapError fun _ => .io

/-- Opens the store anew: memory starts empty, a directory is created if it is missing. -/
def reopen : Store → Store
  | .memory _ => emptyMemory
  | .files directory => .files directory.create

end Store

end ChainClient
