import ChainClient.Assoc
import ChainClient.Bytes

/-! The part of a file system that a store touches: one directory and what lies in it. -/

namespace ChainClient

inductive DirectoryEntry where
  | file (content : Bytes)
  | directory
  deriving DecidableEq, Repr

inductive FileError where
  | notFound
  | other
  deriving DecidableEq, Repr

structure Directory where
  /-- None when the directory itself does not exist. -/
  entries? : Option (List (String × DirectoryEntry))
  deriving DecidableEq, Repr

namespace Directory

def empty : Directory := ⟨some []⟩

def missing : Directory := ⟨none⟩

/-- Creates the directory if it does not exist. -/
def create (directory : Directory) : Directory :=
  ⟨some (directory.entries?.getD [])⟩

def maxNameLength : Nat := 255

/-- What a name stands for. -/
def find (directory : Directory) (name : String) : Except FileError DirectoryEntry :=
  match directory.entries? with
  | none => .error .notFound
  | some entries =>
      if maxNameLength < name.utf8ByteSize then .error .other
      else
        match entries.lookup name with
        | some entry => .ok entry
        | none => .error .notFound

/-- The text of a file. -/
def read (directory : Directory) (name : String) : Except FileError String := do
  match ← directory.find name with
  | .directory => .error .other
  | .file content =>
      match content.toString? with
      | some text => .ok text
      | none => .error .other

/-- Puts a file under a name that is free or names a file already. -/
def write (directory : Directory) (name : String) (content : Bytes) :
    Except FileError Directory :=
  match directory.entries? with
  | none => .error .notFound
  | some entries =>
      if maxNameLength < name.utf8ByteSize then .error .other
      else if entries.lookup name = some .directory then .error .other
      else .ok ⟨some (Assoc.put name (.file content) entries)⟩

def remove (directory : Directory) (name : String) : Except FileError Directory := do
  match ← directory.find name with
  | .directory => .error .other
  | .file _ => .ok ⟨directory.entries?.map (Assoc.erase name)⟩

/-- The names of the files. -/
def files (directory : Directory) : Except FileError (List String) :=
  match directory.entries? with
  | none => .error .notFound
  | some entries =>
      .ok (entries.filterMap fun (name, entry) =>
        match entry with
        | .file _ => some name
        | .directory => none)

def makeDirectory (directory : Directory) (name : String) : Directory :=
  ⟨directory.entries?.map (Assoc.put name .directory)⟩

end Directory

end ChainClient
