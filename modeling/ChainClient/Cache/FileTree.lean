import ChainClient.Cache.Store

/-! Nested directories, in one of which a store may be opened. -/

namespace ChainClient

/-- What lies below a directory, each entry under the names that lead to it. -/
abbrev FileTree := List (List String × DirectoryEntry)

namespace FileTree

def entry? (tree : FileTree) (place : List String) : Option DirectoryEntry :=
  if place = [] then some .directory else tree.lookup place

/-- The place that a path leads to, if it is a directory. -/
def enter? (tree : FileTree) (place : List String) : List String → Option (List String)
  | [] => if tree.entry? place = some .directory then some place else none
  | name :: rest =>
      if tree.entry? place ≠ some .directory then none
      else if name = "" ∨ name = "." then tree.enter? place rest
      else if name = ".." then tree.enter? place.dropLast rest
      else tree.enter? (place ++ [name]) rest

/-- Creates the directories on a path that do not exist, and
gives the place that it leads to. -/
def create (tree : FileTree) (place : List String) :
    List String → FileTree × Except FileError (List String)
  | [] => (tree, .ok place)
  | name :: rest =>
      if name = "" ∨ name = "." then create tree place rest
      else if name = ".." then create tree place.dropLast rest
      else
        let place := place ++ [name]
        match tree.entry? place with
        | some .directory => create tree place rest
        | some (.file _) => (tree, .error .other)
        | none =>
            if Directory.maxNameLength < name.utf8ByteSize then (tree, .error .other)
            else create (Assoc.put place .directory tree) place rest

def names (path : String) : List String := (path.toList.splitOn '/').map String.ofList

def isDirectory (tree : FileTree) (path : String) : Bool :=
  (tree.enter? [] (names path)).isSome

/-- The directory at a place. -/
def directory (tree : FileTree) (place : List String) : Directory :=
  ⟨some (tree.filterMap fun (other, entry) =>
    if other.dropLast = place then other.getLast?.map fun name => (name, entry) else none)⟩

/-- Opens a store in the directory at a path, which is created if it does not exist. -/
def openStore (tree : FileTree) (path : String) : FileTree × Except CacheError Store :=
  match tree.create [] (names path) with
  | (tree, .ok place) => (tree, .ok (.files (tree.directory place)))
  | (tree, .error _) => (tree, .error .io)

end FileTree

end ChainClient
