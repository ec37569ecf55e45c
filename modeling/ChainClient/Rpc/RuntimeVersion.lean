import ChainClient.Rpc.Record

namespace ChainClient

structure RuntimeVersion where
  specName : String
  implName : String
  authoringVersion : Nat
  specVersion : Nat
  implVersion : Nat
  transactionVersion : Nat
  deriving DecidableEq, Repr

namespace RuntimeVersion

def fieldNames : List String :=
  ["specName", "implName", "authoringVersion", "specVersion", "implVersion",
    "transactionVersion"]

def ofWritten? (budget : Nat) (written : Json.Written) : Option RuntimeVersion := do
  let record ← written.record? fieldNames budget
  let version := Json.Written.natBelow? (2 ^ 32)
  let specName ← record.required? "specName" Json.Written.string?
  let implName ← record.required? "implName" Json.Written.string?
  let authoringVersion ← record.defaulted? "authoringVersion" 0 version
  let specVersion ← record.required? "specVersion" version
  let implVersion ← record.defaulted? "implVersion" 0 version
  let transactionVersion ← record.required? "transactionVersion" version
  return ⟨specName, implName, authoringVersion, specVersion, implVersion,
    transactionVersion⟩

def ofJson? (json : Json) : Option RuntimeVersion :=
  ofWritten? Json.nestingBudget (.ofJson json)

def toJson (version : RuntimeVersion) : Json :=
  .object
    [("specName", .string version.specName), ("implName", .string version.implName),
      ("authoringVersion", .nat version.authoringVersion),
      ("specVersion", .nat version.specVersion), ("implVersion", .nat version.implVersion),
      ("transactionVersion", .nat version.transactionVersion)]

end RuntimeVersion

end ChainClient
