import ChainClient.Rpc.Record

/-! What a node says about itself and its chain. -/

namespace ChainClient

structure Health where
  peers : Nat
  isSyncing : Bool
  shouldHavePeers : Bool
  deriving DecidableEq, Repr

namespace Health

def unknown : Health := ⟨0, false, false⟩

def ofWritten? (budget : Nat) (written : Json.Written) : Option Health := do
  let record ← written.record? ["peers", "isSyncing", "shouldHavePeers"] budget
  let peers ← record.required? "peers" (Json.Written.natBelow? (2 ^ 64))
  let isSyncing ← record.required? "isSyncing" Json.Written.bool?
  let shouldHavePeers ← record.required? "shouldHavePeers" Json.Written.bool?
  return ⟨peers, isSyncing, shouldHavePeers⟩

def ofJson? (json : Json) : Option Health :=
  ofWritten? Json.nestingBudget (.ofJson json)

def toJson (health : Health) : Json :=
  .object
    [("peers", .nat health.peers), ("isSyncing", .bool health.isSyncing),
      ("shouldHavePeers", .bool health.shouldHavePeers)]

end Health

structure SystemInfo where
  name : String
  version : String
  chain : String
  properties : List (String × Json)
  health : Health
  deriving BEq, Repr

namespace SystemInfo

def unknown : SystemInfo := ⟨"", "", "", [], .unknown⟩

def members? (budget : Nat) (written : Json.Written) : Option (List (String × Json)) := do
  match ← written.toJson? budget with
  | .object members => some members
  | _ => none

def ofWritten? (budget : Nat) (written : Json.Written) : Option SystemInfo := do
  let record ← written.record? ["name", "version", "chain", "properties", "health"] budget
  let name ← record.defaulted? "name" "" Json.Written.string?
  let version ← record.defaulted? "version" "" Json.Written.string?
  let chain ← record.defaulted? "chain" "" Json.Written.string?
  let properties ← record.defaulted? "properties" [] (members? (budget - 1))
  let health ← record.defaulted? "health" .unknown (Health.ofWritten? (budget - 1))
  return ⟨name, version, chain, properties, health⟩

def ofJson? (json : Json) : Option SystemInfo :=
  ofWritten? Json.nestingBudget (.ofJson json)

def toJson (info : SystemInfo) : Json :=
  .object
    [("name", .string info.name), ("version", .string info.version),
      ("chain", .string info.chain), ("properties", .object info.properties),
      ("health", info.health.toJson)]

def defaultFormat : Nat := 42

/-- The format of addresses on the chain. -/
def ss58Format (info : SystemInfo) : Nat :=
  match (info.properties.lookup "ss58Format").bind Json.toUInt64? with
  | some format => if format < 2 ^ 16 then format else defaultFormat
  | none => defaultFormat

/-- The symbol of the chain's token, the first one if there are several. -/
def tokenSymbol? (info : SystemInfo) : Option String := do
  match ← info.properties.lookup "tokenSymbol" with
  | .string symbol => some symbol
  | .array (first :: _) => first.string?
  | _ => none

end SystemInfo

end ChainClient
