/-! The methods of a node that are called, and the request ids that are fixed. -/

namespace ChainClient.Rpc

/-- The facts about a node that are asked for together.  Each is
asked under an id of its own. -/
inductive SystemQuery where
  | name
  | version
  | chain
  | properties
  | health
  deriving DecidableEq, Repr

namespace SystemQuery

def all : List SystemQuery := [.name, .version, .chain, .properties, .health]

def id : SystemQuery → String
  | .name => "name"
  | .version => "version"
  | .chain => "chain"
  | .properties => "properties"
  | .health => "health"

def method : SystemQuery → String
  | .name => "system_name"
  | .version => "system_version"
  | .chain => "system_chain"
  | .properties => "system_properties"
  | .health => "system_health"

def ofId? (id : String) : Option SystemQuery :=
  all.find? (·.id = id)

end SystemQuery

def metadataId : String := "metadata"

def versionSubscriptionId : String := "version-subscription"

/-- Ids that are the same in every session.  All others are drawn. -/
def fixedIds : List String :=
  metadataId :: versionSubscriptionId :: SystemQuery.all.map SystemQuery.id

def getMetadata : String := "state_getMetadata"

def subscribeRuntimeVersion : String := "state_subscribeRuntimeVersion"

/-- The method of the pushes that announce a runtime version. -/
def runtimeVersionPush : String := "state_runtimeVersion"

def accountNextIndex : String := "system_accountNextIndex"

def getStorage : String := "state_getStorage"

def getBlockHash : String := "chain_getBlockHash"

def submitAndWatch : String := "author_submitAndWatchExtrinsic"

end ChainClient.Rpc
