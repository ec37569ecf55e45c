import ChainClient.Config.Arguments
import ChainClient.Context.Connect
import ChainClient.Context.Storage
import ChainClient.Json.Indented
import ChainClient.Storage.KeyInput
import ChainClient.Value.Text

/-! What the command line shows of a chain: the node that answers, its runtime, and a value
from storage where one is asked for. -/

namespace ChainClient

inductive InspectionError where
  | session (cause : SessionError)
  | palletNotFound (pallet : String)
  | itemNotFound (pallet item : String)
  deriving DecidableEq, Repr

def InspectionError.message : InspectionError → String
  | .session cause => cause.message?.getD cause.name
  | .palletNotFound pallet => "Pallet " ++ pallet ++ " not found"
  | .itemNotFound pallet item => "Storage item " ++ pallet ++ "::" ++ item ++ " not found"

/-- The lines to show, and what kept more from being shown. -/
structure Inspection where
  lines : List String
  failure? : Option InspectionError
  deriving DecidableEq, Repr

namespace Inspection

def nodeLine (info : SystemInfo) : String :=
  info.name ++ " " ++ info.version ++ " on " ++ info.chain

def accountLine (context : Context) : String :=
  "Account " ++ context.address

def runtimeLine (version : RuntimeVersion) : String :=
  "Runtime " ++ version.specName ++ " version " ++ toString version.specVersion ++
    " (transaction version " ++ toString version.transactionVersion ++ ")"

def valueLine : Option Value → String
  | some value => value.toJson.renderIndented
  | none => "null"

/-- Looks an item up in a pallet. -/
def findItem (metadata : Metadata) (pallet item : String) :
    Except InspectionError StorageItem := do
  let some declared := metadata.pallet? pallet | .error (.palletNotFound pallet)
  let some item := declared.storageItem? item | .error (.itemNotFound pallet item)
  return item

/-- Reads the item that the arguments ask for. -/
def storageLines (context : Context) (arguments : Arguments) :
    FallibleProgram InspectionError (List String) :=
  match arguments.pallet?, arguments.item? with
  | some pallet, some item => do
      let loaded ← Program.currentMetadata
      let item ← findItem loaded.metadata pallet item
      let value? ←
        match arguments.key? with
        | some key => context.queryEntry pallet item (KeyInput.parse key)
        | none => context.query pallet item
      return [valueLine value?]
  | _, _ => return []

/-- Connects as the settings say, and shows what the arguments ask for. -/
def run (config : Config) (sign : Account → Bytes → Vector UInt8 64)
    (arguments : Arguments) : Program Inspection := do
  match ← (Context.connect config sign).run with
  | .error cause => return ⟨[], some (.session cause)⟩
  | .ok context =>
      let version ← Program.currentVersion
      let lines := [nodeLine context.system, accountLine context, runtimeLine version]
      match ← (storageLines context arguments).run with
      | .ok more => return ⟨lines ++ more, none⟩
      | .error cause => return ⟨lines, some cause⟩

end Inspection

end ChainClient
