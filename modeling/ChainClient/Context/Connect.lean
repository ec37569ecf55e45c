import ChainClient.Cache.FileTree
import ChainClient.Config.Basic
import ChainClient.Context.Basic

/-! Connecting as the settings say. -/

namespace ChainClient

namespace Config

/-- The account that transactions are signed for. -/
def account (config : Config) : Account :=
  match config.secret? with
  | some secret => .ofSecret secret
  | none => .dev

end Config

namespace Context

/-- Opens the store that metadata is kept in. -/
def openCache (tree : FileTree) (settings : CacheSettings) :
    FileTree × Except CacheError Store :=
  if settings.inMemory then (tree, .ok .emptyMemory) else tree.openStore settings.path

/-- Connects to the node of the settings, for the account that they name. -/
def connect (config : Config) (sign : Account → Bytes → Vector UInt8 64) :
    FallibleProgram SessionError Context := do
  Program.openLink config.url
  Context.new .standard (config.account.signer (sign config.account))

end Context

end ChainClient
