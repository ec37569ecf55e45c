import ChainClient.Account
import ChainClient.BlockHash
import ChainClient.Program

/-! What is known about a chain before it is queried or written to. -/

namespace ChainClient

structure Context where
  hasher : Hasher
  signer : Signer
  system : SystemInfo
  genesis : BlockHash

namespace Context

def genesisHash : FallibleProgram SessionError BlockHash := do
  let result ← Program.request Rpc.getBlockHash [.nat 0]
  match result.string?.bind BlockHash.parse? with
  | some hash => return hash
  | none =>
      throw (.unexpectedResponse Rpc.getBlockHash (some ("block hash " ++ result.render)))

/-- Asks a node about itself and for the hash of the first block. -/
def new (hasher : Hasher) (signer : Signer) : FallibleProgram SessionError Context := do
  let system ← Program.systemInfo
  let genesis ← genesisHash
  return { hasher, signer, system, genesis }

/-- Asks the node about itself anew. -/
def update (context : Context) : FallibleProgram SessionError Context := do
  return { context with system := ← Program.systemInfo }

/-- The address of the signing account on this chain. -/
def address (context : Context) : String :=
  context.signer.address context.system.ss58Format

end Context

end ChainClient
