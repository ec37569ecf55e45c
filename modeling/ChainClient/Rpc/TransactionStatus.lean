import ChainClient.BlockHash
import ChainClient.Rpc.Record

/-! What becomes of a submitted transaction. -/

namespace ChainClient

inductive TransactionStatus where
  | future
  | ready
  | broadcast (peers : List String)
  | inBlock (block : BlockHash)
  | retracted (block : BlockHash)
  | finalityTimeout (block : BlockHash)
  | finalized (block : BlockHash)
  | usurped (transaction : BlockHash)
  | dropped
  | invalid
  deriving DecidableEq, Repr

namespace TransactionStatus

def ofName? : String → Option TransactionStatus
  | "future" => some .future
  | "ready" => some .ready
  | "dropped" => some .dropped
  | "invalid" => some .invalid
  | _ => none

def blockHash? (written : Json.Written) : Option BlockHash := do
  BlockHash.parse? (← written.string?)

def ofMember? (budget : Nat) (name : String) (content : Json.Written) :
    Option TransactionStatus :=
  match name with
  | "broadcast" => (content.strings? budget).map .broadcast
  | "inBlock" => (blockHash? content).map .inBlock
  | "retracted" => (blockHash? content).map .retracted
  | "finalityTimeout" => (blockHash? content).map .finalityTimeout
  | "finalized" => (blockHash? content).map .finalized
  | "usurped" => (blockHash? content).map .usurped
  | _ =>
      match content with
      | .null => ofName? name
      | _ => none

/-- A status without content may also be written as a member that is null. -/
def ofWritten? (budget : Nat) : Json.Written → Option TransactionStatus
  | .string name? => name?.bind ofName?
  | .object [(some name, content)] =>
      if budget ≤ 1 then none else ofMember? (budget - 1) name content
  | _ => none

def ofJson? (json : Json) : Option TransactionStatus :=
  ofWritten? Json.nestingBudget (.ofJson json)

def blockJson (name : String) (block : BlockHash) : Json :=
  .object [(name, .string block.render)]

def toJson : TransactionStatus → Json
  | .future => .string "future"
  | .ready => .string "ready"
  | .broadcast peers => .object [("broadcast", .array (peers.map .string))]
  | .inBlock block => blockJson "inBlock" block
  | .retracted block => blockJson "retracted" block
  | .finalityTimeout block => blockJson "finalityTimeout" block
  | .finalized block => blockJson "finalized" block
  | .usurped transaction => blockJson "usurped" transaction
  | .dropped => .string "dropped"
  | .invalid => .string "invalid"

/-- No further status follows this one. -/
def isFinal : TransactionStatus → Bool
  | .finalized _ => true
  | .finalityTimeout _ => true
  | .usurped _ => true
  | .dropped => true
  | .invalid => true
  | _ => false

end TransactionStatus

end ChainClient
