import ChainClient.Cache.Metadata
import ChainClient.Extrinsic.Extension
import ChainClient.Hex
import ChainClient.Rpc.Message
import ChainClient.Rpc.Method
import ChainClient.Rpc.Request
import ChainClient.Rpc.RuntimeVersion
import ChainClient.Rpc.SystemInfo
import ChainClient.Session.Error

/-! A session with a node: one link at a time, over which all
callers send their requests. -/

namespace ChainClient

/-- A connection to a node.  It is live as long as the node holds its end. -/
structure Link where
  number : Nat
  live : Bool
  deriving DecidableEq, Repr

inductive Phase where
  | disconnected
  | connecting
  | connected
  | awaitingMetadata
  | ready (signingCapable : Bool)
  deriving DecidableEq, Repr

def Phase.render : Phase → String
  | .disconnected => "Disconnected"
  | .connecting => "Connecting"
  | .connected => "Connected"
  | .awaitingMetadata => "AwaitingMetadata"
  | .ready signingCapable =>
      "Ready \x7b signing_capable: " ++ toString signingCapable ++ " \x7d"

/-- Metadata, and whether every signed extension that it declares can be filled in. -/
structure LoadedMetadata where
  metadata : Metadata
  signingCapable : Bool
  deriving DecidableEq, Repr

/-- Reads metadata from its hexadecimal text. -/
def LoadedMetadata.parse (parser : MetadataParser) (text : String) :
    Except MetadataError LoadedMetadata := do
  let metadata ← parser (← metadataBytes text)
  return ⟨metadata, ChainClient.signingCapable metadata.extensions⟩

/-- Who receives the pushes of a subscription. -/
abbrev Listener := Nat

/-- A request that has not been answered. -/
inductive Pending where
  | call
  | subscribe (listener : Listener)
  deriving DecidableEq, Repr

/-- What a step of a session makes happen outside it. -/
inductive Effect where
  | send (link : Nat) (request : Request)
  /-- The caller with this id gets its answer. -/
  | resolve (id : String) (response : Response)
  /-- The caller with this id gets no answer any more. -/
  | abandon (id : String)
  | push (listener : Listener) (payload : Json)
  deriving BEq, Repr

structure Session where
  link? : Option Link
  phase : Phase
  pending : List (String × Pending)
  subscriptions : List (String × Listener)
  /-- The last answer to each system query, null after an error. -/
  answers : List (Rpc.SystemQuery × Json)
  /-- How many answers have come since a refresh last began. -/
  answered : Nat
  runtimeVersion? : Option RuntimeVersion
  metadata? : Option LoadedMetadata
  cache : Store

namespace Session

/-- A session without a link. -/
def detached (cache : Store) : Session where
  link? := none
  phase := .connecting
  pending := []
  subscriptions := []
  answers := []
  answered := 0
  runtimeVersion? := none
  metadata? := none
  cache := cache

/-! Sending.  Without a live link nothing is sent. -/

def send? (session : Session) (request : Request) : Option Effect :=
  match session.link? with
  | some link => if link.live then some (.send link.number request) else none
  | none => none

/-- Ids of requests are sixteen hexadecimal digits. -/
def idOfDraw (draw : UInt64) : String :=
  Hex.encode (Bytes.ofNatLE 8 draw.toNat).reverse

/-- The first drawn id that no pending request has, and the draws after it. -/
def freshId? (session : Session) : List UInt64 → Option (String × List UInt64)
  | [] => none
  | draw :: rest =>
      if (session.pending.lookup (idOfDraw draw)).isSome then session.freshId? rest
      else some (idOfDraw draw, rest)

/-- Sends a request that will be answered under a fresh id. -/
def request (session : Session) (id method : String) (params : List Json)
    (pending : Pending) : Except SessionError (Session × Effect) :=
  match session.send? ⟨id, method, params⟩ with
  | some sent =>
      .ok ({ session with pending := Assoc.put id pending session.pending }, sent)
  | none => .error .closed

/-! Refreshing what is known about the node. -/

def systemRequest (query : Rpc.SystemQuery) : Request := ⟨query.id, query.method, []⟩

/-- Begins to count answers, and asks all system queries. -/
def refresh (session : Session) : Session × Except SessionError (List Effect) :=
  let session := { session with answered := 0 }
  match Rpc.SystemQuery.all.mapM fun query => session.send? (systemRequest query) with
  | some sent => (session, .ok sent)
  | none => (session, .error .closed)

/-- Whether as many answers have come as there are queries. -/
def isRefreshed (session : Session) : Bool :=
  Rpc.SystemQuery.all.length ≤ session.answered

def answerMember? : Rpc.SystemQuery × Json → Option (String × Json)
  | (_, .null) => none
  | (query, answer) => some (query.id, answer)

/-- The answers read together.  What has not been answered keeps its default, and so does
everything when one of the answers cannot be read. -/
def systemInfo (session : Session) : SystemInfo :=
  (SystemInfo.ofJson? (.object (session.answers.filterMap answerMember?))).getD .unknown

/-! Subscriptions. -/

def unsubscribe (session : Session) (id : String) : Session :=
  { session with subscriptions := Assoc.erase id session.subscriptions }

def render (session : Session) : String :=
  "RpcSession \x7b state: " ++ session.phase.render ++
    ", pending: " ++ toString session.pending.length ++
    ", subscriptions: " ++ toString session.subscriptions.length ++ " \x7d"

end Session

end ChainClient
