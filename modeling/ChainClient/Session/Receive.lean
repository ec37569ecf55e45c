import ChainClient.Session.Basic

/-! What a session does with each message from the node.

A message goes to the first that takes it: the system queries, the announcement of a runtime
version, the acknowledgement of the version subscription, the request for metadata, a
pending request, and last a subscription. -/

namespace ChainClient.Session

def answer (session : Session) (query : Rpc.SystemQuery) (result? : Option Json) :
    Session :=
  { session with
    answers := Assoc.put query (result?.getD .null) session.answers
    answered := session.answered + 1 }

/-! Metadata is read from the cache, or asked for when it is not there. -/

def publish (session : Session) (loaded : LoadedMetadata) : Session :=
  { session with metadata? := some loaded, phase := .ready loaded.signingCapable }

def cachedMetadata? (parser : MetadataParser) (session : Session)
    (version : RuntimeVersion) : Option LoadedMetadata := do
  let text ← MetadataCache.get? session.cache version.implName version.specVersion
  (LoadedMetadata.parse parser text).toOption

def metadataRequest : Request := ⟨Rpc.metadataId, Rpc.getMetadata, []⟩

def announce (parser : MetadataParser) (session : Session) (version : RuntimeVersion) :
    Session × List Effect :=
  let session := { session with runtimeVersion? := some version }
  match session.cachedMetadata? parser version with
  | some loaded => (session.publish loaded, [])
  | none =>
      ({ session with phase := .awaitingMetadata }, (session.send? metadataRequest).toList)

/-- Files a blob under the runtime version that was announced last. -/
def file (session : Session) (text : String) : Session :=
  match session.runtimeVersion? with
  | some version =>
      { session with
        cache :=
          (MetadataCache.replace session.cache version.implName
            version.specVersion text).1 }
  | none => session

/-- Text that is no usable metadata is passed over. -/
def takeMetadata (parser : MetadataParser) (session : Session) (result? : Option Json) :
    Session :=
  match result? with
  | some (.string text) =>
      match LoadedMetadata.parse parser text with
      | .ok loaded => (session.file text).publish loaded
      | .error _ => session
  | _ => session

/-! Pending requests. -/

/-- The answer to a subscription request registers its listener whenever it has a result
that is an id, so that no push after it is lost. -/
def register (session : Session) (response : Response) : Pending → Session
  | .call => session
  | .subscribe listener =>
      match response.result?.bind idText? with
      | some id =>
          { session with subscriptions := Assoc.put id listener session.subscriptions }
      | none => session

def resolve (session : Session) (id : String) (pending : Pending) (response : Response) :
    Session × List Effect :=
  let session := { session with pending := Assoc.erase id session.pending }
  (session.register response pending, [.resolve id response])

/-- The pending request that a message answers. -/
def pending? (session : Session) (message : Message) : Option (String × Pending) := do
  let id ← message.id?
  let pending ← session.pending.lookup id
  return (id, pending)

/-- The listener that a message is for. -/
def listener? (session : Session) (message : Message) : Option Listener := do
  session.subscriptions.lookup (← message.subscription?)

def route (parser : MetadataParser) (session : Session) (message : Message) :
    Session × List Effect :=
  match message.id?.bind Rpc.SystemQuery.ofId? with
  | some query => (session.answer query message.result?, [])
  | none =>
      if message.method? = some Rpc.runtimeVersionPush then
        match RuntimeVersion.ofJson? message.payload with
        | some version => session.announce parser version
        | none => (session, [])
      else if message.id? = some Rpc.versionSubscriptionId then (session, [])
      else if message.id? = some Rpc.metadataId then
        (session.takeMetadata parser message.result?, [])
      else
        match session.pending? message with
        | some (id, pending) => session.resolve id pending message.response
        | none =>
            match session.listener? message with
            | some listener => (session, [.push listener message.payload])
            | none => (session, [])

/-- Text that is no message is passed over. -/
def receive (parser : MetadataParser) (session : Session) (text : String) :
    Session × List Effect :=
  match Message.parse? text with
  | some message => session.route parser message
  | none => (session, [])

end ChainClient.Session
