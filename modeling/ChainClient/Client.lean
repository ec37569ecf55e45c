import ChainClient.Program
import ChainClient.Session.Link
import ChainClient.Session.Receive

/-! Jobs that share one session.  Whatever can happen to a client is an event, and
events may come in any order. -/

namespace ChainClient

/-- A program on its way. -/
inductive Job (α : Type) where
  | running (program : Program α)
  | dialling (next : Except SessionError Unit → Program α)
  | awaiting (id : String) (next : Except SessionError Response → Program α)
  | refreshing (next : Except SessionError SystemInfo → Program α)
  | finished (outcome : α)

/-- What running a job up to the next wait leads to. -/
structure Turn (α : Type) where
  session : Session
  job : Job α
  effects : List Effect

namespace Job

variable {α : Type}

/-- Runs a program until it has to wait.  Ids of requests are drawn from a list, and without
a draw left the program stays where it is. -/
def run (listener : Listener) (draws : List UInt64) (session : Session) : Program α → Turn α
  | .done outcome => ⟨session, .finished outcome, []⟩
  | .dial _ next => ⟨session.beginOpen, .dialling next, []⟩
  | .call method params next =>
      match session.freshId? draws with
      | none => ⟨session, .running (.call method params next), []⟩
      | some (id, draws) =>
          match session.request id method params .call with
          | .ok (session, sent) => ⟨session, .awaiting id next, [sent]⟩
          | .error error => run listener draws session (next (.error error))
  | .subscribe method params next =>
      match session.freshId? draws with
      | none => ⟨session, .running (.subscribe method params next), []⟩
      | some (id, draws) =>
          match session.request id method params (.subscribe listener) with
          | .ok (session, sent) => ⟨session, .awaiting id next, [sent]⟩
          | .error error => run listener draws session (next (.error error))
  | .refresh next =>
      match session.refresh with
      | (session, .ok sent) => ⟨session, .refreshing next, sent⟩
      | (session, .error error) => run listener draws session (next (.error error))
  | .runtimeVersion next =>
      match session.runtimeVersion? with
      | some version => run listener draws session (next version)
      | none => ⟨session, .running (.runtimeVersion next), []⟩
  | .metadata next =>
      match session.metadata? with
      | some loaded => run listener draws session (next loaded)
      | none => ⟨session, .running (.metadata next), []⟩

def poll (listener : Listener) (draws : List UInt64) (session : Session) (job : Job α) :
    Turn α :=
  match job with
  | .running program => run listener draws session program
  | .refreshing next =>
      if session.isRefreshed then run listener draws session (next (.ok session.systemInfo))
      else ⟨session, job, []⟩
  | _ => ⟨session, job, []⟩

/-- Gives an answer, or the news that none will come, to a job that waits for it. -/
def resume (id : String) (result : Except SessionError Response) (job : Job α) : Job α :=
  match job with
  | .awaiting awaited next => if awaited = id then .running (next result) else job
  | _ => job

def dialled (result : Except SessionError Unit) (job : Job α) : Job α :=
  match job with
  | .dialling next => .running (next result)
  | _ => job

def outcome? : Job α → Option α
  | .finished outcome => some outcome
  | _ => none

/-- Whether a turn would lead anywhere. -/
def canRun (session : Session) : Job α → Bool
  | .running (.runtimeVersion _) => session.runtimeVersion?.isSome
  | .running (.metadata _) => session.metadata?.isSome
  | .running _ => true
  | .refreshing _ => session.isRefreshed
  | _ => false

end Job

structure Client (α : Type) where
  session : Session
  jobs : List (Nat × Job α)

inductive Event (α : Type) where
  | start (job : Nat) (program : Program α)
  /-- A job is given the chance to run. -/
  | poll (job : Nat) (draws : List UInt64)
  /-- The link that a job wanted to open is there, or there is none. -/
  | dialled (job : Nat) (link? : Option Link)
  | cancel (job : Nat)
  | unsubscribe (id : String)
  | attach (link : Link)
  | close
  /-- A text arrives over a link. -/
  | receive (link : Nat) (text : String)
  /-- The node gives up its end of a link. -/
  | nodeGone (link : Nat)
  /-- Nothing more can arrive over a link. -/
  | linkEnd (link : Nat)

namespace Client

variable {α : Type}

def new (session : Session) : Client α := ⟨session, []⟩

/-- Hands an effect to the jobs that wait for it. -/
def notify (jobs : List (Nat × Job α)) : Effect → List (Nat × Job α)
  | .resolve id response =>
      jobs.map fun (number, job) => (number, job.resume id (.ok response))
  | .abandon id => jobs.map fun (number, job) => (number, job.resume id (.error .closed))
  | .send .. | .push .. => jobs

/-- Puts a session in the place of the one before, and hands
on the effects that led to it. -/
def follow (client : Client α) (session : Session) (effects : List Effect) :
    Client α × List Effect :=
  (⟨session, effects.foldl notify client.jobs⟩, effects)

def poll (client : Client α) (number : Nat) (draws : List UInt64) :
    Client α × List Effect :=
  match client.jobs.lookup number with
  | some job =>
      let turn := job.poll number draws client.session
      (⟨turn.session, Assoc.put number turn.job client.jobs⟩, turn.effects)
  | none => (client, [])

def dialled (client : Client α) (number : Nat) (link? : Option Link) :
    Client α × List Effect :=
  match client.jobs.lookup number with
  | some job =>
      let result := if link?.isSome then .ok () else .error .webSocket
      let (session, effects) := client.session.finishOpen link?
      (⟨session, Assoc.put number (job.dialled result) client.jobs⟩, effects)
  | none => (client, [])

def step (parser : MetadataParser) (client : Client α) : Event α → Client α × List Effect
  | .start number program =>
      ({ client with jobs := Assoc.put number (.running program) client.jobs }, [])
  | .poll number draws => client.poll number draws
  | .dialled number link? => client.dialled number link?
  | .cancel number => ({ client with jobs := Assoc.erase number client.jobs }, [])
  | .unsubscribe id => ({ client with session := client.session.unsubscribe id }, [])
  | .attach link =>
      let (session, effects) := client.session.attach link
      client.follow session effects
  | .close =>
      let (session, effects) := client.session.close
      client.follow session effects
  | .receive link text =>
      if client.session.hasLink link then
        let (session, effects) := client.session.receive parser text
        client.follow session effects
      else (client, [])
  | .nodeGone link => ({ client with session := client.session.nodeGone link }, [])
  | .linkEnd link => ({ client with session := client.session.linkEnd link }, [])

/-- Goes through events one after another, and collects their effects. -/
def run (parser : MetadataParser) (client : Client α) :
    List (Event α) → Client α × List Effect
  | [] => (client, [])
  | event :: rest =>
      let (client, effects) := client.step parser event
      let (client, others) := run parser client rest
      (client, effects ++ others)

end Client

end ChainClient
