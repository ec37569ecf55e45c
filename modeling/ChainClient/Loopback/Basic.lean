import ChainClient.Client
import ChainClient.Loopback.Script

/-! A client and a node in one process, and what is on its way between them. -/

namespace ChainClient

structure Loopback (α : Type) where
  parser : MetadataParser
  client : Client α
  rules : List Loopback.Rule
  /-- For each link, whether the node holds its end. -/
  ends : List Bool
  /-- Texts on their way to the client. -/
  incoming : List (Nat × String)
  /-- A link over which nothing more will come. -/
  ending? : Option Nat
  /-- Requests on their way to the node. -/
  outgoing : List (Nat × Request)
  /-- Jobs that can go on, in the order in which they came to be able to. -/
  ready : List Nat
  drawn : Nat
  /-- Requests that the node has received. -/
  received : List (Nat × Request)
  pushes : List (Listener × Json)

namespace Loopback

variable {α : Type}

def new (parser : MetadataParser) (cache : Store) (rules : List Rule) : Loopback α where
  parser := parser
  client := .new (.detached cache)
  rules := rules
  ends := []
  incoming := []
  ending? := none
  outgoing := []
  ready := []
  drawn := 0
  received := []
  pushes := []

def sent? : Effect → Option (Nat × Request)
  | .send link request => some (link, request)
  | _ => none

def push? : Effect → Option (Listener × Json)
  | .push listener payload => some (listener, payload)
  | _ => none

/-- The jobs that can go on and do not wait for their turn yet. -/
def woken (client : Client α) (ready : List Nat) : List Nat :=
  client.jobs.filterMap fun (number, job) =>
    if job.canRun client.session ∧ number ∉ ready then some number else none

def apply (loopback : Loopback α) (event : Event α) : Loopback α :=
  let (client, effects) := loopback.client.step loopback.parser event
  { loopback with
    client := client
    outgoing := loopback.outgoing ++ effects.filterMap sent?
    pushes := loopback.pushes ++ effects.filterMap push?
    ready := loopback.ready ++ woken client loopback.ready }

/-! What the node does. -/

def holds (loopback : Loopback α) (link : Nat) : Bool :=
  loopback.ends.getD link false

/-- Sends a message over a link of which the node holds its end, and tells
whether the client still listens. -/
def send (loopback : Loopback α) (link : Nat) (message : Json) : Loopback α × Option Bool :=
  if loopback.holds link then
    if loopback.client.session.hasLink link then
      ({ loopback with incoming := loopback.incoming ++ [(link, message.render)] },
        some true)
    else (loopback, some false)
  else (loopback, none)

def receive (loopback : Loopback α) (link : Nat) (request : Request) : Loopback α :=
  if loopback.holds link then
    let (replies, rules) := answer request loopback.rules
    let loopback :=
      { loopback with received := loopback.received ++ [(link, request)], rules := rules }
    replies.foldl (fun loopback reply => (loopback.send link reply).1) loopback
  else loopback

/-- The node gives up its end of a link. -/
def drop (loopback : Loopback α) (link : Nat) : Loopback α :=
  if loopback.holds link then
    { loopback with ends := loopback.ends.set link false, ending? := some link }.apply
      (.nodeGone link)
  else loopback

/-! What the client does. -/

/-- Attaches a new link, of which the node holds its end or has already given it up. -/
def attach (loopback : Loopback α) (live : Bool) : Loopback α :=
  let link := loopback.ends.length
  { loopback with
    ends := loopback.ends ++ [live]
    ending? := if live then none else some link }.apply (.attach ⟨link, live⟩)

/-- How many draws a turn is given. -/
def drawsPerTurn : Nat := 4

/-- Draws that do not repeat. -/
def draw (n : Nat) : UInt64 := (UInt64.ofNat n + 1) * 0x9e3779b97f4a7c15

/-- Gives a job its turn.  No link is opened in answer to a URL. -/
def poll (loopback : Loopback α) (number : Nat) : Loopback α :=
  let draws := (List.range drawsPerTurn).map fun i => draw (loopback.drawn + i)
  let loopback :=
    { loopback with drawn := loopback.drawn + drawsPerTurn }.apply (.poll number draws)
  match loopback.client.jobs.lookup number with
  | some (.dialling _) => loopback.apply (.dialled number none)
  | _ => loopback

/-- One thing that can happen next, if there is one. -/
def step? (loopback : Loopback α) : Option (Loopback α) :=
  match loopback.incoming, loopback.ending?, loopback.ready, loopback.outgoing with
  | (link, text) :: rest, _, _, _ =>
      some ({ loopback with incoming := rest }.apply (.receive link text))
  | [], some link, _, _ => some ({ loopback with ending? := none }.apply (.linkEnd link))
  | [], none, number :: rest, _ => some ({ loopback with ready := rest }.poll number)
  | [], none, [], (link, request) :: rest =>
      some ({ loopback with outgoing := rest }.receive link request)
  | [], none, [], [] => none

/-- The outcomes of the jobs that are finished. -/
def outcomes (loopback : Loopback α) : List (Nat × α) :=
  loopback.client.jobs.filterMap fun (number, job) =>
    job.outcome?.map fun outcome => (number, outcome)

end Loopback

end ChainClient
