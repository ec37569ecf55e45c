import ChainClient.Session.Basic

/-! The life of a session's link. -/

namespace ChainClient.Session

def versionSubscription : Request :=
  ⟨Rpc.versionSubscriptionId, Rpc.subscribeRuntimeVersion, []⟩

/-- Puts a link in the place of the one before, and asks to be
told the runtime's versions. -/
def attach (session : Session) (link : Link) : Session × List Effect :=
  let session := { session with link? := some link }
  match session.send? versionSubscription with
  | some sent => ({ session with phase := .connected }, [sent])
  | none => ({ session with phase := .disconnected }, [])

/-- Drops the link, and with it every pending request and every subscription. -/
def close (session : Session) : Session × List Effect :=
  ({ session with
      link? := none
      phase := .disconnected
      pending := []
      subscriptions := [] },
    session.pending.map fun (id, _) => .abandon id)

/-- Whether a link, and not one before or after it, is attached. -/
def hasLink (session : Session) (number : Nat) : Bool :=
  session.link?.any (·.number = number)

/-- The node gives up its end.  What it sent before can still be received. -/
def nodeGone (session : Session) (number : Nat) : Session :=
  if session.hasLink number then { session with link? := some ⟨number, false⟩ } else session

/-- Nothing is left to be received. -/
def linkEnd (session : Session) (number : Nat) : Session :=
  if session.hasLink number then { session with phase := .disconnected } else session

def beginOpen (session : Session) : Session :=
  { session with phase := .connecting }

/-- Attaches the link that was opened, if there is one. -/
def finishOpen (session : Session) : Option Link → Session × List Effect
  | some link => session.attach link
  | none => ({ session with phase := .disconnected }, [])

end ChainClient.Session
