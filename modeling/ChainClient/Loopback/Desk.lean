import ChainClient.Context.Booking
import ChainClient.Loopback.Basic

/-! Numbered calls over a loopback: calls on its session, and calls on the
context that one of them makes. -/

namespace ChainClient

/-- What a finished call leaves. -/
structure Outcome (α : Type) where
  answer : α
  subscription? : Option String := none
  context? : Option Context := none

/-- What happened since the report before. -/
structure Report (α : Type) where
  received : List (Nat × Request)
  finished : List (Nat × α)
  pushes : List (Listener × Json)

structure Desk (α : Type) where
  loopback : Loopback (Outcome α)
  /-- The number of the next call. -/
  next : Nat
  bookings : List (Context.Booking (Outcome α))
  context? : Option Context
  /-- Finished calls in the order in which they finished. -/
  outcomes : List (Nat × Outcome α)
  /-- How many outcomes have been reported. -/
  reported : Nat

namespace Desk

variable {α : Type}

def new (loopback : Loopback (Outcome α)) : Desk α where
  loopback := loopback
  next := 0
  bookings := []
  context? := none
  outcomes := []
  reported := 0

def session (desk : Desk α) : Session := desk.loopback.client.session

def apply (desk : Desk α) (event : Event (Outcome α)) : Desk α :=
  { desk with loopback := desk.loopback.apply event }

/-- Makes a call on the session. -/
def start (desk : Desk α) (program : Program (Outcome α)) : Desk α :=
  { desk with next := desk.next + 1 }.apply (.start desk.next program)

/-- Makes a call on the context. -/
def book (desk : Desk α) (access : Context.Access)
    (program : Context → Program (Outcome α)) : Desk α :=
  { desk with
    next := desk.next + 1
    bookings := desk.bookings ++ [⟨desk.next, access, some program⟩] }

/-- Takes note of an outcome.  A context in it is the one for the calls to come. -/
def finish (desk : Desk α) (number : Nat) (outcome : Outcome α) : Desk α :=
  { desk with
    outcomes := desk.outcomes ++ [(number, outcome)]
    bookings := desk.bookings.filter (·.number ≠ number)
    context? := outcome.context? <|> desk.context? }

def isFinished (desk : Desk α) (number : Nat) : Bool :=
  (desk.outcomes.lookup number).isSome

/-- Gives up a call that is not finished, and leaves an answer in its place. -/
def cancel (desk : Desk α) (number : Nat) (answer : α) : Desk α :=
  if number < desk.next ∧ !desk.isFinished number then
    (desk.apply (.cancel number)).finish number { answer }
  else desk

/-- The subscription that a call has made. -/
def subscription? (desk : Desk α) (number : Nat) : Option String :=
  (desk.outcomes.lookup number).bind (·.subscription?)

/-- Whether a call that shares the context could start at once. -/
def isFree (desk : Desk α) : Bool :=
  Context.Access.shared.granted (desk.bookings.map (·.access))

/-- Starts the calls that are granted to the context, if there are any. -/
def grant? (desk : Desk α) : Option (Desk α) := do
  let (bookings, started) := Context.grant (← desk.context?) [] desk.bookings
  if started.isEmpty then none
  else
    some (started.foldl (fun desk (number, program) => desk.apply (.start number program))
      { desk with bookings := bookings })

/-- One thing that can happen next, if there is one. -/
def step? (desk : Desk α) : Option (Desk α) :=
  match desk.loopback.step? with
  | some loopback => some { desk with loopback := loopback }
  | none =>
      match desk.loopback.outcomes.find? fun (number, _) => !desk.isFinished number with
      | some (number, outcome) => some (desk.finish number outcome)
      | none => desk.grant?

/-- Links of which the node holds its end, but which the session has left. -/
def leftLinks (desk : Desk α) : List Nat :=
  (List.range desk.loopback.ends.length).filter fun link =>
    desk.loopback.holds link && !desk.session.hasLink link

def report (desk : Desk α) : Report α × Desk α :=
  let finished := (desk.outcomes.drop desk.reported).map fun (number, outcome) =>
    (number, outcome.answer)
  (⟨desk.loopback.received, finished, desk.loopback.pushes⟩,
    { desk with
      reported := desk.outcomes.length
      loopback := { desk.loopback with received := [], pushes := [] } })

end Desk

end ChainClient
