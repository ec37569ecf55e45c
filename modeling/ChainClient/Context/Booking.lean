import ChainClient.Context.Basic

/-! Calls on a context share it, except that an update has it alone.  They are granted in
the order in which they are made. -/

namespace ChainClient.Context

inductive Access where
  | shared
  | exclusive
  deriving DecidableEq, Repr

/-- Whether a call may start while the given calls before it are unfinished. -/
def Access.granted (access : Access) (unfinished : List Access) : Bool :=
  match access with
  | .shared => unfinished.all (· = .shared)
  | .exclusive => unfinished.isEmpty

/-- A call that is unfinished.  It keeps its program until it is granted. -/
structure Booking (α : Type) where
  number : Nat
  access : Access
  program? : Option (Context → Program α)

/-- Grants calls, given what those before them need.  The programs that may start come with
their numbers. -/
def grant {α : Type} (context : Context) (before : List Access) :
    List (Booking α) → List (Booking α) × List (Nat × Program α)
  | [] => ([], [])
  | booking :: rest =>
      let (others, started) := grant context (before ++ [booking.access]) rest
      match booking.program? with
      | some program =>
          if booking.access.granted before then
            ({ booking with program? := none } :: others,
              (booking.number, program context) :: started)
          else (booking :: others, started)
      | none => (booking :: others, started)

end ChainClient.Context
