import ChainClient.Program

/-! What a program may ask a node for. -/

namespace ChainClient

variable {α β ε ε' : Type} {p q : String → List Json → Prop}

namespace Program

/-- Whatever a program is given, `p` holds of the methods and
parameters that it asks with. -/
def Asks (p : String → List Json → Prop) : Program α → Prop
  | .done _ => True
  | .dial _ next => ∀ result, (next result).Asks p
  | .call method params next => p method params ∧ ∀ result, (next result).Asks p
  | .subscribe method params next => p method params ∧ ∀ result, (next result).Asks p
  | .refresh next => ∀ info, (next info).Asks p
  | .runtimeVersion next => ∀ version, (next version).Asks p
  | .metadata next => ∀ loaded, (next loaded).Asks p

theorem Asks.bind {program : Program α} {k : α → Program β} (first : program.Asks p)
    (second : ∀ outcome, (k outcome).Asks p) : (program >>= k).Asks p := by
  change (program.bind k).Asks p
  induction program with
  | done outcome => exact second outcome
  | dial url next ih => exact fun result => ih result (first result)
  | call method params next ih => exact ⟨first.1, fun result => ih result (first.2 result)⟩
  | subscribe method params next ih =>
      exact ⟨first.1, fun result => ih result (first.2 result)⟩
  | refresh next ih => exact fun info => ih info (first info)
  | runtimeVersion next ih => exact fun version => ih version (first version)
  | metadata next ih => exact fun loaded => ih loaded (first loaded)

theorem Asks.map {program : Program α} (f : α → β) (h : program.Asks p) :
    (f <$> program).Asks p := by
  rw [map_eq_pure_bind]
  exact h.bind fun _ => trivial

end Program

/-! Programs that may fail. -/

namespace FallibleProgram

/-- What holds of a program that may fail holds of it as a program. -/
abbrev Asks (p : String → List Json → Prop) (program : FallibleProgram ε α) : Prop :=
  Program.Asks p program.run

theorem asks_bind {program : FallibleProgram ε α} {next : α → FallibleProgram ε β}
    (first : program.Asks p) (second : ∀ outcome, (next outcome).Asks p) :
    (program >>= next).Asks p := by
  unfold Asks
  rw [ExceptT.run_bind]
  refine Program.Asks.bind first fun outcome => ?_
  cases outcome with
  | ok value => exact second value
  | error error => trivial

theorem asks_adapt {program : FallibleProgram ε α} (f : ε → ε') (h : program.Asks p) :
    FallibleProgram.Asks p (program.adapt f) :=
  Program.Asks.map _ h

theorem asks_request {method : String} {params : List Json} (h : p method params) :
    (Program.request method params).Asks p := by
  refine asks_bind ⟨h, fun _ => trivial⟩ fun response => ?_
  cases response.toResult <;> trivial

theorem asks_subscription {method : String} {params : List Json} (h : p method params) :
    (Program.subscription method params).Asks p := by
  refine asks_bind ⟨h, fun _ => trivial⟩ fun response => ?_
  refine asks_bind ?_ fun result => ?_
  · cases response.toResult <;> trivial
  · cases idText? result <;> trivial

end FallibleProgram

end ChainClient
