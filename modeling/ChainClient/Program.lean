import ChainClient.Session.Basic

/-! Programs that talk to a node.  A program stops wherever it needs something from its
session, and goes on with what it is given. -/

namespace ChainClient

inductive Program (α : Type) where
  | done (outcome : α)
  /-- Opens a link. -/
  | dial (url : String) (next : Except SessionError Unit → Program α)
  /-- Sends a request and waits for the answer. -/
  | call (method : String) (params : List Json)
      (next : Except SessionError Response → Program α)
  /-- Sends a request for a subscription, whose pushes go to whoever runs the program. -/
  | subscribe (method : String) (params : List Json)
      (next : Except SessionError Response → Program α)
  /-- Asks all system queries and waits until they are answered. -/
  | refresh (next : Except SessionError SystemInfo → Program α)
  /-- Waits until a runtime version has been announced. -/
  | runtimeVersion (next : RuntimeVersion → Program α)
  /-- Waits until metadata has been loaded. -/
  | metadata (next : LoadedMetadata → Program α)

/-- Programs that may fail. -/
abbrev FallibleProgram (ε α : Type) := ExceptT ε Program α

/-- The result of an answer.  An error in it counts before a result. -/
def Response.toResult (response : Response) : Except SessionError Json :=
  match response.error? with
  | some error => .error (.rpc error.code error.message)
  | none => .ok (response.result?.getD .null)

namespace Program

variable {α β γ : Type}

protected def bind : Program α → (α → Program β) → Program β
  | .done outcome, k => k outcome
  | .dial url next, k => .dial url fun result => (next result).bind k
  | .call method params next, k => .call method params fun result => (next result).bind k
  | .subscribe method params next, k =>
      .subscribe method params fun result => (next result).bind k
  | .refresh next, k => .refresh fun result => (next result).bind k
  | .runtimeVersion next, k => .runtimeVersion fun version => (next version).bind k
  | .metadata next, k => .metadata fun loaded => (next loaded).bind k

instance : Monad Program where
  pure := .done
  bind := Program.bind

theorem bind_done (program : Program α) : program.bind .done = program := by
  induction program with
  | done => rfl
  | _ => simp_all [Program.bind]

theorem bind_assoc (program : Program α) (f : α → Program β) (g : β → Program γ) :
    (program.bind f).bind g = program.bind fun outcome => (f outcome).bind g := by
  induction program with
  | done => rfl
  | _ => simp_all [Program.bind]

instance : LawfulMonad Program :=
  LawfulMonad.mk' Program bind_done (fun _ _ => rfl) bind_assoc

/-! What programs are made of. -/

def openLink (url : String) : FallibleProgram SessionError Unit :=
  ExceptT.mk (.dial url .done)

def respond (method : String) (params : List Json) :
    FallibleProgram SessionError Response :=
  ExceptT.mk (.call method params .done)

/-- The result of a request. -/
def request (method : String) (params : List Json) : FallibleProgram SessionError Json := do
  (← respond method params).toResult

/-- Reads the result of a request as JSON of a known shape. -/
def requestAs (method : String) (params : List Json) (read : Json → Option α) :
    FallibleProgram SessionError α := do
  match read (← request method params) with
  | some value => return value
  | none => throw (.unexpectedResponse method none)

/-- The id of a new subscription. -/
def subscription (method : String) (params : List Json) :
    FallibleProgram SessionError String := do
  let response ← ExceptT.mk (.subscribe method params .done)
  let result ← response.toResult
  match idText? result with
  | some id => return id
  | none => throw (.unexpectedResponse method (some ("subscription id " ++ result.render)))

def systemInfo : FallibleProgram SessionError SystemInfo :=
  ExceptT.mk (.refresh .done)

def currentVersion : Program RuntimeVersion := .runtimeVersion .done

def currentMetadata : Program LoadedMetadata := .metadata .done

end Program

end ChainClient
