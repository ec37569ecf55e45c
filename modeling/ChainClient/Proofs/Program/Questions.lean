import ChainClient.Program
import ChainClient.Proofs.Outcome

/-! Programs that do nothing but ask a node.  What they ask for, and what they come to,
is told by the answers alone. -/

namespace ChainClient

/-- What a program is given for a request. -/
abbrev Answer := Except SessionError Response

/-- A method, and the parameters that it is called with. -/
abbrev Question := String × List Json

namespace Program

variable {α β : Type}

/-- Requests are all that a program has to do with its session, and subscriptions are
requested with allowed methods only. -/
def OnlyAsks (allowed : String → Prop) : Program α → Prop
  | .done _ => True
  | .call _ _ next => ∀ answer, (next answer).OnlyAsks allowed
  | .subscribe method _ next => allowed method ∧ ∀ answer, (next answer).OnlyAsks allowed
  | _ => False

/-- What a program asks for when it is given these answers one after another.  It stops at a
request that is left without one. -/
def questions : Program α → List Answer → List Question
  | .call method params _, [] => [(method, params)]
  | .call method params next, answer :: rest =>
      (method, params) :: (next answer).questions rest
  | .subscribe method params _, [] => [(method, params)]
  | .subscribe method params next, answer :: rest =>
      (method, params) :: (next answer).questions rest
  | _, _ => []

/-- What a program comes to with these answers, if they are enough. -/
def outcome? : Program α → List Answer → Option α
  | .done outcome, _ => some outcome
  | .call _ _ next, answer :: rest => (next answer).outcome? rest
  | .subscribe _ _ next, answer :: rest => (next answer).outcome? rest
  | _, _ => none

/-! What is made of the outcome does not change what is asked for. -/

theorem OnlyAsks.map {allowed : String → Prop} {program : Program α} (f : α → β)
    (h : program.OnlyAsks allowed) : (f <$> program).OnlyAsks allowed := by
  induction program with
  | done outcome => trivial
  | call method params next ih => exact fun answer => ih answer (h answer)
  | subscribe method params next ih =>
      exact ⟨h.1, fun answer => ih answer (h.2 answer)⟩
  | _ => exact h.elim

@[simp] theorem questions_map (f : α → β) (program : Program α) (answers : List Answer) :
    (f <$> program).questions answers = program.questions answers := by
  induction program generalizing answers with
  | call method params next ih =>
      cases answers with
      | nil => rfl
      | cons answer rest => exact congrArg _ (ih answer rest)
  | subscribe method params next ih =>
      cases answers with
      | nil => rfl
      | cons answer rest => exact congrArg _ (ih answer rest)
  | _ => rfl

/-! Requests whose answers are read. -/

theorem run_request (method : String) (params : List Json) :
    (request method params).run =
      .call method params fun answer => .done (answer >>= Response.toResult) := by
  change Program.call _ _ _ = _
  congr 1
  funext answer
  cases answer with
  | error error => rfl
  | ok response => cases response.toResult <;> rfl

/-- What a subscriber takes from the answer: the id in its
result, unless there is an error. -/
def subscribed (method : String) (answer : Answer) : Except SessionError String := do
  let result ← answer >>= Response.toResult
  match idText? result with
  | some id => .ok id
  | none => .error (.unexpectedResponse method (some ("subscription id " ++ result.render)))

theorem run_subscription (method : String) (params : List Json) :
    (subscription method params).run =
      .subscribe method params fun answer => .done (subscribed method answer) := by
  unfold subscription
  rw [ExceptT.run_bind]
  change Program.subscribe _ _ _ = _
  congr 1
  funext answer
  cases answer with
  | error error => rfl
  | ok response =>
      simp only [Program.bind, ExceptT.run_bind, subscribed, ok_bind]
      cases response.toResult with
      | error error => rfl
      | ok result =>
          simp only [ok_bind]
          change Program.bind (.done (Except.ok result)) _ = _
          simp only [Program.bind]
          cases idText? result <;> rfl

theorem subscribed_of_error {method : String} {response : Response} {error : RpcError}
    (h : response.error? = some error) :
    subscribed method (.ok response) = .error (.rpc error.code error.message) := by
  simp only [subscribed, ok_bind, Response.toResult, h]
  rfl

theorem subscribed_eq_ok {method id : String} {response : Response} :
    subscribed method (.ok response) = .ok id ↔
      response.error? = none ∧ response.result?.bind idText? = some id := by
  cases herror : response.error? with
  | some error =>
      rw [subscribed_of_error herror]
      exact iff_of_false nofun fun h => nomatch h.1
  | none =>
      have hresult : response.toResult = .ok (response.result?.getD .null) := by
        rw [Response.toResult, herror]
      have hread : idText? (response.result?.getD .null) =
          response.result?.bind idText? := by
        cases response.result? <;> rfl
      simp only [subscribed, ok_bind, hresult, hread]
      cases response.result?.bind idText? <;> simp

theorem questions_subscription (method : String) (params : List Json)
    (answers : List Answer) :
    (subscription method params).run.questions answers = [(method, params)] := by
  rw [run_subscription]
  cases answers <;> rfl

theorem onlyAsks_subscription {allowed : String → Prop} {method : String}
    (h : allowed method) (params : List Json) :
    (subscription method params).run.OnlyAsks allowed := by
  rw [run_subscription]
  exact ⟨h, fun _ => trivial⟩

end Program

end ChainClient
