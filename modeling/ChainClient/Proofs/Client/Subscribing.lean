import ChainClient.Proofs.Client.Notifications
import ChainClient.Proofs.Program.Questions

/-! A request for a subscription is answered: what becomes of the table of subscriptions,
and what the caller makes of the answer. -/

namespace ChainClient.Client

variable {α : Type} {parser : MetadataParser} {client : Client α} {event : Event α}
  {call : String} {listener : Listener} {message : Message} {number : Nat} {method : String}
  {rest : Except SessionError String → Program α}

/-- A job waits for the answer to its request for a subscription, and goes
on with what it takes from it. -/
def AwaitsSubscription (client : Client α) (number : Nat) (call method : String)
    (rest : Except SessionError String → Program α) : Prop :=
  client.jobs.lookup number =
    some (.awaiting call fun answer => rest (Program.subscribed method answer))

/-- The table is as the outcome of the call has it: with the listener under the id that is
returned, and as it was before if none is. -/
def Follows (listener : Listener) (outcome : Except SessionError String)
    (table table' : List (String × Listener)) : Prop :=
  match outcome with
  | .ok id => table' = Assoc.put id listener table
  | .error _ => table' = table

/-! The request. -/

theorem awaitsSubscription_of_poll {params : List Json} {draws others : List UInt64}
    {session : Session} {sent : Effect}
    (hjob : client.jobs.lookup number =
      some (.running ((Program.subscription method params).run.bind rest)))
    (hfresh : client.session.freshId? draws = some (call, others))
    (hsent : client.session.request call method params (.subscribe number) =
      .ok (session, sent)) :
    (client.step parser (.poll number draws)).1.AwaitsSubscription
      number call method rest := by
  have hturn : Job.poll number draws client.session
      (.running ((Program.subscription method params).run.bind rest)) =
        ⟨session, .awaiting call fun answer => rest (Program.subscribed method answer),
          [sent]⟩ := by
    rw [Program.run_subscription]
    simp only [Job.poll, Program.bind, Job.run, hfresh, hsent]
  rw [AwaitsSubscription, step, poll, hjob]
  simp only [hturn, Assoc.lookup_put, if_true]

/-! The answer. -/

theorem session_opens?_of_answers
    (hcalled : client.session.pending.lookup call = some (.subscribe listener))
    (hanswers : message.Answers call) :
    client.session.opens? message = (message.result?.bind idText?).map (·, listener) := by
  rw [Session.opens?, if_neg hanswers.2, Session.pending?_eq_some.mpr ⟨hanswers.1, hcalled⟩]

theorem step_table (parser : MetadataParser) (hdrawn : client.session.CallsDrawn)
    (hcalled : client.session.pending.lookup call = some (.subscribe listener))
    (hmessage : client.routed? event = some message) (hanswers : message.Answers call) :
    (client.step parser event).1.session.subscriptions =
      match message.result?.bind idText? with
      | some id => Assoc.put id listener client.session.subscriptions
      | none => client.session.subscriptions := by
  rw [step_of_routed hmessage]
  change (Session.route _ _ _).1.subscriptions = _
  rw [Session.route_subscriptions parser hdrawn, session_opens?_of_answers hcalled hanswers]
  cases message.result?.bind idText? <;> rfl

theorem lookup_of_answer (hdrawn : client.session.CallsDrawn)
    (hcalled : client.session.pending.lookup call = some (.subscribe listener))
    (hmessage : client.routed? event = some message) (hanswers : message.Answers call)
    (hawaits : client.AwaitsSubscription number call method rest) :
    (client.step parser event).1.jobs.lookup number =
      some (.running (rest (Program.subscribed method (.ok message.response)))) := by
  have hresolve : .resolve call message.response ∈ (client.step parser event).2 :=
    (step_resolves parser hdrawn event call message.response).mpr
      ⟨by rw [hcalled]; rfl, message, hmessage, hanswers, rfl⟩
  exact lookup_of_resolve hdrawn hresolve hawaits

section Outcome

variable {table table' : List (String × Listener)} {response : Response}
  (htable : table' = match response.result?.bind idText? with
    | some id => Assoc.put id listener table
    | none => table)

include htable

theorem follows_of_no_error (herror : response.error? = none) :
    Follows listener (Program.subscribed method (.ok response)) table table' := by
  cases hid : response.result?.bind idText? with
  | some id =>
      rw [hid] at htable
      rw [Program.subscribed_eq_ok.mpr ⟨herror, hid⟩]
      exact htable
  | none =>
      rw [hid] at htable
      cases houtcome : Program.subscribed method (.ok response) with
      | ok id => cases hid.symm.trans (Program.subscribed_eq_ok.mp houtcome).2
      | error error => exact htable

theorem follows_iff_of_error {error : RpcError} (herror : response.error? = some error) :
    Follows listener (Program.subscribed method (.ok response)) table table' ↔
      ∀ id, response.result?.bind idText? = some id → table.lookup id = some listener := by
  rw [Program.subscribed_of_error herror]
  change table' = table ↔ _
  cases hid : response.result?.bind idText? with
  | some id =>
      rw [hid] at htable
      rw [htable, Assoc.put_eq_self_iff]
      simp
  | none =>
      rw [hid] at htable
      exact iff_of_true htable nofun

end Outcome

section Runs

variable {cache : Store} {past : List (Event α)}

/-- Whoever asked for a subscription goes on with what the answer says to it, and the table
is as this outcome has it, unless the answer has an error next to an id.  Then the call
fails and its listener is in the table all the same. -/
theorem follows_outcome_iff
    (hcalled : (after parser cache past).session.pending.lookup call =
      some (.subscribe listener))
    (hmessage : (after parser cache past).routed? event = some message)
    (hanswers : message.Answers call) (method : String) :
    (∀ number rest, (after parser cache past).AwaitsSubscription number call method rest →
      (after parser cache (past ++ [event])).jobs.lookup number =
        some (.running (rest (Program.subscribed method (.ok message.response))))) ∧
    (Follows listener (Program.subscribed method (.ok message.response))
        (after parser cache past).session.subscriptions
        (after parser cache (past ++ [event])).session.subscriptions ↔
      ∀ error id, message.error? = some error → message.result?.bind idText? = some id →
        (after parser cache past).session.subscriptions.lookup id = some listener) ∧
    ∀ error id, message.error? = some error → message.result?.bind idText? = some id →
      Program.subscribed method (.ok message.response) =
          .error (.rpc error.code error.message) ∧
        (after parser cache (past ++ [event])).session.subscriptions =
          Assoc.put id listener (after parser cache past).session.subscriptions := by
  have hdrawn := (after_orderly parser cache past).drawn
  have htable := step_table parser hdrawn hcalled hmessage hanswers
  rw [after_append_singleton]
  refine ⟨?_, ?_, ?_⟩
  · intro number rest hawaits
    exact lookup_of_answer hdrawn hcalled hmessage hanswers hawaits
  · cases herror : message.error? with
    | none =>
        have hnone : message.response.error? = none := herror
        exact iff_of_true (follows_of_no_error htable hnone) nofun
    | some error =>
        have hsome : message.response.error? = some error := herror
        rw [follows_iff_of_error htable hsome]
        constructor
        · exact fun h other id _ hid => h id hid
        · exact fun h id hid => h error id rfl hid
  · intro error id herror hid
    have hsome : message.response.error? = some error := herror
    rw [hid] at htable
    exact ⟨Program.subscribed_of_error hsome, htable⟩

end Runs

/-! A request that is answered with an id, and one that is
answered with an id and an error. -/

def watchRequested : List (Event (Except SessionError String)) :=
  [.attach ⟨0, true⟩, .start 0 watching, .poll 0 [1]]

def reply (carried : String) : Event (Except SessionError String) :=
  .receive 0 ("\x7b\"id\":\"0000000000000001\",\"result\":7" ++ carried ++ "\x7d")

theorem awaitsSubscription_watching :
    (after parseMetadata .emptyMemory watchRequested).AwaitsSubscription
      0 "0000000000000001" Rpc.submitAndWatch .done := by
  have hrequested :
      watchRequested = [.attach ⟨0, true⟩, .start 0 watching] ++ [.poll 0 [1]] := rfl
  rw [hrequested, after_append_singleton]
  have hjob :
      (after parseMetadata .emptyMemory
          [.attach ⟨0, true⟩, .start 0 watching]).jobs.lookup 0 =
        some (.running ((Program.subscription Rpc.submitAndWatch []).run.bind .done)) := by
    rw [Program.bind_done]
    rfl
  have hfresh : (after parseMetadata .emptyMemory
      [.attach ⟨0, true⟩, .start 0 watching]).session.freshId? [1] =
        some ("0000000000000001", []) := by
    decide +kernel
  exact awaitsSubscription_of_poll hjob hfresh rfl

theorem follows_outcome_iff_watching :
    ∃ message, (after parseMetadata .emptyMemory watchRequested).session.pending.lookup
      "0000000000000001" =
        some (.subscribe 0) ∧
      (after parseMetadata .emptyMemory watchRequested).routed? (reply "") = some message ∧
      message.Answers "0000000000000001" ∧
      (after parseMetadata .emptyMemory (watchRequested ++ [reply ""])).jobs.lookup 0 =
        some (.running (.done (.ok "7"))) ∧
      Follows 0 (.ok "7") [] (after parseMetadata .emptyMemory
        (watchRequested ++ [reply ""])).session.subscriptions := by
  have hcalled : (after parseMetadata .emptyMemory watchRequested).session.pending.lookup
      "0000000000000001" = some (.subscribe 0) := by
    decide +kernel
  have hparts : ((after parseMetadata .emptyMemory watchRequested).routed? (reply "")).map
      (fun message => (message.id?, message.method?, message.error?.isNone,
        message.result?.bind idText?)) =
        some (some "0000000000000001", none, true, some "7") := by
    decide +kernel
  obtain ⟨message, hmessage, hparts⟩ := Option.map_eq_some_iff.mp hparts
  simp only [Prod.mk.injEq, Option.isNone_iff_eq_none] at hparts
  obtain ⟨hid, hmethod, herror, hresult⟩ := hparts
  have hanswers : message.Answers "0000000000000001" := ⟨hid, by rw [hmethod]; nofun⟩
  have houtcome : Program.subscribed Rpc.submitAndWatch (.ok message.response) = .ok "7" :=
    Program.subscribed_eq_ok.mpr ⟨herror, hresult⟩
  have hempty :
      (after parseMetadata .emptyMemory watchRequested).session.subscriptions = [] := by
    decide +kernel
  obtain ⟨hjob, hfollows, -⟩ :=
    follows_outcome_iff hcalled hmessage hanswers Rpc.submitAndWatch
  rw [houtcome, hempty, herror] at hfollows
  have hgoes := hjob 0 .done awaitsSubscription_watching
  rw [houtcome] at hgoes
  exact ⟨message, hcalled, hmessage, hanswers, hgoes, hfollows.mpr nofun⟩

def refused : List (Event (Except SessionError String)) :=
  watchRequested ++
    [reply ",\"error\":\x7b\"code\":1,\"message\":\"m\"\x7d", .poll 0 []]

/-- The call fails, and its listener is put into the table that
was empty before the answer. -/
theorem refused_listener_stays :
    (after parseMetadata .emptyMemory watchRequested).session.subscriptions = [] ∧
      ((after parseMetadata .emptyMemory refused).jobs.lookup 0).bind Job.outcome? =
        some (.error (.rpc 1 "m")) ∧
      (after parseMetadata .emptyMemory refused).session.subscriptions = [("7", 0)] := by
  decide +kernel

end ChainClient.Client
