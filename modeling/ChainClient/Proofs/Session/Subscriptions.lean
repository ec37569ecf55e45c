import ChainClient.Proofs.Session.Pending

/-! What a message opens, and whom it is given to. -/

namespace ChainClient.Session

variable {parser : MetadataParser} {session : Session} {message : Message}
  {subscription : String} {listener : Listener}

/-- The subscription that a message opens, with its listener: the message answers a request
for one, and its result is an id.  Ids are compared as text, however they were written. -/
def opens? (session : Session) (message : Message) : Option (String × Listener) :=
  if message.method? = some Rpc.runtimeVersionPush then none
  else
    match session.pending? message with
    | some (_, .subscribe listener) => (message.result?.bind idText?).map (·, listener)
    | _ => none

theorem opens?_eq_some : session.opens? message = some (subscription, listener) ↔
    ∃ id, message.Answers id ∧ session.pending.lookup id = some (.subscribe listener) ∧
      message.result?.bind idText? = some subscription := by
  unfold opens? Message.Answers
  split
  case isTrue hpush => simp [hpush]
  case isFalse hpush =>
    split
    case h_1 id other hpending =>
      obtain ⟨hid, hcalled⟩ := pending?_eq_some.mp hpending
      simp only [Option.map_eq_some_iff, Prod.mk.injEq]
      constructor
      · rintro ⟨result, hresult, rfl, rfl⟩
        exact ⟨id, ⟨hid, hpush⟩, hcalled, hresult⟩
      · rintro ⟨id', ⟨hid', -⟩, hcalled', hresult⟩
        obtain rfl := Option.some.inj (hid.symm.trans hid')
        cases hcalled.symm.trans hcalled'
        exact ⟨subscription, hresult, rfl, rfl⟩
    case h_2 hnone =>
      refine iff_of_false nofun ?_
      rintro ⟨id, ⟨hid, -⟩, hcalled, -⟩
      exact hnone id listener (pending?_eq_some.mpr ⟨hid, hcalled⟩)

theorem opens?_eq_none
    (h : ∀ id, message.Answers id → session.pending.lookup id = none) :
    session.opens? message = none := by
  rw [Option.eq_none_iff_forall_ne_some]
  rintro ⟨subscription, listener⟩ hopens
  obtain ⟨id, hanswers, hcalled, -⟩ := opens?_eq_some.mp hopens
  rw [h id hanswers] at hcalled
  cases hcalled

theorem resolve_subscriptions {id : String} {kind : Pending} (hanswers : message.Answers id)
    (hcalled : session.pending.lookup id = some kind) :
    (session.resolve id kind message.response).1.subscriptions =
      match session.opens? message with
      | some (subscription, listener) =>
          Assoc.put subscription listener session.subscriptions
      | none => session.subscriptions := by
  have hpending := pending?_eq_some.mpr ⟨hanswers.1, hcalled⟩
  rw [opens?, if_neg hanswers.2, hpending]
  cases kind with
  | call => rfl
  | subscribe listener =>
      change (register _ message.response (.subscribe listener)).subscriptions = _
      unfold register
      dsimp only [Message.response]
      cases message.result?.bind idText? <;> rfl

/-- A message opens the subscription that it answers for, and changes no other. -/
theorem route_subscriptions (parser : MetadataParser) (hdrawn : session.CallsDrawn)
    (message : Message) :
    (session.route parser message).1.subscriptions =
      match session.opens? message with
      | some (subscription, listener) =>
          Assoc.put subscription listener session.subscriptions
      | none => session.subscriptions := by
  cases route_routes parser hdrawn message with
  | answer hanswers hcalled hroute => rw [hroute, resolve_subscriptions hanswers hcalled]
  | unasked hunasked hroute =>
      rw [hroute, opens?_eq_none fun id hanswers => (hunasked.id id hanswers.1).2]
  | quiet hasked hanswers hroute => rw [hroute.subscriptions, opens?_eq_none hanswers]

/-- A message is given to no more than one listener, and only when nothing else takes it. -/
theorem route_pushes (parser : MetadataParser) (hdrawn : session.CallsDrawn)
    (message : Message) :
    ∃ push?, (session.route parser message).2.filterMap Effect.pushed? = push?.toList ∧
      ∀ listener payload, push? = some (listener, payload) ↔
        session.Unasked message ∧ session.listener? message = some listener ∧
          message.payload = payload := by
  cases route_routes parser hdrawn message with
  | answer hanswers hcalled hroute =>
      refine ⟨none, by rw [hroute]; rfl, fun listener payload => iff_of_false nofun ?_⟩
      rintro ⟨hunasked, -⟩
      rw [(hunasked.id _ hanswers.1).2] at hcalled
      cases hcalled
  | unasked hunasked hroute =>
      refine ⟨(session.listener? message).map (·, message.payload), ?_,
        fun listener payload => ?_⟩
      · rw [hroute, deliver]
        cases session.listener? message <;> rfl
      · cases session.listener? message <;> simp [hunasked]
  | quiet hasked hanswers hroute =>
      refine ⟨none, hroute.pushed?, fun listener payload => iff_of_false nofun ?_⟩
      rintro ⟨hunasked, -⟩
      exact hasked hunasked

end ChainClient.Session
