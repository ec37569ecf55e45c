import ChainClient.Proofs.Client.Delivery
import ChainClient.Proofs.Session.Subscriptions

/-! Every message for a subscription is given to its listener, once and in the order of
arrival, from the answer that opens the subscription until it is given up. -/

namespace ChainClient

/-- A job neither opens a subscription nor gives anything to a listener. -/
theorem Job.permits_subscriptions (subscriptions : List (String × Listener)) :
    Permits (fun session => session.subscriptions = subscriptions)
      (fun effect => effect.pushed? = none) where
  beginOpen _ h := h
  request _ _ _ h := h
  refresh _ h := h
  send _ _ := rfl

/-- The event ends the subscription of this id: it is given up, or all are dropped. -/
def Event.Ends {α : Type} (event : Event α) (id : String) : Prop :=
  event = .unsubscribe id ∨ event = .close

namespace Client

variable {α : Type} {parser : MetadataParser} {client : Client α} {event : Event α}

/-! One step. -/

/-- The subscription that an event opens, with its listener. -/
def opens? (client : Client α) (event : Event α) : Option (String × Listener) :=
  (client.routed? event).bind client.session.opens?

theorem poll_subscriptions (number : Nat) (draws : List UInt64) :
    (client.poll number draws).1.session.subscriptions = client.session.subscriptions ∧
      (client.poll number draws).2.filterMap Effect.pushed? = [] := by
  unfold poll
  split
  case h_1 job _ =>
    have hwithin : Turn.Within _ _ (job.poll number draws client.session) :=
      Job.poll_within (Job.permits_subscriptions client.session.subscriptions) job rfl
    exact ⟨hwithin.session, List.filterMap_eq_nil_iff.mpr hwithin.effects⟩
  case h_2 => exact ⟨rfl, rfl⟩

theorem dialled_subscriptions (number : Nat) (link? : Option Link) :
    (client.dialled number link?).1.session.subscriptions = client.session.subscriptions ∧
      (client.dialled number link?).2.filterMap Effect.pushed? = [] := by
  unfold dialled
  split
  case h_1 =>
    have hquiet := Session.finishOpen_quiet client.session link?
    exact ⟨hquiet.subscriptions, hquiet.pushed?⟩
  case h_2 => exact ⟨rfl, rfl⟩

theorem pushes_of_unrouted (h : client.routed? event = none) :
    (client.step parser event).2.filterMap Effect.pushed? = [] := by
  cases event with
  | start number program => rfl
  | poll number draws => exact (poll_subscriptions number draws).2
  | dialled number link? => exact (dialled_subscriptions number link?).2
  | cancel number => rfl
  | unsubscribe id => rfl
  | attach link => exact (Session.attach_quiet client.session link).pushed?
  | close =>
      change (client.session.pending.map _).filterMap Effect.pushed? = []
      rw [List.filterMap_map, List.filterMap_eq_nil_iff]
      exact fun _ _ => rfl
  | receive link text =>
      rw [step_of_unheard h]
      rfl
  | nodeGone link => rfl
  | linkEnd link => rfl

theorem subscriptions_of_unrouted (h : client.routed? event = none) (id : String)
    (listener : Listener) :
    (client.step parser event).1.session.subscriptions.lookup id = some listener ↔
      client.session.subscriptions.lookup id = some listener ∧ ¬ event.Ends id := by
  have hsame : ∀ {event : Event α}, (∀ id, event ≠ .unsubscribe id) → event ≠ .close →
      (client.step parser event).1.session.subscriptions = client.session.subscriptions →
      ((client.step parser event).1.session.subscriptions.lookup id = some listener ↔
        client.session.subscriptions.lookup id = some listener ∧ ¬ event.Ends id) := by
    intro event hunsubscribe hclose hsame
    simp [hsame, Event.Ends, hunsubscribe, hclose]
  cases event with
  | start number program => exact hsame nofun nofun rfl
  | poll number draws => exact hsame nofun nofun (poll_subscriptions number draws).1
  | dialled number link? => exact hsame nofun nofun (dialled_subscriptions number link?).1
  | cancel number => exact hsame nofun nofun rfl
  | unsubscribe other =>
      change (Assoc.erase other client.session.subscriptions).lookup id = some listener ↔ _
      rw [Assoc.lookup_erase]
      by_cases hid : id = other
      · simp [Event.Ends, hid]
      · simp [Event.Ends, hid, Ne.symm hid]
  | attach link =>
      exact hsame nofun nofun (Session.attach_quiet client.session link).subscriptions
  | close => exact iff_of_false nofun fun h => h.2 (.inr rfl)
  | receive link text => exact hsame nofun nofun (by rw [step_of_unheard h])
  | nodeGone link => exact hsame nofun nofun (Session.nodeGone_quiet _ link).subscriptions
  | linkEnd link => exact hsame nofun nofun (Session.linkEnd_quiet _ link).subscriptions

theorem not_ends_of_routed {message : Message} {id : String}
    (h : client.routed? event = some message) : ¬ event.Ends id := by
  rintro (rfl | rfl) <;> cases h

theorem step_subscriptions (parser : MetadataParser) (hdrawn : client.session.CallsDrawn)
    (event : Event α) (id : String) (listener : Listener) :
    (client.step parser event).1.session.subscriptions.lookup id = some listener ↔
      client.opens? event = some (id, listener) ∨
        client.session.subscriptions.lookup id = some listener ∧
          ¬ (event.Ends id ∨ ∃ other, client.opens? event = some (id, other)) := by
  cases hrouted : client.routed? event with
  | none =>
      rw [subscriptions_of_unrouted hrouted, opens?, hrouted]
      simp
  | some message =>
      have hends : ¬ event.Ends id := not_ends_of_routed hrouted
      rw [opens?, hrouted, Option.bind_some, step_of_routed hrouted]
      change (Session.route _ _ _).1.subscriptions.lookup id = some listener ↔ _
      rw [Session.route_subscriptions parser hdrawn]
      cases client.session.opens? message with
      | none => simp [hends]
      | some opened =>
          obtain ⟨subscription, opener⟩ := opened
          dsimp only
          rw [Assoc.lookup_put]
          by_cases hid : id = subscription
          · simp [hid]
          · simp [hid, Ne.symm hid, hends]

theorem step_pushes (parser : MetadataParser) (hdrawn : client.session.CallsDrawn)
    (event : Event α) :
    ∃ push?, (client.step parser event).2.filterMap Effect.pushed? = push?.toList ∧
      ∀ listener payload, push? = some (listener, payload) ↔
        ∃ message, client.routed? event = some message ∧ client.session.Unasked message ∧
          client.session.listener? message = some listener ∧ message.payload = payload := by
  cases hrouted : client.routed? event with
  | none => exact ⟨none, pushes_of_unrouted hrouted, by simp⟩
  | some message =>
      obtain ⟨push?, hpush, hiff⟩ := Session.route_pushes parser hdrawn message
      refine ⟨push?, by rw [step_of_routed hrouted]; exact hpush,
        fun listener payload => ?_⟩
      simp only [hiff, Option.some.injEq, exists_eq_left']

/-! Runs. -/

section Runs

variable {cache : Store} {past : List (Event α)} {id : String} {listener : Listener}

/-- A request for a subscription of this listener was sent under this id, and no
event since then has settled it. -/
def Subscribing (parser : MetadataParser) (cache : Store) (past : List (Event α))
    (id : String) (listener : Listener) : Prop :=
  Since (fun past event => (after parser cache past).Sends parser event id
    (.subscribe listener))
    (fun past event => (after parser cache past).Settles event id) past

/-- The event answers a request for a subscription of this
listener, and this is the id in it. -/
def Opens (parser : MetadataParser) (cache : Store) (past : List (Event α))
    (event : Event α) (id : String) (listener : Listener) : Prop :=
  ∃ call message, Subscribing parser cache past call listener ∧
    (after parser cache past).routed? event = some message ∧ message.Answers call ∧
      message.result?.bind idText? = some id

/-- The subscription of this id was opened for this listener,
and has not been ended since. -/
def Subscribed (parser : MetadataParser) (cache : Store) (past : List (Event α))
    (id : String) (listener : Listener) : Prop :=
  Since (fun past event => Opens parser cache past event id listener)
    (fun _ event => event.Ends id) past

/-- The event brings a message that answers nothing and announces no version, for a
subscription of this listener. -/
def Receives (parser : MetadataParser) (cache : Store) (past : List (Event α))
    (event : Event α) (listener : Listener) (payload : Json) : Prop :=
  ∃ message id, (after parser cache past).routed? event = some message ∧
    message.method? ≠ some Rpc.runtimeVersionPush ∧
    (∀ own, message.id? = some own →
      own ∉ Rpc.fixedIds ∧ ¬ Outstanding parser cache past own) ∧
    message.subscription? = some id ∧ Subscribed parser cache past id listener ∧
    message.payload = payload

/-- The ids of the subscriptions that are opened by events. -/
def opened (parser : MetadataParser) (client : Client α) : List (Event α) → List String
  | [] => []
  | event :: rest =>
      ((client.opens? event).map Prod.fst).toList ++
        opened parser (client.step parser event).1 rest

theorem opened_append_singleton (client : Client α) (past : List (Event α))
    (event : Event α) :
    client.opened parser (past ++ [event]) =
      client.opened parser past ++
        (((client.run parser past).1.opens? event).map Prod.fst).toList := by
  induction past generalizing client with
  | nil => simp [opened, run]
  | cons first rest ih => simp [opened, run, ih]

theorem opened_after (parser : MetadataParser) (cache : Store) (past : List (Event α))
    (event : Event α) :
    (new (.detached cache)).opened parser (past ++ [event]) =
      (new (.detached cache)).opened parser past ++
        (((after parser cache past).opens? event).map Prod.fst).toList :=
  opened_append_singleton _ past event

theorem subscribe_iff_subscribing (past : List (Event α)) (id : String)
    (listener : Listener) :
    (after parser cache past).session.pending.lookup id = some (.subscribe listener) ↔
      Subscribing parser cache past id listener := by
  refine iff_since (fun past =>
    (after parser cache past).session.pending.lookup id = some (.subscribe listener)) nofun
    (fun past event => ?_) past
  rw [after_append_singleton, step_lookup parser (after_orderly parser cache past).drawn]

theorem opens?_iff_opens (past : List (Event α)) (event : Event α) (id : String)
    (listener : Listener) :
    (after parser cache past).opens? event = some (id, listener) ↔
      Opens parser cache past event id listener := by
  rw [opens?, Option.bind_eq_some_iff]
  simp only [Session.opens?_eq_some, subscribe_iff_subscribing]
  constructor
  · rintro ⟨message, hmessage, call, hanswers, hsubscribing, hresult⟩
    exact ⟨call, message, hsubscribing, hmessage, hanswers, hresult⟩
  · rintro ⟨call, message, hsubscribing, hmessage, hanswers, hresult⟩
    exact ⟨message, hmessage, call, hanswers, hsubscribing, hresult⟩

theorem mem_opened_of_lookup
    (h : (after parser cache past).session.subscriptions.lookup id = some listener) :
    id ∈ (new (.detached cache)).opened parser past := by
  induction past using List.reverseRecOn with
  | nil => cases h
  | append_singleton past event ih =>
      rw [opened_after, List.mem_append]
      rw [after_append_singleton,
        step_subscriptions parser (after_orderly parser cache past).drawn] at h
      rcases h with hopens | ⟨hbefore, -⟩
      · rw [hopens]
        exact .inr (List.mem_singleton_self id)
      · exact .inl (ih hbefore)

/-- With distinct ids, a subscription lasts until it is ended. -/
theorem lookup_iff_subscribed (hids : ((new (.detached cache)).opened parser past).Nodup)
    (id : String) (listener : Listener) :
    (after parser cache past).session.subscriptions.lookup id = some listener ↔
      Subscribed parser cache past id listener := by
  induction past using List.reverseRecOn with
  | nil => exact iff_of_false nofun not_since_nil
  | append_singleton past event ih =>
      rw [opened_after, List.nodup_append] at hids
      obtain ⟨hpast, -, hdisjoint⟩ := hids
      -- What is listed was opened before, so its id is not given out again.
      have hfresh :
          (after parser cache past).session.subscriptions.lookup id = some listener →
            ¬ ∃ other, (after parser cache past).opens? event = some (id, other) := by
        rintro hbefore ⟨other, hopens⟩
        refine hdisjoint id (mem_opened_of_lookup hbefore) id ?_ rfl
        rw [hopens]
        exact List.mem_singleton_self id
      rw [after_append_singleton,
        step_subscriptions parser (after_orderly parser cache past).drawn, Subscribed,
        since_append_singleton, opens?_iff_opens, ← Subscribed, ← ih hpast]
      refine or_congr_right (and_congr_right fun hbefore => ?_)
      rw [or_iff_left (hfresh hbefore)]

theorem unasked_iff (message : Message) :
    (after parser cache past).session.Unasked message ↔
      message.method? ≠ some Rpc.runtimeVersionPush ∧
        ∀ own, message.id? = some own →
          own ∉ Rpc.fixedIds ∧ ¬ Outstanding parser cache past own := by
  simp only [← pending_iff_outstanding, Option.not_isSome_iff_eq_none]
  exact ⟨fun h => ⟨h.method, h.id⟩, fun h => ⟨h.1, h.2⟩⟩

theorem receives_iff (hids : ((new (.detached cache)).opened parser past).Nodup)
    (event : Event α) (listener : Listener) (payload : Json) :
    Receives parser cache past event listener payload ↔
      ∃ message, (after parser cache past).routed? event = some message ∧
        (after parser cache past).session.Unasked message ∧
        (after parser cache past).session.listener? message = some listener ∧
        message.payload = payload := by
  simp only [Receives, unasked_iff, Session.listener?, Option.bind_eq_bind,
    Option.bind_eq_some_iff, lookup_iff_subscribed hids]
  constructor
  · rintro ⟨message, id, hmessage, hmethod, hown, hid, hsubscribed, hpayload⟩
    exact ⟨message, hmessage, ⟨hmethod, hown⟩, ⟨id, hid, hsubscribed⟩, hpayload⟩
  · rintro ⟨message, hmessage, ⟨hmethod, hown⟩, ⟨id, hid, hsubscribed⟩, hpayload⟩
    exact ⟨message, id, hmessage, hmethod, hown, hid, hsubscribed, hpayload⟩

/-- The second list is what the listeners are given at the events of the
first, in their order: what an event brings for a listener is given to it, and
nothing else is given to anyone. -/
inductive Notified (parser : MetadataParser) (cache : Store) :
    List (Event α) → List (Listener × Json) → Prop
  | nil : Notified parser cache [] []
  | snoc {past : List (Event α)} {pushes : List (Listener × Json)} {event : Event α}
      {push? : Option (Listener × Json)} (hpast : Notified parser cache past pushes)
      (hpush : ∀ listener payload, push? = some (listener, payload) ↔
        Receives parser cache past event listener payload) :
      Notified parser cache (past ++ [event]) (pushes ++ push?.toList)

/-- If no two subscriptions are given one id, then each listener is given what arrives for
its subscriptions while they last, and nothing else. -/
theorem notified_of_distinct_ids (parser : MetadataParser) (cache : Store)
    (events : List (Event α))
    (hids : ((new (.detached cache)).opened parser events).Nodup) :
    Notified parser cache events
      (((new (.detached cache)).run parser events).2.filterMap Effect.pushed?) := by
  induction events using List.reverseRecOn with
  | nil => exact .nil
  | append_singleton past event ih =>
      rw [opened_after, List.nodup_append] at hids
      obtain ⟨push?, hpushes, hpush⟩ :=
        step_pushes parser (after_orderly parser cache past).drawn event
      rw [run_append_singleton, List.filterMap_append]
      change Notified parser cache (past ++ [event])
        (_ ++ ((after parser cache past).step parser event).2.filterMap Effect.pushed?)
      rw [hpushes]
      refine .snoc (ih hids.1) fun listener payload => ?_
      rw [hpush, receives_iff hids.1]

end Runs

/-! A subscription whose first message comes before its caller goes on,
and whose last comes too late. -/

def watching : Program (Except SessionError String) :=
  Program.subscription Rpc.submitAndWatch []

def pushTo (subscription carried : String) : Event α :=
  .receive 0 ("\x7b\"params\":\x7b\"subscription\":" ++ subscription ++ carried ++
    "\x7d\x7d")

def watched : List (Event (Except SessionError String)) :=
  [.attach ⟨0, true⟩, .start 0 watching, .poll 0 [1],
    .receive 0 "\x7b\"id\":\"0000000000000001\",\"result\":7\x7d",
    pushTo "7" ",\"result\":true", .poll 0 [], pushTo "\"7\"" "",
    pushTo "8" ",\"result\":true",
    .unsubscribe "7", pushTo "7" ",\"result\":false"]

theorem notified_watched :
    (new (.detached .emptyMemory)).opened parseMetadata watched = ["7"] ∧
      ∃ pushes, Notified parseMetadata .emptyMemory watched pushes ∧
        pushes.map (fun (listener, payload) => (listener, payload.render)) =
          [(0, "true"), (0, "null")] := by
  have hopened : (new (.detached .emptyMemory)).opened parseMetadata watched = ["7"] := by
    decide +kernel
  have hids : ((new (.detached .emptyMemory)).opened parseMetadata watched).Nodup := by
    rw [hopened]
    exact List.nodup_singleton "7"
  refine ⟨hopened, _, notified_of_distinct_ids parseMetadata .emptyMemory watched hids, ?_⟩
  decide +kernel

end Client

end ChainClient
