import ChainClient.Proofs.Client.Step
import ChainClient.Proofs.Session.Pending

/-! Messages that a session can make nothing of.  They change nothing, so that a run with
any number of them in it ends as it would without them. -/

namespace ChainClient

/-- What an answer about metadata holds when it is no metadata. -/
inductive UnusableMetadata (parser : MetadataParser) : Option Json → Prop
  | missing : UnusableMetadata parser none
  | noText {result : Json} (h : ∀ text, result ≠ .string text) :
      UnusableMetadata parser (some result)
  | noBytes {text : String} {error : MetadataError}
    (h : metadataBytes text = .error error) :
      UnusableMetadata parser (some (.string text))
  | rejected {text : String} {bytes : Bytes} {error : MetadataError}
      (hbytes : metadataBytes text = .ok bytes) (h : parser bytes = .error error) :
      UnusableMetadata parser (some (.string text))

theorem usableText?_of_unusable {parser : MetadataParser} {result? : Option Json}
    (h : UnusableMetadata parser result?) : usableText? parser result? = none := by
  cases h with
  | missing => rfl
  | noText h =>
      unfold usableText?
      split
      case h_1 text hresult => exact absurd (Option.some.inj hresult) (h text)
      case h_2 => rfl
  | noBytes h => simp only [usableText?, LoadedMetadata.parse, h, bind, Except.bind]
  | rejected hbytes h =>
      simp only [usableText?, LoadedMetadata.parse, hbytes, h, bind, Except.bind]

namespace Session

/-- Messages that a session can make nothing of. -/
inductive Unusable (parser : MetadataParser) (session : Session) : Message → Prop
  /-- An announcement of something that is no runtime version. -/
  | announcement {message : Message}
    (hmethod : message.method? = some Rpc.runtimeVersionPush)
      (hid : ∀ query : Rpc.SystemQuery, message.id? ≠ some query.id)
      (hversion : RuntimeVersion.ofJson? message.payload = none) :
      Unusable parser session message
  /-- An answer to a request for metadata that is no metadata. -/
  | metadata {message : Message} (hmethod : message.method? ≠ some Rpc.runtimeVersionPush)
      (hid : message.id? = some Rpc.metadataId)
      (hresult : UnusableMetadata parser message.result?) :
      Unusable parser session message
  /-- What answers no request, and is for no subscription. -/
  | stray {message : Message} (hmethod : message.method? ≠ some Rpc.runtimeVersionPush)
      (hid : ∀ id, message.id? = some id →
        id ∉ Rpc.fixedIds ∧ session.pending.lookup id = none)
      (hsubscription : ∀ id, message.subscription? = some id →
        session.subscriptions.lookup id = none) :
      Unusable parser session message

/-- Texts that are no messages, and messages that a session can make nothing of. -/
def UnusableText (parser : MetadataParser) (session : Session) (text : String) : Prop :=
  ∀ message, Message.parse? text = some message → session.Unusable parser message

variable {parser : MetadataParser} {session : Session} {message : Message}

theorem ofId?_eq_none {id? : Option String}
    (h : ∀ query : Rpc.SystemQuery, id? ≠ some query.id) :
    id?.bind Rpc.SystemQuery.ofId? = none := by
  rw [Option.bind_eq_none_iff]
  intro id hid
  rw [Rpc.SystemQuery.ofId?, List.find?_eq_none]
  intro query _ hquery
  exact h query (by rw [hid, of_decide_eq_true hquery])

theorem ne_systemQuery_of_metadata (h : message.id? = some Rpc.metadataId)
    (query : Rpc.SystemQuery) : message.id? ≠ some query.id := by
  rw [h]
  cases query <;> decide

theorem route_of_unusable (h : session.Unusable parser message) :
    session.route parser message = (session, []) := by
  cases h with
  | announcement hmethod hid hversion =>
      simp only [route, ofId?_eq_none hid, if_pos hmethod, hversion]
  | metadata hmethod hid hresult =>
      have harrival : message.arrival = .metadata message.result? := by
        rw [Message.arrival, ofId?_eq_none (ne_systemQuery_of_metadata hid),
          if_neg (by simp), if_neg hmethod, if_pos hid]
      rw [route_metadata harrival,
        takeMetadata_of_unusable (usableText?_of_unusable hresult)]
  | stray hmethod hid hsubscription =>
      have hlistener : session.listener? message = none := by
        rw [listener?, Option.bind_eq_bind, Option.bind_eq_none_iff]
        exact hsubscription
      rw [route_of_unasked ⟨hmethod, hid⟩, deliver, hlistener]
      rfl

theorem receive_of_unusable {text : String} (h : session.UnusableText parser text) :
    session.receive parser text = (session, []) := by
  unfold receive
  split
  case h_1 message hmessage => exact route_of_unusable (h message hmessage)
  case h_2 => rfl

end Session

namespace Client

variable {α : Type} {parser : MetadataParser}

/-- The second run is the first with texts in it that are unusable where they arrive. -/
inductive Littered (parser : MetadataParser) :
    Client α → List (Event α) → List (Event α) → Prop
  | done {client : Client α} : Littered parser client [] []
  | event {client : Client α} {event : Event α} {events littered : List (Event α)}
      (hrest : Littered parser (client.step parser event).1 events littered) :
      Littered parser client (event :: events) (event :: littered)
  | text {client : Client α} {link : Nat} {text : String} {events littered : List (Event α)}
      (htext : client.session.UnusableText parser text)
      (hrest : Littered parser
        (client.step parser (.receive link text)).1 events littered) :
      Littered parser client events (.receive link text :: littered)

theorem step_of_unusable {client : Client α} (link : Nat) {text : String}
    (h : client.session.UnusableText parser text) :
    client.step parser (.receive link text) = (client, []) := by
  rw [step, Session.receive_of_unusable h]
  exact ite_self _

theorem run_of_littered {client : Client α} {events littered : List (Event α)}
    (h : Littered parser client events littered) :
    client.run parser littered = client.run parser events := by
  induction h with
  | done => rfl
  | event hrest ih => simp only [run, ih]
  | text htext hrest ih =>
      rw [step_of_unusable _ htext] at ih
      simp only [run, step_of_unusable _ htext, List.nil_append]
      exact ih

/-- Text that cannot be used leaves the session and all jobs as they are, and no run
tells whether there was any. -/
theorem unusable_leaves_no_trace (parser : MetadataParser) (client : Client α) :
    (∀ text, client.session.UnusableText parser text →
      client.session.receive parser text = (client.session, []) ∧
        ∀ link, client.step parser (.receive link text) = (client, [])) ∧
    ∀ events littered, Littered parser client events littered →
      client.run parser littered = client.run parser events := by
  constructor
  · intro text h
    exact ⟨Session.receive_of_unusable h, fun link => step_of_unusable link h⟩
  · intro events littered h
    exact run_of_littered h

/-! A run with one text of each kind in it. -/

def tornText : String := "\x7b\"id\":"

def versionlessText : String := "\x7b\"method\":\"state_runtimeVersion\",\"id\":1\x7d"

def refusedMetadataText : String := "\x7b\"id\":\"metadata\"\x7d"

def strayText : String := "\x7b\"id\":7,\"params\":\x7b\"subscription\":8\x7d\x7d"

theorem tornText_unusable (session : Session) : session.UnusableText parser tornText := by
  intro message hmessage
  have hnone : (Message.parse? tornText).isNone = true := by decide +kernel
  rw [hmessage] at hnone
  cases hnone

theorem versionlessText_unusable (session : Session) :
    session.UnusableText parser versionlessText := by
  intro message hmessage
  have hread : ((Message.parse? versionlessText).all fun message =>
      message.method? = some Rpc.runtimeVersionPush ∧ message.id? = some "1" ∧
        RuntimeVersion.ofJson? message.payload = none) = true := by decide +kernel
  rw [hmessage, Option.all_some, decide_eq_true_eq] at hread
  obtain ⟨hmethod, hid, hversion⟩ := hread
  refine .announcement hmethod (fun query => ?_) hversion
  rw [hid]
  cases query <;> decide

theorem refusedMetadataText_unusable (session : Session) :
    session.UnusableText parser refusedMetadataText := by
  intro message hmessage
  have hread : ((Message.parse? refusedMetadataText).all fun message =>
      message.method? = none ∧ message.id? = some Rpc.metadataId ∧
        message.result?.isNone) = true := by decide +kernel
  rw [hmessage, Option.all_some, decide_eq_true_eq] at hread
  obtain ⟨hmethod, hid, hresult⟩ := hread
  refine .metadata (by rw [hmethod]; nofun) hid ?_
  rw [Option.isNone_iff_eq_none.mp hresult]
  exact .missing

theorem strayText_unusable {session : Session}
    (hpending : session.pending.lookup "7" = none)
    (hsubscription : session.subscriptions.lookup "8" = none) :
    session.UnusableText parser strayText := by
  intro message hmessage
  have hread : ((Message.parse? strayText).all fun message =>
      message.method? = none ∧ message.id? = some "7" ∧
        message.subscription? = some "8") = true := by decide +kernel
  rw [hmessage, Option.all_some, decide_eq_true_eq] at hread
  obtain ⟨hmethod, hid, hsubscribed⟩ := hread
  refine .stray (by rw [hmethod]; nofun) (fun id h => ?_) fun id h => ?_
  · obtain rfl := Option.some.inj (hid.symm.trans h)
    exact ⟨by decide, hpending⟩
  · obtain rfl := Option.some.inj (hsubscribed.symm.trans h)
    exact hsubscription

theorem unusable_leaves_no_trace_attached (parser : MetadataParser) :
    (new (.detached .emptyMemory) : Client Unit).run parser
        [.attach ⟨0, true⟩, .receive 0 strayText, .receive 0 tornText,
          .receive 0 versionlessText, .receive 0 refusedMetadataText] =
      (new (.detached .emptyMemory)).run parser [.attach ⟨0, true⟩] := by
  refine (unusable_leaves_no_trace parser _).2 _ _ (.event ?_)
  exact .text (strayText_unusable rfl rfl) (.text (tornText_unusable _)
    (.text (versionlessText_unusable _) (.text (refusedMetadataText_unusable _) .done)))

end Client

end ChainClient
