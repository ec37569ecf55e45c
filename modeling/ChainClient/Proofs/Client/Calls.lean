import ChainClient.Proofs.Client.Step
import ChainClient.Proofs.Session.Pending

/-! What one event does to the calls of a client: it makes one, settles one, drops
them all, or leaves them alone. -/

namespace ChainClient

/-! A turn of a job. -/

/-- The kind of the request that a program has next to send.  It has none if it
first waits for something else. -/
def Program.requests? {α : Type} (listener : Listener) (session : Session) :
    Program α → Option Pending
  | .call .. => some .call
  | .subscribe .. => some (.subscribe listener)
  | .runtimeVersion next =>
      match session.runtimeVersion? with
      | some version => (next version).requests? listener session
      | none => none
  | .metadata next =>
      match session.metadata? with
      | some loaded => (next loaded).requests? listener session
      | none => none
  | .done _ | .dial .. | .refresh _ => none

section

variable {α : Type} {calls : List (String × Pending)} {draws : List UInt64}
  {turn : Turn α} {id : String} {kind : Pending}

/-- One call is sent, under an id that was drawn for it, and
the job waits for its answer. -/
structure Turn.Calls (calls : List (String × Pending)) (draws : List UInt64) (turn : Turn α)
    (id : String) (kind : Pending) : Prop where
  fresh : calls.lookup id = none
  drawn : id ∈ draws.map Session.idOfDraw
  pending : turn.session.pending = Assoc.put id kind calls
  effects : ∃ link request, turn.effects = [.send link request] ∧ request.id = id
  job : ∃ next, turn.job = .awaiting id next

/-- No call is sent, and the job does not wait for an answer. -/
structure Turn.Spares (calls : List (String × Pending)) (turn : Turn α) : Prop where
  pending : turn.session.pending = calls
  effects : ∀ effect ∈ turn.effects, effect.Aside
  job : ∀ id next, turn.job ≠ .awaiting id next

theorem Turn.spares_silent {session : Session} {job : Job α}
    (hpending : session.pending = calls) (hjob : ∀ id next, job ≠ .awaiting id next) :
    Turn.Spares calls ⟨session, job, []⟩ :=
  ⟨hpending, List.forall_mem_nil _, hjob⟩

theorem Turn.spares_of_refresh {session session' : Session} {sent : List Effect}
    (hrefresh : session.refresh = (session', .ok sent))
    (next : Except SessionError SystemInfo → Program α) :
    Turn.Spares session.pending ⟨session', .refreshing next, sent⟩ := by
  obtain rfl := Session.refresh_session hrefresh
  refine ⟨rfl, fun effect heffect => ?_, by simp⟩
  obtain ⟨link, query, rfl⟩ := Session.refresh_eq_ok hrefresh effect heffect
  exact .send (Session.systemRequest_fixed query)

theorem Turn.calls_of_request {session session' : Session} {method : String}
    {params : List Json} {sent : Effect} {rest : List UInt64}
    (hfresh : session.freshId? draws = some (id, rest))
    (hsent : session.request id method params kind = .ok (session', sent))
    (next : Except SessionError Response → Program α) :
    Turn.Calls session.pending draws ⟨session', .awaiting id next, [sent]⟩ id kind := by
  obtain ⟨hfree, hdrawn⟩ := Session.freshId?_eq_some hfresh
  obtain ⟨rfl, link, rfl⟩ := Session.request_eq_ok hsent
  exact ⟨hfree, hdrawn, rfl, ⟨link, _, rfl, rfl⟩, ⟨next, rfl⟩⟩

end

namespace Job

variable {α : Type} {listener : Listener} {session : Session}

theorem run_spares_of_mute (listener : Listener) (draws : List UInt64) (program : Program α)
    (hmute : session.Mute) :
    (run listener draws session program).Spares session.pending := by
  induction program generalizing draws session with
  | done outcome => exact Turn.spares_silent rfl (by simp)
  | dial url next ih => exact Turn.spares_silent rfl (by simp)
  | call method params next ih =>
      unfold run
      split
      case h_1 => exact Turn.spares_silent rfl (by simp)
      case h_2 id rest _ =>
        rw [Session.request_of_mute hmute]
        exact ih _ rest hmute
  | subscribe method params next ih =>
      unfold run
      split
      case h_1 => exact Turn.spares_silent rfl (by simp)
      case h_2 id rest _ =>
        rw [Session.request_of_mute hmute]
        exact ih _ rest hmute
  | refresh next ih =>
      unfold run
      split
      case h_1 hrefresh => exact Turn.spares_of_refresh hrefresh next
      case h_2 error hrefresh =>
        obtain rfl := Session.refresh_session hrefresh
        exact ih _ draws (Session.mute_of_refresh_error hrefresh)
  | runtimeVersion next ih =>
      unfold run
      split
      case h_1 => exact ih _ draws hmute
      case h_2 => exact Turn.spares_silent rfl (by simp)
  | metadata next ih =>
      unfold run
      split
      case h_1 => exact ih _ draws hmute
      case h_2 => exact Turn.spares_silent rfl (by simp)

/-- The first request of a turn is its last: either its answer is waited
for, or nothing can be sent. -/
theorem run_calls_or_spares (listener : Listener) (draws : List UInt64) (session : Session)
    (program : Program α) :
    (∃ id kind, program.requests? listener session = some kind ∧
      (run listener draws session program).Calls session.pending draws id kind) ∨
    (run listener draws session program).Spares session.pending := by
  induction program with
  | done outcome => exact .inr (Turn.spares_silent rfl (by simp))
  | dial url next ih => exact .inr (Turn.spares_silent rfl (by simp))
  | call method params next ih =>
      unfold run
      split
      case h_1 => exact .inr (Turn.spares_silent rfl (by simp))
      case h_2 id rest hfresh =>
        split
        case h_1 hsent =>
          exact .inl ⟨id, .call, rfl, Turn.calls_of_request hfresh hsent next⟩
        case h_2 hmute =>
          exact .inr (run_spares_of_mute _ _ _ (Session.mute_of_request_error hmute))
  | subscribe method params next ih =>
      unfold run
      split
      case h_1 => exact .inr (Turn.spares_silent rfl (by simp))
      case h_2 id rest hfresh =>
        split
        case h_1 hsent =>
          exact .inl ⟨id, .subscribe listener, rfl, Turn.calls_of_request hfresh hsent next⟩
        case h_2 hmute =>
          exact .inr (run_spares_of_mute _ _ _ (Session.mute_of_request_error hmute))
  | refresh next ih =>
      unfold run
      split
      case h_1 hrefresh => exact .inr (Turn.spares_of_refresh hrefresh next)
      case h_2 hrefresh =>
        obtain rfl := Session.refresh_session hrefresh
        exact .inr (run_spares_of_mute _ _ _ (Session.mute_of_refresh_error hrefresh))
  | runtimeVersion next ih =>
      unfold run
      cases hversion : session.runtimeVersion? with
      | some version => simpa only [Program.requests?, hversion] using ih version
      | none => exact .inr (Turn.spares_silent rfl (by simp))
  | metadata next ih =>
      unfold run
      cases hloaded : session.metadata? with
      | some loaded => simpa only [Program.requests?, hloaded] using ih loaded
      | none => exact .inr (Turn.spares_silent rfl (by simp))

/-- The kind of the request that a job has next to send. -/
def requests? (listener : Listener) (session : Session) (job : Job α) : Option Pending :=
  (job.current? session).bind (·.requests? listener session)

theorem poll_cases (listener : Listener) (draws : List UInt64) (session : Session)
    (job : Job α) :
    (∃ id kind, job.requests? listener session = some kind ∧
      (job.poll listener draws session).Calls session.pending draws id kind) ∨
    (job.poll listener draws session).Spares session.pending ∨
    job.poll listener draws session = ⟨session, job, []⟩ := by
  rw [poll_eq, requests?]
  cases job.current? session with
  | some program =>
      rcases run_calls_or_spares listener draws session program with hcalls | hspares
      · exact .inl hcalls
      · exact .inr (.inl hspares)
  | none => exact .inr (.inr rfl)

end Job

/-! A step of a client. -/

namespace Client

variable {α : Type} {parser : MetadataParser} {client : Client α} {event : Event α}
  {jobs : List (Nat × Job α)}

/-- The message that an event brings over the attached link. -/
def routed? (client : Client α) : Event α → Option Message
  | .receive link text =>
      if client.session.hasLink link then Message.parse? text else none
  | _ => none

/-- The kind of the request that is sent at an event, if one is sent. -/
def requests? (client : Client α) : Event α → Option Pending
  | .poll number _ => (client.jobs.lookup number).bind (·.requests? number client.session)
  | _ => none

def Awaits (client : Client α) (number : Nat) (id : String) : Prop :=
  ∃ next, client.jobs.lookup number = some (.awaiting id next)

/-- What an event does to the calls, of which at most one is
concerned unless all are dropped. -/
inductive Moves (parser : MetadataParser) (client : Client α) (event : Event α) : Prop
  | call {number : Nat} {draws : List UInt64} {id : String} {kind : Pending}
      {next : Except SessionError Response → Program α}
      (hevent : event = .poll number draws) (hkind : client.requests? event = some kind)
      (hfresh : client.session.pending.lookup id = none)
      (hdrawn : id ∈ draws.map Session.idOfDraw)
      (hpending : (client.step parser event).1.session.pending =
        Assoc.put id kind client.session.pending)
      (heffects : ∃ link request, (client.step parser event).2 = [.send link request] ∧
        request.id = id)
      (hjobs : (client.step parser event).1.jobs =
        Assoc.put number (.awaiting id next) client.jobs)
  | resolve {message : Message} {id : String} {kind : Pending}
      (hmessage : client.routed? event = some message) (hanswers : message.Answers id)
      (hcalled : client.session.pending.lookup id = some kind)
      (hpending : (client.step parser event).1.session.pending =
        Assoc.erase id client.session.pending)
      (heffects : (client.step parser event).2 = [.resolve id message.response])
      (hjobs : (client.step parser event).1.jobs =
        notify client.jobs (.resolve id message.response))
  | close (hevent : event = .close)
  | spare (hevent : event ≠ .close)
      (hanswers : ∀ message id, client.routed? event = some message → message.Answers id →
        client.session.pending.lookup id = none)
      (hspares : Session.Spares client.session (client.step parser event).1.session
        (client.step parser event).2)
      (hjobs : ∀ number id, (client.step parser event).1.Awaits number id →
        client.Awaits number id)

theorem unanswered_of_unrouted (h : client.routed? event = none) (message : Message)
    (id : String) (hmessage : client.routed? event = some message) :
    message.Answers id → client.session.pending.lookup id = none := by
  rw [h] at hmessage
  cases hmessage

theorem foldl_notify_aside {effects : List Effect} (h : ∀ effect ∈ effects, effect.Aside)
    (jobs : List (Nat × Job α)) : effects.foldl notify jobs = jobs := by
  induction effects with
  | nil => rfl
  | cons effect rest ih =>
      rw [List.forall_mem_cons] at h
      rw [List.foldl_cons]
      cases h.1 with
      | send => exact ih h.2
      | push => exact ih h.2

/-- A session that spares the calls wakes no job. -/
theorem moves_of_follow {session : Session} {effects : List Effect}
    (hevent : event ≠ .close)
    (hrouted : ∀ message id, client.routed? event = some message → message.Answers id →
      client.session.pending.lookup id = none)
    (hspares : Session.Spares client.session session effects)
    (hstep : client.step parser event = client.follow session effects) :
    Moves parser client event := by
  refine .spare hevent hrouted (by rw [hstep]; exact hspares) fun number id hjob => ?_
  rw [hstep, Awaits] at hjob
  change ∃ next, (effects.foldl notify client.jobs).lookup number = _ at hjob
  rwa [foldl_notify_aside hspares.effects] at hjob

theorem moves_of_silent {session : Session} (hevent : event ≠ .close)
    (hrouted : client.routed? event = none)
    (hstep : client.step parser event = (⟨session, client.jobs⟩, []))
    (hpending : session.pending = client.session.pending) :
    Moves parser client event := by
  refine .spare hevent (unanswered_of_unrouted hrouted) ?_ ?_
  · rw [hstep]
    exact Session.spares_silent hpending
  · rw [hstep]
    exact fun _ _ h => h

theorem lookup_put_of_ne {number other : Nat} {job job' : Job α}
    (h : (Assoc.put number job jobs).lookup other = some job') (hne : job' ≠ job) :
    jobs.lookup other = some job' := by
  rw [Assoc.lookup_put] at h
  split at h
  case isTrue => exact absurd (Option.some.inj h).symm hne
  case isFalse => exact h

theorem poll_moves (number : Nat) (draws : List UInt64) :
    Moves parser client (.poll number draws) := by
  cases hlookup : client.jobs.lookup number with
  | none => exact moves_of_silent (by simp) rfl (by simp only [step, poll, hlookup]) rfl
  | some job =>
      have hstep : client.step parser (.poll number draws) =
          (⟨(job.poll number draws client.session).session,
            Assoc.put number (job.poll number draws client.session).job client.jobs⟩,
            (job.poll number draws client.session).effects) := by
        simp only [step, poll, hlookup]
      rcases Job.poll_cases number draws client.session job with
        ⟨id, kind, hkind, hcalls⟩ | hspares | hidle
      · obtain ⟨next, hjob⟩ := hcalls.job
        have hjobs : (client.step parser (.poll number draws)).1.jobs =
            Assoc.put number (.awaiting id next) client.jobs := by rw [hstep, hjob]
        have hkind : client.requests? (.poll number draws) = some kind := by
          rw [requests?, hlookup, Option.bind_some, hkind]
        refine .call rfl hkind hcalls.fresh hcalls.drawn ?_ ?_ hjobs
        · rw [hstep]
          exact hcalls.pending
        · rw [hstep]
          exact hcalls.effects
      · refine .spare (by simp) (unanswered_of_unrouted rfl) ?_ ?_
        · rw [hstep]
          exact ⟨hspares.pending, hspares.effects⟩
        · rintro other id ⟨next, hother⟩
          rw [hstep] at hother
          exact ⟨next, lookup_put_of_ne hother (hspares.job id next).symm⟩
      · rw [hidle] at hstep
        refine .spare (by simp) (unanswered_of_unrouted rfl) ?_ ?_
        · rw [hstep]
          exact Session.spares_silent rfl
        · rintro other id ⟨next, hother⟩
          rw [hstep] at hother
          change (Assoc.put number job client.jobs).lookup other = _ at hother
          rw [Assoc.lookup_put] at hother
          split at hother
          case isTrue hsame => exact ⟨next, by rw [hsame, hlookup, hother]⟩
          case isFalse => exact ⟨next, hother⟩

theorem dialled_moves (number : Nat) (link? : Option Link) :
    Moves parser client (.dialled number link?) := by
  cases hlookup : client.jobs.lookup number with
  | none => exact moves_of_silent (by simp) rfl (by simp only [step, dialled, hlookup]) rfl
  | some job =>
      refine .spare (by simp) (unanswered_of_unrouted rfl) ?_ ?_
      · simp only [step, dialled, hlookup]
        exact (Session.finishOpen_quiet client.session link?).spares
      · rintro other id ⟨next, hother⟩
        simp only [step, dialled, hlookup] at hother
        rw [Assoc.lookup_put] at hother
        split at hother
        case isTrue hsame =>
          unfold Job.dialled at hother
          split at hother
          case h_1 => cases hother
          case h_2 => exact ⟨next, by rw [hsame, hlookup, hother]⟩
        case isFalse => exact ⟨next, hother⟩

theorem step_of_routed {message : Message} (h : client.routed? event = some message) :
    client.step parser event =
      client.follow (client.session.route parser message).1
        (client.session.route parser message).2 := by
  cases event with
  | receive link text =>
      simp only [routed?] at h
      split at h
      case isTrue hlink => rw [step, if_pos hlink, Session.receive, h]
      case isFalse => cases h
  | _ => cases h

theorem step_of_unheard {link : Nat} {text : String}
    (h : client.routed? (.receive link text) = none) :
    client.step parser (.receive link text) = (client, []) := by
  simp only [routed?] at h
  split at h
  case isTrue hlink =>
    rw [step, if_pos hlink, Session.receive, h]
    rfl
  case isFalse hlink => rw [step, if_neg hlink]

theorem receive_moves (hdrawn : client.session.CallsDrawn) (link : Nat) (text : String) :
    Moves parser client (.receive link text) := by
  cases hrouted : client.routed? (.receive link text) with
  | none => exact moves_of_silent (by simp) hrouted (step_of_unheard hrouted) rfl
  | some message =>
      have hstep : client.step parser _ = _ := step_of_routed hrouted
      have hunanswered : ∀ h : ∀ id, message.Answers id →
          client.session.pending.lookup id = none,
          ∀ other id, client.routed? (.receive link text) = some other → other.Answers id →
            client.session.pending.lookup id = none := by
        intro h other id hother hanswers
        obtain rfl := Option.some.inj (hrouted.symm.trans hother)
        exact h id hanswers
      cases Session.route_routes parser hdrawn message with
      | @answer id kind hanswers hcalled hroute =>
          rw [hroute] at hstep
          refine .resolve hrouted hanswers hcalled ?_ ?_ ?_
          · rw [hstep]
            exact Session.resolve_pending id kind message.response
          · rw [hstep]
            rfl
          · rw [hstep]
            rfl
      | unasked hunasked hroute =>
          rw [hroute] at hstep
          refine moves_of_follow (by simp) (hunanswered fun id h => ?_) ?_ hstep
          · exact (hunasked.id id h.1).2
          · exact Session.deliver_spares client.session message
      | quiet _ hanswers hroute =>
          exact moves_of_follow (by simp) (hunanswered hanswers) hroute.spares hstep

theorem step_moves (parser : MetadataParser) (hdrawn : client.session.CallsDrawn)
    (event : Event α) : Moves parser client event := by
  cases event with
  | start number program =>
      refine .spare (by simp) (unanswered_of_unrouted rfl) (Session.spares_silent rfl) ?_
      rintro other id ⟨next, hother⟩
      exact ⟨next, lookup_put_of_ne hother (by simp)⟩
  | poll number draws => exact poll_moves number draws
  | dialled number link? => exact dialled_moves number link?
  | cancel number =>
      refine .spare (by simp) (unanswered_of_unrouted rfl) (Session.spares_silent rfl) ?_
      rintro other id ⟨next, hother⟩
      change (Assoc.erase number client.jobs).lookup other = _ at hother
      rw [Assoc.lookup_erase] at hother
      split at hother
      case isTrue => cases hother
      case isFalse => exact ⟨next, hother⟩
  | unsubscribe id => exact moves_of_silent (by simp) rfl rfl rfl
  | attach link =>
      exact moves_of_follow (by simp) (unanswered_of_unrouted rfl)
        (Session.attach_quiet client.session link).spares rfl
  | close => exact .close rfl
  | receive link text => exact receive_moves hdrawn link text
  | nodeGone link =>
      exact moves_of_silent (by simp) rfl rfl (Session.nodeGone_quiet _ link).pending
  | linkEnd link =>
      exact moves_of_silent (by simp) rfl rfl (Session.linkEnd_quiet _ link).pending

end Client

end ChainClient
