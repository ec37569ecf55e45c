import ChainClient.Proofs.Client.Answers
import ChainClient.Proofs.Client.Notifications

/-! What passes between a job and the node in the course of a run.  A job that does
nothing but ask sends what its program makes of the answers, in this order, whatever
else goes on in its session. -/

namespace ChainClient

/-- Something is or will be handed to the listener. -/
def Session.Heard (session : Session) (listener : Listener) : Prop :=
  (∃ id, session.pending.lookup id = some (.subscribe listener)) ∨
    ∃ id, session.subscriptions.lookup id = some listener

namespace Client

variable {α : Type} {parser : MetadataParser} {client : Client α} {number : Nat}
  {allowed : String → Prop} {job : Job α} {events : List (Event α)} {draws : List UInt64}

/-- What the job of a number asks and is answered in the course of a run. -/
def conversation (parser : MetadataParser) (number : Nat) :
    Client α → List (Event α) → Conversation
  | _, [] => ⟨[], []⟩
  | client, event :: rest =>
      let later := conversation parser number (client.step parser event).1 rest
      ⟨client.asked parser number event ++ later.questions,
        (client.answer? number event).toList ++ later.answers⟩

/-- Whenever the job of a number has a turn, its session is live, and
no other job takes its place. -/
def Served (parser : MetadataParser) (number : Nat) : Client α → List (Event α) → Prop
  | _, [] => True
  | client, event :: rest =>
      (∀ program, event ≠ .start number program) ∧
        (∀ draws, event = .poll number draws → client.session.Live) ∧
          Served parser number (client.step parser event).1 rest

theorem served_append {others : List (Event α)} :
    Served parser number client (events ++ others) ↔
      Served parser number client events ∧
        Served parser number (client.run parser events).1 others := by
  induction events generalizing client with
  | nil => simp [Served, run]
  | cons event rest ih => simp only [List.cons_append, Served, run, ih, and_assoc]

theorem run_leads (horderly : client.Orderly) (hjob : Holds (· = job) client.jobs number)
    (honly : job.OnlyAsks allowed) (hserved : Served parser number client events) :
    ∃ job', job.Leads allowed (conversation parser number client events) job' ∧
      Holds (· = job') (client.run parser events).1.jobs number := by
  induction events generalizing client job with
  | nil => exact ⟨job, .refl honly, hjob⟩
  | cons event rest ih =>
      obtain ⟨hstart, hlive, hrest⟩ := hserved
      obtain ⟨middle, hfirst, hmiddle⟩ := step_leads parser horderly hjob honly hstart hlive
      obtain ⟨job', hsecond, hjob'⟩ :=
        ih (horderly.step parser event) hmiddle hfirst.only hrest
      exact ⟨job', hfirst.trans hsecond, hjob'⟩

/-- The job of a number is held up by nothing but the node. -/
def Rests (client : Client α) (number : Nat) : Prop :=
  ∃ job, client.jobs.lookup number = some job ∧ job.Rests

theorem step_of_turn {program : Program α}
    (hjob : client.jobs.lookup number = some (.running program)) :
    client.step parser (.poll number draws) =
      (⟨(Job.run number draws client.session program).session,
        Assoc.put number (Job.run number draws client.session program).job client.jobs⟩,
        (Job.run number draws client.session program).effects) := by
  simp only [step, poll, hjob, Job.poll]

theorem asked_of_turn {program : Program α}
    (hjob : client.jobs.lookup number = some (.running program)) :
    client.asked parser number (.poll number draws) =
      (Job.run number draws client.session program).effects.filterMap Effect.question? := by
  simp only [asked, if_true, step_of_turn hjob]

theorem holds_of_turn {program : Program α}
    (hjob : client.jobs.lookup number = some (.running program)) :
    Holds (· = (Job.run number draws client.session program).job)
      (client.step parser (.poll number draws)).1.jobs number := by
  rw [step_of_turn hjob]
  intro found hfound
  rw [Assoc.lookup_put, if_pos rfl] at hfound
  exact (Option.some.inj hfound).symm

theorem poll_rests (hjob : client.jobs.lookup number = some job)
    (honly : job.OnlyAsks allowed) (hlive : client.session.Live)
    (hdraws : (client.session.freshId? draws).isSome) :
    (client.step parser (.poll number draws)).1.Rests number := by
  have hturn := Job.poll_takes number draws hlive honly
  refine ⟨(job.poll number draws client.session).job, ?_, hturn.rests hdraws⟩
  simp only [step, poll, hjob, Assoc.lookup_put, if_true]

theorem run_finished {outcome : α} (hjob : Holds (· = .finished outcome) client.jobs number)
    (hserved : Served parser number client events) :
    Holds (· = .finished outcome) (client.run parser events).1.jobs number := by
  induction events generalizing client with
  | nil => exact hjob
  | cons event rest ih =>
      obtain ⟨hstart, -, hrest⟩ := hserved
      refine ih ?_ hrest
      by_cases hpoll : ∃ draws, event = .poll number draws
      · obtain ⟨draws, rfl⟩ := hpoll
        change Holds _ (client.poll number draws).1.jobs number
        unfold poll
        split
        case h_1 job hlookup =>
          obtain rfl := hjob job hlookup
          exact holds_put hjob fun _ => rfl
        case h_2 => exact hjob
      · exact step_holds (stable_finished outcome) hstart
          (fun draws hevent => hpoll ⟨draws, hevent⟩) hjob

/-! From the turn in which a program has read what it needs to know of its
session.  The rest of it only asks. -/

section Turn

variable {program rest : Program α} {later : List (Event α)}

/-- In its session a program goes on as the rest of it does, and that only asks. -/
structure Reads (allowed : String → Prop) (number : Nat) (draws : List UInt64)
    (session : Session) (program rest : Program α) : Prop where
  run : Job.run number draws session program = Job.run number draws session rest
  only : rest.OnlyAsks allowed

theorem Reads.takes (h : Reads allowed number draws client.session program rest)
    (hlive : client.session.Live) :
    Job.Takes number draws client.session (.running rest)
      (Job.run number draws client.session program) := by
  rw [h.run]
  exact Job.poll_takes number draws hlive h.only

theorem turn_leads (horderly : client.Orderly)
    (hjob : client.jobs.lookup number = some (.running program))
    (hreads : Reads allowed number draws client.session program rest)
    (hserved : Served parser number client (.poll number draws :: later)) :
    ∃ job', (Job.running rest).Leads allowed
        (conversation parser number client (.poll number draws :: later)) job' ∧
      Holds (· = job') (client.run parser (.poll number draws :: later)).1.jobs number := by
  obtain ⟨-, hlive, hlater⟩ := hserved
  have hturn := hreads.takes (hlive draws rfl)
  have hfirst := hturn.leads hreads.only
  obtain ⟨job', hsecond, hjob'⟩ :=
    run_leads (horderly.step parser _) (holds_of_turn hjob) hfirst.only hlater
  refine ⟨job', ?_, hjob'⟩
  have hanswer : client.answer? number (.poll number draws) = none :=
    answer?_eq_none fun _ => rfl
  rw [conversation, asked_of_turn hjob, hanswer]
  exact hfirst.trans hsecond

/-- The job of a number asks what `questions` makes of the answers, and comes to
what `outcome?` makes of them. -/
structure Converses (parser : MetadataParser) (number : Nat) (client : Client α)
    (events : List (Event α)) (questions : List Answer → List Question)
    (outcome? : List Answer → Option α) : Prop where
  asks : (conversation parser number client events).questions <+:
    questions (conversation parser number client events).answers
  asked : (client.run parser events).1.Rests number →
    (conversation parser number client events).questions =
      questions (conversation parser number client events).answers
  outcome : (client.run parser events).1.Rests number →
    ((client.run parser events).1.jobs.lookup number).bind Job.outcome? =
      outcome? (conversation parser number client events).answers
  /-- A job that has not been cancelled rests after a turn
  for which an id could be drawn. -/
  rests : ∀ earlier draws, events = earlier ++ [.poll number draws] →
    ((client.run parser earlier).1.session.freshId? draws).isSome →
    ((client.run parser earlier).1.jobs.lookup number).isSome →
      (client.run parser events).1.Rests number

theorem turn_rests (horderly : client.Orderly)
    (hjob : client.jobs.lookup number = some (.running program))
    (hreads : Reads allowed number draws client.session program rest)
    (hserved : Served parser number client (.poll number draws :: later))
    {earlier : List (Event α)} {last : List UInt64}
    (hsplit : .poll number draws :: later = earlier ++ [.poll number last])
    (hdraws : ((client.run parser earlier).1.session.freshId? last).isSome)
    (hpresent : ((client.run parser earlier).1.jobs.lookup number).isSome) :
    (client.run parser (.poll number draws :: later)).1.Rests number := by
  cases earlier with
  | nil =>
      cases hsplit
      obtain ⟨-, hlive, -⟩ := hserved
      refine ⟨(Job.run number draws client.session program).job, ?_,
        (hreads.takes (hlive draws rfl)).rests hdraws⟩
      change (client.step parser (.poll number draws)).1.jobs.lookup number = _
      rw [step_of_turn hjob, Assoc.lookup_put, if_pos rfl]
  | cons first others =>
      obtain ⟨rfl, hlater⟩ := List.cons.inj hsplit
      have hlater : later = others ++ [.poll number last] := hlater
      subst hlater
      rw [← List.cons_append, served_append] at hserved
      obtain ⟨job', hleads, hjob'⟩ := turn_leads horderly hjob hreads hserved.1
      obtain ⟨found, hfound⟩ := Option.isSome_iff_exists.mp hpresent
      obtain rfl := hjob' found hfound
      rw [← List.cons_append, run_append_singleton]
      exact poll_rests hfound hleads.only (hserved.2.2.1 last rfl) hdraws

theorem turn_converses (horderly : client.Orderly)
    (hjob : client.jobs.lookup number = some (.running program))
    (hreads : Reads allowed number draws client.session program rest)
    (hserved : Served parser number client (.poll number draws :: later)) :
    Converses parser number client (.poll number draws :: later)
      rest.questions rest.outcome? := by
  obtain ⟨job', hleads, hjob'⟩ := turn_leads horderly hjob hreads hserved
  have hquestions := hleads.questions []
  have houtcome := hleads.outcome []
  rw [List.append_nil] at hquestions houtcome
  constructor
  case asks => exact ⟨_, hquestions.symm⟩
  case asked =>
    rintro ⟨found, hfound, hrests⟩
    obtain rfl := hjob' found hfound
    rw [Job.questions_of_rests hrests, List.append_nil] at hquestions
    exact hquestions.symm
  case outcome =>
    rintro ⟨found, hfound, hrests⟩
    obtain rfl := hjob' found hfound
    rw [Job.outcomeAfter?_of_rests hrests] at houtcome
    rw [hfound]
    exact houtcome.symm
  case rests =>
    intro earlier last hsplit hdraws hpresent
    exact turn_rests horderly hjob hreads hserved hsplit hdraws hpresent

end Turn

/-! Listeners. -/

theorem listener_of_requests? {listener other : Listener} {session : Session}
    {program : Program α}
    (h : program.requests? listener session = some (.subscribe other)) :
    other = listener := by
  induction program with
  | call method params next ih => cases h
  | subscribe method params next ih =>
      cases h
      rfl
  | runtimeVersion next ih =>
      unfold Program.requests? at h
      split at h
      case h_1 version _ => exact ih version h
      case h_2 => cases h
  | metadata next ih =>
      unfold Program.requests? at h
      split at h
      case h_1 loaded _ => exact ih loaded h
      case h_2 => cases h
  | _ => cases h

/-- Only the turns of a job make requests for its own listener. -/
theorem step_heard_of_unpolled (horderly : client.Orderly) {event : Event α}
    (hpoll : ∀ draws, event ≠ .poll number draws)
    (h : (client.step parser event).1.session.Heard number) :
    client.session.Heard number := by
  rcases h with ⟨id, hcalled⟩ | ⟨id, hsubscribed⟩
  · rw [step_lookup parser horderly.drawn] at hcalled
    rcases hcalled with ⟨-, hkind⟩ | ⟨hbefore, -⟩
    · unfold requests? at hkind
      split at hkind
      case h_1 other draws =>
        obtain ⟨job, -, hjob⟩ := Option.bind_eq_some_iff.mp hkind
        obtain ⟨program, -, hprogram⟩ := Option.bind_eq_some_iff.mp hjob
        obtain rfl := listener_of_requests? hprogram
        exact absurd rfl (hpoll draws)
      case h_2 => cases hkind
    · exact .inl ⟨id, hbefore⟩
  · rw [step_subscriptions parser horderly.drawn] at hsubscribed
    rcases hsubscribed with hopens | ⟨hbefore, -⟩
    · obtain ⟨message, -, hopens⟩ := Option.bind_eq_some_iff.mp hopens
      obtain ⟨call, -, hcalled, -⟩ := Session.opens?_eq_some.mp hopens
      exact .inl ⟨call, hcalled⟩
    · exact .inr ⟨id, hbefore⟩

theorem takes_heard {turn : Turn α}
    (hturn : Job.Takes number draws client.session job turn) (honly : job.OnlyAsks allowed)
    (h : turn.session.Heard number) :
    client.session.Heard number ∨
      ∃ question ∈ turn.effects.filterMap Effect.question?, allowed question.1 := by
  cases hturn with
  | stay => exact .inl h
  | finish outcome => exact .inl h
  | @call method params next id link =>
      refine .inl (h.imp_left fun ⟨other, hcalled⟩ => ?_)
      change (Assoc.put id .call client.session.pending).lookup other = _ at hcalled
      rw [Assoc.lookup_put] at hcalled
      split at hcalled
      case isTrue => cases hcalled
      case isFalse => exact ⟨other, hcalled⟩
  | @subscribe method params next id link =>
      exact .inr ⟨(method, params), List.mem_singleton_self _, honly.1⟩

theorem step_heard (horderly : client.Orderly) (hjob : Holds (· = job) client.jobs number)
    (honly : job.OnlyAsks allowed) {event : Event α}
    (hlive : ∀ draws, event = .poll number draws → client.session.Live)
    (h : (client.step parser event).1.session.Heard number) :
    client.session.Heard number ∨
      ∃ question ∈ client.asked parser number event, allowed question.1 := by
  by_cases hpoll : ∃ draws, event = .poll number draws
  · obtain ⟨draws, rfl⟩ := hpoll
    cases hlookup : client.jobs.lookup number with
    | none =>
        simp only [step, poll, hlookup] at h
        exact .inl h
    | some present =>
        obtain rfl := hjob present hlookup
        have hturn := Job.poll_takes number draws (hlive draws rfl) honly
        simp only [asked, step, poll, hlookup, if_true] at h ⊢
        exact takes_heard hturn honly h
  · exact .inl (step_heard_of_unpolled horderly
      (fun draws hevent => hpoll ⟨draws, hevent⟩) h)

theorem run_heard (horderly : client.Orderly) (hjob : Holds (· = job) client.jobs number)
    (honly : job.OnlyAsks allowed) (hserved : Served parser number client events)
    (h : (client.run parser events).1.session.Heard number) :
    client.session.Heard number ∨
      ∃ question ∈ (conversation parser number client events).questions,
        allowed question.1 := by
  induction events generalizing client job with
  | nil => exact .inl h
  | cons event rest ih =>
      obtain ⟨hstart, hlive, hrest⟩ := hserved
      obtain ⟨middle, hleads, hmiddle⟩ :=
        step_leads parser horderly hjob honly hstart hlive
      rcases ih (horderly.step parser event) hmiddle hleads.only hrest h with
        hbefore | ⟨question, hmem, hallowed⟩
      · rcases step_heard horderly hjob honly hlive hbefore
          with hfirst | ⟨question, hmem, hallowed⟩
        · exact .inl hfirst
        · exact .inr ⟨question, List.mem_append_left _ hmem, hallowed⟩
      · exact .inr ⟨question, List.mem_append_right _ hmem, hallowed⟩

theorem turn_heard {program rest : Program α} {later : List (Event α)}
    (horderly : client.Orderly) (hjob : client.jobs.lookup number = some (.running program))
    (hreads : Reads allowed number draws client.session program rest)
    (hserved : Served parser number client (.poll number draws :: later))
    (h : (client.run parser (.poll number draws :: later)).1.session.Heard number) :
    client.session.Heard number ∨
      ∃ question ∈ (conversation parser number client
        (.poll number draws :: later)).questions,
        allowed question.1 := by
  obtain ⟨-, hlive, hlater⟩ := hserved
  have hturn := hreads.takes (hlive draws rfl)
  have honly := (hturn.leads hreads.only).only
  rcases run_heard (horderly.step parser _) (holds_of_turn hjob) honly hlater h with
    hmiddle | ⟨question, hmem, hallowed⟩
  · rw [step_of_turn hjob] at hmiddle
    rcases takes_heard hturn hreads.only hmiddle with hbefore | ⟨question, hmem, hallowed⟩
    · exact .inl hbefore
    · refine .inr ⟨question, List.mem_append_left _ ?_, hallowed⟩
      rwa [asked_of_turn hjob]
  · exact .inr ⟨question, List.mem_append_right _ hmem, hallowed⟩

end Client

end ChainClient
