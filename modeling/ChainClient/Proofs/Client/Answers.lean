import ChainClient.Proofs.Client.Settling
import ChainClient.Proofs.Program.Questions

/-! What one event does to a job that does nothing but ask: it has a turn, it is given an
answer, or it stays as it is. -/

namespace ChainClient

def Effect.question? : Effect → Option Question
  | .send _ request => some (request.method, request.params)
  | _ => none

/-- The questions that a job has sent, and the answers that it has been given. -/
structure Conversation where
  questions : List Question
  answers : List Answer

/-- What a session sends reaches the node. -/
def Session.Live (session : Session) : Prop :=
  ∃ link, session.link? = some link ∧ link.live = true

theorem Session.Live.request {session : Session} (h : session.Live) (id method : String)
    (params : List Json) (pending : Pending) :
    ∃ link, session.request id method params pending =
      .ok ({ session with pending := Assoc.put id pending session.pending },
        .send link ⟨id, method, params⟩) := by
  obtain ⟨link, hlink, hlive⟩ := h
  refine ⟨link.number, ?_⟩
  simp only [Session.request, send?, hlink, hlive, if_true]

namespace Job

variable {α : Type} {allowed : String → Prop} {job job' job'' : Job α}
  {talk talk' : Conversation}

/-- What the job is on its way with only asks. -/
def OnlyAsks (allowed : String → Prop) : Job α → Prop
  | .running program => program.OnlyAsks allowed
  | .awaiting _ next => ∀ answer, (next answer).OnlyAsks allowed
  | .finished _ => True
  | _ => False

/-- What a job has still to ask for.  What it waits for has been asked. -/
def questions : Job α → List Answer → List Question
  | .running program, answers => program.questions answers
  | .awaiting _ next, answer :: rest => (next answer).questions rest
  | _, _ => []

/-- What a job comes to with these answers, if they are enough. -/
def outcomeAfter? : Job α → List Answer → Option α
  | .running program, answers => program.outcome? answers
  | .awaiting _ next, answer :: rest => (next answer).outcome? rest
  | .finished outcome, _ => some outcome
  | _, _ => none

/-- By this conversation the one job becomes the other. -/
structure Leads (allowed : String → Prop) (job : Job α) (talk : Conversation)
    (job' : Job α) : Prop where
  only : job'.OnlyAsks allowed
  questions : ∀ more,
    job.questions (talk.answers ++ more) = talk.questions ++ job'.questions more
  outcome : ∀ more, job.outcomeAfter? (talk.answers ++ more) = job'.outcomeAfter? more

theorem Leads.refl (h : job.OnlyAsks allowed) : Leads allowed job ⟨[], []⟩ job :=
  ⟨h, fun _ => rfl, fun _ => rfl⟩

theorem Leads.trans (first : Leads allowed job talk job')
    (second : Leads allowed job' talk' job'') :
    Leads allowed job
      ⟨talk.questions ++ talk'.questions, talk.answers ++ talk'.answers⟩ job'' where
  only := second.only
  questions more := by
    simp only [List.append_assoc]
    rw [first.questions, second.questions]
  outcome more := by
    simp only [List.append_assoc]
    rw [first.outcome, second.outcome]

theorem leads_answer (id : String) {next : Answer → Program α}
    (h : (Job.awaiting id next).OnlyAsks allowed) (answer : Answer) :
    Leads allowed (.awaiting id next) ⟨[], [answer]⟩ (.running (next answer)) :=
  ⟨h answer, fun _ => rfl, fun _ => rfl⟩

/-- A job that does not wait has a turn ahead of it if it runs. -/
def Rests : Job α → Prop
  | .awaiting .. | .finished _ => True
  | _ => False

theorem questions_of_rests (h : job.Rests) : job.questions [] = [] := by
  cases job with
  | awaiting | finished => rfl
  | _ => exact h.elim

theorem outcomeAfter?_of_rests (h : job.Rests) : job.outcomeAfter? [] = job.outcome? := by
  cases job with
  | awaiting | finished => rfl
  | _ => exact h.elim

/-! A turn. -/

section Turn

variable {listener : Listener} {draws : List UInt64} {session : Session}

/-- What a turn over a live link does to a job that only asks. -/
inductive Takes (listener : Listener) (draws : List UInt64) (session : Session) :
    Job α → Turn α → Prop
  /-- The job waits or has ended, or no id is drawn for its request. -/
  | stay {job : Job α} (hstay : job.Rests ∨ session.freshId? draws = none) :
      Takes listener draws session job ⟨session, job, []⟩
  | finish (outcome : α) :
      Takes listener draws session (.running (.done outcome))
        ⟨session, .finished outcome, []⟩
  | call {method : String} {params : List Json} {next : Answer → Program α} {id : String}
      {link : Nat} :
      Takes listener draws session (.running (.call method params next))
        ⟨{ session with pending := Assoc.put id .call session.pending }, .awaiting id next,
          [.send link ⟨id, method, params⟩]⟩
  | subscribe {method : String} {params : List Json} {next : Answer → Program α}
      {id : String} {link : Nat} :
      Takes listener draws session (.running (.subscribe method params next))
        ⟨{ session with pending := Assoc.put id (.subscribe listener) session.pending },
          .awaiting id next, [.send link ⟨id, method, params⟩]⟩

theorem poll_takes (listener : Listener) (draws : List UInt64) (hlive : session.Live)
    (h : job.OnlyAsks allowed) :
    Takes listener draws session job (job.poll listener draws session) := by
  cases job with
  | awaiting id next => exact .stay (.inl trivial)
  | finished outcome => exact .stay (.inl trivial)
  | running program =>
      change Takes _ _ _ _ (run listener draws session program)
      cases program with
      | done outcome => exact .finish outcome
      | call method params next =>
          unfold run
          split
          case h_1 hnone => exact .stay (.inr hnone)
          case h_2 id rest _ =>
            obtain ⟨link, hsent⟩ := hlive.request id method params .call
            rw [hsent]
            exact .call
      | subscribe method params next =>
          unfold run
          split
          case h_1 hnone => exact .stay (.inr hnone)
          case h_2 id rest _ =>
            obtain ⟨link, hsent⟩ := hlive.request id method params (.subscribe listener)
            rw [hsent]
            exact .subscribe
      | _ => exact h.elim
  | _ => exact h.elim

theorem Takes.leads {turn : Turn α} (h : Takes listener draws session job turn)
    (honly : job.OnlyAsks allowed) :
    Leads allowed job ⟨turn.effects.filterMap Effect.question?, []⟩ turn.job := by
  cases h with
  | stay => exact .refl honly
  | finish outcome => exact ⟨trivial, fun _ => rfl, fun _ => rfl⟩
  | call =>
      refine ⟨honly, fun more => ?_, fun more => ?_⟩
      · cases more <;> rfl
      · cases more <;> rfl
  | subscribe =>
      refine ⟨honly.2, fun more => ?_, fun more => ?_⟩
      · cases more <;> rfl
      · cases more <;> rfl

theorem Takes.rests {turn : Turn α} (h : Takes listener draws session job turn)
    (hdraws : (session.freshId? draws).isSome) : turn.job.Rests := by
  cases h with
  | stay hstay =>
      rcases hstay with hrests | hnone
      · exact hrests
      · rw [hnone] at hdraws
        cases hdraws
  | _ => trivial

end Turn

end Job

instance (message : Message) (id : String) : Decidable (message.Answers id) := by
  unfold Message.Answers
  infer_instance

namespace Client

variable {α : Type} {parser : MetadataParser} {client : Client α} {event : Event α}
  {number : Nat} {allowed : String → Prop} {job : Job α}

/-! One event. -/

/-- What a job sends at an event.  It sends only when it is given the chance to run. -/
def asked (parser : MetadataParser) (client : Client α) (number : Nat) (event : Event α) :
    List Question :=
  match event with
  | .poll other _ =>
      if other = number then (client.step parser event).2.filterMap Effect.question? else []
  | _ => []

/-- What an event makes of a request: the first message under its id is the answer to it,
and if the session closes there will be none. -/
def reply? (client : Client α) (id : String) : Event α → Option Answer
  | .close => some (.error .closed)
  | event =>
      (client.routed? event).bind fun message =>
        if message.Answers id then some (.ok message.response) else none

/-- The answer that an event brings to a job. -/
def answer? (client : Client α) (number : Nat) (event : Event α) : Option Answer :=
  match client.jobs.lookup number with
  | some (.awaiting id _) => client.reply? id event
  | _ => none

theorem reply?_of_unrouted {id : String} (hclose : event ≠ .close)
    (h : client.routed? event = none) : client.reply? id event = none := by
  unfold reply?
  split
  case h_1 => exact absurd rfl hclose
  case h_2 => rw [h, Option.bind_none]

theorem reply?_of_routed {id : String} {message : Message}
    (h : client.routed? event = some message) :
    client.reply? id event =
      if message.Answers id then some (.ok message.response) else none := by
  unfold reply?
  split
  case h_1 => cases h
  case h_2 => rw [h, Option.bind_some]

theorem answer?_eq_none (h : ∀ id, client.reply? id event = none) :
    client.answer? number event = none := by
  unfold answer?
  split
  case h_1 id next _ => exact h id
  case h_2 => rfl

theorem answer?_of_awaiting {id : String} {next : Answer → Program α}
    (h : client.jobs.lookup number = some (.awaiting id next)) :
    client.answer? number event = client.reply? id event := by
  rw [answer?, h]

theorem answer?_of_deaf (hjob : client.jobs.lookup number = some job)
    (hdeaf : ∀ id next, job ≠ .awaiting id next) : client.answer? number event = none := by
  unfold answer?
  split
  case h_1 id next hwaits =>
    exact absurd (Option.some.inj (hjob.symm.trans hwaits)) (hdeaf id next)
  case h_2 => rfl

/-- A job that does not wait for anything from outside. -/
theorem stable_of_deaf (job : Job α) (hawaiting : ∀ id next, job ≠ .awaiting id next)
    (hdialling : ∀ next, job ≠ .dialling next) : Job.Stable (· = job) := by
  constructor
  · intro id result found hfound
    rw [hfound]
    cases job with
    | awaiting awaited next => exact absurd rfl (hawaiting awaited next)
    | _ => rfl
  · intro result found hfound
    rw [hfound]
    cases job with
    | dialling next => exact absurd rfl (hdialling next)
    | _ => rfl

theorem stable_running (program : Program α) : Job.Stable (· = .running program) :=
  stable_of_deaf (.running program) nofun nofun

theorem stable_finished (outcome : α) : Job.Stable (· = .finished outcome) :=
  stable_of_deaf (.finished outcome) nofun nofun

theorem step_leads_of_deaf (hjob : client.jobs.lookup number = some job)
    (honly : job.OnlyAsks allowed) (hdeaf : ∀ id next, job ≠ .awaiting id next)
    (hstart : ∀ program, event ≠ .start number program)
    (hpoll : ∀ draws, event ≠ .poll number draws) :
    Holds (job.Leads allowed ⟨[], (client.answer? number event).toList⟩)
      (client.step parser event).1.jobs number := by
  have hstable : Job.Stable (· = job) := by
    refine stable_of_deaf job hdeaf fun next hdialling => ?_
    rw [hdialling] at honly
    exact honly
  have hsame : Holds (· = job) (client.step parser event).1.jobs number := by
    refine step_holds hstable hstart hpoll fun found hfound => ?_
    exact Option.some.inj (hfound.symm.trans hjob)
  intro found hfound
  rw [hsame found hfound, answer?_of_deaf hjob hdeaf]
  exact .refl honly

section Awaiting

variable {id : String} {next : Answer → Program α}

theorem leads_of_same (hjob : client.jobs.lookup number = some (.awaiting id next))
    (honly : (Job.awaiting id next).OnlyAsks allowed)
    (hsame : (client.step parser event).1.jobs.lookup number = client.jobs.lookup number)
    (hreply : client.reply? id event = none) :
    Holds ((Job.awaiting id next).Leads allowed ⟨[], (client.answer? number event).toList⟩)
      (client.step parser event).1.jobs number := by
  intro found hfound
  rw [hsame, hjob, Option.some.injEq] at hfound
  subst hfound
  rw [answer?_of_awaiting hjob, hreply]
  exact .refl honly

theorem leads_of_reply (hjob : client.jobs.lookup number = some (.awaiting id next))
    (honly : (Job.awaiting id next).OnlyAsks allowed) {answer : Answer}
    (hreply : client.reply? id event = some answer)
    (hjobs : Holds (· = .running (next answer)) (client.step parser event).1.jobs number) :
    Holds ((Job.awaiting id next).Leads allowed ⟨[], (client.answer? number event).toList⟩)
      (client.step parser event).1.jobs number := by
  intro found hfound
  rw [hjobs found hfound, answer?_of_awaiting hjob, hreply]
  exact Job.leads_answer id honly answer

theorem holds_abandoned {jobs : List (Nat × Job α)} {calls : List (String × Pending)}
    {kind : Pending} (hcalled : (id, kind) ∈ calls)
    (hjob : jobs.lookup number = some (.awaiting id next)) :
    Holds (· = .running (next (.error .closed)))
      ((calls.map fun call => .abandon call.1).foldl notify jobs) number := by
  induction calls generalizing jobs with
  | nil => cases hcalled
  | cons call rest ih =>
      obtain ⟨other, kind'⟩ := call
      have hlookup : (notify jobs (.abandon other)).lookup number =
          some ((Job.awaiting id next).resume other (.error .closed)) := by
        rw [notify, Assoc.lookup_map, hjob, Option.map_some]
      rw [List.map_cons, List.foldl_cons]
      by_cases hsame : id = other
      · rw [Job.resume, if_pos hsame] at hlookup
        refine holds_foldl_notify (stable_running _) _ fun found hfound => ?_
        exact Option.some.inj (hfound.symm.trans hlookup)
      · rw [Job.resume, if_neg hsame] at hlookup
        refine ih ?_ hlookup
        rcases List.mem_cons.mp hcalled with hfirst | hrest
        · cases hfirst
          exact absurd rfl hsame
        · exact hrest

theorem receive_leads (horderly : client.Orderly)
    (hjob : client.jobs.lookup number = some (.awaiting id next))
    (honly : (Job.awaiting id next).OnlyAsks allowed) (link : Nat) (text : String) :
    Holds ((Job.awaiting id next).Leads allowed
        ⟨[], (client.answer? number (.receive link text)).toList⟩)
      (client.step parser (.receive link text)).1.jobs number := by
  cases hrouted : client.routed? (.receive link text) with
  | none =>
      refine leads_of_same hjob honly ?_ (reply?_of_unrouted nofun hrouted)
      rw [step_of_unheard hrouted]
  | some message =>
      have hcalled := horderly.called number id ⟨next, hjob⟩
      have hstep : client.step parser _ = _ := step_of_routed hrouted
      have hunanswered :
          (∀ id, message.Answers id → client.session.pending.lookup id = none) →
          client.reply? id (.receive link text) = none := by
        intro h
        rw [reply?_of_routed hrouted, if_neg]
        intro hanswers
        rw [h id hanswers] at hcalled
        cases hcalled
      cases Session.route_routes parser horderly.drawn message with
      | @answer answered kind hanswers _ hroute =>
          rw [hroute] at hstep
          by_cases hsame : id = answered
          · subst hsame
            refine leads_of_reply hjob honly
              ((reply?_of_routed hrouted).trans (if_pos hanswers)) ?_
            rw [hstep]
            intro found hfound
            exact Option.some.inj (hfound.symm.trans (lookup_notify_resolve hjob))
          · refine leads_of_same hjob honly ?_ ?_
            · rw [hstep]
              change (notify client.jobs (.resolve answered _)).lookup number = _
              rw [notify, Assoc.lookup_map, hjob, Option.map_some, Job.resume, if_neg hsame]
            · rw [reply?_of_routed hrouted, if_neg]
              exact fun h => hsame (answers_unique h hanswers)
      | unasked hunasked hroute =>
          refine leads_of_same hjob honly ?_
            (hunanswered fun id h => (hunasked.id id h.1).2)
          have haside := (Session.deliver_spares client.session message).effects
          rw [hstep, hroute, follow, foldl_notify_aside haside]
      | quiet _ hanswers hroute =>
          refine leads_of_same hjob honly ?_ (hunanswered hanswers)
          rw [hstep, follow, foldl_notify_aside hroute.spares.effects]

/-- A job that waits has a pending call, so the first message
under its id is given to it. -/
theorem step_leads_of_awaiting (horderly : client.Orderly)
    (hjob : client.jobs.lookup number = some (.awaiting id next))
    (honly : (Job.awaiting id next).OnlyAsks allowed)
    (hstart : ∀ program, event ≠ .start number program)
    (hpoll : ∀ draws, event ≠ .poll number draws) :
    Holds ((Job.awaiting id next).Leads allowed ⟨[], (client.answer? number event).toList⟩)
      (client.step parser event).1.jobs number := by
  cases event with
  | start other program =>
      refine leads_of_same hjob honly ?_ rfl
      refine (Assoc.lookup_put other number _ _).trans (if_neg ?_)
      rintro rfl
      exact hstart program rfl
  | poll other draws =>
      refine leads_of_same hjob honly ?_ rfl
      change (client.poll other draws).1.jobs.lookup number = _
      unfold poll
      split
      case h_1 =>
        refine (Assoc.lookup_put other number _ _).trans (if_neg ?_)
        rintro rfl
        exact hpoll draws rfl
      case h_2 => rfl
  | dialled other link? =>
      refine leads_of_same hjob honly ?_ rfl
      change (client.dialled other link?).1.jobs.lookup number = _
      unfold dialled
      split
      case h_1 job hother =>
        refine (Assoc.lookup_put other number _ _).trans ?_
        split
        case isTrue hsame =>
          subst hsame
          cases hjob.symm.trans hother
          exact hjob.symm
        case isFalse => rfl
      case h_2 => rfl
  | cancel other =>
      by_cases hsame : number = other
      · intro found hfound
        change (Assoc.erase other client.jobs).lookup number = _ at hfound
        rw [Assoc.lookup_erase, if_pos hsame] at hfound
        cases hfound
      · exact leads_of_same hjob honly
          ((Assoc.lookup_erase other number _).trans (if_neg hsame)) rfl
  | unsubscribe other => exact leads_of_same hjob honly rfl rfl
  | attach link =>
      refine leads_of_same hjob honly ?_ rfl
      have haside := (Session.attach_quiet client.session link).spares.effects
      change ((client.session.attach link).2.foldl notify client.jobs).lookup number = _
      rw [foldl_notify_aside haside]
  | close =>
      obtain ⟨kind, hcalled⟩ :=
        Option.isSome_iff_exists.mp (horderly.called number id ⟨next, hjob⟩)
      obtain ⟨_, _, hentries, _⟩ := List.lookup_eq_some_iff.mp hcalled
      have hpending : (id, kind) ∈ client.session.pending := by simp [hentries]
      exact leads_of_reply hjob honly rfl (holds_abandoned hpending hjob)
  | receive link text => exact receive_leads horderly hjob honly link text
  | nodeGone link => exact leads_of_same hjob honly rfl rfl
  | linkEnd link => exact leads_of_same hjob honly rfl rfl

end Awaiting

theorem poll_leads (hjob : client.jobs.lookup number = some job)
    (honly : job.OnlyAsks allowed) (hlive : client.session.Live) (draws : List UInt64) :
    Holds (job.Leads allowed ⟨client.asked parser number (.poll number draws), []⟩)
      (client.step parser (.poll number draws)).1.jobs number := by
  have hturn := Job.poll_takes number draws hlive honly
  intro found hfound
  simp only [step, poll, hjob, Assoc.lookup_put, if_true, Option.some.injEq] at hfound
  subst hfound
  simp only [asked, step, poll, hjob, if_true]
  exact hturn.leads honly

theorem asked_of_absent (h : client.jobs.lookup number = none) :
    client.asked parser number event = [] := by
  unfold asked
  split
  case h_1 other draws =>
    split
    case isTrue hsame =>
      subst hsame
      simp only [step, poll, h, List.filterMap_nil]
    case isFalse => rfl
  case h_2 => rfl

theorem asked_of_unpolled (h : ∀ draws, event ≠ .poll number draws) :
    client.asked parser number event = [] := by
  unfold asked
  split
  case h_1 other draws =>
    split
    case isTrue hsame => exact absurd (by rw [hsame]) (h draws)
    case isFalse => rfl
  case h_2 => rfl

theorem step_absent (hstart : ∀ program, event ≠ .start number program)
    (h : client.jobs.lookup number = none) :
    Holds (fun _ => False) (client.step parser event).1.jobs number := by
  have habsent : Holds (fun _ => False) client.jobs number := by
    intro job hjob
    rw [h] at hjob
    cases hjob
  by_cases hpoll : ∃ draws, event = .poll number draws
  · obtain ⟨draws, rfl⟩ := hpoll
    simp only [step, poll, h]
    exact habsent
  · refine step_holds ⟨fun _ _ _ h => h, fun _ _ h => h⟩ hstart ?_ habsent
    exact fun draws hevent => hpoll ⟨draws, hevent⟩

theorem lookup_put_isSome {jobs : List (Nat × Job α)} {other : Nat} {job : Job α}
    (h : (jobs.lookup number).isSome) :
    ((Assoc.put other job jobs).lookup number).isSome := by
  rw [Assoc.lookup_put]
  split
  case isTrue => rfl
  case isFalse => exact h

theorem foldl_notify_isSome {jobs : List (Nat × Job α)} (effects : List Effect)
    (h : (jobs.lookup number).isSome) :
    ((effects.foldl notify jobs).lookup number).isSome := by
  induction effects generalizing jobs with
  | nil => exact h
  | cons effect rest ih =>
      refine ih ?_
      cases effect with
      | send | push => exact h
      | resolve | abandon => rwa [notify, Assoc.lookup_map, Option.isSome_map]

/-- Only cancelling takes a job away. -/
theorem step_present (parser : MetadataParser) (hcancel : event ≠ .cancel number)
    (h : (client.jobs.lookup number).isSome) :
    ((client.step parser event).1.jobs.lookup number).isSome := by
  cases event with
  | start other program => exact lookup_put_isSome h
  | poll other draws =>
      change ((client.poll other draws).1.jobs.lookup number).isSome
      unfold poll
      split
      case h_1 => exact lookup_put_isSome h
      case h_2 => exact h
  | dialled other link? =>
      change ((client.dialled other link?).1.jobs.lookup number).isSome
      unfold dialled
      split
      case h_1 => exact lookup_put_isSome h
      case h_2 => exact h
  | cancel other =>
      have hne : number ≠ other := fun hsame => hcancel (by rw [hsame])
      change ((Assoc.erase other client.jobs).lookup number).isSome
      rwa [Assoc.lookup_erase, if_neg hne]
  | unsubscribe id => exact h
  | attach link => exact foldl_notify_isSome _ h
  | close => exact foldl_notify_isSome _ h
  | receive link text =>
      rw [step]
      split
      case isTrue => exact foldl_notify_isSome _ h
      case isFalse => exact h
  | nodeGone link => exact h
  | linkEnd link => exact h

theorem step_leads_of_present (parser : MetadataParser) (horderly : client.Orderly)
    (hjob : client.jobs.lookup number = some job) (honly : job.OnlyAsks allowed)
    (hstart : ∀ program, event ≠ .start number program)
    (hlive : ∀ draws, event = .poll number draws → client.session.Live) :
    Holds (job.Leads allowed
        ⟨client.asked parser number event, (client.answer? number event).toList⟩)
      (client.step parser event).1.jobs number := by
  by_cases hpoll : ∃ draws, event = .poll number draws
  · obtain ⟨draws, rfl⟩ := hpoll
    rw [answer?_eq_none fun id => rfl]
    exact poll_leads hjob honly (hlive draws rfl) draws
  · have hpoll : ∀ draws, event ≠ .poll number draws := fun draws h => hpoll ⟨draws, h⟩
    rw [asked_of_unpolled hpoll]
    cases job with
    | awaiting id next => exact step_leads_of_awaiting horderly hjob honly hstart hpoll
    | _ => exact step_leads_of_deaf hjob honly nofun hstart hpoll

/-- The job of a number goes on as its conversation tells, unless it is cancelled. -/
theorem step_leads (parser : MetadataParser) (horderly : client.Orderly)
    (hjob : Holds (· = job) client.jobs number) (honly : job.OnlyAsks allowed)
    (hstart : ∀ program, event ≠ .start number program)
    (hlive : ∀ draws, event = .poll number draws → client.session.Live) :
    ∃ job', job.Leads allowed
        ⟨client.asked parser number event, (client.answer? number event).toList⟩ job' ∧
      Holds (· = job') (client.step parser event).1.jobs number := by
  cases hlookup : client.jobs.lookup number with
  | none =>
      refine ⟨job, ?_, fun found hfound => (step_absent hstart hlookup found hfound).elim⟩
      rw [asked_of_absent hlookup, answer?, hlookup]
      exact .refl honly
  | some present =>
      obtain rfl := hjob present hlookup
      have hleads := step_leads_of_present parser horderly hlookup honly hstart hlive
      by_cases hcancel : event = .cancel number
      · subst hcancel
        refine ⟨present, ?_, fun found hfound => ?_⟩
        · rw [answer?_eq_none fun id => rfl]
          exact .refl honly
        · change (Assoc.erase number client.jobs).lookup number = _ at hfound
          rw [Assoc.lookup_erase, if_pos rfl] at hfound
          cases hfound
      · have hpresent : (client.jobs.lookup number).isSome := by
          rw [hlookup]
          rfl
        obtain ⟨job', hjob'⟩ :=
          Option.isSome_iff_exists.mp (step_present parser hcancel hpresent)
        refine ⟨job', hleads job' hjob', fun found hfound => ?_⟩
        exact Option.some.inj (hfound.symm.trans hjob')

end Client

end ChainClient
