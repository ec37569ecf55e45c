import ChainClient.Proofs.Client.Delivery
import ChainClient.Proofs.Session.SystemAnswers
import Mathlib.Data.List.Infix
import Mathlib.Data.List.Perm.Subperm

/-! When a job that has asked all system queries goes on, and
what has been answered by then. -/

namespace ChainClient

namespace Job

variable {α : Type} {listener : Listener} {draws : List UInt64} {session : Session}

theorem permits_tally (answers : List (Rpc.SystemQuery × Json)) (count : Nat) :
    Permits (fun session => session.answers = answers ∧ session.answered ≤ count)
      (fun _ => True) where
  beginOpen _ h := h
  request _ _ _ h := h
  refresh _ h := ⟨h.1, Nat.zero_le count⟩
  send _ _ := trivial

/-- A turn ends with the job waiting for the answers to all system
queries, which it has just asked. -/
structure Refreshes (turn : Turn α) : Prop where
  answered : turn.session.answered = 0
  sends : ∃ link, turn.session.hasLink link = true ∧
    turn.effects = Rpc.SystemQuery.all.map fun query =>
      .send link (Session.systemRequest query)

theorem run_refreshes {program : Program α}
    {next : Except SessionError SystemInfo → Program α}
    (h : (run listener draws session program).job = .refreshing next) :
    Refreshes (run listener draws session program) := by
  induction program generalizing draws session with
  | done outcome => cases h
  | dial url next ih => cases h
  | call method params next ih =>
      unfold run at h ⊢
      split at h
      case h_1 => cases h
      case h_2 =>
        split at h
        case h_1 => cases h
        case h_2 => exact ih _ h
  | subscribe method params next ih =>
      unfold run at h ⊢
      split at h
      case h_1 => cases h
      case h_2 =>
        split at h
        case h_1 => cases h
        case h_2 => exact ih _ h
  | refresh next ih =>
      unfold run at h ⊢
      split at h
      case h_1 session' sent hrefresh =>
        obtain ⟨link, hlink, hsent⟩ := Session.refresh_sends hrefresh
        obtain rfl := Session.refresh_session hrefresh
        exact ⟨rfl, link, hlink, hsent⟩
      case h_2 => exact ih _ h
  | runtimeVersion next ih =>
      unfold run at h ⊢
      split at h
      case h_1 => exact ih _ h
      case h_2 => cases h
  | metadata next ih =>
      unfold run at h ⊢
      split at h
      case h_1 => exact ih _ h
      case h_2 => cases h

theorem poll_refreshes {job : Job α} {next : Except SessionError SystemInfo → Program α}
    (h : (job.poll listener draws session).job = .refreshing next)
    (heffects : (job.poll listener draws session).effects ≠ []) :
    Refreshes (job.poll listener draws session) := by
  rw [poll_eq] at h heffects ⊢
  split at h
  case h_1 program hprogram =>
    simp only [hprogram] at heffects ⊢
    exact run_refreshes h
  case h_2 hprogram =>
    simp only [hprogram] at heffects
    exact absurd rfl heffects

end Job

namespace Client

variable {α : Type} {parser : MetadataParser} {client : Client α} {event : Event α}

/-! One step. -/

def systemAnswer? (client : Client α) (event : Event α) : Option (Rpc.SystemQuery × Json) :=
  (client.routed? event).bind Message.systemAnswer?

theorem step_of_systemAnswer (parser : MetadataParser) {query : Rpc.SystemQuery}
    {answer : Json} (h : client.systemAnswer? event = some (query, answer)) :
    client.step parser event =
      ({ client with
          session :=
            { client.session with
              answers := Assoc.put query answer client.session.answers
              answered := client.session.answered + 1 } }, []) := by
  obtain ⟨message, hmessage, hanswer⟩ := Option.bind_eq_some_iff.mp h
  rw [step_of_routed hmessage, Session.route_systemAnswer hanswer]
  rfl

theorem poll_tally (number : Nat) (draws : List UInt64) :
    (client.poll number draws).1.session.answers = client.session.answers ∧
      (client.poll number draws).1.session.answered ≤ client.session.answered := by
  unfold poll
  split
  case h_1 job _ =>
    have hwithin : Turn.Within _ _ (job.poll number draws client.session) :=
      Job.poll_within (Job.permits_tally client.session.answers client.session.answered) job
        ⟨rfl, Nat.le_refl _⟩
    exact hwithin.session
  case h_2 => exact ⟨rfl, Nat.le_refl _⟩

theorem step_of_unanswering (parser : MetadataParser)
    (h : client.systemAnswer? event = none) :
    (client.step parser event).1.session.answers = client.session.answers ∧
      (client.step parser event).1.session.answered ≤ client.session.answered := by
  have hsame : ∀ {session : Session}, session.tally = client.session.tally →
      session.answers = client.session.answers ∧
        session.answered ≤ client.session.answered := by
    intro session htally
    obtain ⟨hanswers, hanswered⟩ := Prod.ext_iff.mp htally
    exact ⟨hanswers, Nat.le_of_eq hanswered⟩
  cases event with
  | start number program => exact hsame rfl
  | poll number draws => exact poll_tally number draws
  | dialled number link? =>
      change (client.dialled number link?).1.session.answers = _ ∧
        (client.dialled number link?).1.session.answered ≤ _
      unfold dialled
      split
      case h_1 => exact hsame (Session.finishOpen_tally client.session link?)
      case h_2 => exact hsame rfl
  | cancel number => exact hsame rfl
  | unsubscribe id => exact hsame rfl
  | attach link => exact hsame (Session.attach_tally client.session link)
  | close => exact hsame rfl
  | receive link text =>
      cases hrouted : client.routed? (.receive link text) with
      | none =>
          rw [step_of_unheard hrouted]
          exact hsame rfl
      | some message =>
          rw [step_of_routed hrouted]
          rw [systemAnswer?, hrouted, Option.bind_some] at h
          exact hsame (Session.route_tally h)
  | nodeGone link => exact hsame (Session.nodeGone_tally client.session link)
  | linkEnd link => exact hsame (Session.linkEnd_tally client.session link)

/-! Runs. -/

/-- The answers to system queries that arrive in a run, first one first. -/
def systemAnswers (parser : MetadataParser) :
    Client α → List (Event α) → List (Rpc.SystemQuery × Json)
  | _, [] => []
  | client, event :: rest =>
      (client.systemAnswer? event).toList ++
        systemAnswers parser (client.step parser event).1 rest

/-- The system queries that are asked in a run. -/
def systemQueries (parser : MetadataParser) (client : Client α) (events : List (Event α)) :
    List Rpc.SystemQuery :=
  (client.run parser events).2.filterMap Effect.systemQuery?

theorem run_append (client : Client α) (first second : List (Event α)) :
    client.run parser (first ++ second) =
      (((client.run parser first).1.run parser second).1,
        (client.run parser first).2 ++
          ((client.run parser first).1.run parser second).2) := by
  induction first generalizing client with
  | nil => rfl
  | cons event rest ih => simp only [List.cons_append, run, ih, List.append_assoc]

theorem systemAnswers_append (client : Client α) (first second : List (Event α)) :
    client.systemAnswers parser (first ++ second) =
      client.systemAnswers parser first ++
        (client.run parser first).1.systemAnswers parser second := by
  induction first generalizing client with
  | nil => rfl
  | cons event rest ih =>
      simp only [List.cons_append, systemAnswers, run, ih, List.append_assoc]

theorem systemQueries_append (client : Client α) (first second : List (Event α)) :
    client.systemQueries parser (first ++ second) =
      client.systemQueries parser first ++
        (client.run parser first).1.systemQueries parser second := by
  simp only [systemQueries, run_append, List.filterMap_append]

theorem answered_le (parser : MetadataParser) (client : Client α)
    (events : List (Event α)) : (client.run parser events).1.session.answered ≤
      client.session.answered + (client.systemAnswers parser events).length := by
  induction events generalizing client with
  | nil => exact Nat.le_refl _
  | cons event rest ih =>
      have hrest := ih (client.step parser event).1
      simp only [run, systemAnswers, List.length_append]
      cases hanswer : client.systemAnswer? event with
      | none =>
          have hstep := (step_of_unanswering parser hanswer).2
          simp only [Option.toList_none, List.length_nil]
          omega
      | some entry =>
          rw [step_of_systemAnswer parser hanswer] at hrest ⊢
          simp only [Option.toList_some, List.length_singleton]
          dsimp only at hrest
          omega

/-- What is known as the answer to a query is the last one that came. -/
theorem lookup_answers (client : Client α) (events : List (Event α))
    (query : Rpc.SystemQuery) :
    (client.run parser events).1.session.answers.lookup query =
      ((client.systemAnswers parser events).reverse.lookup query).or
        (client.session.answers.lookup query) := by
  induction events generalizing client with
  | nil => rfl
  | cons event rest ih =>
      simp only [run, systemAnswers, List.reverse_append, List.lookup_append,
        Option.or_assoc, ih]
      cases hanswer : client.systemAnswer? event with
      | none => rw [(step_of_unanswering parser hanswer).1]; rfl
      | some entry =>
          rw [step_of_systemAnswer parser hanswer]
          obtain ⟨answered, answer⟩ := entry
          by_cases h : query = answered
          · simp [Assoc.lookup_put, h]
          · simp [Assoc.lookup_put, List.lookup_cons, h, beq_eq_false_iff_ne.mpr h]

/-! How often a query was asked and answered. -/

def askedTimes (parser : MetadataParser) (client : Client α) (events : List (Event α))
    (query : Rpc.SystemQuery) : Nat :=
  (client.systemQueries parser events).count query

def answeredTimes (parser : MetadataParser) (client : Client α) (events : List (Event α))
    (query : Rpc.SystemQuery) : Nat :=
  ((client.systemAnswers parser events).map Prod.fst).count query

theorem askedTimes_append (client : Client α) (first second : List (Event α))
    (query : Rpc.SystemQuery) :
    client.askedTimes parser (first ++ second) query =
      client.askedTimes parser first query +
        (client.run parser first).1.askedTimes parser second query := by
  simp only [askedTimes, systemQueries_append, List.count_append]

theorem answeredTimes_append (client : Client α) (first second : List (Event α))
    (query : Rpc.SystemQuery) :
    client.answeredTimes parser (first ++ second) query =
      client.answeredTimes parser first query +
        (client.run parser first).1.answeredTimes parser second query := by
  simp only [answeredTimes, systemAnswers_append, List.map_append, List.count_append]

theorem askedTimes_of_quiet {events : List (Event α)}
    (h : client.systemQueries parser events = []) (query : Rpc.SystemQuery) :
    client.askedTimes parser events query = 0 := by
  rw [askedTimes, h, List.count_nil]

/-- At no time has a query been answered more often than it was asked. -/
def NeverUnasked (parser : MetadataParser) (client : Client α)
    (events : List (Event α)) : Prop :=
  ∀ before after, events = before ++ after → ∀ query,
    client.answeredTimes parser before query ≤ client.askedTimes parser before query

theorem NeverUnasked.last {events : List (Event α)} (h : client.NeverUnasked parser events)
    (query : Rpc.SystemQuery) :
    client.answeredTimes parser events query ≤ client.askedTimes parser events query :=
  h events [] (List.append_nil events).symm query

theorem neverUnasked_append {first second : List (Event α)} :
    client.NeverUnasked parser (first ++ second) ↔ client.NeverUnasked parser first ∧
      ∀ before after, second = before ++ after → ∀ query,
        client.answeredTimes parser (first ++ before) query ≤
          client.askedTimes parser (first ++ before) query := by
  refine ⟨fun h => ⟨?_, ?_⟩, fun ⟨hfirst, hsecond⟩ before after hsplit => ?_⟩
  · rintro before after rfl
    exact h before (after ++ second) (List.append_assoc ..)
  · rintro before after rfl
    exact h (first ++ before) after (List.append_assoc ..).symm
  · rcases List.append_eq_append_iff.mp hsplit with ⟨middle, rfl, rfl⟩ | ⟨middle, rfl, -⟩
    · exact hsecond middle after rfl
    · exact hfirst before middle rfl

/-! Calls. -/

/-- In its turn the job of a number asks all system queries,
and then waits for the answers. -/
def Begins (parser : MetadataParser) (client : Client α) (number : Nat)
    (event : Event α) : Prop :=
  ∃ draws next, event = .poll number draws ∧
    (client.step parser event).1.jobs.lookup number = some (.refreshing next) ∧
    (client.step parser event).2 ≠ []

/-- In its next turn the job of a number goes on with what is known of the answers. -/
def Returns (client : Client α) (number : Nat) : Prop :=
  ∃ next, client.jobs.lookup number = some (.refreshing next) ∧
    client.session.isRefreshed = true

/-- Every query has been answered in a run, and the last answer to it is known. -/
def AllAnswered (parser : MetadataParser) (client : Client α)
    (events : List (Event α)) : Prop :=
  ∀ query, ∃ answer,
    (client.systemAnswers parser events).reverse.lookup query = some answer ∧
      (client.run parser events).1.session.answers.lookup query = some answer

variable {number : Nat}

theorem Begins.waits (h : client.Begins parser number event) :
    ∃ next, (client.step parser event).1.jobs.lookup number = some (.refreshing next) := by
  obtain ⟨-, next, -, hjob, -⟩ := h
  exact ⟨next, hjob⟩

theorem Begins.refreshes (h : client.Begins parser number event) :
    client.systemAnswer? event = none ∧ (client.step parser event).1.session.answered = 0 ∧
      ∃ link, (client.step parser event).1.session.hasLink link = true ∧
        (client.step parser event).2 =
          Rpc.SystemQuery.all.map fun query =>
            .send link (Session.systemRequest query) := by
  obtain ⟨draws, next, rfl, hjob, heffects⟩ := h
  refine ⟨rfl, ?_⟩
  simp only [step, poll] at hjob heffects ⊢
  cases hlookup : client.jobs.lookup number with
  | none => simp only [hlookup, ne_eq, not_true] at heffects
  | some job =>
      simp only [hlookup, Assoc.lookup_put, if_true, Option.some.injEq] at hjob heffects ⊢
      exact ⟨(Job.poll_refreshes hjob heffects).answered,
        (Job.poll_refreshes hjob heffects).sends⟩

theorem Begins.askedTimes (h : client.Begins parser number event)
    (query : Rpc.SystemQuery) : client.askedTimes parser [event] query = 1 := by
  obtain ⟨-, -, link, -, hsent⟩ := h.refreshes
  have hqueries :
      (Effect.systemQuery? ∘ fun query => .send link (Session.systemRequest query)) =
      some := funext (Session.systemQuery?_systemRequest link)
  simp only [Client.askedTimes, systemQueries, run, hsent, List.append_nil,
    List.filterMap_map, hqueries, List.filterMap_some]
  cases query <;> decide

theorem Begins.answeredTimes (h : client.Begins parser number event)
    (query : Rpc.SystemQuery) : client.answeredTimes parser [event] query = 0 := by
  simp only [Client.answeredTimes, systemAnswers, h.refreshes.1]
  rfl

theorem mem_of_lengths {queries : List Rpc.SystemQuery}
    (honce : ∀ query, queries.count query ≤ 1)
    (hlength : Rpc.SystemQuery.all.length ≤ queries.length) (query : Rpc.SystemQuery) :
    query ∈ queries := by
  have hnodup : queries.Nodup := List.nodup_iff_count_le_one.mpr honce
  have hsubperm :=
    List.subperm_of_subset hnodup fun query _ => Rpc.SystemQuery.mem_all query
  exact (hsubperm.perm_of_length_le hlength).mem_iff.mpr (Rpc.SystemQuery.mem_all query)

theorem exists_lookup_reverse {answers : List (Rpc.SystemQuery × Json)}
    {query : Rpc.SystemQuery} (h : query ∈ answers.map Prod.fst) :
    ∃ answer, answers.reverse.lookup query = some answer := by
  rw [← Option.isSome_iff_exists, Option.isSome_iff_ne_none, ne_eq, List.lookup_eq_none_iff]
  obtain ⟨entry, hentry, rfl⟩ := List.mem_map.mp h
  exact fun hnone => absurd (hnone entry (List.mem_reverse.mpr hentry)) (by simp)

theorem length_systemAnswers_of_returns {client : Client α} {past later : List (Event α)}
    (hbegins : (client.run parser past).1.Begins parser number event)
    (hreturns : (client.run parser (past ++ [event] ++ later)).1.Returns number) :
    Rpc.SystemQuery.all.length ≤
      ((client.run parser (past ++ [event])).1.systemAnswers parser later).length := by
  obtain ⟨-, -, h⟩ := hreturns
  have hrefreshed : Rpc.SystemQuery.all.length ≤
      ((client.run parser (past ++ [event])).1.run parser later).1.session.answered := by
    rw [run_append] at h
    exact of_decide_eq_true h
  have hanswered := answered_le parser (client.run parser (past ++ [event])).1 later
  have hzero : (client.run parser (past ++ [event])).1.session.answered = 0 := by
    rw [run_append]
    exact hbegins.refreshes.2.1
  omega

/-- A call that begins when nothing is outstanding returns only after all answers. -/
theorem allAnswered_of_settled {client : Client α} {past later : List (Event α)}
    (hbegins : (client.run parser past).1.Begins parser number event)
    (hsettled : ∀ query, client.answeredTimes parser past query =
      client.askedTimes parser past query)
    (hquiet : (client.run parser (past ++ [event])).1.systemQueries parser later = [])
    (hunasked : client.NeverUnasked parser (past ++ [event] ++ later))
    (hreturns : (client.run parser (past ++ [event] ++ later)).1.Returns number) :
    AllAnswered parser (client.run parser (past ++ [event])).1 later := by
  have honce : ∀ query,
      (client.run parser (past ++ [event])).1.answeredTimes parser later query ≤ 1 := by
    intro query
    have hcounts := hunasked.last query
    have hpast := hsettled query
    rw [answeredTimes_append, answeredTimes_append, askedTimes_append, askedTimes_append,
      hbegins.askedTimes, hbegins.answeredTimes, askedTimes_of_quiet hquiet] at hcounts
    omega
  have hlength := length_systemAnswers_of_returns hbegins hreturns
  intro query
  have hmem := mem_of_lengths honce (by rwa [List.length_map]) query
  obtain ⟨answer, hanswer⟩ := exists_lookup_reverse hmem
  refine ⟨answer, hanswer, ?_⟩
  rw [lookup_answers, hanswer, Option.some_or]

/-! Answers in an order of which some of the calls do not get all. -/

def systemReply (link : Nat) (query : Rpc.SystemQuery) : Event α :=
  .receive link ("\x7b\"id\":\"" ++ query.id ++ "\",\"result\":true\x7d")

theorem systemAnswer?_systemReply {link : Nat} (h : client.session.hasLink link = true)
    (query : Rpc.SystemQuery) :
    client.systemAnswer? (systemReply link query) = some (query, .bool true) := by
  have hwritten :
      Json.Written.parse? ("\x7b\"id\":\"" ++ query.id ++ "\",\"result\":true\x7d") =
      some (.object [(some "id", .string (some query.id)),
        (some "result", .bool true)]) := by
    cases query <;> cbv
  rw [systemAnswer?, systemReply, routed?, if_pos h, Message.parse?, hwritten]
  cases query <;> rfl

theorem run_systemReplies (parser : MetadataParser) {link : Nat}
    (h : client.session.hasLink link = true) (queries : List Rpc.SystemQuery) :
    (client.run parser (queries.map (systemReply link))).2 = [] ∧
      (client.run parser (queries.map (systemReply link))).1.jobs = client.jobs ∧
      (client.run parser (queries.map (systemReply link))).1.session.answered =
        client.session.answered + queries.length ∧
      (client.systemAnswers parser (queries.map (systemReply link))).map Prod.fst =
        queries := by
  induction queries generalizing client with
  | nil => exact ⟨rfl, rfl, rfl, rfl⟩
  | cons query rest ih =>
      have hanswer := systemAnswer?_systemReply (α := α) h query
      have hstep := step_of_systemAnswer parser hanswer
      obtain ⟨heffects, hjobs, hanswered, hqueries⟩ :=
        @ih (client.step parser (systemReply link query)).1 (by rw [hstep]; exact h)
      simp only [List.map_cons, run, systemAnswers, hanswer, heffects, hjobs, hanswered]
      rw [hstep]
      refine ⟨rfl, rfl, ?_, ?_⟩
      · simp only [List.length_cons]
        omega
      · rw [hstep] at hqueries
        simpa using hqueries

/-- Five answers, two of them to one query and none to another. -/
def unevenQueries (query : Rpc.SystemQuery) : List Rpc.SystemQuery :=
  query :: query :: (Rpc.SystemQuery.all.erase query).take 3

theorem unevenQueries_incomplete (query : Rpc.SystemQuery) :
    ∃ other, other ∉ unevenQueries query := by
  cases query
  case health => exact ⟨.properties, by decide⟩
  all_goals exact ⟨.health, by decide⟩

theorem count_unevenQueries (query other : Rpc.SystemQuery) :
    (unevenQueries query).count other ≤ if other = query then 2 else 1 := by
  cases query <;> cases other <;> decide

/-- A call that begins while a request is outstanding can return before all answers, if the
node answers this request first. -/
theorem exists_incomplete {client : Client α} {past : List (Event α)}
    {query : Rpc.SystemQuery} (hpast : client.NeverUnasked parser past)
    (hbegins : (client.run parser past).1.Begins parser number event)
    (houtstanding : client.answeredTimes parser past query <
      client.askedTimes parser past query) :
    ∃ later, (client.run parser (past ++ [event])).1.systemQueries parser later = [] ∧
      client.NeverUnasked parser (past ++ [event] ++ later) ∧
      (client.run parser (past ++ [event] ++ later)).1.Returns number ∧
      ¬ AllAnswered parser (client.run parser (past ++ [event])).1 later := by
  obtain ⟨-, hzero, link, hlink, -⟩ := hbegins.refreshes
  obtain ⟨next, hjob⟩ := hbegins.waits
  have hbegun : (client.run parser (past ++ [event])).1 =
      ((client.run parser past).1.step parser event).1 := by
    rw [run_append]
    rfl
  rw [← hbegun] at hzero hlink hjob
  obtain ⟨heffects, hjobs, hanswered, hqueries⟩ :=
    run_systemReplies parser hlink (unevenQueries query)
  generalize hlater : (unevenQueries query).map (systemReply link) = later at *
  refine ⟨later, ?_, ?_, ?_, ?_⟩
  · rw [systemQueries, heffects]
    rfl
  · rw [List.append_assoc, neverUnasked_append]
    refine ⟨hpast, fun before after hsplit other => ?_⟩
    rcases List.cons_eq_append_iff.mp hsplit with ⟨rfl, -⟩ | ⟨replies, rfl, hreplies⟩
    · rw [List.append_nil]
      exact hpast.last other
    · have hcount := count_unevenQueries query other
      have hpastCount := hpast.last other
      have hwhole :
          (client.run parser (past ++ [event])).1.answeredTimes parser later other =
            (unevenQueries query).count other := by
        rw [Client.answeredTimes, hqueries]
      have hreplies : later = replies ++ after := hreplies
      rw [hreplies, answeredTimes_append] at hwhole
      rw [List.append_cons, answeredTimes_append, answeredTimes_append, askedTimes_append,
        askedTimes_append, hbegins.askedTimes, hbegins.answeredTimes]
      split at hcount
      case isTrue hother =>
        subst hother
        omega
      case isFalse => omega
  · rw [run_append]
    refine ⟨next, hjobs ▸ hjob, ?_⟩
    rw [Session.isRefreshed, hanswered, hzero]
    cases query <;> decide
  · intro hall
    obtain ⟨other, hother⟩ := unevenQueries_incomplete query
    obtain ⟨answer, hlookup, -⟩ := hall other
    have hmem := List.mem_reverse.mp (Assoc.mem_of_lookup hlookup)
    rw [← hqueries] at hother
    exact hother (List.mem_map.mpr ⟨_, hmem, rfl⟩)

/-- In whatever order the node answers, a call that begins with an event returns only after
all answers, as long as no other call begins. -/
def AlwaysComplete (parser : MetadataParser) (cache : Store) (past : List (Event α))
    (event : Event α) (number : Nat) : Prop :=
  ∀ later, (after parser cache (past ++ [event])).systemQueries parser later = [] →
    (new (.detached cache)).NeverUnasked parser (past ++ [event] ++ later) →
    (after parser cache (past ++ [event] ++ later)).Returns number →
      AllAnswered parser (after parser cache (past ++ [event])) later

/-- A call that waits returns only after as many answers as there are queries have come
since it began.  They are answers to all queries, in whatever order they come, exactly if
every earlier request had been answered when it began. -/
theorem complete_iff_settled (parser : MetadataParser) (cache : Store)
    {past : List (Event α)} (hpast : (new (.detached cache)).NeverUnasked parser past)
    (hbegins : (after parser cache past).Begins parser number event) :
    (∀ later, (after parser cache (past ++ [event] ++ later)).Returns number →
      Rpc.SystemQuery.all.length ≤
        ((after parser cache (past ++ [event])).systemAnswers parser later).length) ∧
    (AlwaysComplete parser cache past event number ↔
      ∀ query, (new (.detached cache)).answeredTimes parser past query =
        (new (.detached cache)).askedTimes parser past query) := by
  refine ⟨fun later hreturns => length_systemAnswers_of_returns hbegins hreturns,
    fun hcomplete query => ?_, fun hsettled later hquiet hunasked hreturns =>
      allAnswered_of_settled hbegins hsettled hquiet hunasked hreturns⟩
  by_contra hne
  have houtstanding := Nat.lt_of_le_of_ne (hpast.last query) hne
  obtain ⟨later, hquiet, hunasked, hreturns, hincomplete⟩ :=
    exists_incomplete hpast hbegins houtstanding
  exact hincomplete (hcomplete later hquiet hunasked hreturns)

/-! Two calls, of which the second begins before anything is answered. -/

def refreshing : Program (Except SessionError SystemInfo) := .refresh .done

def callers : List (Event (Except SessionError SystemInfo)) :=
  [.attach ⟨0, true⟩, .start 0 refreshing, .start 1 refreshing]

def firstCall : List (Event (Except SessionError SystemInfo)) := callers ++ [.poll 0 []]

def bothCalls : List (Event (Except SessionError SystemInfo)) := firstCall ++ [.poll 1 []]

theorem neverUnasked_of_unanswered {events : List (Event α)}
    (h : client.systemAnswers parser events = []) : client.NeverUnasked parser events := by
  rintro before after rfl query
  rw [systemAnswers_append, List.append_eq_nil_iff] at h
  rw [answeredTimes, h.1]
  exact Nat.zero_le _

theorem complete_iff_settled_callers :
    (new (.detached .emptyMemory)).NeverUnasked parseMetadata callers ∧
      (after parseMetadata .emptyMemory callers).Begins parseMetadata 0 (.poll 0 []) ∧
      (new (.detached .emptyMemory)).NeverUnasked parseMetadata firstCall ∧
      (after parseMetadata .emptyMemory firstCall).Begins parseMetadata 1 (.poll 1 []) ∧
      AlwaysComplete parseMetadata .emptyMemory callers (.poll 0 []) 0 ∧
      ¬ AlwaysComplete parseMetadata .emptyMemory firstCall (.poll 1 []) 1 := by
  have hfirst : (new (.detached .emptyMemory)).NeverUnasked parseMetadata callers :=
    neverUnasked_of_unanswered rfl
  have hsecond : (new (.detached .emptyMemory)).NeverUnasked parseMetadata firstCall :=
    neverUnasked_of_unanswered rfl
  have hbegins :
      (after parseMetadata .emptyMemory callers).Begins parseMetadata 0 (.poll 0 []) :=
    ⟨[], .done, rfl, rfl, nofun⟩
  have hoverlaps : (after parseMetadata .emptyMemory firstCall).Begins parseMetadata 1
      (.poll 1 []) := ⟨[], .done, rfl, rfl, nofun⟩
  refine ⟨hfirst, hbegins, hsecond, hoverlaps, ?_, fun hcomplete => ?_⟩
  · exact (complete_iff_settled parseMetadata .emptyMemory hfirst hbegins).2.mpr
      fun _ => rfl
  · have hsettled :=
        (complete_iff_settled parseMetadata .emptyMemory hsecond
          hoverlaps).2.mp hcomplete .name
    revert hsettled
    decide

/-- Two answers to some queries, and none yet to others. -/
def uneven : List Rpc.SystemQuery := [.name, .name, .version, .version, .chain]

def remaining : List Rpc.SystemQuery := [.chain, .properties, .properties, .health, .health]

def overlapping : List (Event (Except SessionError SystemInfo)) :=
  bothCalls ++ uneven.map (systemReply 0)

/-- The node answers every request exactly once, and both calls return before any answer
about the chain's properties or its health. -/
theorem overlapping_returns_incomplete :
    (new (.detached .emptyMemory)).NeverUnasked parseMetadata
        (overlapping ++ remaining.map (systemReply 0)) ∧
      (∀ query, (new (.detached .emptyMemory)).answeredTimes parseMetadata
          (overlapping ++ remaining.map (systemReply 0)) query =
        (new (.detached .emptyMemory)).askedTimes parseMetadata
          (overlapping ++ remaining.map (systemReply 0)) query) ∧
      (after parseMetadata .emptyMemory overlapping).Returns 0 ∧
      (after parseMetadata .emptyMemory overlapping).Returns 1 ∧
      ∀ query ∈ [Rpc.SystemQuery.properties, .health],
        (new (.detached .emptyMemory)).answeredTimes parseMetadata overlapping
          query = 0 := by
  have hcounts : ∀ before ∈ (overlapping ++ remaining.map (systemReply 0)).inits,
      ∀ query ∈ Rpc.SystemQuery.all,
        (new (.detached .emptyMemory)).answeredTimes parseMetadata before query ≤
          (new (.detached .emptyMemory)).askedTimes parseMetadata before query := by
    decide +kernel
  have hlink : (after parseMetadata .emptyMemory bothCalls).session.hasLink 0 = true := rfl
  obtain ⟨-, hjobs, hanswered, -⟩ := run_systemReplies parseMetadata hlink uneven
  have hreturns : ∀ number,
      (after parseMetadata .emptyMemory bothCalls).jobs.lookup number =
        some (.refreshing .done) →
      (after parseMetadata .emptyMemory overlapping).Returns number := by
    intro number hjob
    rw [after, overlapping, run_append]
    refine ⟨.done, hjobs ▸ hjob, ?_⟩
    rw [Session.isRefreshed, after] at *
    rw [hanswered]
    rfl
  refine ⟨?_, ?_, hreturns 0 rfl, hreturns 1 rfl, ?_⟩
  · rintro before after hsplit query
    exact hcounts before ((List.mem_inits _ _).mpr ⟨after, hsplit.symm⟩) query
      (Rpc.SystemQuery.mem_all query)
  · intro query
    cases query <;> decide +kernel
  · decide +kernel

end Client

end ChainClient
