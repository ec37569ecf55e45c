import ChainClient.Client
import ChainClient.Proofs.Program.Asks
import ChainClient.Proofs.Session.Keeps

/-! What a job does to its session, and what it asks for, when
it is given the chance to run. -/

namespace ChainClient

/-- Requests are system queries or satisfy `p`. -/
def Effect.Asks (p : String → List Json → Prop) (effect : Effect) : Prop :=
  ∀ link request, effect = .send link request →
    p request.method request.params ∨ ∃ query, request = Session.systemRequest query

namespace Job

variable {α : Type} {p : String → List Json → Prop}

/-- Whatever a job is given, `p` holds of the methods and parameters that it asks with. -/
def Asks (p : String → List Json → Prop) : Job α → Prop
  | .running program => program.Asks p
  | .dialling next => ∀ result, (next result).Asks p
  | .awaiting _ next => ∀ result, (next result).Asks p
  | .refreshing next => ∀ info, (next info).Asks p
  | .finished _ => True

/-- A property of jobs that they keep when they are given what they wait for. -/
structure Stable (P : Job α → Prop) : Prop where
  resume : ∀ id result job, P job → P (job.resume id result)
  dialled : ∀ result job, P job → P (job.dialled result)

theorem asks_stable : Stable (Asks p : Job α → Prop) where
  resume id result job h := by
    unfold resume
    split
    case h_1 awaited next =>
      split
      case isTrue => exact h result
      case isFalse => exact h
    case h_2 => exact h
  dialled result job h := by
    unfold dialled
    split
    case h_1 next => exact h result
    case h_2 => exact h

end Job

/-- `P` holds of the session that a turn leaves, and `Q` of its effects. -/
structure Turn.Within {α : Type} (P : Session → Prop) (Q : Effect → Prop) (turn : Turn α) :
    Prop where
  session : P turn.session
  effects : ∀ effect ∈ turn.effects, Q effect

namespace Job

variable {α : Type} {P : Session → Prop} {Q : Effect → Prop}

/-- Each thing that a job can do to its session preserves `P`, and
has effects of which `Q` holds. -/
structure Permits (P : Session → Prop) (Q : Effect → Prop) : Prop where
  beginOpen : ∀ session, P session → P session.beginOpen
  request : ∀ (session : Session) id kind, P session →
    P { session with pending := Assoc.put id kind session.pending }
  refresh : ∀ session : Session, P session → P { session with answered := 0 }
  send : ∀ link request, Q (.send link request)

variable {listener : Listener} {draws : List UInt64} {session : Session}

theorem run_within (hpermits : Permits P Q) (program : Program α) (h : P session) :
    Turn.Within P Q (run listener draws session program) := by
  have hquiet : ∀ {session : Session} {job : Job α}, P session →
      Turn.Within P Q ⟨session, job, []⟩ := fun h => ⟨h, fun _ h => nomatch h⟩
  have hsends : ∀ {session session' : Session} {id method params kind sent} {job : Job α},
      session.request id method params kind = .ok (session', sent) → P session →
        Turn.Within P Q ⟨session', job, [sent]⟩ := by
    intro _ _ _ _ _ _ _ _ hsent h
    obtain ⟨rfl, link, rfl⟩ := Session.request_eq_ok hsent
    refine ⟨hpermits.request _ _ _ h, fun effect hmem => ?_⟩
    rw [List.mem_singleton.mp hmem]
    exact hpermits.send link _
  induction program generalizing draws session with
  | done outcome => exact hquiet h
  | dial url next ih => exact hquiet (hpermits.beginOpen session h)
  | call method params next ih =>
      unfold run
      split
      case h_1 => exact hquiet h
      case h_2 =>
        split
        case h_1 hsent => exact hsends hsent h
        case h_2 => exact ih _ h
  | subscribe method params next ih =>
      unfold run
      split
      case h_1 => exact hquiet h
      case h_2 =>
        split
        case h_1 hsent => exact hsends hsent h
        case h_2 => exact ih _ h
  | refresh next ih =>
      have hrefreshed := hpermits.refresh session h
      unfold run
      split
      case h_1 session' sent hrefresh =>
        obtain rfl := Session.refresh_session hrefresh
        refine ⟨hrefreshed, fun effect hmem => ?_⟩
        obtain ⟨link, query, rfl⟩ := Session.refresh_eq_ok hrefresh effect hmem
        exact hpermits.send link _
      case h_2 session' error hrefresh =>
        obtain rfl := Session.refresh_session hrefresh
        exact ih _ hrefreshed
  | runtimeVersion next ih =>
      unfold run
      split
      case h_1 => exact ih _ h
      case h_2 => exact hquiet h
  | metadata next ih =>
      unfold run
      split
      case h_1 => exact ih _ h
      case h_2 => exact hquiet h

/-- What a job goes on with when it is given the chance to run. -/
def current? (session : Session) : Job α → Option (Program α)
  | .running program => some program
  | .refreshing next =>
      if session.isRefreshed then some (next (.ok session.systemInfo)) else none
  | _ => none

theorem poll_eq (listener : Listener) (draws : List UInt64) (session : Session)
    (job : Job α) :
    job.poll listener draws session =
      match job.current? session with
      | some program => run listener draws session program
      | none => ⟨session, job, []⟩ := by
  cases job with
  | refreshing next =>
      cases hrefreshed : session.isRefreshed with
      | true => simp only [poll, current?, hrefreshed, if_true]
      | false => simp only [poll, current?, hrefreshed, Bool.false_eq_true, if_false]
  | _ => rfl

theorem poll_within (hpermits : Permits P Q) (job : Job α) (h : P session) :
    Turn.Within P Q (job.poll listener draws session) := by
  rw [poll_eq]
  split
  case h_1 program _ => exact run_within hpermits program h
  case h_2 => exact ⟨h, fun _ h => nomatch h⟩

theorem permits_keeps (session : Session) :
    Permits (Session.Keeps session) (fun _ => True) where
  beginOpen session' h := h.trans (Session.beginOpen_keeps session')
  request _ _ _ h := h.trans ⟨rfl, rfl, rfl, fun _ h => h⟩
  refresh _ h := h.trans ⟨rfl, rfl, rfl, fun _ h => h⟩
  send _ _ := trivial

theorem poll_keeps (job : Job α) :
    Session.Keeps session (job.poll listener draws session).session :=
  (poll_within (permits_keeps session) job (.refl session)).session

end Job

/-! A job asks for no more than its program does. -/

/-- The job that a turn ends with asks for no more than `p`, and neither do its effects. -/
structure Turn.Asks {α : Type} (p : String → List Json → Prop) (turn : Turn α) : Prop where
  job : turn.job.Asks p
  effects : ∀ effect ∈ turn.effects, effect.Asks p

namespace Job

variable {α : Type} {p : String → List Json → Prop} {listener : Listener}
  {draws : List UInt64} {session : Session}

theorem turn_asks_of_quiet {job : Job α} (h : job.Asks p) :
    Turn.Asks p ⟨session, job, []⟩ :=
  ⟨h, fun _ h => nomatch h⟩

theorem turn_asks_of_request {session' : Session} {id method : String} {params : List Json}
    {pending : Pending} {sent : Effect} {job : Job α} (hjob : job.Asks p)
    (hparams : p method params)
    (hsent : session.request id method params pending = .ok (session', sent)) :
    Turn.Asks p ⟨session', job, [sent]⟩ := by
  refine ⟨hjob, fun effect heffect link request hrequest => .inl ?_⟩
  obtain ⟨-, link, rfl⟩ := Session.request_eq_ok hsent
  rw [List.mem_singleton.mp heffect] at hrequest
  cases hrequest
  exact hparams

theorem run_asks (listener : Listener) (draws : List UInt64) (session : Session)
    {program : Program α} (h : program.Asks p) :
    Turn.Asks p (run listener draws session program) := by
  induction program generalizing draws session with
  | done outcome => exact turn_asks_of_quiet trivial
  | dial url next ih => exact turn_asks_of_quiet h
  | call method params next ih =>
      unfold run
      split
      case h_1 => exact turn_asks_of_quiet h
      case h_2 id rest _ =>
        split
        case h_1 session' sent hsent => exact turn_asks_of_request h.2 h.1 hsent
        case h_2 => exact ih _ _ _ (h.2 _)
  | subscribe method params next ih =>
      unfold run
      split
      case h_1 => exact turn_asks_of_quiet h
      case h_2 id rest _ =>
        split
        case h_1 session' sent hsent => exact turn_asks_of_request h.2 h.1 hsent
        case h_2 => exact ih _ _ _ (h.2 _)
  | refresh next ih =>
      unfold run
      split
      case h_1 session' sent hrefresh =>
        refine ⟨h, fun effect heffect link request hrequest => .inr ?_⟩
        obtain ⟨number, query, rfl⟩ := Session.refresh_eq_ok hrefresh effect heffect
        cases hrequest
        exact ⟨query, rfl⟩
      case h_2 => exact ih _ _ _ (h _)
  | runtimeVersion next ih =>
      unfold run
      split
      case h_1 => exact ih _ _ _ (h _)
      case h_2 => exact turn_asks_of_quiet h
  | metadata next ih =>
      unfold run
      split
      case h_1 => exact ih _ _ _ (h _)
      case h_2 => exact turn_asks_of_quiet h

theorem poll_asks {job : Job α} (h : job.Asks p) :
    Turn.Asks p (job.poll listener draws session) := by
  unfold poll
  split
  case h_1 program => exact run_asks _ _ _ h
  case h_2 next =>
    split
    case isTrue => exact run_asks _ _ _ (h _)
    case isFalse => exact turn_asks_of_quiet h
  case h_3 => exact turn_asks_of_quiet h

end Job

end ChainClient
