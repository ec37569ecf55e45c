import ChainClient.Proofs.Assoc
import ChainClient.Proofs.Client.Turn
import ChainClient.Proofs.Session.Arrival

/-! What one event does to a client. -/

namespace ChainClient.Client

variable {α : Type} {parser : MetadataParser} {client : Client α} {event : Event α}

/-- What an event brings that concerns the runtime.  Only
messages over the attached link do. -/
def arrival (client : Client α) : Event α → Arrival
  | .receive link text =>
      if client.session.hasLink link then
        match Message.parse? text with
        | some message => message.arrival
        | none => .other
      else .other
  | _ => .other

/-- Other events than the arrival of a message. -/
theorem step_keeps_of_local (h : ∀ link text, event ≠ .receive link text) :
    Session.Keeps client.session (client.step parser event).1.session := by
  cases event with
  | start number program => exact .refl _
  | poll number draws =>
      change Session.Keeps _ (client.poll number draws).1.session
      unfold poll
      split
      case h_1 job _ => exact Job.poll_keeps job
      case h_2 => exact .refl _
  | dialled number link? =>
      change Session.Keeps _ (client.dialled number link?).1.session
      unfold dialled
      split
      case h_1 job _ => exact Session.finishOpen_keeps _ link?
      case h_2 => exact .refl _
  | cancel number => exact .refl _
  | unsubscribe id => exact Session.unsubscribe_keeps _ id
  | attach link => exact Session.attach_keeps _ link
  | close => exact Session.close_keeps _
  | receive link text => exact absurd rfl (h link text)
  | nodeGone link => exact Session.nodeGone_keeps _ link
  | linkEnd link => exact Session.linkEnd_keeps _ link

theorem arrival_ne_other (h : client.arrival event ≠ .other) :
    ∃ link text message, event = .receive link text ∧ client.session.hasLink link = true ∧
      Message.parse? text = some message ∧ message.arrival = client.arrival event := by
  cases event with
  | receive link text =>
      simp only [arrival] at h ⊢
      split at h
      case isTrue hlink =>
        split at h
        case h_1 message hmessage =>
          exact ⟨link, text, message, rfl, hlink, hmessage, (if_pos hlink).symm⟩
        case h_2 => exact absurd rfl h
      case isFalse => exact absurd rfl h
  | _ => exact absurd rfl h

theorem step_receive {link : Nat} {text : String} {message : Message}
    (hlink : client.session.hasLink link = true)
    (hmessage : Message.parse? text = some message) :
    (client.step parser (.receive link text)).1.session =
      (client.session.route parser message).1 := by
  rw [step, if_pos hlink, Session.receive, hmessage]
  rfl

theorem step_announcement {version : RuntimeVersion}
    (h : client.arrival event = .announcement version) :
    (client.step parser event).1.session = (client.session.announce parser version).1 := by
  obtain ⟨link, text, message, rfl, hlink, hmessage, harrival⟩ :=
    arrival_ne_other (by rw [h]; nofun)
  rw [step_receive hlink hmessage, Session.route_announcement (harrival.trans h)]

theorem step_metadata {result? : Option Json}
    (h : client.arrival event = .metadata result?) :
    (client.step parser event).1.session = client.session.takeMetadata parser result? := by
  obtain ⟨link, text, message, rfl, hlink, hmessage, harrival⟩ :=
    arrival_ne_other (by rw [h]; nofun)
  rw [step_receive hlink hmessage, Session.route_metadata (harrival.trans h)]

theorem step_other (h : client.arrival event = .other) :
    Session.Keeps client.session (client.step parser event).1.session := by
  cases event with
  | receive link text =>
      simp only [arrival] at h
      split at h
      case isTrue hlink =>
        split at h
        case h_1 message hmessage =>
          rw [step_receive hlink hmessage]
          exact Session.route_keeps h
        case h_2 hmessage =>
          rw [step, if_pos hlink, Session.receive, hmessage]
          exact .refl _
      case isFalse hlink =>
        rw [step, if_neg hlink]
        exact .refl _
  | _ => exact step_keeps_of_local nofun

/-! The jobs. -/

variable {P : Job α → Prop} {jobs : List (Nat × Job α)} {number : Nat}

/-- `P` holds of the job of a number, if there is one. -/
def Holds (P : Job α → Prop) (jobs : List (Nat × Job α)) (number : Nat) : Prop :=
  ∀ job, jobs.lookup number = some job → P job

theorem holds_map {f : Job α → Job α} (hf : ∀ job, P job → P (f job))
    (h : Holds P jobs number) :
    Holds P (jobs.map fun (other, job) => (other, f job)) number := by
  intro job hjob
  rw [Assoc.lookup_map, Option.map_eq_some_iff] at hjob
  obtain ⟨old, hold, rfl⟩ := hjob
  exact hf old (h old hold)

theorem holds_foldl_notify (hP : Job.Stable P) (effects : List Effect)
    (h : Holds P jobs number) : Holds P (effects.foldl notify jobs) number := by
  induction effects generalizing jobs with
  | nil => exact h
  | cons effect rest ih =>
      refine ih ?_
      cases effect with
      | send link request => exact h
      | resolve id response =>
          exact holds_map (fun job => hP.resume id (.ok response) job) h
      | abandon id => exact holds_map (fun job => hP.resume id (.error .closed) job) h
      | push listener payload => exact h

theorem holds_put {other : Nat} {job : Job α} (h : Holds P jobs number)
    (hjob : number = other → P job) : Holds P (Assoc.put other job jobs) number := by
  intro found hfound
  rw [Assoc.lookup_put] at hfound
  split at hfound
  case isTrue hother =>
    cases hfound
    exact hjob hother
  case isFalse => exact h found hfound

theorem holds_erase {other : Nat} (h : Holds P jobs number) :
    Holds P (Assoc.erase other jobs) number := by
  intro found hfound
  rw [Assoc.lookup_erase] at hfound
  split at hfound
  case isTrue => cases hfound
  case isFalse => exact h found hfound

/-- A job has turns only when it is polled, so other events preserve what is stable. -/
theorem step_holds (hP : Job.Stable P) (hstart : ∀ program, event ≠ .start number program)
    (hpoll : ∀ draws, event ≠ .poll number draws) (h : Holds P client.jobs number) :
    Holds P (client.step parser event).1.jobs number := by
  cases event with
  | start other program =>
      refine holds_put h fun hother => ?_
      exact absurd (by rw [hother]) (hstart program)
  | poll other draws =>
      change Holds P (client.poll other draws).1.jobs number
      unfold poll
      split
      case h_1 job _ =>
        refine holds_put h fun hother => ?_
        exact absurd (by rw [hother]) (hpoll draws)
      case h_2 => exact h
  | dialled other link? =>
      change Holds P (client.dialled other link?).1.jobs number
      unfold dialled
      split
      case h_1 job hjob =>
        refine holds_put h fun hother => ?_
        subst hother
        exact hP.dialled _ job (h job hjob)
      case h_2 => exact h
  | cancel other => exact holds_erase h
  | unsubscribe id => exact h
  | attach link => exact holds_foldl_notify hP _ h
  | close => exact holds_foldl_notify hP _ h
  | receive link text =>
      rw [step]
      split
      case isTrue => exact holds_foldl_notify hP _ h
      case isFalse => exact h
  | nodeGone link => exact h
  | linkEnd link => exact h

end ChainClient.Client
