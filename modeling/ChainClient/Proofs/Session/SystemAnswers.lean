import ChainClient.Proofs.Session.Arrival

/-! What a session does with answers to system queries, and what leaves them alone. -/

namespace ChainClient

theorem Rpc.SystemQuery.ofId?_id (query : Rpc.SystemQuery) :
    ofId? query.id = some query := by
  cases query <;> decide

theorem Rpc.SystemQuery.mem_all (query : Rpc.SystemQuery) : query ∈ all := by
  cases query <;> decide

/-- The system query that a message answers, and the answer. -/
def Message.systemAnswer? (message : Message) : Option (Rpc.SystemQuery × Json) :=
  (message.id?.bind Rpc.SystemQuery.ofId?).map fun query =>
    (query, message.result?.getD .null)

/-- The system query that is asked. -/
def Effect.systemQuery? : Effect → Option Rpc.SystemQuery
  | .send _ request => Rpc.SystemQuery.ofId? request.id
  | _ => none

namespace Session

variable {parser : MetadataParser} {session session' : Session}

/-- The answers, and how many have come since they were last asked for. -/
def tally (session : Session) : List (Rpc.SystemQuery × Json) × Nat :=
  (session.answers, session.answered)

theorem attach_tally (session : Session) (link : Link) :
    (session.attach link).1.tally = session.tally := by
  unfold attach
  dsimp only
  split <;> rfl

theorem finishOpen_tally (session : Session) (link? : Option Link) :
    (session.finishOpen link?).1.tally = session.tally := by
  cases link? with
  | none => rfl
  | some link => exact attach_tally session link

theorem nodeGone_tally (session : Session) (number : Nat) :
    (session.nodeGone number).tally = session.tally := by
  unfold nodeGone
  split <;> rfl

theorem linkEnd_tally (session : Session) (number : Nat) :
    (session.linkEnd number).tally = session.tally := by
  unfold linkEnd
  split <;> rfl

theorem announce_tally (session : Session) (version : RuntimeVersion) :
    (session.announce parser version).1.tally = session.tally := by
  unfold announce
  dsimp only
  split <;> rfl

theorem takeMetadata_tally (session : Session) (result? : Option Json) :
    (session.takeMetadata parser result?).tally = session.tally := by
  unfold takeMetadata
  split
  case h_1 text =>
    split
    case h_1 =>
      unfold file
      cases session.runtimeVersion? <;> rfl
    case h_2 => rfl
  case h_2 => rfl

theorem resolve_tally (session : Session) (id : String) (pending : Pending)
    (response : Response) :
    (session.resolve id pending response).1.tally = session.tally := by
  unfold resolve register
  cases pending with
  | call => rfl
  | subscribe listener => cases response.result?.bind idText? <;> rfl

theorem route_tally {message : Message} (h : message.systemAnswer? = none) :
    (session.route parser message).1.tally = session.tally := by
  rw [Message.systemAnswer?, Option.map_eq_none_iff] at h
  simp only [route, h]
  split
  case isTrue =>
    split
    case h_1 version _ => exact announce_tally session version
    case h_2 => rfl
  case isFalse =>
    split
    case isTrue => rfl
    case isFalse =>
      split
      case isTrue => exact takeMetadata_tally session message.result?
      case isFalse =>
        split
        case h_1 id pending _ => exact resolve_tally session id pending message.response
        case h_2 => split <;> rfl

theorem route_systemAnswer {message : Message} {query : Rpc.SystemQuery} {answer : Json}
    (h : message.systemAnswer? = some (query, answer)) :
    session.route parser message =
      ({ session with
          answers := Assoc.put query answer session.answers
          answered := session.answered + 1 }, []) := by
  obtain ⟨found, hfound, hanswer⟩ := Option.map_eq_some_iff.mp h
  cases hanswer
  simp only [route, hfound]
  rfl

/-! Asking them. -/

theorem sends_of_send? {request : Request} {effect : Effect}
    (h : session.send? request = some effect) :
    ∃ link, session.hasLink link = true ∧
      ∀ request, session.send? request = some (.send link request) := by
  unfold send? at h ⊢
  split at h
  case h_1 link hlink =>
    split at h
    case isTrue hlive =>
      refine ⟨link.number, by simp [hasLink, hlink], fun request => ?_⟩
      simp only [if_pos hlive]
    case isFalse => cases h
  case h_2 => cases h

theorem refresh_sends {sent : List Effect} (h : session.refresh = (session', .ok sent)) :
    ∃ link, session'.hasLink link = true ∧
      sent = Rpc.SystemQuery.all.map fun query => .send link (systemRequest query) := by
  obtain rfl := refresh_session h
  unfold refresh at h
  dsimp only at h
  split at h
  case h_1 found hfound =>
    cases h
    obtain ⟨first, hfirst, -⟩ := Option.bind_eq_some_iff.mp hfound
    obtain ⟨link, hlink, hsends⟩ := sends_of_send? hfirst
    refine ⟨link, hlink, ?_⟩
    simp only [hsends] at hfound
    exact (Option.some.inj hfound).symm
  case h_2 => cases h

theorem systemQuery?_systemRequest (link : Nat) (query : Rpc.SystemQuery) :
    Effect.systemQuery? (.send link (systemRequest query)) = some query :=
  Rpc.SystemQuery.ofId?_id query

end Session

end ChainClient
