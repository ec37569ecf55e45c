import ChainClient.Proofs.Outcome
import ChainClient.Session.Link

/-! Steps of a session that leave what is known of the runtime alone. -/

namespace ChainClient.Session

variable {session session' : Session}

/-- Neither the version nor the metadata changes, and what was
not ready does not become so. -/
structure Keeps (session session' : Session) : Prop where
  runtimeVersion? : session'.runtimeVersion? = session.runtimeVersion?
  metadata? : session'.metadata? = session.metadata?
  cache : session'.cache = session.cache
  ready : ∀ signingCapable, session'.phase = .ready signingCapable →
    session.phase = .ready signingCapable

theorem Keeps.refl (session : Session) : Keeps session session :=
  ⟨rfl, rfl, rfl, fun _ h => h⟩

theorem Keeps.trans {session'' : Session} (first : Keeps session session')
    (second : Keeps session' session'') : Keeps session session'' where
  runtimeVersion? := second.runtimeVersion?.trans first.runtimeVersion?
  metadata? := second.metadata?.trans first.metadata?
  cache := second.cache.trans first.cache
  ready capable h := first.ready capable (second.ready capable h)

theorem send?_eq_some {request : Request} {effect : Effect}
    (h : session.send? request = some effect) : ∃ link, effect = .send link request := by
  unfold send? at h
  split at h
  case h_1 link _ =>
    split at h
    case isTrue =>
      cases h
      exact ⟨link.number, rfl⟩
    case isFalse => cases h
  case h_2 => cases h

theorem request_eq_ok {id method : String} {params : List Json} {pending : Pending}
    {effect : Effect} (h : session.request id method params pending =
      .ok (session', effect)) :
    session' = { session with pending := Assoc.put id pending session.pending } ∧
      ∃ link, effect = .send link ⟨id, method, params⟩ := by
  unfold request at h
  split at h
  case h_1 sent hsend =>
    cases h
    exact ⟨rfl, send?_eq_some hsend⟩
  case h_2 => cases h

theorem refresh_session {result : Except SessionError (List Effect)}
    (h : session.refresh = (session', result)) :
    session' = { session with answered := 0 } := by
  unfold refresh at h
  dsimp only at h
  split at h <;> cases h <;> rfl

theorem refresh_eq_ok {sent : List Effect} (h : session.refresh = (session', .ok sent)) :
    ∀ effect ∈ sent, ∃ link query, effect = .send link (systemRequest query) := by
  unfold refresh at h
  dsimp only at h
  split at h
  case h_1 found hfound =>
    cases h
    intro effect heffect
    obtain ⟨query, hquery⟩ := exists_of_mem_mapM hfound heffect
    obtain ⟨link, rfl⟩ := send?_eq_some hquery
    exact ⟨link, query, rfl⟩
  case h_2 => cases h

/-! A session that cannot send. -/

def Mute (session : Session) : Prop :=
  ∀ request, session.send? request = none

theorem mute_or_sends (session : Session) :
    session.Mute ∨ ∃ link, ∀ request,
      session.send? request = some (.send link request) := by
  unfold Mute send?
  cases session.link? with
  | none => exact .inl fun _ => rfl
  | some link =>
      cases hlive : link.live with
      | false => exact .inl fun _ => by simp [hlive]
      | true => exact .inr ⟨link.number, fun _ => by simp [hlive]⟩

theorem request_of_mute (h : session.Mute) {id method : String} {params : List Json}
    {pending : Pending} : session.request id method params pending = .error .closed := by
  rw [request, h]

theorem mute_of_request_error {id method : String} {params : List Json} {pending : Pending}
    {error : SessionError} (h : session.request id method params pending = .error error) :
    session.Mute := by
  rcases session.mute_or_sends with hmute | ⟨link, hsends⟩
  · exact hmute
  · rw [request, hsends] at h
    cases h

theorem mute_of_refresh_error {error : SessionError}
    (h : session.refresh = (session', .error error)) : session'.Mute := by
  rcases session.mute_or_sends with hmute | ⟨link, hsends⟩
  · unfold refresh at h
    dsimp only at h
    split at h <;> cases h
    exact hmute
  · have hall : (Rpc.SystemQuery.all.mapM fun query =>
        ({ session with answered := 0 } : Session).send? (systemRequest query)) =
          some (Rpc.SystemQuery.all.map fun query => .send link (systemRequest query)) := by
      change (Rpc.SystemQuery.all.mapM fun query => session.send? (systemRequest query)) = _
      simp only [hsends]
      rfl
    unfold refresh at h
    dsimp only at h
    rw [hall] at h
    cases h

theorem unsubscribe_keeps (session : Session) (id : String) :
    Keeps session (session.unsubscribe id) := ⟨rfl, rfl, rfl, fun _ h => h⟩

/-! The link. -/

theorem beginOpen_keeps (session : Session) : Keeps session session.beginOpen :=
  ⟨rfl, rfl, rfl, nofun⟩

theorem attach_keeps (session : Session) (link : Link) :
    Keeps session (session.attach link).1 := by
  unfold attach
  dsimp only
  split <;> exact ⟨rfl, rfl, rfl, nofun⟩

theorem finishOpen_keeps (session : Session) (link? : Option Link) :
    Keeps session (session.finishOpen link?).1 := by
  cases link? with
  | some link => exact attach_keeps session link
  | none => exact ⟨rfl, rfl, rfl, nofun⟩

theorem close_keeps (session : Session) : Keeps session session.close.1 :=
  ⟨rfl, rfl, rfl, nofun⟩

theorem nodeGone_keeps (session : Session) (number : Nat) :
    Keeps session (session.nodeGone number) := by
  unfold nodeGone
  split
  case isTrue => exact ⟨rfl, rfl, rfl, fun _ h => h⟩
  case isFalse => exact .refl session

theorem linkEnd_keeps (session : Session) (number : Nat) :
    Keeps session (session.linkEnd number) := by
  unfold linkEnd
  split
  case isTrue => exact ⟨rfl, rfl, rfl, nofun⟩
  case isFalse => exact .refl session

end ChainClient.Session
