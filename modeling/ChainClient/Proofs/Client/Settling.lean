import ChainClient.Proofs.Client.Calls

/-! What one event does to each call, and to the job that waits for it. -/

namespace ChainClient

/-- What ids of calls can be made of at an event. -/
def Event.draws {α : Type} : Event α → List UInt64
  | .poll _ draws => draws
  | _ => []

namespace Client

variable {α : Type} {parser : MetadataParser} {client : Client α}
  {jobs : List (Nat × Job α)}

/-- The ids under which calls are sent at an event. -/
def called (parser : MetadataParser) (client : Client α) (event : Event α) : List String :=
  (client.step parser event).2.filterMap Effect.called?

/-- A request of a kind is sent under this id. -/
def Sends (parser : MetadataParser) (client : Client α) (event : Event α) (id : String)
    (kind : Pending) : Prop :=
  id ∈ client.called parser event ∧ client.requests? event = some kind

/-- The event leaves no call under this id: it is an answer to it, or drops all calls. -/
def Settles (client : Client α) (event : Event α) (id : String) : Prop :=
  event = .close ∨ ∃ message, client.routed? event = some message ∧ message.Answers id

/-! One step. -/

section Step

variable {event : Event α} {id : String}

theorem filterMap_called?_aside {effects : List Effect}
    (h : ∀ effect ∈ effects, effect.Aside) : effects.filterMap Effect.called? = [] := by
  rw [List.filterMap_eq_nil_iff]
  intro effect heffect
  cases h effect heffect with
  | send hfixed => exact if_pos hfixed
  | push => rfl

theorem filterMap_resolved?_aside {effects : List Effect}
    (h : ∀ effect ∈ effects, effect.Aside) : effects.filterMap Effect.resolved? = [] := by
  rw [List.filterMap_eq_nil_iff]
  intro effect heffect
  cases h effect heffect with
  | send => rfl
  | push => rfl

theorem not_mem_fixedIds_of_drawn {draws : List UInt64}
    (h : id ∈ draws.map Session.idOfDraw) : id ∉ Rpc.fixedIds := by
  obtain ⟨draw, -, rfl⟩ := List.mem_map.mp h
  exact Session.idOfDraw_not_mem_fixedIds draw

theorem called_of_send {draws : List UInt64} (hdrawn : id ∈ draws.map Session.idOfDraw)
    (heffects : ∃ link request, (client.step parser event).2 = [.send link request] ∧
      request.id = id) :
    client.called parser event = [id] ∧
      (client.step parser event).2.filterMap Effect.resolved? = [] := by
  obtain ⟨link, request, heffects, rfl⟩ := heffects
  rw [called, heffects]
  exact ⟨List.filterMap_cons_some (if_neg (not_mem_fixedIds_of_drawn hdrawn)), rfl⟩

theorem called_close : client.called parser .close = [] := by
  change (client.session.pending.map _).filterMap Effect.called? = []
  rw [List.filterMap_map, List.filterMap_eq_nil_iff]
  exact fun _ _ => rfl

theorem resolved?_close :
    (client.step parser .close).2.filterMap Effect.resolved? = [] := by
  change (client.session.pending.map _).filterMap Effect.resolved? = []
  rw [List.filterMap_map, List.filterMap_eq_nil_iff]
  exact fun _ _ => rfl

theorem answers_unique {message : Message} {other : String} (h : message.Answers id)
    (hother : message.Answers other) : id = other :=
  Option.some.inj (h.1.symm.trans hother.1)

theorem settles_iff {message : Message} {answered : String}
    (hmessage : client.routed? event = some message) (hanswers : message.Answers answered) :
    client.Settles event id ↔ id = answered := by
  constructor
  · rintro (rfl | ⟨other, hother, h⟩)
    · cases hmessage
    · obtain rfl := Option.some.inj (hmessage.symm.trans hother)
      exact answers_unique h hanswers
  · rintro rfl
    exact .inr ⟨message, hmessage, hanswers⟩

theorem step_lookup (parser : MetadataParser) (hdrawn : client.session.CallsDrawn)
    (event : Event α) (id : String) (kind : Pending) :
    (client.step parser event).1.session.pending.lookup id = some kind ↔
      client.Sends parser event id kind ∨
        client.session.pending.lookup id = some kind ∧ ¬ client.Settles event id := by
  unfold Sends
  cases step_moves parser hdrawn event with
  | @call number draws made sent next hevent hkind hfresh hmade hpending heffects hjobs =>
      have hcalled := (called_of_send hmade heffects).1
      have hsettles : ¬ client.Settles event id := by
        subst hevent
        rintro (h | ⟨message, h, -⟩) <;> cases h
      rw [hpending, Assoc.lookup_put, hcalled, hkind, List.mem_singleton]
      by_cases hid : id = made <;> simp [hid, hfresh, hsettles]
  | @resolve message answered sent hmessage hanswers hcalled hpending heffects hjobs =>
      have hnone : client.called parser event = [] := by
        rw [called, heffects]
        rfl
      rw [hpending, Assoc.lookup_erase, hnone, settles_iff hmessage hanswers]
      by_cases hid : id = answered <;> simp [hid]
  | close hevent =>
      subst hevent
      rw [called_close]
      have hsettles : client.Settles .close id := .inl rfl
      simp [hsettles, step, Session.close, follow]
  | spare hevent hanswers hspares hjobs =>
      rw [hspares.pending, called, filterMap_called?_aside hspares.effects]
      constructor
      · intro hcalled
        refine .inr ⟨hcalled, ?_⟩
        rintro (h | ⟨message, hmessage, h⟩)
        · exact hevent h
        · rw [hanswers message id hmessage h] at hcalled
          cases hcalled
      · rintro (⟨h, -⟩ | ⟨hcalled, -⟩)
        · cases h
        · exact hcalled

theorem exists_sends_iff (parser : MetadataParser) (hdrawn : client.session.CallsDrawn)
    (event : Event α) (id : String) :
    (∃ kind, client.Sends parser event id kind) ↔ id ∈ client.called parser event := by
  refine ⟨fun ⟨_, h⟩ => h.1, fun h => ?_⟩
  cases step_moves parser hdrawn event with
  | call hevent hkind hfresh hmade hpending heffects hjobs => exact ⟨_, h, hkind⟩
  | resolve hmessage hanswers hcalled hpending heffects hjobs =>
      rw [called, heffects] at h
      cases h
  | close hevent =>
      rw [hevent, called_close] at h
      cases h
  | spare hevent hanswers hspares hjobs =>
      rw [called, filterMap_called?_aside hspares.effects] at h
      cases h

theorem step_pending (parser : MetadataParser) (hdrawn : client.session.CallsDrawn)
    (event : Event α) (id : String) :
    ((client.step parser event).1.session.pending.lookup id).isSome ↔
      id ∈ client.called parser event ∨
        (client.session.pending.lookup id).isSome ∧ ¬ client.Settles event id := by
  simp only [Option.isSome_iff_exists, step_lookup parser hdrawn, exists_or,
    exists_and_right, exists_sends_iff parser hdrawn]

theorem step_resolves (parser : MetadataParser) (hdrawn : client.session.CallsDrawn)
    (event : Event α) (id : String) (response : Response) :
    .resolve id response ∈ (client.step parser event).2 ↔
      (client.session.pending.lookup id).isSome ∧
        ∃ message, client.routed? event = some message ∧ message.Answers id ∧
          message.response = response := by
  cases step_moves parser hdrawn event with
  | @call number draws made kind next hevent hkind hfresh hmade hpending heffects hjobs =>
      obtain ⟨link, request, heffects, -⟩ := heffects
      subst hevent
      rw [heffects]
      constructor
      · intro h
        cases List.mem_singleton.mp h
      · rintro ⟨-, message, hmessage, -⟩
        cases hmessage
  | @resolve message answered kind hmessage hanswers hcalled hpending heffects hjobs =>
      rw [heffects, List.mem_singleton]
      constructor
      · rintro ⟨⟩
        exact ⟨by rw [hcalled]; rfl, message, hmessage, hanswers, rfl⟩
      · rintro ⟨-, other, hother, h, rfl⟩
        obtain rfl := Option.some.inj (hmessage.symm.trans hother)
        rw [answers_unique h hanswers]
  | close hevent =>
      subst hevent
      constructor
      · intro h
        obtain ⟨entry, -, hentry⟩ := List.mem_map.mp h
        cases hentry
      · rintro ⟨-, message, hmessage, -⟩
        cases hmessage
  | spare hevent hanswers hspares hjobs =>
      constructor
      · intro h
        cases hspares.effects _ h
      · rintro ⟨hcalled, message, hmessage, h, -⟩
        rw [hanswers message id hmessage h] at hcalled
        cases hcalled

theorem called_sublist (parser : MetadataParser) (hdrawn : client.session.CallsDrawn)
    (event : Event α) :
    (client.called parser event).Sublist (event.draws.map Session.idOfDraw) := by
  cases step_moves parser hdrawn event with
  | call hevent hkind hfresh hmade hpending heffects hjobs =>
      rw [(called_of_send hmade heffects).1, hevent]
      exact List.singleton_sublist.mpr hmade
  | resolve hmessage hanswers hcalled hpending heffects hjobs =>
      rw [called, heffects]
      exact List.nil_sublist _
  | close hevent =>
      subst hevent
      rw [called_close]
      exact List.nil_sublist _
  | spare hevent hanswers hspares hjobs =>
      rw [called, filterMap_called?_aside hspares.effects]
      exact List.nil_sublist _

/-- What is resolved at a step has been called and is no longer pending. -/
theorem step_count (parser : MetadataParser) (hdrawn : client.session.CallsDrawn)
    (event : Event α) (id : String) :
    ((client.step parser event).2.filterMap Effect.resolved?).count id +
        ((client.step parser event).1.session.pending.lookup id).isSome.toNat ≤
      (client.called parser event).count id +
        (client.session.pending.lookup id).isSome.toNat := by
  cases step_moves parser hdrawn event with
  | @call number draws made kind next hevent hkind hfresh hmade hpending heffects hjobs =>
      obtain ⟨hcalled, hresolved⟩ := called_of_send hmade heffects
      rw [hpending, hcalled, hresolved, Assoc.lookup_put]
      by_cases hid : id = made
      · simp [hid, hfresh]
      · simp [hid, Ne.symm hid]
  | @resolve message answered kind hmessage hanswers hcalled hpending heffects hjobs =>
      rw [hpending, heffects, Assoc.lookup_erase]
      by_cases hid : id = answered
      · simp [hid, Effect.resolved?, hcalled]
      · simp [hid, Effect.resolved?, Ne.symm hid]
  | close hevent =>
      subst hevent
      rw [resolved?_close]
      simp [step, Session.close, follow]
  | spare hevent hanswers hspares hjobs =>
      rw [hspares.pending, filterMap_resolved?_aside hspares.effects]
      simp

end Step

/-! Jobs that wait. -/

section Waiting

variable {number : Nat} {id : String} {next : Except SessionError Response → Program α}

theorem resume_eq_awaiting {job : Job α} {result : Except SessionError Response}
    {other : String} (h : job.resume other result = .awaiting id next) :
    job = .awaiting id next ∧ other ≠ id := by
  unfold Job.resume at h
  split at h
  case h_1 awaited waiting =>
    split at h
    case isTrue => cases h
    case isFalse hne =>
      cases h
      exact ⟨rfl, Ne.symm hne⟩
  case h_2 hother =>
    subst h
    exact absurd rfl (hother id next)

/-- Whoever still waits after an effect is not the one that it wakes. -/
theorem awaiting_of_notify {effect : Effect}
    (h : (notify jobs effect).lookup number = some (.awaiting id next)) :
    jobs.lookup number = some (.awaiting id next) ∧ effect.wakes? ≠ some id := by
  cases effect with
  | send | push => exact ⟨h, nofun⟩
  | resolve other response =>
      rw [notify, Assoc.lookup_map, Option.map_eq_some_iff] at h
      obtain ⟨job, hjob, hresume⟩ := h
      obtain ⟨rfl, hne⟩ := resume_eq_awaiting hresume
      exact ⟨hjob, fun hsame => hne (Option.some.inj hsame)⟩
  | abandon other =>
      rw [notify, Assoc.lookup_map, Option.map_eq_some_iff] at h
      obtain ⟨job, hjob, hresume⟩ := h
      obtain ⟨rfl, hne⟩ := resume_eq_awaiting hresume
      exact ⟨hjob, fun hsame => hne (Option.some.inj hsame)⟩

theorem awaiting_of_foldl_notify {effects : List Effect}
    (h : (effects.foldl notify jobs).lookup number = some (.awaiting id next)) :
    jobs.lookup number = some (.awaiting id next) ∧
      ∀ effect ∈ effects, effect.wakes? ≠ some id := by
  induction effects generalizing jobs with
  | nil => exact ⟨h, nofun⟩
  | cons effect rest ih =>
      obtain ⟨hrest, hasleep⟩ := ih h
      obtain ⟨hjob, hne⟩ := awaiting_of_notify hrest
      exact ⟨hjob, List.forall_mem_cons.mpr ⟨hne, hasleep⟩⟩

theorem lookup_notify_resolve {response : Response}
    (h : jobs.lookup number = some (.awaiting id next)) :
    (notify jobs (.resolve id response)).lookup number =
      some (.running (next (.ok response))) := by
  rw [notify, Assoc.lookup_map, h]
  exact congrArg some (if_pos rfl)

theorem lookup_of_resolve {event : Event α} {response : Response}
    (hdrawn : client.session.CallsDrawn)
    (hresolve : .resolve id response ∈ (client.step parser event).2)
    (hjob : client.jobs.lookup number = some (.awaiting id next)) :
    (client.step parser event).1.jobs.lookup number =
      some (.running (next (.ok response))) := by
  cases step_moves parser hdrawn event with
  | call hevent hkind hfresh hmade hpending heffects hjobs =>
      obtain ⟨link, request, heffects, -⟩ := heffects
      rw [heffects] at hresolve
      cases List.mem_singleton.mp hresolve
  | resolve hmessage hanswers hcalled hpending heffects hjobs =>
      rw [heffects] at hresolve
      cases List.mem_singleton.mp hresolve
      rw [hjobs]
      exact lookup_notify_resolve hjob
  | close hevent =>
      subst hevent
      obtain ⟨entry, -, hentry⟩ := List.mem_map.mp hresolve
      cases hentry
  | spare hevent hanswers hspares hjobs => cases hspares.effects _ hresolve

/-- Every job that waits has a pending call, and no two of them wait for one call. -/
structure Orderly (client : Client α) : Prop where
  drawn : client.session.CallsDrawn
  called : ∀ number id, client.Awaits number id → (client.session.pending.lookup id).isSome
  alone : ∀ number other id,
    client.Awaits number id → client.Awaits other id → other = number

/-- Nobody begins to wait. -/
theorem Orderly.of_awaits {client' : Client α} (h : client.Orderly)
    (hdrawn : client'.session.CallsDrawn)
    (hawaits : ∀ number id, client'.Awaits number id →
      client.Awaits number id ∧ (client'.session.pending.lookup id).isSome) :
    client'.Orderly where
  drawn := hdrawn
  called number id hawait := (hawaits number id hawait).2
  alone number other id hawait hother :=
    h.alone number other id (hawaits number id hawait).1 (hawaits other id hother).1

theorem Orderly.of_call {client' : Client α} {made : String} {kind : Pending}
    (h : client.Orderly) (hfresh : client.session.pending.lookup made = none)
    (hmade : made ∉ Rpc.fixedIds)
    (hpending : client'.session.pending = Assoc.put made kind client.session.pending)
    (hjobs : client'.jobs = Assoc.put number (.awaiting made next) client.jobs) :
    client'.Orderly := by
  have hawaits : ∀ other id, client'.Awaits other id →
      (other = number ∧ id = made) ∨ (client.Awaits other id ∧ id ≠ made) := by
    rintro other id ⟨next', hother⟩
    rw [hjobs, Assoc.lookup_put] at hother
    split at hother
    case isTrue hnumber =>
      cases hother
      exact .inl ⟨hnumber, rfl⟩
    case isFalse =>
      -- Nobody waits for the new id yet: whoever waits has a pending call.
      refine .inr ⟨⟨next', hother⟩, ?_⟩
      rintro rfl
      have hcalled := h.called other _ ⟨next', hother⟩
      rw [hfresh] at hcalled
      cases hcalled
  constructor
  case drawn =>
    intro fixed hfixed
    rw [hpending, Assoc.lookup_put, if_neg]
    · exact h.drawn fixed hfixed
    · rintro rfl
      exact hmade hfixed
  case called =>
    intro other id hother
    rw [hpending, Assoc.lookup_put]
    rcases hawaits other id hother with ⟨-, rfl⟩ | ⟨hbefore, hne⟩
    · rw [if_pos rfl]
      rfl
    · rw [if_neg hne]
      exact h.called other id hbefore
  case alone =>
    intro first second id hfirst hsecond
    rcases hawaits first id hfirst with ⟨rfl, rfl⟩ | ⟨hbefore, hne⟩
    · rcases hawaits second _ hsecond with ⟨rfl, -⟩ | ⟨-, hne⟩
      · rfl
      · exact absurd rfl hne
    · rcases hawaits second id hsecond with ⟨-, hmade⟩ | ⟨hbefore', -⟩
      · exact absurd hmade hne
      · exact h.alone first second id hbefore hbefore'

theorem Orderly.step (h : client.Orderly) (parser : MetadataParser) (event : Event α) :
    (client.step parser event).1.Orderly := by
  cases step_moves parser h.drawn event with
  | call hevent hkind hfresh hmade hpending heffects hjobs =>
      exact h.of_call hfresh (not_mem_fixedIds_of_drawn hmade) hpending hjobs
  | @resolve message answered kind hmessage hanswers hcalled hpending heffects hjobs =>
      refine h.of_awaits (fun fixed hfixed => ?_) ?_
      · rw [hpending, Assoc.lookup_erase, h.drawn fixed hfixed]
        exact ite_self none
      · rintro number id ⟨next, hjob⟩
        rw [hjobs] at hjob
        obtain ⟨hbefore, hne⟩ := awaiting_of_notify hjob
        have hid : id ≠ answered := fun hsame => hne (congrArg some hsame.symm)
        rw [hpending, Assoc.lookup_erase, if_neg hid]
        exact ⟨⟨next, hbefore⟩, h.called number id ⟨next, hbefore⟩⟩
  | close hevent =>
      subst hevent
      refine h.of_awaits (fun _ _ => rfl) ?_
      rintro number id ⟨next, hjob⟩
      -- Nobody waits after a close, since every pending call is abandoned.
      obtain ⟨hbefore, hasleep⟩ := awaiting_of_foldl_notify hjob
      obtain ⟨kind, hcalled⟩ :=
        Option.isSome_iff_exists.mp (h.called number id ⟨next, hbefore⟩)
      obtain ⟨_, _, hentries, _⟩ := List.lookup_eq_some_iff.mp hcalled
      have habandon : Effect.abandon id ∈ client.session.close.2 :=
        List.mem_map.mpr ⟨(id, kind), by simp [hentries], rfl⟩
      exact absurd rfl (hasleep _ habandon)
  | spare hevent hanswers hspares hjobs =>
      refine h.of_awaits (fun fixed hfixed => ?_) fun number id hawait => ?_
      · rw [hspares.pending]
        exact h.drawn fixed hfixed
      · rw [hspares.pending]
        exact ⟨hjobs number id hawait, h.called number id (hjobs number id hawait)⟩

end Waiting

end Client

end ChainClient
