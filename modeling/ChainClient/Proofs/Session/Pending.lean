import ChainClient.Proofs.Session.Keeps
import ChainClient.Proofs.Text.Hex
import ChainClient.Session.Receive

/-! The calls and subscriptions of a session, and what each message does to them. -/

namespace ChainClient

/-- Announcements of a version are no answers, whatever id they carry. -/
def Message.Answers (message : Message) (id : String) : Prop :=
  message.id? = some id ∧ message.method? ≠ some Rpc.runtimeVersionPush

namespace Effect

/-- The id of the call that is sent.  Requests under a fixed id are no calls. -/
def called? : Effect → Option String
  | .send _ request => if request.id ∈ Rpc.fixedIds then none else some request.id
  | _ => none

def resolved? : Effect → Option String
  | .resolve id _ => some id
  | _ => none

/-- The call whose caller is told what has become of it. -/
def wakes? : Effect → Option String
  | .resolve id _ | .abandon id => some id
  | _ => none

/-- What a listener is given. -/
def pushed? : Effect → Option (Listener × Json)
  | .push listener payload => some (listener, payload)
  | _ => none

/-- What concerns no call. -/
inductive Aside : Effect → Prop
  | send {link : Nat} {request : Request} (hfixed : request.id ∈ Rpc.fixedIds) :
      Aside (.send link request)
  | push (listener : Listener) (payload : Json) : Aside (.push listener payload)

end Effect

namespace Session

variable {parser : MetadataParser} {session session' : Session} {id : String}
  {effects : List Effect}

/-! Ids. -/

theorem length_idOfDraw (draw : UInt64) : (idOfDraw draw).toList.length = 16 := by
  simp [idOfDraw, Hex.encode, Hex.length_digits]

theorem idOfDraw_not_mem_fixedIds (draw : UInt64) : idOfDraw draw ∉ Rpc.fixedIds := by
  intro hfixed
  have hlengths : ∀ id ∈ Rpc.fixedIds, id.toList.length ≠ 16 := by decide
  exact hlengths _ hfixed (length_idOfDraw draw)

theorem idOfDraw_injective : Function.Injective idOfDraw := by
  intro draw draw' h
  have hbytes := congrArg Hex.decode h
  simp only [idOfDraw, Hex.decode_encode, Except.ok.injEq, List.reverse_inj] at hbytes
  have hnumbers := congrArg Bytes.toNatLE hbytes
  rw [Bytes.toNatLE_ofNatLE, Bytes.toNatLE_ofNatLE] at hnumbers
  have hlt := draw.toNat_lt
  have hlt' := draw'.toNat_lt
  apply UInt64.toNat_inj.mp
  omega

theorem freshId?_eq_some {draws rest : List UInt64}
    (h : session.freshId? draws = some (id, rest)) :
    session.pending.lookup id = none ∧ id ∈ draws.map idOfDraw := by
  induction draws with
  | nil => cases h
  | cons draw draws ih =>
      unfold freshId? at h
      split at h
      case isTrue =>
        obtain ⟨hfresh, hmem⟩ := ih h
        exact ⟨hfresh, List.mem_cons_of_mem _ hmem⟩
      case isFalse hfree =>
        cases h
        exact ⟨Option.not_isSome_iff_eq_none.mp hfree, List.mem_cons_self⟩

/-- No call has one of the fixed ids. -/
def CallsDrawn (session : Session) : Prop :=
  ∀ id ∈ Rpc.fixedIds, session.pending.lookup id = none

/-! What leaves the calls alone. -/

structure Spares (session session' : Session) (effects : List Effect) : Prop where
  pending : session'.pending = session.pending
  effects : ∀ effect ∈ effects, effect.Aside

theorem spares_silent (h : session'.pending = session.pending) :
    Spares session session' [] :=
  ⟨h, fun _ h => nomatch h⟩

/-- The subscriptions are left alone too, and nothing but
requests under fixed ids is sent. -/
structure Quiet (session session' : Session) (effects : List Effect) : Prop where
  pending : session'.pending = session.pending
  subscriptions : session'.subscriptions = session.subscriptions
  effects : ∀ effect ∈ effects, ∃ link request, effect = .send link request ∧
    request.id ∈ Rpc.fixedIds

theorem Quiet.spares (h : Quiet session session' effects) :
    Spares session session' effects := by
  refine ⟨h.pending, fun effect heffect => ?_⟩
  obtain ⟨link, request, rfl, hfixed⟩ := h.effects effect heffect
  exact .send hfixed

theorem Quiet.pushed? (h : Quiet session session' effects) :
    effects.filterMap Effect.pushed? = [] := by
  rw [List.filterMap_eq_nil_iff]
  intro effect heffect
  obtain ⟨link, request, rfl, -⟩ := h.effects effect heffect
  rfl

theorem quiet_silent (hpending : session'.pending = session.pending)
    (hsubscriptions : session'.subscriptions = session.subscriptions) :
    Quiet session session' [] :=
  ⟨hpending, hsubscriptions, fun _ h => nomatch h⟩

theorem Quiet.refl (session : Session) : Quiet session session [] := quiet_silent rfl rfl

theorem quiet_of_send? {request : Request} (hpending : session'.pending = session.pending)
    (hsubscriptions : session'.subscriptions = session.subscriptions)
    (hfixed : request.id ∈ Rpc.fixedIds) :
    Quiet session session' (session.send? request).toList := by
  refine ⟨hpending, hsubscriptions, fun effect heffect => ?_⟩
  obtain ⟨link, rfl⟩ := send?_eq_some (Option.mem_toList.mp heffect)
  exact ⟨link, request, rfl, hfixed⟩

theorem attach_quiet (session : Session) (link : Link) :
    Quiet session (session.attach link).1 (session.attach link).2 := by
  unfold attach
  dsimp only
  split
  case h_1 sent hsent =>
    refine ⟨rfl, rfl, fun effect heffect => ?_⟩
    obtain ⟨number, rfl⟩ := send?_eq_some hsent
    exact ⟨number, versionSubscription, List.mem_singleton.mp heffect, by decide⟩
  case h_2 => exact quiet_silent rfl rfl

theorem finishOpen_quiet (session : Session) (link? : Option Link) :
    Quiet session (session.finishOpen link?).1 (session.finishOpen link?).2 := by
  cases link? with
  | some link => exact attach_quiet session link
  | none => exact quiet_silent rfl rfl

theorem nodeGone_quiet (session : Session) (number : Nat) :
    Quiet session (session.nodeGone number) [] := by
  unfold nodeGone
  split <;> exact quiet_silent rfl rfl

theorem linkEnd_quiet (session : Session) (number : Nat) :
    Quiet session (session.linkEnd number) [] := by
  unfold linkEnd
  split <;> exact quiet_silent rfl rfl

theorem systemRequest_fixed (query : Rpc.SystemQuery) :
    (systemRequest query).id ∈ Rpc.fixedIds := by
  cases query <;> decide

theorem announce_quiet (session : Session) (version : RuntimeVersion) :
    Quiet session (session.announce parser version).1
      (session.announce parser version).2 := by
  unfold announce
  dsimp only
  split
  case h_1 => exact quiet_silent rfl rfl
  case h_2 => exact quiet_of_send? rfl rfl (by decide)

theorem takeMetadata_quiet (session : Session) (result? : Option Json) :
    Quiet session (session.takeMetadata parser result?) [] := by
  unfold takeMetadata
  split
  case h_1 =>
    split
    case h_1 =>
      unfold publish file
      split <;> exact quiet_silent rfl rfl
    case h_2 => exact .refl session
  case h_2 => exact .refl session

/-! Messages. -/

/-- The message is neither an announcement of a version nor an answer to anything. -/
structure Unasked (session : Session) (message : Message) : Prop where
  method : message.method? ≠ some Rpc.runtimeVersionPush
  id : ∀ id, message.id? = some id → id ∉ Rpc.fixedIds ∧ session.pending.lookup id = none

/-- Gives a message to the listener that it is for. -/
def deliver (session : Session) (message : Message) : List Effect :=
  ((session.listener? message).map fun listener => .push listener message.payload).toList

theorem deliver_spares (session : Session) (message : Message) :
    Spares session session (session.deliver message) := by
  unfold deliver
  cases session.listener? message with
  | none => exact spares_silent rfl
  | some listener =>
      refine ⟨rfl, fun effect heffect => ?_⟩
      rw [List.mem_singleton.mp heffect]
      exact .push listener message.payload

theorem resolve_pending (id : String) (pending : Pending) (response : Response) :
    (session.resolve id pending response).1.pending = Assoc.erase id session.pending := by
  unfold resolve register
  cases pending with
  | call => rfl
  | subscribe listener => cases response.result?.bind idText? <;> rfl

theorem pending?_eq_some {message : Message} {pending : Pending} :
    session.pending? message = some (id, pending) ↔
      message.id? = some id ∧ session.pending.lookup id = some pending := by
  simp only [pending?, bind, Option.bind_eq_some_iff, pure, Option.some.injEq,
    Prod.mk.injEq]
  grind

/-- What a session does with a message: it resolves the call that is answered, gives what
nobody asked for to a listener, or leaves calls and subscriptions alone. -/
inductive Routes (parser : MetadataParser) (session : Session) (message : Message) : Prop
  | answer {id : String} {pending : Pending} (hanswers : message.Answers id)
      (hcalled : session.pending.lookup id = some pending)
      (hroute : session.route parser message = session.resolve id pending message.response)
  | unasked (hunasked : session.Unasked message)
      (hroute : session.route parser message = (session, session.deliver message))
  | quiet (hasked : ¬ session.Unasked message)
      (hanswers : ∀ id, message.Answers id → session.pending.lookup id = none)
      (hroute : Quiet session (session.route parser message).1
        (session.route parser message).2)

theorem routes_of_fixed (hdrawn : session.CallsDrawn) {message : Message} {fixed : String}
    (hid : message.id? = some fixed) (hfixed : fixed ∈ Rpc.fixedIds)
    (hroute : Quiet session (session.route parser message).1
      (session.route parser message).2) :
    Routes parser session message := by
  refine .quiet (fun h => (h.id fixed hid).1 hfixed) (fun id hanswers => ?_) hroute
  obtain rfl := Option.some.inj (hid.symm.trans hanswers.1)
  exact hdrawn _ hfixed

theorem unfixed_iff {message : Message} :
    (∀ id, message.id? = some id → id ∉ Rpc.fixedIds) ↔
    message.id?.bind Rpc.SystemQuery.ofId? = none ∧
      message.id? ≠ some Rpc.versionSubscriptionId ∧ message.id? ≠ some Rpc.metadataId := by
  have hid : ∀ id, id ∉ Rpc.fixedIds ↔ Rpc.SystemQuery.ofId? id = none ∧
      id ≠ Rpc.versionSubscriptionId ∧ id ≠ Rpc.metadataId := by
    intro id
    rw [Rpc.fixedIds, Rpc.SystemQuery.ofId?, List.find?_eq_none]
    grind
  cases message.id? with
  | none => simp
  | some id => simp [hid]

theorem pending?_eq_none {message : Message} : session.pending? message = none ↔
    ∀ id, message.id? = some id → session.pending.lookup id = none := by
  rw [pending?, Option.bind_eq_bind, Option.bind_eq_none_iff]
  refine forall₂_congr fun id _ => ?_
  cases session.pending.lookup id <;> simp

theorem route_of_unasked {message : Message} (h : session.Unasked message) :
    session.route parser message = (session, session.deliver message) := by
  obtain ⟨hquery, hversion, hmetadata⟩ := unfixed_iff.mp fun id hid => (h.id id hid).1
  have hpending := pending?_eq_none.mpr fun id hid => (h.id id hid).2
  simp only [route, hquery, if_neg h.method, if_neg hversion, if_neg hmetadata,
    hpending, deliver]
  cases session.listener? message <;> rfl

theorem route_routes (parser : MetadataParser) (hdrawn : session.CallsDrawn)
    (message : Message) : Routes parser session message := by
  cases hquery : message.id?.bind Rpc.SystemQuery.ofId? with
  | some query =>
      obtain ⟨id, hid, hname⟩ := Option.bind_eq_some_iff.mp hquery
      have hsame : query.id = id := by simpa using List.find?_some hname
      refine routes_of_fixed hdrawn hid (hsame ▸ systemRequest_fixed query) ?_
      simp only [route, hquery]
      exact quiet_silent rfl rfl
  | none =>
      by_cases hpush : message.method? = some Rpc.runtimeVersionPush
      · refine .quiet (fun h => h.method hpush) (fun id h => absurd hpush h.2) ?_
        simp only [route, hquery, if_pos hpush]
        split
        case h_1 version _ => exact announce_quiet session version
        case h_2 => exact .refl session
      · by_cases hversion : message.id? = some Rpc.versionSubscriptionId
        · refine routes_of_fixed hdrawn hversion (by decide) ?_
          simp only [route, hquery, if_neg hpush, if_pos hversion]
          exact .refl session
        · by_cases hmetadata : message.id? = some Rpc.metadataId
          · refine routes_of_fixed hdrawn hmetadata (by decide) ?_
            simp only [route, hquery, if_neg hpush, if_neg hversion, if_pos hmetadata]
            exact takeMetadata_quiet session message.result?
          · cases hpending : session.pending? message with
            | some entry =>
                obtain ⟨id, pending⟩ := entry
                obtain ⟨hid, hcalled⟩ := pending?_eq_some.mp hpending
                refine .answer ⟨hid, hpush⟩ hcalled ?_
                simp only [route, hquery, if_neg hpush, if_neg hversion,
                  if_neg hmetadata, hpending]
            | none =>
                have hunfixed := unfixed_iff.mpr ⟨hquery, hversion, hmetadata⟩
                have hunasked : session.Unasked message :=
                  ⟨hpush, fun id hid =>
                    ⟨hunfixed id hid, pending?_eq_none.mp hpending id hid⟩⟩
                exact .unasked hunasked (route_of_unasked hunasked)

end Session

end ChainClient
