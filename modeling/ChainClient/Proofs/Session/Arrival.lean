import ChainClient.Proofs.Session.Keeps
import ChainClient.Session.Receive

/-! What a session comes to know of the runtime from each message. -/

namespace ChainClient

/-- What a message brings that concerns the runtime. -/
inductive Arrival where
  | announcement (version : RuntimeVersion)
  /-- An answer to a request for metadata. -/
  | metadata (result? : Option Json)
  | other

def Message.arrival (message : Message) : Arrival :=
  if (message.id?.bind Rpc.SystemQuery.ofId?).isSome then .other
  else if message.method? = some Rpc.runtimeVersionPush then
    match RuntimeVersion.ofJson? message.payload with
    | some version => .announcement version
    | none => .other
  else if message.id? = some Rpc.metadataId then .metadata message.result?
  else .other

/-- The text of an answer that is metadata. -/
def usableText? (parser : MetadataParser) : Option Json → Option String
  | some (.string text) =>
      match LoadedMetadata.parse parser text with
      | .ok _ => some text
      | .error _ => none
  | _ => none

theorem usableText?_eq_some {parser : MetadataParser} {result? : Option Json}
    {text : String} (h : usableText? parser result? = some text) :
    result? = some (.string text) ∧ ∃ loaded,
      LoadedMetadata.parse parser text = .ok loaded := by
  unfold usableText? at h
  split at h
  case h_1 raw =>
    cases hloaded : LoadedMetadata.parse parser raw with
    | ok loaded =>
        simp only [hloaded, Option.some.injEq] at h
        subst h
        exact ⟨rfl, loaded, hloaded⟩
    | error error => simp [hloaded] at h
  case h_2 => cases h

namespace Session

variable {parser : MetadataParser} {session : Session}

/-! Messages. -/

theorem route_announcement {message : Message} {version : RuntimeVersion}
    (h : message.arrival = .announcement version) :
    session.route parser message = session.announce parser version := by
  unfold Message.arrival at h
  unfold route
  cases hquery : message.id?.bind Rpc.SystemQuery.ofId? with
  | some query => simp [hquery] at h
  | none =>
      rw [hquery] at h
      simp only [Option.isSome_none, Bool.false_eq_true, if_false] at h ⊢
      split at h
      case isTrue hpush =>
        rw [if_pos hpush]
        cases hversion : RuntimeVersion.ofJson? message.payload with
        | none => simp [hversion] at h
        | some announced =>
            rw [hversion] at h
            cases h
            rfl
      case isFalse => split at h <;> cases h

theorem route_metadata {message : Message} {result? : Option Json}
    (h : message.arrival = .metadata result?) :
    session.route parser message = (session.takeMetadata parser result?, []) := by
  unfold Message.arrival at h
  unfold route
  cases hquery : message.id?.bind Rpc.SystemQuery.ofId? with
  | some query => simp [hquery] at h
  | none =>
      rw [hquery] at h
      simp only [Option.isSome_none, Bool.false_eq_true, if_false] at h ⊢
      split at h
      case isTrue => split at h <;> cases h
      case isFalse hpush =>
        rw [if_neg hpush]
        split at h
        case isTrue hid =>
          cases h
          have hother : message.id? ≠ some Rpc.versionSubscriptionId := by
            rw [hid]
            decide
          rw [if_neg hother, if_pos hid]
        case isFalse => cases h

theorem resolve_keeps (session : Session) (id : String) (pending : Pending)
    (response : Response) : Keeps session (session.resolve id pending response).1 := by
  unfold resolve register
  cases pending with
  | call => exact ⟨rfl, rfl, rfl, fun _ h => h⟩
  | subscribe listener =>
      cases response.result?.bind idText? with
      | none => exact ⟨rfl, rfl, rfl, fun _ h => h⟩
      | some subscription => exact ⟨rfl, rfl, rfl, fun _ h => h⟩

theorem route_keeps {message : Message} (h : message.arrival = .other) :
    Keeps session (session.route parser message).1 := by
  unfold Message.arrival at h
  unfold route
  cases hquery : message.id?.bind Rpc.SystemQuery.ofId? with
  | some query => exact ⟨rfl, rfl, rfl, fun _ h => h⟩
  | none =>
      rw [hquery] at h
      simp only [Option.isSome_none, Bool.false_eq_true, if_false] at h ⊢
      split at h
      case isTrue hpush =>
        rw [if_pos hpush]
        cases hversion : RuntimeVersion.ofJson? message.payload with
        | none => exact .refl session
        | some announced => simp [hversion] at h
      case isFalse hpush =>
        rw [if_neg hpush]
        split at h
        case isTrue => cases h
        case isFalse hid =>
          rw [if_neg hid]
          split
          case isTrue => exact .refl session
          case isFalse =>
            split
            case h_1 id pending _ => exact resolve_keeps session id pending _
            case h_2 => split <;> exact .refl session

/-! Announcements and answers. -/

theorem announce_runtimeVersion? (version : RuntimeVersion) :
    (session.announce parser version).1.runtimeVersion? = some version := by
  unfold announce
  dsimp only
  split <;> rfl

theorem announce_cache (version : RuntimeVersion) :
    (session.announce parser version).1.cache = session.cache := by
  unfold announce
  dsimp only
  split <;> rfl

/-- Metadata that is in the cache is published at once. -/
theorem announce_of_cached {version : RuntimeVersion} {loaded : LoadedMetadata}
    (h : session.cachedMetadata? parser version = some loaded) :
    (session.announce parser version).1.metadata? = some loaded ∧
      (session.announce parser version).1.phase = .ready loaded.signingCapable := by
  have hcached : cachedMetadata? parser
      { session with runtimeVersion? := some version } version = some loaded := h
  unfold announce
  dsimp only
  rw [hcached]
  exact ⟨rfl, rfl⟩

/-- Metadata that is not in the cache is waited for, while
what was published before stays. -/
theorem announce_of_uncached {version : RuntimeVersion}
    (h : session.cachedMetadata? parser version = none) :
    (session.announce parser version).1.metadata? = session.metadata? ∧
      (session.announce parser version).1.phase = .awaitingMetadata := by
  have hcached : cachedMetadata? parser
      { session with runtimeVersion? := some version } version = none := h
  unfold announce
  dsimp only
  rw [hcached]
  exact ⟨rfl, rfl⟩

theorem takeMetadata_of_unusable {result? : Option Json}
    (h : usableText? parser result? = none) :
    session.takeMetadata parser result? = session := by
  unfold takeMetadata
  split
  case h_1 text =>
    cases hloaded : LoadedMetadata.parse parser text with
    | ok loaded => simp [usableText?, hloaded] at h
    | error error => rfl
  case h_2 => rfl

theorem takeMetadata_of_usable (session : Session) {result? : Option Json} {text : String}
    (h : usableText? parser result? = some text) :
    ∃ loaded, LoadedMetadata.parse parser text = .ok loaded ∧
      session.takeMetadata parser result? = (session.file text).publish loaded := by
  obtain ⟨rfl, loaded, hloaded⟩ := usableText?_eq_some h
  exact ⟨loaded, hloaded, by simp only [takeMetadata, hloaded]⟩

theorem file_runtimeVersion? (session : Session) (text : String) :
    (session.file text).runtimeVersion? = session.runtimeVersion? := by
  unfold file
  split <;> simp [*]

theorem file_cache {version : RuntimeVersion} (text : String)
    (h : session.runtimeVersion? = some version) :
    (session.file text).cache =
      (MetadataCache.replace session.cache version.implName
        version.specVersion text).1 := by
  unfold file
  rw [h]

end Session

end ChainClient
