import ChainClient.Proofs.Cache.Metadata
import ChainClient.Proofs.Client.Step
import Mathlib.Data.List.Induction

/-! Where the metadata of a session comes from.

All requests for metadata have one id, so an answer does not tell which request it
belongs to.  A run is told here together with what its node knows and its session
does not: which request each answer is for, and with it the version whose
announcement led to the request. -/

namespace ChainClient

/-- An event, and the request for metadata that it answers, counted from the first one. -/
structure Occurrence (α : Type) where
  event : Event α
  answers? : Option Nat

structure Provenance where
  /-- For each request for metadata the version whose announcement led to it. -/
  asked : List RuntimeVersion
  /-- The usable answers, each with the version that it was asked for. -/
  answered : List (RuntimeVersion × String)
  /-- The version that the session's metadata was loaded for,
  from the cache or by a request. -/
  loadedFor? : Option RuntimeVersion

/-- Whether an effect is a request for metadata. -/
def Effect.asksForMetadata : Effect → Bool
  | .send _ request => request.method = Rpc.getMetadata
  | _ => false

namespace Provenance

def empty : Provenance := ⟨[], [], none⟩

/-- The version that a request was sent for. -/
def askedFor? (provenance : Provenance) (request? : Option Nat) : Option RuntimeVersion :=
  request?.bind fun request => provenance.asked[request]?

/-- What an event of a session adds, given its effects and the request that it answers. -/
def next (parser : MetadataParser) (provenance : Provenance) (session : Session)
    (effects : List Effect) (answers? : Option Nat) : Arrival → Provenance
  | .announcement version =>
      { provenance with
        asked :=
          provenance.asked ++ (effects.filter Effect.asksForMetadata).map fun _ => version
        loadedFor? :=
          if (session.cachedMetadata? parser version).isSome then some version
          else provenance.loadedFor? }
  | .metadata result? =>
      match usableText? parser result? with
      | some text =>
          let version? := provenance.askedFor? answers?
          { provenance with
            answered :=
              provenance.answered ++ (version?.map fun version => (version, text)).toList
            loadedFor? := version? }
      | none => provenance
  | .other => provenance

end Provenance

/-- A client, and where the metadata of its session comes from. -/
structure Traced (α : Type) where
  client : Client α
  provenance : Provenance

namespace Traced

variable {α : Type} {parser : MetadataParser} {traced : Traced α}
  {occurrence : Occurrence α}

def start (cache : Store) : Traced α := ⟨.new (.detached cache), .empty⟩

def step (parser : MetadataParser) (traced : Traced α) (occurrence : Occurrence α) :
    Traced α :=
  let (client, effects) := traced.client.step parser occurrence.event
  ⟨client, traced.provenance.next parser traced.client.session effects occurrence.answers?
    (traced.client.arrival occurrence.event)⟩

def run (parser : MetadataParser) (traced : Traced α) (occurrences : List (Occurrence α)) :
    Traced α :=
  occurrences.foldl (step parser) traced

theorem step_client :
    (traced.step parser occurrence).client =
      (traced.client.step parser occurrence.event).1 := rfl

theorem run_append (first second : List (Occurrence α)) :
    traced.run parser (first ++ second) = (traced.run parser first).run parser second :=
  List.foldl_append

theorem run_append_singleton (past : List (Occurrence α)) (occurrence : Occurrence α) :
    traced.run parser (past ++ [occurrence]) =
      (traced.run parser past).step parser occurrence := by
  rw [run_append]
  rfl

/-! One step, by what it brings. -/

theorem step_announcement (parser : MetadataParser) {version : RuntimeVersion}
    (h : traced.client.arrival occurrence.event = .announcement version) :
    (traced.step parser occurrence).client.session =
        (traced.client.session.announce parser version).1 ∧
      (traced.step parser occurrence).provenance.answered = traced.provenance.answered ∧
      (traced.step parser occurrence).provenance.loadedFor? =
        if (traced.client.session.cachedMetadata? parser version).isSome then some version
        else traced.provenance.loadedFor? := by
  refine ⟨Client.step_announcement h, ?_, ?_⟩
  · simp only [step, h, Provenance.next]
  · simp only [step, h, Provenance.next]

theorem step_usable {result? : Option Json} {text : String}
    (h : traced.client.arrival occurrence.event = .metadata result?)
    (htext : usableText? parser result? = some text) :
    ∃ loaded, LoadedMetadata.parse parser text = .ok loaded ∧
      (traced.step parser occurrence).client.session =
        (traced.client.session.file text).publish loaded ∧
      (traced.step parser occurrence).provenance =
        { traced.provenance with
          answered := traced.provenance.answered ++
            ((traced.provenance.askedFor? occurrence.answers?).map fun version =>
              (version, text)).toList
          loadedFor? := traced.provenance.askedFor? occurrence.answers? } := by
  obtain ⟨loaded, hloaded, htake⟩ :=
    Session.takeMetadata_of_usable traced.client.session htext
  refine ⟨loaded, hloaded, (Client.step_metadata h).trans htake, ?_⟩
  simp only [step, h, Provenance.next, htext]

theorem step_keeps
    (hannouncement : ∀ version,
      traced.client.arrival occurrence.event ≠ .announcement version)
    (husable : ∀ result? text, traced.client.arrival occurrence.event = .metadata result? →
      usableText? parser result? ≠ some text) :
    Session.Keeps traced.client.session (traced.step parser occurrence).client.session ∧
      (traced.step parser occurrence).provenance = traced.provenance := by
  cases harrival : traced.client.arrival occurrence.event with
  | announcement version => exact absurd harrival (hannouncement version)
  | metadata result? =>
      have hunusable : usableText? parser result? = none :=
        Option.eq_none_iff_forall_ne_some.mpr fun text => husable result? text harrival
      refine ⟨?_, by simp only [step, harrival, Provenance.next, hunusable]⟩
      rw [step_client, Client.step_metadata harrival,
        Session.takeMetadata_of_unusable hunusable]
      exact .refl _
  | other =>
      exact ⟨Client.step_other harrival, by simp only [step, harrival, Provenance.next]⟩

theorem step_cases (parser : MetadataParser) (traced : Traced α)
    (occurrence : Occurrence α) :
    (∃ version, traced.client.arrival occurrence.event = .announcement version) ∨
    (∃ result? text, traced.client.arrival occurrence.event = .metadata result? ∧
      usableText? parser result? = some text) ∨
    (Session.Keeps traced.client.session (traced.step parser occurrence).client.session ∧
      (traced.step parser occurrence).provenance = traced.provenance) := by
  by_cases hannouncement :
      ∃ version, traced.client.arrival occurrence.event = .announcement version
  · exact .inl hannouncement
  · by_cases husable : ∃ result? text,
        traced.client.arrival occurrence.event = .metadata result? ∧
          usableText? parser result? = some text
    · exact .inr (.inl husable)
    · refine .inr (.inr (step_keeps (fun version h => hannouncement ⟨version, h⟩) ?_))
      exact fun result? text h htext => husable ⟨result?, text, h, htext⟩

/-! What holds in every run. -/

/-- Before a version is announced nothing is asked for, and
nothing is loaded for a version. -/
structure Grounded (traced : Traced α) : Prop where
  asked : traced.client.session.runtimeVersion? = none → traced.provenance.asked = []
  loadedFor? : traced.client.session.runtimeVersion? = none →
    traced.provenance.loadedFor? = none

theorem start_grounded (cache : Store) : (start cache : Traced α).Grounded :=
  ⟨fun _ => rfl, fun _ => rfl⟩

theorem step_grounded (h : traced.Grounded) : (traced.step parser occurrence).Grounded := by
  rcases step_cases parser traced occurrence with
    ⟨version, harrival⟩ | ⟨result?, text, harrival, htext⟩ | ⟨hkeeps, hprovenance⟩
  · obtain ⟨hsession, -, -⟩ := step_announcement parser harrival
    have hversion :
        (traced.step parser occurrence).client.session.runtimeVersion? ≠ none := by
      rw [hsession, Session.announce_runtimeVersion?]
      nofun
    exact ⟨fun hnone => absurd hnone hversion, fun hnone => absurd hnone hversion⟩
  · obtain ⟨loaded, -, hsession, hprovenance⟩ := step_usable harrival htext
    have hversion : (traced.step parser occurrence).client.session.runtimeVersion? =
        traced.client.session.runtimeVersion? := by
      rw [hsession]
      exact Session.file_runtimeVersion? _ text
    refine ⟨fun hnone => ?_, fun hnone => ?_⟩
    · rw [hprovenance]
      exact h.asked (hversion.symm.trans hnone)
    · rw [hprovenance]
      change traced.provenance.askedFor? occurrence.answers? = none
      rw [Provenance.askedFor?, h.asked (hversion.symm.trans hnone)]
      cases occurrence.answers? <;> rfl
  · refine ⟨fun hnone => ?_, fun hnone => ?_⟩
    · rw [hprovenance]
      exact h.asked (hkeeps.runtimeVersion?.symm.trans hnone)
    · rw [hprovenance]
      exact h.loadedFor? (hkeeps.runtimeVersion?.symm.trans hnone)

theorem run_grounded (parser : MetadataParser) (cache : Store)
    (occurrences : List (Occurrence α)) :
    ((start cache).run parser occurrences).Grounded := by
  induction occurrences using List.reverseRecOn with
  | nil => exact start_grounded cache
  | append_singleton past occurrence ih =>
      rw [run_append_singleton]
      exact step_grounded ih

/-! Metadata and the version that it belongs to. -/

/-- The metadata was loaded for the version that was announced last. -/
def Current (traced : Traced α) : Prop :=
  ∃ version, traced.client.session.runtimeVersion? = some version ∧
    traced.provenance.loadedFor? = some version

/-- Every blob is filed under a version that it is an answer for, and metadata is published
under the version that it was loaded for. -/
structure Accurate (traced : Traced α) : Prop where
  filed : ∀ implName specVersion text,
    MetadataCache.get? traced.client.session.cache implName specVersion = some text →
      ∃ version, (version, text) ∈ traced.provenance.answered ∧
        version.implName = implName ∧ version.specVersion = specVersion
  published : ∀ signingCapable, traced.client.session.phase = .ready signingCapable →
    traced.client.session.metadata?.isSome ∧ traced.Current

/-- If an event is a usable answer, it answers a request for the version that was announced
last. -/
def Timely (parser : MetadataParser) (traced : Traced α)
    (occurrence : Occurrence α) : Prop :=
  ∀ result? text, traced.client.arrival occurrence.event = .metadata result? →
    usableText? parser result? = some text →
      ∃ version, traced.client.session.runtimeVersion? = some version ∧
        traced.provenance.askedFor? occurrence.answers? = some version

theorem start_accurate {cache : Store}
    (h : ∀ implName specVersion, MetadataCache.get? cache implName specVersion = none) :
    (start cache : Traced α).Accurate where
  filed implName specVersion text hget := by
    rw [show (start cache : Traced α).client.session.cache = cache from rfl, h] at hget
    cases hget
  published := nofun

theorem step_accurate (h : traced.Accurate)
    (htimely : traced.Timely parser occurrence) :
    (traced.step parser occurrence).Accurate := by
  rcases step_cases parser traced occurrence with
    ⟨version, harrival⟩ | ⟨result?, text, harrival, htext⟩ | ⟨hkeeps, hprovenance⟩
  · obtain ⟨hsession, hanswered, hloadedFor⟩ := step_announcement parser harrival
    refine ⟨fun implName specVersion text hget => ?_, fun signingCapable hready => ?_⟩
    · rw [hsession, Session.announce_cache] at hget
      rw [hanswered]
      exact h.filed implName specVersion text hget
    · rw [Current, hsession, Session.announce_runtimeVersion?, hloadedFor]
      rw [hsession] at hready
      cases hcached : traced.client.session.cachedMetadata? parser version with
      | some loaded =>
          rw [(Session.announce_of_cached hcached).1]
          exact ⟨rfl, version, rfl, rfl⟩
      | none =>
          rw [(Session.announce_of_uncached hcached).2] at hready
          cases hready
  · obtain ⟨loaded, -, hsession, hprovenance⟩ := step_usable harrival htext
    obtain ⟨version, hversion, hasked⟩ := htimely result? text harrival htext
    rw [hasked] at hprovenance
    -- The session files under the version announced last, which is
    -- the one that was asked for.
    refine ⟨fun implName specVersion blob hget => ?_, fun signingCapable hready => ?_⟩
    · rw [hsession] at hget
      change MetadataCache.get? (traced.client.session.file text).cache _ _ = _ at hget
      rw [Session.file_cache text hversion] at hget
      rw [hprovenance]
      rcases MetadataCache.get?_replace hget with ⟨rfl, rfl, rfl⟩ | hold
      · exact ⟨version, by simp, rfl, rfl⟩
      · obtain ⟨owner, howner, hname⟩ := h.filed implName specVersion blob hold
        exact ⟨owner, List.mem_append_left _ howner, hname⟩
    · rw [Current, hsession, hprovenance]
      refine ⟨rfl, version, ?_, rfl⟩
      exact (Session.file_runtimeVersion? _ text).trans hversion
  · refine ⟨fun implName specVersion text hget => ?_, fun signingCapable hready => ?_⟩
    · rw [hkeeps.cache] at hget
      rw [hprovenance]
      exact h.filed implName specVersion text hget
    · rw [Current, hkeeps.metadata?, hkeeps.runtimeVersion?, hprovenance]
      exact h.published signingCapable (hkeeps.ready signingCapable hready)

theorem timely_of_accurate_step (h : (traced.step parser occurrence).Accurate) :
    traced.Timely parser occurrence := by
  intro result? text harrival htext
  obtain ⟨loaded, -, hsession, hprovenance⟩ := step_usable harrival htext
  obtain ⟨-, version, hversion, hloadedFor⟩ :=
    h.published loaded.signingCapable (by rw [hsession]; rfl)
  refine ⟨version, ?_, ?_⟩
  · rw [hsession] at hversion
    exact (Session.file_runtimeVersion? _ text).symm.trans hversion
  · rw [hprovenance] at hloadedFor
    exact hloadedFor

theorem accurate_of_timely {cache : Store} (occurrences : List (Occurrence α))
    (hempty : ∀ implName specVersion, MetadataCache.get? cache implName specVersion = none)
    (h : ∀ before occurrence after, occurrences = before ++ occurrence :: after →
      ((start cache).run parser before).Timely parser occurrence) :
    ((start cache).run parser occurrences).Accurate := by
  induction occurrences using List.reverseRecOn with
  | nil => exact start_accurate hempty
  | append_singleton past occurrence ih =>
      rw [run_append_singleton]
      refine step_accurate (ih fun before earlier after hpast => ?_)
        (h past occurrence [] rfl)
      exact h before earlier (after ++ [occurrence]) (by simp [hpast])

/-- Whether the node answers each request for metadata at most once, in the order of the
requests.  Requests before `next` may not be answered any more. -/
def answersInOrder (parser : MetadataParser) (next : Nat) (traced : Traced α) :
    List (Occurrence α) → Bool
  | [] => true
  | occurrence :: rest =>
      match traced.client.arrival occurrence.event, occurrence.answers? with
      | .metadata _, some request =>
          next ≤ request && request < traced.provenance.asked.length &&
            answersInOrder parser (request + 1) (traced.step parser occurrence) rest
      | .metadata _, none => false
      | _, _ => answersInOrder parser next (traced.step parser occurrence) rest

/-- In a run that begins with an empty cache every blob is filed and published under the
version that it was asked for, at all times, exactly if every usable answer is one to a
request for the version that was announced last. -/
theorem always_accurate_iff_always_timely (parser : MetadataParser) (cache : Store)
    (hempty : ∀ implName specVersion, MetadataCache.get? cache implName specVersion = none)
    (occurrences : List (Occurrence α)) :
    (∀ before after, occurrences = before ++ after →
      ((start cache).run parser before).Accurate) ↔
    ∀ before occurrence after, occurrences = before ++ occurrence :: after →
      ((start cache).run parser before).Timely parser occurrence := by
  constructor
  · intro h before occurrence after hsplit
    apply timely_of_accurate_step
    rw [← run_append_singleton]
    exact h (before ++ [occurrence]) after (by simp [hsplit])
  · intro h before after hsplit
    refine accurate_of_timely before hempty fun earlier occurrence later hbefore => ?_
    exact h earlier occurrence (later ++ after) (by simp [hsplit, hbefore])

/-! Two announcements, and then the answer to the request that the first one led to. -/

def anyMetadata : MetadataParser := fun _ => .ok .empty

def announcing (specVersion : String) : Occurrence Unit where
  event := .receive 0
    ("\x7b\"method\":\"state_runtimeVersion\",\"params\":\x7b\"subscription\":0,\"result\":" ++
      "\x7b\"specName\":\"\",\"implName\":\"node\",\"specVersion\":" ++ specVersion ++
      ",\"transactionVersion\":1\x7d\x7d\x7d")
  answers? := none

def answering (request : Nat) (blob : String) : Occurrence Unit where
  event := .receive 0 ("\x7b\"id\":\"metadata\",\"result\":\"" ++ blob ++ "\"\x7d")
  answers? := some request

def overtaken : List (Occurrence Unit) :=
  [⟨.attach ⟨0, true⟩, none⟩, announcing "1", announcing "2", answering 0 "0x01"]

theorem always_accurate_iff_always_timely_in_memory :
    (∀ implName specVersion,
      MetadataCache.get? .emptyMemory implName specVersion = none) ∧
    ((∀ before after, overtaken = before ++ after →
      ((start .emptyMemory).run anyMetadata before).Accurate) ↔
    ∀ before occurrence after, overtaken = before ++ occurrence :: after →
      ((start .emptyMemory).run anyMetadata before).Timely anyMetadata occurrence) :=
  ⟨fun _ _ => rfl,
    always_accurate_iff_always_timely anyMetadata .emptyMemory (fun _ _ => rfl) overtaken⟩

/-- A node that answers in order is no guarantee: an answer that a second announcement
overtakes is filed and published under the second version. -/
theorem overtaken_not_accurate :
    (start .emptyMemory).answersInOrder anyMetadata 0 overtaken = true ∧
      ¬ ((start .emptyMemory).run anyMetadata overtaken).Accurate := by
  have hrun : (start .emptyMemory).answersInOrder anyMetadata 0 overtaken = true ∧
      MetadataCache.get? ((start .emptyMemory).run anyMetadata
        overtaken).client.session.cache
        "node" 2 = some "0x01" ∧
      ((start .emptyMemory).run anyMetadata overtaken).provenance.answered =
        [(⟨"", "node", 0, 1, 0, 1⟩, "0x01")] := by
    decide +kernel
  refine ⟨hrun.1, fun haccurate => ?_⟩
  obtain ⟨version, hanswered, -, hversion⟩ := haccurate.filed "node" 2 "0x01" hrun.2.1
  rw [hrun.2.2, List.mem_singleton] at hanswered
  cases hanswered
  cases hversion

end Traced

end ChainClient
