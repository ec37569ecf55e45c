import ChainClient.Context.Submit
import ChainClient.Proofs.Client.Provenance

/-! Which runtime a submitted transaction is built for.

Metadata and version are read in one turn, so both are those of one moment of the run,
and nothing that comes later, such as an answer about the nonce, changes them.  But
metadata stays in place while that of a new version is waited for, and at such a moment
the two are not of one runtime. -/

namespace ChainClient

open FallibleProgram

namespace Context

/-- Submits a call that is encoded, for a version that is known. -/
def submitEncoded (context : Context) (metadata : Metadata) (encoded : Bytes)
    (version : RuntimeVersion) : FallibleProgram SubmitError String := do
  let nonce? ← (context.nonceFor? metadata.extensions).adapt .session
  let text ← context.signedText metadata version nonce? encoded
  (Program.subscription Rpc.submitAndWatch [.string text]).adapt .session

/-- Submits a call once there is metadata. -/
def submitWith (context : Context) (palletIndex : UInt8) (call : Call) (params : List Value)
    (loaded : LoadedMetadata) : Program (Except SubmitError String) :=
  if loaded.signingCapable then
    match encodeCall loaded.metadata.registry palletIndex call params with
    | .ok encoded =>
        .runtimeVersion fun version =>
          (context.submitEncoded loaded.metadata encoded version).run
    | .error error => .done (.error (.extrinsic error))
  else .done (.error .signingUnsupported)

theorem run_submit (context : Context) (palletIndex : UInt8) (call : Call)
    (params : List Value) :
    (context.submit palletIndex call params).run =
      .metadata (context.submitWith palletIndex call params) := by
  unfold submit submitWith
  change Program.metadata _ = _
  congr 1
  funext loaded
  simp only [Program.bind, Function.comp, ExceptT.bindCont]
  cases loaded.signingCapable with
  | false => rfl
  | true =>
      simp only [Bool.not_true, Bool.false_eq_true, if_false, if_true]
      cases encodeCall loaded.metadata.registry palletIndex call params with
      | error error => rfl
      | ok encoded => rfl

end Context

/-- A call that is to be submitted, and what is made of the outcome. -/
structure Submission (α : Type) where
  context : Context
  palletIndex : UInt8
  call : Call
  params : List Value
  finish : Except SubmitError String → α

namespace Submission

variable {α : Type} {submission : Submission α}

def program (submission : Submission α) : Program α :=
  submission.finish <$>
    (submission.context.submit submission.palletIndex submission.call submission.params).run

def encoded (submission : Submission α) (metadata : Metadata) :
    Except ExtrinsicError Bytes :=
  encodeCall metadata.registry submission.palletIndex submission.call submission.params

def afterEncoding (submission : Submission α) (metadata : Metadata) (encoded : Bytes)
    (version : RuntimeVersion) : Program α :=
  submission.finish <$> (submission.context.submitEncoded metadata encoded version).run

/-- The call and the extensions are encoded with the metadata, and the
version's numbers are what is signed. -/
def BuiltFrom (submission : Submission α) (metadata : Metadata) (version : RuntimeVersion)
    (params : List Json) : Prop :=
  ∃ encoded nonce? text, submission.encoded metadata = .ok encoded ∧
    submission.context.signedText metadata version nonce? encoded = .ok text ∧
    params = [.string text]

/-- The transactions that a program submits are built from the metadata and the version. -/
def Submits (submission : Submission α) (metadata : Metadata) (version : RuntimeVersion)
    (method : String) (params : List Json) : Prop :=
  method = Rpc.submitAndWatch → submission.BuiltFrom metadata version params

theorem afterEncoding_asks {metadata : Metadata} {encoded : Bytes}
    (hencoded : submission.encoded metadata = .ok encoded) (version : RuntimeVersion) :
    (submission.afterEncoding metadata encoded version).Asks
      (submission.Submits metadata version) := by
  refine Program.Asks.map _ (asks_bind (asks_adapt _ ?_) fun nonce? => ?_)
  · unfold Context.nonceFor?
    split
    case isTrue =>
      refine asks_bind (asks_bind (asks_request ?_) fun result => ?_) fun nonce => trivial
      · exact fun hmethod => absurd hmethod (by decide)
      · cases result.toUInt64? <;> trivial
    case isFalse => trivial
  · cases htext : submission.context.signedText metadata version nonce? encoded with
    | error error => trivial
    | ok text =>
        refine asks_adapt _ (asks_subscription fun _ => ?_)
        exact ⟨encoded, nonce?, text, hencoded, htext, rfl⟩

/-! How far a submission has come, when it may have read what `Read` tells: metadata, and
the version that was announced last at that time, if any was. -/

variable {Read Read' : LoadedMetadata → Option RuntimeVersion → Prop}

inductive Stage (submission : Submission α)
    (Read : LoadedMetadata → Option RuntimeVersion → Prop) : Job α → Prop
  | fresh : Stage submission Read (.running submission.program)
  /-- The call is encoded, and no version has been announced. -/
  | versionless {loaded : LoadedMetadata} {encoded : Bytes} (hread : Read loaded none)
      (hencoded : submission.encoded loaded.metadata = .ok encoded) :
      Stage submission Read
        (.running (.runtimeVersion (submission.afterEncoding loaded.metadata encoded)))
  | bound {loaded : LoadedMetadata} {version? : Option RuntimeVersion}
      {version : RuntimeVersion} {job : Job α} (hread : Read loaded version?)
      (hversion : version? = none ∨ version? = some version)
      (hasks : job.Asks (submission.Submits loaded.metadata version)) :
      Stage submission Read job
  | finished (outcome : α) : Stage submission Read (.finished outcome)

theorem Stage.mono (hmono : ∀ loaded version?, Read loaded version? → Read' loaded version?)
    {job : Job α} (h : Stage submission Read job) : Stage submission Read' job := by
  cases h with
  | fresh => exact .fresh
  | versionless hread hencoded => exact .versionless (hmono _ _ hread) hencoded
  | bound hread hversion hasks => exact .bound (hmono _ _ hread) hversion hasks
  | finished outcome => exact .finished outcome

theorem stage_stable : Job.Stable (Stage submission Read) where
  resume id result job h := by
    cases h with
    | fresh => exact .fresh
    | versionless hread hencoded => exact .versionless hread hencoded
    | bound hread hversion hasks =>
        exact .bound hread hversion (Job.asks_stable.resume id result job hasks)
    | finished outcome => exact .finished outcome
  dialled result job h := by
    cases h with
    | fresh => exact .fresh
    | versionless hread hencoded => exact .versionless hread hencoded
    | bound hread hversion hasks =>
        exact .bound hread hversion (Job.asks_stable.dialled result job hasks)
    | finished outcome => exact .finished outcome

/-- A turn leads to a stage, and what it submits is built from what was read. -/
structure Advances (submission : Submission α)
    (Read : LoadedMetadata → Option RuntimeVersion → Prop) (turn : Turn α) : Prop where
  job : Stage submission Read turn.job
  sends : ∀ link request, .send link request ∈ turn.effects →
    request.method = Rpc.submitAndWatch →
      ∃ loaded version? version, Read loaded version? ∧
        (version? = none ∨ version? = some version) ∧
        submission.BuiltFrom loaded.metadata version request.params

theorem advances_quiet {session : Session} {job : Job α} (h : Stage submission Read job) :
    Advances submission Read ⟨session, job, []⟩ :=
  ⟨h, fun _ _ hmem => nomatch hmem⟩

theorem advances_of_asks {loaded : LoadedMetadata} {version? : Option RuntimeVersion}
    {version : RuntimeVersion} {turn : Turn α} (hread : Read loaded version?)
    (hversion : version? = none ∨ version? = some version)
    (hasks : turn.Asks (submission.Submits loaded.metadata version)) :
    Advances submission Read turn := by
  refine ⟨.bound hread hversion hasks.job, fun link request hmem hmethod => ?_⟩
  rcases hasks.effects _ hmem link request rfl with hbuilt | ⟨query, rfl⟩
  · exact ⟨loaded, version?, version, hread, hversion, hbuilt hmethod⟩
  · cases query <;> exact absurd hmethod (by decide)

variable {listener : Listener} {draws : List UInt64} {session : Session}

theorem run_versionless {loaded : LoadedMetadata} {encoded : Bytes}
    (hread : Read loaded session.runtimeVersion? ∨ Read loaded none)
    (hencoded : submission.encoded loaded.metadata = .ok encoded) :
    Advances submission Read (Job.run listener draws session
      (.runtimeVersion (submission.afterEncoding loaded.metadata encoded))) := by
  unfold Job.run
  cases hversion : session.runtimeVersion? with
  | none =>
      rw [hversion, or_self] at hread
      exact advances_quiet (.versionless hread hencoded)
  | some version =>
      have hasks :=
        Job.run_asks listener draws session (afterEncoding_asks hencoded version)
      rw [hversion] at hread
      rcases hread with hread | hread
      · exact advances_of_asks hread (.inr rfl) hasks
      · exact advances_of_asks hread (.inl rfl) hasks

theorem run_fresh
    (hread : ∀ loaded, session.metadata? = some loaded →
      Read loaded session.runtimeVersion?) :
    Advances submission Read (Job.run listener draws session submission.program) := by
  have hprogram : submission.program = .metadata fun loaded =>
      submission.finish <$> submission.context.submitWith submission.palletIndex
        submission.call submission.params loaded := by
    rw [program, Context.run_submit]
    rfl
  have hfresh : Stage submission Read (.running submission.program) := .fresh
  rw [hprogram] at hfresh ⊢
  unfold Job.run
  cases hmetadata : session.metadata? with
  | none => exact advances_quiet hfresh
  | some loaded =>
      unfold Context.submitWith
      dsimp only
      split
      case isFalse => exact advances_quiet (.finished _)
      case isTrue =>
        split
        case h_1 encoded hencoded =>
          exact run_versionless (.inl (hread loaded hmetadata)) hencoded
        case h_2 => exact advances_quiet (.finished _)

theorem Stage.poll {job : Job α} (h : Stage submission Read job)
    (hmoment : ∀ loaded, job = .running submission.program →
      session.metadata? = some loaded →
      Read loaded session.runtimeVersion?) :
    Advances submission Read (job.poll listener draws session) := by
  cases h with
  | fresh => exact run_fresh fun loaded => hmoment loaded rfl
  | versionless hread hencoded => exact run_versionless (.inr hread) hencoded
  | bound hread hversion hasks =>
      exact advances_of_asks hread hversion (Job.poll_asks hasks)
  | finished outcome => exact advances_quiet (.finished outcome)

/-! Submissions in a run. -/

variable {parser : MetadataParser} {traced : Traced α} {number : Nat}

/-- The turn in which a fresh submission finds metadata. -/
structure ReadsAt (submission : Submission α) (number : Nat) (moment : Traced α)
    (turn : Occurrence α) (loaded : LoadedMetadata) : Prop where
  turn : ∃ draws, turn.event = .poll number draws
  fresh : moment.client.jobs.lookup number = some (.running submission.program)
  metadata : moment.client.session.metadata? = some loaded

/-- What a submission has read in the course of a run. -/
def HasRead (parser : MetadataParser) (traced : Traced α) (submission : Submission α)
    (number : Nat) (past : List (Occurrence α)) (loaded : LoadedMetadata)
    (version? : Option RuntimeVersion) : Prop :=
  ∃ earlier turn later, past = earlier ++ turn :: later ∧
    submission.ReadsAt number (traced.run parser earlier) turn loaded ∧
    (traced.run parser earlier).client.session.runtimeVersion? = version?

theorem hasRead_append {past : List (Occurrence α)} (occurrence : Occurrence α)
    (loaded : LoadedMetadata) (version? : Option RuntimeVersion)
    (h : HasRead parser traced submission number past loaded version?) :
    HasRead parser traced submission number (past ++ [occurrence]) loaded version? := by
  obtain ⟨earlier, turn, later, rfl, hreads⟩ := h
  exact ⟨earlier, turn, later ++ [occurrence], by simp, hreads⟩

theorem advances_of_poll {past : List (Occurrence α)} {turn : Occurrence α}
    (hturn : turn.event = .poll number draws) {job : Job α}
    (hjob : (traced.run parser past).client.jobs.lookup number = some job)
    (hstage : Stage submission (HasRead parser traced submission number past) job) :
    Advances submission (HasRead parser traced submission number (past ++ [turn]))
      (job.poll number draws (traced.run parser past).client.session) := by
  refine (hstage.mono (hasRead_append turn)).poll fun loaded hfresh hmetadata => ?_
  subst hfresh
  exact ⟨past, turn, [], rfl, ⟨⟨draws, hturn⟩, hjob, hmetadata⟩, rfl⟩

theorem stage_run (parser : MetadataParser)
    (hfresh : traced.client.jobs.lookup number = some (.running submission.program))
    (during : List (Occurrence α))
    (hduring : ∀ occurrence ∈ during, ∀ program, occurrence.event ≠ .start number program) :
    Client.Holds (Stage submission (HasRead parser traced submission number during))
      (traced.run parser during).client.jobs number := by
  -- From the end of the run, as what a submission has read lies before its stage.
  induction during using List.reverseRecOn with
  | nil =>
      intro job hjob
      cases Option.some.inj (hfresh.symm.trans hjob)
      exact .fresh
  | append_singleton past occurrence ih =>
      have hpast := ih fun other hother => hduring other (List.mem_append_left _ hother)
      have hstart := hduring occurrence (by simp)
      rw [Traced.run_append_singleton, Traced.step_client]
      by_cases hturn : ∃ draws, occurrence.event = .poll number draws
      · obtain ⟨draws, hturn⟩ := hturn
        rw [hturn]
        change Client.Holds _ (Client.poll _ number draws).1.jobs number
        unfold Client.poll
        split
        case h_1 job hjob =>
          intro found hfound
          rw [Assoc.lookup_put, if_pos rfl, Option.some.injEq] at hfound
          subst hfound
          exact (advances_of_poll hturn hjob (hpast job hjob)).job
        case h_2 hnone =>
          intro found hfound
          rw [hnone] at hfound
          cases hfound
      · refine Client.step_holds stage_stable hstart (fun draws h => hturn ⟨draws, h⟩) ?_
        exact fun job hjob => (hpast job hjob).mono (hasRead_append occurrence)

/-- A run up to the start of a submission. -/
def started (parser : MetadataParser) (cache : Store) (before : List (Occurrence α))
    (number : Nat) (submission : Submission α) : Traced α :=
  (Traced.start cache).run parser (before ++ [⟨.start number submission.program, none⟩])

theorem started_fresh (parser : MetadataParser) (cache : Store)
    (before : List (Occurrence α)) (number : Nat) (submission : Submission α) :
    (started parser cache before number submission).client.jobs.lookup number =
      some (.running submission.program) := by
  rw [started, Traced.run_append_singleton]
  exact (Assoc.lookup_put number number _ _).trans (if_pos rfl)

theorem started_run_grounded (cache : Store) (before past : List (Occurrence α)) :
    ((started parser cache before number submission).run parser past).Grounded := by
  rw [started, ← Traced.run_append]
  exact Traced.run_grounded parser cache _

theorem loadedFor_iff_current {moment : Traced α} {version : RuntimeVersion}
    (hgrounded : moment.Grounded)
    (hversion : moment.client.session.runtimeVersion? = none ∨
      moment.client.session.runtimeVersion? = some version) :
    moment.provenance.loadedFor? = some version ↔ moment.Current := by
  rcases hversion with hnone | hsome
  · constructor
    · intro hloadedFor
      rw [hgrounded.loadedFor? hnone] at hloadedFor
      cases hloadedFor
    · rintro ⟨current, hcurrent, -⟩
      rw [hnone] at hcurrent
      cases hcurrent
  · constructor
    · exact fun hloadedFor => ⟨version, hsome, hloadedFor⟩
    · rintro ⟨current, hcurrent, hloadedFor⟩
      rw [hsome, Option.some.injEq] at hcurrent
      rw [hloadedFor, hcurrent]

/-- Whatever happens in a run, a transaction that is submitted is built from the
metadata of the moment at which its job first found metadata.  That metadata was loaded
for the version whose numbers are signed exactly if, at that moment, it was loaded for
the version announced last.  The job's number stands for this submission as long as no
other job is started under it. -/
theorem submitted_for_one_runtime_iff (parser : MetadataParser) (cache : Store)
    (before : List (Occurrence α)) (number : Nat) (submission : Submission α)
    (during : List (Occurrence α))
    (hduring : ∀ occurrence ∈ during, ∀ program, occurrence.event ≠ .start number program)
    (turn : Occurrence α) (draws : List UInt64) (hturn : turn.event = .poll number draws)
    (link : Nat) (request : Request)
    (hsent : .send link request ∈
      (((started parser cache before number submission).run parser
        during).client.step parser
        turn.event).2)
    (hmethod : request.method = Rpc.submitAndWatch) :
    ∃ earlier read later moment loaded version,
      during ++ [turn] = earlier ++ read :: later ∧
      moment = (started parser cache before number submission).run parser earlier ∧
      submission.ReadsAt number moment read loaded ∧
      (moment.client.session.runtimeVersion? = none ∨
        moment.client.session.runtimeVersion? = some version) ∧
      submission.BuiltFrom loaded.metadata version request.params ∧
      (moment.provenance.loadedFor? = some version ↔ moment.Current) := by
  have hstage :=
    stage_run parser (started_fresh parser cache before number submission) during hduring
  rw [hturn] at hsent
  change _ ∈ (Client.poll _ number draws).2 at hsent
  unfold Client.poll at hsent
  split at hsent
  case h_2 => cases hsent
  case h_1 job hjob =>
    obtain ⟨loaded, version?, version, hread, hversion, hbuilt⟩ :=
      (advances_of_poll hturn hjob (hstage job hjob)).sends link request hsent hmethod
    obtain ⟨earlier, read, later, hsplit, hreads⟩ := hread
    rw [← hreads.2] at hversion
    refine ⟨earlier, read, later, _, loaded, version, hsplit, rfl, hreads.1, hversion,
      hbuilt, ?_⟩
    exact loadedFor_iff_current (started_run_grounded cache before earlier) hversion

/-! A call without parameters under metadata that asks for the version of the runtime.  The
signature shows what it is for. -/

def versionCheck : Metadata :=
  ⟨⟨[(0, .primitive (.unsigned 32))]⟩, [], [⟨"CheckSpecVersion", 0, 0⟩]⟩

def versionChecked : MetadataParser := fun _ => .ok versionCheck

def remark : Submission Unit where
  context :=
    { hasher := .standard
      signer :=
        ⟨.replicate 32 0, fun payload => .ofFn fun i => payload.getD i 0, fun _ => ""⟩
      system := .unknown
      genesis := ⟨.replicate 32 0⟩ }
  palletIndex := 0
  call := ⟨1, "remark", [], []⟩
  params := []
  finish := fun _ => ()

/-- The text of a transaction that is sent. -/
def submitted? : Effect → Option String
  | .send _ ⟨_, method, [.string text]⟩ =>
      if method = Rpc.submitAndWatch then some text else none
  | _ => none

/-- A runtime is announced, and its metadata comes. -/
def firstRuntime : List (Occurrence Unit) :=
  [⟨.attach ⟨0, true⟩, none⟩, Traced.announcing "1", Traced.answering 0 "0x01"]

theorem submitted_for_one_runtime_iff_remark :
    ∃ link request,
      .send link request ∈
        ((started versionChecked .emptyMemory firstRuntime 0 remark).client.step
        versionChecked (.poll 0 [7])).2 ∧
      request.method = Rpc.submitAndWatch ∧
      ∃ earlier read later moment loaded version,
        [⟨.poll 0 [7], none⟩] = earlier ++ read :: later ∧
        moment =
          (started versionChecked .emptyMemory firstRuntime 0 remark).run versionChecked
            earlier ∧
        remark.ReadsAt 0 moment read loaded ∧
        (moment.client.session.runtimeVersion? = none ∨
          moment.client.session.runtimeVersion? = some version) ∧
        remark.BuiltFrom loaded.metadata version request.params ∧
        (moment.provenance.loadedFor? = some version ↔ moment.Current) := by
  have hany :
      (((started versionChecked .emptyMemory firstRuntime 0 remark).client.step
        versionChecked (.poll 0 [7])).2.any fun effect => (submitted? effect).isSome) =
          true := by
    decide +kernel
  obtain ⟨effect, hsent, hsubmitted⟩ := List.any_eq_true.mp hany
  unfold submitted? at hsubmitted
  split at hsubmitted
  case h_2 => cases hsubmitted
  case h_1 link id method text =>
    split at hsubmitted
    case isFalse => cases hsubmitted
    case isTrue hmethod =>
      exact ⟨link, _, hsent, hmethod,
        submitted_for_one_runtime_iff versionChecked .emptyMemory firstRuntime 0 remark []
          nofun ⟨.poll 0 [7], none⟩ [7] rfl link _ hsent hmethod⟩

/-- While the metadata of a second runtime is waited for, the numbers of the second one are
signed over what was encoded with the metadata of the first. -/
theorem stale_metadata_submitted :
    ∃ moment text,
      moment =
        (started versionChecked .emptyMemory firstRuntime 0 remark).run versionChecked
          [Traced.announcing "2"] ∧
      (moment.client.step versionChecked (.poll 0 [7])).2.filterMap submitted? = [text] ∧
      remark.context.signedText versionCheck ⟨"", "node", 0, 2, 0, 1⟩ none [0, 1] =
        .ok text ∧
      remark.context.signedText versionCheck ⟨"", "node", 0, 1, 0, 1⟩ none [0, 1] ≠
        .ok text ∧
      moment.client.session.metadata? = some ⟨versionCheck, true⟩ ∧
      remark.encoded versionCheck = .ok [0, 1] ∧
      moment.provenance.loadedFor? = some ⟨"", "node", 0, 1, 0, 1⟩ := by
  refine ⟨_, (remark.context.signedText versionCheck ⟨"", "node", 0, 2, 0, 1⟩ none
    [0, 1]).toOption.getD "", rfl, ?_⟩
  decide +kernel

end Submission

end ChainClient
