import ChainClient.Proofs.Client.Delivery
import ChainClient.Proofs.Context.Submission

/-! Whether transactions can be signed is told twice, by the phase of a session and by its
metadata.  The two agree in every run, and what cannot be signed never reaches the node. -/

namespace ChainClient

def knownExtensions : List String :=
  ["CheckSpecVersion", "CheckTxVersion", "CheckGenesis", "CheckMortality", "CheckNonce",
    "ChargeTransactionPayment"]

theorem SignedExtension.kind?_isSome (extension : SignedExtension) :
    extension.kind?.isSome ↔ extension.name ∈ knownExtensions := by
  have hnames : knownExtensions = ExtensionKind.all.map ExtensionKind.name := rfl
  rw [kind?, ExtensionKind.ofName?, List.find?_isSome, hnames, List.mem_map]
  simp only [decide_eq_true_eq]

/-- Metadata tells rightly whether all its extensions are known. -/
def LoadedMetadata.Truthful (loaded : LoadedMetadata) : Prop :=
  loaded.signingCapable = true ↔
    ∀ extension ∈ loaded.metadata.extensions, extension.name ∈ knownExtensions

theorem truthful_of_parse {parser : MetadataParser} {text : String}
    {loaded : LoadedMetadata} (h : LoadedMetadata.parse parser text = .ok loaded) :
    loaded.Truthful := by
  unfold LoadedMetadata.parse at h
  obtain ⟨bytes, -, h⟩ := bind_eq_ok.mp h
  obtain ⟨metadata, -, h⟩ := bind_eq_ok.mp h
  cases h
  simp only [LoadedMetadata.Truthful, signingCapable, List.all_eq_true,
    SignedExtension.kind?_isSome]

namespace Session

variable {parser : MetadataParser} {session session' : Session}

/-- Metadata that tells rightly what it can is published, and
the session gets ready with it. -/
def Publishes (session' : Session) : Prop :=
  ∃ loaded : LoadedMetadata, loaded.Truthful ∧ session'.metadata? = some loaded ∧
    session'.phase = .ready loaded.signingCapable

/-- The metadata stays as it is, and the session does not get ready. -/
structure Holds (session session' : Session) : Prop where
  metadata? : session'.metadata? = session.metadata?
  ready : ∀ capable, session'.phase = .ready capable → session.phase = .ready capable

theorem Keeps.holds (h : Keeps session session') : Holds session session' :=
  ⟨h.metadata?, h.ready⟩

theorem announce_publishes_or_holds (session : Session) (version : RuntimeVersion) :
    (session.announce parser version).1.Publishes ∨
      Holds session (session.announce parser version).1 := by
  cases hcached : session.cachedMetadata? parser version with
  | some loaded =>
      obtain ⟨text, -, hparse⟩ := Option.bind_eq_some_iff.mp hcached
      obtain ⟨hmetadata, hphase⟩ := announce_of_cached hcached
      exact .inl ⟨loaded, truthful_of_parse (ok_of_toOption hparse), hmetadata, hphase⟩
  | none =>
      obtain ⟨hmetadata, hphase⟩ := announce_of_uncached hcached
      refine .inr ⟨hmetadata, fun capable hready => ?_⟩
      rw [hphase] at hready
      cases hready

theorem takeMetadata_publishes_or_holds (session : Session) (result? : Option Json) :
    (session.takeMetadata parser result?).Publishes ∨
      Holds session (session.takeMetadata parser result?) := by
  cases htext : usableText? parser result? with
  | some text =>
      obtain ⟨loaded, hparse, htake⟩ := takeMetadata_of_usable session htext
      rw [htake]
      exact .inl ⟨loaded, truthful_of_parse hparse, rfl, rfl⟩
  | none =>
      rw [takeMetadata_of_unusable htext]
      exact .inr (Keeps.refl session).holds

/-- The phase and the metadata of a session agree. -/
structure Consistent (session : Session) : Prop where
  truthful : ∀ loaded, session.metadata? = some loaded → loaded.Truthful
  ready : ∀ capable, session.phase = .ready capable →
    ∃ loaded, session.metadata? = some loaded ∧ loaded.signingCapable = capable

theorem Publishes.consistent (h : session.Publishes) : session.Consistent := by
  obtain ⟨loaded, htruthful, hmetadata, hphase⟩ := h
  constructor
  · intro found hfound
    obtain rfl := Option.some.inj (hmetadata.symm.trans hfound)
    exact htruthful
  · intro capable hready
    exact ⟨loaded, hmetadata, Phase.ready.inj (hphase.symm.trans hready)⟩

theorem Holds.consistent (h : Holds session session') (hsession : session.Consistent) :
    session'.Consistent := by
  constructor
  · rw [h.metadata?]
    exact hsession.truthful
  · rw [h.metadata?]
    exact fun capable hready => hsession.ready capable (h.ready capable hready)

end Session

/-! Runs. -/

namespace Client

variable {α : Type} {parser : MetadataParser} {client : Client α} {cache : Store}

theorem step_publishes_or_holds (parser : MetadataParser) (client : Client α)
    (event : Event α) :
    (client.step parser event).1.session.Publishes ∨
      Session.Holds client.session (client.step parser event).1.session := by
  cases harrival : client.arrival event with
  | announcement version =>
      rw [step_announcement harrival]
      exact Session.announce_publishes_or_holds client.session version
  | metadata result? =>
      rw [step_metadata harrival]
      exact Session.takeMetadata_publishes_or_holds client.session result?
  | other => exact .inr (step_other harrival).holds

theorem after_consistent (parser : MetadataParser) (cache : Store) (past : List (Event α)) :
    (after parser cache past).session.Consistent := by
  induction past using List.reverseRecOn with
  | nil => exact ⟨nofun, nofun⟩
  | append_singleton past event ih =>
      rw [after_append_singleton]
      rcases step_publishes_or_holds parser (after parser cache past) event with
        hpublishes | hholds
      · exact hpublishes.consistent
      · exact hholds.consistent ih

theorem metadata?_isSome_after_append {past : List (Event α)}
    (h : (after parser cache past).session.metadata?.isSome) (later : List (Event α)) :
    (after parser cache (past ++ later)).session.metadata?.isSome := by
  induction later using List.reverseRecOn with
  | nil => rwa [List.append_nil]
  | append_singleton later event ih =>
      rw [← List.append_assoc, after_append_singleton]
      rcases step_publishes_or_holds parser (after parser cache (past ++ later)) event with
        ⟨loaded, -, hmetadata, -⟩ | hholds
      · rw [hmetadata]
        rfl
      · rw [hholds.metadata?]
        exact ih

end Client

/-! Submitting. -/

namespace Submission

variable {α : Type}

theorem run_of_incapable (submission : Submission α) (listener : Listener)
    (draws : List UInt64) {session : Session} {loaded : LoadedMetadata}
    (hmetadata : session.metadata? = some loaded)
    (hincapable : loaded.signingCapable = false) :
    Job.run listener draws session submission.program =
      ⟨session, .finished (submission.finish (.error .signingUnsupported)), []⟩ := by
  have hprogram : submission.program = .metadata fun loaded =>
      submission.finish <$> submission.context.submitWith submission.palletIndex
        submission.call submission.params loaded := by
    rw [program, Context.run_submit]
    rfl
  rw [hprogram, Job.run, hmetadata]
  simp only [Context.submitWith, hincapable]
  rfl

end Submission

namespace Client

variable {α : Type}

/-- What is known in a run of whether transactions can be signed. -/
structure KnowsCapability (parser : MetadataParser) (cache : Store)
    (past : List (Event α)) : Prop where
  persists : (after parser cache past).session.metadata?.isSome →
    ∀ later, (after parser cache (past ++ later)).session.metadata?.isSome
  flag : ∀ loaded, (after parser cache past).session.metadata? = some loaded →
    (loaded.signingCapable = true ↔
      ∀ extension ∈ loaded.metadata.extensions, extension.name ∈ knownExtensions)
  ready : ∀ capable, (after parser cache past).session.phase = .ready capable →
    ∃ loaded, (after parser cache past).session.metadata? = some loaded ∧
      loaded.signingCapable = capable
  /-- A submission ends at once, and the session stays as it is. -/
  refuses : ∀ (number : Nat) (submission : Submission α) (draws : List UInt64)
    loaded extension,
    (after parser cache past).jobs.lookup number = some (.running submission.program) →
    (after parser cache past).session.metadata? = some loaded →
    extension ∈ loaded.metadata.extensions → extension.name ∉ knownExtensions →
      (after parser cache past).step parser (.poll number draws) =
        (⟨(after parser cache past).session,
          Assoc.put number (.finished (submission.finish (.error .signingUnsupported)))
            (after parser cache past).jobs⟩, [])

theorem knowsCapability (parser : MetadataParser) (cache : Store) (past : List (Event α)) :
    KnowsCapability parser cache past where
  persists := metadata?_isSome_after_append
  flag := (after_consistent parser cache past).truthful
  ready := (after_consistent parser cache past).ready
  refuses number submission draws loaded extension hjob hmetadata hextension hunknown := by
    have hincapable : loaded.signingCapable = false := by
      rw [← Bool.not_eq_true]
      intro hcapable
      have hknown :=
        ((after_consistent parser cache past).truthful loaded hmetadata).mp hcapable
      exact hunknown (hknown extension hextension)
    have hrun := submission.run_of_incapable number draws hmetadata hincapable
    simp only [step, poll, hjob, Job.poll, hrun]

/-! A runtime that asks for an extension which nobody here can fill in. -/

def hashedMetadata : MetadataParser :=
  fun _ => .ok ⟨.empty, [], [⟨"CheckNonce", 0, 0⟩, ⟨"CheckMetadataHash", 0, 0⟩]⟩

def unsignable : Submission (Except SubmitError String) where
  context := Submission.remark.context
  palletIndex := 0
  call := Submission.remark.call
  params := []
  finish := id

def unsignableRun : List (Event (Except SubmitError String)) :=
  [.attach ⟨0, true⟩,
    .receive 0
      ("\x7b\"method\":\"state_runtimeVersion\",\"params\":\x7b\"subscription\":0," ++
      "\"result\":[\"\",\"node\",0,1,0,1]\x7d\x7d"),
    .receive 0 "\x7b\"id\":\"metadata\",\"result\":\"0x01\"\x7d",
    .start 0 unsignable.program]

theorem knowsCapability_unsignable :
    (after hashedMetadata .emptyMemory unsignableRun).session.phase = .ready false ∧
        ∃ jobs,
          (after hashedMetadata .emptyMemory unsignableRun).step hashedMetadata
              (.poll 0 [1]) =
            (⟨(after hashedMetadata .emptyMemory unsignableRun).session, jobs⟩, []) ∧
          jobs.lookup 0 = some (.finished (.error .signingUnsupported)) := by
  have hphase :
      (after hashedMetadata .emptyMemory unsignableRun).session.phase = .ready false ∧
        (after hashedMetadata .emptyMemory unsignableRun).session.metadata? =
          some
            ⟨⟨.empty, [], [⟨"CheckNonce", 0, 0⟩, ⟨"CheckMetadataHash", 0, 0⟩]⟩, false⟩ := by
    decide +kernel
  have hjob : (after hashedMetadata .emptyMemory unsignableRun).jobs.lookup 0 =
      some (.running unsignable.program) :=
    (Assoc.lookup_put 0 0 _ _).trans (if_pos rfl)
  refine ⟨hphase.1, _, (knowsCapability hashedMetadata .emptyMemory unsignableRun).refuses 0
    unsignable [1] _ ⟨"CheckMetadataHash", 0, 0⟩ hjob hphase.2 (by decide) (by decide), ?_⟩
  exact (Assoc.lookup_put 0 0 _ _).trans (if_pos rfl)

end Client

end ChainClient
