import ChainClient.Proofs.Client.Conversation
import ChainClient.Proofs.Context.Submission

/-! What a submission sends.  It asks for a nonce if the runtime checks one, then sends the
signed transaction, and stops before whatever it cannot make. -/

namespace ChainClient

namespace Submission

variable {α : Type} {submission : Submission α} {metadata : Metadata}
  {version : RuntimeVersion} {encoded : Bytes}

/-- The nonce that an answer holds. -/
def nonceIn? : Answer → Option Nat
  | .ok ⟨some result, none⟩ => result.toUInt64?
  | _ => none

/-- The text of the transaction in which a call is signed. -/
def transaction? (submission : Submission α) (metadata : Metadata)
    (version : RuntimeVersion) (encoded : Bytes) (nonce? : Option Nat) : Option String := do
  let data ← (buildExtensions metadata.registry
    ⟨version.specVersion, version.transactionVersion, submission.context.genesis, nonce?⟩
    metadata.extensions).toOption
  let bytes ← (Extrinsic.sign submission.context.signer submission.context.hasher encoded
    data).toBytes.toOption
  return Hex.encode0x bytes

/-- The message that a transaction is submitted with, if it can be made. -/
def submitting (submission : Submission α) (metadata : Metadata) (version : RuntimeVersion)
    (encoded : Bytes) (nonce? : Option Nat) : List Question :=
  (submission.transaction? metadata version encoded nonce?).toList.map fun text =>
    (Rpc.submitAndWatch, [.string text])

/-- What a submission sends when it is given these answers. -/
def messages (submission : Submission α) (metadata : Metadata) (version : RuntimeVersion)
    (answers : List Answer) : List Question :=
  match submission.encoded metadata with
  | .error _ => []
  | .ok encoded =>
      if ∃ extension ∈ metadata.extensions, extension.name = "CheckNonce" then
        (Rpc.accountNextIndex,
            [.string (submission.context.signer.address
              submission.context.system.ss58Format)]) ::
          match answers.head?.bind nonceIn? with
          | some nonce => submission.submitting metadata version encoded (some nonce)
          | none => []
      else submission.submitting metadata version encoded none

theorem requiresNonce_iff (extensions : List SignedExtension) :
    requiresNonce extensions = true ↔
      ∃ extension ∈ extensions, extension.name = "CheckNonce" := by
  have hkind : ∀ extension : SignedExtension,
      extension.kind? = some .checkNonce ↔ extension.name = "CheckNonce" := by
    intro extension
    unfold SignedExtension.kind? ExtensionKind.ofName?
    constructor
    · intro h
      have hname := List.find?_some h
      exact (of_decide_eq_true hname).symm
    · intro h
      rw [h]
      rfl
  simp only [requiresNonce, List.any_eq_true, decide_eq_true_eq, hkind]

theorem toOption_signedText (nonce? : Option Nat) :
    (submission.context.signedText metadata version nonce? encoded).toOption =
      submission.transaction? metadata version encoded nonce? := by
  unfold Context.signedText transaction? Extrinsic.render
  dsimp only
  cases buildExtensions metadata.registry
    ⟨version.specVersion, version.transactionVersion, submission.context.genesis, nonce?⟩
    metadata.extensions with
  | error error => rfl
  | ok data =>
      change (Except.mapError _ (Except.map _ (Extrinsic.toBytes _))).toOption =
        (Extrinsic.toBytes _).toOption.bind _
      cases (Extrinsic.sign submission.context.signer submission.context.hasher encoded
        data).toBytes <;> rfl

/-! The parts of a submission. -/

/-- How an answer about the nonce is read. -/
def readNonce (answer : Answer) : Except SessionError Nat := do
  let result ← answer >>= Response.toResult
  match result.toUInt64? with
  | some nonce => .ok nonce
  | none =>
      .error (.unexpectedResponse Rpc.accountNextIndex (some ("nonce " ++ result.render)))

theorem toOption_readNonce (answer : Answer) :
    (readNonce answer).toOption = nonceIn? answer := by
  unfold nonceIn?
  split
  case h_1 result =>
    change (match result.toUInt64? with | some _ => _ | none => _ : Except _ _).toOption = _
    cases result.toUInt64? <;> rfl
  case h_2 hother =>
    cases answer with
    | error error => rfl
    | ok response =>
        obtain ⟨result?, error?⟩ := response
        cases error? with
        | some error => rfl
        | none =>
            cases result? with
            | none => rfl
            | some result => exact absurd rfl (hother result)

theorem run_accountNonce (context : Context) :
    context.accountNonce.run =
      .call Rpc.accountNextIndex [.string context.address] fun answer =>
        .done (readNonce answer) := by
  unfold Context.accountNonce
  rw [ExceptT.run_bind, Program.run_request]
  change Program.call _ _ _ = _
  congr 1
  funext answer
  simp only [Program.bind, readNonce]
  cases answer >>= Response.toResult with
  | error error => rfl
  | ok result =>
      simp only [ok_bind]
      cases result.toUInt64? <;> rfl

/-- What is left of a submission when the nonce is known. -/
def afterNonce (context : Context) (metadata : Metadata) (version : RuntimeVersion)
    (encoded : Bytes) (nonce? : Option Nat) : FallibleProgram SubmitError String := do
  let text ← context.signedText metadata version nonce? encoded
  (Program.subscription Rpc.submitAndWatch [.string text]).adapt .session

theorem run_submitEncoded_of_unchecked (context : Context)
    (h : requiresNonce metadata.extensions = false) :
    (context.submitEncoded metadata encoded version).run =
      (afterNonce context metadata version encoded none).run := by
  change ((context.nonceFor? metadata.extensions).adapt SubmitError.session >>=
    afterNonce context metadata version encoded).run = _
  unfold Context.nonceFor?
  simp only [h, Bool.false_eq_true, if_false, ExceptT.run_bind]
  rfl

theorem run_submitEncoded_of_checked (context : Context)
    (h : requiresNonce metadata.extensions = true) :
    (context.submitEncoded metadata encoded version).run =
      .call Rpc.accountNextIndex [.string context.address] fun answer =>
        match readNonce answer with
        | .ok nonce => (afterNonce context metadata version encoded (some nonce)).run
        | .error error => .done (.error (.session error)) := by
  have hnonce : ((context.nonceFor? metadata.extensions).adapt SubmitError.session).run =
      .call Rpc.accountNextIndex [.string context.address] fun answer =>
        .done ((some <$> readNonce answer).mapError SubmitError.session) := by
    change Except.mapError SubmitError.session <$>
      (context.nonceFor? metadata.extensions).run = _
    unfold Context.nonceFor?
    rw [if_pos h, ExceptT.run_bind, run_accountNonce]
    change Program.call _ _ _ = _
    congr 1
    funext answer
    simp only [Program.bind]
    cases readNonce answer <;> rfl
  change ((context.nonceFor? metadata.extensions).adapt SubmitError.session >>=
    afterNonce context metadata version encoded).run = _
  rw [ExceptT.run_bind, hnonce]
  change Program.call _ _ _ = _
  congr 1
  funext answer
  simp only [Program.bind]
  cases readNonce answer <;> rfl

/-! What the parts ask for. -/

theorem questions_afterNonce (nonce? : Option Nat) (answers : List Answer) :
    (afterNonce submission.context metadata version encoded nonce?).run.questions answers =
      submission.submitting metadata version encoded nonce? := by
  unfold submitting afterNonce
  rw [← toOption_signedText, ExceptT.run_bind]
  cases submission.context.signedText metadata version nonce? encoded with
  | error error => rfl
  | ok text =>
      change (Except.mapError SubmitError.session <$>
        (Program.subscription Rpc.submitAndWatch [.string text]).run).questions answers = _
      rw [Program.questions_map, Program.questions_subscription]
      rfl

theorem onlyAsks_afterNonce (context : Context) (nonce? : Option Nat) :
    (afterNonce context metadata version encoded nonce?).run.OnlyAsks
      (· = Rpc.submitAndWatch) := by
  unfold afterNonce
  rw [ExceptT.run_bind]
  cases context.signedText metadata version nonce? encoded with
  | error error => trivial
  | ok text =>
      have hsubscription :
          (Program.subscription Rpc.submitAndWatch [.string text]).run.OnlyAsks
          (· = Rpc.submitAndWatch) := by
        refine Program.onlyAsks_subscription ?_ _
        rfl
      exact hsubscription.map (Except.mapError SubmitError.session)

/-- What a submission does once there are metadata and a version. -/
def afterReading (submission : Submission α) (metadata : Metadata)
    (version : RuntimeVersion) : Program α :=
  match submission.encoded metadata with
  | .ok encoded => submission.afterEncoding metadata encoded version
  | .error error => .done (submission.finish (.error (.extrinsic error)))

theorem run_program {listener : Listener} {draws : List UInt64} {session : Session}
    {loaded : LoadedMetadata} (hmetadata : session.metadata? = some loaded)
    (hcapable : loaded.signingCapable = true)
    (hversion : session.runtimeVersion? = some version) :
    Job.run listener draws session submission.program =
      Job.run listener draws session (submission.afterReading loaded.metadata version) := by
  have hprogram : submission.program = .metadata fun loaded =>
      submission.finish <$> submission.context.submitWith submission.palletIndex
        submission.call submission.params loaded := by
    rw [program, Context.run_submit]
    rfl
  rw [hprogram, Job.run, hmetadata]
  simp only [Context.submitWith, hcapable, if_true, afterReading, encoded]
  cases encodeCall loaded.metadata.registry submission.palletIndex submission.call
    submission.params with
  | error error => rfl
  | ok encoded =>
      change Job.run listener draws session (.runtimeVersion _) = _
      rw [Job.run, hversion]
      rfl

theorem questions_afterReading (answers : List Answer) :
    (submission.afterReading metadata version).questions answers =
      submission.messages metadata version answers := by
  unfold afterReading messages
  cases submission.encoded metadata with
  | error error => rfl
  | ok encoded =>
      dsimp only
      rw [afterEncoding, Program.questions_map]
      cases hchecked : requiresNonce metadata.extensions with
      | false =>
          have hnone : ¬ ∃ extension ∈ metadata.extensions,
              extension.name = "CheckNonce" := by
            rw [← requiresNonce_iff, hchecked]
            nofun
          rw [if_neg hnone, run_submitEncoded_of_unchecked _ hchecked, questions_afterNonce]
      | true =>
          rw [if_pos ((requiresNonce_iff _).mp hchecked),
            run_submitEncoded_of_checked _ hchecked]
          cases answers with
          | nil => rfl
          | cons answer rest =>
              simp only [Program.questions, List.head?_cons, Option.bind_some,
                ← toOption_readNonce]
              cases readNonce answer with
              | error error => rfl
              | ok nonce => exact congrArg _ (questions_afterNonce (some nonce) rest)

theorem onlyAsks_afterReading (submission : Submission α) (metadata : Metadata)
    (version : RuntimeVersion) :
    (submission.afterReading metadata version).OnlyAsks (· = Rpc.submitAndWatch) := by
  unfold afterReading
  cases submission.encoded metadata with
  | error error => trivial
  | ok encoded =>
      refine Program.OnlyAsks.map _ ?_
      cases hchecked : requiresNonce metadata.extensions with
      | false =>
          rw [run_submitEncoded_of_unchecked _ hchecked]
          exact onlyAsks_afterNonce _ none
      | true =>
          rw [run_submitEncoded_of_checked _ hchecked]
          intro answer
          dsimp only
          cases readNonce answer with
          | error error => trivial
          | ok nonce => exact onlyAsks_afterNonce _ (some nonce)

/-! Submissions in a run. -/

open Client

/-- What a submission sends in a run. -/
structure SendsInOrder (parser : MetadataParser) (number : Nat) (client : Client α)
    (events : List (Event α)) (submission : Submission α) (metadata : Metadata)
    (version : RuntimeVersion) : Prop where
  /-- Nothing else is sent, and nothing is sent before its turn. -/
  asks : (conversation parser number client events).questions <+:
    submission.messages metadata version (conversation parser number client events).answers
  asked : (client.run parser events).1.Rests number →
    (conversation parser number client events).questions =
      submission.messages metadata version
        (conversation parser number client events).answers
  /-- A job that has not been cancelled rests after a turn
  for which an id could be drawn. -/
  rests : ∀ earlier draws, events = earlier ++ [.poll number draws] →
    ((client.run parser earlier).1.session.freshId? draws).isSome →
    ((client.run parser earlier).1.jobs.lookup number).isSome →
      (client.run parser events).1.Rests number
  /-- Whoever submits is not listened for unless the transaction was sent. -/
  heard : ¬ client.session.Heard number →
    (client.run parser events).1.session.Heard number →
    ∃ params, (Rpc.submitAndWatch, params) ∈
      (conversation parser number client events).questions

/-- A submission sends the messages that it is made for by the answers, each once and in
their order, and nobody listens for its status before the transaction is sent. -/
theorem submission_sends_in_order (parser : MetadataParser) (cache : Store)
    (before : List (Event α)) (number : Nat) (submission : Submission α)
    {loaded : LoadedMetadata} {version : RuntimeVersion}
    (hjob : (after parser cache before).jobs.lookup number =
      some (.running submission.program))
    (hmetadata : (after parser cache before).session.metadata? = some loaded)
    (hcapable : loaded.signingCapable = true)
    (hversion : (after parser cache before).session.runtimeVersion? = some version)
    (draws : List UInt64) (later : List (Event α))
    (hserved : Served parser number (after parser cache before)
      (.poll number draws :: later)) :
    SendsInOrder parser number (after parser cache before) (.poll number draws :: later)
      submission loaded.metadata version := by
  have horderly := after_orderly parser cache before
  have hreads :
      Reads (· = Rpc.submitAndWatch) number draws (after parser cache before).session
      submission.program (submission.afterReading loaded.metadata version) :=
    ⟨run_program hmetadata hcapable hversion, onlyAsks_afterReading submission _ version⟩
  have hconverses := turn_converses horderly hjob hreads hserved
  constructor
  case asks =>
    rw [← questions_afterReading]
    exact hconverses.asks
  case asked =>
    intro hrests
    rw [← questions_afterReading]
    exact hconverses.asked hrests
  case rests => exact hconverses.rests
  case heard =>
    intro hunheard hheard
    rcases turn_heard horderly hjob hreads hserved hheard with
      hbefore | ⟨⟨method, params⟩, hmem, hmethod⟩
    · exact absurd hbefore hunheard
    · obtain rfl : method = Rpc.submitAndWatch := hmethod
      exact ⟨params, hmem⟩

/-! A runtime that checks nonces, and an account whose next one is five. -/

def nonceCheck : Metadata :=
  ⟨⟨[(0, .primitive (.unsigned 32))]⟩, [], [⟨"CheckNonce", 0, 0⟩]⟩

def nonceChecked : MetadataParser := fun _ => .ok nonceCheck

def noncedStart : List (Event Unit) :=
  firstRuntime.map Occurrence.event ++ [.start 0 remark.program]

def noncedRun : List (Event Unit) :=
  [.poll 0 [7], .receive 0 "\x7b\"id\":\"0000000000000007\",\"result\":5\x7d", .poll 0 [8]]

theorem messages_of_nonce {answers : List Answer} {nonce : Nat} {text : String}
    (hencoded : submission.encoded metadata = .ok encoded)
    (hchecked : ∃ extension ∈ metadata.extensions, extension.name = "CheckNonce")
    (hnonce : answers.head?.bind nonceIn? = some nonce)
    (htext : submission.transaction? metadata version encoded (some nonce) = some text) :
    submission.messages metadata version answers =
      [(Rpc.accountNextIndex, [.string submission.context.address]),
        (Rpc.submitAndWatch, [.string text])] := by
  simp only [messages, hencoded, if_pos hchecked, hnonce, submitting, htext]
  rfl

theorem submission_sends_in_order_nonced :
    ∃ text,
      remark.transaction? nonceCheck ⟨"", "node", 0, 1, 0, 1⟩ [0, 1] (some 5) = some text ∧
      (conversation nonceChecked 0 (after nonceChecked .emptyMemory noncedStart)
        noncedRun).questions =
          [(Rpc.accountNextIndex, [.string ""]), (Rpc.submitAndWatch, [.string text])] := by
  have hjob : (after nonceChecked .emptyMemory noncedStart).jobs.lookup 0 =
      some (.running remark.program) := (Assoc.lookup_put 0 0 _ _).trans (if_pos rfl)
  obtain ⟨hmetadata, hversion⟩ :
      (after nonceChecked .emptyMemory noncedStart).session.metadata? =
        some ⟨nonceCheck, true⟩ ∧
      (after nonceChecked .emptyMemory noncedStart).session.runtimeVersion? =
        some ⟨"", "node", 0, 1, 0, 1⟩ := by decide +kernel
  obtain ⟨hfirst, hlast, hdraws, hpresent, hnonces⟩ :
      (after nonceChecked .emptyMemory noncedStart).session.link? = some ⟨0, true⟩ ∧
      ((after nonceChecked .emptyMemory noncedStart).run nonceChecked
        (noncedRun.take 2)).1.session.link? = some ⟨0, true⟩ ∧
      (((after nonceChecked .emptyMemory noncedStart).run nonceChecked
        (noncedRun.take 2)).1.session.freshId? [8]).isSome ∧
      (((after nonceChecked .emptyMemory noncedStart).run nonceChecked
        (noncedRun.take 2)).1.jobs.lookup 0).isSome ∧
      (conversation nonceChecked 0 (after nonceChecked .emptyMemory noncedStart)
        noncedRun).answers.map nonceIn? = [some 5] := by decide +kernel
  have hserved : Served nonceChecked 0 (after nonceChecked .emptyMemory noncedStart)
      noncedRun :=
    ⟨nofun, fun _ _ => ⟨_, hfirst, rfl⟩, nofun, nofun, nofun,
      fun _ _ => ⟨_, hlast, rfl⟩, trivial⟩
  have hsends := submission_sends_in_order nonceChecked .emptyMemory noncedStart 0 remark
    hjob hmetadata rfl hversion _ _ hserved
  have hrests := hsends.rests (noncedRun.take 2) [8] rfl hdraws hpresent
  obtain ⟨answer, hanswers, hnonce⟩ := List.map_eq_singleton_iff.mp hnonces
  obtain ⟨text, htext⟩ : ∃ text,
      remark.transaction? nonceCheck ⟨"", "node", 0, 1, 0, 1⟩ [0, 1] (some 5) = some text :=
    Option.isSome_iff_exists.mp (by decide +kernel)
  have hhead : (conversation nonceChecked 0 (after nonceChecked .emptyMemory noncedStart)
      noncedRun).answers.head?.bind nonceIn? = some 5 := by
    rw [hanswers]
    exact hnonce
  refine ⟨text, htext, (hsends.asked hrests).trans ?_⟩
  exact messages_of_nonce rfl (by decide) hhead htext

end Submission

end ChainClient
