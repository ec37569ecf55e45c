import ChainClient.Proofs.Client.Refreshing
import ChainClient.Proofs.Session.Facts

/-! What two clients report of a node that has answered one query alike. -/

namespace ChainClient.Client

variable {α : Type} {parser parser' : MetadataParser} {cache cache' : Store}
  {past past' : List (Event α)} {query : Rpc.SystemQuery}

theorem nodup_answers (parser : MetadataParser) (cache : Store) (past : List (Event α)) :
    (Assoc.keys (after parser cache past).session.answers).Nodup := by
  induction past using List.reverseRecOn with
  | nil => exact .nil
  | append_singleton past event ih =>
      rw [after_append_singleton]
      cases hanswer : (after parser cache past).systemAnswer? event with
      | none =>
          rw [(step_of_unanswering parser hanswer).1]
          exact ih
      | some entry =>
          rw [step_of_systemAnswer parser hanswer]
          exact Assoc.nodup_keys_put ih

/-- The last answer to a query that came in a run, unless that is null or an error. -/
def lastAnswer? (parser : MetadataParser) (cache : Store) (past : List (Event α))
    (query : Rpc.SystemQuery) : Option Json :=
  (((new (.detached cache)).systemAnswers parser past).reverse.lookup query).filter
    (!·.isNull)

theorem known?_after (parser : MetadataParser) (cache : Store) (past : List (Event α))
    (query : Rpc.SystemQuery) :
    (after parser cache past).session.known? query =
      lastAnswer? parser cache past query := by
  rw [Session.known?, after, lookup_answers, lastAnswer?]
  simp [new, Session.detached]

/-- Answers to other queries do not change it. -/
theorem lastAnswer?_append_singleton {event : Event α}
    (hother : ((after parser cache past).systemAnswer? event).map Prod.fst ≠ some query) :
    lastAnswer? parser cache (past ++ [event]) query =
      lastAnswer? parser cache past query := by
  rw [← known?_after, ← known?_after, after_append_singleton, Session.known?,
    Session.known?]
  cases hanswer : (after parser cache past).systemAnswer? event with
  | none => rw [(step_of_unanswering parser hanswer).1]
  | some entry =>
      have hne : query ≠ entry.1 := by
        rintro rfl
        exact hother (by rw [hanswer]; rfl)
      rw [step_of_systemAnswer parser hanswer]
      simp only [Assoc.lookup_put, if_neg hne]

/-- Facts are reported as their answers say if all answers can be read, and as
unknown otherwise.  So two clients that got the same answer to a query report the
same fact exactly if all answers can be read in both or in neither, or if this answer
says no more than the default. -/
theorem fact_independent_iff
    (hsame : lastAnswer? parser cache past query = lastAnswer? parser' cache' past' query) :
    ((after parser cache past).session.Legible →
      (after parser cache past).session.reading? query =
        some ((after parser cache past).session.systemInfo.fact query)) ∧
    (¬ (after parser cache past).session.Legible →
      (after parser cache past).session.systemInfo = .unknown) ∧
    ((after parser cache past).session.systemInfo.fact query =
        (after parser' cache' past').session.systemInfo.fact query ↔
      ((after parser cache past).session.Legible ↔
        (after parser' cache' past').session.Legible) ∨
        (after parser cache past).session.reading? query =
          some (SystemInfo.unknown.fact query)) := by
  have hnodup := nodup_answers parser cache past
  refine ⟨fun hlegible => Session.fact_of_legible hnodup hlegible query,
    Session.systemInfo_of_illegible hnodup,
    Session.fact_eq_iff hnodup (nodup_answers parser' cache' past') ?_⟩
  rw [known?_after, known?_after, hsame]

/-! A chain declares its format of addresses, and is then called by a number. -/

def declared : List (Event Unit) :=
  [.attach ⟨0, true⟩,
    .receive 0 "\x7b\"id\":\"properties\",\"result\":\x7b\"ss58Format\":0\x7d\x7d"]

def misnamed : List (Event Unit) :=
  declared ++ [.receive 0 "\x7b\"id\":\"chain\",\"result\":5\x7d"]

def unnamed : List (Event Unit) :=
  misnamed ++ [.receive 0
    "\x7b\"id\":\"chain\",\"error\":\x7b\"code\":1,\"message\":\"m\"\x7d\x7d"]

theorem lastAnswer?_misnamed :
    lastAnswer? parseMetadata .emptyMemory declared .properties =
      lastAnswer? parseMetadata .emptyMemory misnamed .properties :=
  (lastAnswer?_append_singleton (by decide +kernel)).symm

theorem fact_independent_iff_unnamed :
    lastAnswer? parseMetadata .emptyMemory declared .properties =
        lastAnswer? parseMetadata .emptyMemory unnamed .properties ∧
      (after parseMetadata .emptyMemory declared).session.Legible ∧
      (after parseMetadata .emptyMemory unnamed).session.Legible ∧
      (after parseMetadata .emptyMemory declared).session.systemInfo.fact .properties =
        (after parseMetadata .emptyMemory unnamed).session.systemInfo.fact .properties ∧
      (after parseMetadata .emptyMemory unnamed).session.systemInfo.ss58Format = 0 := by
  have hsame : lastAnswer? parseMetadata .emptyMemory declared .properties =
      lastAnswer? parseMetadata .emptyMemory unnamed .properties :=
    lastAnswer?_misnamed.trans (lastAnswer?_append_singleton (by decide +kernel)).symm
  have hlegible : (after parseMetadata .emptyMemory declared).session.Legible := by
    decide +kernel
  have hunnamed : (after parseMetadata .emptyMemory unnamed).session.Legible := by
    decide +kernel
  obtain ⟨-, -, hfact⟩ := fact_independent_iff hsame
  have hproperties := hfact.mpr (.inl (iff_of_true hlegible hunnamed))
  refine ⟨hsame, hlegible, hunnamed, hproperties, ?_⟩
  rw [← SystemInfo.ss58Format_congr hproperties]
  decide +kernel

/-- The answer about the properties is the same, and only without
the other one is it reported. -/
theorem misnamed_loses_format :
    lastAnswer? parseMetadata .emptyMemory declared .properties =
        lastAnswer? parseMetadata .emptyMemory misnamed .properties ∧
      (after parseMetadata .emptyMemory declared).session.systemInfo.fact .properties ≠
        (after parseMetadata .emptyMemory misnamed).session.systemInfo.fact .properties ∧
      (after parseMetadata .emptyMemory declared).session.systemInfo.ss58Format = 0 ∧
      (after parseMetadata .emptyMemory misnamed).session.systemInfo.ss58Format =
        SystemInfo.defaultFormat := by
  have hformat :
      (after parseMetadata .emptyMemory declared).session.systemInfo.ss58Format = 0 := by
    decide +kernel
  have hlost : (after parseMetadata .emptyMemory misnamed).session.systemInfo.ss58Format =
      SystemInfo.defaultFormat := by
    decide +kernel
  refine ⟨lastAnswer?_misnamed, fun hsame => ?_, hformat, hlost⟩
  have hequal := SystemInfo.ss58Format_congr hsame
  rw [hformat, hlost] at hequal
  cases hequal

end ChainClient.Client
