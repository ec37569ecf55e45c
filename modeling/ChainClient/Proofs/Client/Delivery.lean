import ChainClient.Metadata.Convert
import ChainClient.Proofs.Client.Settling
import ChainClient.Proofs.History
import Mathlib.Data.List.Nodup

/-! Every call of a run is resolved by the first message that
answers it, and by no other. -/

namespace ChainClient.Client

variable {α : Type} {parser : MetadataParser} {cache : Store}

/-! Runs. -/

theorem run_append_singleton (client : Client α) (past : List (Event α)) (event : Event α) :
    client.run parser (past ++ [event]) =
      (((client.run parser past).1.step parser event).1,
        (client.run parser past).2 ++
          ((client.run parser past).1.step parser event).2) := by
  induction past generalizing client with
  | nil => simp [run]
  | cons first rest ih => simp [run, ih]

/-- What a new client comes to by some events. -/
def after (parser : MetadataParser) (cache : Store) (past : List (Event α)) : Client α :=
  ((new (.detached cache)).run parser past).1

/-- A call was sent under this id, and no event since then has settled it. -/
def Outstanding (parser : MetadataParser) (cache : Store) (past : List (Event α))
    (id : String) : Prop :=
  ∃ before call since, past = before ++ call :: since ∧
    id ∈ (after parser cache before).called parser call ∧
    ∀ earlier event later, since = earlier ++ event :: later →
      ¬ (after parser cache (before ++ call :: earlier)).Settles event id

variable {past : List (Event α)} {event : Event α} {id : String}

theorem after_append_singleton (past : List (Event α)) (event : Event α) :
    after parser cache (past ++ [event]) =
      ((after parser cache past).step parser event).1 := by
  rw [after, run_append_singleton]
  rfl

theorem after_orderly (parser : MetadataParser) (cache : Store) (past : List (Event α)) :
    (after parser cache past).Orderly := by
  induction past using List.reverseRecOn with
  | nil => exact ⟨fun _ _ => rfl, nofun, nofun⟩
  | append_singleton past event ih =>
      rw [after_append_singleton]
      exact ih.step parser event

theorem pending_iff_outstanding (past : List (Event α)) (id : String) :
    ((after parser cache past).session.pending.lookup id).isSome ↔
      Outstanding parser cache past id := by
  change _ ↔ Since (fun past event => id ∈ (after parser cache past).called parser event)
    (fun past event => (after parser cache past).Settles event id) past
  refine iff_since (fun past =>
    ((after parser cache past).session.pending.lookup id).isSome) nofun
    (fun past event => ?_) past
  rw [after_append_singleton, step_pending parser (after_orderly parser cache past).drawn]

/-- A call is resolved no more often than it is sent. -/
theorem count_resolved_le (parser : MetadataParser) (cache : Store) (past : List (Event α))
    (id : String) :
    ((((new (.detached cache)).run parser past).2.filterMap Effect.resolved?).count id) +
        ((after parser cache past).session.pending.lookup id).isSome.toNat ≤
      (((new (.detached cache)).run parser past).2.filterMap Effect.called?).count id := by
  induction past using List.reverseRecOn with
  | nil => exact Nat.le_refl 0
  | append_singleton past event ih =>
      have hstep := step_count parser (after_orderly parser cache past).drawn event id
      rw [after_append_singleton, run_append_singleton]
      simp only [List.filterMap_append, List.count_append]
      simp only [after, called] at hstep ih ⊢
      omega

theorem resolves_iff (past : List (Event α)) (event : Event α) (id : String)
    (response : Response) :
    .resolve id response ∈ ((after parser cache past).step parser event).2 ↔
      Outstanding parser cache past id ∧
        ∃ message, (after parser cache past).routed? event = some message ∧
          message.Answers id ∧ message.response = response := by
  rw [step_resolves parser (after_orderly parser cache past).drawn, pending_iff_outstanding]

/-- Not every draw becomes the id of a call, and those that do keep their order. -/
theorem run_called_sublist (parser : MetadataParser) (cache : Store)
    (events : List (Event α)) :
    (((new (.detached cache)).run parser events).2.filterMap Effect.called?).Sublist
      ((events.flatMap Event.draws).map Session.idOfDraw) := by
  induction events using List.reverseRecOn with
  | nil => exact List.nil_sublist _
  | append_singleton past event ih =>
      have hcalled := called_sublist parser (after_orderly parser cache past).drawn event
      rw [run_append_singleton, List.filterMap_append, List.flatMap_append, List.map_append,
        List.flatMap_singleton]
      exact ih.append hcalled

theorem called_nodup_of_draws (parser : MetadataParser) (cache : Store)
    {events : List (Event α)} (hdraws : (events.flatMap Event.draws).Nodup) :
    (((new (.detached cache)).run parser events).2.filterMap Effect.called?).Nodup :=
  (run_called_sublist parser cache events).nodup (hdraws.map Session.idOfDraw_injective)

/-- What becomes of the calls of a run. -/
structure Delivers (parser : MetadataParser) (cache : Store) (events : List (Event α)) :
    Prop where
  /-- A call is resolved by the first message that answers it,
  with what this message holds. -/
  resolved : ∀ before event later, events = before ++ event :: later → ∀ id response,
    .resolve id response ∈ ((after parser cache before).step parser event).2 ↔
      Outstanding parser cache before id ∧
        ∃ message, (after parser cache before).routed? event = some message ∧
          message.Answers id ∧ message.response = response
  once : (((new (.detached cache)).run parser events).2.filterMap Effect.resolved?).Nodup
  pending : ∀ before later, events = before ++ later → ∀ id,
    ((after parser cache before).session.pending.lookup id).isSome ↔
      Outstanding parser cache before id
  /-- Whoever waits has an outstanding call, alone, and goes on with what resolves it. -/
  callers : ∀ before event later, events = before ++ event :: later → ∀ number id next,
    (after parser cache before).jobs.lookup number = some (.awaiting id next) →
      Outstanding parser cache before id ∧
      (∀ other, (after parser cache before).Awaits other id → other = number) ∧
      ∀ response, .resolve id response ∈ ((after parser cache before).step parser event).2 →
        ((after parser cache before).step parser event).1.jobs.lookup number =
          some (.running (next (.ok response)))

/-- If no two calls have one id, then each is resolved at most once and by the first message
that answers it, whatever else arrives and in whatever order. -/
theorem delivers_of_distinct_ids (parser : MetadataParser) (cache : Store)
    (events : List (Event α))
    (hids :
      (((new (.detached cache)).run parser events).2.filterMap Effect.called?).Nodup) :
    Delivers parser cache events where
  resolved before event later _ id response := resolves_iff before event id response
  once := by
    rw [List.nodup_iff_count_le_one] at hids ⊢
    intro id
    have hcount := count_resolved_le parser cache events id
    have hcalled := hids id
    omega
  pending before later _ id := pending_iff_outstanding before id
  callers before event later _ number id next hjob := by
    have horderly := after_orderly parser cache before
    refine ⟨?_, ?_, fun response hresolve => ?_⟩
    · exact (pending_iff_outstanding before id).mp (horderly.called number id ⟨next, hjob⟩)
    · exact fun other hother => horderly.alone number other id ⟨next, hjob⟩ hother
    · exact lookup_of_resolve horderly.drawn hresolve hjob

/-! Two callers that are answered in the other order, with a
message between that answers none. -/

def asking : Program (Except SessionError Response) :=
  .call Rpc.getBlockHash [] .done

def answerTo (id : String) : Event α :=
  .receive 0 ("\x7b\"id\":\"" ++ id ++ "\",\"result\":true\x7d")

def swapped : List (Event (Except SessionError Response)) :=
  [.attach ⟨0, true⟩, .start 0 asking, .start 1 asking, .poll 0 [1], .poll 1 [2],
    answerTo "0000000000000002", answerTo "0000000000000003", answerTo "0000000000000001"]

theorem delivers_swapped :
    (swapped.flatMap Event.draws).Nodup ∧
      ((new (.detached .emptyMemory)).run parseMetadata swapped).2.filterMap
        Effect.resolved? =
        ["0000000000000002", "0000000000000001"] ∧
      Delivers parseMetadata .emptyMemory swapped ∧
      Outstanding parseMetadata .emptyMemory (swapped.take 7) "0000000000000001" ∧
      ¬ Outstanding parseMetadata .emptyMemory (swapped.take 7) "0000000000000002" := by
  have hdraws : (swapped.flatMap Event.draws).Nodup := by decide
  have hresolved : ((new (.detached .emptyMemory)).run parseMetadata swapped).2.filterMap
      Effect.resolved? = ["0000000000000002", "0000000000000001"] := by decide +kernel
  have hdelivers := delivers_of_distinct_ids parseMetadata .emptyMemory swapped
    (called_nodup_of_draws parseMetadata .emptyMemory hdraws)
  have hpending := hdelivers.pending (swapped.take 7) (swapped.drop 7) rfl
  refine ⟨hdraws, hresolved, hdelivers, (hpending _).mp ?_, fun h => ?_⟩
  · decide +kernel
  · have hnone : ((after parseMetadata .emptyMemory (swapped.take 7)).session.pending.lookup
        "0000000000000002").isSome = false := by decide +kernel
    rw [(hpending _).mpr h] at hnone
    cases hnone

end ChainClient.Client
