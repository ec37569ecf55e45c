import ChainClient.Context.Storage
import ChainClient.Proofs.Client.Conversation
import ChainClient.Proofs.Storage.Key

/-! Queries of storage.  A query asks the node once, for one key, or not at all, and what
the node holds there is read as a value that is stored in the same way. -/

namespace ChainClient

open Codec

/-- A query, of a plain item or for a key of a map, and what is made of the value. -/
structure Query (α : Type) where
  context : Context
  pallet : String
  item : StorageItem
  key? : Option Value
  finish : Option Value → α

namespace Query

variable {α : Type} {query : Query α} {registry : TypeRegistry}

def program (query : Query α) : Program α :=
  query.finish <$>
    match query.key? with
    | none => query.context.query query.pallet query.item
    | some key => query.context.queryEntry query.pallet query.item key

/-- Where the value is stored.  Without a key only plain items have such a place. -/
def storageKey? (query : Query α) (registry : TypeRegistry) : Option StorageKey :=
  match query.key?, query.item.kind with
  | none, .plain _ => some (.plain query.context.hasher query.pallet query.item.name)
  | none, .map .. => none
  | some key, _ =>
      (StorageKey.entry query.context.hasher registry query.pallet query.item key).toOption

/-- Answers that hold no value of a type. -/
inductive Valueless (registry : TypeRegistry) (type : TypeId) : Answer → Prop
  /-- There is no connection any more. -/
  | failed (error : SessionError) : Valueless registry type (.error error)
  /-- The node answers with an error. -/
  | refused (result? : Option Json) (error : RpcError) :
      Valueless registry type (.ok ⟨result?, some error⟩)
  | missing : Valueless registry type (.ok ⟨none, none⟩)
  /-- Null, or something else that is no text. -/
  | noText {result : Json} (h : ∀ text, result ≠ .string text) :
      Valueless registry type (.ok ⟨some result, none⟩)
  | noHex {text : String} (h : Hex.decode0x? text = none) :
      Valueless registry type (.ok ⟨some (.string text), none⟩)
  | undecodable {text : String} {bytes : Bytes} {error : CodecError}
      (hbytes : Hex.decode0x? text = some bytes)
      (h : decode registry type bytes = .error error) :
      Valueless registry type (.ok ⟨some (.string text), none⟩)

/-- What a query makes of the answer. -/
def valueIn? (registry : TypeRegistry) (type : TypeId) (answer : Answer) : Option Value :=
  (answer >>= Response.toResult).toOption.bind (Context.storedValue? registry type)

theorem valueIn?_of_valueless {type : TypeId} {answer : Answer}
    (h : Valueless registry type answer) : valueIn? registry type answer = none := by
  cases h with
  | failed | refused | missing => rfl
  | @noText result h =>
      change Context.storedValue? registry type result = none
      cases result with
      | string text => exact absurd rfl (h text)
      | _ => rfl
  | @noHex text h =>
      change Context.storedValue? registry type (.string text) = none
      simp [Context.storedValue?, Json.string?, h]
  | @undecodable text bytes error hbytes h =>
      change Context.storedValue? registry type (.string text) = none
      simp [Context.storedValue?, Json.string?, hbytes, h, Except.toOption]

/-- A stored value is read whatever comes after it. -/
theorem valueIn?_of_stored (hindices : registry.DistinctVariantIndices)
    (hnames : registry.DistinctFieldNames) (hoption : registry.NoOptionLookalike)
    {type : TypeId} {value : Value} {encoded : Bytes}
    (h : encode registry type value = .ok encoded) (suffix : Bytes) :
    ∃ settled, encode registry type settled = .ok encoded ∧
      valueIn? registry type
        (.ok ⟨some (.string (Hex.encode0x (encoded ++ suffix))), none⟩) =
        some settled := by
  obtain ⟨settled, hreads, hagain⟩ := settles_within hindices maxDepth type h
  refine ⟨settled, hagain ⟨hnames, hoption⟩, ?_⟩
  change Context.storedValue? registry type (.string _) = some settled
  simp [Context.storedValue?, Json.string?, decode_of_reads hreads suffix, Except.toOption]

/-! What a query does once there is metadata. -/

def afterReading (query : Query α) (registry : TypeRegistry) : Program α :=
  query.finish <$>
    match query.storageKey? registry with
    | some key => Context.readStorage registry query.item.valueType key
    | none => .done none

theorem readStorage_eq (registry : TypeRegistry) (type : TypeId) (key : StorageKey) :
    Context.readStorage registry type key =
      .call Rpc.getStorage [.string (Hex.encode0x key)] fun answer =>
        .done (valueIn? registry type answer) := by
  unfold Context.readStorage
  rw [Program.run_request]
  change Program.call _ _ _ = _
  congr 1
  funext answer
  simp only [Program.bind, valueIn?]
  cases answer >>= Response.toResult <;> rfl

theorem afterReading_of_placed {key : StorageKey}
    (h : query.storageKey? registry = some key) :
    query.afterReading registry =
      .call Rpc.getStorage [.string (Hex.encode0x key)] fun answer =>
        .done (query.finish (valueIn? registry query.item.valueType answer)) := by
  rw [afterReading, h]
  dsimp only
  rw [readStorage_eq]
  rfl

theorem afterReading_of_unplaced (h : query.storageKey? registry = none) :
    query.afterReading registry = .done (query.finish none) := by
  rw [afterReading, h]
  rfl

theorem run_program {listener : Listener} {draws : List UInt64} {session : Session}
    {loaded : LoadedMetadata} (hmetadata : session.metadata? = some loaded) :
    Job.run listener draws session query.program =
      Job.run listener draws session (query.afterReading loaded.metadata.registry) := by
  have hread : ∀ next : LoadedMetadata → Program α,
      Job.run listener draws session (.metadata next) =
        Job.run listener draws session (next loaded) := by
    intro next
    rw [Job.run, hmetadata]
  unfold program afterReading storageKey?
  cases hkey : query.key? with
  | none =>
      dsimp only
      unfold Context.query
      cases hkind : query.item.kind with
      | map hashers key value => rfl
      | plain type =>
          have htype : query.item.valueType = type := by
            rw [StorageItem.valueType, hkind]
          rw [htype]
          exact hread _
  | some key =>
      dsimp only
      unfold Context.queryEntry
      refine (hread _).trans ?_
      simp only [Program.bind]
      cases StorageKey.entry query.context.hasher loaded.metadata.registry query.pallet
        query.item key <;> rfl

theorem afterReading_onlyAsks (query : Query α) (registry : TypeRegistry) :
    (query.afterReading registry).OnlyAsks fun _ => False := by
  cases hkey : query.storageKey? registry with
  | none =>
      rw [afterReading_of_unplaced hkey]
      trivial
  | some key =>
      rw [afterReading_of_placed hkey]
      exact fun _ => trivial

theorem questions_of_placed {key : StorageKey} (h : query.storageKey? registry = some key)
    (answers : List Answer) :
    (query.afterReading registry).questions answers =
      [(Rpc.getStorage, [.string (Hex.encode0x key)])] := by
  rw [afterReading_of_placed h]
  cases answers <;> rfl

theorem questions_of_unplaced (h : query.storageKey? registry = none)
    (answers : List Answer) : (query.afterReading registry).questions answers = [] := by
  rw [afterReading_of_unplaced h]
  rfl

theorem outcome?_of_placed {key : StorageKey} (h : query.storageKey? registry = some key)
    (answers : List Answer) :
    (query.afterReading registry).outcome? answers =
      answers.head?.map fun answer =>
        query.finish (valueIn? registry query.item.valueType answer) := by
  rw [afterReading_of_placed h]
  cases answers <;> rfl

/-! Queries in a run. -/

open Client

/-- What a query asks for in a run, and what it comes to. -/
structure ReadsStored (parser : MetadataParser) (number : Nat) (client : Client α)
    (events : List (Event α)) (query : Query α) (registry : TypeRegistry) : Prop where
  /-- Without a place for the value, nothing is sent and there is no value. -/
  unplaced : query.storageKey? registry = none →
    (conversation parser number client events).questions = [] ∧
      Holds (· = .finished (query.finish none)) (client.run parser events).1.jobs number
  /-- No more is sent than one message. -/
  asks : ∀ key, query.storageKey? registry = some key →
    (conversation parser number client events).questions <+:
      [(Rpc.getStorage, [.string (Hex.encode0x key)])]
  asked : ∀ key, query.storageKey? registry = some key →
    (client.run parser events).1.Rests number →
      (conversation parser number client events).questions =
        [(Rpc.getStorage, [.string (Hex.encode0x key)])]
  stored : ∀ key value encoded suffix later, query.storageKey? registry = some key →
    encode registry query.item.valueType value = .ok encoded →
    (conversation parser number client events).answers =
      .ok ⟨some (.string (Hex.encode0x (encoded ++ suffix))), none⟩ :: later →
    (client.run parser events).1.Rests number →
      ∃ settled, encode registry query.item.valueType settled = .ok encoded ∧
        (client.run parser events).1.jobs.lookup number =
          some (.finished (query.finish (some settled)))
  valueless : ∀ key answer later, query.storageKey? registry = some key →
    (conversation parser number client events).answers = answer :: later →
    Valueless registry query.item.valueType answer →
    (client.run parser events).1.Rests number →
      (client.run parser events).1.jobs.lookup number = some (.finished (query.finish none))
  /-- A job that has not been cancelled rests after a turn
  for which an id could be drawn. -/
  rests : ∀ earlier draws, events = earlier ++ [.poll number draws] →
    ((client.run parser earlier).1.session.freshId? draws).isSome →
    ((client.run parser earlier).1.jobs.lookup number).isSome →
      (client.run parser events).1.Rests number

variable {parser : MetadataParser} {number : Nat} {client : Client α} {draws : List UInt64}
  {later : List (Event α)}

/-- A query that has nowhere to look ends in its first turn. -/
theorem holds_of_unplaced (h : query.storageKey? registry = none)
    (hjob : client.jobs.lookup number = some (.running query.program))
    (hreads : Reads (fun _ => False) number draws client.session query.program
      (query.afterReading registry))
    (hserved : Served parser number client (.poll number draws :: later)) :
    Holds (· = .finished (query.finish none))
      (client.run parser (.poll number draws :: later)).1.jobs number := by
  obtain ⟨-, -, hlater⟩ := hserved
  have hturn : Holds (· = .finished (query.finish none))
      (client.step parser (.poll number draws)).1.jobs number := by
    intro found hfound
    rw [holds_of_turn hjob found hfound, hreads.run, afterReading_of_unplaced h, Job.run]
  change Holds _ ((client.step parser (.poll number draws)).1.run parser
    later).1.jobs number
  exact run_finished hturn hlater

theorem finished_of_outcome? {outcome : α}
    (h : (client.jobs.lookup number).bind Job.outcome? = some outcome) :
    client.jobs.lookup number = some (.finished outcome) := by
  obtain ⟨job, hjob, houtcome⟩ := Option.bind_eq_some_iff.mp h
  cases job with
  | finished found =>
      cases houtcome
      exact hjob
  | _ => cases houtcome

/-- A query sends one message, for the key that its value is stored under, and gives a value
that is stored as the answer says, whatever comes after it there.  From other answers it
gives none, and if there is no such key then it sends nothing. -/
theorem query_reads_stored (parser : MetadataParser) (cache : Store)
    (before : List (Event α)) (number : Nat) (query : Query α) {loaded : LoadedMetadata}
    (hjob : (after parser cache before).jobs.lookup number = some (.running query.program))
    (hmetadata : (after parser cache before).session.metadata? = some loaded)
    (hindices : loaded.metadata.registry.DistinctVariantIndices)
    (hnames : loaded.metadata.registry.DistinctFieldNames)
    (hoption : loaded.metadata.registry.NoOptionLookalike) (draws : List UInt64)
    (later : List (Event α))
    (hserved : Served parser number (after parser cache before)
      (.poll number draws :: later)) :
    ReadsStored parser number (after parser cache before)
      (.poll number draws :: later) query
      loaded.metadata.registry := by
  have hreads : Reads (fun _ => False) number draws (after parser cache before).session
      query.program (query.afterReading loaded.metadata.registry) :=
    ⟨run_program hmetadata, afterReading_onlyAsks query _⟩
  have hconverses := turn_converses (after_orderly parser cache before) hjob hreads hserved
  have houtcome : ∀ key answer rest,
      query.storageKey? loaded.metadata.registry = some key →
      (conversation parser number (after parser cache before)
        (.poll number draws :: later)).answers = answer :: rest →
      ((after parser cache before).run parser
        (.poll number draws :: later)).1.Rests number →
        ((after parser cache before).run parser (.poll number draws :: later)).1.jobs.lookup
          number = some (.finished (query.finish
            (valueIn? loaded.metadata.registry query.item.valueType answer))) := by
    intro key answer rest hkey hanswers hrests
    have houtcome := hconverses.outcome hrests
    rw [outcome?_of_placed hkey, hanswers] at houtcome
    exact finished_of_outcome? houtcome
  constructor
  case unplaced =>
    intro hkey
    have hasks := hconverses.asks
    rw [questions_of_unplaced hkey] at hasks
    exact ⟨List.prefix_nil.mp hasks, holds_of_unplaced hkey hjob hreads hserved⟩
  case asks =>
    intro key hkey
    rw [← questions_of_placed hkey]
    exact hconverses.asks
  case asked =>
    intro key hkey hrests
    rw [← questions_of_placed hkey]
    exact hconverses.asked hrests
  case stored =>
    intro key value encoded suffix rest hkey hencoded hanswers hrests
    obtain ⟨settled, hsettled, hvalue⟩ :=
      valueIn?_of_stored hindices hnames hoption hencoded suffix
    refine ⟨settled, hsettled, ?_⟩
    rw [houtcome key _ rest hkey hanswers hrests, hvalue]
  case valueless =>
    intro key answer rest hkey hanswers hvalueless hrests
    rw [houtcome key answer rest hkey hanswers hrests, valueIn?_of_valueless hvalueless]
  case rests => exact hconverses.rests

/-! A number that is stored for a status.  The node's answer goes on after it. -/

def counted : Query (Option Value) where
  context :=
    { hasher := .standard
      signer := ⟨.replicate 32 0, fun _ => .replicate 64 0, fun _ => ""⟩
      system := .unknown
      genesis := ⟨.replicate 32 0⟩ }
  pallet := "Nodes"
  item := StorageKey.statuses
  key? := some typedStatus
  finish := id

def countedParser : MetadataParser := fun _ => .ok ⟨statusRegistry, [], []⟩

def countedStart : List (Event (Option Value)) :=
  [.attach ⟨0, true⟩,
    .receive 0
      ("\x7b\"method\":\"state_runtimeVersion\",\"params\":\x7b\"subscription\":0," ++
      "\"result\":[\"\",\"node\",0,1,0,1]\x7d\x7d"),
    .receive 0 "\x7b\"id\":\"metadata\",\"result\":\"0x01\"\x7d",
    .start 0 counted.program]

def countedRun : List (Event (Option Value)) :=
  [.poll 0 [7],
    .receive 0 "\x7b\"id\":\"0000000000000007\",\"result\":\"0x2a000000ff\"\x7d",
    .poll 0 [8]]

/-- The text that an answer holds. -/
def textIn? : Answer → Option String
  | .ok ⟨some (.string text), none⟩ => some text
  | _ => none

theorem textIn?_eq_some {answer : Answer} {text : String} (h : textIn? answer = some text) :
    answer = .ok ⟨some (.string text), none⟩ := by
  unfold textIn? at h
  split at h
  case h_1 => rw [Option.some.inj h]
  case h_2 => cases h

theorem query_reads_stored_counted :
    ∃ key settled, counted.storageKey? statusRegistry = some key ∧
      (conversation countedParser 0 (after countedParser .emptyMemory countedStart)
        countedRun).questions = [(Rpc.getStorage, [.string (Hex.encode0x key)])] ∧
      encode statusRegistry 0 settled = .ok [42, 0, 0, 0] ∧
      ((after countedParser .emptyMemory countedStart).run countedParser
        countedRun).1.jobs.lookup 0 = some (.finished (some settled)) := by
  have hjob : (after countedParser .emptyMemory countedStart).jobs.lookup 0 =
      some (.running counted.program) := (Assoc.lookup_put 0 0 _ _).trans (if_pos rfl)
  have hmetadata : (after countedParser .emptyMemory countedStart).session.metadata? =
      some ⟨⟨statusRegistry, [], []⟩, true⟩ := by decide +kernel
  obtain ⟨hfirst, hlast, hdraws, hpresent, htexts⟩ :
      (after countedParser .emptyMemory countedStart).session.link? = some ⟨0, true⟩ ∧
      ((after countedParser .emptyMemory countedStart).run countedParser
        (countedRun.take 2)).1.session.link? = some ⟨0, true⟩ ∧
      (((after countedParser .emptyMemory countedStart).run countedParser
        (countedRun.take 2)).1.session.freshId? [8]).isSome ∧
      (((after countedParser .emptyMemory countedStart).run countedParser
        (countedRun.take 2)).1.jobs.lookup 0).isSome ∧
      (conversation countedParser 0 (after countedParser .emptyMemory countedStart)
        countedRun).answers.map textIn? = [some "0x2a000000ff"] := by decide +kernel
  have hserved : Served countedParser 0 (after countedParser .emptyMemory countedStart)
      countedRun :=
    ⟨nofun, fun _ _ => ⟨_, hfirst, rfl⟩, nofun, nofun, nofun,
      fun _ _ => ⟨_, hlast, rfl⟩, trivial⟩
  have hreads := query_reads_stored countedParser .emptyMemory countedStart 0 counted hjob
    hmetadata (by decide) (by decide) (by decide) _ _ hserved
  have hrests := hreads.rests (countedRun.take 2) [8] rfl hdraws hpresent
  obtain ⟨key, hkey⟩ : ∃ key, counted.storageKey? statusRegistry = some key := ⟨_, rfl⟩
  obtain ⟨answer, hanswers, htext⟩ := List.map_eq_singleton_iff.mp htexts
  rw [textIn?_eq_some htext] at hanswers
  have hencoded : encode statusRegistry 0 (.unsigned 42) = .ok [42, 0, 0, 0] := rfl
  obtain ⟨settled, hsettled, hfinished⟩ :=
    hreads.stored key (.unsigned 42) [42, 0, 0, 0] [255] [] hkey hencoded hanswers hrests
  exact ⟨key, settled, hkey, hreads.asked key hkey hrests, hsettled, hfinished⟩

end Query

end ChainClient
