import ChainClient.Proofs.Assoc
import ChainClient.Proofs.Session.SystemAnswers

/-! What is reported of a node.  The answers to the system queries are
kept apart and read together. -/

namespace ChainClient

namespace Rpc.SystemQuery

/-- What an answer says. -/
def Fact : SystemQuery → Type
  | .name => String
  | .version => String
  | .chain => String
  | .properties => List (String × Json)
  | .health => Health

/-- Reads an answer by itself, one level deep in the report. -/
def read? : (query : SystemQuery) → Json.Written → Option query.Fact
  | .name => Json.Written.string?
  | .version => Json.Written.string?
  | .chain => Json.Written.string?
  | .properties => SystemInfo.members? (Json.nestingBudget - 1)
  | .health => Health.ofWritten? (Json.nestingBudget - 1)

theorem id_injective {query other : SystemQuery} (h : query.id = other.id) :
    query = other := by
  revert h
  cases query <;> cases other <;> decide

end Rpc.SystemQuery

namespace SystemInfo

def fact (info : SystemInfo) : (query : Rpc.SystemQuery) → query.Fact
  | .name => info.name
  | .version => info.version
  | .chain => info.chain
  | .properties => info.properties
  | .health => info.health

theorem ss58Format_congr {info other : SystemInfo}
    (h : info.fact .properties = other.fact .properties) :
    info.ss58Format = other.ss58Format := by
  have hproperties : info.properties = other.properties := h
  rw [ss58Format, ss58Format, hproperties]

end SystemInfo

namespace Json.Written

/-- Members of different names, all of them known, are found as they are. -/
theorem knownMembers?_ofMembers {names : List String} {members : List (String × Json)}
    {found : Record} (hknown : ∀ name ∈ Assoc.keys members, name ∈ names)
    (hnodup : (Assoc.keys members).Nodup)
    (hfresh : ∀ name ∈ Assoc.keys members, found.lookup name = none) :
    knownMembers? names found (ofMembers members) =
      some ((members.map fun (name, json) => (name, ofJson json)).reverse ++ found) := by
  induction members generalizing found with
  | nil => rfl
  | cons member rest ih =>
      obtain ⟨name, json⟩ := member
      obtain ⟨hname, hrest⟩ := List.nodup_cons.mp hnodup
      obtain ⟨hnameKnown, hrestKnown⟩ := List.forall_mem_cons.mp hknown
      obtain ⟨hnameFresh, hrestFresh⟩ := List.forall_mem_cons.mp hfresh
      rw [ofMembers, knownMembers?, if_pos hnameKnown, hnameFresh]
      simp only [Option.isSome_none, Bool.false_eq_true, if_false]
      rw [ih hrestKnown hrest]
      · simp
      · intro other hother
        have hne : other ≠ name := by
          rintro rfl
          exact hname hother
        rw [List.lookup_cons, beq_eq_false_iff_ne.mpr hne]
        exact hrestFresh other hother

theorem lookup_record? {names : List String} {members : List (String × Json)}
    (hknown : ∀ name ∈ Assoc.keys members, name ∈ names)
    (hnodup : (Assoc.keys members).Nodup) :
    ∃ record, record? names nestingBudget (ofJson (.object members)) = some record ∧
      ∀ name, record.lookup name = (members.lookup name).map ofJson := by
  refine ⟨_, knownMembers?_ofMembers hknown hnodup fun _ _ => rfl, fun name => ?_⟩
  have hkeys : Assoc.keys (members.map fun (name, json) => (name, ofJson json)) =
      Assoc.keys members := by
    simp [Assoc.keys]
  rw [List.append_nil, Assoc.lookup_of_perm (hkeys ▸ hnodup) (List.reverse_perm _),
    Assoc.lookup_map]

end Json.Written

namespace Session

variable {session : Session} {query : Rpc.SystemQuery}

/-- The answer to a query.  Null, which stands for an error too, is none. -/
def known? (session : Session) (query : Rpc.SystemQuery) : Option Json :=
  (session.answers.lookup query).filter (!·.isNull)

/-- What the answer to a query says by itself. -/
def reading? (session : Session) (query : Rpc.SystemQuery) : Option query.Fact :=
  match session.known? query with
  | some answer => query.read? (.ofJson answer)
  | none => some (SystemInfo.unknown.fact query)

def Legible (session : Session) : Prop := ∀ query, session.reading? query ≠ none

instance (session : Session) : Decidable session.Legible :=
  decidable_of_iff (∀ query ∈ Rpc.SystemQuery.all,
    (session.reading? query).isSome = true) (by
    simp [Legible, Rpc.SystemQuery.mem_all, Option.ne_none_iff_isSome])

theorem answerMember?_eq (query : Rpc.SystemQuery) (answer : Json) :
    answerMember? (query, answer) = if answer.isNull then none
      else some (query.id, answer) := by
  cases answer <;> rfl

theorem keys_answerMember? (answers : List (Rpc.SystemQuery × Json)) :
    (Assoc.keys (answers.filterMap answerMember?)).Sublist
      ((Assoc.keys answers).map Rpc.SystemQuery.id) := by
  induction answers with
  | nil => exact .slnil
  | cons entry rest ih =>
      obtain ⟨query, answer⟩ := entry
      rw [List.filterMap_cons, answerMember?_eq]
      cases answer.isNull with
      | true => exact .cons _ ih
      | false => exact .cons_cons _ ih

theorem mem_answerMember? {answers : List (Rpc.SystemQuery × Json)} {answer : Json} :
    (query.id, answer) ∈ answers.filterMap answerMember? ↔
      (query, answer) ∈ answers ∧ answer.isNull = false := by
  simp only [List.mem_filterMap, Prod.exists, answerMember?_eq]
  constructor
  · rintro ⟨other, found, hmem, hmember⟩
    split at hmember
    case isTrue => cases hmember
    case isFalse hnull =>
      obtain ⟨hid, rfl⟩ := Prod.mk.inj (Option.some.inj hmember)
      obtain rfl := Rpc.SystemQuery.id_injective hid
      exact ⟨hmem, Bool.eq_false_iff.mpr hnull⟩
  · rintro ⟨hmem, hnull⟩
    exact ⟨query, answer, hmem, by simp [hnull]⟩

/-- The answers as members of an object: none is lost or hidden by another one. -/
theorem record?_answers (h : (Assoc.keys session.answers).Nodup) :
    ∃ record,
      Json.Written.record? (Rpc.SystemQuery.all.map Rpc.SystemQuery.id) Json.nestingBudget
          (.ofJson (.object (session.answers.filterMap answerMember?))) = some record ∧
      ∀ query : Rpc.SystemQuery,
        record.lookup query.id = (session.known? query).map .ofJson := by
  have hkeys := keys_answerMember? session.answers
  have hnodup : (Assoc.keys (session.answers.filterMap answerMember?)).Nodup :=
    hkeys.nodup (List.Pairwise.map Rpc.SystemQuery.id
      (fun _ _ hne hid => hne (Rpc.SystemQuery.id_injective hid)) h)
  have hknown : ∀ name ∈ Assoc.keys (session.answers.filterMap answerMember?),
      name ∈ Rpc.SystemQuery.all.map Rpc.SystemQuery.id := by
    intro name hname
    obtain ⟨query, -, rfl⟩ := List.mem_map.mp (hkeys.subset hname)
    exact List.mem_map_of_mem query.mem_all
  obtain ⟨record, hrecord, hlookup⟩ := Json.Written.lookup_record? hknown hnodup
  refine ⟨record, hrecord, fun query => ?_⟩
  rw [hlookup]
  congr 1
  apply Option.ext
  intro answer
  rw [Assoc.lookup_eq_some_iff_mem hnodup, mem_answerMember?, known?,
    Option.filter_eq_some_iff, Assoc.lookup_eq_some_iff_mem h, Bool.not_eq_true']

theorem defaulted?_of_known {record : Record} {query : Rpc.SystemQuery}
    (h : record.lookup query.id = (session.known? query).map .ofJson) :
    record.defaulted? query.id (SystemInfo.unknown.fact query) query.read? =
      session.reading? query := by
  rw [Record.defaulted?, h, reading?]
  cases session.known? query <;> rfl

theorem systemInfo_eq (h : (Assoc.keys session.answers).Nodup) :
    session.systemInfo =
      (do
        let name ← session.reading? .name
        let version ← session.reading? .version
        let chain ← session.reading? .chain
        let properties ← session.reading? .properties
        let health ← session.reading? .health
        return (⟨name, version, chain, properties, health⟩ : SystemInfo)).getD
          .unknown := by
  obtain ⟨record, hrecord, hlookup⟩ := record?_answers h
  have hread := fun query => (defaulted?_of_known (hlookup query)).symm
  rw [systemInfo, SystemInfo.ofJson?, SystemInfo.ofWritten?, hread, hread, hread,
    hread, hread]
  exact congrArg (Option.getD · _) (congrArg (Option.bind · _) hrecord)

/-- If all answers can be read, each fact is what its own answer says. -/
theorem fact_of_legible (h : (Assoc.keys session.answers).Nodup)
    (hlegible : session.Legible) (query : Rpc.SystemQuery) :
    session.reading? query = some (session.systemInfo.fact query) := by
  have hread := fun query => Option.ne_none_iff_exists'.mp (hlegible query)
  obtain ⟨name, hname⟩ := hread .name
  obtain ⟨version, hversion⟩ := hread .version
  obtain ⟨chain, hchain⟩ := hread .chain
  obtain ⟨properties, hproperties⟩ := hread .properties
  obtain ⟨health, hhealth⟩ := hread .health
  have hinfo := systemInfo_eq h
  rw [hname, hversion, hchain, hproperties, hhealth] at hinfo
  rw [hinfo]
  cases query
  case name => exact hname
  case version => exact hversion
  case chain => exact hchain
  case properties => exact hproperties
  case health => exact hhealth

/-- If one of them cannot, nothing is reported of the others. -/
theorem systemInfo_of_illegible (h : (Assoc.keys session.answers).Nodup)
    (hillegible : ¬ session.Legible) : session.systemInfo = .unknown := by
  rw [systemInfo_eq h]
  refine congrArg (Option.getD · _)
    (Option.eq_none_iff_forall_ne_some.mpr fun info hinfo => ?_)
  obtain ⟨name, hname, hinfo⟩ := Option.bind_eq_some_iff.mp hinfo
  obtain ⟨version, hversion, hinfo⟩ := Option.bind_eq_some_iff.mp hinfo
  obtain ⟨chain, hchain, hinfo⟩ := Option.bind_eq_some_iff.mp hinfo
  obtain ⟨properties, hproperties, hinfo⟩ := Option.bind_eq_some_iff.mp hinfo
  obtain ⟨health, hhealth, -⟩ := Option.bind_eq_some_iff.mp hinfo
  refine hillegible fun query hnone => ?_
  cases query
  case name => cases hname.symm.trans hnone
  case version => cases hversion.symm.trans hnone
  case chain => cases hchain.symm.trans hnone
  case properties => cases hproperties.symm.trans hnone
  case health => cases hhealth.symm.trans hnone

/-- Two sessions that know the same answer to a query report the same fact exactly if the
other answers can be read in both or in neither, or if it is the default in any case. -/
theorem fact_eq_iff {other : Session} (h : (Assoc.keys session.answers).Nodup)
    (hother : (Assoc.keys other.answers).Nodup)
    (hknown : session.known? query = other.known? query) :
    session.systemInfo.fact query = other.systemInfo.fact query ↔
      (session.Legible ↔ other.Legible) ∨
        session.reading? query = some (SystemInfo.unknown.fact query) := by
  have hreading : session.reading? query = other.reading? query := by
    rw [reading?, reading?, hknown]
  by_cases hlegible : session.Legible
  · by_cases hotherLegible : other.Legible
    · refine iff_of_true ?_ (.inl (iff_of_true hlegible hotherLegible))
      rw [fact_of_legible h hlegible, fact_of_legible hother hotherLegible] at hreading
      exact Option.some.inj hreading
    · rw [systemInfo_of_illegible hother hotherLegible, fact_of_legible h hlegible,
        Option.some_inj]
      simp [hlegible, hotherLegible]
  · by_cases hotherLegible : other.Legible
    · rw [systemInfo_of_illegible h hlegible, hreading,
        fact_of_legible hother hotherLegible, Option.some_inj]
      simp [hlegible, hotherLegible, eq_comm]
    · refine iff_of_true ?_ (.inl (iff_of_false hlegible hotherLegible))
      rw [systemInfo_of_illegible h hlegible, systemInfo_of_illegible hother hotherLegible]

end Session

end ChainClient
