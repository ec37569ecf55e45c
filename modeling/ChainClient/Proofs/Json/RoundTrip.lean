import ChainClient.Proofs.Json.Tokens

/-! JSON values are read back from their text. -/

namespace ChainClient.Json

namespace Reading

/-- Reads lexemes one after another. -/
def readAll? (reading : Reading) (found : List Token) : Option Reading :=
  found.foldlM step? reading

@[simp] theorem readAll?_nil (reading : Reading) : readAll? reading [] = some reading := rfl

@[simp] theorem readAll?_cons (reading : Reading) (token : Token) (found : List Token) :
    readAll? reading (token :: found) = (step? reading token).bind (readAll? · found) := rfl

@[simp] theorem readAll?_append (reading : Reading) (first second : List Token) :
    readAll? reading (first ++ second) =
      (readAll? reading first).bind (readAll? · second) :=
  List.foldlM_append

/-! What each lexeme of a container does. -/

section Steps

variable (frames : List Frame) (items : List Written)
  (members : List (Option String × Written))

@[simp] theorem step?_closeArray_empty :
    step? ⟨.array [] :: frames, .valueOrClose⟩ .closeArray =
      finish? (.array []) frames := rfl

@[simp] theorem step?_closeObject_empty :
    step? ⟨.object [] :: frames, .nameOrClose⟩ .closeObject =
      finish? (.object []) frames := rfl

@[simp] theorem step?_comma_array :
    step? ⟨.array items :: frames, .commaOrClose⟩ .comma =
      some ⟨.array items :: frames, .value⟩ := rfl

@[simp] theorem step?_closeArray :
    step? ⟨.array items :: frames, .commaOrClose⟩ .closeArray =
      finish? (.array items.reverse) frames := rfl

@[simp] theorem step?_comma_object :
    step? ⟨.object members :: frames, .commaOrClose⟩ .comma =
      some ⟨.object members :: frames, .name⟩ := rfl

@[simp] theorem step?_closeObject :
    step? ⟨.object members :: frames, .commaOrClose⟩ .closeObject =
      finish? (.object members.reverse) frames := rfl

@[simp] theorem step?_name (name? : Option String) :
    step? ⟨.object members :: frames, .name⟩ (.string name?) =
      some ⟨.member members name? :: frames, .colon⟩ := rfl

@[simp] theorem step?_nameOrClose (name? : Option String) :
    step? ⟨.object members :: frames, .nameOrClose⟩ (.string name?) =
      some ⟨.member members name? :: frames, .colon⟩ := rfl

@[simp] theorem step?_colon :
    step? ⟨frames, .colon⟩ .colon = some ⟨frames, .value⟩ := rfl

@[simp] theorem finish?_array (value : Written) :
    finish? value (.array items :: frames) =
      some ⟨.array (value :: items) :: frames, .commaOrClose⟩ := rfl

@[simp] theorem finish?_member (value : Written) (name? : Option String) :
    finish? value (.member members name? :: frames) =
      some ⟨.object ((name?, value) :: members) :: frames, .commaOrClose⟩ := rfl

end Steps

/-- What may come next can be a value. -/
def AwaitsValue (expected : Expected) : Prop :=
  expected = .value ∨ expected = .valueOrClose

theorem step?_of_awaitsValue {expected : Expected} (h : AwaitsValue expected)
    {token : Token} (htoken : token ≠ .closeArray) (frames : List Frame) :
    step? ⟨frames, expected⟩ token = value? token frames := by
  rcases h with rfl | rfl
  · rfl
  · cases token with
    | closeArray => exact absurd rfl htoken
    | _ => rfl

mutual

/-- The lexemes of a value hand it to the innermost open container. -/
theorem readAll?_tokens (json : Json) {expected : Expected} (h : AwaitsValue expected)
    (frames : List Frame) :
    readAll? ⟨frames, expected⟩ json.tokens = finish? (Written.ofJson json) frames := by
  cases json with
  | null => simp [tokens, step?_of_awaitsValue h, value?, Written.ofJson]
  | bool b => simp [tokens, step?_of_awaitsValue h, value?, Written.ofJson]
  | number n => simp [tokens, step?_of_awaitsValue h, value?, Written.ofJson]
  | string text => simp [tokens, step?_of_awaitsValue h, value?, Written.ofJson]
  | array items =>
      cases items with
      | nil =>
          simp [tokens, step?_of_awaitsValue h, value?, Written.ofJson, Written.ofItems]
      | cons item items =>
          have hitem := readAll?_tokens item (.inr rfl) (.array [] :: frames)
          have hitems := readAll?_itemsTokens items [Written.ofJson item] frames
          simp [tokens, step?_of_awaitsValue h, value?, hitem, hitems, Written.ofJson,
            Written.ofItems]
  | object members =>
      cases members with
      | nil =>
          simp [tokens, step?_of_awaitsValue h, value?, Written.ofJson, Written.ofMembers]
      | cons member members =>
          obtain ⟨name, member⟩ := member
          have hmember :=
            readAll?_tokens member (.inl rfl) (.member [] (some name) :: frames)
          have hmembers :=
            readAll?_membersTokens members [(some name, Written.ofJson member)] frames
          simp [tokens, step?_of_awaitsValue h, value?, hmember, hmembers, Written.ofJson,
            Written.ofMembers]

theorem readAll?_itemsTokens (items : List Json) (found : List Written)
    (frames : List Frame) :
    readAll? ⟨.array found :: frames, .commaOrClose⟩ (itemsTokens items) =
      finish? (.array (found.reverse ++ Written.ofItems items)) frames := by
  cases items with
  | nil => simp [itemsTokens, Written.ofItems]
  | cons item items =>
      have hitem := readAll?_tokens item (.inl rfl) (.array found :: frames)
      have hitems := readAll?_itemsTokens items (Written.ofJson item :: found) frames
      simp [itemsTokens, hitem, hitems, Written.ofItems]

theorem readAll?_membersTokens (members : List (String × Json))
    (found : List (Option String × Written)) (frames : List Frame) :
    readAll? ⟨.object found :: frames, .commaOrClose⟩ (membersTokens members) =
      finish? (.object (found.reverse ++ Written.ofMembers members)) frames := by
  cases members with
  | nil => simp [membersTokens, Written.ofMembers]
  | cons member members =>
      obtain ⟨name, member⟩ := member
      have hmember :=
        readAll?_tokens member (.inl rfl) (.member found (some name) :: frames)
      have hmembers :=
        readAll?_membersTokens members ((some name, Written.ofJson member) :: found) frames
      simp [membersTokens, hmember, hmembers, Written.ofMembers]

end

end Reading

namespace Written

theorem ofTokens?_tokens (json : Json) : ofTokens? json.tokens = some (ofJson json) := by
  have hread : json.tokens.foldlM Reading.step? Reading.start =
      some ⟨[], .nothing (ofJson json)⟩ :=
    Reading.readAll?_tokens json (.inl rfl) []
  simp only [ofTokens?, hread, Option.bind_eq_bind, Option.bind_some]
  rfl

theorem parse?_render {json : Json} (h : json.Exact) :
    parse? json.render = some (ofJson json) := by
  simp only [parse?, render, String.toList_ofList, tokens?_chars h, Option.bind_eq_bind,
    Option.bind_some, ofTokens?_tokens]

theorem put_of_not_mem {name : String} {json : Json} {merged : List (String × Json)}
    (h : name ∉ merged.map Prod.fst) :
    Assoc.put name json merged = merged ++ [(name, json)] := by
  induction merged with
  | nil => rfl
  | cons first merged ih =>
      obtain ⟨other, old⟩ := first
      simp only [List.map_cons, List.mem_cons, not_or] at h
      rw [Assoc.put, if_neg (Ne.symm h.1), ih h.2, List.cons_append]

mutual

/-- Shallow enough, a value stands for itself. -/
theorem toJson?_ofJson (json : Json) (h : json.Exact) {budget : Nat}
    (hbudget : (ofJson json).depth < budget) :
    (ofJson json).toJson? budget = some json := by
  cases json with
  | array items =>
      simp only [ofJson, depth] at hbudget
      have hitems := itemsToJson?_ofItems items h (show _ < budget - 1 by omega)
      simp only [ofJson, toJson?, if_neg (show ¬ budget ≤ 1 by omega), hitems,
        Option.map_some]
  | object members =>
      simp only [ofJson, depth] at hbudget
      have hmembers :=
        membersToJson?_ofMembers members h.2 (show _ < budget - 1 by omega) [] h.1
      simp only [ofJson, toJson?, if_neg (show ¬ budget ≤ 1 by omega), hmembers,
        Option.map_some]
      rfl
  | _ => rfl

theorem itemsToJson?_ofItems (items : List Json) (h : ItemsExact items) {budget : Nat}
    (hbudget : itemsDepth (ofItems items) < budget) :
    itemsToJson? budget (ofItems items) = some items := by
  cases items with
  | nil => rfl
  | cons item items =>
      simp only [ofItems, itemsDepth] at hbudget
      have hitem := toJson?_ofJson item h.1 (show _ < budget by omega)
      have hitems := itemsToJson?_ofItems items h.2 (show _ < budget by omega)
      simp only [ofItems, itemsToJson?, hitem, hitems, Option.bind_eq_bind,
        Option.bind_some]

theorem membersToJson?_ofMembers (members : List (String × Json)) (h : MembersExact members)
    {budget : Nat} (hbudget : membersDepth (ofMembers members) < budget)
    (merged : List (String × Json)) (hnames : ((merged ++ members).map Prod.fst).Nodup) :
    membersToJson? budget merged (ofMembers members) = some (merged ++ members) := by
  cases members with
  | nil => simp [ofMembers, membersToJson?]
  | cons member members =>
      obtain ⟨name, json⟩ := member
      simp only [ofMembers, membersDepth] at hbudget
      have hjson := toJson?_ofJson json h.1 (show _ < budget by omega)
      have hfresh : name ∉ merged.map Prod.fst := by
        rw [List.map_append] at hnames
        exact fun hmem => List.disjoint_of_nodup_append hnames hmem List.mem_cons_self
      have hmembers := membersToJson?_ofMembers members h.2 (show _ < budget by omega)
        (merged ++ [(name, json)]) (by simpa using hnames)
      simp only [ofMembers, membersToJson?, hjson, put_of_not_mem hfresh, hmembers,
        Option.bind_eq_bind, Option.bind_some]
      simp

end

end Written

/-- A value of integers of 64 bits and of names that do not
repeat is read back from its text. -/
theorem parse?_render {json : Json} (h : json.Exact)
    (hdepth : (Written.ofJson json).depth < nestingBudget) :
    parse? json.render = some json := by
  simp only [parse?, Written.parse?_render h, Option.bind_eq_bind, Option.bind_some,
    Written.toJson?_ofJson json h hdepth]

end ChainClient.Json
