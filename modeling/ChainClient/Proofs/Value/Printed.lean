import ChainClient.Proofs.Json.RoundTrip
import ChainClient.Proofs.Value.Parts
import ChainClient.Value.Text

/-! Values as their text gives them back. -/

namespace ChainClient.Value

/-- Integers have 64 bits and variants no fields, so that the text
keeps them for what they are. -/
def IsPlain : Value → Prop
  | .unsigned n => n < 2 ^ 64
  | .signed n => -2 ^ 63 ≤ n ∧ n < 2 ^ 63
  | .variant _ _ fields => fields = []
  | .null | .bool _ | .string _ | .sequence _ | .composite _ => True

instance : DecidablePred IsPlain
  | .unsigned n => inferInstanceAs (Decidable (n < 2 ^ 64))
  | .signed n => inferInstanceAs (Decidable (-2 ^ 63 ≤ n ∧ n < 2 ^ 63))
  | .variant _ _ [] => isTrue rfl
  | .variant _ _ (_ :: _) => isFalse (List.cons_ne_nil _ _)
  | .null | .bool _ | .string _ | .sequence _ | .composite _ => isTrue trivial

def HasDistinctNames : Value → Prop
  | .composite fields => (fields.map Prod.fst).Nodup
  | _ => True

mutual

/-- How deep sequences and composites nest. -/
def nesting : Value → Nat
  | .sequence items => itemsNesting items + 1
  | .composite fields => fieldsNesting fields + 1
  | .variant _ _ fields => itemsNesting fields
  | .null | .bool _ | .unsigned _ | .signed _ | .string _ => 0

def itemsNesting : List Value → Nat
  | [] => 0
  | item :: rest => max item.nesting (itemsNesting rest)

def fieldsNesting : List (String × Value) → Nat
  | [] => 0
  | (_, field) :: rest => max field.nesting (fieldsNesting rest)

end

/-! What is written of a value. -/

theorem unsignedJson_of_lt {n : Nat} (h : n < 2 ^ 64) : unsignedJson n = .number (.int n) :=
  if_pos h

theorem signedJson_of_bounds {n : Int} (h : -2 ^ 63 ≤ n ∧ n < 2 ^ 63) :
    signedJson n = .number (.int n) :=
  if_pos h

theorem names_fieldsToJson (fields : List (String × Value)) :
    (fieldsToJson fields).map Prod.fst = fields.map Prod.fst := by
  induction fields with
  | nil => rfl
  | cons field rest ih => exact congrArg (field.1 :: ·) ih

mutual

theorem exact_toJson (value : Value) (hplain : value.Every IsPlain)
    (hnames : value.Every HasDistinctNames) : value.toJson.Exact := by
  cases value with
  | unsigned n =>
      have h : n < 2 ^ 64 := hplain.self
      rw [toJson, unsignedJson_of_lt h]
      exact ⟨by omega, by omega⟩
  | signed n =>
      have h : -2 ^ 63 ≤ n ∧ n < 2 ^ 63 := hplain.self
      rw [toJson, signedJson_of_bounds h]
      exact ⟨h.1, by omega⟩
  | sequence items =>
      exact exact_itemsToJson items (every_sequence.mp hplain).2
        (every_sequence.mp hnames).2
  | composite fields =>
      obtain ⟨hdistinct, hnames⟩ := every_composite.mp hnames
      refine ⟨?_, exact_fieldsToJson fields (every_composite.mp hplain).2 hnames⟩
      rw [names_fieldsToJson]
      exact hdistinct
  | variant name index fields =>
      have h : fields = [] := hplain.self
      subst h
      trivial
  | _ => trivial

theorem exact_itemsToJson (items : List Value) (hplain : ∀ item ∈ items, item.Every IsPlain)
    (hnames : ∀ item ∈ items, item.Every HasDistinctNames) :
    Json.ItemsExact (itemsToJson items) := by
  cases items with
  | nil => trivial
  | cons item items =>
      rw [List.forall_mem_cons] at hplain hnames
      exact ⟨exact_toJson item hplain.1 hnames.1, exact_itemsToJson items hplain.2 hnames.2⟩

theorem exact_fieldsToJson (fields : List (String × Value))
    (hplain : ∀ field ∈ fields, field.2.Every IsPlain)
    (hnames : ∀ field ∈ fields, field.2.Every HasDistinctNames) :
    Json.MembersExact (fieldsToJson fields) := by
  cases fields with
  | nil => trivial
  | cons field fields =>
      rw [List.forall_mem_cons] at hplain hnames
      exact ⟨exact_toJson field.2 hplain.1 hnames.1,
        exact_fieldsToJson fields hplain.2 hnames.2⟩

end

mutual

theorem depth_toJson (value : Value) (hplain : value.Every IsPlain) :
    (Json.Written.ofJson value.toJson).depth = value.nesting := by
  cases value with
  | unsigned n =>
      have h : n < 2 ^ 64 := hplain.self
      rw [toJson, unsignedJson_of_lt h]
      rfl
  | signed n =>
      have h : -2 ^ 63 ≤ n ∧ n < 2 ^ 63 := hplain.self
      rw [toJson, signedJson_of_bounds h]
      rfl
  | sequence items =>
      exact congrArg (· + 1) (depth_itemsToJson items (every_sequence.mp hplain).2)
  | composite fields =>
      exact congrArg (· + 1) (depth_fieldsToJson fields (every_composite.mp hplain).2)
  | variant name index fields =>
      have h : fields = [] := hplain.self
      subst h
      rfl
  | _ => rfl

theorem depth_itemsToJson (items : List Value)
    (hplain : ∀ item ∈ items, item.Every IsPlain) :
    Json.Written.itemsDepth (Json.Written.ofItems (itemsToJson items)) =
      itemsNesting items := by
  cases items with
  | nil => rfl
  | cons item items =>
      rw [List.forall_mem_cons] at hplain
      exact congrArg₂ max (depth_toJson item hplain.1) (depth_itemsToJson items hplain.2)

theorem depth_fieldsToJson (fields : List (String × Value))
    (hplain : ∀ field ∈ fields, field.2.Every IsPlain) :
    Json.Written.membersDepth (Json.Written.ofMembers (fieldsToJson fields)) =
      fieldsNesting fields := by
  cases fields with
  | nil => rfl
  | cons field fields =>
      rw [List.forall_mem_cons] at hplain
      exact congrArg₂ max (depth_toJson field.2 hplain.1)
        (depth_fieldsToJson fields hplain.2)

end

/-- The text of a plain value is read as the JSON that it was written from. -/
theorem parse?_render {value : Value} (hplain : value.Every IsPlain)
    (hnames : value.Every HasDistinctNames)
    (hnesting : value.nesting < Json.nestingBudget) :
    Json.parse? value.render = some value.toJson := by
  rw [← depth_toJson value hplain] at hnesting
  exact Json.parse?_render (exact_toJson value hplain hnames) hnesting

/-! What is read of it. -/

/-- A value as it comes back from its JSON. -/
def reread (value : Value) : Value := ofJson value.toJson

theorem reread_unsigned {n : Nat} (h : n < 2 ^ 64) :
    reread (.unsigned n) = .unsigned n := by
  rw [reread, toJson, unsignedJson_of_lt h, ofJson, ofNumber, Json.Number.toUInt64?,
    if_pos (by omega)]
  rfl

/-- Integers from zero on lose their sign. -/
theorem reread_signed {n : Int} (h : -2 ^ 63 ≤ n ∧ n < 2 ^ 63) :
    reread (.signed n) = if 0 ≤ n then .unsigned n.toNat else .signed n := by
  rw [reread, toJson, signedJson_of_bounds h, ofJson, ofNumber, Json.Number.toUInt64?]
  by_cases hsign : 0 ≤ n
  · rw [if_pos (by omega), if_pos hsign]
  · rw [if_neg (by omega), if_neg hsign, Json.Number.toInt64?, if_pos h]

theorem reread_sequence (items : List Value) :
    reread (.sequence items) = .sequence (items.map reread) := by
  have hitems : ofItems (itemsToJson items) = items.map reread := by
    induction items with
    | nil => rfl
    | cons item rest ih => exact congrArg (reread item :: ·) ih
  exact congrArg sequence hitems

theorem reread_composite (fields : List (String × Value)) :
    reread (.composite fields) =
      .composite (fields.map fun field => (field.1, field.2.reread)) := by
  have hfields : ofMembers (fieldsToJson fields) =
      fields.map fun field => (field.1, field.2.reread) := by
    induction fields with
    | nil => rfl
    | cons field rest ih => exact congrArg ((field.1, field.2.reread) :: ·) ih
  exact congrArg composite hfields

theorem reread_variant (name : String) (index : UInt8) :
    reread (.variant name index []) = .string name := rfl

end ChainClient.Value
