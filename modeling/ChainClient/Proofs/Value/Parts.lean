import ChainClient.Value.Basic

/-! The values that a value is made of. -/

namespace ChainClient.Value

mutual

/-- A value and all that it contains. -/
def parts : Value → List Value
  | .sequence items => .sequence items :: itemsParts items
  | .composite fields => .composite fields :: fieldsParts fields
  | .variant name index fields => .variant name index fields :: itemsParts fields
  | .null => [.null]
  | .bool b => [.bool b]
  | .unsigned n => [.unsigned n]
  | .signed n => [.signed n]
  | .string text => [.string text]

def itemsParts : List Value → List Value
  | [] => []
  | item :: rest => item.parts ++ itemsParts rest

def fieldsParts : List (String × Value) → List Value
  | [] => []
  | (_, field) :: rest => field.parts ++ fieldsParts rest

end

def Every (p : Value → Prop) (value : Value) : Prop :=
  ∀ part ∈ value.parts, p part

instance {p : Value → Prop} [DecidablePred p] (value : Value) : Decidable (value.Every p) :=
  inferInstanceAs (Decidable (∀ part ∈ value.parts, p part))

variable {p : Value → Prop}

theorem itemsParts_eq (items : List Value) : itemsParts items = items.flatMap parts := by
  induction items with
  | nil => rfl
  | cons item rest ih => rw [itemsParts, List.flatMap_cons, ih]

theorem fieldsParts_eq (fields : List (String × Value)) :
    fieldsParts fields = fields.flatMap fun field => field.2.parts := by
  induction fields with
  | nil => rfl
  | cons field rest ih => rw [fieldsParts, List.flatMap_cons, ih]

theorem every_sequence {items : List Value} :
    (sequence items).Every p ↔ p (.sequence items) ∧ ∀ item ∈ items, item.Every p := by
  simp only [Every, parts, itemsParts_eq, List.forall_mem_cons, List.forall_mem_flatMap]

theorem every_composite {fields : List (String × Value)} :
    (composite fields).Every p ↔
      p (.composite fields) ∧ ∀ field ∈ fields, field.2.Every p := by
  simp only [Every, parts, fieldsParts_eq, List.forall_mem_cons, List.forall_mem_flatMap]

theorem every_variant {name : String} {index : UInt8} {fields : List Value} :
    (variant name index fields).Every p ↔
      p (.variant name index fields) ∧ ∀ field ∈ fields, field.Every p := by
  simp only [Every, parts, itemsParts_eq, List.forall_mem_cons, List.forall_mem_flatMap]

theorem Every.self {value : Value} (h : value.Every p) : p value := by
  apply h
  cases value <;> exact List.mem_cons_self

theorem every_of_scalar {value : Value} (h : value.parts = [value]) (hp : p value) :
    value.Every p := by
  rw [Every, h]
  exact List.forall_mem_singleton.mpr hp

end ChainClient.Value
