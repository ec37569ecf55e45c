import ChainClient.Json.Printer
import ChainClient.Value.Basic

/-! Values as JSON.  Integers beyond 64 bits are written as decimal text, and a
variant without fields by its name. -/

namespace ChainClient.Value

def unsignedJson (n : Nat) : Json :=
  if n < 2 ^ 64 then .number (.int n) else .string (toString n)

def signedJson (n : Int) : Json :=
  if -2 ^ 63 ≤ n ∧ n < 2 ^ 63 then .number (.int n) else .string (toString n)

mutual

def toJson : Value → Json
  | .null => .null
  | .bool b => .bool b
  | .unsigned n => unsignedJson n
  | .signed n => signedJson n
  | .string text => .string text
  | .sequence items => .array (itemsToJson items)
  | .composite fields => .object (fieldsToJson fields)
  | .variant name _ [] => .string name
  | .variant name _ (field :: rest) =>
      .object [("name", .string name),
        ("fields", .array (field.toJson :: itemsToJson rest))]

def itemsToJson : List Value → List Json
  | [] => []
  | item :: rest => item.toJson :: itemsToJson rest

def fieldsToJson : List (String × Value) → List (String × Json)
  | [] => []
  | (name, field) :: rest => (name, field.toJson) :: fieldsToJson rest

end

def render (value : Value) : String := value.toJson.render

/-! Reading values from JSON.  Numbers that are no 64-bit integers are kept as text. -/

def ofNumber (n : Json.Number) : Value :=
  match n.toUInt64? with
  | some n => .unsigned n
  | none =>
      match n.toInt64? with
      | some n => .signed n
      | none => .string (String.ofList n.text)

mutual

def ofJson : Json → Value
  | .null => .null
  | .bool b => .bool b
  | .number n => ofNumber n
  | .string text => .string text
  | .array items => .sequence (ofItems items)
  | .object members => .composite (ofMembers members)

def ofItems : List Json → List Value
  | [] => []
  | item :: rest => ofJson item :: ofItems rest

def ofMembers : List (String × Json) → List (String × Value)
  | [] => []
  | (name, member) :: rest => (name, ofJson member) :: ofMembers rest

end

end ChainClient.Value
