import ChainClient.Assoc
import ChainClient.Json.Basic

/-! JSON text before it is given a meaning: members may repeat, numbers may be out of
range and strings may hold unpaired surrogates.  Such scalars have no value, which matters
only where one is asked for. -/

namespace ChainClient.Json

inductive Written where
  | null
  | bool (b : Bool)
  | number (value? : Option Number)
  | string (value? : Option String)
  | array (items : List Written)
  | object (members : List (Option String × Written))
  deriving Inhabited

namespace Written

/-! The value of a text whose arrays and objects nest fewer than `budget` deep.  The last of
several members of one name counts. -/

mutual

def toJson? (budget : Nat) : Written → Option Json
  | .null => some .null
  | .bool b => some (.bool b)
  | .number value? => value?.map .number
  | .string value? => value?.map .string
  | .array items =>
      if budget ≤ 1 then none
      else (itemsToJson? (budget - 1) items).map .array
  | .object members =>
      if budget ≤ 1 then none
      else (membersToJson? (budget - 1) [] members).map .object

def itemsToJson? (budget : Nat) : List Written → Option (List Json)
  | [] => some []
  | item :: rest => do
      let json ← item.toJson? budget
      let jsons ← itemsToJson? budget rest
      some (json :: jsons)

def membersToJson? (budget : Nat) (merged : List (String × Json)) :
    List (Option String × Written) → Option (List (String × Json))
  | [] => some merged
  | (name?, member) :: rest => do
      let name ← name?
      let json ← member.toJson? budget
      membersToJson? budget (Assoc.put name json merged) rest

end

mutual

def ofJson : Json → Written
  | .null => .null
  | .bool b => .bool b
  | .number n => .number (some n)
  | .string text => .string (some text)
  | .array items => .array (ofItems items)
  | .object members => .object (ofMembers members)

def ofItems : List Json → List Written
  | [] => []
  | item :: rest => ofJson item :: ofItems rest

def ofMembers : List (String × Json) → List (Option String × Written)
  | [] => []
  | (name, json) :: rest => (some name, ofJson json) :: ofMembers rest

end

mutual

/-- How deep arrays and objects nest. -/
def depth : Written → Nat
  | .array items => itemsDepth items + 1
  | .object members => membersDepth members + 1
  | _ => 0

def itemsDepth : List Written → Nat
  | [] => 0
  | item :: rest => max item.depth (itemsDepth rest)

def membersDepth : List (Option String × Written) → Nat
  | [] => 0
  | (_, member) :: rest => max member.depth (membersDepth rest)

end

end Written

end ChainClient.Json
