import ChainClient.Json.Number

/-! JSON values.  The members of an object keep their order. -/

namespace ChainClient

inductive Json where
  | null
  | bool (b : Bool)
  | number (n : Json.Number)
  | string (text : String)
  | array (items : List Json)
  | object (members : List (String × Json))
  deriving BEq, Repr, Inhabited

namespace Json

def nat (n : Nat) : Json := .number (.int n)

def member? (json : Json) (name : String) : Option Json :=
  match json with
  | .object members => members.lookup name
  | _ => none

def string? : Json → Option String
  | .string text => some text
  | _ => none

def toUInt64? : Json → Option Nat
  | .number n => n.toUInt64?
  | _ => none

def isNull : Json → Bool
  | .null => true
  | _ => false

end Json

end ChainClient
