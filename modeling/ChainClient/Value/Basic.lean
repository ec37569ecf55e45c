import ChainClient.Hex

/-! Decoded values, and the looser forms that are accepted for encoding. -/

namespace ChainClient

inductive Value where
  /-- An option without a value. -/
  | null
  | bool (b : Bool)
  | unsigned (n : Nat)
  | signed (n : Int)
  | string (text : String)
  | sequence (items : List Value)
  /-- Named fields in declaration order. -/
  | composite (fields : List (String × Value))
  | variant (name : String) (index : UInt8) (fields : List Value)
  deriving BEq, Repr, Inhabited

namespace Value

/-- Raw bytes are carried as hexadecimal text. -/
def ofBytes (bytes : Bytes) : Value := .string (Hex.encode0x bytes)

/-- The first field of that name. -/
def get? (value : Value) (name : String) : Option Value :=
  match value with
  | .composite fields => fields.lookup name
  | _ => none

def toNat? : Value → Option Nat
  | .unsigned n => some n
  | .signed n => if 0 ≤ n then some n.toNat else none
  | _ => none

def string? : Value → Option String
  | .string text => some text
  | _ => none

def toBytes? : Value → Option Bytes
  | .string text => Hex.decode0x? text
  | _ => none

def kind : Value → String
  | .null => "null"
  | .bool _ => "bool"
  | .unsigned _ => "unsigned integer"
  | .signed _ => "signed integer"
  | .string _ => "string"
  | .sequence _ => "sequence"
  | .composite _ => "composite"
  | .variant .. => "variant"

end Value

end ChainClient
