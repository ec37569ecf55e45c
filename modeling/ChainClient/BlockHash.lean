import ChainClient.Value.Basic

/-! Hashes of blocks: 32 bytes, written as `0x` and 64 digits. -/

namespace ChainClient

structure BlockHash where
  bytes : Vector UInt8 32
  deriving DecidableEq, Repr

inductive BlockHashError where
  | invalidHex (text : String) (cause : HexError)
  | invalidLength (length : Nat)
  deriving DecidableEq, Repr

def BlockHashError.name : BlockHashError → String
  | .invalidHex .. => "InvalidHex"
  | .invalidLength _ => "InvalidLength"

def BlockHashError.message : BlockHashError → String
  | .invalidHex text cause => "Invalid hex format: " ++ text ++ ": " ++ cause.message
  | .invalidLength length => "Expected 32 bytes, got " ++ toString length

namespace BlockHash

def ofBytes? (bytes : Bytes) : Option BlockHash :=
  if h : bytes.length = 32 then some ⟨⟨bytes.toArray, h⟩⟩ else none

/-- The text without one leading `0x`, if there is one. -/
def withoutMarker (text : String) : String :=
  match text.toList with
  | '0' :: 'x' :: rest => String.ofList rest
  | _ => text

def parse (text : String) : Except BlockHashError BlockHash :=
  let digits := withoutMarker text
  match Hex.decode digits with
  | .error cause => .error (.invalidHex digits cause)
  | .ok bytes =>
      match ofBytes? bytes with
      | some hash => .ok hash
      | none => .error (.invalidLength bytes.length)

def parse? (text : String) : Option BlockHash := (parse text).toOption

def render (hash : BlockHash) : String := Hex.encode0x hash.bytes.toList

def toValue (hash : BlockHash) : Value := .ofBytes hash.bytes.toList

end BlockHash

end ChainClient
